import PullCursor.Callback
import PullCursor.Sweep

/-! Sinks. Those that use a source up close it once and last, whatever happens while they pull, and
a failure to pull is worth more than a failure to close. -/
namespace PullCursor.Sink

variable {σ τ α β ν ε ε' : Type}

/-- Closes after `body`, however that ends. A fault of `body` wins over one of `close`. When `body`
panics the panic goes on after the close; should that panic too, the first panic is the one kept. -/
def thenClose (body : Action σ ε β) (close : Action σ ε Unit) : Action σ ε β := fun s =>
  match body s with
  | ⟨.ok b, s, t⟩ =>
      let r := close s
      ⟨r.outcome.map fun _ => b, r.state, t ++ r.trace⟩
  | ⟨.error e, s, t⟩ =>
      match close s with
      | ⟨.ok _, s, t'⟩ => ⟨.error e, s, t ++ t'⟩
      | ⟨.error _, s, t'⟩ => ⟨.error e, s, t ++ t' ++ [.log .closeFailedToo]⟩
      | ⟨.panic m, s, t'⟩ => ⟨.panic m, s, t ++ t'⟩
  | ⟨.panic m, s, t⟩ =>
      match close s with
      | ⟨.error _, s, t'⟩ => ⟨.panic m, s, t ++ t' ++ [.log .closeFailedUnwinding]⟩
      | ⟨_, s, t'⟩ => ⟨.panic m, s, t ++ t'⟩

def drain (c : EndingSource σ α ε) (visit : α → Action ν ε Unit) : Action (σ × ν) ε Unit :=
  c.sweep (return ()) (Sweep.onward visit)

def visitAll (c : EndingSource σ α ε) (visit : α → Action ν ε Unit) (start : ν) :
    Action σ ε ν :=
  thenClose (Prod.snd <$> (drain c visit).withLocal start) c.close

def fold (c : EndingSource σ α ε) (extend : ν → α → ν) (empty : ν) : Action σ ε ν :=
  visitAll c (fun x => Action.modify (extend · x)) empty

def toList (c : EndingSource σ α ε) : Action σ ε (List α) :=
  List.reverse <$> visitAll c Sweep.gather []

def count (c : EndingSource σ α ε) : Action σ ε Nat := fold c (fun n _ => n + 1) 0

def visitEach (c : EndingSource σ α ε) (mark : String → α → Event) (f : Callback α β)
    (shown : β → Event) : Action σ ε Unit :=
  (fun _ => ()) <$> visitAll c (fun x => do Action.emit [shown (← f.call mark x)]) .empty

def first (c : Source σ α ε) : Action σ ε (Option α) := thenClose c.pull c.close

def compare (b : Cursor τ β ε) (same : α → β → Bool) (x : α) : Action τ ε (Turn Bool) := do
  match ← b.pull with
  | none => return .stop false
  | some y => if same x y then return .again else return .stop false

/-- Behind the last element of the first cursor the second one is only asked whether it has more. -/
def atEnd (b : Cursor τ β ε) : Action τ ε Bool := return !(← b.hasNext)

/-- Do both cursors have the same elements in the same order, and equally many? Neither is closed,
and nothing is pulled beyond the first difference. -/
def agree (a : EndingSource σ α ε) (b : Cursor τ β ε) (same : α → β → Bool) :
    Action (σ × τ) ε Bool :=
  a.sweep (atEnd b) (compare b same)

def closeLogged (c : Source σ α ε) (report : ε → String) : Action σ ε' Unit := do
  match ← c.close.caught with
  | .ok () => return ()
  | .error e => Action.emit [.log (.closeFailed (report e))]

/-- Closes sources from left to right, whether they fail or not. The states of those that were
reached are kept even if one of them panics. -/
def closeEach (c : Source σ α ε) (position : Nat) (errs : Aggregate ε) :
    Action (List σ) ε' (Aggregate ε)
  | [] => ⟨.ok errs, [], []⟩
  | s :: rest =>
      match c.close s with
      | ⟨.ok _, s, t⟩ =>
          let r := closeEach c (position + 1) errs rest
          ⟨r.outcome, s :: r.state, t ++ r.trace⟩
      | ⟨.error e, s, t⟩ =>
          let r := closeEach c (position + 1) (errs.pushAt position e) rest
          ⟨r.outcome, s :: r.state, t ++ r.trace⟩
      | ⟨.panic m, s, t⟩ => ⟨.panic m, s :: rest, t⟩

def closeAll (c : Source σ α ε) : Action (List σ) ε' (Aggregate ε) :=
  closeEach c 0 (.empty "iterations")

end PullCursor.Sink
