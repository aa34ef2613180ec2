import PullCursor.Cursor

/-! Any source becomes a cursor by keeping one element ahead. The element is computed when somebody
first asks for it and stays until it is taken; a source that has ended, failed or been closed is
not asked again; and whatever the source holds is released once. -/
namespace PullCursor

inductive Stage (α : Type) where
  | idle
  | ready (x : α)
  | ended
  | closed
  | failed

namespace Stage

variable {α : Type}

def name : Stage α → String
  | .idle => "not ready"
  | .ready _ => "ready"
  | .ended => "done"
  | .closed => "closed"
  | .failed => "failed"

def head? : Stage α → Option α
  | .ready x => some x
  | _ => none

def isClosed : Stage α → Bool
  | .closed => true
  | _ => false

def isFailed : Stage α → Bool
  | .failed => true
  | _ => false

end Stage

structure Lookahead (κ α : Type) where
  inner : κ
  stage : Stage α

namespace Lookahead

variable {κ α β ε : Type}

def start (inner : κ) : Lookahead κ α := ⟨inner, .idle⟩

/-- Makes sure that it is known whether there is a next element. While the source computes, the
stage counts as failed, so a panic leaves it so. -/
def look (c : Source κ α ε) : Action (Lookahead κ α) ε Bool := fun s =>
  match s.stage with
  | .ready _ => ⟨.ok true, s, []⟩
  | .ended | .closed | .failed => ⟨.ok false, s, []⟩
  | .idle =>
      match c.pull s.inner with
      | ⟨.ok (some x), inner, t⟩ => ⟨.ok true, ⟨inner, .ready x⟩, t⟩
      | ⟨.ok none, inner, t⟩ => ⟨.ok false, ⟨inner, .ended⟩, t⟩
      | ⟨.error e, inner, t⟩ => ⟨.error e, ⟨inner, .failed⟩, t ++ [.log .computationFailed]⟩
      | ⟨.panic m, inner, t⟩ => ⟨.panic m, ⟨inner, .failed⟩, t⟩

def peek (c : Source κ α ε) : Action (Lookahead κ α) ε (Option α) := do
  let _ ← look c
  return (← Action.get).stage.head?

def modifyHead (c : Source κ α ε) (f : α → Except String α) :
    Action (Lookahead κ α) ε (Option α) := do
  match ← peek c with
  | none => return none
  | some x =>
      let y ← Action.ofExcept (f x)
      Action.modify fun s => { s with stage := .ready y }
      return some y

def next (c : Source κ α ε) : Action (Lookahead κ α) (Stop ε) α := do
  let _ ← (look c).mapOutcome (Outcome.mapError .failed)
  match (← Action.get).stage with
  | .ready x =>
      Action.modify fun s => { s with stage := .idle }
      return x
  | _ => Action.fail .exhausted

def takeIf (c : Source κ α ε) (accept : α → Except String Bool) :
    Action (Lookahead κ α) ε (Option α) := do
  match ← peek c with
  | none => return none
  | some x =>
      if ← Action.ofExcept (accept x) then (next c).mapOutcome Stop.settle else return none

/-- Closes the lookahead and runs `release` on the source, unless that has been done before. The
element kept ahead is dropped. -/
def closeBy (release : Action κ ε β) : Action (Lookahead κ α) ε (Option β) := fun s =>
  if s.stage.isClosed then ⟨.ok none, s, []⟩
  else
    let r := release s.inner
    let notices := if s.stage.isFailed then [.log .closingFailed] else []
    ⟨r.outcome.map some, ⟨r.state, .closed⟩, notices ++ r.trace⟩

def close (c : Source κ α ε) : Action (Lookahead κ α) ε Unit :=
  (fun _ => ()) <$> closeBy c.close

def modifyInner (f : κ → κ) : Action (Lookahead κ α) ε Unit :=
  Action.modify fun s => { s with inner := f s.inner }

def cursor (c : Source κ α ε) : Cursor (Lookahead κ α) α ε :=
  .ofSteps (look c) (next c) (close c)

def size (inner : κ → Nat) (s : Lookahead κ α) : Nat := inner s.inner + arrived s.stage.head?

theorem look_spends (c : FiniteSource κ α ε) :
    (look c.toSource).Spends (size (α := α) c.size) fun _ => 0 := by
  rintro ⟨inner, stage⟩
  cases stage <;> simp only [look, Outcome.weigh, Nat.add_zero, Nat.le_refl]
  have h := c.pull_spends inner
  rcases e : c.pull inner with ⟨(_ | x) | _ | _, _, _⟩ <;>
    simp_all [Outcome.weigh, size, arrived, Stage.head?]

theorem next_spends (c : FiniteSource κ α ε) :
    (next c.toSource).Spends (size (α := α) c.size) fun _ => 1 := by
  have h : ((look c.toSource).mapOutcome (Outcome.mapError Stop.failed)).Spends
      (size (α := α) c.size) fun _ => 0 :=
    (look_spends c).mapOutcome fun o => by cases o <;> simp [Outcome.mapError, Outcome.weigh]
  refine h.bind fun _ s => ?_
  obtain ⟨inner, stage⟩ := s
  cases stage <;>
    simp [Action.get, Action.modify, Action.fail, Action.bind_apply, Outcome.weigh, Outcome.map,
      size, arrived, Stage.head?]

theorem close_spends (c : FiniteSource κ α ε) :
    (close c.toSource).Spends (size (α := α) c.size) fun _ => 0 := by
  rintro ⟨inner, stage⟩
  have h := c.close_spends inner
  cases stage <;> simp_all [close, closeBy, Stage.isClosed, size, arrived, Stage.head?]
  omega

end Lookahead

def FiniteCursor.lookahead {κ α ε : Type} (c : FiniteSource κ α ε) :
    FiniteCursor (Lookahead κ α) α ε :=
  .ofSteps (Lookahead.look c.toSource) (Lookahead.next c.toSource) (Lookahead.close c.toSource)
    (Lookahead.size c.size) (Lookahead.look_spends c) (Lookahead.next_spends c)
    (Lookahead.close_spends c)

end PullCursor
