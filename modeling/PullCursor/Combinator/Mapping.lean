import PullCursor.Callback
import PullCursor.Cursor

/-! Applying a function to what comes up from below, to every element or to every fault. Nothing is
kept ahead: each operation is the same operation below. -/
namespace PullCursor

variable {σ α β ε ε' : Type}

namespace Map

def lift (mark : String → α → Event)
    (f : Callback α β) : Option α → Action (σ × History α) ε (Option β)
  | none => return none
  | some x => some <$> (f.call mark x).onSnd

def cursor (c : Cursor σ α ε) (mark : String → α → Event)
    (f : Callback α β) : Cursor (σ × History α) β ε where
  pull := do lift mark f (← c.pull.onFst)
  close := c.close.onFst
  hasNext := c.hasNext.onFst
  next := do (f.call mark (← c.next.onFst)).onSnd

def finite (c : FiniteCursor σ α ε) (mark : String → α → Event)
    (f : Callback α β) : FiniteCursor (σ × History α) β ε where
  toCursor := cursor c.toCursor mark f
  size s := c.size s.1
  pull_spends := by
    refine c.pull_spends.onFst.bind fun x s => ?_
    cases x with
    | none => simp [lift, Outcome.weigh, arrived]
    | some x =>
      simp only [lift, Action.map_apply, Action.onSnd]
      cases (f.call mark x s.2).outcome <;> simp [Outcome.weigh, Outcome.map, arrived]
  close_spends := c.close_spends.onFst
  hasNext_spends := c.hasNext_spends.onFst
  next_spends := by
    refine c.next_spends.onFst.bind fun x s => ?_
    simp only [Action.onSnd]
    cases (f.call mark x s.2).outcome <;> simp [Outcome.weigh]

end Map

def Action.failWith {δ : Type} (answer : Action (History ε) δ ε') (wrap : ε' → δ) :
    Action (σ × History ε) δ β := do
  Action.fail (wrap (← answer.onSnd))

theorem Action.failWith_spends {δ : Type} (size : σ → Nat) (w : β → Nat)
    (answer : Action (History ε) δ ε') (wrap : ε' → δ) :
    (answer.failWith wrap : Action (σ × History ε) δ β).Spends (fun s => size s.1) w :=
  Spends.onSnd.bind fun e' s => by simp [Action.fail, Outcome.weigh]

def Cursor.answering (c : Cursor σ α ε) (answer : {δ : Type} → ε → Action (History ε) δ ε') :
    Cursor (σ × History ε) α ε' where
  pull := c.pull.onFst.handle fun e => (answer e).failWith id
  close := c.close.onFst.handle fun e => (answer e).failWith id
  hasNext := c.hasNext.onFst.handle fun e => (answer e).failWith id
  next := c.next.onFst.handle fun
    | .exhausted => Action.fail .exhausted
    | .failed e => (answer e).failWith .failed

def FiniteCursor.answering (c : FiniteCursor σ α ε)
    (answer : {δ : Type} → ε → Action (History ε) δ ε') : FiniteCursor (σ × History ε) α ε' where
  toCursor := c.toCursor.answering answer
  size s := c.size s.1
  pull_spends := c.pull_spends.onFst.handle fun _ => Action.failWith_spends _ _ _ _
  close_spends := c.close_spends.onFst.handle fun _ => Action.failWith_spends _ _ _ _
  hasNext_spends := c.hasNext_spends.onFst.handle fun _ => Action.failWith_spends _ _ _ _
  next_spends := c.next_spends.onFst.handle fun
    | .exhausted => .fail _
    | .failed _ => Action.failWith_spends _ _ _ _

def Reword.answer {δ : Type} (mark : String → ε → Event) (f : Callback ε ε') (e : ε) :
    Action (History ε) δ ε' :=
  f.call mark e

/-- The function converts a fault, or declines and hands one back: `declined` says what becomes of
that. -/
def Convert.answer {δ : Type} (mark : String → ε → Event) (f : Callback ε (Except ε ε'))
    (declined : ε → ε') (e : ε) : Action (History ε) δ ε' := do
  match ← f.call mark e with
  | .ok converted => return converted
  | .error kept => return declined kept

end PullCursor
