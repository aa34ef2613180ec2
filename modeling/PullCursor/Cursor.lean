import PullCursor.Action

/-! Sources and cursors. A source is pulled one element at a time and closed; a cursor can also be
asked whether there is a next element, and for that element alone. Nothing is assumed about how
the operations fit together: that is for each construction to show. -/
namespace PullCursor

inductive Stop (ε : Type) where
  | exhausted
  | failed (fault : ε)

namespace Stop

variable {ε ε' α : Type}

def mapM {m : Type → Type} [Monad m] (f : ε → m ε') : Stop ε → m (Stop ε')
  | .exhausted => return .exhausted
  | .failed e => return .failed (← f e)

def toFault : Stop Fault → Fault
  | .exhausted => .exhausted
  | .failed e => .failed e

def settle : Outcome (Stop ε) α → Outcome ε (Option α)
  | .ok x => .ok (some x)
  | .error .exhausted => .ok none
  | .error (.failed e) => .error e
  | .panic m => .panic m

end Stop

def arrived {α : Type} : Option α → Nat
  | some _ => 1
  | none => 0

structure Source (σ α ε : Type) where
  pull : Action σ ε (Option α)
  close : Action σ ε Unit

structure Cursor (σ α ε : Type) extends Source σ α ε where
  hasNext : Action σ ε Bool
  next : Action σ (Stop ε) α

/-- A source whose elements run out: each one delivered lowers the size, so a loop that stops when
no element arrives ends. A pull that delivers none may leave anything behind. -/
structure EndingSource (σ α ε : Type) extends Source σ α ε where
  size : σ → Nat
  pull_lowers : ∀ {s s' : σ} {x : α} {t : List Event},
    pull s = ⟨.ok (some x), s', t⟩ → size s' < size s

theorem Action.Spends.lowers {σ α ε : Type} {pull : Action σ ε (Option α)} {size : σ → Nat}
    (h : pull.Spends size arrived) {s s' : σ} {x : α} {t : List Event}
    (e : pull s = ⟨.ok (some x), s', t⟩) : size s' < size s := by
  have := h s
  rw [e] at this
  exact this

/-- A source with a bound on all the elements it can ever deliver: no operation raises the size,
whatever comes of it. -/
structure FiniteSource (σ α ε : Type) extends EndingSource σ α ε where
  pull_spends : pull.Spends size arrived
  close_spends : close.Spends size fun _ => 0
  pull_lowers := fun e => pull_spends.lowers e

structure FiniteCursor (σ α ε : Type) extends Cursor σ α ε, FiniteSource σ α ε where
  hasNext_spends : hasNext.Spends size fun _ => 0
  next_spends : next.Spends size fun _ => 1

variable {σ α ε : Type}

/-- To pull is to ask whether there is an element and, if so, to request it. -/
def pullByNext (hasNext : Action σ ε Bool) (next : Action σ (Stop ε) α) :
    Action σ ε (Option α) := do
  if ← hasNext then next.mapOutcome Stop.settle else pure none

theorem pullByNext_spends {hasNext : Action σ ε Bool} {next : Action σ (Stop ε) α}
    {size : σ → Nat} (h : hasNext.Spends size fun _ => 0) (n : next.Spends size fun _ => 1) :
    (pullByNext hasNext next).Spends size arrived := by
  refine h.bind fun b s => ?_
  cases b
  · simp [Outcome.weigh, arrived]
  · refine Action.Spends.mapOutcome n ?_ s
    rintro (_ | (_ | _) | _) <;> simp [Stop.settle, Outcome.weigh, arrived]

def Cursor.ofSteps (hasNext : Action σ ε Bool) (next : Action σ (Stop ε) α)
    (close : Action σ ε Unit) : Cursor σ α ε where
  pull := pullByNext hasNext next
  close := close
  hasNext := hasNext
  next := next

def FiniteCursor.ofSteps (hasNext : Action σ ε Bool) (next : Action σ (Stop ε) α)
    (close : Action σ ε Unit) (size : σ → Nat) (h : hasNext.Spends size fun _ => 0)
    (n : next.Spends size fun _ => 1) (c : close.Spends size fun _ => 0) :
    FiniteCursor σ α ε where
  toCursor := .ofSteps hasNext next close
  size := size
  pull_spends := pullByNext_spends h n
  close_spends := c
  hasNext_spends := h
  next_spends := n

section Family

variable {ι : Type} {σ : ι → Type}

def Action.choose {β : Type} (m : (i : ι) → Action (σ i) ε β) : Action (Σ i, σ i) ε β := fun s =>
  let r := m s.1 s.2
  ⟨r.outcome, ⟨s.1, r.state⟩, r.trace⟩

def FiniteCursor.family (c : (i : ι) → FiniteCursor (σ i) α ε) :
    FiniteCursor (Σ i, σ i) α ε where
  pull := .choose fun i => (c i).pull
  close := .choose fun i => (c i).close
  hasNext := .choose fun i => (c i).hasNext
  next := .choose fun i => (c i).next
  size s := (c s.1).size s.2
  pull_spends s := (c s.1).pull_spends s.2
  close_spends s := (c s.1).close_spends s.2
  hasNext_spends s := (c s.1).hasNext_spends s.2
  next_spends s := (c s.1).next_spends s.2

end Family

end PullCursor
