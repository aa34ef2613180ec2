import Std.Data.TreeSet.Basic
import PullCursor.Callback
import PullCursor.Sweep

/-! Keeping some of the elements: those that pass a test, or those not seen before. Pulling goes on
until an element stays, so the elements have to run out. -/
namespace PullCursor

namespace Filter

variable {σ α ε : Type}

def visit (mark : String → α → Event) (test : Callback α Bool) (x : α) :
    Action (History α) ε (Turn (Option α)) := do
  if ← test.call mark x then return .stop (some x) else return .again

def source (c : EndingSource σ α ε) (mark : String → α → Event) (test : Callback α Bool) :
    Source (σ × History α) α ε where
  pull := c.sweep (return none) (visit mark test)
  close := c.close.onFst

def finite (c : FiniteSource σ α ε) (mark : String → α → Event) (test : Callback α Bool) :
    FiniteSource (σ × History α) α ε where
  toSource := source c.toEndingSource mark test
  size s := c.size s.1
  pull_spends := c.sweep_spends (fun _ => rfl) fun x s => by
    rw [visit, Action.bind_apply]
    rcases test.call mark x s with ⟨(_ | _) | _ | _, _, _⟩ <;>
      simp [Outcome.weigh, Turn.delivered, arrived]
  close_spends := c.close_spends.onFst

end Filter

namespace Distinct

variable {σ α ε : Type} {cmp : α → α → Ordering}

def visit (x : α) : Action (Std.TreeSet α cmp) ε (Turn (Option α)) := do
  if (← Action.get).contains x then return .again
  else
    Action.modify (·.insert x)
    return .stop (some x)

/-- The elements, in order, without those that `cmp` cannot tell from an earlier one. Closing
forgets the earlier ones first. -/
def source (c : EndingSource σ α ε) : Source (σ × Std.TreeSet α cmp) α ε where
  pull := c.sweep (return none) visit
  close := do
    Action.modify fun s => (s.1, ∅)
    c.close.onFst

def finite (c : FiniteSource σ α ε) : FiniteSource (σ × Std.TreeSet α cmp) α ε where
  toSource := source c.toEndingSource
  size s := c.size s.1
  pull_spends := c.sweep_spends (fun _ => rfl) fun x s => by
    rw [visit, Action.get_bind_apply]
    split <;> simp [Outcome.weigh, Turn.delivered, arrived]
  close_spends s := by
    simpa [source, Action.bind_apply, Action.modify, Action.onFst] using c.close_spends s.1

end Distinct

end PullCursor
