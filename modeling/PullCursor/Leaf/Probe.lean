import PullCursor.Lookahead

/-! A probe hands out given elements, fails where it is told to, and lets every use be seen. -/
namespace PullCursor.Leaf

structure ProbeOrders where
  label : Nat
  /-- Fail instead of computing the element at this position. The position after the last element
  stands for the end. -/
  failAt : Option Nat
  failOnRelease : Bool

structure Probe (α : Type) where
  items : List α
  position : Nat

namespace Probe

variable {α : Type}

def pull (o : ProbeOrders) : Action (Probe α) Fault (Option α) := fun s =>
  let seen := [.probed o.label .compute]
  if o.failAt = some s.position then ⟨.error (.element s.position), s, seen⟩
  else
    match s.items with
    | [] => ⟨.ok none, s, seen⟩
    | x :: rest => ⟨.ok (some x), ⟨rest, s.position + 1⟩, seen⟩

def release (o : ProbeOrders) : Action (Probe α) Fault Unit := do
  Action.emit [.probed o.label .release]
  if o.failOnRelease then Action.fail .release

def source (o : ProbeOrders) : FiniteSource (Probe α) α Fault where
  pull := pull o
  close := release o
  size s := s.items.length
  pull_spends s := by
    unfold pull
    rcases s with ⟨_ | _, _⟩ <;> dsimp only <;> split <;> simp [Outcome.weigh, arrived]
  close_spends s := by
    unfold release
    cases o.failOnRelease <;> simp [Action.bind_apply, Action.emit, Action.fail]

/-- Every call of close can be seen, also one that finds nothing to release. -/
def close (o : ProbeOrders) : Action (Lookahead (Probe α) α) Fault Unit := do
  Action.emit [.probed o.label .closeCall]
  Lookahead.close (source o).toSource

end Probe

def probe {α : Type} (o : ProbeOrders) : FiniteCursor (Lookahead (Probe α) α) α Fault :=
  .ofSteps (Lookahead.look (Probe.source o).toSource) (Lookahead.next (Probe.source o).toSource)
    (Probe.close o) (Lookahead.size (Probe.source (α := α) o).size)
    (Lookahead.look_spends _) (Lookahead.next_spends _) fun s => by
      simpa [Probe.close, Action.bind_apply, Action.emit] using
        Lookahead.close_spends (Probe.source (α := α) o) s

end PullCursor.Leaf
