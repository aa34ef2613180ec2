import PullCursor.Cursor

/-! A sweep pulls one element after another and shows each to a visitor, until the visitor stops or
no element arrives. Everything that pulls in a loop is a sweep; what differs is the visitor. -/
namespace PullCursor

variable {σ τ α β ε : Type}

namespace Sweep

def onward (visit : α → Action τ ε Unit) (x : α) : Action τ ε (Turn Unit) := do
  visit x
  return .again

def gather (x : α) : Action (List α) ε Unit := Action.modify (x :: ·)

theorem onward_apply (visit : α → Action τ ε Unit) (x : α) (v : τ) :
    onward visit x v =
      ⟨(visit x v).outcome.map fun _ => .again, (visit x v).state, (visit x v).trace⟩ := by
  rw [onward, bind_pure_comp, Action.map_apply]

theorem onward_of_ok {visit : α → Action τ ε Unit} {x : α} {v : τ}
    (h : (visit x v).outcome = .ok ()) :
    onward visit x v = ⟨.ok .again, (visit x v).state, (visit x v).trace⟩ := by
  rw [onward_apply, h]
  rfl

@[simp] theorem gather_apply (x : α) (xs : List α) :
    (gather x : Action (List α) ε Unit) xs = ⟨.ok (), x :: xs, []⟩ := rfl

def turn (c : Source σ α ε) (atEnd : Action τ ε β) (visit : α → Action τ ε (Turn β)) :
    Action (σ × τ) ε (Turn β) := do
  match ← c.pull.onFst with
  | none => return .stop (← atEnd.onSnd)
  | some x => (visit x).onSnd

section Outcomes

variable {c : Source σ α ε} (atEnd : Action τ ε β) (visit : α → Action τ ε (Turn β)) {s s' : σ}
  {t : List Event} (v : τ)

theorem turn_none (h : c.pull s = ⟨.ok none, s', t⟩) :
    turn c atEnd visit (s, v) =
      ⟨(atEnd v).outcome.map .stop, (s', (atEnd v).state), t ++ (atEnd v).trace⟩ := by
  simp only [turn, Action.bind_apply, Action.onFst, h, bind_pure_comp, Action.map_apply,
    Action.onSnd]

theorem turn_some {x : α} (h : c.pull s = ⟨.ok (some x), s', t⟩) :
    turn c atEnd visit (s, v) =
      ⟨(visit x v).outcome, (s', (visit x v).state), t ++ (visit x v).trace⟩ := by
  simp only [turn, Action.bind_apply, Action.onFst, h, Action.onSnd]

theorem turn_error {e : ε} (h : c.pull s = ⟨.error e, s', t⟩) :
    turn c atEnd visit (s, v) = ⟨.error e, (s', v), t⟩ := by
  simp only [turn, Action.bind_apply, Action.onFst, h]

theorem turn_panic {m : String} (h : c.pull s = ⟨.panic m, s', t⟩) :
    turn c atEnd visit (s, v) = ⟨.panic m, (s', v), t⟩ := by
  simp only [turn, Action.bind_apply, Action.onFst, h]

end Outcomes

theorem turn_shrinks (c : EndingSource σ α ε) (atEnd : Action τ ε β)
    (visit : α → Action τ ε (Turn β)) :
    (turn c.toSource atEnd visit).Shrinks fun s => c.size s.1 := by
  intro s s' t h
  obtain ⟨x, s₁, t₁, t₂, h₁, h₂, -⟩ := Action.bind_eq_ok.1 h
  cases x with
  | none =>
    obtain ⟨_, _, _, _, -, h₃, -⟩ := Action.bind_eq_ok.1 h₂
    simp at h₃
  | some x =>
    simp only [Action.onFst, Action.onSnd, Reply.mk.injEq] at h₁ h₂
    rw [← h₂.2.1, ← h₁.2.1]
    exact c.pull_lowers (s := s.1) (t := t₁) (by rw [← h₁.1, ← h₁.2.2])

theorem turn_spends (c : FiniteSource σ α ε) {atEnd : Action τ ε β}
    {visit : α → Action τ ε (Turn β)} {w : β → Nat} (h₀ : ∀ s, (atEnd s).outcome.weigh w = 0)
    (h₁ : ∀ x s, (visit x s).outcome.weigh (Turn.delivered w) ≤ 1) :
    (turn c.toSource atEnd visit).Spends (fun s => c.size s.1) (Turn.delivered w) := by
  refine c.pull_spends.onFst.bind fun x s => ?_
  cases x with
  | none =>
    have h := h₀ s.2
    simp only [bind_pure_comp, Action.map_apply, Action.onSnd, Outcome.weigh_map]
    simp only [Turn.delivered, arrived, h, Nat.le_refl]
  | some x => exact Nat.add_le_add_left (h₁ x s.2) _

end Sweep

/-- Pulls and visits until the visitor stops; `atEnd` answers when no element arrives. -/
def EndingSource.sweep (c : EndingSource σ α ε) (atEnd : Action τ ε β)
    (visit : α → Action τ ε (Turn β)) : Action (σ × τ) ε β :=
  Action.loop (fun s => c.size s.1) (Sweep.turn c.toSource atEnd visit)
    (Sweep.turn_shrinks c atEnd visit)

theorem FiniteSource.sweep_spends (c : FiniteSource σ α ε) {atEnd : Action τ ε β}
    {visit : α → Action τ ε (Turn β)} {w : β → Nat} (h₀ : ∀ s, (atEnd s).outcome.weigh w = 0)
    (h₁ : ∀ x s, (visit x s).outcome.weigh (Turn.delivered w) ≤ 1) :
    (c.sweep atEnd visit).Spends (fun s => c.size s.1) w :=
  .loop (Sweep.turn_spends c h₀ h₁)

end PullCursor
