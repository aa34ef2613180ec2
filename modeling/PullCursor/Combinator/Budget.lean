import PullCursor.Cursor

/-! At most so many elements. The budget stands beside the cursor's state and is charged when an
element is handed out; once it is used up, nothing but close reaches the cursor. -/
namespace PullCursor.Budget

variable {σ α ε : Type}

def hasNext (c : Cursor σ α ε) : Action (σ × Nat) ε Bool := do
  if (← Action.get).2 = 0 then return false else c.hasNext.onFst

/-- An element that does come up is charged; a failure is not. -/
def next (c : Cursor σ α ε) : Action (σ × Nat) (Stop ε) α := do
  if (← Action.get).2 = 0 then Action.fail .exhausted
  else
    let x ← c.next.onFst
    Action.modify fun s => (s.1, s.2 - 1)
    return x

def close (c : Cursor σ α ε) : Action (σ × Nat) ε Unit := do
  Action.modify fun s => (s.1, 0)
  c.close.onFst

def cursor (c : Cursor σ α ε) : Cursor (σ × Nat) α ε := .ofSteps (hasNext c) (next c) (close c)

theorem hasNext_budget (c : Cursor σ α ε) (s : σ × Nat) : (hasNext c s).state.2 = s.2 := by
  rw [hasNext, Action.get_bind_apply]
  split <;> rfl

theorem next_budget {c : Cursor σ α ε} {s s' : σ × Nat} {x : α} {t : List Event}
    (h : next c s = ⟨.ok x, s', t⟩) : s'.2 + 1 = s.2 := by
  rw [next, Action.get_bind_apply] at h
  split at h
  · simp [Action.fail] at h
  · obtain ⟨y, s₁, t₁, t₂, h₁, h₂, -⟩ := Action.bind_eq_ok.1 h
    simp only [Action.modify_bind_apply, Action.pure_apply, Action.onFst, Reply.mk.injEq] at h₁ h₂
    rw [← h₂.2.1, ← h₁.2.1]
    dsimp only
    omega

/-- Whatever the cursor does, its elements run out with the budget. -/
def source (c : Cursor σ α ε) : EndingSource (σ × Nat) α ε where
  toSource := (cursor c).toSource
  size := Prod.snd
  pull_lowers {s s' x t} e := by
    obtain ⟨b, s₁, t₁, t₂, h₁, h₂, -⟩ := Action.bind_eq_ok.1 e
    have hb := hasNext_budget c s
    rw [h₁] at hb
    cases b
    · simp at h₂
    · simp only [if_true, Action.mapOutcome, Reply.mk.injEq] at h₂
      obtain ⟨h₃, rfl, -⟩ := h₂
      rcases h₄ : next c s₁ with ⟨_ | (_ | _) | _, s₂, _⟩ <;> simp [h₄, Stop.settle] at h₃
      have := next_budget h₄
      dsimp only at hb ⊢
      omega

theorem hasNext_spends (c : FiniteCursor σ α ε) :
    (hasNext c.toCursor).Spends (fun s => c.size s.1) fun _ => 0 := by
  refine Action.Spends.bind (v := fun _ => 0) (fun s => by simp [Action.get]) fun b s => ?_
  split
  · simp
  · exact c.hasNext_spends.onFst s

theorem next_spends (c : FiniteCursor σ α ε) :
    (next c.toCursor).Spends (fun s => c.size s.1) fun _ => 1 := by
  refine Action.Spends.bind (v := fun _ => 0) (fun s => by simp [Action.get]) fun b s => ?_
  split
  · simp [Action.fail, Outcome.weigh]
  · refine Action.Spends.bind c.next_spends.onFst (fun x s => ?_) s
    simp [Outcome.weigh]

theorem close_spends (c : FiniteCursor σ α ε) :
    (close c.toCursor).Spends (fun s => c.size s.1) fun _ => 0 := fun s => by
  simpa [close, Action.bind_apply, Action.modify, Action.onFst] using c.close_spends s.1

def finite (c : FiniteCursor σ α ε) : FiniteCursor (σ × Nat) α ε :=
  .ofSteps (hasNext c.toCursor) (next c.toCursor) (close c.toCursor) (fun s => c.size s.1)
    (hasNext_spends c) (next_spends c) (close_spends c)

end PullCursor.Budget
