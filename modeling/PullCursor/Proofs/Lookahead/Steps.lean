import PullCursor.Lookahead

/-! What each operation of a lookahead does in each stage. Only in the idle stage does anything
reach the source; a stage that is over answers without it and stays as it is. -/
namespace PullCursor

variable {κ α β ε : Type}

/-- There is no element ahead and none will be computed. -/
def Stage.isOver : Stage α → Bool
  | .ended | .closed | .failed => true
  | _ => false

theorem Stage.isOver_of_isClosed {stage : Stage α} (h : stage.isClosed) : stage.isOver := by
  cases stage <;> first | rfl | cases h

namespace Lookahead

variable (c : Source κ α ε)

@[simp] theorem look_ready (inner : κ) (x : α) :
    look c ⟨inner, .ready x⟩ = ⟨.ok true, ⟨inner, .ready x⟩, []⟩ := rfl

theorem look_over {s : Lookahead κ α} (h : s.stage.isOver) : look c s = ⟨.ok false, s, []⟩ := by
  obtain ⟨inner, stage⟩ := s
  cases stage <;> first | rfl | contradiction

theorem look_idle (inner : κ) :
    look c ⟨inner, .idle⟩ = match c.pull inner with
      | ⟨.ok (some x), inner, t⟩ => ⟨.ok true, ⟨inner, .ready x⟩, t⟩
      | ⟨.ok none, inner, t⟩ => ⟨.ok false, ⟨inner, .ended⟩, t⟩
      | ⟨.error e, inner, t⟩ => ⟨.error e, ⟨inner, .failed⟩, t ++ [.log .computationFailed]⟩
      | ⟨.panic m, inner, t⟩ => ⟨.panic m, ⟨inner, .failed⟩, t⟩ := rfl

@[simp] theorem next_ready (inner : κ) (x : α) :
    next c ⟨inner, .ready x⟩ = ⟨.ok x, ⟨inner, .idle⟩, []⟩ := rfl

theorem next_over {s : Lookahead κ α} (h : s.stage.isOver) :
    next c s = ⟨.error .exhausted, s, []⟩ := by
  obtain ⟨inner, stage⟩ := s
  cases stage <;> first | rfl | contradiction

theorem next_idle (inner : κ) :
    next c ⟨inner, .idle⟩ = match c.pull inner with
      | ⟨.ok (some x), inner, t⟩ => ⟨.ok x, ⟨inner, .idle⟩, t⟩
      | ⟨.ok none, inner, t⟩ => ⟨.error .exhausted, ⟨inner, .ended⟩, t⟩
      | ⟨.error e, inner, t⟩ =>
          ⟨.error (.failed e), ⟨inner, .failed⟩, t ++ [.log .computationFailed]⟩
      | ⟨.panic m, inner, t⟩ => ⟨.panic m, ⟨inner, .failed⟩, t⟩ := by
  unfold next
  rw [Action.bind_apply]
  unfold Action.mapOutcome
  rw [look_idle]
  rcases c.pull inner with ⟨(_ | x) | e | m, inner', t⟩
  · simp [Outcome.mapError, Action.bind_apply, Action.get, Action.fail]
  · simp [Outcome.mapError, Action.bind_apply, Action.get, Action.modify, Outcome.map]
  · rfl
  · rfl

@[simp] theorem pull_ready (inner : κ) (x : α) :
    (cursor c).pull ⟨inner, .ready x⟩ = ⟨.ok (some x), ⟨inner, .idle⟩, []⟩ := rfl

theorem pull_over {s : Lookahead κ α} (h : s.stage.isOver) :
    (cursor c).pull s = ⟨.ok none, s, []⟩ := by
  show pullByNext (look c) (next c) s = _
  unfold pullByNext
  rw [Action.bind_apply, look_over c h]
  rfl

theorem pull_idle (inner : κ) :
    (cursor c).pull ⟨inner, .idle⟩ = match c.pull inner with
      | ⟨.ok (some x), inner, t⟩ => ⟨.ok (some x), ⟨inner, .idle⟩, t⟩
      | ⟨.ok none, inner, t⟩ => ⟨.ok none, ⟨inner, .ended⟩, t⟩
      | ⟨.error e, inner, t⟩ => ⟨.error e, ⟨inner, .failed⟩, t ++ [.log .computationFailed]⟩
      | ⟨.panic m, inner, t⟩ => ⟨.panic m, ⟨inner, .failed⟩, t⟩ := by
  show pullByNext (look c) (next c) _ = _
  unfold pullByNext
  rw [Action.bind_apply, look_idle]
  rcases c.pull inner with ⟨(_ | x) | _ | _, inner', t⟩ <;>
    simp [Action.mapOutcome, Stop.settle]

theorem look_settles (s : Lookahead κ α) : match (look c s).outcome with
    | .ok true => ∃ x, (look c s).state.stage = .ready x
    | _ => (look c s).state.stage.isOver := by
  obtain ⟨inner, stage⟩ := s
  cases stage with
  | idle =>
    rw [look_idle]
    rcases c.pull inner with ⟨(_ | x) | _ | _, inner', t⟩
    · rfl
    · exact ⟨x, rfl⟩
    · rfl
    · rfl
  | ready x => exact ⟨x, rfl⟩
  | _ => rfl

theorem next_settles (s : Lookahead κ α) : match (next c s).outcome with
    | .ok _ => (next c s).state.stage = .idle
    | _ => (next c s).state.stage.isOver := by
  obtain ⟨inner, stage⟩ := s
  cases stage with
  | idle =>
    rw [next_idle]
    rcases c.pull inner with ⟨(_ | x) | _ | _, inner', t⟩ <;> rfl
  | _ => rfl

variable (release : Action κ ε β)

theorem closeBy_again {s : Lookahead κ α} (h : s.stage.isClosed) :
    closeBy release s = ⟨.ok none, s, []⟩ := by
  simp [closeBy, h]

theorem closeBy_open {s : Lookahead κ α} (h : s.stage.isClosed = false) :
    closeBy release s = ⟨(release s.inner).outcome.map some, ⟨(release s.inner).state, .closed⟩,
      (if s.stage.isFailed then [.log .closingFailed] else []) ++ (release s.inner).trace⟩ := by
  simp [closeBy, h]

theorem close_again {s : Lookahead κ α} (h : s.stage.isClosed) : close c s = ⟨.ok (), s, []⟩ := by
  unfold close
  rw [Action.map_apply, closeBy_again c.close h]
  rfl

theorem close_open {s : Lookahead κ α} (h : s.stage.isClosed = false) :
    close c s = ⟨(c.close s.inner).outcome, ⟨(c.close s.inner).state, .closed⟩,
      (if s.stage.isFailed then [.log .closingFailed] else []) ++ (c.close s.inner).trace⟩ := by
  unfold close
  rw [Action.map_apply, closeBy_open c.close h]
  cases (c.close s.inner).outcome <;> rfl

end Lookahead

end PullCursor
