import PullCursor.Cursor

/-! One source after another. The sources come from a supply, which is asked for the next one only
when the one in use has ended and been closed. Closing closes the one in use and all that the
supply still has, whether they fail to close or not. -/
namespace PullCursor

/-- The child in use, how many were put away before it, the answers the supply has yet to give
(a gap is an answer without a child), and how often it has been asked. -/
structure Series (τ : Type) where
  current : Option τ
  position : Nat
  rest : List (Option τ)
  asked : Nat

namespace Series

variable {τ α ε ε' : Type}

def start (children : List (Option τ)) : Series τ := ⟨none, 0, children, 0⟩

def ask (watch : Nat → List Event) : Action (Series τ) ε (Option τ) := fun s =>
  match s.rest with
  | [] => ⟨.ok none, { s with asked := s.asked + 1 }, watch s.asked⟩
  | child :: rest => ⟨.ok child, { s with rest := rest, asked := s.asked + 1 }, watch s.asked⟩

def onCurrent {β : Type} (child : τ) (m : Action τ ε β) : Action (Series τ) ε β :=
  m.on child fun child s => { s with current := some child }

def onDetached {β : Type} (child : τ) (m : Action τ ε β) : Action (Series τ) ε β :=
  m.on child fun _ s => s

def retire (c : Source τ α ε) : Action (Series τ) ε Unit := do
  match (← Action.get).current with
  | none => return ()
  | some child =>
      Action.modify fun s => { s with current := none, position := s.position + 1 }
      onDetached child c.close

def advance (watch : Nat → List Event) : Action (Series τ) ε (Turn (Option α)) := do
  match ← ask watch with
  | none => return .stop none
  | some child =>
      Action.modify fun s => { s with current := some child }
      return .again

def turn (c : Source τ α ε) (watch : Nat → List Event) :
    Action (Series τ) ε (Turn (Option α)) := do
  match (← Action.get).current with
  | none => advance watch
  | some child =>
      match ← onCurrent child c.pull with
      | some x => return .stop (some x)
      | none =>
          retire c
          advance watch

/-- Closes what the supply still has, until it gives no child. Each failure is recorded under the
child's position. -/
def closeRest (c : Source τ α ε) (watch : Nat → List Event) (position : Nat)
    (errs : Aggregate ε) : List (Option τ) → Action (Series τ) ε' (Aggregate ε × Nat)
  | [] | none :: _ => do
      let _ ← ask watch
      return (errs, position)
  | some child :: rest => do
      let _ ← ask watch
      match ← (onDetached child c.close).caught with
      | .ok () => closeRest c watch (position + 1) errs rest
      | .error e => closeRest c watch (position + 1) (errs.pushAt position e) rest

def closeCurrent (c : Source τ α ε) (position : Nat) (errs : Aggregate ε) :
    Option τ → Action (Series τ) ε' (Aggregate ε × Nat)
  | none => return (errs, position)
  | some child => do
      Action.modify fun s => { s with current := none }
      match ← (onDetached child c.close).caught with
      | .ok () => return (errs, position + 1)
      | .error e => return (errs.pushAt position e, position + 1)

def closeAll (c : Source τ α ε) (watch : Nat → List Event) :
    Action (Series τ) ε' (Aggregate ε) := do
  let s ← Action.get
  let (errs, position) ←
    closeCurrent c s.position (.empty "concatenated iterations") s.current
  let (errs, position) ← closeRest c watch position errs s.rest
  Action.modify fun s => { s with position := position }
  return errs

/-- What the caller of a gathering close is told: of no failure if all had been closed before. -/
def gatheringResult (errs : Option (Aggregate ε)) : Except (Aggregate ε) Unit :=
  errs.elim (.ok ()) Aggregate.result

/-- Closes every child and fails with the first failure; the others are only counted. -/
def release (c : Source τ α ε) (watch : Nat → List Event) : Action (Series τ) ε Unit := do
  match (← closeAll c watch).failures with
  | [] => return ()
  | e :: more => do
      Action.emit (if more.isEmpty then [] else [.log (.failuresDropped more.length)])
      Action.fail e

theorem ask_rest {watch : Nat → List Event} {s s' : Series τ} {child : Option τ}
    {t : List Event} (h : (ask watch : Action (Series τ) ε _) s = ⟨.ok child, s', t⟩) :
    s'.rest = s.rest.tail ∧ (child.isSome → s.rest ≠ []) := by
  unfold ask at h
  cases e : s.rest <;> simp [e] at h <;> obtain ⟨rfl, rfl, _⟩ := h <;> simp

theorem retire_rest {c : Source τ α ε} {s s' : Series τ} {t : List Event}
    (h : retire c s = ⟨.ok (), s', t⟩) : s'.rest = s.rest := by
  simp only [retire, Action.bind_apply, Action.get] at h
  cases e : s.current <;> simp [e, Action.bind_apply, Action.modify, onDetached, Action.on] at h
  · rw [h.1]
  · rw [← h.2.1]

theorem advance_shrinks (watch : Nat → List Event) :
    (advance watch : Action (Series τ) ε (Turn (Option α))).Shrinks fun s => s.rest.length := by
  intro s s' t h
  obtain ⟨child, s₁, t₁, t₂, h₁, h₂, -⟩ := Action.bind_eq_ok.1 h
  obtain ⟨h₃, h₄⟩ := ask_rest h₁
  cases child with
  | none => simp at h₂
  | some child =>
    have h₅ := List.length_pos_iff.2 (h₄ rfl)
    simp only [Action.modify_bind_apply, Action.pure_apply, Reply.mk.injEq] at h₂
    rw [← h₂.2.1]
    simp only [h₃, List.length_tail]
    omega

theorem turn_shrinks (c : Source τ α ε) (watch : Nat → List Event) :
    (turn c watch).Shrinks fun s => s.rest.length := by
  intro s s' t h
  obtain ⟨s₀, s₁, t₁, t₂, h₁, h₂, -⟩ := Action.bind_eq_ok.1 h
  simp only [Action.get, Reply.mk.injEq, Outcome.ok.injEq] at h₁
  obtain ⟨rfl, rfl, rfl⟩ := h₁
  rcases e : s.current with _ | child <;> simp only [e] at h₂
  · exact advance_shrinks watch _ _ _ h₂
  · obtain ⟨x, s₂, t₃, t₄, h₃, h₄, -⟩ := Action.bind_eq_ok.1 h₂
    have e₂ : s₂.rest = s.rest := by
      simp only [onCurrent, Action.on, Reply.mk.injEq] at h₃
      rw [← h₃.2.1]
    cases x with
    | some x => simp at h₄
    | none =>
      obtain ⟨_, s₃, t₅, t₆, h₅, h₆, -⟩ := Action.bind_eq_ok.1 h₄
      have := advance_shrinks watch _ _ _ h₆
      simpa only [retire_rest h₅, e₂] using this

def source (c : Source τ α ε) (watch : Nat → List Event) : Source (Series τ) α ε where
  pull := Action.loop (fun s => s.rest.length) (turn c watch) (turn_shrinks c watch)
  close := release c watch

def size (child : τ → Nat) (s : Series τ) : Nat :=
  s.current.elim 0 child + s.rest.foldr (fun c n => c.elim 0 child + n) 0

section Finite

variable (c : FiniteSource τ α ε) (watch : Nat → List Event)

theorem ask_spends : (ask watch : Action (Series τ) ε' _).Spends (size c.size)
    fun child => child.elim 0 c.size := by
  intro s
  unfold ask
  cases e : s.rest <;> simp [e, size, Outcome.weigh]
  omega

theorem advance_spends : (advance watch : Action (Series τ) ε' (Turn (Option α))).Spends
    (size c.size) (Turn.delivered arrived) := by
  refine (ask_spends c watch).bind fun child s => ?_
  cases child with
  | none => simp [Outcome.weigh, Turn.delivered, arrived]
  | some child =>
    simp only [Action.modify_bind_apply, Action.pure_apply, Outcome.weigh, Turn.delivered, size,
      Option.elim_some]
    omega

theorem onDetached_spends {β : Type} (child : τ) (m : Action τ ε' β) :
    (onDetached child m).Spends (size c.size) fun _ => 0 := fun s => by
  simp [onDetached, Action.on]

theorem retire_spends : (retire c.toSource).Spends (size c.size) fun _ => 0 := by
  intro s
  rw [retire, Action.get_bind_apply]
  rcases s.current with _ | child
  · simp
  · simp only [Action.modify_bind_apply]
    refine Nat.le_trans (onDetached_spends c child c.close _) ?_
    simp [size]

theorem turn_spends :
    (turn c.toSource watch).Spends (size c.size) (Turn.delivered arrived) := by
  intro s
  rw [turn, Action.get_bind_apply]
  rcases e : s.current with _ | child
  · exact advance_spends c watch s
  · have h := c.pull_spends child
    simp only [Action.bind_apply, onCurrent, Action.on]
    rcases e' : c.pull child with ⟨(_ | x) | _ | _, child', t⟩ <;>
      simp only [e', Outcome.weigh, arrived] at h
    · refine Nat.le_trans ((retire_spends c).seq (fun _ => advance_spends c watch) _) ?_
      simpa [size, e] using h
    all_goals simp [size, e, Outcome.weigh, Turn.delivered, arrived]
    all_goals omega

theorem closeRest_spends (position : Nat) (errs : Aggregate ε) (rest : List (Option τ)) :
    (closeRest c.toSource watch position errs rest : Action (Series τ) ε' _).Spends (size c.size)
      fun _ => 0 := by
  have h : (ask watch : Action (Series τ) ε' _).Spends (size c.size) fun _ => 0 :=
    (ask_spends c watch).of_le fun _ => Nat.zero_le _
  induction rest generalizing position errs with
  | nil => exact h.seq fun _ => .pure rfl
  | cons child rest ih =>
    cases child with
    | none => exact h.seq fun _ => .pure rfl
    | some child =>
      refine h.seq fun _ => Action.Spends.seq (v := fun _ => 0)
        ((onDetached_spends c child c.close).mapOutcome fun o => by simp) fun
        | .ok _ => ih _ _
        | .error _ => ih _ _

theorem closeCurrent_spends (position : Nat) (errs : Aggregate ε) (current : Option τ) :
    (closeCurrent c.toSource position errs current : Action (Series τ) ε' _).Spends (size c.size)
      fun _ => 0 := by
  cases current with
  | none => exact .pure rfl
  | some child =>
    intro s
    rw [closeCurrent, Action.modify_bind_apply]
    have h : ((onDetached child c.close).caught : Action (Series τ) ε' _).Spends (size c.size)
        fun _ => 0 := (onDetached_spends c child c.close).mapOutcome fun o => by simp
    refine Nat.le_trans (h.seq (fun r => ?_) _) ?_
    · cases r <;> exact .pure rfl
    · simp [size]

theorem closeAll_spends :
    (closeAll c.toSource watch : Action (Series τ) ε' _).Spends (size c.size) fun _ => 0 := by
  intro s
  rw [closeAll, Action.get_bind_apply]
  refine (closeCurrent_spends c _ _ _).seq (fun a => ?_) s
  refine (closeRest_spends c watch _ _ _).seq fun b s => ?_
  simp [size]

theorem release_spends : (release c.toSource watch).Spends (size c.size) fun _ => 0 := by
  refine (closeAll_spends c watch).seq fun errs => ?_
  rcases errs.failures with _ | ⟨e, more⟩
  · exact .pure rfl
  · intro s
    simp [Action.bind_apply, Action.emit, Action.fail]

def finite : FiniteSource (Series τ) α ε where
  toSource := source c.toSource watch
  size := size c.size
  pull_spends := .loop (turn_spends c watch)
  close_spends := release_spends c watch

end Finite

end Series

end PullCursor
