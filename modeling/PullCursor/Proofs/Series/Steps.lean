import PullCursor.Combinator.Series

/-! What the steps of a concatenation do, one case for each way in which a child can answer. -/
namespace PullCursor.Series

variable {τ α ε ε' : Type} (c : Source τ α ε) (watch : Nat → List Event)

@[simp] theorem ask_nil (current : Option τ) (position asked : Nat) :
    (ask watch ⟨current, position, [], asked⟩ : Reply _ ε _) =
      ⟨.ok none, ⟨current, position, [], asked + 1⟩, watch asked⟩ := rfl

@[simp] theorem ask_cons (current child : Option τ) (position asked : Nat)
    (rest : List (Option τ)) :
    (ask watch ⟨current, position, child :: rest, asked⟩ : Reply _ ε _) =
      ⟨.ok child, ⟨current, position, rest, asked + 1⟩, watch asked⟩ := rfl

theorem advance_nil (current : Option τ) (position asked : Nat) :
    (advance watch ⟨current, position, [], asked⟩ : Reply _ ε (Turn (Option α))) =
      ⟨.ok (.stop none), ⟨current, position, [], asked + 1⟩, watch asked⟩ := by
  unfold advance
  rw [Action.bind_apply, ask_nil]
  simp

theorem advance_child (current : Option τ) (child : τ) (position asked : Nat)
    (rest : List (Option τ)) :
    (advance watch ⟨current, position, some child :: rest, asked⟩ :
        Reply _ ε (Turn (Option α))) =
      ⟨.ok .again, ⟨some child, position, rest, asked + 1⟩, watch asked⟩ := by
  unfold advance
  rw [Action.bind_apply, ask_cons]
  simp

theorem retire_child (child : τ) (position asked : Nat) (rest : List (Option τ)) :
    retire c ⟨some child, position, rest, asked⟩ =
      ⟨(c.close child).outcome, ⟨none, position + 1, rest, asked⟩, (c.close child).trace⟩ := by
  unfold retire
  rw [Action.get_bind_apply]
  exact Action.modify_bind_apply _ _ _

theorem turn_none (position asked : Nat) (rest : List (Option τ)) :
    turn c watch ⟨none, position, rest, asked⟩ = advance watch ⟨none, position, rest, asked⟩ := rfl

theorem turn_child (child : τ) (position asked : Nat) (rest : List (Option τ)) :
    turn c watch ⟨some child, position, rest, asked⟩ = match c.pull child with
      | ⟨.ok (some x), child, t⟩ =>
          ⟨.ok (.stop (some x)), ⟨some child, position, rest, asked⟩, t⟩
      | ⟨.error e, child, t⟩ => ⟨.error e, ⟨some child, position, rest, asked⟩, t⟩
      | ⟨.panic m, child, t⟩ => ⟨.panic m, ⟨some child, position, rest, asked⟩, t⟩
      | ⟨.ok none, child, t⟩ =>
          let r : Reply (Series τ) ε (Turn (Option α)) := match c.close child with
            | ⟨.ok _, _, u⟩ =>
                let r := advance watch ⟨none, position + 1, rest, asked⟩
                ⟨r.outcome, r.state, u ++ r.trace⟩
            | ⟨.error e, _, u⟩ => ⟨.error e, ⟨none, position + 1, rest, asked⟩, u⟩
            | ⟨.panic m, _, u⟩ => ⟨.panic m, ⟨none, position + 1, rest, asked⟩, u⟩
          ⟨r.outcome, r.state, t ++ r.trace⟩ := by
  unfold turn
  rw [Action.get_bind_apply]
  simp only [Action.bind_apply, onCurrent, Action.on]
  rcases c.pull child with ⟨(_ | x) | _ | _, child', t⟩
  · simp only [Action.bind_apply, retire_child]
    rcases c.close child' with ⟨_ | _ | _, _, u⟩ <;> rfl
  · simp
  · rfl
  · rfl

theorem pull_none (position asked : Nat) (rest : List (Option τ)) :
    (source c watch).pull ⟨none, position, rest, asked⟩ =
      match (advance watch ⟨none, position, rest, asked⟩ : Reply _ ε _) with
      | ⟨.ok .again, s, t⟩ =>
          let r := (source c watch).pull s
          ⟨r.outcome, r.state, t ++ r.trace⟩
      | ⟨.ok (.stop b), s, t⟩ => ⟨.ok b, s, t⟩
      | ⟨.error e, s, t⟩ => ⟨.error e, s, t⟩
      | ⟨.panic m, s, t⟩ => ⟨.panic m, s, t⟩ := by
  show Action.loop _ _ _ _ = _
  rw [Action.loop_eq, Action.bind_apply, turn_none]
  rcases (advance watch ⟨none, position, rest, asked⟩ : Reply _ ε _) with
    ⟨(_ | b) | e | m, s, t⟩
  · rfl
  · simp
  · rfl
  · rfl

theorem pull_nil (position asked : Nat) :
    (source c watch).pull ⟨none, position, [], asked⟩ =
      ⟨.ok none, ⟨none, position, [], asked + 1⟩, watch asked⟩ := by
  rw [pull_none, advance_nil]

theorem pull_next (child : τ) (position asked : Nat) (rest : List (Option τ)) :
    (source c watch).pull ⟨none, position, some child :: rest, asked⟩ =
      let r := (source c watch).pull ⟨some child, position, rest, asked + 1⟩
      ⟨r.outcome, r.state, watch asked ++ r.trace⟩ := by
  rw [pull_none, advance_child]

theorem pull_child (child : τ) (position asked : Nat) (rest : List (Option τ)) :
    (source c watch).pull ⟨some child, position, rest, asked⟩ = match c.pull child with
      | ⟨.ok (some x), child, t⟩ => ⟨.ok (some x), ⟨some child, position, rest, asked⟩, t⟩
      | ⟨.error e, child, t⟩ => ⟨.error e, ⟨some child, position, rest, asked⟩, t⟩
      | ⟨.panic m, child, t⟩ => ⟨.panic m, ⟨some child, position, rest, asked⟩, t⟩
      | ⟨.ok none, child, t⟩ => match c.close child with
        | ⟨.ok _, _, u⟩ =>
            let r := (source c watch).pull ⟨none, position + 1, rest, asked⟩
            ⟨r.outcome, r.state, t ++ u ++ r.trace⟩
        | ⟨.error e, _, u⟩ => ⟨.error e, ⟨none, position + 1, rest, asked⟩, t ++ u⟩
        | ⟨.panic m, _, u⟩ => ⟨.panic m, ⟨none, position + 1, rest, asked⟩, t ++ u⟩ := by
  show Action.loop _ _ _ _ = _
  rw [Action.loop_eq, Action.bind_apply, turn_child, pull_none]
  rcases c.pull child with ⟨(_ | x) | e | m, child', t⟩
  · dsimp only
    rcases c.close child' with ⟨_ | e | m, child'', u⟩
    · dsimp only
      rcases (advance watch ⟨none, position + 1, rest, asked⟩ : Reply _ ε _) with
        ⟨(_ | b) | e | m, s, v⟩
      · simp [source]
      · simp
      · simp
      · simp
    · rfl
    · rfl
  · simp
  · rfl
  · rfl

theorem closeCurrent_none (position : Nat) (errs : Aggregate ε) (s : Series τ) :
    (closeCurrent c position errs none s : Reply _ ε' _) = ⟨.ok (errs, position), s, []⟩ := rfl

theorem closeCurrent_some (position : Nat) (errs : Aggregate ε) (child : τ) (s : Series τ) :
    (closeCurrent c position errs (some child) s : Reply _ ε' _) =
      ⟨match (c.close child).outcome with
        | .ok _ => .ok (errs, position + 1)
        | .error e => .ok (errs.pushAt position e, position + 1)
        | .panic m => .panic m,
        { s with current := none }, (c.close child).trace⟩ := by
  rw [closeCurrent, Action.modify_bind_apply]
  simp only [Action.bind_apply, Action.caught, Action.mapOutcome, onDetached, Action.on]
  rcases c.close child with ⟨_ | _ | _, _, t⟩ <;> simp [Outcome.caught]

theorem closeRest_nil (position : Nat) (errs : Aggregate ε) (current : Option τ)
    (passed asked : Nat) :
    (closeRest c watch position errs [] ⟨current, passed, [], asked⟩ : Reply _ ε' _) =
      ⟨.ok (errs, position), ⟨current, passed, [], asked + 1⟩, watch asked⟩ := by
  rw [closeRest, Action.bind_apply, ask_nil]
  simp

theorem closeRest_child (position : Nat) (errs : Aggregate ε) (child : τ)
    (rest : List (Option τ)) (current : Option τ) (passed asked : Nat) :
    (closeRest c watch position errs (some child :: rest)
        ⟨current, passed, some child :: rest, asked⟩ : Reply _ ε' _) =
      let goOn errs := closeRest c watch (position + 1) errs rest
        ⟨current, passed, rest, asked + 1⟩
      match c.close child with
      | ⟨.ok _, _, t⟩ =>
          ⟨(goOn errs).outcome, (goOn errs).state, watch asked ++ (t ++ (goOn errs).trace)⟩
      | ⟨.error e, _, t⟩ =>
          let r := goOn (errs.pushAt position e)
          ⟨r.outcome, r.state, watch asked ++ (t ++ r.trace)⟩
      | ⟨.panic m, _, t⟩ => ⟨.panic m, ⟨current, passed, rest, asked + 1⟩, watch asked ++ t⟩ := by
  rw [closeRest, Action.bind_apply, ask_cons]
  simp only [Action.bind_apply, Action.caught, Action.mapOutcome, onDetached, Action.on]
  rcases c.close child with ⟨_ | _ | _, _, t⟩ <;> rfl

theorem supply_of_no_gaps {ι : Type} (child : ι → τ) {gaps : ι → Nat} (h : ∀ i, gaps i = 0)
    (is : List ι) : (is.flatMap fun i => List.replicate (gaps i) none ++ [some (child i)]) =
      is.map fun i => some (child i) := by
  induction is with
  | nil => rfl
  | cons i rest ih => simp [h i, ih]

end PullCursor.Series
