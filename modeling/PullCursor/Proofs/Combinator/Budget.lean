import PullCursor.Proofs.Combinator.Pull
import PullCursor.Proofs.Course.Follows

/-! The budget of a limit is exact. What is left of it and what has been handed out add up to what
there was at first, whatever the cursor below does. Once nothing is left, or after a close, nothing
but a close reaches that cursor. -/
namespace PullCursor

variable {σ α ε : Type}

namespace Budget

variable (c : Cursor σ α ε)

theorem next_charges (s : σ × Nat) :
    (next c s).state.2 + (next c s).outcome.weigh (fun _ => 1) = s.2 := by
  by_cases hzero : s.2 = 0
  · rw [next_of_zero c hzero]
    rfl
  · rw [next_of_pos c hzero]
    rcases c.next s.1 with ⟨_ | _ | _, s', t⟩
    · simp only [Outcome.weigh]
      omega
    · rfl
    · rfl

theorem pull_charges (s : σ × Nat) :
    let r := pullByNext (hasNext c) (next c) s
    r.state.2 + r.outcome.weigh arrived = s.2 := by
  have hask := hasNext_budget c s
  rw [pullByNext_eq]
  rcases e : hasNext c s with ⟨(_ | _) | _ | _, s', t⟩ <;> rw [e] at hask
  · exact hask
  · have hnext := next_charges c s'
    dsimp only at hask ⊢
    rw [← hask, ← hnext]
    rcases (next c s').outcome with _ | (_ | _) | _ <;> rfl
  · exact hask
  · exact hask

/-- Until it is closed, a limit is charged for what it hands out and for nothing else: a failure,
an end or a panic below it costs nothing. -/
theorem call_charges (s : σ × Nat) {op : Operation} (hop : op ≠ .close) :
    ((cursor c).call s op).state.2 + arrived ((cursor c).call s op).answer.element? = s.2 := by
  cases op with
  | hasNext => exact hasNext_budget c s
  | next =>
    rw [← next_charges c s]
    show (next c s).state.2 + arrived (Answer.next (next c s).outcome).element? = _
    cases (next c s).outcome <;> rfl
  | pull =>
    rw [← pull_charges c s]
    show (pullByNext (hasNext c) (next c) s).state.2 +
      arrived (Answer.pull (pullByNext (hasNext c) (next c) s).outcome).element? = _
    rcases (pullByNext (hasNext c) (next c) s).outcome with (_ | _) | _ | _ <;> rfl
  | close => exact absurd rfl hop

theorem run_charges (s : σ × Nat) {polls : List Operation} (hpolls : .close ∉ polls) :
    ((cursor c).run s polls).state.2 + (delivered ((cursor c).run s polls).answers).length =
      s.2 := by
  induction polls generalizing s with
  | nil => rfl
  | cons op rest ih =>
    obtain ⟨hop, hrest⟩ := not_or.mp (mt List.mem_cons.mpr hpolls)
    have hfirst := call_charges c s (Ne.symm hop)
    have hlater := ih ((cursor c).call s op).state hrest
    simp only [Cursor.run, length_delivered_cons]
    omega

theorem call_used_up (s : σ) {op : Operation} (hop : op ≠ .close) :
    ((cursor c).call (s, 0) op).answer.element? = none ∧
      ((cursor c).call (s, 0) op).state = (s, 0) := by
  cases op with
  | close => exact absurd rfl hop
  | _ => exact ⟨rfl, rfl⟩

theorem call_close (s : σ × Nat) :
    ((cursor c).call s .close).answer.element? = none ∧
      ((cursor c).call s .close).state = ((c.close s.1).state, 0) :=
  ⟨rfl, congrArg Reply.state (close_eq c s)⟩

theorem run_used_up (s : σ) (ops : List Operation) :
    delivered ((cursor c).run (s, 0) ops).answers = [] ∧
      ((cursor c).run (s, 0) ops).state =
        ((c.run s (.replicate (ops.count .close) .close)).state, 0) := by
  induction ops generalizing s with
  | nil => exact ⟨rfl, rfl⟩
  | cons op rest ih =>
    by_cases hop : op = .close
    · subst hop
      obtain ⟨hnone, hstate⟩ := call_close c (s, 0)
      obtain ⟨hdelivered, hleft⟩ := ih (c.close s).state
      simp only [Cursor.run, hstate, List.count_cons_self, List.replicate_succ]
      exact ⟨(List.filterMap_cons_none hnone).trans hdelivered, hleft⟩
    · obtain ⟨hnone, hstate⟩ := call_used_up c s hop
      obtain ⟨hdelivered, hleft⟩ := ih s
      simp only [Cursor.run, hstate, List.count_cons_of_ne hop]
      exact ⟨(List.filterMap_cons_none hnone).trans hdelivered, hleft⟩

theorem call_stays_used_up {s : σ × Nat} (h : s.2 = 0) (op : Operation) :
    ((cursor c).call s op).state.2 = 0 := by
  by_cases hop : op = .close
  · rw [hop, (call_close c s).2]
  · have hcharge := call_charges c s hop
    omega

theorem run_closed (s : σ × Nat) {ops : List Operation} (hclosed : .close ∈ ops) :
    ((cursor c).run s ops).state.2 = 0 := by
  induction ops generalizing s with
  | nil => cases hclosed
  | cons op rest ih =>
    obtain rfl | hclosed := List.mem_cons.mp hclosed
    · have hstays := fun (s : σ × Nat) op (h : s.2 = 0) => call_stays_used_up c h op
      refine Cursor.run_preserves (P := fun s : σ × Nat => s.2 = 0) hstays rest ?_
      exact congrArg Prod.snd (call_close c s).2
    · exact ih _ hclosed

theorem run_spent (s : σ × Nat) {ops : List Operation}
    (hspent : .close ∈ ops ∨ (delivered ((cursor c).run s ops).answers).length = s.2) :
    ((cursor c).run s ops).state.2 = 0 := by
  by_cases hclosed : .close ∈ ops
  · exact run_closed c s hclosed
  · have hsum := run_charges c s hclosed
    have hall := hspent.resolve_left hclosed
    omega

/-- The limit above the cursor that takes note of its calls does the same. -/
def Notes {β δ : Type} (noted : Action ((σ × List Operation) × Nat) δ β)
    (m : Action (σ × Nat) δ β) : Prop :=
  ∀ s calls, ∃ more, noted ((s.1, calls), s.2) =
    ⟨(m s).outcome, (((m s).state.1, calls ++ more), (m s).state.2), (m s).trace⟩

theorem hasNext_notes : Notes (hasNext c.noted) (hasNext c) := by
  intro s calls
  by_cases hzero : s.2 = 0
  · refine ⟨[], ?_⟩
    rw [hasNext_of_zero c hzero, hasNext_of_zero c.noted hzero, List.append_nil]
  · refine ⟨[.hasNext], ?_⟩
    rw [hasNext_of_pos c hzero, hasNext_of_pos c.noted hzero]
    rfl

theorem next_notes : Notes (next c.noted) (next c) := by
  intro s calls
  by_cases hzero : s.2 = 0
  · refine ⟨[], ?_⟩
    rw [next_of_zero c hzero, next_of_zero c.noted hzero, List.append_nil]
  · refine ⟨[.next], ?_⟩
    rw [next_of_pos c hzero, next_of_pos c.noted hzero]
    simp only [Cursor.noted, Action.noted]
    rcases c.next s.1 with ⟨_ | _ | _, s', t⟩ <;> rfl

theorem pull_notes :
    Notes (pullByNext (hasNext c.noted) (next c.noted)) (pullByNext (hasNext c) (next c)) := by
  intro s calls
  obtain ⟨asked, hask⟩ := hasNext_notes c s calls
  rw [pullByNext_eq, pullByNext_eq, hask]
  rcases hasNext c s with ⟨(_ | _) | _ | _, s', t⟩
  · exact ⟨asked, rfl⟩
  · obtain ⟨taken, hnext⟩ := next_notes c s' (calls ++ asked)
    refine ⟨asked ++ taken, ?_⟩
    simp only [hnext, List.append_assoc]
  · exact ⟨asked, rfl⟩
  · exact ⟨asked, rfl⟩

theorem call_notes (s : σ × Nat) (calls : List Operation) (op : Operation) :
    ∃ more, (cursor c.noted).call ((s.1, calls), s.2) op =
      let r := (cursor c).call s op
      ⟨r.answer, ((r.state.1, calls ++ more), r.state.2), r.trace⟩ := by
  cases op with
  | hasNext =>
    obtain ⟨more, h⟩ := hasNext_notes c s calls
    exact ⟨more, congrArg (fun r => Called.mk (.hasNext r.outcome) r.state r.trace) h⟩
  | next =>
    obtain ⟨more, h⟩ := next_notes c s calls
    exact ⟨more, congrArg (fun r => Called.mk (.next r.outcome) r.state r.trace) h⟩
  | pull =>
    obtain ⟨more, h⟩ := pull_notes c s calls
    exact ⟨more, congrArg (fun r => Called.mk (.pull r.outcome) r.state r.trace) h⟩
  | close => exact ⟨[.close], rfl⟩

theorem run_notes (s : σ × Nat) (calls ops : List Operation) :
    ∃ more, (cursor c.noted).run ((s.1, calls), s.2) ops =
      let r := (cursor c).run s ops
      ⟨r.answers, ((r.state.1, calls ++ more), r.state.2), r.trace⟩ := by
  induction ops generalizing s calls with
  | nil => exact ⟨[], by simp [Cursor.run]⟩
  | cons op rest ih =>
    obtain ⟨first, hfirst⟩ := call_notes c s calls op
    obtain ⟨later, hlater⟩ := ih ((cursor c).call s op).state (calls ++ first)
    refine ⟨first ++ later, ?_⟩
    simp only [Cursor.run, hfirst, hlater, List.append_assoc]

theorem run_noted_used_up (s : σ) (calls ops : List Operation) :
    ((cursor c.noted).run ((s, calls), 0) ops).state.1.2 =
      calls ++ .replicate (ops.count .close) .close := by
  rw [(run_used_up c.noted (s, calls) ops).2, Cursor.run_noted]

end Budget

end PullCursor
