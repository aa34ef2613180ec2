import PullCursor.Proofs.Course.Tree
import PullCursor.Proofs.Sink.Once

/-! Keeping the contract, seen from outside: a cursor follows a course if it answers whatever it is
asked as that course does. How it comes to do so is nobody's concern. -/
namespace PullCursor

variable {σ α ε : Type}

/-- Closing aside, all answers from this state on are those of the course. -/
def Cursor.Follows (c : Cursor σ α ε) (m : Course α ε) (s : σ) : Prop :=
  ∀ polls, .close ∉ polls → (c.run s polls).answers = m.answers polls

namespace Course

def past (m : Course α ε) (k : Nat) : Course α ε :=
  if k ≤ m.elements.length then { m with elements := m.elements.drop k } else m.finished

theorem past_zero (m : Course α ε) : m.past 0 = m := if_pos (Nat.zero_le _)

theorem past_cons (x : α) (xs : List α) (e k : Option ε) (i : Nat) :
    (⟨x :: xs, e, k⟩ : Course α ε).past (i + 1) = (⟨xs, e, k⟩ : Course α ε).past i := by
  simp only [past, List.length_cons, Nat.add_le_add_iff_right, List.drop_succ_cons]
  rfl

theorem past_nil (e k : Option ε) (i : Nat) :
    (⟨[], e, k⟩ : Course α ε).past (i + 1) = ⟨[], none, k⟩ := if_neg (Nat.not_succ_le_zero i)

theorem past_finished (m : Course α ε) (i : Nat) : m.finished.past i = m.finished := by
  cases i with
  | zero => exact past_zero _
  | succ i => exact past_nil _ _ i

theorem past_succ (m : Course α ε) (i : Nat) : m.past (i + 1) = (m.step .pull).2.past i := by
  obtain ⟨_ | ⟨x, xs⟩, e, k⟩ := m
  · rw [past_nil]
    cases e <;> exact (past_finished ⟨[], none, k⟩ i).symm
  · exact past_cons x xs e k i

end Course

namespace Cursor

variable {c : Cursor σ α ε} {m : Course α ε} {s : σ}

/-- Each call answers as the course does, and what comes after it is the rest of the course. -/
theorem Follows.call (h : c.Follows m s) {op : Operation} (hop : op ≠ .close) :
    (c.call s op).answer = (m.step op).1 ∧ c.Follows (m.step op).2 (c.call s op).state := by
  have hrun {polls : List Operation} (hpolls : .close ∉ polls) :=
    h (op :: polls) (List.not_mem_cons_of_ne_of_not_mem (Ne.symm hop) hpolls)
  exact ⟨(List.cons.inj (hrun List.not_mem_nil)).1, fun polls hpolls =>
    (List.cons.inj (hrun hpolls)).2⟩

theorem Follows.pull (h : c.Follows m s) {o : Outcome ε (Option α)}
    (ho : (m.step .pull).1 = .pull o) :
    c.pull s = ⟨o, (c.pull s).state, (c.pull s).trace⟩ ∧
      c.Follows (m.step .pull).2 (c.pull s).state := by
  obtain ⟨hanswer, hleft⟩ := h.call (nofun : Operation.pull ≠ .close)
  obtain rfl := Answer.pull.inj (hanswer.trans ho)
  exact ⟨rfl, hleft⟩

theorem Follows.hasNext (h : c.Follows m s) {o : Outcome ε Bool}
    (ho : (m.step .hasNext).1 = .hasNext o) :
    c.hasNext s = ⟨o, (c.hasNext s).state, (c.hasNext s).trace⟩ ∧
      c.Follows (m.step .hasNext).2 (c.hasNext s).state := by
  obtain ⟨hanswer, hleft⟩ := h.call (nofun : Operation.hasNext ≠ .close)
  obtain rfl := Answer.hasNext.inj (hanswer.trans ho)
  exact ⟨rfl, hleft⟩

theorem Follows.past (h : c.Follows m s) (k : Nat) :
    c.Follows (m.past k) (c.run s (List.replicate k .pull)).state := by
  induction k generalizing m s with
  | zero =>
    rw [Course.past_zero]
    exact h
  | succ k ih =>
    rw [Course.past_succ]
    exact ih (h.call (nofun : Operation.pull ≠ .close)).2

theorem call_noted (c : Cursor σ α ε) (s : σ) (calls : List Operation) (op : Operation) :
    c.noted.call (s, calls) op =
      ⟨(c.call s op).answer, ((c.call s op).state, calls ++ [op]), (c.call s op).trace⟩ := by
  cases op <;> rfl

theorem run_noted (c : Cursor σ α ε) (s : σ) (calls ops : List Operation) :
    c.noted.run (s, calls) ops =
      ⟨(c.run s ops).answers, ((c.run s ops).state, calls ++ ops), (c.run s ops).trace⟩ := by
  induction ops generalizing s calls with
  | nil => simp only [run, List.append_nil]
  | cons op rest ih => simp only [run, call_noted, ih, List.append_assoc, List.singleton_append]

theorem Follows.noted (h : c.Follows m s) (calls : List Operation) :
    c.noted.Follows m (s, calls) := by
  intro polls hpolls
  rw [run_noted]
  exact h polls hpolls

end Cursor

theorem Plan.Plain.follows {p : Plan} (h : p.Plain) :
    p.cursor.toCursor.Follows p.course p.start := by
  obtain ⟨R, htakes, hstart⟩ := takes h
  obtain ⟨finished, shut, hlaw⟩ := honours h.guarded
  exact fun polls hpolls => htakes.run_answers hlaw hstart hpolls

end PullCursor
