import PullCursor.Proofs.Course.Basic

/-! Runs along a course: a cursor on a course answers any calls but close as the course does, and
what the answers hand out are the elements of the course, followed by its ending. -/
namespace PullCursor

variable {σ α ε : Type}

def Answer.element? : Answer α ε → Option α
  | .next (.ok x) | .pull (.ok (some x)) => some x
  | _ => none

def Answer.fault? : Answer α ε → Option ε
  | .hasNext (.error e) | .next (.error (.failed e)) | .pull (.error e) => some e
  | _ => none

def delivered (answers : List (Answer α ε)) : List α := answers.filterMap Answer.element?

def reported (answers : List (Answer α ε)) : List ε := answers.filterMap Answer.fault?

theorem filterMap_cons_toList {β : Type} (f : α → Option β) (x : α) (xs : List α) :
    (x :: xs).filterMap f = (f x).toList ++ xs.filterMap f := by
  rw [List.filterMap_cons]
  cases f x <;> rfl

theorem delivered_cons (a : Answer α ε) (answers : List (Answer α ε)) :
    delivered (a :: answers) = a.element?.toList ++ delivered answers :=
  filterMap_cons_toList Answer.element? a answers

theorem delivered_concat (answers : List (Answer α ε)) (a : Answer α ε) :
    delivered (answers ++ [a]) = delivered answers ++ a.element?.toList := by
  rw [delivered, List.filterMap_append, filterMap_cons_toList, List.filterMap_nil, List.append_nil]
  rfl

theorem reported_concat (answers : List (Answer α ε)) (a : Answer α ε) :
    reported (answers ++ [a]) = reported answers ++ a.fault?.toList := by
  rw [reported, List.filterMap_append, filterMap_cons_toList, List.filterMap_nil, List.append_nil]
  rfl

theorem length_toList (o : Option α) : o.toList.length = arrived o := by
  cases o <;> rfl

theorem length_delivered_cons (a : Answer α ε) (answers : List (Answer α ε)) :
    (delivered (a :: answers)).length = arrived a.element? + (delivered answers).length := by
  rw [delivered_cons, List.length_append, length_toList]

namespace Course

theorem step_over (m : Course α ε) {op : Operation} (hop : op ≠ .close) :
    (m.finished.step op).2 = m.finished ∧ (m.finished.step op).1.element? = none ∧
      (m.finished.step op).1.fault? = none := by
  cases op with
  | close => exact absurd rfl hop
  | _ => exact ⟨rfl, rfl, rfl⟩

theorem over_delivers_nothing (m : Course α ε) {polls : List Operation} (hpolls : .close ∉ polls) :
    delivered (m.finished.answers polls) = [] ∧ reported (m.finished.answers polls) = [] := by
  induction polls with
  | nil => exact ⟨rfl, rfl⟩
  | cons op rest ih =>
    obtain ⟨hop, hrest⟩ := not_or.mp (mt List.mem_cons.mpr hpolls)
    obtain ⟨hstate, helement, hfault⟩ := m.step_over (Ne.symm hop)
    obtain ⟨hdelivered, hreported⟩ := ih hrest
    rw [delivered, reported, answers, List.filterMap_cons_none helement,
      List.filterMap_cons_none hfault, hstate]
    exact ⟨hdelivered, hreported⟩

theorem step_element (x : α) (xs : List α) (e k : Option ε) {op : Operation} (hop : op ≠ .close) :
    let r := (⟨x :: xs, e, k⟩ : Course α ε).step op
    ¬ r.1.IsFinal ∧ r.1.fault? = none ∧
      (r.1.element? = none ∧ r.2 = ⟨x :: xs, e, k⟩ ∨ r.1.element? = some x ∧ r.2 = ⟨xs, e, k⟩) := by
  cases op with
  | hasNext => exact ⟨by simp [step, Answer.IsFinal], rfl, .inl ⟨rfl, rfl⟩⟩
  | next => exact ⟨by simp [step, Answer.IsFinal], rfl, .inr ⟨rfl, rfl⟩⟩
  | pull => exact ⟨by simp [step, Answer.IsFinal], rfl, .inr ⟨rfl, rfl⟩⟩
  | close => exact absurd rfl hop

theorem step_ending (e k : Option ε) {op : Operation} (hop : op ≠ .close) :
    let r := (⟨[], e, k⟩ : Course α ε).step op
    r.1.element? = none ∧ r.1.fault? = e ∧ r.2 = ⟨[], none, k⟩ := by
  cases op with
  | close => exact absurd rfl hop
  | _ => cases e <;> exact ⟨rfl, rfl, rfl⟩

theorem answers_ending (e k : Option ε) {op : Operation} (hop : op ≠ .close)
    {rest : List Operation} (hrest : .close ∉ rest) :
    let answers := (⟨[], e, k⟩ : Course α ε).answers (op :: rest)
    delivered answers = [] ∧ reported answers = e.toList := by
  obtain ⟨helement, hfault, hleft⟩ := step_ending (α := α) e k hop
  obtain ⟨hdelivered, hreported⟩ := over_delivers_nothing (⟨[], e, k⟩ : Course α ε) hrest
  constructor
  · rw [delivered, answers, List.filterMap_cons_none helement, hleft]
    exact hdelivered
  · rw [reported, answers, List.filterMap_cons, hfault, hleft]
    cases e with
    | none => exact hreported
    | some e => exact congrArg (e :: ·) hreported

/-- The elements come in order; once an answer is final, all of them and the ending have come. -/
theorem answers_deliver (m : Course α ε) {polls : List Operation} (hpolls : .close ∉ polls) :
    delivered (m.answers polls) <+: m.elements ∧
      ((∃ a ∈ m.answers polls, a.IsFinal) →
        delivered (m.answers polls) = m.elements ∧
          reported (m.answers polls) = m.ending.toList) := by
  induction polls generalizing m with
  | nil => exact ⟨List.nil_prefix, by simp [answers]⟩
  | cons op rest ih =>
    obtain ⟨hop, hrest⟩ := not_or.mp (mt List.mem_cons.mpr hpolls)
    obtain ⟨elements, e, k⟩ := m
    cases elements with
    | nil =>
      obtain ⟨hdelivered, hreported⟩ := answers_ending (α := α) e k (Ne.symm hop) hrest
      exact ⟨hdelivered.symm ▸ List.nil_prefix, fun _ => ⟨hdelivered, hreported⟩⟩
    | cons x xs =>
      obtain ⟨hnot, hfault, hstep⟩ := step_element x xs e k (Ne.symm hop)
      have hlater : (∃ a ∈ answers ⟨x :: xs, e, k⟩ (op :: rest), a.IsFinal) →
          ∃ a ∈ (step ⟨x :: xs, e, k⟩ op).2.answers rest, a.IsFinal := by
        rintro ⟨a, ha, hfinal⟩
        obtain rfl | ha := List.mem_cons.mp ha
        · exact absurd hfinal hnot
        · exact ⟨a, ha, hfinal⟩
      have hreported : reported (answers ⟨x :: xs, e, k⟩ (op :: rest)) =
          reported ((step ⟨x :: xs, e, k⟩ op).2.answers rest) :=
        List.filterMap_cons_none hfault
      obtain ⟨helement, hleft⟩ | ⟨helement, hleft⟩ := hstep
      · have hdelivered : delivered (answers ⟨x :: xs, e, k⟩ (op :: rest)) =
            delivered ((step ⟨x :: xs, e, k⟩ op).2.answers rest) :=
          List.filterMap_cons_none helement
        rw [hleft] at hlater hreported hdelivered
        obtain ⟨hstarts, hall⟩ := ih ⟨x :: xs, e, k⟩ hrest
        rw [hdelivered, hreported]
        exact ⟨hstarts, fun hfinal => hall (hlater hfinal)⟩
      · have hdelivered : delivered (answers ⟨x :: xs, e, k⟩ (op :: rest)) =
            x :: delivered ((step ⟨x :: xs, e, k⟩ op).2.answers rest) :=
          List.filterMap_cons_some helement
        rw [hleft] at hlater hreported hdelivered
        obtain ⟨hstarts, hall⟩ := ih ⟨xs, e, k⟩ hrest
        rw [hdelivered, hreported]
        refine ⟨List.cons_prefix_cons.mpr ⟨rfl, hstarts⟩, fun hfinal => ?_⟩
        obtain ⟨hdelivered, hreported⟩ := hall (hlater hfinal)
        exact ⟨congrArg (x :: ·) hdelivered, hreported⟩

theorem delivered_pulls (m : Course α ε) (k : Nat) :
    delivered (m.answers (.replicate k .pull)) = m.elements.take k := by
  induction k generalizing m with
  | zero => exact (List.take_zero).symm
  | succ k ih =>
    obtain ⟨_ | ⟨x, xs⟩, e, closing⟩ := m
    · have hpolls : Operation.close ∉ List.replicate k .pull := fun h =>
        nomatch List.eq_of_mem_replicate h
      exact (answers_ending e closing (nofun : Operation.pull ≠ .close) hpolls).1
    · exact congrArg (x :: ·) (ih ⟨xs, e, closing⟩)

end Course

theorem Cursor.Honours.run_answers_over {c : Cursor σ α ε} {finished shut : σ → Prop}
    (h : c.Honours finished shut) {s : σ} (hs : finished s) (m : Course α ε)
    {polls : List Operation} (hpolls : .close ∉ polls) :
    (c.run s polls).answers = m.finished.answers polls := by
  induction polls with
  | nil => rfl
  | cons op rest ih =>
    obtain ⟨hop, hrest⟩ := not_or.mp (mt List.mem_cons.mpr hpolls)
    have hanswer : (c.call s op).answer = (m.finished.step op).1 := by
      have hend := h.call_over hs op
      cases op with
      | hasNext => exact congrArg Answer.hasNext hend
      | next => exact congrArg Answer.next hend
      | pull => exact congrArg Answer.pull hend
      | close => exact absurd rfl hop
    rw [Cursor.run, Course.answers, hanswer, (m.step_over (Ne.symm hop)).1]
    simp only [(h.call_still hs (Ne.symm hop)).1, ih hrest]

theorem Cursor.Takes.call_answer {c : Cursor σ α ε} {R : Course α ε → σ → Prop} (h : c.Takes R)
    {m : Course α ε} {s : σ} (hm : R m s) {op : Operation} (hop : op ≠ .close) :
    (c.call s op).answer = (m.step op).1 ∧
      (R (m.step op).2 (c.call s op).state ∨
        (c.call s op).answer.IsFinal ∧ (m.step op).2 = m.finished) := by
  cases op with
  | hasNext =>
    have hasked := h.hasNext hm
    simp only [call]
    generalize c.hasNext s = r at hasked ⊢
    cases hasked with
    | element hs => exact ⟨rfl, .inl hs⟩
    | ended hs => exact ⟨rfl, .inr ⟨.inl rfl, rfl⟩⟩
    | failed => exact ⟨rfl, .inr ⟨.inr ⟨_, rfl⟩, rfl⟩⟩
  | next =>
    have hhanded := h.next hm
    simp only [call]
    generalize c.next s = r at hhanded ⊢
    cases hhanded with
    | element hs => exact ⟨rfl, .inl hs⟩
    | ended => exact ⟨rfl, .inr ⟨⟨_, rfl⟩, rfl⟩⟩
    | failed => exact ⟨rfl, .inr ⟨⟨_, rfl⟩, rfl⟩⟩
  | pull =>
    have hgiven := h.pull hm
    simp only [call]
    generalize c.pull s = r at hgiven ⊢
    cases hgiven with
    | element hs => exact ⟨rfl, .inl hs⟩
    | ended hs => exact ⟨rfl, .inr ⟨.inl rfl, rfl⟩⟩
    | failed => exact ⟨rfl, .inr ⟨.inr ⟨_, rfl⟩, rfl⟩⟩
  | close => exact absurd rfl hop

theorem Cursor.Takes.run_answers {c : Cursor σ α ε} {R : Course α ε → σ → Prop} (h : c.Takes R)
    {finished shut : σ → Prop} (hlaw : c.Honours finished shut) {m : Course α ε} {s : σ}
    (hm : R m s) {polls : List Operation} (hpolls : .close ∉ polls) :
    (c.run s polls).answers = m.answers polls := by
  induction polls generalizing m s with
  | nil => rfl
  | cons op rest ih =>
    obtain ⟨hop, hrest⟩ := not_or.mp (mt List.mem_cons.mpr hpolls)
    obtain ⟨hanswer, hon | ⟨hfinal, hleft⟩⟩ := h.call_answer hm (Ne.symm hop)
    · rw [Cursor.run, Course.answers, hanswer]
      exact congrArg _ (ih hon hrest)
    · have hlater := hlaw.run_answers_over (hlaw.call_final hfinal) m hrest
      rw [Cursor.run, Course.answers, hanswer, hleft]
      exact congrArg _ hlater

end PullCursor
