import Std.Data.TreeSet.Lemmas
import PullCursor.Combinator.Selection
import PullCursor.Element.Order
import PullCursor.Proofs.Course.Basic

/-! The courses of the combinators that stand on one cursor, read off the course of that cursor by
the functions on lists after which they are named. -/
namespace PullCursor

variable {σ τ α β ε ε' : Type}

namespace Callback

def results (f : Callback α β) : History α → List α → List β
  | _, [] => []
  | earlier, x :: xs => match f.answer earlier x with
    | .ok y => y :: f.results (earlier.add x) xs
    | .error _ => []

def kept (test : Callback α Bool) : History α → List α → List α
  | _, [] => []
  | earlier, x :: xs => match test.answer earlier x with
    | .ok true => x :: test.kept (earlier.add x) xs
    | _ => test.kept (earlier.add x) xs

variable {f : Callback α β} {test : Callback α Bool} {earlier : History α} {x : α}

theorem results_cons {y : β} (h : f.answer earlier x = .ok y) (xs : List α) :
    f.results earlier (x :: xs) = y :: f.results (earlier.add x) xs := by
  rw [results, h]

theorem kept_cons {b : Bool} (h : test.answer earlier x = .ok b) (xs : List α) :
    test.kept earlier (x :: xs) =
      if b then x :: test.kept (earlier.add x) xs else test.kept (earlier.add x) xs := by
  rw [kept, h]
  cases b <;> rfl

end Callback

/-- The course as it is seen from above, through what stands beside the cursor's state. -/
def Course.Seen (R : Course α ε → σ → Prop) (view : τ → Course α ε → Course β ε')
    (m : Course β ε') (s : σ × τ) : Prop :=
  ∃ below, R below s.1 ∧ m = view s.2 below

namespace Course

variable {n : Nat}

theorem take_of_zero (m : Course α ε) (h : n = 0) : m.take n = m.finished := by
  subst h
  simp [take, finished]

theorem take_nil (e k : Option ε) (h : n ≠ 0) :
    (⟨[], e, k⟩ : Course α ε).take n = ⟨[], e, k⟩ := by
  simp [take, h]

theorem take_cons (x : α) (xs : List α) (e k : Option ε) (h : n ≠ 0) :
    (⟨x :: xs, e, k⟩ : Course α ε).take n =
      let m := (⟨xs, e, k⟩ : Course α ε).take (n - 1)
      ⟨x :: m.elements, m.ending, m.closing⟩ := by
  obtain ⟨n, rfl⟩ := Nat.exists_eq_succ_of_ne_zero h
  simp [take]

end Course

namespace Cursor.Takes

variable {c : Cursor σ α ε} {R : Course α ε → σ → Prop} (h : c.Takes R)
include h

theorem map (mark : String → α → Event) {f : Callback α β} (hf : f.Returns) :
    (Map.cursor c mark f).Takes
      (Course.Seen R fun earlier => .mapElements (f.results earlier)) where
  pull {m s} hm := by
    obtain ⟨below, hbelow, rfl⟩ := hm
    rw [Map.pull_eq]
    have hgiven := h.pull hbelow
    generalize c.pull s.1 = r at hgiven ⊢
    cases hgiven with
    | @element x xs _ _ _ _ hs =>
      obtain ⟨y, hy⟩ := hf s.2 x
      simp only [Callback.call_ok hy, Course.mapElements, Callback.results_cons hy]
      exact .element ⟨_, hs, rfl⟩
    | ended hs => exact .ended hs
    | failed => exact .failed
  close {m s} hm := by
    obtain ⟨below, hbelow, rfl⟩ := hm
    exact h.close hbelow
  hasNext {m s} hm := by
    obtain ⟨below, hbelow, rfl⟩ := hm
    show Course.AnswersHasNext _ _ _ (c.hasNext.onFst s)
    unfold Action.onFst
    have hasked := h.hasNext hbelow
    generalize c.hasNext s.1 = r at hasked ⊢
    cases hasked with
    | @element x xs _ _ _ _ hs =>
      obtain ⟨y, hy⟩ := hf s.2 x
      have hcons := Callback.results_cons hy xs
      simp only [Course.mapElements, hcons]
      exact .element ⟨_, hs, by simp only [Course.mapElements, hcons]⟩
    | ended hs => exact .ended hs
    | failed => exact .failed
  next {m s} hm := by
    obtain ⟨below, hbelow, rfl⟩ := hm
    rw [Map.next_eq]
    have hhanded := h.next hbelow
    generalize c.next s.1 = r at hhanded ⊢
    cases hhanded with
    | @element x xs _ _ _ _ hs =>
      obtain ⟨y, hy⟩ := hf s.2 x
      simp only [Callback.call_ok hy, Course.mapElements, Callback.results_cons hy]
      exact .element ⟨_, hs, rfl⟩
    | ended => exact .ended
    | failed => exact .failed

theorem answering {answer : {δ : Type} → ε → Action (History ε) δ ε'} {g : ε → ε'}
    (hanswer : ∀ {δ} e earlier, (answer (δ := δ) e earlier).outcome = .ok (g e)) :
    (c.answering answer).Takes (Course.Seen R fun _ => .mapFaults g) := by
  have hclose : ∀ (s : σ × History ε) (m : Course α ε), (c.close s.1).outcome = m.closed →
      ((c.answering answer).close s).outcome = (m.mapFaults g).closed := by
    rintro s ⟨xs, e, k⟩ hclosed
    show (c.close.onFst.handle _ s).outcome = _
    rw [Action.handle_onFst]
    generalize c.close s.1 = r at hclosed ⊢
    obtain ⟨outcome, s', t⟩ := r
    cases hclosed
    cases k with
    | none => rfl
    | some e => simp [Course.closed, Course.mapFaults, Action.failWith_apply, hanswer]
  refine ⟨⟨?_, ?_⟩, ?_, ?_⟩
  · rintro _ s ⟨below, hbelow, rfl⟩
    show Course.AnswersPull _ _ _ (c.pull.onFst.handle _ s)
    rw [Action.handle_onFst]
    have hgiven := h.pull hbelow
    generalize c.pull s.1 = r at hgiven ⊢
    cases hgiven with
    | element hs => exact .element ⟨_, hs, rfl⟩
    | @ended k s' _ hs => exact .ended (hclose (s', s.2) _ hs)
    | failed =>
      simp only [Action.failWith_apply, hanswer]
      exact .failed
  · rintro _ s ⟨below, hbelow, rfl⟩
    exact hclose s below (h.close hbelow)
  · rintro _ s ⟨below, hbelow, rfl⟩
    show Course.AnswersHasNext _ _ _ (c.hasNext.onFst.handle _ s)
    rw [Action.handle_onFst]
    have hasked := h.hasNext hbelow
    generalize c.hasNext s.1 = r at hasked ⊢
    cases hasked with
    | element hs => exact .element ⟨_, hs, rfl⟩
    | @ended k s' _ hs => exact .ended (hclose (s', s.2) _ hs)
    | failed =>
      simp only [Action.failWith_apply, hanswer]
      exact .failed
  · rintro _ s ⟨below, hbelow, rfl⟩
    show Course.AnswersNext _ _ (c.next.onFst.handle _ s)
    rw [Action.handle_onFst]
    have hhanded := h.next hbelow
    generalize c.next s.1 = r at hhanded ⊢
    cases hhanded with
    | element hs => exact .element ⟨_, hs, rfl⟩
    | ended => exact .ended
    | failed =>
      simp only [Action.failWith_apply, hanswer]
      exact .failed

theorem limit : (Budget.cursor c).Takes (Course.Seen R Course.take) := by
  have hclose : ∀ (s : σ × Nat) (m : Course α ε), (c.close s.1).outcome = m.closed →
      (Budget.close c s).outcome = (m.take s.2).closed := by
    intro s m hclosed
    rw [Budget.close_eq]
    exact hclosed
  refine .ofSteps ?_ ?_ ?_
  · rintro _ s ⟨below, hbelow, rfl⟩
    by_cases hzero : s.2 = 0
    · rw [Budget.hasNext_of_zero c hzero, below.take_of_zero hzero]
      exact .ended (hclose s below (h.close hbelow))
    · rw [Budget.hasNext_of_pos c hzero]
      have hasked := h.hasNext hbelow
      generalize c.hasNext s.1 = r at hasked ⊢
      cases hasked with
      | element hs =>
        rw [Course.take_cons _ _ _ _ hzero]
        exact .element ⟨_, hs, (Course.take_cons _ _ _ _ hzero).symm⟩
      | @ended k s' _ hs =>
        rw [Course.take_nil _ _ hzero]
        exact .ended (hclose (s', s.2) ⟨[], none, k⟩ hs)
      | failed =>
        rw [Course.take_nil _ _ hzero]
        exact .failed
  · rintro _ s ⟨below, hbelow, rfl⟩
    by_cases hzero : s.2 = 0
    · rw [Budget.next_of_zero c hzero, below.take_of_zero hzero]
      exact .ended
    · rw [Budget.next_of_pos c hzero]
      have hhanded := h.next hbelow
      generalize c.next s.1 = r at hhanded ⊢
      cases hhanded with
      | element hs =>
        rw [Course.take_cons _ _ _ _ hzero]
        exact .element ⟨_, hs, rfl⟩
      | ended =>
        rw [Course.take_nil _ _ hzero]
        exact .ended
      | failed =>
        rw [Course.take_nil _ _ hzero]
        exact .failed
  · rintro _ s ⟨below, hbelow, rfl⟩
    exact hclose s below (h.close hbelow)

end Cursor.Takes

theorem Source.Takes.sweep {c : EndingSource σ α ε} {R : Course α ε → σ → Prop}
    (h : c.toSource.Takes R) {visit : α → Action τ ε (Turn (Option α))}
    {select : τ → List α → List α} (hnil : ∀ t, select t [] = [])
    (hvisit : ∀ x t, ∃ t' u,
      visit x t = ⟨.ok .again, t', u⟩ ∧ (∀ xs, select t (x :: xs) = select t' xs) ∨
        visit x t = ⟨.ok (.stop (some x)), t', u⟩ ∧ ∀ xs, select t (x :: xs) = x :: select t' xs)
    {close : Action (σ × τ) ε Unit} (hclose : ∀ s, (close s).outcome = (c.close s.1).outcome) :
    (⟨c.sweep (return none) visit, close⟩ : Source (σ × τ) α ε).Takes
      (Course.Seen R fun t => .mapElements (select t)) where
  pull {m s} hm := by
    obtain ⟨s, t⟩ := s
    obtain ⟨⟨xs, e, k⟩, hbelow, rfl⟩ := hm
    show Course.AnswersPull close _ _ (c.sweep (return none) visit (s, t))
    -- By induction on the elements below: each turn takes one of them.
    induction xs generalizing s t with
    | nil =>
      rw [EndingSource.sweep_eq]
      have hgiven := h.pull hbelow
      simp only [Course.mapElements, hnil] at hgiven ⊢
      generalize c.pull s = r at hgiven ⊢
      cases hgiven with
      | ended hs => exact .ended ((hclose _).trans hs)
      | failed => exact .failed
    | cons x xs ih =>
      rw [EndingSource.sweep_eq]
      have hgiven := h.pull hbelow
      simp only at hgiven ⊢
      generalize c.pull s = r at hgiven ⊢
      cases hgiven with
      | element hs =>
        obtain ⟨t', u, ⟨hagain, hselect⟩ | ⟨hstop, hselect⟩⟩ := hvisit x t
        · simp only [hagain, Course.mapElements, hselect]
          exact (ih _ t' hs).retrace _
        · simp only [hstop, Course.mapElements, hselect]
          exact .element ⟨_, hs, rfl⟩
  close {m s} hm := by
    obtain ⟨below, hbelow, rfl⟩ := hm
    have hclosed := h.close hbelow
    exact (hclose s).trans hclosed

theorem Source.Takes.filter {c : EndingSource σ α ε} {R : Course α ε → σ → Prop}
    (h : c.toSource.Takes R) (mark : String → α → Event) {test : Callback α Bool}
    (htest : test.Returns) : (Filter.source c mark test).Takes
      (Course.Seen R fun earlier => .mapElements (test.kept earlier)) := by
  refine h.sweep (fun _ => rfl) (fun x earlier => ?_) fun _ => rfl
  obtain ⟨b, hb⟩ := htest earlier x
  unfold Filter.visit
  rw [Action.bind_apply, Callback.call_ok hb]
  refine ⟨earlier.add x, test.id.toList.map (mark · x) ++ [], ?_⟩
  cases b with
  | false => exact .inl ⟨rfl, fun xs => Callback.kept_cons hb xs⟩
  | true => exact .inr ⟨rfl, fun xs => Callback.kept_cons hb xs⟩

def unseen {cmp : α → α → Ordering} [BEq α] (seen : Std.TreeSet α cmp) (xs : List α) : List α :=
  (xs.filter fun x => !seen.contains x).eraseDups

theorem unseen_cons {cmp : α → α → Ordering} [BEq α] [LawfulBEq α] [Std.TransCmp cmp]
    [Std.LawfulEqCmp cmp] {seen : Std.TreeSet α cmp} {x : α} (hx : seen.contains x = false)
    (xs : List α) : unseen seen (x :: xs) = x :: unseen (seen.insert x) xs := by
  have hnew : ∀ y, (!(seen.insert x).contains y) = (!(y == x) && !seen.contains y) := by
    intro y
    rw [Std.TreeSet.contains_insert, Bool.not_or]
    have heq : (cmp x y == .eq) = (y == x) := by
      rw [Bool.eq_iff_iff, Std.LawfulEqCmp.compare_beq_iff_eq, beq_iff_eq]
      exact eq_comm
    rw [heq]
  unfold unseen
  rw [List.filter_cons_of_pos (by simp [hx]), List.eraseDups_cons, List.filter_filter]
  simp only [hnew]

theorem Source.Takes.distinct {cmp : α → α → Ordering} [BEq α] [LawfulBEq α] [Std.TransCmp cmp]
    [Std.LawfulEqCmp cmp] {c : EndingSource σ α ε} {R : Course α ε → σ → Prop}
    (h : c.toSource.Takes R) : (Distinct.source c : Source (σ × Std.TreeSet α cmp) α ε).Takes
      (Course.Seen R fun seen => .mapElements (unseen seen)) := by
  refine h.sweep (fun _ => rfl) (fun x seen => ?_) fun _ => rfl
  unfold Distinct.visit
  rw [Action.get_bind_apply]
  cases hx : seen.contains x with
  | true =>
    refine ⟨seen, [], .inl ⟨rfl, fun xs => ?_⟩⟩
    simp [unseen, hx]
  | false =>
    exact ⟨seen.insert x, [], .inr ⟨by simp, unseen_cons hx⟩⟩

end PullCursor
