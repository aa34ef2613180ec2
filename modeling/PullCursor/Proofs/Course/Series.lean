import Mathlib.Data.List.Forall2
import PullCursor.Proofs.Course.Basic
import PullCursor.Proofs.Fault.Record
import PullCursor.Proofs.Series.Steps

/-! The course of a concatenation: one child's course after another, up to the first one that ends
in a fault or whose child fails to close when it has ended. -/
namespace PullCursor

variable {τ α ε δ : Type}

namespace Course

theorem append_closing (m rest : Course α ε) :
    (m.append rest).closing = m.closing.or rest.closing := by
  unfold append
  split <;> rfl

theorem concat_closing (ms : List (Course α ε)) :
    (concat ms).closing = (ms.filterMap Course.closing).head? := by
  induction ms with
  | nil => rfl
  | cons m rest ih =>
    show (m.append (concat rest)).closing = _
    rw [append_closing, ih]
    cases hm : m.closing with
    | none => rw [List.filterMap_cons_none hm, Option.none_or]
    | some e => rw [List.filterMap_cons_some hm]; rfl

theorem concat_element (x : α) (xs : List α) (e k : Option ε) (ms : List (Course α ε)) :
    concat (⟨x :: xs, e, k⟩ :: ms) =
      let m := concat (⟨xs, e, k⟩ :: ms)
      ⟨x :: m.elements, m.ending, m.closing⟩ := by
  show append _ (concat ms) = _
  simp only [concat, List.foldr_cons, append]
  cases e.or k <;> rfl

theorem concat_fault {m : Course α ε} {e : ε} (hnil : m.elements = [])
    (he : m.ending.or m.closing = some e) (ms : List (Course α ε)) :
    concat (m :: ms) = ⟨[], some e, m.closing.or (concat ms).closing⟩ := by
  show append m (concat ms) = _
  rw [append, he, hnil]

theorem concat_ended (ms : List (Course α ε)) :
    concat (⟨[], none, none⟩ :: ms) = concat ms := rfl

def Placed (R : Course α ε → τ → Prop) (place : Option τ) (m : Course α ε) : Prop :=
  ∃ child, place = some child ∧ R m child

/-- The child in use and those not yet taken are each on a course. -/
inductive Serial (R : Course α ε → τ → Prop) : Course α ε → Series τ → Prop
  | between {rest ms position asked} : List.Forall₂ (Placed R) rest ms →
      Serial R (concat ms) ⟨none, position, rest, asked⟩
  | within {child m rest ms position asked} : R m child → List.Forall₂ (Placed R) rest ms →
      Serial R (concat (m :: ms)) ⟨some child, position, rest, asked⟩

end Course

namespace Source.Takes

variable {c : Source τ α ε} {R : Course α ε → τ → Prop} (h : c.Takes R) (watch : Nat → List Event)
include h

theorem closeRest (position : Nat) (errs : Aggregate ε) (current : Option τ) (passed asked : Nat)
    {rest : List (Option τ)} {ms : List (Course α ε)}
    (hrest : List.Forall₂ (Course.Placed R) rest ms) :
    ∃ errs' position' asked' t,
      (Series.closeRest c watch position errs rest ⟨current, passed, rest, asked⟩ : Reply _ δ _)
        = ⟨.ok (errs', position'), ⟨current, passed, [], asked'⟩, t⟩ ∧
      errs'.failures = errs.failures ++ ms.filterMap Course.closing := by
  induction hrest generalizing position errs asked with
  | nil => exact ⟨errs, position, asked + 1, watch asked, Series.closeRest_nil .., by simp⟩
  | @cons place m rest ms hplace _ ih =>
    obtain ⟨child, rfl, hm⟩ := hplace
    have hclosed := h.close hm
    rw [Series.closeRest_child]
    generalize c.close child = r at hclosed ⊢
    obtain ⟨outcome, child', u⟩ := r
    obtain ⟨xs, e, k⟩ := m
    cases hclosed
    cases k with
    | none =>
      obtain ⟨errs', position', asked', t, hr, herrs⟩ := ih (position + 1) errs (asked + 1)
      refine ⟨errs', position', asked', watch asked ++ (u ++ t), ?_, herrs⟩
      simp only [hr]
    | some e₁ =>
      obtain ⟨errs', position', asked', t, hr, herrs⟩ :=
        ih (position + 1) (errs.pushAt position e₁) (asked + 1)
      refine ⟨errs', position', asked', watch asked ++ (u ++ t), ?_, by simp [herrs]⟩
      simp only [hr]

theorem closeAll {m : Course α ε} {s : Series τ} (hm : Course.Serial R m s) :
    ∃ ms errs, m = Course.concat ms ∧
      (Series.closeAll c watch s : Reply _ δ _).outcome = .ok errs ∧
      errs.failures = ms.filterMap Course.closing := by
  cases hm with
  | @between rest ms position asked hrest =>
    obtain ⟨errs, position', asked', t, hr, herrs⟩ := h.closeRest (δ := δ) watch position
      (.empty "concatenated iterations") none position asked hrest
    refine ⟨ms, errs, rfl, ?_, herrs⟩
    rw [Series.closeAll, Action.get_bind_apply, Action.bind_apply, Series.closeCurrent_none]
    simp [Action.bind_apply, hr, Action.modify, Outcome.map]
  | @within child m rest ms position asked hm hrest =>
    have hclosed := h.close hm
    rw [Series.closeAll, Action.get_bind_apply, Action.bind_apply, Series.closeCurrent_some,
      hclosed]
    obtain ⟨xs, e, k⟩ := m
    cases k with
    | none =>
      obtain ⟨errs, position', asked', t, hr, herrs⟩ := h.closeRest (δ := δ) watch (position + 1)
        (.empty "concatenated iterations") none position asked hrest
      refine ⟨_, errs, rfl, ?_, herrs⟩
      simp [Course.closed, Action.bind_apply, hr, Action.modify, Outcome.map]
    | some e₁ =>
      obtain ⟨errs, position', asked', t, hr, herrs⟩ := h.closeRest (δ := δ) watch (position + 1)
        (.pushAt (.empty "concatenated iterations") position e₁) none position asked hrest
      refine ⟨_, errs, rfl, ?_, by rw [herrs, Aggregate.failures_pushAt]; rfl⟩
      simp [Course.closed, Action.bind_apply, hr, Action.modify, Outcome.map]

theorem release {m : Course α ε} {s : Series τ} (hm : Course.Serial R m s) :
    (Series.release c watch s).outcome = m.closed := by
  obtain ⟨ms, errs, rfl, hout, herrs⟩ := h.closeAll (δ := ε) watch hm
  rw [Series.release, Action.bind_apply, Course.closed, Course.concat_closing, ← herrs]
  generalize (Series.closeAll c watch s : Reply _ ε _) = r at hout ⊢
  obtain ⟨outcome, s', t⟩ := r
  cases hout
  dsimp only
  rcases errs.failures with _ | ⟨e, more⟩
  · rfl
  · simp [Action.bind_apply, Action.emit, Action.fail]

theorem turn {m : Course α ε} {child : τ} (hm : R m child) (position asked : Nat)
    (rest : List (Option τ)) :
    (∃ x xs e k child' t, m = ⟨x :: xs, e, k⟩ ∧ R ⟨xs, e, k⟩ child' ∧
      Series.turn c watch ⟨some child, position, rest, asked⟩ =
        ⟨.ok (.stop (some x)), ⟨some child', position, rest, asked⟩, t⟩) ∨
    (∃ e s t, m.elements = [] ∧ m.ending.or m.closing = some e ∧
      Series.turn c watch ⟨some child, position, rest, asked⟩ = ⟨.error e, s, t⟩) ∨
    m = ⟨[], none, none⟩ ∧ ∃ t,
      Series.turn c watch ⟨some child, position, rest, asked⟩ =
        let r := Series.advance watch ⟨none, position + 1, rest, asked⟩
        ⟨r.outcome, r.state, t ++ r.trace⟩ := by
  rw [Series.turn_child]
  have hgiven := h.pull hm
  generalize c.pull child = r at hgiven ⊢
  cases hgiven with
  | element hs => exact .inl ⟨_, _, _, _, _, _, rfl, hs, rfl⟩
  | @ended k child' t hclosed =>
    dsimp only
    generalize c.close child' = r at hclosed ⊢
    obtain ⟨outcome, child₁, u⟩ := r
    cases hclosed
    cases k with
    | none => exact .inr (.inr ⟨rfl, t ++ u, by simp⟩)
    | some e => exact .inr (.inl ⟨e, _, _, rfl, rfl, rfl⟩)
  | failed => exact .inr (.inl ⟨_, _, _, rfl, rfl, rfl⟩)

theorem pull_within {rest : List (Option τ)} {ms : List (Course α ε)}
    (hrest : List.Forall₂ (Course.Placed R) rest ms) {m : Course α ε} {child : τ} (hm : R m child)
    (position asked : Nat) :
    Course.AnswersPull (Series.release c watch) (Course.Serial R) (Course.concat (m :: ms))
      ((Series.source c watch).pull ⟨some child, position, rest, asked⟩) := by
  -- A child that has ended and been closed makes room for the next one in the supply.
  induction hrest generalizing m child position asked with
  | nil =>
    show Course.AnswersPull _ _ _ (Action.loop _ _ _ _)
    rw [Action.loop_eq, Action.bind_apply]
    obtain ⟨x, xs, e, k, child', t, rfl, hs, hturn⟩ | ⟨e, s, t, hnil, he, hturn⟩ |
      ⟨rfl, t, hturn⟩ := h.turn watch hm position asked []
    · rw [hturn, Course.concat_element]
      exact .element (.within hs .nil)
    · rw [hturn, Course.concat_fault hnil he]
      exact .failed
    · rw [hturn, Series.advance_nil]
      exact .ended (h.release watch (.between .nil))
  | @cons place m' rest ms hplace hrest ih =>
    obtain ⟨next, rfl, hnext⟩ := hplace
    show Course.AnswersPull _ _ _ (Action.loop _ _ _ _)
    rw [Action.loop_eq, Action.bind_apply]
    obtain ⟨x, xs, e, k, child', t, rfl, hs, hturn⟩ | ⟨e, s, t, hnil, he, hturn⟩ |
      ⟨rfl, t, hturn⟩ := h.turn watch hm position asked (some next :: rest)
    · rw [hturn, Course.concat_element]
      exact .element (.within hs (.cons ⟨next, rfl, hnext⟩ hrest))
    · rw [hturn, Course.concat_fault hnil he]
      exact .failed
    · rw [hturn, Series.advance_child, Course.concat_ended]
      exact (ih hnext (position + 1) (asked + 1)).retrace _

theorem series : (Series.source c watch).Takes (Course.Serial R) where
  pull hm := by
    cases hm with
    | @between rest ms position asked hrest =>
      cases hrest with
      | nil =>
        show Course.AnswersPull _ _ _ (Action.loop _ _ _ _)
        rw [Action.loop_eq, Action.bind_apply, Series.turn_none, Series.advance_nil]
        exact .ended (h.release watch (.between .nil))
      | @cons place m rest ms hplace hrest =>
        obtain ⟨child, rfl, hm⟩ := hplace
        show Course.AnswersPull _ _ _ (Action.loop _ _ _ _)
        rw [Action.loop_eq, Action.bind_apply, Series.turn_none, Series.advance_child]
        exact (h.pull_within watch hrest hm position (asked + 1)).retrace _
    | within hm hrest => exact h.pull_within watch hrest hm _ _
  close hm := h.release watch hm

end Source.Takes

end PullCursor
