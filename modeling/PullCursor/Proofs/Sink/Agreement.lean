import PullCursor.Proofs.Course.Follows
import PullCursor.Proofs.Loop
import PullCursor.Sink.Basic

/-! What a comparison of two cursors finds out, and what it leaves of them. All depends on the
first index at which the elements differ or one of the cursors has run out of them. -/
namespace PullCursor.Sink

variable {σ τ α β ε : Type}

/-- The first index at which the lists have different elements or one of them has none. Nothing is
assumed about what is the same: an element need not even be the same as itself. -/
def firstDifference (same : α → β → Bool) (xs : List α) (ys : List β) : Nat :=
  (xs.zip ys).findIdx fun p => !same p.1 p.2

theorem firstDifference_cons (same : α → β → Bool) (x : α) (xs : List α) (y : β) (ys : List β) :
    firstDifference same (x :: xs) (y :: ys) =
      if same x y then firstDifference same xs ys + 1 else 0 := by
  rw [firstDifference, List.zip_cons_cons, List.findIdx_cons]
  cases same x y <;> rfl

theorem firstDifference_nil_left (same : α → β → Bool) (ys : List β) :
    firstDifference same [] ys = 0 := rfl

theorem firstDifference_nil_right (same : α → β → Bool) (xs : List α) :
    firstDifference same xs [] = 0 := by
  cases xs <;> rfl

structure Finding (β ε : Type) where
  outcome : Outcome ε Bool
  calls : List Operation
  left : Course β ε

/-- What there is to find at this index. The first cursor is pulled for it. The second one is pulled
only for an element that can be compared, and asked for one only if the first has come to an end. -/
def finding (m : Course α ε) (n : Course β ε) (i : Nat) : Finding β ε :=
  match m.elements[i]?, m.ending, n.elements[i]?, n.ending with
  | some _, _, some _, _ => ⟨.ok false, .replicate (i + 1) .pull, n.past (i + 1)⟩
  | some _, _, none, some e => ⟨.error e, .replicate (i + 1) .pull, n.finished⟩
  | some _, _, none, none => ⟨.ok false, .replicate (i + 1) .pull, n.finished⟩
  | none, some e, _, _ => ⟨.error e, .replicate i .pull, n.past i⟩
  | none, none, some _, _ => ⟨.ok false, .replicate i .pull ++ [.hasNext], n.past i⟩
  | none, none, none, some e => ⟨.error e, .replicate i .pull ++ [.hasNext], n.finished⟩
  | none, none, none, none => ⟨.ok true, .replicate i .pull ++ [.hasNext], n.finished⟩

theorem finding_cons (x : α) (xs : List α) (e k : Option ε) (y : β) (ys : List β)
    (e' k' : Option ε) (i : Nat) :
    finding ⟨x :: xs, e, k⟩ ⟨y :: ys, e', k'⟩ (i + 1) =
      let later := finding ⟨xs, e, k⟩ ⟨ys, e', k'⟩ i
      ⟨later.outcome, .pull :: later.calls, later.left⟩ := by
  simp only [finding, List.getElem?_cons_succ, Course.past_cons]
  rcases xs[i]? with _ | _ <;> rcases ys[i]? with _ | _ <;> cases e <;> cases e' <;> rfl

def compareTurn (a : Source σ α ε) (b : Cursor τ β ε) (same : α → β → Bool) :
    Action (σ × τ) ε (Turn Bool) :=
  Sweep.turn a (atEnd b) (compare b same)

def Compares (a : Source σ α ε) (b : Cursor τ β ε) (same : α → β → Bool) :
    σ × τ → Reply (σ × τ) ε Bool → Prop :=
  Action.Ends (compareTurn a b same)

theorem compares_iff (a : EndingSource σ α ε) (b : Cursor τ β ε) (same : α → β → Bool)
    (s : σ × τ) (r : Reply (σ × τ) ε Bool) :
    Compares a.toSource b same s r ↔ r = agree a b same s := by
  have hends : Compares a.toSource b same s (agree a b same s) :=
    a.sweep_ends _ _ s
  constructor
  · exact fun h => h.unique hends
  · rintro rfl
    exact hends

section Turn

variable {a : Source σ α ε} {b : Cursor τ β ε} {s s' : σ} {t : τ} {seen : List Event}

theorem compareTurn_element {x : α} (ha : a.pull s = ⟨.ok (some x), s', seen⟩)
    (same : α → β → Bool) :
    compareTurn a b same (s, t) =
      ⟨(b.pull t).outcome.map fun
          | none => .stop false
          | some y => if same x y then .again else .stop false,
        (s', (b.pull t).state), seen ++ (b.pull t).trace⟩ := by
  rw [compareTurn, Sweep.turn_some _ _ t ha, compare, Action.bind_apply]
  rcases b.pull t with ⟨(_ | y) | _ | _, t', seen'⟩
  · simp [Outcome.map]
  · cases h : same x y <;> simp [Outcome.map, h]
  · rfl
  · rfl

theorem compareTurn_ended (ha : a.pull s = ⟨.ok none, s', seen⟩) (same : α → β → Bool) :
    compareTurn a b same (s, t) =
      ⟨(b.hasNext t).outcome.map fun more => .stop !more, (s', (b.hasNext t).state),
        seen ++ (b.hasNext t).trace⟩ := by
  rw [compareTurn, Sweep.turn_none _ _ t ha, atEnd, bind_pure_comp, Action.map_apply]
  cases (b.hasNext t).outcome <;> rfl

end Turn

/-- The comparison ends with this finding, for which the first cursor is pulled up to the index and
the second one gets the calls that the finding names. -/
structure Finds (a : Cursor σ α ε) (b : Cursor τ β ε) (same : α → β → Bool) (s : σ) (t : τ)
    (i : Nat) (found : Finding β ε) : Prop where
  ends : ∃ seen, Compares a.toSource b same (s, t)
    ⟨found.outcome, ((a.run s (.replicate (i + 1) .pull)).state, (b.run t found.calls).state), seen⟩
  left : b.Follows found.left (b.run t found.calls).state

section Follows

variable {a : Cursor σ α ε} {b : Cursor τ β ε} {s : σ} {t : τ} {n : Course β ε}

theorem Finds.of_failed {e : ε} {k : Option ε} (same : α → β → Bool)
    (ha : a.Follows ⟨[], some e, k⟩ s) (hb : b.Follows n t) :
    Finds a b same s t 0 (finding (α := α) ⟨[], some e, k⟩ n 0) where
  ends := ⟨_, .error (Sweep.turn_error _ _ t (ha.pull rfl).1)⟩
  left := by
    show b.Follows (n.past 0) t
    rw [Course.past_zero]
    exact hb

theorem Finds.of_ended {k : Option ε} (same : α → β → Bool) (ha : a.Follows ⟨[], none, k⟩ s)
    (hb : b.Follows n t) : Finds a b same s t 0 (finding (α := α) ⟨[], none, k⟩ n 0) := by
  have hturn := compareTurn_ended (b := b) (t := t) (ha.pull rfl).1 same
  obtain ⟨ys, e, k'⟩ := n
  cases ys with
  | cons y ys =>
    obtain ⟨hasked, hleft⟩ := hb.hasNext rfl
    rw [hasked] at hturn
    refine ⟨⟨_, .stop hturn⟩, ?_⟩
    show b.Follows (Course.past ⟨y :: ys, e, k'⟩ 0) _
    rw [Course.past_zero]
    exact hleft
  | nil =>
    cases e with
    | none =>
      obtain ⟨hasked, hleft⟩ := hb.hasNext rfl
      rw [hasked] at hturn
      exact ⟨⟨_, .stop hturn⟩, hleft⟩
    | some e =>
      obtain ⟨hasked, hleft⟩ := hb.hasNext rfl
      rw [hasked] at hturn
      exact ⟨⟨_, .error hturn⟩, hleft⟩

theorem Finds.of_longer {x : α} {xs : List α} {e e' k k' : Option ε} (same : α → β → Bool)
    (ha : a.Follows ⟨x :: xs, e, k⟩ s) (hb : b.Follows ⟨[], e', k'⟩ t) :
    Finds a b same s t 0 (finding ⟨x :: xs, e, k⟩ ⟨[], e', k'⟩ 0) := by
  have hturn := compareTurn_element (b := b) (t := t) (ha.pull rfl).1 same
  cases e' with
  | none =>
    obtain ⟨hgiven, hleft⟩ := hb.pull rfl
    rw [hgiven] at hturn
    exact ⟨⟨_, .stop hturn⟩, hleft⟩
  | some e' =>
    obtain ⟨hgiven, hleft⟩ := hb.pull rfl
    rw [hgiven] at hturn
    exact ⟨⟨_, .error hturn⟩, hleft⟩

theorem finds (same : α → β → Bool) {m : Course α ε} (ha : a.Follows m s) (hb : b.Follows n t) :
    Finds a b same s t (firstDifference same m.elements n.elements)
      (finding m n (firstDifference same m.elements n.elements)) := by
  obtain ⟨xs, e, k⟩ := m
  obtain ⟨ys, e', k'⟩ := n
  -- Elements that are the same are left behind, and both cursors are then at the beginning of what
  -- they have left.
  induction xs generalizing s t ys with
  | nil =>
    cases e with
    | some e => exact .of_failed same ha hb
    | none => exact .of_ended same ha hb
  | cons x xs ih =>
    cases ys with
    | nil => exact .of_longer same ha hb
    | cons y ys =>
      obtain ⟨hpulled, ha'⟩ := ha.pull rfl
      obtain ⟨hgiven, hb'⟩ := hb.pull rfl
      have hturn := compareTurn_element (b := b) (t := t) hpulled same
      rw [hgiven] at hturn
      rw [firstDifference_cons]
      cases hsame : same x y with
      | false =>
        simp only [Outcome.map, hsame] at hturn
        exact ⟨⟨_, .stop hturn⟩, hb'⟩
      | true =>
        simp only [Outcome.map, hsame] at hturn
        obtain ⟨⟨seen, hends⟩, hleft⟩ := ih ha' ys hb'
        rw [if_pos rfl, finding_cons]
        exact ⟨⟨_, .again hturn hends⟩, hleft⟩

end Follows

theorem finding_yes_iff (same : α → β → Bool) (m : Course α ε) (n : Course β ε) :
    (finding m n (firstDifference same m.elements n.elements)).outcome = .ok true ↔
      List.Forall₂ (fun x y => same x y) m.elements n.elements ∧ m.ending = none ∧
        n.ending = none := by
  obtain ⟨xs, e, k⟩ := m
  obtain ⟨ys, e', k'⟩ := n
  induction xs generalizing ys with
  | nil =>
    rw [firstDifference_nil_left]
    cases ys <;> cases e <;> cases e' <;> simp [finding]
  | cons x xs ih =>
    cases ys with
    | nil =>
      rw [firstDifference_nil_right]
      cases e' <;> simp [finding]
    | cons y ys =>
      rw [firstDifference_cons]
      cases hsame : same x y with
      | false => simp [finding, hsame]
      | true => simpa [finding_cons, hsame] using ih ys

/-- Two cursors that keep the contract are compared up to the first index at which their elements
differ or one of them has none. The first one is pulled that far and once more; the calls on the
second one are those that the finding names. No other call is made, so neither is closed, and both
go on with what they have left. -/
theorem agreement_settled (same : α → β → Bool) :
    (∀ (a : EndingSource σ α ε) (b : Cursor τ β ε) s r,
      Compares a.toSource b same s r ↔ r = agree a b same s) ∧
    ∀ (a : Cursor σ α ε) (b : Cursor τ β ε) m n s t, a.Follows m s → b.Follows n t →
      let i := firstDifference same m.elements n.elements
      let found := finding m n i
      let pulls := List.replicate (i + 1) .pull
      Finds a b same s t i found ∧
      a.Follows (m.past (i + 1)) (a.run s pulls).state ∧
      (∃ seen, Compares a.noted.toSource b.noted same ((s, []), (t, []))
        ⟨found.outcome,
          (((a.run s pulls).state, pulls), ((b.run t found.calls).state, found.calls)), seen⟩) ∧
      (found.outcome = .ok true ↔
        List.Forall₂ (fun x y => same x y) m.elements n.elements ∧ m.ending = none ∧
          n.ending = none) := by
  refine ⟨fun a b s r => compares_iff a b same s r, ?_⟩
  intro a b m n s t ha hb i found pulls
  obtain ⟨seen, hnoted⟩ := (finds same (ha.noted []) (hb.noted [])).ends
  rw [Cursor.run_noted, Cursor.run_noted] at hnoted
  exact ⟨finds same ha hb, ha.past (i + 1), ⟨seen, hnoted⟩, finding_yes_iff same m n⟩

/-- An element that is not the same as itself makes a difference. -/
theorem agreement_settled_at_odd_element :
    let same : Element → Element → Bool := fun x y => x = y ∧ x ≠ .null
    let p : Plan := .items [.bool true, .null, .bool false]
    let q : Plan := .items [.bool true, .null, .null]
    let pulls := List.replicate 2 .pull
    p.cursor.toCursor.Follows p.course p.start ∧ q.cursor.toCursor.Follows q.course q.start ∧
    (agree p.cursor.toEndingSource q.cursor.toCursor same (p.start, q.start)).outcome =
      .ok false ∧
    p.cursor.toCursor.Follows ⟨[.bool false], none, none⟩ (p.cursor.run p.start pulls).state ∧
    q.cursor.toCursor.Follows ⟨[.null], none, none⟩ (q.cursor.run q.start pulls).state := by
  intro same p q pulls
  have hp : p.cursor.toCursor.Follows p.course p.start := Plan.Plain.follows trivial
  have hq : q.cursor.toCursor.Follows q.course q.start := Plan.Plain.follows trivial
  have hdiffers : firstDifference same p.course.elements q.course.elements = 1 := by decide
  obtain ⟨⟨⟨seen, hends⟩, hleft⟩, hfirst, -⟩ :=
    (agreement_settled same).2 p.cursor.toCursor q.cursor.toCursor _ _ _ _ hp hq
  rw [hdiffers] at hends hleft hfirst
  have hran := ((agreement_settled same).1 p.cursor.toEndingSource q.cursor.toCursor _ _).mp hends
  exact ⟨hp, hq, congrArg Reply.outcome hran.symm, hfirst, hleft⟩

end PullCursor.Sink
