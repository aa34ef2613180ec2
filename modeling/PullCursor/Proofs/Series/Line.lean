import PullCursor.Proofs.Alike
import PullCursor.Proofs.Fault.Record
import PullCursor.Proofs.Series.Steps

/-! A concatenation as a line of children. All that matters to a caller is the child in use and the
children to come; positions, counts and the supply are left out. -/
namespace PullCursor

variable {τ σ α ε : Type}

/-- Two closings in a row: the first failure is reported, and nothing follows a panic. -/
def Outcome.first : Outcome ε Unit → Outcome ε Unit → Outcome ε Unit
  | .ok _, o => o
  | .error e, .ok _ | .error e, .error _ => .error e
  | .error _, .panic m | .panic m, _ => .panic m

theorem Outcome.first_ok (o : Outcome ε Unit) : o.first (.ok ()) = o := by cases o <;> rfl

theorem Outcome.first_assoc (o₁ o₂ o₃ : Outcome ε Unit) :
    (o₁.first o₂).first o₃ = o₁.first (o₂.first o₃) := by
  cases o₁ <;> cases o₂ <;> cases o₃ <;> rfl

def Reply.first (r : Reply σ ε Unit) (others : Reply Unit ε Unit) : Reply Unit ε Unit :=
  match r with
  | ⟨.panic m, _, t⟩ => ⟨.panic m, (), t⟩
  | ⟨.ok _, _, t⟩ => ⟨others.outcome, (), t ++ others.trace⟩
  | ⟨.error e, _, t⟩ => ⟨.first (.error e) others.outcome, (), t ++ others.trace⟩

theorem Reply.first_outcome (r : Reply σ ε Unit) (others : Reply Unit ε Unit) :
    (r.first others).outcome = r.outcome.first others.outcome := by
  rcases r with ⟨_ | _ | _, _, _⟩ <;> rfl

def Aggregate.verdict (errs : Aggregate ε) : Outcome ε Unit :=
  match errs.failures with
  | [] => .ok ()
  | e :: _ => .error e

theorem Aggregate.verdict_pushAt (errs : Aggregate ε) (position : Nat) (e : ε) :
    (errs.pushAt position e).verdict = errs.verdict.first (.error e) := by
  unfold verdict
  rw [failures_pushAt]
  cases errs.failures <;> rfl

theorem Aggregate.verdict_first_panic (errs : Aggregate ε) (m : String) :
    errs.verdict.first (.panic m) = .panic m := by
  unfold verdict
  cases errs.failures <;> rfl

def Outcome.reported : Outcome ε (Aggregate ε) → Outcome ε Unit
  | .ok errs => errs.verdict
  | .error e => .error e
  | .panic m => .panic m

namespace Series

structure Line (τ : Type) where
  current : Option τ
  rest : List τ

variable (c : Source τ α ε)

/-- An element of the child in use, or else what comes after it. -/
def takeFrom (child : τ) (rest : List τ) (after : Reply (Line τ) ε (Option α)) :
    Reply (Line τ) ε (Option α) :=
  match c.pull child with
  | ⟨.ok (some x), child, t⟩ => ⟨.ok (some x), ⟨some child, rest⟩, t⟩
  | ⟨.error e, child, t⟩ => ⟨.error e, ⟨some child, rest⟩, t⟩
  | ⟨.panic m, child, t⟩ => ⟨.panic m, ⟨some child, rest⟩, t⟩
  | ⟨.ok none, child, t⟩ => match c.close child with
    | ⟨.ok _, _, u⟩ => ⟨after.outcome, after.state, t ++ u ++ after.trace⟩
    | ⟨.error e, _, u⟩ => ⟨.error e, ⟨none, rest⟩, t ++ u⟩
    | ⟨.panic m, _, u⟩ => ⟨.panic m, ⟨none, rest⟩, t ++ u⟩

def takeRest : List τ → Reply (Line τ) ε (Option α)
  | [] => ⟨.ok none, ⟨none, []⟩, []⟩
  | child :: rest => takeFrom c child rest (takeRest rest)

def take : Line τ → Reply (Line τ) ε (Option α)
  | ⟨none, rest⟩ => takeRest c rest
  | ⟨some child, rest⟩ => takeFrom c child rest (takeRest c rest)

def closeEach : List τ → Reply Unit ε Unit
  | [] => ⟨.ok (), (), []⟩
  | child :: rest => (c.close child).first (closeEach rest)

def Line.children (line : Line τ) : List τ := line.current.toList ++ line.rest

def line : Source (Line τ) α ε where
  pull := take c
  close l := ⟨(closeEach c l.children).outcome, ⟨none, []⟩, (closeEach c l.children).trace⟩

/-- The state holds this line, and no gaps. -/
inductive LinesUp : Series τ → Line τ → Prop
  | intro (current : Option τ) (position asked : Nat) (rest : List τ) :
      LinesUp ⟨current, position, rest.map some, asked⟩ ⟨current, rest⟩

variable {c} {watch : Nat → List Event}

theorem pull_matches_takeFrom (child : τ) (position asked : Nat) (rest : List τ)
    {after : Reply (Line τ) ε (Option α)}
    (hafter : ((source c watch).pull ⟨none, position + 1, rest.map some, asked⟩).Matches LinesUp
      after) :
    ((source c watch).pull ⟨some child, position, rest.map some, asked⟩).Matches LinesUp
      (takeFrom c child rest after) := by
  rw [pull_child, takeFrom]
  rcases c.pull child with ⟨(_ | x) | e | m, child', t⟩
  · dsimp only
    rcases c.close child' with ⟨_ | e | m, child'', u⟩
    · exact hafter.after rfl
    · exact ⟨⟨rfl, rfl⟩, .intro ..⟩
    · exact ⟨⟨rfl, rfl⟩, .intro ..⟩
  · exact ⟨⟨rfl, rfl⟩, .intro ..⟩
  · exact ⟨⟨rfl, rfl⟩, .intro ..⟩
  · exact ⟨⟨rfl, rfl⟩, .intro ..⟩

variable (hwatch : ∀ n, outward (watch n) = [])
include hwatch

theorem pull_matches_takeRest (position asked : Nat) (rest : List τ) :
    ((source c watch).pull ⟨none, position, rest.map some, asked⟩).Matches LinesUp
      (takeRest c rest) := by
  -- Between two children the next one is taken into use, and its turn comes before the rest.
  induction rest generalizing position asked with
  | nil =>
    rw [List.map_nil, pull_nil]
    exact ⟨⟨rfl, hwatch asked⟩, .intro none position (asked + 1) []⟩
  | cons child rest ih =>
    rw [List.map_cons, pull_next]
    exact (pull_matches_takeFrom child position (asked + 1) rest (ih _ _)).after (t := [])
      (hwatch asked)

theorem pull_matches : (source c watch).pull.Matches LinesUp (line c).pull := by
  rintro _ _ ⟨current, position, asked, rest⟩
  cases current with
  | none => exact pull_matches_takeRest hwatch position asked rest
  | some child =>
    exact pull_matches_takeFrom child position asked rest
      (pull_matches_takeRest hwatch (position + 1) asked rest)

theorem closeRest_reports (position : Nat) (errs : Aggregate ε) (current : Option τ)
    (passed asked : Nat) (children : List τ) :
    let r : Reply _ ε _ := closeRest c watch position errs (children.map some)
      ⟨current, passed, children.map some, asked⟩
    (r.outcome.map Prod.fst).reported = errs.verdict.first (closeEach c children).outcome ∧
      outward r.trace = outward (closeEach c children).trace := by
  induction children generalizing position errs asked with
  | nil =>
    rw [List.map_nil, closeRest_nil]
    exact ⟨(Outcome.first_ok _).symm, hwatch asked⟩
  | cons child rest ih =>
    rw [List.map_cons, closeRest_child, closeEach, Reply.first_outcome, ← Outcome.first_assoc]
    rcases c.close child with ⟨_ | e | m, child', t⟩
    · obtain ⟨ho, ht⟩ := ih (position + 1) errs (asked + 1)
      refine ⟨?_, ?_⟩
      · rw [Outcome.first_ok]
        exact ho
      · simp only [Reply.first, outward_append, hwatch, ht, List.nil_append]
    · obtain ⟨ho, ht⟩ := ih (position + 1) (errs.pushAt position e) (asked + 1)
      refine ⟨?_, ?_⟩
      · rw [← Aggregate.verdict_pushAt]
        exact ho
      · simp only [Reply.first, outward_append, hwatch, ht, List.nil_append]
    · refine ⟨?_, ?_⟩
      · rw [Aggregate.verdict_first_panic]
        rfl
      · simp only [Reply.first, outward_append, hwatch, List.nil_append]

theorem closeRest_reports_noted (position : Nat) (errs : Aggregate ε) (passed asked : Nat)
    (children : List τ) :
    let r : Reply _ ε _ := (do
      let (errs, position) ← closeRest c watch position errs (children.map some)
      Action.modify fun s => { s with position := position }
      return errs : Action (Series τ) ε (Aggregate ε)) ⟨none, passed, children.map some, asked⟩
    r.outcome.reported = errs.verdict.first (closeEach c children).outcome ∧
      outward r.trace = outward (closeEach c children).trace := by
  obtain ⟨ho, ht⟩ :=
    closeRest_reports (c := c) hwatch position errs none passed asked children
  rw [← ho, ← ht, Action.bind_apply]
  rcases closeRest c watch position errs (children.map some)
    ⟨none, passed, children.map some, asked⟩ with ⟨_ | _ | _, s, t⟩
  · simp [Outcome.map]
  · exact ⟨rfl, rfl⟩
  · exact ⟨rfl, rfl⟩

theorem closeAll_reports {s : Series τ} {l : Line τ} (h : LinesUp s l) :
    let r : Reply _ ε _ := closeAll c watch s
    r.outcome.reported = (closeEach c l.children).outcome ∧
      outward r.trace = outward (closeEach c l.children).trace := by
  obtain ⟨current, position, asked, rest⟩ := h
  rw [closeAll, Action.get_bind_apply, Action.bind_apply]
  cases current with
  | none =>
    rw [closeCurrent_none]
    exact closeRest_reports_noted hwatch position (.empty _) position asked rest
  | some child =>
    rw [closeCurrent_some]
    show _ = ((c.close child).first (closeEach c rest)).outcome ∧
      _ = outward ((c.close child).first (closeEach c rest)).trace
    rcases c.close child with ⟨_ | e | m, child', t⟩
    · obtain ⟨ho, ht⟩ := closeRest_reports_noted (c := c) hwatch (position + 1)
        (.empty "concatenated iterations") position asked rest
      refine ⟨ho, ?_⟩
      simp only [Reply.first, outward_append]
      rw [← ht]
    · obtain ⟨ho, ht⟩ := closeRest_reports_noted (c := c) hwatch (position + 1)
        (.pushAt (.empty "concatenated iterations") position e) position asked rest
      refine ⟨ho, ?_⟩
      simp only [Reply.first, outward_append]
      rw [← ht]
    · exact ⟨rfl, rfl⟩

theorem release_alike {s : Series τ} {l : Line τ} (h : LinesUp s l) :
    (release c watch s).Alike ((line c).close l) := by
  have hall := closeAll_reports (c := c) hwatch h
  rw [release, Action.bind_apply]
  rcases e : (closeAll c watch s : Reply _ ε _) with ⟨errs | e | m, s', t⟩ <;> rw [e] at hall
  · obtain ⟨ho, ht⟩ := hall
    simp only [Outcome.reported, Aggregate.verdict] at ho
    dsimp only
    generalize errs.failures = failures at ho ⊢
    rcases failures with _ | ⟨e, more⟩
    · exact ⟨ho, by rw [outward_append, ht]; exact List.append_nil _⟩
    · refine ⟨ho, ?_⟩
      rw [outward_append, ht]
      cases more <;> exact List.append_nil _
  · exact hall
  · exact hall

theorem source_matches : Source.Matches LinesUp LinesUp (source c watch) (line c) where
  pull hs := (pull_matches hwatch _ _ hs).1
  element hs _ := (pull_matches hwatch _ _ hs).2
  pulled hs := (pull_matches hwatch _ _ hs).2
  close hs := release_alike hwatch hs

end Series

end PullCursor
