import PullCursor.Proofs.Schedule
import PullCursor.Proofs.Series.Requests

/-! The ledger of a concatenation. Every call on a child is seen under the child's number, and what
was seen tells which children were put away, which one is in use and which were never touched. -/
namespace PullCursor

variable {τ α ε δ : Type}

/-- A number in strokes, which makes a name of it. -/
def tally (n : Nat) : String := String.ofList (List.replicate n 'I')

theorem tally_inj {m n : Nat} : tally m = tally n ↔ m = n := by
  simp [tally, String.ofList_inj]

/-- A call that is seen under the number that stands beside the state, instead of anything else
there is to see of it. -/
def Action.numbered (op : Operation) (m : Action τ ε α) : Action (Nat × τ) ε α := fun s =>
  let r := m s.2
  ⟨r.outcome, (s.1, r.state), [.called (tally s.1) op]⟩

def Cursor.numbered (c : Cursor τ α ε) : Cursor (Nat × τ) α ε where
  pull := c.pull.numbered .pull
  close := c.close.numbered .close
  hasNext := c.hasNext.numbered .hasNext
  next := c.next.numbered .next

theorem Cursor.pull_mirrors (c : Cursor τ α ε) :
    Action.Mirrors Prod.snd c.numbered.pull c.pull := fun _ => ⟨rfl, rfl⟩

theorem Cursor.close_mirrors (c : Cursor τ α ε) :
    Action.Mirrors Prod.snd c.numbered.close c.close := fun _ => ⟨rfl, rfl⟩

theorem Cursor.pull_numbered (c : Cursor τ α ε) (i : Nat) (x : τ) :
    c.numbered.pull (i, x) =
      ⟨(c.pull x).outcome, (i, (c.pull x).state), [.called (tally i) .pull]⟩ := rfl

theorem Cursor.close_numbered (c : Cursor τ α ε) (i : Nat) (x : τ) :
    c.numbered.close (i, x) =
      ⟨(c.close x).outcome, (i, (c.close x).state), [.called (tally i) .close]⟩ := rfl

namespace Series

def watched (id : String) (n : Nat) : List Event := [.taken id n]

def untaken (children : List τ) (n : Nat) : List (Option (Nat × τ)) :=
  (children.zipIdx.drop n).map fun child => some (child.2, child.1)

def taken (s : Series τ) : Nat := s.position + s.current.toList.length

def callsOn (i : Nat) (seen : List Event) : List Operation :=
  seen.filterMap fun
    | .called name op => if name = tally i then some op else none
    | _ => none

@[simp] theorem callsOn_nil (i : Nat) : callsOn i [] = [] := rfl

@[simp] theorem callsOn_append (i : Nat) (seen t : List Event) :
    callsOn i (seen ++ t) = callsOn i seen ++ callsOn i t := List.filterMap_append ..

@[simp] theorem callsOn_watched (i n : Nat) (id : String) : callsOn i (watched id n) = [] := rfl

@[simp] theorem callsOn_log (i : Nat) (notice : Notice) : callsOn i [.log notice] = [] := rfl

@[simp] theorem callsOn_called (i j : Nat) (op : Operation) :
    callsOn i [.called (tally j) op] = if j = i then [op] else [] := by
  by_cases h : j = i <;> simp [callsOn, tally_inj, h]

theorem untaken_of_lt {children : List τ} {n : Nat} (h : n < children.length) :
    untaken children n = some (n, children[n]) :: untaken children (n + 1) := by
  have h' : n < children.zipIdx.length := by simpa using h
  simp [untaken, List.drop_eq_getElem_cons h']

theorem untaken_all (children : List τ) : untaken children children.length = [] := by
  simp [untaken]

section Ledger

variable (c : Cursor τ α ε) (children : List τ)

/-- What the calls that were seen have made of the child of this number. -/
def courseOf (i : Nat) (seen : List Event) : Option (Run τ α ε) :=
  children[i]?.map fun s => c.run s (callsOn i seen)

/-- Accounts for every child by the calls on it. -/
structure Ledger (seen : List Event) (s : Series (Nat × τ)) : Prop where
  passed : ∀ i < s.position, ∃ before, callsOn i seen = before ++ [.close] ∧ .close ∉ before
  inUse : ∀ child, s.current = some child → child.1 = s.position ∧
    .close ∉ callsOn s.position seen ∧
    (courseOf c children s.position seen).map Run.state = some child.2
  rest : s.rest = untaken children s.taken
  untouched : ∀ i ≥ s.taken, callsOn i seen = []
  taken_le : s.taken ≤ children.length

structure Settled (seen : List Event) (s : Series (Nat × τ)) : Prop
    extends Ledger c children seen s where
  position_eq : s.position = children.length
  current_eq : s.current = none
  rest_eq : s.rest = []

variable {c children}

theorem courseOf_quiet {i : Nat} {t : List Event} (h : callsOn i t = []) (seen : List Event) :
    courseOf c children i (seen ++ t) = courseOf c children i seen := by
  simp [courseOf, h]

theorem courseOf_called (i : Nat) (seen : List Event) (op : Operation) :
    courseOf c children i (seen ++ [.called (tally i) op]) =
      (courseOf c children i seen).map (c.extend · op) := by
  simp [courseOf, Cursor.run_concat, Function.comp_def]

theorem courseOf_untouched {i : Nat} {seen : List Event} (h : callsOn i seen = [])
    (hi : i < children.length) : courseOf c children i seen = some ⟨[], children[i], []⟩ := by
  simp [courseOf, h, hi, Cursor.run]

namespace Ledger

variable {seen : List Event} {current : Option (Nat × τ)} {position asked : Nat}
  {rest : List (Option (Nat × τ))} {x : τ}

theorem start (children : List τ) :
    Ledger c children [] ⟨none, 0, untaken children 0, 0⟩ where
  passed := nofun
  inUse := nofun
  rest := rfl
  untouched _ _ := rfl
  taken_le := Nat.zero_le _

theorem quiet {s : Series (Nat × τ)} (h : Ledger c children seen s) {t : List Event}
    (ht : ∀ i, callsOn i t = []) : Ledger c children (seen ++ t) s where
  passed i hi := by simpa [ht] using h.passed i hi
  inUse child hchild := by simpa [ht, courseOf_quiet (ht _)] using h.inUse child hchild
  rest := h.rest
  untouched i hi := by simpa [ht] using h.untouched i hi
  taken_le := h.taken_le

theorem asked_again (h : Ledger c children seen ⟨current, position, rest, asked⟩) (id : String) :
    Ledger c children (seen ++ watched id asked) ⟨current, position, rest, asked + 1⟩ :=
  have h := h.quiet fun i => callsOn_watched i asked id
  ⟨h.passed, h.inUse, h.rest, h.untouched, h.taken_le⟩

theorem course (h : Ledger c children seen ⟨some (position, x), position, rest, asked⟩) :
    ∃ r, courseOf c children position seen = some r ∧ r.state = x :=
  Option.map_eq_some_iff.1 (h.inUse _ rfl).2.2

theorem pull (h : Ledger c children seen ⟨some (position, x), position, rest, asked⟩) :
    Ledger c children (seen ++ [.called (tally position) .pull])
      ⟨some (position, (c.pull x).state), position, rest, asked⟩ where
  passed i hi := by
    have hne : position ≠ i := Nat.ne_of_gt hi
    simpa [hne] using h.passed i hi
  inUse := by
    rintro _ ⟨rfl⟩
    obtain ⟨r, hr, rfl⟩ := h.course
    refine ⟨rfl, by simpa using (h.inUse _ rfl).2.1, ?_⟩
    rw [courseOf_called, hr]
    rfl
  rest := h.rest
  untouched i hi := by
    have hne : position ≠ i := Nat.ne_of_lt hi
    simpa [hne] using h.untouched i hi
  taken_le := h.taken_le

theorem close (h : Ledger c children seen ⟨some (position, x), position, rest, asked⟩) :
    Ledger c children (seen ++ [.called (tally position) .close])
      ⟨none, position + 1, rest, asked⟩ where
  passed i hi := by
    by_cases hne : position = i
    · subst hne
      exact ⟨_, by simp, (h.inUse _ rfl).2.1⟩
    · have hlt : i < position := by
        have hle : i < position + 1 := hi
        omega
      simpa [hne] using h.passed i hlt
  inUse := nofun
  rest := h.rest
  untouched i hi := by
    have hne : position ≠ i := Nat.ne_of_lt hi
    simpa [hne] using h.untouched i hi
  taken_le := h.taken_le

theorem supply (h : Ledger c children seen ⟨none, position, rest, asked⟩) :
    (position = children.length ∧ rest = []) ∨
      ∃ x rest', rest = some (position, x) :: rest' ∧
        Ledger c children seen ⟨some (position, x), position, rest', asked⟩ := by
  have hrest : rest = untaken children position := h.rest
  obtain heq | hlt := Nat.eq_or_lt_of_le (show position ≤ children.length from h.taken_le)
  · subst heq
    exact .inl ⟨rfl, hrest.trans (untaken_all children)⟩
  · rw [untaken_of_lt hlt] at hrest
    have hcalls := h.untouched position (Nat.le_refl _)
    refine .inr ⟨_, _, hrest, h.passed, ?_, rfl, ?_, hlt⟩
    · rintro _ ⟨rfl⟩
      exact ⟨rfl, by simp [hcalls], by simp [courseOf_untouched hcalls hlt]⟩
    · exact fun i hi => h.untouched i (Nat.le_of_lt hi)

end Ledger

theorem Settled.quiet {seen : List Event} {s : Series (Nat × τ)} (h : Settled c children seen s)
    {t : List Event} (ht : ∀ i, callsOn i t = []) : Settled c children (seen ++ t) s :=
  ⟨h.toLedger.quiet ht, h.position_eq, h.current_eq, h.rest_eq⟩

variable (hback : ∀ s m, (c.close s).outcome ≠ .panic m) (id : String) {seen : List Event}
include hback

theorem closeRest_settles (errs : Aggregate ε) (passed : Nat) {position asked : Nat}
    {rest : List (Option (Nat × τ))}
    (h : Ledger c children seen ⟨none, position, rest, asked⟩) :
    ∃ errs' asked' t,
      (closeRest c.numbered.toSource (watched id) position errs rest ⟨none, passed, rest, asked⟩ :
        Reply _ δ _) = ⟨.ok (errs', children.length), ⟨none, passed, [], asked'⟩, t⟩ ∧
      Ledger c children (seen ++ t) ⟨none, children.length, [], asked'⟩ := by
  induction rest generalizing seen position errs asked with
  | nil =>
    obtain ⟨rfl, -⟩ | ⟨_, _, hnil, -⟩ := h.supply
    · exact ⟨errs, asked + 1, _, closeRest_nil .., h.asked_again id⟩
    · cases hnil
  | cons place rest ih =>
    obtain ⟨-, hnil⟩ | ⟨x, rest', hrest, htaken⟩ := h.supply
    · cases hnil
    cases hrest
    have hclosed := (htaken.asked_again id).close
    rw [closeRest_child, Cursor.close_numbered]
    cases ho : (c.close x).outcome with
    | ok _ =>
      obtain ⟨errs', asked', t, hr, hend⟩ := ih errs hclosed
      simp only [hr]
      exact ⟨errs', asked', _, rfl, by simpa using hend⟩
    | error e =>
      obtain ⟨errs', asked', t, hr, hend⟩ := ih (errs.pushAt position e) hclosed
      simp only [hr]
      exact ⟨errs', asked', _, rfl, by simpa using hend⟩
    | panic m => exact absurd ho (hback x m)

theorem closeCurrent_settles (errs : Aggregate ε) {s : Series (Nat × τ)}
    (h : Ledger c children seen s) :
    ∃ errs' t,
      (closeCurrent c.numbered.toSource s.position errs s.current s : Reply _ δ _) =
        ⟨.ok (errs', s.taken), { s with current := none }, t⟩ ∧
      Ledger c children (seen ++ t) ⟨none, s.taken, s.rest, s.asked⟩ := by
  obtain ⟨_ | ⟨i, x⟩, position, rest, asked⟩ := s
  · exact ⟨errs, [], rfl, by rwa [List.append_nil]⟩
  · obtain rfl : i = position := (h.inUse _ rfl).1
    rw [closeCurrent_some, Cursor.close_numbered]
    cases ho : (c.close x).outcome with
    | ok _ => exact ⟨_, _, rfl, h.close⟩
    | error e => exact ⟨_, _, rfl, h.close⟩
    | panic m => exact absurd ho (hback x m)

theorem closeAll_settles {s : Series (Nat × τ)} (h : Ledger c children seen s) :
    ∃ errs s' t,
      (closeAll c.numbered.toSource (watched id) s : Reply _ δ _) = ⟨.ok errs, s', t⟩ ∧
      Settled c children (seen ++ t) s' := by
  obtain ⟨errs, t, hr, h⟩ :=
    closeCurrent_settles (δ := δ) hback (.empty "concatenated iterations") h
  obtain ⟨errs', asked', u, hr', h⟩ := closeRest_settles (δ := δ) hback id errs s.position h
  rw [closeAll, Action.get_bind_apply, Action.bind_apply, hr]
  simp only
  rw [Action.bind_apply, hr']
  exact ⟨errs', _, _, rfl, by simpa using h, rfl, rfl, rfl⟩

theorem closeAll_leads :
    (closeAll c.numbered.toSource (watched id) : Action _ δ _).Leads (Ledger c children)
      fun _ => Settled c children := by
  intro seen s h
  obtain ⟨errs, s', t, hr, h⟩ := closeAll_settles (δ := δ) hback id h
  rwa [hr]

theorem release_leads :
    (release c.numbered.toSource (watched id)).Leads (Ledger c children)
      fun _ => Settled c children := by
  intro seen s h
  obtain ⟨errs, s', t, hr, h⟩ := closeAll_settles (δ := ε) hback id h
  rw [release, Action.bind_apply, hr]
  simp only
  rcases errs.failures with _ | ⟨e, more⟩
  · simpa using h
  · simp only [Action.bind_apply, Action.emit, Action.fail]
    rw [List.append_nil, ← List.append_assoc]
    refine h.quiet fun i => ?_
    cases more <;> rfl

end Ledger

end Series

end PullCursor
