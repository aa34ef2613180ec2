import PullCursor.Proofs.Custody.Basic
import PullCursor.Proofs.Series.Steps

/-! Custody of a concatenation: the child in use and those not yet taken owe what they owe, and a
child that was put away owes nothing, because it was closed on the way. -/
namespace PullCursor.Custody

variable {τ α ε δ : Type}

def owedByRest (k : Custody τ) (rest : List (Option τ)) : Multiset Event :=
  rest.foldr (fun place m => place.elim 0 k.owed + m) 0

/-- A supply without gaps: a close stops at the first gap and misses the children behind it. -/
def soundRest (k : Custody τ) (rest : List (Option τ)) : Prop :=
  ∀ place ∈ rest, ∃ child, place = some child ∧ k.sound child

def series (k : Custody τ) : Custody (Series τ) where
  owed s := s.current.elim 0 k.owed + k.owedByRest s.rest
  sound s := (∀ child, s.current = some child → k.sound child) ∧ k.soundRest s.rest

variable {k : Custody τ} {c : Source τ α ε} {watch : Nat → List Event}

theorem soundRest.child {place : Option τ} {rest : List (Option τ)}
    (h : k.soundRest (place :: rest)) :
    ∃ child, place = some child ∧ k.sound child ∧ k.soundRest rest := by
  obtain ⟨child, hplace, hchild⟩ := h place List.mem_cons_self
  exact ⟨child, hplace, hchild, fun place hmem => h place (List.mem_cons_of_mem _ hmem)⟩

theorem sound_usedUp (position asked : Nat) : k.series.sound ⟨none, position, [], asked⟩ := by
  simp [series, soundRest]

theorem advance_keeps (hwatch : ∀ n, released (watch n) = 0) (position asked : Nat)
    {rest : List (Option τ)} (hrest : k.soundRest rest) :
    let r : Reply _ ε (Turn (Option α)) := Series.advance watch ⟨none, position, rest, asked⟩
    k.series.sound r.state ∧ released r.trace + k.series.owed r.state = k.owedByRest rest := by
  cases rest with
  | nil =>
    rw [Series.advance_nil]
    exact ⟨sound_usedUp position asked, by simp [hwatch, series, owedByRest]⟩
  | cons place rest =>
    obtain ⟨child, rfl, hchild, hrest'⟩ := hrest.child
    rw [Series.advance_child]
    refine ⟨⟨?_, hrest'⟩, by simp [hwatch, series, owedByRest]⟩
    rintro child' ⟨rfl⟩
    exact hchild

theorem Secures.turn (h : k.Secures c) (hwatch : ∀ n, released (watch n) = 0) :
    k.series.Keeps (Series.turn c watch) := by
  rintro ⟨current, position, rest, asked⟩ ⟨hcurrent, hrest⟩
  cases current with
  | none =>
    rw [Series.turn_none]
    simpa [series] using advance_keeps (α := α) (ε := ε) hwatch position asked hrest
  | some child =>
    have hpull := h.pull child (hcurrent child rfl)
    rw [Series.turn_child]
    rcases e : c.pull child with ⟨(_ | x) | e₁ | m, child', t⟩
    · -- The child has ended; closing it runs all it still owes.
      simp only [e] at hpull ⊢
      have hclose := h.close child' hpull.1
      rcases e' : c.close child' with ⟨_ | e₁ | m, child₁, u⟩
      · simp only [e'] at hclose ⊢
        obtain ⟨hsound, hsum⟩ := advance_keeps (α := α) (ε := ε) hwatch (position + 1) asked hrest
        refine ⟨hsound, ?_⟩
        simp only [released_append, add_assoc, hsum, hclose.2.1]
        rw [← add_assoc, hpull.2]
        rfl
      · simp only [e'] at hclose ⊢
        refine ⟨⟨nofun, hrest⟩, ?_⟩
        simp [series, hclose.2.1, hpull.2]
      · exact absurd (congrArg Reply.outcome e') (hclose.2.2 m)
    all_goals
      simp only [e] at hpull ⊢
      refine ⟨⟨?_, hrest⟩, ?_⟩
      · rintro child₁ ⟨rfl⟩
        exact hpull.1
      · simp [series, ← hpull.2, add_assoc]

theorem closeCurrent_pays (h : k.Secures c) (position : Nat) (errs : Aggregate ε)
    {s : Series τ} (hs : k.series.sound s) :
    ∃ errs' position' t, (Series.closeCurrent c position errs s.current s : Reply _ δ _) =
      ⟨.ok (errs', position'), { s with current := none }, t⟩ ∧
      released t = s.current.elim 0 k.owed := by
  obtain ⟨current, passed, rest, asked⟩ := s
  cases current with
  | none => exact ⟨errs, position, [], rfl, rfl⟩
  | some child =>
    obtain ⟨-, hall, hback⟩ := h.close child (hs.1 child rfl)
    rw [Series.closeCurrent_some]
    cases e : (c.close child).outcome with
    | ok _ => exact ⟨_, _, _, rfl, hall⟩
    | error _ => exact ⟨_, _, _, rfl, hall⟩
    | panic m => exact absurd e (hback m)

theorem closeRest_pays (h : k.Secures c) (hwatch : ∀ n, released (watch n) = 0)
    (position : Nat) (errs : Aggregate ε) (current : Option τ) (passed asked : Nat)
    {rest : List (Option τ)} (hrest : k.soundRest rest) :
    ∃ errs' position' asked' t,
      (Series.closeRest c watch position errs rest ⟨current, passed, rest, asked⟩ : Reply _ δ _)
        = ⟨.ok (errs', position'), ⟨current, passed, [], asked'⟩, t⟩ ∧
      released t = k.owedByRest rest := by
  induction rest generalizing position errs asked with
  | nil => exact ⟨errs, position, asked + 1, watch asked, Series.closeRest_nil .., hwatch asked⟩
  | cons place rest ih =>
    obtain ⟨child, rfl, hchild, hrest'⟩ := hrest.child
    obtain ⟨-, hall, hback⟩ := h.close child hchild
    rw [Series.closeRest_child]
    rcases e : c.close child with ⟨_ | e₁ | m, child₁, u⟩
    · obtain ⟨errs', position', asked', t, hr, ht⟩ := ih (position + 1) errs (asked + 1) hrest'
      rw [e] at hall
      simp only [hr]
      exact ⟨errs', position', asked', _, rfl, by simp [hwatch, ht, hall, owedByRest]⟩
    · obtain ⟨errs', position', asked', t, hr, ht⟩ :=
        ih (position + 1) (errs.pushAt position e₁) (asked + 1) hrest'
      rw [e] at hall
      simp only [hr]
      exact ⟨errs', position', asked', _, rfl, by simp [hwatch, ht, hall, owedByRest]⟩
    · exact absurd (congrArg Reply.outcome e) (hback m)

theorem closeAll_pays (h : k.Secures c) (hwatch : ∀ n, released (watch n) = 0) :
    k.series.Pays (Series.closeAll c watch : Action _ δ _) := by
  intro s hs
  rw [Series.closeAll, Action.get_bind_apply]
  obtain ⟨errs, position, t, hr, ht⟩ :=
    closeCurrent_pays (δ := δ) h s.position (.empty "concatenated iterations") hs
  obtain ⟨errs', position', asked', u, hr', hu⟩ :=
    closeRest_pays (δ := δ) h hwatch position errs none s.position s.asked hs.2
  rw [Action.bind_apply, hr]
  simp only
  rw [Action.bind_apply, hr']
  refine ⟨sound_usedUp position' asked', ?_, by simp⟩
  simp [ht, hu, series]

theorem release_pays (h : k.Secures c) (hwatch : ∀ n, released (watch n) = 0) :
    k.series.Pays (Series.release c watch) := by
  intro s hs
  obtain ⟨hsound, hall, hback⟩ := closeAll_pays (δ := ε) h hwatch s hs
  rw [Series.release, Action.bind_apply]
  rcases e : (Series.closeAll c watch s : Reply _ ε _) with ⟨errs | _ | m, s₁, t⟩
  · simp only [e] at hsound hall ⊢
    rcases errs.failures with _ | ⟨e₁, more⟩
    · exact ⟨hsound, by simpa using hall, nofun⟩
    · simp only [Action.bind_apply, Action.emit, Action.fail]
      refine ⟨hsound, ?_, nofun⟩
      rw [released_append, hall, released_eq_zero, add_zero]
      cases more <;> simp [Event.isRelease]
  · simp only [e] at hsound hall ⊢
    exact ⟨hsound, hall, nofun⟩
  · exact absurd (congrArg Reply.outcome e) (hback m)

theorem Secures.series (h : k.Secures c) (hwatch : ∀ n, released (watch n) = 0) :
    k.series.Secures (Series.source c watch) where
  pull := .loop (h.turn hwatch)
  close := release_pays h hwatch

end PullCursor.Custody
