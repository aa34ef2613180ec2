import PullCursor.Proofs.Combinator.Steps
import PullCursor.Proofs.Lookahead.Steps
import PullCursor.Proofs.Rule
import PullCursor.Proofs.Series.Steps

/-! What cursors keep from one call to the next. Whoever pulls takes what it has made sure of, so a
cursor that is only pulled keeps nothing between calls. Only the root is asked and then left
alone. -/
namespace PullCursor

variable {σ τ κ α β γ ε ε' : Type}

namespace Action

def staying (P : σ → Prop) : Rule σ := fun s _ _ s' => P s → P s'

instance (P : σ → Prop) : Rule.Composes (staying P) where
  nil _ hs := hs
  append h h' hs := h' (h hs)

def Stays (P : σ → Prop) (m : Action σ ε α) : Prop := m.Observes (staying P)

theorem stays_spares {P : σ → Prop} (m : Action τ ε α) : m.Spares (staying P) := fun _ _ hs => hs

end Action

/-- The elements that a cursor keeps: one in the first lookahead on the way down, if there is any
(`front`), and those in lookaheads below another one (`behind`). The states that count as sound are
those that calls lead to. -/
structure Keeping (σ α : Type) where
  front : σ → Option α
  behind : σ → List α
  sound : σ → Prop

namespace Keeping

def kept (k : Keeping σ β) (s : σ) : List β := (k.front s).toList ++ k.behind s

structure Rests (kept : σ → List β) (c : Source σ α ε) : Prop where
  pull : c.pull.Stays fun s => kept s = []
  close : c.close.Stays fun s => kept s = []

/-- An element is kept after a yes only, and it is kept in front. -/
structure KeepsInFront (k : Keeping σ β) (c : Cursor σ α ε) : Prop where
  behind {s : σ} : k.sound s → k.behind s = []
  sound {s : σ} : k.kept s = [] → k.sound s
  hasNext {s : σ} : k.sound s → k.sound (c.hasNext s).state
  unless_yes {s : σ} : k.sound s → (c.hasNext s).outcome ≠ .ok true →
    k.kept (c.hasNext s).state = []
  next {s : σ} : k.sound s → k.kept (c.next s).state = []
  pull {s : σ} : k.sound s → k.kept (c.pull s).state = []
  close {s : σ} : k.sound s → k.kept (c.close s).state = []

variable {k : Keeping σ β}

theorem KeepsInFront.rests {c : Cursor σ α ε} (h : k.KeepsInFront c) : Rests k.kept c.toSource :=
  ⟨fun _ hs => h.pull (h.sound hs), fun _ hs => h.close (h.sound hs)⟩

theorem pullByNext_empties {hasNext : Action σ ε Bool} {next : Action σ (Stop ε) α}
    (hask : ∀ {s}, k.sound s → k.sound (hasNext s).state)
    (hno : ∀ {s}, k.sound s → (hasNext s).outcome ≠ .ok true → k.kept (hasNext s).state = [])
    (hnext : ∀ {s}, k.sound s → k.kept (next s).state = []) {s : σ} (hs : k.sound s) :
    k.kept (pullByNext hasNext next s).state = [] := by
  have hs' := hask hs
  have hno' := hno hs
  rw [pullByNext_eq]
  rcases e : hasNext s with ⟨(_ | _) | _ | _, s', t⟩ <;> rw [e] at hs' hno'
  · exact hno' nofun
  · exact hnext hs'
  · exact hno' nofun
  · exact hno' nofun

section Lookahead

def ahead (kept : κ → List β) : Keeping (Lookahead κ β) β where
  front s := s.stage.head?
  behind s := kept s.inner
  sound s := kept s.inner = []

variable {kept : κ → List β} {c : Source κ β ε}

theorem kept_of_isOver {s : Lookahead κ β} (h : s.stage.isOver) :
    (ahead kept).kept s = kept s.inner := by
  obtain ⟨inner, stage⟩ := s
  cases stage <;> first | rfl | cases h

theorem Rests.look (h : Rests kept c) :
    (Lookahead.look c).Stays (ahead kept).sound := by
  rintro ⟨inner, stage⟩ hs
  cases stage with
  | idle =>
    have hpull := h.pull inner hs
    rw [Lookahead.look_idle]
    rcases e : c.pull inner with ⟨(_ | x) | _ | _, inner', t⟩ <;> rw [e] at hpull <;> exact hpull
  | _ => exact hs

theorem Rests.next (h : Rests kept c) :
    (Lookahead.next c).Stays (ahead kept).sound := by
  refine .bind (h.look.mapOutcome (Outcome.isPanic_mapError _)) fun _ => .bind .get fun s => ?_
  cases s.stage with
  | ready x => exact .bind (fun _ hs => hs) fun _ => .pure x
  | _ => exact .fail _

theorem Rests.look_unless_yes (h : Rests kept c) {s : Lookahead κ β} (hs : (ahead kept).sound s)
    (hno : (Lookahead.look c s).outcome ≠ .ok true) :
    (ahead kept).kept (Lookahead.look c s).state = [] := by
  have hover := Lookahead.look_settles c s
  split at hover
  · contradiction
  · rw [kept_of_isOver hover]
    exact h.look s hs

theorem Rests.next_empties (h : Rests kept c) {s : Lookahead κ β} (hs : (ahead kept).sound s) :
    (ahead kept).kept (Lookahead.next c s).state = [] := by
  have hsettled := Lookahead.next_settles c s
  have hinner := h.next s hs
  split at hsettled
  · show ((Lookahead.next c s).state.stage.head?).toList ++ _ = _
    rw [hsettled]
    exact hinner
  · rw [kept_of_isOver hsettled]
    exact hinner

theorem Rests.close_empties (h : Rests kept c) {s : Lookahead κ β} (hs : (ahead kept).sound s) :
    (ahead kept).kept (Lookahead.close c s).state = [] := by
  cases hclosed : s.stage.isClosed
  · rw [Lookahead.close_open c hclosed]
    exact h.close s.inner hs
  · rw [Lookahead.close_again c hclosed, kept_of_isOver (Stage.isOver_of_isClosed hclosed)]
    exact hs

/-- A lookahead may keep an element, and what is below it does not. How it is closed is left open,
because a probe does more than that. -/
theorem Rests.lookaheadBy (h : Rests kept c) {close : Action (Lookahead κ β) ε Unit}
    (hclose : ∀ {s}, (ahead kept).sound s → (ahead kept).kept (close s).state = []) :
    (ahead kept).KeepsInFront (.ofSteps (Lookahead.look c) (Lookahead.next c) close) where
  behind hs := hs
  sound hs := (List.append_eq_nil_iff.mp hs).2
  hasNext hs := h.look _ hs
  unless_yes hs := h.look_unless_yes hs
  next hs := h.next_empties hs
  pull hs := pullByNext_empties (fun hs => h.look _ hs) h.look_unless_yes h.next_empties hs
  close hs := hclose hs

theorem Rests.lookahead (h : Rests kept c) : (ahead kept).KeepsInFront (Lookahead.cursor c) :=
  h.lookaheadBy h.close_empties

end Lookahead

theorem Rests.filter {kept : σ → List β} {c : EndingSource σ α ε} (h : Rests kept c.toSource)
    (mark : String → α → Event) (test : Callback α Bool) :
    Rests (fun s => kept s.1) (Filter.source c mark test) where
  pull := h.pull.sweep (Action.stays_spares _) fun _ => Action.stays_spares _
  close := h.close.onFst

theorem Rests.distinct {kept : σ → List β} {c : EndingSource σ α ε} (h : Rests kept c.toSource)
    (cmp : α → α → Ordering) :
    Rests (fun s : σ × Std.TreeSet α cmp => kept s.1) (Distinct.source c) where
  pull := h.pull.sweep (Action.stays_spares _) fun _ => Action.stays_spares _
  close s hs := h.close.onFst (s.1, ∅) hs

def fst (k : Keeping σ β) : Keeping (σ × τ) β where
  front s := k.front s.1
  behind s := k.behind s.1
  sound s := k.sound s.1

theorem KeepsInFront.map {c : Cursor σ α ε} (h : k.KeepsInFront c) (mark : String → α → Event)
    (f : Callback α γ) : k.fst.KeepsInFront (Map.cursor c mark f) where
  behind := h.behind
  sound := h.sound
  hasNext := h.hasNext
  unless_yes := h.unless_yes
  next {s} hs := by
    show k.kept ((Map.cursor c mark f).next s).state.1 = []
    rw [Map.next_fst]
    exact h.next hs
  pull {s} hs := by
    show k.kept ((Map.cursor c mark f).pull s).state.1 = []
    rw [Map.pull_fst]
    exact h.pull hs
  close := h.close

theorem KeepsInFront.answering {c : Cursor σ α ε} (h : k.KeepsInFront c)
    (answer : {δ : Type} → ε → Action (History ε) δ ε') :
    k.fst.KeepsInFront (c.answering answer) where
  behind := h.behind
  sound := h.sound
  hasNext {s} hs := by
    show k.sound ((c.answering answer).hasNext s).state.1
    rw [(c.answering_hasNext answer).fst]
    exact h.hasNext hs
  unless_yes {s} hs hno := by
    show k.kept ((c.answering answer).hasNext s).state.1 = []
    rw [(c.answering_hasNext answer).fst]
    apply h.unless_yes hs
    intro hyes
    apply hno
    rw [(c.answering_hasNext answer).ok (congrArg (Reply.mk · _ _) hyes)]
  next {s} hs := by
    show k.kept ((c.answering answer).next s).state.1 = []
    rw [(c.answering_next answer).fst]
    exact h.next hs
  pull {s} hs := by
    show k.kept ((c.answering answer).pull s).state.1 = []
    rw [(c.answering_pull answer).fst]
    exact h.pull hs
  close {s} hs := by
    show k.kept ((c.answering answer).close s).state.1 = []
    rw [(c.answering_close answer).fst]
    exact h.close hs

/-- Once its budget is used up a limit reaches nothing below, so nothing may have been kept there
until then. -/
def budgeted (k : Keeping σ β) : Keeping (σ × Nat) β where
  front s := k.front s.1
  behind s := k.behind s.1
  sound s := k.sound s.1 ∧ (s.2 = 0 → k.kept s.1 = [])

theorem KeepsInFront.limit {c : Cursor σ α ε} (h : k.KeepsInFront c) :
    k.budgeted.KeepsInFront (Budget.cursor c) := by
  have hask {s : σ × Nat} (hs : k.budgeted.sound s) :
      k.budgeted.sound (Budget.hasNext c s).state := by
    by_cases hzero : s.2 = 0
    · rw [Budget.hasNext_of_zero c hzero]
      exact hs
    · rw [Budget.hasNext_of_pos c hzero]
      exact ⟨h.hasNext hs.1, fun hzero' => absurd hzero' hzero⟩
  have hno {s : σ × Nat} (hs : k.budgeted.sound s)
      (hno : (Budget.hasNext c s).outcome ≠ .ok true) :
      k.budgeted.kept (Budget.hasNext c s).state = [] := by
    by_cases hzero : s.2 = 0
    · rw [Budget.hasNext_of_zero c hzero]
      exact hs.2 hzero
    · rw [Budget.hasNext_of_pos c hzero] at hno ⊢
      exact h.unless_yes hs.1 hno
  have hnext {s : σ × Nat} (hs : k.budgeted.sound s) :
      k.budgeted.kept (Budget.next c s).state = [] := by
    by_cases hzero : s.2 = 0
    · rw [Budget.next_of_zero c hzero]
      exact hs.2 hzero
    · have hbelow := h.next hs.1
      rw [Budget.next_of_pos c hzero]
      rcases e : c.next s.1 with ⟨_ | _ | _, s', t⟩ <;> rw [e] at hbelow <;> exact hbelow
  exact {
    behind := fun hs => h.behind hs.1
    sound := fun hs => ⟨h.sound hs, fun _ => hs⟩
    hasNext := hask
    unless_yes := hno
    next := hnext
    pull := pullByNext_empties hask hno hnext
    close := fun {s} hs => by
      show k.budgeted.kept (Budget.close c s).state = []
      rw [Budget.close_eq]
      exact h.close hs.1 }

theorem Rests.family {ι : Type} {σ : ι → Type} {k : (i : ι) → Keeping (σ i) β}
    {c : (i : ι) → FiniteCursor (σ i) α ε} (h : ∀ i, (k i).KeepsInFront (c i).toCursor) :
    Rests (fun s => (k s.1).kept s.2) (FiniteCursor.family c).toSource :=
  ⟨fun s => (h s.1).rests.pull s.2, fun s => (h s.1).rests.close s.2⟩

def series (kept : τ → List β) (s : Series τ) : List β :=
  (s.current.toList ++ s.rest.filterMap id).flatMap kept

section Series

variable {kept : τ → List β} {c : Source τ α ε} {watch : Nat → List Event}

theorem series_eq_nil {s : Series τ} : series kept s = [] ↔
    (∀ child ∈ s.current, kept child = []) ∧ ∀ child, some child ∈ s.rest → kept child = [] := by
  simp only [series, List.flatMap_eq_nil_iff, List.mem_append, Option.mem_toList,
    List.mem_filterMap, id, exists_eq_right, or_imp, forall_and]
  rfl

theorem ask_stays : (Series.ask watch : Action (Series τ) ε _).Stays (series kept · = []) := by
  rintro ⟨current, position, rest, asked⟩ hs
  obtain ⟨hcurrent, hrest⟩ := series_eq_nil.mp hs
  cases rest with
  | nil => exact hs
  | cons place rest =>
    exact series_eq_nil.mpr ⟨hcurrent, fun child hmem => hrest child (List.mem_cons_of_mem _ hmem)⟩

theorem caught_stays (child : τ) (m : Action τ ε γ) :
    ((Series.onDetached child m).caught : Action (Series τ) ε' _).Stays (series kept · = []) :=
  fun _ hs => hs

theorem drop_stays (position : Series τ → Nat) :
    (Action.modify fun s => { s with current := none, position := position s } :
      Action (Series τ) ε Unit).Stays (series kept · = []) := fun _ hs =>
  series_eq_nil.mpr ⟨nofun, (series_eq_nil.mp hs).2⟩

theorem advance_stays : (Series.advance watch : Action (Series τ) ε (Turn (Option α))).Stays
    (series kept · = []) := by
  rintro ⟨current, position, _ | ⟨_ | child, rest⟩, asked⟩ hs
  · exact hs
  · exact (ask_stays : (Series.ask watch : Action _ ε _).Stays _) _ hs
  · obtain ⟨-, hrest⟩ := series_eq_nil.mp hs
    refine series_eq_nil.mpr ⟨?_, fun child hmem => hrest child (List.mem_cons_of_mem _ hmem)⟩
    rintro child' ⟨⟩
    exact hrest child List.mem_cons_self

theorem Rests.turn (h : Rests kept c) :
    (Series.turn c watch).Stays (series kept · = []) := by
  rintro ⟨current, position, rest, asked⟩ hs
  obtain ⟨hcurrent, hrest⟩ := series_eq_nil.mp hs
  cases current with
  | none => exact advance_stays _ hs
  | some child =>
    have hpull := h.pull child (hcurrent child rfl)
    have hused {child' : τ} (hchild : kept child' = []) :
        series kept ⟨some child', position, rest, asked⟩ = [] := by
      refine series_eq_nil.mpr ⟨?_, hrest⟩
      rintro _ ⟨⟩
      exact hchild
    have hnone : series kept ⟨none, position + 1, rest, asked⟩ = [] :=
      series_eq_nil.mpr ⟨nofun, hrest⟩
    rw [Series.turn_child]
    rcases e : c.pull child with ⟨(_ | x) | _ | _, child', t⟩ <;> rw [e] at hpull
    · dsimp only
      rcases c.close child' with ⟨_ | _ | _, _, u⟩
      · exact advance_stays _ hnone
      · exact hnone
      · exact hnone
    all_goals exact hused hpull

theorem closeCurrent_stays (position : Nat) (errs : Aggregate ε) (current : Option τ) :
    (Series.closeCurrent c position errs current : Action (Series τ) ε' _).Stays
      (series kept · = []) := by
  cases current with
  | none => exact .pure _
  | some child =>
    refine (drop_stays (·.position)).bind fun _ => (caught_stays child c.close).bind fun r => ?_
    cases r <;> exact .pure _

theorem closeRest_stays (position : Nat) (errs : Aggregate ε) (rest : List (Option τ)) :
    (Series.closeRest c watch position errs rest : Action (Series τ) ε' _).Stays
      (series kept · = []) := by
  induction rest generalizing position errs with
  | nil => exact ask_stays.bind fun _ => .pure _
  | cons place rest ih =>
    cases place with
    | none => exact ask_stays.bind fun _ => .pure _
    | some child =>
      refine ask_stays.bind fun _ => (caught_stays child c.close).bind fun r => ?_
      cases r <;> exact ih _ _

theorem closeAll_stays : (Series.closeAll c watch : Action (Series τ) ε' _).Stays
    (series kept · = []) := by
  refine Action.Observes.get.bind fun s => (closeCurrent_stays _ _ _).bind fun _ =>
    (closeRest_stays _ _ _).bind fun _ => .bind (fun _ hs => hs) fun _ => .pure _

theorem release_stays : (Series.release c watch).Stays (series kept · = []) := by
  refine closeAll_stays.bind fun errs => ?_
  rcases errs.failures with _ | ⟨e, more⟩
  · exact .pure _
  · exact .bind (fun _ hs => hs) fun _ => .fail _

theorem Rests.series (h : Rests kept c) :
    Rests (Keeping.series kept) (Series.source c watch) where
  pull := h.turn.loop
  close := release_stays

end Series

end Keeping

end PullCursor
