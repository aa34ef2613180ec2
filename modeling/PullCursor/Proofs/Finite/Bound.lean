import PullCursor.Proofs.Custody.Basic
import PullCursor.Proofs.Course.Run
import PullCursor.Proofs.Mirrors
import PullCursor.Proofs.Sink.Once

/-! Bounds on what a cursor can still do. No operation raises the bound, and whoever hands out an
element pays for it; so a loop that pulls takes no more turns than the bound allows, and no more
elements come up in a run of calls than there were at first. -/
namespace PullCursor

variable {σ τ κ α β ν ε ε' : Type} {size : σ → Nat}

structure Source.Spends (c : Source σ α ε) (size : σ → Nat) : Prop where
  pull : c.pull.Spends size arrived
  close : c.close.Spends size fun _ => 0

structure Cursor.Spends (c : Cursor σ α ε) (size : σ → Nat) : Prop
    extends c.toSource.Spends size where
  hasNext : c.hasNext.Spends size fun _ => 0
  next : c.next.Spends size fun _ => 1

def Source.Spends.finite {c : Source σ α ε} (h : c.Spends size) : FiniteSource σ α ε where
  toSource := c
  size := size
  pull_spends := h.pull
  close_spends := h.close

def Cursor.Spends.finite {c : Cursor σ α ε} (h : c.Spends size) : FiniteCursor σ α ε where
  toCursor := c
  size := size
  pull_spends := h.pull
  close_spends := h.close
  hasNext_spends := h.hasNext
  next_spends := h.next

theorem FiniteSource.spends (c : FiniteSource σ α ε) : c.toSource.Spends c.size :=
  ⟨c.pull_spends, c.close_spends⟩

theorem FiniteCursor.spends (c : FiniteCursor σ α ε) : c.toCursor.Spends c.size :=
  ⟨⟨c.pull_spends, c.close_spends⟩, c.hasNext_spends, c.next_spends⟩

theorem Action.Spends.beside {w : α → Nat} {m : Action σ ε α} (hm : m.Spends size w)
    {extra : σ → Nat} (hextra : ∀ s, extra (m s).state ≤ extra s) :
    m.Spends (fun s => size s + extra s) w := by
  intro s
  have hspent := hm s
  have hmore := hextra s
  dsimp only
  omega

namespace Cursor.Spends

variable {c : Cursor σ α ε}

theorem call (h : c.Spends size) (s : σ) (op : Operation) :
    size (c.call s op).state + arrived (c.call s op).answer.element? ≤ size s := by
  cases op with
  | hasNext =>
    refine Nat.le_trans ?_ (h.hasNext s)
    rw [Outcome.weigh_zero]
    exact Nat.le_refl _
  | next =>
    refine Nat.le_trans (Nat.add_le_add_left ?_ _) (h.next s)
    show arrived (Answer.next (c.next s).outcome).element? ≤ _
    cases (c.next s).outcome <;> exact Nat.le_refl _
  | pull =>
    refine Nat.le_trans (Nat.add_le_add_left ?_ _) (h.pull s)
    show arrived (Answer.pull (c.pull s).outcome).element? ≤ _
    rcases (c.pull s).outcome with (_ | _) | _ | _ <;> exact Nat.le_refl _
  | close =>
    refine Nat.le_trans ?_ (h.close s)
    rw [Outcome.weigh_zero]
    exact Nat.le_refl _

theorem run (h : c.Spends size) (s : σ) (ops : List Operation) :
    size (c.run s ops).state + (delivered (c.run s ops).answers).length ≤ size s := by
  induction ops generalizing s with
  | nil => exact Nat.le_refl _
  | cons op rest ih =>
    have hfirst := h.call s op
    have hlater := ih (c.call s op).state
    simp only [Cursor.run, length_delivered_cons]
    omega

end Cursor.Spends

namespace Action

/-- The call counts beside the state how often it was made. -/
def counted (m : Action σ ε α) : Action (σ × Nat) ε α := fun s =>
  let r := m s.1
  ⟨r.outcome, (r.state, s.2 + 1), r.trace⟩

/-- The turns come to an end after at most so many of them. -/
def EndsWithin (turn : Action σ ε (Turn β)) (bound : Nat) (s : σ) (r : Reply σ ε β) : Prop :=
  ∃ n ≤ bound, Ends turn.counted (s, 0) ⟨r.outcome, (r.state, n), r.trace⟩

variable {turn : Action σ ε (Turn β)}

theorem Mirrors.shrinks {turn' : Action τ ε (Turn β)} {f : τ → σ} (h : Mirrors f turn' turn)
    (hshrinks : turn.Shrinks size) : turn'.Shrinks fun s => size (f s) := by
  intro s s' t e
  obtain ⟨houtcome, hstate⟩ := h s
  rw [e] at houtcome hstate
  rcases hturn : turn (f s) with ⟨o, s₁, u⟩
  rw [hturn] at houtcome hstate
  dsimp only at houtcome hstate
  subst houtcome hstate
  exact hshrinks _ _ _ hturn

theorem Ends.turns_le (hshrinks : turn.Shrinks size) (tally : σ → Nat)
    (htally : ∀ s, tally (turn s).state = tally s + 1) {s : σ} {r : Reply σ ε β}
    (h : Ends turn s r) : tally r.state ≤ tally s + size s + 1 := by
  induction h with
  | @again s _ _ _ e _ ih =>
    have hless := hshrinks _ _ _ e
    have hcount := htally s
    rw [e] at hcount
    dsimp only at hcount ⊢
    omega
  | @stop s _ _ _ e | @error s _ _ _ e | @panic s _ _ _ e =>
    have hcount := htally s
    rw [e] at hcount
    dsimp only at hcount ⊢
    omega

theorem Ends.counted {s : σ} {r : Reply σ ε β} (h : Ends turn s r) (k : Nat) :
    ∃ n, Ends turn.counted (s, k) ⟨r.outcome, (r.state, n), r.trace⟩ := by
  have hturn {s : σ} {r : Reply σ ε (Turn β)} (k : Nat) (e : turn s = r) :
      turn.counted (s, k) = ⟨r.outcome, (r.state, k + 1), r.trace⟩ := by
    rw [← e]
    rfl
  induction h generalizing k with
  | again e _ ih =>
    obtain ⟨n, hn⟩ := ih (k + 1)
    exact ⟨n, .again (hturn k e) hn⟩
  | stop e => exact ⟨k + 1, .stop (hturn k e)⟩
  | error e => exact ⟨k + 1, .error (hturn k e)⟩
  | panic e => exact ⟨k + 1, .panic (hturn k e)⟩

theorem Ends.within (hshrinks : turn.Shrinks size) {s : σ} {r : Reply σ ε β}
    (h : Ends turn s r) : turn.EndsWithin (size s + 1) s r := by
  obtain ⟨n, hn⟩ := h.counted 0
  have hcounted : turn.counted.Shrinks fun s => size s.1 :=
    Mirrors.shrinks (fun _ => ⟨rfl, rfl⟩) hshrinks
  have hle := hn.turns_le hcounted Prod.snd fun _ => rfl
  refine ⟨n, ?_, hn⟩
  simpa using hle

end Action

theorem Source.Spends.turn_shrinks {c : Source σ α ε} (h : c.Spends size) (atEnd : Action τ ε β)
    (visit : α → Action τ ε (Turn β)) :
    (Sweep.turn c atEnd visit).Shrinks fun s => size s.1 :=
  Sweep.turn_shrinks h.finite.toEndingSource atEnd visit

theorem EndingSource.sweep_congr {c d : EndingSource σ α ε} (h : c.toSource = d.toSource)
    (atEnd : Action τ ε β) (visit : α → Action τ ε (Turn β)) :
    c.sweep atEnd visit = d.sweep atEnd visit := by
  funext s
  have hc := c.sweep_ends atEnd visit s
  rw [h] at hc
  exact hc.unique (d.sweep_ends atEnd visit s)

namespace Source.Spends

theorem lookahead {c : Source σ α ε} (h : c.Spends size) :
    (Lookahead.cursor c).Spends (Lookahead.size size) :=
  (FiniteCursor.lookahead h.finite).spends

theorem filter {c : EndingSource σ α ε} (h : c.toSource.Spends size) (mark : String → α → Event)
    (test : Callback α Bool) : (Filter.source c mark test).Spends fun s => size s.1 := by
  have hsource : Filter.source h.finite.toEndingSource mark test = Filter.source c mark test :=
    congrArg (Source.mk · _)
      (EndingSource.sweep_congr (c := h.finite.toEndingSource) (d := c) rfl _ _)
  rw [← hsource]
  exact (Filter.finite h.finite mark test).spends

theorem distinct {cmp : α → α → Ordering} {c : EndingSource σ α ε} (h : c.toSource.Spends size) :
    (Distinct.source c : Source (σ × Std.TreeSet α cmp) α ε).Spends fun s => size s.1 := by
  have hsource : (Distinct.source h.finite.toEndingSource : Source (σ × Std.TreeSet α cmp) α ε) =
      Distinct.source c :=
    congrArg (Source.mk · _)
      (EndingSource.sweep_congr (c := h.finite.toEndingSource) (d := c) rfl _ _)
  rw [← hsource]
  exact (Distinct.finite h.finite).spends

theorem series {c : Source σ α ε} (h : c.Spends size) (watch : Nat → List Event) :
    (Series.source c watch).Spends (Series.size size) :=
  (Series.finite h.finite watch).spends

theorem family {ι : Type} {σ : ι → Type} {size : (i : ι) → σ i → Nat}
    {c : (i : ι) → FiniteCursor (σ i) α ε} (h : ∀ i, (c i).toCursor.Spends (size i)) :
    (FiniteCursor.family c).toSource.Spends fun s => size s.1 s.2 where
  pull s := (h s.1).pull s.2
  close s := (h s.1).close s.2

end Source.Spends

namespace Cursor.Spends

variable {c : Cursor σ α ε}

theorem map (h : c.Spends size) (mark : String → α → Event) (f : Callback α β) :
    (Map.cursor c mark f).Spends fun s => size s.1 :=
  (Map.finite h.finite mark f).spends

theorem answering (h : c.Spends size) (answer : {δ : Type} → ε → Action (History ε) δ ε') :
    (c.answering answer).Spends fun s => size s.1 :=
  (h.finite.answering answer).spends

theorem limit (h : c.Spends size) : (Budget.cursor c).Spends fun s => size s.1 :=
  (Budget.finite h.finite).spends

end Cursor.Spends

namespace Sink

variable {c : Cursor σ α ε}

theorem noted_mirrors (c : Cursor σ α ε) (atEnd : Action ν ε β) (visit : α → Action ν ε (Turn β)) :
    Action.Mirrors (fun s : (σ × List Operation) × ν => (s.1.1, s.2))
      (Sweep.turn c.noted.toSource atEnd visit) (Sweep.turn c.toSource atEnd visit) := by
  rintro ⟨⟨s, calls⟩, v⟩
  rw [turn_noted]
  exact ⟨rfl, rfl⟩

theorem ends_pulls_le (h : c.Spends size) {atEnd : Action ν ε β} {visit : α → Action ν ε (Turn β)}
    {s : σ} {calls : List Operation} {v : ν} {r : Reply ((σ × List Operation) × ν) ε β}
    (hends : Action.Ends (Sweep.turn c.noted.toSource atEnd visit) ((s, calls), v) r) :
    r.state.1.2.length ≤ calls.length + size s + 1 := by
  have hshrinks := (noted_mirrors c atEnd visit).shrinks (h.turn_shrinks atEnd visit)
  refine hends.turns_le hshrinks (fun s => s.1.2.length) fun s => ?_
  rw [turn_noted]
  exact List.length_append

theorem Use.Drains.pulls_le (h : c.Spends size) {u : Use α ε β} {s : σ}
    {body : Reply (σ × List Operation) ε β} (hbody : u.Drains c.noted.toSource (s, []) body) :
    body.state.2.length ≤ size s + 1 := by
  cases u with
  | first =>
    subst hbody
    exact Nat.le_add_left 1 (size s)
  | _ =>
    obtain ⟨r, hends, rfl⟩ := hbody
    simpa using ends_pulls_le h hends

theorem Use.EndsIn.calls (h : c.Spends size) {u : Use α ε β} {s : σ} {r : Reply σ ε β}
    (hr : u.EndsIn c.toSource s r) :
    ∃ n ≤ size s + 1,
      u.EndsIn c.noted.toSource (s, []) (r.noting (.replicate n .pull ++ [.close])) := by
  obtain ⟨body, hbody, rfl⟩ := hr
  obtain ⟨n, hn⟩ := hbody.noted
  have hle := hn.pulls_le h
  refine ⟨n, ?_, _, hn, (thenClose_noted c s body _).symm⟩
  simpa [Reply.noting] using hle

end Sink

end PullCursor
