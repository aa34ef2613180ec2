import PullCursor.Proofs.Custody.Basic
import PullCursor.Proofs.Combinator.Steps
import PullCursor.Proofs.Rule
import PullCursor.Proofs.Schedule
import PullCursor.Proofs.Series.Steps
import PullCursor.Proofs.Sink.Draining

/-! Calls that come back, with an answer or a fault, and keep to the states from which calls come
back. Each way of building a cursor hands this on, whatever functions it applies, as long as these
come back themselves. -/
namespace PullCursor

variable {σ τ κ α β ν ε ε' : Type}

namespace Action

def safety (P : σ → Prop) : Rule σ := fun s panicked _ s' => P s → P s' ∧ panicked = false

instance (P : σ → Prop) : Rule.Composes (safety P) where
  nil _ hs := ⟨hs, rfl⟩
  append h h' hs := h' (h hs).1

/-- From states in `P` the call does not panic, and it leads to such states. -/
def Safe (P : σ → Prop) (m : Action σ ε α) : Prop := m.Observes (safety P)

variable {P : σ → Prop}

theorem spares_safety {m : Action τ ε α} (hm : ∀ v, (m v).outcome.isPanic = false) :
    m.Spares (safety P) := fun _ v hs => ⟨hs, hm v⟩

theorem Safe.within {Q : τ → Prop} {m : Action σ ε α} {part : τ → σ} {put : σ → τ → τ}
    (hm : Safe P m) (hpart : ∀ t, Q t → P (part t)) (hput : ∀ s t, Q t → P s → Q (put s t)) :
    Safe Q (m.within part put) := by
  intro t ht
  obtain ⟨hstate, hback⟩ := hm (part t) (hpart t ht)
  exact ⟨hput _ t ht hstate, hback⟩

end Action

open PullCursor.Action (Safe spares_safety)

structure Source.Tame (c : Source σ α ε) (P : σ → Prop) : Prop where
  pull : Safe P c.pull
  close : Safe P c.close

structure Cursor.Tame (c : Cursor σ α ε) (P : σ → Prop) : Prop extends c.toSource.Tame P where
  hasNext : Safe P c.hasNext
  next : Safe P c.next

theorem Callback.Returns.isPanic_call {f : Callback α β} (hf : f.Returns)
    (mark : String → α → Event) (x : α) (earlier : History α) :
    (f.call mark x earlier : Reply _ ε β).outcome.isPanic = false := by
  obtain ⟨y, hy⟩ := hf earlier x
  rw [Callback.call_ok hy]
  rfl

section Steps

variable {P : σ → Prop} {hasNext : Action σ ε Bool} {next : Action σ (Stop ε) α}
  {close : Action σ ε Unit}

theorem Cursor.Tame.ofSteps (hask : Safe P hasNext) (hnext : Safe P next)
    (hclose : Safe P close) : (Cursor.ofSteps hasNext next close).Tame P :=
  ⟨⟨hask.pullByNext hnext, hclose⟩, hask, hnext⟩

end Steps

namespace Lookahead

variable {P : κ → Prop} {c : Source κ α ε}

theorem look_safe (h : c.Tame P) : Safe (fun s => P s.inner) (look c) := by
  rintro ⟨inner, stage⟩ hs
  cases stage with
  | idle =>
    obtain ⟨hstate, hback⟩ := h.pull inner hs
    rw [look_idle]
    rcases e : c.pull inner with ⟨(_ | x) | _ | _, inner', t⟩ <;> rw [e] at hstate hback
    · exact ⟨hstate, rfl⟩
    · exact ⟨hstate, rfl⟩
    · exact ⟨hstate, rfl⟩
    · cases hback
  | _ => exact ⟨hs, rfl⟩

theorem next_safe (h : c.Tame P) : Safe (fun s => P s.inner) (next c) := by
  refine .bind ((look_safe h).mapOutcome (Outcome.isPanic_mapError _)) fun _ =>
    .bind .get fun s => ?_
  cases s.stage with
  | ready x => exact .bind (.modify fun _ hs => ⟨hs, rfl⟩) fun _ => .pure x
  | _ => exact .fail _

theorem close_safe (h : c.Tame P) :
    Safe (fun s : Lookahead κ α => P s.inner) (close c) := by
  intro s hs
  cases hclosed : s.stage.isClosed with
  | true =>
    rw [close_again c hclosed]
    exact ⟨hs, rfl⟩
  | false =>
    rw [close_open c hclosed]
    exact h.close s.inner hs

end Lookahead

theorem Source.Tame.lookahead {P : κ → Prop} {c : Source κ α ε} (h : c.Tame P) :
    (Lookahead.cursor c).Tame fun s => P s.inner :=
  .ofSteps (Lookahead.look_safe h) (Lookahead.next_safe h) (Lookahead.close_safe h)

namespace Source.Tame

variable {P : σ → Prop} {c : EndingSource σ α ε}

theorem filter (h : c.toSource.Tame P) (mark : String → α → Event) {test : Callback α Bool}
    (htest : test.Returns) : (Filter.source c mark test).Tame fun s => P s.1 where
  pull := by
    refine h.pull.sweep (spares_safety fun _ => rfl) fun x => spares_safety fun v => ?_
    obtain ⟨b, hb⟩ := htest v x
    rw [Filter.visit, Action.bind_apply, Callback.call_ok hb]
    cases b <;> rfl
  close := h.close.onFst

theorem distinct {cmp : α → α → Ordering} (h : c.toSource.Tame P) :
    (Distinct.source c : Source (σ × Std.TreeSet α cmp) α ε).Tame fun s => P s.1 where
  pull := by
    refine h.pull.sweep (spares_safety fun _ => rfl) fun x => spares_safety fun v => ?_
    rw [Distinct.visit, Action.get_bind_apply]
    split <;> rfl
  close := .bind (.modify fun _ hs => ⟨hs, rfl⟩) fun _ => h.close.onFst

end Source.Tame

namespace Cursor.Tame

variable {P : σ → Prop} {c : Cursor σ α ε}

theorem map (h : c.Tame P) (mark : String → α → Event) {f : Callback α β} (hf : f.Returns) :
    (Map.cursor c mark f).Tame fun s => P s.1 where
  pull := by
    refine h.pull.onFst.bind fun x => ?_
    cases x with
    | none => exact .pure none
    | some x =>
      rw [Map.lift, ← bind_pure_comp]
      exact (spares_safety (hf.isPanic_call mark x)).onSnd.bind fun _ => .pure _
  close := h.close.onFst
  hasNext := h.hasNext.onFst
  next := h.next.onFst.bind fun x => (spares_safety (hf.isPanic_call mark x)).onSnd

theorem answering (h : c.Tame P) {answer : {δ : Type} → ε → Action (History ε) δ ε'}
    (hback : ∀ {δ} e s, (answer (δ := δ) e s).outcome.isPanic = false) :
    (c.answering answer).Tame fun s => P s.1 := by
  have hfail {δ γ : Type} (e : ε) (wrap : ε' → δ) :
      Safe (fun s => P s.1) ((answer e).failWith wrap : Action (σ × History ε) δ γ) :=
    (spares_safety (hback e)).failWith wrap
  exact {
    pull := h.pull.onFst.handle fun e => hfail e _
    close := h.close.onFst.handle fun e => hfail e _
    hasNext := h.hasNext.onFst.handle fun e => hfail e _
    next := h.next.onFst.handle fun e => by
      cases e with
      | exhausted => exact .fail _
      | failed e => exact hfail e _ }

theorem limit (h : c.Tame P) : (Budget.cursor c).Tame fun s => P s.1 := by
  refine .ofSteps ?_ ?_ ?_
  · refine Action.Observes.get.bind fun s => ?_
    split
    · exact .pure false
    · exact h.hasNext.onFst
  · refine Action.Observes.get.bind fun s => ?_
    split
    · exact .fail _
    · exact h.next.onFst.bind fun x => .bind (.modify fun _ hs => ⟨hs, rfl⟩) fun _ => .pure x
  · exact .bind (.modify fun _ hs => ⟨hs, rfl⟩) fun _ => h.close.onFst

end Cursor.Tame

def Series.Each (P : τ → Prop) (s : Series τ) : Prop :=
  (∀ child ∈ s.current, P child) ∧ ∀ child, some child ∈ s.rest → P child

namespace Series

variable {P : τ → Prop} {c : Source τ α ε} {watch : Nat → List Event}

theorem ask_safe : Safe (Each P) (ask watch : Action (Series τ) ε _) := by
  rintro ⟨current, position, rest, asked⟩ ⟨hcurrent, hrest⟩
  cases rest with
  | nil => exact ⟨⟨hcurrent, hrest⟩, rfl⟩
  | cons place rest =>
    exact ⟨⟨hcurrent, fun child hmem => hrest child (List.mem_cons_of_mem _ hmem)⟩, rfl⟩

theorem advance_safe : Safe (Each P) (advance watch : Action (Series τ) ε (Turn (Option α))) := by
  rintro ⟨current, position, rest, asked⟩ ⟨hcurrent, hrest⟩
  rcases rest with _ | ⟨_ | child, rest⟩
  · rw [advance_nil]
    exact ⟨⟨hcurrent, nofun⟩, rfl⟩
  · rw [advance, Action.bind_apply, ask_cons]
    exact ⟨⟨hcurrent, fun child hmem => hrest child (List.mem_cons_of_mem _ hmem)⟩, rfl⟩
  · rw [advance_child]
    refine ⟨⟨?_, fun child hmem => hrest child (List.mem_cons_of_mem _ hmem)⟩, rfl⟩
    rintro _ ⟨⟩
    exact hrest child List.mem_cons_self

theorem turn_safe (h : c.Tame P) : Safe (Each P) (turn c watch) := by
  rintro ⟨current, position, rest, asked⟩ ⟨hcurrent, hrest⟩
  cases current with
  | none => exact advance_safe _ ⟨hcurrent, hrest⟩
  | some child =>
    obtain ⟨hpulled, hback⟩ := h.pull child (hcurrent child rfl)
    have hused {child' : τ} (hchild : P child') : Each P ⟨some child', position, rest, asked⟩ := by
      refine ⟨?_, hrest⟩
      rintro _ ⟨⟩
      exact hchild
    have hnone : Each P ⟨none, position + 1, rest, asked⟩ := ⟨nofun, hrest⟩
    rw [turn_child]
    rcases e : c.pull child with ⟨(_ | x) | _ | _, child', t⟩ <;> rw [e] at hpulled hback
    · have hclosed := (h.close child' hpulled).2
      dsimp only
      rcases e' : c.close child' with ⟨_ | _ | _, _, u⟩ <;> rw [e'] at hclosed
      · exact advance_safe _ hnone
      · exact ⟨hnone, rfl⟩
      · cases hclosed
    · exact ⟨hused hpulled, rfl⟩
    · exact ⟨hused hpulled, rfl⟩
    · cases hback

theorem onDetached_safe (h : c.Tame P) {child : τ} (hchild : P child) :
    Safe (Each P) ((onDetached child c.close).caught : Action (Series τ) ε' (Except ε Unit)) :=
  Action.Observes.caught fun _ hs => ⟨hs, (h.close child hchild).2⟩

theorem closeRest_safe (h : c.Tame P) (position : Nat) (errs : Aggregate ε)
    {rest : List (Option τ)} (hrest : ∀ child, some child ∈ rest → P child) :
    Safe (Each P) (closeRest c watch position errs rest : Action (Series τ) ε' _) := by
  induction rest generalizing position errs with
  | nil => exact ask_safe.bind fun _ => .pure _
  | cons place rest ih =>
    cases place with
    | none => exact ask_safe.bind fun _ => .pure _
    | some child =>
      have hlater : ∀ child, some child ∈ rest → P child := fun child hmem =>
        hrest child (List.mem_cons_of_mem _ hmem)
      refine ask_safe.bind fun _ => (onDetached_safe h (hrest child List.mem_cons_self)).bind ?_
      rintro (e | _)
      · exact ih _ _ hlater
      · exact ih _ _ hlater

theorem closeCurrent_safe (h : c.Tame P) (position : Nat) (errs : Aggregate ε)
    {current : Option τ} (hcurrent : ∀ child ∈ current, P child) :
    Safe (Each P) (closeCurrent c position errs current : Action (Series τ) ε' _) := by
  cases current with
  | none => exact .pure _
  | some child =>
    refine .bind (.modify fun s hs => ⟨⟨nofun, hs.2⟩, rfl⟩) fun _ =>
      (onDetached_safe h (hcurrent child rfl)).bind ?_
    rintro (e | _)
    · exact .pure _
    · exact .pure _

theorem release_safe (h : c.Tame P) : Safe (Each P) (release c watch) := by
  have hall : Safe (Each P) (closeAll c watch : Action (Series τ) ε _) := by
    intro s hs
    rw [closeAll, Action.get_bind_apply]
    refine Action.Observes.bind (closeCurrent_safe h _ _ hs.1) (fun _ => ?_) s hs
    exact (closeRest_safe h _ _ hs.2).bind fun _ =>
      .bind (.modify fun _ hs => ⟨hs, rfl⟩) fun _ => .pure _
  refine hall.bind fun errs => ?_
  rcases errs.failures with _ | ⟨e, more⟩
  · exact .pure _
  · exact (Action.Observes.emit fun _ hs => ⟨hs, rfl⟩).bind fun _ => .fail e

end Series

theorem Source.Tame.series {P : τ → Prop} {c : Source τ α ε} (h : c.Tame P)
    (watch : Nat → List Event) : (Series.source c watch).Tame (Series.Each P) where
  pull := .loop (Series.turn_safe h)
  close := Series.release_safe h

theorem Source.Tame.family {ι : Type} {σ : ι → Type} {P : (i : ι) → σ i → Prop}
    {c : (i : ι) → FiniteCursor (σ i) α ε} (h : ∀ i, (c i).toCursor.Tame (P i)) :
    (FiniteCursor.family c).toSource.Tame fun s => P s.1 s.2 where
  pull s hs := (h s.1).pull s.2 hs
  close s hs := (h s.1).close s.2 hs

def Answer.isPanic : Answer α ε → Bool
  | .hasNext o => o.isPanic
  | .next o => o.isPanic
  | .pull o => o.isPanic
  | .close o => o.isPanic

namespace Cursor.Tame

variable {P : σ → Prop} {c : Cursor σ α ε}

theorem call (h : c.Tame P) {s : σ} (hs : P s) (op : Operation) :
    P (c.call s op).state ∧ (c.call s op).answer.isPanic = false := by
  cases op with
  | hasNext => exact h.hasNext s hs
  | next => exact h.next s hs
  | pull => exact h.pull s hs
  | close => exact h.close s hs

theorem run (h : c.Tame P) {s : σ} (hs : P s) (ops : List Operation) :
    P (c.run s ops).state ∧ ∀ a ∈ (c.run s ops).answers, a.isPanic = false := by
  induction ops generalizing s with
  | nil => exact ⟨hs, nofun⟩
  | cons op rest ih =>
    obtain ⟨hstate, hfirst⟩ := h.call hs op
    obtain ⟨hend, hlater⟩ := ih hstate
    exact ⟨hend, List.forall_mem_cons.mpr ⟨hfirst, hlater⟩⟩

end Cursor.Tame

namespace Sink

variable {P : σ → Prop} {c : Source σ α ε}

def Use.Tame : Use α ε β → Prop
  | .visitAll visit _ => ∀ x v, (visit x v).outcome.isPanic = false
  | .visitEach _ f _ => f.Returns
  | _ => True

theorem Visits.safe (h : c.Tame P) {visit : α → Action ν ε Unit} {start : ν} {finish : ν → β}
    {s : σ} {body : Reply σ ε β} (hvisit : ∀ x v, (visit x v).outcome.isPanic = false)
    (hbody : Visits c visit start finish s body) (hs : P s) :
    P body.state ∧ body.outcome.isPanic = false := by
  obtain ⟨r, hends, rfl⟩ := hbody
  have hturn : Safe (fun s => P s.1)
      (Sweep.turn c (pure ()) (Sweep.onward visit) : Action (σ × ν) ε (Turn Unit)) :=
    h.pull.turn (spares_safety fun _ => rfl) fun x => spares_safety fun v => by
      rw [Sweep.onward_apply, Outcome.isPanic_map]
      exact hvisit x v
  obtain ⟨hstate, hback⟩ := hturn.ends hends hs
  exact ⟨hstate, (Outcome.isPanic_map _ _).trans hback⟩

theorem Use.Drains.safe (h : c.Tame P) {u : Use α ε β} (hu : u.Tame) {s : σ}
    {body : Reply σ ε β} (hbody : u.Drains c s body) (hs : P s) :
    P body.state ∧ body.outcome.isPanic = false := by
  cases u with
  | first =>
    subst hbody
    exact h.pull s hs
  | visitAll visit start => exact Visits.safe h hu hbody hs
  | visitEach mark f shown =>
    simp only [Drains] at hbody
    refine hbody.safe h (fun x v => ?_) hs
    obtain ⟨y, -, hvisit⟩ := visitEach_returns (ε := ε) mark hu shown x v
    rw [hvisit]
    rfl
  | _ =>
    simp only [Drains] at hbody
    exact hbody.safe h (fun _ _ => rfl) hs

theorem isPanic_thenClose {body : Reply σ ε β} {close : Action σ ε Unit}
    (hbody : body.outcome.isPanic = false) (hclose : (close body.state).outcome.isPanic = false)
    (s : σ) : (thenClose (fun _ => body) close s).outcome.isPanic = false := by
  obtain ⟨_ | _ | _, s', t⟩ := body
  · exact (Outcome.isPanic_map _ _).trans hclose
  · simp only [thenClose]
    rcases e : close s' with ⟨_ | _ | _, s'', t'⟩ <;> rw [e] at hclose
    · rfl
    · rfl
    · cases hclose
  · cases hbody

theorem Use.EndsIn.safe (h : c.Tame P) {u : Use α ε β} (hu : u.Tame) {s : σ} {r : Reply σ ε β}
    (hr : u.EndsIn c s r) (hs : P s) : r.outcome.isPanic = false := by
  obtain ⟨body, hbody, rfl⟩ := hr
  obtain ⟨hstate, hback⟩ := hbody.safe h hu hs
  exact isPanic_thenClose hback (h.close body.state hstate).2 s

end Sink

end PullCursor
