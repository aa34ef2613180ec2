import PullCursor.Proofs.Lookahead.Steps
import PullCursor.Proofs.Schedule

/-! Cursors that cannot be told apart. Two cursors may hold quite different things and still answer
every call in the same way and do the same to the outside. What they note for themselves does not
count, nor what they ask of the supplies they take their children from. -/
namespace PullCursor

variable {σ σ' κ κ' α β γ ε δ : Type}

def Event.isAside : Event → Bool
  | .log _ | .taken _ _ => true
  | _ => false

/-- What was seen, without what the library notes for itself and what supplies are asked. -/
def outward (t : List Event) : List Event := t.filter fun e => !e.isAside

@[simp] theorem outward_nil : outward [] = [] := rfl

@[simp] theorem outward_append (t u : List Event) : outward (t ++ u) = outward t ++ outward u :=
  List.filter_append ..

@[simp] theorem outward_log (notice : Notice) : outward [.log notice] = [] := rfl

def Reply.Alike (r' : Reply σ' ε β) (r : Reply σ ε β) : Prop :=
  r'.outcome = r.outcome ∧ outward r'.trace = outward r.trace

def Reply.Matches (R : σ' → σ → Prop) (r' : Reply σ' ε β) (r : Reply σ ε β) : Prop :=
  r'.Alike r ∧ R r'.state r.state

theorem Reply.Matches.after {R : σ' → σ → Prop} {r' : Reply σ' ε β} {r : Reply σ ε β}
    (h : r'.Matches R r) {t' t : List Event} (ht : outward t' = outward t) :
    Reply.Matches R ⟨r'.outcome, r'.state, t' ++ r'.trace⟩
      ⟨r.outcome, r.state, t ++ r.trace⟩ := by
  refine ⟨⟨h.1.1, ?_⟩, h.2⟩
  rw [outward_append, outward_append, ht, h.1.2]

namespace Action

def Matches (R : σ' → σ → Prop) (m' : Action σ' ε β) (m : Action σ ε β) : Prop :=
  ∀ s' s, R s' s → (m' s').Matches R (m s)

variable {R : σ' → σ → Prop}

theorem Matches.pure (b : β) : Matches R (Pure.pure b : Action σ' ε β) (Pure.pure b) :=
  fun _ _ hs => ⟨⟨rfl, rfl⟩, hs⟩

theorem Matches.fail (e : ε) : Matches R (Action.fail e : Action σ' ε β) (Action.fail e) :=
  fun _ _ hs => ⟨⟨rfl, rfl⟩, hs⟩

theorem Matches.bind {m' : Action σ' ε β} {m : Action σ ε β} {f' : β → Action σ' ε γ}
    {f : β → Action σ ε γ} (hm : Matches R m' m) (hf : ∀ b, Matches R (f' b) (f b)) :
    Matches R (m' >>= f') (m >>= f) := by
  intro s' s hs
  have hboth := hm s' s hs
  rw [bind_apply, bind_apply]
  rcases e : m s with ⟨o, s₁, t⟩
  rcases e' : m' s' with ⟨o', s₁', t'⟩
  simp only [e, e', Reply.Matches, Reply.Alike] at hboth
  obtain ⟨⟨rfl, ht⟩, hs'⟩ := hboth
  cases o' with
  | ok b => exact (hf b s₁' s₁ hs').after ht
  | _ => exact ⟨⟨rfl, ht⟩, hs'⟩

theorem Matches.mapOutcome {m' : Action σ' ε β} {m : Action σ ε β} (hm : Matches R m' m)
    (f : Outcome ε β → Outcome δ γ) : Matches R (m'.mapOutcome f) (m.mapOutcome f) := by
  intro s' s hs
  obtain ⟨⟨ho, ht⟩, hs'⟩ := hm s' s hs
  exact ⟨⟨congrArg f ho, ht⟩, hs'⟩

theorem Matches.pullByNext {hasNext' : Action σ' ε Bool} {hasNext : Action σ ε Bool}
    {next' : Action σ' (Stop ε) α} {next : Action σ (Stop ε) α} (hask : Matches R hasNext' hasNext)
    (hnext : Matches R next' next) :
    Matches R (PullCursor.pullByNext hasNext' next') (PullCursor.pullByNext hasNext next) := by
  refine hask.bind fun b => ?_
  cases b with
  | false => exact .pure none
  | true => exact hnext.mapOutcome _

end Action

structure Cursor.Matches (R : σ' → σ → Prop) (c' : Cursor σ' α ε) (c : Cursor σ α ε) : Prop where
  pull : c'.pull.Matches R c.pull
  close : c'.close.Matches R c.close
  hasNext : c'.hasNext.Matches R c.hasNext
  next : c'.next.Matches R c.next

namespace Cursor.Matches

variable {R : σ' → σ → Prop} {c' : Cursor σ' α ε} {c : Cursor σ α ε}

theorem call (h : c'.Matches R c) {s' : σ'} {s : σ} (hs : R s' s) (op : Operation) :
    (c'.call s' op).answer = (c.call s op).answer ∧
      outward (c'.call s' op).trace = outward (c.call s op).trace ∧
      R (c'.call s' op).state (c.call s op).state := by
  cases op with
  | hasNext =>
    obtain ⟨⟨ho, ht⟩, hs'⟩ := h.hasNext s' s hs
    exact ⟨congrArg Answer.hasNext ho, ht, hs'⟩
  | next =>
    obtain ⟨⟨ho, ht⟩, hs'⟩ := h.next s' s hs
    exact ⟨congrArg Answer.next ho, ht, hs'⟩
  | pull =>
    obtain ⟨⟨ho, ht⟩, hs'⟩ := h.pull s' s hs
    exact ⟨congrArg Answer.pull ho, ht, hs'⟩
  | close =>
    obtain ⟨⟨ho, ht⟩, hs'⟩ := h.close s' s hs
    exact ⟨congrArg Answer.close ho, ht, hs'⟩

/-- No caller can tell the one from the other, whatever it calls and in what order. -/
theorem run (h : c'.Matches R c) {s' : σ'} {s : σ} (hs : R s' s) (ops : List Operation) :
    (c'.run s' ops).answers = (c.run s ops).answers ∧
      outward (c'.run s' ops).trace = outward (c.run s ops).trace := by
  induction ops generalizing s' s with
  | nil => exact ⟨rfl, rfl⟩
  | cons op rest ih =>
    obtain ⟨hanswer, htrace, hstate⟩ := h.call hs op
    obtain ⟨hanswers, htraces⟩ := ih hstate
    simp only [Cursor.run, outward_append, hanswer, htrace, hanswers, htraces, and_self]

end Cursor.Matches

/-- Sources that a lookahead cannot tell apart. As long as there may be another element they are
pulled alike; after that they are only closed alike, and nobody looks at what becomes of them. -/
structure Source.Matches (alive past : κ' → κ → Prop) (c' : Source κ' α ε) (c : Source κ α ε) :
    Prop where
  pull {s' : κ'} {s : κ} : alive s' s → (c'.pull s').Alike (c.pull s)
  element {s' : κ'} {s : κ} {x : α} : alive s' s → (c.pull s).outcome = .ok (some x) →
    alive (c'.pull s').state (c.pull s).state
  pulled {s' : κ'} {s : κ} : alive s' s → past (c'.pull s').state (c.pull s).state
  close {s' : κ'} {s : κ} : past s' s → (c'.close s').Alike (c.close s)

namespace Lookahead

/-- Lookaheads in the same stage, whose sources match as far as that goes. -/
structure Twin (alive past : κ' → κ → Prop) (s' : Lookahead κ' α) (s : Lookahead κ α) : Prop where
  stage : s'.stage = s.stage
  alive : s.stage.isOver = false → alive s'.inner s.inner
  past : s.stage.isClosed = false → past s'.inner s.inner

variable {c' : Source κ' α ε} {c : Source κ α ε} {alive past : κ' → κ → Prop}

theorem Twin.start {inner' : κ'} {inner : κ} (halive : alive inner' inner)
    (hover : past inner' inner) :
    Twin alive past (.start inner' : Lookahead κ' α) (.start inner) :=
  ⟨rfl, fun _ => halive, fun _ => hover⟩

theorem look_matches (h : Source.Matches alive past c' c) :
    (look c').Matches (Twin alive past) (look c) := by
  rintro ⟨inner', stage⟩ ⟨inner, _⟩ ⟨rfl, halive, hover⟩
  cases stage with
  | idle =>
    have hinner := halive rfl
    obtain ⟨ho, ht⟩ := h.pull hinner
    have hpulled := h.pulled hinner
    rw [look_idle, look_idle]
    rcases e : c.pull inner with ⟨o, s, t⟩
    rcases e' : c'.pull inner' with ⟨o', s', t'⟩
    simp only [e, e'] at ho ht hpulled
    subst ho
    rcases o' with (_ | x) | e | m
    · exact ⟨⟨rfl, ht⟩, rfl, nofun, fun _ => hpulled⟩
    · have hnext := h.element (x := x) hinner (by rw [e])
      simp only [e, e'] at hnext
      exact ⟨⟨rfl, ht⟩, rfl, fun _ => hnext, fun _ => hpulled⟩
    · refine ⟨⟨rfl, ?_⟩, rfl, nofun, fun _ => hpulled⟩
      rw [outward_append, outward_append, ht]
    · exact ⟨⟨rfl, ht⟩, rfl, nofun, fun _ => hpulled⟩
  | _ => exact ⟨⟨rfl, rfl⟩, rfl, halive, hover⟩

theorem next_matches (h : Source.Matches alive past c' c) :
    (next c').Matches (Twin alive past) (next c) := by
  refine ((look_matches h).mapOutcome _).bind fun _ => ?_
  rintro ⟨inner', stage⟩ ⟨inner, _⟩ ⟨rfl, halive, hover⟩
  rw [Action.get_bind_apply, Action.get_bind_apply]
  cases stage with
  | ready x => exact ⟨⟨rfl, rfl⟩, rfl, fun _ => halive rfl, fun _ => hover rfl⟩
  | _ => exact ⟨⟨rfl, rfl⟩, rfl, halive, hover⟩

theorem close_matches (h : Source.Matches alive past c' c) :
    (close c' : Action (Lookahead κ' α) ε Unit).Matches (Twin alive past) (close c) := by
  rintro s' s hs
  cases hclosed : s.stage.isClosed with
  | true =>
    rw [close_again c hclosed, close_again c' (hs.stage ▸ hclosed)]
    exact ⟨⟨rfl, rfl⟩, hs⟩
  | false =>
    obtain ⟨ho, ht⟩ := h.close (hs.past hclosed)
    rw [close_open c hclosed, close_open c' (hs.stage ▸ hclosed), hs.stage]
    refine ⟨⟨ho, ?_⟩, rfl, nofun, nofun⟩
    rw [outward_append, outward_append, ht]

theorem cursor_matches (h : Source.Matches alive past c' c) :
    (cursor c').Matches (Twin alive past) (cursor c) where
  pull := (look_matches h).pullByNext (next_matches h)
  close := close_matches h
  hasNext := look_matches h
  next := next_matches h

end Lookahead

end PullCursor
