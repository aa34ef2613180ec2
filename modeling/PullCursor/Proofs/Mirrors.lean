import PullCursor.Proofs.Lookahead.Requests
import PullCursor.Proofs.Loop
import PullCursor.Proofs.Schedule

/-! Actions that mirror each other differ in what can be seen, and in how their states are written.
To whoever calls them they are the same. -/
namespace PullCursor

variable {σ σ' κ κ' α β γ ε ε' : Type}

namespace Action

/-- The first action does what the second one does, up to what can be seen. -/
def Mirrors (f : σ' → σ) (m' : Action σ' ε β) (m : Action σ ε β) : Prop :=
  ∀ s, (m (f s)).outcome = (m' s).outcome ∧ (m (f s)).state = f (m' s).state

variable {f : σ' → σ}

theorem Mirrors.pure (b : β) : Mirrors f (Pure.pure b : Action σ' ε β) (Pure.pure b) :=
  fun _ => ⟨rfl, rfl⟩

theorem Mirrors.bind {m' : Action σ' ε β} {m : Action σ ε β} {g' : β → Action σ' ε γ}
    {g : β → Action σ ε γ} (h : Mirrors f m' m) (hg : ∀ b, Mirrors f (g' b) (g b)) :
    Mirrors f (m' >>= g') (m >>= g) := by
  intro s
  have hs := h s
  rw [bind_apply, bind_apply]
  rcases hm : m (f s) with ⟨o, s₁, t⟩
  rcases hm' : m' s with ⟨o', s₁', t'⟩
  simp only [hm, hm'] at hs
  obtain ⟨rfl, rfl⟩ := hs
  cases o with
  | ok b => exact hg b s₁'
  | _ => exact ⟨rfl, rfl⟩

theorem Mirrors.modify {g' : σ' → σ'} {g : σ → σ} (h : ∀ s, g (f s) = f (g' s)) :
    Mirrors f (Action.modify g' : Action σ' ε Unit) (Action.modify g) :=
  fun s => ⟨rfl, h s⟩

theorem Mirrors.mapOutcome {m' : Action σ' ε β} {m : Action σ ε β} (h : Mirrors f m' m)
    (g : Outcome ε β → Outcome ε' γ) : Mirrors f (m'.mapOutcome g) (m.mapOutcome g) :=
  fun s => ⟨congrArg g (h s).1, (h s).2⟩

theorem Ends.mirror {turn' : Action σ' ε (Turn β)} {turn : Action σ ε (Turn β)}
    (h : Mirrors f turn' turn) {s : σ'} {r : Reply σ' ε β} (hr : Ends turn' s r) :
    ∃ t, Ends turn (f s) ⟨r.outcome, f r.state, t⟩ := by
  have step {s : σ'} {r : Reply σ' ε (Turn β)} (hturn : turn' s = r) :
      ∃ t, turn (f s) = ⟨r.outcome, f r.state, t⟩ := by
    subst hturn
    obtain ⟨ho, hs⟩ := h s
    exact ⟨(turn (f s)).trace, by rw [← ho, ← hs]⟩
  induction hr with
  | again hturn _ ih =>
    obtain ⟨t, ht⟩ := step hturn
    obtain ⟨u, hu⟩ := ih
    exact ⟨t ++ u, .again ht hu⟩
  | stop hturn => exact (step hturn).imp fun _ => .stop
  | error hturn => exact (step hturn).imp fun _ => .error
  | panic hturn => exact (step hturn).imp fun _ => .panic

theorem Mirrors.loop {turn' : Action σ' ε (Turn β)} {turn : Action σ ε (Turn β)}
    {size' : σ' → Nat} {size : σ → Nat} {shrinks' : turn'.Shrinks size'}
    {shrinks : turn.Shrinks size} (h : Mirrors f turn' turn) :
    Mirrors f (Action.loop size' turn' shrinks') (Action.loop size turn shrinks) := by
  intro s
  obtain ⟨t, ht⟩ := (loop_ends size' turn' shrinks' s).mirror h
  rw [(loop_ends size turn shrinks (f s)).unique ht]
  exact ⟨rfl, rfl⟩

end Action

namespace Lookahead

def rewrite (f : κ' → κ) (s : Lookahead κ' α) : Lookahead κ α := ⟨f s.inner, s.stage⟩

variable {f : κ' → κ} {c' : Source κ' α ε} {c : Source κ α ε}

theorem look_mirrors (h : Action.Mirrors f c'.pull c.pull) :
    Action.Mirrors (rewrite f) (look c' : Action (Lookahead κ' α) ε Bool) (look c) := by
  rintro ⟨inner, stage⟩
  cases stage with
  | idle =>
    obtain ⟨ho, hs⟩ := h inner
    simp only [rewrite, look_idle]
    rcases hm : c.pull (f inner) with ⟨o, s, t⟩
    rcases hm' : c'.pull inner with ⟨o', s', t'⟩
    simp only [hm, hm'] at ho hs
    obtain ⟨rfl, rfl⟩ := And.intro ho hs
    rcases o with (_ | x) | e | m <;> exact ⟨rfl, rfl⟩
  | _ => exact ⟨rfl, rfl⟩

def Served.Mirrors (f : κ' → κ) (a' : Served κ' α β ε) (a : Served κ α β ε) : Prop :=
  a.response = a'.response ∧ a.state = a'.state.rewrite f

theorem serve_poll_mirrors (h : Action.Mirrors f c'.pull c.pull) (p : Poll α)
    (s : Lookahead κ' α) :
    Served.Mirrors (β := β) f (serve c' s (.poll p)) (serve c (s.rewrite f) (.poll p)) := by
  obtain ⟨ho, hs⟩ := look_mirrors h s
  rw [serve_poll, serve_poll]
  rcases hm : look c (s.rewrite f) with ⟨o, s₁, t⟩
  rcases hm' : look c' s with ⟨o', s₁', t'⟩
  simp only [hm, hm'] at ho hs
  obtain ⟨rfl, rfl⟩ := And.intro ho hs
  cases o <;> exact ⟨rfl, rfl⟩

theorem serve_close_mirrors (h : Action.Mirrors f c'.close c.close) (s : Lookahead κ' α) :
    Served.Mirrors (β := β) f (serve c' s .close) (serve c (s.rewrite f) .close) := by
  obtain ⟨ho, hs⟩ := h s.inner
  rw [serve_close, serve_close]
  cases hc : s.stage.isClosed
  · simp only [rewrite, hc, ho, hs]
    exact ⟨rfl, rfl⟩
  · simp only [rewrite, hc]
    exact ⟨rfl, rfl⟩

theorem serve_closeBy_mirrors {release' : Action κ' ε β} {release : Action κ ε β}
    (h : Action.Mirrors f release' release) (s : Lookahead κ' α) :
    Served.Mirrors f (serve c' s (.closeBy release'))
      (serve c (s.rewrite f) (.closeBy release)) := by
  obtain ⟨ho, hs⟩ := h s.inner
  rw [serve_closeBy, serve_closeBy]
  cases hc : s.stage.isClosed
  · simp only [rewrite, hc, ho, hs]
    exact ⟨rfl, rfl⟩
  · simp only [rewrite, hc]
    exact ⟨rfl, rfl⟩

section Run

variable (hpull : Action.Mirrors f c'.pull c.pull) (hclose : Action.Mirrors f c'.close c.close)
include hpull hclose

theorem call_mirrors (s : Lookahead κ' α) (op : Operation) :
    ((cursor c).call (s.rewrite f) op).answer = ((cursor c').call s op).answer ∧
      ((cursor c).call (s.rewrite f) op).state = ((cursor c').call s op).state.rewrite f := by
  cases op with
  | hasNext =>
    obtain ⟨ho, hs⟩ := serve_poll_mirrors (β := Unit) hpull .hasNext s
    exact ⟨congrArg Answer.hasNext (Response.asked.inj ho), hs⟩
  | next =>
    obtain ⟨ho, hs⟩ := serve_poll_mirrors (β := Unit) hpull .next s
    exact ⟨congrArg Answer.next (Response.next.inj ho), hs⟩
  | pull =>
    obtain ⟨ho, hs⟩ := serve_poll_mirrors (β := Unit) hpull .pull s
    exact ⟨congrArg Answer.pull (Response.pulled.inj ho), hs⟩
  | close =>
    obtain ⟨ho, hs⟩ := serve_close_mirrors (β := Unit) hclose s
    exact ⟨congrArg Answer.close (Response.closed.inj ho), hs⟩

theorem run_mirrors (s : Lookahead κ' α) (ops : List Operation) :
    ((cursor c).run (s.rewrite f) ops).answers = ((cursor c').run s ops).answers := by
  induction ops generalizing s with
  | nil => rfl
  | cons op rest ih =>
    obtain ⟨hanswer, hstate⟩ := call_mirrors hpull hclose s op
    simp only [Cursor.run, hanswer, hstate, ih]

end Run

end Lookahead

end PullCursor
