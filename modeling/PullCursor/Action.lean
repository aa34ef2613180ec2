import PullCursor.Event

/-! Calls on a state. A call succeeds, fails or panics; whichever it does, the state it leaves and
the events seen meanwhile are kept, because a caller may well go on with both. -/
namespace PullCursor

inductive Outcome (ε α : Type) where
  | ok (value : α)
  | error (fault : ε)
  | panic (message : String)

namespace Outcome

variable {ε ε' α β : Type}

def weigh (w : α → Nat) : Outcome ε α → Nat
  | .ok a => w a
  | _ => 0

def map (f : α → β) : Outcome ε α → Outcome ε β
  | .ok a => .ok (f a)
  | .error e => .error e
  | .panic m => .panic m

def mapError (f : ε → ε') : Outcome ε α → Outcome ε' α
  | .ok a => .ok a
  | .error e => .error (f e)
  | .panic m => .panic m

def fault? : Outcome ε α → Option ε
  | .error e => some e
  | _ => none

def caught : Outcome ε α → Outcome ε' (Except ε α)
  | .ok a => .ok (.ok a)
  | .error e => .ok (.error e)
  | .panic m => .panic m

@[simp] theorem weigh_zero (o : Outcome ε α) : o.weigh (fun _ => 0) = 0 := by cases o <;> rfl

@[simp] theorem weigh_map (f : α → β) (w : β → Nat) (o : Outcome ε α) :
    (o.map f).weigh w = o.weigh fun a => w (f a) := by cases o <;> rfl

theorem map_map {γ : Type} (f : α → β) (g : β → γ) (o : Outcome ε α) :
    (o.map f).map g = o.map fun a => g (f a) := by cases o <;> rfl

end Outcome

structure Reply (σ ε α : Type) where
  outcome : Outcome ε α
  state : σ
  trace : List Event

def Action (σ ε α : Type) : Type := σ → Reply σ ε α

namespace Action

variable {σ τ ε ε' α β : Type}

protected def bind (m : Action σ ε α) (f : α → Action σ ε β) : Action σ ε β := fun s =>
  match m s with
  | ⟨.ok a, s', t⟩ => let r := f a s'; ⟨r.outcome, r.state, t ++ r.trace⟩
  | ⟨.error e, s', t⟩ => ⟨.error e, s', t⟩
  | ⟨.panic p, s', t⟩ => ⟨.panic p, s', t⟩

instance : Monad (Action σ ε) where
  pure a := fun s => ⟨.ok a, s, []⟩
  bind := Action.bind

def fail (e : ε) : Action σ ε α := fun s => ⟨.error e, s, []⟩

def panic (message : String) : Action σ ε α := fun s => ⟨.panic message, s, []⟩

def get : Action σ ε σ := fun s => ⟨.ok s, s, []⟩

def modify (f : σ → σ) : Action σ ε Unit := fun s => ⟨.ok (), f s, []⟩

def emit (events : List Event) : Action σ ε Unit := fun s => ⟨.ok (), s, events⟩

def mapOutcome (f : Outcome ε α → Outcome ε' β) (m : Action σ ε α) : Action σ ε' β := fun s =>
  let r := m s
  ⟨f r.outcome, r.state, r.trace⟩

def handle (m : Action σ ε α) (h : ε → Action σ ε' α) : Action σ ε' α := fun s =>
  match m s with
  | ⟨.ok a, s', t⟩ => ⟨.ok a, s', t⟩
  | ⟨.error e, s', t⟩ => let r := h e s'; ⟨r.outcome, r.state, t ++ r.trace⟩
  | ⟨.panic p, s', t⟩ => ⟨.panic p, s', t⟩

def caught (m : Action σ ε α) : Action σ ε' (Except ε α) := m.mapOutcome Outcome.caught

def on (s : σ) (put : σ → τ → τ) (m : Action σ ε α) : Action τ ε α := fun t =>
  let r := m s
  ⟨r.outcome, put r.state t, r.trace⟩

def within (part : τ → σ) (put : σ → τ → τ) (m : Action σ ε α) : Action τ ε α := fun t =>
  m.on (part t) put t

def onFst (m : Action σ ε α) : Action (σ × τ) ε α := fun s =>
  let r := m s.1
  ⟨r.outcome, (r.state, s.2), r.trace⟩

def onSnd (m : Action τ ε α) : Action (σ × τ) ε α := fun s =>
  let r := m s.2
  ⟨r.outcome, (s.1, r.state), r.trace⟩

/-- A call that starts out with something of its own and hands over what became of it. -/
def withLocal (init : τ) (m : Action (σ × τ) ε α) : Action σ ε (α × τ) := fun s =>
  let r := m (s, init)
  ⟨r.outcome.map fun a => (a, r.state.2), r.state.1, r.trace⟩

def ofExcept : Except String α → Action σ ε α
  | .ok a => pure a
  | .error m => panic m

@[simp] theorem pure_apply (a : α) (s : σ) :
    (pure a : Action σ ε α) s = ⟨.ok a, s, []⟩ := rfl

theorem bind_apply (m : Action σ ε α) (f : α → Action σ ε β) (s : σ) :
    (m >>= f) s = match m s with
      | ⟨.ok a, s', t⟩ => let r := f a s'; ⟨r.outcome, r.state, t ++ r.trace⟩
      | ⟨.error e, s', t⟩ => ⟨.error e, s', t⟩
      | ⟨.panic p, s', t⟩ => ⟨.panic p, s', t⟩ := rfl

@[simp] theorem get_bind_apply (f : σ → Action σ ε β) (s : σ) : (get >>= f) s = f s s := by
  simp [bind_apply, get]

@[simp] theorem modify_bind_apply (g : σ → σ) (f : Unit → Action σ ε β) (s : σ) :
    (modify g >>= f) s = f () (g s) := by
  simp [bind_apply, modify]

theorem bind_eq_ok {m : Action σ ε α} {f : α → Action σ ε β} {s s' : σ} {b : β}
    {t : List Event} :
    (m >>= f) s = ⟨.ok b, s', t⟩ ↔
      ∃ a s₁ t₁ t₂, m s = ⟨.ok a, s₁, t₁⟩ ∧ f a s₁ = ⟨.ok b, s', t₂⟩ ∧ t = t₁ ++ t₂ := by
  rw [bind_apply]
  rcases m s with ⟨a | _ | _, s₁, t₁⟩
  · rcases h : f a s₁ with ⟨o, s₂, t₂⟩
    constructor
    · rintro e
      simp only [h, Reply.mk.injEq] at e
      obtain ⟨rfl, rfl, rfl⟩ := e
      exact ⟨a, s₁, t₁, t₂, rfl, h, rfl⟩
    · rintro ⟨_, _, _, u, e, e', rfl⟩
      simp only [Reply.mk.injEq, Outcome.ok.injEq] at e
      obtain ⟨rfl, rfl, rfl⟩ := e
      rw [h, Reply.mk.injEq] at e'
      obtain ⟨rfl, rfl, rfl⟩ := e'
      simp only [h]
  · simp
  · simp

instance : LawfulMonad (Action σ ε) := LawfulMonad.mk' _
  (by
    intro α m; funext s
    show Action.bind m _ s = _
    unfold Action.bind
    rcases m s with ⟨_ | _ | _, _, _⟩ <;> simp [Function.comp])
  (by
    intro α β a f; funext s
    show Action.bind _ _ s = _
    simp [Action.bind])
  (by
    intro α β γ m f g; funext s
    show Action.bind (Action.bind m f) g s = Action.bind m (fun a => Action.bind (f a) g) s
    unfold Action.bind
    rcases m s with ⟨_ | _ | _, s', t⟩ <;> try rfl
    rename_i a
    dsimp only
    rcases f a s' with ⟨_ | _ | _, _, _⟩ <;> simp)

@[simp] theorem map_apply (f : α → β) (m : Action σ ε α) (s : σ) :
    (f <$> m) s = ⟨(m s).outcome.map f, (m s).state, (m s).trace⟩ := by
  rw [← bind_pure_comp, bind_apply]
  rcases m s with ⟨_ | _ | _, _, _⟩ <;> simp [Outcome.map]

/-- However the call ends, `size` has dropped by at least the weight of what was delivered. -/
def Spends (size : σ → Nat) (w : α → Nat) (m : Action σ ε α) : Prop :=
  ∀ s, size (m s).state + (m s).outcome.weigh w ≤ size s

theorem Spends.pure {size : σ → Nat} {w : α → Nat} {a : α} (h : w a = 0) :
    (Pure.pure a : Action σ ε α).Spends size w := fun s => by simp [Outcome.weigh, h]

theorem Spends.fail {size : σ → Nat} {w : α → Nat} (e : ε) :
    (Action.fail e : Action σ ε α).Spends size w := fun s => by simp [Action.fail, Outcome.weigh]

theorem Spends.bind {size : σ → Nat} {v : α → Nat} {w : β → Nat} {m : Action σ ε α}
    {f : α → Action σ ε β} (hm : m.Spends size v)
    (hf : ∀ a s, size (f a s).state + (f a s).outcome.weigh w ≤ size s + v a) :
    (m >>= f).Spends size w := by
  intro s
  rw [bind_apply]
  have h := hm s
  rcases e : m s with ⟨a | _ | _, s', t⟩ <;> simp only [e, Outcome.weigh] at h ⊢
  · exact Nat.le_trans (hf a s') h
  · exact h
  · exact h

theorem Spends.seq {size : σ → Nat} {v : α → Nat} {w : β → Nat} {m : Action σ ε α}
    {f : α → Action σ ε β} (hm : m.Spends size v) (hf : ∀ a, (f a).Spends size w) :
    (m >>= f).Spends size w :=
  hm.bind fun a s => Nat.le_trans (hf a s) (Nat.le_add_right _ _)

theorem Spends.mapOutcome {size : σ → Nat} {v : α → Nat} {w : β → Nat} {m : Action σ ε α}
    {f : Outcome ε α → Outcome ε' β} (hm : m.Spends size v)
    (hf : ∀ o, (f o).weigh w ≤ o.weigh v) : (m.mapOutcome f).Spends size w := fun s =>
  Nat.le_trans (Nat.add_le_add_left (hf _) _) (hm s)

theorem Spends.handle {size : σ → Nat} {w : α → Nat} {m : Action σ ε α}
    {h : ε → Action σ ε' α} (hm : m.Spends size w) (hh : ∀ e, (h e).Spends size w) :
    (m.handle h).Spends size w := by
  intro s
  have h₁ := hm s
  unfold Action.handle
  rcases e : m s with ⟨_ | e | _, s', t⟩ <;> simp only [e, Outcome.weigh] at h₁ ⊢
  · exact h₁
  · exact Nat.le_trans (hh _ s') h₁
  · exact h₁

theorem Spends.onFst {size : σ → Nat} {w : α → Nat} {m : Action σ ε α} (hm : m.Spends size w) :
    (m.onFst : Action (σ × τ) ε α).Spends (fun s => size s.1) w := fun s => hm s.1

theorem Spends.onSnd {size : σ → Nat} {m : Action τ ε α} :
    (m.onSnd : Action (σ × τ) ε α).Spends (fun s => size s.1) fun _ => 0 := fun s => by
  simp [Action.onSnd]

theorem Spends.of_le {size : σ → Nat} {v w : α → Nat} {m : Action σ ε α} (hm : m.Spends size v)
    (hw : ∀ a, w a ≤ v a) : m.Spends size w := fun s => by
  refine Nat.le_trans (Nat.add_le_add_left ?_ _) (hm s)
  cases (m s).outcome <;> simp [Outcome.weigh, hw]

end Action

inductive Turn (β : Type) where
  | again
  | stop (b : β)

namespace Turn

variable {β : Type}

def delivered (w : β → Nat) : Turn β → Nat
  | .again => 0
  | .stop b => w b

end Turn

namespace Action

variable {σ ε β : Type}

def Shrinks (size : σ → Nat) (turn : Action σ ε (Turn β)) : Prop :=
  ∀ s s' t, turn s = ⟨.ok .again, s', t⟩ → size s' < size s

/-- Takes turns until one of them stops, fails or panics. `past` is what could be seen in the turns
before, latest first; each turn adds to it, so the loop never returns to an earlier turn. -/
def loopAfter (size : σ → Nat) (turn : Action σ ε (Turn β)) (shrinks : turn.Shrinks size)
    (past : List Event) (s : σ) : Reply σ ε β :=
  match _h : turn s with
  | ⟨.ok .again, s', t⟩ => loopAfter size turn shrinks (t.reverseAux past) s'
  | ⟨.ok (.stop b), s', t⟩ => ⟨.ok b, s', past.reverseAux t⟩
  | ⟨.error e, s', t⟩ => ⟨.error e, s', past.reverseAux t⟩
  | ⟨.panic p, s', t⟩ => ⟨.panic p, s', past.reverseAux t⟩
termination_by size s
decreasing_by exact shrinks s s' t _h

def loop (size : σ → Nat) (turn : Action σ ε (Turn β)) (shrinks : turn.Shrinks size) :
    Action σ ε β :=
  loopAfter size turn shrinks []

theorem loopAfter_eq (size : σ → Nat) (turn : Action σ ε (Turn β)) (shrinks : turn.Shrinks size)
    (past : List Event) (s : σ) :
    loopAfter size turn shrinks past s =
      let r := loop size turn shrinks s
      ⟨r.outcome, r.state, past.reverse ++ r.trace⟩ := by
  induction hn : size s using Nat.strongRecOn generalizing s past with
  | ind n ih =>
    subst hn
    rw [loop, loopAfter, loopAfter]
    rcases h : turn s with ⟨(_ | b) | _ | _, s', t⟩
    · have hs := shrinks s s' t h
      simp only [ih _ hs _ s' rfl, List.reverseAux_eq, List.reverse_append, List.reverse_reverse,
        List.append_nil, List.append_assoc]
    all_goals simp [List.reverseAux_eq]

/-- A loop is one turn, followed by the loop again if the turn asks for it. -/
theorem loop_eq (size : σ → Nat) (turn : Action σ ε (Turn β)) (shrinks : turn.Shrinks size)
    (s : σ) :
    loop size turn shrinks s = (turn >>= fun
      | .again => loop size turn shrinks
      | .stop b => pure b : Action σ ε β) s := by
  rw [loop, loopAfter, bind_apply]
  rcases h : turn s with ⟨(_ | b) | _ | _, s', t⟩ <;> simp [loopAfter_eq, List.reverseAux_eq]

theorem Spends.loop {rank size : σ → Nat} {w : β → Nat} {turn : Action σ ε (Turn β)}
    {shrinks : turn.Shrinks rank} (h : turn.Spends size (Turn.delivered w)) :
    Spends size w (loop rank turn shrinks : Action σ ε β) := by
  intro s
  induction hn : rank s using Nat.strongRecOn generalizing s with
  | ind n ih =>
    subst hn
    have hs := h s
    rw [loop_eq, bind_apply]
    rcases e : turn s with ⟨(_ | b) | _ | _, s', t⟩ <;>
      simp only [e, Outcome.weigh, Turn.delivered] at hs ⊢
    · exact Nat.le_trans (ih _ (shrinks s s' t e) s' rfl) hs
    · simpa [Outcome.weigh] using hs
    · exact hs
    · exact hs

end Action

end PullCursor
