import PullCursor.Sweep

/-! Loops as relations. Turns that shrink nothing may go on for ever, and then there is no loop to
run; but if they come to an end, the turns that were taken say in which state. -/
namespace PullCursor

variable {σ ε β : Type}

namespace Action

/-- Turns are taken from this state on until one of them stops, fails or panics. -/
inductive Ends (turn : Action σ ε (Turn β)) : σ → Reply σ ε β → Prop where
  | again {s s' : σ} {t : List Event} {r : Reply σ ε β} :
      turn s = ⟨.ok .again, s', t⟩ → Ends turn s' r →
        Ends turn s ⟨r.outcome, r.state, t ++ r.trace⟩
  | stop {s s' : σ} {b : β} {t : List Event} :
      turn s = ⟨.ok (.stop b), s', t⟩ → Ends turn s ⟨.ok b, s', t⟩
  | error {s s' : σ} {e : ε} {t : List Event} :
      turn s = ⟨.error e, s', t⟩ → Ends turn s ⟨.error e, s', t⟩
  | panic {s s' : σ} {m : String} {t : List Event} :
      turn s = ⟨.panic m, s', t⟩ → Ends turn s ⟨.panic m, s', t⟩

theorem Ends.unique {turn : Action σ ε (Turn β)} {s : σ} {r r' : Reply σ ε β}
    (h : Ends turn s r) (h' : Ends turn s r') : r = r' := by
  induction h generalizing r' with
  | again e _ ih =>
    cases h' with
    | again e' h' =>
      cases e.symm.trans e'
      rw [ih h']
    | stop e' | error e' | panic e' => cases e.symm.trans e'
  | stop e | error e | panic e =>
    cases h' with
    | again e' _ | stop e' | error e' | panic e' => cases e.symm.trans e' <;> rfl

/-- Turns that shrink something come to an end, and the loop is run to that end. -/
theorem loop_ends (size : σ → Nat) (turn : Action σ ε (Turn β)) (shrinks : turn.Shrinks size)
    (s : σ) : Ends turn s (loop size turn shrinks s) := by
  -- The loop itself carries along what was seen; `loop_eq` unrolls one turn without it.
  induction hn : size s using Nat.strongRecOn generalizing s with
  | ind n ih =>
    subst hn
    rw [loop_eq, bind_apply]
    rcases e : turn s with ⟨(_ | b) | _ | _, s', t⟩
    · exact .again e (ih _ (shrinks s s' t e) s' rfl)
    · simpa using Ends.stop e
    · exact .error e
    · exact .panic e

/-- From states in which `P` holds the action leads to states in which `Q` does. Both may speak of
everything that was seen before, which the action adds to. -/
def Leads (P : List Event → σ → Prop) (m : Action σ ε β)
    (Q : Outcome ε β → List Event → σ → Prop) : Prop :=
  ∀ seen s, P seen s → Q (m s).outcome (seen ++ (m s).trace) (m s).state

def OrAgain (P : List Event → σ → Prop) (Q : Outcome ε β → List Event → σ → Prop) :
    Outcome ε (Turn β) → List Event → σ → Prop
  | .ok .again => P
  | .ok (.stop b) => Q (.ok b)
  | .error e => Q (.error e)
  | .panic m => Q (.panic m)

/-- What each turn keeps until the last one reaches something else, the turns reach. -/
theorem Leads.ends {P : List Event → σ → Prop} {turn : Action σ ε (Turn β)}
    {Q : Outcome ε β → List Event → σ → Prop} (h : Leads P turn (OrAgain P Q)) {s : σ}
    {r : Reply σ ε β} (hends : Ends turn s r) {seen : List Event} (hs : P seen s) :
    Q r.outcome (seen ++ r.trace) r.state := by
  induction hends generalizing seen with
  | again e _ ih =>
    have hturn := h seen _ hs
    rw [e] at hturn
    simpa using ih hturn
  | stop e | error e | panic e =>
    have hturn := h seen _ hs
    rwa [e] at hturn

theorem Leads.loop {P : List Event → σ → Prop} {turn : Action σ ε (Turn β)}
    {Q : Outcome ε β → List Event → σ → Prop} (h : Leads P turn (OrAgain P Q))
    {size : σ → Nat} {shrinks : turn.Shrinks size} : Leads P (Action.loop size turn shrinks) Q :=
  fun _ s hs => h.ends (loop_ends size turn shrinks s) hs

end Action

theorem EndingSource.sweep_ends {τ α : Type} (c : EndingSource σ α ε) (atEnd : Action τ ε β)
    (visit : α → Action τ ε (Turn β)) (s : σ × τ) :
    Action.Ends (Sweep.turn c.toSource atEnd visit) s (c.sweep atEnd visit s) :=
  Action.loop_ends (fun s : σ × τ => c.size s.1) _ (Sweep.turn_shrinks c atEnd visit) s

end PullCursor
