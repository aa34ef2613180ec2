import PullCursor.Cursor
import PullCursor.Combinator.Mapping
import PullCursor.Proofs.Loop

/-! Rules that calls observe. A rule speaks of the state before a call, of what the call did, and of
the state after it. If it says no more of two calls in a row than of each, then whatever is made of
calls that observe it observes it too. -/
namespace PullCursor

variable {σ τ α β ε ε' : Type}

namespace Outcome

def isPanic : Outcome ε α → Bool
  | .panic _ => true
  | _ => false

theorem isPanic_eq_false {o : Outcome ε α} : o.isPanic = false ↔ ∀ msg, o ≠ .panic msg := by
  cases o <;> simp [isPanic]

@[simp] theorem isPanic_map (f : α → β) (o : Outcome ε α) : (o.map f).isPanic = o.isPanic := by
  cases o <;> rfl

@[simp] theorem isPanic_mapError (f : ε → ε') (o : Outcome ε α) :
    (o.mapError f).isPanic = o.isPanic := by
  cases o <;> rfl

@[simp] theorem isPanic_caught (o : Outcome ε α) :
    (o.caught : Outcome ε' (Except ε α)).isPanic = o.isPanic := by
  cases o <;> rfl

@[simp] theorem isPanic_settle (o : Outcome (Stop ε) α) : (Stop.settle o).isPanic = o.isPanic := by
  rcases o with _ | (_ | _) | _ <;> rfl

end Outcome

/-- The state before, whether there was a panic, what could be seen, and the state after. -/
def Rule (σ : Type) : Type := σ → Bool → List Event → σ → Prop

namespace Rule

def fst (rule : Rule σ) : Rule (σ × τ) := fun s panicked t s' => rule s.1 panicked t s'.1

class Composes (rule : Rule σ) : Prop where
  nil (s : σ) : rule s false [] s
  append {s s' s'' : σ} {t t' : List Event} {panicked : Bool} :
    rule s false t s' → rule s' panicked t' s'' → rule s panicked (t ++ t') s''

variable {rule : Rule σ}

instance [Composes rule] : Composes (rule.fst : Rule (σ × τ)) where
  nil s := Composes.nil s.1
  append h h' := (Composes.append h h' : rule _ _ _ _)

end Rule

open Rule (Composes)

namespace Action

variable {rule : Rule σ}

def Observes (rule : Rule σ) (m : Action σ ε α) : Prop :=
  ∀ s, rule s (m s).outcome.isPanic (m s).trace (m s).state

def Spares (rule : Rule σ) (m : Action τ ε α) : Prop :=
  ∀ s v, rule s (m v).outcome.isPanic (m v).trace s

theorem Observes.mapOutcome {m : Action σ ε α} {f : Outcome ε α → Outcome ε' β}
    (hm : m.Observes rule) (hf : ∀ o, (f o).isPanic = o.isPanic) :
    (m.mapOutcome f).Observes rule := by
  intro s
  have h := hm s
  rw [← hf] at h
  exact h

theorem Observes.caught {m : Action σ ε α} (hm : m.Observes rule) :
    (m.caught : Action σ ε' (Except ε α)).Observes rule :=
  hm.mapOutcome Outcome.isPanic_caught

theorem Observes.onFst {m : Action σ ε α} (hm : m.Observes rule) :
    (m.onFst : Action (σ × τ) ε α).Observes rule.fst := fun s => hm s.1

theorem Spares.onSnd {m : Action τ ε α} (hm : m.Spares rule) :
    (m.onSnd : Action (σ × τ) ε α).Observes rule.fst := fun s => hm s.1 s.2

theorem Observes.modify {f : σ → σ} (h : ∀ s, rule s false [] (f s)) :
    (Action.modify f : Action σ ε Unit).Observes rule := h

theorem Observes.emit {t : List Event} (h : ∀ s, rule s false t s) :
    (Action.emit t : Action σ ε Unit).Observes rule := h

variable [Composes rule]

theorem Observes.pure (a : α) : (Pure.pure a : Action σ ε α).Observes rule :=
  fun s => Composes.nil s

theorem Observes.fail (e : ε) : (Action.fail e : Action σ ε α).Observes rule :=
  fun s => Composes.nil s

theorem Observes.get : (Action.get : Action σ ε σ).Observes rule := fun s => Composes.nil s

theorem Observes.bind {m : Action σ ε α} {f : α → Action σ ε β} (hm : m.Observes rule)
    (hf : ∀ a, (f a).Observes rule) : (m >>= f).Observes rule := by
  intro s
  have h := hm s
  rw [bind_apply]
  rcases e : m s with ⟨a | _ | _, s', t⟩ <;> rw [e] at h
  · exact Composes.append h (hf a s')
  · exact h
  · exact h

theorem Observes.handle {m : Action σ ε α} {f : ε → Action σ ε' α} (hm : m.Observes rule)
    (hf : ∀ e, (f e).Observes rule) : (m.handle f).Observes rule := by
  intro s
  have h := hm s
  unfold Action.handle
  -- The second call runs after a fault only, so what was observed up to then was no panic.
  rcases e : m s with ⟨_ | e₁ | _, s', t⟩ <;> rw [e] at h
  · exact h
  · exact Composes.append h (hf e₁ s')
  · exact h

theorem Observes.ends {turn : Action σ ε (Turn β)} (hturn : turn.Observes rule) {s : σ}
    {r : Reply σ ε β} (h : Ends turn s r) : rule s r.outcome.isPanic r.trace r.state := by
  have hleads : Leads (fun seen s' => rule s false seen s') turn
      (OrAgain (fun seen s' => rule s false seen s')
        fun o seen s' => rule s o.isPanic seen s') := by
    intro seen s' hs'
    have h := Composes.append hs' (hturn s')
    rcases e : (turn s').outcome with (_ | _) | _ | _ <;> rw [e] at h <;> exact h
  exact hleads.ends h (Composes.nil s)

theorem Observes.loop {turn : Action σ ε (Turn β)} {size : σ → Nat} {shrinks : turn.Shrinks size}
    (hturn : turn.Observes rule) : (Action.loop size turn shrinks).Observes rule :=
  fun s => hturn.ends (loop_ends size turn shrinks s)

theorem Observes.pullByNext {hasNext : Action σ ε Bool} {next : Action σ (Stop ε) α}
    (hask : hasNext.Observes rule) (hnext : next.Observes rule) :
    (PullCursor.pullByNext hasNext next).Observes rule := by
  apply hask.bind
  intro more
  cases more with
  | false => exact .pure none
  | true => exact hnext.mapOutcome Outcome.isPanic_settle

theorem Observes.turn {c : Source σ α ε} (hpull : c.pull.Observes rule) {atEnd : Action τ ε β}
    {visit : α → Action τ ε (Turn β)} (hend : atEnd.Spares rule)
    (hvisit : ∀ x, (visit x).Spares rule) : (Sweep.turn c atEnd visit).Observes rule.fst := by
  apply hpull.onFst.bind
  intro x
  cases x with
  | none => exact hend.onSnd.bind fun _ => .pure _
  | some x => exact (hvisit x).onSnd

theorem Observes.sweep {c : EndingSource σ α ε} (hpull : c.pull.Observes rule)
    {atEnd : Action τ ε β} {visit : α → Action τ ε (Turn β)} (hend : atEnd.Spares rule)
    (hvisit : ∀ x, (visit x).Spares rule) : (c.sweep atEnd visit).Observes rule.fst :=
  (hpull.turn hend hvisit).loop

theorem Spares.failWith {δ : Type} {answer : Action (History ε) δ ε'} (h : answer.Spares rule)
    (wrap : ε' → δ) : (answer.failWith wrap : Action (σ × History ε) δ β).Observes rule.fst :=
  h.onSnd.bind fun _ => .fail _

end Action

end PullCursor
