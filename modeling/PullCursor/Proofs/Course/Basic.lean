import PullCursor.Proofs.Combinator.Steps
import PullCursor.Proofs.Contract.Run
import PullCursor.Proofs.Lookahead.Steps

/-! The course of a cursor: the elements it will deliver, how they end, and what closing it reports.
A cursor takes a course if its calls answer as the course says, in whatever order they come. -/
namespace PullCursor

variable {σ τ κ α β ε ε' : Type}

/-- Without a fault the elements end, or closing succeeds. Closing reports the same at any moment
before the end, whether the elements have been asked for or not. -/
structure Course (α ε : Type) where
  elements : List α
  ending : Option ε
  closing : Option ε

namespace Course

def mapElements (f : List α → List β) (m : Course α ε) : Course β ε :=
  ⟨f m.elements, m.ending, m.closing⟩

def mapFaults (g : ε → ε') (m : Course α ε) : Course α ε' :=
  ⟨m.elements, m.ending.map g, m.closing.map g⟩

/-- Of a fault at the first element that is not wanted any more nothing is seen. -/
def take (n : Nat) (m : Course α ε) : Course α ε :=
  ⟨m.elements.take n, if n ≤ m.elements.length then none else m.ending, m.closing⟩

/-- The second course follows unless the first one ends in a fault or fails to close. -/
def append (m rest : Course α ε) : Course α ε :=
  match m.ending.or m.closing with
  | some e => ⟨m.elements, some e, m.closing.or rest.closing⟩
  | none => ⟨m.elements ++ rest.elements, rest.ending, m.closing.or rest.closing⟩

def concat (ms : List (Course α ε)) : Course α ε := ms.foldr append ⟨[], none, none⟩

def closed (m : Course α ε) : Outcome ε Unit :=
  match m.closing with
  | none => .ok ()
  | some e => .error e

def finished (m : Course α ε) : Course α ε := ⟨[], none, m.closing⟩

def step (m : Course α ε) : Operation → Answer α ε × Course α ε
  | .hasNext => match m.elements, m.ending with
    | _ :: _, _ => (.hasNext (.ok true), m)
    | [], none => (.hasNext (.ok false), m.finished)
    | [], some e => (.hasNext (.error e), m.finished)
  | .next => match m.elements, m.ending with
    | x :: rest, _ => (.next (.ok x), { m with elements := rest })
    | [], none => (.next (.error .exhausted), m.finished)
    | [], some e => (.next (.error (.failed e)), m.finished)
  | .pull => match m.elements, m.ending with
    | x :: rest, _ => (.pull (.ok (some x)), { m with elements := rest })
    | [], none => (.pull (.ok none), m.finished)
    | [], some e => (.pull (.error e), m.finished)
  | .close => (.close m.closed, ⟨[], none, none⟩)

def answers (m : Course α ε) : List Operation → List (Answer α ε)
  | [] => []
  | op :: rest => (m.step op).1 :: (m.step op).2.answers rest

inductive AnswersHasNext (close : Action σ ε Unit) (R : Course α ε → σ → Prop) :
    Course α ε → Reply σ ε Bool → Prop
  | element {x xs e k s t} : R ⟨x :: xs, e, k⟩ s →
      AnswersHasNext close R ⟨x :: xs, e, k⟩ ⟨.ok true, s, t⟩
  | ended {k s t} : (close s).outcome = closed (α := α) ⟨[], none, k⟩ →
      AnswersHasNext close R ⟨[], none, k⟩ ⟨.ok false, s, t⟩
  | failed {e k s t} : AnswersHasNext close R ⟨[], some e, k⟩ ⟨.error e, s, t⟩

inductive AnswersNext (R : Course α ε → σ → Prop) : Course α ε → Reply σ (Stop ε) α → Prop
  | element {x xs e k s t} : R ⟨xs, e, k⟩ s → AnswersNext R ⟨x :: xs, e, k⟩ ⟨.ok x, s, t⟩
  | ended {k s t} : AnswersNext R ⟨[], none, k⟩ ⟨.error .exhausted, s, t⟩
  | failed {e k s t} : AnswersNext R ⟨[], some e, k⟩ ⟨.error (.failed e), s, t⟩

inductive AnswersPull (close : Action σ ε Unit) (R : Course α ε → σ → Prop) :
    Course α ε → Reply σ ε (Option α) → Prop
  | element {x xs e k s t} : R ⟨xs, e, k⟩ s →
      AnswersPull close R ⟨x :: xs, e, k⟩ ⟨.ok (some x), s, t⟩
  | ended {k s t} : (close s).outcome = closed (α := α) ⟨[], none, k⟩ →
      AnswersPull close R ⟨[], none, k⟩ ⟨.ok none, s, t⟩
  | failed {e k s t} : AnswersPull close R ⟨[], some e, k⟩ ⟨.error e, s, t⟩

end Course

structure Source.Takes (c : Source σ α ε) (R : Course α ε → σ → Prop) : Prop where
  pull {m s} : R m s → Course.AnswersPull c.close R m (c.pull s)
  close {m s} : R m s → (c.close s).outcome = m.closed

structure Cursor.Takes (c : Cursor σ α ε) (R : Course α ε → σ → Prop) : Prop extends
    c.toSource.Takes R where
  hasNext {m s} : R m s → Course.AnswersHasNext c.close R m (c.hasNext s)
  next {m s} : R m s → Course.AnswersNext R m (c.next s)

variable {R : Course α ε → σ → Prop}

theorem Cursor.Takes.ofSteps {hasNext : Action σ ε Bool} {next : Action σ (Stop ε) α}
    {close : Action σ ε Unit} (hask : ∀ {m s}, R m s → Course.AnswersHasNext close R m (hasNext s))
    (hnext : ∀ {m s}, R m s → Course.AnswersNext R m (next s))
    (hclose : ∀ {m s}, R m s → (close s).outcome = m.closed) :
    (Cursor.ofSteps hasNext next close).Takes R where
  pull {m s} hm := by
    show Course.AnswersPull close R m (pullByNext hasNext next s)
    rw [pullByNext_eq]
    have hasked := hask hm
    generalize hasNext s = r at hasked ⊢
    cases hasked with
    | element hs =>
      have hhanded := hnext hs
      simp only
      generalize next _ = r' at hhanded ⊢
      cases hhanded with
      | element hs' => exact .element hs'
    | ended hs => exact .ended hs
    | failed => exact .failed
  close := hclose
  hasNext := hask
  next := hnext

theorem Course.AnswersPull.retrace {close : Action σ ε Unit} {m : Course α ε}
    {r : Reply σ ε (Option α)} (h : AnswersPull close R m r) (t : List Event) :
    AnswersPull close R m ⟨r.outcome, r.state, t⟩ := by
  cases h with
  | element hs => exact .element hs
  | ended hs => exact .ended hs
  | failed => exact .failed

inductive Course.Ahead (R : Course α ε → κ → Prop) : Course α ε → Lookahead κ α → Prop
  | idle {m inner} : R m inner → Ahead R m ⟨inner, .idle⟩
  | ready {x xs e k inner} : R ⟨xs, e, k⟩ inner → Ahead R ⟨x :: xs, e, k⟩ ⟨inner, .ready x⟩

theorem Lookahead.close_outcome (c : Source κ α ε) {inner : κ} {stage : Stage α}
    (hstage : stage.isClosed = false) :
    (Lookahead.close c ⟨inner, stage⟩).outcome = (c.close inner).outcome := by
  rw [Lookahead.close_open c hstage]

theorem Source.Takes.lookahead {c : Source κ α ε} {R : Course α ε → κ → Prop} (h : c.Takes R) :
    (Lookahead.cursor c).Takes (Course.Ahead R) := by
  refine .ofSteps (fun {m s} hm => ?_) (fun {m s} hm => ?_) fun {m s} hm => ?_
  · cases hm with
    | idle hinner =>
      rw [Lookahead.look_idle]
      have hpulled := h.pull hinner
      generalize c.pull _ = r at hpulled ⊢
      cases hpulled with
      | element hs => exact .element (.ready hs)
      | ended hs => exact .ended ((Lookahead.close_outcome c rfl).trans hs)
      | failed => exact .failed
    | ready hinner => exact .element (.ready hinner)
  · cases hm with
    | idle hinner =>
      rw [Lookahead.next_idle]
      have hpulled := h.pull hinner
      generalize c.pull _ = r at hpulled ⊢
      cases hpulled with
      | element hs => exact .element (.idle hs)
      | ended hs => exact .ended
      | failed => exact .failed
    | ready hinner => exact .element (.idle hinner)
  · cases hm with
    | idle hinner => exact (Lookahead.close_outcome c rfl).trans (h.close hinner)
    | ready hinner =>
      have hclosed := h.close hinner
      exact (Lookahead.close_outcome c rfl).trans hclosed

theorem Course.AnswersHasNext.reclose {close close' : Action σ ε Unit} {m : Course α ε}
    {r : Reply σ ε Bool} (h : AnswersHasNext close R m r)
    (hclose : ∀ s, (close' s).outcome = (close s).outcome) :
    AnswersHasNext close' R m r := by
  cases h with
  | element hs => exact .element hs
  | ended hs => exact .ended ((hclose _).trans hs)
  | failed => exact .failed

end PullCursor
