import PullCursor.Leaf.Items
import PullCursor.Leaf.Probe
import PullCursor.Proofs.Combinator.Steps
import PullCursor.Proofs.Lookahead.Steps

/-! The contract of a cursor. Its answer to whether there is a next element stays true until that
element is taken, and once it has come to an end, in whatever way, it stays there and touches
nothing any more. The law is about every state, reached or not, and panics may have come before. -/
namespace PullCursor

variable {σ τ α β ε ε' : Type}

/-- Asking and taking fit together; no element comes any more from a `finished` state. -/
structure StepLaw (hasNext : Action σ ε Bool) (next : Action σ (Stop ε) α) (finished : σ → Prop) :
    Prop where
  ask_again {s b} : (hasNext s).outcome = .ok b →
    hasNext (hasNext s).state = ⟨.ok b, (hasNext s).state, []⟩
  ask_no {s} : (hasNext s).outcome = .ok false → finished (hasNext s).state
  ask_fault {s e} : (hasNext s).outcome = .error e → finished (hasNext s).state
  next_yes {s} : (hasNext s).outcome = .ok true →
    ∀ e, (next (hasNext s).state).outcome ≠ .error e
  next_error {s e} : (next s).outcome = .error e → finished (next s).state
  over_ask {s} : finished s → hasNext s = ⟨.ok false, s, []⟩
  over_next {s} : finished s → next s = ⟨.error .exhausted, s, []⟩

structure PullLaw (pull : Action σ ε (Option α)) (finished : σ → Prop) : Prop where
  pull_none {s} : (pull s).outcome = .ok none → finished (pull s).state
  pull_fault {s e} : (pull s).outcome = .error e → finished (pull s).state
  over_pull {s} : finished s → pull s = ⟨.ok none, s, []⟩

/-- A close ends in a state that is shut, even when it fails; a second one finds nothing to do. -/
structure CloseLaw (close : Action σ ε Unit) (finished shut : σ → Prop) : Prop where
  close_shut (s) : shut (close s).state
  shut_over {s} : shut s → finished s
  shut_close {s} : shut s → (close s).outcome = .ok () ∧ (close s).state = s

structure Cursor.Honours (c : Cursor σ α ε) (finished shut : σ → Prop) : Prop extends
  StepLaw c.hasNext c.next finished, PullLaw c.pull finished, CloseLaw c.close finished shut

variable {finished shut : σ → Prop}

theorem StepLaw.pullByNext {hasNext : Action σ ε Bool} {next : Action σ (Stop ε) α}
    (h : StepLaw hasNext next finished) :
    PullLaw (PullCursor.pullByNext hasNext next) finished := by
  -- After a yes the second step delivers or panics, and the pull does the same.
  have hyes : ∀ {s}, (hasNext s).outcome = .ok true → ∀ o : Outcome ε (Option α),
      Stop.settle (next (hasNext s).state).outcome = o → o ≠ .ok none ∧ ∀ e, o ≠ .error e := by
    rintro s hs o rfl
    have hnext := h.next_yes hs
    cases hout : (next (hasNext s).state).outcome with
    | ok x => exact ⟨nofun, nofun⟩
    | error e => exact absurd hout (hnext e)
    | panic m => exact ⟨nofun, nofun⟩
  constructor
  · intro s
    rw [pullByNext_eq]
    rcases e : hasNext s with ⟨(_ | _) | _ | _, s', t⟩
    · intro _
      simpa [e] using h.ask_no (congrArg Reply.outcome e)
    · intro hnone
      exact absurd rfl (hyes (congrArg Reply.outcome e) _ (by rw [e]; exact hnone)).1
    · exact nofun
    · exact nofun
  · intro s e₁
    rw [pullByNext_eq]
    rcases e : hasNext s with ⟨(_ | _) | _ | _, s', t⟩
    · exact nofun
    · intro hfault
      exact absurd rfl ((hyes (congrArg Reply.outcome e) _ (by rw [e]; exact hfault)).2 e₁)
    · intro _
      simpa [e] using h.ask_fault (congrArg Reply.outcome e)
    · exact nofun
  · intro s hs
    rw [pullByNext_eq, h.over_ask hs]

theorem Cursor.Honours.ofSteps {hasNext : Action σ ε Bool} {next : Action σ (Stop ε) α}
    {close : Action σ ε Unit} (h : StepLaw hasNext next finished)
    (hclose : CloseLaw close finished shut) :
    (Cursor.ofSteps hasNext next close).Honours finished shut :=
  { h, h.pullByNext, hclose with }

namespace Lookahead

variable {κ : Type} (c : Source κ α ε)

theorem stepLaw : StepLaw (look c) (next c) fun s => s.stage.isOver where
  ask_again {s b} h := by
    have hs := look_settles c s
    rw [h] at hs
    cases b with
    | false => exact look_over c hs
    | true =>
      generalize (look c s).state = s' at hs ⊢
      obtain ⟨inner, stage⟩ := s'
      obtain ⟨x, rfl⟩ := hs
      exact look_ready c inner x
  ask_no {s} h := by simpa [h] using look_settles c s
  ask_fault {s e} h := by simpa [h] using look_settles c s
  next_yes {s} h := by
    have hs := look_settles c s
    rw [h] at hs
    generalize (look c s).state = s' at hs ⊢
    obtain ⟨inner, stage⟩ := s'
    obtain ⟨x, rfl⟩ := hs
    exact nofun
  next_error {s e} h := by simpa [h] using next_settles c s
  over_ask h := look_over c h
  over_next h := next_over c h

theorem closeLaw : CloseLaw (close c) (fun s => s.stage.isOver) fun s => s.stage.isClosed where
  close_shut s := by
    cases h : s.stage.isClosed with
    | true => rw [close_again c h]; exact h
    | false => rw [close_open c h]; rfl
  shut_over h := Stage.isOver_of_isClosed h
  shut_close h := by
    rw [close_again c h]
    exact ⟨rfl, rfl⟩

theorem honours :
    (cursor c).Honours (fun s => s.stage.isOver) fun s => s.stage.isClosed :=
  .ofSteps (stepLaw c) (closeLaw c)

end Lookahead

theorem probe_honours (o : Leaf.ProbeOrders) :
    (Leaf.probe (α := α) o).toCursor.Honours (fun s => s.stage.isOver)
      fun s => s.stage.isClosed := by
  refine .ofSteps (Lookahead.stepLaw _) ?_
  have h := Lookahead.closeLaw (Leaf.Probe.source (α := α) o).toSource
  exact ⟨h.close_shut, h.shut_over, h.shut_close⟩

theorem nothing_honours :
    (Leaf.nothing (α := α) (ε := ε)).toCursor.Honours (fun _ => True) fun _ => True := by
  constructor <;> constructor <;> intros <;> simp_all [Leaf.nothing, Action.fail]

namespace Cursor.Honours

variable {c : Cursor σ α ε} (h : c.Honours finished shut)
include h

theorem map (mark : String → α → Event) (f : Callback α β) :
    (Map.cursor c mark f).Honours (fun s => finished s.1) fun s => shut s.1 where
  ask_again {s b} hb := by
    have hagain := h.ask_again hb
    simp only [Map.cursor, Action.onFst]
    rw [hagain]
  ask_no hno := h.ask_no hno
  ask_fault he := h.ask_fault he
  next_yes hyes e he := h.next_yes hyes e (Map.next_error.mp he)
  next_error he := by
    rw [Map.next_fst]
    exact h.next_error (Map.next_error.mp he)
  over_ask {s} hs := by
    simp only [Map.cursor, Action.onFst]
    rw [h.over_ask hs]
  over_next hs := by rw [Map.next_eq, h.over_next hs]
  pull_none hnone := by
    rw [Map.pull_fst]
    exact h.pull_none (Map.pull_none.mp hnone)
  pull_fault he := by
    rw [Map.pull_fst]
    exact h.pull_fault (Map.pull_error.mp he)
  over_pull hs := by rw [Map.pull_eq, h.over_pull hs]
  close_shut s := h.close_shut s.1
  shut_over hs := h.shut_over hs
  shut_close hs := by
    obtain ⟨hout, hstate⟩ := h.shut_close hs
    exact ⟨hout, Prod.ext hstate rfl⟩

theorem answering (answer : {δ : Type} → ε → Action (History ε) δ ε') :
    (c.answering answer).Honours (fun s => finished s.1) fun s => shut s.1 where
  ask_again {s b} hb := by
    have hecho := c.answering_hasNext answer
    have hb' := hecho.of_ok hb
    rw [hecho.ok (s := s) (congrArg (Reply.mk · _ _) hb')]
    exact hecho.ok (h.ask_again hb')
  ask_no {s} hno := by
    have hecho := c.answering_hasNext answer
    rw [hecho.fst]
    exact h.ask_no (hecho.of_ok hno)
  ask_fault {s e} he := by
    have hecho := c.answering_hasNext answer
    obtain ⟨e', he'⟩ := hecho.of_error he
    rw [hecho.fst]
    exact h.ask_fault he'
  next_yes {s} hyes e he := by
    have hecho := c.answering_hasNext answer
    obtain ⟨e', he'⟩ := (c.answering_next answer).of_error he
    rw [hecho.fst] at he'
    exact h.next_yes (hecho.of_ok hyes) e' he'
  next_error {s e} he := by
    have hecho := c.answering_next answer
    obtain ⟨e', he'⟩ := hecho.of_error he
    rw [hecho.fst]
    exact h.next_error he'
  over_ask hs := (c.answering_hasNext answer).ok (h.over_ask hs)
  over_next hs := c.answering_exhausted answer (h.over_next hs)
  pull_none {s} hnone := by
    have hecho := c.answering_pull answer
    rw [hecho.fst]
    exact h.pull_none (hecho.of_ok hnone)
  pull_fault {s e} he := by
    have hecho := c.answering_pull answer
    obtain ⟨e', he'⟩ := hecho.of_error he
    rw [hecho.fst]
    exact h.pull_fault he'
  over_pull hs := (c.answering_pull answer).ok (h.over_pull hs)
  close_shut s := by
    rw [(c.answering_close answer).fst]
    exact h.close_shut s.1
  shut_over hs := h.shut_over hs
  shut_close {s} hs := by
    obtain ⟨hout, hstate⟩ := h.shut_close hs
    rw [(c.answering_close answer).ok (s := s) (congrArg (Reply.mk · _ _) hout)]
    exact ⟨rfl, Prod.ext hstate rfl⟩

theorem limit_stepLaw :
    StepLaw (Budget.hasNext c) (Budget.next c) fun s => s.2 = 0 ∨ finished s.1 where
  ask_again {s b} hb := by
    by_cases hzero : s.2 = 0
    · rw [Budget.hasNext_of_zero c hzero] at hb ⊢
      rw [Budget.hasNext_of_zero c hzero]
      exact congrArg (Reply.mk · _ _) hb
    · rw [Budget.hasNext_of_pos c hzero] at hb ⊢
      dsimp only at hb ⊢
      rw [Budget.hasNext_of_pos c (s := ((c.hasNext s.1).state, s.2)) hzero, h.ask_again hb]
  ask_no {s} hno := by
    by_cases hzero : s.2 = 0
    · rw [Budget.hasNext_of_zero c hzero]
      exact .inl hzero
    · rw [Budget.hasNext_of_pos c hzero] at hno ⊢
      exact .inr (h.ask_no hno)
  ask_fault {s e} he := by
    by_cases hzero : s.2 = 0
    · rw [Budget.hasNext_of_zero c hzero]
      exact .inl hzero
    · rw [Budget.hasNext_of_pos c hzero] at he ⊢
      exact .inr (h.ask_fault he)
  next_yes {s} hyes e := by
    by_cases hzero : s.2 = 0
    · rw [Budget.hasNext_of_zero c hzero] at hyes
      cases hyes
    · rw [Budget.hasNext_of_pos c hzero] at hyes ⊢
      have hnext := h.next_yes hyes
      dsimp only
      rw [Budget.next_of_pos c (s := ((c.hasNext s.1).state, s.2)) hzero]
      rcases e₁ : c.next (c.hasNext s.1).state with ⟨_ | e' | _, s', t⟩
      · exact nofun
      · exact absurd (congrArg Reply.outcome e₁) (hnext e')
      · exact nofun
  next_error {s e} he := by
    by_cases hzero : s.2 = 0
    · rw [Budget.next_of_zero c hzero]
      exact .inl hzero
    · rw [Budget.next_of_pos c hzero] at he ⊢
      rcases e₁ : c.next s.1 with ⟨_ | e' | _, s', t⟩ <;> rw [e₁] at he
      · cases he
      · have hover := h.next_error (congrArg Reply.outcome e₁)
        rw [e₁] at hover
        exact .inr hover
      · cases he
  over_ask {s} hs := by
    by_cases hzero : s.2 = 0
    · exact Budget.hasNext_of_zero c hzero
    · rw [Budget.hasNext_of_pos c hzero, h.over_ask (hs.resolve_left hzero)]
  over_next {s} hs := by
    by_cases hzero : s.2 = 0
    · exact Budget.next_of_zero c hzero
    · rw [Budget.next_of_pos c hzero, h.over_next (hs.resolve_left hzero)]

theorem limit :
    (Budget.cursor c).Honours (fun s => s.2 = 0 ∨ finished s.1) fun s => s.2 = 0 ∧ shut s.1 := by
  refine .ofSteps h.limit_stepLaw ?_
  constructor
  · intro s
    rw [Budget.close_eq]
    exact ⟨rfl, h.close_shut s.1⟩
  · exact fun hs => .inl hs.1
  · intro s hs
    obtain ⟨hout, hstate⟩ := h.shut_close hs.2
    rw [Budget.close_eq]
    exact ⟨hout, Prod.ext hstate hs.1.symm⟩

end Cursor.Honours

end PullCursor
