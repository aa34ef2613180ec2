import PullCursor.Plan.Basic
import PullCursor.Proofs.Contract.Run

/-! Every tree keeps the contract of a cursor, if each hand-written leaf in it stands below a
lookahead. What such a leaf says of itself does not matter: the lookahead asks it one thing at a
time and believes it once. -/
namespace PullCursor

variable {σ α β ε ε' : Type}

def Cursor.Delivers (c : Cursor σ α ε) : Prop :=
  ∀ s, (c.hasNext s).outcome = .ok true → ∃ x, (c.next (c.hasNext s).state).outcome = .ok x

namespace Cursor.Delivers

variable {c : Cursor σ α ε}

theorem lookahead {κ : Type} (c : Source κ α ε) : (Lookahead.cursor c).Delivers := by
  intro s hyes
  have hs := Lookahead.look_settles c s
  change (Lookahead.look c s).outcome = _ at hyes
  rw [hyes] at hs
  obtain ⟨x, hx⟩ := hs
  refine ⟨x, ?_⟩
  show (Lookahead.next c (Lookahead.look c s).state).outcome = _
  generalize (Lookahead.look c s).state = s' at hx ⊢
  obtain ⟨inner, stage⟩ := s'
  subst hx
  rfl

theorem map (h : c.Delivers) (mark : String → α → Event) {f : Callback α β} (hf : f.Returns) :
    (Map.cursor c mark f).Delivers := by
  intro s hyes
  obtain ⟨x, hx⟩ := h s.1 hyes
  obtain ⟨y, hy⟩ := hf s.2 x
  refine ⟨y, ?_⟩
  rw [Map.next_eq]
  simp only [Map.cursor, Action.onFst]
  rcases e : c.next (c.hasNext s.1).state with ⟨x' | _ | _, s', t⟩ <;> rw [e] at hx <;> cases hx
  simp only [Callback.call_ok hy]

theorem answering (h : c.Delivers) (answer : {δ : Type} → ε → Action (History ε) δ ε') :
    (c.answering answer).Delivers := by
  intro s hyes
  have hecho := c.answering_hasNext answer
  obtain ⟨x, hx⟩ := h s.1 (hecho.of_ok hyes)
  refine ⟨x, ?_⟩
  rw [← hecho.fst] at hx
  exact congrArg Reply.outcome ((c.answering_next answer).ok (congrArg (Reply.mk · _ _) hx))

theorem limit (h : c.Delivers) : (Budget.cursor c).Delivers := by
  intro s hyes
  change (Budget.hasNext c s).outcome = _ at hyes
  show ∃ x, (Budget.next c (Budget.hasNext c s).state).outcome = _
  by_cases hzero : s.2 = 0
  · rw [Budget.hasNext_of_zero c hzero] at hyes
    cases hyes
  · rw [Budget.hasNext_of_pos c hzero] at hyes ⊢
    obtain ⟨x, hx⟩ := h s.1 hyes
    refine ⟨x, ?_⟩
    dsimp only
    rw [Budget.next_of_pos c (s := ((c.hasNext s.1).state, s.2)) hzero]
    rcases e : c.next (c.hasNext s.1).state with ⟨x' | _ | _, s', t⟩ <;> rw [e] at hx <;> cases hx
    rfl

end Cursor.Delivers

namespace Plan

/-- No hand-written leaf is reached from the root without passing a lookahead. -/
def Guarded : Plan → Prop
  | .manual _ _ _ => False
  | .map _ p | .reword _ p | .convert _ p | .limit _ p | .boxed p => p.Guarded
  | _ => True

/-- No function on elements above the lookaheads panics. Those below may. -/
def Calm : Plan → Prop
  | .map f p => f.Returns ∧ p.Calm
  | .reword _ p | .convert _ p | .limit _ p | .boxed p => p.Calm
  | _ => True

theorem honours {p : Plan} (h : p.Guarded) :
    ∃ finished shut, p.cursor.toCursor.Honours finished shut := by
  -- Only the way down to the first lookahead matters, which honours the contract whatever is below.
  induction p with
  | nothing => exact ⟨_, _, nothing_honours⟩
  | probe orders xs => exact ⟨_, _, probe_honours orders⟩
  | manual id scripts ownPull => exact h.elim
  | map f p ih =>
    obtain ⟨finished, shut, hp⟩ := ih h
    exact ⟨_, _, hp.map .applied f⟩
  | reword f p ih =>
    obtain ⟨finished, shut, hp⟩ := ih h
    exact ⟨_, _, hp.answering (Reword.answer .reworded f)⟩
  | convert f p ih =>
    obtain ⟨finished, shut, hp⟩ := ih h
    exact ⟨_, _, hp.answering (Convert.answer .reworded f .unconverted)⟩
  | limit n p ih =>
    obtain ⟨finished, shut, hp⟩ := ih h
    exact ⟨_, _, hp.limit⟩
  | boxed p ih => exact ih h
  | _ => exact ⟨_, _, Lookahead.honours _⟩

theorem delivers {p : Plan} (h : p.Guarded) (hcalm : p.Calm) : p.cursor.toCursor.Delivers := by
  induction p with
  | nothing => exact nofun
  | manual id scripts ownPull => exact h.elim
  | map f p ih => exact (ih h hcalm.2).map .applied hcalm.1
  | reword f p ih => exact (ih h hcalm).answering (Reword.answer .reworded f)
  | convert f p ih => exact (ih h hcalm).answering (Convert.answer .reworded f .unconverted)
  | limit n p ih => exact (ih h hcalm).limit
  | boxed p ih => exact ih h hcalm
  | _ => exact .lookahead _

/-- At any moment of any run: asking twice gives the same answer, and the second time nothing
happens; the next element is there if the answer was yes, and is not if it was no. After an answer
that there are no more elements, or a failure, or a close, all answers are that there are no more,
and unless a close is among them nothing happens. After a close each close succeeds. -/
theorem contract_kept {p : Plan} (h : p.Guarded) (ops later : List Operation) :
    let now := p.cursor.toCursor.run p.start ops
    let asked := p.cursor.hasNext now.state
    let after := p.cursor.toCursor.run now.state later
    (∀ b, asked.outcome = .ok b →
      p.cursor.hasNext asked.state = ⟨.ok b, asked.state, []⟩ ∧
      (b = false → p.cursor.next asked.state = ⟨.error .exhausted, asked.state, []⟩) ∧
      (b = true → ∀ e, (p.cursor.next asked.state).outcome ≠ .error e) ∧
      (b = true → p.Calm → ∃ x, (p.cursor.next asked.state).outcome = .ok x)) ∧
    ((∃ a ∈ now.answers, a.IsFinal) →
      (∀ a ∈ after.answers, a.AtEnd) ∧
      (.close ∉ later → after.state = now.state ∧ after.trace = [])) ∧
    (.close ∈ ops → ∀ o, .close o ∈ after.answers → o = .ok ()) := by
  obtain ⟨finished, shut, hlaw⟩ := honours h
  intro now asked after
  refine ⟨fun b hb => ⟨hlaw.ask_again hb, ?_, ?_, ?_⟩, fun hfinal => ?_, fun hclosed => ?_⟩
  · rintro rfl
    exact hlaw.over_next (hlaw.ask_no hb)
  · rintro rfl
    exact hlaw.next_yes hb
  · rintro rfl hcalm
    exact delivers h hcalm now.state hb
  · have hover := hlaw.run_final hfinal
    exact ⟨hlaw.run_over hover later, hlaw.run_still hover⟩
  · exact hlaw.run_shut (hlaw.run_closed hclosed) later

theorem contract_kept_above_restless_leaf :
    let p : Plan := .limit 3 (.peekable
      (.manual "leaf" ⟨[], [], [], [.finish, .value .null]⟩ true))
    let now := p.cursor.toCursor.run p.start [.pull]
    p.Guarded ∧ now.answers = [.pull (.ok none)] ∧
      ∀ a ∈ (p.cursor.toCursor.run now.state [.hasNext, .next, .pull]).answers, a.AtEnd := by
  intro p now
  have hguard : p.Guarded := trivial
  have hnow : now.answers = [.pull (.ok none)] := rfl
  have hfinal : ∃ a ∈ now.answers, a.IsFinal := by
    rw [hnow]
    exact ⟨_, List.mem_singleton_self _, .inl rfl⟩
  exact ⟨hguard, hnow, ((contract_kept hguard [.pull] _).2.1 hfinal).1⟩

end Plan

end PullCursor
