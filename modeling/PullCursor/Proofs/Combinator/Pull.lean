import PullCursor.Plan.Basic
import PullCursor.Proofs.Combinator.Steps

/-! To pull is to ask and then to take. Some combinators hand a pull straight on to the cursor below
them, where it may fail in either step; none of this can be told apart from the two steps. -/
namespace PullCursor

variable {σ τ α β ε ε' : Type}

namespace Action

theorem onFst_bind (m : Action σ ε α) (f : α → Action σ ε β) :
    ((m >>= f).onFst : Action (σ × τ) ε β) = m.onFst >>= fun a => (f a).onFst := by
  funext s
  rw [bind_apply]
  unfold onFst
  rw [bind_apply]
  rcases m s.1 with ⟨_ | _ | _, s', t⟩ <;> rfl

theorem handle_bind {m : Action σ ε α} {g : α → Action σ ε β} {f : ε → Action σ ε' β}
    {f' : ε → Action σ ε' α} (h : ∀ e, (f' e >>= fun a => (g a).handle f) = f e) :
    (m >>= g).handle f = m.handle f' >>= fun a => (g a).handle f := by
  funext s
  rw [bind_apply]
  unfold handle
  rw [bind_apply]
  rcases m s with ⟨a | e | _, s', t⟩
  · dsimp only
    rcases g a s' with ⟨_ | _ | _, s'', u⟩ <;> simp
  · have he := congrFun (h e) s'
    rw [bind_apply] at he
    dsimp only
    rw [← he]
    unfold handle
    rcases f' e s' with ⟨_ | _ | _, s'', u⟩ <;> simp
  · rfl

theorem failWith_bind {δ : Type} (answer : Action (History ε) δ ε') (wrap : ε' → δ)
    (f : α → Action (σ × History ε) δ β) :
    ((answer.failWith wrap : Action (σ × History ε) δ α) >>= f) = answer.failWith wrap := by
  funext s
  rw [bind_apply, failWith_apply, failWith_apply]
  cases (answer s.2).outcome <;> rfl

end Action

def Cursor.PullsByNext (c : Cursor σ α ε) : Prop := c.pull = pullByNext c.hasNext c.next

/-- What comes of answering a fault does not depend on the step that failed. -/
def Unbiased (answer : {δ : Type} → ε → Action (History ε) δ ε') : Prop :=
  ∀ e earlier, ∃ later t,
    (∃ e', ∀ {δ : Type}, answer (δ := δ) e earlier = ⟨.ok e', later, t⟩) ∨
      ∃ m, ∀ {δ : Type}, answer (δ := δ) e earlier = ⟨.panic m, later, t⟩

theorem Reword.unbiased (mark : String → ε → Event) (f : Callback ε ε') :
    Unbiased (Reword.answer mark f) := by
  intro e earlier
  refine ⟨earlier.add e, f.id.toList.map (mark · e), ?_⟩
  cases h : f.answer earlier e with
  | ok e' => exact .inl ⟨e', Callback.call_ok h⟩
  | error m => exact .inr ⟨m, Callback.call_panic h⟩

theorem Convert.unbiased (mark : String → ε → Event) (f : Callback ε (Except ε ε'))
    (declined : ε → ε') : Unbiased (Convert.answer mark f declined) := by
  intro e earlier
  refine ⟨earlier.add e, f.id.toList.map (mark · e), ?_⟩
  cases h : f.answer earlier e with
  | ok answer =>
    cases answer with
    | ok converted =>
      refine .inl ⟨converted, ?_⟩
      intro δ
      show Convert.answer mark f declined e earlier = _
      rw [Convert.answer, Action.bind_apply, Callback.call_ok h]
      simp
    | error kept =>
      refine .inl ⟨declined kept, ?_⟩
      intro δ
      show Convert.answer mark f declined e earlier = _
      rw [Convert.answer, Action.bind_apply, Callback.call_ok h]
      simp
  | error m =>
    refine .inr ⟨m, ?_⟩
    intro δ
    show Convert.answer mark f declined e earlier = _
    rw [Convert.answer, Action.bind_apply, Callback.call_panic h]

namespace Cursor.PullsByNext

variable {c : Cursor σ α ε}

theorem onFst (h : c.PullsByNext) :
    (c.pull.onFst : Action (σ × τ) ε _) = pullByNext c.hasNext.onFst c.next.onFst := by
  rw [h]
  unfold pullByNext
  rw [Action.onFst_bind]
  congr
  funext b
  cases b <;> rfl

theorem settle_map (c : Cursor σ α ε) (mark : String → α → Event) (f : Callback α β) :
    (c.next.onFst.mapOutcome Stop.settle >>= Map.lift mark f : Action (σ × History α) ε _) =
      (Map.cursor c mark f).next.mapOutcome Stop.settle := by
  funext s
  rw [Action.bind_apply]
  show _ = (⟨Stop.settle _, _, _⟩ : Reply _ ε (Option β))
  rw [Map.next_eq]
  unfold Action.mapOutcome Action.onFst
  dsimp only
  rcases c.next s.1 with ⟨x | (_ | _) | _, s', t⟩
  · simp only [Stop.settle, Map.lift, Action.map_apply, Action.onSnd]
    cases h : f.answer s.2 x with
    | ok y => rw [Callback.call_ok h, Callback.call_ok h]; rfl
    | error m => rw [Callback.call_panic h, Callback.call_panic h]; rfl
  · simp [Stop.settle, Map.lift]
  · rfl
  · rfl

theorem answering_next_eq (c : Cursor σ α ε) (answer : {δ : Type} → ε → Action (History ε) δ ε')
    (s : σ × History ε) :
    (c.answering answer).next s = match c.next s.1 with
      | ⟨.ok x, s', t⟩ => ⟨.ok x, (s', s.2), t⟩
      | ⟨.error .exhausted, s', t⟩ => ⟨.error .exhausted, (s', s.2), t⟩
      | ⟨.error (.failed e), s', t⟩ =>
          let r : Reply _ (Stop ε') α := (answer e).failWith .failed (s', s.2)
          ⟨r.outcome, r.state, t ++ r.trace⟩
      | ⟨.panic p, s', t⟩ => ⟨.panic p, (s', s.2), t⟩ := by
  show c.next.onFst.handle _ s = _
  rw [Action.handle_onFst]
  rcases c.next s.1 with ⟨_ | (_ | e) | _, s', t⟩
  · rfl
  · simp [Action.fail]
  · rfl
  · rfl

theorem settle_answering (c : Cursor σ α ε) {answer : {δ : Type} → ε → Action (History ε) δ ε'}
    (hanswer : Unbiased answer) :
    ((c.next.onFst.mapOutcome Stop.settle).handle fun e => (answer e).failWith id) =
      (c.answering answer).next.mapOutcome Stop.settle := by
  funext s
  show _ = (⟨Stop.settle _, _, _⟩ : Reply _ ε' (Option α))
  rw [answering_next_eq]
  unfold Action.handle Action.mapOutcome Action.onFst
  dsimp only
  rcases c.next s.1 with ⟨x | (_ | e) | _, s', t⟩
  · rfl
  · rfl
  · obtain ⟨later, u, ⟨e', he⟩ | ⟨m, hm⟩⟩ := hanswer e s.2
    · simp [Stop.settle, Action.failWith_apply, he]
    · simp [Stop.settle, Action.failWith_apply, hm]
  · rfl

theorem map (h : c.PullsByNext) (mark : String → α → Event) (f : Callback α β) :
    (Map.cursor c mark f).PullsByNext := by
  show c.pull.onFst >>= Map.lift mark f = pullByNext c.hasNext.onFst _
  rw [h.onFst]
  unfold pullByNext
  rw [bind_assoc]
  congr
  funext b
  cases b with
  | false => rfl
  | true => exact settle_map c mark f

theorem answering (h : c.PullsByNext) {answer : {δ : Type} → ε → Action (History ε) δ ε'}
    (hanswer : Unbiased answer) : (c.answering answer).PullsByNext := by
  show c.pull.onFst.handle _ = pullByNext (c.hasNext.onFst.handle _) (c.next.onFst.handle _)
  rw [h.onFst]
  unfold pullByNext
  rw [Action.handle_bind fun e => Action.failWith_bind ..]
  congr
  funext b
  cases b with
  | false => rfl
  | true => exact settle_answering c hanswer

end Cursor.PullsByNext

namespace Plan

/-- A hand-written leaf that a pull reaches through layers that hand it on pulls by its two other
steps. Those further down may pull in their own way: a lookahead above them pulls them in any case,
and a limit in none. -/
def PullsByNext : Plan → Prop
  | .manual _ _ ownPull => ownPull = false
  | .map _ p | .reword _ p | .convert _ p | .boxed p => p.PullsByNext
  | _ => True

theorem PullsByNext.cursor {p : Plan} (h : p.PullsByNext) : p.cursor.toCursor.PullsByNext := by
  -- Only these layers hand a pull on; all others pull by their two steps in the first place.
  induction p with
  | manual id scripts ownPull =>
    cases ownPull with
    | false => rfl
    | true => cases h
  | map f p ih => exact (ih h).map .applied f
  | reword f p ih => exact (ih h).answering (Reword.unbiased .reworded f)
  | convert f p ih => exact (ih h).answering (Convert.unbiased .reworded f .unconverted)
  | boxed p ih => exact ih h
  | _ => rfl

/-- In every state of a tree, reached or not, a pull comes to the same as asking for an element and
taking it if there is one: the same answer, the same calls on leaves and functions, in order and
with the same arguments, and the same state of every part, panics included. So no caller can tell
the tree from one that has no pull of its own. -/
theorem pull_is_two_steps {p : Plan} (h : p.PullsByNext) :
    p.cursor.toCursor = .ofSteps p.cursor.hasNext p.cursor.next p.cursor.close ∧
    ∀ s, p.cursor.pull s = match p.cursor.hasNext s with
      | ⟨.ok true, s', t⟩ =>
          let r := p.cursor.next s'
          ⟨match r.outcome with
            | .ok x => .ok (some x)
            | .error .exhausted => .ok none
            | .error (.failed e) => .error e
            | .panic m => .panic m, r.state, t ++ r.trace⟩
      | ⟨.ok false, s', t⟩ => ⟨.ok none, s', t⟩
      | ⟨.error e, s', t⟩ => ⟨.error e, s', t⟩
      | ⟨.panic m, s', t⟩ => ⟨.panic m, s', t⟩ := by
  have hpull : p.cursor.pull = pullByNext p.cursor.hasNext p.cursor.next := h.cursor
  constructor
  · rw [Cursor.ofSteps, ← hpull]
  · intro s
    rw [hpull, pullByNext_eq]
    rcases p.cursor.hasNext s with ⟨(_ | _) | _ | _, s', t⟩
    · rfl
    · show (⟨Stop.settle _, _, _⟩ : Reply _ _ (Option Element)) = ⟨_, _, _⟩
      cases (p.cursor.next s').outcome with
      | error stop => cases stop <;> rfl
      | _ => rfl
    · rfl
    · rfl

theorem pull_is_two_steps_failing :
    let leaf : Plan := .manual "leaf" ⟨[.value (.bool true)], [.fail .release], [], []⟩ false
    let p : Plan := .map ⟨some "same", fun _ x => .ok x⟩
      (.reword ⟨some "count", fun earlier _ => .ok (.element earlier.count)⟩ (.boxed leaf))
    p.PullsByNext ∧ (p.cursor.pull p.start).outcome = .error (.element 0) ∧
      (p.cursor.pull p.start).trace =
        [.called "leaf" .hasNext, .called "leaf" .next, .reworded "count" .release] := by
  intro leaf p
  have hp : p.PullsByNext := rfl
  rw [(pull_is_two_steps hp).2 p.start]
  exact ⟨hp, rfl, rfl⟩

end Plan

end PullCursor
