import PullCursor.Combinator.Budget
import PullCursor.Combinator.Mapping
import PullCursor.Combinator.Selection

/-! What the operations of the combinators without a buffer do, read off the answer of the cursor
below. -/
namespace PullCursor

variable {σ α β ε ε' : Type}

theorem Action.handle_onFst {τ : Type} (m : Action σ ε α) (f : ε → Action (σ × τ) ε' α)
    (s : σ × τ) :
    m.onFst.handle f s = match m s.1 with
      | ⟨.ok a, s', t⟩ => ⟨.ok a, (s', s.2), t⟩
      | ⟨.error e, s', t⟩ =>
          let r := f e (s', s.2)
          ⟨r.outcome, r.state, t ++ r.trace⟩
      | ⟨.panic p, s', t⟩ => ⟨.panic p, (s', s.2), t⟩ := by
  unfold Action.handle Action.onFst
  rcases m s.1 with ⟨_ | _ | _, s', t⟩ <;> rfl

theorem pullByNext_eq (hasNext : Action σ ε Bool) (next : Action σ (Stop ε) α) (s : σ) :
    pullByNext hasNext next s = match hasNext s with
      | ⟨.ok true, s', t⟩ =>
          ⟨Stop.settle (next s').outcome, (next s').state, t ++ (next s').trace⟩
      | ⟨.ok false, s', t⟩ => ⟨.ok none, s', t⟩
      | ⟨.error e, s', t⟩ => ⟨.error e, s', t⟩
      | ⟨.panic p, s', t⟩ => ⟨.panic p, s', t⟩ := by
  unfold pullByNext
  rw [Action.bind_apply]
  rcases hasNext s with ⟨(_ | _) | _ | _, s', t⟩
  · simp
  · rfl
  · rfl
  · rfl

theorem Action.failWith_apply {δ : Type} (answer : Action (History ε) δ ε') (wrap : ε' → δ)
    (s : σ × History ε) :
    (answer.failWith wrap s : Reply _ δ β) =
      ⟨match (answer s.2).outcome with
        | .ok e => .error (wrap e)
        | .error d => .error d
        | .panic p => .panic p,
        (s.1, (answer s.2).state), (answer s.2).trace⟩ := by
  unfold Action.failWith
  rw [Action.bind_apply]
  unfold Action.onSnd
  rcases answer s.2 with ⟨_ | _ | _, h, t⟩ <;> simp [Action.fail]

namespace Map

variable (c : Cursor σ α ε) (mark : String → α → Event) (f : Callback α β)

theorem next_eq (s : σ × History α) :
    (cursor c mark f).next s = match c.next s.1 with
      | ⟨.ok x, s', t⟩ =>
          let r : Reply (History α) (Stop ε) β := f.call mark x s.2
          ⟨r.outcome, (s', r.state), t ++ r.trace⟩
      | ⟨.error e, s', t⟩ => ⟨.error e, (s', s.2), t⟩
      | ⟨.panic p, s', t⟩ => ⟨.panic p, (s', s.2), t⟩ := by
  show (c.next.onFst >>= fun x => (f.call mark x).onSnd) s = _
  rw [Action.bind_apply]
  unfold Action.onFst
  rcases c.next s.1 with ⟨_ | _ | _, s', t⟩ <;> rfl

theorem pull_eq (s : σ × History α) :
    (cursor c mark f).pull s = match c.pull s.1 with
      | ⟨.ok none, s', t⟩ => ⟨.ok none, (s', s.2), t⟩
      | ⟨.ok (some x), s', t⟩ =>
          let r : Reply (History α) ε β := f.call mark x s.2
          ⟨r.outcome.map some, (s', r.state), t ++ r.trace⟩
      | ⟨.error e, s', t⟩ => ⟨.error e, (s', s.2), t⟩
      | ⟨.panic p, s', t⟩ => ⟨.panic p, (s', s.2), t⟩ := by
  show (c.pull.onFst >>= fun x => lift mark f x) s = _
  rw [Action.bind_apply]
  unfold Action.onFst
  rcases c.pull s.1 with ⟨(_ | x) | _ | _, s', t⟩
  · simp [lift]
  · simp [lift, Action.onSnd]
  · rfl
  · rfl

variable {c mark f}

theorem next_fst (s : σ × History α) :
    ((cursor c mark f).next s).state.1 = (c.next s.1).state := by
  rw [next_eq]
  rcases c.next s.1 with ⟨_ | _ | _, s', t⟩ <;> rfl

theorem pull_fst (s : σ × History α) :
    ((cursor c mark f).pull s).state.1 = (c.pull s.1).state := by
  rw [pull_eq]
  rcases c.pull s.1 with ⟨(_ | _) | _ | _, s', t⟩ <;> rfl

theorem next_error {s : σ × History α} {e : Stop ε} :
    ((cursor c mark f).next s).outcome = .error e ↔ (c.next s.1).outcome = .error e := by
  rw [next_eq]
  rcases c.next s.1 with ⟨x | _ | _, s', t⟩
  · rcases hcall : f.answer s.2 x with _ | _
    · simp [Callback.call_panic hcall]
    · simp [Callback.call_ok hcall]
  · simp
  · simp

theorem pull_error {s : σ × History α} {e : ε} :
    ((cursor c mark f).pull s).outcome = .error e ↔ (c.pull s.1).outcome = .error e := by
  rw [pull_eq]
  rcases c.pull s.1 with ⟨(_ | x) | _ | _, s', t⟩
  · simp
  · rcases hcall : f.answer s.2 x with _ | _
    · simp [Callback.call_panic hcall, Outcome.map]
    · simp [Callback.call_ok hcall, Outcome.map]
  · simp
  · simp

theorem pull_none {s : σ × History α} :
    ((cursor c mark f).pull s).outcome = .ok none ↔ (c.pull s.1).outcome = .ok none := by
  rw [pull_eq]
  rcases c.pull s.1 with ⟨(_ | x) | _ | _, s', t⟩
  · simp
  · rcases hcall : f.answer s.2 x with _ | _
    · simp [Callback.call_panic hcall, Outcome.map]
    · simp [Callback.call_ok hcall, Outcome.map]
  · simp
  · simp

end Map

def Action.IsAnswer {τ δ : Type} (m : Action (σ × τ) δ α) : Prop :=
  ∀ s, (m s).state.1 = s.1 ∧ ∀ a, (m s).outcome ≠ .ok a

theorem Action.failWith_isAnswer {δ : Type} (answer : Action (History ε) δ ε') (wrap : ε' → δ) :
    (answer.failWith wrap : Action (σ × History ε) δ α).IsAnswer := by
  intro s
  rw [failWith_apply]
  refine ⟨rfl, fun a => ?_⟩
  cases (answer s.2).outcome <;> exact nofun

/-- The call above is the call below, except that other faults may come of it. -/
structure Action.Echoes {τ δ : Type} (above : Action (σ × τ) δ α) (below : Action σ ε α) :
    Prop where
  fst (s) : (above s).state.1 = (below s.1).state
  ok {s a s' t} : below s.1 = ⟨.ok a, s', t⟩ → above s = ⟨.ok a, (s', s.2), t⟩
  of_ok {s a} : (above s).outcome = .ok a → (below s.1).outcome = .ok a
  of_error {s d} : (above s).outcome = .error d → ∃ e, (below s.1).outcome = .error e

theorem Action.handle_echoes {τ δ : Type} (m : Action σ ε α) {f : ε → Action (σ × τ) δ α}
    (hf : ∀ e, (f e).IsAnswer) : (m.onFst.handle f).Echoes m := by
  constructor
  · intro s
    rw [handle_onFst]
    rcases m s.1 with ⟨_ | e | _, s', t⟩
    · rfl
    · exact (hf e _).1
    · rfl
  · intro s a s' t h
    rw [handle_onFst, h]
  · intro s a
    rw [handle_onFst]
    rcases m s.1 with ⟨_ | e | _, s', t⟩
    · simp
    · simpa using (hf e _).2 a
    · simp
  · intro s d
    rw [handle_onFst]
    rcases m s.1 with ⟨_ | e | _, s', t⟩
    · exact nofun
    · exact fun _ => ⟨e, rfl⟩
    · exact nofun

section Answering

variable (c : Cursor σ α ε) (answer : {δ : Type} → ε → Action (History ε) δ ε')

theorem Cursor.answering_hasNext : (c.answering answer).hasNext.Echoes c.hasNext :=
  Action.handle_echoes _ fun _ => Action.failWith_isAnswer _ _

theorem Cursor.answering_next : (c.answering answer).next.Echoes c.next := by
  apply Action.handle_echoes
  rintro (_ | e)
  · exact fun _ => ⟨rfl, nofun⟩
  · exact Action.failWith_isAnswer _ _

theorem Cursor.answering_pull : (c.answering answer).pull.Echoes c.pull :=
  Action.handle_echoes _ fun _ => Action.failWith_isAnswer _ _

theorem Cursor.answering_close : (c.answering answer).close.Echoes c.close :=
  Action.handle_echoes _ fun _ => Action.failWith_isAnswer _ _

theorem Cursor.answering_exhausted {s : σ × History ε} {s' : σ} {t : List Event}
    (h : c.next s.1 = ⟨.error .exhausted, s', t⟩) :
    (c.answering answer).next s = ⟨.error .exhausted, (s', s.2), t⟩ := by
  show c.next.onFst.handle _ s = _
  rw [Action.handle_onFst, h]
  simp [Action.fail]

end Answering

namespace Budget

variable (c : Cursor σ α ε) {s : σ × Nat}

theorem hasNext_of_zero (h : s.2 = 0) : hasNext c s = ⟨.ok false, s, []⟩ := by
  rw [hasNext, Action.get_bind_apply, if_pos h]
  rfl

theorem hasNext_of_pos (h : s.2 ≠ 0) : hasNext c s =
    ⟨(c.hasNext s.1).outcome, ((c.hasNext s.1).state, s.2), (c.hasNext s.1).trace⟩ := by
  rw [hasNext, Action.get_bind_apply, if_neg h]
  rfl

theorem next_of_zero (h : s.2 = 0) : next c s = ⟨.error .exhausted, s, []⟩ := by
  rw [next, Action.get_bind_apply, if_pos h]
  rfl

theorem next_of_pos (h : s.2 ≠ 0) :
    next c s = match c.next s.1 with
      | ⟨.ok x, s', t⟩ => ⟨.ok x, (s', s.2 - 1), t⟩
      | ⟨.error e, s', t⟩ => ⟨.error e, (s', s.2), t⟩
      | ⟨.panic p, s', t⟩ => ⟨.panic p, (s', s.2), t⟩ := by
  rw [next, Action.get_bind_apply, if_neg h, Action.bind_apply]
  unfold Action.onFst
  rcases c.next s.1 with ⟨_ | _ | _, s', t⟩
  · simp
  · rfl
  · rfl

theorem close_eq (s : σ × Nat) :
    close c s = ⟨(c.close s.1).outcome, ((c.close s.1).state, 0), (c.close s.1).trace⟩ := by
  rw [close, Action.modify_bind_apply]
  rfl

end Budget

theorem EndingSource.sweep_eq {τ : Type} (c : EndingSource σ α ε) (atEnd : Action τ ε β)
    (visit : α → Action τ ε (Turn β)) (s : σ × τ) :
    c.sweep atEnd visit s = match c.pull s.1 with
      | ⟨.ok none, s', t⟩ =>
          let r := atEnd s.2
          ⟨r.outcome, (s', r.state), t ++ r.trace⟩
      | ⟨.ok (some x), s', t⟩ => match visit x s.2 with
        | ⟨.ok .again, u, t'⟩ =>
            let r := c.sweep atEnd visit (s', u)
            ⟨r.outcome, r.state, t ++ t' ++ r.trace⟩
        | ⟨.ok (.stop b), u, t'⟩ => ⟨.ok b, (s', u), t ++ t'⟩
        | ⟨.error e, u, t'⟩ => ⟨.error e, (s', u), t ++ t'⟩
        | ⟨.panic p, u, t'⟩ => ⟨.panic p, (s', u), t ++ t'⟩
      | ⟨.error e, s', t⟩ => ⟨.error e, (s', s.2), t⟩
      | ⟨.panic p, s', t⟩ => ⟨.panic p, (s', s.2), t⟩ := by
  unfold sweep
  rw [Action.loop_eq, Action.bind_apply]
  unfold Sweep.turn
  rw [Action.bind_apply]
  simp only [Action.onFst]
  rcases c.pull s.1 with ⟨(_ | x) | _ | _, s', t⟩
  · simp only [Action.bind_apply, Action.onSnd]
    rcases atEnd s.2 with ⟨_ | _ | _, u, t'⟩ <;> simp
  · simp only [Action.onSnd]
    rcases visit x s.2 with ⟨(_ | b) | _ | _, u, t'⟩ <;> simp
  · rfl
  · rfl

end PullCursor
