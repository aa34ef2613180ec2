import PullCursor.Proofs.Lookahead.Steps

/-! Everything that can be asked of a lookahead, as requests and responses. A request for elements
first looks ahead, and what it does then depends only on the stage it finds, not on the source. -/
namespace PullCursor.Lookahead

variable {κ α β ε : Type}

inductive Poll (α : Type) where
  | hasNext
  | next
  | pull
  | peek
  | modifyHead (f : α → Except String α)

/-- The source's state may be altered from outside at any moment. -/
inductive Request (κ α β ε : Type) where
  | poll (p : Poll α)
  | close
  | closeBy (release : Action κ ε β)
  | alter (f : κ → κ)

inductive Response (α β ε : Type) where
  | asked (o : Outcome ε Bool)
  | next (o : Outcome (Stop ε) α)
  | pulled (o : Outcome ε (Option α))
  | peeked (o : Outcome ε (Option α))
  | closed (o : Outcome ε Unit)
  | closedBy (o : Outcome ε (Option β))
  | altered

structure Served (κ α β ε : Type) where
  response : Response α β ε
  state : Lookahead κ α
  trace : List Event

def Served.ofReply {δ γ : Type} (read : Outcome δ γ → Response α β ε)
    (r : Reply (Lookahead κ α) δ γ) : Served κ α β ε :=
  ⟨read r.outcome, r.state, r.trace⟩

def serve (c : Source κ α ε) (s : Lookahead κ α) : Request κ α β ε → Served κ α β ε
  | .poll .hasNext => .ofReply .asked ((cursor c).hasNext s)
  | .poll .next => .ofReply .next ((cursor c).next s)
  | .poll .pull => .ofReply .pulled ((cursor c).pull s)
  | .poll .peek => .ofReply .peeked (peek c s)
  | .poll (.modifyHead f) => .ofReply .peeked (modifyHead c f s)
  | .close => .ofReply .closed ((cursor c).close s)
  | .closeBy release => .ofReply .closedBy (closeBy release s)
  | .alter f => .ofReply (fun _ : Outcome ε Unit => .altered) (modifyInner f s)

namespace Poll

def answer : Poll α → Stage α → Response α β ε
  | .hasNext, stage => .asked (.ok stage.head?.isSome)
  | .next, .ready x => .next (.ok x)
  | .next, _ => .next (.error .exhausted)
  | .pull, stage => .pulled (.ok stage.head?)
  | .peek, stage => .peeked (.ok stage.head?)
  | .modifyHead f, .ready x => .peeked (match f x with
    | .ok y => .ok (some y)
    | .error m => .panic m)
  | .modifyHead _, _ => .peeked (.ok none)

def change : Poll α → α → α
  | .modifyHead f, x => match f x with
    | .ok y => y
    | .error _ => x
  | _, x => x

def settle (p : Poll α) : Stage α → Stage α
  | .ready x => match p with
    | .next | .pull => .idle
    | _ => .ready (p.change x)
  | stage => stage

def fail (e : ε) : Poll α → Response α β ε
  | .hasNext => .asked (.error e)
  | .next => .next (.error (.failed e))
  | .pull => .pulled (.error e)
  | .peek | .modifyHead _ => .peeked (.error e)

def panic (m : String) : Poll α → Response α β ε
  | .hasNext => .asked (.panic m)
  | .next => .next (.panic m)
  | .pull => .pulled (.panic m)
  | .peek | .modifyHead _ => .peeked (.panic m)

end Poll

variable (c : Source κ α ε)

theorem look_state {s s' : Lookahead κ α} {b : Bool} {t : List Event}
    (h : look c s = ⟨.ok b, s', t⟩) :
    (b = true ∧ ∃ x, s' = ⟨s'.inner, .ready x⟩) ∨ (b = false ∧ s'.stage.isOver) := by
  have hs := look_settles c s
  rw [h] at hs
  cases b with
  | false => exact .inr ⟨rfl, hs⟩
  | true =>
    obtain ⟨inner, stage⟩ := s'
    obtain ⟨x, rfl⟩ := hs
    exact .inl ⟨rfl, x, rfl⟩

theorem peek_eq (s : Lookahead κ α) :
    peek c s = match look c s with
      | ⟨.ok _, s', t⟩ => ⟨.ok s'.stage.head?, s', t⟩
      | ⟨.error e, s', t⟩ => ⟨.error e, s', t⟩
      | ⟨.panic m, s', t⟩ => ⟨.panic m, s', t⟩ := by
  unfold peek
  rw [Action.bind_apply]
  rcases look c s with ⟨_ | _ | _, s', t⟩ <;> simp

/-- Every poll looks ahead, and settles with the stage that this has found. -/
theorem serve_poll (p : Poll α) (s : Lookahead κ α) :
    (serve c s (.poll p) : Served κ α β ε) = match look c s with
      | ⟨.ok _, s', t⟩ => ⟨p.answer s'.stage, ⟨s'.inner, p.settle s'.stage⟩, t⟩
      | ⟨.error e, s', t⟩ => ⟨p.fail e, s', t⟩
      | ⟨.panic m, s', t⟩ => ⟨p.panic m, s', t⟩ := by
  cases p with
  | hasNext =>
    show Served.ofReply .asked (look c s) = _
    rcases h : look c s with ⟨b | _ | _, ⟨inner, stage⟩, t⟩
    · obtain ⟨rfl, x, hx⟩ | ⟨rfl, hover⟩ := look_state c h
      · cases hx
        rfl
      · cases stage <;> first | rfl | contradiction
    · rfl
    · rfl
  | next =>
    show Served.ofReply .next (next c s) = _
    unfold next
    rw [Action.bind_apply]
    unfold Action.mapOutcome
    rcases look c s with ⟨b | _ | _, ⟨inner, stage⟩, t⟩
    · cases stage <;> simp [Outcome.mapError, Outcome.map, Served.ofReply, Poll.answer,
        Poll.settle, Action.bind_apply, Action.get, Action.modify, Action.fail]
    · rfl
    · rfl
  | pull =>
    show Served.ofReply .pulled ((cursor c).pull s) = _
    obtain ⟨inner, stage⟩ := s
    cases stage with
    | idle =>
      rw [pull_idle, look_idle]
      rcases c.pull inner with ⟨(_ | x) | _ | _, inner', t⟩ <;> rfl
    | ready x =>
      rw [pull_ready, look_ready]
      rfl
    | _ =>
      rw [pull_over c rfl, look_over c rfl]
      rfl
  | peek =>
    show Served.ofReply .peeked (peek c s) = _
    rw [peek_eq]
    rcases look c s with ⟨b | _ | _, ⟨inner, stage⟩, t⟩
    · cases stage <;> rfl
    · rfl
    · rfl
  | modifyHead f =>
    show Served.ofReply .peeked (modifyHead c f s) = _
    unfold modifyHead
    rw [Action.bind_apply, peek_eq]
    rcases look c s with ⟨b | _ | _, ⟨inner, stage⟩, t⟩
    · cases stage with
      | ready x =>
        cases hf : f x <;> simp [Stage.head?, hf, Served.ofReply, Poll.answer, Poll.settle,
          Poll.change, Outcome.map, Action.bind_apply, Action.ofExcept, Action.panic, Action.modify]
      | _ => simp [Stage.head?, Served.ofReply, Poll.answer, Poll.settle]
    · rfl
    · rfl

theorem serve_poll_isClosed (p : Poll α) (s : Lookahead κ α) :
    (serve c s (.poll p) : Served κ α β ε).state.stage.isClosed = s.stage.isClosed := by
  rw [serve_poll]
  obtain ⟨inner, stage⟩ := s
  cases stage with
  | idle =>
    rw [look_idle]
    rcases c.pull inner with ⟨(_ | x) | _ | _, inner', t⟩
    · rfl
    · cases p <;> rfl
    · rfl
    · rfl
  | ready x => cases p <;> rfl
  | _ => rfl

theorem serve_close (s : Lookahead κ α) :
    (serve c s .close : Served κ α β ε) =
      if s.stage.isClosed then ⟨.closed (.ok ()), s, []⟩
      else
        let r := c.close s.inner
        ⟨.closed r.outcome, ⟨r.state, .closed⟩,
          (if s.stage.isFailed then [.log .closingFailed] else []) ++ r.trace⟩ := by
  show Served.ofReply .closed (close c s) = _
  cases h : s.stage.isClosed with
  | true =>
    rw [close_again c h]
    rfl
  | false =>
    rw [close_open c h]
    rfl

theorem serve_closeBy (release : Action κ ε β) (s : Lookahead κ α) :
    (serve c s (.closeBy release) : Served κ α β ε) =
      if s.stage.isClosed then ⟨.closedBy (.ok none), s, []⟩
      else
        let r := release s.inner
        ⟨.closedBy (r.outcome.map some), ⟨r.state, .closed⟩,
          (if s.stage.isFailed then [.log .closingFailed] else []) ++ r.trace⟩ := by
  show Served.ofReply .closedBy (closeBy release s) = _
  cases h : s.stage.isClosed with
  | true =>
    rw [closeBy_again release h]
    rfl
  | false =>
    rw [closeBy_open release h]
    rfl

end PullCursor.Lookahead
