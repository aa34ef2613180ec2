import PullCursor.Proofs.Mirrors
import PullCursor.Proofs.Series.Steps

/-! Everything that can be asked of a concatenation. It answers in the same way when its children
are replaced by others that behave like them. -/
namespace PullCursor

variable {τ τ' α β ε ε' : Type}

namespace Series

def rewrite (f : τ' → τ) (s : Series τ') : Series τ :=
  ⟨s.current.map f, s.position, s.rest.map (Option.map f), s.asked⟩

section Mirrors

variable {f : τ' → τ} {c' : Source τ' α ε} {c : Source τ α ε}
  (hpull : Action.Mirrors f c'.pull c.pull) (hclose : Action.Mirrors f c'.close c.close)
  (watch : Nat → List Event)

theorem ask_bind_mirrors {m' : Action (Series τ') ε β} {m : Action (Series τ) ε β}
    (h : Action.Mirrors (rewrite f) m' m) :
    Action.Mirrors (rewrite f) (ask watch >>= fun _ => m') (ask watch >>= fun _ => m) := by
  rintro ⟨current, position, _ | ⟨child, rest⟩, asked⟩
  · exact h ⟨current, position, [], asked + 1⟩
  · exact h ⟨current, position, rest, asked + 1⟩

theorem onDetached_mirrors {m' : Action τ' ε β} {m : Action τ ε β} (h : Action.Mirrors f m' m)
    (child : τ') : Action.Mirrors (rewrite f) (onDetached child m') (onDetached (f child) m) :=
  fun _ => ⟨(h child).1, rfl⟩

theorem onCurrent_mirrors {m' : Action τ' ε β} {m : Action τ ε β} (h : Action.Mirrors f m' m)
    (child : τ') : Action.Mirrors (rewrite f) (onCurrent child m') (onCurrent (f child) m) := by
  intro s
  refine ⟨(h child).1, ?_⟩
  simp only [onCurrent, Action.on, (h child).2]
  rfl

theorem advance_mirrors : Action.Mirrors (rewrite f)
    (advance watch : Action _ ε (Turn (Option α))) (advance watch) := by
  rintro ⟨current, position, _ | ⟨_ | child, rest⟩, asked⟩ <;> exact ⟨rfl, rfl⟩

include hclose in
theorem retire_mirrors : Action.Mirrors (rewrite f) (retire c') (retire c) := by
  rintro ⟨_ | child, position, rest, asked⟩
  · exact ⟨rfl, rfl⟩
  · simp only [rewrite, Option.map_some, retire_child]
    exact ⟨(hclose child).1, rfl⟩

include hpull hclose in
theorem turn_mirrors : Action.Mirrors (rewrite f) (turn c' watch) (turn c watch) := by
  intro s
  unfold turn
  rw [Action.get_bind_apply, Action.get_bind_apply]
  rcases h : s.current with _ | child
  · simpa [rewrite, h] using advance_mirrors watch s
  · simp only [rewrite, h, Option.map_some]
    refine (onCurrent_mirrors hpull child).bind (fun x => ?_) s
    cases x with
    | none => exact (retire_mirrors hclose).bind fun _ => advance_mirrors watch
    | some x => exact .pure _

include hclose in
theorem closeRest_mirrors (position : Nat) (errs : Aggregate ε) (rest : List (Option τ')) :
    Action.Mirrors (rewrite f) (closeRest c' watch position errs rest : Action _ ε' _)
      (closeRest c watch position errs (rest.map (Option.map f))) := by
  induction rest generalizing position errs with
  | nil => exact ask_bind_mirrors watch (.pure _)
  | cons place rest ih =>
    cases place with
    | none => exact ask_bind_mirrors watch (.pure _)
    | some child =>
      refine ask_bind_mirrors watch (.bind ?_ fun closed => ?_)
      · exact (onDetached_mirrors hclose child).mapOutcome _
      · cases closed with
        | ok _ => exact ih _ _
        | error _ => exact ih _ _

include hclose in
theorem closeCurrent_mirrors (position : Nat) (errs : Aggregate ε) (current : Option τ') :
    Action.Mirrors (rewrite f) (closeCurrent c' position errs current : Action _ ε' _)
      (closeCurrent c position errs (current.map f)) := by
  cases current with
  | none => exact .pure _
  | some child =>
    refine .bind (.modify fun _ => rfl) fun _ => .bind ?_ fun closed => ?_
    · exact (onDetached_mirrors hclose child).mapOutcome _
    · cases closed <;> exact .pure _

include hclose in
theorem closeAll_mirrors : Action.Mirrors (rewrite f) (closeAll c' watch : Action _ ε' _)
    (closeAll c watch) := by
  intro s
  unfold closeAll
  rw [Action.get_bind_apply, Action.get_bind_apply]
  refine (closeCurrent_mirrors hclose _ _ s.current).bind (fun first => ?_) s
  refine (closeRest_mirrors hclose watch _ _ s.rest).bind fun last => ?_
  exact .bind (.modify fun _ => rfl) fun _ => .pure _

include hclose in
theorem release_mirrors : Action.Mirrors (rewrite f) (release c' watch) (release c watch) := by
  refine (closeAll_mirrors hclose watch).bind fun errs => ?_
  rcases errs.failures with _ | ⟨e, more⟩
  · exact .pure _
  · exact fun _ => ⟨rfl, rfl⟩

end Mirrors

/-- To gather is to close and be told of every failure. -/
inductive Request where
  | hasNext
  | next
  | pull
  | close
  | closeGathering

namespace Request

def isClose : Request → Bool
  | .close | .closeGathering => true
  | _ => false

def toLookahead (c : Source τ α ε) (watch : Nat → List Event) :
    Request → Lookahead.Request (Series τ) α (Aggregate ε) ε
  | .hasNext => .poll .hasNext
  | .next => .poll .next
  | .pull => .poll .pull
  | .close => .close
  | .closeGathering => .closeBy (closeAll c watch)

end Request

def serve (c : Source τ α ε) (watch : Nat → List Event) (s : Lookahead (Series τ) α)
    (r : Request) : Lookahead.Served (Series τ) α (Aggregate ε) ε :=
  Lookahead.serve (source c watch) s (r.toLookahead c watch)

structure Served (τ α ε : Type) where
  responses : List (Lookahead.Response α (Aggregate ε) ε)
  state : Lookahead (Series τ) α
  trace : List Event

def serveAll (c : Source τ α ε) (watch : Nat → List Event) (s : Lookahead (Series τ) α) :
    List Request → Served τ α ε
  | [] => ⟨[], s, []⟩
  | r :: rest =>
      let first := serve c watch s r
      let later := serveAll c watch first.state rest
      ⟨first.response :: later.responses, later.state, first.trace ++ later.trace⟩

section Serve

variable {f : τ' → τ} {c' : Source τ' α ε} {c : Source τ α ε}
  (hpull : Action.Mirrors f c'.pull c.pull) (hclose : Action.Mirrors f c'.close c.close)
  (watch : Nat → List Event)

include hpull hclose in
theorem serve_mirrors (s : Lookahead (Series τ') α) (r : Request) :
    Lookahead.Served.Mirrors (rewrite f) (serve c' watch s r)
      (serve c watch (s.rewrite (rewrite f)) r) := by
  cases r with
  | close => exact Lookahead.serve_close_mirrors (release_mirrors hclose watch) s
  | closeGathering => exact Lookahead.serve_closeBy_mirrors (closeAll_mirrors hclose watch) s
  | _ => exact Lookahead.serve_poll_mirrors (.loop (turn_mirrors hpull hclose watch)) _ s

include hpull hclose in
theorem serveAll_mirrors (s : Lookahead (Series τ') α) (requests : List Request) :
    (serveAll c watch (s.rewrite (rewrite f)) requests).responses =
        (serveAll c' watch s requests).responses ∧
      (serveAll c watch (s.rewrite (rewrite f)) requests).state =
        (serveAll c' watch s requests).state.rewrite (rewrite f) := by
  induction requests generalizing s with
  | nil => exact ⟨rfl, rfl⟩
  | cons r rest ih =>
    obtain ⟨hresponse, hstate⟩ := serve_mirrors hpull hclose watch s r
    obtain ⟨hresponses, hend⟩ := ih (serve c' watch s r).state
    simp only [serveAll, hresponse, hstate, hresponses, hend, and_self]

theorem serve_isClosed (s : Lookahead (Series τ) α) (r : Request) :
    (serve c watch s r).state.stage.isClosed = (s.stage.isClosed || r.isClose) := by
  cases r with
  | close =>
    unfold serve Request.toLookahead
    rw [Lookahead.serve_close]
    cases h : s.stage.isClosed with
    | true => exact h
    | false => rfl
  | closeGathering =>
    unfold serve Request.toLookahead
    rw [Lookahead.serve_closeBy]
    cases h : s.stage.isClosed with
    | true => exact h
    | false => rfl
  | hasNext | next | pull =>
    show _ = (s.stage.isClosed || false)
    rw [Bool.or_false]
    exact Lookahead.serve_poll_isClosed _ _ s

theorem serveAll_isClosed (s : Lookahead (Series τ) α) (requests : List Request) :
    (serveAll c watch s requests).state.stage.isClosed =
      (s.stage.isClosed || requests.any Request.isClose) := by
  induction requests generalizing s with
  | nil => simp [serveAll]
  | cons r rest ih => simp [serveAll, ih, serve_isClosed, Bool.or_assoc]

end Serve

end Series

end PullCursor
