import PullCursor.Proofs.Combinator.Budget
import PullCursor.Proofs.Sink.Draining

/-! Draining a limit comes to the same as pulling so many times by hand and then closing. Nothing
behind the last element is computed to find out that there are no more. -/
namespace PullCursor

variable {σ α ε : Type}

/-- Pulls made one after another, at most so many, and none after the first that brings no
element. -/
def Source.pullUpTo (c : Source σ α ε) : Nat → Action σ ε (List α)
  | 0 => return []
  | n + 1 => do
      match ← c.pull with
      | none => return []
      | some x => return x :: (← c.pullUpTo n)

section PullUpTo

variable {c : Source σ α ε} {s s' : σ} {t : List Event} (n : Nat)

theorem Source.pullUpTo_none (h : c.pull s = ⟨.ok none, s', t⟩) :
    c.pullUpTo (n + 1) s = ⟨.ok [], s', t⟩ := by
  simp [pullUpTo, Action.bind_apply, h]

theorem Source.pullUpTo_some {x : α} (h : c.pull s = ⟨.ok (some x), s', t⟩) :
    c.pullUpTo (n + 1) s =
      let r := c.pullUpTo n s'
      ⟨r.outcome.map (x :: ·), r.state, t ++ r.trace⟩ := by
  simp [pullUpTo, Action.bind_apply, h]

theorem Source.pullUpTo_error {e : ε} (h : c.pull s = ⟨.error e, s', t⟩) :
    c.pullUpTo (n + 1) s = ⟨.error e, s', t⟩ := by
  simp [pullUpTo, Action.bind_apply, h]

theorem Source.pullUpTo_panic {m : String} (h : c.pull s = ⟨.panic m, s', t⟩) :
    c.pullUpTo (n + 1) s = ⟨.panic m, s', t⟩ := by
  simp [pullUpTo, Action.bind_apply, h]

end PullUpTo

theorem Source.pullUpTo_one (c : Source σ α ε) : c.pullUpTo 1 = Option.toList <$> c.pull := by
  funext s
  rw [Action.map_apply]
  rcases h : c.pull s with ⟨(_ | x) | e | m, s', t⟩
  · rw [pullUpTo_none 0 h]
    rfl
  · rw [pullUpTo_some 0 h]
    simp [pullUpTo, Outcome.map]
  · rw [pullUpTo_error 0 h]
    rfl
  · rw [pullUpTo_panic 0 h]
    rfl

namespace Budget

variable {c : Cursor σ α ε}

theorem pull_of_pos (h : c.PullsByNext) {s : σ × Nat} (hpos : s.2 ≠ 0) :
    (cursor c).pull s = match c.pull s.1 with
      | ⟨.ok (some x), s', t⟩ => ⟨.ok (some x), (s', s.2 - 1), t⟩
      | ⟨.ok none, s', t⟩ => ⟨.ok none, (s', s.2), t⟩
      | ⟨.error e, s', t⟩ => ⟨.error e, (s', s.2), t⟩
      | ⟨.panic m, s', t⟩ => ⟨.panic m, (s', s.2), t⟩ := by
  show pullByNext (hasNext c) (next c) s = _
  rw [h, pullByNext_eq, pullByNext_eq, hasNext_of_pos c hpos]
  rcases c.hasNext s.1 with ⟨(_ | _) | _ | _, s', t⟩
  · rfl
  · dsimp only
    rw [next_of_pos c (s := (s', s.2)) hpos]
    rcases c.next s' with ⟨_ | (_ | _) | _, s'', u⟩ <;> rfl
  · rfl
  · rfl

theorem pull_of_zero (c : Cursor σ α ε) (s : σ) :
    (cursor c).pull (s, 0) = ⟨.ok none, (s, 0), []⟩ := by
  show pullByNext (hasNext c) (next c) (s, 0) = _
  rw [pullByNext_eq, hasNext_of_zero c rfl]

end Budget

namespace Sink

variable {c : Cursor σ α ε}

open Sweep in
theorem ends_limit (h : c.PullsByNext) (n : Nat) (s : σ) (gathered : List α) :
    ∃ left xs, (∀ ys, (c.pullUpTo n s).outcome = .ok ys → xs = ys) ∧
      Action.Ends (turn (Budget.cursor c).toSource (pure ()) (onward gather)) ((s, n), gathered)
        ⟨(c.pullUpTo n s).outcome.map fun _ => (),
          (((c.pullUpTo n s).state, left), xs.reverse ++ gathered), (c.pullUpTo n s).trace⟩ := by
  -- Each pull that brings an element is charged one. At zero the sweep stops without a pull below.
  induction n generalizing s gathered with
  | zero =>
    have hturn := turn_none (pure ()) (onward gather) gathered (Budget.pull_of_zero c s)
    refine ⟨0, [], ?_, .stop hturn⟩
    rintro _ ⟨⟩
    rfl
  | succ n ih =>
    have hpull := Budget.pull_of_pos h (s := (s, n + 1)) (Nat.succ_ne_zero n)
    dsimp only at hpull
    rcases e : c.pull s with ⟨(_ | x) | e₁ | m, s', t⟩ <;> rw [e] at hpull
    · rw [Source.pullUpTo_none n e]
      have hturn := turn_none (pure ()) (onward gather) gathered hpull
      rw [Action.pure_apply, List.append_nil] at hturn
      refine ⟨n + 1, [], ?_, .stop hturn⟩
      rintro _ ⟨⟩
      rfl
    · rw [Source.pullUpTo_some n e]
      obtain ⟨left, xs, hxs, hends⟩ := ih s' (x :: gathered)
      have hturn : turn (Budget.cursor c).toSource (pure ()) (onward gather)
          ((s, n + 1), gathered) =
          ⟨.ok .again, ((s', n), x :: gathered), t ++ []⟩ := turn_visit hpull rfl
      rw [List.append_nil] at hturn
      refine ⟨left, x :: xs, ?_, ?_⟩
      · intro ys hys
        dsimp only at hys
        rcases ho : (c.pullUpTo n s').outcome with zs | _ | _ <;> rw [ho] at hys <;> cases hys
        rw [hxs zs ho]
      · have hagain := Action.Ends.again hturn hends
        dsimp only
        rw [Outcome.map_map, List.reverse_cons, List.append_assoc, List.singleton_append]
        exact hagain
    · rw [Source.pullUpTo_error n e]
      exact ⟨n + 1, [], nofun, .error (turn_error _ _ gathered hpull)⟩
    · rw [Source.pullUpTo_panic n e]
      exact ⟨n + 1, [], nofun, .panic (turn_panic _ _ gathered hpull)⟩

theorem toList_drains_limit (h : c.PullsByNext) (n : Nat) (s : σ) :
    ∃ left, Use.toList.Drains (Budget.cursor c).toSource (s, n)
      ⟨(c.pullUpTo n s).outcome, ((c.pullUpTo n s).state, left), (c.pullUpTo n s).trace⟩ := by
  obtain ⟨left, xs, hxs, hends⟩ := ends_limit h n s []
  refine ⟨left, _, hends, ?_⟩
  dsimp only
  rw [List.append_nil, List.reverse_reverse]
  rcases ho : (c.pullUpTo n s).outcome with ys | _ | _
  · rw [hxs ys ho]
    rfl
  · rfl
  · rfl

theorem thenClose_limit (c : Cursor σ α ε) (body : Reply σ ε (List α)) (left : Nat) (s : σ × Nat) :
    thenClose (fun _ => ⟨body.outcome, (body.state, left), body.trace⟩) (Budget.close c) s =
      let r := thenClose (fun _ => body) c.close s.1
      ⟨r.outcome, (r.state, 0), r.trace⟩ := by
  obtain ⟨_ | _ | _, s', t⟩ := body
  · rfl
  all_goals
    simp only [thenClose, Budget.close_eq]
    rcases c.close s' with ⟨_ | _ | _, s'', u⟩ <;> rfl

theorem toList_limit (h : c.PullsByNext) {d : EndingSource (σ × Nat) α ε}
    (hd : d.toSource = (Budget.cursor c).toSource) (n : Nat) (s : σ) :
    toList d (s, n) =
      let r := thenClose (c.pullUpTo n) c.close s
      ⟨r.outcome, (r.state, 0), r.trace⟩ := by
  obtain ⟨left, hdrains⟩ := toList_drains_limit h n s
  rw [← hd] at hdrains
  have hrun := (Use.toList.endsIn_iff d (s, n) _).mp ⟨_, hdrains, rfl⟩
  have hbody : thenClose (c.pullUpTo n) c.close s = _ := thenClose_of_body rfl
  rw [hbody]
  refine Eq.trans hrun.symm ?_
  rw [hd]
  exact thenClose_limit c (c.pullUpTo n s) left (s, n)

end Sink

namespace Budget

/-- The budget of a limit is exact, whatever the cursor below does. Until the limit is closed, what
is left and what has been handed out add up to what there was at first; so it is charged only while
something is left. Once nothing is left, or after a close, no element comes any more, and the cursor
below gets the closes that the limit gets and no other call. Draining a limit above a tree comes to
the same, answers, calls and state, as so many pulls of the tree by hand and a close; with a limit
of one, to what the first element comes to. -/
theorem budget_exact :
    (∀ (c : Cursor σ α ε) s n ops later,
      let limit := cursor c
      let now := limit.run (s, n) ops
      let after := limit.run now.state later
      let noted := cursor c.noted
      let notedNow := noted.run ((s, []), n) ops
      (.close ∉ ops → now.state.2 + (delivered now.answers).length = n) ∧
      (∀ op x, (limit.call now.state op).answer.element? = some x →
        (limit.call now.state op).state.2 + 1 = now.state.2) ∧
      (.close ∈ ops ∨ (delivered now.answers).length = n →
        now.state.2 = 0 ∧ after.state.2 = 0 ∧ delivered after.answers = [] ∧
        (noted.run notedNow.state later).state.1.2 =
          notedNow.state.1.2 ++ .replicate (later.count .close) .close) ∧
      notedNow.answers = now.answers ∧ notedNow.trace = now.trace ∧
      (notedNow.state.1.1, notedNow.state.2) = now.state) ∧
    ∀ p : Plan, p.PullsByNext → ∀ (s : p.State) (n : Nat),
      let byHand := p.cursor.toSource.pullUpTo n s
      let closed := p.cursor.close byHand.state
      let drained := Sink.toList (Plan.limit n p).cursor.toEndingSource (s, n)
      (∃ notices, Sink.Verdict notices byHand.outcome closed.outcome drained.outcome ∧
        drained.trace = byHand.trace ++ closed.trace ++ notices.map .log) ∧
      drained.state = (closed.state, 0) ∧
      (n = 1 →
        let first := Sink.first p.cursor.toSource s
        drained = ⟨first.outcome.map Option.toList, (first.state, 0), first.trace⟩) := by
  refine ⟨fun c s n ops later => ?_, fun p hp s n => ?_⟩
  · intro limit now after noted notedNow
    obtain ⟨more, hnoted⟩ := run_notes c (s, n) [] ops
    refine ⟨run_charges c (s, n), fun op x hx => ?_, fun hspent => ?_, congrArg Run.answers hnoted,
      congrArg Run.trace hnoted, ?_⟩
    · have hop : op ≠ .close := by
        rintro rfl
        rw [(call_close c now.state).1] at hx
        cases hx
      have hcharge := call_charges c now.state hop
      rwa [hx] at hcharge
    · have hzero : now.state = (now.state.1, 0) := Prod.ext rfl (run_spent c (s, n) hspent)
      obtain ⟨hdelivered, hstate⟩ := run_used_up c now.state.1 later
      rw [← hzero] at hdelivered hstate
      refine ⟨congrArg Prod.snd hzero, congrArg Prod.snd hstate, hdelivered, ?_⟩
      have hnow : notedNow.state = ((now.state.1, more), 0) :=
        (congrArg Run.state hnoted).trans (congrArg (Prod.mk _) (congrArg Prod.snd hzero))
      rw [hnow]
      exact run_noted_used_up c now.state.1 more later
    · exact congrArg (fun r => (r.state.1.1, r.state.2)) hnoted
  · intro byHand closed drained
    have hdrained : drained = _ := Sink.toList_limit hp.cursor rfl n s
    obtain ⟨notices, hverdict, hstate, htrace⟩ := Sink.thenClose_verdict byHand p.cursor.close s
    have hbody : Sink.thenClose (p.cursor.toSource.pullUpTo n) p.cursor.close s = _ :=
      Sink.thenClose_of_body rfl
    rw [hbody] at hdrained
    refine ⟨⟨notices, ?_, ?_⟩, ?_, ?_⟩
    · rw [hdrained]
      exact hverdict
    · rw [hdrained]
      exact htrace
    · rw [hdrained]
      exact congrArg (·, 0) hstate
    · rintro rfl
      rw [hdrained, ← hbody, Source.pullUpTo_one, ← Sink.map_thenClose, Action.map_apply]
      rfl

theorem budget_exact_two :
    let limit := (cursor Sink.resuming.noted).run (([some 1, some 2, some 3], []), 2) [.pull, .pull]
    let p : Plan := .generator "two" [.value (.int 1), .value (.int 2), .fail .release] none
    delivered limit.answers = [1, 2] ∧
      ((cursor Sink.resuming.noted).run limit.state [.hasNext, .pull, .close, .next]).state.1.2 =
        limit.state.1.2 ++ [.close] ∧
      p.PullsByNext ∧ (p.cursor.toSource.pullUpTo 3 p.start).outcome.fault? = some .release ∧
      (Sink.toList (Plan.limit 2 p).cursor.toEndingSource (p.start, 2)).outcome =
        .ok [.int 1, .int 2] := by
  intro limit p
  have hp : p.PullsByNext := trivial
  have hexact := budget_exact (σ := List (Option Nat)) (α := Nat) (ε := Unit)
  obtain ⟨-, -, hspent, -⟩ := hexact.1 Sink.resuming [some 1, some 2, some 3] 2 [.pull, .pull]
    [.hasNext, .pull, .close, .next]
  obtain ⟨-, -, -, hcalls⟩ := hspent (.inr rfl)
  obtain ⟨⟨_, hverdict, -⟩, -⟩ := hexact.2 p hp p.start 2
  exact ⟨rfl, hcalls, hp, rfl, hverdict.1⟩

end Budget

end PullCursor
