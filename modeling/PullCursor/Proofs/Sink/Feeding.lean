import PullCursor.Proofs.Course.Follows
import PullCursor.Proofs.Sink.Draining

/-! Feeds, asked and closed in any order. Each request is one pull of the source as long as nothing
has finished the feed, and none afterwards; a feed hands on all it has pulled, and reads nothing
ahead. -/
namespace PullCursor.Feed

variable {σ α ε : Type}

inductive Call where
  | next
  | close
deriving DecidableEq

structure Run (σ α ε : Type) where
  nexts : List (Outcome ε (Option (Except ε α)))
  state : Feed σ

def run (c : Source σ α ε) (s : Feed σ) : List Call → Run σ α ε
  | [] => ⟨[], s⟩
  | .next :: rest =>
      let first : Reply (Feed σ) ε _ := next c s
      let later := run c first.state rest
      ⟨first.outcome :: later.nexts, later.state⟩
  | .close :: rest => run c (close c s).state rest

def handed : Outcome ε (Option α) → Outcome ε (Option (Except ε α))
  | .ok (some x) => .ok (some (.ok x))
  | .ok none => .ok none
  | .error e => .ok (some (.error e))
  | .panic m => .panic m

def finishes : Outcome ε (Option α) → Bool
  | .ok none | .error _ => true
  | _ => false

theorem next_start (c : Source σ α ε) (s : σ) :
    next c (.start s) =
      ⟨handed (c.pull s).outcome, ⟨(c.pull s).state, finishes (c.pull s).outcome⟩,
        (c.pull s).trace⟩ := by
  rcases h : c.pull s with ⟨(_ | x) | e | m, s', t⟩
  · exact next_ended h
  · exact next_element h
  · exact next_failed h
  · exact next_panic h

/-- The number of requests before the first close. -/
def asked (calls : List Call) : Nat := (calls.takeWhile (· = .next)).length

/-- These are the outcomes of the pulls that the calls on a feed lead to: successive pulls of the
source, one for each request until an outcome finishes the feed or the feed is closed. -/
structure Pulled (c : Cursor σ α ε) (s : σ) (calls : List Call)
    (outcomes : List (Outcome ε (Option α))) : Prop where
  answers_eq : (c.run s (.replicate outcomes.length .pull)).answers = outcomes.map .pull
  goes_on : ∀ o ∈ outcomes.dropLast, finishes o = false
  length_le : outcomes.length ≤ asked calls
  finished : outcomes.length < asked calls → ∃ o ∈ outcomes.getLast?, finishes o

namespace Pulled

variable {c : Cursor σ α ε} {s : σ} {rest : List Call}

theorem closed : Pulled c s (.close :: rest) [] := ⟨rfl, nofun, Nat.zero_le _, nofun⟩

theorem last (h : finishes (c.pull s).outcome) :
    Pulled c s (.next :: rest) [(c.pull s).outcome] where
  answers_eq := rfl
  goes_on := nofun
  length_le := Nat.le_add_left 1 _
  finished _ := ⟨_, rfl, h⟩

theorem cons (h : finishes (c.pull s).outcome = false) {outcomes : List (Outcome ε (Option α))}
    (hrest : Pulled c (c.pull s).state rest outcomes) :
    Pulled c s (.next :: rest) ((c.pull s).outcome :: outcomes) where
  answers_eq := congrArg (_ :: ·) hrest.answers_eq
  goes_on o ho := by
    cases outcomes with
    | nil => cases ho
    | cons o' outcomes =>
      obtain rfl | ho := List.mem_cons.mp ho
      · exact h
      · exact hrest.goes_on o ho
  length_le := Nat.succ_le_succ hrest.length_le
  finished hlt := by
    obtain ⟨o, ho, hfinishes⟩ := hrest.finished (Nat.lt_of_succ_lt_succ hlt)
    refine ⟨o, ?_, hfinishes⟩
    rw [List.getLast?_cons, Option.mem_def.mp ho]
    rfl

theorem of_noted {before : List Operation} {calls : List Call}
    {outcomes : List (Outcome ε (Option α))} (h : Pulled c.noted (s, before) calls outcomes) :
    Pulled c s calls outcomes :=
  { h with answers_eq := by simpa only [Cursor.run_noted] using h.answers_eq }

end Pulled

theorem run_finished (c : Cursor σ α ε) (s : σ) (calls : List Call) :
    run c.toSource ⟨s, true⟩ calls =
      ⟨.replicate (calls.count .next) (.ok none),
        ⟨(c.run s (.replicate (calls.count .close) .close)).state, true⟩⟩ := by
  induction calls generalizing s with
  | nil => rfl
  | cons call rest ih =>
    cases call with
    | next =>
      rw [run, next_finished, ih, List.count_cons_self, List.count_cons_of_ne (by decide)]
      rfl
    | close =>
      show run c.toSource ⟨(c.close s).state, true⟩ rest = _
      rw [ih, List.count_cons_self, List.count_cons_of_ne (by decide)]
      rfl

theorem run_next (c : Cursor σ α ε) (s : σ) (rest : List Call) :
    run c.toSource (.start s) (.next :: rest) =
      let later := run c.toSource ⟨(c.pull s).state, finishes (c.pull s).outcome⟩ rest
      ⟨handed (c.pull s).outcome :: later.nexts, later.state⟩ := by
  simp only [run, next_start]

/-- What a feed hands on, and which calls its source gets for that. -/
structure Hands (c : Cursor σ α ε) (s : σ) (calls : List Call)
    (outcomes : List (Outcome ε (Option α))) : Prop where
  nexts_eq : (run c.toSource (.start s) calls).nexts = outcomes.map handed ++
    .replicate (calls.count .next - outcomes.length) (.ok none)
  inner_eq : (run c.toSource (.start s) calls).state.inner =
    (c.run s (.replicate outcomes.length .pull ++ .replicate (calls.count .close) .close)).state

theorem hands (c : Cursor σ α ε) (s : σ) (calls : List Call) :
    ∃ outcomes, Pulled c s calls outcomes ∧ Hands c s calls outcomes := by
  -- A feed that a request does not finish is as good as new, so the rest of the calls may start
  -- from there.
  induction calls generalizing s with
  | nil => exact ⟨[], ⟨rfl, nofun, Nat.le_refl 0, nofun⟩, rfl, rfl⟩
  | cons call rest ih =>
    cases call with
    | close =>
      have hrun := run_finished c s (.close :: rest)
      exact ⟨[], .closed, congrArg Run.nexts hrun, congrArg (·.state.inner) hrun⟩
    | next =>
      have hrun := run_next c s rest
      have hcount : (Call.next :: rest).count .close = rest.count .close :=
        List.count_cons_of_ne (by decide)
      cases h : finishes (c.pull s).outcome with
      | true =>
        rw [h, run_finished] at hrun
        refine ⟨_, .last h, ?_, ?_⟩
        · rw [hrun, List.count_cons_self]
          rfl
        · rw [hrun, hcount]
          rfl
      | false =>
        obtain ⟨outcomes, hpulled, hnexts, hinner⟩ := ih (c.pull s).state
        rw [h] at hrun
        refine ⟨_, .cons h hpulled, ?_, ?_⟩
        · rw [hrun, List.count_cons_self, List.length_cons, Nat.add_sub_add_right]
          exact congrArg (_ :: ·) hnexts
        · rw [hrun, hcount]
          exact hinner

theorem run_noted (c : Cursor σ α ε) (s : Feed σ) (before : List Operation) (calls : List Call) :
    ∃ after, run c.noted.toSource ⟨(s.inner, before), s.finished⟩ calls =
      let r := run c.toSource s calls
      ⟨r.nexts, ⟨(r.state.inner, after), r.state.finished⟩⟩ := by
  induction calls generalizing s before with
  | nil => exact ⟨before, rfl⟩
  | cons call rest ih =>
    obtain ⟨inner, finished⟩ := s
    cases call with
    | close => exact ih ⟨(c.close inner).state, true⟩ (before ++ [.close])
    | next =>
      cases finished with
      | true =>
        obtain ⟨after, hafter⟩ := ih ⟨inner, true⟩ before
        refine ⟨after, ?_⟩
        simp only [run, next_finished, hafter]
      | false =>
        obtain ⟨after, hafter⟩ :=
          ih ⟨(c.pull inner).state, finishes (c.pull inner).outcome⟩ (before ++ [.pull])
        have hplain : run c.toSource ⟨inner, false⟩ (.next :: rest) = _ := run_next c inner rest
        rw [hplain]
        refine ⟨after, (run_next c.noted (inner, before) rest).trans ?_⟩
        exact congrArg (fun r => Run.mk (_ :: r.nexts) r.state) hafter

theorem element_of_goes_on {o : Outcome ε (Option α)} (h : finishes o = false)
    (hback : ∀ m, o ≠ .panic m) : ∃ x, o = .ok (some x) := by
  rcases o with (_ | x) | e | m
  · cases h
  · exact ⟨x, rfl⟩
  · cases h
  · exact absurd rfl (hback m)

def Shaped (nexts : List (Outcome ε (Option (Except ε α)))) : Prop :=
  ∃ (xs : List α) (fault : Option ε) (k : Nat),
    nexts = xs.map (fun x => .ok (some (.ok x))) ++
      fault.toList.map (fun e => .ok (some (.error e))) ++ .replicate k (.ok none)

theorem shaped_handed {outcomes : List (Outcome ε (Option α))}
    (hgoes : ∀ o ∈ outcomes.dropLast, finishes o = false)
    (hback : ∀ o ∈ outcomes, ∀ m, o ≠ .panic m) (k : Nat) :
    Shaped (outcomes.map handed ++ .replicate k (.ok none)) := by
  induction outcomes with
  | nil => exact ⟨[], none, k, rfl⟩
  | cons o rest ih =>
    cases rest with
    | nil =>
      rcases o with (_ | x) | e | m
      · exact ⟨[], none, k + 1, rfl⟩
      · exact ⟨[x], none, k, rfl⟩
      · exact ⟨[], some e, k, rfl⟩
      · exact absurd rfl (hback _ List.mem_cons_self m)
    | cons o' rest =>
      have hfirst := hgoes o List.mem_cons_self
      obtain ⟨x, rfl⟩ := element_of_goes_on hfirst (hback o List.mem_cons_self)
      obtain ⟨xs, fault, k, hshape⟩ := ih (fun o ho => hgoes o (List.mem_cons_of_mem _ ho))
        fun o ho => hback o (List.mem_cons_of_mem _ ho)
      exact ⟨x :: xs, fault, k, congrArg (_ :: ·) hshape⟩

theorem ne_panic_of_answers {c : Cursor σ α ε} (hc : c.toSource.Returns) {s : σ}
    {outcomes : List (Outcome ε (Option α))}
    (h : (c.run s (.replicate outcomes.length .pull)).answers = outcomes.map .pull) :
    ∀ o ∈ outcomes, ∀ m, o ≠ .panic m := by
  induction outcomes generalizing s with
  | nil => exact nofun
  | cons o rest ih =>
    obtain ⟨hanswer, hrest⟩ := List.cons.inj h
    intro o' ho'
    obtain rfl | ho' := List.mem_cons.mp ho'
    · rw [← Answer.pull.inj hanswer]
      exact hc.pull s
    · exact ih hrest o' ho'

theorem run_follows {c : Cursor σ α ε} {m : Course α ε} {s : σ} (h : c.Follows m s) {k : Nat}
    (hk : k ≤ m.elements.length) :
    run c.toSource (.start s) (.replicate k .next) =
      ⟨(m.elements.take k).map fun x => .ok (some (.ok x)),
        .start (c.run s (.replicate k .pull)).state⟩ := by
  induction k generalizing m s with
  | zero => rfl
  | succ k ih =>
    obtain ⟨_ | ⟨x, xs⟩, e, closing⟩ := m
    · cases hk
    · obtain ⟨hpull, hleft⟩ := h.pull rfl
      have hlater := ih hleft (Nat.le_of_succ_le_succ hk)
      have houtcome : (c.pull s).outcome = .ok (some x) := congrArg Reply.outcome hpull
      rw [List.replicate_succ, run_next, houtcome]
      exact congrArg (fun r => Run.mk (_ :: r.nexts) r.state) hlater

/-- However often a feed is asked and closed, in whatever order: it hands on what successive pulls
of its source come to, until one of them finishes it or it is closed, and nothing afterwards. Its
source gets these pulls, and a close for each close of the feed; no other call is made. A source
that keeps the contract, taken back after some requests, has all its other elements left, and its
ending. -/
theorem fused_and_lossless :
    (∀ (c : Cursor σ α ε) s calls, ∃ outcomes,
      Pulled c s calls outcomes ∧ Hands c s calls outcomes ∧
      (run c.noted.toSource (.start (s, [])) calls).state.inner.2 =
        .replicate outcomes.length .pull ++ .replicate (calls.count .close) .close ∧
      (c.toSource.Returns → Shaped (run c.toSource (.start s) calls).nexts)) ∧
    ∀ (c : Cursor σ α ε) m s k, c.Follows m s → k ≤ m.elements.length →
      let pulls := List.replicate k .pull
      run c.noted.toSource (.start (s, [])) (.replicate k .next) =
        ⟨(m.elements.take k).map fun x => .ok (some (.ok x)),
          .start ((c.run s pulls).state, pulls)⟩ ∧
      c.Follows { m with elements := m.elements.drop k } (c.run s pulls).state := by
  constructor
  · intro c s calls
    obtain ⟨outcomes, hpulled, hnexts, hinner⟩ := hands c.noted (s, []) calls
    obtain ⟨after, hafter⟩ := run_noted c (.start s) [] calls
    have hran : run c.noted.toSource (.start (s, [])) calls = _ := hafter
    rw [hran] at hnexts hinner
    rw [Cursor.run_noted] at hinner
    obtain ⟨hstate, hcalls⟩ := Prod.mk.inj hinner
    refine ⟨outcomes, hpulled.of_noted, ⟨hnexts, hstate⟩, ?_, fun hc => ?_⟩
    · rw [hran]
      exact hcalls
    · rw [show (run c.toSource (.start s) calls).nexts = _ from hnexts]
      exact shaped_handed hpulled.goes_on (ne_panic_of_answers hc hpulled.of_noted.answers_eq) _
  · intro c m s k h hk pulls
    have hrun := run_follows (h.noted []) hk
    rw [Cursor.run_noted] at hrun
    have hleft := h.past k
    rw [Course.past, if_pos hk] at hleft
    exact ⟨hrun, hleft⟩

/-- The first element was ahead already when the feed was made, and the other one is still there
when the source is taken back. A source that goes on behind its end is not asked again. -/
theorem fused_and_lossless_above_lookahead :
    let p : Plan := .peekable (.items [.null, .bool true])
    let c := p.cursor.toCursor
    let s := (c.call p.start .hasNext).state
    let unused := [some 1, none, some 2]
    let calls : List Call := [.next, .next, .next, .close, .next]
    c.Follows p.course s ∧
    run c.noted.toSource (.start (s, [])) [.next] =
      ⟨[.ok (some (.ok .null))], .start ((c.run s [.pull]).state, [.pull])⟩ ∧
    c.Follows ⟨[.bool true], none, none⟩ (c.run s [.pull]).state ∧
    Sink.resuming.toSource.Returns ∧
    Shaped (run Sink.resuming.toSource (.start unused) calls).nexts := by
  intro p c s unused calls
  have hcourse : c.Follows p.course p.start := Plan.Plain.follows trivial
  have hfollows : c.Follows p.course s := (hcourse.call (nofun : Operation.hasNext ≠ .close)).2
  obtain ⟨hrun, hleft⟩ := fused_and_lossless.2 c p.course s 1 hfollows (by decide)
  obtain ⟨_, _, _, _, hshaped⟩ := fused_and_lossless.1 Sink.resuming unused calls
  exact ⟨hfollows, hrun, hleft, Sink.resuming_returns, hshaped Sink.resuming_returns⟩

end PullCursor.Feed
