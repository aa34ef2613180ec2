import PullCursor.Proofs.Series.Ledger

/-! A concatenation keeps one child open and accounts for all of them, after any requests in any
order, also when an element or a close has failed on the way. -/
namespace PullCursor.Series

variable {τ α ε : Type}

section Phases

variable (c : Cursor τ α ε) (children : List τ) (id : String)

def Said (i : Nat) (a : Answer α ε) (seen : List Event) : Prop :=
  ∃ r, courseOf c children i seen = some r ∧ a ∈ r.answers

/-- The child reported its end, and was closed then without a failure. -/
def Finished (i : Nat) (seen : List Event) : Prop :=
  ∃ r, courseOf c children i seen = some r ∧ [.pull (.ok none), .close (.ok ())] <:+ r.answers

/-- Whenever the supply was asked for another child, the child before it had finished. -/
def OneByOne (seen : List Event) : Prop :=
  ∀ i before, before ++ [.taken id (i + 1)] <+: seen → Finished c children i before

def Failed : Answer α ε → Prop
  | .pull (.error _) | .close (.error _) => True
  | _ => False

/-- The concatenation has not been closed. If a child has failed, nothing happened after that. -/
structure Unclosed (seen : List Event) (s : Series (Nat × τ)) : Prop
    extends Ledger c children seen s where
  oneByOne : OneByOne c children id seen
  pull_failed : ∀ i e, Said c children i (.pull (.error e)) seen →
    i = s.position ∧ s.current.isSome
  close_failed : ∀ i e, Said c children i (.close (.error e)) seen →
    i + 1 = s.position ∧ s.current = none

structure Running (seen : List Event) (s : Series (Nat × τ)) : Prop
    extends Ledger c children seen s where
  oneByOne : OneByOne c children id seen
  asked_eq : s.asked = s.taken
  finished : ∀ i < s.position, Finished c children i seen
  well : ∀ i a, Said c children i a seen → ¬ Failed a

end Phases

variable {c : Cursor τ α ε} {children : List τ} {id : String} {seen : List Event}

theorem Said.quiet {i : Nat} {a : Answer α ε} {t : List Event} (ht : callsOn i t = [])
    (h : Said c children i a (seen ++ t)) : Said c children i a seen := by
  rwa [Said, courseOf_quiet ht] at h

theorem Said.called {i p : Nat} {a : Answer α ε} {op : Operation} {r : Run τ α ε}
    (hr : courseOf c children p seen = some r)
    (h : Said c children i a (seen ++ [.called (tally p) op])) :
    Said c children i a seen ∨ i = p ∧ a = (c.call r.state op).answer := by
  by_cases hne : p = i
  · subst hne
    obtain ⟨r', hr', ha⟩ := h
    rw [courseOf_called, hr] at hr'
    cases hr'
    obtain ha | ha := List.mem_append.1 ha
    · exact .inl ⟨r, hr, ha⟩
    · exact .inr ⟨rfl, List.mem_singleton.1 ha⟩
  · exact .inl (h.quiet (by simp [hne]))

theorem Finished.quiet {i : Nat} {t : List Event} (ht : callsOn i t = [])
    (h : Finished c children i seen) : Finished c children i (seen ++ t) := by
  rwa [Finished, courseOf_quiet ht]

theorem OneByOne.start : OneByOne c children id [] := by
  intro i before h
  simp at h

theorem OneByOne.concat (h : OneByOne c children id seen) {e : Event}
    (he : ∀ i, e = .taken id (i + 1) → Finished c children i seen) :
    OneByOne c children id (seen ++ [e]) := by
  intro i before hbefore
  obtain heq | hprefix := List.prefix_concat_iff.1 hbefore
  · obtain ⟨rfl, hlast⟩ := List.append_inj' heq rfl
    exact he i (List.singleton_inj.1 hlast).symm
  · exact h i before hprefix

theorem Unclosed.logged {s : Series (Nat × τ)} (h : Unclosed c children id seen s)
    (notice : Notice) : Unclosed c children id (seen ++ [.log notice]) s where
  toLedger := h.toLedger.quiet fun i => callsOn_log i notice
  oneByOne := h.oneByOne.concat nofun
  pull_failed i e hsaid := h.pull_failed i e (hsaid.quiet (callsOn_log i notice))
  close_failed i e hsaid := h.close_failed i e (hsaid.quiet (callsOn_log i notice))

namespace Running

variable {position asked : Nat} {rest : List (Option (Nat × τ))} {x : τ}

theorem toUnclosed {s : Series (Nat × τ)} (h : Running c children id seen s) :
    Unclosed c children id seen s where
  toLedger := h.toLedger
  oneByOne := h.oneByOne
  pull_failed i _ hsaid := absurd trivial (h.well i _ hsaid)
  close_failed i _ hsaid := absurd trivial (h.well i _ hsaid)

theorem start : Running c children id [] ⟨none, 0, untaken children 0, 0⟩ where
  toLedger := .start children
  oneByOne := .start
  asked_eq := rfl
  finished := nofun
  well := by
    rintro i a ⟨r, hr, ha⟩
    obtain ⟨s, -, rfl⟩ := Option.map_eq_some_iff.1 hr
    cases ha

theorem blame (h : Running c children id seen ⟨some (position, x), position, rest, asked⟩)
    {i : Nat} {a : Answer α ε} {op : Operation}
    (hsaid : Said c children i a (seen ++ [.called (tally position) op])) (hfailed : Failed a) :
    i = position ∧ a = (c.call x op).answer := by
  obtain ⟨r, hr, rfl⟩ := h.toLedger.course
  obtain hold | hlast := hsaid.called hr
  · exact absurd hfailed (h.well i a hold)
  · exact hlast

theorem pulled (h : Running c children id seen ⟨some (position, x), position, rest, asked⟩) :
    Unclosed c children id (seen ++ [.called (tally position) .pull])
      ⟨some (position, (c.pull x).state), position, rest, asked⟩ where
  toLedger := h.toLedger.pull
  oneByOne := h.oneByOne.concat nofun
  pull_failed _ _ hsaid := ⟨(h.blame hsaid trivial).1, rfl⟩
  close_failed _ _ hsaid := nomatch (h.blame hsaid trivial).2

theorem pull (h : Running c children id seen ⟨some (position, x), position, rest, asked⟩)
    (hok : ∀ e, (c.pull x).outcome ≠ .error e) :
    Running c children id (seen ++ [.called (tally position) .pull])
      ⟨some (position, (c.pull x).state), position, rest, asked⟩ where
  toLedger := h.toLedger.pull
  oneByOne := h.oneByOne.concat nofun
  asked_eq := h.asked_eq
  finished i hi := by
    have hne : position ≠ i := Nat.ne_of_gt hi
    exact (h.finished i hi).quiet (by simp [hne])
  well i a hsaid hfailed := by
    obtain ⟨-, rfl⟩ := h.blame hsaid hfailed
    change Failed (.pull (c.pull x).outcome) at hfailed
    cases ho : (c.pull x).outcome with
    | error e => exact hok e ho
    | _ => rwa [ho] at hfailed

theorem closed (h : Running c children id seen ⟨some (position, x), position, rest, asked⟩) :
    Unclosed c children id (seen ++ [.called (tally position) .close])
      ⟨none, position + 1, rest, asked⟩ where
  toLedger := h.toLedger.close
  oneByOne := h.oneByOne.concat nofun
  pull_failed _ _ hsaid := nomatch (h.blame hsaid trivial).2
  close_failed _ _ hsaid := ⟨congrArg (· + 1) (h.blame hsaid trivial).1, rfl⟩

theorem finish (h : Running c children id seen ⟨some (position, x), position, rest, asked⟩)
    (hpull : (c.pull x).outcome = .ok none) (hclose : (c.close (c.pull x).state).outcome = .ok ()) :
    Running c children id
      (seen ++ [.called (tally position) .pull] ++ [.called (tally position) .close])
      ⟨none, position + 1, rest, asked⟩ := by
  have hpulled := h.pull (by simp [hpull])
  refine ⟨hpulled.toLedger.close, hpulled.oneByOne.concat nofun, h.asked_eq, ?_, ?_⟩
  · intro i hi
    by_cases hne : position = i
    · subst hne
      obtain ⟨r, hr, rfl⟩ := h.toLedger.course
      refine ⟨_, by rw [courseOf_called, courseOf_called, hr, Option.map_some, Option.map_some],
        r.answers, ?_⟩
      simp [Cursor.extend, Cursor.call, hpull, hclose]
    · have hlt : i < position := by
        have hle : i < position + 1 := hi
        omega
      exact (hpulled.finished i hlt).quiet (by simp [hne])
  · intro i a hsaid hfailed
    obtain ⟨-, rfl⟩ := hpulled.blame hsaid hfailed
    change Failed (.close (c.close (c.pull x).state).outcome) at hfailed
    rwa [hclose] at hfailed

theorem oneByOne_asked (h : Running c children id seen ⟨none, position, rest, asked⟩) :
    OneByOne c children id (seen ++ watched id asked) := by
  have hasked : asked = position := h.asked_eq
  refine h.oneByOne.concat fun i hi => h.finished i ?_
  cases hi
  show i < position
  omega

theorem advance (h : Running c children id seen ⟨none, position, rest, asked⟩) :
    let r : Reply _ ε (Turn (Option α)) :=
      Series.advance (watched id) ⟨none, position, rest, asked⟩
    (r.outcome = .ok .again ∧ Running c children id (seen ++ r.trace) r.state) ∨
      r.outcome = .ok (.stop none) ∧ Unclosed c children id (seen ++ r.trace) r.state := by
  have hquiet (i : Nat) := callsOn_watched i asked id
  obtain ⟨rfl, rfl⟩ | ⟨x, rest', rfl, hx⟩ := h.toLedger.supply
  · rw [advance_nil]
    refine .inr ⟨rfl, h.toLedger.asked_again id, h.oneByOne_asked, ?_, ?_⟩
    · exact fun i e hsaid => absurd trivial (h.well i _ (hsaid.quiet (hquiet i)))
    · exact fun i e hsaid => absurd trivial (h.well i _ (hsaid.quiet (hquiet i)))
  · rw [advance_child]
    refine .inl ⟨rfl, hx.asked_again id, h.oneByOne_asked, ?_, ?_, ?_⟩
    · exact congrArg (· + 1) h.asked_eq
    · exact fun i hi => (h.finished i hi).quiet (hquiet i)
    · exact fun i a hsaid => h.well i a (hsaid.quiet (hquiet i))

end Running

section Pull

variable (c children id)

def After : Outcome ε (Option α) → List Event → Series (Nat × τ) → Prop
  | .ok (some _) => Running c children id
  | .ok none | .error _ => Unclosed c children id
  | .panic _ => fun _ _ => False

variable {c children id} (hpull : ∀ s m, (c.pull s).outcome ≠ .panic m)
  (hclose : ∀ s m, (c.close s).outcome ≠ .panic m)
include hpull hclose

theorem turn_leads : (turn c.numbered.toSource (watched id)).Leads (Running c children id)
    (Action.OrAgain (Running c children id) (After c children id)) := by
  -- Only a child that has ended is put away; whatever else it answers, it stays in use.
  rintro seen ⟨_ | ⟨i, x⟩, position, rest, asked⟩ h
  · rw [turn_none]
    obtain ⟨ho, h⟩ | ⟨ho, h⟩ := h.advance (α := α)
    · rw [ho]
      exact h
    · rw [ho]
      exact h
  · obtain rfl : i = position := (h.inUse _ rfl).1
    rw [turn_child, Cursor.pull_numbered]
    cases ho : (c.pull x).outcome with
    | ok y =>
      cases y with
      | some y => exact h.pull (by simp [ho])
      | none =>
        simp only [Cursor.close_numbered]
        cases ho' : (c.close (c.pull x).state).outcome with
        | ok _ =>
          obtain ⟨hr, h⟩ | ⟨hr, h⟩ := (h.finish ho ho').advance (α := α)
          · simp only [hr]
            simpa [Action.OrAgain] using h
          · simp only [hr]
            simpa [Action.OrAgain, After] using h
        | error e =>
          have h := (h.pull (by simp [ho])).closed
          simpa [Action.OrAgain, After] using h
        | panic m => exact absurd ho' (hclose _ m)
    | error e => exact h.pulled
    | panic m => exact absurd ho (hpull x m)

theorem pull_leads : (source c.numbered.toSource (watched id)).pull.Leads
    (Running c children id) (After c children id) :=
  .loop (turn_leads hpull hclose)

end Pull

/-- What is known of the concatenation in each stage of the lookahead above it. -/
def Accounted (c : Cursor τ α ε) (children : List τ) (id : String) (seen : List Event)
    (s : Lookahead (Series (Nat × τ)) α) : Prop :=
  match s.stage with
  | .idle | .ready _ => Running c children id seen s.inner
  | .ended | .failed => Unclosed c children id seen s.inner
  | .closed => Settled c children seen s.inner

theorem Accounted.ledger {s : Lookahead (Series (Nat × τ)) α}
    (h : Accounted c children id seen s) : Ledger c children seen s.inner := by
  obtain ⟨inner, stage⟩ := s
  cases stage <;> exact h.toLedger

theorem Accounted.unclosed {s : Lookahead (Series (Nat × τ)) α}
    (h : Accounted c children id seen s) (hs : s.stage.isClosed = false) :
    Unclosed c children id seen s.inner := by
  obtain ⟨inner, stage⟩ := s
  cases stage with
  | idle | ready => exact h.toUnclosed
  | ended | failed => exact h
  | closed => cases hs

theorem Accounted.settled {s : Lookahead (Series (Nat × τ)) α}
    (h : Accounted c children id seen s) (hs : s.stage.isClosed) :
    Settled c children seen s.inner := by
  obtain ⟨inner, stage⟩ := s
  cases stage with
  | closed => exact h
  | _ => cases hs

theorem Accounted.settle {inner : Series (Nat × τ)} {stage : Stage α} (p : Lookahead.Poll α)
    (h : Accounted c children id seen ⟨inner, stage⟩) :
    Accounted c children id seen ⟨inner, p.settle stage⟩ := by
  cases stage with
  | ready x => cases p <;> exact h
  | _ => exact h

theorem Accounted.close {ε' β : Type} {release : Action (Series (Nat × τ)) ε' β}
    (hrelease : release.Leads (Ledger c children) fun _ => Settled c children)
    {s : Lookahead (Series (Nat × τ)) α} (h : Accounted c children id seen s) :
    let notices := if s.stage.isFailed then [.log .closingFailed] else []
    Accounted c children id (seen ++ (notices ++ (release s.inner).trace))
      ⟨(release s.inner).state, .closed⟩ := by
  intro notices
  rw [← List.append_assoc]
  refine hrelease (seen ++ notices) s.inner (h.ledger.quiet fun i => ?_)
  show callsOn i (if s.stage.isFailed then [.log .closingFailed] else []) = []
  split <;> rfl

section Serve

variable (hpull : ∀ s m, (c.pull s).outcome ≠ .panic m)
  (hclose : ∀ s m, (c.close s).outcome ≠ .panic m)
include hpull hclose

theorem look_leads : (Lookahead.look (source c.numbered.toSource (watched id))).Leads
    (Accounted c children id) fun _ => Accounted c children id := by
  rintro seen ⟨inner, stage⟩ h
  cases stage with
  | idle =>
    have hafter := pull_leads hpull hclose seen inner h
    rw [Lookahead.look_idle]
    rcases e : (source c.numbered.toSource (watched id)).pull inner with
      ⟨(_ | x) | e | m, inner', t⟩ <;> rw [e] at hafter
    · exact hafter
    · exact hafter
    · rw [← List.append_assoc]
      exact hafter.logged _
    · exact hafter.elim
  | _ => simpa [Lookahead.look] using h

theorem poll_accounts (p : Lookahead.Poll α) {s : Lookahead (Series (Nat × τ)) α}
    (h : Accounted c children id seen s) :
    let served : Lookahead.Served (Series (Nat × τ)) α (Aggregate ε) ε :=
      Lookahead.serve (source c.numbered.toSource (watched id)) s (.poll p)
    Accounted c children id (seen ++ served.trace) served.state := by
  have hlook := look_leads hpull hclose seen s h
  rw [Lookahead.serve_poll]
  rcases e : Lookahead.look (source c.numbered.toSource (watched id)) s with
    ⟨_ | _ | _, s', t⟩ <;> rw [e] at hlook
  · exact hlook.settle p
  · exact hlook
  · exact hlook

theorem serve_accounts (r : Request) {s : Lookahead (Series (Nat × τ)) α}
    (h : Accounted c children id seen s) :
    Accounted c children id (seen ++ (serve c.numbered.toSource (watched id) s r).trace)
      (serve c.numbered.toSource (watched id) s r).state := by
  cases r with
  | hasNext | next | pull => exact poll_accounts hpull hclose _ h
  | close =>
    unfold serve Request.toLookahead
    rw [Lookahead.serve_close]
    cases s.stage.isClosed with
    | true => simpa using h
    | false => exact h.close (release_leads hclose id)
  | closeGathering =>
    unfold serve Request.toLookahead
    rw [Lookahead.serve_closeBy]
    cases s.stage.isClosed with
    | true => simpa using h
    | false => exact h.close (closeAll_leads hclose id)

theorem serveAll_accounts (requests : List Request) {s : Lookahead (Series (Nat × τ)) α}
    (h : Accounted c children id seen s) :
    Accounted c children id (seen ++ (serveAll c.numbered.toSource (watched id) s requests).trace)
      (serveAll c.numbered.toSource (watched id) s requests).state := by
  induction requests generalizing seen s with
  | nil => simpa [serveAll] using h
  | cons r rest ih =>
    have hrest := ih (serve_accounts hpull hclose r h)
    rwa [List.append_assoc] at hrest

end Serve

theorem rewrite_start (children : List τ) :
    (Lookahead.start (start (untaken children 0)) : Lookahead (Series (Nat × τ)) α).rewrite
      (rewrite Prod.snd) = .start (start (children.map some)) := by
  have hrest : (untaken children 0).map (Option.map Prod.snd) = children.map some := by
    rw [untaken, List.drop_zero, List.map_map, ← List.zipIdx_map_fst 0 children, List.map_map,
      List.zipIdx_map_fst]
    rfl
  exact congrArg (fun rest => Lookahead.start (start rest)) hrest

/-- However the children answer, as long as they come back: between any two requests the children
up to the position have been closed, once and last; the one in use, if there is one, stands at the
position and is open; and the supply has the others, on which nothing was called. Until the
concatenation is closed it takes no child before the last one has ended and was closed without a
failure, and a failing child stays where it is. Once it is closed, so is every child.

Numbers make the calls on each child visible. The caller notices nothing of them. -/
theorem one_child_open (c : Cursor τ α ε) (hpull : ∀ s m, (c.pull s).outcome ≠ .panic m)
    (hclose : ∀ s m, (c.close s).outcome ≠ .panic m) (children : List τ) (id : String)
    (requests : List Request) :
    let plain := serveAll c.toSource (watched id) (.start (.start (children.map some))) requests
    let ran := serveAll c.numbered.toSource (watched id) (.start (.start (untaken children 0)))
      requests
    let s := ran.state.inner
    (plain.responses = ran.responses ∧ plain.state = ran.state.rewrite (rewrite Prod.snd)) ∧
    Ledger c children ran.trace s ∧
    if requests.any Request.isClose then
      s.position = children.length ∧ s.current = none ∧
        ∀ i < children.length, ∃ before, callsOn i ran.trace = before ++ [.close] ∧
          .close ∉ before
    else Unclosed c children id ran.trace s := by
  intro plain ran s
  have hstart : Accounted c children id [] (.start (.start (untaken children 0)) :
      Lookahead (Series (Nat × τ)) α) := Running.start
  have hran : Accounted c children id ran.trace ran.state :=
    serveAll_accounts hpull hclose requests hstart
  have hclosed : ran.state.stage.isClosed = requests.any Request.isClose :=
    serveAll_isClosed (watched id) _ requests
  have hplain := serveAll_mirrors c.pull_mirrors c.close_mirrors (watched id)
    (.start (.start (untaken children 0))) requests
  rw [rewrite_start] at hplain
  refine ⟨hplain, hran.ledger, ?_⟩
  cases h : requests.any Request.isClose with
  | true =>
    rw [h] at hclosed
    obtain ⟨hledger, hposition, hcurrent, -⟩ := hran.settled hclosed
    exact ⟨hposition, hcurrent, fun i hi => hledger.passed i (hposition ▸ hi)⟩
  | false =>
    rw [h] at hclosed
    exact hran.unclosed hclosed

def brittle : Cursor (List Nat × Bool) Nat Unit where
  pull s := match s.1 with
    | [] => ⟨.ok none, s, []⟩
    | x :: xs => ⟨.ok (some x), (xs, s.2), []⟩
  close s := ⟨if s.2 then .error () else .ok (), s, []⟩
  hasNext s := ⟨.ok !s.1.isEmpty, s, []⟩
  next s := match s.1 with
    | [] => ⟨.error .exhausted, s, []⟩
    | x :: xs => ⟨.ok x, (xs, s.2), []⟩

theorem one_child_open_brittle :
    let children := [([1], true), ([2], false)]
    let ran := serveAll brittle.numbered.toSource (watched "both")
      (.start (.start (untaken children 0))) [.next, .hasNext, .closeGathering]
    ran.state.inner.position = 2 ∧ ran.state.inner.current = none ∧
      ∀ i < 2, ∃ before, callsOn i ran.trace = before ++ [.close] ∧ .close ∉ before := by
  have hpull (s : List Nat × Bool) (m : String) : (brittle.pull s).outcome ≠ .panic m := by
    obtain ⟨_ | _, _⟩ := s <;> exact nofun
  have hclose (s : List Nat × Bool) (m : String) : (brittle.close s).outcome ≠ .panic m := by
    obtain ⟨_, _ | _⟩ := s <;> exact nofun
  exact (one_child_open brittle hpull hclose [([1], true), ([2], false)] "both"
    [.next, .hasNext, .closeGathering]).2.2

end PullCursor.Series
