import PullCursor.Proofs.Lookahead.Requests

/-! A lookahead computes each element once. The source is made to keep a log of what it computed and
how often it was released, and the caller keeps an account of what came of its requests; the two are
compared after any requests in any order. -/
namespace PullCursor

variable {κ α β γ ε : Type}

def Outcome.element? : Outcome ε (Option α) → Option α
  | .ok x => x
  | _ => none

structure Log (α ε : Type) where
  computed : List (Outcome ε (Option α))
  released : Nat

namespace Log

def empty : Log α ε := ⟨[], 0⟩

def values (l : Log α ε) : List α := l.computed.filterMap Outcome.element?

def faults (l : Log α ε) : List ε := l.computed.filterMap Outcome.fault?

end Log

def Action.logged (m : Action κ ε γ) : Action (κ × Log α ε) ε γ := fun s =>
  let r := m s.1
  ⟨r.outcome, (r.state, ⟨s.2.computed, s.2.released + 1⟩), r.trace⟩

def Source.logged (c : Source κ α ε) : Source (κ × Log α ε) α ε where
  pull s :=
    let r := c.pull s.1
    ⟨r.outcome, (r.state, ⟨s.2.computed ++ [r.outcome], s.2.released⟩), r.trace⟩
  close := c.close.logged

namespace Lookahead

def Request.logged : Request κ α β ε → Request (κ × Log α ε) α β ε
  | .poll p => .poll p
  | .close => .close
  | .closeBy release => .closeBy release.logged
  | .alter f => .alter (Prod.map f id)

def Request.isClose : Request κ α β ε → Bool
  | .close | .closeBy _ => true
  | _ => false

def Response.element? : Response α β ε → Option α
  | .next (.ok x) | .pulled (.ok (some x)) => some x
  | _ => none

def Response.fault? : Response α β ε → Option ε
  | .asked (.error e) | .next (.error (.failed e)) | .pulled (.error e) | .peeked (.error e) =>
      some e
  | _ => none

/-- What the caller knows: the elements it was handed, what it had done to each of them before, what
it has done to the one ahead, the faults it was told of, and how often it has closed. -/
structure Account (α ε : Type) where
  taken : List α
  changes : List (α → α)
  pending : α → α
  faults : List ε
  closes : Nat

namespace Account

def empty : Account α ε := ⟨[], [], id, [], 0⟩

def change (k : Account α ε) : Request κ α β ε → Account α ε
  | .poll p => { k with pending := p.change ∘ k.pending }
  | _ => k

def take (k : Account α ε) (x : α) : Account α ε :=
  { k with taken := k.taken ++ [x], changes := k.changes ++ [k.pending], pending := id }

def enter (k : Account α ε) (r : Request κ α β ε) (a : Response α β ε) : Account α ε :=
  let k := { k.change r with
    faults := k.faults ++ a.fault?.toList
    closes := k.closes + r.isClose.toNat }
  match a.element? with
  | some x => k.take x
  | none => k

theorem enter_close (k : Account α ε) (o : Outcome ε Unit) :
    k.enter (.close : Request κ α β ε) (.closed o) = { k with closes := k.closes + 1 } := by
  simp [enter, change, Response.fault?, Response.element?, Request.isClose]

theorem enter_closeBy (k : Account α ε) (release : Action κ ε β) (o : Outcome ε (Option β)) :
    k.enter (.closeBy release : Request κ α β ε) (.closedBy o) =
      { k with closes := k.closes + 1 } := by
  simp [enter, change, Response.fault?, Response.element?, Request.isClose]

theorem enter_alter (k : Account α ε) (f : κ → κ) :
    k.enter (.alter f : Request κ α β ε) .altered = k := by
  simp [enter, change, Response.fault?, Response.element?, Request.isClose]

@[simp] theorem enter_logged (k : Account α ε) (r : Request κ α β ε) (a : Response α β ε) :
    k.enter r.logged a = k.enter r a := by
  cases r <;> rfl

section Poll

variable (k : Account α ε) (p : Poll α)

theorem enter_fail (e : ε) :
    k.enter (.poll p : Request κ α β ε) (p.fail e) =
      { k with pending := p.change ∘ k.pending, faults := k.faults ++ [e] } := by
  cases p <;> rfl

theorem enter_panic (m : String) :
    k.enter (.poll p : Request κ α β ε) (p.panic m) =
      { k with pending := p.change ∘ k.pending } := by
  cases p <;> simp [enter, change, Poll.panic, Response.fault?, Response.element?, Request.isClose]

theorem enter_answer_over {stage : Stage α} (h : stage.isOver) :
    k.enter (.poll p : Request κ α β ε) (p.answer stage) =
      { k with pending := p.change ∘ k.pending } := by
  cases stage <;> cases p <;> simp [enter, change, Poll.answer, Response.fault?,
    Response.element?, Request.isClose, Stage.head?] <;> cases h

theorem enter_answer_ready (x : α) :
    k.enter (.poll p : Request κ α β ε) (p.answer (.ready x)) = match p with
      | .next | .pull => k.take x
      | _ => { k with pending := p.change ∘ k.pending } := by
  cases p with
  | modifyHead f =>
    cases h : f x <;> simp [enter, change, Poll.answer, h, Response.fault?, Response.element?,
      Request.isClose]
  | _ => simp [enter, change, Poll.answer, Response.fault?, Response.element?, Request.isClose,
      Stage.head?] <;> rfl

end Poll

end Account

structure Ran (κ α ε : Type) where
  account : Account α ε
  state : Lookahead κ α
  trace : List Event

def serveAll (c : Source κ α ε) (k : Account α ε) (s : Lookahead κ α) :
    List (Request κ α β ε) → Ran κ α ε
  | [] => ⟨k, s, []⟩
  | r :: rest =>
      let first := serve c s r
      let later := serveAll c (k.enter r first.response) first.state rest
      ⟨later.account, later.state, first.trace ++ later.trace⟩

def unlogged (s : Lookahead (κ × Log α ε) α) : Lookahead κ α := ⟨s.inner.1, s.stage⟩

theorem look_logged (c : Source κ α ε) (s : Lookahead (κ × Log α ε) α) :
    look c (unlogged s) = ⟨(look c.logged s).outcome, unlogged (look c.logged s).state,
      (look c.logged s).trace⟩ := by
  obtain ⟨⟨inner, log⟩, stage⟩ := s
  cases stage with
  | idle =>
    simp only [unlogged, look_idle, Source.logged]
    rcases c.pull inner with ⟨(_ | x) | _ | _, inner', t⟩ <;> rfl
  | _ => rfl

/-- Keeping a log changes neither the answers nor what happens to the source. -/
theorem serve_logged (c : Source κ α ε) (s : Lookahead (κ × Log α ε) α) (r : Request κ α β ε) :
    serve c (unlogged s) r = ⟨(serve c.logged s r.logged).response,
      unlogged (serve c.logged s r.logged).state, (serve c.logged s r.logged).trace⟩ := by
  cases r with
  | poll p =>
    simp only [Request.logged, serve_poll, look_logged]
    rcases look c.logged s with ⟨_ | _ | _, s', t⟩ <;> rfl
  | close =>
    simp only [Request.logged, serve_close, unlogged]
    split <;> rfl
  | closeBy release =>
    simp only [Request.logged, serve_closeBy, unlogged]
    split <;> rfl
  | alter f => rfl

theorem serveAll_logged (c : Source κ α ε) (k : Account α ε) (s : Lookahead (κ × Log α ε) α)
    (requests : List (Request κ α β ε)) :
    let ran := serveAll c.logged k s (requests.map Request.logged)
    serveAll c k (unlogged s) requests = ⟨ran.account, unlogged ran.state, ran.trace⟩ := by
  induction requests generalizing k s with
  | nil => rfl
  | cons r rest ih =>
    simp only [serveAll, List.map_cons, serve_logged, ih, Account.enter_logged]

/-- The account `k` agrees with the log. The elements that were handed out are `dealt`; at most one
more was computed and is `ahead`; and `last` is the result after which nothing is computed. -/
structure Agrees (k : Account α ε) (s : Lookahead (κ × Log α ε) α) (dealt : List α)
    (ahead : Option α) (last : Option (Outcome ε (Option α))) : Prop where
  computed : s.inner.2.computed =
    (dealt ++ ahead.toList).map (fun v => .ok (some v)) ++ last.toList
  taken : k.taken = List.zipWith (fun change v => change v) k.changes dealt
  changes : k.changes.length = dealt.length
  barren : ∀ o ∈ last, o.element? = none
  faults : k.faults = last.toList.filterMap Outcome.fault?
  released : s.inner.2.released = s.stage.isClosed.toNat
  closes : s.stage.isClosed = decide (0 < k.closes)
  stage : match s.stage with
    | .idle => ahead = none ∧ last = none ∧ k.pending = id
    | .ready x => last = none ∧ ∃ v, ahead = some v ∧ x = k.pending v
    | .ended | .failed => ahead = none ∧ last ≠ none
    | .closed => True

namespace Agrees

variable {k : Account α ε} {s : Lookahead (κ × Log α ε) α} {dealt : List α} {ahead : Option α}
  {last : Option (Outcome ε (Option α))}

theorem of_over (h : Agrees k s dealt ahead last) (hover : s.stage.isOver) (pending : α → α) :
    Agrees { k with pending } s dealt ahead last := by
  refine { h with stage := ?_ }
  have hstage := h.stage
  obtain ⟨inner, stage⟩ := s
  cases stage <;> first | exact hstage | cases hover

theorem start (inner : κ) : Agrees .empty (.start (inner, .empty)) ([] : List α) none
    (none : Option (Outcome ε (Option α))) :=
  ⟨rfl, rfl, rfl, nofun, rfl, rfl, rfl, rfl, rfl, rfl⟩

theorem compute_last {inner inner' : κ} {log : Log α ε} {stage : Stage α}
    (h : Agrees k ⟨(inner, log), .idle⟩ dealt ahead last) (o : Outcome ε (Option α))
    (ho : o.element? = none) (hover : stage = .ended ∨ stage = .failed) :
    Agrees { k with faults := k.faults ++ o.fault?.toList }
      ⟨(inner', ⟨log.computed ++ [o], log.released⟩), stage⟩ dealt none (some o) := by
  obtain ⟨rfl, rfl, hpending⟩ := h.stage
  have hclosed : stage.isClosed = false := by obtain rfl | rfl := hover <;> rfl
  constructor
  · simpa using h.computed
  · exact h.taken
  · exact h.changes
  · rintro _ ⟨⟩
    exact ho
  · simp only [h.faults]
    cases o <;> rfl
  · show log.released = stage.isClosed.toNat
    rw [hclosed]
    exact h.released
  · show stage.isClosed = decide (0 < k.closes)
    rw [hclosed]
    exact h.closes
  · obtain rfl | rfl := hover <;> exact ⟨rfl, nofun⟩

theorem compute_element {inner inner' : κ} {log : Log α ε} (x : α)
    (h : Agrees k ⟨(inner, log), .idle⟩ dealt ahead last) :
    Agrees k ⟨(inner', ⟨log.computed ++ [.ok (some x)], log.released⟩), .ready x⟩ dealt
      (some x) none := by
  obtain ⟨rfl, rfl, hpending⟩ := h.stage
  constructor
  · simpa using h.computed
  · exact h.taken
  · exact h.changes
  · exact nofun
  · exact h.faults
  · exact h.released
  · exact h.closes
  · exact ⟨rfl, x, rfl, by rw [hpending]; rfl⟩

theorem look (c : Source κ α ε) (h : Agrees k s dealt ahead last) :
    ∃ ahead' last', Agrees
      { k with faults := k.faults ++ (Lookahead.look c.logged s).outcome.fault?.toList }
      (Lookahead.look c.logged s).state dealt ahead' last' := by
  obtain ⟨⟨inner, log⟩, stage⟩ := s
  cases stage with
  | idle =>
    rw [look_idle]
    simp only [Source.logged]
    rcases c.pull inner with ⟨(_ | x) | e | m, inner', t⟩
    · exact ⟨_, _, h.compute_last (.ok none) rfl (.inl rfl)⟩
    · refine ⟨some x, none, ?_⟩
      simpa [Outcome.fault?] using h.compute_element x
    · exact ⟨_, _, h.compute_last (.error e) rfl (.inr rfl)⟩
    · exact ⟨_, _, h.compute_last (.panic m) rfl (.inr rfl)⟩
  | _ =>
    refine ⟨ahead, last, ?_⟩
    simpa [Lookahead.look, Outcome.fault?] using h

theorem take {inner : κ × Log α ε} {x : α} (h : Agrees k ⟨inner, .ready x⟩ dealt ahead last) :
    ∃ dealt', Agrees (k.take x) ⟨inner, .idle⟩ dealt' none none := by
  obtain ⟨rfl, v, rfl, rfl⟩ := h.stage
  refine ⟨dealt ++ [v], ?_⟩
  constructor
  · simpa using h.computed
  · simp only [Account.take, h.taken]
    rw [List.zipWith_append h.changes]
    rfl
  · simp [Account.take, h.changes]
  · exact nofun
  · exact h.faults
  · exact h.released
  · exact h.closes
  · exact ⟨rfl, rfl, rfl⟩

theorem edit {inner : κ × Log α ε} {x : α} (h : Agrees k ⟨inner, .ready x⟩ dealt ahead last)
    (change : α → α) :
    Agrees { k with pending := change ∘ k.pending } ⟨inner, .ready (change x)⟩ dealt ahead
      last := by
  obtain ⟨hlast, v, hahead, rfl⟩ := h.stage
  exact { h with stage := ⟨hlast, v, hahead, rfl⟩ }

theorem close_again (h : Agrees k s dealt ahead last) (hclosed : s.stage.isClosed) :
    Agrees { k with closes := k.closes + 1 } s dealt ahead last := by
  refine { h with closes := ?_ }
  rw [hclosed]
  simp

theorem close_open (h : Agrees k s dealt ahead last) (hopen : s.stage.isClosed = false)
    (inner : κ) :
    Agrees { k with closes := k.closes + 1 }
      ⟨(inner, ⟨s.inner.2.computed, s.inner.2.released + 1⟩), .closed⟩ dealt ahead last := by
  refine { h with released := ?_, closes := ?_, stage := trivial }
  · have hreleased := h.released
    rw [hopen] at hreleased
    simp [hreleased, Stage.isClosed]
  · simp [Stage.isClosed]

theorem settle {inner : κ × Log α ε} {stage : Stage α}
    (h : Agrees k ⟨inner, stage⟩ dealt ahead last) (p : Poll α)
    (hstage : (∃ x, stage = .ready x) ∨ stage.isOver) :
    ∃ dealt' ahead' last', Agrees (k.enter (.poll p : Request κ α β ε) (p.answer stage))
      ⟨inner, p.settle stage⟩ dealt' ahead' last' := by
  obtain ⟨x, rfl⟩ | hover := hstage
  · rw [Account.enter_answer_ready]
    cases p with
    | next =>
      obtain ⟨dealt', h'⟩ := h.take
      exact ⟨dealt', _, _, h'⟩
    | pull =>
      obtain ⟨dealt', h'⟩ := h.take
      exact ⟨dealt', _, _, h'⟩
    | _ => exact ⟨_, _, _, h.edit _⟩
  · rw [Account.enter_answer_over k p hover]
    have hsettle : p.settle stage = stage := by cases stage <;> first | rfl | cases hover
    rw [hsettle]
    exact ⟨_, _, _, h.of_over hover _⟩

theorem serve (c : Source κ α ε) (h : Agrees k s dealt ahead last) (r : Request κ α β ε) :
    let served := Lookahead.serve c.logged s r.logged
    ∃ dealt' ahead' last', Agrees (k.enter r served.response) served.state dealt' ahead' last' := by
  cases r with
  | poll p =>
    obtain ⟨ahead', last', hlook⟩ := h.look c
    have hsettles := look_settles c.logged s
    simp only [Request.logged, serve_poll]
    rcases e : Lookahead.look c.logged s with ⟨b | e₁ | m, s', t⟩
    · simp only [e, Outcome.fault?, Option.toList_none, List.append_nil] at hlook ⊢
      refine hlook.settle p ?_
      obtain ⟨-, x, hx⟩ | ⟨-, hover⟩ := look_state c.logged e
      · exact .inl ⟨x, congrArg Lookahead.stage hx⟩
      · exact .inr hover
    · simp only [e, Outcome.fault?, Option.toList_some] at hlook hsettles ⊢
      rw [Account.enter_fail]
      exact ⟨_, _, _, hlook.of_over hsettles _⟩
    · simp only [e, Outcome.fault?, Option.toList_none, List.append_nil] at hlook hsettles ⊢
      rw [Account.enter_panic]
      exact ⟨_, _, _, hlook.of_over hsettles _⟩
  | close =>
    simp only [Request.logged, serve_close]
    cases hclosed : s.stage.isClosed with
    | true => exact ⟨_, _, _, Account.enter_close k _ ▸ h.close_again hclosed⟩
    | false => exact ⟨_, _, _, Account.enter_close k _ ▸ h.close_open hclosed _⟩
  | closeBy release =>
    simp only [Request.logged, serve_closeBy]
    cases hclosed : s.stage.isClosed with
    | true => exact ⟨_, _, _, Account.enter_closeBy k release _ ▸ h.close_again hclosed⟩
    | false => exact ⟨_, _, _, Account.enter_closeBy k release _ ▸ h.close_open hclosed _⟩
  | alter f =>
    refine ⟨dealt, ahead, last, ?_⟩
    rw [show Lookahead.serve c.logged s (Request.alter f).logged = ⟨.altered, ⟨_, _⟩, _⟩ from rfl,
      Account.enter_alter]
    exact { h with }

theorem serveAll (c : Source κ α ε) (h : Agrees k s dealt ahead last)
    (requests : List (Request κ α β ε)) :
    let ran := Lookahead.serveAll c.logged k s (requests.map Request.logged)
    ∃ dealt' ahead' last', Agrees ran.account ran.state dealt' ahead' last' := by
  induction requests generalizing k s dealt ahead last with
  | nil => exact ⟨_, _, _, h⟩
  | cons r rest ih =>
    obtain ⟨dealt', ahead', last', hfirst⟩ := h.serve c r
    simp only [Lookahead.serveAll, List.map_cons, Account.enter_logged]
    exact ih hfirst

theorem values (h : Agrees k s dealt ahead last) : s.inner.2.values = dealt ++ ahead.toList := by
  have hlast : last.toList.filterMap Outcome.element? = [] := by
    cases last with
    | none => rfl
    | some o => simp [h.barren o rfl]
  rw [Log.values, h.computed, List.filterMap_append, List.filterMap_map, hlast, List.append_nil]
  exact List.filterMap_some

theorem log_faults (h : Agrees k s dealt ahead last) : s.inner.2.faults = k.faults := by
  have hnone : ((dealt ++ ahead.toList).map fun v =>
      (.ok (some v) : Outcome ε (Option α))).filterMap Outcome.fault? = [] := by
    rw [List.filterMap_map]
    exact List.filterMap_eq_nil_iff.mpr fun _ _ => rfl
  rw [Log.faults, h.computed, List.filterMap_append, hnone, h.faults, List.nil_append]

theorem barren_over (h : Agrees k s dealt ahead last) {o : Outcome ε (Option α)}
    (hmem : o ∈ s.inner.2.computed) (ho : o.element? = none) : s.stage.isOver := by
  have hlast : last ≠ none := by
    rintro rfl
    rw [h.computed] at hmem
    simp only [Option.toList_none, List.append_nil, List.mem_map] at hmem
    obtain ⟨v, -, rfl⟩ := hmem
    cases ho
  have hstage := h.stage
  obtain ⟨inner, stage⟩ := s
  cases stage with
  | idle => exact absurd hstage.2.1 hlast
  | ready x => exact absurd hstage.1 hlast
  | _ => rfl

theorem closed (h : Agrees k s dealt ahead last) (hcloses : 0 < k.closes) : s.stage.isClosed := by
  rw [h.closes]
  simpa using hcloses

theorem elements_first (h : Agrees k s dealt ahead last) :
    ∀ o ∈ s.inner.2.computed.dropLast, ∃ v, o = .ok (some v) := by
  intro o ho
  have hmem : o ∈ (dealt ++ ahead.toList).map fun v => (.ok (some v) : Outcome ε (Option α)) := by
    rw [h.computed] at ho
    cases last with
    | none => exact (List.dropLast_sublist _).mem (by simpa using ho)
    | some o' => simpa using ho
  obtain ⟨v, -, rfl⟩ := List.mem_map.mp hmem
  exact ⟨v, rfl⟩

theorem taken_values (h : Agrees k s dealt ahead last) :
    k.taken = List.zipWith (fun change v => change v) k.changes s.inner.2.values := by
  have happend : List.zipWith (fun change v => change v) (k.changes ++ [])
      (dealt ++ ahead.toList) = List.zipWith (fun change v => change v) k.changes dealt ++ [] :=
    List.zipWith_append h.changes
  rw [h.values, h.taken]
  simpa using happend.symm

theorem one_ahead (h : Agrees k s dealt ahead last) :
    s.inner.2.values.length = k.taken.length ∨
      s.inner.2.values.length = k.taken.length + 1 ∧ (s.stage.isClosed ∨
        ∃ v, s.inner.2.values.getLast? = some v ∧ s.stage = .ready (k.pending v)) := by
  have htaken : k.taken.length = dealt.length := by
    rw [h.taken, List.length_zipWith, h.changes, Nat.min_self]
  rw [h.values, htaken]
  cases ahead with
  | none => exact .inl (by simp)
  | some v =>
    refine .inr ⟨by simp, ?_⟩
    have hstage := h.stage
    obtain ⟨inner, stage⟩ := s
    cases stage with
    | ready x =>
      obtain ⟨-, v', hv', rfl⟩ := hstage
      cases hv'
      exact .inr ⟨v, by simp, rfl⟩
    | closed => exact .inl rfl
    | _ => cases hstage.1

end Agrees

theorem serve_computed (c : Source κ α ε) (s : Lookahead (κ × Log α ε) α) (r : Request κ α β ε) :
    let served := serve c.logged s r.logged
    served.state.inner.2.computed = s.inner.2.computed ∨
      s.stage = .idle ∧ ∃ o, served.state.inner.2.computed = s.inner.2.computed ++ [o] := by
  cases r with
  | poll p =>
    have hlook : (look c.logged s).state.inner.2.computed = s.inner.2.computed ∨
        s.stage = .idle ∧ ∃ o, (look c.logged s).state.inner.2.computed =
          s.inner.2.computed ++ [o] := by
      obtain ⟨⟨inner, log⟩, stage⟩ := s
      cases stage with
      | idle =>
        refine .inr ⟨rfl, (c.pull inner).outcome, ?_⟩
        simp only [look_idle, Source.logged]
        rcases c.pull inner with ⟨(_ | x) | _ | _, inner', t⟩ <;> rfl
      | _ => exact .inl rfl
    simp only [Request.logged, serve_poll]
    rcases e : look c.logged s with ⟨_ | _ | _, s', t⟩ <;> simpa only [e] using hlook
  | close =>
    simp only [Request.logged, serve_close]
    split <;> exact .inl rfl
  | closeBy release =>
    simp only [Request.logged, serve_closeBy]
    split <;> exact .inl rfl
  | alter f => exact .inl rfl

theorem serve_over (c : Source κ α ε) {s : Lookahead (κ × Log α ε) α} (h : s.stage.isOver)
    (r : Request κ α β ε) : (serve c.logged s r.logged).state.stage.isOver := by
  cases r with
  | poll p =>
    simp only [Request.logged, serve_poll, look_over c.logged h]
    obtain ⟨inner, stage⟩ := s
    cases stage <;> first | rfl | cases h
  | close =>
    simp only [Request.logged, serve_close]
    split
    · exact h
    · rfl
  | closeBy release =>
    simp only [Request.logged, serve_closeBy]
    split
    · exact h
    · rfl
  | alter f => exact h

theorem serveAll_over (c : Source κ α ε) (k : Account α ε) {s : Lookahead (κ × Log α ε) α}
    (h : s.stage.isOver) (requests : List (Request κ α β ε)) :
    (serveAll c.logged k s (requests.map Request.logged)).state.inner.2.computed =
      s.inner.2.computed := by
  induction requests generalizing k s with
  | nil => rfl
  | cons r rest ih =>
    have hfirst : (serve c.logged s r.logged).state.inner.2.computed = s.inner.2.computed := by
      obtain hsame | ⟨hidle, -⟩ := serve_computed c s r
      · exact hsame
      · rw [hidle] at h
        cases h
    exact (ih _ (serve_over c h r)).trans hfirst

theorem serve_again (c : Source κ α ε) {s : Lookahead (κ × Log α ε) α} (h : s.stage.isClosed)
    (r : Request κ α β ε) (hr : r.isClose) :
    let served := serve c.logged s r.logged
    served.state = s ∧
      (served.response = .closed (.ok ()) ∨ served.response = .closedBy (.ok none)) := by
  cases r with
  | close => simp [Request.logged, serve_close, h]
  | closeBy release => simp [Request.logged, serve_closeBy, h]
  | _ => cases hr

/-- Any requests, in any order, whatever comes of each and however the source is altered in
between. Keeping the log changes nothing. All results but the last are elements. The elements
handed out are those that were computed, in order, each with the changes that were made to it while
it was ahead; at most one is missing, which is still ahead or was dropped by a close. Each fault
was reported, once. The first close runs a release action, and later ones do not. A request
computes only if no element is ahead, and then once; and nothing is computed after the end, a
fault, a panic or a close. -/
theorem computes_once (c : Source κ α ε) (inner : κ) (requests : List (Request κ α β ε)) :
    let ran := serveAll c.logged .empty (.start (inner, .empty)) (requests.map Request.logged)
    let account := ran.account
    let stage := ran.state.stage
    let log := ran.state.inner.2
    serveAll c .empty (.start inner) requests = ⟨account, unlogged ran.state, ran.trace⟩ ∧
    (∀ o ∈ log.computed.dropLast, ∃ v, o = .ok (some v)) ∧
    account.taken = List.zipWith (fun change v => change v) account.changes log.values ∧
    (log.values.length = account.taken.length ∨
      log.values.length = account.taken.length + 1 ∧
        (stage.isClosed ∨ ∃ v, log.values.getLast? = some v ∧ stage = .ready (account.pending v))) ∧
    account.faults = log.faults ∧ log.faults.length ≤ 1 ∧
    log.released = min account.closes 1 ∧
    (0 < account.closes → ∀ r : Request κ α β ε, r.isClose →
      let served := serve c.logged ran.state r.logged
      served.state = ran.state ∧
        (served.response = .closed (.ok ()) ∨ served.response = .closedBy (.ok none))) ∧
    (∀ r : Request κ α β ε,
      let computed := (serve c.logged ran.state r.logged).state.inner.2.computed
      computed = log.computed ∨ stage = .idle ∧ ∃ o, computed = log.computed ++ [o]) ∧
    (0 < account.closes ∨ (∃ o ∈ log.computed, o.element? = none) →
      ∀ later : List (Request κ α β ε),
        (serveAll c.logged account ran.state (later.map Request.logged)).state.inner.2.computed =
          log.computed) := by
  intro ran account stage log
  obtain ⟨dealt, ahead, last, h⟩ := (Agrees.start inner).serveAll c requests
  refine ⟨serveAll_logged c .empty (.start (inner, .empty)) requests, h.elements_first,
    h.taken_values, h.one_ahead, h.log_faults.symm, ?_, ?_, ?_, serve_computed c ran.state, ?_⟩
  · rw [h.log_faults, h.faults]
    refine Nat.le_trans (List.length_filterMap_le _ _) ?_
    cases last <;> simp
  · rw [h.released, h.closes]
    show _ = min account.closes 1
    cases account.closes <;> simp
  · exact fun hcloses => serve_again c (h.closed hcloses)
  · rintro (hcloses | ⟨o, hmem, ho⟩)
    · exact serveAll_over c account (Stage.isOver_of_isClosed (h.closed hcloses))
    · exact serveAll_over c account (h.barren_over hmem ho)

end Lookahead

end PullCursor
