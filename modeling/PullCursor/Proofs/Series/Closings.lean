import PullCursor.Proofs.Lookahead.Once
import PullCursor.Proofs.Series.Accounts
import PullCursor.Proofs.Series.Nested
import PullCursor.Sink.Basic

/-! The ways of closing several children agree. A concatenation may gather all failures to close a
child or report the first one only, and children may be closed without a concatenation; the same
children are closed in the same order, and what is reported comes from the same failures. -/
namespace PullCursor

variable {τ α ε δ : Type}

def Source.closeFaults (c : Source τ α ε) (children : List (Nat × τ)) : List (Nat × ε) :=
  children.filterMap fun child => (c.close child.2).outcome.fault?.map (child.1, ·)

def Aggregate.indexed (closing : String) (fs : List (Nat × ε)) : Aggregate ε :=
  ⟨closing, fs.map fun f => (.indexed f.1, f.2)⟩

theorem Aggregate.failures_indexed (closing : String) (fs : List (Nat × ε)) :
    (indexed closing fs).failures = fs.map Prod.snd := by
  simp [failures, indexed]

theorem Aggregate.pushAt_indexed (closing : String) (fs : List (Nat × ε)) (i : Nat) (e : ε) :
    (indexed closing fs).pushAt i e = indexed closing (fs ++ [(i, e)]) := by
  simp [pushAt, indexed]

theorem Aggregate.result_indexed (closing : String) (fs : List (Nat × ε)) :
    (indexed closing fs).result = if fs = [] then .ok () else .error (indexed closing fs) := by
  simp [result_eq, indexed]

def numberedFrom (k : Nat) (children : List τ) : List (Nat × τ) :=
  (children.zipIdx k).map Prod.swap

@[simp] theorem numberedFrom_nil (k : Nat) : numberedFrom k ([] : List τ) = [] := rfl

@[simp] theorem numberedFrom_cons (k : Nat) (x : τ) (rest : List τ) :
    numberedFrom k (x :: rest) = (k, x) :: numberedFrom (k + 1) rest := rfl

theorem numberedFrom_append (k : Nat) (xs ys : List τ) :
    numberedFrom k (xs ++ ys) = numberedFrom k xs ++ numberedFrom (k + xs.length) ys := by
  simp [numberedFrom, List.zipIdx_append]

theorem map_snd_numberedFrom (k : Nat) (xs : List τ) : (numberedFrom k xs).map Prod.snd = xs := by
  simp [numberedFrom, Function.comp_def, List.zipIdx_map_fst]

theorem lt_of_mem_numberedFrom {k : Nat} {xs : List τ} {x : Nat × τ}
    (h : x ∈ numberedFrom k xs) : k ≤ x.1 ∧ x.1 < k + xs.length := by
  obtain ⟨y, hy, rfl⟩ := List.mem_map.1 h
  exact ⟨List.le_snd_of_mem_zipIdx hy, List.snd_lt_add_of_mem_zipIdx hy⟩

theorem Source.closeFaults_cons (c : Source τ α ε) (x : Nat × τ) (rest : List (Nat × τ)) :
    c.closeFaults (x :: rest) =
      ((c.close x.2).outcome.fault?.map (x.1, ·)).toList ++ c.closeFaults rest := by
  unfold closeFaults
  rw [List.filterMap_cons]
  cases (c.close x.2).outcome.fault? <;> rfl

theorem Cursor.closeFaults_numbered (c : Cursor τ α ε) (k : Nat) (children : List (Nat × τ)) :
    c.numbered.toSource.closeFaults (numberedFrom k children) =
      c.toSource.closeFaults (numberedFrom k (children.map Prod.snd)) := by
  induction children generalizing k with
  | nil => rfl
  | cons x rest ih =>
    rw [List.map_cons, numberedFrom_cons, numberedFrom_cons, Source.closeFaults_cons,
      Source.closeFaults_cons, ih]
    rfl

section Gather

variable {c : Source τ α ε} (hback : ∀ s m, (c.close s).outcome ≠ .panic m)
include hback

theorem Sink.closeEach_gathers (k : Nat) (closing : String) (fs : List (Nat × ε))
    (children : List τ) :
    (closeEach c k (.indexed closing fs) children : Reply _ δ _) =
      ⟨.ok (.indexed closing (fs ++ c.closeFaults (numberedFrom k children))),
        children.map fun x => (c.close x).state, children.flatMap fun x => (c.close x).trace⟩ := by
  induction children generalizing k fs with
  | nil => simp [closeEach, Source.closeFaults]
  | cons x rest ih =>
    rw [closeEach, numberedFrom_cons, Source.closeFaults_cons]
    rcases h : c.close x with ⟨_ | e | m, s, t⟩
    · simp [ih, h, Outcome.fault?]
    · simp [ih, h, Aggregate.pushAt_indexed, Outcome.fault?]
    · exact absurd (congrArg Reply.outcome h) (hback x m)

namespace Series

variable (c) in
/-- What can be seen while a supply that still has these children is emptied. -/
def closings (watch : Nat → List Event) (asked : Nat) : List τ → List Event
  | [] => watch asked
  | x :: rest => watch asked ++ ((c.close x).trace ++ closings watch (asked + 1) rest)

variable (watch : Nat → List Event)

theorem closeRest_gathers (position passed asked : Nat) (closing : String) (fs : List (Nat × ε))
    (current : Option τ) (children : List τ) :
    (closeRest c watch position (.indexed closing fs) (children.map some)
        ⟨current, passed, children.map some, asked⟩ : Reply _ δ _) =
      ⟨.ok (.indexed closing (fs ++ c.closeFaults (numberedFrom position children)),
          position + children.length),
        ⟨current, passed, [], asked + children.length + 1⟩, closings c watch asked children⟩ := by
  induction children generalizing position asked fs with
  | nil => simp [closeRest_nil, Source.closeFaults, closings]
  | cons x rest ih =>
    rw [List.map_cons, closeRest_child, numberedFrom_cons, Source.closeFaults_cons, closings,
      List.length_cons]
    rcases h : c.close x with ⟨_ | e | m, s, t⟩
    · simp [ih, Outcome.fault?]
      omega
    · simp [ih, Aggregate.pushAt_indexed, Outcome.fault?]
      omega
    · exact absurd (congrArg Reply.outcome h) (hback x m)

theorem closeRest_gathers_noted (position passed asked : Nat) (closing : String)
    (fs : List (Nat × ε)) (rest : List τ) :
    (do
      let (errs, position) ← closeRest c watch position (.indexed closing fs) (rest.map some)
      Action.modify fun s => { s with position := position }
      return errs : Action (Series τ) δ (Aggregate ε)) ⟨none, passed, rest.map some, asked⟩ =
      ⟨.ok (.indexed closing (fs ++ c.closeFaults (numberedFrom position rest))),
        ⟨none, position + rest.length, [], asked + rest.length + 1⟩,
        closings c watch asked rest⟩ := by
  rw [Action.bind_apply, closeRest_gathers hback]
  simp

theorem closeAll_gathers (current : Option τ) (position asked : Nat) (rest : List τ) :
    (closeAll c watch ⟨current, position, rest.map some, asked⟩ : Reply _ δ _) =
      ⟨.ok (.indexed "concatenated iterations"
          (c.closeFaults (numberedFrom position (current.toList ++ rest)))),
        ⟨none, position + (current.toList ++ rest).length, [], asked + rest.length + 1⟩,
        current.toList.flatMap (fun x => (c.close x).trace) ++ closings c watch asked rest⟩ := by
  have hrest := fun k fs => closeRest_gathers_noted (δ := δ) hback watch k position asked
    "concatenated iterations" fs rest
  have hempty : (.empty "concatenated iterations" : Aggregate ε) =
    .indexed "concatenated iterations" [] := rfl
  rw [closeAll, Action.get_bind_apply, Action.bind_apply, hempty]
  cases current with
  | none =>
    rw [closeCurrent_none]
    dsimp only
    rw [hrest]
    rfl
  | some x =>
    rw [closeCurrent_some]
    dsimp only [Option.toList, List.singleton_append]
    rw [numberedFrom_cons, Source.closeFaults_cons]
    rcases h : c.close x with ⟨_ | e | m, s, t⟩
    · dsimp only
      rw [hrest]
      simp [h, Outcome.fault?]
      omega
    · dsimp only
      rw [Aggregate.pushAt_indexed, hrest]
      simp [h, Outcome.fault?]
      omega
    · exact absurd (congrArg Reply.outcome h) (hback x m)

theorem release_gathers (current : Option τ) (position asked : Nat) (rest : List τ) :
    let fs := c.closeFaults (numberedFrom position (current.toList ++ rest))
    let gathered : Reply _ δ _ := closeAll c watch ⟨current, position, rest.map some, asked⟩
    release c watch ⟨current, position, rest.map some, asked⟩ =
      ⟨fs.head?.elim (.ok ()) fun f => .error f.2, gathered.state,
        gathered.trace ++
          if 2 ≤ fs.length then [.log (.failuresDropped (fs.length - 1))] else []⟩ := by
  intro fs gathered
  have hall := fun δ => closeAll_gathers (δ := δ) hback watch current position asked rest
  simp only [gathered, release, Action.bind_apply, hall, Aggregate.failures_indexed]
  rcases hfs : c.closeFaults (numberedFrom position (current.toList ++ rest)) with
    _ | ⟨f, _ | ⟨f', more⟩⟩ <;> simp [fs, hfs, Action.bind_apply, Action.emit, Action.fail]

end Series

end Gather

namespace Series

section Standing

variable (c : Cursor τ α ε) (children : List τ)

def stands (seen : List Event) (child : Nat × τ) : Option (Nat × τ) :=
  if .close ∈ callsOn child.1 seen then none
  else some (child.1, (c.run child.2 (callsOn child.1 seen)).state)

/-- The children that have not been closed, in their order. -/
def standing (seen : List Event) : List (Nat × τ) :=
  (numberedFrom 0 children).filterMap (stands c seen)

variable {c children} {seen : List Event}

theorem stands_closed {child : Nat × τ} (h : .close ∈ callsOn child.1 seen) :
    stands c seen child = none := if_pos h

theorem stands_untouched {child : Nat × τ} (h : callsOn child.1 seen = []) :
    stands c seen child = some child := by
  rw [stands, h]
  rfl

theorem filterMap_untouched {n : Nat} (h : ∀ i ≥ n, callsOn i seen = []) (xs : List τ) :
    (numberedFrom n xs).filterMap (stands c seen) = numberedFrom n xs := by
  have hsome : ∀ child ∈ numberedFrom n xs, stands c seen child = some child := fun child hchild =>
    stands_untouched (h _ (lt_of_mem_numberedFrom hchild).1)
  rw [List.filterMap_congr hsome, List.filterMap_some]

theorem numberedFrom_split (children : List τ) {n : Nat} (h : n ≤ children.length) :
    numberedFrom 0 children =
      numberedFrom 0 (children.take n) ++ numberedFrom n (children.drop n) := by
  have hlength : (children.take n).length = n := List.length_take_of_le h
  conv_lhs => rw [← List.take_append_drop n children, numberedFrom_append, hlength, Nat.zero_add]

theorem untaken_eq (children : List τ) {n : Nat} (h : n ≤ children.length) :
    untaken children n = (numberedFrom n (children.drop n)).map some := by
  have hsplit := numberedFrom_split children h
  have hlength : (numberedFrom 0 (children.take n)).length = n := by
    rw [numberedFrom, List.length_map, List.length_zipIdx, List.length_take_of_le h]
  have huntaken : untaken children n = ((numberedFrom 0 children).drop n).map some := by
    rw [untaken, numberedFrom, ← List.map_drop, List.map_map]
    rfl
  rw [huntaken, hsplit, List.drop_left' hlength]

theorem Ledger.standing_eq {s : Series (Nat × τ)} (h : Ledger c children seen s) :
    ∃ left : List τ, standing c children seen = numberedFrom s.position left ∧
      ∃ rest : List (Nat × τ), s.rest = rest.map some ∧
        s.current.toList ++ rest = numberedFrom s.position left := by
  have hle : s.position ≤ children.length := Nat.le_trans (Nat.le_add_right _ _) h.taken_le
  have hpassed : (numberedFrom 0 (children.take s.position)).filterMap (stands c seen) = [] := by
    rw [List.filterMap_eq_nil_iff]
    intro child hchild
    have hlt := (lt_of_mem_numberedFrom hchild).2
    rw [Nat.zero_add, List.length_take_of_le hle] at hlt
    obtain ⟨before, hcalls, -⟩ := h.passed child.1 hlt
    exact stands_closed (by simp [hcalls])
  have hstanding : standing c children seen =
      (numberedFrom s.position (children.drop s.position)).filterMap (stands c seen) := by
    rw [standing, numberedFrom_split children hle, List.filterMap_append, hpassed, List.nil_append]
  have hrest := h.rest.trans (untaken_eq children h.taken_le)
  obtain ⟨_ | ⟨i, x⟩, position, rest, asked⟩ := s
  · exact ⟨children.drop position, hstanding.trans (filterMap_untouched h.untouched _), _, hrest,
      rfl⟩
  · obtain ⟨hnumber, hopen, hcourse⟩ := h.inUse _ rfl
    obtain rfl : i = position := hnumber
    have hlt : i < children.length := h.taken_le
    refine ⟨x :: children.drop (i + 1), ?_, _, hrest, rfl⟩
    have huntouched : ∀ k ≥ i + 1, callsOn k seen = [] := h.untouched
    have hx : (c.run children[i] (callsOn i seen)).state = x := by
      simpa [courseOf, hlt] using hcourse
    have hchild : stands c seen (i, children[i]) = some (i, x) := by
      rw [stands, if_neg hopen, hx]
    rw [hstanding, List.drop_eq_getElem_cons hlt, numberedFrom_cons,
      List.filterMap_cons_some hchild, filterMap_untouched huntouched]
    rfl

end Standing

section Kept

variable {c : Cursor τ α ε} {children : List τ} (id : String) {seen : List Event}

theorem Ledger.advance {position asked : Nat} {rest : List (Option (Nat × τ))}
    (h : Ledger c children seen ⟨none, position, rest, asked⟩) :
    let r : Reply _ ε (Turn (Option α)) :=
      Series.advance (watched id) ⟨none, position, rest, asked⟩
    Ledger c children (seen ++ r.trace) r.state := by
  obtain ⟨-, rfl⟩ | ⟨x, rest', rfl, hx⟩ := h.supply
  · rw [advance_nil]
    exact h.asked_again id
  · rw [advance_child]
    exact hx.asked_again id

theorem turn_keeps_ledger : (turn c.numbered.toSource (watched id)).Leads (Ledger c children)
    fun _ => Ledger c children := by
  rintro seen ⟨_ | ⟨i, x⟩, position, rest, asked⟩ h
  · rw [turn_none]
    exact h.advance id
  · obtain rfl : i = position := (h.inUse _ rfl).1
    have hpulled := h.pull
    have hclosed := hpulled.close
    rw [turn_child, Cursor.pull_numbered]
    cases (c.pull x).outcome with
    | ok y =>
      cases y with
      | some y => exact hpulled
      | none =>
        simp only [Cursor.close_numbered]
        cases (c.close (c.pull x).state).outcome with
        | ok _ => simpa using hclosed.advance (α := α) id
        | error e => simpa using hclosed
        | panic m => simpa using hclosed
    | error e => exact hpulled
    | panic m => exact hpulled

theorem pull_keeps_ledger : (source c.numbered.toSource (watched id)).pull.Leads
    (Ledger c children) fun _ => Ledger c children := by
  refine Action.Leads.loop fun seen s h => ?_
  have hturn := turn_keeps_ledger id seen s h
  generalize turn c.numbered.toSource (watched id) s = r at hturn ⊢
  rcases r with ⟨(_ | b) | e | m, s', t⟩ <;> exact hturn

structure Kept (c : Cursor τ α ε) (children : List τ) (seen : List Event)
    (s : Lookahead (Series (Nat × τ)) α) : Prop where
  ledger : Ledger c children seen s.inner
  settled : s.stage.isClosed → Settled c children seen s.inner

theorem look_keeps : (Lookahead.look (source c.numbered.toSource (watched id))).Leads
    (Kept c children) fun _ => Kept c children := by
  rintro seen ⟨inner, stage⟩ h
  cases stage with
  | idle =>
    have hpulled := pull_keeps_ledger id seen inner h.ledger
    rw [Lookahead.look_idle]
    generalize (source c.numbered.toSource (watched id)).pull inner = r at hpulled ⊢
    rcases r with ⟨(_ | x) | e | m, inner', t⟩
    · exact ⟨hpulled, nofun⟩
    · exact ⟨hpulled, nofun⟩
    · refine ⟨?_, nofun⟩
      rw [← List.append_assoc]
      exact hpulled.quiet fun i => callsOn_log i _
    · exact ⟨hpulled, nofun⟩
  | _ => simpa [Lookahead.look] using h

theorem Kept.settle {inner : Series (Nat × τ)} {stage : Stage α} (p : Lookahead.Poll α)
    (h : Kept c children seen ⟨inner, stage⟩) : Kept c children seen ⟨inner, p.settle stage⟩ := by
  cases stage with
  | ready x => cases p <;> exact ⟨h.ledger, nofun⟩
  | _ => exact h

theorem Kept.poll (p : Lookahead.Poll α) {s : Lookahead (Series (Nat × τ)) α}
    (h : Kept c children seen s) :
    let served : Lookahead.Served (Series (Nat × τ)) α (Aggregate ε) ε :=
      Lookahead.serve (source c.numbered.toSource (watched id)) s (.poll p)
    Kept c children (seen ++ served.trace) served.state := by
  have hlook := look_keeps id seen s h
  rw [Lookahead.serve_poll]
  generalize Lookahead.look (source c.numbered.toSource (watched id)) s = r at hlook ⊢
  rcases r with ⟨_ | _ | _, s', t⟩
  · exact hlook.settle p
  · exact hlook
  · exact hlook

theorem Kept.close {ε' β : Type} {release : Action (Series (Nat × τ)) ε' β}
    (hrelease : release.Leads (Ledger c children) fun _ => Settled c children)
    {s : Lookahead (Series (Nat × τ)) α} (h : Kept c children seen s) :
    let notices := if s.stage.isFailed then [.log .closingFailed] else []
    Kept c children (seen ++ (notices ++ (release s.inner).trace))
      ⟨(release s.inner).state, .closed⟩ := by
  intro notices
  have hquiet : ∀ i, callsOn i notices = [] := fun i => by
    show callsOn i (if s.stage.isFailed then [.log .closingFailed] else []) = []
    split <;> rfl
  have hsettled := hrelease (seen ++ notices) s.inner (h.ledger.quiet hquiet)
  rw [← List.append_assoc]
  exact ⟨hsettled.toLedger, fun _ => hsettled⟩

variable (hclose : ∀ s m, (c.close s).outcome ≠ .panic m)
include hclose

theorem Kept.serve (r : Request) {s : Lookahead (Series (Nat × τ)) α}
    (h : Kept c children seen s) :
    Kept c children (seen ++ (Series.serve c.numbered.toSource (watched id) s r).trace)
      (Series.serve c.numbered.toSource (watched id) s r).state := by
  cases r with
  | hasNext | next | pull => exact h.poll id _
  | close =>
    unfold Series.serve Request.toLookahead
    rw [Lookahead.serve_close]
    cases s.stage.isClosed with
    | true => simpa using h
    | false => exact h.close (release_leads hclose id)
  | closeGathering =>
    unfold Series.serve Request.toLookahead
    rw [Lookahead.serve_closeBy]
    cases s.stage.isClosed with
    | true => simpa using h
    | false => exact h.close (closeAll_leads hclose id)

theorem Kept.serveAll (requests : List Request) {s : Lookahead (Series (Nat × τ)) α}
    (h : Kept c children seen s) :
    Kept c children (seen ++ (Series.serveAll c.numbered.toSource (watched id) s requests).trace)
      (Series.serveAll c.numbered.toSource (watched id) s requests).state := by
  induction requests generalizing seen s with
  | nil => simpa [Series.serveAll] using h
  | cons r rest ih =>
    have hrest := ih (h.serve id hclose r)
    rwa [List.append_assoc] at hrest

end Kept

def warnings (seen : List Event) : List Notice :=
  seen.filterMap fun
    | .log notice => if notice.level = .warn then some notice else none
    | _ => none

section Seen

theorem calls_append (t u : List Event) : calls (t ++ u) = calls t ++ calls u :=
  List.filterMap_append ..

theorem warnings_append (t u : List Event) : warnings (t ++ u) = warnings t ++ warnings u :=
  List.filterMap_append ..

variable (c : Cursor τ α ε) (id : String)

theorem calls_closed (children : List (Nat × τ)) :
    calls (children.flatMap fun child => (c.numbered.close child).trace) =
      children.map fun child => (tally child.1, .close) := by
  induction children with
  | nil => rfl
  | cons child rest ih => rw [List.flatMap_cons, calls_append, ih]; rfl

theorem warnings_closed (children : List (Nat × τ)) :
    warnings (children.flatMap fun child => (c.numbered.close child).trace) = [] := by
  induction children with
  | nil => rfl
  | cons child rest ih => rw [List.flatMap_cons, warnings_append, ih]; rfl

theorem calls_closings (asked : Nat) (children : List (Nat × τ)) :
    calls (closings c.numbered.toSource (watched id) asked children) =
      children.map fun child => (tally child.1, .close) := by
  induction children generalizing asked with
  | nil => rfl
  | cons child rest ih => rw [closings, calls_append, calls_append, ih]; rfl

theorem warnings_closings (asked : Nat) (children : List (Nat × τ)) :
    warnings (closings c.numbered.toSource (watched id) asked children) = [] := by
  induction children generalizing asked with
  | nil => rfl
  | cons child rest ih => rw [closings, warnings_append, warnings_append, ih]; rfl

end Seen

section Agree

variable {c : Cursor τ α ε} {children : List τ} (id : String) {seen : List Event}
  (hclose : ∀ s m, (c.close s).outcome ≠ .panic m)
include hclose

/-- From a state that is accounted for, every child that stands is closed, in order, and those that
fail are gathered under their numbers. -/
theorem Ledger.closeAll_eq {s : Series (Nat × τ)} (h : Ledger c children seen s) :
    let fs := c.toSource.closeFaults (standing c children seen)
    let gathered : Reply _ δ _ := closeAll c.numbered.toSource (watched id) s
    gathered.outcome = .ok (.indexed "concatenated iterations" fs) ∧
      release c.numbered.toSource (watched id) s =
        ⟨fs.head?.elim (.ok ()) fun f => .error f.2, gathered.state,
          gathered.trace ++
            if 2 ≤ fs.length then [.log (.failuresDropped (fs.length - 1))] else []⟩ ∧
      calls gathered.trace =
        (standing c children seen).map (fun child => (tally child.1, .close)) ∧
      warnings gathered.trace = [] := by
  intro fs gathered
  have hback : ∀ x m, (c.numbered.close x).outcome ≠ .panic m := fun x m => hclose x.2 m
  obtain ⟨left, hstanding, rest, hrest, hleft⟩ := h.standing_eq
  obtain ⟨current, position, _, asked⟩ := s
  obtain rfl : _ = rest.map some := hrest
  have hall := closeAll_gathers (δ := δ) hback (watched id) current position asked rest
  have hrelease := release_gathers (δ := δ) hback (watched id) current position asked rest
  have hfaults :
      c.numbered.toSource.closeFaults (numberedFrom position (current.toList ++ rest)) = fs := by
    rw [Cursor.closeFaults_numbered, hleft, map_snd_numberedFrom, ← hstanding]
  rw [hfaults] at hall hrelease
  refine ⟨congrArg Reply.outcome hall, hrelease, ?_, ?_⟩
  · rw [show gathered.trace = _ from congrArg Reply.trace hall, calls_append, calls_closed,
      calls_closings, ← List.map_append, hleft, hstanding]
  · rw [show gathered.trace = _ from congrArg Reply.trace hall, warnings_append, warnings_closed,
      warnings_closings]
    rfl

omit hclose in
theorem Settled.standing_eq_nil {s : Series (Nat × τ)} (h : Settled c children seen s) :
    standing c children seen = [] := by
  obtain ⟨left, hstanding, rest, hrest, hleft⟩ := h.toLedger.standing_eq
  rw [h.rest_eq] at hrest
  rw [hstanding, ← hleft, h.current_eq, List.map_eq_nil_iff.1 hrest.symm]
  rfl

/-- What comes of a close that gathers and of one that does not, if these children are left. -/
structure ClosingsAgree (c : Cursor τ α ε) (left : List (Nat × τ))
    (gathered closed : Lookahead.Served (Series (Nat × τ)) α (Aggregate ε) ε) : Prop where
  all_told : ∃ errs, gathered.response = .closedBy (.ok errs) ∧
    gatheringResult errs = if c.toSource.closeFaults left = [] then .ok ()
      else .error (.indexed "concatenated iterations" (c.toSource.closeFaults left))
  first_told : closed.response =
    .closed ((c.toSource.closeFaults left).head?.elim (.ok ()) fun f => .error f.2)
  calls_eq : calls gathered.trace = left.map fun child => (tally child.1, .close)
  same_calls : calls closed.trace = calls gathered.trace
  same_state : closed.state = gathered.state
  quiet : warnings gathered.trace = []
  warned : warnings closed.trace =
    if 2 ≤ (c.toSource.closeFaults left).length then
      [.failuresDropped ((c.toSource.closeFaults left).length - 1)] else []

theorem Kept.closings {s : Lookahead (Series (Nat × τ)) α} (h : Kept c children seen s) :
    ClosingsAgree c (standing c children seen)
      (Series.serve c.numbered.toSource (watched id) s .closeGathering)
      (Series.serve c.numbered.toSource (watched id) s .close) := by
  unfold Series.serve Request.toLookahead
  rw [Lookahead.serve_closeBy, Lookahead.serve_close]
  cases hs : s.stage.isClosed with
  | true =>
    rw [(h.settled hs).standing_eq_nil]
    exact ⟨⟨none, rfl, rfl⟩, rfl, rfl, rfl, rfl, rfl, rfl⟩
  | false =>
    obtain ⟨hall, hrelease, hcalls, hwarnings⟩ :=
      h.ledger.closeAll_eq (δ := ε) id hclose
    have hnotices : calls (if s.stage.isFailed then [.log .closingFailed] else []) = [] ∧
        warnings (if s.stage.isFailed then [.log .closingFailed] else []) = [] := by
      split <;> exact ⟨rfl, rfl⟩
    have hrelease' : (source c.numbered.toSource (watched id)).close s.inner = _ := hrelease
    simp only [Bool.false_eq_true, if_false, hrelease']
    refine ⟨⟨_, congrArg _ (congrArg _ hall), ?_⟩, rfl, ?_, ?_, rfl, ?_, ?_⟩
    · exact Aggregate.result_indexed _ _
    · rw [calls_append, hnotices.1, hcalls]
      rfl
    · rw [calls_append, calls_append, calls_append]
      split <;> simp [calls]
    · rw [warnings_append, hnotices.2, hwarnings]
      rfl
    · rw [warnings_append, warnings_append, hnotices.2, hwarnings]
      split <;> rfl

theorem closeAll_unused :
    (Sink.closeAll c.toSource children : Reply _ δ _).outcome =
        .ok (.indexed "iterations" (c.toSource.closeFaults (standing c children []))) ∧
      calls (Sink.closeAll c.numbered.toSource (numberedFrom 0 children) : Reply _ δ _).trace =
        (standing c children []).map fun child => (tally child.1, .close) := by
  have hstanding : standing c children [] = numberedFrom 0 children :=
    filterMap_untouched (fun _ _ => rfl) children
  have hempty : (.empty "iterations" : Aggregate ε) = .indexed "iterations" [] := rfl
  have hback : ∀ x m, (c.numbered.close x).outcome ≠ .panic m := fun x m => hclose x.2 m
  rw [Sink.closeAll, Sink.closeAll, hempty, Sink.closeEach_gathers hclose,
    Sink.closeEach_gathers hback, hstanding]
  exact ⟨rfl, calls_closed c _⟩

end Agree

/-- However a concatenation was used before, and even if a child has panicked: a close that gathers
and a close that does not make the same calls, one close on each child that has not been closed, in
order, and leave the same state. The one tells of all failures, each under the position of its child
among all children; the other one of the first failure, and it warns of the others if there are any.
After either of them both succeed and touch nothing. If the concatenation has not been used at all,
the failures are those that come of closing the children without it, by the same calls. -/
theorem closings_agree (c : Cursor τ α ε) (hclose : ∀ s m, (c.close s).outcome ≠ .panic m)
    (children : List τ) (id : String) (requests : List Request) :
    let plain := serveAll c.toSource (watched id) (.start (.start (children.map some))) requests
    let ran := serveAll c.numbered.toSource (watched id) (.start (.start (untaken children 0)))
      requests
    let left := standing c children ran.trace
    let gathered := serve c.numbered.toSource (watched id) ran.state .closeGathering
    let closed := serve c.numbered.toSource (watched id) ran.state .close
    ClosingsAgree c left gathered closed ∧
    serve c.numbered.toSource (watched id) closed.state .closeGathering =
      ⟨.closedBy (.ok none), closed.state, []⟩ ∧
    serve c.numbered.toSource (watched id) closed.state .close =
      ⟨.closed (.ok ()), closed.state, []⟩ ∧
    (requests = [] →
      (Sink.closeAll c.toSource children : Reply _ δ _).outcome =
        .ok (.indexed "iterations" (c.toSource.closeFaults left)) ∧
      calls (Sink.closeAll c.numbered.toSource (numberedFrom 0 children) : Reply _ δ _).trace =
        calls closed.trace) ∧
    -- The numbers that make the calls visible make no other difference.
    plain.responses = ran.responses ∧
    (serve c.toSource (watched id) plain.state .closeGathering).response = gathered.response ∧
    (serve c.toSource (watched id) plain.state .close).response = closed.response := by
  intro plain ran left gathered closed
  have hstart : Kept c children [] (.start (.start (untaken children 0)) :
      Lookahead (Series (Nat × τ)) α) := ⟨.start children, nofun⟩
  have hkept : Kept c children ran.trace ran.state := hstart.serveAll id hclose requests
  have hagree : ClosingsAgree c left gathered closed := hkept.closings id hclose
  have hclosed : closed.state.stage.isClosed := by
    rw [serve_isClosed]
    exact Bool.or_true _
  have hserve := serve_mirrors c.pull_mirrors c.close_mirrors (watched id) ran.state
  obtain ⟨hresponses, hplain⟩ := serveAll_mirrors c.pull_mirrors c.close_mirrors (watched id)
    (.start (.start (untaken children 0))) requests
  rw [rewrite_start] at hresponses hplain
  refine ⟨hagree, ?_, ?_, ?_, hresponses, ?_, ?_⟩
  · unfold serve Request.toLookahead
    rw [Lookahead.serve_closeBy, if_pos hclosed]
  · unfold serve Request.toLookahead
    rw [Lookahead.serve_close, if_pos hclosed]
  · rintro rfl
    rw [hagree.same_calls, hagree.calls_eq]
    exact closeAll_unused hclose
  · rw [show plain.state = _ from hplain]
    exact (hserve .closeGathering).1
  · rw [show plain.state = _ from hplain]
    exact (hserve .close).1

theorem closings_agree_two_failures :
    let children := [([1], false), ([2], true), ([3], true)]
    let ran := serveAll brittle.numbered.toSource (watched "three")
      (.start (.start (untaken children 0))) [.next, .next]
    let closed := serve brittle.numbered.toSource (watched "three") ran.state .close
    calls closed.trace = [(tally 1, .close), (tally 2, .close)] ∧
      closed.response = .closed (.error ()) ∧ warnings closed.trace = [.failuresDropped 1] := by
  intro children ran closed
  have hclose (s : List Nat × Bool) (m : String) : (brittle.close s).outcome ≠ .panic m := by
    obtain ⟨_, _ | _⟩ := s <;> exact nofun
  have htrace : ran.trace = [.taken "three" 0, .called (tally 0) .pull, .called (tally 0) .pull,
      .called (tally 0) .close, .taken "three" 1, .called (tally 1) .pull] := by
    simp [ran, children, untaken, serveAll, serve, Request.toLookahead, Lookahead.serve_poll,
      Lookahead.start, Lookahead.look_idle, Lookahead.Poll.settle, start, pull_next, pull_child,
      Cursor.pull_numbered, Cursor.close_numbered, brittle, watched]
  have hleft : standing brittle children ran.trace = [(1, ([], true)), (2, ([3], true))] := by
    rw [htrace]
    decide
  have hagree := (closings_agree (δ := Unit) brittle hclose children "three" [.next, .next]).1
  rw [show standing brittle children _ = _ from hleft] at hagree
  exact ⟨hagree.same_calls.trans hagree.calls_eq, hagree.first_told, hagree.warned⟩

end Series

end PullCursor
