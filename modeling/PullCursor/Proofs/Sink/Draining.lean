import Std.Data.TreeSet.Lemmas
import PullCursor.Element.Order
import PullCursor.Proofs.Sink.Once
import PullCursor.Sink.Feed

/-! Draining. What a source yields until it has no more or fails does not depend on who pulls: all
sinks that use it up, and a feed that is collected, get the same elements by the same calls and meet
the same fault. They differ in what they make of the elements, and in that a feed closes nothing. -/
namespace PullCursor

variable {σ τ α β ν ε : Type}

/-- What a source yields until it has no more or fails. -/
structure Yield (σ α ε : Type) where
  pulled : List (α × List Event)
  fault : Option ε
  state : σ
  trace : List Event

namespace Yield

def elements (y : Yield σ α ε) : List α := y.pulled.map Prod.fst

def calls (y : Yield σ α ε) : List Operation := .replicate (y.pulled.length + 1) .pull

/-- What can be seen if every element is shown to somebody before the next one is pulled. -/
def seen (y : Yield σ α ε) (shown : List (List Event)) : List Event :=
  (y.pulled.zipWith (fun p t => p.2 ++ t) shown).flatten ++ y.trace

theorem seen_cons (y : Yield σ α ε) (x : α) (t : List Event) (first : List Event)
    (shown : List (List Event)) :
    seen ⟨(x, t) :: y.pulled, y.fault, y.state, y.trace⟩ (first :: shown) =
      t ++ first ++ y.seen shown := by
  simp only [seen, List.zipWith_cons_cons, List.flatten_cons, List.append_assoc]

end Yield

/-- The reply of a sink that has drained the source, made something of the elements and now closes.
The fault of the draining wins over that of the close. -/
def Yield.used (y : Yield σ α ε) (c : Source σ α ε) (made : β) (shown : List (List Event)) :
    Reply σ ε β :=
  let closed := c.close y.state
  ⟨(y.fault.or closed.outcome.fault?).elim (.ok made) .error, closed.state,
    y.seen shown ++ closed.trace ++
      if y.fault.isSome ∧ closed.outcome.fault?.isSome then [.log .closeFailedToo] else []⟩

def Yield.collected (y : Yield σ α ε) : Reply (Feed σ) ε (List α) :=
  ⟨y.fault.elim (.ok y.elements) .error, ⟨y.state, true⟩, y.seen (y.elements.map fun _ => [])⟩

inductive Yields (c : Source σ α ε) : σ → Yield σ α ε → Prop where
  | ended {s s' : σ} {t : List Event} :
      c.pull s = ⟨.ok none, s', t⟩ → Yields c s ⟨[], none, s', t⟩
  | failed {s s' : σ} {e : ε} {t : List Event} :
      c.pull s = ⟨.error e, s', t⟩ → Yields c s ⟨[], some e, s', t⟩
  | element {s s' : σ} {x : α} {t : List Event} {y : Yield σ α ε} :
      c.pull s = ⟨.ok (some x), s', t⟩ → Yields c s' y →
        Yields c s ⟨(x, t) :: y.pulled, y.fault, y.state, y.trace⟩

structure Source.Returns (c : Source σ α ε) : Prop where
  pull (s : σ) (m : String) : (c.pull s).outcome ≠ .panic m
  close (s : σ) (m : String) : (c.close s).outcome ≠ .panic m

theorem Source.Returns.yields_or_pulls {c : Source σ α ε} (hc : c.Returns) (s : σ) :
    (∃ y, Yields c s y) ∨ ∃ x s' t, c.pull s = ⟨.ok (some x), s', t⟩ := by
  rcases h : c.pull s with ⟨(_ | x) | e | m, s', t⟩
  · exact .inl ⟨_, .ended h⟩
  · exact .inr ⟨x, s', t, rfl⟩
  · exact .inl ⟨_, .failed h⟩
  · exact absurd (congrArg Reply.outcome h) (hc.pull s m)

def Yield.noted (y : Yield σ α ε) (calls : List Operation) : Yield (σ × List Operation) α ε :=
  ⟨y.pulled, y.fault, (y.state, calls ++ y.calls), y.trace⟩

theorem Yields.noted {c : Cursor σ α ε} {s : σ} {y : Yield σ α ε} (h : Yields c.toSource s y)
    (calls : List Operation) : Yields c.noted.toSource (s, calls) (y.noted calls) := by
  have hpull {s : σ} {r : Reply σ ε (Option α)} (calls : List Operation) (h : c.pull s = r) :
      c.noted.pull (s, calls) = ⟨r.outcome, (r.state, calls ++ [.pull]), r.trace⟩ := by
    rw [← h]
    rfl
  induction h generalizing calls with
  | ended h => exact .ended (hpull calls h)
  | failed h => exact .failed (hpull calls h)
  | @element s s' x t y h _ ih =>
    have hlater := ih (calls ++ [.pull])
    rw [Yield.noted, List.append_assoc] at hlater
    exact .element (hpull calls h) hlater

theorem Source.Returns.noted {c : Cursor σ α ε} (hc : c.toSource.Returns) :
    c.noted.toSource.Returns where
  pull s := hc.pull s.1
  close s := hc.close s.1

def Callback.visited (f : Callback α β) (mark : String → α → Event) (shown : β → Event) :
    History α → List α → List (List Event)
  | _, [] => []
  | earlier, x :: rest =>
      (f.id.toList.map (mark · x) ++ (f.answer earlier x).toOption.toList.map shown) ::
        f.visited mark shown (earlier.add x) rest

namespace Sink

def shows (visit : α → Action ν ε Unit) : ν → List α → List (List Event)
  | _, [] => []
  | v, x :: rest => (visit x v).trace :: shows visit (visit x v).state rest

theorem turn_visit {c : Source σ α ε} {visit : α → Action ν ε Unit} {s s' : σ} {x : α}
    {t : List Event} {v : ν} (hx : c.pull s = ⟨.ok (some x), s', t⟩)
    (hvisit : (visit x v).outcome = .ok ()) :
    Sweep.turn c (pure ()) (Sweep.onward visit) (s, v) =
      ⟨.ok .again, (s', (visit x v).state), t ++ (visit x v).trace⟩ := by
  rw [Sweep.turn_some _ _ v hx, Sweep.onward_of_ok hvisit]

theorem ends_of_yields {c : Source σ α ε} {s : σ} {y : Yield σ α ε} (h : Yields c s y)
    {visit : α → Action ν ε Unit} (hvisit : ∀ x v, (visit x v).outcome = .ok ()) (v : ν) :
    Action.Ends (Sweep.turn c (pure ()) (Sweep.onward visit)) (s, v)
      ⟨y.fault.elim (.ok ()) .error,
        (y.state, y.elements.foldl (fun v x => (visit x v).state) v),
        y.seen (shows visit v y.elements)⟩ := by
  induction h generalizing v with
  | ended hpull =>
    have hturn := Sweep.turn_none (pure ()) (Sweep.onward visit) v hpull
    rw [Action.pure_apply, List.append_nil] at hturn
    exact .stop hturn
  | failed hpull => exact .error (Sweep.turn_error _ _ v hpull)
  | @element s s' x t y hpull _ ih =>
    show Action.Ends _ _ ⟨_, _, Yield.seen _ (_ :: shows visit _ _)⟩
    rw [Yield.seen_cons]
    exact .again (turn_visit hpull (hvisit x v)) (ih _)

theorem yields_of_ends {c : Source σ α ε} (hc : c.Returns) {visit : α → Action ν ε Unit}
    (hvisit : ∀ x v, (visit x v).outcome = .ok ()) {s : σ × ν} {r : Reply (σ × ν) ε Unit}
    (h : Action.Ends (Sweep.turn c (pure ()) (Sweep.onward visit)) s r) :
    ∃ y, Yields c s.1 y := by
  induction h with
  | again hturn _ ih =>
    obtain hyields | ⟨x, s', t, hx⟩ := hc.yields_or_pulls _
    · exact hyields
    · cases hturn.symm.trans (turn_visit hx (hvisit x _))
      obtain ⟨y, hy⟩ := ih
      exact ⟨_, .element hx hy⟩
  | stop hturn | error hturn | panic hturn =>
    obtain hyields | ⟨x, s', t, hx⟩ := hc.yields_or_pulls _
    · exact hyields
    · cases hturn.symm.trans (turn_visit hx (hvisit x _))

theorem shows_modify (g : α → ν → ν) (v : ν) (xs : List α) :
    shows (ε := ε) (fun x => Action.modify (g x)) v xs = xs.map fun _ => [] := by
  induction xs generalizing v with
  | nil => rfl
  | cons x xs ih => exact congrArg ([] :: ·) (ih _)

namespace Use

/-- It goes on to the end, if the source lets it. -/
def Whole : Use α ε β → Prop
  | .visitAll visit _ => ∀ x v, (visit x v).outcome = .ok ()
  | .visitEach _ f _ => f.Returns
  | .first => False
  | _ => True

def made : Use α ε β → List α → β
  | .toList, xs => xs
  | .fold extend empty, xs => xs.foldl extend empty
  | .count, xs => xs.length
  | .visitAll visit start, xs => xs.foldl (fun v x => (visit x v).state) start
  | .visitEach _ _ _, _ => ()
  | .first, xs => xs.head?

def shown : Use α ε β → List α → List (List Event)
  | .visitAll visit start, xs => shows visit start xs
  | .visitEach mark f shown, xs => f.visited mark shown .empty xs
  | _, xs => xs.map fun _ => []

structure Visitor (u : Use α ε β) where
  State : Type
  visit : α → Action State ε Unit
  start : State
  finish : State → β
  returns x v : (visit x v).outcome = .ok ()
  drains_eq {σ : Type} (c : Source σ α ε) (s : σ) :
    u.Drains c s = Visits c visit start finish s
  made_eq xs : finish (xs.foldl (fun v x => (visit x v).state) start) = u.made xs
  shown_eq xs : shows visit start xs = u.shown xs

theorem visitEach_returns (mark : String → α → Event) {f : Callback α β} (hf : f.Returns)
    (shown : β → Event) (x : α) (earlier : History α) :
    ∃ y, f.answer earlier x = .ok y ∧
      (do Action.emit [shown (← f.call mark x)] : Action (History α) ε Unit) earlier =
        ⟨.ok (), earlier.add x, f.id.toList.map (mark · x) ++ [shown y]⟩ := by
  obtain ⟨y, hy⟩ := hf earlier x
  refine ⟨y, hy, ?_⟩
  rw [Action.bind_apply, Callback.call_ok hy]
  rfl

theorem shows_visitEach (mark : String → α → Event) {f : Callback α β} (hf : f.Returns)
    (shown : β → Event) (earlier : History α) (xs : List α) :
    shows (ε := ε) (fun x => do Action.emit [shown (← f.call mark x)]) earlier xs =
      f.visited mark shown earlier xs := by
  induction xs generalizing earlier with
  | nil => rfl
  | cons x xs ih =>
    obtain ⟨y, hy, hvisit⟩ := visitEach_returns (ε := ε) mark hf shown x earlier
    rw [shows, Callback.visited, hvisit, hy]
    exact congrArg _ (ih _)

def visitor : (u : Use α ε β) → u.Whole → Visitor u
  | .toList, _ =>
      { State := List α
        visit := Sweep.gather
        start := []
        finish := List.reverse
        returns := fun _ _ => rfl
        drains_eq := fun _ _ => rfl
        made_eq := fun xs => by simp [made]
        shown_eq := shows_modify _ _ }
  | .fold (ν := ν) extend empty, _ =>
      { State := ν
        visit := fun x => Action.modify (extend · x)
        start := empty
        finish := id
        returns := fun _ _ => rfl
        drains_eq := fun _ _ => rfl
        made_eq := fun _ => rfl
        shown_eq := shows_modify _ _ }
  | .count, _ =>
      { State := Nat
        visit := fun _ => Action.modify (· + 1)
        start := 0
        finish := id
        returns := fun _ _ => rfl
        drains_eq := fun _ _ => rfl
        made_eq := fun xs => by simp [made, Action.modify]
        shown_eq := shows_modify _ _ }
  | .visitAll (ν := ν) visit start, h =>
      { State := ν
        visit := visit
        start := start
        finish := id
        returns := h
        drains_eq := fun _ _ => rfl
        made_eq := fun _ => rfl
        shown_eq := fun _ => rfl }
  | .visitEach mark f shown, h =>
      { State := History α
        visit := fun x => do Action.emit [shown (← f.call mark x)]
        start := .empty
        finish := fun _ => ()
        returns := fun x v => by
          obtain ⟨y, -, hvisit⟩ := visitEach_returns (ε := ε) mark h shown x v
          exact congrArg Reply.outcome hvisit
        drains_eq := fun _ _ => rfl
        made_eq := fun _ => rfl
        shown_eq := shows_visitEach mark h shown .empty }

theorem drains_of_yields {c : Source σ α ε} {s : σ} {y : Yield σ α ε} (h : Yields c s y)
    (u : Use α ε β) (hu : u.Whole) :
    u.Drains c s
      ⟨y.fault.elim (.ok (u.made y.elements)) .error, y.state, y.seen (u.shown y.elements)⟩ := by
  let w := u.visitor hu
  rw [w.drains_eq, ← w.made_eq, ← w.shown_eq]
  refine ⟨_, ends_of_yields h w.returns w.start, ?_⟩
  cases y.fault <;> rfl

theorem yields_of_drains {c : Source σ α ε} (hc : c.Returns) {s : σ} {u : Use α ε β} (hu : u.Whole)
    {body : Reply σ ε β} (h : u.Drains c s body) : ∃ y, Yields c s y := by
  rw [(u.visitor hu).drains_eq] at h
  obtain ⟨r, hr, -⟩ := h
  exact yields_of_ends hc (u.visitor hu).returns hr

end Use

theorem thenClose_yield {c : Source σ α ε} (hc : c.Returns) (y : Yield σ α ε) (made : β)
    (shown : List (List Event)) (s : σ) :
    thenClose (fun _ => ⟨y.fault.elim (.ok made) .error, y.state, y.seen shown⟩) c.close s =
      y.used c made shown := by
  unfold Yield.used thenClose
  rcases h : c.close y.state with ⟨_ | e | m, s', t⟩
  · cases y.fault <;> simp [h, Outcome.fault?, Outcome.map]
  · cases y.fault <;> simp [h, Outcome.fault?, Outcome.map]
  · exact absurd (congrArg Reply.outcome h) (hc.close _ m)

theorem Use.endsIn_yield {c : Source σ α ε} (hc : c.Returns) {s : σ} {y : Yield σ α ε}
    (h : Yields c s y) (u : Use α ε β) (hu : u.Whole) (r : Reply σ ε β) :
    u.EndsIn c s r ↔ r = y.used c (u.made y.elements) (u.shown y.elements) := by
  have hdrains := u.drains_of_yields h hu
  constructor
  · rintro ⟨body, hbody, rfl⟩
    rw [hbody.unique hdrains, thenClose_yield hc]
  · rintro rfl
    exact ⟨_, hdrains, (thenClose_yield hc y _ _ s).symm⟩

end Sink

namespace Feed

def feeding (c : Source σ α ε) : Source (Feed σ) (Except ε α) ε := ⟨next c, close c⟩

def Collects (c : Source σ α ε) (s : Feed σ) (r : Reply (Feed σ) ε (List α)) : Prop :=
  ∃ ended, Action.Ends (Sweep.turn (feeding c) (pure ()) gather) (s, []) ended ∧
    r = ⟨ended.outcome.map fun _ => ended.state.2.reverse, ended.state.1, ended.trace⟩

theorem Collects.unique {c : Source σ α ε} {s : Feed σ} {r r' : Reply (Feed σ) ε (List α)}
    (h : Collects c s r) (h' : Collects c s r') : r = r' := by
  obtain ⟨ended, hended, rfl⟩ := h
  obtain ⟨ended', hended', rfl⟩ := h'
  rw [hended.unique hended']

theorem collects_iff (c : EndingSource σ α ε) (s : Feed σ) (r : Reply (Feed σ) ε (List α)) :
    Collects c.toSource s r ↔ r = collect c s := by
  have hcollects : Collects c.toSource s (collect c s) :=
    ⟨_, (source c).sweep_ends (pure ()) gather (s, []), Action.map_withLocal _ _ _ s⟩
  constructor
  · exact fun h => h.unique hcollects
  · rintro rfl
    exact hcollects

theorem turn_gather {c : Source σ α ε} {s s' : σ} {x : α} {t : List Event} (xs : List α)
    (h : c.pull s = ⟨.ok (some x), s', t⟩) :
    Sweep.turn (feeding c) (pure ()) gather (⟨s, false⟩, xs) =
      ⟨.ok .again, (⟨s', false⟩, x :: xs), t⟩ := by
  have hnext : (feeding c).pull ⟨s, false⟩ = _ := next_element h
  rw [Sweep.turn_some _ _ xs hnext, gather, Sweep.onward_of_ok rfl, Sweep.gather_apply,
    List.append_nil]

end Feed

theorem Yields.feed_ends {c : Source σ α ε} {s : σ} {y : Yield σ α ε} (h : Yields c s y)
    (xs : List α) :
    Action.Ends (Sweep.turn (Feed.feeding c) (pure ()) Feed.gather) (⟨s, false⟩, xs)
      ⟨y.fault.elim (.ok ()) .error, (⟨y.state, true⟩, y.elements.reverse ++ xs),
        y.seen (y.elements.map fun _ => [])⟩ := by
  induction h generalizing xs with
  | ended h =>
    have hnext : (Feed.feeding c).pull ⟨_, false⟩ = _ := Feed.next_ended h
    have hturn := Sweep.turn_none (pure ()) Feed.gather xs hnext
    rw [Action.pure_apply, List.append_nil] at hturn
    exact .stop hturn
  | failed h =>
    have hnext : (Feed.feeding c).pull ⟨_, false⟩ = _ := Feed.next_failed h
    have hturn := Sweep.turn_some (pure ()) Feed.gather xs hnext
    rw [Feed.gather, Action.fail, List.append_nil] at hturn
    exact .error hturn
  | @element s s' x t y h _ ih =>
    show Action.Ends _ _ ⟨_, (_, (x :: y.elements).reverse ++ xs),
      Yield.seen _ ([] :: y.elements.map fun _ => [])⟩
    rw [Yield.seen_cons, List.append_nil, List.reverse_cons, List.append_assoc]
    exact .again (Feed.turn_gather xs h) (ih _)

theorem Yields.collects {c : Source σ α ε} {s : σ} {y : Yield σ α ε} (h : Yields c s y) :
    Feed.Collects c (.start s) y.collected := by
  refine ⟨_, h.feed_ends [], ?_⟩
  unfold Yield.collected
  cases y.fault <;> simp [Outcome.map]

theorem Feed.yields_of_ends {c : Source σ α ε} (hc : c.Returns) {s : σ} {xs : List α}
    {r : Reply (Feed σ × List α) ε Unit}
    (h : Action.Ends (Sweep.turn (feeding c) (pure ()) gather) (⟨s, false⟩, xs) r) :
    ∃ y, Yields c s y := by
  generalize hs : ((⟨s, false⟩, xs) : Feed σ × List α) = start at h
  induction h generalizing s xs with
  | again hturn _ ih =>
    subst hs
    obtain hyields | ⟨x, s', t, hx⟩ := hc.yields_or_pulls s
    · exact hyields
    · cases hturn.symm.trans (turn_gather xs hx)
      obtain ⟨y, hy⟩ := ih rfl
      exact ⟨_, .element hx hy⟩
  | stop hturn | error hturn | panic hturn =>
    subst hs
    obtain hyields | ⟨x, s', t, hx⟩ := hc.yields_or_pulls s
    · exact hyields
    · cases hturn.symm.trans (turn_gather xs hx)

namespace Sink

def Use.set : Use Element ε Element.SortedSet := .fold (fun xs x => xs.insert x) ∅

theorem mem_foldl_insert (xs : List Element) (set : Element.SortedSet) (x : Element) :
    x ∈ xs.foldl (fun xs x => xs.insert x) set ↔ x ∈ set ∨ x ∈ xs := by
  induction xs generalizing set with
  | nil => simp
  | cons y ys ih =>
    rw [List.foldl_cons, ih, Std.TreeSet.mem_insert, Std.LawfulEqCmp.compare_eq_iff_eq,
      List.mem_cons, eq_comm (a := y), or_assoc, or_left_comm]

/-- What the yield of a source means for all who drain it. -/
structure DrainedAlike (c : Cursor σ α ε) (s : σ) (y : Yield σ α ε) : Prop where
  sink {β : Type} (u : Use α ε β) (r : Reply σ ε β) : u.Whole →
    (u.EndsIn c.toSource s r ↔
      r = y.used c.toSource (u.made y.elements) (u.shown y.elements))
  sink_calls {β : Type} (u : Use α ε β) : u.Whole →
    u.EndsIn c.noted.toSource (s, [])
      ((y.used c.toSource (u.made y.elements) (u.shown y.elements)).noting (y.calls ++ [.close]))
  feed (r : Reply (Feed σ) ε (List α)) :
    Feed.Collects c.toSource (.start s) r ↔ r = y.collected
  feed_calls : Feed.Collects c.noted.toSource (.start (s, []))
    ⟨y.collected.outcome, ⟨(y.state, y.calls), true⟩, y.collected.trace⟩

theorem DrainedAlike.of_yields {c : Cursor σ α ε} (hc : c.toSource.Returns) {s : σ}
    {y : Yield σ α ε} (h : Yields c.toSource s y) : DrainedAlike c s y where
  sink u r hu := u.endsIn_yield hc h hu r
  sink_calls u hu := (u.endsIn_yield hc.noted (h.noted []) hu _).mpr rfl
  feed r := by
    constructor
    · exact fun hr => hr.unique h.collects
    · rintro rfl
      exact h.collects
  feed_calls := (h.noted []).collects

/-- All sinks that use a source up, and a feed that is collected, get the same from it. Either all
of them come to an end or none does, and if they do, the elements, the fault and the pulls are the
same for all. The sinks then close the source, and fail together if that fails; the feed does not.
Nothing is assumed about the source except that its calls come back. -/
theorem drained_alike :
    (∀ (c : Cursor σ α ε) (s : σ), c.toSource.Returns →
      (∀ y, Yields c.toSource s y → DrainedAlike c s y) ∧
      (∀ (β : Type) (u : Use α ε β), u.Whole →
        ((∃ r, u.EndsIn c.toSource s r) ↔ ∃ y, Yields c.toSource s y)) ∧
      ((∃ r, Feed.Collects c.toSource (.start s) r) ↔ ∃ y, Yields c.toSource s y)) ∧
    (∀ (c : EndingSource σ α ε) (s : σ),
      (c.toSource.Returns → ∃ y, Yields c.toSource s y) ∧
      (∀ (β : Type) (u : Use α ε β) r, u.EndsIn c.toSource s r ↔ r = u.run c s) ∧
      ∀ r, Feed.Collects c.toSource (.start s) r ↔ r = Feed.collect c (.start s)) ∧
    ∀ (xs : List Element) x, x ∈ (Use.set (ε := ε)).made xs ↔ x ∈ xs := by
  refine ⟨fun c s hc => ⟨fun y hy => .of_yields hc hy, fun β u hu => ⟨?_, ?_⟩, ?_, ?_⟩,
    fun c s => ⟨fun hc => ?_, fun β u r => u.endsIn_iff c s r, Feed.collects_iff c _⟩,
    fun xs x => ?_⟩
  · rintro ⟨r, body, hbody, -⟩
    exact Use.yields_of_drains hc hu hbody
  · rintro ⟨y, hy⟩
    exact ⟨_, (u.endsIn_yield hc hy hu _).mpr rfl⟩
  · rintro ⟨r, ended, hended, -⟩
    exact Feed.yields_of_ends hc hended
  · rintro ⟨y, hy⟩
    exact ⟨_, hy.collects⟩
  · exact Feed.yields_of_ends hc ((Feed.source c).sweep_ends (pure ()) Feed.gather (.start s, []))
  · simpa [Use.made, Use.set] using mem_foldl_insert xs ∅ x

/-- A source that has elements behind its end, and fails to close as long as it has any. -/
def resuming : Cursor (List (Option Nat)) Nat Unit where
  pull s := ⟨.ok s.head?.join, s.tail, []⟩
  close s := ⟨if s = [] then .ok () else .error (), s, []⟩
  hasNext s := ⟨.ok !s.isEmpty, s, []⟩
  next s := ⟨match s.head?.join with
    | some x => .ok x
    | none => .error .exhausted, s.tail, []⟩

theorem resuming_returns : resuming.toSource.Returns where
  pull _ _ := nofun
  close s m := by
    unfold resuming
    dsimp only
    split <;> exact nofun

/-- Nobody sees the element behind the end. The sink fails to close, and the feed does not close. -/
theorem drained_alike_resuming :
    let s := [some 1, some 2, none, some 3]
    resuming.toSource.Returns ∧
    Use.count.EndsIn resuming.noted.toSource (s, [])
      ⟨.error (), ([some 3], [.pull, .pull, .pull, .close]), []⟩ ∧
    Feed.Collects resuming.noted.toSource (.start (s, []))
      ⟨.ok [1, 2], ⟨([some 3], [.pull, .pull, .pull]), true⟩, []⟩ := by
  intro s
  have hyields : Yields resuming.toSource s ⟨[(1, []), (2, [])], none, [some 3], []⟩ :=
    .element rfl (.element rfl (.ended rfl))
  have halike := (drained_alike.1 resuming s resuming_returns).1 _ hyields
  exact ⟨resuming_returns, halike.sink_calls .count trivial, halike.feed_calls⟩

end Sink

end PullCursor
