import PullCursor.Proofs.Contract.Tree
import PullCursor.Proofs.Custody.Series

/-! Every leaf of a tree is released exactly once. Up to the first close of the root no release
action has run twice; that close runs all that have not run yet, wherever earlier calls stopped, and
no later call runs any. -/
namespace PullCursor

variable {α β ε : Type}

namespace Plan

def releases : Plan → Multiset Event
  | .generator id _ (some _) => {.released id}
  | .probe orders _ => {.probed orders.label .release}
  | .filter _ p | .map _ p | .reword _ p | .convert _ p | .distinct p | .peekable p
  | .limit _ p | .boxed p => p.releases
  | .concat _ n children _ => (List.finRange n).foldr (fun i m => (children i).releases + m) 0
  | _ => 0

/-- The tree has no hand-written leaf and no gap among the children of a concatenation, and neither
a release action nor a function on faults panics. Functions on elements and the scripts of leaves
may. -/
def Orderly : Plan → Prop
  | .generator _ _ release => ∀ m, release ≠ some (.panic m)
  | .manual _ _ _ => False
  | .reword f p => f.Returns ∧ p.Orderly
  | .convert f p => f.Returns ∧ p.Orderly
  | .filter _ p | .map _ p | .distinct p | .peekable p | .limit _ p | .boxed p => p.Orderly
  | .concat _ _ children gaps => (∀ i, gaps i = 0) ∧ ∀ i, (children i).Orderly
  | _ => True

end Plan

namespace Custody

variable {σ : Type}

/-- Every state owes the same: the source cannot tell whether it was closed. -/
def always (σ : Type) (m : Multiset Event) : Custody σ := ⟨fun _ => m, fun _ => True⟩

theorem Secures.always {c : Source σ α ε} {m : Multiset Event}
    (hpull : ∀ s, released (c.pull s).trace = 0) (hclose : ∀ s, released (c.close s).trace = m)
    (hback : ∀ s p, (c.close s).outcome ≠ .panic p) : (always σ m).Secures c where
  pull := by
    intro s hs
    refine ⟨hs, ?_⟩
    rw [hpull, zero_add]
    rfl
  close := fun s hs => ⟨hs, hclose s, hback s⟩

def family {ι : Type} {σ : ι → Type} (k : (i : ι) → Custody (σ i)) : Custody (Σ i, σ i) where
  owed s := (k s.1).owed s.2
  sound s := (k s.1).sound s.2

theorem Secures.family {ι : Type} {σ : ι → Type} {k : (i : ι) → Custody (σ i)}
    {c : (i : ι) → FiniteCursor (σ i) α ε} (h : ∀ i, (k i).SecuresAll (c i).toCursor) :
    (Custody.family k).Secures (FiniteCursor.family c).toSource where
  pull s hs := (h s.1).pull s.2 hs
  close s hs := (h s.1).close.1 s.2 hs

theorem SecuresAll.run_polls {k : Custody σ} {c : Cursor σ α ε} (h : k.SecuresAll c) {s : σ}
    (hs : k.sound s) {polls : List Operation} (hpolls : .close ∉ polls) :
    k.sound (c.run s polls).state ∧
      released (c.run s polls).trace + k.owed (c.run s polls).state = k.owed s := by
  induction polls generalizing s with
  | nil => exact ⟨hs, zero_add _⟩
  | cons op rest ih =>
    obtain ⟨hop, hrest⟩ := not_or.mp (mt List.mem_cons.mpr hpolls)
    have hcall : k.sound (c.call s op).state ∧
        released (c.call s op).trace + k.owed (c.call s op).state = k.owed s := by
      cases op with
      | hasNext => exact h.hasNext s hs
      | next => exact h.next s hs
      | pull => exact h.pull s hs
      | close => exact absurd rfl hop
    obtain ⟨hsound, hsum⟩ := ih hcall.1 hrest
    refine ⟨hsound, ?_⟩
    simp only [Cursor.run, released_append]
    rw [add_assoc, hsum, hcall.2]

theorem SecuresAll.run_settled {k : Custody σ} {c : Cursor σ α ε} (h : k.SecuresAll c) {s : σ}
    (hs : k.sound s) (hzero : k.owed s = 0) (ops : List Operation) :
    released (c.run s ops).trace = 0 := by
  induction ops generalizing s with
  | nil => rfl
  | cons op rest ih =>
    have hkeep : ∀ m n : Multiset Event, m + n = k.owed s → m = 0 ∧ n = 0 := fun m n hsum =>
      add_eq_zero.mp (hsum.trans hzero)
    have hcall : k.sound (c.call s op).state ∧ released (c.call s op).trace = 0 ∧
        k.owed (c.call s op).state = 0 := by
      cases op with
      | hasNext => exact ⟨(h.hasNext s hs).1, hkeep _ _ (h.hasNext s hs).2⟩
      | next => exact ⟨(h.next s hs).1, hkeep _ _ (h.next s hs).2⟩
      | pull => exact ⟨(h.pull s hs).1, hkeep _ _ (h.pull s hs).2⟩
      | close => exact ⟨(h.close.1 s hs).1, (h.close.1 s hs).2.1.trans hzero, h.close.2 s hs⟩
    simp only [Cursor.run, released_append]
    rw [hcall.2.1, ih hcall.1 hcall.2.2, zero_add]

theorem items_secures : (always (List α) 0).Secures (Leaf.items (ε := ε)).toSource :=
  .always (fun s => by cases s <;> rfl) (fun _ => rfl) nofun

theorem counter_secures : (always Leaf.Counter 0).Secures (Leaf.counter (ε := ε)).toSource := by
  refine .always (fun s => ?_) (fun _ => rfl) nofun
  show released (Leaf.Counter.pull s).trace = 0
  unfold Leaf.Counter.pull
  split
  · rfl
  · split <;> rfl

theorem single_secures : (always (Option α) 0).Secures (Leaf.single (ε := ε)).toSource :=
  .always (fun _ => rfl) (fun _ => rfl) nofun

theorem script_quiet {seen : List Event} (hseen : released seen = 0) (read : Act → Outcome ε α)
    (s : Script) : released (Script.step seen read s).trace = 0 := by
  cases s <;> exact hseen

theorem iterator_secures (id : Option String) :
    (always Script 0).Secures (Leaf.iterator (ε := ε) (id.toList.map .polled)).toSource :=
  .always (script_quiet (by cases id <;> rfl) _) (fun _ => rfl) nofun

theorem generator_secures (id : String) {release : Option Act}
    (h : ∀ m, release ≠ some (.panic m)) :
    (always Script (Plan.generator id [] release).releases).Secures
      (Leaf.generator id release).toSource := by
  refine .always (script_quiet rfl _) (fun s => ?_) fun s p => ?_
  · cases release <;> rfl
  · cases release with
    | none => exact nofun
    | some act =>
      cases act with
      | panic m => exact absurd rfl (h m)
      | _ => exact nofun

theorem probe_secures (o : Leaf.ProbeOrders) :
    (always (Leaf.Probe α) {Event.probed o.label .release}).ahead.SecuresAll
      (Leaf.probe (α := α) o).toCursor := by
  have hsource : (always (Leaf.Probe α) {Event.probed o.label .release}).Secures
      (Leaf.Probe.source o).toSource := by
    refine .always (fun s => ?_) (fun s => ?_) fun s p => ?_
    · show released (Leaf.Probe.pull o s).trace = 0
      unfold Leaf.Probe.pull
      split
      · rfl
      · split <;> rfl
    · show released (Leaf.Probe.release o s).trace = _
      rw [Leaf.Probe.release]
      cases o.failOnRelease <;> rfl
    · show (Leaf.Probe.release o s).outcome ≠ _
      rw [Leaf.Probe.release]
      cases o.failOnRelease <;> exact nofun
  refine .ofSteps hsource.look hsource.next ?_
  -- Each close is counted before the lookahead closes, which is not a release.
  exact hsource.closeLookahead.afterEmit rfl

end Custody

namespace Plan

def custody : (p : Plan) → Custody p.State
  | .items _ => (Custody.always (List Element) 0).ahead
  | .counter _ _ => (Custody.always Leaf.Counter 0).ahead
  | .iterator _ _ => (Custody.always Script 0).ahead
  | .single _ => (Custody.always (Option Element) 0).ahead
  | .nothing => Custody.always Unit 0
  | .generator id _ release => (Custody.always Script (Plan.generator id [] release).releases).ahead
  | .queue _ => (Custody.always (List Element) 0).ahead
  | .probe orders _ =>
      (Custody.always (Leaf.Probe Element) {Event.probed orders.label .release}).ahead
  | .manual _ _ _ => Custody.always Leaf.Manual 0
  | .filter _ p => (p.custody.fst (τ := History Element)).ahead
  | .map _ p => p.custody.fst (τ := History Element)
  | .reword _ p => p.custody.fst (τ := History Fault)
  | .convert _ p => p.custody.fst (τ := History Fault)
  | .distinct p => (p.custody.fst (τ := Element.SortedSet)).ahead
  | .peekable p => p.custody.ahead
  | .limit _ p => p.custody.fst (τ := Nat)
  | .boxed p => p.custody
  | .concat _ _ children _ => (Custody.family fun i => (children i).custody).series.ahead

theorem watch_quiet (id : Option String) (n : Nat) : released (watch id n) = 0 := by
  cases id <;> rfl

theorem reword_quiet {δ : Type} (f : Callback Fault Fault) (e : Fault) (s : History Fault) :
    released (Reword.answer (δ := δ) .reworded f e s).trace = 0 := by
  have hmark : ∀ id x, (Event.reworded id x).isRelease = false := fun _ _ => rfl
  exact Custody.released_call f hmark e s

theorem convert_quiet {δ : Type} (f : Callback Fault (Except Fault Fault)) (e : Fault)
    (s : History Fault) :
    released (Convert.answer (δ := δ) .reworded f .unconverted e s).trace = 0 := by
  have hmark : ∀ id x, (Event.reworded id x).isRelease = false := fun _ _ => rfl
  have hcall := Custody.released_call (ε := δ) f hmark e s
  unfold Convert.answer
  rw [Action.bind_apply]
  rcases h : (f.call .reworded e s : Reply _ δ _) with ⟨(_ | _) | _ | _, _, _⟩ <;>
    simpa [h] using hcall

theorem reword_returns {δ : Type} {f : Callback Fault Fault} (hf : f.Returns) (e : Fault)
    (s : History Fault) (p : String) :
    (Reword.answer (δ := δ) .reworded f e s).outcome ≠ .panic p := by
  obtain ⟨y, hy⟩ := hf s e
  unfold Reword.answer
  rw [Callback.call_ok hy]
  exact nofun

theorem convert_returns {δ : Type} {f : Callback Fault (Except Fault Fault)} (hf : f.Returns)
    (e : Fault) (s : History Fault) (p : String) :
    (Convert.answer (δ := δ) .reworded f .unconverted e s).outcome ≠ .panic p := by
  obtain ⟨y, hy⟩ := hf s e
  unfold Convert.answer
  rw [Action.bind_apply, Callback.call_ok hy]
  cases y <;> exact nofun

theorem custody_secures {p : Plan} (h : p.Orderly) : p.custody.SecuresAll p.cursor.toCursor := by
  -- Each combinator hands on what the law says of the cursors below it.
  induction p with
  | items xs => exact Custody.items_secures.lookahead
  | counter next stop => exact Custody.counter_secures.lookahead
  | iterator id acts => exact (Custody.iterator_secures id).lookahead
  | single x => exact Custody.single_secures.lookahead
  | nothing =>
    have hquiet : (Custody.always Unit 0).Keeps (pure none : Action _ Fault (Option Element)) :=
      .pure _
    exact ⟨hquiet, ⟨fun _ hs => ⟨hs, rfl, nofun⟩, fun _ _ => rfl⟩, .pure _, .fail _⟩
  | generator id acts release => exact (Custody.generator_secures id h).lookahead
  | queue xs => exact Custody.items_secures.lookahead
  | probe orders xs => exact Custody.probe_secures orders
  | manual id scripts ownPull => exact h.elim
  | filter test p ih => exact ((ih h).secures.filter (fun _ _ => rfl) test).lookahead
  | map f p ih => exact (ih h).map (fun _ _ => rfl) f
  | reword f p ih => exact (ih h.2).answering (reword_quiet f) (reword_returns h.1)
  | convert f p ih => exact (ih h.2).answering (convert_quiet f) (convert_returns h.1)
  | distinct p ih => exact ((ih h).secures.distinct _).lookahead
  | peekable p ih => exact (ih h).secures.lookahead
  | limit n p ih => exact (ih h).limit
  | boxed p ih => exact ih h
  | concat id n children gaps ih =>
    exact ((Custody.Secures.family fun i => ih i (h.2 i)).series (watch_quiet id)).lookahead

theorem Orderly.guarded {p : Plan} (h : p.Orderly) : p.Guarded := by
  induction p with
  | manual id scripts ownPull => exact h.elim
  | map f p ih => exact ih h
  | reword f p ih => exact ih h.2
  | convert f p ih => exact ih h.2
  | limit n p ih => exact ih h
  | boxed p ih => exact ih h
  | _ => trivial

theorem custody_start {p : Plan} (h : p.Orderly) :
    p.custody.sound p.start ∧ p.custody.owed p.start = p.releases := by
  induction p with
  | generator id acts release => exact ⟨trivial, by cases release <;> rfl⟩
  | manual id scripts ownPull => exact h.elim
  | filter test p ih => exact ih h
  | map f p ih => exact ih h
  | reword f p ih => exact ih h.2
  | convert f p ih => exact ih h.2
  | distinct p ih => exact ih h
  | peekable p ih => exact ih h
  | limit n p ih => exact ih h
  | boxed p ih => exact ih h
  | concat id n children gaps ih =>
    have hrest := Series.supply_of_no_gaps
      (fun i => (⟨i, (children i).start⟩ : Σ i, (children i).State)) h.1 (List.finRange n)
    let k := Custody.family fun i => (children i).custody
    have hsound : k.soundRest ((List.finRange n).map fun i => some ⟨i, (children i).start⟩) := by
      intro place hplace
      obtain ⟨i, -, rfl⟩ := List.mem_map.mp hplace
      exact ⟨_, rfl, (ih i (h.2 i)).1⟩
    have howed : ∀ is : List (Fin n),
        k.owedByRest (is.map fun i => some ⟨i, (children i).start⟩) =
          is.foldr (fun i m => (children i).releases + m) 0 := by
      intro is
      induction is with
      | nil => rfl
      | cons i rest ih' =>
        rw [List.foldr_cons, ← ih', ← (ih i (h.2 i)).2]
        rfl
    rw [← hrest] at hsound
    have howed' := howed (List.finRange n)
    rw [← hrest] at howed'
    exact ⟨⟨nofun, hsound⟩, (zero_add _).trans howed'⟩
  | _ => exact ⟨trivial, rfl⟩

/-- Take any operations but close, whatever comes of them: failures, panics of functions on
elements and of leaves included. Until then no release action has run twice. The first close comes
back, and by then those of all leaves have run, each once; every later close succeeds and runs
none. Leaves are told apart by their labels. -/
theorem released_once {p : Plan} (h : p.Orderly) {polls : List Operation}
    (hpolls : .close ∉ polls) (later : List Operation) :
    let before := p.cursor.toCursor.run p.start polls
    let first := p.cursor.close before.state
    let after := p.cursor.toCursor.run first.state later
    released before.trace ≤ p.releases ∧
      (∀ m, first.outcome ≠ .panic m) ∧
      released (before.trace ++ first.trace) = p.releases ∧
      released after.trace = 0 ∧
      ∀ o, .close o ∈ after.answers → o = .ok () := by
  intro before first after
  have hsecures := custody_secures h
  obtain ⟨hstart, howed⟩ := custody_start h
  obtain ⟨hbefore, hsum⟩ := hsecures.run_polls hstart hpolls
  obtain ⟨hfirst, hpaid, hback⟩ := hsecures.close.1 before.state hbefore
  have hzero := hsecures.close.2 before.state hbefore
  obtain ⟨finished, shut, hlaw⟩ := honours h.guarded
  refine ⟨?_, hback, ?_, hsecures.run_settled hfirst hzero later, ?_⟩
  · rw [← howed, ← hsum]
    exact Multiset.le_add_right _ _
  · rw [released_append, hpaid, hsum, howed]
  · exact hlaw.run_shut (hlaw.close_shut _) later

/-- A predicate that panics at the first element, a first child that fails to close, and a second
one that nobody has asked for anything. -/
theorem released_once_after_panic :
    let first : Plan := .probe ⟨0, none, true⟩ [.null]
    let second : Plan := .generator "second" [] (some .finish)
    let p : Plan := .filter ⟨none, fun _ _ => .error "boom"⟩ (.chain first second)
    let before := p.cursor.toCursor.run p.start [.hasNext]
    p.Orderly ∧ released (before.trace ++ (p.cursor.close before.state).trace) =
      {.probed 0 .release, .released "second"} := by
  intro first second p before
  have hsecond : second.Orderly := nofun
  have horderly : p.Orderly := by
    refine ⟨fun _ => rfl, fun i => ?_⟩
    by_cases hi : i.val = 0
    · simp only [hi, if_true]
      trivial
    · simp only [hi, if_false]
      exact hsecond
  have hpolls : Operation.close ∉ [.hasNext] := by decide
  exact ⟨horderly, (released_once horderly hpolls []).2.2.1⟩

end Plan

end PullCursor
