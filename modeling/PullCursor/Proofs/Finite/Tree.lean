import PullCursor.Plan.Basic
import PullCursor.Proofs.Custody.Tree
import PullCursor.Proofs.Finite.Bound
import PullCursor.Proofs.Finite.Safe

/-! Everything that is done with a tree comes to an end. The entries left in the leaves and the
elements kept ahead bound what can still come up, wherever in the tree they are; each loop takes no
more turns than that, and one more. Without a function, script or counter that panics, no call
does. -/
namespace PullCursor

variable {σ τ α β ε : Type}

namespace Act

def isPanic : Act → Bool
  | .panic _ => true
  | _ => false

theorem isPanic_element? (act : Act) : act.element?.isPanic = act.isPanic := by cases act <;> rfl

theorem isPanic_element (act : Act) : act.element.isPanic = act.isPanic := by cases act <;> rfl

theorem isPanic_yes (act : Act) : act.yes.isPanic = act.isPanic := by cases act <;> rfl

theorem isPanic_done (act : Act) : act.done.isPanic = act.isPanic := by cases act <;> rfl

theorem isPanic_item? (act : Act) : (act.item? : Outcome ε _).isPanic = act.isPanic := by
  cases act <;> rfl

end Act

namespace Script

def Tame (s : Script) : Prop := ∀ act ∈ s, act.isPanic = false

theorem step_safe (seen : List Event) {read : Act → Outcome ε α}
    (hread : ∀ act, (read act).isPanic = act.isPanic) : Action.Safe Tame (step seen read) := by
  intro s hs
  cases s with
  | nil => exact ⟨hs, hread .finish⟩
  | cons act rest =>
    exact ⟨fun later hmem => hs later (List.mem_cons_of_mem _ hmem),
      (hread act).trans (hs act List.mem_cons_self)⟩

theorem step_shortens (seen : List Event) (read : Act → Outcome ε α) (s : Script) :
    (step seen read s).state.length ≤ s.length := by
  cases s with
  | nil => exact Nat.le_refl 0
  | cons act rest => exact Nat.le_succ rest.length

end Script

namespace Leaf

theorem items_tame : (items (ε := ε)).toSource.Tame fun _ : List α => True where
  pull s _ := ⟨trivial, by cases s <;> rfl⟩
  close := .pure ()

theorem single_tame : (single (ε := ε)).toSource.Tame fun _ : Option α => True where
  pull _ _ := ⟨trivial, rfl⟩
  close := .pure ()

theorem counter_tame : (counter (ε := ε)).toSource.Tame fun s => s.stop ≠ none where
  pull := by
    intro s hs
    obtain ⟨stop, hstop⟩ := Option.ne_none_iff_exists'.mp hs
    show (Counter.pull s).state.stop ≠ none ∧ (Counter.pull s).outcome.isPanic = false
    unfold Counter.pull
    split
    · exact ⟨hs, rfl⟩
    · next hbelow =>
      have hnext : s.next ≠ Int64.maxValue := by
        intro hmax
        rw [hstop, hmax] at hbelow
        exact hbelow (by simp [Int64.le_maxValue])
      rw [if_neg hnext]
      exact ⟨hs, rfl⟩
  close := .pure ()

theorem iterator_tame (seen : List Event) :
    (iterator (ε := ε) seen).toSource.Tame Script.Tame where
  pull := Script.step_safe seen Act.isPanic_item?
  close := .pure ()

theorem generator_tame (id : String) {release : Option Act}
    (h : ∀ act ∈ release, act.isPanic = false) :
    (generator id release).toSource.Tame Script.Tame where
  pull := Script.step_safe _ Act.isPanic_element?
  close := by
    intro s hs
    cases release with
    | none => exact ⟨hs, rfl⟩
    | some act => exact ⟨hs, act.isPanic_done.trans (h act rfl)⟩

theorem probe_tame (o : ProbeOrders) : (probe (α := α) o).toCursor.Tame fun _ => True := by
  have hsource : (Probe.source (α := α) o).toSource.Tame fun _ => True := by
    constructor
    · intro s hs
      refine ⟨trivial, ?_⟩
      show (Probe.pull o s).outcome.isPanic = false
      unfold Probe.pull
      split
      · rfl
      · split <;> rfl
    · refine (Action.Observes.emit fun _ hs => ⟨hs, rfl⟩).bind fun _ => ?_
      split
      · exact .fail _
      · exact .pure ()
  exact .ofSteps (Lookahead.look_safe hsource) (Lookahead.next_safe hsource)
    ((Action.Observes.emit fun _ hs => ⟨hs, rfl⟩).bind fun _ => Lookahead.close_safe hsource)

theorem nothing_tame : (nothing (α := α) (ε := ε)).toCursor.Tame fun _ => True :=
  ⟨⟨.pure none, .pure ()⟩, .pure false, .fail _⟩

namespace Manual

structure Tame (s : Manual) : Prop where
  hasNext : Script.Tame s.hasNext
  next : Script.Tame s.next
  close : Script.Tame s.close
  pull : Script.Tame s.pull

def entries (s : Manual) : Nat := s.size + (s.hasNext.length + s.close.length)

end Manual

theorem manual_tame (id : String) (ownPull : Bool) :
    (manual id ownPull).toCursor.Tame Manual.Tame := by
  have hask : Action.Safe Manual.Tame (Manual.askNext id) :=
    (Script.step_safe _ Act.isPanic_yes).within (fun _ h => h.hasNext)
      fun _ _ h hs => { h with hasNext := hs }
  have hnext : Action.Safe Manual.Tame (Manual.takeNext id) :=
    (Script.step_safe _ Act.isPanic_element).within (fun _ h => h.next)
      fun _ _ h hs => { h with next := hs }
  have hclose : Action.Safe Manual.Tame (Manual.askClose id) :=
    (Script.step_safe _ Act.isPanic_done).within (fun _ h => h.close)
      fun _ _ h hs => { h with close := hs }
  have hpull : Action.Safe Manual.Tame (Manual.askPull id) :=
    (Script.step_safe _ Act.isPanic_element?).within (fun _ h => h.pull)
      fun _ _ h hs => { h with pull := hs }
  cases ownPull with
  | true => exact ⟨⟨hpull, hclose⟩, hask, hnext⟩
  | false => exact .ofSteps hask hnext hclose

theorem manual_spends (id : String) (ownPull : Bool) :
    (manual id ownPull).toCursor.Spends Manual.entries := by
  have hask : (Manual.askNext id).Spends Manual.entries fun _ => 0 :=
    (Manual.askNext_spends id).beside fun s =>
      Nat.add_le_add_right (Script.step_shortens _ _ s.hasNext) _
  have hnext : (Manual.takeNext id).Spends Manual.entries fun _ => 1 :=
    (Manual.takeNext_spends id).beside fun _ => Nat.le_refl _
  have hclose : (Manual.askClose id).Spends Manual.entries fun _ => 0 :=
    (Manual.askClose_spends id).beside fun s =>
      Nat.add_le_add_left (Script.step_shortens _ _ s.close) _
  have hpull : (Manual.askPull id).Spends Manual.entries arrived :=
    (Manual.askPull_spends id).beside fun _ => Nat.le_refl _
  cases ownPull with
  | true => exact ⟨⟨hpull, hclose⟩, hask, hnext⟩
  | false => exact ⟨⟨pullByNext_spends hask hnext, hclose⟩, hask, hnext⟩

end Leaf

theorem Series.foldr_supply {ι : Type} (child : ι → τ) (gaps : ι → Nat) (size : τ → Nat)
    (is : List ι) :
    (is.flatMap fun i => List.replicate (gaps i) none ++ [some (child i)]).foldr
        (fun c n => c.elim 0 size + n) 0 =
      is.foldr (fun i n => size (child i) + n) 0 := by
  have hgaps (k n : Nat) :
      (List.replicate k none).foldr (fun c n => c.elim 0 size + n) n = n := by
    induction k with
    | zero => rfl
    | succ k ih => rw [List.replicate_succ, List.foldr_cons, ih]; exact Nat.zero_add n
  induction is with
  | nil => rfl
  | cons i rest ih =>
    rw [List.flatMap_cons, List.foldr_append, ih, List.foldr_append, hgaps]
    rfl

namespace Plan

/-- The entries left in all leaves, those of children that were never started among them, and the
elements that are kept ahead. -/
def entries : (p : Plan) → p.State → Nat
  | .items _ => Lookahead.size List.length
  | .counter _ _ => Lookahead.size Leaf.Counter.size
  | .iterator _ _ => Lookahead.size List.length
  | .single _ => Lookahead.size arrived
  | .nothing => fun _ => 0
  | .generator _ _ _ => Lookahead.size List.length
  | .queue _ => Lookahead.size List.length
  | .probe _ _ => Lookahead.size fun s => s.items.length
  | .manual _ _ _ => Leaf.Manual.entries
  | .filter _ p => Lookahead.size fun s => p.entries s.1
  | .map _ p => fun s => p.entries s.1
  | .reword _ p => fun s => p.entries s.1
  | .convert _ p => fun s => p.entries s.1
  | .distinct p => Lookahead.size fun s => p.entries s.1
  | .peekable p => Lookahead.size p.entries
  | .limit _ p => fun s => p.entries s.1
  | .boxed p => p.entries
  | .concat _ _ children _ =>
      Lookahead.size (Series.size fun child => (children child.1).entries child.2)

def scripted : Plan → Nat
  | .items xs | .queue xs | .probe _ xs => xs.length
  | .counter next stop => Leaf.Counter.size ⟨next, stop⟩
  | .iterator _ acts | .generator _ acts _ => acts.length
  | .single _ => 1
  | .nothing => 0
  | .manual _ scripts _ => scripts.entries
  | .filter _ p | .map _ p | .reword _ p | .convert _ p | .distinct p | .peekable p | .limit _ p
  | .boxed p => p.scripted
  | .concat _ n children _ => (List.finRange n).foldr (fun i n => (children i).scripted + n) 0

theorem entries_start (p : Plan) : p.entries p.start = p.scripted := by
  induction p with
  | filter test p ih => exact ih
  | map f p ih => exact ih
  | reword f p ih => exact ih
  | convert f p ih => exact ih
  | distinct p ih => exact ih
  | peekable p ih => exact ih
  | limit n p ih => exact ih
  | boxed p ih => exact ih
  | concat id n children gaps ih =>
    let first (i : Fin n) : Σ i, (children i).State := ⟨i, (children i).start⟩
    have hsupply := Series.foldr_supply first gaps
      (fun child => (children child.1).entries child.2) (List.finRange n)
    simp only [first, ih] at hsupply
    exact (Nat.zero_add _).trans hsupply
  | _ => rfl

theorem entries_spends (p : Plan) : p.cursor.toCursor.Spends p.entries := by
  induction p with
  | items xs => exact (Leaf.items (ε := Fault)).spends.lookahead
  | counter next stop => exact (Leaf.counter (ε := Fault)).spends.lookahead
  | iterator id acts => exact (Leaf.iterator (ε := Fault) _).spends.lookahead
  | single x => exact (Leaf.single (ε := Fault)).spends.lookahead
  | nothing => exact (Leaf.nothing (ε := Fault)).spends
  | generator id acts release => exact (Leaf.generator id release).spends.lookahead
  | queue xs => exact (Leaf.items (ε := Fault)).spends.lookahead
  | probe orders xs => exact (Leaf.probe orders).spends
  | manual id scripts ownPull => exact Leaf.manual_spends id ownPull
  | filter test p ih => exact (ih.filter .tested test).lookahead
  | map f p ih => exact ih.map .applied f
  | reword f p ih => exact ih.answering (Reword.answer .reworded f)
  | convert f p ih => exact ih.answering (Convert.answer .reworded f .unconverted)
  | distinct p ih => exact ih.distinct.lookahead
  | peekable p ih => exact ih.lookahead
  | limit n p ih => exact ih.limit
  | boxed p ih => exact ih
  | concat id n children gaps ih => exact ((Source.Spends.family ih).series (watch id)).lookahead

/-- Each loop in the tree, wherever it is entered, comes to its last turn: one that looks for an
element within as many turns as there are entries below it, and one more, and one that looks for a
child within as many as there are children left, and one more. -/
def LoopsEnd : Plan → Prop
  | .filter test p => p.LoopsEnd ∧ ∀ s : p.State × History Element,
      (Sweep.turn p.cursor.toSource (pure none) (Filter.visit .tested test)).EndsWithin
        (p.entries s.1 + 1) s ((Filter.source p.cursor.toEndingSource .tested test).pull s)
  | .distinct p => p.LoopsEnd ∧ ∀ s : p.State × Element.SortedSet,
      (Sweep.turn p.cursor.toSource (pure none) Distinct.visit).EndsWithin
        (p.entries s.1 + 1) s ((Distinct.source p.cursor.toEndingSource).pull s)
  | .concat id _ children _ => (∀ i, (children i).LoopsEnd) ∧
      let child := (FiniteCursor.family fun i => (children i).cursor).toSource
      ∀ s, (Series.turn child (watch id)).EndsWithin (s.rest.length + 1) s
        ((Series.source child (watch id)).pull s)
  | .map _ p | .reword _ p | .convert _ p | .peekable p | .limit _ p | .boxed p => p.LoopsEnd
  | _ => True

theorem loops_end (p : Plan) : p.LoopsEnd := by
  -- Every other loop is one of a cursor below.
  induction p with
  | filter test p ih =>
    have hshrinks := p.entries_spends.turn_shrinks (pure none) (Filter.visit .tested test)
    exact ⟨ih, fun s => (p.cursor.sweep_ends _ _ s).within hshrinks⟩
  | distinct p ih =>
    have hshrinks := p.entries_spends.turn_shrinks (pure none)
      (Distinct.visit : Element → Action Element.SortedSet Fault (Turn (Option Element)))
    exact ⟨ih, fun s => (p.cursor.sweep_ends _ _ s).within hshrinks⟩
  | concat id n children gaps ih =>
    have hshrinks := Series.turn_shrinks
      (FiniteCursor.family fun i => (children i).cursor).toSource (watch id)
    exact ⟨ih, fun s => (Action.loop_ends _ _ hshrinks s).within hshrinks⟩
  | map f p ih => exact ih
  | reword f p ih => exact ih
  | convert f p ih => exact ih
  | peekable p ih => exact ih
  | limit n p ih => exact ih
  | boxed p ih => exact ih
  | _ => trivial

/-- No function and no script panics, and every counter has a stop. -/
def Tame : Plan → Prop
  | .counter _ stop => stop ≠ none
  | .iterator _ acts => Script.Tame acts
  | .generator _ acts release => Script.Tame acts ∧ ∀ act ∈ release, act.isPanic = false
  | .manual _ scripts _ => scripts.Tame
  | .filter test p => test.Returns ∧ p.Tame
  | .map f p => f.Returns ∧ p.Tame
  | .reword f p => f.Returns ∧ p.Tame
  | .convert f p => f.Returns ∧ p.Tame
  | .distinct p | .peekable p | .limit _ p | .boxed p => p.Tame
  | .concat _ _ children _ => ∀ i, (children i).Tame
  | _ => True

def TameAt : (p : Plan) → p.State → Prop
  | .items _ => fun _ => True
  | .counter _ _ => fun s => s.inner.stop ≠ none
  | .iterator _ _ => fun s => Script.Tame s.inner
  | .single _ => fun _ => True
  | .nothing => fun _ => True
  | .generator _ _ _ => fun s => Script.Tame s.inner
  | .queue _ => fun _ => True
  | .probe _ _ => fun _ => True
  | .manual _ _ _ => Leaf.Manual.Tame
  | .filter _ p => fun s => p.TameAt s.inner.1
  | .map _ p => fun s => p.TameAt s.1
  | .reword _ p => fun s => p.TameAt s.1
  | .convert _ p => fun s => p.TameAt s.1
  | .distinct p => fun s => p.TameAt s.inner.1
  | .peekable p => fun s => p.TameAt s.inner
  | .limit _ p => fun s => p.TameAt s.1
  | .boxed p => p.TameAt
  | .concat _ _ children _ => fun s =>
      Series.Each (fun child => (children child.1).TameAt child.2) s.inner

theorem tame_cursor {p : Plan} (h : p.Tame) : p.cursor.toCursor.Tame p.TameAt := by
  induction p with
  | items xs => exact Leaf.items_tame.lookahead
  | counter next stop => exact Leaf.counter_tame.lookahead
  | iterator id acts => exact (Leaf.iterator_tame _).lookahead
  | single x => exact Leaf.single_tame.lookahead
  | nothing => exact Leaf.nothing_tame
  | generator id acts release => exact (Leaf.generator_tame id h.2).lookahead
  | queue xs => exact Leaf.items_tame.lookahead
  | probe orders xs => exact Leaf.probe_tame orders
  | manual id scripts ownPull => exact Leaf.manual_tame id ownPull
  | filter test p ih => exact ((ih h.2).filter .tested h.1).lookahead
  | map f p ih => exact (ih h.2).map .applied h.1
  | reword f p ih =>
    exact (ih h.2).answering fun e s => Outcome.isPanic_eq_false.mpr (reword_returns h.1 e s)
  | convert f p ih =>
    exact (ih h.2).answering fun e s => Outcome.isPanic_eq_false.mpr (convert_returns h.1 e s)
  | distinct p ih => exact (ih h).distinct.lookahead
  | peekable p ih => exact (ih h).lookahead
  | limit n p ih => exact (ih h).limit
  | boxed p ih => exact ih h
  | concat id n children gaps ih =>
    exact ((Source.Tame.family fun i => ih i (h i)).series (watch id)).lookahead

theorem tame_start {p : Plan} (h : p.Tame) : p.TameAt p.start := by
  induction p with
  | counter next stop => exact h
  | iterator id acts => exact h
  | generator id acts release => exact h.1
  | manual id scripts ownPull => exact h
  | filter test p ih => exact ih h.2
  | map f p ih => exact ih h.2
  | reword f p ih => exact ih h.2
  | convert f p ih => exact ih h.2
  | distinct p ih => exact ih h
  | peekable p ih => exact ih h
  | limit n p ih => exact ih h
  | boxed p ih => exact ih h
  | concat id n children gaps ih =>
    refine ⟨nofun, fun child hchild => ?_⟩
    obtain ⟨i, -, hi⟩ := List.mem_flatMap.mp hchild
    obtain hgap | hplace := List.mem_append.mp hi
    · cases List.eq_of_mem_replicate hgap
    · cases List.mem_singleton.mp hplace
      exact ih i (h i)
  | _ => trivial

/-- Everything that is done with a tree comes to an end, whatever its functions answer. Each loop in
it takes its last turn within the entries below it, and one more. No call raises the entries left,
and one that hands out an element lowers them; at first they are what the leaves were given, so no
more elements than that come up. A sink pulls no more often than there are entries left, and once
more, and closes. Where no function, script or counter panics, no call and no sink does. -/
theorem every_call_ends (p : Plan) :
    p.LoopsEnd ∧
    (∀ s op,
      let after := p.cursor.toCursor.call s op
      p.entries after.state + arrived after.answer.element? ≤ p.entries s) ∧
    p.entries p.start = p.scripted ∧
    (∀ s ops,
      let now := p.cursor.toCursor.run s ops
      p.entries now.state + (delivered now.answers).length ≤ p.entries s) ∧
    (∀ s (β : Type) (u : Sink.Use Element Fault β), ∃ n ≤ p.entries s + 1,
      u.EndsIn p.cursor.toCursor.noted.toSource (s, [])
        ((u.run p.cursor.toEndingSource s).noting (.replicate n .pull ++ [.close]))) ∧
    (p.Tame → ∀ ops,
      let now := p.cursor.toCursor.run p.start ops
      (∀ a ∈ now.answers, a.isPanic = false) ∧
      ∀ (β : Type) (u : Sink.Use Element Fault β), u.Tame →
        (u.run p.cursor.toEndingSource now.state).outcome.isPanic = false) := by
  have hspends := p.entries_spends
  refine ⟨p.loops_end, hspends.call, p.entries_start, hspends.run, fun s β u => ?_,
    fun htame ops => ?_⟩
  · exact (u.run_endsIn p.cursor.toEndingSource s).calls hspends
  · intro now
    obtain ⟨hstate, hanswers⟩ := (tame_cursor htame).run (tame_start htame) ops
    refine ⟨hanswers, fun β u hu => ?_⟩
    exact (u.run_endsIn p.cursor.toEndingSource now.state).safe (tame_cursor htame).toTame hu hstate

theorem every_call_ends_rejecting :
    let announcing : Plan := .manual "announcing" ⟨[.value (.bool true)], [], [], []⟩ false
    let p : Plan := .filter ⟨none, fun _ _ => .ok false⟩
      (.distinct (.chain (.items [.null, .int 1]) announcing))
    let now := p.cursor.toCursor.run p.start [.hasNext, .close, .next]
    p.Tame ∧ p.entries p.start = 3 ∧ (∀ a ∈ now.answers, a.isPanic = false) ∧
      ∃ n ≤ 4, Sink.Use.count.EndsIn p.cursor.toCursor.noted.toSource (p.start, [])
        (((Sink.Use.count).run p.cursor.toEndingSource p.start).noting
          (.replicate n .pull ++ [.close])) := by
  intro announcing p now
  have hannouncing : announcing.Tame := by
    refine ⟨fun act hact => ?_, nofun, nofun, nofun⟩
    rw [List.mem_singleton.mp hact]
    rfl
  have htame : p.Tame := by
    refine ⟨fun _ _ => ⟨false, rfl⟩, fun i => ?_⟩
    by_cases hi : i.val = 0
    · simp only [hi, if_true]
      trivial
    · simp only [hi, if_false]
      exact hannouncing
  obtain ⟨-, -, hstart, -, hsink, hback⟩ := every_call_ends p
  have hthree : p.entries p.start = 3 := hstart.trans rfl
  have hcount := hsink p.start Nat .count
  rw [hthree] at hcount
  exact ⟨htame, hthree, (hback htame [.hasNext, .close, .next]).1, hcount⟩

end Plan

end PullCursor
