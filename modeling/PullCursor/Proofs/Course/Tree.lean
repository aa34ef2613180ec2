import PullCursor.Proofs.Contract.Tree
import PullCursor.Proofs.Course.Combinator
import PullCursor.Proofs.Course.Run
import PullCursor.Proofs.Course.Series

/-! Every tree of finite leaves means a course, which is put together from the courses of the
leaves by functions on lists, and its answers are those of its course whichever way it is asked. -/
namespace PullCursor

variable {α β ε : Type}

namespace Act

def fault? : Act → Option Fault
  | .fail e => some e
  | _ => none

end Act

namespace Script

def values : Script → List Element
  | .value x :: rest => x :: values rest
  | _ => []

def stop : Script → Act
  | .value _ :: rest => stop rest
  | act :: _ => act
  | [] => .finish

end Script

def Leaf.Counter.numbers (s : Counter) : List Element :=
  (List.range s.size).map fun i : Nat => .int (.ofInt (s.next.toInt + i))

namespace Leaf.Probe

def closing (o : ProbeOrders) : Option Fault := if o.failOnRelease then some .release else none

def course (o : ProbeOrders) : List α → Nat → Course α Fault
  | xs, position =>
    if o.failAt = some position then ⟨[], some (.element position), closing o⟩
    else match xs with
      | [] => ⟨[], none, closing o⟩
      | x :: rest => (course o rest (position + 1)).mapElements (x :: ·)

variable {o : ProbeOrders} {position : Nat}

theorem course_fail (h : o.failAt = some position) (xs : List α) :
    course o xs position = ⟨[], some (.element position), closing o⟩ := by
  unfold course
  rw [if_pos h]

theorem course_nil (h : o.failAt ≠ some position) :
    course o ([] : List α) position = ⟨[], none, closing o⟩ := by
  unfold course
  rw [if_neg h]

theorem course_cons (h : o.failAt ≠ some position) (x : α) (rest : List α) :
    course o (x :: rest) position = (course o rest (position + 1)).mapElements (x :: ·) := by
  conv_lhs => unfold course
  rw [if_neg h]

theorem course_closing (o : ProbeOrders) (xs : List α) (position : Nat) :
    (course o xs position).closing = closing o := by
  induction xs generalizing position with
  | nil =>
    by_cases h : o.failAt = some position
    · rw [course_fail h]
    · rw [course_nil h]
  | cons x rest ih =>
    by_cases h : o.failAt = some position
    · rw [course_fail h]
    · rw [course_cons h]
      exact ih (position + 1)

end Leaf.Probe

/-- The answer does not depend on earlier calls. -/
def Callback.Pure (f : Callback α β) : Prop := ∀ earlier x, f.answer earlier x = f.answer .empty x

def Reword.image (f : Callback Fault Fault) (e : Fault) : Fault :=
  match f.answer .empty e with
  | .ok e' => e'
  | .error _ => e

def Convert.image (f : Callback Fault (Except Fault Fault)) (e : Fault) : Fault :=
  match f.answer .empty e with
  | .ok (.ok e') => e'
  | .ok (.error kept) => .unconverted kept
  | .error _ => e

namespace Plan

def course : Plan → Course Element Fault
  | .items xs | .queue xs => ⟨xs, none, none⟩
  | .counter next stop => ⟨Leaf.Counter.numbers ⟨next, stop⟩, none, none⟩
  | .iterator _ acts => ⟨Script.values acts, none, none⟩
  | .single x => ⟨[x], none, none⟩
  | .nothing | .manual _ _ _ => ⟨[], none, none⟩
  | .generator _ acts release =>
      ⟨Script.values acts, (Script.stop acts).fault?, release.bind Act.fault?⟩
  | .probe orders xs => Leaf.Probe.course orders xs 0
  | .filter test p => p.course.mapElements (test.kept .empty)
  | .map f p => p.course.mapElements (f.results .empty)
  | .reword f p => p.course.mapFaults (Reword.image f)
  | .convert f p => p.course.mapFaults (Convert.image f)
  | .distinct p => p.course.mapElements List.eraseDups
  | .limit n p => p.course.take n
  | .peekable p | .boxed p => p.course
  | .concat _ n children _ => .concat ((List.finRange n).map fun i => (children i).course)

/-- The leaves are finite and of the library, there is no gap among the children of a concatenation,
nothing panics, and what becomes of a fault depends on that fault alone. -/
def Plain : Plan → Prop
  | .counter _ stop => stop ≠ none
  | .iterator _ acts => ∀ m, Script.stop acts ≠ .panic m
  | .generator _ acts release =>
      (∀ m, Script.stop acts ≠ .panic m) ∧ ∀ m, release ≠ some (.panic m)
  | .manual _ _ _ => False
  | .filter test p => test.Returns ∧ p.Plain
  | .map f p => f.Returns ∧ p.Plain
  | .reword f p => f.Returns ∧ f.Pure ∧ p.Plain
  | .convert f p => f.Returns ∧ f.Pure ∧ p.Plain
  | .distinct p | .peekable p | .limit _ p | .boxed p => p.Plain
  | .concat _ _ children gaps => (∀ i, gaps i = 0) ∧ ∀ i, (children i).Plain
  | _ => True

end Plan

section Leaves

variable (α ε)

theorem items_takes : (Leaf.items (α := α) (ε := ε)).toSource.Takes
    fun m xs => m = ⟨xs, none, none⟩ where
  pull {m xs} hm := by
    subst hm
    cases xs with
    | nil => exact .ended rfl
    | cons x rest => exact .element rfl
  close hm := by
    subst hm
    rfl

theorem single_takes : (Leaf.single (α := α) (ε := ε)).toSource.Takes
    fun m x => m = ⟨x.toList, none, none⟩ where
  pull {m x} hm := by
    subst hm
    cases x with
    | none => exact .ended rfl
    | some x => exact .element rfl
  close hm := by
    subst hm
    rfl

theorem nothing_takes : (Leaf.nothing (α := α) (ε := ε)).toCursor.Takes
    fun m _ => m = ⟨[], none, none⟩ where
  pull hm := by
    subst hm
    exact .ended rfl
  close hm := by
    subst hm
    rfl
  hasNext hm := by
    subst hm
    exact .ended rfl
  next hm := by
    subst hm
    exact .ended

end Leaves

theorem iterator_takes (seen : List Event) : (Leaf.iterator (ε := ε) seen).toSource.Takes
    fun m acts => (∀ p, Script.stop acts ≠ .panic p) ∧ m = ⟨Script.values acts, none, none⟩ where
  pull {m acts} hm := by
    obtain ⟨hback, rfl⟩ := hm
    cases acts with
    | nil => exact .ended rfl
    | cons act rest =>
      cases act with
      | value x => exact .element ⟨hback, rfl⟩
      | panic p => exact absurd rfl (hback p)
      | finish => exact .ended rfl
      | fail e => exact .ended rfl
  close hm := by
    obtain ⟨-, rfl⟩ := hm
    rfl

theorem generator_takes (id : String) {release : Option Act} (h : ∀ m, release ≠ some (.panic m)) :
    (Leaf.generator id release).toSource.Takes fun m acts => (∀ p, Script.stop acts ≠ .panic p) ∧
      m = ⟨Script.values acts, (Script.stop acts).fault?, release.bind Act.fault?⟩ := by
  have hclose : ∀ (acts : Script) (xs : List Element) (e : Option Fault),
      ((Leaf.generator id release).close acts).outcome =
        (⟨xs, e, release.bind Act.fault?⟩ : Course Element Fault).closed := by
    intro acts xs e
    cases release with
    | none => rfl
    | some act =>
      cases act with
      | panic p => exact absurd rfl (h p)
      | _ => rfl
  constructor
  · rintro _ acts ⟨hback, rfl⟩
    cases acts with
    | nil => exact .ended (hclose _ _ _)
    | cons act rest =>
      cases act with
      | value x => exact .element ⟨hback, rfl⟩
      | panic p => exact absurd rfl (hback p)
      | finish => exact .ended (hclose _ _ _)
      | fail e => exact .failed
  · rintro _ acts ⟨-, rfl⟩
    exact hclose _ _ _

theorem probe_takes (o : Leaf.ProbeOrders) : (Leaf.probe (α := α) o).toCursor.Takes
    (Course.Ahead fun m s => m = Leaf.Probe.course o s.items s.position) := by
  have hclose : ∀ (s : Leaf.Probe α) {m : Course α Fault}, m.closing = Leaf.Probe.closing o →
      (Leaf.Probe.release o s).outcome = m.closed := by
    intro s m hm
    rw [Course.closed, hm, Leaf.Probe.closing, Leaf.Probe.release]
    cases o.failOnRelease <;> rfl
  have hsource : (Leaf.Probe.source o).toSource.Takes
      fun m (s : Leaf.Probe α) => m = Leaf.Probe.course o s.items s.position := by
    constructor
    · rintro _ ⟨xs, position⟩ rfl
      show Course.AnswersPull _ _ _ (Leaf.Probe.pull o _)
      unfold Leaf.Probe.pull
      by_cases hfail : o.failAt = some position
      · simp only [Leaf.Probe.course_fail hfail, hfail, if_true]
        exact .failed
      · cases xs with
        | nil =>
          simp only [Leaf.Probe.course_nil hfail, hfail, if_false]
          exact .ended (hclose _ rfl)
        | cons x rest =>
          simp only [Leaf.Probe.course_cons hfail, hfail, if_false]
          exact .element rfl
    · rintro _ ⟨xs, position⟩ rfl
      exact hclose _ (Leaf.Probe.course_closing o xs position)
  have h := hsource.lookahead
  refine .ofSteps (fun hm => (h.hasNext hm).reclose fun _ => rfl) h.next fun hm => ?_
  exact h.close hm

theorem Leaf.Counter.numbers_over {next stop : Int64} (h : stop ≤ next) :
    numbers ⟨next, some stop⟩ = [] := by
  have hsize : size ⟨next, some stop⟩ = 0 := by
    have hle := Int64.le_iff_toInt_le.mp h
    simp only [size, Option.getD_some]
    omega
  rw [numbers, hsize]
  rfl

theorem Leaf.Counter.numbers_next {next stop : Int64} (h : ¬ stop ≤ next)
    (hmax : next ≠ Int64.maxValue) :
    numbers ⟨next, some stop⟩ = .int next :: numbers ⟨next + 1, some stop⟩ := by
  have hsucc := toInt_succ hmax
  have hsize : size ⟨next, some stop⟩ = size ⟨next + 1, some stop⟩ + 1 := by
    have hlt : ¬ stop.toInt ≤ next.toInt := fun hle => h (Int64.le_iff_toInt_le.mpr hle)
    simp only [size, Option.getD_some, hsucc]
    omega
  have hshift : ∀ i : Nat, next.toInt + (i + 1 : Nat) = (next + 1).toInt + i := by
    intro i
    rw [hsucc]
    omega
  rw [numbers, hsize, List.range_succ_eq_map, List.map_cons, List.map_map]
  simp only [Function.comp_def, Nat.succ_eq_add_one, hshift, Int.natCast_zero, Int.add_zero,
    Int64.ofInt_toInt, numbers]

theorem counter_takes : (Leaf.counter (ε := ε)).toSource.Takes
    fun m s => s.stop ≠ none ∧ m = ⟨s.numbers, none, none⟩ where
  pull {m s} hm := by
    obtain ⟨hstop, rfl⟩ := hm
    show Course.AnswersPull _ _ _ (Leaf.Counter.pull s)
    unfold Leaf.Counter.pull
    obtain ⟨next, _ | stop⟩ := s
    · exact absurd rfl hstop
    · by_cases hend : stop ≤ next
      · rw [Leaf.Counter.numbers_over hend, if_pos (by simpa using hend)]
        exact .ended rfl
      · have hmax : next ≠ Int64.maxValue := by
          rintro rfl
          exact hend (Int64.le_iff_toInt_le.mpr stop.toInt_le)
        rw [Leaf.Counter.numbers_next hend hmax, if_neg (by simpa using hend), if_neg hmax]
        exact .element ⟨nofun, rfl⟩
  close hm := by
    obtain ⟨-, rfl⟩ := hm
    rfl

theorem reword_pure {f : Callback Fault Fault} (hf : f.Returns) (hpure : f.Pure) {δ : Type}
    (e : Fault) (earlier : History Fault) :
    (Reword.answer (δ := δ) .reworded f e earlier).outcome = .ok (Reword.image f e) := by
  obtain ⟨e', he'⟩ := hf .empty e
  unfold Reword.answer Reword.image
  rw [Callback.call_ok ((hpure earlier e).trans he'), he']

theorem convert_pure {f : Callback Fault (Except Fault Fault)} (hf : f.Returns) (hpure : f.Pure)
    {δ : Type} (e : Fault) (earlier : History Fault) :
    (Convert.answer (δ := δ) .reworded f .unconverted e earlier).outcome =
      .ok (Convert.image f e) := by
  obtain ⟨answer, hanswer⟩ := hf .empty e
  unfold Convert.answer Convert.image
  rw [Action.bind_apply, Callback.call_ok ((hpure earlier e).trans hanswer), hanswer]
  cases answer <;> rfl

theorem Source.Takes.family {ι : Type} {σ : ι → Type} {c : (i : ι) → FiniteCursor (σ i) α ε}
    {R : (i : ι) → Course α ε → σ i → Prop} (h : ∀ i, (c i).toCursor.Takes (R i)) :
    (FiniteCursor.family c).toSource.Takes fun m s => R s.1 m s.2 where
  pull {m s} hm := by
    have hgiven := (h s.1).pull hm
    show Course.AnswersPull _ _ m (Action.choose (fun i => (c i).pull) s)
    dsimp only [Action.choose]
    generalize (c s.1).pull s.2 = r at hgiven ⊢
    cases hgiven with
    | element hs => exact .element hs
    | ended hs => exact .ended hs
    | failed => exact .failed
  close {m s} hm := (h s.1).close hm

namespace Plan

theorem Plain.guarded {p : Plan} (h : p.Plain) : p.Guarded := by
  induction p with
  | manual id scripts ownPull => exact h.elim
  | map f p ih => exact ih h.2
  | reword f p ih => exact ih h.2.2
  | convert f p ih => exact ih h.2.2
  | limit n p ih => exact ih h
  | boxed p ih => exact ih h
  | _ => trivial

theorem unseen_empty (xs : List Element) :
    unseen (∅ : Element.SortedSet) xs = xs.eraseDups := by
  simp [unseen]

theorem takes {p : Plan} (h : p.Plain) :
    ∃ R, p.cursor.toCursor.Takes R ∧ R p.course p.start := by
  induction p with
  | items xs => exact ⟨_, (items_takes Element Fault).lookahead, .idle rfl⟩
  | counter next stop => exact ⟨_, counter_takes.lookahead, .idle ⟨h, rfl⟩⟩
  | iterator id acts => exact ⟨_, (iterator_takes _).lookahead, .idle ⟨h, rfl⟩⟩
  | single x => exact ⟨_, (single_takes Element Fault).lookahead, .idle rfl⟩
  | nothing => exact ⟨_, nothing_takes Element Fault, rfl⟩
  | generator id acts release => exact ⟨_, (generator_takes id h.2).lookahead, .idle ⟨h.1, rfl⟩⟩
  | queue xs => exact ⟨_, (items_takes Element Fault).lookahead, .idle rfl⟩
  | probe orders xs => exact ⟨_, probe_takes orders, .idle rfl⟩
  | manual id scripts ownPull => exact h.elim
  | filter test p ih =>
    obtain ⟨R, hp, hstart⟩ := ih h.2
    exact ⟨_, (hp.toTakes.filter .tested h.1).lookahead, .idle ⟨_, hstart, rfl⟩⟩
  | map f p ih =>
    obtain ⟨R, hp, hstart⟩ := ih h.2
    exact ⟨_, hp.map .applied h.1, _, hstart, rfl⟩
  | reword f p ih =>
    obtain ⟨R, hp, hstart⟩ := ih h.2.2
    exact ⟨_, hp.answering (reword_pure h.1 h.2.1), _, hstart, rfl⟩
  | convert f p ih =>
    obtain ⟨R, hp, hstart⟩ := ih h.2.2
    exact ⟨_, hp.answering (convert_pure h.1 h.2.1), _, hstart, rfl⟩
  | distinct p ih =>
    obtain ⟨R, hp, hstart⟩ := ih h
    refine ⟨_, hp.toTakes.distinct.lookahead, .idle ⟨_, hstart, ?_⟩⟩
    rw [course]
    simp only [Course.mapElements, unseen_empty]
  | peekable p ih =>
    obtain ⟨R, hp, hstart⟩ := ih h
    exact ⟨_, hp.toTakes.lookahead, .idle hstart⟩
  | limit n p ih =>
    obtain ⟨R, hp, hstart⟩ := ih h
    exact ⟨_, hp.limit, _, hstart, rfl⟩
  | boxed p ih => exact ih h
  | concat id n children gaps ih =>
    choose R hR using fun i => ih i (h.2 i)
    refine ⟨_, ((Source.Takes.family fun i => (hR i).1).series (watch id)).lookahead, .idle ?_⟩
    have hsupply := Series.supply_of_no_gaps
      (fun i => (⟨i, (children i).start⟩ : Σ i, (children i).State)) h.1 (List.finRange n)
    rw [hsupply]
    refine .between (List.forall₂_map_left_iff.mpr (List.forall₂_map_right_iff.mpr ?_))
    exact List.forall₂_same.mpr fun i _ => ⟨_, rfl, (hR i).2⟩

/-- However a tree is asked for its elements, it answers as its course does: it hands out the
elements of the course in order, and with the first answer that there are no more, or the first
failure, all of them have come, and the failure is the ending of the course. -/
theorem delivers_course {p : Plan} (h : p.Plain) {polls : List Operation}
    (hpolls : .close ∉ polls) :
    let answers := (p.cursor.toCursor.run p.start polls).answers
    answers = p.course.answers polls ∧
      delivered answers <+: p.course.elements ∧
      ((∃ a ∈ answers, a.IsFinal) →
        delivered answers = p.course.elements ∧ reported answers = p.course.ending.toList) := by
  obtain ⟨R, htakes, hstart⟩ := takes h
  obtain ⟨finished, shut, hlaw⟩ := honours h.guarded
  intro answers
  have hanswers : answers = p.course.answers polls := htakes.run_answers hlaw hstart hpolls
  rw [hanswers]
  exact ⟨rfl, p.course.answers_deliver hpolls⟩

/-- The second child fails where the limit is reached, which nobody gets to see. -/
theorem delivers_course_up_to_limit :
    let second : Plan := .probe ⟨0, some 1, true⟩ [.bool true, .bool false]
    let p : Plan := .limit 2 (.chain (.items [.null]) second)
    p.Plain ∧ (p.cursor.toCursor.run p.start [.next, .hasNext, .pull, .next]).answers =
      [.next (.ok .null), .hasNext (.ok true), .pull (.ok (some (.bool true))),
        .next (.error .exhausted)] := by
  intro second p
  have hplain : p.Plain := by
    refine ⟨fun _ => rfl, fun i => ?_⟩
    dsimp only
    split <;> trivial
  have hpolls : Operation.close ∉ [.next, .hasNext, .pull, .next] := by decide
  exact ⟨hplain, (delivers_course hplain hpolls).1.trans rfl⟩

end Plan

end PullCursor
