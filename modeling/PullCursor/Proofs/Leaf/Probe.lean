import PullCursor.Proofs.Lookahead.Polled
import PullCursor.Session.Step

/-! What a probe can be trusted with. Its counts are the uses that were made of it, it fails where
it was told to and nowhere else, and closing reports what it was told to report, once. -/
namespace PullCursor

variable {σ α ε : Type}

namespace Tally

variable (tallies : List Tally)

theorem count_log (notice : Notice) : count tallies [.log notice] = tallies := rfl

theorem count_probed (label : Nat) (use : ProbeUse) :
    (count tallies [.probed label use])[label]? = tallies[label]?.map (·.add use) := by
  show (tallies.modify label (add · use))[label]? = _
  rw [List.getElem?_modify_eq]
  rfl

end Tally

namespace Answer

def closing? : Answer α ε → Option (Outcome ε Unit)
  | .close o => some o
  | _ => none

end Answer

def closeOutcomes (answers : List (Answer α ε)) : List (Outcome ε Unit) :=
  answers.filterMap Answer.closing?

theorem closing?_call (c : Cursor σ α ε) (s : σ) {op : Operation} (hop : op ≠ .close) :
    (c.call s op).answer.closing? = none := by
  cases op with
  | close => exact absurd rfl hop
  | _ => rfl

theorem closeOutcomes_polls (c : Cursor σ α ε) (s : σ) {polls : List Operation}
    (hpolls : .close ∉ polls) : closeOutcomes (c.run s polls).answers = [] := by
  induction polls generalizing s with
  | nil => rfl
  | cons op rest ih =>
    obtain ⟨hop, hrest⟩ := not_or.mp (mt List.mem_cons.mpr hpolls)
    exact (List.filterMap_cons_none (closing?_call c s (Ne.symm hop))).trans (ih _ hrest)

theorem exists_final_concat (answers : List (Answer α ε)) (a : Answer α ε) :
    (∃ b ∈ answers ++ [a], b.IsFinal) ↔ (∃ b ∈ answers, b.IsFinal) ∨ a.IsFinal := by
  simp [or_and_right, exists_or]

theorem drop_cons_split {xs rest : List α} {n : Nat} {x : α} (h : xs.drop n = x :: rest) :
    n < xs.length ∧ xs.drop (n + 1) = rest ∧ xs.take (n + 1) = xs.take n ++ [x] := by
  have hlt : n < xs.length := by
    apply Nat.lt_of_not_le
    intro hle
    rw [List.drop_eq_nil_of_le hle] at h
    cases h
  rw [List.drop_eq_getElem_cons hlt] at h
  obtain ⟨rfl, hrest⟩ := List.cons.inj h
  exact ⟨hlt, hrest, (List.take_append_getElem hlt).symm⟩

namespace Leaf.Probe

variable {o : ProbeOrders} {xs : List α} {tallies : List Tally}

theorem pull_cases (o : ProbeOrders) (s : Probe α) :
    (o.failAt = some s.position ∧
      pull o s = ⟨.error (.element s.position), s, [.probed o.label .compute]⟩) ∨
    (o.failAt ≠ some s.position ∧ s.items = [] ∧
      pull o s = ⟨.ok none, s, [.probed o.label .compute]⟩) ∨
    ∃ x rest, o.failAt ≠ some s.position ∧ s.items = x :: rest ∧
      pull o s = ⟨.ok (some x), ⟨rest, s.position + 1⟩, [.probed o.label .compute]⟩ := by
  obtain ⟨items, position⟩ := s
  by_cases hfail : o.failAt = some position
  · exact .inl ⟨hfail, if_pos hfail⟩
  · cases items with
    | nil => exact .inr (.inl ⟨hfail, rfl, if_neg hfail⟩)
    | cons x rest => exact .inr (.inr ⟨x, rest, hfail, rfl, if_neg hfail⟩)

/-- How the computations have ended, if they have, and what was reported of that. -/
def Ending (o : ProbeOrders) (xs : List α) (s : Lookahead (Probe α) α) (reports : List Fault) :
    Prop :=
  match s.stage with
  | .ended => s.inner.position = xs.length ∧ o.failAt ≠ some xs.length ∧ reports = []
  | .failed => o.failAt = some s.inner.position ∧ reports = [.element s.inner.position]
  | .closed => False
  | _ => reports = []

/-- The account that a probe with these elements can give before it is closed. The elements that
were computed have been delivered or are ahead, and at most one computation made none. -/
structure Counted (o : ProbeOrders) (xs : List α) (tallies : List Tally)
    (r : Run (Lookahead (Probe α) α) α Fault) : Prop where
  items : r.state.inner.items = xs.drop r.state.inner.position
  le_length : r.state.inner.position ≤ xs.length
  le_failAt {k : Nat} : o.failAt = some k → r.state.inner.position ≤ k
  given : delivered r.answers ++ r.state.stage.head?.toList = xs.take r.state.inner.position
  tally : (Tally.count tallies r.trace)[o.label]? =
    some ⟨r.state.inner.position + r.state.stage.isOver.toNat, 0, 0⟩
  told : r.state.stage.isOver ↔ ∃ a ∈ r.answers, a.IsFinal
  ending : Ending o xs r.state (reported r.answers)

theorem counted_start (h : tallies[o.label]? = some .zero) :
    Counted o xs tallies ⟨[], .start ⟨xs, 0⟩, []⟩ where
  items := rfl
  le_length := Nat.zero_le _
  le_failAt _ := Nat.zero_le _
  given := rfl
  tally := h
  told := by simp [Lookahead.start, Stage.isOver]
  ending := rfl

variable {answers : List (Answer α Fault)} {s : Lookahead (Probe α) α} {trace : List Event}

theorem tally_probed {t : Tally} (h : (Tally.count tallies trace)[o.label]? = some t)
    (use : ProbeUse) :
    (Tally.count tallies (trace ++ [.probed o.label use]))[o.label]? = some (t.add use) := by
  rw [Tally.count_append, Tally.count_probed, h]
  rfl

theorem tally_log {t : Tally} (h : (Tally.count tallies trace)[o.label]? = some t)
    (notice : Notice) : (Tally.count tallies (trace ++ [.log notice]))[o.label]? = some t := by
  rw [Tally.count_append, Tally.count_log, h]

theorem Counted.computed {inner inner' : Probe α} {x : α} {t : List Event}
    (h : Counted o xs tallies ⟨answers, ⟨inner, .idle⟩, trace⟩)
    (hpull : pull o inner = ⟨.ok (some x), inner', t⟩) :
    Counted o xs tallies ⟨answers, ⟨inner', .ready x⟩, trace ++ t⟩ := by
  obtain ⟨-, heq⟩ | ⟨-, -, heq⟩ | ⟨y, rest, hnot, hitems, heq⟩ := pull_cases o inner <;>
    rw [heq] at hpull <;> cases hpull
  obtain ⟨hlt, hdrop, htake⟩ := drop_cons_split (h.items.symm.trans hitems)
  refine ⟨hdrop.symm, hlt, fun {k} hk => ?_, ?_, tally_probed h.tally .compute, h.told, h.ending⟩
  · have hle : inner.position ≤ k := h.le_failAt hk
    have hne : inner.position ≠ k := fun heq => hnot (heq ▸ hk)
    exact Nat.lt_of_le_of_ne hle hne
  · have hgiven : delivered answers ++ [] = xs.take inner.position := h.given
    rw [List.append_nil] at hgiven
    show delivered answers ++ [x] = xs.take (inner.position + 1)
    rw [htake, hgiven]

theorem Counted.answered {a : Answer α Fault} (h : Counted o xs tallies ⟨answers, s, trace⟩)
    (helement : a.element? = none) (hfault : a.fault? = none)
    (hfinal : a.IsFinal → s.stage.isOver) :
    Counted o xs tallies ⟨answers ++ [a], s, trace⟩ where
  items := h.items
  le_length := h.le_length
  le_failAt := h.le_failAt
  given := by
    show delivered (answers ++ [a]) ++ s.stage.head?.toList = _
    rw [delivered_concat, helement, Option.toList_none, List.append_nil]
    exact h.given
  tally := h.tally
  told := by
    rw [exists_final_concat]
    exact ⟨fun hover => .inl (h.told.mp hover), fun ha => ha.elim h.told.mpr hfinal⟩
  ending := by
    simp only [reported_concat, hfault, Option.toList_none, List.append_nil]
    exact h.ending

theorem Counted.taken {inner : Probe α} {x : α} {a : Answer α Fault}
    (h : Counted o xs tallies ⟨answers, ⟨inner, .ready x⟩, trace⟩) (ha : a.element? = some x) :
    Counted o xs tallies ⟨answers ++ [a], ⟨inner, .idle⟩, trace⟩ := by
  obtain ⟨hfault, hfinal⟩ := Answer.not_final_of_element ha
  refine ⟨h.items, h.le_length, h.le_failAt, ?_, h.tally, ?_, ?_⟩
  · show delivered (answers ++ [a]) ++ [] = _
    rw [delivered_concat, ha, List.append_nil]
    exact h.given
  · rw [exists_final_concat]
    exact ⟨nofun, fun hold => hold.elim h.told.mpr fun hnew => absurd hnew hfinal⟩
  · show reported (answers ++ [a]) = []
    rw [reported_concat, hfault, Option.toList_none, List.append_nil]
    exact h.ending

theorem Counted.settled {inner : Probe α} {stage : Stage α} {a : Answer α Fault}
    {trace' : List Event} (h : Counted o xs tallies ⟨answers, ⟨inner, .idle⟩, trace⟩)
    (hover : stage.isOver) (helement : a.element? = none) (hfinal : a.IsFinal)
    (htally : (Tally.count tallies trace')[o.label]? = some ⟨inner.position + 1, 0, 0⟩)
    (hending : Ending o xs ⟨inner, stage⟩ (reported (answers ++ [a]))) :
    Counted o xs tallies ⟨answers ++ [a], ⟨inner, stage⟩, trace'⟩ := by
  have hhead : stage.head? = none := by cases stage <;> first | rfl | cases hover
  refine ⟨h.items, h.le_length, h.le_failAt, ?_, ?_, ?_, hending⟩
  · show delivered (answers ++ [a]) ++ stage.head?.toList = _
    rw [delivered_concat, helement, hhead]
    exact (List.append_nil _).trans h.given
  · show _ = some (⟨inner.position + stage.isOver.toNat, 0, 0⟩ : Tally)
    rw [hover]
    exact htally
  · rw [exists_final_concat]
    exact ⟨fun _ => .inr hfinal, fun _ => hover⟩

theorem Counted.ended {inner inner' : Probe α} {a : Answer α Fault} {t : List Event}
    (h : Counted o xs tallies ⟨answers, ⟨inner, .idle⟩, trace⟩)
    (hpull : pull o inner = ⟨.ok none, inner', t⟩) (ha : a.AtEnd) :
    Counted o xs tallies ⟨answers ++ [a], ⟨inner', .ended⟩, trace ++ t⟩ := by
  obtain ⟨helement, hfault, hfinal⟩ := ha.silent
  obtain ⟨-, heq⟩ | ⟨hnot, hitems, heq⟩ | ⟨y, rest, -, -, heq⟩ := pull_cases o inner <;>
    rw [heq] at hpull <;> cases hpull
  have hall : inner.position = xs.length :=
    Nat.le_antisymm h.le_length (List.drop_eq_nil_iff.mp (h.items.symm.trans hitems))
  have hreported : reported (answers ++ [a]) = [] := by
    rw [reported_concat, hfault, Option.toList_none, List.append_nil]
    exact h.ending
  rw [hall] at hnot
  exact h.settled rfl helement hfinal (tally_probed h.tally .compute) ⟨hall, hnot, hreported⟩

theorem Counted.failed {inner inner' : Probe α} {a : Answer α Fault} {e : Fault} {t : List Event}
    (h : Counted o xs tallies ⟨answers, ⟨inner, .idle⟩, trace⟩)
    (hpull : pull o inner = ⟨.error e, inner', t⟩) (ha : a.fault? = some e) :
    Counted o xs tallies
      ⟨answers ++ [a], ⟨inner', .failed⟩, trace ++ (t ++ [.log .computationFailed])⟩ := by
  obtain ⟨helement, hfinal⟩ := Answer.final_of_fault ha
  obtain ⟨hfail, heq⟩ | ⟨-, -, heq⟩ | ⟨y, rest, -, -, heq⟩ := pull_cases o inner <;>
    rw [heq] at hpull <;> cases hpull
  have hreported : reported (answers ++ [a]) = [.element inner.position] := by
    rw [reported_concat, ha]
    exact congrArg (· ++ [_]) h.ending
  have htally := tally_log (tally_probed h.tally .compute) .computationFailed
  rw [List.append_assoc] at htally
  exact h.settled rfl helement hfinal htally ⟨hfail, hreported⟩

theorem pull_no_panic {inner inner' : Probe α} {m : String} {t : List Event} :
    pull o inner ≠ ⟨.panic m, inner', t⟩ := by
  intro hpull
  obtain ⟨-, heq⟩ | ⟨-, -, heq⟩ | ⟨y, rest, -, -, heq⟩ := pull_cases o inner <;>
    rw [heq] at hpull <;> cases hpull

theorem Counted.polled {r : Called (Lookahead (Probe α) α) α Fault}
    (h : Counted o xs tallies ⟨answers, s, trace⟩)
    (hr : Lookahead.Polled (source o).toSource s r) :
    Counted o xs tallies ⟨answers ++ [r.answer], r.state, trace ++ r.trace⟩ := by
  induction hr generalizing trace with
  | still hover hend =>
    obtain ⟨helement, hfault, hfinal⟩ := hend.silent
    rw [List.append_nil]
    exact h.answered helement hfault fun _ => hover
  | kept =>
    rw [List.append_nil]
    exact h.answered rfl rfl (by simp [Answer.IsFinal])
  | taken ha =>
    rw [List.append_nil]
    exact h.taken ha
  | computed hpull _ ih =>
    have hlater := ih (h.computed hpull)
    rw [List.append_nil] at hlater
    exact hlater
  | ended hpull ha => exact h.ended hpull ha
  | failed hpull ha => exact h.failed hpull ha
  | panicked hpull => exact absurd hpull pull_no_panic

theorem call_polled (o : ProbeOrders) (s : Lookahead (Probe α) α) {op : Operation}
    (hop : op ≠ .close) :
    Lookahead.Polled (source o).toSource s ((probe o).call s op) := by
  have hcall : (probe o).call s op = (Lookahead.cursor (source o).toSource).call s op := by
    cases op with
    | close => exact absurd rfl hop
    | _ => rfl
  rw [hcall]
  exact Lookahead.polled _ s hop

theorem Counted.run (h : Counted o xs tallies ⟨answers, s, trace⟩) {polls : List Operation}
    (hpolls : .close ∉ polls) :
    let r := (probe o).run s polls
    Counted o xs tallies ⟨answers ++ r.answers, r.state, trace ++ r.trace⟩ := by
  induction polls generalizing answers s trace with
  | nil =>
    simp only [Cursor.run, List.append_nil]
    exact h
  | cons op rest ih =>
    obtain ⟨hop, hrest⟩ := not_or.mp (mt List.mem_cons.mpr hpolls)
    have hlater := ih (h.polled (call_polled o s (Ne.symm hop))) hrest
    simp only [List.append_assoc] at hlater
    exact hlater

theorem counted_run (o : ProbeOrders) (xs : List α) (h : tallies[o.label]? = some .zero)
    {polls : List Operation} (hpolls : .close ∉ polls) :
    Counted o xs tallies ((probe o).run (.start ⟨xs, 0⟩) polls) := (counted_start h).run hpolls

theorem Counted.fault_of_polled {r : Called (Lookahead (Probe α) α) α Fault} {e : Fault}
    (h : Counted o xs tallies ⟨answers, s, trace⟩)
    (hr : Lookahead.Polled (source o).toSource s r) (he : r.answer.fault? = some e) :
    s.stage = .idle ∧ o.failAt = some s.inner.position ∧ e = .element s.inner.position := by
  cases hr with
  | still _ hend => cases hend.silent.2.1.symm.trans he
  | kept => cases he
  | taken ha => cases (Answer.not_final_of_element ha).1.symm.trans he
  | computed _ hr => cases hr.ready_fault.symm.trans he
  | ended _ hend => cases hend.silent.2.1.symm.trans he
  | failed hpull ha =>
    obtain ⟨hfail, heq⟩ | ⟨-, -, heq⟩ | ⟨y, rest, -, -, heq⟩ := pull_cases o _ <;>
      cases heq.symm.trans hpull
    cases ha.symm.trans he
    exact ⟨rfl, hfail, rfl⟩
  | panicked hpull => exact absurd hpull pull_no_panic

theorem Counted.length_given (h : Counted o xs tallies ⟨answers, s, trace⟩) :
    (delivered answers).length + arrived s.stage.head? = s.inner.position := by
  have hlength := congrArg List.length h.given
  rw [List.length_append, length_toList, List.length_take, Nat.min_eq_left h.le_length] at hlength
  exact hlength

theorem Counted.due (h : Counted o xs tallies ⟨answers, s, trace⟩) {k : Nat}
    (hfail : o.failAt = some k) (hle : k ≤ xs.length) (hdelivered : delivered answers = xs.take k)
    (hreported : reported answers = []) : s.stage = .idle ∧ s.inner.position = k := by
  have hposition := h.length_given
  rw [hdelivered, List.length_take, Nat.min_eq_left hle] at hposition
  obtain ⟨inner, stage⟩ := s
  cases stage with
  | idle => exact ⟨rfl, hposition.symm⟩
  | ready x =>
    have hnext : k + 1 = inner.position := hposition
    have hlate : inner.position ≤ k := h.le_failAt hfail
    omega
  | ended =>
    obtain ⟨hall, hnot, -⟩ := h.ending
    exact absurd (hfail.trans (congrArg some (hposition.trans hall))) hnot
  | closed => exact h.ending.elim
  | failed =>
    obtain ⟨-, hreported'⟩ := h.ending
    cases hreported.symm.trans hreported'

theorem Counted.fault_iff {r : Called (Lookahead (Probe α) α) α Fault}
    (h : Counted o xs tallies ⟨answers, s, trace⟩)
    (hr : Lookahead.Polled (source o).toSource s r) (e : Fault) :
    r.answer.fault? = some e ↔ ∃ k, e = .element k ∧ o.failAt = some k ∧ k ≤ xs.length ∧
      delivered answers = xs.take k ∧ reported answers = [] := by
  constructor
  · intro he
    obtain ⟨hidle, hfail, rfl⟩ := h.fault_of_polled hr he
    obtain ⟨inner, stage⟩ := s
    cases hidle
    have hgiven : delivered answers ++ [] = xs.take inner.position := h.given
    rw [List.append_nil] at hgiven
    exact ⟨_, rfl, hfail, h.le_length, hgiven, h.ending⟩
  · rintro ⟨k, rfl, hfail, hle, hdelivered, hreported⟩
    obtain ⟨hidle, rfl⟩ := h.due hfail hle hdelivered hreported
    obtain ⟨inner, stage⟩ := s
    cases hidle
    obtain ⟨-, heq⟩ | ⟨hnot, -, -⟩ | ⟨y, rest, hnot, -, -⟩ := pull_cases o inner
    · cases hr with
      | still hover => cases hover
      | computed hpull _ => cases heq.symm.trans hpull
      | ended hpull _ => cases heq.symm.trans hpull
      | failed hpull ha => cases heq.symm.trans hpull; exact ha
      | panicked hpull => cases heq.symm.trans hpull
    · exact absurd hfail hnot
    · exact absurd hfail hnot

def released (o : ProbeOrders) : Outcome Fault Unit :=
  if o.failOnRelease then .error .release else .ok ()

def firstClose (o : ProbeOrders) (failed : Bool) : List Event :=
  [.probed o.label .closeCall] ++
    ((if failed then [.log .closingFailed] else []) ++ [.probed o.label .release])

theorem close_open (o : ProbeOrders) (hs : s.stage.isClosed = false) :
    (probe o).call s .close =
      ⟨.close (released o), ⟨s.inner, .closed⟩, firstClose o s.stage.isFailed⟩ := by
  have hrelease (inner : Probe α) :
      (source o).toSource.close inner = ⟨released o, inner, [.probed o.label .release]⟩ := by
    show release o inner = _
    unfold release released
    cases o.failOnRelease <;> rfl
  have hclose := Lookahead.close_open (source o).toSource hs
  rw [hrelease] at hclose
  have hcalled : close o s =
      ⟨released o, ⟨s.inner, .closed⟩, firstClose o s.stage.isFailed⟩ := by
    unfold close
    rw [Action.bind_apply]
    simp only [Action.emit, hclose]
    rfl
  exact congrArg (fun r => Called.mk (.close r.outcome) r.state r.trace) hcalled

theorem tally_firstClose {t : Tally} (h : (Tally.count tallies trace)[o.label]? = some t)
    (failed : Bool) :
    (Tally.count tallies (trace ++ firstClose o failed))[o.label]? =
      some ((t.add .closeCall).add .release) := by
  have hcalled := tally_probed h .closeCall
  cases failed with
  | false =>
    have hreleased := tally_probed hcalled .release
    rw [List.append_assoc] at hreleased
    exact hreleased
  | true =>
    have hreleased := tally_probed (tally_log hcalled .closingFailed) .release
    rw [List.append_assoc, List.append_assoc] at hreleased
    exact hreleased

theorem close_again (o : ProbeOrders) (hs : s.stage.isClosed) :
    (probe o).call s .close = ⟨.close (.ok ()), s, [.probed o.label .closeCall]⟩ := by
  have hcalled : close o s = ⟨.ok (), s, [.probed o.label .closeCall]⟩ := by
    unfold close
    rw [Action.bind_apply]
    simp only [Action.emit, Lookahead.close_again (source o).toSource hs, List.append_nil]
  exact congrArg (fun r => Called.mk (.close r.outcome) r.state r.trace) hcalled

theorem closed_fault (o : ProbeOrders) (hs : s.stage.isClosed) (op : Operation) :
    ((probe o).call s op).answer.fault? = none :=
  ((probe_honours o).call_over ((probe_honours o).shut_over hs) op).silent.2.1

theorem closed_run (o : ProbeOrders) (hs : s.stage.isClosed) (ops : List Operation) {t : Tally}
    (ht : tallies[o.label]? = some t) :
    let r := (probe o).run s ops
    closeOutcomes r.answers = List.replicate (ops.count .close) (.ok ()) ∧
      (Tally.count tallies r.trace)[o.label]? =
        some ⟨t.computed, t.released, t.closeCalls + ops.count .close⟩ := by
  induction ops generalizing tallies t with
  | nil => exact ⟨rfl, ht⟩
  | cons op rest ih =>
    by_cases hop : op = .close
    · rw [hop, Cursor.run, close_again o hs]
      have hcounted : (Tally.count tallies [.probed o.label .closeCall])[o.label]? =
          some (t.add .closeCall) := by
        rw [Tally.count_probed, ht]
        rfl
      obtain ⟨houtcomes, htally⟩ := ih hcounted
      dsimp only
      rw [Tally.count_append, htally, List.count_cons_self, Tally.add]
      constructor
      · rw [List.replicate_succ, ← houtcomes]
        rfl
      · simp only [Nat.add_assoc, Nat.add_comm 1]
    · have hlaw := probe_honours (α := α) o
      obtain ⟨hstate, htrace⟩ := hlaw.call_still (hlaw.shut_over hs) hop
      have hnone := closing?_call (probe o).toCursor s hop
      rw [Cursor.run, hstate, htrace, List.count_cons_of_ne hop]
      obtain ⟨houtcomes, htally⟩ := ih ht
      exact ⟨(List.filterMap_cons_none hnone).trans houtcomes, htally⟩

theorem released_cons (o : ProbeOrders) (n : Nat) :
    released o :: List.replicate n (.ok ()) = (List.range (n + 1)).map fun i =>
      if i = 0 ∧ o.failOnRelease then .error .release else .ok () := by
  have hrest : List.replicate n (.ok ()) =
      (List.range n).map fun _ => (.ok () : Outcome Fault Unit) := by
    rw [List.map_const', List.length_range]
  rw [List.range_succ_eq_map, List.map_cons, List.map_map, hrest]
  simp [released, Function.comp_def]

theorem Counted.close (h : Counted o xs tallies ⟨answers, s, trace⟩) (after : List Operation) :
    let r := (probe o).run s (.close :: after)
    delivered (answers ++ r.answers) = delivered answers ∧
      reported (answers ++ r.answers) = reported answers ∧
      closeOutcomes r.answers = released o :: List.replicate (after.count .close) (.ok ()) ∧
      (Tally.count tallies (trace ++ r.trace))[o.label]? =
        some ⟨s.inner.position + s.stage.isOver.toNat, 1, after.count .close + 1⟩ := by
  have hopen : s.stage.isClosed = false := by
    obtain ⟨inner, stage⟩ := s
    cases stage with
    | closed => exact h.ending.elim
    | _ => rfl
  have hlaw := probe_honours (α := α) o
  rw [Cursor.run, close_open o hopen]
  have hend := hlaw.run_over (s := ⟨s.inner, .closed⟩) rfl after
  have hfirst : (Answer.close (released o) : Answer α Fault).AtEnd := trivial
  obtain ⟨hdelivered, hreported⟩ := silent_of_atEnd (List.forall_mem_cons.mpr ⟨hfirst, hend⟩)
  have hcounted : _ = some (⟨s.inner.position + s.stage.isOver.toNat, 1, 1⟩ : Tally) :=
    tally_firstClose h.tally s.stage.isFailed
  obtain ⟨houtcomes, htally⟩ := closed_run o (s := ⟨s.inner, .closed⟩) rfl after hcounted
  refine ⟨?_, ?_, congrArg (released o :: ·) houtcomes, ?_⟩
  · exact List.filterMap_append.trans ((congrArg _ hdelivered).trans (List.append_nil _))
  · exact List.filterMap_append.trans ((congrArg _ hreported).trans (List.append_nil _))
  · dsimp only at htally ⊢
    rw [← List.append_assoc, Tally.count_append, htally, Nat.add_comm 1]

theorem Counted.starts (h : Counted o xs tallies ⟨answers, s, trace⟩) :
    delivered answers ++ s.stage.head?.toList <+: xs ∧
      (delivered answers ++ s.stage.head?.toList).length = s.inner.position := by
  have hgiven : delivered answers ++ s.stage.head?.toList = xs.take s.inner.position := h.given
  rw [hgiven, List.length_take]
  exact ⟨List.take_prefix _ _, Nat.min_eq_left h.le_length⟩

theorem Counted.bound (h : Counted o xs tallies ⟨answers, s, trace⟩) :
    s.inner.position + s.stage.isOver.toNat ≤ min (o.failAt.getD xs.length) xs.length + 1 := by
  have hle : s.inner.position ≤ o.failAt.getD xs.length := by
    cases hfail : o.failAt with
    | none => exact h.le_length
    | some k => exact h.le_failAt hfail
  exact Nat.add_le_add (Nat.le_min.mpr ⟨hle, h.le_length⟩) (Bool.toNat_le _)

theorem Counted.reported (h : Counted o xs tallies ⟨answers, s, trace⟩) :
    reported answers = [] ∨ ∃ k, o.failAt = some k ∧ k ≤ xs.length ∧
      delivered answers ++ s.stage.head?.toList = xs.take k ∧ reported answers = [.element k] := by
  obtain ⟨inner, stage⟩ := s
  cases stage with
  | idle => exact .inl h.ending
  | ready x => exact .inl h.ending
  | ended => exact .inl h.ending.2.2
  | closed => exact h.ending.elim
  | failed => exact .inr ⟨_, h.ending.1, h.le_length, h.given, h.ending.2⟩

theorem takeWhile_polls {polls : List Operation} (hpolls : .close ∉ polls)
    (rest : List Operation) :
    (polls ++ rest).takeWhile (· ≠ .close) = polls ++ rest.takeWhile (· ≠ .close) :=
  List.takeWhile_append_of_pos fun _ hop => decide_eq_true fun heq => hpolls (heq ▸ hop)

/-- Any elements, any orders and any calls. `before` is the run up to the first close, and what was
`computed` until then has been delivered or is still ahead, to be dropped. A probe computes elements
from the first on, and one computation more finds the end or fails; its tally says so, and counts
the calls of close and the one release. It fails at the position it was given, if the elements go so
far, exactly when what comes before has been delivered and the next element is asked for; once, and
not after a close. The first close reports a failure if it was told to, and the others none. -/
theorem reports_faithfully (o : ProbeOrders) (xs : List α) {tallies : List Tally}
    (hlabel : tallies[o.label]? = some .zero) (ops : List Operation) :
    let run := (probe o).run (.start ⟨xs, 0⟩) ops
    let before := (probe o).run (.start ⟨xs, 0⟩) (ops.takeWhile (· ≠ .close))
    let computed := delivered run.answers ++ before.state.stage.head?.toList
    let ended := before.state.stage.isOver
    let closes := ops.count .close
    computed <+: xs ∧ (ended ↔ ∃ a ∈ before.answers, a.IsFinal) ∧
    (Tally.count tallies run.trace)[o.label]? =
      some ⟨computed.length + ended.toNat, min closes 1, closes⟩ ∧
    computed.length + ended.toNat ≤ min (o.failAt.getD xs.length) xs.length + 1 ∧
    (reported run.answers = [] ∨ ∃ k, o.failAt = some k ∧ k ≤ xs.length ∧
      computed = xs.take k ∧ reported run.answers = [.element k]) ∧
    closeOutcomes run.answers = (List.range closes).map (fun i =>
      if i = 0 ∧ o.failOnRelease then .error .release else .ok ()) ∧
    ∀ op e, op ≠ .close → (((probe o).call run.state op).answer.fault? = some e ↔
      ∃ k, e = .element k ∧ o.failAt = some k ∧ k ≤ xs.length ∧ .close ∉ ops ∧
        delivered run.answers = xs.take k ∧ reported run.answers = []) := by
  -- The account is given up to the first close, and after that nothing is computed any more.
  by_cases hclose : .close ∈ ops
  · have hshut := (probe_honours (α := α) o).run_closed (s := .start ⟨xs, 0⟩) hclose
    obtain ⟨polls, after, rfl, hpolls⟩ := List.eq_append_cons_of_mem hclose
    have hcounted := counted_run o xs hlabel hpolls
    obtain ⟨hdelivered, hreported, houtcomes, htally⟩ := hcounted.close after
    obtain ⟨hstarts, hlength⟩ := hcounted.starts
    have htake : (polls ++ .close :: after).takeWhile (· ≠ .close) = polls := by
      rw [takeWhile_polls hpolls, List.takeWhile_cons_of_neg (by decide), List.append_nil]
    have hcount : (polls ++ .close :: after).count .close = after.count .close + 1 := by
      rw [List.count_append, List.count_eq_zero.mpr hpolls, List.count_cons_self, Nat.zero_add]
    intro run before computed ended closes
    simp only [run, before, computed, ended, closes, htake, hcount]
    have hlater := closed_fault o hshut
    rw [Cursor.run_append] at hlater ⊢
    simp only [hdelivered, hreported, hlater, hclose]
    refine ⟨hstarts, hcounted.told, ?_, ?_, hcounted.reported, ?_, ?_⟩
    · rw [hlength, htally, Nat.min_eq_right (Nat.le_add_left 1 _)]
    · rw [hlength]
      exact hcounted.bound
    · rw [← released_cons, ← houtcomes]
      exact List.filterMap_append.trans (congrArg (· ++ _) (closeOutcomes_polls _ _ hpolls))
    · simp
  · have hcounted := counted_run o xs hlabel hclose
    obtain ⟨hstarts, hlength⟩ := hcounted.starts
    have htake : ops.takeWhile (· ≠ .close) = ops := by
      simpa using takeWhile_polls hclose []
    have hcount : ops.count .close = 0 := List.count_eq_zero.mpr hclose
    intro run before computed ended closes
    simp only [before, htake, closes, hcount, computed, ended]
    refine ⟨hstarts, hcounted.told, ?_, ?_, hcounted.reported, closeOutcomes_polls _ _ hclose, ?_⟩
    · rw [hlength]
      exact hcounted.tally
    · rw [hlength]
      exact hcounted.bound
    · intro op e hop
      rw [hcounted.fault_iff (call_polled o _ hop) e]
      simp only [hclose, not_false_eq_true, true_and]
      rfl

theorem reports_faithfully_at_end :
    let o : ProbeOrders := ⟨0, some 2, true⟩
    let run := (probe o).run (.start ⟨[7, 8], 0⟩)
      [.hasNext, .next, .pull, .hasNext, .next, .close, .pull, .close]
    delivered run.answers = [7, 8] ∧ reported run.answers = [.element 2] ∧
      closeOutcomes run.answers = [.error .release, .ok ()] ∧
      (Tally.count [.zero] run.trace)[0]? = some ⟨3, 1, 2⟩ := by
  intro o run
  have hlabel : [Tally.zero][o.label]? = some .zero := rfl
  obtain ⟨-, -, htally, -, -, hclosings, -⟩ := reports_faithfully o [7, 8] hlabel
    [.hasNext, .next, .pull, .hasNext, .next, .close, .pull, .close]
  exact ⟨rfl, rfl, hclosings, htally⟩

end Leaf.Probe

end PullCursor
