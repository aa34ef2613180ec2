import PullCursor.Proofs.Fault.Report

/-! What an aggregate remembers of the pass that filled it. However the failures were recorded, they
stand in it in that order, each under the position that the caller gave for it or, if there was
none, under its number among all of them. -/
namespace PullCursor

variable {ε : Type}

/-- The ways of adding to an aggregate. -/
inductive Recording (ε : Type) where
  | push (e : ε)
  | pushAt (i : Nat) (e : ε)
  | record (outcome : Except ε Unit)
  | pushAll (es : List ε)

namespace Recording

def into (a : Aggregate ε) : Recording ε → Aggregate ε
  | .push e => a.push e
  | .pushAt i e => a.pushAt i e
  | .record outcome => a.record outcome
  | .pushAll es => a.pushAll es

def failures : Recording ε → List (Option Nat × ε)
  | .push e | .record (.error e) => [(none, e)]
  | .pushAt i e => [(some i, e)]
  | .record (.ok _) => []
  | .pushAll es => es.map fun e => (none, e)

end Recording

def Label.of (k : Nat) : Option Nat → Label
  | none => .nth k
  | some i => .indexed i

namespace Aggregate

@[simp] theorem failures_pushAt (a : Aggregate ε) (position : Nat) (e : ε) :
    (a.pushAt position e).failures = a.failures ++ [e] := by
  simp [failures, pushAt]

/-- Failures with their labels, the first of them being the `k`-th of all. -/
def labelled (k : Nat) (fs : List (Option Nat × ε)) : List (Label × ε) :=
  (fs.zipIdx k).map fun f => (.of f.2 f.1.1, f.1.2)

theorem labelled_cons (k : Nat) (f : Option Nat × ε) (fs : List (Option Nat × ε)) :
    labelled k (f :: fs) = (.of k f.1, f.2) :: labelled (k + 1) fs := rfl

theorem labelled_append (k : Nat) (fs gs : List (Option Nat × ε)) :
    labelled k (fs ++ gs) = labelled k fs ++ labelled (k + fs.length) gs := by
  simp only [labelled, List.zipIdx_append, List.map_append]

@[simp] theorem length_labelled (k : Nat) (fs : List (Option Nat × ε)) :
    (labelled k fs).length = fs.length := by
  simp [labelled]

theorem getElem?_labelled (k : Nat) (fs : List (Option Nat × ε)) (j : Nat) :
    (labelled k fs)[j]? = fs[j]?.map fun f => (Label.of (k + j) f.1, f.2) := by
  simp [labelled, Function.comp_def]

theorem labelled_failures (k : Nat) (fs : List (Option Nat × ε)) :
    (labelled k fs).map Prod.snd = fs.map Prod.snd := by
  induction fs generalizing k with
  | nil => rfl
  | cons f rest ih => rw [labelled_cons, List.map_cons, List.map_cons, ih]

theorem into_eq (a : Aggregate ε) (r : Recording ε) :
    r.into a = ⟨a.closing, a.entries ++ labelled (a.size + 1) r.failures⟩ := by
  cases r with
  | push e => rfl
  | pushAt i e => rfl
  | record outcome =>
    cases outcome with
    | ok _ => simp [Recording.into, Recording.failures, record, labelled]
    | error e => rfl
  | pushAll es =>
    show a.pushAll es = _
    induction es generalizing a with
    | nil => simp [pushAll, Recording.failures, labelled]
    | cons e rest ih =>
      show (a.push e).pushAll rest = _
      rw [ih]
      simp [push, size, Recording.failures, labelled_cons, Label.of]

theorem foldl_into (a : Aggregate ε) (rs : List (Recording ε)) :
    rs.foldl Recording.into a =
      ⟨a.closing, a.entries ++ labelled (a.size + 1) (rs.flatMap Recording.failures)⟩ := by
  induction rs generalizing a with
  | nil => simp [labelled]
  | cons r rest ih =>
    rw [List.foldl_cons, ih, into_eq, List.flatMap_cons, labelled_append]
    simp only [size, List.length_append, length_labelled, List.append_assoc, Nat.add_right_comm]

def filled (closing : String) (rs : List (Recording ε)) : Aggregate ε :=
  rs.foldl Recording.into (.empty closing)

theorem filled_eq (closing : String) (rs : List (Recording ε)) :
    filled closing rs = ⟨closing, labelled 1 (rs.flatMap Recording.failures)⟩ :=
  foldl_into (.empty closing) rs

namespace Handover

def after (h : Handover ε) : Nat → Handover ε
  | 0 => h
  | j + 1 => h.next.2.after j

theorem next_eq (h : Handover ε) : h.next = (h.left.head?.map Prod.snd, ⟨h.left.tail⟩) := by
  obtain ⟨_ | _⟩ := h <;> rfl

theorem after_eq (h : Handover ε) (j : Nat) : h.after j = ⟨h.left.drop j⟩ := by
  induction j generalizing h with
  | zero => rfl
  | succ j ih => rw [after, ih, next_eq, List.drop_tail]

theorem length_taken_le (h : Handover ε) (n : Nat) : (h.taken n).length ≤ n := by
  induction n generalizing h with
  | zero => simp [taken]
  | succ n ih =>
    rw [taken]
    split
    next e rest _ => simpa using ih rest
    next => simp

theorem getElem?_taken (h : Handover ε) (n j : Nat) (hj : j < n) :
    (h.taken n)[j]? = (h.after j).next.1.map fun e => (e, (h.after j).next.2.bounds) := by
  induction n generalizing h j with
  | zero => omega
  | succ n ih =>
    rw [taken]
    cases hnext : h.next with
    | mk e? rest =>
      cases e? with
      | some e =>
        cases j with
        | zero => simp [after, hnext]
        | succ j => simpa [after, hnext] using ih rest j (by omega)
      | none =>
        have hleft : h.left = [] := by simpa [next_eq] using congrArg Prod.fst hnext
        simp [after_eq, next_eq, hleft]

end Handover

theorem drained_eq (a : Aggregate ε) (j : Nat) :
    let h := a.handover.after j
    a.drained[j]? = h.next.1.map fun e => (e, h.next.2.bounds) := by
  intro h
  by_cases hj : j < a.size
  · exact a.handover.getElem?_taken a.size j hj
  · have hleft : h = ⟨a.entries.drop j⟩ := Handover.after_eq a.handover j
    have hlength : a.drained.length ≤ a.size := a.handover.length_taken_le a.size
    rw [hleft, List.drop_eq_nil_of_le (Nat.le_of_not_lt hj), List.getElem?_eq_none (by omega)]
    rfl

theorem result_eq (a : Aggregate ε) : a.result = if a.entries = [] then .ok () else .error a := by
  simp [result, isEmpty]

theorem cause?_eq_some {a : Aggregate ε} {e : ε} :
    a.cause? = some e ↔ ∃ label, a.entries = [(label, e)] := by
  unfold cause?
  split
  next label e' h => simp [h]
  next h =>
    refine ⟨nofun, ?_⟩
    rintro ⟨label, hentries⟩
    exact absurd hentries (h label e)

end Aggregate

theorem Fault.cause?_ofAggregate (a : Aggregate Fault) :
    (Fault.ofAggregate a).cause? = a.cause? := by
  obtain ⟨closing, _ | ⟨_, _ | _⟩⟩ := a <;> rfl

namespace Aggregate

theorem cause?_filled {closing : String} {fs : List (Option Nat × ε)} {e : ε} :
    cause? ⟨closing, labelled 1 fs⟩ = some e ↔ ∃ place, fs = [(place, e)] := by
  rw [cause?_eq_some]
  match fs with
  | [] => simp [labelled]
  | [(place, e')] => simp [labelled]
  | first :: second :: rest => simp [labelled_cons]

theorem handover_labelled (closing : String) (fs : List (Option Nat × ε)) (j : Nat) :
    let h := (handover ⟨closing, labelled 1 fs⟩).after j
    h.bounds = (fs.length - j, some (fs.length - j)) ∧ h.next.1 = fs[j]?.map Prod.snd := by
  rw [Handover.after_eq, handover]
  refine ⟨?_, ?_⟩
  · rw [Handover.bounds, List.length_drop, length_labelled]
  · rw [Handover.next_eq, List.head?_drop, ← List.getElem?_map, ← List.getElem?_map,
      labelled_failures]

/-- After any calls that record failures, in any order, an aggregate has exactly the failures that
were recorded, in that order: in its list, one by one on their way to another owner, and in its
message. One that was given a position is shown under it, any other one under its number among all,
and the number is left out if there is no other failure. The message has what each failure displays.
What the aggregate says of itself, its size, its first failure, whether the pass succeeded and what
caused it, agrees with that. -/
theorem filled_faithfully (closing : String) (rs : List (Recording Fault)) :
    let a := filled closing rs
    let fs := rs.flatMap Recording.failures
    a.failures = fs.map Prod.snd ∧ a.size = fs.length ∧
    (∀ k place e, fs[k]? = some (place, e) → a.entries[k]? = some (Label.of (k + 1) place, e) ∧
      Contains a.message e.message ∧ Contains a.message e.line ∧
      (∀ m, e.Displays m ↔ m = e.message) ∧
      e.chain = e.message :: e.cause?.elim [] Fault.chain) ∧
    a.message = told closing (labelled 1 fs) ∧ a.first? = fs.head?.map Prod.snd ∧
    (a.result = .ok () ↔ fs = []) ∧ (fs ≠ [] → a.result = .error a) ∧
    (Fault.ofAggregate a).cause? = a.cause? ∧
    (∀ e, a.cause? = some e ↔ ∃ place, fs = [(place, e)]) ∧
    ∀ j ≤ fs.length,
      let h := a.handover.after j
      h.bounds = (fs.length - j, some (fs.length - j)) ∧ h.next.1 = fs[j]?.map Prod.snd ∧
        a.drained[j]? = h.next.1.map fun e => (e, h.next.2.bounds) := by
  intro a fs
  have ha : a = ⟨closing, labelled 1 fs⟩ := filled_eq closing rs
  have hnil : a.entries = [] ↔ fs = [] := by
    rw [ha, ← List.length_eq_zero_iff, length_labelled, List.length_eq_zero_iff]
  have hfailures : a.failures = fs.map Prod.snd := by
    rw [ha]
    exact labelled_failures 1 fs
  have hentry (k : Nat) (place : Option Nat) (e : Fault) (hk : fs[k]? = some (place, e)) :
      a.entries[k]? = some (Label.of (k + 1) place, e) := by
    rw [ha, getElem?_labelled, hk, Nat.add_comm]
    rfl
  refine ⟨hfailures, ?_, ?_, ?_, ?_, ?_, ?_, Fault.cause?_ofAggregate a, ?_, ?_⟩
  · rw [ha]
    exact length_labelled 1 fs
  · intro k place e hk
    have hmem : (Label.of (k + 1) place, e) ∈ a.entries :=
      List.mem_of_getElem? (hentry k place e hk)
    have hline : Contains a.message e.explanation := Fault.contains_aggregate a.closing hmem
    refine ⟨hentry k place e hk, hline.trans (Fault.Occurs.here.explained), ?_,
      fun m => Fault.displays_iff, e.chain_eq⟩
    rwa [← e.explanation_eq_line]
  · rw [ha]
    exact Fault.message_aggregate closing (labelled 1 fs)
  · rw [first?, hfailures, List.head?_map]
  · rw [result_eq, ← hnil]
    split <;> simp_all
  · intro hfs
    rw [result_eq, if_neg (mt hnil.mp hfs)]
  · intro e
    rw [ha]
    exact cause?_filled
  · intro j _ h
    obtain ⟨hbounds, hnext⟩ := handover_labelled closing fs j
    rw [← ha] at hbounds hnext
    exact ⟨hbounds, hnext, drained_eq a j⟩

end Aggregate

end PullCursor
