import PullCursor.Proofs.Contract.Basic
import PullCursor.Proofs.Course.Run

/-! All the ways in which a lookahead comes to an answer. -/
namespace PullCursor

variable {κ α ε : Type}

namespace Answer

theorem AtEnd.silent {a : Answer α ε} (h : a.AtEnd) :
    a.element? = none ∧ a.fault? = none ∧ a.IsFinal := by
  cases a with
  | hasNext o => cases h; exact ⟨rfl, rfl, .inl rfl⟩
  | next o => cases h; exact ⟨rfl, rfl, _, rfl⟩
  | pull o => cases h; exact ⟨rfl, rfl, .inl rfl⟩
  | close o => exact ⟨rfl, rfl, trivial⟩

theorem final_of_fault {a : Answer α ε} {e : ε} (h : a.fault? = some e) :
    a.element? = none ∧ a.IsFinal := by
  cases a with
  | hasNext o => cases o <;> cases h; exact ⟨rfl, .inr ⟨_, rfl⟩⟩
  | next o => rcases o with _ | (_ | _) | _ <;> cases h; exact ⟨rfl, _, rfl⟩
  | pull o => rcases o with (_ | _) | _ | _ <;> cases h; exact ⟨rfl, .inr ⟨_, rfl⟩⟩
  | close o => cases h

theorem not_final_of_element {a : Answer α ε} {x : α} (h : a.element? = some x) :
    a.fault? = none ∧ ¬ a.IsFinal := by
  cases a with
  | hasNext o => cases h
  | next o => cases o <;> cases h; exact ⟨rfl, by simp [IsFinal]⟩
  | pull o => rcases o with (_ | _) | _ | _ <;> cases h; exact ⟨rfl, by simp [IsFinal]⟩
  | close o => cases h

end Answer

theorem silent_of_atEnd {answers : List (Answer α ε)} (h : ∀ a ∈ answers, a.AtEnd) :
    delivered answers = [] ∧ reported answers = [] :=
  ⟨List.filterMap_eq_nil_iff.mpr fun a ha => (h a ha).silent.1,
    List.filterMap_eq_nil_iff.mpr fun a ha => (h a ha).silent.2.1⟩

namespace Lookahead

/-- How a call that is not a close comes to its answer. An idle lookahead first makes its source
compute; what happens to the element then does not depend on where it came from. -/
inductive Polled (c : Source κ α ε) : Lookahead κ α → Called (Lookahead κ α) α ε → Prop
  | still {s a} : s.stage.isOver → a.AtEnd → Polled c s ⟨a, s, []⟩
  | kept {inner x} :
      Polled c ⟨inner, .ready x⟩ ⟨.hasNext (.ok true), ⟨inner, .ready x⟩, []⟩
  | taken {inner x a} : a.element? = some x →
      Polled c ⟨inner, .ready x⟩ ⟨a, ⟨inner, .idle⟩, []⟩
  | computed {inner inner' x t a s} : c.pull inner = ⟨.ok (some x), inner', t⟩ →
      Polled c ⟨inner', .ready x⟩ ⟨a, s, []⟩ → Polled c ⟨inner, .idle⟩ ⟨a, s, t⟩
  | ended {inner inner' t a} : c.pull inner = ⟨.ok none, inner', t⟩ → a.AtEnd →
      Polled c ⟨inner, .idle⟩ ⟨a, ⟨inner', .ended⟩, t⟩
  | failed {inner inner' e t a} : c.pull inner = ⟨.error e, inner', t⟩ → a.fault? = some e →
      Polled c ⟨inner, .idle⟩ ⟨a, ⟨inner', .failed⟩, t ++ [.log .computationFailed]⟩
  | panicked {inner inner' m t a} : c.pull inner = ⟨.panic m, inner', t⟩ →
      Polled c ⟨inner, .idle⟩ ⟨a, ⟨inner', .failed⟩, t⟩

variable {c : Source κ α ε}

theorem Polled.ready_fault {inner : κ} {x : α} {r : Called (Lookahead κ α) α ε}
    (h : Polled c ⟨inner, .ready x⟩ r) : r.answer.fault? = none := by
  cases h with
  | still hover => cases hover
  | kept => rfl
  | taken ha => exact (Answer.not_final_of_element ha).1

variable (c)

theorem polled_idle (inner : κ) {op : Operation} (hop : op ≠ .close) :
    Polled c ⟨inner, .idle⟩ ((cursor c).call ⟨inner, .idle⟩ op) := by
  cases op with
  | hasNext =>
    show Polled c _ ⟨.hasNext (look c _).outcome, (look c _).state, (look c _).trace⟩
    rw [look_idle]
    rcases h : c.pull inner with ⟨(_ | x) | e | m, inner', t⟩
    · exact .ended h rfl
    · exact .computed h .kept
    · exact .failed h rfl
    · exact .panicked h
  | next =>
    show Polled c _ ⟨.next (next c _).outcome, (next c _).state, (next c _).trace⟩
    rw [next_idle]
    rcases h : c.pull inner with ⟨(_ | x) | e | m, inner', t⟩
    · exact .ended h rfl
    · exact .computed h (.taken rfl)
    · exact .failed h rfl
    · exact .panicked h
  | pull =>
    unfold Cursor.call
    rw [pull_idle]
    rcases h : c.pull inner with ⟨(_ | x) | e | m, inner', t⟩
    · exact .ended h rfl
    · exact .computed h (.taken rfl)
    · exact .failed h rfl
    · exact .panicked h
  | close => exact absurd rfl hop

theorem polled_over {s : Lookahead κ α} (h : s.stage.isOver) {op : Operation}
    (hop : op ≠ .close) : Polled c s ((cursor c).call s op) := by
  have hanswer := (honours c).call_over h op
  obtain ⟨hstate, htrace⟩ := (honours c).call_still h hop
  generalize (cursor c).call s op = r at hanswer hstate htrace ⊢
  obtain ⟨a, s', t⟩ := r
  cases hstate
  cases htrace
  exact .still h hanswer

theorem polled (s : Lookahead κ α) {op : Operation} (hop : op ≠ .close) :
    Polled c s ((cursor c).call s op) := by
  obtain ⟨inner, stage⟩ := s
  cases stage with
  | idle => exact polled_idle c inner hop
  | ready x =>
    cases op with
    | hasNext => exact .kept
    | next => exact .taken rfl
    | pull => exact .taken rfl
    | close => exact absurd rfl hop
  | _ => exact polled_over c rfl hop

end Lookahead

end PullCursor
