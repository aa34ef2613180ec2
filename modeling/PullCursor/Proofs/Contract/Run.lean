import PullCursor.Proofs.Contract.Basic
import PullCursor.Proofs.Schedule

/-! What the contract means for whole runs: after the first answer that ends the elements every
answer says so, and after a close every further close succeeds. -/
namespace PullCursor

variable {σ α ε : Type}

/-- After this answer no element comes any more. -/
def Answer.IsFinal : Answer α ε → Prop
  | .hasNext o => o = .ok false ∨ ∃ e, o = .error e
  | .next o => ∃ e, o = .error e
  | .pull o => o = .ok none ∨ ∃ e, o = .error e
  | .close _ => True

def Answer.AtEnd : Answer α ε → Prop
  | .hasNext o => o = .ok false
  | .next o => o = .error .exhausted
  | .pull o => o = .ok none
  | .close _ => True

namespace Cursor.Honours

variable {c : Cursor σ α ε} {finished shut : σ → Prop} (h : c.Honours finished shut) {s : σ}
include h

theorem call_final {op : Operation} (hfinal : (c.call s op).answer.IsFinal) :
    finished (c.call s op).state := by
  cases op with
  | hasNext =>
    obtain hno | ⟨e, he⟩ := hfinal
    · exact h.ask_no hno
    · exact h.ask_fault he
  | next =>
    obtain ⟨e, he⟩ := hfinal
    exact h.next_error he
  | pull =>
    obtain hnone | ⟨e, he⟩ := hfinal
    · exact h.pull_none hnone
    · exact h.pull_fault he
  | close => exact h.shut_over (h.close_shut s)

theorem call_over (hs : finished s) (op : Operation) : (c.call s op).answer.AtEnd := by
  cases op with
  | hasNext => exact congrArg Reply.outcome (h.over_ask hs)
  | next => exact congrArg Reply.outcome (h.over_next hs)
  | pull => exact congrArg Reply.outcome (h.over_pull hs)
  | close => trivial

theorem call_still (hs : finished s) {op : Operation} (hop : op ≠ .close) :
    (c.call s op).state = s ∧ (c.call s op).trace = [] := by
  cases op with
  | hasNext => simp [call, h.over_ask hs]
  | next => simp [call, h.over_next hs]
  | pull => simp [call, h.over_pull hs]
  | close => exact absurd rfl hop

theorem over_call (hs : finished s) (op : Operation) : finished (c.call s op).state := by
  by_cases hop : op = .close
  · rw [hop]
    exact h.shut_over (h.close_shut s)
  · rw [(h.call_still hs hop).1]
    exact hs

theorem run_over (hs : finished s) (ops : List Operation) :
    ∀ a ∈ (c.run s ops).answers, a.AtEnd := by
  induction ops generalizing s with
  | nil => exact nofun
  | cons op rest ih =>
    intro a ha
    obtain rfl | ha := List.mem_cons.mp ha
    · exact h.call_over hs op
    · exact ih (h.over_call hs op) a ha

theorem run_still (hs : finished s) {ops : List Operation} (hops : .close ∉ ops) :
    (c.run s ops).state = s ∧ (c.run s ops).trace = [] := by
  induction ops with
  | nil => exact ⟨rfl, rfl⟩
  | cons op rest ih =>
    obtain ⟨hop, hrest⟩ := not_or.mp (mt List.mem_cons.mpr hops)
    obtain ⟨hstate, htrace⟩ := h.call_still hs (Ne.symm hop)
    simp only [run, hstate, htrace, List.nil_append]
    exact ih hrest

theorem run_final {ops : List Operation} (hfinal : ∃ a ∈ (c.run s ops).answers, a.IsFinal) :
    finished (c.run s ops).state := by
  induction ops generalizing s with
  | nil => simp [run] at hfinal
  | cons op rest ih =>
    obtain ⟨a, ha, hfinal⟩ := hfinal
    obtain rfl | ha := List.mem_cons.mp ha
    · have hover := h.call_final hfinal
      exact run_preserves (P := finished) (fun _ op hs => h.over_call hs op) rest hover
    · exact ih ⟨a, ha, hfinal⟩

theorem shut_call (hs : shut s) (op : Operation) : (c.call s op).state = s := by
  by_cases hop : op = .close
  · rw [hop]
    exact (h.shut_close hs).2
  · exact (h.call_still (h.shut_over hs) hop).1

theorem run_shut (hs : shut s) (ops : List Operation) :
    ∀ o, .close o ∈ (c.run s ops).answers → o = .ok () := by
  induction ops with
  | nil => exact nofun
  | cons op rest ih =>
    intro o ho
    obtain ho | ho := List.mem_cons.mp ho
    · cases op with
      | close =>
        cases ho
        exact (h.shut_close hs).1
      | _ => cases ho
    · rw [h.shut_call hs op] at ho
      exact ih o ho

theorem run_closed {ops : List Operation} (hclosed : .close ∈ ops) :
    shut (c.run s ops).state := by
  induction ops generalizing s with
  | nil => cases hclosed
  | cons op rest ih =>
    obtain rfl | hclosed := List.mem_cons.mp hclosed
    · refine run_preserves (P := shut) (fun s op hs => ?_) rest (h.close_shut s)
      rw [h.shut_call hs op]
      exact hs
    · exact ih hclosed

end Cursor.Honours

end PullCursor
