import PullCursor.Proofs.Fault.Report

/-! When a report repeats itself. A message is compared with the one directly before it and no
other, so a message may be written again after an unlike one in between. -/
namespace PullCursor

/-- The messages not contained in any that was written before. -/
def unrepeated (written : List String) : List String → List String
  | [] => []
  | m :: rest =>
      if ∃ w ∈ written, Contains w m then unrepeated written rest
      else m :: unrepeated (written ++ [m]) rest

theorem not_contains_of_mem_unrepeated {written messages : List String} {m : String}
    (h : m ∈ unrepeated written messages) : ∀ w ∈ written, ¬ Contains w m := by
  induction messages generalizing written with
  | nil => cases h
  | cons next rest ih =>
    rw [unrepeated] at h
    split at h
    · exact ih h
    · next hnext =>
      obtain rfl | hrest := List.mem_cons.mp h
      · exact fun w hw hm => hnext ⟨w, hw, hm⟩
      · exact fun w hw => ih hrest w (List.mem_append_left _ hw)

theorem unlikePrevious_eq_unrepeated_iff {written : List String} {last : String}
    (hlast : ∃ w ∈ written, Contains w last) (messages : List String) :
    unlikePrevious last messages = unrepeated written messages ↔
      (∀ w ∈ written, ∀ m ∈ unlikePrevious last messages, ¬ Contains w m) ∧
        (unlikePrevious last messages).Pairwise fun earlier later => ¬ Contains earlier later := by
  -- The last message is always contained in one that was written, so nothing is left out that was
  -- not written before.
  induction messages generalizing written last with
  | nil => simp [unlikePrevious, unrepeated]
  | cons m rest ih =>
    rw [unlikePrevious_cons, unrepeated]
    by_cases h : Contains last m
    · obtain ⟨w, hw, hcontains⟩ := hlast
      have hm : ∃ w ∈ written, Contains w m := ⟨w, hw, hcontains.trans h⟩
      rw [if_pos h, if_pos hm]
      exact ih hm
    · rw [if_neg h]
      by_cases hm : ∃ w ∈ written, Contains w m
      · rw [if_pos hm]
        obtain ⟨w, hw, hcontains⟩ := hm
        constructor
        · intro heq
          have hmem : m ∈ unrepeated written rest := heq ▸ List.mem_cons_self
          exact absurd hcontains (not_contains_of_mem_unrepeated hmem w hw)
        · rintro ⟨hnew, -⟩
          exact absurd hcontains (hnew w hw m List.mem_cons_self)
      · rw [if_neg hm, List.cons_inj_right, ih ⟨m, by simp, .refl m⟩, List.pairwise_cons]
        constructor
        · rintro ⟨hnew, hpairwise⟩
          refine ⟨fun w hw x hx => ?_, fun x hx => hnew m (by simp) x hx, hpairwise⟩
          obtain rfl | hrest := List.mem_cons.mp hx
          · exact fun hw' => hm ⟨w, hw, hw'⟩
          · exact hnew w (List.mem_append_left _ hw) x hrest
        · rintro ⟨hnew, hafter, hpairwise⟩
          refine ⟨fun w hw x hx => ?_, hpairwise⟩
          obtain hw | hw := List.mem_append.mp hw
          · exact hnew w hw x (List.mem_cons_of_mem _ hx)
          · obtain rfl := List.mem_singleton.mp hw
            exact hafter x hx

theorem unlikePrevious_eq_nil_iff (last : String) (messages : List String) :
    unlikePrevious last messages = [] ↔ (last :: messages).IsChain Contains := by
  induction messages generalizing last with
  | nil => simp [unlikePrevious]
  | cons m rest ih =>
    rw [unlikePrevious_cons, List.isChain_cons_cons, ← ih]
    by_cases h : Contains last m <;> simp [h]

theorem Aggregate.contains_opening (closing : String) (entries : List (Label × String)) :
    Contains (text closing entries) "Unable to close " := by
  have hopening : Contains s!"Unable to close {closing}" "Unable to close " :=
    (Contains.refl _).append_right closing
  match entries with
  | [] => exact hopening.append_right _
  | [(.nth _, said)] => exact (hopening.append_right _).append_right said
  | [(.indexed i, said)] =>
    exact (((hopening.append_right _).append_right _).append_right _).append_right said
  | first :: second :: rest =>
    rw [text_several]
    exact (((hopening.append_right _).append_right _).append_right _).append_right _

namespace Fault

theorem message_aggregate_ne_empty (closing : String) (entries : List (Label × Fault)) :
    message (.aggregate closing entries) ≠ "" := by
  intro hempty
  have hopening : Contains (message (.aggregate closing entries)) "Unable to close " := by
    rw [message]
    exact Aggregate.contains_opening closing _
  rw [hempty] at hopening
  exact absurd hopening.of_empty (by decide)

/-- After the message of the aggregate, the chain of its only failure is gone through again. The
first message of that chain is not written, but the others are compared with one another. -/
theorem report_aggregate_one (closing : String) (label : Label) (f : Fault) :
    (aggregate closing [(label, f)]).report =
      "error: " ++ ((aggregate closing [(label, f)]).message ++
        chainFrom f.message ": " (f.cause?.elim [] chain)) := by
  have hchain : (aggregate closing [(label, f)]).chain =
      (aggregate closing [(label, f)]).message :: f.message :: f.cause?.elim [] chain := by
    rw [chain_eq, ← chain_eq f]
    rfl
  have hfirst : ¬ Contains "" (aggregate closing [(label, f)]).message :=
    fun h => message_aggregate_ne_empty closing _ h.of_empty
  have hsecond : Contains (aggregate closing [(label, f)]).message f.message :=
    (Occurs.failure List.mem_cons_self .here).told_by_aggregate
  rw [report, explanation, hchain, chainText, chainFrom_written hfirst, chainFrom_contained hsecond,
    String.empty_append]

/-- The line for a chain repeats nothing exactly if comparing each message with all those written
before would give the same line. An aggregate with one failure is reported by its own message alone
exactly if each message in the chain of that failure contains the next one. -/
theorem repeats_nothing_iff (messages : List String) (closing : String) (label : Label)
    (f : Fault) :
    ((unlikePrevious "" messages).Pairwise (fun earlier later => ¬ Contains earlier later) ↔
      unlikePrevious "" messages = unrepeated [""] messages) ∧
    ((aggregate closing [(label, f)]).report =
        "error: " ++ (aggregate closing [(label, f)]).message ↔
      f.chain.IsChain Contains) := by
  constructor
  · rw [unlikePrevious_eq_unrepeated_iff ⟨"", by simp, .refl ""⟩]
    refine ⟨fun h => ⟨fun w hw m hm hcontains => ?_, h⟩, And.right⟩
    obtain rfl := List.mem_singleton.mp hw
    exact ne_empty_of_mem_unlikePrevious hm hcontains.of_empty
  · rw [report_aggregate_one, chain_eq f, ← unlikePrevious_eq_nil_iff, chainFrom_eq]
    split
    · next h => simp [h]
    · next h => simp [h]

/-- The cause of the only failure is written twice: the message of the aggregate has it already, but
the failure's own message, which is directly before it in the chain, has not. -/
theorem second_cause_repeated :
    let f := aggregate "cursors"
      [(.nth 1, .wrapped "could not release handle" (.custom "cursor 7 went away"))]
    f.message = "Unable to close cursors: could not release handle: cursor 7 went away" ∧
    f.report = "error: " ++ f.message ++ ": cursor 7 went away" ∧
    f.report ≠ "error: " ++ f.message ∧
    ¬ (unlikePrevious "" f.chain).Pairwise fun earlier later => ¬ Contains earlier later := by
  intro f
  refine ⟨rfl, ?_, ?_, ?_⟩ <;> decide +kernel

end Fault

end PullCursor
