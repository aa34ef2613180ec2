import PullCursor.Proofs.Fault.Chain

/-! What a report on a fault contains. A fault tells of its causes, and an aggregate of all its
failures; the text of an aggregate holds the chain of each failure, so what is recorded at any depth
is found on the line of the outermost fault. -/
namespace PullCursor

theorem contains_join {pieces : List String} {piece : String} (h : piece ∈ pieces) :
    Contains (String.join pieces) piece := by
  unfold Contains
  rw [String.toList_join, List.flatMap_def]
  exact List.infix_of_mem_flatten (List.mem_map_of_mem h)

theorem Label.toList_heading {label : Label} {c : Char} {rest : List Char}
    (h : label.text.toList = c :: rest) : label.heading.toList = c.toUpper :: rest := by
  rw [heading, h, String.toList_ofList]

theorem Label.heading_nth (n : Nat) : (Label.nth n).heading = s!"Failure {n}" := by
  have htext : (nth n).text.toList = 'f' :: ("ailure ".toList ++ (toString n).toList) :=
    String.toList_append
  apply String.toList_injective
  rw [toList_heading htext]
  show _ = ("Failure " ++ toString n).toList
  rw [String.toList_append]
  rfl

theorem Label.heading_indexed (i : Nat) : (Label.indexed i).heading = s!"Resource #{i}" := by
  have htext : (indexed i).text.toList = 'r' :: ("esource #".toList ++ (toString i).toList) :=
    String.toList_append
  apply String.toList_injective
  rw [toList_heading htext]
  show _ = ("Resource #" ++ toString i).toList
  rw [String.toList_append]
  rfl

namespace Aggregate

theorem text_several (closing : String) (first second : Label × String)
    (rest : List (Label × String)) :
    text closing (first :: second :: rest) =
      s!"Unable to close {closing}: {(first :: second :: rest).length} failures"
        ++ String.join ((first :: second :: rest).map fun e => s!"\n{e.1.heading}: {e.2}") := by
  obtain ⟨label, said⟩ := first
  cases label <;> rfl

theorem text_indexed (closing : String) (i : Nat) (said : String) :
    text closing [(.indexed i, said)] = s!"Unable to close {closing}: resource #{i}: {said}" := by
  have hlabel : ": " ++ "resource #" = ": resource #" := by simp
  show s!"Unable to close {closing}: {Label.text (.indexed i)}: {said}" = _
  rw [Label.text, ← hlabel]
  simp only [toString, String.append_assoc]

theorem contains_text (closing : String) {entries : List (Label × String)} {label : Label}
    {said : String} (h : (label, said) ∈ entries) : Contains (text closing entries) said := by
  match entries, h with
  | [(.nth _, _)], h =>
    obtain rfl : said = _ := congrArg Prod.snd (List.mem_singleton.mp h)
    exact (Contains.refl said).append_left _
  | [(.indexed _, _)], h =>
    obtain rfl : said = _ := congrArg Prod.snd (List.mem_singleton.mp h)
    exact (Contains.refl said).append_left _
  | first :: second :: rest, h =>
    rw [text_several]
    have hline : Contains s!"\n{label.heading}: {said}" said := (Contains.refl said).append_left _
    have hmem := List.mem_map_of_mem (f := fun e => s!"\n{e.1.heading}: {e.2}") h
    exact ((contains_join hmem).trans hline).append_left _

end Aggregate

namespace Fault

/-- A fault is the cause of what wraps it, and of an aggregate that recorded nothing else. -/
inductive Causes (cause : Fault) : Fault → Prop where
  | wrapped (m : String) : Causes cause (.wrapped m cause)
  | failed : Causes cause (.failed cause)
  | unconverted : Causes cause (.unconverted cause)
  | only (closing : String) (label : Label) : Causes cause (.aggregate closing [(label, cause)])

/-- A fault occurs in itself, in what it caused, and in every aggregate that recorded it. -/
inductive Occurs (f : Fault) : Fault → Prop where
  | here : Occurs f f
  | cause {g cause : Fault} : cause.Causes g → Occurs f cause → Occurs f g
  | failure {closing : String} {entries : List (Label × Fault)} {label : Label} {g : Fault} :
      (label, g) ∈ entries → Occurs f g → Occurs f (.aggregate closing entries)

/-- The messages from the fault down to its last cause, without those that the message directly
before them contains. -/
def line (f : Fault) : String := ": ".intercalate (unlikePrevious "" f.chain)

end Fault

namespace Aggregate

def entryLine : Label × Fault → String
  | (.nth n, f) => s!"\nFailure {n}: {f.line}"
  | (.indexed i, f) => s!"\nResource #{i}: {f.line}"

def told (closing : String) : List (Label × Fault) → String
  | [] => s!"Unable to close {closing}. (No errors given)"
  | [(.nth _, f)] => s!"Unable to close {closing}: {f.line}"
  | [(.indexed i, f)] => s!"Unable to close {closing}: resource #{i}: {f.line}"
  | entries =>
      s!"Unable to close {closing}: {entries.length} failures"
        ++ String.join (entries.map entryLine)

theorem told_several (closing : String) (first second : Label × Fault)
    (rest : List (Label × Fault)) :
    told closing (first :: second :: rest) =
      s!"Unable to close {closing}: {(first :: second :: rest).length} failures"
        ++ String.join ((first :: second :: rest).map entryLine) := by
  obtain ⟨label, f⟩ := first
  cases label <;> rfl

end Aggregate

namespace Fault

inductive Displays : Fault → String → Prop where
  | element (i : Nat) : Displays (.element i) s!"injected failure at element {i}"
  | release : Displays .release "injected failure while closing"
  | custom (m : String) : Displays (.custom m) m
  | wrapped (m : String) (cause : Fault) : Displays (.wrapped m cause) m
  | exhausted : Displays .exhausted "no more elements"
  | failed (cause : Fault) : Displays (.failed cause) "iteration failed"
  | unconverted (cause : Fault) : Displays (.unconverted cause) "error could not be translated"
  | aggregate (closing : String) (entries : List (Label × Fault)) :
      Displays (.aggregate closing entries) (Aggregate.told closing entries)

theorem cause?_eq_some_iff {f cause : Fault} : f.cause? = some cause ↔ cause.Causes f := by
  constructor
  · intro h
    unfold cause? at h
    split at h
    next m _ => cases h; exact .wrapped m
    next => cases h; exact .failed
    next => cases h; exact .unconverted
    next closing label _ => cases h; exact .only closing label
    next => cases h
  · intro h
    cases h <;> rfl

theorem chain_eq (f : Fault) : f.chain = f.message :: f.cause?.elim [] chain := by
  cases f with
  | aggregate closing entries =>
    match entries with
    | [] => simp [chain, causeMessages, cause?]
    | [(label, only)] => simp [chain, causeMessages, cause?]
    | first :: second :: rest => simp [chain, causeMessages, cause?]
  | _ => simp [chain, causeMessages, cause?]

theorem explained_eq (entries : List (Label × Fault)) :
    explained entries = entries.map fun entry => (entry.1, entry.2.explanation) := by
  induction entries with
  | nil => rfl
  | cons entry rest ih => rw [explained, ih, List.map_cons, explanation, chain]

theorem explanation_eq_line (f : Fault) : f.explanation = f.line := chainText_eq f.chain

theorem contains_aggregate (closing : String) {entries : List (Label × Fault)} {label : Label}
    {f : Fault} (h : (label, f) ∈ entries) :
    Contains (message (.aggregate closing entries)) f.explanation := by
  rw [message, explained_eq]
  exact Aggregate.contains_text closing (List.mem_map.mpr ⟨_, h, rfl⟩)

theorem entryLine_eq (entry : Label × Fault) :
    s!"\n{entry.1.heading}: {entry.2.explanation}" = Aggregate.entryLine entry := by
  obtain ⟨label, f⟩ := entry
  rw [explanation_eq_line]
  cases label with
  | nth n =>
    have hopening : "\n" ++ "Failure " = "\nFailure " := by simp
    rw [Label.heading_nth, Aggregate.entryLine, ← hopening]
    simp only [toString, String.append_assoc]
  | indexed i =>
    have hopening : "\n" ++ "Resource #" = "\nResource #" := by simp
    rw [Label.heading_indexed, Aggregate.entryLine, ← hopening]
    simp only [toString, String.append_assoc]

theorem message_aggregate (closing : String) (entries : List (Label × Fault)) :
    message (.aggregate closing entries) = Aggregate.told closing entries := by
  rw [message, explained_eq]
  match entries with
  | [] => rfl
  | [(.nth _, f)] =>
    show s!"Unable to close {closing}: {f.explanation}" = _
    rw [explanation_eq_line]
    rfl
  | [(.indexed i, f)] =>
    refine (Aggregate.text_indexed closing i f.explanation).trans ?_
    rw [explanation_eq_line]
    rfl
  | first :: second :: rest =>
    rw [List.map_cons, List.map_cons, Aggregate.text_several, Aggregate.told_several]
    simp only [entryLine_eq, List.length_cons, List.length_map, List.map_cons, List.map_map,
      Function.comp_def]

theorem Occurs.told {f g : Fault} (h : f.Occurs g) : ∃ m ∈ g.chain, Contains m f.message := by
  -- What tells of an occurrence is the message of some fault on the chain: the fault itself, or an
  -- aggregate on the way to it.
  induction h with
  | here =>
    rw [chain_eq]
    exact ⟨f.message, List.mem_cons_self, .refl _⟩
  | @cause g cause hcause _ ih =>
    obtain ⟨m, hm, hcontains⟩ := ih
    rw [chain_eq, cause?_eq_some_iff.mpr hcause]
    exact ⟨m, List.mem_cons_of_mem _ hm, hcontains⟩
  | @failure closing entries label g hmem _ ih =>
    obtain ⟨m, hm, hcontains⟩ := ih
    rw [chain_eq]
    have hline : Contains g.explanation m := contains_chainText hm
    exact ⟨_, List.mem_cons_self, ((contains_aggregate closing hmem).trans hline).trans hcontains⟩

theorem Occurs.explained {f g : Fault} (h : f.Occurs g) : Contains g.explanation f.message := by
  obtain ⟨m, hm, hcontains⟩ := h.told
  exact (contains_chainText hm).trans hcontains

theorem Occurs.told_by_aggregate {f : Fault} {closing : String} {entries : List (Label × Fault)}
    (h : f.Occurs (.aggregate closing entries)) :
    Contains (message (.aggregate closing entries)) f.message := by
  cases h with
  | here => exact .refl _
  | cause hcause h =>
    cases hcause
    exact (contains_aggregate closing List.mem_cons_self).trans h.explained
  | failure hmem h => exact (contains_aggregate closing hmem).trans h.explained

theorem displays_iff {f : Fault} {m : String} : f.Displays m ↔ m = f.message := by
  constructor
  · intro h
    cases h with
    | aggregate closing entries => exact (message_aggregate closing entries).symm
    | _ => rfl
  · rintro rfl
    cases f with
    | element i => exact .element i
    | release => exact .release
    | custom m => exact .custom m
    | wrapped m cause => exact .wrapped m cause
    | exhausted => exact .exhausted
    | failed cause => exact .failed cause
    | unconverted cause => exact .unconverted cause
    | aggregate closing entries =>
      rw [message_aggregate]
      exact .aggregate closing entries

/-- The message of every fault that occurs in a fault stands in its report and, if that is an
aggregate, in its own message. What a fault has for its message is what its kind displays, and a
chain has that and then the chain of the cause. The line for a chain has the messages that are not
contained in the one directly before them, in order and with one colon between two of them; none of
those messages is empty. The report has that line and nothing else. -/
theorem report_loses_nothing (f : Fault) :
    (∀ g : Fault, g.Occurs f → Contains f.report g.message ∧
      ∀ closing entries, f = .aggregate closing entries → Contains f.message g.message) ∧
    (∀ m, f.Displays m ↔ m = f.message) ∧ (∀ cause, f.cause? = some cause ↔ cause.Causes f) ∧
    f.chain = f.message :: f.cause?.elim [] chain ∧ f.report = "error: " ++ f.line ∧
    ∀ messages : List String,
      chainText messages = ": ".intercalate (unlikePrevious "" messages) ∧
      ∀ m ∈ unlikePrevious "" messages, m ≠ "" := by
  refine ⟨fun g hg => ⟨?_, ?_⟩, fun m => displays_iff, fun cause => cause?_eq_some_iff, chain_eq f,
    congrArg _ (explanation_eq_line f), fun messages => ⟨chainText_eq messages, ?_⟩⟩
  · exact hg.explained.append_left _
  · rintro closing entries rfl
    exact hg.told_by_aggregate
  · exact fun m hm => ne_empty_of_mem_unlikePrevious hm

end Fault

end PullCursor
