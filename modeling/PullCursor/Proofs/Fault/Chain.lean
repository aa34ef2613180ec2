import Mathlib.Data.List.Infix
import PullCursor.Fault.Basic

/-! What a chain of messages looks like on one line. A message is left out when the one before it
contains it, printed or not; since containment is transitive, it stands on the line all the same. -/
namespace PullCursor

def Contains (text part : String) : Prop := part.toList <:+: text.toList

theorem occursIn_iff {needle text : List Char} : occursIn needle text ↔ needle <:+: text := by
  induction text with
  | nil => simp [occursIn]
  | cons c rest ih => simp [occursIn, List.infix_cons_iff, ih]

instance (text part : String) : Decidable (Contains text part) :=
  decidable_of_iff _ occursIn_iff

namespace Contains

variable {text part other : String}

protected theorem refl (text : String) : Contains text text := List.infix_rfl

protected theorem trans (h : Contains text part) (h' : Contains part other) :
    Contains text other := List.IsInfix.trans h' h

protected theorem empty (text : String) : Contains text "" := List.nil_infix

theorem append_left (h : Contains text part) (before : String) :
    Contains (before ++ text) part := by
  unfold Contains
  rw [String.toList_append]
  exact List.IsInfix.trans h (List.suffix_append _ _).isInfix

theorem append_right (h : Contains text part) (after : String) :
    Contains (text ++ after) part := by
  unfold Contains
  rw [String.toList_append]
  exact List.IsInfix.trans h (List.prefix_append _ _).isInfix

theorem of_empty (h : Contains "" part) : part = "" := by
  have hnil : part.toList = "".toList := List.infix_nil.mp h
  exact String.toList_inj.mp hnil

end Contains

/-- The messages that are not contained in the one directly before them. -/
def unlikePrevious (last : String) (messages : List String) : List String :=
  (((last :: messages).zip messages).filter fun p => ¬ Contains p.1 p.2).map (·.2)

section Chain

variable {last m : String} {messages : List String}

theorem unlikePrevious_cons (last m : String) (rest : List String) :
    unlikePrevious last (m :: rest) =
      if Contains last m then unlikePrevious m rest else m :: unlikePrevious m rest := by
  unfold unlikePrevious
  rw [List.zip_cons_cons, List.filter_cons]
  by_cases h : Contains last m <;> simp [h]

theorem ne_empty_of_mem_unlikePrevious (h : m ∈ unlikePrevious last messages) : m ≠ "" := by
  rintro rfl
  obtain ⟨⟨before, m⟩, hmem, rfl⟩ := List.mem_map.mp h
  simpa using absurd (Contains.empty before) (by simpa using (List.mem_filter.mp hmem).2)

theorem chainFrom_contained (h : Contains last m) (separator : String) (rest : List String) :
    chainFrom last separator (m :: rest) = chainFrom m separator rest :=
  if_pos (occursIn_iff.mpr h)

theorem chainFrom_written (h : ¬ Contains last m) (separator : String) (rest : List String) :
    chainFrom last separator (m :: rest) = separator ++ m ++ chainFrom m ": " rest :=
  if_neg (mt occursIn_iff.mp h)

theorem chainFrom_eq (last separator : String) (messages : List String) :
    chainFrom last separator messages =
      if unlikePrevious last messages = [] then ""
      else separator ++ ": ".intercalate (unlikePrevious last messages) := by
  induction messages generalizing last separator with
  | nil => rfl
  | cons m rest ih =>
    rw [unlikePrevious_cons]
    by_cases h : Contains last m
    · rw [chainFrom_contained h, if_pos h, ih]
    · rw [chainFrom_written h, if_neg h, if_neg (List.cons_ne_nil _ _), ih]
      by_cases hrest : unlikePrevious m rest = []
      · rw [if_pos hrest, hrest, String.intercalate_singleton, String.append_empty]
      · rw [if_neg hrest, String.intercalate_cons_of_ne_nil hrest]
        simp only [String.append_assoc]

theorem chainText_eq (messages : List String) :
    chainText messages = ": ".intercalate (unlikePrevious "" messages) := by
  rw [chainText, chainFrom_eq]
  split
  · next h => rw [h, String.intercalate_nil]
  · exact String.empty_append

/-- Whatever is written before contains the last message, so it contains each message left out. -/
theorem contains_chainFrom {before : String} (separator : String) (hlast : Contains before last)
    (h : m ∈ messages) : Contains (before ++ chainFrom last separator messages) m := by
  -- What was written before contains the last message, written or not. So a message that is left
  -- out, which the last one contains, stands there too.
  induction messages generalizing before last separator with
  | nil => cases h
  | cons next rest ih =>
    by_cases hnext : Contains last next
    · rw [chainFrom_contained hnext]
      have hbefore := hlast.trans hnext
      obtain rfl | hrest := List.mem_cons.mp h
      · exact hbefore.append_right _
      · exact ih separator hbefore hrest
    · rw [chainFrom_written hnext, ← String.append_assoc]
      have hwritten : Contains (before ++ (separator ++ next)) next :=
        ((Contains.refl next).append_left separator).append_left before
      obtain rfl | hrest := List.mem_cons.mp h
      · exact hwritten.append_right _
      · exact ih ": " hwritten hrest

theorem contains_chainText (h : m ∈ messages) : Contains (chainText messages) m := by
  simpa [chainText] using contains_chainFrom "" (Contains.refl "") h

end Chain

end PullCursor
