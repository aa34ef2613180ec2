import Mathlib.Algebra.Group.Nat.Even
import Mathlib.Data.List.Nodup
import PullCursor.Seed.Hex

/-! What every codec does with hexadecimal digits. A text is read exactly if, but for the case of
its digits, it is what would be written for some bytes, and those bytes are what is read. -/
namespace PullCursor.Hex

variable {cs more : List Char} {bytes later : List UInt8}

namespace Spells

theorem getElem?_eq (h : Spells cs bytes) (j : Nat) :
    cs[j]? = bytes[j / 2]?.bind fun b =>
      digits[if j % 2 = 0 then b.toNat / 16 else b.toNat % 16]? := by
  have hj : j = 2 * (j / 2) ∨ j = 2 * (j / 2) + 1 := by omega
  generalize j / 2 = i at hj
  obtain rfl | rfl := hj
  · rw [Nat.mul_mod_right]
    exact (h i).1
  · have hmod : (2 * i + 1) % 2 = 1 := by omega
    rw [hmod]
    exact (h i).2

theorem text_unique {cs' : List Char} (h : Spells cs bytes) (h' : Spells cs' bytes) : cs = cs' := by
  apply List.ext_getElem?
  intro j
  rw [h.getElem?_eq, h'.getElem?_eq]

theorem mem_digits (h : Spells cs bytes) {c : Char} (hc : c ∈ cs) : c ∈ digits := by
  obtain ⟨j, hj⟩ := List.mem_iff_getElem?.mp hc
  rw [h.getElem?_eq, Option.bind_eq_some_iff] at hj
  obtain ⟨b, -, hdigit⟩ := hj
  exact List.mem_of_getElem? hdigit

theorem lt_length_iff (h : Spells cs bytes) (j : Nat) : j < cs.length ↔ j < 2 * bytes.length := by
  -- A place in the text is there exactly if its byte is.
  obtain hlt | hge := Nat.lt_or_ge (j / 2) bytes.length
  · have hdigit (n : Nat) (hn : n < 16) : digits[n]?.isSome := by
      rw [digits_getElem? hn]
      rfl
    have hsome : cs[j]?.isSome := by
      rw [h.getElem?_eq, List.getElem?_eq_getElem hlt]
      obtain ⟨hhigh, hlow⟩ := halves_lt bytes[j / 2]
      apply hdigit
      split
      · exact hhigh
      · exact hlow
    have hj : j < cs.length := by simpa using hsome
    omega
  · have hnone : cs[j]? = none := by
      rw [h.getElem?_eq, List.getElem?_eq_none hge, Option.bind_none]
    have hj : cs.length ≤ j := by simpa using hnone
    omega

theorem length_eq (h : Spells cs bytes) : cs.length = 2 * bytes.length := by
  have hle := h.lt_length_iff cs.length
  have hge := h.lt_length_iff (2 * bytes.length)
  omega

theorem digits_inj {n m : Nat} (hn : n < 16) (h : digits[n]? = digits[m]?) : n = m := by
  have hnodup : digits.Nodup := by decide +kernel
  exact (List.getElem?_inj hn hnodup).mp h

theorem bytes_unique {bytes' : List UInt8} (h : Spells cs bytes) (h' : Spells cs bytes') :
    bytes = bytes' := by
  have hlength : bytes.length = bytes'.length := by
    have hcs := h.length_eq
    rw [h'.length_eq] at hcs
    omega
  apply List.ext_getElem hlength
  intro i hi hi'
  obtain ⟨hhigh, hlow⟩ := h i
  obtain ⟨hhigh', hlow'⟩ := h' i
  rw [hhigh', List.getElem?_eq_getElem hi, List.getElem?_eq_getElem hi'] at hhigh
  rw [hlow', List.getElem?_eq_getElem hi, List.getElem?_eq_getElem hi'] at hlow
  obtain ⟨hdiv, hmod⟩ := halves_lt bytes'[i]
  have hhalf : bytes'[i].toNat / 16 = bytes[i].toNat / 16 := digits_inj hdiv hhigh
  have hrest : bytes'[i].toNat % 16 = bytes[i].toNat % 16 := digits_inj hmod hlow
  rw [← UInt8.toNat_inj]
  omega

theorem append (h : Spells cs bytes) (hmore : Spells more later) :
    Spells (cs ++ more) (bytes ++ later) := by
  have hlength := h.length_eq
  intro i
  obtain hlt | hge := Nat.lt_or_ge i bytes.length
  · have hhigh : 2 * i < cs.length := by omega
    have hlow : 2 * i + 1 < cs.length := by omega
    have hbyte : (bytes ++ later)[i]? = bytes[i]? := List.getElem?_append_left hlt
    rw [List.getElem?_append_left hhigh, List.getElem?_append_left hlow, hbyte]
    exact h i
  · have hhigh : cs.length ≤ 2 * i := by omega
    have hlow : cs.length ≤ 2 * i + 1 := by omega
    have hi : 2 * i - cs.length = 2 * (i - bytes.length) := by omega
    have hi' : 2 * i + 1 - cs.length = 2 * (i - bytes.length) + 1 := by omega
    have hbyte : (bytes ++ later)[i]? = later[i - bytes.length]? :=
      List.getElem?_append_right hge
    rw [List.getElem?_append_right hhigh, List.getElem?_append_right hlow, hi, hi', hbyte]
    exact hmore (i - bytes.length)

end Spells

namespace Codec

variable (codec : Codec)

theorem length_encode (bytes : List UInt8) : (codec.encode bytes).length = 2 * bytes.length :=
  (codec.spells_encode bytes).length_eq

theorem exists_decode_iff (cs : List Char) :
    (∃ bytes, codec.decode cs = some bytes) ↔ Even cs.length ∧ ∀ c ∈ cs, IsDigit c := by
  rw [← Option.isSome_iff_exists, codec.decode_accepts, Nat.even_iff]

theorem decode_eq_some_iff : codec.decode cs = some bytes ↔ Spells (cs.map Char.toLower) bytes := by
  constructor
  · exact codec.spells_decode cs bytes
  · intro h
    have heven : Even cs.length := by
      rw [Nat.even_iff, ← List.length_map (f := Char.toLower), h.length_eq, Nat.mul_mod_right]
    have hdigits : ∀ c ∈ cs, IsDigit c := fun c hc => h.mem_digits (List.mem_map_of_mem hc)
    obtain ⟨bytes', hread⟩ := (codec.exists_decode_iff cs).mpr ⟨heven, hdigits⟩
    rw [hread, (codec.spells_decode cs bytes' hread).bytes_unique h]

theorem decode_eq_some_iff_lower :
    codec.decode cs = some bytes ↔ cs.map Char.toLower = codec.encode bytes := by
  rw [decode_eq_some_iff]
  constructor
  · exact fun h => h.text_unique (codec.spells_encode bytes)
  · intro h
    rw [h]
    exact codec.spells_encode bytes

theorem length_of_decode (h : codec.decode cs = some bytes) : cs.length = 2 * bytes.length := by
  rw [← (codec.spells_decode cs bytes h).length_eq, List.length_map]

theorem decode_encode (bytes : List UInt8) : codec.decode (codec.encode bytes) = some bytes := by
  have hwritten := codec.spells_encode bytes
  have hall : digits.all (fun c => c.toLower = c) := by decide +kernel
  have hlower : (codec.encode bytes).map Char.toLower = codec.encode bytes := by
    refine (List.map_congr_left fun c hc => ?_).trans (List.map_id _)
    exact of_decide_eq_true (List.all_eq_true.mp hall c (hwritten.mem_digits hc))
  rw [decode_eq_some_iff, hlower]
  exact hwritten

theorem decode_append (h : codec.decode cs = some bytes) (hmore : codec.decode more = some later) :
    codec.decode (cs ++ more) = some (bytes ++ later) := by
  rw [decode_eq_some_iff] at h hmore ⊢
  rw [List.map_append]
  exact h.append hmore

end Codec

end PullCursor.Hex
