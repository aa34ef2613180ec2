/-! Bytes written as pairs of hexadecimal digits. Writing uses lower case; reading takes either case
and nothing but digits. -/
namespace PullCursor.Hex

def digits : List Char := "0123456789abcdef".toList

def IsDigit (c : Char) : Prop := c.toLower ∈ digits

instance : DecidablePred IsDigit := fun c => inferInstanceAs (Decidable (c.toLower ∈ digits))

/-- Each byte has two places in the text, the first one for its higher half. -/
def Spells (cs : List Char) (bytes : List UInt8) : Prop :=
  ∀ i, cs[2 * i]? = bytes[i]?.bind (digits[·.toNat / 16]?) ∧
    cs[2 * i + 1]? = bytes[i]?.bind (digits[·.toNat % 16]?)

/-- What is relied on where bytes are written down and read again. -/
structure Codec where
  encode : List UInt8 → List Char
  decode : List Char → Option (List UInt8)
  spells_encode : ∀ bytes, Spells (encode bytes) bytes
  decode_accepts : ∀ cs, (decode cs).isSome ↔ cs.length % 2 = 0 ∧ ∀ c ∈ cs, IsDigit c
  spells_decode : ∀ cs bytes, decode cs = some bytes → Spells (cs.map Char.toLower) bytes

section Spells

variable {b : UInt8} {high low : Char} {cs : List Char} {bytes : List UInt8}

theorem halves_lt (b : UInt8) : b.toNat / 16 < 16 ∧ b.toNat % 16 < 16 := by
  have := b.toNat_lt
  omega

theorem spells_nil : Spells [] [] := fun _ => ⟨rfl, rfl⟩

theorem spells_cons (hhigh : digits[b.toNat / 16]? = some high)
    (hlow : digits[b.toNat % 16]? = some low) (h : Spells cs bytes) :
    Spells (high :: low :: cs) (b :: bytes) := by
  intro i
  cases i with
  | zero => exact ⟨hhigh.symm, hlow.symm⟩
  | succ i => exact h i

end Spells

def digit (n : Nat) : Char := digits.getD n '0'

def value? (c : Char) : Option Nat := digits.idxOf? c.toLower

def encode (bytes : List UInt8) : List Char :=
  bytes.flatMap fun b => [digit (b.toNat / 16), digit (b.toNat % 16)]

def decode : List Char → Option (List UInt8)
  | [] => some []
  | [_] => none
  | high :: low :: rest => do
      let h ← value? high
      let l ← value? low
      let bytes ← decode rest
      return UInt8.ofNat (16 * h + l) :: bytes

section Standard

variable {c : Char} {v : Nat} {cs : List Char} {bytes : List UInt8}

theorem digits_getElem? (h : v < 16) : digits[v]? = some (digit v) := by
  have hall : ∀ v < 16, digits[v]? = some (digit v) := by decide +kernel
  exact hall v h

theorem digits_of_value? (h : value? c = some v) : v < 16 ∧ digits[v]? = some c.toLower := by
  obtain ⟨hlength, hv, -⟩ := List.idxOf?_eq_some_iff.mp h
  rw [List.getElem?_eq_getElem hlength, hv]
  exact ⟨hlength, rfl⟩

theorem isSome_value?_iff : (value? c).isSome ↔ IsDigit c := by
  rw [← Option.ne_none_iff_isSome, value?, ne_eq, List.idxOf?_eq_none_iff, Decidable.not_not,
    IsDigit]

theorem halves_ofNat {h l : Nat} (hh : h < 16) (hl : l < 16) :
    (UInt8.ofNat (16 * h + l)).toNat / 16 = h ∧ (UInt8.ofNat (16 * h + l)).toNat % 16 = l := by
  rw [UInt8.toNat_ofNat']
  omega

theorem encode_spells (bytes : List UInt8) : Spells (encode bytes) bytes := by
  induction bytes with
  | nil => exact spells_nil
  | cons b rest ih =>
    obtain ⟨hhigh, hlow⟩ := halves_lt b
    exact spells_cons (digits_getElem? hhigh) (digits_getElem? hlow) ih

theorem isSome_decode_iff (cs : List Char) :
    (decode cs).isSome ↔ cs.length % 2 = 0 ∧ ∀ c ∈ cs, IsDigit c := by
  induction cs using decode.induct with
  | case1 => simp [decode]
  | case2 c => simp [decode]
  | case3 high low rest ih =>
    have hparts : (decode (high :: low :: rest)).isSome ↔
        (value? high).isSome ∧ (value? low).isSome ∧ (decode rest).isSome := by
      rw [decode]
      cases value? high <;> cases value? low <;> cases decode rest <;> simp
    rw [hparts, isSome_value?_iff, isSome_value?_iff, ih]
    simp only [List.length_cons, List.forall_mem_cons, Nat.add_assoc, Nat.add_mod_right]
    constructor
    · intro ⟨hhigh, hlow, heven, hrest⟩
      exact ⟨heven, hhigh, hlow, hrest⟩
    · intro ⟨heven, hhigh, hlow, hrest⟩
      exact ⟨hhigh, hlow, heven, hrest⟩

theorem decode_spells (h : decode cs = some bytes) : Spells (cs.map Char.toLower) bytes := by
  induction cs using decode.induct generalizing bytes with
  | case1 =>
    cases h
    exact spells_nil
  | case2 c => cases h
  | case3 high low rest ih =>
    simp only [decode, Option.bind_eq_bind, Option.bind_eq_some_iff, Option.pure_def,
      Option.some.injEq] at h
    obtain ⟨vh, hvh, vl, hvl, later, hlater, rfl⟩ := h
    obtain ⟨hhlt, hhigh⟩ := digits_of_value? hvh
    obtain ⟨hllt, hlow⟩ := digits_of_value? hvl
    obtain ⟨hdiv, hmod⟩ := halves_ofNat hhlt hllt
    apply spells_cons
    · rw [hdiv, hhigh]
    · rw [hmod, hlow]
    · exact ih hlater

end Standard

def standard : Codec where
  encode := encode
  decode := decode
  spells_encode := encode_spells
  decode_accepts := isSome_decode_iff
  spells_decode _ _ := decode_spells

end PullCursor.Hex
