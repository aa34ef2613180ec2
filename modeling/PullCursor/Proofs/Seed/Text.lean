import PullCursor.Proofs.Seed.Hex
import PullCursor.Seed.Generator

/-! Seeds on paper. What is said of a seed before it is used is enough to use it again, and nothing
but digits in pairs is taken for a seed. -/
namespace PullCursor

namespace Seed

/-- What is read as a seed: pairs of digits, and at least one of them. -/
structure Legible (s : String) : Prop where
  nonempty : s ≠ ""
  even : Even s.length
  digits : ∀ c ∈ s.toList, Hex.IsDigit c

theorem getElem_ofBytes (bytes : List UInt8) {i : Nat} (h : i < 32) :
    (ofBytes bytes)[i] = bytes[i]?.getD 0 := by
  simp [ofBytes]

theorem toList_ofBytes (bytes : List UInt8) :
    (ofBytes bytes).toList = (bytes ++ List.replicate 32 0).take 32 := by
  apply List.ext_getElem
  · simp
  · intro i hi hi'
    have hlt : i < 32 := by simpa using hi
    rw [List.getElem_take, Vector.getElem_toList, getElem_ofBytes bytes hlt]
    by_cases h : i < bytes.length
    · rw [List.getElem_append_left h, List.getElem?_eq_getElem h, Option.getD_some]
    · rw [List.getElem_append_right (Nat.le_of_not_lt h), List.getElem_replicate,
        List.getElem?_eq_none (Nat.le_of_not_lt h), Option.getD_none]

theorem ofBytes_toList (seed : Seed) : ofBytes seed.toList = seed := by
  apply Vector.ext
  intro i hi
  rw [getElem_ofBytes _ hi]
  simp [hi]

theorem ofBytes_append {bytes : List UInt8} (h : 32 ≤ bytes.length) (more : List UInt8) :
    ofBytes (bytes ++ more) = ofBytes bytes := by
  apply Vector.ext
  intro i hi
  rw [getElem_ofBytes _ hi, getElem_ofBytes _ hi, List.getElem?_append_left (by omega)]

theorem ofBytes_append_zero (bytes : List UInt8) : ofBytes (bytes ++ [0]) = ofBytes bytes := by
  apply Vector.ext
  intro i hi
  rw [getElem_ofBytes _ hi, getElem_ofBytes _ hi]
  by_cases h : i < bytes.length
  · rw [List.getElem?_append_left h]
  · rw [List.getElem?_append_right (Nat.le_of_not_lt h),
      List.getElem?_eq_none (l := bytes) (Nat.le_of_not_lt h)]
    cases i - bytes.length <;> rfl

end Seed

namespace Hex.Codec

variable {codec : Codec} {s : String} {seed : Seed}

theorem parse?_eq_some_iff :
    codec.parse? s = some seed ↔
      s ≠ "" ∧ ∃ bytes, codec.decode s.toList = some bytes ∧ Seed.ofBytes bytes = seed := by
  rw [parse?, ne_eq, ← String.isEmpty_iff]
  split
  · next h => exact iff_of_false nofun fun hs => hs.1 h
  · next h => rw [Option.map_eq_some_iff, and_iff_right h]

theorem exists_parse?_iff : (∃ seed, codec.parse? s = some seed) ↔ Seed.Legible s := by
  constructor
  · rintro ⟨seed, h⟩
    obtain ⟨hne, bytes, hbytes, -⟩ := parse?_eq_some_iff.mp h
    obtain ⟨heven, hdigits⟩ := (codec.exists_decode_iff s.toList).mp ⟨bytes, hbytes⟩
    rw [String.length_toList] at heven
    exact ⟨hne, heven, hdigits⟩
  · rintro ⟨hne, heven, hdigits⟩
    rw [← String.length_toList] at heven
    obtain ⟨bytes, hbytes⟩ := (codec.exists_decode_iff s.toList).mpr ⟨heven, hdigits⟩
    exact ⟨.ofBytes bytes, parse?_eq_some_iff.mpr ⟨hne, bytes, hbytes, rfl⟩⟩

theorem print_ne_empty (codec : Codec) (seed : Seed) : codec.print seed ≠ "" := by
  intro h
  have hlength : (codec.encode seed.toList).length = 0 := by
    rw [← String.toList_ofList (l := codec.encode seed.toList)]
    exact congrArg (fun s : String => s.toList.length) h
  rw [codec.length_encode, Vector.length_toList] at hlength
  cases hlength

theorem parse?_print (codec : Codec) (seed : Seed) :
    codec.parse? (codec.print seed) = some seed := by
  apply parse?_eq_some_iff.mpr
  refine ⟨print_ne_empty codec seed, seed.toList, ?_, Seed.ofBytes_toList seed⟩
  rw [print, String.toList_ofList, codec.decode_encode]

theorem parse?_append {more : String} {later : List UInt8} (h : codec.parse? s = some seed)
    (hmore : codec.decode more.toList = some later)
    (hlater : ∀ bytes, codec.decode s.toList = some bytes →
      Seed.ofBytes (bytes ++ later) = Seed.ofBytes bytes) :
    codec.parse? (s ++ more) = some seed := by
  obtain ⟨hne, bytes, hbytes, rfl⟩ := parse?_eq_some_iff.mp h
  refine parse?_eq_some_iff.mpr
    ⟨fun h => hne (String.append_eq_empty_iff.mp h).1, bytes ++ later, ?_, hlater bytes hbytes⟩
  rw [String.toList_append]
  exact codec.decode_append hbytes hmore

theorem announce_eq (codec : Codec) (seed : Seed) :
    codec.announce seed = "  Using RNG seed ITERATION_TEST_PRNG=" ++ codec.print seed ++ "\n" := by
  have hbefore : "  Using RNG seed " ++ Seed.variableName ++ "=" =
      "  Using RNG seed ITERATION_TEST_PRNG=" := by decide +kernel
  exact congrArg (· ++ codec.print seed ++ "\n") hbefore

theorem announced_announce (codec : Codec) (seed : Seed) :
    Seed.announced (codec.announce seed) =
      ("  Using RNG seed ITERATION_TEST_PRNG", codec.print seed) := by
  have hchars : (codec.announce seed).toList = "  Using RNG seed ITERATION_TEST_PRNG".toList ++
      '=' :: (codec.encode seed.toList ++ ['\n']) := by
    rw [announce_eq, String.toList_append, String.toList_append, print, String.toList_ofList]
    simp
  have hbefore : "  Using RNG seed ITERATION_TEST_PRNG".toList.all (· ≠ '=') := by decide +kernel
  have hdigits : ∀ c ∈ codec.encode seed.toList, decide (c ≠ '\n') := by
    intro c hc
    have hall : digits.all (· ≠ '\n') := by decide +kernel
    exact List.all_eq_true.mp hall c ((codec.spells_encode _).mem_digits hc)
  simp only [Seed.announced, hchars]
  rw [List.takeWhile_append_of_pos (List.all_eq_true.mp hbefore),
    List.dropWhile_append_of_pos (List.all_eq_true.mp hbefore),
    List.takeWhile_cons_of_neg (by decide), List.dropWhile_cons_of_neg (by decide), List.drop_one,
    List.tail_cons, List.takeWhile_append_of_pos hdigits, List.takeWhile_cons_of_neg (by decide),
    List.append_nil, List.append_nil, String.ofList_toList, print]

theorem choose_eq_seeded_iff :
    codec.choose s = .ok (.seeded seed) ↔ codec.parse? s = some seed := by
  -- The keywords have letters that are no digits, so no seed is lost to them.
  have hillegible (c : Char) (hc : ¬ IsDigit c) (word : String) (hmem : c ∈ word.toList) :
      codec.parse? word ≠ some seed :=
    fun h => hc ((exists_parse?_iff.mp ⟨seed, h⟩).digits c hmem)
  unfold choose
  split
  · next h =>
    rw [h]
    exact iff_of_false nofun (hillegible 'r' (by decide) "random" (by decide))
  split
  · next h =>
    rw [h]
    exact iff_of_false nofun (hillegible 't' (by decide) "deterministic" (by decide))
  cases codec.parse? s <;> simp

theorem exists_seeded_iff :
    (∃ seed, codec.choose s = .ok (.seeded seed)) ↔ Seed.Legible s := by
  rw [← exists_parse?_iff]
  exact exists_congr fun _ => choose_eq_seeded_iff

theorem choose_eq_error_iff {e : SeedError} :
    codec.choose s = .error e ↔
      s ≠ "random" ∧ s ≠ "deterministic" ∧ ¬ Seed.Legible s ∧ e = .unrecognized s := by
  rw [← exists_parse?_iff]
  unfold choose
  split
  · next h => exact iff_of_false nofun fun hs => hs.1 h
  next hrandom =>
  split
  · next h => exact iff_of_false nofun fun hs => hs.2.1 h
  next hdeterministic =>
  cases h : codec.parse? s with
  | some seed => exact iff_of_false nofun fun hs => hs.2.2.1 ⟨seed, rfl⟩
  | none =>
    constructor
    · rintro ⟨⟩
      exact ⟨hrandom, hdeterministic, nofun, rfl⟩
    · rintro ⟨-, -, -, rfl⟩
      rfl

theorem choose_print (codec : Codec) (seed : Seed) :
    codec.choose (codec.print seed) = .ok (.seeded seed) :=
  choose_eq_seeded_iff.mpr (codec.parse?_print seed)

theorem chooseFrom_toUTF8 (h : s ≠ "") :
    codec.chooseFrom (some s.toUTF8) = (codec.choose s).map some := by
  have htext : String.fromUTF8? s.toUTF8 = some s := dif_pos s.isValidUTF8
  simp only [chooseFrom, htext, String.isEmpty_iff, if_neg h]

theorem startFrom_print {γ : Type} (codec : Codec) (rng : Rng γ) (fresh seed : Seed) :
    rng.startFrom codec fresh (some (codec.print seed).toUTF8) =
      .ok (rng.start codec fresh (.seeded seed)) := by
  rw [Rng.startFrom, chooseFrom_toUTF8 (print_ne_empty codec seed), choose_print]
  rfl

theorem choose_append_digits {more : String} (h : codec.choose s = .ok (.seeded seed))
    (hlong : 64 ≤ s.length) (heven : Even more.length)
    (hdigits : ∀ c ∈ more.toList, IsDigit c) : codec.choose (s ++ more) = .ok (.seeded seed) := by
  rw [← String.length_toList] at heven hlong
  obtain ⟨later, hlater⟩ := (codec.exists_decode_iff more.toList).mpr ⟨heven, hdigits⟩
  apply choose_eq_seeded_iff.mpr
  apply parse?_append (choose_eq_seeded_iff.mp h) hlater
  intro bytes hbytes
  have hlength := codec.length_of_decode hbytes
  exact Seed.ofBytes_append (by omega) later

theorem choose_append_zeros (h : codec.choose s = .ok (.seeded seed)) :
    codec.choose (s ++ "00") = .ok (.seeded seed) := by
  have hspells : Spells ("00".toList.map Char.toLower) [0] :=
    spells_cons (by decide +kernel) (by decide +kernel) spells_nil
  have hzeros : codec.decode "00".toList = some [0] := codec.decode_eq_some_iff.mpr hspells
  apply choose_eq_seeded_iff.mpr
  apply parse?_append (choose_eq_seeded_iff.mp h) hzeros
  exact fun bytes _ => Seed.ofBytes_append_zero bytes

end Hex.Codec

namespace SeedChoice

/-- Whatever codec writes and reads the digits and whatever generator is started: what is said of a
seed gives that seed back and, put into the environment, starts the same generator. A text is read
as a seed exactly if it is made of pairs of digits in either case, all of which are looked at; the
bytes that they stand for are cut off after the thirty-second, or filled up with zeros. So more
pairs behind a whole seed make no difference, nor do zeros, and a seed that has been read is printed
in a form that reads as itself. But for the keywords, every other text is refused, and the refusal
names it as it is. -/
theorem printed_seed_reproduces {γ : Type} (codec : Hex.Codec) (rng : Rng γ) :
    (∀ (choice : SeedChoice) (fresh other : Seed),
      let seed := choice.seed fresh
      let run := rng.start codec fresh choice
      run.1 = "  Using RNG seed ITERATION_TEST_PRNG=" ++ codec.print seed ++ "\n" ∧
      Seed.announced run.1 = ("  Using RNG seed ITERATION_TEST_PRNG", codec.print seed) ∧
      codec.choose (codec.print seed) = .ok (.seeded seed) ∧
      rng.startFrom codec other (some (codec.print seed).toUTF8) = .ok run ∧
      rng.reproduces codec run.1 run.2) ∧
    (∀ cs bytes, codec.decode cs = some bytes ↔ cs.map Char.toLower = codec.encode bytes) ∧
    (∀ s seed, codec.choose s = .ok (.seeded seed) ↔
      s ≠ "" ∧ ∃ bytes, codec.decode s.toList = some bytes ∧
        seed.toList = (bytes ++ List.replicate 32 0).take 32) ∧
    (∀ s, (∃ seed, codec.choose s = .ok (.seeded seed)) ↔
      s ≠ "" ∧ Even s.length ∧ ∀ c ∈ s.toList, Hex.IsDigit c) ∧
    (∀ s seed, codec.choose s = .ok (.seeded seed) →
      (∀ more, 64 ≤ s.length → Even more.length → (∀ c ∈ more.toList, Hex.IsDigit c) →
        codec.choose (s ++ more) = .ok (.seeded seed)) ∧
      codec.choose (s ++ "00") = .ok (.seeded seed) ∧
      codec.choose (codec.print seed) = .ok (.seeded seed)) ∧
    codec.choose "random" = .ok .random ∧ codec.choose "deterministic" = .ok .deterministic ∧
    ∀ s e, codec.choose s = .error e ↔
      s ≠ "random" ∧ s ≠ "deterministic" ∧ ¬ Seed.Legible s ∧ e = .unrecognized s := by
  refine ⟨fun choice fresh other => ?_, fun _ _ => codec.decode_eq_some_iff_lower,
    fun s seed => ?_, fun s => ?_, fun s seed h => ?_, rfl, rfl,
    fun _ _ => Hex.Codec.choose_eq_error_iff⟩
  · intro seed run
    have hannounced := codec.announced_announce seed
    refine ⟨codec.announce_eq seed, hannounced, codec.choose_print seed,
      codec.startFrom_print rng other seed, ?_⟩
    show rng.reproduces codec (codec.announce seed) (rng.ofSeed seed)
    rw [Rng.reproduces, hannounced, codec.parse?_print]
    exact beq_self_eq_true _
  · rw [Hex.Codec.choose_eq_seeded_iff, Hex.Codec.parse?_eq_some_iff]
    simp only [← Seed.toList_ofBytes, Vector.toList_inj, eq_comm (a := seed)]
  · rw [Hex.Codec.exists_seeded_iff]
    exact ⟨fun h => ⟨h.nonempty, h.even, h.digits⟩, fun ⟨hne, heven, hdigits⟩ =>
      ⟨hne, heven, hdigits⟩⟩
  · exact ⟨fun _ => Hex.Codec.choose_append_digits h, Hex.Codec.choose_append_zeros h,
      codec.choose_print seed⟩

theorem printed_seed_reproduces_resized :
    let short := Seed.ofBytes [0xab, 0xcd, 0xef]
    let whole := Seed.fixed
    ofText "ABcdEF" = .ok (.seeded short) ∧ ofText "ABcdEF00" = .ok (.seeded short) ∧
    ofText whole.toText = .ok (.seeded whole) ∧
    (∀ c ∈ "0Af1".toList, Hex.IsDigit c) ∧
    ofText (whole.toText ++ "0Af1") = .ok (.seeded whole) ∧
    (generator short .deterministic).2.reproduces (generator short .deterministic).1 := by
  intro short whole
  obtain ⟨hrun, -, -, -, happend, -⟩ := printed_seed_reproduces Hex.standard Generator.chacha
  have hshort : ofText "ABcdEF" = .ok (.seeded short) := by decide +kernel
  obtain ⟨-, -, hwhole, -, hreproduced⟩ := hrun .deterministic short short
  have hall : "0Af1".toList.all (Hex.IsDigit ·) := by decide +kernel
  have hdigits : ∀ c ∈ "0Af1".toList, Hex.IsDigit c := fun c hc =>
    of_decide_eq_true (List.all_eq_true.mp hall c hc)
  obtain ⟨hcut, -⟩ := happend _ _ hwhole
  obtain ⟨-, hpadded, -⟩ := happend _ _ hshort
  refine ⟨hshort, hpadded, hwhole, hdigits, ?_, hreproduced⟩
  exact hcut "0Af1" (by decide +kernel) (by decide) hdigits

end SeedChoice

end PullCursor
