import Mathlib.Data.Fin.VecNotation
import VoxtralServer.Lib.Padded
import VoxtralServer.Server.Response

/-!
# Request ids

What `generate_request_id` makes of four random words. It sets six of their bits,
and prints all of them into a buffer of 37 bytes.

* `request_id_exact`: the buffer holds a whole UUID of version 4, and two of them
  are equal exactly when the words agree on the bits that are not set.
-/

namespace VoxtralServer

/-- `generate_request_id` of four numbers: what it reads from its buffer. -/
def printedRequestId (a b c d : UInt32) : Str := (snprintf 37 (formatRequestId a b c d)).bytes

/-! ## UUIDs -/

/-- A lowercase hexadecimal digit. -/
def isHexDigit (c : UInt8) : Bool :=
  (decide (('0').toUInt8 ≤ c) && decide (c ≤ ('9').toUInt8)) ||
    (decide (('a').toUInt8 ≤ c) && decide (c ≤ ('f').toUInt8))

/-- A group of `n` digits. -/
def HexGroup (n : Nat) (s : Str) : Prop := s.length = n ∧ ∀ c ∈ s, isHexDigit c = true

/-- A UUID of version 4 in lowercase: `xxxxxxxx-xxxx-4xxx-Nxxx-xxxxxxxxxxxx`, where the
bits of `N` begin with 10. -/
def IsUuidV4 (s : Str) : Prop :=
  ∃ timeLow timeMid timeHigh variant clock node, s = timeLow ++ utf8 "-" ++ timeMid ++ utf8 "-4" ++
      timeHigh ++ utf8 "-" ++ [variant] ++ clock ++ utf8 "-" ++ node ∧
    HexGroup 8 timeLow ∧ HexGroup 4 timeMid ∧ HexGroup 3 timeHigh ∧ variant ∈ utf8 "89ab" ∧
    HexGroup 3 clock ∧ HexGroup 12 node

/-- The bits that `generate_request_id` sets, by word and position: the version in
the second word, and the variant in the third. -/
def fixedBits : Finset (Fin 4 × Fin 32) := {(1, 12), (1, 13), (1, 14), (1, 15), (2, 30), (2, 31)}

example : fixedBitsᶜ.card = 122 := by decide

/-- A bit of one of the words. -/
def wordBit (words : Fin 4 → UInt32) (bit : Fin 4 × Fin 32) : Bool :=
  (words bit.1).toNat.testBit bit.2

/-! ## The words -/

/-- `b` with the version. -/
def versioned (b : UInt32) : UInt32 := (b &&& 0xFFFF0FFF) ||| 0x00004000

/-- `c` with the variant. -/
def varied (c : UInt32) : UInt32 := (c &&& 0x3FFFFFFF) ||| 0x80000000

theorem low_toNat (w : UInt32) : (w &&& 0xFFFF).toNat = w.toNat % 2 ^ 16 := by
  have hmask : (0xFFFF : UInt32).toNat = 2 ^ 16 - 1 := rfl
  rw [UInt32.toNat_and, hmask, Nat.and_two_pow_sub_one_eq_mod]

theorem high_toNat (w : UInt32) : ((w >>> 16) &&& 0xFFFF).toNat = w.toNat / 2 ^ 16 := by
  have hw := w.toNat_lt
  have hshift : (w >>> 16).toNat = w.toNat / 2 ^ 16 := by
    rw [UInt32.toNat_shiftRight, Nat.shiftRight_eq_div_pow]
    rfl
  rw [low_toNat, hshift]
  omega

theorem versioned_nibble (b : UInt32) : (versioned b).toNat / 2 ^ 12 % 2 ^ 4 = 4 := by
  have hmask : (0xFFFF0FFF : UInt32).toNat >>> 12 = 0xFFFF0 := rfl
  have hset : (0x00004000 : UInt32).toNat >>> 12 = 4 := rfl
  rw [← Nat.shiftRight_eq_div_pow, versioned, UInt32.toNat_or, UInt32.toNat_and,
    Nat.shiftRight_or_distrib, Nat.shiftRight_and_distrib, hmask, hset, Nat.or_mod_two_pow,
    Nat.and_mod_two_pow]
  simp

theorem varied_bits (c : UInt32) : (varied c).toNat / 2 ^ 30 = 2 := by
  have hmask : (0x3FFFFFFF : UInt32).toNat >>> 30 = 0 := rfl
  have hset : (0x80000000 : UInt32).toNat >>> 30 = 2 := rfl
  rw [← Nat.shiftRight_eq_div_pow, varied, UInt32.toNat_or, UInt32.toNat_and,
    Nat.shiftRight_or_distrib, Nat.shiftRight_and_distrib, hmask, hset]
  simp

/-- Words that are masked and stamped alike are equal when they agree under the mask. -/
theorem stamped_eq_iff {mask stamp w w' : UInt32} (h : mask &&& stamp = 0) :
    (w &&& mask) ||| stamp = (w' &&& mask) ||| stamp ↔
      ∀ i : Fin 32, mask.toNat.testBit i = true → w.toNat.testBit i = w'.toNat.testBit i := by
  have hbit (w : UInt32) (i : Nat) : ((w &&& mask) ||| stamp).toNat.testBit i =
      ((w.toNat.testBit i && mask.toNat.testBit i) || stamp.toNat.testBit i) := by
    rw [UInt32.toNat_or, UInt32.toNat_and, Nat.testBit_or, Nat.testBit_and]
  have hdisjoint (i : Nat) : (mask.toNat.testBit i && stamp.toNat.testBit i) = false := by
    rw [← Nat.testBit_and, ← UInt32.toNat_and, h]
    exact Nat.zero_testBit i
  constructor
  · intro heq i hmask
    have hstamp : stamp.toNat.testBit i = false := by simpa [hmask] using hdisjoint i
    have hi := congrArg (fun w => w.toNat.testBit i) heq
    simpa only [hbit, hmask, hstamp, Bool.and_true, Bool.or_false] using hi
  · intro hagree
    refine UInt32.toNat_inj.mp (Nat.eq_of_testBit_eq fun i => ?_)
    rw [hbit, hbit]
    rcases Nat.lt_or_ge i 32 with hi | hi
    · cases hmask : mask.toNat.testBit i with
      | false => simp
      | true => rw [hagree ⟨i, hi⟩ hmask]
    · have hhigh (w : UInt32) : w.toNat.testBit i = false :=
        Nat.testBit_lt_two_pow (w.toNat_lt.trans_le (Nat.pow_le_pow_right (by decide) hi))
      rw [hhigh w, hhigh w']

/-! ## The text -/

theorem digitChar_isHexDigit : ∀ d < 16, isHexDigit (Nat.digitChar d).toUInt8 = true := by
  decide

/-- The value of a digit. -/
def hexValue (c : UInt8) : Nat := if c ≤ ('9').toUInt8 then c.toNat - 48 else c.toNat - 87

theorem hexValue_digitChar : ∀ d < 16, hexValue (Nat.digitChar d).toUInt8 = d := by
  decide

/-- A number that fits is printed as a group of digits. -/
theorem printHex_group {width n : Nat} (hw : 0 < width) (hn : n < 16 ^ width) :
    HexGroup width (printHex width n) := by
  constructor
  · exact (List.length_map _).trans (Padded.length_numeral (by decide) hw hn)
  · intro c hc
    obtain ⟨ch, hch, rfl⟩ := List.mem_map.mp hc
    obtain ⟨d, hd, rfl⟩ := Padded.mem_numeral (by decide) hw hch
    exact digitChar_isHexDigit d hd

/-- Two texts that end in numbers of one width. -/
theorem append_printHex_iff {width n m : Nat} {s t : Str} (hw : 0 < width) (hn : n < 16 ^ width)
    (hm : m < 16 ^ width) : s ++ printHex width n = t ++ printHex width m ↔ s = t ∧ n = m := by
  constructor
  · intro h
    have hlen : (printHex width n).length = (printHex width m).length :=
      (printHex_group hw hn).1.trans (printHex_group hw hm).1.symm
    obtain ⟨hs, hnumeral⟩ := List.append_inj' h hlen
    exact ⟨hs, (Padded.map_numeral_inj hexValue_digitChar (by decide) hw hn hm).mp hnumeral⟩
  · rintro ⟨rfl, rfl⟩
    rfl

/-- The first digit of a number, and the rest. -/
theorem printHex_lead {width d n : Nat} (hw : 0 < width) (hd : d < 16) (hn : n < 16 ^ width) :
    printHex (width + 1) (d * 16 ^ width + n) =
      [(Nat.digitChar d).toUInt8] ++ printHex width n :=
  congrArg (List.map Char.toUInt8) (Padded.numeral_lead (by decide) hw hd hn)

theorem formatRequestId_eq (a b c d : UInt32) : formatRequestId a b c d =
    printHex 8 a.toNat ++ utf8 "-" ++ printHex 4 ((versioned b).toNat / 2 ^ 16) ++ utf8 "-" ++
      printHex 4 ((versioned b).toNat % 2 ^ 16) ++ utf8 "-" ++
      printHex 4 ((varied c).toNat / 2 ^ 16) ++ utf8 "-" ++
      printHex 4 ((varied c).toNat % 2 ^ 16) ++ printHex 8 d.toNat := by
  rw [← high_toNat, ← low_toNat, ← high_toNat, ← low_toNat]
  rfl

/-- Half of a word fits into four digits. -/
theorem halves_lt (w : UInt32) : w.toNat / 2 ^ 16 < 16 ^ 4 ∧ w.toNat % 2 ^ 16 < 16 ^ 4 := by
  have hw := w.toNat_lt
  omega

theorem word_lt (w : UInt32) : w.toNat < 16 ^ 8 := w.toNat_lt

/-- Equal texts come from equal words, once the version and the variant are set. -/
theorem formatRequestId_inj {a b c d a' b' c' d' : UInt32} :
    formatRequestId a b c d = formatRequestId a' b' c' d' ↔
      a = a' ∧ versioned b = versioned b' ∧ varied c = varied c' ∧ d = d' := by
  have hhalves (w w' : UInt32) : w = w' ↔
      w.toNat / 2 ^ 16 = w'.toNat / 2 ^ 16 ∧ w.toNat % 2 ^ 16 = w'.toNat % 2 ^ 16 := by
    rw [← UInt32.toNat_inj]
    omega
  have hfirst : printHex 8 a.toNat = printHex 8 a'.toNat ↔ a = a' := by
    rw [← UInt32.toNat_inj]
    exact Padded.map_numeral_inj hexValue_digitChar (by decide) (by decide) (word_lt a) (word_lt a')
  rw [formatRequestId_eq, formatRequestId_eq,
    append_printHex_iff (by decide) (word_lt d) (word_lt d'),
    append_printHex_iff (by decide) (halves_lt _).2 (halves_lt _).2, List.append_cancel_right_eq,
    append_printHex_iff (by decide) (halves_lt _).1 (halves_lt _).1, List.append_cancel_right_eq,
    append_printHex_iff (by decide) (halves_lt _).2 (halves_lt _).2, List.append_cancel_right_eq,
    append_printHex_iff (by decide) (halves_lt _).1 (halves_lt _).1, List.append_cancel_right_eq,
    hfirst, hhalves (versioned b), hhalves (varied c), UInt32.toNat_inj]
  simp only [and_assoc]

theorem HexGroup.append {n m : Nat} {s t : Str} (hs : HexGroup n s) (ht : HexGroup m t) :
    HexGroup (n + m) (s ++ t) := by
  constructor
  · rw [List.length_append, hs.1, ht.1]
  · intro c hc
    exact (List.mem_append.mp hc).elim (hs.2 c) (ht.2 c)

theorem variantDigit : ∀ k < 16, k / 4 = 2 → (Nat.digitChar k).toUInt8 ∈ utf8 "89ab" := by
  decide

/-- The text is a UUID of version 4. -/
theorem formatRequestId_uuid (a b c d : UInt32) : IsUuidV4 (formatRequestId a b c d) := by
  have hversion : (versioned b).toNat % 2 ^ 16 = 4 * 16 ^ 3 + (versioned b).toNat % 16 ^ 3 := by
    have := versioned_nibble b
    omega
  have hvariant : (varied c).toNat / 2 ^ 16 =
      (varied c).toNat / 2 ^ 28 * 16 ^ 3 + (varied c).toNat % 2 ^ 28 / 2 ^ 16 := by omega
  have hword := (varied c).toNat_lt
  have hbits := varied_bits c
  have hclock : (varied c).toNat % 2 ^ 28 / 2 ^ 16 < 16 ^ 3 := by omega
  refine ⟨printHex 8 a.toNat, printHex 4 ((versioned b).toNat / 2 ^ 16),
    printHex 3 ((versioned b).toNat % 16 ^ 3), (Nat.digitChar ((varied c).toNat / 2 ^ 28)).toUInt8,
    printHex 3 ((varied c).toNat % 2 ^ 28 / 2 ^ 16),
    printHex 4 ((varied c).toNat % 2 ^ 16) ++ printHex 8 d.toNat, ?_,
    printHex_group (by decide) (word_lt a), printHex_group (by decide) (halves_lt _).1,
    printHex_group (by decide) (Nat.mod_lt _ (by decide)),
    variantDigit _ (by omega) (by omega), printHex_group (by decide) hclock,
    (printHex_group (by decide) (halves_lt _).2).append (printHex_group (by decide) (word_lt d))⟩
  have hfour : utf8 "-4" = utf8 "-" ++ [(Nat.digitChar 4).toUInt8] := rfl
  rw [formatRequestId_eq, hversion, hvariant,
    printHex_lead (by decide) (by decide) (Nat.mod_lt _ (by decide)),
    printHex_lead (by decide) (by omega) hclock, hfour]
  simp only [List.append_assoc]

theorem IsUuidV4.length_eq {s : Str} (h : IsUuidV4 s) : s.length = 36 := by
  obtain ⟨g₁, g₂, g₃, v, g₄, g₅, rfl, h₁, h₂, h₃, _, h₄, h₅⟩ := h
  have hdash : (utf8 "-").length = 1 := rfl
  have hfour : (utf8 "-4").length = 2 := rfl
  simp only [List.length_append, List.length_singleton, h₁.1, h₂.1, h₃.1, h₄.1, h₅.1, hdash, hfour]

/-- The buffer holds the whole text. -/
theorem printedRequestId_eq (a b c d : UInt32) :
    printedRequestId a b c d = formatRequestId a b c d := by
  refine snprintf_bytes ?_ fun hnul => ?_
  · rw [(formatRequestId_uuid a b c d).length_eq]
    decide
  · exact absurd ((formatRequestId_visible a b c d).2 0 hnul) (by decide)

/-- The bits of each word that are kept. -/
def keptBits : Fin 4 → UInt32 := ![0xFFFFFFFF, 0xFFFF0FFF, 0x3FFFFFFF, 0xFFFFFFFF]

theorem not_mem_fixedBits : ∀ (k : Fin 4) (i : Fin 32),
    (k, i) ∉ fixedBits ↔ (keptBits k).toNat.testBit i = true := by
  decide

/-- Words that agree on the bits that are not set. -/
theorem agree_iff (a b c d a' b' c' d' : UInt32) :
    (∀ bit ∉ fixedBits, wordBit ![a, b, c, d] bit = wordBit ![a', b', c', d'] bit) ↔
      a = a' ∧ versioned b = versioned b' ∧ varied c = varied c' ∧ d = d' := by
  have hword (w w' : UInt32) : w = w' ↔
      ∀ i : Fin 32, (0xFFFFFFFF : UInt32).toNat.testBit i = true →
        w.toNat.testBit i = w'.toNat.testBit i := by
    have hones (w : UInt32) : w &&& 0xFFFFFFFF = w := UInt32.and_neg_one
    have hkeep := @stamped_eq_iff 0xFFFFFFFF 0 w w' rfl
    rwa [UInt32.or_zero, UInt32.or_zero, hones, hones] at hkeep
  rw [hword a, hword d, versioned, versioned, varied, varied, stamped_eq_iff rfl,
    stamped_eq_iff rfl]
  constructor
  · intro h
    have hkept (k : Fin 4) (i : Fin 32) (hi : (keptBits k).toNat.testBit i = true) :=
      h (k, i) ((not_mem_fixedBits k i).mpr hi)
    exact ⟨hkept 0, hkept 1, hkept 2, hkept 3⟩
  · rintro ⟨ha, hb, hc, hd⟩ ⟨k, i⟩ hfree
    have hi := (not_mem_fixedBits k i).mp hfree
    match k with
    | 0 => exact ha i hi
    | 1 => exact hb i hi
    | 2 => exact hc i hi
    | 3 => exact hd i hi

/-- **Request ids.** The buffer is never cut, it holds a UUID of version 4, and two
of them are equal exactly when the four words agree on all bits but the six that
are set. -/
theorem request_id_exact (a b c d : UInt32) :
    (formatRequestId a b c d).length = 36 ∧
    printedRequestId a b c d = formatRequestId a b c d ∧
    IsUuidV4 (printedRequestId a b c d) ∧
    ∀ a' b' c' d' : UInt32, printedRequestId a b c d = printedRequestId a' b' c' d' ↔
      ∀ bit ∉ fixedBits, wordBit ![a, b, c, d] bit = wordBit ![a', b', c', d'] bit := by
  have huuid := formatRequestId_uuid a b c d
  refine ⟨huuid.length_eq, printedRequestId_eq a b c d, ?_, fun a' b' c' d' => ?_⟩
  · rwa [printedRequestId_eq]
  · rw [printedRequestId_eq, printedRequestId_eq, formatRequestId_inj, agree_iff]

end VoxtralServer
