import VoxtralServer.Server.Validation

/-!
# The length of the input in characters

`validate_input` compares the limit on characters with the size of the string,
which counts its bytes, and casts the size to `int`.

* `characters_limited_iff`: the limit holds in characters exactly when it does
  not lie between the two lengths.
* `accented_rejected`: a text of one character that is over a limit of one.
-/

namespace VoxtralServer

/-- The limit is at least one of the two lengths of a text, but not the other. -/
def BetweenLengths (characters bytes : Nat) (maxChars : Int) : Prop :=
  characters ≤ maxChars ∧ maxChars < intOfSize bytes ∨
  intOfSize bytes ≤ maxChars ∧ maxChars < characters

/-- A character takes one byte or more. -/
theorem length_le_bytes (text : List Char) :
    text.length ≤ (text.flatMap String.utf8EncodeChar).length := by
  induction text with
  | nil => exact Nat.le_refl _
  | cons c text ih =>
    have hc : 0 < (String.utf8EncodeChar c).length :=
      List.length_pos_iff.mpr String.utf8EncodeChar_ne_nil
    rw [List.flatMap_cons, List.length_append, List.length_cons]
    omega

/-- Without a wrap-around, the number of bytes is the larger length. -/
theorem betweenLengths_of_fits {characters bytes : Nat} {maxChars : Int}
    (hle : characters ≤ bytes) (hfits : bytes < 2 ^ 31) :
    BetweenLengths characters bytes maxChars ↔ characters ≤ maxChars ∧ maxChars < bytes := by
  rw [BetweenLengths, intOfSize_eq_self hfits]
  omega

/-- **Characters.** A text that is not blank is accepted exactly when its number
of characters is within the limit, unless the limit lies between its lengths. For
less than `2³¹` bytes that is a limit below the bytes and not the characters. -/
theorem characters_limited_iff (text : List Char) {input : Str}
    (hinput : input = text.flatMap String.utf8EncodeChar) (hne : input ≠ [])
    (hblank : input.all isSpace = false) {maxChars : Int} (hmax : 1 ≤ maxChars) :
    (((validateInput input maxChars).valid = true ↔ text.length ≤ maxChars) ↔
      ¬ BetweenLengths text.length input.length maxChars) ∧
    (input.length < 2 ^ 31 → (BetweenLengths text.length input.length maxChars ↔
      text.length ≤ maxChars ∧ maxChars < input.length)) := by
  constructor
  · rw [validateInput_valid (by omega), BetweenLengths]
    simp only [hne, hblank, ne_eq, not_false_eq_true, true_and]
    omega
  · exact betweenLengths_of_fits (hinput ▸ length_le_bytes text)

/-- A text of three characters in five bytes, with a limit above both and with one below
both. -/
theorem characters_limited_iff_accented :
    ((validateInput (utf8 "été") 5).valid = true ↔ (("été".toList.length : Nat) : Int) ≤ 5) ∧
    ((validateInput (utf8 "été") 2).valid = true ↔ (("été".toList.length : Nat) : Int) ≤ 2) ∧
    (utf8 "été").length = 5 ∧ "été".toList.length = 3 := by
  have hlengths : (utf8 "été").length = 5 ∧ "été".toList.length = 3 := by decide
  have habove : ¬ BetweenLengths "été".toList.length (utf8 "été").length 5 := by
    rw [hlengths.1, hlengths.2, betweenLengths_of_fits (by decide) (by decide)]
    decide
  have hbelow : ¬ BetweenLengths "été".toList.length (utf8 "été").length 2 := by
    rw [hlengths.1, hlengths.2, betweenLengths_of_fits (by decide) (by decide)]
    decide
  exact ⟨(characters_limited_iff "été".toList rfl (by decide) (by decide) (by decide)).1.mpr habove,
    (characters_limited_iff "été".toList rfl (by decide) (by decide) (by decide)).1.mpr hbelow,
    hlengths⟩

/-- The text `é` is one character in two bytes, and is rejected with a limit of
one. -/
theorem accented_rejected : ∃ (text : List Char) (input : Str) (maxChars : Int),
    input = text.flatMap String.utf8EncodeChar ∧ input ≠ [] ∧ input.all isSpace = false ∧
    1 ≤ maxChars ∧
    ¬ ((validateInput input maxChars).valid = true ↔ (text.length : Int) ≤ maxChars) := by
  refine ⟨['é'], utf8 "é", 1, by decide, by decide, by decide, by decide, ?_⟩
  decide

end VoxtralServer
