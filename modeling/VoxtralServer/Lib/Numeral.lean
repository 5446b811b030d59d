import Mathlib.Data.List.TakeWhile
import Mathlib.Data.Nat.Digits.Defs

/-!
# Signed numerals

Reading a number off the front of a list: blanks, then at most one sign, then as
many digits as there are. The characters are those of an alphabet of numerals.

* `read_whole`: a list is read to its end exactly when the grammar of numerals
  derives it, and then the value read is the one it denotes.
-/

/-- The characters of a numeral, none of which plays two roles. -/
structure Numeral (α : Type) where
  blank : α → Bool
  plus : α
  minus : α
  digit : α → Option Nat
  plus_ne_minus : plus ≠ minus
  plus_blank : blank plus = false
  minus_blank : blank minus = false
  plus_digit : digit plus = none
  minus_digit : digit minus = none
  digit_blank : ∀ c, (digit c).isSome = true → blank c = false

namespace Numeral

variable {α : Type} [DecidableEq α] (a : Numeral α)

def isDigit (c : α) : Bool := (a.digit c).isSome

/-- The value of a list of digits, the most significant first. -/
def value (base : Nat) (digits : List α) : Nat :=
  Nat.ofDigits base (digits.reverse.filterMap a.digit)

/-- Takes the sign off the front: whether it is a minus, and the rest. -/
def readSign : List α → Bool × List α
  | [] => (false, [])
  | c :: s => if c = a.minus then (true, s) else if c = a.plus then (false, s) else (false, c :: s)

def signed (negative : Bool) (n : Nat) : Int := if negative then -n else n

/-- The number at the front and what follows it; `none` when there is no digit. -/
def read (base : Nat) (s : List α) : Option (Int × List α) :=
  let (negative, s) := a.readSign (s.dropWhile a.blank)
  let digits := s.takeWhile a.isDigit
  if digits.isEmpty then none
  else some (signed negative (a.value base digits), s.dropWhile a.isDigit)

/-! ## The grammar -/

/-- The signs: none, a plus, or a minus. -/
inductive IsSign : List α → Bool → Prop
  | none : IsSign [] false
  | plus : IsSign [a.plus] false
  | minus : IsSign [a.minus] true

/-- The list is a numeral with blanks before it, and denotes `n`. -/
def Denotes (base : Nat) (s : List α) (n : Int) : Prop :=
  ∃ blanks sign digits negative, s = blanks ++ sign ++ digits ∧ blanks.all a.blank = true ∧
    a.IsSign sign negative ∧ digits ≠ [] ∧ digits.all a.isDigit = true ∧
    n = signed negative (a.value base digits)

variable {a}

theorem readSign_spec (s : List α) :
    ∃ sign, s = sign ++ (a.readSign s).2 ∧ a.IsSign sign (a.readSign s).1 := by
  cases s with
  | nil => exact ⟨[], rfl, .none⟩
  | cons c s =>
    by_cases hminus : c = a.minus
    · rw [readSign, if_pos hminus]
      exact ⟨[a.minus], by rw [hminus]; rfl, .minus⟩
    by_cases hplus : c = a.plus
    · rw [readSign, if_neg hminus, if_pos hplus]
      exact ⟨[a.plus], by rw [hplus]; rfl, .plus⟩
    · rw [readSign, if_neg hminus, if_neg hplus]
      exact ⟨[], rfl, .none⟩

/-- A sign in front of a digit is taken off. -/
theorem readSign_append {sign : List α} {negative : Bool} (h : a.IsSign sign negative) {d : α}
    {digits : List α} (hd : a.isDigit d = true) :
    a.readSign (sign ++ d :: digits) = (negative, d :: digits) := by
  have hminus : d ≠ a.minus := by
    rintro rfl
    simp [isDigit, a.minus_digit] at hd
  have hplus : d ≠ a.plus := by
    rintro rfl
    simp [isDigit, a.plus_digit] at hd
  cases h with
  | none => simp [readSign, hminus, hplus]
  | plus => simp [readSign, a.plus_ne_minus]
  | minus => simp [readSign]

theorem read_suffix {base : Nat} {s rest : List α} {n : Int}
    (h : a.read base s = some (n, rest)) : rest.length ≤ s.length := by
  obtain ⟨sign, hsign, _⟩ := readSign_spec (a := a) (s.dropWhile a.blank)
  have hlen := congrArg List.length hsign
  have hblank := List.length_dropWhile_le a.blank s
  have hdigit := List.length_dropWhile_le a.isDigit (a.readSign (s.dropWhile a.blank)).2
  simp only [read] at h
  split at h
  · cases h
  · cases h
    rw [List.length_append] at hlen
    omega

/-- What is read to the end is a numeral. -/
theorem denotes_of_read {base : Nat} {s : List α} {n : Int} (h : a.read base s = some (n, [])) :
    a.Denotes base s n := by
  obtain ⟨sign, hsign, his⟩ := readSign_spec (a := a) (s.dropWhile a.blank)
  simp only [read] at h
  split at h
  · cases h
  · next hne =>
    simp only [Option.some.injEq, Prod.mk.injEq] at h
    obtain ⟨hn, hrest⟩ := h
    have hall := List.takeWhile_append_dropWhile (p := a.isDigit)
      (l := (a.readSign (s.dropWhile a.blank)).2)
    rw [hrest, List.append_nil] at hall
    rw [hall] at hn hne
    refine ⟨s.takeWhile a.blank, sign, _, _, ?_, List.all_takeWhile, his, ?_, ?_, hn.symm⟩
    · rw [List.append_assoc, ← hsign, List.takeWhile_append_dropWhile]
    · simpa using hne
    · rw [← hall]
      exact List.all_takeWhile

/-- A numeral is read to its end. -/
theorem read_of_denotes {base : Nat} {s : List α} {n : Int} (h : a.Denotes base s n) :
    a.read base s = some (n, []) := by
  obtain ⟨blanks, sign, digits, negative, rfl, hblanks, his, hne, hdigits, rfl⟩ := h
  cases digits with
  | nil => exact absurd rfl hne
  | cons d digits =>
    obtain ⟨hd, _⟩ := Bool.and_eq_true_iff.mp hdigits
    -- the blanks end at the sign, or at the first digit
    have hskip : (blanks ++ sign ++ d :: digits).dropWhile a.blank = sign ++ d :: digits := by
      rw [List.append_assoc, List.dropWhile_append_of_pos (List.all_eq_true.mp hblanks)]
      cases his with
      | none => simp [a.digit_blank d hd]
      | plus => simp [a.plus_blank]
      | minus => simp [a.minus_blank]
    have htake : (d :: digits).takeWhile a.isDigit = d :: digits :=
      List.takeWhile_eq_self_iff.mpr (List.all_eq_true.mp hdigits)
    have hdrop : (d :: digits).dropWhile a.isDigit = [] :=
      List.dropWhile_eq_nil_iff.mpr (List.all_eq_true.mp hdigits)
    simp only [read, hskip, readSign_append his hd, htake, hdrop]
    rfl

theorem read_whole {base : Nat} {s : List α} {n : Int} :
    a.read base s = some (n, []) ↔ a.Denotes base s n :=
  ⟨denotes_of_read, read_of_denotes⟩

end Numeral
