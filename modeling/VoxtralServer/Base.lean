import Mathlib.Algebra.Order.Ring.Int
import Mathlib.Data.List.Basic
import Mathlib.Data.List.TakeWhile

/-!
# Byte strings, casts and clock readings

`std::string` and `std::string_view` hold bytes, not characters, so the model's
strings are byte lists. A string literal stands for its UTF-8 encoding.

A `steady_clock` time point is an integer number of nanoseconds, and so is a
duration.
-/

namespace VoxtralServer

/-! ## Strings -/

/-- `std::string`. -/
abbrev Str := List UInt8

/-- The bytes of a string literal. -/
def utf8 (s : String) : Str := s.toList.flatMap String.utf8EncodeChar

/-- A byte string that encodes some text. -/
def ValidUtf8 (s : Str) : Prop := ∃ cs : List Char, s = cs.flatMap String.utf8EncodeChar

theorem validUtf8_utf8 (s : String) : ValidUtf8 (utf8 s) := ⟨s.toList, rfl⟩

theorem validUtf8_nil : ValidUtf8 [] := ⟨[], rfl⟩

theorem validUtf8_iff {s : Str} : ValidUtf8 s ↔ s.toByteArray.IsValidUTF8 := by
  constructor
  · rintro ⟨cs, rfl⟩
    exact ⟨cs, rfl⟩
  · rintro ⟨cs, hcs⟩
    exact ⟨cs, List.toByteArray_inj.mp hcs⟩

instance (s : Str) : Decidable (ValidUtf8 s) := decidable_of_iff _ validUtf8_iff.symm

theorem ValidUtf8.append {s t : Str} (hs : ValidUtf8 s) (ht : ValidUtf8 t) :
    ValidUtf8 (s ++ t) := by
  obtain ⟨cs, rfl⟩ := hs
  obtain ⟨ds, rfl⟩ := ht
  exact ⟨cs ++ ds, (List.flatMap_append ..).symm⟩

theorem encode_ascii : ∀ n < 128, String.utf8EncodeChar (Char.ofNat n) = [UInt8.ofNat n] := by
  decide +kernel

/-- ASCII bytes are valid UTF-8. -/
theorem validUtf8_ascii {s : Str} (h : ∀ c ∈ s, c < 128) : ValidUtf8 s := by
  have hencode : ∀ c ∈ s, String.utf8EncodeChar (Char.ofNat c.toNat) = [c] := by
    intro c hc
    rw [encode_ascii _ (UInt8.lt_iff_toNat_lt.mp (h c hc)), UInt8.ofNat_toNat]
  refine ⟨s.map fun c => Char.ofNat c.toNat, ?_⟩
  rw [List.flatMap_map, List.flatMap_congr hencode, List.flatMap_singleton']

/-- `std::to_string` of an integer. -/
def toStr (n : Int) : Str := utf8 (toString n)

/-- `std::isspace` in the default locale: a space, or a byte from tab to
carriage return. -/
def isSpace (c : UInt8) : Bool := c == (' ').toUInt8 || (decide (9 ≤ c) && decide (c ≤ 13))

/-- A NUL-terminated string, without its terminator. -/
structure CString where
  bytes : Str
  noNul : 0 ∉ bytes
deriving DecidableEq, Repr

/-- What is read through `c_str()`: the string up to its first NUL. -/
def cStr (s : Str) : CString where
  bytes := s.takeWhile (· ≠ 0)
  noNul h := by simpa using List.mem_takeWhile_imp h

/-- The whole string is read exactly when it has no NUL. -/
theorem cStr_bytes_eq_iff {s : Str} : (cStr s).bytes = s ↔ 0 ∉ s := by
  rw [cStr, List.takeWhile_eq_self_iff]
  constructor
  · intro h hmem
    simpa using h 0 hmem
  · intro h c hc
    have hne : c ≠ 0 := fun h0 => h (h0 ▸ hc)
    simpa using hne

/-- What `snprintf` leaves in a buffer of `size` bytes: as much of the text as fits
in front of its NUL. -/
def snprintf (size : Nat) (text : Str) : CString := cStr (text.take (size - 1))

theorem mem_snprintf {size : Nat} {text : Str} {c : UInt8} (h : c ∈ (snprintf size text).bytes) :
    c ∈ text :=
  List.mem_of_mem_take (List.takeWhile_subset _ h)

/-- A text that fits is left whole. -/
theorem snprintf_bytes {size : Nat} {text : Str} (hfits : text.length < size) (hnul : 0 ∉ text) :
    (snprintf size text).bytes = text := by
  rw [snprintf, List.take_of_length_le (by omega)]
  exact cStr_bytes_eq_iff.mpr hnul

/-! ## Integer casts -/

/-- `static_cast<size_t>` of an `int`. -/
def sizeOfInt (n : Int) : Nat := (n % 2 ^ 64).toNat

/-- `static_cast<int>` of a `size_t`. -/
def intOfSize (n : Nat) : Int := (n : Int).bmod (2 ^ 32)

/-- `std::atomic<int>::fetch_add`, which wraps around. -/
def fetchAdd (n k : Int) : Int := (n + k).bmod (2 ^ 32)

theorem fetchAdd_intOfSize (n : Nat) : fetchAdd (intOfSize n) 1 = intOfSize (n + 1) :=
  Int.bmod_add_bmod

theorem intOfSize_eq_self {n : Nat} (h : n < 2 ^ 31) : intOfSize n = n := by
  unfold intOfSize
  rw [Int.bmod_eq_of_le] <;> omega

/-! ## Time -/

/-- `std::chrono::seconds` as a duration in clock ticks. -/
def seconds (n : Int) : Int := n * 1000000000

/-- `duration_cast<seconds>`: truncation toward zero. -/
def toSeconds (d : Int) : Int := d.tdiv 1000000000

/-- Truncation does not change how a duration compares with a positive number
of whole seconds. -/
theorem le_toSeconds {n d : Int} (hn : 0 < n) : n ≤ toSeconds d ↔ seconds n ≤ d := by
  unfold toSeconds seconds
  rcases Int.le_total 0 d with hd | hd
  · rw [Int.tdiv_eq_ediv_of_nonneg hd]
    omega
  · have hneg : d.tdiv 1000000000 = -((-d) / 1000000000) := by
      rw [← Int.tdiv_eq_ediv_of_nonneg (by omega), Int.neg_tdiv, Int.neg_neg]
    rw [hneg]
    omega

/-- A duration that is not negative lies between its whole seconds and the next. -/
theorem toSeconds_bounds {d : Int} (hd : 0 ≤ d) :
    0 ≤ toSeconds d ∧ seconds (toSeconds d) ≤ d ∧ d < seconds (toSeconds d + 1) := by
  unfold toSeconds seconds
  rw [Int.tdiv_eq_ediv_of_nonneg hd]
  omega

/-- The two clock readings of a call that may insert an entry: the one the
call takes itself, and the later one that a new entry's `window_start` takes
when it is constructed. -/
structure Readings where
  now : Int
  fresh : Int
deriving DecidableEq, Repr

end VoxtralServer
