import Mathlib.Data.Nat.Digits.Lemmas

/-!
# Zero-padded numerals

The numeral of a number with zeros in front of it, up to a width. Where the number
fits into the width these are its digits, as many as the width says.

* `length_numeral`, `map_numeral_inj`: numerals of one width, and when they are equal.
* `numeral_lead`: the first digit.
-/

namespace Padded

variable {base width n m d : Nat}

/-- The numeral of `n` with zeros in front of it. -/
def numeral (base width n : Nat) : List Char :=
  List.replicate (width - (Nat.toDigits base n).length) '0' ++ Nat.toDigits base n

theorem toDigits_eq_digits (hb : 1 < base) (hn : n ≠ 0) :
    Nat.toDigits base n = (Nat.digits base n).reverse.map Nat.digitChar := by
  induction n using Nat.strongRecOn with
  | ind n ih =>
    rcases Nat.lt_or_ge n base with hlt | hge
    · rw [Nat.toDigits_of_lt_base hlt, Nat.digits_of_lt base n hn hlt]
      rfl
    · have hdiv : n / base ≠ 0 := (Nat.div_pos hge (Nat.zero_lt_of_lt hb)).ne'
      rw [Nat.toDigits_of_base_le hb hge,
        ih _ (Nat.div_lt_self (Nat.pos_of_ne_zero hn) hb) hdiv,
        Nat.digits_def' hb (Nat.pos_of_ne_zero hn), List.reverse_cons, List.map_append]
      rfl

theorem digitChar_zero : Nat.digitChar 0 = '0' := rfl

/-- The digits of a numeral, the most significant first. -/
theorem numeral_eq (hb : 1 < base) (hw : 0 < width) :
    numeral base width n = (Nat.digitsAppend base width n).reverse.map Nat.digitChar := by
  unfold numeral Nat.digitsAppend
  rcases eq_or_ne n 0 with rfl | hn
  · -- zero has one digit as a numeral, and none as a number
    obtain ⟨w, rfl⟩ := Nat.exists_eq_succ_of_ne_zero hw.ne'
    simp [digitChar_zero, ← List.replicate_succ']
  · rw [toDigits_eq_digits hb hn]
    simp [digitChar_zero]

theorem mem_numeral (hb : 1 < base) (hw : 0 < width) {c : Char} (h : c ∈ numeral base width n) :
    ∃ d < base, Nat.digitChar d = c := by
  rw [numeral_eq hb hw] at h
  obtain ⟨d, hd, rfl⟩ := List.mem_map.mp h
  exact ⟨d, Nat.lt_of_mem_digitsAppend hb _ _ (List.mem_reverse.mp hd), rfl⟩

theorem length_numeral (hb : 1 < base) (hw : 0 < width) (hn : n < base ^ width) :
    (numeral base width n).length = width := by
  rw [numeral_eq hb hw, List.length_map, List.length_reverse, Nat.length_digitsAppend hb _ hn]

/-- Numbers that fit have different numerals, in any alphabet whose digits can be
read. -/
theorem map_numeral_inj {α : Type} {f : Char → α} {read : α → Nat}
    (hread : ∀ d < base, read (f (Nat.digitChar d)) = d) (hb : 1 < base) (hw : 0 < width)
    (hn : n < base ^ width) (hm : m < base ^ width) :
    (numeral base width n).map f = (numeral base width m).map f ↔ n = m := by
  have hdigits (n : Nat) : (((numeral base width n).map f).map read).reverse =
      Nat.digitsAppend base width n := by
    have hid : ∀ d ∈ Nat.digitsAppend base width n, read (f (Nat.digitChar d)) = d :=
      fun d hd => hread d (Nat.lt_of_mem_digitsAppend hb _ _ hd)
    rw [numeral_eq hb hw, List.map_map, List.map_map, List.map_reverse, List.reverse_reverse]
    exact (List.map_congr_left hid).trans (List.map_id' _)
  refine ⟨fun h => (Nat.bijOn_digitsAppend hb width).injOn hn hm ?_, fun h => h ▸ rfl⟩
  rw [← hdigits n, h, hdigits m]

/-- The first digit of a numeral, and the rest. -/
theorem numeral_lead (hb : 1 < base) (hw : 0 < width) (hd : d < base) (hn : n < base ^ width) :
    numeral base (width + 1) (d * base ^ width + n) =
      Nat.digitChar d :: numeral base width n := by
  have hdigits : Nat.digitsAppend base (width + 1) (d * base ^ width + n) =
      Nat.digitsAppend base width n ++ [d] := by
    have hlen : (Nat.digitsAppend base width n).length = width := Nat.length_digitsAppend hb _ hn
    have hvalue : Nat.ofDigits base (Nat.digitsAppend base width n ++ [d]) =
        d * base ^ width + n := by
      rw [Nat.ofDigits_append, hlen, (Nat.setInvOn_digitsAppend_ofDigits hb width).2 hn,
        Nat.ofDigits_singleton, Nat.mul_comm, Nat.add_comm]
    rw [← hvalue]
    refine (Nat.setInvOn_digitsAppend_ofDigits hb (width + 1)).1 ⟨by simp [hlen], ?_⟩
    intro e he
    rcases List.mem_append.mp he with he | he
    · exact Nat.lt_of_mem_digitsAppend hb _ _ he
    · rwa [List.mem_singleton.mp he]
  rw [numeral_eq hb (Nat.succ_pos _), numeral_eq hb hw, hdigits]
  simp

end Padded
