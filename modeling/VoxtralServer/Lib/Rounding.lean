import Mathlib.Data.Int.Log
import Mathlib.Data.Rat.Floor
import Mathlib.Tactic.FieldSimp
import Mathlib.Tactic.Linarith

/-!
# Rounding to binary digits

A rational number rounded to the nearest one of `p` binary digits, a tie to the
even one. The exponent is not bounded, so nothing overflows or underflows.

* `abs_nearest_sub_le`: the relative error is at most `2⁻ᵖ`.
* `abs_nearest_le`: an integer of `p` digits that bounds a number bounds what it
  is rounded to.
-/

namespace Rounding

/-- The nearest integer, a tie to the even one. -/
def nearestEven (x : Rat) : Int :=
  if 2 * (x - ⌊x⌋) < 1 then ⌊x⌋
  else if 1 < 2 * (x - ⌊x⌋) then ⌊x⌋ + 1
  else if ⌊x⌋ % 2 = 0 then ⌊x⌋
  else ⌊x⌋ + 1

/-- The unit in the last of the `p` binary digits of `q`. -/
def ulp (p : Nat) (q : Rat) : Rat := 2 ^ (Int.log 2 |q| + 1 - p)

/-- The nearest number of `p` binary digits. -/
def nearest (p : Nat) (q : Rat) : Rat := nearestEven (q / ulp p q) * ulp p q

/-! ## Integers -/

theorem abs_nearestEven_sub_le (x : Rat) : |nearestEven x - x| ≤ 1 / 2 := by
  have hle := Int.floor_le x
  have hlt := Int.lt_floor_add_one x
  unfold nearestEven
  split
  · rw [abs_le]
    constructor <;> linarith
  · split
    · push_cast
      rw [abs_le]
      constructor <;> linarith
    · split
      · rw [abs_le]
        constructor <;> linarith
      · push_cast
        rw [abs_le]
        constructor <;> linarith

/-- The integers between two integers stay between them. -/
theorem nearestEven_le {x : Rat} {k : Int} (h : x ≤ k) : nearestEven x ≤ k := by
  have herror := (abs_le.mp (abs_nearestEven_sub_le x)).2
  have hlt : (nearestEven x : Rat) < k + 1 := by linarith
  exact Int.lt_add_one_iff.mp (by exact_mod_cast hlt)

theorem le_nearestEven {x : Rat} {k : Int} (h : k ≤ x) : k ≤ nearestEven x := by
  have herror := (abs_le.mp (abs_nearestEven_sub_le x)).1
  have hlt : (k : Rat) < nearestEven x + 1 := by linarith
  exact Int.lt_add_one_iff.mp (by exact_mod_cast hlt)

/-! ## Digits -/

variable {p : Nat} {q : Rat}

theorem ulp_pos (p : Nat) (q : Rat) : 0 < ulp p q := zpow_pos two_pos _

theorem nearest_zero (p : Nat) : nearest p 0 = 0 := by
  have hzero : nearestEven 0 = 0 :=
    le_antisymm (nearestEven_le (by norm_num)) (le_nearestEven (by norm_num))
  rw [nearest, zero_div, hzero, Int.cast_zero, zero_mul]

/-- The unit is as small as the number. -/
theorem ulp_le (hq : q ≠ 0) : ulp p q * 2 ^ p ≤ 2 * |q| := by
  have hlog := Int.zpow_log_le_self (b := 2) one_lt_two (abs_pos.mpr hq)
  calc ulp p q * 2 ^ p = 2 * 2 ^ Int.log 2 |q| := by
        rw [ulp, ← zpow_natCast (2 : Rat) p, ← zpow_add₀ two_ne_zero, Int.sub_add_cancel,
          zpow_add₀ two_ne_zero, zpow_one, mul_comm]
    _ ≤ 2 * |q| := by
        have hlog' : (2 : Rat) ^ Int.log 2 |q| ≤ |q| := by exact_mod_cast hlog
        linarith

/-- The relative error. -/
theorem abs_nearest_sub_le (p : Nat) (q : Rat) : |nearest p q - q| ≤ |q| / 2 ^ p := by
  by_cases hq : q = 0
  · rw [hq, nearest_zero, sub_zero, abs_zero, zero_div]
  · have hulp := ulp_pos p q
    have herror : nearest p q - q = (nearestEven (q / ulp p q) - q / ulp p q) * ulp p q := by
      rw [nearest, sub_mul, div_mul_cancel₀ _ hulp.ne']
    rw [herror, abs_mul, abs_of_pos hulp, le_div_iff₀ (by positivity), mul_assoc]
    calc |(nearestEven (q / ulp p q) : Rat) - q / ulp p q| * (ulp p q * 2 ^ p)
        ≤ 1 / 2 * (2 * |q|) :=
          mul_le_mul (abs_nearestEven_sub_le _) (ulp_le hq) (by positivity) (by norm_num)
      _ = |q| := by ring

/-- An integer of `p` digits is a multiple of the unit of what it bounds. -/
theorem exists_mul_ulp {k : Nat} (hk : k < 2 ^ p) (hq : q ≠ 0) (h : |q| ≤ k) :
    ∃ m : Nat, (k : Rat) = m * ulp p q := by
  have hlt : |q| < (2 : Nat) ^ (p : Int) := h.trans_lt (by exact_mod_cast hk)
  have hlog : Int.log 2 |q| < p := (Int.lt_zpow_iff_log_lt one_lt_two (abs_pos.mpr hq)).mp hlt
  -- the unit is at most one, so it divides every integer
  obtain ⟨d, hd⟩ := Int.eq_ofNat_of_zero_le (by omega : 0 ≤ p - 1 - Int.log 2 |q|)
  refine ⟨k * 2 ^ d, ?_⟩
  have hexponent : Int.log 2 |q| + 1 - p = -d := by omega
  rw [ulp, hexponent, zpow_neg, zpow_natCast]
  push_cast
  rw [mul_assoc, mul_inv_cancel₀ (by positivity), mul_one]

/-- Rounding stays within a bound of `p` digits. -/
theorem abs_nearest_le {k : Nat} (hk : k < 2 ^ p) (h : |q| ≤ k) : |nearest p q| ≤ k := by
  by_cases hq : q = 0
  · rw [hq, nearest_zero, abs_zero]
    exact Nat.cast_nonneg k
  · obtain ⟨m, hm⟩ := exists_mul_ulp hk hq h
    have hulp := ulp_pos p q
    obtain ⟨hlow, hhigh⟩ := abs_le.mp h
    rw [hm] at hlow hhigh
    have hle : nearestEven (q / ulp p q) ≤ (m : Int) :=
      nearestEven_le (by rw [div_le_iff₀ hulp]; exact_mod_cast hhigh)
    have hge : -(m : Int) ≤ nearestEven (q / ulp p q) :=
      le_nearestEven (by rw [le_div_iff₀ hulp, Int.cast_neg, neg_mul]; exact_mod_cast hlow)
    rw [nearest, hm, abs_mul, abs_of_pos hulp]
    refine mul_le_mul_of_nonneg_right ?_ hulp.le
    exact_mod_cast abs_le.mpr ⟨hge, hle⟩

/-- An integer of `p` digits is not rounded. -/
theorem nearest_natCast {k : Nat} (hk : k < 2 ^ p) : nearest p k = k := by
  by_cases hzero : k = 0
  · rw [hzero, Nat.cast_zero, nearest_zero]
  · obtain ⟨m, hm⟩ := exists_mul_ulp (q := k) hk (by exact_mod_cast hzero) (by simp)
    have hquotient : (k : Rat) / ulp p k = (m : Int) := by
      rw [div_eq_iff (ulp_pos p k).ne']
      exact_mod_cast hm
    have heven : nearestEven (k / ulp p k) = m := by
      rw [hquotient]
      exact le_antisymm (nearestEven_le le_rfl) (le_nearestEven le_rfl)
    rw [nearest, heven]
    exact_mod_cast hm.symm

end Rounding
