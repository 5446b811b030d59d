import Mathlib.Data.List.Count
import Mathlib.Data.List.Basic

/-!
# Counting events in time windows

A list of event times, and how many of them fall in an interval of a fixed
length. `Settled` is what a counter that was restarted at `opened` knows about
the events before it: each is a whole interval before the restart, or is
counted since.

* `within_cons_le`: one more event breaks no interval as long as the count
  since the restart stays within the bound.
* `Batches`: events in batches that are opened at least an interval apart. No
  interval holds the first events of two batches, so it holds less than twice
  the events of one.
-/

namespace Window

/-- How many of the events fall in the half-open interval of length `len` that
starts at `a`. -/
def within (len : Int) (times : List Int) (a : Int) : Nat :=
  times.countP fun x => decide (a ≤ x ∧ x < a + len)

/-- How many of the events are at `opened` or later. -/
def since (times : List Int) (opened : Int) : Nat :=
  times.countP fun x => decide (opened ≤ x)

/-- Every event is a whole interval before `opened`, or not before it. -/
def Settled (len : Int) (times : List Int) (opened : Int) : Prop :=
  ∀ x ∈ times, x + len ≤ opened ∨ opened ≤ x

variable {len : Int} {times : List Int} {opened now : Int}

theorem Settled.cons (h : Settled len times opened) (hn : opened ≤ now) :
    Settled len (now :: times) opened :=
  List.forall_mem_cons.mpr ⟨.inr hn, h⟩

theorem since_cons (hn : opened ≤ now) : since (now :: times) opened = since times opened + 1 := by
  simp [since, hn]

/-- A counter that is restarted a whole interval after the last event counts
nothing. -/
theorem since_eq_zero (hlen : 0 < len) (h : ∀ x ∈ times, x + len ≤ opened) :
    since times opened = 0 := by
  unfold since
  rw [List.countP_eq_zero]
  intro x hx
  have := h x hx
  simp only [decide_eq_true_eq]
  omega

/-- An interval that reaches past `opened` holds only events since then. -/
theorem within_le_since {a : Int} (h : Settled len times opened) (hn : opened ≤ now)
    (ha : now < a + len) : within len times a ≤ since times opened := by
  unfold within since
  apply List.countP_mono_left
  intro x hx hin
  simp only [decide_eq_true_eq] at hin ⊢
  rcases h x hx with hold | hnew
  · omega
  · exact hnew

theorem within_cons_of_out {a : Int} (h : ¬ (a ≤ now ∧ now < a + len)) :
    within len (now :: times) a = within len times a := by
  unfold within
  rw [List.countP_cons_of_neg (by simpa using h)]

theorem within_cons_of_in {a : Int} (h1 : a ≤ now) (h2 : now < a + len) :
    within len (now :: times) a = within len times a + 1 := by
  unfold within
  rw [List.countP_cons_of_pos (by simp [h1, h2])]

/-- One more event keeps the bound on every interval, when the counter since
`opened` has room for it. -/
theorem within_cons_le {bound : Nat} (hall : ∀ a, within len times a ≤ bound)
    (h : Settled len times opened) (hn : opened ≤ now) (hroom : since times opened < bound)
    (a : Int) : within len (now :: times) a ≤ bound := by
  by_cases hin : a ≤ now ∧ now < a + len
  · have hle := within_le_since h hn hin.2
    rw [within_cons_of_in hin.1 hin.2]
    omega
  · rw [within_cons_of_out hin]
    exact hall a

/-! ## Batches -/

/-- Events in batches of at most `cap`. The last batch was opened by the event
at `opened` and takes events before `closing`. -/
structure Batches (len : Int) (cap : Nat) (times : List Int) (opened closing : Int) : Prop where
  within_le : ∀ a, within len times a ≤ 2 * cap - 1
  since_le : since times opened ≤ cap
  /-- An interval that starts after the opening misses the event that opened. -/
  after_le : ∀ a, opened < a → since times a ≤ since times opened - 1
  /-- An interval that reaches the opening misses the opening before it. -/
  before_le : ∀ a, opened < a + len → since times a ≤ cap - 1 + since times opened
  lt_closing : ∀ x ∈ times, x < closing
  len_le : opened + len ≤ closing

theorem since_mono {a b : Int} (h : a ≤ b) : since times b ≤ since times a := by
  unfold since
  apply List.countP_mono_left
  intro x _ hx
  simp only [decide_eq_true_eq] at hx ⊢
  omega

theorem since_cons_of_lt {a : Int} (h : now < a) : since (now :: times) a = since times a := by
  unfold since
  rw [List.countP_cons_of_neg (by simpa using h)]

theorem since_eq_zero_of_lt (h : ∀ x ∈ times, x < opened) : since times opened = 0 := by
  unfold since
  rw [List.countP_eq_zero]
  intro x hx
  simpa using h x hx

theorem within_le_since_start (len : Int) (times : List Int) (a : Int) :
    within len times a ≤ since times a := by
  unfold within since
  apply List.countP_mono_left
  intro x _ hx
  simp only [decide_eq_true_eq] at hx ⊢
  exact hx.1

namespace Batches

variable {cap : Nat} {closing closing' : Int}

theorem nil (cap : Nat) (h : opened + len ≤ closing) : Batches len cap [] opened closing where
  within_le _ := Nat.zero_le _
  since_le := Nat.zero_le _
  after_le _ _ := Nat.zero_le _
  before_le _ _ := Nat.zero_le _
  lt_closing := by simp
  len_le := h

/-- The batch takes one more event. -/
theorem add (h : Batches len cap times opened closing) (hn : opened ≤ now) (hlt : now < closing)
    (hfirst : 1 ≤ since times opened ∨ now = opened) (hroom : since times opened + 1 ≤ cap) :
    Batches len cap (now :: times) opened closing := by
  have hsince : since (now :: times) opened = since times opened + 1 := since_cons hn
  have hafter : ∀ a, opened < a → since (now :: times) a ≤ since (now :: times) opened - 1 := by
    intro a ha
    have hold := h.after_le a ha
    rw [hsince]
    by_cases hin : a ≤ now
    · rw [since_cons hin]
      omega
    · rw [since_cons_of_lt (Int.not_le.mp hin)]
      omega
  have hbefore : ∀ a, opened < a + len →
      since (now :: times) a ≤ cap - 1 + since (now :: times) opened := by
    intro a ha
    have hold := h.before_le a ha
    rw [hsince]
    by_cases hin : a ≤ now
    · rw [since_cons hin]
      omega
    · rw [since_cons_of_lt (Int.not_le.mp hin)]
      omega
  constructor
  · intro a
    by_cases hin : a ≤ now ∧ now < a + len
    · have hle := within_le_since_start len (now :: times) a
      have := hbefore a (by omega)
      omega
    · rw [within_cons_of_out hin]
      exact h.within_le a
  · omega
  · exact hafter
  · exact hbefore
  · exact List.forall_mem_cons.mpr ⟨hlt, h.lt_closing⟩
  · exact h.len_le

/-- The batch is closed, and an empty one is opened. -/
theorem turn (h : Batches len cap times opened closing) (hlen : 0 < len) (hn : closing ≤ now)
    (hc : now + len ≤ closing') : Batches len cap times now closing' := by
  have hzero : since times now = 0 := since_eq_zero_of_lt fun x hx => by
    have := h.lt_closing x hx
    omega
  have hgap := h.len_le
  constructor
  · exact h.within_le
  · omega
  · intro a ha
    have : since times a ≤ since times now := since_mono (Int.le_of_lt ha)
    omega
  · intro a ha
    have hold := h.after_le a (by omega)
    have hcap := h.since_le
    omega
  · intro x hx
    have := h.lt_closing x hx
    omega
  · exact hc

end Batches
end Window
