import Mathlib.Logic.Function.Basic

/-!
# A register that shows samples

Several processes take samples of a value that changes. Each publishes its sample
some time later, by overwriting a shared register. The samples are numbered in
the order in which they were taken.

* `Sampler.Inv`: what every `sample` and every publication of a `Fresh` sample
  preserves.
* `Inv.shown_latest`: with no sample left to publish, the register shows the
  latest one.
-/

/-- The register, with the samples that were taken and are not published yet. -/
structure Sampler (ι V : Type) where
  pending : ι → Option (Nat × V) := fun _ => none
  taken : Nat := 0
  latest : V
  shown : V
  shownNumber : Nat := 0

namespace Sampler

variable {ι V : Type} {m m' : Sampler ι V} {i : ι}

/-- Nothing was sampled yet, and the register shows the first value. -/
def start (v : V) : Sampler ι V := { latest := v, shown := v }

/-- The sample of process `i` is newer than the one that is shown. -/
def Fresh (m : Sampler ι V) (i : ι) : Prop :=
  ∀ n v, m.pending i = some (n, v) → m.shownNumber < n

instance (m : Sampler ι V) (i : ι) : Decidable (m.Fresh i) :=
  decidable_of_iff (∀ x ∈ m.pending i, m.shownNumber < x.1)
    ⟨fun h n v hi => h (n, v) hi, fun h x hx => h x.1 x.2 hx⟩

/-- The latest sample is still to be published, or it is shown. -/
structure Inv (m : Sampler ι V) : Prop where
  pending {i : ι} {n : Nat} {v : V} : m.pending i = some (n, v) →
    n ≤ m.taken ∧ (n = m.taken → v = m.latest)
  shown : m.shownNumber ≤ m.taken ∧ (m.shownNumber = m.taken → m.shown = m.latest)
  somewhere : m.shownNumber = m.taken ∨ ∃ i, m.pending i = some (m.taken, m.latest)

theorem inv_start (v : V) : (start v : Sampler ι V).Inv where
  pending h := by cases h
  shown := ⟨Nat.le_refl _, fun _ => rfl⟩
  somewhere := .inl rfl

/-- With no sample left to publish, the register shows the latest one. -/
theorem Inv.shown_latest (h : m.Inv) (hnone : ∀ i, m.pending i = none) : m.shown = m.latest := by
  refine h.shown.2 (h.somewhere.resolve_right ?_)
  rintro ⟨i, hi⟩
  rw [hnone i] at hi
  cases hi

variable [DecidableEq ι]

/-- Process `i` takes the next sample. -/
def sample (m : Sampler ι V) (i : ι) (v : V) : Sampler ι V :=
  { m with pending := Function.update m.pending i (some (m.taken + 1, v))
           taken := m.taken + 1
           latest := v }

/-- Process `i` publishes its sample. -/
def publish (m : Sampler ι V) (i : ι) : Option (Sampler ι V) :=
  (m.pending i).map fun (n, v) =>
    { m with pending := Function.update m.pending i none, shown := v, shownNumber := n }

theorem publish_eq (h : m.publish i = some m') : ∃ n v, m.pending i = some (n, v) ∧
    m' = { m with pending := Function.update m.pending i none, shown := v, shownNumber := n } := by
  obtain ⟨⟨n, v⟩, hpending, rfl⟩ := Option.map_eq_some_iff.mp h
  exact ⟨n, v, hpending, rfl⟩

@[simp]
theorem sample_latest (m : Sampler ι V) (i : ι) (v : V) : (m.sample i v).latest = v := rfl

theorem sample_pending_of_ne {j : ι} {v : V} (hne : j ≠ i) :
    (m.sample i v).pending j = m.pending j :=
  Function.update_of_ne hne ..

/-- Publishing a sample leaves the latest one, and takes no sample. -/
theorem publish_kept (h : m.publish i = some m') :
    m'.latest = m.latest ∧ ∀ j, m'.pending j ≠ none → m.pending j ≠ none := by
  obtain ⟨n, v, _, rfl⟩ := publish_eq h
  refine ⟨rfl, fun j hj hnone => hj ?_⟩
  rcases eq_or_ne j i with rfl | hne
  · exact Function.update_self ..
  · exact (Function.update_of_ne hne ..).trans hnone

theorem Inv.sample (h : m.Inv) (i : ι) (v : V) : (m.sample i v).Inv where
  pending {j n w} hj := by
    rcases eq_or_ne j i with rfl | hne
    · simp only [Sampler.sample, Function.update_self, Option.some.injEq, Prod.mk.injEq] at hj
      obtain ⟨rfl, rfl⟩ := hj
      exact ⟨Nat.le_refl _, fun _ => rfl⟩
    · rw [sample_pending_of_ne hne] at hj
      have hle := (h.pending hj).1
      exact ⟨Nat.le_succ_of_le hle, fun heq => absurd heq (Nat.ne_of_lt (Nat.lt_succ_of_le hle))⟩
  shown := ⟨Nat.le_succ_of_le h.shown.1,
    fun heq => absurd heq (Nat.ne_of_lt (Nat.lt_succ_of_le h.shown.1))⟩
  somewhere := .inr ⟨i, Function.update_self ..⟩

theorem Inv.publish (h : m.Inv) (hfresh : m.Fresh i) (hm : m.publish i = some m') : m'.Inv := by
  obtain ⟨n, v, hi, rfl⟩ := publish_eq hm
  obtain ⟨hle, heq⟩ := h.pending hi
  refine ⟨fun {j k w} hj => ?_, ⟨hle, heq⟩, ?_⟩
  · rcases eq_or_ne j i with rfl | hne
    · simp only [Function.update_self] at hj
      cases hj
    · simp only [Function.update_of_ne hne] at hj
      exact h.pending hj
  · -- what is overwritten is older than the sample, so it is not the latest
    have hold : m.shownNumber ≠ m.taken := Nat.ne_of_lt (Nat.lt_of_lt_of_le (hfresh n v hi) hle)
    obtain ⟨j, hj⟩ := h.somewhere.resolve_left hold
    rcases eq_or_ne j i with rfl | hne
    · rw [hi] at hj
      cases hj
      exact .inl rfl
    · exact .inr ⟨j, (Function.update_of_ne hne ..).trans hj⟩

end Sampler
