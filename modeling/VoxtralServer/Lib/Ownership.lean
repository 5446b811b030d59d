import Mathlib.Data.Finset.Basic
import Mathlib.Data.List.Count

/-!
# Resources that are acquired, used and released

A trace of operations on resources, checked by the set of those that are held.
A resource may be acquired again after it was released.

* `balance`: how often each resource was acquired and released, against what is
  held in the end.
* `Clean.releasedOnce`: a trace that holds nothing in the end releases whatever
  it acquires exactly once, and uses it only in between.
-/

namespace Ownership

/-- An operation on a resource. -/
inductive Op (ρ : Type)
  | acquire (r : ρ)
  | use (r : ρ)
  | release (r : ρ)
deriving DecidableEq, Repr

variable {ρ : Type} [DecidableEq ρ]

/-- The resources held after the operation. It goes wrong, `none`, when it
acquires what is held, or uses or releases what is not. -/
def apply (held : Finset ρ) : Op ρ → Option (Finset ρ)
  | .acquire r => if r ∈ held then none else some (insert r held)
  | .use r => if r ∈ held then some held else none
  | .release r => if r ∈ held then some (held.erase r) else none

theorem apply_acquire {held : Finset ρ} {r : ρ} (h : r ∉ held) :
    apply held (.acquire r) = some (insert r held) := if_neg h

theorem apply_use {held : Finset ρ} {r : ρ} (h : r ∈ held) : apply held (.use r) = some held :=
  if_pos h

/-- A release takes back the acquisition. -/
theorem apply_release_insert {held : Finset ρ} {r : ρ} (h : r ∉ held) :
    apply (insert r held) (.release r) = some held := by
  rw [apply, if_pos (Finset.mem_insert_self r held), Finset.erase_insert h]

/-- The resources held after a trace, from `held` on. -/
def applyAll : Finset ρ → List (Op ρ) → Option (Finset ρ)
  | held, [] => some held
  | held, op :: ops => (apply held op).bind fun held => applyAll held ops

/-- The trace goes well and holds nothing in the end. -/
def Clean (ops : List (Op ρ)) : Prop := applyAll ∅ ops = some ∅

instance (ops : List (Op ρ)) : Decidable (Clean ops) := inferInstanceAs (Decidable (_ = _))

theorem applyAll_append (held : Finset ρ) (ops ops' : List (Op ρ)) :
    applyAll held (ops ++ ops') = (applyAll held ops).bind fun held => applyAll held ops' := by
  induction ops generalizing held with
  | nil => rfl
  | cons op ops ih => simp only [List.cons_append, applyAll, ih, Option.bind_assoc]

/-! ## Counting -/

/-- What one operation adds to the balance of a resource. -/
theorem apply_balance {held held' : Finset ρ} {op : Op ρ} (h : apply held op = some held')
    (r : ρ) :
    (if op = .acquire r then 1 else 0) + (if r ∈ held then 1 else 0) =
      (if op = .release r then 1 else 0) + (if r ∈ held' then 1 else 0) := by
  cases op with
  | acquire r' =>
    simp only [apply] at h
    split at h
    · cases h
    · next hfree =>
      cases h
      by_cases hr : r' = r
      · subst hr
        simp [hfree]
      · simp [hr, Ne.symm hr]
  | use r' =>
    simp only [apply] at h
    split at h
    · cases h
      simp
    · cases h
  | release r' =>
    simp only [apply] at h
    split at h
    · next hheld =>
      cases h
      by_cases hr : r' = r
      · subst hr
        simp [hheld]
      · simp [hr, Ne.symm hr]
    · cases h

/-- A resource was acquired as often as it was released, and once more when it is
held. -/
theorem balance {ops : List (Op ρ)} {held held' : Finset ρ} (h : applyAll held ops = some held')
    (r : ρ) :
    ops.count (.acquire r) + (if r ∈ held then 1 else 0) =
      ops.count (.release r) + (if r ∈ held' then 1 else 0) := by
  induction ops generalizing held with
  | nil =>
    cases h
    simp
  | cons op ops ih =>
    obtain ⟨mid, hop, hops⟩ := Option.bind_eq_some_iff.mp h
    have hstep := apply_balance hop r
    have hrest := ih hops
    rw [List.count_cons, List.count_cons]
    simp only [beq_iff_eq]
    omega

/-- What is acquired is released exactly once, and it is used and released only
after it was acquired and before it is released. -/
structure ReleasedOnce (ops : List (Op ρ)) : Prop where
  released : ∀ r, ops.count (.release r) = ops.count (.acquire r)
  between : ∀ before op after r, ops = before ++ op :: after → op = .use r ∨ op = .release r →
    before.count (.acquire r) = before.count (.release r) + 1

/-- An operation of a trace that goes well finds its resource held. -/
theorem held_of_applyAll {before after : List (Op ρ)} {op : Op ρ} {held : Finset ρ} {r : ρ}
    (h : applyAll ∅ (before ++ op :: after) = some held) (hop : op = .use r ∨ op = .release r) :
    ∃ mid, applyAll ∅ before = some mid ∧ r ∈ mid := by
  rw [applyAll_append] at h
  obtain ⟨mid, hbefore, hrest⟩ := Option.bind_eq_some_iff.mp h
  refine ⟨mid, hbefore, ?_⟩
  obtain ⟨_, hmid, _⟩ := Option.bind_eq_some_iff.mp hrest
  by_contra hfree
  rcases hop with rfl | rfl <;> simp [apply, hfree] at hmid

theorem Clean.releasedOnce {ops : List (Op ρ)} (h : Clean ops) : ReleasedOnce ops where
  released r := by
    have hbalance := balance h r
    simpa using hbalance.symm
  between before op after r hops hop := by
    rw [Clean, hops] at h
    obtain ⟨mid, hbefore, hmid⟩ := held_of_applyAll h hop
    have hbalance := balance hbefore r
    simpa [hmid] using hbalance

/-- A trace that goes well but holds something in the end has acquired it once
more than it has released it. -/
theorem not_releasedOnce {ops : List (Op ρ)} {held : Finset ρ} {r : ρ}
    (h : applyAll ∅ ops = some held) (hr : r ∈ held) : ¬ ReleasedOnce ops := by
  intro honce
  have hbalance := balance h r
  have hreleased := honce.released r
  simp only [hr, Finset.notMem_empty, if_true, if_false] at hbalance
  omega

end Ownership
