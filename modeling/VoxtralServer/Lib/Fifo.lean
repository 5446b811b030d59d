import Mathlib.Data.List.Nodup
import VoxtralServer.Lib.System

/-!
# A queue with one server

Items are pushed at the end of a queue. The server takes the first one, works
on it, and finishes it. Each item is pushed once.

* `Fifo.reachable_inv`: the items pushed are those done, the one being served and
  those pending, in this order.
* `Fifo.Inv.count_eq_one`: so each of them is in exactly one of the three places.
-/

/-- The items pushed so far and where they are, in the order of their pushes. -/
structure Fifo (ι : Type) where
  pushed : List ι := []
  done : List ι := []
  serving : Option ι := none
  pending : List ι := []

namespace Fifo

variable {ι : Type}

inductive Act (ι : Type)
  | push (i : ι)
  | take
  | finish

def step [DecidableEq ι] (q : Fifo ι) : Act ι → Option (Fifo ι)
  | .push i =>
    if i ∈ q.pushed then none
    else some { q with pushed := q.pushed ++ [i], pending := q.pending ++ [i] }
  | .take =>
    match q.serving, q.pending with
    | none, i :: rest => some { q with serving := some i, pending := rest }
    | _, _ => none
  | .finish =>
    match q.serving with
    | some i => some { q with done := q.done ++ [i], serving := none }
    | none => none

/-- All runs from the empty queue. -/
def system (ι : Type) [DecidableEq ι] : System (Fifo ι) (Act ι) where
  init q := q = {}
  step := step

/-- First in, first out, and no item twice. -/
structure Inv (q : Fifo ι) : Prop where
  order : q.pushed = q.done ++ q.serving.toList ++ q.pending
  nodup : q.pushed.Nodup

theorem step_inv [DecidableEq ι] {q q' : Fifo ι} {a : Act ι} (hi : Inv q)
    (h : step q a = some q') : Inv q' := by
  obtain ⟨horder, hnodup⟩ := hi
  cases a with
  | push i =>
    simp only [step] at h
    split at h
    · cases h
    · next hnew =>
      cases h
      constructor
      · dsimp only
        rw [horder, List.append_assoc _ q.pending]
      · exact List.nodup_append.mpr ⟨hnodup, List.nodup_singleton i, fun a ha b hb => by
          rintro rfl
          exact hnew (List.mem_singleton.mp hb ▸ ha)⟩
  | take =>
    simp only [step] at h
    split at h
    · next hserving hpending =>
      cases h
      refine ⟨?_, hnodup⟩
      dsimp only
      rw [horder, hserving, hpending]
      simp
    · cases h
  | finish =>
    simp only [step] at h
    split at h
    · next hserving =>
      cases h
      refine ⟨?_, hnodup⟩
      dsimp only
      rw [horder, hserving]
      simp
    · cases h

theorem reachable_inv [DecidableEq ι] {q : Fifo ι}
    (h : (system ι).Reachable System.Any q) : Inv q := by
  refine System.reachable_inv (I := Inv) ?_ (fun q a q' hi _ hst => step_inv hi hst) h
  rintro q rfl
  exact ⟨rfl, List.nodup_nil⟩

variable {q : Fifo ι} {i j : ι}

/-- A pushed item is in exactly one place, once. -/
theorem Inv.count_eq_one [DecidableEq ι] (hi : Inv q) (h : i ∈ q.pushed) :
    q.pending.count i + q.serving.toList.count i + q.done.count i = 1 := by
  have hcount := List.count_eq_one_of_mem hi.nodup h
  rw [hi.order, List.count_append, List.count_append] at hcount
  omega

theorem Inv.mem_pushed (hi : Inv q) :
    i ∈ q.pushed ↔ i ∈ q.done ∨ q.serving = some i ∨ i ∈ q.pending := by
  rw [hi.order, List.mem_append, List.mem_append, Option.mem_toList, or_assoc]

/-- The item being served is neither pending nor done. -/
theorem Inv.serving_ne (hi : Inv q) (hs : q.serving = some i) (h : j ∈ q.pending ∨ j ∈ q.done) :
    j ≠ i := by
  rintro rfl
  have hnodup := hi.nodup
  rw [hi.order, hs] at hnodup
  rcases h with h | h
  · exact (List.nodup_append.mp hnodup).2.2 j (by simp) j h rfl
  · exact (List.nodup_append.mp (List.nodup_append.mp hnodup).1).2.2 j h j (by simp) rfl

/-- A pending item is not done, and the first one is pending once. -/
theorem Inv.pending_not_done (hi : Inv q) (h : i ∈ q.pending) : i ∉ q.done := by
  intro hd
  have hnodup := hi.nodup
  rw [hi.order] at hnodup
  exact (List.nodup_append.mp hnodup).2.2 i (List.mem_append_left _ hd) i h rfl

theorem Inv.pending_nodup (hi : Inv q) : q.pending.Nodup := by
  have hnodup := hi.nodup
  rw [hi.order] at hnodup
  exact (List.nodup_append.mp hnodup).2.1

end Fifo
