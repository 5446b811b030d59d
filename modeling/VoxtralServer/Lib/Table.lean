import Mathlib.Data.List.AList
import Mathlib.Data.List.MinMax
import Mathlib.Data.List.Perm.Subperm

/-!
# Hash tables with an unspecified iteration order

A table is an association list with distinct keys. The list is the order in
which a loop over the table visits the entries. An insertion may rehash, so the
order a loop sees is any rearrangement of the entries (`IterOrder`).

`evictTo` is the loop that erases an entry of least age until at most `cap`
entries are left. Among entries of equal age it erases the one visited first.

* `size_evictTo`: the loop reaches the cap.
* `lookup_evictTo`: it changes no entry that it keeps.
* `evictTo_dropped`: when it erases an entry, exactly `cap` entries are left
  and none of them is older.
-/

/-- A table from `κ` to `α`. -/
abbrev Table (κ α : Type) := AList fun _ : κ => α

/-- An order in which a loop may visit the entries of a table. -/
structure IterOrder (κ α : Type) where
  order : List (Sigma fun _ : κ => α) → List (Sigma fun _ : κ => α)
  perm : ∀ l, (order l).Perm l

/-- The order of the list itself. -/
def IterOrder.id (κ α : Type) : IterOrder κ α := ⟨fun l => l, fun l => .refl l⟩

namespace Table

variable {κ α : Type}

/-- The number of entries. -/
def size (t : Table κ α) : Nat := t.entries.length

/-- The same table with its entries in the order `o`. -/
def reorder (o : IterOrder κ α) (t : Table κ α) : Table κ α :=
  ⟨o.order t.entries, (List.perm_nodupKeys (o.perm _)).mpr t.nodupKeys⟩

/-- The entries that pass the test: a loop that erases the others. -/
def keep (p : κ → α → Bool) (t : Table κ α) : Table κ α :=
  ⟨t.entries.filter fun e => p e.1 e.2, t.nodupKeys.sublist List.filter_sublist⟩

theorem size_keep_reorder (o : IterOrder κ α) (p : κ → α → Bool) (t : Table κ α) :
    size ((t.reorder o).keep p) = size (t.keep p) :=
  ((o.perm t.entries).filter _).length_eq

section Lookup

variable [DecidableEq κ]

@[simp] theorem lookup_reorder (o : IterOrder κ α) (t : Table κ α) (k : κ) :
    (t.reorder o).lookup k = t.lookup k :=
  AList.perm_lookup (o.perm t.entries)

theorem lookup_keep_eq_some {p : κ → α → Bool} {t : Table κ α} {k : κ} {v : α} :
    (t.keep p).lookup k = some v ↔ t.lookup k = some v ∧ p k v = true := by
  have hk : (t.keep p).lookup k = some v ↔ _ := AList.mem_lookup_iff (s := t.keep p)
  have ht : t.lookup k = some v ↔ _ := AList.mem_lookup_iff (s := t)
  rw [hk, ht]
  exact List.mem_filter

/-- A table whose entries are all in another one has no more of them. -/
theorem size_le_of_lookup {s t : Table κ α}
    (h : ∀ k v, s.lookup k = some v → t.lookup k = some v) : s.size ≤ t.size := by
  apply List.Subperm.length_le
  apply List.subperm_of_subset s.nodupKeys.nodup
  rintro ⟨k, v⟩ hkv
  exact AList.mem_lookup_iff.mp (h k v (AList.mem_lookup_iff.mpr hkv))

theorem size_erase_of_mem {t : Table κ α} {k : κ} (h : k ∈ t) :
    size (t.erase k) + 1 = t.size := by
  have hlen := List.length_erase_add_one (AList.mem_keys.mp h)
  rw [← AList.keys_erase] at hlen
  simpa [size, AList.keys, List.keys] using hlen

theorem size_insert_of_mem {t : Table κ α} {k : κ} (v : α) (h : k ∈ t) :
    size (t.insert k v) = t.size := by
  have hlen := List.length_erase_add_one (AList.mem_keys.mp h)
  have hkeys : (t.insert k v).keys.length = t.keys.length := by
    rw [AList.keys_insert, List.length_cons]
    exact hlen
  simpa [size, AList.keys, List.keys] using hkeys

theorem size_insert_of_not_mem {t : Table κ α} {k : κ} (v : α) (h : k ∉ t) :
    size (t.insert k v) = t.size + 1 := by
  unfold size
  rw [AList.entries_insert_of_notMem h, List.length_cons]

/-- A new entry that passes the test is one more entry kept. -/
theorem size_keep_insert {p : κ → α → Bool} {t : Table κ α} {k : κ} {v : α} (h : k ∉ t)
    (hp : p k v = true) : size (keep p (t.insert k v)) = size (t.keep p) + 1 := by
  have hentries := AList.entries_insert_of_notMem (b := v) h
  change ((t.insert k v).entries.filter fun e => p e.1 e.2).length =
    (t.entries.filter fun e => p e.1 e.2).length + 1
  rw [hentries, List.filter_cons_of_pos (by simpa using hp), List.length_cons]

/-! ## Eviction -/

variable {τ : Type} [LinearOrder τ] (age : α → τ)

/-- Erases the first entry, in iteration order, of least age. -/
def evictOldest (t : Table κ α) : Table κ α :=
  match t.entries.argmin fun e => age e.2 with
  | none => t
  | some e => t.erase e.1

/-- `while size > cap: erase the oldest`, for at most `fuel` rounds. -/
def evictLoop (cap : Nat) : Nat → Table κ α → Table κ α
  | 0, t => t
  | fuel + 1, t => if cap < t.size then evictLoop cap fuel (evictOldest age t) else t

/-- The loop with enough rounds to reach the cap. -/
def evictTo (cap : Nat) (t : Table κ α) : Table κ α := evictLoop age cap t.size t

/-- What one round does to a table that is not empty. -/
theorem evictOldest_spec {t : Table κ α} (h : 0 < t.size) :
    ∃ k v, t.lookup k = some v ∧ evictOldest age t = t.erase k ∧
      ∀ k' v', t.lookup k' = some v' → age v ≤ age v' := by
  unfold evictOldest
  cases hm : t.entries.argmin fun e => age e.2 with
  | none =>
    rw [List.argmin_eq_none] at hm
    simp [size, hm] at h
  | some e =>
    refine ⟨e.1, e.2, AList.mem_lookup_iff.mpr (List.argmin_mem hm), rfl, ?_⟩
    intro k' v' hk'
    exact List.le_of_mem_argmin (f := fun e : Sigma fun _ : κ => α => age e.2)
      (AList.mem_lookup_iff.mp hk') hm

theorem size_evictOldest {t : Table κ α} (h : 0 < t.size) :
    size (evictOldest age t) + 1 = t.size := by
  obtain ⟨k, v, hk, he, _⟩ := evictOldest_spec age h
  rw [he]
  apply size_erase_of_mem
  rw [← AList.lookup_isSome, hk]
  rfl

theorem size_evictLoop {cap : Nat} : ∀ (fuel : Nat) (t : Table κ α), t.size ≤ cap + fuel →
    size (evictLoop age cap fuel t) = min cap t.size
  | 0, t, h => by
    simp only [evictLoop]
    omega
  | fuel + 1, t, h => by
    simp only [evictLoop]
    split
    · have hs := size_evictOldest age (t := t) (by omega)
      rw [size_evictLoop fuel _ (by omega)]
      omega
    · omega

/-- The loop stops at the cap, or at once when the table is within it. -/
theorem size_evictTo (cap : Nat) (t : Table κ α) :
    size (evictTo age cap t) = min cap t.size :=
  size_evictLoop age t.size t (by omega)

theorem lookup_evictOldest (t : Table κ α) (k : κ) :
    (evictOldest age t).lookup k = t.lookup k ∨ (evictOldest age t).lookup k = none := by
  unfold evictOldest
  split
  · exact .inl rfl
  · next e _ =>
    by_cases hk : k = e.1
    · subst hk
      exact .inr (AList.lookup_erase _ _)
    · exact .inl (AList.lookup_erase_ne hk)

theorem lookup_evictLoop (cap : Nat) (k : κ) : ∀ (fuel : Nat) (t : Table κ α),
    (evictLoop age cap fuel t).lookup k = t.lookup k ∨
      (evictLoop age cap fuel t).lookup k = none
  | 0, t => .inl rfl
  | fuel + 1, t => by
    simp only [evictLoop]
    split
    · rcases lookup_evictLoop cap k fuel (evictOldest age t) with h | h
      · rw [h]
        exact lookup_evictOldest age t k
      · exact .inr h
    · exact .inl rfl

/-- An entry keeps its value or is erased. -/
theorem lookup_evictTo (cap : Nat) (t : Table κ α) (k : κ) :
    (evictTo age cap t).lookup k = t.lookup k ∨ (evictTo age cap t).lookup k = none :=
  lookup_evictLoop age cap k t.size t

variable {age}

theorem evictTo_kept {cap : Nat} {t : Table κ α} {k : κ} {v : α}
    (h : (evictTo age cap t).lookup k = some v) : t.lookup k = some v := by
  rcases lookup_evictTo age cap t k with he | he
  · rw [← he]
    exact h
  · rw [he] at h
    cases h

theorem evictLoop_dropped {cap : Nat} {k : κ} {v : α} : ∀ (fuel : Nat) (t : Table κ α),
    t.lookup k = some v → (evictLoop age cap fuel t).lookup k = none →
    ∀ k' v', (evictLoop age cap fuel t).lookup k' = some v' → age v ≤ age v'
  | 0, t, hk, hn, _, _, _ => by
    simp only [evictLoop] at hn
    rw [hk] at hn
    cases hn
  | fuel + 1, t, hk, hn, k', v', hk' => by
    simp only [evictLoop] at hn hk'
    split at hn
    · next hsz =>
      rw [if_pos hsz] at hk'
      rcases lookup_evictOldest age t k with he | he
      · exact evictLoop_dropped fuel _ (he.trans hk) hn k' v' hk'
      · -- `k` is the entry this round erases, so it is no younger than any other
        obtain ⟨m, w, hm, hem, hmin⟩ := evictOldest_spec age (t := t) (by omega)
        have hkm : k = m := by
          by_contra hne
          rw [hem, AList.lookup_erase_ne hne, hk] at he
          cases he
        subst hkm
        have hwv : w = v := Option.some.inj (hm.symm.trans hk)
        subst hwv
        rcases lookup_evictLoop age cap k' fuel (evictOldest age t) with hl | hl
        · rcases lookup_evictOldest age t k' with h2 | h2
          · exact hmin k' v' (by rw [← h2, ← hl]; exact hk')
          · rw [hl, h2] at hk'
            cases hk'
        · rw [hl] at hk'
          cases hk'
    · rw [hk] at hn
      cases hn

/-- When the loop erases an entry, the table was over the cap, exactly `cap`
entries are left, and none of them is older than the erased one. -/
theorem evictTo_dropped {cap : Nat} {t : Table κ α} {k : κ} {v : α}
    (hk : t.lookup k = some v) (hn : (evictTo age cap t).lookup k = none) :
    size (evictTo age cap t) = cap ∧
      ∀ k' v', (evictTo age cap t).lookup k' = some v' → age v ≤ age v' := by
  refine ⟨?_, evictLoop_dropped t.size t hk hn⟩
  rw [size_evictTo]
  by_contra hlt
  have hle : t.size ≤ cap := by omega
  have hsame : evictTo age cap t = t := by
    unfold evictTo
    cases hs : t.size with
    | zero => rfl
    | succ n =>
      simp only [evictLoop]
      rw [if_neg (by omega)]
  rw [hsame, hk] at hn
  cases hn

end Lookup

end Table
