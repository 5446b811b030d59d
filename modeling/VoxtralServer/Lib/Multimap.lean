import VoxtralServer.Lib.Table

/-!
# Multimaps copied into maps

A hash multimap holds several values under one key. A loop visits its entries one
key after the other (`Grouped`), the keys and the values of a key in any order.
Copied into a map entry by entry, a key keeps the value that was visited last.

* `lookup_ofEntries`: what a key keeps is one of its values.
* `exists_grouped_last`: any one of the entries may be visited last.
-/

namespace Multimap

variable {ε κ α : Type}

/-! ## Orders -/

/-- The entries come one key after the other. -/
inductive Grouped (key : ε → κ) : List ε → Prop
  | nil : Grouped key []
  | group {es fs : List ε} {k : κ} : Grouped key es → (∀ e ∈ es, key e ≠ k) →
      (∀ f ∈ fs, key f = k) → Grouped key (es ++ fs)

variable [DecidableEq κ] {key : ε → κ}

/-- The entries of one key are moved behind the others. -/
theorem filter_append_perm (key : ε → κ) (k : κ) (es : List ε) :
    (es.filter (fun e => !decide (key e = k)) ++
      es.filter fun e => decide (key e = k)).Perm es := by
  refine List.perm_append_comm.trans ?_
  exact List.filter_append_perm (fun e => decide (key e = k)) es

/-- Every multimap has an iteration order. -/
theorem exists_grouped (key : ε → κ) (es : List ε) : ∃ gs, gs.Perm es ∧ Grouped key gs := by
  induction hn : es.length using Nat.strongRecOn generalizing es with
  | ind n ih =>
    cases es with
    | nil => exact ⟨[], .refl _, .nil⟩
    | cons e es =>
      -- the key of the first entry comes last
      let others := (e :: es).filter fun f => !decide (key f = key e)
      have hlt : others.length < n := by
        have hle := List.length_filter_le (fun f => !decide (key f = key e)) es
        simp only [others, ← hn, List.filter_cons, decide_true, Bool.not_true, Bool.false_eq_true,
          if_false, List.length_cons]
        omega
      obtain ⟨gs, hperm, hgrouped⟩ := ih _ hlt others rfl
      refine ⟨gs ++ (e :: es).filter fun f => decide (key f = key e), ?_, ?_⟩
      · exact (hperm.append_right _).trans (filter_append_perm key (key e) _)
      · refine hgrouped.group (k := key e) (fun f hf => ?_) fun f hf => ?_
        · have hmem := (List.mem_filter.mp (hperm.mem_iff.mp hf)).2
          simpa using hmem
        · simpa using (List.mem_filter.mp hf).2

/-- Any one of the entries may be visited last. -/
theorem exists_grouped_last [DecidableEq ε] {e : ε} {es : List ε} (he : e ∈ es) :
    ∃ gs, (gs ++ [e]).Perm es ∧ Grouped key (gs ++ [e]) := by
  obtain ⟨gs, hperm, hgrouped⟩ :=
    exists_grouped key (es.filter fun f => !decide (key f = key e))
  let same := es.filter fun f => decide (key f = key e)
  have hsame : e ∈ same := by simp [same, he]
  have hmove : (same.erase e ++ [e]).Perm same :=
    List.perm_append_comm.trans (List.perm_cons_erase hsame).symm
  refine ⟨gs ++ same.erase e, ?_, ?_⟩
  · rw [List.append_assoc]
    exact (hperm.append hmove).trans (filter_append_perm key (key e) es)
  · rw [List.append_assoc]
    refine hgrouped.group (k := key e) (fun f hf => ?_) fun f hf => ?_
    · simpa using (List.mem_filter.mp (hperm.mem_iff.mp hf)).2
    · simpa using (List.mem_filter.mp (hmove.mem_iff.mp hf)).2

/-! ## Copies -/

/-- The map that a loop over the entries fills. -/
def ofEntries (es : List (κ × α)) : Table κ α := es.foldl (fun t e => t.insert e.1 e.2) ∅

theorem ofEntries_concat (es : List (κ × α)) (e : κ × α) :
    ofEntries (es ++ [e]) = (ofEntries es).insert e.1 e.2 := by
  rw [ofEntries, List.foldl_append]
  rfl

/-- A key keeps one of its values, if it has any. -/
theorem lookup_ofEntries (es : List (κ × α)) (k : κ) :
    ((ofEntries es).lookup k = none ∧ ∀ e ∈ es, e.1 ≠ k) ∨
    ∃ v, (ofEntries es).lookup k = some v ∧ (k, v) ∈ es := by
  induction es using List.reverseRecOn with
  | nil => exact .inl ⟨rfl, by simp⟩
  | append_singleton es e ih =>
    rw [ofEntries_concat]
    by_cases hk : e.1 = k
    · subst hk
      exact .inr ⟨e.2, AList.lookup_insert _, by simp⟩
    · rw [AList.lookup_insert_ne (Ne.symm hk)]
      rcases ih with ⟨hnone, hother⟩ | ⟨v, hv, hmem⟩
      · refine .inl ⟨hnone, fun f hf => ?_⟩
        rcases List.mem_append.mp hf with hf | hf
        · exact hother f hf
        · rwa [List.mem_singleton.mp hf]
      · exact .inr ⟨v, hv, List.mem_append_left _ hmem⟩

end Multimap
