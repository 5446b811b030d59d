import Mathlib.Data.List.Basic

/-!
# Logs in blocks

A log of events, each of one item. It is in blocks for a list of items when it
is the events of the first item, then those of the second one, and so on: no
two items overlap.

* `Blocks.start`, `Blocks.extend`: the events that keep a log in blocks.
* `Blocks.sublist`: when no item has two marked events, the marked events come
  in the order of the items.
-/

variable {ι ε : Type} [DecidableEq ι]

/-- The events of one item. -/
def eventsOf (log : List (ι × ε)) (i : ι) : List (ι × ε) := log.filter fun e => decide (e.1 = i)

/-- The events of each item are consecutive, and the items come in order. -/
def Blocks (log : List (ι × ε)) (items : List ι) : Prop := log = items.flatMap (eventsOf log)

variable {log : List (ι × ε)} {items : List ι} {i j : ι} {e : ε}

theorem eventsOf_append_self : eventsOf (log ++ [(i, e)]) i = eventsOf log i ++ [(i, e)] := by
  simp [eventsOf]

theorem eventsOf_append_ne (h : j ≠ i) : eventsOf (log ++ [(i, e)]) j = eventsOf log j := by
  simp [eventsOf, Ne.symm h]

theorem flatMap_eventsOf_append (hi : i ∉ items) :
    items.flatMap (eventsOf (log ++ [(i, e)])) = items.flatMap (eventsOf log) := by
  apply List.flatMap_congr
  intro j hj
  exact eventsOf_append_ne fun heq => hi (heq ▸ hj)

namespace Blocks

/-- Every event is one of an item of the list. -/
theorem item_mem (h : Blocks log items) {e : ι × ε} (he : e ∈ log) : e.1 ∈ items := by
  rw [h, List.mem_flatMap] at he
  obtain ⟨j, hj, he⟩ := he
  have heq : e.1 = j := by simpa using (List.mem_filter.mp he).2
  exact heq ▸ hj

/-- One more event of the last item. -/
theorem extend (h : Blocks log (items ++ [i])) (hi : i ∉ items) (e : ε) :
    Blocks (log ++ [(i, e)]) (items ++ [i]) := by
  unfold Blocks at h ⊢
  rw [List.flatMap_append, flatMap_eventsOf_append hi, List.flatMap_singleton,
    eventsOf_append_self, ← List.append_assoc]
  rw [List.flatMap_append, List.flatMap_singleton] at h
  exact congrArg (· ++ [(i, e)]) h

/-- The first event of a new item. -/
theorem start (h : Blocks log items) (hi : i ∉ items) (e : ε) :
    Blocks (log ++ [(i, e)]) (items ++ [i]) := by
  refine extend ?_ hi e
  have hnone : eventsOf log i = [] := by
    rw [eventsOf, List.filter_eq_nil_iff]
    intro x hx
    have := h.item_mem hx
    simp only [decide_eq_true_eq]
    rintro rfl
    exact hi this
  unfold Blocks at h ⊢
  rw [List.flatMap_append, List.flatMap_singleton, hnone, List.append_nil]
  exact h

theorem marked_sublist {mark : ι × ε → Bool} (hone : (eventsOf log i).countP mark ≤ 1) :
    (((eventsOf log i).filter mark).map Prod.fst).Sublist [i] := by
  have hall : ∀ e ∈ (eventsOf log i).filter mark, e.1 = i := by
    intro e he
    simpa using (List.mem_filter.mp (List.mem_filter.mp he).1).2
  rw [List.countP_eq_length_filter] at hone
  match hl : (eventsOf log i).filter mark with
  | [] => exact List.nil_sublist _
  | [e] => rw [List.map_singleton, hall e (by simp [hl])]
  | _ :: _ :: _ => simp [hl] at hone

/-- When no item has two marked events, the items of the marked events come in
order. -/
theorem sublist {mark : ι × ε → Bool} (h : Blocks log items)
    (hone : ∀ i ∈ items, (eventsOf log i).countP mark ≤ 1) :
    ((log.filter mark).map Prod.fst).Sublist items := by
  have hblocks : (log.filter mark).map Prod.fst =
      items.flatMap fun i => ((eventsOf log i).filter mark).map Prod.fst := by
    conv_lhs => rw [h]
    rw [List.filter_flatMap, List.map_flatMap]
  rw [hblocks]
  clear hblocks h
  induction items with
  | nil => exact List.Sublist.slnil
  | cons i items ih =>
    rw [List.flatMap_cons]
    have hhead := marked_sublist (hone i List.mem_cons_self)
    exact hhead.append (ih fun j hj => hone j (List.mem_cons_of_mem _ hj))

end Blocks
