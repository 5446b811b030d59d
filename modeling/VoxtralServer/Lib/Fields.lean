import Mathlib.Data.List.DropRight

/-!
# Fields of a delimited list

Searching from the right for a delimiter, cutting fields off the right end, and
how both relate to `List.splitOn`.

* `splitOn_of_rfind`: the last delimiter separates the last field from the rest.
* `cutFields_spec`: cutting `n` fields off leaves the others, and fails exactly
  when there is none left.
* `trim_spec`: trimming strips a longest blank prefix and suffix.
* `infix_append_cons`: a text without a delimiter occurs on one side of it.
-/

namespace Fields

variable {α : Type} [DecidableEq α]

/-! ## The last delimiter -/

/-- The position of the last `c` in the list. -/
def rfind (c : α) : List α → Option Nat
  | [] => none
  | x :: xs =>
    match rfind c xs with
    | some i => some (i + 1)
    | none => if x = c then some 0 else none

theorem rfind_eq_none {c : α} : ∀ {s : List α}, rfind c s = none ↔ c ∉ s
  | [] => by simp [rfind]
  | x :: xs => by
    have ih := rfind_eq_none (c := c) (s := xs)
    simp only [rfind]
    cases h : rfind c xs with
    | some i =>
      rw [h] at ih
      simp_all
    | none =>
      rw [h] at ih
      by_cases hx : x = c
      · simp [hx]
      · simp [hx, Ne.symm hx, ih.mp rfl]

/-- The list falls apart at the last `c`, and none follows it. -/
theorem rfind_eq_some {c : α} : ∀ {s : List α} {i : Nat}, rfind c s = some i →
    s = s.take i ++ c :: s.drop (i + 1) ∧ c ∉ s.drop (i + 1)
  | [], i, h => by simp [rfind] at h
  | x :: xs, i, h => by
    simp only [rfind] at h
    cases hr : rfind c xs with
    | some j =>
      rw [hr] at h
      cases h
      obtain ⟨hs, hn⟩ := rfind_eq_some hr
      refine ⟨?_, by simpa using hn⟩
      simp only [List.take_succ_cons, List.drop_succ_cons, List.cons_append]
      exact congrArg (x :: ·) hs
    | none =>
      rw [hr] at h
      dsimp only at h
      split at h
      · next hx =>
        cases h
        exact ⟨by simp [hx], by simpa using rfind_eq_none.mp hr⟩
      · cases h

theorem splitOn_of_rfind {c : α} {s : List α} {i : Nat} (h : rfind c s = some i) :
    s.splitOn c = (s.take i).splitOn c ++ [s.drop (i + 1)] := by
  obtain ⟨hs, hn⟩ := rfind_eq_some h
  have happ := List.splitOn_append_cons_self (a := c) (s.take i) (s.drop (i + 1))
  rw [← hs, List.splitOn_eq_singleton hn] at happ
  exact happ

/-- The list after the last `c`, or the whole list. -/
def lastField (c : α) (s : List α) : List α :=
  match rfind c s with
  | some pos => s.drop (pos + 1)
  | none => s

theorem getLast?_splitOn (c : α) (s : List α) : (s.splitOn c).getLast? = some (lastField c s) := by
  unfold lastField
  cases h : rfind c s with
  | some i => simp [splitOn_of_rfind h]
  | none => simp [List.splitOn_eq_singleton (rfind_eq_none.mp h)]

/-! ## Cutting fields off the right end -/

/-- Cuts at the last `c`, `n` times. -/
def cutFields (c : α) : Nat → List α → Option (List α)
  | 0, s => some s
  | n + 1, s =>
    match rfind c s with
    | none => none
    | some pos => cutFields c n (s.take pos)

/-- Cutting `n` fields off leaves the fields before them. -/
theorem cutFields_eq_some {c : α} : ∀ {n : Nat} {s r : List α}, cutFields c n s = some r →
    (r.splitOn c).reverse = (s.splitOn c).reverse.drop n
  | 0, s, r, h => by
    cases h
    simp
  | n + 1, s, r, h => by
    simp only [cutFields] at h
    cases hr : rfind c s with
    | none =>
      rw [hr] at h
      cases h
    | some pos =>
      rw [hr] at h
      rw [cutFields_eq_some h, splitOn_of_rfind hr]
      simp

/-- It fails when there are no more than `n` fields. -/
theorem cutFields_eq_none {c : α} : ∀ {n : Nat} {s : List α}, cutFields c n s = none →
    (s.splitOn c).length ≤ n
  | 0, s, h => by cases h
  | n + 1, s, h => by
    simp only [cutFields] at h
    cases hr : rfind c s with
    | none => simp [List.splitOn_eq_singleton (rfind_eq_none.mp hr)]
    | some pos =>
      rw [hr] at h
      have ih := cutFields_eq_none h
      rw [splitOn_of_rfind hr, List.length_append, List.length_singleton]
      omega

/-- Cutting `n` fields off and taking the last one that is left reads the field
with `n` fields to its right. -/
theorem cutFields_spec (c : α) (n : Nat) (s : List α) :
    (cutFields c n s).map (lastField c) = (s.splitOn c).reverse[n]? := by
  cases h : cutFields c n s with
  | none =>
    have hlen := cutFields_eq_none h
    rw [List.getElem?_eq_none (by simpa using hlen)]
    rfl
  | some r =>
    have hrev := cutFields_eq_some h
    have hlast := getLast?_splitOn c r
    rw [← List.head?_reverse, hrev, List.head?_drop] at hlast
    rw [hlast]
    rfl

/-! ## Appended fields -/

/-- Appending a delimiter and a list without one appends a field. -/
theorem splitOn_append_field {c : α} {f : List α} (s : List α) (hf : c ∉ f) :
    (s ++ c :: f).splitOn c = s.splitOn c ++ [f] := by
  rw [List.splitOn_append_cons_self, List.splitOn_eq_singleton hf]

/-! ## Trimming -/

/-- Strips elements that pass the test from both ends. -/
def trim (p : α → Bool) (s : List α) : List α := (s.dropWhile p).rdropWhile p

omit [DecidableEq α] in
theorem dropWhile_head {p : α → Bool} {s : List α} {x : α}
    (h : (s.dropWhile p).head? = some x) : p x = false := by
  have hnot := List.head?_dropWhile_not p s
  rw [h] at hnot
  exact hnot

omit [DecidableEq α] in
/-- The trimmed list is what is left between a prefix and a suffix of blanks,
and neither of its ends is blank. -/
theorem trim_spec (p : α → Bool) (s : List α) :
    (∃ l r, s = l ++ trim p s ++ r ∧ (∀ x ∈ l, p x = true) ∧ ∀ x ∈ r, p x = true) ∧
    (∀ x, (trim p s).head? = some x → p x = false) ∧
    ∀ x, (trim p s).getLast? = some x → p x = false := by
  refine ⟨⟨s.takeWhile p, (s.dropWhile p).rtakeWhile p, ?_, ?_, ?_⟩, ?_, ?_⟩
  · rw [trim, List.append_assoc, List.rdropWhile_append_rtakeWhile, List.takeWhile_append_dropWhile]
  · intro x hx
    exact List.mem_takeWhile_imp hx
  · intro x hx
    exact List.mem_rtakeWhile_imp hx
  · intro x hx
    -- the right trim leaves a prefix, so the head is the one the left trim stopped at
    obtain ⟨r, hr⟩ := List.rdropWhile_prefix p (l := s.dropWhile p)
    apply dropWhile_head (s := s)
    rw [← hr, List.head?_append]
    rw [trim] at hx
    rw [hx]
    rfl
  · intro x hx
    rw [List.getLast?_eq_some_iff] at hx
    obtain ⟨ys, hys⟩ := hx
    have hne : (s.dropWhile p).rdropWhile p ≠ [] := by
      rw [trim] at hys
      simp [hys]
    have hlast := List.rdropWhile_last_not p _ hne
    simp only [trim] at hys
    simpa [hys] using hlast

omit [DecidableEq α] in
/-- A list whose ends are not blank is trimmed to itself. -/
theorem trim_eq_self {p : α → Bool} {s : List α} (hh : ∀ x, s.head? = some x → p x = false)
    (hl : ∀ x, s.getLast? = some x → p x = false) : trim p s = s := by
  have hd : s.dropWhile p = s := by
    cases s with
    | nil => rfl
    | cons x xs => simp [hh x rfl]
  rw [trim, hd, List.rdropWhile_eq_self_iff]
  intro hne
  simp [hl _ (List.getLast?_eq_some_getLast hne)]

omit [DecidableEq α] in
/-- Trimming finds a list without blanks between blanks. -/
theorem trim_append {p : α → Bool} {l s r : List α} (hl : ∀ x ∈ l, p x = true)
    (hs : ∀ x ∈ s, p x = false) (hr : ∀ x ∈ r, p x = true) : trim p (l ++ s ++ r) = s := by
  have hleft : trim p (l ++ s ++ r) = trim p (s ++ r) := by
    rw [trim, List.append_assoc, List.dropWhile_append_of_pos hl, trim]
  have hright : (s ++ r).rdropWhile p = s.rdropWhile p := by
    rw [List.rdropWhile, List.reverse_append,
      List.dropWhile_append_of_pos fun x hx => hr x (List.mem_reverse.mp hx), List.rdropWhile]
  rw [hleft]
  cases s with
  | nil =>
    rw [List.nil_append, trim, List.dropWhile_eq_nil_iff.mpr hr]
    rfl
  | cons x xs =>
    have hx : p x = false := hs x List.mem_cons_self
    have hstop : ((x :: xs) ++ r).dropWhile p = (x :: xs) ++ r := by simp [hx]
    rw [trim, hstop, hright, List.rdropWhile_eq_self_iff]
    intro hne
    simp [hs _ (List.getLast_mem hne)]

/-! ## Searching for a text -/

omit [DecidableEq α] in
/-- A text without the delimiter occurs before it or after it. -/
theorem infix_append_cons {p a b : List α} {c : α} (hc : c ∉ p) :
    p <:+: a ++ c :: b ↔ p <:+: a ∨ p <:+: b := by
  constructor
  · rintro ⟨l, r, h⟩
    rcases List.append_eq_append_iff.mp h with ⟨as, ha, -⟩ | ⟨bs, hlp, hb⟩
    · exact .inl ⟨l, as, ha.symm⟩
    cases bs with
    | nil => exact .inl ⟨l, [], by simpa using hlp⟩
    | cons x bs =>
      obtain ⟨rfl, rfl⟩ := List.cons_eq_cons.mp hb
      -- the text ends after the delimiter, so it starts after it
      rcases List.append_eq_append_iff.mp hlp with ⟨as, -, hp⟩ | ⟨cs, -, hbs⟩
      · exact absurd (hp ▸ by simp) hc
      cases cs with
      | nil => exact absurd (by simp [← show c :: bs = p from hbs]) hc
      | cons y cs =>
        obtain ⟨-, rfl⟩ := List.cons_eq_cons.mp hbs
        exact .inr ⟨cs, r, rfl⟩
  · rintro (ha | hb)
    · exact List.infix_append_of_infix_left ha
    · exact List.infix_append_of_infix_right (List.infix_cons hb)

omit [DecidableEq α] in
/-- Nothing that the text is made of is found in the rest. -/
theorem infix_append_disjoint {p r : List α} (hr : ∀ x ∈ r, x ∉ p) (a : List α) :
    p <:+: a ++ r ↔ p <:+: a := by
  induction r generalizing a with
  | nil => rw [List.append_nil]
  | cons c r ih =>
    obtain ⟨hc, hr⟩ := List.forall_mem_cons.mp hr
    have hrest : p <:+: r ↔ p <:+: [] := ih hr []
    rw [infix_append_cons hc, hrest, List.infix_nil]
    constructor
    · rintro (ha | rfl)
      · exact ha
      · exact List.nil_infix
    · exact .inl

omit [DecidableEq α] in
/-- A text without blanks is found in a list exactly when it is in the trimmed one. -/
theorem infix_trim {blank : α → Bool} {p : List α} (hp : ∀ x ∈ p, blank x = false)
    (s : List α) : p <:+: trim blank s ↔ p <:+: s := by
  have hout {q : List α} (hq : ∀ x ∈ q, blank x = true) (x : α) (hx : x ∈ q) : x ∉ p := by
    intro hxp
    simpa [hq x hx] using hp x hxp
  obtain ⟨⟨l, r, hs, hl, hr⟩, -⟩ := trim_spec blank s
  have hleft : p <:+: l ++ trim blank s ↔ p <:+: trim blank s := by
    rw [← List.reverse_infix, List.reverse_append,
      infix_append_disjoint (by simpa using hout hl), List.reverse_infix]
  conv_rhs => rw [hs]
  rw [infix_append_disjoint (hout hr), hleft]

end Fields
