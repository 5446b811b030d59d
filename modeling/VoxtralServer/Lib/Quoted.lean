import Mathlib.Data.List.Basic

/-!
# Quoted strings

A string between two quotes, in which each element is written in a way that can be
read back, and none of them reads like a quote. One such way is a table of escapes.

* `Quoting.unquote_quoted`: a quoted string is read back, and what follows it is left.
* `Escapes.quoting`: the quoting that a table of escapes gives.
* `Escapes.not_mem_quoted`: elements that no quoted string holds.
-/

/-- How the elements of a quoted string are written and read. -/
structure Quoting (α : Type) where
  quote : α
  write : α → List α
  read : List α → Option (α × List α)
  read_write : ∀ c rest, read (write c ++ rest) = some (c, rest)
  read_quote : ∀ rest, read (quote :: rest) = none

namespace Quoting

variable {α : Type} {q : Quoting α}

/-- The string between quotes. -/
def quoted (q : Quoting α) (s : List α) : List α := q.quote :: s.flatMap q.write ++ [q.quote]

/-- An element is written as something, since otherwise it would be read in front of
a quote. -/
theorem write_ne_nil (c : α) : q.write c ≠ [] := by
  intro hnil
  have hread := q.read_write c [q.quote]
  rw [hnil, List.nil_append, q.read_quote] at hread
  cases hread

theorem length_le_write (s : List α) : s.length ≤ (s.flatMap q.write).length := by
  induction s with
  | nil => exact Nat.le_refl 0
  | cons c s ih =>
    have hpos := List.length_pos_iff.mpr (write_ne_nil (q := q) c)
    rw [List.flatMap_cons, List.length_append, List.length_cons]
    omega

theorem length_quoted (s : List α) : s.length + 2 ≤ (q.quoted s).length := by
  have hlen := length_le_write (q := q) s
  simp only [quoted, List.cons_append, List.length_cons, List.length_append, List.length_nil]
  omega

theorem mem_quoted {c : α} {s : List α} (h : c ∈ q.quoted s) :
    c = q.quote ∨ ∃ d ∈ s, c ∈ q.write d := by
  simp only [quoted, List.cons_append, List.mem_cons, List.mem_append, List.mem_flatMap,
    List.not_mem_nil, or_false] at h
  rcases h with h | h | h
  · exact .inl h
  · exact .inr h
  · exact .inl h

/-! ## Reading -/

variable [DecidableEq α]

/-- Reads up to the next quote. Each element takes one unit of fuel. -/
def readString (q : Quoting α) : Nat → List α → Option (List α × List α)
  | 0, _ => none
  | fuel + 1, input =>
    match q.read input with
    | some (c, rest) => (readString q fuel rest).map fun (s, rest) => (c :: s, rest)
    | none => if input.head? = some q.quote then some ([], input.tail) else none

/-- Takes a quoted string off the front. -/
def unquote (q : Quoting α) (input : List α) : Option (List α × List α) :=
  if input.head? = some q.quote then q.readString input.length input.tail else none

theorem readString_write (s rest : List α) {fuel : Nat} (hfuel : s.length < fuel) :
    q.readString fuel (s.flatMap q.write ++ q.quote :: rest) = some (s, rest) := by
  induction s generalizing fuel with
  | nil =>
    obtain ⟨fuel, rfl⟩ := Nat.exists_eq_succ_of_ne_zero (Nat.ne_zero_of_lt hfuel)
    simp [readString, q.read_quote]
  | cons c s ih =>
    obtain ⟨fuel, rfl⟩ := Nat.exists_eq_succ_of_ne_zero (Nat.ne_zero_of_lt hfuel)
    rw [List.length_cons] at hfuel
    rw [List.flatMap_cons, List.append_assoc]
    simp only [readString, q.read_write, ih (Nat.lt_of_succ_lt_succ hfuel), Option.map_some]

theorem unquote_quoted (s rest : List α) : q.unquote (q.quoted s ++ rest) = some (s, rest) := by
  have hsplit : q.quoted s ++ rest = q.quote :: (s.flatMap q.write ++ q.quote :: rest) := by
    simp [quoted]
  have hlen := length_quoted (q := q) s
  have hfuel : s.length < (q.quoted s ++ rest).length := by
    rw [List.length_append]
    omega
  rw [unquote, hsplit, List.head?_cons, if_pos rfl, List.tail_cons, ← hsplit]
  exact readString_write s rest hfuel

end Quoting

/-! ## Tables of escapes -/

/-- The elements that are escaped, each with what stands for it after the mark. The
first entry of an element is the one that is written. -/
structure Escapes (α : Type) [DecidableEq α] where
  quote : α
  mark : α
  entries : List (α × List α)
  quote_escaped : (entries.lookup quote).isSome = true
  mark_escaped : (entries.lookup mark).isSome = true
  quote_ne_mark : quote ≠ mark
  prefixFree : ∀ e ∈ entries, ∀ f ∈ entries, f.2 <+: e.2 → f = e

namespace Escapes

variable {α : Type} [DecidableEq α] (t : Escapes α)

def write (c : α) : List α := (t.entries.lookup c).elim [c] (t.mark :: ·)

def read : List α → Option (α × List α)
  | [] => none
  | c :: rest =>
    if c = t.mark then
      (t.entries.find? fun e => e.2.isPrefixOf rest).map fun e => (e.1, rest.drop e.2.length)
    else if (t.entries.lookup c).isSome then none
    else some (c, rest)

variable {t}

/-- An entry is found by its text, since no other text is in front of it or begins
with it. -/
theorem find_entry {e : α × List α} (he : e ∈ t.entries) (rest : List α) :
    (t.entries.find? fun f => f.2.isPrefixOf (e.2 ++ rest)) = some e := by
  cases hfound : t.entries.find? fun f => f.2.isPrefixOf (e.2 ++ rest) with
  | none =>
    have hno := List.find?_eq_none.mp hfound e he
    simp at hno
  | some f =>
    have hprefix := List.find?_some hfound
    have hf := List.mem_of_find?_eq_some hfound
    rw [List.isPrefixOf_iff_prefix] at hprefix
    rcases List.prefix_or_prefix_of_prefix hprefix (List.prefix_append e.2 rest) with h | h
    · rw [t.prefixFree e he f hf h]
    · rw [t.prefixFree f hf e he h]

theorem read_write (c : α) (rest : List α) : t.read (t.write c ++ rest) = some (c, rest) := by
  unfold write
  cases hc : t.entries.lookup c with
  | none =>
    have hmark : c ≠ t.mark := by
      rintro rfl
      exact absurd t.mark_escaped (by simp [hc])
    simp [read, hmark, hc]
  | some text =>
    have hmem : (c, text) ∈ t.entries := by
      obtain ⟨l, r, hsplit, _⟩ := List.lookup_eq_some_iff.mp hc
      exact hsplit ▸ List.mem_append_right l List.mem_cons_self
    have hfind := find_entry hmem rest
    simp only [Option.elim_some, List.cons_append, read, if_true]
    rw [hfind, Option.map_some, List.drop_left]

variable (t)

/-- Quoting with this table. -/
def quoting : Quoting α where
  quote := t.quote
  write := t.write
  read := t.read
  read_write := read_write
  read_quote rest := by simp [read, t.quote_ne_mark, t.quote_escaped]

variable {t}

/-- An element that is escaped, and that no escape holds. -/
theorem not_mem_quoted {c : α} (hescaped : (t.entries.lookup c).isSome = true)
    (hquote : c ≠ t.quote) (hmark : c ≠ t.mark) (htexts : ∀ e ∈ t.entries, c ∉ e.2)
    (s : List α) : c ∉ t.quoting.quoted s := by
  intro hmem
  rcases Quoting.mem_quoted hmem with rfl | ⟨d, _, hd⟩
  · exact hquote rfl
  · change c ∈ t.write d at hd
    unfold write at hd
    cases hlookup : t.entries.lookup d with
    | none =>
      rw [hlookup, Option.elim_none, List.mem_singleton] at hd
      rw [hd, hlookup] at hescaped
      cases hescaped
    | some text =>
      obtain ⟨l, r, hsplit, _⟩ := List.lookup_eq_some_iff.mp hlookup
      have hentry : (d, text) ∈ t.entries := hsplit ▸ List.mem_append_right l List.mem_cons_self
      rw [hlookup, Option.elim_some, List.mem_cons] at hd
      exact hd.elim hmark (htexts _ hentry)

end Escapes
