import Mathlib.Data.List.Basic
import Mathlib.Tactic.Ring

/-!
# Buffers and the numbers in them

A buffer is written through checked writes, `none` out of its bounds. A number
stands in it as its bytes, the least significant one first, and a signed one in
two's complement.

* `writeAll_append`: writes replace what stands where they go, and nothing else.
* `ofBytes_toBytes`, `signed_toBytes`: numbers are read as they were written.
* `split_flatten`: so are the parts of one width that a buffer consists of.
-/

namespace Bytes

/-! ## Writes -/

section Buffers

variable {α : Type}

/-- A write at an index, `none` out of bounds. -/
def write (buf : List α) (i : Nat) (x : α) : Option (List α) :=
  if i < buf.length then some (buf.set i x) else none

/-- Writes from an index on. -/
def writeAll (buf : List α) (i : Nat) : List α → Option (List α)
  | [] => some buf
  | x :: xs => do
    let buf ← write buf i x
    writeAll buf (i + 1) xs

/-- Writes of some pieces, one behind the other. -/
def writePieces (buf : List α) (i : Nat) : List (List α) → Option (List α)
  | [] => some buf
  | xs :: pieces => do
    let buf ← writeAll buf i xs
    writePieces buf (i + xs.length) pieces

/-- The buffer cut to a length, or filled up to it. -/
def resize (buf : List α) (n : Nat) (x : α) : List α :=
  buf.take n ++ List.replicate (n - buf.length) x

theorem write_append (l r : List α) (old x : α) :
    write (l ++ old :: r) l.length x = some (l ++ x :: r) := by
  unfold write
  rw [if_pos (by simp), List.set_append_right _ _ (Nat.le_refl _), Nat.sub_self, List.set_cons_zero]

theorem write_none {buf : List α} {i : Nat} (h : buf.length ≤ i) (x : α) : write buf i x = none :=
  if_neg (Nat.not_lt.mpr h)

/-- Writes replace what stands where they go. -/
theorem writeAll_append (r : List α) {xs old : List α} (h : old.length = xs.length) :
    ∀ l, writeAll (l ++ old ++ r) l.length xs = some (l ++ xs ++ r) := by
  induction xs generalizing old with
  | nil =>
    intro l
    rw [List.eq_nil_of_length_eq_zero h]
    rfl
  | cons x xs ih =>
    intro l
    obtain ⟨y, old, rfl⟩ := List.exists_cons_of_length_eq_add_one h
    have hrest := ih (Nat.succ.inj h) (l ++ [x])
    rw [List.length_append, List.length_singleton] at hrest
    have hwrite : write (l ++ (y :: old) ++ r) l.length x = some (l ++ [x] ++ old ++ r) := by
      rw [List.append_assoc, List.cons_append, write_append]
      simp
    rw [writeAll, hwrite]
    refine hrest.trans ?_
    simp

/-- The pieces stand one behind the other. -/
theorem writePieces_append {pieces : List (List α)} :
    ∀ {l old : List α}, old.length = pieces.flatten.length →
      writePieces (l ++ old) l.length pieces = some (l ++ pieces.flatten) := by
  induction pieces with
  | nil =>
    intro l old h
    rw [List.eq_nil_of_length_eq_zero h]
    rfl
  | cons xs pieces ih =>
    intro l old h
    rw [List.flatten_cons, List.length_append] at h
    have htake : (old.take xs.length).length = xs.length := List.length_take_of_le (by omega)
    have hwrite := writeAll_append (old.drop xs.length) htake l
    rw [List.append_assoc, List.take_append_drop] at hwrite
    have hdrop : (old.drop xs.length).length = pieces.flatten.length := by
      rw [List.length_drop]
      omega
    have hrest := ih (l := l ++ xs) hdrop
    rw [List.length_append] at hrest
    rw [writePieces, hwrite]
    refine hrest.trans ?_
    rw [List.flatten_cons, List.append_assoc]

/-- Pieces that fill a buffer. -/
theorem writePieces_replicate {pieces : List (List α)} {n : Nat} (h : n = pieces.flatten.length)
    (x : α) : writePieces (List.replicate n x) 0 pieces = some pieces.flatten := by
  have hfill : writePieces ([] ++ List.replicate n x) ([] : List α).length pieces =
      some ([] ++ pieces.flatten) :=
    writePieces_append (by rw [List.length_replicate, h])
  simpa only [List.nil_append, List.length_nil] using hfill

theorem length_resize (buf : List α) (n : Nat) (x : α) : (resize buf n x).length = n := by
  rw [resize, List.length_append, List.length_take, List.length_replicate]
  omega

theorem resize_add (buf : List α) (n : Nat) (x : α) :
    resize buf (buf.length + n) x = buf ++ List.replicate n x := by
  rw [resize, List.take_of_length_le (by omega), Nat.add_sub_cancel_left]

end Buffers

/-! ## Numbers -/

/-- The lowest bytes of a number. -/
def toBytes : Nat → Nat → List UInt8
  | 0, _ => []
  | w + 1, n => UInt8.ofNat n :: toBytes w (n / 256)

/-- The number of some bytes. -/
def ofBytes : List UInt8 → Nat
  | [] => 0
  | b :: bs => b.toNat + 256 * ofBytes bs

/-- Some bytes of a buffer. -/
def bytesAt (buf : List UInt8) (i w : Nat) : List UInt8 := (buf.drop i).take w

/-- A number in a buffer. -/
def numberAt (buf : List UInt8) (i w : Nat) : Nat := ofBytes (bytesAt buf i w)

/-- The number that some bytes are in two's complement. -/
def signed (bs : List UInt8) : Int := (ofBytes bs : Int).bmod (256 ^ bs.length)

@[simp] theorem length_toBytes (w n : Nat) : (toBytes w n).length = w := by
  induction w generalizing n with
  | zero => rfl
  | succ w ih => rw [toBytes, List.length_cons, ih]

theorem ofBytes_toBytes (w n : Nat) : ofBytes (toBytes w n) = n % 256 ^ w := by
  induction w generalizing n with
  | zero => rw [toBytes, ofBytes, Nat.pow_zero, Nat.mod_one]
  | succ w ih =>
    have hlow : (UInt8.ofNat n).toNat = n % 256 := UInt8.toNat_ofNat'
    rw [toBytes, ofBytes, ih, hlow, Nat.pow_succ', Nat.mod_mul]

theorem ofBytes_toBytes_of_lt {w n : Nat} (h : n < 256 ^ w) : ofBytes (toBytes w n) = n := by
  rw [ofBytes_toBytes, Nat.mod_eq_of_lt h]

theorem bytesAt_skip {l : List UInt8} {i : Nat} (h : l.length ≤ i) (r : List UInt8) (w : Nat) :
    bytesAt (l ++ r) i w = bytesAt r (i - l.length) w := by
  rw [bytesAt, bytesAt, List.drop_append, List.drop_of_length_le h, List.nil_append]

theorem bytesAt_zero {bs : List UInt8} {w : Nat} (h : bs.length = w) (r : List UInt8) :
    bytesAt (bs ++ r) 0 w = bs := by
  rw [bytesAt, List.drop_zero, List.take_left' h]

/-- The bytes that stand behind others. -/
theorem bytesAt_append {l bs : List UInt8} {i w : Nat} (hl : l.length = i) (hbs : bs.length = w)
    (r : List UInt8) : bytesAt (l ++ (bs ++ r)) i w = bs := by
  rw [bytesAt_skip hl.le, hl, Nat.sub_self, bytesAt_zero hbs]

theorem numberAt_skip {l : List UInt8} {i : Nat} (h : l.length ≤ i) (r : List UInt8) (w : Nat) :
    numberAt (l ++ r) i w = numberAt r (i - l.length) w :=
  congrArg ofBytes (bytesAt_skip h r w)

theorem numberAt_zero {w n : Nat} (h : n < 256 ^ w) (r : List UInt8) :
    numberAt (toBytes w n ++ r) 0 w = n := by
  rw [numberAt, bytesAt_zero (length_toBytes w n), ofBytes_toBytes_of_lt h]

theorem ofBytes_lt (bs : List UInt8) : ofBytes bs < 256 ^ bs.length := by
  induction bs with
  | nil => exact Nat.one_pos
  | cons b bs ih =>
    have hb : b.toNat < 256 := b.toNat_lt
    rw [ofBytes, List.length_cons, Nat.pow_succ]
    omega

theorem numberAt_lt (buf : List UInt8) (i w : Nat) : numberAt buf i w < 256 ^ w := by
  refine (ofBytes_lt _).trans_le (Nat.pow_le_pow_right (by decide) ?_)
  rw [bytesAt, List.length_take]
  exact Nat.min_le_left ..

/-- The bytes of a number, read in two's complement. -/
theorem signed_toBytes {w n : Nat} (h : n < 256 ^ w) :
    signed (toBytes w n) = (n : Int).bmod (256 ^ w) := by
  rw [signed, length_toBytes, ofBytes_toBytes_of_lt h]

/-! ## Parts of one width -/

/-- The first parts of a width. -/
def split (w : Nat) : Nat → List UInt8 → List (List UInt8)
  | 0, _ => []
  | k + 1, bs => bs.take w :: split w k (bs.drop w)

theorem split_flatten {w : Nat} {parts : List (List UInt8)} (h : ∀ part ∈ parts, part.length = w) :
    split w parts.length parts.flatten = parts := by
  induction parts with
  | nil => rfl
  | cons part parts ih =>
    obtain ⟨hpart, hparts⟩ := List.forall_mem_cons.mp h
    rw [List.length_cons, List.flatten_cons, split, List.take_left' hpart, List.drop_left' hpart,
      ih hparts]

end Bytes
