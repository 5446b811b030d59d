import VoxtralServer.Lib.Bytes

/-!
# RIFF files

A file of chunks: the tag `RIFF`, the size of what follows, the type of the form
and the chunks. A chunk has a tag, a size and a payload, which is filled up to an
even length.

* `parse_flatMap`: chunks are read as they were written.
* `read_encode`: so is a file, as long as its size fits into four bytes.
-/

namespace Riff

open Bytes

/-- A chunk: its tag, of four bytes, and its payload, the size of which fits into
four bytes. -/
structure Chunk where
  tag : List UInt8
  payload : List UInt8
  tag_length : tag.length = 4
  payload_lt : payload.length < 256 ^ 4
deriving DecidableEq

/-- A file: the type of the form, and its chunks. -/
structure File where
  form : List UInt8
  chunks : List Chunk
deriving DecidableEq

/-! ## Writing -/

/-- The tag of the file. -/
def riff : List UInt8 := [0x52, 0x49, 0x46, 0x46]

def Chunk.encode (c : Chunk) : List UInt8 :=
  c.tag ++ toBytes 4 c.payload.length ++ c.payload ++ List.replicate (c.payload.length % 2) 0

/-- What follows the size of the file. -/
def File.content (file : File) : List UInt8 := file.form ++ file.chunks.flatMap Chunk.encode

def File.encode (file : File) : List UInt8 :=
  riff ++ toBytes 4 file.content.length ++ file.content

/-! ## Reading -/

/-- The chunks of some bytes, `none` if one of them is cut off. -/
def parse (bytes : List UInt8) : Option (List Chunk) :=
  if bytes = [] then some []
  else if hheader : 8 ≤ bytes.length then
    if hsize : 8 + numberAt bytes 4 4 ≤ bytes.length then
      let chunk : Chunk :=
        { tag := bytes.take 4
          payload := bytesAt bytes 8 (numberAt bytes 4 4)
          tag_length := List.length_take_of_le (by omega)
          payload_lt := by
            have hlt := numberAt_lt bytes 4 4
            rw [bytesAt, List.length_take]
            exact (Nat.min_le_left ..).trans_lt hlt }
      (parse (bytes.drop (8 + (chunk.payload.length + chunk.payload.length % 2)))).map (chunk :: ·)
    else none
  else none
termination_by bytes.length
decreasing_by
  rw [List.length_drop]
  omega

/-- The file of some bytes: they are as many as the size says. -/
def read (bytes : List UInt8) : Option File :=
  if 12 ≤ bytes.length ∧ bytes.take 4 = riff ∧ 8 + numberAt bytes 4 4 = bytes.length then
    (parse (bytes.drop 12)).map fun chunks => { form := bytesAt bytes 8 4, chunks := chunks }
  else none

/-! ## Round trips -/

theorem parse_encode_append (c : Chunk) (rest : List UInt8) :
    parse (c.encode ++ rest) = (parse rest).map (c :: ·) := by
  generalize hbytes : c.encode ++ rest = bytes
  have hsplit : bytes = (c.tag ++ toBytes 4 c.payload.length) ++
      (c.payload ++ (List.replicate (c.payload.length % 2) 0 ++ rest)) := by
    simp only [← hbytes, Chunk.encode, List.append_assoc]
  have hheader : (c.tag ++ toBytes 4 c.payload.length).length = 8 := by
    rw [List.length_append, c.tag_length, length_toBytes]
  have htag : bytes.take 4 = c.tag := by
    rw [hsplit, List.append_assoc, List.take_left' c.tag_length]
  have hsize : numberAt bytes 4 4 = c.payload.length := by
    rw [hsplit, List.append_assoc, numberAt, bytesAt_append c.tag_length (length_toBytes 4 _),
      ofBytes_toBytes_of_lt c.payload_lt]
  have hpayload : bytesAt bytes 8 c.payload.length = c.payload := by
    rw [hsplit, bytesAt_append hheader rfl]
  have hrest : bytes.drop (8 + (c.payload.length + c.payload.length % 2)) = rest := by
    rw [hsplit, ← List.append_assoc c.payload, ← List.append_assoc]
    exact List.drop_left' (by simp only [List.length_append, hheader, List.length_replicate])
  have hlength : bytes.length =
      8 + (c.payload.length + (c.payload.length % 2 + rest.length)) := by
    rw [hsplit, List.length_append, hheader]
    simp only [List.length_append, List.length_replicate]
  have hne : bytes ≠ [] := List.ne_nil_of_length_pos (by omega)
  rw [parse, if_neg hne, dif_pos (by omega), dif_pos (by omega)]
  simp only [htag, hsize, hpayload, hrest]

/-- Chunks are read as they were written. -/
theorem parse_flatMap (cs : List Chunk) : parse (cs.flatMap Chunk.encode) = some cs := by
  induction cs with
  | nil =>
    unfold parse
    rfl
  | cons c cs ih => rw [List.flatMap_cons, parse_encode_append, ih, Option.map_some]

/-- A file is read as it was written. -/
theorem read_encode {file : File} (hform : file.form.length = 4)
    (hfits : file.content.length < 256 ^ 4) : read file.encode = some file := by
  have hsize : numberAt file.encode 4 4 = file.content.length := by
    rw [File.encode, List.append_assoc, numberAt,
      bytesAt_append (show riff.length = 4 from rfl) (length_toBytes 4 _),
      ofBytes_toBytes_of_lt hfits]
  have hlength : file.encode.length = 8 + file.content.length := by
    rw [File.encode, List.length_append, List.length_append, length_toBytes]
    rfl
  have htake : file.encode.take 4 = riff := by
    rw [File.encode, List.append_assoc, List.take_left' (show riff.length = 4 from rfl)]
  have hcontent : file.encode = (riff ++ toBytes 4 file.content.length) ++
      (file.form ++ file.chunks.flatMap Chunk.encode) := rfl
  have hhead : bytesAt file.encode 8 4 = file.form := by
    rw [hcontent, bytesAt_append (by simp [riff]) hform]
  have hchunks : file.encode.drop 12 = file.chunks.flatMap Chunk.encode := by
    rw [hcontent, ← List.append_assoc]
    exact List.drop_left' (by simp [riff, hform])
  have hlarge : 4 ≤ file.content.length := by
    rw [File.content, List.length_append, hform]
    exact Nat.le_add_right ..
  rw [read, if_pos ⟨by omega, htake, by omega⟩, hhead, hchunks, parse_flatMap, Option.map_some]

end Riff
