import VoxtralServer.Json
import VoxtralServer.Lib.Padded
import VoxtralServer.Lib.Quoted

/-!
# JSON texts

What else the JSON library's documentation says of `dump`: it is strict about
invalid UTF-8, it writes one line, and what it writes is parsed back. Documents of
texts are enough here, without numbers, booleans and arrays.

* `textJson`: a library that does all of this, for examples.
-/

namespace VoxtralServer

/-- A document of texts: null, a string, or an object of such documents, with its
fields in key order. -/
inductive Json.Textual : Json → Prop
  | null : Textual .null
  | string (s : Str) : Textual (.string s)
  | object {fields : List (Str × Json)} : (fields.map Prod.fst).Pairwise (· < ·) →
      (∀ f ∈ fields, Textual f.2) → Textual (.object fields)

/-- The line feed. -/
def newline : UInt8 := 10

/-- The documented behaviour of `dump`: invalid UTF-8 is a `type_error`, control
characters are escaped, and the text parses as the document. -/
structure JsonLib.Faithful (lib : JsonLib) : Prop where
  dump_invalid : ∀ j, ¬ j.Utf8 → lib.dump j = .error .typeError
  dump_line : ∀ j s, lib.dump j = .ok s → newline ∉ s
  parse_dump : ∀ j s, j.Textual → lib.dump j = .ok s → lib.parse s = .ok j

/-! ## A library for examples that reads what it writes -/

/-- The escapes of JSON strings: the short ones, and the other control characters
by their number. -/
def jsonEntries : List (UInt8 × Str) :=
  [(('"').toUInt8, utf8 "\""), (('\\').toUInt8, utf8 "\\"), (8, utf8 "b"), (9, utf8 "t"),
    (10, utf8 "n"), (12, utf8 "f"), (13, utf8 "r")] ++
  (List.range 32).map fun n =>
    (UInt8.ofNat n, utf8 "u" ++ (Padded.numeral 16 4 n).map Char.toUInt8)

def jsonEscapes : Escapes UInt8 where
  quote := ('"').toUInt8
  mark := ('\\').toUInt8
  entries := jsonEntries
  quote_escaped := rfl
  mark_escaped := rfl
  quote_ne_mark := by decide
  prefixFree := by decide +kernel

namespace Json

def quoted (s : Str) : Str := jsonEscapes.quoting.quoted s

mutual

/-- The text of a document. No example holds a number. -/
def text : Json → Str
  | .null => utf8 "null"
  | .boolean b => utf8 (toString b)
  | .integer _ => utf8 "0"
  | .float _ => utf8 "0.0"
  | .string s => quoted s
  | .array elements => utf8 "[" ++ elementsText elements ++ utf8 "]"
  | .object fields => utf8 "\x7b" ++ fieldsText fields ++ utf8 "\x7d"

def elementsText : List Json → Str
  | [] => []
  | [j] => text j
  | j :: js => text j ++ utf8 "," ++ elementsText js

def fieldsText : List (Str × Json) → Str
  | [] => []
  | [(key, j)] => quoted key ++ utf8 ":" ++ text j
  | (key, j) :: fields => quoted key ++ utf8 ":" ++ text j ++ utf8 "," ++ fieldsText fields

end

mutual

/-- Whether all strings are valid UTF-8. -/
def isUtf8 : Json → Bool
  | .string s => decide (ValidUtf8 s)
  | .array elements => elementsUtf8 elements
  | .object fields => fieldsUtf8 fields
  | _ => true

def elementsUtf8 : List Json → Bool
  | [] => true
  | j :: js => isUtf8 j && elementsUtf8 js

def fieldsUtf8 : List (Str × Json) → Bool
  | [] => true
  | (key, j) :: fields => decide (ValidUtf8 key) && isUtf8 j && fieldsUtf8 fields

end

mutual

theorem isUtf8_iff : ∀ j : Json, j.isUtf8 = true ↔ j.Utf8
  | .null => by simp [isUtf8, Utf8.null]
  | .boolean b => by simp [isUtf8, Utf8.boolean b]
  | .integer n => by simp [isUtf8, Utf8.integer n]
  | .float x => by simp [isUtf8, Utf8.float x]
  | .string s => by
    rw [isUtf8, decide_eq_true_iff, utf8_string]
  | .array elements => by
    rw [isUtf8, elementsUtf8_iff elements]
    exact ⟨.array, fun h => by cases h; assumption⟩
  | .object fields => by
    rw [isUtf8, fieldsUtf8_iff fields, utf8_object]

theorem elementsUtf8_iff : ∀ js : List Json, elementsUtf8 js = true ↔ ∀ j ∈ js, j.Utf8
  | [] => by simp [elementsUtf8]
  | j :: js => by
    rw [elementsUtf8, Bool.and_eq_true, isUtf8_iff j, elementsUtf8_iff js, List.forall_mem_cons]

theorem fieldsUtf8_iff : ∀ fields : List (Str × Json), fieldsUtf8 fields = true ↔
    ∀ f ∈ fields, ValidUtf8 f.1 ∧ f.2.Utf8
  | [] => by simp [fieldsUtf8]
  | (key, j) :: fields => by
    rw [fieldsUtf8, Bool.and_eq_true, Bool.and_eq_true, decide_eq_true_iff, isUtf8_iff j,
      fieldsUtf8_iff fields, List.forall_mem_cons]

end

theorem newline_quoted (s : Str) : newline ∉ quoted s :=
  Escapes.not_mem_quoted rfl (by decide) (by decide) (by decide +kernel) s

mutual

theorem newline_text : ∀ j : Json, newline ∉ j.text
  | .null => by decide
  | .boolean b => by cases b <;> decide
  | .integer _ => by rw [text]; decide
  | .float _ => by rw [text]; decide
  | .string s => by
    rw [text]
    exact newline_quoted s
  | .array elements => by
    have hopen : newline ∉ utf8 "[" ∧ newline ∉ utf8 "]" := by decide
    rw [text]
    simp [hopen, newline_elementsText elements]
  | .object fields => by
    have hopen : newline ∉ utf8 "\x7b" ∧ newline ∉ utf8 "\x7d" := by decide
    rw [text]
    simp [hopen, newline_fieldsText fields]

theorem newline_elementsText : ∀ js : List Json, newline ∉ elementsText js
  | [] => by simp [elementsText]
  | [j] => by
    rw [elementsText]
    exact newline_text j
  | j :: k :: js => by
    have hcomma : newline ∉ utf8 "," := by decide
    rw [elementsText]
    · simp [hcomma, newline_text j, newline_elementsText (k :: js)]
    · simp

theorem newline_fieldsText : ∀ fields : List (Str × Json), newline ∉ fieldsText fields
  | [] => by simp [fieldsText]
  | [(key, j)] => by
    have hcolon : newline ∉ utf8 ":" := by decide
    rw [fieldsText]
    simp [hcolon, newline_quoted key, newline_text j]
  | (key, j) :: f :: fields => by
    have hmarks : newline ∉ utf8 ":" ∧ newline ∉ utf8 "," := by decide
    rw [fieldsText]
    · simp [hmarks, newline_quoted key, newline_text j, newline_fieldsText (f :: fields)]
    · simp

end

/-! ## Reading -/

/-- Takes a byte off the front. -/
def skip (c : Char) : Str → Option Str
  | [] => none
  | b :: rest => if b = c.toUInt8 then some rest else none

mutual

/-- Reads a document of texts off the front. -/
def parseText : Nat → Str → Option (Json × Str)
  | 0, _ => none
  | fuel + 1, input =>
    if (utf8 "null").isPrefixOf input then some (.null, input.drop 4)
    else
      match skip '\x7b' input with
      | none => (jsonEscapes.quoting.unquote input).map fun (s, rest) => (.string s, rest)
      | some rest =>
        match skip '\x7d' rest with
        | some rest => some (.object [], rest)
        | none => (parseFields fuel rest).map fun (fields, rest) => (.object fields, rest)

/-- Reads the fields of an object and the brace behind them. -/
def parseFields : Nat → Str → Option (List (Str × Json) × Str)
  | 0, _ => none
  | fuel + 1, input => do
    let (key, rest) ← jsonEscapes.quoting.unquote input
    let rest ← skip ':' rest
    let (j, rest) ← parseText fuel rest
    match skip ',' rest with
    | some rest => (parseFields fuel rest).map fun (fields, rest) => ((key, j) :: fields, rest)
    | none => (skip '\x7d' rest).map fun rest => ([(key, j)], rest)

end

/-- A field whose value is read back, in front of a comma or of the end. -/
theorem parseFields_field {key : Str} {j : Json} {fuel : Nat}
    (hj : ∀ rest, parseText fuel (j.text ++ rest) = some (j, rest)) (rest : Str) :
    parseFields (fuel + 1) (quoted key ++ utf8 ":" ++ j.text ++ rest) =
      match skip ',' rest with
      | some rest => (parseFields fuel rest).map fun (fields, rest) => ((key, j) :: fields, rest)
      | none => (skip '\x7d' rest).map fun rest => ([(key, j)], rest) := by
  have hcolon (s : Str) : skip ':' (utf8 ":" ++ s) = some s := rfl
  simp only [parseFields, quoted, List.append_assoc, Quoting.unquote_quoted, hcolon, hj,
    Option.bind_eq_bind, Option.bind_some]

/-- Fields whose values are read back are read back. -/
theorem parseFields_text {fields : List (Str × Json)} (hne : fields ≠ [])
    (hvalues : ∀ f ∈ fields, ∀ rest fuel, f.2.text.length < fuel →
      parseText fuel (f.2.text ++ rest) = some (f.2, rest)) (rest : Str) {fuel : Nat}
    (hfuel : (fieldsText fields).length < fuel) :
    parseFields fuel (fieldsText fields ++ (utf8 "\x7d" ++ rest)) = some (fields, rest) := by
  induction fields generalizing fuel with
  | nil => exact absurd rfl hne
  | cons f fields ih =>
    obtain ⟨key, j⟩ := f
    obtain ⟨fuel, rfl⟩ := Nat.exists_eq_succ_of_ne_zero (Nat.ne_zero_of_lt hfuel)
    have hkey : key.length + 2 ≤ (quoted key).length := Quoting.length_quoted key
    have hj : ∀ rest fuel, j.text.length < fuel →
        parseText fuel (j.text ++ rest) = some (j, rest) := hvalues _ List.mem_cons_self
    cases fields with
    | nil =>
      rw [fieldsText, List.length_append, List.length_append] at hfuel
      rw [fieldsText, parseFields_field fun rest => hj rest fuel (by omega)]
      rfl
    | cons g fields =>
      have hmore : fieldsText ((key, j) :: g :: fields) =
          quoted key ++ utf8 ":" ++ j.text ++ (utf8 "," ++ fieldsText (g :: fields)) := by
        rw [fieldsText, List.append_assoc _ (utf8 ",")]
        simp
      have hcomma (s : Str) : skip ',' (utf8 "," ++ s) = some s := rfl
      rw [hmore, List.length_append, List.length_append, List.length_append,
        List.length_append] at hfuel
      rw [hmore, List.append_assoc, parseFields_field fun rest => hj rest fuel (by omega),
        List.append_assoc, hcomma]
      have hfits : (fieldsText (g :: fields)).length < fuel := by omega
      have hrest := ih (by simp) (fun f hf => hvalues f (List.mem_cons_of_mem _ hf)) hfits
      simp only [hrest, Option.map_some]

/-- A document of texts is read back. -/
theorem parseText_text {j : Json} (h : j.Textual) : ∀ (rest : Str) (fuel : Nat),
    j.text.length < fuel → parseText fuel (j.text ++ rest) = some (j, rest) := by
  induction h with
  | null =>
    intro rest fuel hfuel
    obtain ⟨fuel, rfl⟩ := Nat.exists_eq_succ_of_ne_zero (Nat.ne_zero_of_lt hfuel)
    rw [text, parseText]
    rfl
  | string s =>
    intro rest fuel hfuel
    obtain ⟨fuel, rfl⟩ := Nat.exists_eq_succ_of_ne_zero (Nat.ne_zero_of_lt hfuel)
    have hnull (s : Str) : (utf8 "null").isPrefixOf (quoted s ++ rest) = false := rfl
    have hbrace (s : Str) : skip '\x7b' (quoted s ++ rest) = none := rfl
    simp only [text, parseText, hnull, hbrace]
    simp [quoted, Quoting.unquote_quoted]
  | @object fields _ _ ih =>
    intro rest fuel hfuel
    obtain ⟨fuel, rfl⟩ := Nat.exists_eq_succ_of_ne_zero (Nat.ne_zero_of_lt hfuel)
    rw [text, List.length_append, List.length_append] at hfuel
    have hopen : (utf8 "\x7b").length = 1 := rfl
    have hnull (s : Str) : (utf8 "null").isPrefixOf (utf8 "\x7b" ++ s) = false := rfl
    have hbrace (s : Str) : skip '\x7b' (utf8 "\x7b" ++ s) = some s := rfl
    simp only [text, List.append_assoc, parseText, hnull, hbrace, Bool.false_eq_true, if_false]
    cases fields with
    | nil => rfl
    | cons f fields =>
      have hempty : skip '\x7d' (fieldsText (f :: fields) ++ (utf8 "\x7d" ++ rest)) = none := by
        obtain ⟨key, j⟩ := f
        cases fields <;> rfl
      have hfits : (fieldsText (f :: fields)).length < fuel := by omega
      have hfields := parseFields_text (by simp) ih rest hfits
      simp only [hempty, hfields, Option.map_some]

/-! ## The library -/

/-- A library that is strict, and reads the documents of texts. -/
def textJson : JsonLib where
  parse s :=
    match parseText (s.length + 1) s with
    | some (j, []) => if j.isUtf8 then .ok j else .error .parseError
    | _ => .error .parseError
  valueString := (exJson []).valueString
  valueFloat := (exJson []).valueFloat
  dump j := if j.isUtf8 then .ok j.text else .error .typeError

/-- What `dump` returns is the text of a document that is valid UTF-8. -/
theorem textJson_dump {j : Json} {s : Str} : textJson.dump j = .ok s ↔ j.Utf8 ∧ s = j.text := by
  have hdump : textJson.dump j = if j.isUtf8 then .ok j.text else .error .typeError := rfl
  rw [hdump, ← j.isUtf8_iff]
  split
  · next h => simp [h, eq_comm]
  · next h => simp [h]

theorem textJson_documented : textJson.Documented where
  parse_error s e he := by
    simp only [textJson] at he
    split at he
    · split at he
      · cases he
      · exact .inl (Except.error.inj he).symm
    · exact .inl (Except.error.inj he).symm
  parse_utf8 s j hj := by
    simp only [textJson] at hj
    split at hj
    · split at hj
      · next hutf8 =>
        cases hj
        exact (isUtf8_iff _).mp hutf8
      · cases hj
    · cases hj
  dump_utf8 j hj := ⟨j.text, textJson_dump.mpr ⟨hj, rfl⟩⟩
  __ := @exJson_documented [] (by simp)

theorem textJson_faithful : textJson.Faithful where
  dump_invalid j hj := if_neg fun h => hj (j.isUtf8_iff.mp h)
  dump_line j s hs := (textJson_dump.mp hs).2 ▸ newline_text j
  parse_dump j s hj hs := by
    obtain ⟨hutf8, rfl⟩ := textJson_dump.mp hs
    have hread := parseText_text hj [] (j.text.length + 1) (Nat.lt_succ_self _)
    rw [List.append_nil] at hread
    simp only [textJson, hread, j.isUtf8_iff.mpr hutf8, if_true]

end Json

end VoxtralServer
