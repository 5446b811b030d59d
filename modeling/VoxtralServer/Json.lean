import Mathlib.Algebra.Order.Ring.Rat
import VoxtralServer.Base

/-!
# The JSON library

The JSON library is not part of the repository. `JsonLib` holds the four
operations that the server calls, and `JsonLib.Documented` what their
documentation says of them.

Floating-point values are exact rationals here, with the two infinities and
NaN. How a JSON number is rounded to one of them is left to the library.
-/

namespace VoxtralServer

/-- A `float` or a `double`. -/
inductive Floating
  | finite (q : Rat)
  | inf (negative : Bool)
  | nan
deriving DecidableEq, Repr

/-- `a < b`: false when one of them is NaN. -/
def Floating.lt : Floating → Floating → Bool
  | .finite a, .finite b => decide (a < b)
  | .inf true, .finite _ => true
  | .finite _, .inf false => true
  | .inf true, .inf false => true
  | _, _ => false

/-- `nlohmann::json`. The fields of an object are listed in key order. -/
inductive Json
  | null
  | boolean (b : Bool)
  | integer (n : Int)
  | float (x : Floating)
  | string (s : Str)
  | array (elements : List Json)
  | object (fields : List (Str × Json))

/-- The exceptions of the library, without their texts. -/
inductive JsonError
  | parseError
  | invalidIterator
  | typeError
  | outOfRange
  | otherError
deriving DecidableEq, Repr

namespace Json

def isObject : Json → Bool
  | .object _ => true
  | _ => false

def isString : Json → Bool
  | .string _ => true
  | _ => false

def isNumber : Json → Bool
  | .integer _ => true
  | .float _ => true
  | _ => false

def isBoolean : Json → Bool
  | .boolean _ => true
  | _ => false

/-- The value of a key, when the document is an object that has it. -/
def field (j : Json) (key : Str) : Option Json :=
  match j with
  | .object fields => fields.lookup key
  | _ => none

/-- Every string in the document, keys included, is valid UTF-8. -/
inductive Utf8 : Json → Prop
  | null : Utf8 .null
  | boolean (b : Bool) : Utf8 (.boolean b)
  | integer (n : Int) : Utf8 (.integer n)
  | float (x : Floating) : Utf8 (.float x)
  | string {s : Str} : ValidUtf8 s → Utf8 (.string s)
  | array {elements : List Json} : (∀ j ∈ elements, Utf8 j) → Utf8 (.array elements)
  | object {fields : List (Str × Json)} : (∀ f ∈ fields, ValidUtf8 f.1) →
      (∀ f ∈ fields, Utf8 f.2) → Utf8 (.object fields)

theorem utf8_string {s : Str} : (Json.string s).Utf8 ↔ ValidUtf8 s :=
  ⟨fun h => by cases h; assumption, .string⟩

theorem utf8_object {fields : List (Str × Json)} :
    (Json.object fields).Utf8 ↔ ∀ f ∈ fields, ValidUtf8 f.1 ∧ f.2.Utf8 := by
  constructor
  · intro h f hf
    cases h with
    | object hkeys hvalues => exact ⟨hkeys f hf, hvalues f hf⟩
  · intro h
    exact .object (fun f hf => (h f hf).1) fun f hf => (h f hf).2

theorem Utf8.empty : (Json.object []).Utf8 := utf8_object.mpr (by simp)

/-- A field with a literal key. -/
theorem Utf8.key {key : String} {j : Json} {fields : List (Str × Json)} (hj : j.Utf8)
    (h : (Json.object fields).Utf8) : (Json.object ((utf8 key, j) :: fields)).Utf8 :=
  utf8_object.mpr (List.forall_mem_cons.mpr ⟨⟨validUtf8_utf8 key, hj⟩, utf8_object.mp h⟩)

theorem field_mem {fields : List (Str × Json)} {key : Str} {v : Json}
    (h : fields.lookup key = some v) : (key, v) ∈ fields := by
  obtain ⟨l, r, rfl, _⟩ := List.lookup_eq_some_iff.mp h
  exact List.mem_append_right l List.mem_cons_self

theorem Utf8.field_string {j : Json} {key s : Str} (hj : j.Utf8)
    (h : j.field key = some (.string s)) : ValidUtf8 s := by
  cases hj with
  | object _ hvalues =>
    cases hvalues _ (field_mem h) with
    | string hs => exact hs
  | _ => cases h

theorem isObject_of_field {j : Json} {key : Str} {v : Json} (h : j.field key = some v) :
    j.isObject = true := by
  cases j with
  | object => rfl
  | _ => cases h

end Json

/-! ## The library's operations -/

/-- What the server calls: `json::parse`, `value` with a string default, `value`
with a `float` default, and `dump`. -/
structure JsonLib where
  parse : Str → Except JsonError Json
  valueString : Json → Str → Str → Except JsonError Str
  valueFloat : Json → Str → Floating → Except JsonError Floating
  dump : Json → Except JsonError Str

/-- The documented behaviour that the server relies on. `parse` fails on bad
syntax and on a number it cannot represent. `value` fails on a document that is
not an object and on a value of an incompatible type. Whether a boolean is
compatible with `float` is left open. `dump` fails on invalid UTF-8 only. -/
structure JsonLib.Documented (lib : JsonLib) : Prop where
  parse_error : ∀ s e, lib.parse s = .error e → e = .parseError ∨ e = .outOfRange
  parse_utf8 : ∀ s j, lib.parse s = .ok j → j.Utf8
  valueString_nonobject : ∀ j key d, j.isObject = false →
    lib.valueString j key d = .error .typeError
  valueString_absent : ∀ j key d, j.isObject = true → j.field key = none →
    lib.valueString j key d = .ok d
  valueString_string : ∀ j key d s, j.field key = some (.string s) →
    lib.valueString j key d = .ok s
  valueString_other : ∀ j key d v, j.field key = some v → v.isString = false →
    lib.valueString j key d = .error .typeError
  valueFloat_nonobject : ∀ j key d, j.isObject = false →
    lib.valueFloat j key d = .error .typeError
  valueFloat_absent : ∀ j key d, j.isObject = true → j.field key = none →
    lib.valueFloat j key d = .ok d
  valueFloat_number : ∀ j key d v, j.field key = some v → v.isNumber = true →
    ∃ x, lib.valueFloat j key d = .ok x
  valueFloat_other : ∀ j key d v, j.field key = some v → v.isNumber = false →
    v.isBoolean = false → lib.valueFloat j key d = .error .typeError
  dump_utf8 : ∀ j, j.Utf8 → ∃ s, lib.dump j = .ok s

/-! ## A library for examples -/

/-- `"` and `\\` are escaped. No example holds any other such byte. -/
def escapeByte (c : UInt8) : Str :=
  if c = ('"').toUInt8 ∨ c = ('\\').toUInt8 then [('\\').toUInt8, c] else [c]

def quoted (s : Str) : Str := utf8 "\"" ++ s.flatMap escapeByte ++ utf8 "\""

mutual

/-- The text of a document without floating-point numbers. -/
def exDump : Json → Str
  | .null => utf8 "null"
  | .boolean b => utf8 (toString b)
  | .integer n => toStr n
  | .float _ => utf8 "0.0"
  | .string s => quoted s
  | .array elements => utf8 "[" ++ exDumpElements elements ++ utf8 "]"
  | .object fields => utf8 "\x7b" ++ exDumpFields fields ++ utf8 "\x7d"

def exDumpElements : List Json → Str
  | [] => []
  | [j] => exDump j
  | j :: js => exDump j ++ utf8 "," ++ exDumpElements js

def exDumpFields : List (Str × Json) → Str
  | [] => []
  | [(key, j)] => quoted key ++ utf8 ":" ++ exDump j
  | (key, j) :: fields => quoted key ++ utf8 ":" ++ exDump j ++ utf8 "," ++ exDumpFields fields

end

/-- The `float` of a number or a boolean. -/
def exFloat : Json → Except JsonError Floating
  | .integer n => .ok (.finite n)
  | .float x => .ok x
  | .boolean b => .ok (.finite (if b then 1 else 0))
  | _ => .error .typeError

/-- A library that parses the known documents only. -/
def exJson (known : List (Str × Json)) : JsonLib where
  parse s := (known.lookup s).elim (.error .parseError) .ok
  valueString j key d :=
    if j.isObject then
      match j.field key with
      | none => .ok d
      | some (.string s) => .ok s
      | some _ => .error .typeError
    else .error .typeError
  valueFloat j key d :=
    if j.isObject then (j.field key).elim (.ok d) exFloat else .error .typeError
  dump j := .ok (exDump j)

theorem exJson_documented {known : List (Str × Json)} (h : ∀ f ∈ known, f.2.Utf8) :
    (exJson known).Documented where
  parse_error := by
    intro s e he
    cases hk : known.lookup s with
    | none =>
      simp only [exJson, hk, Option.elim_none, Except.error.injEq] at he
      exact .inl he.symm
    | some j => simp [exJson, hk] at he
  parse_utf8 := by
    intro s j hj
    cases hk : known.lookup s with
    | none => simp [exJson, hk] at hj
    | some v =>
      simp only [exJson, hk, Option.elim_some, Except.ok.injEq] at hj
      exact hj ▸ h _ (Json.field_mem hk)
  valueString_nonobject := by
    intro j key d hj
    simp [exJson, hj]
  valueString_absent := by
    intro j key d hj hf
    simp [exJson, hj, hf]
  valueString_string := by
    intro j key d s hf
    simp [exJson, Json.isObject_of_field hf, hf]
  valueString_other := by
    intro j key d v hf hv
    simp only [exJson, Json.isObject_of_field hf, hf, if_true]
    cases v with
    | string => cases hv
    | _ => rfl
  valueFloat_nonobject := by
    intro j key d hj
    simp [exJson, hj]
  valueFloat_absent := by
    intro j key d hj hf
    simp [exJson, hj, hf]
  valueFloat_number := by
    intro j key d v hf hv
    simp only [exJson, Json.isObject_of_field hf, hf, if_true, Option.elim_some]
    cases v with
    | integer n => exact ⟨.finite n, rfl⟩
    | float x => exact ⟨x, rfl⟩
    | _ => cases hv
  valueFloat_other := by
    intro j key d v hf hv hb
    simp only [exJson, Json.isObject_of_field hf, hf, if_true, Option.elim_some]
    cases v with
    | boolean => cases hb
    | integer => cases hv
    | float => cases hv
    | _ => rfl
  dump_utf8 := fun j _ => ⟨exDump j, rfl⟩

end VoxtralServer
