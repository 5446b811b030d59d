import VoxtralServer.Server.SpeechHandler

/-!
# Which requests are submitted

`handle_speech` runs seven checks one after the other, between the reads of the
fields they check. On a body whose fields have the right types this is one list
of checks, and the first that fails gives the error.

* `readSpeech_checks`: the handler reads the fields and runs the checks.
* `speech_admitted`: the valid requests are submitted, once and unchanged, and
  every other one gets the error of the first check it fails.
-/

namespace VoxtralServer

variable {lib : JsonLib} {deps : HandlerDeps} {req : HttpRequest} {j : Json}
  {fields : SpeechFields} {catalog : VoiceCatalog}

/-! ## Requests with the right types -/

/-- The value of a string field, or its default when it is absent. -/
def HasString (j : Json) (key d s : Str) : Prop :=
  j.field key = none ∧ s = d ∨ j.field key = some (.string s)

/-- The value of the speed as a `float`, or 1 when it is absent. -/
def HasSpeed (lib : JsonLib) (j : Json) (speed : Floating) : Prop :=
  j.field (utf8 "speed") = none ∧ speed = .finite 1 ∨
  ∃ v, j.field (utf8 "speed") = some v ∧ v.isNumber = true ∧
    lib.valueFloat j (utf8 "speed") (.finite 1) = .ok speed

/-- The document is an object whose fields, where present, have the right types
and these values. -/
structure HasFields (lib : JsonLib) (j : Json) (fields : SpeechFields) : Prop where
  object : j.isObject = true
  model : HasString j (utf8 "model") [] fields.model
  input : HasString j (utf8 "input") [] fields.input
  voice : HasString j (utf8 "voice") [] fields.voice
  responseFormat : HasString j (utf8 "response_format") (utf8 "wav") fields.responseFormat
  speed : HasSpeed lib j fields.speed

/-- A number in the text of a document is never NaN, and neither is its `float`. -/
def JsonLib.NeverNan (lib : JsonLib) : Prop :=
  ∀ s j key d v x, lib.parse s = .ok j → j.field key = some v → v.isNumber = true →
    lib.valueFloat j key d = .ok x → x ≠ .nan

/-- What makes a request valid. The length of the input is the code's measure. -/
structure ValidSpeech (maxChars : Int) (req : HttpRequest) (fields : SpeechFields) : Prop where
  contentType : utf8 "application/json" <:+: req.header (utf8 "content-type")
  bodySize : req.body.length ≤ 1048576
  model : fields.model = utf8 "voxtral-4b"
  inputNonempty : fields.input ≠ []
  inputNotBlank : fields.input.all isSpace = false
  inputLength : intOfSize fields.input.length ≤ maxChars
  voice : fields.voice ∈ presetVoices.map Voice.id
  responseFormat : fields.responseFormat = [] ∨ fields.responseFormat = utf8 "wav"
  speed : ∃ q, fields.speed = .finite q ∧ 1 / 4 ≤ q ∧ q ≤ 4

/-! ## The checks as a list -/

/-- The checks of a request in their order, each with the status code that it
counts when it fails. -/
def speechChecks (maxChars : Int) (catalog : VoiceCatalog) (req : HttpRequest)
    (fields : SpeechFields) : List (Int × ValidationResult) :=
  [(400, validateContentType (req.header (utf8 "content-type"))),
   ((validateBodySize req.body.length).httpStatus, validateBodySize req.body.length),
   (400, validateModel fields.model),
   (400, validateInput fields.input maxChars),
   (400, validateVoice fields.voice catalog),
   (400, validateResponseFormat fields.responseFormat),
   (400, validateSpeed fields.speed)]

/-- The first check that fails. -/
def firstFailing (checks : List (Int × ValidationResult)) : Option (Int × ValidationResult) :=
  checks.find? fun check => !check.2.valid

namespace SpeechLemmas

theorem HasString.valueString (hlib : lib.Documented) (hobj : j.isObject = true) {key d s : Str}
    (h : HasString j key d s) : lib.valueString j key d = .ok s := by
  rcases h with ⟨habsent, rfl⟩ | hpresent
  · exact hlib.valueString_absent j key s hobj habsent
  · exact hlib.valueString_string j key d s hpresent

theorem HasSpeed.valueFloat (hlib : lib.Documented) (hobj : j.isObject = true) {speed : Floating}
    (h : HasSpeed lib j speed) : lib.valueFloat j (utf8 "speed") (.finite 1) = .ok speed := by
  rcases h with ⟨habsent, rfl⟩ | ⟨_, _, _, hvalue⟩
  · exact hlib.valueFloat_absent j _ _ hobj habsent
  · exact hvalue

theorem HasSpeed.ne_nan (hnan : lib.NeverNan) {body : Str} (hparse : lib.parse body = .ok j)
    {speed : Floating} (h : HasSpeed lib j speed) : speed ≠ .nan := by
  rcases h with ⟨_, rfl⟩ | ⟨v, hv, hnumber, hvalue⟩
  · exact fun h => Floating.noConfusion h
  · exact hnan _ _ _ _ _ _ hparse hv hnumber hvalue

theorem exists_hasString {key d : Str} (h : ¬ NotString j key) : ∃ s, HasString j key d s := by
  cases hf : j.field key with
  | none => exact ⟨d, .inl ⟨hf, rfl⟩⟩
  | some v =>
    cases v with
    | string s => exact ⟨s, .inr hf⟩
    | _ => exact absurd ⟨_, hf, rfl⟩ h

theorem exists_hasSpeed (hlib : lib.Documented) (h : ¬ NotNumber j (utf8 "speed")) :
    ∃ speed, HasSpeed lib j speed := by
  cases hf : j.field (utf8 "speed") with
  | none => exact ⟨.finite 1, .inl ⟨hf, rfl⟩⟩
  | some v =>
    have hv : v.isNumber = true := by
      rw [← Bool.not_eq_false]
      exact fun hv => h ⟨v, hf, hv⟩
    obtain ⟨x, hx⟩ := hlib.valueFloat_number j _ (.finite 1) v hf hv
    exact ⟨x, .inr ⟨v, hf, hv, hx⟩⟩

/-- A body that is not malformed is an object with such fields. -/
theorem exists_hasFields (hlib : lib.Documented) {body : Str} (h : ¬ Malformed lib body) :
    ∃ j fields, lib.parse body = .ok j ∧ HasFields lib j fields := by
  simp only [Malformed, not_forall, not_or, Bool.not_eq_false] at h
  obtain ⟨j, hparse, hobj, hmodel, hinput, hvoice, hformat, hspeed⟩ := h
  obtain ⟨model, hmodel⟩ := exists_hasString (d := []) hmodel
  obtain ⟨input, hinput⟩ := exists_hasString (d := []) hinput
  obtain ⟨voice, hvoice⟩ := exists_hasString (d := []) hvoice
  obtain ⟨format, hformat⟩ := exists_hasString (d := utf8 "wav") hformat
  obtain ⟨speed, hspeed⟩ := exists_hasSpeed hlib hspeed
  exact ⟨j, ⟨model, input, voice, format, speed⟩, hparse, hobj, hmodel, hinput, hvoice, hformat,
    hspeed⟩

/-- One check in front of what follows it, as one more check of the list. -/
theorem require_firstFailing {statusCode : Int} {v : ValidationResult}
    {checks : List (Int × ValidationResult)} {rest : Except Ending SpeechFields}
    (h : rest = (firstFailing checks).elim (.ok fields) fun check =>
      .error ⟨[.requestsTotal check.1], makeErrorFromValidation lib check.2⟩) :
    (require lib statusCode v >>= fun _ => rest) =
      (firstFailing ((statusCode, v) :: checks)).elim (.ok fields) fun check =>
        .error ⟨[.requestsTotal check.1], makeErrorFromValidation lib check.2⟩ := by
  unfold require firstFailing
  cases hv : v.valid with
  | false => simp [hv, Bind.bind, Except.bind]
  | true => simpa [hv, Bind.bind, Except.bind, firstFailing] using h

end SpeechLemmas

open SpeechLemmas

/-- On fields of the right types, the handler reads them and runs the checks. -/
theorem readSpeech_checks (hlib : lib.Documented) (hcatalog : deps.voiceCatalog = some catalog)
    (hparse : lib.parse req.body = .ok j) (hfields : HasFields lib j fields) :
    readSpeech lib deps req =
      (firstFailing (speechChecks deps.maxChars catalog req fields)).elim (.ok fields)
        fun check => .error ⟨[.requestsTotal check.1], makeErrorFromValidation lib check.2⟩ := by
  have hmodel := HasString.valueString hlib hfields.object hfields.model
  have hinput := HasString.valueString hlib hfields.object hfields.input
  have hvoice := HasString.valueString hlib hfields.object hfields.voice
  have hformat := HasString.valueString hlib hfields.object hfields.responseFormat
  have hspeed := HasSpeed.valueFloat hlib hfields.object hfields.speed
  unfold readSpeech speechChecks
  refine require_firstFailing (require_firstFailing ?_)
  have hbody : parseBody lib req.body = .ok j := by simp [parseBody, hparse]
  show (parseBody lib req.body >>= _) = _
  rw [hbody]
  show (orThrow (lib.valueString j (utf8 "model") []) >>= _) = _
  rw [hmodel]
  refine require_firstFailing ?_
  show (orThrow (lib.valueString j (utf8 "input") []) >>= _) = _
  rw [hinput]
  refine require_firstFailing ?_
  show (orThrow (lib.valueString j (utf8 "voice") []) >>= _) = _
  rw [hvoice]
  show (requireVoice lib deps fields.voice >>= _) = _
  rw [requireVoice, hcatalog]
  refine require_firstFailing ?_
  show (orThrow (lib.valueString j (utf8 "response_format") (utf8 "wav")) >>= _) = _
  rw [hformat]
  refine require_firstFailing ?_
  show (orThrow (lib.valueFloat j (utf8 "speed") (.finite 1)) >>= _) = _
  rw [hspeed]
  exact require_firstFailing rfl

/-- No check fails exactly when the request is valid. -/
theorem firstFailing_eq_none (hmax : 0 < deps.maxChars) (hspeed : fields.speed ≠ .nan) :
    firstFailing (speechChecks deps.maxChars catalog req fields) = none ↔
      ValidSpeech deps.maxChars req fields := by
  have hall : firstFailing (speechChecks deps.maxChars catalog req fields) = none ↔
      ∀ check ∈ speechChecks deps.maxChars catalog req fields, check.2.valid = true := by
    simp [firstFailing, List.find?_eq_none]
  rw [hall]
  simp only [speechChecks, List.forall_mem_cons, List.not_mem_nil, false_imp_iff, forall_true_iff,
    and_true, validateContentType_valid, validateBodySize_valid, validateModel_valid,
    validateInput_valid hmax, validateVoice_valid, validateResponseFormat_valid,
    validateSpeed_valid hspeed]
  constructor
  · rintro ⟨hct, hsz, hmodel, ⟨hne, hspace, hlen⟩, hvoice, hformat, hspeed⟩
    exact ⟨hct, hsz, hmodel, hne, hspace, hlen, hvoice, hformat, hspeed⟩
  · intro h
    exact ⟨h.contentType, h.bodySize, h.model, ⟨h.inputNonempty, h.inputNotBlank, h.inputLength⟩,
      h.voice, h.responseFormat, h.speed⟩

/-- The fields of a valid request are read. -/
theorem readSpeech_valid (hlib : lib.Documented) (hcatalog : deps.voiceCatalog = some catalog)
    (hparse : lib.parse req.body = .ok j) (hfields : HasFields lib j fields)
    (hmax : 0 < deps.maxChars) (hvalid : ValidSpeech deps.maxChars req fields) :
    readSpeech lib deps req = .ok fields := by
  obtain ⟨q, hspeed, _⟩ := hvalid.speed
  have hnone : firstFailing (speechChecks deps.maxChars catalog req fields) = none :=
    (firstFailing_eq_none hmax (by simp [hspeed])).mpr hvalid
  rw [readSpeech_checks hlib hcatalog hparse hfields, hnone]
  rfl

/-- Each check answers with a client error when it fails. -/
theorem speechChecks_proper (hlib : lib.Documented) (maxChars : Int)
    (hparse : lib.parse req.body = .ok j) (hfields : HasFields lib j fields) :
    ∀ check ∈ speechChecks maxChars catalog req fields, check.2.Proper := by
  have hj : j.Utf8 := hlib.parse_utf8 _ _ hparse
  have hvoice : ValidUtf8 fields.voice := valueString_utf8 hlib hj validUtf8_nil
    (HasString.valueString hlib hfields.object hfields.voice)
  have hformat : ValidUtf8 fields.responseFormat := valueString_utf8 hlib hj (validUtf8_utf8 _)
    (HasString.valueString hlib hfields.object hfields.responseFormat)
  simp only [speechChecks, List.forall_mem_cons, List.not_mem_nil, false_imp_iff, forall_true_iff,
    and_true]
  exact ⟨validateContentType_proper _, validateBodySize_proper _ _, validateModel_proper _,
    validateInput_proper _ _, validateVoice_proper hvoice _, validateResponseFormat_proper hformat,
    validateSpeed_proper _⟩

theorem makeErrorFromValidation_ok (hlib : lib.Documented) {v : ValidationResult}
    (hproper : v.Proper) (hinvalid : v.valid = false) :
    ∃ resp, makeErrorFromValidation lib v = .ok resp ∧ resp.status = v.httpStatus := by
  have herror : v.ClientError := hproper.resolve_left (by simp [hinvalid])
  obtain ⟨resp, hresp⟩ := makeErrorResponse_ok v.httpStatus hlib herror.errorType herror.errorCode
    herror.errorMessage herror.errorParam
  exact ⟨resp, hresp, (makeErrorResponse_status hresp).1⟩

/-! ## The admitted requests -/

/-- The call submits a valid request, once and unchanged, and answers any other
with the error of the first check that fails. -/
structure AdmitsExactly (lib : JsonLib) (maxChars : Int) (catalog : VoiceCatalog)
    (req : HttpRequest) (fields : SpeechFields) (out : SpeechOutcome) : Prop where
  once : out.submits.length = 1 ↔ ValidSpeech maxChars req fields
  unchanged : ValidSpeech maxChars req fields → out.submits =
    [{ text := fields.input
       voice := fields.voice
       model := fields.model
       responseFormat := fields.responseFormat
       speed := fields.speed }]
  refused : ¬ ValidSpeech maxChars req fields → out.submits = [] ∧
    ∃ check resp, firstFailing (speechChecks maxChars catalog req fields) = some check ∧
      makeErrorFromValidation lib check.2 = .ok resp ∧ out.result = .ok resp ∧
      resp.status = check.2.httpStatus

/-- **Admission.** On a body that is not malformed, with a limit, a catalog and a
pool that accepts, exactly the valid requests are submitted. -/
theorem speech_admitted (hlib : lib.Documented) (hnan : lib.NeverNan) {config : ServerConfig}
    (hconfig : deps.config = some config) (hmax : 0 < config.maxInputChars)
    (hcatalog : deps.voiceCatalog = some catalog) (htyped : ¬ Malformed lib req.body)
    {pool : PoolView} (hpool : pool.accepting = true) (start stop : Int) :
    ∃ j fields, lib.parse req.body = .ok j ∧ HasFields lib j fields ∧
      AdmitsExactly lib config.maxInputChars catalog req fields
        (handleSpeech lib deps (some pool) start stop req) := by
  obtain ⟨j, fields, hparse, hfields⟩ := exists_hasFields hlib htyped
  refine ⟨j, fields, hparse, hfields, ?_⟩
  have hchars : deps.maxChars = config.maxInputChars := by rw [HandlerDeps.maxChars, hconfig]
  have hread := readSpeech_checks hlib hcatalog hparse hfields
  have hvalid : firstFailing (speechChecks deps.maxChars catalog req fields) = none ↔
      ValidSpeech deps.maxChars req fields :=
    firstFailing_eq_none (hchars ▸ hmax) (HasSpeed.ne_nan hnan hparse hfields.speed)
  rw [hchars] at hread hvalid
  cases hfirst : firstFailing (speechChecks config.maxInputChars catalog req fields) with
  | none =>
    have hv := hvalid.mp hfirst
    rw [hfirst] at hread
    have hsubmits : (handleSpeech lib deps (some pool) start stop req).submits =
        [synthRequest fields] := by
      cases hs : pool.submitted <;> simp [handleSpeech, hread, hpool, hs]
    exact ⟨iff_of_true (by rw [hsubmits]; rfl) hv, fun _ => hsubmits, fun h => absurd hv h⟩
  | some check =>
    have hv : ¬ ValidSpeech config.maxInputChars req fields := fun h => by
      rw [hvalid.mpr h] at hfirst
      cases hfirst
    rw [hfirst] at hread
    have hout : handleSpeech lib deps (some pool) start stop req =
        { metrics := [.requestsTotal check.1], result := makeErrorFromValidation lib check.2 } := by
      simp [handleSpeech, hread]
    have hinvalid : check.2.valid = false := by simpa using List.find?_some hfirst
    obtain ⟨resp, hresp, hstatus⟩ := makeErrorFromValidation_ok hlib
      (speechChecks_proper hlib _ hparse hfields _ (List.mem_of_find?_eq_some hfirst)) hinvalid
    rw [hout]
    exact ⟨iff_of_false (by simp) hv, fun h => absurd h hv,
      fun _ => ⟨rfl, check, resp, hfirst, hresp, hresp, hstatus⟩⟩

/-- A document with the three required fields. -/
def exSpeakJson (input : Str) : Json :=
  .object [(utf8 "input", .string input), (utf8 "model", .string (utf8 "voxtral-4b")),
    (utf8 "voice", .string (utf8 "de_male"))]

theorem exSpeakJson_utf8 {input : Str} (h : ValidUtf8 input) : (exSpeakJson input).Utf8 :=
  .key (.string h) (.key (.string (validUtf8_utf8 _)) (.key (.string (validUtf8_utf8 _)) .empty))

def exSpeakFields (input : Str) : SpeechFields where
  model := utf8 "voxtral-4b"
  input := input
  voice := utf8 "de_male"
  responseFormat := utf8 "wav"
  speed := .finite 1

theorem exSpeakJson_fields (lib : JsonLib) (input : Str) :
    HasFields lib (exSpeakJson input) (exSpeakFields input) :=
  ⟨rfl, .inr rfl, .inr rfl, .inr rfl, .inl ⟨rfl, rfl⟩, .inl ⟨rfl, rfl⟩⟩

/-- The text of such a document, and a library that knows it. -/
def exSpeakBody : Str :=
  utf8 "\x7b\"input\":\"hello\",\"model\":\"voxtral-4b\",\"voice\":\"de_male\"\x7d"

def exSpeakLib : JsonLib := exJson [(exSpeakBody, exSpeakJson (utf8 "hello"))]

theorem exSpeakLib_documented : exSpeakLib.Documented :=
  exJson_documented (List.forall_mem_singleton.mpr (exSpeakJson_utf8 (validUtf8_utf8 _)))

/-- The document of this library has no numbers. -/
theorem exSpeakLib_neverNan : exSpeakLib.NeverNan := by
  intro s j key d v x hparse hfield hnumber
  simp only [exSpeakLib, exJson, List.lookup_cons, List.lookup_nil] at hparse
  split at hparse
  · cases hparse
    have hmem := Json.field_mem hfield
    simp only [List.mem_cons, List.not_mem_nil, or_false, Prod.mk.injEq] at hmem
    rcases hmem with ⟨_, rfl⟩ | ⟨_, rfl⟩ | ⟨_, rfl⟩ <;> cases hnumber
  · cases hparse

def exSpeakDeps : HandlerDeps where
  voiceCatalog := some {}
  config := some {}

/-- The body has the right types, so its request is one of those. -/
theorem speech_admitted_hello :
    ∃ j fields, exSpeakLib.parse exSpeakBody = .ok j ∧ HasFields exSpeakLib j fields ∧
      AdmitsExactly exSpeakLib 4096 {} (exSpeechRequest exSpeakBody) fields
        (handleSpeech exSpeakLib exSpeakDeps (some ⟨true, 0, true, 1, .error [], 0⟩) 0 0
          (exSpeechRequest exSpeakBody)) := by
  have htyped : ¬ Malformed exSpeakLib (exSpeechRequest exSpeakBody).body := by
    intro h
    have hparse : exSpeakLib.parse exSpeakBody = .ok (exSpeakJson (utf8 "hello")) := by rfl
    have hstring (key : Str)
        (hkey : ((exSpeakJson (utf8 "hello")).field key).all Json.isString = true) :
        ¬ NotString (exSpeakJson (utf8 "hello")) key := by
      rintro ⟨v, hv, hstring⟩
      simp [hv, hstring] at hkey
    rcases h _ hparse with h | h | h | h | h | ⟨v, hv, _⟩
    · cases h
    · exact hstring _ (by decide) h
    · exact hstring _ (by decide) h
    · exact hstring _ (by decide) h
    · exact hstring _ (by decide) h
    · cases hv
  have hmax : 0 < ({} : ServerConfig).maxInputChars := by decide
  exact speech_admitted exSpeakLib_documented exSpeakLib_neverNan rfl hmax rfl htyped rfl 0 0

end VoxtralServer
