import VoxtralServer.Server.RefusalCauses

/-!
# The faults of a speech request

What `handle_speech` may object to in a request, and the error that it reports.

* `Fault.error`: the status, the code and the parameter in the response.
* `Fault.Holds`: what the error says, in terms of the request.
* `readSpeech_faults`: a request that is refused has the fault that is reported, and
  one that is read has no fault.
-/

namespace VoxtralServer

/-! ## Errors -/

/-- What an error response says, its message aside. The parameter is empty when the
response names none. -/
structure ApiError where
  status : Int
  type : Str
  code : Str
  param : Str := []
deriving DecidableEq

/-- The response reports this error as a JSON document. -/
structure Reports (lib : JsonLib) (e : ApiError) (resp : HttpResponse) : Prop where
  status : resp.status = e.status
  contentType : resp.headers.lookup (utf8 "Content-Type") = some (utf8 "application/json")
  textual : resp.binaryBody = []
  document : ∃ message, lib.parse resp.body = .ok (errorDocument e.type e.code message e.param)

variable {lib : JsonLib} {deps : HandlerDeps} {req : HttpRequest} {j : Json}

theorem makeErrorResponse_reports (hfaith : lib.Faithful) {e : ApiError} {message : Str}
    {resp : HttpResponse}
    (h : makeErrorResponse lib e.status e.type e.code message e.param = .ok resp) :
    Reports lib e resp := by
  have hparse := makeErrorResponse_parse hfaith h
  unfold makeErrorResponse at h
  cases hdump : lib.dump (errorDocument e.type e.code message e.param) with
  | error =>
    rw [hdump] at h
    cases h
  | ok body =>
    rw [hdump] at h
    cases h
    exact ⟨rfl, AList.lookup_insert _, rfl, message, hparse⟩

/-! ## Faults -/

/-- What the checks of `handle_speech` object to. -/
inductive Fault
  | contentType
  | bodySize
  | notJson
  | missingModel
  | otherModel
  | missingInput
  | longInput
  | missingVoice
  | otherVoice
  | otherFormat
  | speed
deriving DecidableEq

/-- An error of the client in its request. -/
def invalidRequest (status : Int) (code : Str) (param : Str := []) : ApiError where
  status := status
  type := utf8 "invalid_request_error"
  code := code
  param := param

/-- The error that is reported for a fault. Bad JSON is reported like a bad header. -/
def Fault.error : Fault → ApiError
  | .contentType => invalidRequest 400 (utf8 "invalid_content_type")
  | .bodySize => invalidRequest 413 (utf8 "payload_too_large")
  | .notJson => invalidRequest 400 (utf8 "invalid_content_type")
  | .missingModel => invalidRequest 400 (utf8 "missing_input") (utf8 "model")
  | .otherModel => invalidRequest 400 (utf8 "invalid_model") (utf8 "model")
  | .missingInput => invalidRequest 400 (utf8 "missing_input") (utf8 "input")
  | .longInput => invalidRequest 400 (utf8 "string_above_max_length") (utf8 "input")
  | .missingVoice => invalidRequest 400 (utf8 "missing_input") (utf8 "voice")
  | .otherVoice => invalidRequest 400 (utf8 "invalid_voice") (utf8 "voice")
  | .otherFormat => invalidRequest 400 (utf8 "invalid_format") (utf8 "response_format")
  | .speed => invalidRequest 400 (utf8 "speed_out_of_range") (utf8 "speed")

/-- The body is a document whose string at the key, or the default, satisfies `P`. -/
def HasText (lib : JsonLib) (req : HttpRequest) (key d : Str) (P : Str → Prop) : Prop :=
  ∃ j, lib.parse req.body = .ok j ∧ StringOk lib j key d P

/-- The request has the fault. Without a catalog no voice is at fault, and without a
positive limit no input is too long. -/
def Fault.Holds (lib : JsonLib) (deps : HandlerDeps) (req : HttpRequest) : Fault → Prop
  | .contentType => ¬ utf8 "application/json" <:+: req.header (utf8 "content-type")
  | .bodySize => 1048576 < req.body.length
  | .notJson => lib.parse req.body = .error .parseError
  | .missingModel => HasText lib req (utf8 "model") [] fun model => model = []
  | .otherModel => HasText lib req (utf8 "model") [] fun model =>
      model ≠ [] ∧ model ≠ utf8 "voxtral-4b"
  | .missingInput => HasText lib req (utf8 "input") [] fun input => input.all isSpace = true
  | .longInput => HasText lib req (utf8 "input") [] fun input =>
      0 < deps.maxChars ∧ deps.maxChars < intOfSize input.length
  | .missingVoice => deps.voiceCatalog.isSome = true ∧
      HasText lib req (utf8 "voice") [] fun voice => voice = []
  | .otherVoice => deps.voiceCatalog.isSome = true ∧
      HasText lib req (utf8 "voice") [] fun voice =>
        voice ≠ [] ∧ voice ∉ presetVoices.map Voice.id
  | .otherFormat => HasText lib req (utf8 "response_format") (utf8 "wav") fun format =>
      format ≠ [] ∧ format ≠ utf8 "wav"
  | .speed => ∃ j speed, lib.parse req.body = .ok j ∧
      lib.valueFloat j (utf8 "speed") (.finite 1) = .ok speed ∧
      (speed.lt (.finite (1 / 4)) = true ∨ (Floating.finite 4).lt speed = true)

/-- The request has no fault. -/
def Faultless (lib : JsonLib) (deps : HandlerDeps) (req : HttpRequest) : Prop :=
  ∀ f : Fault, ¬ f.Holds lib deps req

/-! ## One check -/

/-- The result of a check fails with this error. -/
structure ValidationResult.Fails (v : ValidationResult) (e : ApiError) : Prop where
  invalid : v.valid = false
  status : v.httpStatus = e.status
  type : v.errorType = e.type
  code : v.errorCode = e.code
  param : v.errorParam = e.param

/-- A check for these faults fails with one that the request has, and passes when it
has none of them. -/
def Judges (lib : JsonLib) (deps : HandlerDeps) (req : HttpRequest) (faults : List Fault)
    (v : ValidationResult) : Prop :=
  (∃ f ∈ faults, f.Holds lib deps req ∧ v.Fails f.error) ∨
    v.valid = true ∧ ∀ f ∈ faults, ¬ f.Holds lib deps req

/-- The call ends with an exception, or reports a fault of the request. -/
def Blames (lib : JsonLib) (deps : HandlerDeps) (req : HttpRequest) (ending : Ending) : Prop :=
  (∃ e, ending.result = .error e) ∨
    ∃ (f : Fault) (message : Str), ending.result =
      makeErrorResponse lib f.error.status f.error.type f.error.code message f.error.param ∧
    f.Holds lib deps req

theorem Fault.fails {f : Fault} {message : Str} {status : Int} {code param : Str}
    (h : f.error = invalidRequest status code param) :
    (makeValidationError status code message param).Fails f.error := by
  rw [h]
  exact ⟨rfl, rfl, rfl, rfl, rfl⟩

theorem hasText_iff {key d s : Str} {P : Str → Prop} (hj : lib.parse req.body = .ok j)
    (hs : lib.valueString j key d = .ok s) : HasText lib req key d P ↔ P s := by
  constructor
  · rintro ⟨j', hj', s', hs', hp⟩
    cases hj.symm.trans hj'
    cases hs.symm.trans hs'
    exact hp
  · exact fun hp => ⟨j, hj, s, hs, hp⟩

theorem judges_contentType :
    Judges lib deps req [.contentType]
      (validateContentType (req.header (utf8 "content-type"))) := by
  unfold validateContentType
  split
  · next h => exact .inl ⟨.contentType, by simp, h, Fault.fails rfl⟩
  · next h => exact .inr ⟨rfl, by simpa [Fault.Holds] using h⟩

theorem judges_bodySize :
    Judges lib deps req [.bodySize] (validateBodySize req.body.length) := by
  unfold validateBodySize
  split
  · next h => exact .inl ⟨.bodySize, by simp, h, Fault.fails rfl⟩
  · next h => exact .inr ⟨rfl, by simpa [Fault.Holds] using h⟩

theorem judges_model {model : Str} (hj : lib.parse req.body = .ok j)
    (hs : lib.valueString j (utf8 "model") [] = .ok model) :
    Judges lib deps req [.missingModel, .otherModel] (validateModel model) := by
  have hmissing : Fault.missingModel.Holds lib deps req ↔ model = [] := hasText_iff hj hs
  have hother : Fault.otherModel.Holds lib deps req ↔ model ≠ [] ∧ model ≠ utf8 "voxtral-4b" :=
    hasText_iff hj hs
  unfold validateModel
  split
  · next h =>
    exact .inl ⟨.missingModel, by simp, hmissing.mpr (List.isEmpty_iff.mp h), Fault.fails rfl⟩
  next hne =>
  rw [List.isEmpty_iff] at hne
  split
  · next h => exact .inl ⟨.otherModel, by simp, hother.mpr ⟨hne, h⟩, Fault.fails rfl⟩
  · next h => exact .inr ⟨rfl, by simpa [hmissing, hother, hne] using h⟩

theorem judges_input {input : Str} (hj : lib.parse req.body = .ok j)
    (hs : lib.valueString j (utf8 "input") [] = .ok input) :
    Judges lib deps req [.missingInput, .longInput] (validateInput input deps.maxChars) := by
  have hmissing : Fault.missingInput.Holds lib deps req ↔ input.all isSpace = true :=
    hasText_iff hj hs
  have hlong : Fault.longInput.Holds lib deps req ↔
      0 < deps.maxChars ∧ deps.maxChars < intOfSize input.length := hasText_iff hj hs
  unfold validateInput
  split
  · next h =>
    -- the empty string is blank as well
    exact .inl ⟨.missingInput, by simp, hmissing.mpr (by rw [List.isEmpty_iff.mp h]; rfl),
      Fault.fails rfl⟩
  split
  · next h => exact .inl ⟨.missingInput, by simp, hmissing.mpr h, Fault.fails rfl⟩
  next hspace =>
  split
  · next h => exact .inl ⟨.longInput, by simp, hlong.mpr h, Fault.fails rfl⟩
  · next h => exact .inr ⟨rfl, by
      simp only [List.forall_mem_cons, hmissing, hlong]
      exact ⟨hspace, h, by simp⟩⟩

theorem judges_voice {voice : Str} {catalog : VoiceCatalog}
    (hcatalog : deps.voiceCatalog = some catalog) (hj : lib.parse req.body = .ok j)
    (hs : lib.valueString j (utf8 "voice") [] = .ok voice) :
    Judges lib deps req [.missingVoice, .otherVoice] (validateVoice voice catalog) := by
  have hsome : deps.voiceCatalog.isSome = true := by rw [hcatalog]; rfl
  have hmissing : Fault.missingVoice.Holds lib deps req ↔ voice = [] :=
    (and_iff_right hsome).trans (hasText_iff hj hs)
  have hother : Fault.otherVoice.Holds lib deps req ↔
      voice ≠ [] ∧ voice ∉ presetVoices.map Voice.id :=
    (and_iff_right hsome).trans (hasText_iff hj hs)
  unfold validateVoice
  split
  · next h =>
    exact .inl ⟨.missingVoice, by simp, hmissing.mpr (List.isEmpty_iff.mp h), Fault.fails rfl⟩
  next hne =>
  rw [List.isEmpty_iff] at hne
  have hpreset : catalog.isValid voice = true ↔ voice ∈ presetVoices.map Voice.id :=
    VoiceCatalog.isValid_iff
  split
  · next h =>
    have hno : voice ∉ presetVoices.map Voice.id := by
      rw [← hpreset]
      simpa using h
    exact .inl ⟨.otherVoice, by simp, hother.mpr ⟨hne, hno⟩, Fault.fails rfl⟩
  · next h =>
    have hyes : voice ∈ presetVoices.map Voice.id := hpreset.mp (by simpa using h)
    refine .inr ⟨rfl, ?_⟩
    simp only [List.forall_mem_cons, hmissing, hother]
    exact ⟨hne, fun hno => hno.2 hyes, by simp⟩

theorem judges_format {format : Str} (hj : lib.parse req.body = .ok j)
    (hs : lib.valueString j (utf8 "response_format") (utf8 "wav") = .ok format) :
    Judges lib deps req [.otherFormat] (validateResponseFormat format) := by
  have hother : Fault.otherFormat.Holds lib deps req ↔ format ≠ [] ∧ format ≠ utf8 "wav" :=
    hasText_iff hj hs
  unfold validateResponseFormat
  simp only [List.isEmpty_iff]
  split
  · next h =>
    refine .inr ⟨rfl, ?_⟩
    rw [List.forall_mem_singleton, hother, not_and_or, not_not, not_not]
    exact h
  · next h => exact .inl ⟨.otherFormat, by simp, hother.mpr (not_or.mp h), Fault.fails rfl⟩

theorem judges_speed {speed : Floating} (hj : lib.parse req.body = .ok j)
    (hs : lib.valueFloat j (utf8 "speed") (.finite 1) = .ok speed) :
    Judges lib deps req [.speed] (validateSpeed speed) := by
  have hspeed : Fault.speed.Holds lib deps req ↔
      speed.lt (.finite (1 / 4)) = true ∨ (Floating.finite 4).lt speed = true := by
    constructor
    · rintro ⟨j', speed', hj', hs', h⟩
      cases hj.symm.trans hj'
      cases hs.symm.trans hs'
      exact h
    · exact fun h => ⟨j, speed, hj, hs, h⟩
  unfold validateSpeed
  split
  · next h => exact .inl ⟨.speed, by simp, hspeed.mpr h, Fault.fails rfl⟩
  · next h => exact .inr ⟨rfl, by simpa only [List.forall_mem_singleton, hspeed] using h⟩

/-! ## All checks -/

namespace SpeechLemmas

/-- What a part of the reading leaves is what the rest starts from. -/
theorem ends_then {E : Ending → Prop} {α β : Type} {x : Except Ending α}
    {f : α → Except Ending β} {P : α → Prop} {Q : β → Prop} (hx : Ends E x P)
    (hf : ∀ a, P a → Ends E (f a) Q) : Ends E (x >>= f) Q := by
  cases x with
  | ok a => exact hf a hx
  | error ending => exact hx

theorem require_blames {statusCode : Int} {faults : List Fault} {v : ValidationResult}
    (h : Judges lib deps req faults v) :
    Ends (Blames lib deps req) (require lib statusCode v) fun _ =>
      ∀ f ∈ faults, ¬ f.Holds lib deps req := by
  unfold require
  rcases h with ⟨f, _, hholds, hfails⟩ | ⟨hvalid, hnone⟩
  · rw [hfails.invalid]
    refine .inr ⟨f, v.errorMessage, ?_, hholds⟩
    simp only [makeErrorFromValidation, hfails.status, hfails.type, hfails.code, hfails.param]
  · rw [hvalid]
    exact hnone

theorem orThrow_blames {α : Type} (r : Except JsonError α) :
    Ends (Blames lib deps req) (orThrow r) fun a => r = .ok a := by
  cases r with
  | ok a => exact rfl
  | error e => exact .inl ⟨e, rfl⟩

theorem parseBody_blames :
    Ends (Blames lib deps req) (parseBody lib req.body) fun j => lib.parse req.body = .ok j := by
  unfold parseBody
  split
  · next h => exact h
  · next h => exact .inr ⟨.notJson, _, rfl, h⟩
  · exact .inl ⟨_, rfl⟩

theorem requireVoice_blames {voice : Str} (hj : lib.parse req.body = .ok j)
    (hs : lib.valueString j (utf8 "voice") [] = .ok voice) :
    Ends (Blames lib deps req) (requireVoice lib deps voice) fun _ =>
      ∀ f ∈ [Fault.missingVoice, .otherVoice], ¬ f.Holds lib deps req := by
  unfold requireVoice
  split
  · next catalog hcatalog => exact require_blames (judges_voice hcatalog hj hs)
  · next hnone =>
    show ∀ f ∈ [Fault.missingVoice, .otherVoice], ¬ f.Holds lib deps req
    simp [Fault.Holds, hnone]

end SpeechLemmas

open SpeechLemmas

/-- A request that is refused while it is read has the fault that is reported, and one
that is read has none. -/
theorem readSpeech_faults (lib : JsonLib) (deps : HandlerDeps) (req : HttpRequest) :
    Ends (Blames lib deps req) (readSpeech lib deps req) fun _ => Faultless lib deps req := by
  unfold readSpeech
  refine ends_then (require_blames judges_contentType) fun _ hheader => ?_
  refine ends_then (require_blames judges_bodySize) fun _ hsize => ?_
  refine ends_then parseBody_blames fun j hj => ?_
  refine ends_then (orThrow_blames _) fun model hmodel => ?_
  refine ends_then (require_blames (judges_model hj hmodel)) fun _ hnoModel => ?_
  refine ends_then (orThrow_blames _) fun input hinput => ?_
  refine ends_then (require_blames (judges_input hj hinput)) fun _ hnoInput => ?_
  refine ends_then (orThrow_blames _) fun voice hvoice => ?_
  refine ends_then (requireVoice_blames hj hvoice) fun _ hnoVoice => ?_
  refine ends_then (orThrow_blames _) fun format hformat => ?_
  refine ends_then (require_blames (judges_format hj hformat)) fun _ hnoFormat => ?_
  refine ends_then (orThrow_blames _) fun speed hspeed => ?_
  refine ends_then (require_blames (judges_speed hj hspeed)) fun _ hnoSpeed => ?_
  -- no check is left
  show Faultless lib deps req
  intro f
  cases f with
  | contentType => exact hheader _ (by simp)
  | bodySize => exact hsize _ (by simp)
  | notJson => exact fun h => by simp [Fault.Holds, hj] at h
  | missingModel => exact hnoModel _ (by simp)
  | otherModel => exact hnoModel _ (by simp)
  | missingInput => exact hnoInput _ (by simp)
  | longInput => exact hnoInput _ (by simp)
  | missingVoice => exact hnoVoice _ (by simp)
  | otherVoice => exact hnoVoice _ (by simp)
  | otherFormat => exact hnoFormat _ (by simp)
  | speed => exact hnoSpeed _ (by simp)

end VoxtralServer
