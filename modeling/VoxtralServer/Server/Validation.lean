import Mathlib.Data.List.Infix
import VoxtralServer.Json

/-!
# Request validation

The checks on the fields of a speech request, and the catalog of voices.

* `validateModel_proper` and its siblings: each check passes or fails with a
  client error.
* `validateVoice_valid` and its siblings: the values that pass.
-/

namespace VoxtralServer

/-! ## Voices -/

/-- `Voice`. -/
structure Voice where
  id : Str
  name : Str
  language : Str
deriving DecidableEq, Repr

/-- The voices that the `VoiceCatalog` constructor lists. -/
def presetVoices : List Voice :=
  [⟨utf8 "ar_male", utf8 "Arabic Male", utf8 "ar"⟩,
   ⟨utf8 "de_female", utf8 "German Female", utf8 "de"⟩,
   ⟨utf8 "de_male", utf8 "German Male", utf8 "de"⟩,
   ⟨utf8 "casual_female", utf8 "Casual Female", utf8 "en"⟩,
   ⟨utf8 "casual_male", utf8 "Casual Male", utf8 "en"⟩,
   ⟨utf8 "cheerful_female", utf8 "Cheerful Female", utf8 "en"⟩,
   ⟨utf8 "neutral_female", utf8 "Neutral Female", utf8 "en"⟩,
   ⟨utf8 "neutral_male", utf8 "Neutral Male", utf8 "en"⟩,
   ⟨utf8 "es_female", utf8 "Spanish Female", utf8 "es"⟩,
   ⟨utf8 "es_male", utf8 "Spanish Male", utf8 "es"⟩,
   ⟨utf8 "fr_female", utf8 "French Female", utf8 "fr"⟩,
   ⟨utf8 "fr_male", utf8 "French Male", utf8 "fr"⟩,
   ⟨utf8 "hi_female", utf8 "Hindi Female", utf8 "hi"⟩,
   ⟨utf8 "hi_male", utf8 "Hindi Male", utf8 "hi"⟩,
   ⟨utf8 "it_female", utf8 "Italian Female", utf8 "it"⟩,
   ⟨utf8 "it_male", utf8 "Italian Male", utf8 "it"⟩,
   ⟨utf8 "nl_female", utf8 "Dutch Female", utf8 "nl"⟩,
   ⟨utf8 "nl_male", utf8 "Dutch Male", utf8 "nl"⟩,
   ⟨utf8 "pt_female", utf8 "Portuguese Female", utf8 "pt"⟩,
   ⟨utf8 "pt_male", utf8 "Portuguese Male", utf8 "pt"⟩]

/-- `VoiceCatalog`: constructed with the preset voices and never changed. -/
structure VoiceCatalog where
  voices : List Voice := presetVoices
  preset : voices = presetVoices := by rfl

namespace VoiceCatalog

/-- `find`. -/
def find (c : VoiceCatalog) (id : Str) : Option Voice := c.voices.find? fun v => v.id == id

/-- `is_valid`. -/
def isValid (c : VoiceCatalog) (id : Str) : Bool := (c.find id).isSome

/-- `list_valid_ids`. -/
def listValidIds (c : VoiceCatalog) : Str := (utf8 ", ").intercalate (c.voices.map Voice.id)

theorem isValid_iff {c : VoiceCatalog} {id : Str} :
    c.isValid id = true ↔ id ∈ presetVoices.map Voice.id := by
  unfold isValid find
  rw [c.preset, List.find?_isSome, List.mem_map]
  constructor
  · rintro ⟨v, hv, he⟩
    exact ⟨v, hv, by simpa using he⟩
  · rintro ⟨v, hv, he⟩
    exact ⟨v, hv, by simpa using he⟩

/-- The list of identifiers is the text of a literal. -/
theorem listValidIds_utf8 (c : VoiceCatalog) : ValidUtf8 c.listValidIds := by
  have hall : ∀ id ∈ c.voices.map Voice.id, ValidUtf8 id := by
    rw [c.preset]
    simp [presetVoices, validUtf8_utf8]
  unfold listValidIds
  generalize c.voices.map Voice.id = ids at hall
  induction ids with
  | nil => exact ⟨[], rfl⟩
  | cons id ids ih =>
    obtain ⟨hid, hids⟩ := List.forall_mem_cons.mp hall
    cases ids with
    | nil => simpa using hid
    | cons id' ids =>
      rw [List.intercalate_cons_cons]
      exact (hid.append (validUtf8_utf8 _)).append (ih hids)

end VoiceCatalog

/-! ## Checks -/

/-- `ValidationResult`. -/
structure ValidationResult where
  valid : Bool := true
  httpStatus : Int := 200
  errorType : Str := []
  errorCode : Str := []
  errorMessage : Str := []
  errorParam : Str := []
deriving DecidableEq, Repr

/-- `make_validation_error`. -/
def makeValidationError (status : Int) (code message : Str) (param : Str := []) :
    ValidationResult where
  valid := false
  httpStatus := status
  errorType := utf8 "invalid_request_error"
  errorCode := code
  errorMessage := message
  errorParam := param

/-- `validate_content_type`. -/
def validateContentType (contentType : Str) : ValidationResult :=
  if ¬ utf8 "application/json" <:+: contentType then
    makeValidationError 400 (utf8 "invalid_content_type")
      (utf8 "Content-Type must be application/json.")
  else {}

/-- `validate_body_size`. -/
def validateBodySize (bodySize : Nat) (maxBodyBytes : Nat := 1048576) : ValidationResult :=
  if bodySize > maxBodyBytes then
    makeValidationError 413 (utf8 "payload_too_large")
      (utf8 "Request body exceeds maximum size of 1MB.")
  else {}

/-- `validate_model`. -/
def validateModel (model : Str) : ValidationResult :=
  if model.isEmpty then
    makeValidationError 400 (utf8 "missing_input") (utf8 "Missing required parameter: 'model'.")
      (utf8 "model")
  else if model ≠ utf8 "voxtral-4b" then
    makeValidationError 400 (utf8 "invalid_model")
      (utf8 "Invalid model. Supported models: voxtral-4b.") (utf8 "model")
  else {}

/-- `validate_input`. -/
def validateInput (input : Str) (maxChars : Int := 4096) : ValidationResult :=
  if input.isEmpty then
    makeValidationError 400 (utf8 "missing_input") (utf8 "Missing required parameter: 'input'.")
      (utf8 "input")
  else if input.all isSpace then
    makeValidationError 400 (utf8 "missing_input")
      (utf8 "Input must not be empty or whitespace-only.") (utf8 "input")
  else if maxChars > 0 ∧ intOfSize input.length > maxChars then
    makeValidationError 400 (utf8 "string_above_max_length")
      (utf8 "Input exceeds maximum length of " ++ toStr maxChars ++ utf8 " characters.")
      (utf8 "input")
  else {}

/-- `validate_voice`. -/
def validateVoice (voice : Str) (catalog : VoiceCatalog) : ValidationResult :=
  if voice.isEmpty then
    makeValidationError 400 (utf8 "missing_input") (utf8 "Missing required parameter: 'voice'.")
      (utf8 "voice")
  else if !catalog.isValid voice then
    makeValidationError 400 (utf8 "invalid_voice")
      (utf8 "Invalid voice: '" ++ voice ++ utf8 "'. Available voices: " ++ catalog.listValidIds ++
        utf8 ".")
      (utf8 "voice")
  else {}

/-- `validate_response_format`. -/
def validateResponseFormat (format : Str) : ValidationResult :=
  if format.isEmpty ∨ format = utf8 "wav" then {}
  else
    makeValidationError 400 (utf8 "invalid_format")
      (utf8 "Invalid response_format: '" ++ format ++ utf8 "'. Supported formats: wav.")
      (utf8 "response_format")

/-- `validate_speed`. -/
def validateSpeed (speed : Floating) : ValidationResult :=
  if speed.lt (.finite (1 / 4)) ∨ (Floating.finite 4).lt speed then
    makeValidationError 400 (utf8 "speed_out_of_range")
      (utf8 "Speed must be between 0.25 and 4.0.") (utf8 "speed")
  else {}

/-! ## What a check says -/

/-- The result is a client error whose texts are valid UTF-8. -/
structure ValidationResult.ClientError (r : ValidationResult) : Prop where
  invalid : r.valid = false
  status : 400 ≤ r.httpStatus ∧ r.httpStatus < 500
  errorType : ValidUtf8 r.errorType
  errorCode : ValidUtf8 r.errorCode
  errorMessage : ValidUtf8 r.errorMessage
  errorParam : ValidUtf8 r.errorParam

/-- The check passes or fails with a client error. -/
def ValidationResult.Proper (r : ValidationResult) : Prop := r.valid = true ∨ r.ClientError

theorem makeValidationError_proper {status : Int} {code message param : Str}
    (hs : 400 ≤ status ∧ status < 500) (hc : ValidUtf8 code) (hm : ValidUtf8 message)
    (hp : ValidUtf8 param) : (makeValidationError status code message param).Proper :=
  .inr ⟨rfl, hs, validUtf8_utf8 _, hc, hm, hp⟩

theorem validateContentType_proper (contentType : Str) :
    (validateContentType contentType).Proper := by
  unfold validateContentType
  split
  · exact makeValidationError_proper (by decide) (validUtf8_utf8 _) (validUtf8_utf8 _) validUtf8_nil
  · exact .inl rfl

theorem validateBodySize_proper (n m : Nat) : (validateBodySize n m).Proper := by
  unfold validateBodySize
  split
  · exact makeValidationError_proper (by decide) (validUtf8_utf8 _) (validUtf8_utf8 _) validUtf8_nil
  · exact .inl rfl

theorem validateModel_proper (model : Str) : (validateModel model).Proper := by
  unfold validateModel
  split
  · exact makeValidationError_proper (by decide) (validUtf8_utf8 _) (validUtf8_utf8 _)
      (validUtf8_utf8 _)
  split
  · exact makeValidationError_proper (by decide) (validUtf8_utf8 _) (validUtf8_utf8 _)
      (validUtf8_utf8 _)
  · exact .inl rfl

theorem validateInput_proper (input : Str) (maxChars : Int) :
    (validateInput input maxChars).Proper := by
  unfold validateInput
  split
  · exact makeValidationError_proper (by decide) (validUtf8_utf8 _) (validUtf8_utf8 _)
      (validUtf8_utf8 _)
  split
  · exact makeValidationError_proper (by decide) (validUtf8_utf8 _) (validUtf8_utf8 _)
      (validUtf8_utf8 _)
  split
  · exact makeValidationError_proper (by decide) (validUtf8_utf8 _)
      (((validUtf8_utf8 _).append (validUtf8_utf8 _)).append (validUtf8_utf8 _)) (validUtf8_utf8 _)
  · exact .inl rfl

/-- The message quotes the voice, so it is valid UTF-8 when the voice is. -/
theorem validateVoice_proper {voice : Str} (hv : ValidUtf8 voice) (catalog : VoiceCatalog) :
    (validateVoice voice catalog).Proper := by
  unfold validateVoice
  split
  · exact makeValidationError_proper (by decide) (validUtf8_utf8 _) (validUtf8_utf8 _)
      (validUtf8_utf8 _)
  split
  · exact makeValidationError_proper (by decide) (validUtf8_utf8 _)
      (((((validUtf8_utf8 _).append hv).append (validUtf8_utf8 _)).append
        catalog.listValidIds_utf8).append (validUtf8_utf8 _)) (validUtf8_utf8 _)
  · exact .inl rfl

theorem validateResponseFormat_proper {format : Str} (hf : ValidUtf8 format) :
    (validateResponseFormat format).Proper := by
  unfold validateResponseFormat
  split
  · exact .inl rfl
  · exact makeValidationError_proper (by decide) (validUtf8_utf8 _)
      (((validUtf8_utf8 _).append hf).append (validUtf8_utf8 _)) (validUtf8_utf8 _)

theorem validateSpeed_proper (speed : Floating) : (validateSpeed speed).Proper := by
  unfold validateSpeed
  split
  · exact makeValidationError_proper (by decide) (validUtf8_utf8 _) (validUtf8_utf8 _)
      (validUtf8_utf8 _)
  · exact .inl rfl

/-! ## The status of a rejection -/

theorem validateContentType_status (contentType : Str) :
    (validateContentType contentType).valid = true ∨
      (validateContentType contentType).httpStatus = 400 := by
  unfold validateContentType
  split
  · exact .inr rfl
  · exact .inl rfl

theorem validateModel_status (model : Str) :
    (validateModel model).valid = true ∨ (validateModel model).httpStatus = 400 := by
  unfold validateModel
  split
  · exact .inr rfl
  split
  · exact .inr rfl
  · exact .inl rfl

theorem validateInput_status (input : Str) (maxChars : Int) :
    (validateInput input maxChars).valid = true ∨
      (validateInput input maxChars).httpStatus = 400 := by
  unfold validateInput
  split
  · exact .inr rfl
  split
  · exact .inr rfl
  split
  · exact .inr rfl
  · exact .inl rfl

theorem validateVoice_status (voice : Str) (catalog : VoiceCatalog) :
    (validateVoice voice catalog).valid = true ∨
      (validateVoice voice catalog).httpStatus = 400 := by
  unfold validateVoice
  split
  · exact .inr rfl
  split
  · exact .inr rfl
  · exact .inl rfl

theorem validateResponseFormat_status (format : Str) :
    (validateResponseFormat format).valid = true ∨
      (validateResponseFormat format).httpStatus = 400 := by
  unfold validateResponseFormat
  split
  · exact .inl rfl
  · exact .inr rfl

theorem validateSpeed_status (speed : Floating) :
    (validateSpeed speed).valid = true ∨ (validateSpeed speed).httpStatus = 400 := by
  unfold validateSpeed
  split
  · exact .inr rfl
  · exact .inl rfl

/-! ## What passes -/

theorem validateContentType_valid {contentType : Str} :
    (validateContentType contentType).valid = true ↔
      utf8 "application/json" <:+: contentType := by
  unfold validateContentType
  split
  · next h => exact iff_of_false (by simp [makeValidationError]) h
  · next h => exact iff_of_true rfl (not_not.mp h)

theorem validateBodySize_valid {n m : Nat} : (validateBodySize n m).valid = true ↔ n ≤ m := by
  unfold validateBodySize
  split
  · next h => exact iff_of_false (by simp [makeValidationError]) (Nat.not_le.mpr h)
  · next h => exact iff_of_true rfl (Nat.not_lt.mp h)

/-- The only model. The empty string fails a check of its own. -/
theorem validateModel_valid {model : Str} :
    (validateModel model).valid = true ↔ model = utf8 "voxtral-4b" := by
  unfold validateModel
  split
  · next h =>
    rw [List.isEmpty_iff] at h
    exact iff_of_false (by simp [makeValidationError]) (by rw [h]; decide)
  split
  · next h => exact iff_of_false (by simp [makeValidationError]) h
  · next h => exact iff_of_true rfl (not_not.mp h)

/-- The inputs that pass, when there is a limit. -/
theorem validateInput_valid {input : Str} {maxChars : Int} (hmax : 0 < maxChars) :
    (validateInput input maxChars).valid = true ↔
      input ≠ [] ∧ input.all isSpace = false ∧ intOfSize input.length ≤ maxChars := by
  unfold validateInput
  split
  · next h => simp [makeValidationError, List.isEmpty_iff.mp h]
  next hne =>
  rw [List.isEmpty_iff] at hne
  split
  · next h => simp [makeValidationError, h]
  next hspace =>
  rw [Bool.not_eq_true] at hspace
  split
  · next h => simp [makeValidationError, Int.not_le.mpr h.2]
  · next h => exact iff_of_true rfl ⟨hne, hspace, Int.not_lt.mp fun hlt => h ⟨hmax, hlt⟩⟩

/-- The voices that pass are the preset ones. -/
theorem validateVoice_valid {voice : Str} {catalog : VoiceCatalog} :
    (validateVoice voice catalog).valid = true ↔ voice ∈ presetVoices.map Voice.id := by
  rw [← VoiceCatalog.isValid_iff (c := catalog)]
  have hempty : catalog.isValid [] = false := by
    rw [Bool.eq_false_iff, ne_eq, VoiceCatalog.isValid_iff]
    decide
  unfold validateVoice
  split
  · next h =>
    rw [List.isEmpty_iff] at h
    simp [makeValidationError, h, hempty]
  split
  · next h => simpa [makeValidationError] using h
  · next h => simpa using h

theorem validateResponseFormat_valid {format : Str} :
    (validateResponseFormat format).valid = true ↔ format = [] ∨ format = utf8 "wav" := by
  unfold validateResponseFormat
  simp only [List.isEmpty_iff]
  split
  · next h => exact iff_of_true rfl h
  · next h => exact iff_of_false (by simp [makeValidationError]) h

/-- The speeds that pass, NaN aside. -/
theorem validateSpeed_valid {speed : Floating} (hnan : speed ≠ .nan) :
    (validateSpeed speed).valid = true ↔ ∃ q, speed = .finite q ∧ 1 / 4 ≤ q ∧ q ≤ 4 := by
  cases speed with
  | nan => exact absurd rfl hnan
  | inf negative => cases negative <;> simp [validateSpeed, Floating.lt, makeValidationError]
  | finite q =>
    simp only [validateSpeed, Floating.lt, decide_eq_true_eq, Floating.finite.injEq,
      exists_eq_left']
    split
    · next h =>
      refine iff_of_false (by simp [makeValidationError]) ?_
      rintro ⟨hlow, hhigh⟩
      exact h.elim (not_lt_of_ge hlow) (not_lt_of_ge hhigh)
    · next h =>
      rw [not_or, not_lt, not_lt] at h
      exact iff_of_true rfl h

end VoxtralServer
