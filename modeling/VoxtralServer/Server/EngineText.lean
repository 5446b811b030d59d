import VoxtralServer.Backend.Engine
import VoxtralServer.Server.SpeechAdmission

/-!
# The text that reaches the engine

The input of a request is a `std::string` from its JSON document to the
`SynthesisRequest`. The engine reads it through `c_str()`.

* `readSpeech_input`: the input of a request that is read has passed its check.
* `engine_text_iff`: the engine reads that input exactly when it has no NUL.
* `engine_text_truncated`: an input that begins with NUL, which passes the check,
  reaches the engine as the empty string.
-/

namespace VoxtralServer

variable {lib : JsonLib} {deps : HandlerDeps} {req : HttpRequest} {fields : SpeechFields}

/-- The texts that the calls hand to `tts_generate`. -/
def generateTexts (calls : List EngineCall) : List CString :=
  calls.filterMap fun call =>
    match call with
    | .generate _ text _ _ => some text
    | _ => none

namespace SpeechLemmas

theorem bind_ok {α β : Type} {x : Except Ending α} {f : α → Except Ending β} {b : β}
    (h : (x >>= f) = .ok b) : ∃ a, x = .ok a ∧ f a = .ok b := by
  cases x with
  | error ending => cases h
  | ok a => exact ⟨a, rfl, h⟩

theorem valid_of_require {statusCode : Int} {v : ValidationResult} {u : Unit}
    (h : require lib statusCode v = .ok u) : v.valid = true := by
  unfold require at h
  cases hv : v.valid with
  | true => rfl
  | false =>
    rw [hv] at h
    cases h

end SpeechLemmas

open SpeechLemmas

/-- The input of a request that is read has passed its check. -/
theorem readSpeech_input (h : readSpeech lib deps req = .ok fields) :
    (validateInput fields.input deps.maxChars).valid = true := by
  obtain ⟨_, _, h⟩ := bind_ok h
  obtain ⟨_, _, h⟩ := bind_ok h
  obtain ⟨parsed, _, h⟩ := bind_ok h
  obtain ⟨model, _, h⟩ := bind_ok h
  obtain ⟨_, _, h⟩ := bind_ok h
  obtain ⟨input, _, h⟩ := bind_ok h
  obtain ⟨_, hinput, h⟩ := bind_ok h
  obtain ⟨voice, _, h⟩ := bind_ok h
  obtain ⟨_, _, h⟩ := bind_ok h
  obtain ⟨format, _, h⟩ := bind_ok h
  obtain ⟨_, _, h⟩ := bind_ok h
  obtain ⟨speed, _, h⟩ := bind_ok h
  obtain ⟨_, _, h⟩ := bind_ok h
  cases h
  exact valid_of_require hinput

/-- A request that is submitted carries the fields that were read. -/
theorem submitted_fields {pool : Option PoolView} {start stop : Int} {request : SynthesisRequest}
    (h : request ∈ (handleSpeech lib deps pool start stop req).submits) :
    ∃ fields, readSpeech lib deps req = .ok fields ∧ request = synthRequest fields := by
  unfold handleSpeech at h
  split at h
  · cases h
  next fields hread =>
  refine ⟨fields, hread, ?_⟩
  split at h
  · cases h
  split at h
  · cases h
  dsimp only at h
  split at h <;> exact List.mem_singleton.mp h

/-- With the engine, `tts_generate` is called once, with the text as a C string. -/
theorem synthesize_texts {b : EngineBackend} (hinit : b.initialized = true)
    (hreal : b.useRealEngine = true) (request : SynthesisRequest) (reply : EngineReply) :
    generateTexts (b.synthesize request reply).1 = [cStr request.text] := by
  rw [EngineBackend.synthesize_calls hinit hreal, generateTexts]
  split
  · cases reply.samples <;> rfl
  · rfl

/-- **The engine's text.** Of every request that `handle_speech` submits and the
backend processes with the engine, the engine reads the input that passed the
check, byte for byte, exactly when it has no NUL. -/
theorem engine_text_iff {pool : Option PoolView} {start stop : Int} {request : SynthesisRequest}
    (h : request ∈ (handleSpeech lib deps pool start stop req).submits) {b : EngineBackend}
    (hinit : b.initialized = true) (hreal : b.useRealEngine = true) (reply : EngineReply) :
    ∃ fields text, readSpeech lib deps req = .ok fields ∧
      (validateInput fields.input deps.maxChars).valid = true ∧
      generateTexts (b.synthesize request reply).1 = [text] ∧
      (text.bytes = fields.input ↔ 0 ∉ fields.input) := by
  obtain ⟨fields, hread, rfl⟩ := submitted_fields h
  exact ⟨fields, cStr fields.input, hread, readSpeech_input hread,
    synthesize_texts hinit hreal _ reply, cStr_bytes_eq_iff⟩

/-- A backend that has loaded its engine. -/
def exLoaded : EngineBackend where
  initialized := true
  ctx := some 1
  useRealEngine := true

def exNoSamples : EngineReply where
  generated := ⟨1, none, 0⟩
  address := 0
  inferenceTime := .finite 0

/-- The pool accepts the request. -/
def exAccepts : PoolView := ⟨true, 0, true, 1, .error [], 0⟩

theorem submits_of_read (h : readSpeech lib deps req = .ok fields) (start stop : Int) :
    synthRequest fields ∈ (handleSpeech lib deps (some exAccepts) start stop req).submits := by
  simp [handleSpeech, h, exAccepts]

/-- A document with a short input that is not blank is read. -/
theorem exSpeak_read (hlib : lib.Documented) {body input : Str}
    (hparse : lib.parse body = .ok (exSpeakJson input)) (hbody : body.length ≤ 1048576)
    (hblank : input.all isSpace = false) (hlength : intOfSize input.length ≤ 4096) :
    readSpeech lib exSpeakDeps (exSpeechRequest body) = .ok (exSpeakFields input) := by
  have hne : input ≠ [] := by
    rintro rfl
    cases hblank
  have htype : utf8 "application/json" <:+:
      (exSpeechRequest body).header (utf8 "content-type") := List.infix_refl _
  have hvoice : utf8 "de_male" ∈ presetVoices.map Voice.id := by decide
  exact readSpeech_valid hlib rfl hparse (exSpeakJson_fields lib input) (by decide)
    ⟨htype, hbody, rfl, hne, hblank, hlength, hvoice, .inr rfl, 1, rfl, by decide +kernel,
      by decide +kernel⟩

/-- The input `hello` reaches the engine. -/
theorem engine_text_iff_hello : ∃ fields text,
    readSpeech exSpeakLib exSpeakDeps (exSpeechRequest exSpeakBody) = .ok fields ∧
    (validateInput fields.input exSpeakDeps.maxChars).valid = true ∧
    generateTexts (exLoaded.synthesize (synthRequest (exSpeakFields (utf8 "hello")))
      exNoSamples).1 = [text] ∧
    (text.bytes = fields.input ↔ 0 ∉ fields.input) :=
  engine_text_iff (submits_of_read (exSpeak_read exSpeakLib_documented (by rfl) (by decide)
    (by decide) (by decide)) 0 0) rfl rfl exNoSamples

/-- A body whose input begins with an escaped NUL. -/
def exNulBody : Str := utf8 ("\x7b\"input\":\"\\u0000hello\",\"model\":\"voxtral-4b\"," ++
  "\"voice\":\"de_male\"\x7d")

def exNulLib : JsonLib := exJson [(exNulBody, exSpeakJson (0 :: utf8 "hello"))]

theorem exNulLib_documented : exNulLib.Documented := by
  have hnul : ValidUtf8 (0 :: utf8 "hello") := ⟨Char.ofNat 0 :: "hello".toList, by decide⟩
  exact exJson_documented (List.forall_mem_singleton.mpr (exSpeakJson_utf8 hnul))

/-- The request is submitted, and the engine reads nothing of it. -/
theorem engine_text_truncated : exNulLib.Documented ∧ ∃ fields request text,
    readSpeech exNulLib exSpeakDeps (exSpeechRequest exNulBody) = .ok fields ∧
    request ∈ (handleSpeech exNulLib exSpeakDeps (some exAccepts) 0 0
      (exSpeechRequest exNulBody)).submits ∧
    (validateInput fields.input exSpeakDeps.maxChars).valid = true ∧
    generateTexts (exLoaded.synthesize request exNoSamples).1 = [text] ∧
    text.bytes = [] ∧ text.bytes ≠ fields.input := by
  have hread : readSpeech exNulLib exSpeakDeps (exSpeechRequest exNulBody) =
      .ok (exSpeakFields (0 :: utf8 "hello")) :=
    exSpeak_read exNulLib_documented (by rfl) (by decide) (by decide) (by decide)
  exact ⟨exNulLib_documented, _, _, _, hread, submits_of_read hread 0 0, readSpeech_input hread,
    synthesize_texts rfl rfl _ _, by decide, by decide⟩

end VoxtralServer
