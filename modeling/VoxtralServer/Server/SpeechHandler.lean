import VoxtralServer.Config
import VoxtralServer.Pool.Job
import VoxtralServer.Server.Http
import VoxtralServer.Server.Validation

/-!
# The speech handler

`handle_speech` checks the request, submits a job to the pool and waits for its
callback. This module follows one call on its own. What the pool answers is an
input here, and `readSpeech` and the other parts are shared with the model of
concurrent calls.

* `readSpeech_answers`: which requests are read, and that each of the others is
  answered or makes the handler throw.
* `malformed_answered`: a call is answered as it should be, and a malformed
  request with a client error, exactly when the request does not escape the
  checks.
-/

namespace VoxtralServer

/-! ## Reading the request -/

/-- How a call ends before its job is accepted: the metrics it updates, and its
response or exception. -/
structure Ending where
  metrics : List MetricOp
  result : Except JsonError HttpResponse

/-- The fields of a speech request. -/
structure SpeechFields where
  model : Str
  input : Str
  voice : Str
  responseFormat : Str
  speed : Floating
deriving DecidableEq, Repr

/-- What the handler uses of `HandlerDeps`, apart from the pool. -/
structure HandlerDeps where
  voiceCatalog : Option VoiceCatalog := none
  config : Option ServerConfig := none

/-- `make_error_from_validation`. -/
def makeErrorFromValidation (lib : JsonLib) (v : ValidationResult) :
    Except JsonError HttpResponse :=
  makeErrorResponse lib v.httpStatus v.errorType v.errorCode v.errorMessage v.errorParam

/-- `if (!v.valid)`: counts the status code and answers with the error. -/
def require (lib : JsonLib) (statusCode : Int) (v : ValidationResult) : Except Ending Unit :=
  if !v.valid then .error ⟨[.requestsTotal statusCode], makeErrorFromValidation lib v⟩
  else .ok ()

/-- An exception that the handler does not catch. -/
def orThrow {α : Type} : Except JsonError α → Except Ending α
  | .ok a => .ok a
  | .error e => .error ⟨[], .error e⟩

/-- `json::parse` with the handler of `json::parse_error` around it. -/
def parseBody (lib : JsonLib) (body : Str) : Except Ending Json :=
  match lib.parse body with
  | .ok parsed => .ok parsed
  | .error .parseError =>
    .error ⟨[.requestsTotal 400], makeErrorResponse lib 400 (utf8 "invalid_request_error")
      (utf8 "invalid_content_type") (utf8 "Invalid JSON in request body.")⟩
  | .error e => .error ⟨[], .error e⟩

/-- The check of the voice, when there is a catalog. -/
def requireVoice (lib : JsonLib) (deps : HandlerDeps) (voice : Str) : Except Ending Unit :=
  match deps.voiceCatalog with
  | some catalog => require lib 400 (validateVoice voice catalog)
  | none => .ok ()

/-- `max_chars`. -/
def HandlerDeps.maxChars (deps : HandlerDeps) : Int :=
  match deps.config with
  | some config => config.maxInputChars
  | none => 4096

/-- Steps 1 to 4 of `handle_speech`. -/
def readSpeech (lib : JsonLib) (deps : HandlerDeps) (req : HttpRequest) :
    Except Ending SpeechFields := do
  require lib 400 (validateContentType (req.header (utf8 "content-type")))
  let szResult := validateBodySize req.body.length
  require lib szResult.httpStatus szResult
  let parsed ← parseBody lib req.body
  let model ← orThrow (lib.valueString parsed (utf8 "model") [])
  require lib 400 (validateModel model)
  let input ← orThrow (lib.valueString parsed (utf8 "input") [])
  require lib 400 (validateInput input deps.maxChars)
  let voice ← orThrow (lib.valueString parsed (utf8 "voice") [])
  requireVoice lib deps voice
  let responseFormat ← orThrow (lib.valueString parsed (utf8 "response_format") (utf8 "wav"))
  require lib 400 (validateResponseFormat responseFormat)
  let speed ← orThrow (lib.valueFloat parsed (utf8 "speed") (.finite 1))
  require lib 400 (validateSpeed speed)
  return { model, input, voice, responseFormat, speed }

/-! ## The rest of the call -/

/-- Step 5, when there is no pool or it does not accept. -/
def poolNotReady (lib : JsonLib) : Ending where
  metrics := [.requestsTotal 503]
  result := makeErrorResponse lib 503 (utf8 "server_error") (utf8 "model_not_ready")
    (utf8 "The model is not ready to accept requests. Try again later.")

/-- Step 6. -/
def requestMetrics (fields : SpeechFields) : List MetricOp :=
  [.inputCharactersTotal fields.input.length, .inputCharacters fields.input.length,
   .voiceRequestsTotal fields.voice]

/-- `synth_req` in step 7. -/
def synthRequest (fields : SpeechFields) : SynthesisRequest where
  text := fields.input
  voice := fields.voice
  model := fields.model
  responseFormat := fields.responseFormat
  speed := fields.speed

/-- Step 7, when `submit` returns false. -/
def queueFull (lib : JsonLib) : Ending where
  metrics := [.activeJobsDecrement, .requestsTotal 503]
  result := makeErrorResponse lib 503 (utf8 "server_error") (utf8 "queue_full")
    (utf8 "Server is at capacity. Please try again later.")

/-- `synthesis_secs` in step 10. -/
def secondsBetween (start stop : Int) : Floating := .finite ((stop - start : Int) / 1000000000)

/-- Steps 9 to 11: `synth_error` and `synth_result` as the callback left them. -/
def respond (lib : JsonLib) (start stop : Int) (synthError : Str) (synthResult : SynthesisResult) :
    Ending :=
  if !synthError.isEmpty then
    { metrics := [.errorsTotal, .requestsTotal 500]
      result := makeErrorResponse lib 500 (utf8 "server_error") (utf8 "inference_failed")
        (utf8 "An error occurred during speech synthesis.") }
  else
    { metrics := [.synthesisDurationSeconds (secondsBetween start stop),
        .inferenceDurationSeconds synthResult.inferenceTimeSeconds,
        .audioDurationSeconds synthResult.durationSeconds,
        .audioBytesGeneratedTotal synthResult.audioData.length, .requestsTotal 200]
      result := .ok
        { status := 200
          headers := ((∅ : Table Str Str).insert (utf8 "Content-Type") (utf8 "audio/wav")).insert
            (utf8 "Content-Length") (toStr synthResult.audioData.length)
          binaryBody := synthResult.audioData } }

/-- The two variables of the frame that the callbacks write. -/
def Delivery.store : Delivery → Str × SynthesisResult
  | .success result => ([], result)
  | .error text => (text, {})

/-- What the pool answers in one call: whether it accepts, the three readings of
its queue depth, what `submit` returns, and the callback it makes. -/
structure PoolView where
  accepting : Bool
  depthBefore : Int
  submitted : Bool
  depthAfter : Int
  delivery : Delivery
  depthDone : Int

/-- A call of `handle_speech`: its metrics, the requests it passed to `submit`,
and its response or exception. -/
structure SpeechOutcome where
  metrics : List MetricOp
  submits : List SynthesisRequest := []
  result : Except JsonError HttpResponse

/-- `handle_speech`. -/
def handleSpeech (lib : JsonLib) (deps : HandlerDeps) (pool : Option PoolView) (start stop : Int)
    (req : HttpRequest) : SpeechOutcome :=
  match readSpeech lib deps req with
  | .error ending => { metrics := ending.metrics, result := ending.result }
  | .ok fields =>
    match pool with
    | none => { metrics := (poolNotReady lib).metrics, result := (poolNotReady lib).result }
    | some pool =>
      if !pool.accepting then
        { metrics := (poolNotReady lib).metrics, result := (poolNotReady lib).result }
      else
        let metrics := requestMetrics fields ++
          [.activeJobsIncrement, .queueDepthSet pool.depthBefore]
        if !pool.submitted then
          { metrics := metrics ++ (queueFull lib).metrics
            submits := [synthRequest fields]
            result := (queueFull lib).result }
        else
          let (synthError, synthResult) := pool.delivery.store
          let ending := respond lib start stop synthError synthResult
          { metrics := metrics ++ [.queueDepthSet pool.depthAfter, .activeJobsDecrement,
              .queueDepthSet pool.depthDone] ++ ending.metrics
            submits := [synthRequest fields]
            result := ending.result }

/-! ## Rules for the checks -/

/-- `x` gives a value that satisfies `P`, or ends in a way that satisfies `E`. -/
def Ends {α : Type} (E : Ending → Prop) (x : Except Ending α) (P : α → Prop) : Prop :=
  match x with
  | .ok a => P a
  | .error ending => E ending

/-- The call is answered with a client error in the OpenAI format. -/
def ClientError (lib : JsonLib) (ending : Ending) : Prop :=
  ∃ resp, ending.result = .ok resp ∧ 400 ≤ resp.status ∧ resp.status < 500 ∧
    IsErrorResponse lib resp

/-- The call is answered. -/
def Answered (ending : Ending) : Prop := ∃ resp, ending.result = .ok resp

namespace SpeechLemmas

variable {lib : JsonLib} {E : Ending → Prop}

/-- All client errors are of this kind, and all that are of it are answers. -/
structure Between (lib : JsonLib) (E : Ending → Prop) : Prop where
  clientError : ∀ ending, ClientError lib ending → E ending
  answered : ∀ ending, E ending → Answered ending

theorem between_clientError (lib : JsonLib) : Between lib (ClientError lib) :=
  ⟨fun _ h => h, fun _ ⟨resp, h, _⟩ => ⟨resp, h⟩⟩

theorem between_answered (lib : JsonLib) : Between lib Answered :=
  ⟨(between_clientError lib).answered, fun _ h => h⟩

theorem ends_bind {α β : Type} {x : Except Ending α} {f : α → Except Ending β} {P : β → Prop} :
    Ends E (x >>= f) P ↔ Ends E x fun a => Ends E (f a) P := by
  cases x <;> exact Iff.rfl

theorem ends_pure {α : Type} {a : α} {P : α → Prop} : Ends E (pure a) P ↔ P a := Iff.rfl

theorem ends_orThrow (hE : Between lib E) {α : Type} {r : Except JsonError α} {P : α → Prop} :
    Ends E (orThrow r) P ↔ ∃ a, r = .ok a ∧ P a := by
  cases r with
  | ok a => exact ⟨fun h => ⟨a, rfl, h⟩, fun ⟨_, h, hp⟩ => by cases h; exact hp⟩
  | error e =>
    constructor
    · intro h
      obtain ⟨_, h⟩ := hE.answered _ h
      cases h
    · rintro ⟨_, h, _⟩
      cases h

theorem clientError_of_ok {metrics : List MetricOp} {status : Int}
    {errorType errorCode message param : Str} (hlib : lib.Documented)
    (hs : 400 ≤ status ∧ status < 500) (ht : ValidUtf8 errorType) (hc : ValidUtf8 errorCode)
    (hm : ValidUtf8 message) (hp : ValidUtf8 param) :
    ClientError lib
      ⟨metrics, makeErrorResponse lib status errorType errorCode message param⟩ := by
  obtain ⟨resp, hresp⟩ := makeErrorResponse_ok status hlib ht hc hm hp
  obtain ⟨hstatus, hformat⟩ := makeErrorResponse_status hresp
  exact ⟨resp, hresp, by omega, by omega, hformat⟩

/-- A check lets its request through or answers it. -/
theorem ends_require (hlib : lib.Documented) (hE : Between lib E) {statusCode : Int}
    {v : ValidationResult} (hv : v.Proper) {P : Unit → Prop} :
    Ends E (require lib statusCode v) P ↔ (v.valid = true → P ()) := by
  unfold require
  rcases hv with hv | hv
  · simp [Ends, hv]
  · simp only [hv.invalid, Bool.not_false, if_true, Ends, Bool.false_eq_true, false_imp_iff,
      iff_true]
    exact hE.clientError _ (clientError_of_ok hlib hv.status hv.errorType hv.errorCode
      hv.errorMessage hv.errorParam)

/-- The body is parsed, or it is answered when its syntax is bad. -/
theorem ends_parseBody (hlib : lib.Documented) (hE : Between lib E) {body : Str}
    {P : Json → Prop} :
    Ends E (parseBody lib body) P ↔
      lib.parse body = .error .parseError ∨ ∃ j, lib.parse body = .ok j ∧ P j := by
  unfold parseBody
  cases h : lib.parse body with
  | ok j => simp [Ends]
  | error e =>
    rcases hlib.parse_error body e h with rfl | rfl
    · simp only [Ends, true_or, iff_true]
      exact hE.clientError _ (clientError_of_ok hlib (by decide) (validUtf8_utf8 _)
        (validUtf8_utf8 _) (validUtf8_utf8 _) validUtf8_nil)
    · have hthrown : ¬ E ⟨[], .error .outOfRange⟩ := fun h => by
        obtain ⟨_, h⟩ := hE.answered _ h
        cases h
      simp [Ends, hthrown]

end SpeechLemmas

open SpeechLemmas

/-! ## Which requests are answered -/

variable {lib : JsonLib} {deps : HandlerDeps} {req : HttpRequest} {j : Json}

/-- The key is present with a value that is not a string. -/
def NotString (j : Json) (key : Str) : Prop := ∃ v, j.field key = some v ∧ v.isString = false

/-- The key is present with a value that is not a number. -/
def NotNumber (j : Json) (key : Str) : Prop := ∃ v, j.field key = some v ∧ v.isNumber = false

/-- The string value of the key, or the default, satisfies `ok`. -/
def StringOk (lib : JsonLib) (j : Json) (key d : Str) (ok : Str → Prop) : Prop :=
  ∃ s, lib.valueString j key d = .ok s ∧ ok s

/-- The body is no JSON object, or one in which a field has the wrong type. -/
def Malformed (lib : JsonLib) (body : Str) : Prop :=
  ∀ j, lib.parse body = .ok j → j.isObject = false ∨ NotString j (utf8 "model") ∨
    NotString j (utf8 "input") ∨ NotString j (utf8 "voice") ∨
    NotString j (utf8 "response_format") ∨ NotNumber j (utf8 "speed")

/-- The speed is present and no number, and the library neither converts it to a
value out of range. -/
def SpeedEscapes (lib : JsonLib) (j : Json) : Prop :=
  NotNumber j (utf8 "speed") ∧
  ¬ ∃ x, lib.valueFloat j (utf8 "speed") (.finite 1) = .ok x ∧ (validateSpeed x).valid = false

/-- The document is no object, or the first field that does not pass its check
has the wrong type, where the speed fails on the condition `X`. -/
def FieldFails (lib : JsonLib) (deps : HandlerDeps) (j : Json) (X : Prop) : Prop :=
  j.isObject = false ∨ NotString j (utf8 "model") ∨
  StringOk lib j (utf8 "model") [] (fun model => (validateModel model).valid = true) ∧
  (NotString j (utf8 "input") ∨
  StringOk lib j (utf8 "input") [] (fun input =>
    (validateInput input deps.maxChars).valid = true) ∧
  (NotString j (utf8 "voice") ∨
  StringOk lib j (utf8 "voice") [] (fun voice =>
    ∀ catalog, deps.voiceCatalog = some catalog → (validateVoice voice catalog).valid = true) ∧
  (NotString j (utf8 "response_format") ∨
  StringOk lib j (utf8 "response_format") (utf8 "wav") (fun format =>
    (validateResponseFormat format).valid = true) ∧ X)))

/-- The document is no object, or the first field that does not pass its check
has the wrong type. -/
def FieldEscapes (lib : JsonLib) (deps : HandlerDeps) (j : Json) : Prop :=
  FieldFails lib deps j (SpeedEscapes lib j)

/-- The request passes the checks on the header and the size, and then either
the body holds a number that the library cannot represent, or it escapes the
checks of its fields. -/
def Escapes (lib : JsonLib) (deps : HandlerDeps) (req : HttpRequest) : Prop :=
  (validateContentType (req.header (utf8 "content-type"))).valid = true ∧
  (validateBodySize req.body.length).valid = true ∧
  (lib.parse req.body = .error .outOfRange ∨
    ∃ j, lib.parse req.body = .ok j ∧ FieldEscapes lib deps j)

/-- The request passes the checks on the header and the size, and then either
the body holds a number that the library cannot represent, or the first field
that does not pass its check has the wrong type. -/
def Throws (lib : JsonLib) (deps : HandlerDeps) (req : HttpRequest) : Prop :=
  (validateContentType (req.header (utf8 "content-type"))).valid = true ∧
  (validateBodySize req.body.length).valid = true ∧
  (lib.parse req.body = .error .outOfRange ∨
    ∃ j, lib.parse req.body = .ok j ∧
      FieldFails lib deps j (∃ e, lib.valueFloat j (utf8 "speed") (.finite 1) = .error e))

namespace SpeechLemmas

variable {E : Ending → Prop}

/-- A string value is read when the document is an object and the value, if
present, is a string. -/
theorem valueString_ok (hlib : lib.Documented) {key d : Str} :
    (∃ s, lib.valueString j key d = .ok s) ↔ j.isObject = true ∧ ¬ NotString j key := by
  cases hobj : j.isObject with
  | false => simp [hlib.valueString_nonobject j key d hobj]
  | true =>
    cases hf : j.field key with
    | none => simp [hlib.valueString_absent j key d hobj hf, NotString, hf]
    | some v =>
      cases hs : v.isString with
      | false => simp [hlib.valueString_other j key d v hf hs, NotString, hf, hs]
      | true =>
        cases v with
        | string s => simp [hlib.valueString_string j key d s hf, NotString, hf, hs]
        | _ => cases hs

/-- A value that is read is valid UTF-8, like the document and the default. -/
theorem valueString_utf8 (hlib : lib.Documented) {key d s : Str} (hj : j.Utf8)
    (hd : ValidUtf8 d) (h : lib.valueString j key d = .ok s) : ValidUtf8 s := by
  obtain ⟨hobj, hstring⟩ := (valueString_ok hlib).mp ⟨s, h⟩
  cases hf : j.field key with
  | none =>
    rw [hlib.valueString_absent j key d hobj hf] at h
    cases h
    exact hd
  | some v =>
    cases v with
    | string t =>
      rw [hlib.valueString_string j key d t hf] at h
      cases h
      exact hj.field_string hf
    | _ => exact absurd ⟨_, hf, rfl⟩ hstring

theorem valueFloat_ok (hlib : lib.Documented) {key : Str} {d : Floating} (hobj : j.isObject = true)
    (h : ¬ NotNumber j key) : ∃ x, lib.valueFloat j key d = .ok x := by
  cases hf : j.field key with
  | none => exact ⟨d, hlib.valueFloat_absent j key d hobj hf⟩
  | some v =>
    have hv : v.isNumber = true := by
      rw [← Bool.not_eq_false]
      exact fun hv => h ⟨v, hf, hv⟩
    exact hlib.valueFloat_number j key d v hf hv

theorem ends_requireVoice (hlib : lib.Documented) (hE : Between lib E) {voice : Str}
    (hv : ValidUtf8 voice) {P : Unit → Prop} :
    Ends E (requireVoice lib deps voice) P ↔
      ((∀ catalog, deps.voiceCatalog = some catalog →
        (validateVoice voice catalog).valid = true) → P ()) := by
  unfold requireVoice
  cases deps.voiceCatalog with
  | none => simp [Ends]
  | some catalog =>
    rw [ends_require hlib hE (validateVoice_proper hv catalog)]
    simp

/-- Reading a string field: it escapes when it has the wrong type, or when it
is in order and what follows it escapes. -/
theorem ends_string (hlib : lib.Documented) (hE : Between lib E) (hobj : j.isObject = true)
    {key d : Str} {β : Type} {f : Str → Except Ending β} {P : β → Prop} {ok : Str → Prop}
    {X : Prop}
    (hf : ¬ NotString j key → ∀ s, lib.valueString j key d = .ok s →
      (Ends E (f s) P ↔ (ok s → ¬ X))) :
    Ends E (orThrow (lib.valueString j key d) >>= f) P ↔
      ¬ (NotString j key ∨ StringOk lib j key d ok ∧ X) := by
  rw [ends_bind, ends_orThrow hE]
  by_cases hn : NotString j key
  · simp only [hn, true_or, not_true_eq_false, iff_false, not_exists, not_and]
    intro s hs
    exact absurd hn ((valueString_ok hlib).mp ⟨s, hs⟩).2
  · obtain ⟨s, hs⟩ := (valueString_ok (d := d) hlib).mpr ⟨hobj, hn⟩
    simp [hn, hs, StringOk, hf hn s hs]

/-- Reading the speed, the last field. -/
theorem ends_speed (hlib : lib.Documented) (hE : Between lib E) {fields : Floating → SpeechFields}
    {P : Prop} :
    Ends E (do
      let speed ← orThrow (lib.valueFloat j (utf8 "speed") (.finite 1))
      require lib 400 (validateSpeed speed)
      return fields speed) (fun _ => P) ↔
    ∃ speed, lib.valueFloat j (utf8 "speed") (.finite 1) = .ok speed ∧
      ((validateSpeed speed).valid = true → P) := by
  rw [ends_bind, ends_orThrow hE]
  simp only [ends_bind, ends_require hlib hE (validateSpeed_proper _), ends_pure]

/-- Reading the fields of an object, when the speed fails on the condition `X`. -/
theorem ends_fields (hlib : lib.Documented) (hE : Between lib E) (hobj : j.isObject = true)
    (hj : j.Utf8) {P X : Prop}
    (hspeed : ¬ NotString j (utf8 "model") → ¬ NotString j (utf8 "input") →
      ¬ NotString j (utf8 "voice") → ¬ NotString j (utf8 "response_format") →
      ((∃ speed, lib.valueFloat j (utf8 "speed") (.finite 1) = .ok speed ∧
        ((validateSpeed speed).valid = true → P)) ↔ ¬ X)) :
    Ends E (do
      let model ← orThrow (lib.valueString j (utf8 "model") [])
      require lib 400 (validateModel model)
      let input ← orThrow (lib.valueString j (utf8 "input") [])
      require lib 400 (validateInput input deps.maxChars)
      let voice ← orThrow (lib.valueString j (utf8 "voice") [])
      requireVoice lib deps voice
      let responseFormat ← orThrow (lib.valueString j (utf8 "response_format") (utf8 "wav"))
      require lib 400 (validateResponseFormat responseFormat)
      let speed ← orThrow (lib.valueFloat j (utf8 "speed") (.finite 1))
      require lib 400 (validateSpeed speed)
      return ({ model, input, voice, responseFormat, speed } : SpeechFields)) (fun _ => P) ↔
    ¬ FieldFails lib deps j X := by
  unfold FieldFails
  simp only [hobj, Bool.true_eq_false, false_or]
  refine ends_string hlib hE hobj fun hmodel model _ => ?_
  rw [ends_bind, ends_require hlib hE (validateModel_proper _)]
  refine imp_congr_right fun _ => ends_string hlib hE hobj fun hinput input _ => ?_
  rw [ends_bind, ends_require hlib hE (validateInput_proper _ _)]
  refine imp_congr_right fun _ => ends_string hlib hE hobj fun hvoice voice hv => ?_
  rw [ends_bind, ends_requireVoice hlib hE (valueString_utf8 hlib hj validUtf8_nil hv)]
  refine imp_congr_right fun _ => ends_string hlib hE hobj fun hformat format hf => ?_
  rw [ends_bind, ends_require hlib hE
    (validateResponseFormat_proper (valueString_utf8 hlib hj (validUtf8_utf8 _) hf))]
  exact imp_congr_right fun _ =>
    (ends_speed hlib hE).trans (hspeed hmodel hinput hvoice hformat)

/-- Reading a request, when its speed fails on the condition `X`. -/
theorem ends_readSpeech (hlib : lib.Documented) (hE : Between lib E) (deps : HandlerDeps)
    (req : HttpRequest) {P : Prop} {X : Json → Prop}
    (hspeed : ∀ j, lib.parse req.body = .ok j → j.isObject = true →
      ¬ NotString j (utf8 "model") → ¬ NotString j (utf8 "input") →
      ¬ NotString j (utf8 "voice") → ¬ NotString j (utf8 "response_format") →
      ((∃ speed, lib.valueFloat j (utf8 "speed") (.finite 1) = .ok speed ∧
        ((validateSpeed speed).valid = true → P)) ↔ ¬ X j)) :
    Ends E (readSpeech lib deps req) (fun _ => P) ↔
    ¬ ((validateContentType (req.header (utf8 "content-type"))).valid = true ∧
      (validateBodySize req.body.length).valid = true ∧
      (lib.parse req.body = .error .outOfRange ∨
        ∃ j, lib.parse req.body = .ok j ∧ FieldFails lib deps j (X j))) := by
  unfold readSpeech
  rw [ends_bind, ends_require hlib hE (validateContentType_proper _)]
  by_cases hct : (validateContentType (req.header (utf8 "content-type"))).valid = true
  swap
  · simp [hct]
  rw [ends_bind, ends_require hlib hE (validateBodySize_proper _ _)]
  by_cases hsz : (validateBodySize req.body.length).valid = true
  swap
  · simp [hsz]
  rw [ends_bind, ends_parseBody hlib hE]
  simp only [hct, hsz, true_and, forall_const]
  cases hparse : lib.parse req.body with
  | error e => rcases hlib.parse_error _ _ hparse with rfl | rfl <;> simp
  | ok j =>
    simp only [reduceCtorEq, Except.ok.injEq, false_or, exists_eq_left']
    cases hobj : j.isObject with
    | false =>
      -- the first read of a field throws
      have hthrows : ¬ ∃ s, lib.valueString j (utf8 "model") [] = .ok s := by
        rw [valueString_ok hlib, hobj]
        simp
      rw [ends_bind, ends_orThrow hE]
      simp only [FieldFails, hobj, true_or, not_true_eq_false, iff_false]
      rintro ⟨s, hs, _⟩
      exact hthrows ⟨s, hs⟩
    | true => exact ends_fields hlib hE hobj (hlib.parse_utf8 _ _ hparse) (hspeed j hparse hobj)

end SpeechLemmas

/-- A request is read as a well-formed one or answered with a client error,
unless it escapes the checks. -/
theorem readSpeech_answers (hlib : lib.Documented) (deps : HandlerDeps) (req : HttpRequest) :
    Ends (ClientError lib) (readSpeech lib deps req) (fun _ => ¬ Malformed lib req.body) ↔
      ¬ Escapes lib deps req := by
  refine ends_readSpeech hlib (between_clientError lib) deps req (X := SpeedEscapes lib) ?_
  intro j hparse hobj hmodel hinput hvoice hformat
  have hmalformed : Malformed lib req.body ↔ NotNumber j (utf8 "speed") := by
    simp only [Malformed, hparse, Except.ok.injEq, forall_eq', hobj, Bool.true_eq_false, hmodel,
      hinput, hvoice, hformat, false_or]
  unfold SpeedEscapes
  rw [hmalformed]
  by_cases hn : NotNumber j (utf8 "speed")
  · simp [hn]
  · obtain ⟨x, hx⟩ := valueFloat_ok hlib (d := .finite 1) hobj hn
    simp [hn, hx]

/-- Reading a request gives its fields or an answer, unless it throws. -/
theorem readSpeech_throws (hlib : lib.Documented) (deps : HandlerDeps) (req : HttpRequest) :
    Ends Answered (readSpeech lib deps req) (fun _ => True) ↔ ¬ Throws lib deps req := by
  refine ends_readSpeech hlib (between_answered lib) deps req
    (X := fun j => ∃ e, lib.valueFloat j (utf8 "speed") (.finite 1) = .error e) ?_
  intro j _ _ _ _ _ _
  cases lib.valueFloat j (utf8 "speed") (.finite 1) <;> simp

/-- A request that escapes the checks is malformed. -/
theorem Escapes.malformed (h : Escapes lib deps req) : Malformed lib req.body := by
  obtain ⟨_, _, hparse | ⟨j, hparse, hfields⟩⟩ := h
  · intro j hj
    rw [hparse] at hj
    cases hj
  · intro j' hj'
    rw [hparse] at hj'
    cases hj'
    obtain h | h | ⟨_, h | ⟨_, h | ⟨_, h | ⟨_, h, _⟩⟩⟩⟩ := hfields <;> simp [h]

/-! ## How a call ends -/

theorem literalError_ok (hlib : lib.Documented) (status : Int)
    (errorType errorCode message : String) :
    ∃ resp, makeErrorResponse lib status (utf8 errorType) (utf8 errorCode) (utf8 message) =
      .ok resp ∧ resp.status = status := by
  obtain ⟨resp, hresp⟩ := makeErrorResponse_ok status hlib (validUtf8_utf8 errorType)
    (validUtf8_utf8 errorCode) (validUtf8_utf8 message) validUtf8_nil
  exact ⟨resp, hresp, (makeErrorResponse_status hresp).1⟩

theorem poolNotReady_ok (hlib : lib.Documented) :
    ∃ resp, (poolNotReady lib).result = .ok resp ∧ resp.status = 503 :=
  literalError_ok hlib 503 _ _ _

theorem queueFull_ok (hlib : lib.Documented) :
    ∃ resp, (queueFull lib).result = .ok resp ∧ resp.status = 503 :=
  literalError_ok hlib 503 _ _ _

/-- How a request that is not read ends: with an exception, or with an error
response whose status is counted. -/
inductive Refusal (lib : JsonLib) : Ending → Prop
  | thrown (e : JsonError) : Refusal lib ⟨[], .error e⟩
  | answered {status : Int} (errorType errorCode message param : Str) :
      400 ≤ status → status < 500 → Refusal lib ⟨[.requestsTotal status],
        makeErrorResponse lib status errorType errorCode message param⟩

/-- A response to a request that is not read is a client error. -/
def Rejects (ending : Ending) : Prop :=
  ∀ resp, ending.result = .ok resp → 400 ≤ resp.status ∧ resp.status < 500

namespace SpeechLemmas

theorem refusal_bind {α β : Type} {x : Except Ending α} {f : α → Except Ending β}
    (hx : Ends (Refusal lib) x fun _ => True) (hf : ∀ a, Ends (Refusal lib) (f a) fun _ => True) :
    Ends (Refusal lib) (x >>= f) fun _ => True := by
  cases x with
  | ok a => exact hf a
  | error ending => exact hx

theorem orThrow_refusal {α : Type} (r : Except JsonError α) :
    Ends (Refusal lib) (orThrow r) fun _ => True := by
  cases r with
  | ok a => trivial
  | error e => exact .thrown e

theorem require_refusal {statusCode : Int} {v : ValidationResult} (h400 : 400 ≤ statusCode)
    (h500 : statusCode < 500) (hv : v.valid = true ∨ v.httpStatus = statusCode) :
    Ends (Refusal lib) (require lib statusCode v) fun _ => True := by
  unfold require
  split
  · next hinvalid =>
    obtain rfl := hv.resolve_left (by simpa using hinvalid)
    exact .answered _ _ _ _ h400 h500
  · trivial

theorem requireBodySize_refusal (n m : Nat) :
    Ends (Refusal lib) (require lib (validateBodySize n m).httpStatus (validateBodySize n m))
      fun _ => True := by
  unfold validateBodySize
  split
  · exact require_refusal (by decide) (by decide) (.inr rfl)
  · trivial

theorem parseBody_refusal (body : Str) : Ends (Refusal lib) (parseBody lib body) fun _ => True := by
  unfold parseBody
  split
  · trivial
  · exact .answered _ _ _ _ (by decide) (by decide)
  · exact .thrown _

theorem requireVoice_refusal (voice : Str) :
    Ends (Refusal lib) (requireVoice lib deps voice) fun _ => True := by
  unfold requireVoice
  split
  · next catalog _ =>
    exact require_refusal (by decide) (by decide) (validateVoice_status voice catalog)
  · trivial

end SpeechLemmas

theorem readSpeech_refusal {ending : Ending} (h : readSpeech lib deps req = .error ending) :
    Refusal lib ending := by
  have hreq {v : ValidationResult} (hv : v.valid = true ∨ v.httpStatus = 400) :
      Ends (Refusal lib) (require lib 400 v) fun _ => True :=
    require_refusal (by decide) (by decide) hv
  have hends : Ends (Refusal lib) (readSpeech lib deps req) fun _ => True := by
    unfold readSpeech
    refine refusal_bind (hreq (validateContentType_status _)) fun _ => ?_
    refine refusal_bind (requireBodySize_refusal _ _) fun _ => ?_
    refine refusal_bind (parseBody_refusal _) fun parsed => ?_
    refine refusal_bind (orThrow_refusal _) fun model => ?_
    refine refusal_bind (hreq (validateModel_status _)) fun _ => ?_
    refine refusal_bind (orThrow_refusal _) fun input => ?_
    refine refusal_bind (hreq (validateInput_status _ _)) fun _ => ?_
    refine refusal_bind (orThrow_refusal _) fun voice => ?_
    refine refusal_bind (requireVoice_refusal _) fun _ => ?_
    refine refusal_bind (orThrow_refusal _) fun format => ?_
    refine refusal_bind (hreq (validateResponseFormat_status _)) fun _ => ?_
    refine refusal_bind (orThrow_refusal _) fun speed => ?_
    exact refusal_bind (hreq (validateSpeed_status _)) fun _ => trivial
  rw [h] at hends
  exact hends

theorem readSpeech_rejects {ending : Ending} (h : readSpeech lib deps req = .error ending) :
    Rejects ending := by
  intro resp hresp
  cases readSpeech_refusal h with
  | thrown e => cases hresp
  | answered _ _ _ _ h400 h500 =>
    rw [(makeErrorResponse_status hresp).1]
    exact ⟨h400, h500⟩

/-- The answer to a stored error. -/
theorem respond_error (hlib : lib.Documented) (start stop : Int) {synthError : Str}
    (synthResult : SynthesisResult) (h : synthError ≠ []) :
    ∃ resp, (respond lib start stop synthError synthResult).result = .ok resp ∧
      resp.status = 500 := by
  have herror : (!synthError.isEmpty) = true := by simpa using h
  unfold respond
  rw [if_pos herror]
  exact literalError_ok hlib 500 _ _ _

/-- The answer to a stored result carries its audio. -/
theorem respond_success (lib : JsonLib) (start stop : Int) (synthResult : SynthesisResult) :
    ∃ resp, (respond lib start stop [] synthResult).result = .ok resp ∧ resp.status = 200 ∧
      resp.binaryBody = synthResult.audioData :=
  ⟨_, rfl, rfl, rfl⟩

/-- A request that is read is answered, and not with a client error. -/
theorem handleSpeech_read (hlib : lib.Documented) (pool : Option PoolView) (start stop : Int)
    {fields : SpeechFields} (h : readSpeech lib deps req = .ok fields) :
    ∃ resp, (handleSpeech lib deps pool start stop req).result = .ok resp ∧
      (resp.status = 200 ∨ resp.status = 500 ∨ resp.status = 503) := by
  have hready := poolNotReady_ok hlib
  have hfull := queueFull_ok hlib
  unfold handleSpeech
  rw [h]
  dsimp only
  cases pool with
  | none =>
    obtain ⟨resp, hresp, hs⟩ := hready
    exact ⟨resp, hresp, .inr (.inr hs)⟩
  | some pool =>
    dsimp only
    split
    · obtain ⟨resp, hresp, hs⟩ := hready
      exact ⟨resp, hresp, .inr (.inr hs)⟩
    split
    · obtain ⟨resp, hresp, hs⟩ := hfull
      exact ⟨resp, hresp, .inr (.inr hs)⟩
    · by_cases herror : pool.delivery.store.1 = []
      · obtain ⟨resp, hresp, hs, _⟩ := respond_success lib start stop
          pool.delivery.store.2
        rw [← herror] at hresp
        exact ⟨resp, hresp, .inl hs⟩
      · obtain ⟨resp, hresp, hs⟩ := respond_error hlib start stop pool.delivery.store.2
          herror
        exact ⟨resp, hresp, .inr (.inl hs)⟩

theorem synthRequest_injective : Function.Injective synthRequest := by
  rintro ⟨⟩ ⟨⟩ heq
  simp only [synthRequest, SynthesisRequest.mk.injEq] at heq
  obtain ⟨rfl, rfl, rfl, rfl, rfl⟩ := heq
  rfl

/-- What a call submits is what it has read. -/
theorem read_of_submits {pool : Option PoolView} {start stop : Int} {fields : SpeechFields}
    (h : (handleSpeech lib deps pool start stop req).submits = [synthRequest fields]) :
    readSpeech lib deps req = .ok fields := by
  unfold handleSpeech at h
  cases hread : readSpeech lib deps req with
  | error ending =>
    rw [hread] at h
    cases h
  | ok read =>
    rw [hread] at h
    dsimp only at h
    split at h
    · cases h
    split at h
    · cases h
    split at h <;> rw [synthRequest_injective (List.singleton_inj.mp h)]

/-- The call throws exactly on the requests that throw while they are read. -/
theorem handleSpeech_throws (hlib : lib.Documented) (deps : HandlerDeps) (pool : Option PoolView)
    (start stop : Int) (req : HttpRequest) :
    (∃ resp, (handleSpeech lib deps pool start stop req).result = .ok resp) ↔
      ¬ Throws lib deps req := by
  rw [← readSpeech_throws hlib]
  cases hr : readSpeech lib deps req with
  | error ending =>
    rw [handleSpeech, hr]
    exact Iff.rfl
  | ok fields =>
    obtain ⟨resp, hresp, _⟩ := handleSpeech_read hlib pool start stop hr
    exact iff_of_true ⟨resp, hresp⟩ trivial

/-- The call returns a response, and a malformed request is answered with a
client error in the OpenAI format and submits no job. -/
def AnsweredSafely (lib : JsonLib) (body : Str) (out : SpeechOutcome) : Prop :=
  ∃ resp, out.result = .ok resp ∧ (Malformed lib body →
    400 ≤ resp.status ∧ resp.status < 500 ∧ IsErrorResponse lib resp ∧ out.submits = [])

/-- **Malformed requests.** A call returns a response, and rejects a malformed
request, exactly when the request does not escape the checks. -/
theorem malformed_answered (lib : JsonLib) (hlib : lib.Documented) (deps : HandlerDeps)
    (pool : Option PoolView) (start stop : Int) (req : HttpRequest) :
    AnsweredSafely lib req.body (handleSpeech lib deps pool start stop req) ↔
      ¬ Escapes lib deps req := by
  have hread := readSpeech_answers hlib deps req
  constructor
  · rintro ⟨resp, hresp, hsafe⟩ hesc
    obtain ⟨hlow, hhigh, hformat, _⟩ := hsafe hesc.malformed
    refine hread.mp ?_ hesc
    cases hr : readSpeech lib deps req with
    | error ending =>
      rw [handleSpeech, hr] at hresp
      exact ⟨resp, hresp, hlow, hhigh, hformat⟩
    | ok fields =>
      obtain ⟨resp', hresp', hstatus⟩ := handleSpeech_read hlib pool start stop hr
      rw [hresp] at hresp'
      cases hresp'
      omega
  · intro hesc
    have hends := hread.mpr hesc
    cases hr : readSpeech lib deps req with
    | error ending =>
      rw [hr] at hends
      obtain ⟨resp, hresp, hlow, hhigh, hformat⟩ := hends
      have hout : handleSpeech lib deps pool start stop req =
          { metrics := ending.metrics, result := ending.result } := by
        rw [handleSpeech, hr]
      rw [hout]
      exact ⟨resp, hresp, fun _ => ⟨hlow, hhigh, hformat, rfl⟩⟩
    | ok fields =>
      rw [hr] at hends
      obtain ⟨resp, hresp, _⟩ := handleSpeech_read hlib pool start stop hr
      exact ⟨resp, hresp, fun hmalformed => absurd hmalformed hends⟩

/-- A request with the given body and a JSON content type. -/
def exSpeechRequest (body : Str) : HttpRequest where
  method := utf8 "POST"
  path := utf8 "/v1/audio/speech"
  body := body
  headers := (∅ : Table Str Str).insert (utf8 "content-type") (utf8 "application/json")

/-- The two-byte body of an empty array, and a body whose model is a number. -/
def exArrayBody : Str := utf8 "[]"

def exModelBody : Str := utf8 "\x7b\"model\":5\x7d"

/-- A library that knows these two bodies. -/
def exSpeechLib : JsonLib :=
  exJson [(exArrayBody, .array []), (exModelBody, .object [(utf8 "model", .integer 5)])]

theorem exSpeechLib_documented : exSpeechLib.Documented := by
  refine exJson_documented ?_
  simp only [List.forall_mem_cons, List.not_mem_nil, false_imp_iff, forall_true_iff, and_true]
  exact ⟨.array (by simp), .key (.integer 5) .empty⟩

/-- A body that is no JSON at all is answered, and the empty array escapes. -/
theorem malformed_answered_examples :
    AnsweredSafely exSpeechLib (utf8 "oops")
      (handleSpeech exSpeechLib {} none 0 0 (exSpeechRequest (utf8 "oops"))) ∧
    Escapes exSpeechLib {} (exSpeechRequest exArrayBody) := by
  constructor
  · refine (malformed_answered exSpeechLib exSpeechLib_documented {} none 0 0 _).mpr ?_
    rintro ⟨_, _, h | ⟨j, h, _⟩⟩
    · cases h
    · cases h
  · exact ⟨by decide, by decide, .inr ⟨.array [], rfl, .inl rfl⟩⟩

/-- The exception of the first field read leaves the handler when the body is an
empty array, and when its model is a number. -/
theorem malformed_thrown : exSpeechLib.Documented ∧
    (handleSpeech exSpeechLib {} none 0 0 (exSpeechRequest exArrayBody)).result =
      .error .typeError ∧
    (handleSpeech exSpeechLib {} none 0 0 (exSpeechRequest exModelBody)).result =
      .error .typeError ∧
    ¬ AnsweredSafely exSpeechLib exArrayBody
      (handleSpeech exSpeechLib {} none 0 0 (exSpeechRequest exArrayBody)) := by
  have hthrows : (handleSpeech exSpeechLib {} none 0 0 (exSpeechRequest exArrayBody)).result =
      .error .typeError := rfl
  refine ⟨exSpeechLib_documented, hthrows, rfl, ?_⟩
  rintro ⟨resp, hresp, _⟩
  rw [hthrows] at hresp
  cases hresp

end VoxtralServer
