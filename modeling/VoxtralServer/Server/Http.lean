import VoxtralServer.Lib.Table
import VoxtralServer.Json

/-!
# Requests, responses and metrics

The abstract HTTP types of the route handlers, the error responses in the
OpenAI format, and the updates of the metrics registry as a list of effects.

* `makeErrorResponse_ok`: an error response is built whenever its texts are
  valid UTF-8.
-/

namespace VoxtralServer

/-! ## HTTP -/

/-- `HttpRequest`. The header names are lowercase. -/
structure HttpRequest where
  method : Str := []
  path : Str := []
  body : Str := []
  headers : Table Str Str := ∅
  remoteAddr : Str := utf8 "127.0.0.1"

/-- `HttpRequest::header`: the empty string when there is no such header. -/
def HttpRequest.header (req : HttpRequest) (name : Str) : Str :=
  (req.headers.lookup name).getD []

/-- `HttpResponse`. -/
structure HttpResponse where
  status : Int := 200
  headers : Table Str Str := ∅
  body : Str := []
  binaryBody : List UInt8 := []
deriving DecidableEq

/-! ## Error responses -/

/-- The document of an error in the OpenAI format. -/
def errorDocument (errorType errorCode message param : Str) : Json :=
  .object [(utf8 "error", .object [
    (utf8 "code", .string errorCode),
    (utf8 "message", .string message),
    (utf8 "param", if param.isEmpty then .null else .string param),
    (utf8 "type", .string errorType)])]

/-- The response that carries the text of such a document. -/
def errorReply (status : Int) (body : Str) : HttpResponse where
  status := status
  headers := (∅ : Table Str Str).insert (utf8 "Content-Type") (utf8 "application/json")
  body := body

/-- `make_error_response`. It throws what `dump` throws. -/
def makeErrorResponse (lib : JsonLib) (status : Int) (errorType errorCode message : Str)
    (param : Str := []) : Except JsonError HttpResponse :=
  (lib.dump (errorDocument errorType errorCode message param)).map (errorReply status)

/-- The response is an error in the OpenAI format. -/
def IsErrorResponse (lib : JsonLib) (resp : HttpResponse) : Prop :=
  ∃ errorType errorCode message param,
    makeErrorResponse lib resp.status errorType errorCode message param = .ok resp

variable {lib : JsonLib} {status : Int} {errorType errorCode message param : Str}

theorem errorDocument_utf8 (ht : ValidUtf8 errorType) (hc : ValidUtf8 errorCode)
    (hm : ValidUtf8 message) (hp : ValidUtf8 param) :
    (errorDocument errorType errorCode message param).Utf8 := by
  have hparam : (if param.isEmpty then Json.null else .string param).Utf8 := by
    split
    · exact .null
    · exact .string hp
  exact .key (.key (.string hc) (.key (.string hm) (.key hparam (.key (.string ht) .empty)))) .empty

/-- A response that was built has the given status. -/
theorem makeErrorResponse_status {resp : HttpResponse}
    (h : makeErrorResponse lib status errorType errorCode message param = .ok resp) :
    resp.status = status ∧ IsErrorResponse lib resp := by
  have hstatus : resp.status = status := by
    unfold makeErrorResponse at h
    cases hd : lib.dump (errorDocument errorType errorCode message param) with
    | error e =>
      rw [hd] at h
      cases h
    | ok body =>
      rw [hd] at h
      cases h
      rfl
  exact ⟨hstatus, errorType, errorCode, message, param, hstatus ▸ h⟩

/-- An error response is built whenever its texts are valid UTF-8. -/
theorem makeErrorResponse_ok (status : Int) (hlib : lib.Documented) (ht : ValidUtf8 errorType)
    (hc : ValidUtf8 errorCode) (hm : ValidUtf8 message) (hp : ValidUtf8 param) :
    ∃ resp, makeErrorResponse lib status errorType errorCode message param = .ok resp := by
  obtain ⟨body, hbody⟩ := hlib.dump_utf8 _ (errorDocument_utf8 ht hc hm hp)
  exact ⟨errorReply status body, by simp only [makeErrorResponse, hbody, Except.map]⟩

/-! ## Metrics -/

/-- An update of one metric of the registry. -/
inductive MetricOp
  | requestsTotal (statusCode : Int)
  | voiceRequestsTotal (voice : Str)
  | requestsRejectedAuth
  | requestsRejectedRateLimit
  | inputCharactersTotal (n : Nat)
  | audioBytesGeneratedTotal (n : Nat)
  | errorsTotal
  | activeJobsIncrement
  | activeJobsDecrement
  | queueDepthSet (n : Int)
  | synthesisDurationSeconds (x : Floating)
  | inferenceDurationSeconds (x : Floating)
  | audioDurationSeconds (x : Floating)
  | inputCharacters (n : Nat)
deriving DecidableEq, Repr

end VoxtralServer
