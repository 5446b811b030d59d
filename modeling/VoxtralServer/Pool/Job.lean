import VoxtralServer.Json

/-!
# Synthesis jobs

The requests and results of the speech backend, and the jobs that carry them
through the inference pool.
-/

namespace VoxtralServer

/-- `SynthesisRequest`. -/
structure SynthesisRequest where
  text : Str := []
  voice : Str := []
  model : Str := []
  responseFormat : Str := utf8 "wav"
  speed : Floating := .finite 1
deriving DecidableEq, Repr

/-- `SynthesisResult`. -/
structure SynthesisResult where
  audioData : List UInt8 := []
  sampleRate : Int := 24000
  durationSeconds : Floating := .finite 0
  inferenceTimeSeconds : Floating := .finite 0
deriving DecidableEq, Repr

/-- What the pool calls back with: `on_success` with a result, or `on_error`
with a text. -/
inductive Delivery
  | success (result : SynthesisResult)
  | error (text : Str)
deriving DecidableEq, Repr

/-- `InferenceJob`. A callback is known by its name only, and is null when it
has none. The deadline `0` is the epoch sentinel. -/
structure InferenceJob (κ : Type) where
  request : SynthesisRequest
  deadline : Int := 0
  onSuccess : Option κ := none
  onError : Option κ := none
deriving DecidableEq, Repr

/-- The callback that a delivery goes to. -/
def InferenceJob.callback {κ : Type} (job : InferenceJob κ) : Delivery → Option κ
  | .success _ => job.onSuccess
  | .error _ => job.onError

end VoxtralServer
