import VoxtralServer.Backend.VoxtralBackend
import VoxtralServer.Lib.Ownership
import VoxtralServer.Lib.System

/-!
# The backend and the engine

The calls that `VoxtralBackend` makes to the engine and to `free`, with the real
engine compiled in.

* `initializeBackend_eq`: `initialize` by the outcome of its checks.
* `synthesize_stub`, `synthesize_calls`: the calls of `synthesize`.
* `synthesize_result`: its result when nothing throws.
-/

namespace VoxtralServer

/-! ## The backend with its engine -/

/-- A pointer to a context or a buffer that is not null. -/
abbrev Pointer := Nat

/-- A call to the engine or to `free`, with the pointer it returns. -/
inductive EngineCall
  | load (path : CString) (ctx : Option Pointer)
  | ttsFree (ctx : Pointer)
  | generate (ctx : Option Pointer) (text voice : CString) (samples : Option Pointer)
  | free (samples : Pointer)
deriving DecidableEq, Repr

/-- What the file system says of a path: `exists` and its error code,
`is_regular_file` and `is_directory`. -/
structure PathStatus where
  found : Bool
  failed : Bool
  regularFile : Bool
  directory : Bool
deriving DecidableEq, Repr

/-- The path passes the checks of `initialize`. -/
def PathStatus.passes (status : PathStatus) (modelPath : Str) : Bool :=
  !modelPath.isEmpty && status.found && !status.failed && (status.regularFile || status.directory)

/-- What `tts_generate` leaves, where its buffer is, the time it takes, and what
building the WAV file throws, if anything. -/
structure EngineReply where
  generated : Generated
  address : Pointer
  inferenceTime : Floating
  thrown : Option Str := none

/-- The buffer that `tts_generate` has allocated. -/
def EngineReply.samples (reply : EngineReply) : Option Pointer :=
  reply.generated.samples.map fun _ => reply.address

/-- `tts_generate` has failed. -/
def EngineReply.failed (reply : EngineReply) : Bool :=
  decide (reply.generated.rc ≠ 0) || reply.generated.samples.isNone ||
    decide (reply.generated.nSamples ≤ 0)

/-- A `tts_generate` that succeeds has allocated a buffer. -/
theorem EngineReply.samples_of_succeeds (reply : EngineReply) (h : reply.failed = false) :
    reply.samples = some reply.address := by
  simp only [EngineReply.failed, Bool.or_eq_false_iff, Option.isNone_eq_false_iff] at h
  obtain ⟨samples, hsome⟩ := Option.isSome_iff_exists.mp h.1.2
  rw [EngineReply.samples, hsome, Option.map_some]

/-- `VoxtralBackend`. -/
structure EngineBackend where
  initialized : Bool := false
  modelPath : Str := []
  ctx : Option Pointer := none
  useRealEngine : Bool := false
deriving DecidableEq, Repr

namespace EngineBackend

/-- The part of the state that decides what `synthesize` returns. -/
def view (b : EngineBackend) : VoxtralBackend := ⟨b.initialized, b.useRealEngine⟩

/-- `~VoxtralBackend`. -/
def destroy (b : EngineBackend) : List EngineCall :=
  match b.ctx with
  | some ctx => [.ttsFree ctx]
  | none => []

/-- `initialize`, when `tts_load` returns `loaded`: the calls it makes, its result,
and the backend it leaves. -/
def initializeBackend (b : EngineBackend) (modelPath : Str) (status : PathStatus)
    (loaded : Option Pointer) : List EngineCall × Bool × EngineBackend :=
  if modelPath.isEmpty then ([], false, b)
  else if !status.found || status.failed then ([], false, b)
  else if !status.regularFile && !status.directory then ([], false, b)
  else
    let b' :=
      match loaded with
      | some ctx => { b with ctx := some ctx, useRealEngine := true }
      | none => { b with useRealEngine := false }
    ([.load (cStr modelPath) loaded], true, { b' with modelPath := modelPath, initialized := true })

/-- `synthesize`: the calls it makes, and its result or exception. The result is
undefined, `none`, when the bytes of the WAV file are, since the source then writes
past the end of the file. The buffer counts as freed also in that case. -/
def synthesize (b : EngineBackend) (request : SynthesisRequest) (reply : EngineReply) :
    List EngineCall × Option (Except Str SynthesisResult) :=
  let result := b.view.synthesize reply.generated reply.inferenceTime
  if !b.initialized then ([], result)
  else if b.useRealEngine then
    let call := .generate b.ctx (cStr request.text) (cStr request.voice) reply.samples
    if reply.failed then
      match reply.samples with
      | some samples => ([call, .free samples], result)
      | none => ([call], result)
    else
      match reply.thrown with
      | some what => ([call], some (.error what))
      | none => ([call, .free reply.address], result)
  else ([], reply.thrown.elim result fun what => some (.error what))

/-- `initialize` loads the model when the path passes its checks. -/
theorem initializeBackend_eq (b : EngineBackend) (modelPath : Str) (status : PathStatus)
    (loaded : Option Pointer) : b.initializeBackend modelPath status loaded =
      if status.passes modelPath then
        ([.load (cStr modelPath) loaded], true,
          { initialized := true, modelPath := modelPath, ctx := loaded <|> b.ctx
            useRealEngine := loaded.isSome })
      else ([], false, b) := by
  unfold initializeBackend PathStatus.passes
  cases modelPath.isEmpty with
  | true => rfl
  | false =>
    cases status.found with
    | false => rfl
    | true =>
      cases status.failed with
      | true => rfl
      | false => cases status.regularFile <;> cases status.directory <;> cases loaded <;> rfl

/-- Without the engine, `synthesize` makes no call. -/
theorem synthesize_stub {b : EngineBackend} (h : (b.initialized && b.useRealEngine) = false)
    (request : SynthesisRequest) (reply : EngineReply) : (b.synthesize request reply).1 = [] := by
  unfold synthesize
  cases hinit : b.initialized with
  | false => rfl
  | true =>
    rw [hinit, Bool.true_and] at h
    simp [h]

/-- The calls of `synthesize` with the engine: the buffer is freed unless building
the WAV file throws. -/
theorem synthesize_calls {b : EngineBackend} (hinit : b.initialized = true)
    (hreal : b.useRealEngine = true) (request : SynthesisRequest) (reply : EngineReply) :
    (b.synthesize request reply).1 =
      .generate b.ctx (cStr request.text) (cStr request.voice) reply.samples ::
        if reply.failed || reply.thrown.isNone then reply.samples.toList.map .free else [] := by
  simp only [synthesize, hinit, hreal, Bool.not_true, Bool.false_eq_true, if_false, if_true]
  cases hfailed : reply.failed with
  | true =>
    cases reply.samples <;> rfl
  | false =>
    rw [reply.samples_of_succeeds hfailed]
    cases reply.thrown <;> rfl

/-- The result is the one that the backend computes when nothing throws. -/
theorem synthesize_result {b : EngineBackend} {request : SynthesisRequest} {reply : EngineReply}
    (h : reply.thrown = none) :
    (b.synthesize request reply).2 = b.view.synthesize reply.generated reply.inferenceTime := by
  unfold synthesize
  dsimp only
  split
  · rfl
  split
  · split
    · split <;> rfl
    · rw [h]
  · rw [h]
    rfl

end EngineBackend
end VoxtralServer
