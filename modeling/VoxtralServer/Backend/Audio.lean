import VoxtralServer.Backend.Engine

/-!
# What is heard of a result

A reader of WAV files against both branches of `synthesize`.

* `buildSilentWav_eq`, `readWav_silence`: a silent file is read as the zeros of its
  duration.
* `EngineBackend.synthesize_audio`: the file of a result is read as the samples that the engine
  left, or as a second of silence without it.
-/

namespace VoxtralServer

open Bytes

/-! ## Silence -/

theorem sampleBytes_zero : sampleBytes 0 = [0, 0] := by decide

theorem flatMap_sampleBytes_zero (n : Nat) :
    (List.replicate n (0 : Int16)).flatMap sampleBytes = List.replicate (2 * n) 0 := by
  induction n with
  | zero => rfl
  | succ n ih =>
    have hpair : ([0, 0] : List UInt8) = List.replicate 2 0 := rfl
    rw [List.replicate_succ, List.flatMap_cons, ih, sampleBytes_zero, hpair,
      List.replicate_append_replicate]
    congr 1
    omega

/-- `build_silent_wav`, when the size of the file fits into 32 bits. -/
theorem buildSilentWav_eq {sampleRate : Int} (hpos : 1 ≤ sampleRate) (hrate : RateFits sampleRate)
    {durationSec : Floating} (hlt : durationSec.lt (.finite 0) = false) {n : Nat}
    (hn : (durationSec.scale 53 sampleRate).truncate 0 (2 ^ 32 - 1) = some (n : Int))
    (hfits : 44 + 2 * n < 2 ^ 32) :
    buildSilentWav sampleRate durationSec =
      some (wavHeader sampleRate (UInt32.ofNat n) ++
        (List.replicate n (0 : Int16)).flatMap sampleBytes) := by
  obtain ⟨hnum, htoNat⟩ := ofInt_natCast (n := n) (by omega)
  have hsize : (44 + UInt32.ofNat n * 2).toNat =
      (wavHeader sampleRate (UInt32.ofNat n)).length + 2 * n := by
    rw [toNat_add_double (by rw [htoNat]; exact hfits), htoNat, length_wavHeader]
    rfl
  have hguard : ¬ (sampleRate ≤ 0 ∨ durationSec.lt (.finite 0) = true) := by
    rw [hlt]
    simp only [Bool.false_eq_true, or_false]
    omega
  rw [buildSilentWav, if_neg hguard, hn, Option.bind_eq_bind, Option.bind_some]
  dsimp only
  rw [hnum, buildWavHeader_eq hrate, Option.bind_eq_bind, Option.bind_some, hsize, resize_add,
    flatMap_sampleBytes_zero]
  rfl

/-- A file of silence is read as zeros. -/
theorem readWav_silence (sampleRate : Int) {n : Nat} (hfits : 44 + 2 * n < 2 ^ 32) :
    readWav (wavHeader sampleRate (UInt32.ofNat n) ++
      (List.replicate n (0 : Int16)).flatMap sampleBytes) = some (List.replicate n 0) := by
  have hlength : (List.replicate n (0 : Int16)).length = n := List.length_replicate
  have hread := readWav_eq sampleRate
    (show 44 + 2 * (List.replicate n (0 : Int16)).length < 2 ^ 32 by rwa [hlength])
  rw [hlength] at hread
  rw [hread, List.map_replicate]
  rfl

/-! ## Results -/

/-- What `tts_generate` documents of its outputs: the number of samples is the one
of the buffer. It is an `int`. -/
structure Generated.WellReported (g : Generated) : Prop where
  length : ∀ samples, g.samples = some samples → g.nSamples = samples.length
  max : g.nSamples < 2 ^ 31

/-- What is heard of a result: the samples of the engine's floats, or a second of
silence. -/
def Heard (b : EngineBackend) (reply : EngineReply) (audio : List UInt8) : Prop :=
  if b.useRealEngine then
    ∃ (samples : List Floating) (codes : List Int16),
      reply.generated.samples = some samples ∧ samples ≠ [] ∧
      samples.map pcmSample = codes.map some ∧ readWav audio = some (codes.map Int16.toInt)
  else readWav audio = some (List.replicate 24000 0)

/-- The file of the engine's samples is read as these. -/
theorem engine_audio {samples : List Floating} (hpos : 1 ≤ samples.length)
    (hmax : samples.length < 2 ^ 31) {wav : List UInt8}
    (hwav : buildWavFromFloatSamples (some samples) samples.length kSampleRate = some wav) :
    ∃ codes : List Int16, samples.map pcmSample = codes.map some ∧
      readWav wav = some (codes.map Int16.toInt) := by
  by_cases hfits : 44 + 2 * samples.length < 2 ^ 32
  · obtain ⟨codes, hcodes, _⟩ := exists_codes samples
    have hlength : samples.length = codes.length := by
      have hmap := congrArg List.length hcodes
      rwa [List.length_map, List.length_map] at hmap
    rw [buildWavFromFloatSamples_eq hcodes hpos hfits
      (show RateFits kSampleRate from ⟨by decide, by decide⟩)] at hwav
    cases hwav
    refine ⟨codes, hcodes, ?_⟩
    rw [hlength]
    exact readWav_eq kSampleRate (by rwa [← hlength])
  · rw [buildWavFromFloatSamples_none (Nat.le_of_not_lt hfits) hmax] at hwav
    cases hwav

/-- The file of the stub. -/
theorem stub_audio {wav : List UInt8} (hwav : buildSilentWav kSampleRate (.finite 1) = some wav) :
    readWav wav = some (List.replicate 24000 0) := by
  have hrounded : Rounding.nearest 53 (1 * kSampleRate) = (24000 : Nat) := by
    rw [← Rounding.nearest_natCast (p := 53) (by norm_num)]
    norm_num [kSampleRate]
  have hn : (Floating.scale 53 kSampleRate (.finite 1)).truncate 0 (2 ^ 32 - 1) =
      some ((24000 : Nat) : Int) := by
    rw [Floating.scale, hrounded]
    simp [Floating.truncate]
  rw [buildSilentWav_eq (by decide) ⟨by decide, by decide⟩ (by decide) hn (by decide)] at hwav
  cases hwav
  exact readWav_silence kSampleRate (by decide)

namespace EngineBackend

variable {b : EngineBackend} {request : SynthesisRequest} {reply : EngineReply}
  {result : SynthesisResult}

/-- `tts_generate` has failed when the backend says so. -/
theorem failed_iff : reply.failed = true ↔
    reply.generated.rc ≠ 0 ∨ reply.generated.samples = none ∨ reply.generated.nSamples ≤ 0 := by
  simp [EngineReply.failed, or_assoc]

/-- With the engine there is a result only when nothing has failed or thrown. -/
theorem succeeds (hinit : b.initialized = true) (hreal : b.useRealEngine = true)
    (h : (b.synthesize request reply).2 = some (.ok result)) :
    reply.thrown = none ∧ reply.failed = false := by
  have hfailed : reply.failed = false := by
    by_contra hfailed
    rw [Bool.not_eq_false] at hfailed
    have hguard := failed_iff.mp hfailed
    simp only [synthesize, view, hinit, hreal, hfailed, Bool.not_true, Bool.false_eq_true,
      if_false, if_true, VoxtralBackend.synthesize, if_pos hguard] at h
    split at h <;> cases h
  refine ⟨?_, hfailed⟩
  simp only [synthesize, hinit, hreal, hfailed, Bool.not_true, Bool.false_eq_true, if_false,
    if_true] at h
  cases hthrown : reply.thrown with
  | none => rfl
  | some what =>
    rw [hthrown] at h
    cases h

/-- Without the engine, when nothing has thrown. -/
theorem silent (hinit : b.initialized = true) (hreal : b.useRealEngine = false)
    (h : (b.synthesize request reply).2 = some (.ok result)) : reply.thrown = none := by
  simp only [synthesize, hinit, hreal, Bool.not_true, Bool.false_eq_true, if_false] at h
  cases hthrown : reply.thrown with
  | none => rfl
  | some what =>
    rw [hthrown] at h
    cases h

/-- The samples of a reply that has not failed. -/
theorem samples_of_succeeds (hfailed : reply.failed = false)
    (hreply : reply.generated.WellReported) : ∃ samples : List Floating,
      1 ≤ samples.length ∧ samples.length < 2 ^ 31 ∧
      reply.generated = { rc := 0, samples := some samples, nSamples := samples.length } := by
  have hguard := mt failed_iff.mpr (Bool.not_eq_true _ ▸ hfailed)
  simp only [not_or, not_not] at hguard
  obtain ⟨hrc, hsome, hpos⟩ := hguard
  obtain ⟨samples, hsamples⟩ := Option.ne_none_iff_exists'.mp hsome
  have hlength := hreply.length samples hsamples
  have hmax := hreply.max
  refine ⟨samples, by omega, by omega, ?_⟩
  cases hg : reply.generated
  simp_all

/-- The file of a result is read as the samples that the engine left, or as a second
of silence. -/
theorem synthesize_audio (hinit : b.initialized = true) (hreply : reply.generated.WellReported)
    (h : (b.synthesize request reply).2 = some (.ok result)) :
    Heard b reply result.audioData := by
  unfold Heard
  split
  · next hreal =>
    obtain ⟨hthrown, hfailed⟩ := succeeds hinit hreal h
    obtain ⟨samples, hpos, hmax, hgenerated⟩ := samples_of_succeeds hfailed hreply
    rw [synthesize_result hthrown, view, hinit, hreal, hgenerated, synthesize_engine hpos] at h
    obtain ⟨wav, hwav, heq⟩ := Option.map_eq_some_iff.mp h
    cases heq
    obtain ⟨codes, hcodes, hread⟩ := engine_audio hpos hmax hwav
    refine ⟨samples, codes, by rw [hgenerated], ?_, hcodes, hread⟩
    rintro rfl
    cases hpos
  · next hreal =>
    rw [Bool.not_eq_true] at hreal
    rw [synthesize_result (silent hinit hreal h), view, hinit, hreal] at h
    obtain ⟨wav, hwav, heq⟩ := Option.bind_eq_some_iff.mp h
    cases heq
    exact stub_audio hwav

end EngineBackend
end VoxtralServer
