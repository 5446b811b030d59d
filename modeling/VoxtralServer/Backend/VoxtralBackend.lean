import VoxtralServer.Backend.Wav
import VoxtralServer.Pool.Job

/-!
# The backend

`synthesize`, which turns what the engine has generated into a result, and the
contract of its WAV files.

* `synthesize_stub`: the stub's second of silence keeps the contract.
* `engine_result_exact`: the result of the engine's samples keeps it exactly when
  the size of the file fits into 32 bits.
* `engine_result_overflow`: the smallest number of samples of which it does not.
-/

namespace VoxtralServer

open Bytes

/-! ## The backend -/

/-- What `tts_generate` leaves: its return code, the buffer it has allocated, and the
number of samples. -/
structure Generated where
  rc : Int
  samples : Option (List Floating)
  nSamples : Int

/-- The state of the `VoxtralBackend`, without the engine's. -/
structure VoxtralBackend where
  initialized : Bool := false
  useRealEngine : Bool := false

def kSampleRate : Int := 24000

/-- `VoxtralBackend::synthesize`: a result, or the text of an exception. It is
undefined, `none`, when the bytes of the file are. -/
def VoxtralBackend.synthesize (backend : VoxtralBackend) (generated : Generated)
    (inferenceTime : Floating) : Option (Except Str SynthesisResult) :=
  if !backend.initialized then
    some (.error (utf8 "VoxtralBackend::synthesize() called before successful initialize()"))
  else if backend.useRealEngine then
    if generated.rc ≠ 0 ∨ generated.samples = none ∨ generated.nSamples ≤ 0 then
      some (.error (utf8 "TTS inference failed"))
    else do
      let wav ← buildWavFromFloatSamples generated.samples generated.nSamples kSampleRate
      let duration := Rounding.nearest 53 (generated.nSamples / kSampleRate)
      return .ok
        { audioData := wav
          sampleRate := kSampleRate
          durationSeconds := .finite duration
          inferenceTimeSeconds := inferenceTime }
  else do
    let wav ← buildSilentWav kSampleRate (.finite 1)
    return .ok
      { audioData := wav
        sampleRate := kSampleRate
        durationSeconds := .finite 1
        inferenceTimeSeconds := inferenceTime }

/-! ## The contract -/

/-- The RIFF/WAVE PCM contract of a file. -/
structure WavContract (wav : List UInt8) : Prop where
  riff : bytesAt wav 0 4 = utf8 "RIFF"
  riffSize : 8 + numberAt wav 4 4 = wav.length
  wave : bytesAt wav 8 4 = utf8 "WAVE"
  fmt : bytesAt wav 12 4 = utf8 "fmt "
  fmtSize : numberAt wav 16 4 = 16
  audioFormat : numberAt wav 20 2 = 1
  channels : numberAt wav 22 2 ≠ 0
  sampleRate : numberAt wav 24 4 ≠ 0
  bitsPerSample : numberAt wav 34 2 ≠ 0 ∧ numberAt wav 34 2 % 8 = 0
  blockAlign : numberAt wav 32 2 = numberAt wav 22 2 * (numberAt wav 34 2 / 8)
  byteRate : numberAt wav 28 4 = numberAt wav 24 4 * numberAt wav 32 2
  data : bytesAt wav 36 4 = utf8 "data"
  dataSize : 44 + numberAt wav 40 4 = wav.length
  aligned : numberAt wav 32 2 ∣ numberAt wav 40 4

/-- The contract of a result of `n` samples: its file's, and that its duration times
the byte rate is the size of the data. The duration is a quotient rounded to a
`double`, which moves the product by a `2⁻⁵³`th at most. -/
structure ResultContract (n : Nat) (result : SynthesisResult) : Prop where
  wav : WavContract result.audioData
  size : result.audioData.length = 44 + 2 * n
  sampleRate : (numberAt result.audioData 24 4 : Int) = result.sampleRate
  duration : ∃ q : Rat, result.durationSeconds = .finite (Rounding.nearest 53 q) ∧
    q * numberAt result.audioData 28 4 = numberAt result.audioData 40 4 ∧
    |Rounding.nearest 53 q * numberAt result.audioData 28 4 - numberAt result.audioData 40 4| ≤
      numberAt result.audioData 40 4 / 2 ^ 53

/-- The quotient that the duration is, and how far its `double` may be off. -/
theorem duration_of_size (n : Nat) : (n / kSampleRate : Rat) * 48000 = 2 * n ∧
    |Rounding.nearest 53 (n / kSampleRate) * 48000 - 2 * n| ≤ 2 * n / 2 ^ 53 := by
  have hquotient : (n / kSampleRate : Rat) * 48000 = 2 * n := by
    rw [show (kSampleRate : Rat) = 24000 by norm_num [kSampleRate]]
    ring
  have hpos : (0 : Rat) ≤ n / kSampleRate := by
    rw [show (kSampleRate : Rat) = 24000 by norm_num [kSampleRate]]
    positivity
  refine ⟨hquotient, ?_⟩
  have herror := Rounding.abs_nearest_sub_le 53 (n / kSampleRate)
  rw [abs_of_nonneg hpos] at herror
  rw [← hquotient, ← sub_mul, abs_mul, abs_of_pos (show (0 : Rat) < 48000 by norm_num)]
  calc |Rounding.nearest 53 (n / kSampleRate) - n / kSampleRate| * 48000
      ≤ n / kSampleRate / 2 ^ 53 * 48000 := mul_le_mul_of_nonneg_right herror (by norm_num)
    _ = n / kSampleRate * 48000 / 2 ^ 53 := by ring

/-- The header and a payload of its size keep the contract. -/
theorem resultContract_of_payload {n : Nat} {numSamples : UInt32} (hn : numSamples.toNat = n)
    {payload : List UInt8} (hpayload : payload.length = 2 * n) (hfits : 44 + 2 * n < 2 ^ 32)
    {result : SynthesisResult}
    (haudio : result.audioData = wavHeader kSampleRate numSamples ++ payload)
    (hrate : result.sampleRate = kSampleRate)
    (hduration : result.durationSeconds = .finite (Rounding.nearest 53 (n / kSampleRate))) :
    ResultContract n result := by
  subst hn
  obtain ⟨hriff, hwave, hfmt, hdata⟩ := bytesAt_wavHeader kSampleRate numSamples payload
  have hfields := numberAt_wavHeader kSampleRate numSamples payload
  simp only [headerFields, List.forall_mem_cons] at hfields
  obtain ⟨h4, h16, h20, h22, h24, h28, h32, h34, h40, -⟩ := hfields
  have hlength : (wavHeader kSampleRate numSamples ++ payload).length =
      44 + 2 * numSamples.toNat := by
    rw [List.length_append, length_wavHeader, hpayload]
  rw [toNat_add_double (by rw [show (36 : UInt32).toNat = 36 from rfl]; omega),
    show (36 : UInt32).toNat = 36 from rfl] at h4
  rw [toNat_double (by omega)] at h40
  rw [show (UInt32.ofInt kSampleRate).toNat = 24000 from rfl] at h24
  rw [show (UInt32.ofInt (kSampleRate * 2)).toNat = 48000 from rfl] at h28
  rw [← haudio] at *
  have hwav : WavContract result.audioData :=
    { riff := hriff
      riffSize := by omega
      wave := hwave
      fmt := hfmt
      fmtSize := h16
      audioFormat := h20
      channels := by omega
      sampleRate := by omega
      bitsPerSample := by omega
      blockAlign := by rw [h32, h22, h34]
      byteRate := by rw [h28, h24, h32]
      data := hdata
      dataSize := by omega
      aligned := by
        rw [h32, h40]
        exact Nat.dvd_mul_right ..}
  refine ⟨hwav, hlength, ?_, _, hduration, ?_⟩
  · rw [h24, hrate]
    rfl
  · rw [h28, h40]
    exact_mod_cast duration_of_size numSamples.toNat

/-! ## Results -/

/-- The stub's result: a second of silence, which keeps the contract. -/
theorem synthesize_stub (generated : Generated) (inferenceTime : Floating) :
    ∃ result, VoxtralBackend.synthesize { initialized := true } generated inferenceTime =
      some (.ok result) ∧ ResultContract 24000 result := by
  have hrounded : Rounding.nearest 53 (1 * kSampleRate) = (24000 : Nat) := by
    rw [← Rounding.nearest_natCast (p := 53) (by norm_num)]
    norm_num [kSampleRate]
  have hsamples : (Floating.scale 53 kSampleRate (.finite 1)).truncate 0 (2 ^ 32 - 1) =
      some 24000 := by
    rw [Floating.scale, hrounded]
    simp [Floating.truncate]
  have hsilent : buildSilentWav kSampleRate (.finite 1) =
      some (wavHeader kSampleRate 24000 ++ List.replicate 48000 0) := by
    have hheader : buildWavHeader kSampleRate 24000 = some (wavHeader kSampleRate 24000) :=
      buildWavHeader_eq ⟨by decide, by decide⟩ 24000
    have hsize : (44 + 24000 * 2 : UInt32).toNat =
        (wavHeader kSampleRate 24000).length + 48000 := by
      rw [length_wavHeader]
      rfl
    rw [buildSilentWav, if_neg (by decide), hsamples, Option.bind_eq_bind, Option.bind_some]
    dsimp only
    rw [show UInt32.ofInt 24000 = 24000 from rfl, hheader, Option.bind_eq_bind, Option.bind_some,
      hsize, resize_add]
    rfl
  refine ⟨_, by rw [VoxtralBackend.synthesize, hsilent]; rfl, ?_⟩
  refine resultContract_of_payload (show (24000 : UInt32).toNat = 24000 from rfl)
    List.length_replicate (by decide) rfl rfl ?_
  have hone : ((24000 : Nat) / kSampleRate : Rat) = (1 : Nat) := by norm_num [kSampleRate]
  rw [hone, Rounding.nearest_natCast (by norm_num)]
  norm_num

/-- The engine's result, if its samples have a file. -/
theorem synthesize_engine {samples : List Floating} (hpos : 1 ≤ samples.length)
    (inferenceTime : Floating) :
    VoxtralBackend.synthesize { initialized := true, useRealEngine := true }
        { rc := 0, samples := some samples, nSamples := samples.length } inferenceTime =
      (buildWavFromFloatSamples (some samples) samples.length kSampleRate).map fun wav =>
        .ok { audioData := wav
              sampleRate := kSampleRate
              durationSeconds := .finite (Rounding.nearest 53 (samples.length / kSampleRate))
              inferenceTimeSeconds := inferenceTime } := by
  have hgenerated : ¬ ((0 : Int) ≠ 0 ∨ some samples = none ∨ (samples.length : Int) ≤ 0) := by
    simp only [ne_eq, not_true, reduceCtorEq, false_or]
    omega
  unfold VoxtralBackend.synthesize
  simp only [Bool.not_true, Bool.false_eq_true, if_false, if_true, if_neg hgenerated,
    Int.cast_natCast]
  cases buildWavFromFloatSamples (some samples) samples.length kSampleRate with
  | none => rfl
  | some wav => rfl

/-- **The contract of the engine's results.** Of every buffer of 1 to `INT_MAX`
samples, the bytes are written within their vector and the result keeps the contract
exactly when the size of the file fits into 32 bits. -/
theorem engine_result_exact (samples : List Floating) (hpos : 1 ≤ samples.length)
    (hmax : samples.length < 2 ^ 31) (inferenceTime : Floating) :
    (∃ result, VoxtralBackend.synthesize { initialized := true, useRealEngine := true }
        { rc := 0, samples := some samples, nSamples := samples.length } inferenceTime =
          some (.ok result) ∧
      buildWavFromFloatSamples (some samples) samples.length kSampleRate =
        some result.audioData ∧
      ResultContract samples.length result) ↔
    44 + 2 * samples.length < 2 ^ 32 := by
  rw [synthesize_engine hpos]
  constructor
  · rintro ⟨result, -, hwav, -⟩
    by_contra hfits
    rw [buildWavFromFloatSamples_none (Nat.le_of_not_lt hfits) hmax] at hwav
    cases hwav
  · intro hfits
    obtain ⟨-, hn⟩ := ofInt_natCast hmax
    obtain ⟨codes, hcodes, -⟩ := exists_codes samples
    have hwav := buildWavFromFloatSamples_eq hcodes hpos hfits
      (show RateFits kSampleRate from ⟨by decide, by decide⟩)
    rw [hwav]
    refine ⟨_, rfl, rfl, ?_⟩
    have hpayload : (codes.flatMap sampleBytes).length = 2 * samples.length := by
      have hlength := congrArg List.length hcodes
      rw [List.length_map, List.length_map] at hlength
      rw [length_flatMap_sampleBytes, hlength]
    exact resultContract_of_payload hn hpayload hfits rfl rfl rfl

/-- Four samples, of which three are clamped. -/
theorem engine_result_exact_four :
    ∃ result, VoxtralBackend.synthesize { initialized := true, useRealEngine := true }
        { rc := 0, samples := some [.nan, .finite (1 / 2), .finite (-2), .finite 3], nSamples := 4 }
        (.finite 0) = some (.ok result) ∧
      ResultContract 4 result ∧ result.audioData.length = 52 := by
  obtain ⟨result, hresult, -, hcontract⟩ :=
    (engine_result_exact [.nan, .finite (1 / 2), .finite (-2), .finite 3] (by decide) (by decide)
      (.finite 0)).mpr (by decide)
  exact ⟨result, hresult, hcontract, hcontract.size⟩

/-- Of `2³¹ - 22` samples of silence, the vector has no byte left: `44 + 2 * num` is
`0` in 32 bits. -/
theorem engine_result_overflow :
    (44 + UInt32.ofNat 2147483626 * 2).toNat = 0 ∧
    buildWavFromFloatSamples (some (List.replicate 2147483626 (.finite 0))) 2147483626
      kSampleRate = none := by
  refine ⟨rfl, ?_⟩
  have hlength : (List.replicate 2147483626 (Floating.finite 0)).length = 2147483626 :=
    List.length_replicate
  have hlarge : 2 ^ 32 ≤ 44 + 2 * (List.replicate 2147483626 (Floating.finite 0)).length := by
    rw [hlength]
    norm_num
  have hnone := buildWavFromFloatSamples_none hlarge (by rw [hlength]; norm_num) kSampleRate
  rwa [hlength] at hnone

end VoxtralServer
