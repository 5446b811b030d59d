import Mathlib.Data.List.Forall2
import VoxtralServer.Json
import VoxtralServer.Lib.Rounding
import VoxtralServer.Lib.Riff

/-!
# WAV files

The bytes that the backend makes of the engine's samples: a header of 44 bytes,
and the samples as 16-bit PCM. Sizes are computed in 32 bits, and a write out of
the vector's bounds is undefined, `none` here.

* `buildWavFromFloatSamples_eq`: as long as the size fits into 32 bits, the header
  and the samples stand one behind the other.
* `buildWavFromFloatSamples_none`: otherwise the first sample is written out of
  bounds.
* `pcm_round_trip`: a reader takes the samples from the file again.
-/

namespace VoxtralServer

open Bytes

/-! ## Floating-point values -/

/-- `std::fmin`: a NaN gives way to the other argument. -/
def Floating.fmin (a b : Floating) : Floating :=
  if a = .nan then b else if b = .nan then a else if a.lt b then a else b

/-- `std::fmax`. -/
def Floating.fmax (a b : Floating) : Floating :=
  if a = .nan then b else if b = .nan then a else if a.lt b then b else a

/-- The product with a positive number, rounded to `p` binary digits. -/
def Floating.scale (p : Nat) (k : Rat) : Floating → Floating
  | .finite q => .finite (Rounding.nearest p (q * k))
  | .inf negative => .inf negative
  | .nan => .nan

/-- A cast to an integer type: truncation, undefined outside the type's range. -/
def Floating.truncate (low high : Int) : Floating → Option Int
  | .finite q =>
    let n := if q < 0 then ⌈q⌉ else ⌊q⌋
    if low ≤ n ∧ n ≤ high then some n else none
  | .inf _ => none
  | .nan => none

/-! ## Writers -/

/-- `write_u32`. -/
def writeU32 (dst : List UInt8) (i : Nat) (val : UInt32) : Option (List UInt8) := do
  let dst ← write dst i (val &&& 0xFF).toUInt8
  let dst ← write dst (i + 1) ((val >>> 8) &&& 0xFF).toUInt8
  let dst ← write dst (i + 2) ((val >>> 16) &&& 0xFF).toUInt8
  write dst (i + 3) ((val >>> 24) &&& 0xFF).toUInt8

/-- `write_u16`. -/
def writeU16 (dst : List UInt8) (i : Nat) (val : UInt16) : Option (List UInt8) := do
  let dst ← write dst i (val &&& 0xFF).toUInt8
  write dst (i + 1) ((val >>> 8) &&& 0xFF).toUInt8

/-- The product of two `int`s, undefined on overflow. -/
def mulInt (a b : Int) : Option Int :=
  if -2 ^ 31 ≤ a * b ∧ a * b < 2 ^ 31 then some (a * b) else none

def kChannels : Int := 1
def kBitsPerSample : Int := 16
def kBytesPerSample : Int := kBitsPerSample / 8

/-- `build_wav_header`. -/
def buildWavHeader (sampleRate : Int) (numSamples : UInt32) : Option (List UInt8) := do
  let dataSize := numSamples * UInt32.ofInt (kChannels * kBytesPerSample)
  let fileSize := 36 + dataSize
  let hdr := List.replicate 44 0
  let hdr ← writeAll hdr 0 (utf8 "RIFF")
  let hdr ← writeU32 hdr 4 fileSize
  let hdr ← writeAll hdr 8 (utf8 "WAVE")
  let hdr ← writeAll hdr 12 (utf8 "fmt ")
  let hdr ← writeU32 hdr 16 16
  let hdr ← writeU16 hdr 20 1
  let hdr ← writeU16 hdr 22 (UInt16.ofInt kChannels)
  let hdr ← writeU32 hdr 24 (UInt32.ofInt sampleRate)
  let byteRate ← (mulInt sampleRate kChannels).bind fun rate => mulInt rate kBytesPerSample
  let hdr ← writeU32 hdr 28 (UInt32.ofInt byteRate)
  let hdr ← writeU16 hdr 32 (UInt16.ofInt (kChannels * kBytesPerSample))
  let hdr ← writeU16 hdr 34 (UInt16.ofInt kBitsPerSample)
  let hdr ← writeAll hdr 36 (utf8 "data")
  writeU32 hdr 40 dataSize

/-- `build_silent_wav`. -/
def buildSilentWav (sampleRate : Int) (durationSec : Floating) : Option (List UInt8) :=
  if sampleRate ≤ 0 ∨ durationSec.lt (.finite 0) then some []
  else do
    let numSamples ← (durationSec.scale 53 sampleRate).truncate 0 (2 ^ 32 - 1)
    let numSamples := UInt32.ofInt numSamples
    let wav ← buildWavHeader sampleRate numSamples
    return resize wav (44 + numSamples * 2).toNat 0

/-- The 16-bit sample of a float: clamped to `[-1, 1]` and scaled. -/
def pcmSample (x : Floating) : Option Int16 :=
  let clamped := Floating.fmax (.finite (-1)) (.fmin (.finite 1) x)
  ((clamped.scale 24 32767).truncate (-2 ^ 15) (2 ^ 15 - 1)).map Int16.ofInt

/-- The loop's body: the sample `i`, through a pointer behind the header. -/
def writeSample (samples : List Floating) (wav : List UInt8) (i : UInt32) :
    Option (List UInt8) := do
  let x ← samples[i.toNat]?
  let sample ← pcmSample x
  let wav ← write wav (44 + (i * 2).toNat) (sample.toUInt16 &&& 0xFF).toUInt8
  write wav (44 + (i * 2 + 1).toNat) ((sample.toUInt16 >>> 8) &&& 0xFF).toUInt8

/-- `build_wav_from_float_samples`. The samples are `none` when the pointer is null. -/
def buildWavFromFloatSamples (samples : Option (List Floating)) (nSamples sampleRate : Int) :
    Option (List UInt8) :=
  match samples with
  | none => buildSilentWav sampleRate (.finite 0)
  | some samples =>
    if nSamples ≤ 0 then buildSilentWav sampleRate (.finite 0)
    else do
      let num := UInt32.ofInt nSamples
      let wav ← buildWavHeader sampleRate num
      let wav := resize wav (44 + num * 2).toNat 0
      (List.range num.toNat).foldlM (fun wav i => writeSample samples wav (UInt32.ofNat i)) wav

/-! ## The header -/

theorem and_byte (n : Nat) : (n &&& 255) % 256 = n % 256 := by
  have hand : n &&& 255 = n % 256 := Nat.and_two_pow_sub_one_eq_mod n 8
  rw [hand, Nat.mod_mod]

theorem lowByte32 (val : UInt32) : (val &&& 0xFF).toUInt8 = UInt8.ofNat val.toNat := by
  apply UInt8.toNat_inj.mp
  rw [UInt32.toNat_toUInt8, UInt32.toNat_and, UInt8.toNat_ofNat']
  exact and_byte _

theorem lowByte16 (val : UInt16) : (val &&& 0xFF).toUInt8 = UInt8.ofNat val.toNat := by
  apply UInt8.toNat_inj.mp
  rw [UInt16.toNat_toUInt8, UInt16.toNat_and, UInt8.toNat_ofNat']
  exact and_byte _

/-- `write_u32` writes the bytes of the number. -/
theorem writeU32_eq (dst : List UInt8) (i : Nat) (val : UInt32) :
    writeU32 dst i val = writeAll dst i (toBytes 4 val.toNat) := by
  have hbytes : toBytes 4 val.toNat = [(val &&& 0xFF).toUInt8, ((val >>> 8) &&& 0xFF).toUInt8,
      ((val >>> 16) &&& 0xFF).toUInt8, ((val >>> 24) &&& 0xFF).toUInt8] := by
    simp only [lowByte32, UInt32.toNat_shiftRight, toBytes, Nat.div_div_eq_div_mul]
    simp [Nat.shiftRight_eq_div_pow]
  rw [hbytes]
  simp [writeU32, writeAll]

/-- So does `write_u16`. -/
theorem writeU16_eq (dst : List UInt8) (i : Nat) (val : UInt16) :
    writeU16 dst i val = writeAll dst i (toBytes 2 val.toNat) := by
  have hbytes : toBytes 2 val.toNat =
      [(val &&& 0xFF).toUInt8, ((val >>> 8) &&& 0xFF).toUInt8] := by
    simp only [lowByte16, UInt16.toNat_shiftRight, toBytes]
    simp [Nat.shiftRight_eq_div_pow]
  rw [hbytes]
  simp [writeU16, writeAll]

/-- A sample rate whose byte rate is an `int`. -/
def RateFits (sampleRate : Int) : Prop := -2 ^ 30 ≤ sampleRate ∧ sampleRate < 2 ^ 30

/-- The payload of the header's `fmt ` chunk. -/
def fmtPayload (sampleRate : Int) : List UInt8 :=
  toBytes 2 1 ++ toBytes 2 1 ++ toBytes 4 (UInt32.ofInt sampleRate).toNat ++
    toBytes 4 (UInt32.ofInt (sampleRate * 2)).toNat ++ toBytes 2 2 ++ toBytes 2 16

/-- The header. -/
def wavHeader (sampleRate : Int) (numSamples : UInt32) : List UInt8 :=
  Riff.riff ++ toBytes 4 (36 + numSamples * 2).toNat ++ utf8 "WAVE" ++
    (utf8 "fmt " ++ toBytes 4 16 ++ fmtPayload sampleRate) ++
    (utf8 "data" ++ toBytes 4 (numSamples * 2).toNat)

theorem riff_eq : Riff.riff = utf8 "RIFF" := by decide

theorem length_tags : (utf8 "RIFF").length = 4 ∧ (utf8 "WAVE").length = 4 ∧
    (utf8 "fmt ").length = 4 ∧ (utf8 "data").length = 4 := by
  decide

theorem buildWavHeader_eq {sampleRate : Int} (hrate : RateFits sampleRate) (numSamples : UInt32) :
    buildWavHeader sampleRate numSamples = some (wavHeader sampleRate numSamples) := by
  have hbyteRate : ((mulInt sampleRate kChannels).bind fun rate => mulInt rate kBytesPerSample) =
      some (sampleRate * 2) := by
    obtain ⟨hlow, hhigh⟩ := hrate
    have hchannels : mulInt sampleRate kChannels = some sampleRate := by
      rw [mulInt, kChannels, if_pos (by omega), Int.mul_one]
    rw [hchannels, Option.bind_some]
    exact if_pos (show _ ≤ sampleRate * 2 ∧ sampleRate * 2 < _ by omega)
  -- each field is written where the one before it ends
  have hpieces : buildWavHeader sampleRate numSamples = writePieces (List.replicate 44 0) 0
      [utf8 "RIFF", toBytes 4 (36 + numSamples * 2).toNat, utf8 "WAVE", utf8 "fmt ", toBytes 4 16,
        toBytes 2 1, toBytes 2 1, toBytes 4 (UInt32.ofInt sampleRate).toNat,
        toBytes 4 (UInt32.ofInt (sampleRate * 2)).toNat, toBytes 2 2, toBytes 2 16,
        utf8 "data", toBytes 4 (numSamples * 2).toNat] := by
    simp only [buildWavHeader, writeU32_eq, writeU16_eq, hbyteRate, writePieces, length_toBytes,
      length_tags, Option.bind_eq_bind, Option.bind_some, Option.bind_fun_some, Nat.reduceAdd]
    rfl
  rw [hpieces, writePieces_replicate]
  · simp only [List.flatten_cons, List.flatten_nil, List.append_nil, List.append_assoc, wavHeader,
      fmtPayload, riff_eq]
  · simp only [List.flatten_cons, List.flatten_nil, List.length_append, List.length_nil,
      length_toBytes, length_tags]

theorem length_wavHeader (sampleRate : Int) (numSamples : UInt32) :
    (wavHeader sampleRate numSamples).length = 44 := by
  simp only [wavHeader, fmtPayload, riff_eq, List.length_append, length_toBytes, length_tags]

/-! ## The samples -/

theorem toNat_double {v : UInt32} (h : 2 * v.toNat < 2 ^ 32) : (v * 2).toNat = 2 * v.toNat := by
  rw [UInt32.toNat_mul, Nat.mul_comm]
  exact Nat.mod_eq_of_lt h

theorem toNat_add_double {c v : UInt32} (h : c.toNat + 2 * v.toNat < 2 ^ 32) :
    (c + v * 2).toNat = c.toNat + 2 * v.toNat := by
  rw [UInt32.toNat_add, toNat_double ((Nat.le_add_left ..).trans_lt h), Nat.mod_eq_of_lt h]

/-- The two bytes of a sample. -/
def sampleBytes (sample : Int16) : List UInt8 := toBytes 2 sample.toUInt16.toNat

theorem sampleBytes_eq (sample : Int16) : sampleBytes sample =
    [(sample.toUInt16 &&& 0xFF).toUInt8, ((sample.toUInt16 >>> 8) &&& 0xFF).toUInt8] := by
  simp only [sampleBytes, lowByte16, UInt16.toNat_shiftRight, toBytes]
  simp [Nat.shiftRight_eq_div_pow]

theorem truncate_of_abs_le {q : Rat} {k : Nat} {low high : Int} (h : |q| ≤ k) (hlow : low ≤ -k)
    (hhigh : k ≤ high) : ∃ n, (Floating.finite q).truncate low high = some n ∧ |n| ≤ k := by
  obtain ⟨hq, hq'⟩ := abs_le.mp h
  have hn : |if q < 0 then ⌈q⌉ else ⌊q⌋| ≤ k := by
    rw [abs_le]
    split
    · next hneg =>
      refine ⟨?_, (Int.ceil_le.mpr (by exact_mod_cast hneg.le)).trans (Int.natCast_nonneg k)⟩
      exact_mod_cast hq.trans (Int.le_ceil q)
    · next hneg =>
      refine ⟨(neg_nonpos.mpr (Int.natCast_nonneg k)).trans ?_, ?_⟩
      · exact Int.le_floor.mpr (by exact_mod_cast not_lt.mp hneg)
      · exact_mod_cast (Int.floor_le q).trans hq'
  obtain ⟨hn', hn''⟩ := abs_le.mp hn
  exact ⟨_, if_pos ⟨hlow.trans hn', hn''.trans hhigh⟩, hn⟩

/-- Clamping leaves a number between `-1` and `1`, of a NaN or an infinity as well. -/
theorem clamp_finite (x : Floating) :
    ∃ q : Rat, Floating.fmax (.finite (-1)) (.fmin (.finite 1) x) = .finite q ∧ |q| ≤ 1 := by
  have hmax {q : Rat} (hq : q ≤ 1) :
      ∃ q' : Rat, Floating.fmax (.finite (-1)) (.finite q) = .finite q' ∧ |q'| ≤ 1 := by
    by_cases hlt : -1 < q
    · exact ⟨q, by simp [Floating.fmax, Floating.lt, hlt], abs_le.mpr ⟨hlt.le, hq⟩⟩
    · exact ⟨-1, by simp [Floating.fmax, Floating.lt, hlt], by norm_num⟩
  cases x with
  | finite q =>
    by_cases hlt : 1 < q
    · rw [show Floating.fmin (.finite 1) (.finite q) = .finite 1 by
        simp [Floating.fmin, Floating.lt, hlt]]
      exact hmax le_rfl
    · rw [show Floating.fmin (.finite 1) (.finite q) = .finite q by
        simp [Floating.fmin, Floating.lt, hlt]]
      exact hmax (not_lt.mp hlt)
  | inf negative =>
    cases negative with
    | true => exact ⟨-1, rfl, by norm_num⟩
    | false => exact hmax (q := 1) le_rfl
  | nan => exact hmax (q := 1) le_rfl

/-- Every float has a sample. -/
theorem pcmSample_some (x : Floating) :
    ∃ s, pcmSample x = some s ∧ -32767 ≤ s.toInt ∧ s.toInt ≤ 32767 := by
  obtain ⟨q, hclamp, hq⟩ := clamp_finite x
  have hscaled : |q * 32767| ≤ (32767 : Nat) := by
    rw [abs_mul]
    norm_num
    linarith
  obtain ⟨n, hn, habs⟩ : ∃ n, (Floating.finite (Rounding.nearest 24 (q * 32767))).truncate
      (-2 ^ 15) (2 ^ 15 - 1) = some n ∧ |n| ≤ (32767 : Nat) :=
    truncate_of_abs_le (Rounding.abs_nearest_le (by norm_num) hscaled) (by norm_num) (by norm_num)
  obtain ⟨hlow, hhigh⟩ := abs_le.mp habs
  refine ⟨Int16.ofInt n, ?_, ?_⟩
  · rw [pcmSample]
    simp only [hclamp, Floating.scale]
    rw [hn, Option.map_some]
  · rw [Int16.toInt_ofInt_of_le (by omega) (by omega)]
    exact ⟨hlow, hhigh⟩

/-- The samples of some floats. -/
theorem exists_codes (samples : List Floating) :
    ∃ codes : List Int16, samples.map pcmSample = codes.map some ∧
      ∀ s ∈ codes, -32767 ≤ s.toInt ∧ s.toInt ≤ 32767 := by
  induction samples with
  | nil => exact ⟨[], rfl, by simp⟩
  | cons x samples ih =>
    obtain ⟨s, hs, hrange⟩ := pcmSample_some x
    obtain ⟨codes, hcodes, hranges⟩ := ih
    refine ⟨s :: codes, ?_, List.forall_mem_cons.mpr ⟨hrange, hranges⟩⟩
    rw [List.map_cons, List.map_cons, hs, hcodes]

/-- The loop's body writes the bytes of its sample. -/
theorem writeSample_eq {samples : List Floating} {k : Nat} {s : Int16}
    (hs : samples[k]?.bind pcmSample = some s) (hk : 44 + 2 * (k + 1) ≤ 2 ^ 32) {l : List UInt8}
    (hl : l.length = 44 + 2 * k) (r : List UInt8) :
    writeSample samples (l ++ [0, 0] ++ r) (UInt32.ofNat k) = some (l ++ sampleBytes s ++ r) := by
  have hi : (UInt32.ofNat k).toNat = k := UInt32.toNat_ofNat_of_lt' (by rw [UInt32.size]; omega)
  have hdouble {c : UInt32} (hc : c.toNat < 2) :
      44 + (c + UInt32.ofNat k * 2).toNat = l.length + c.toNat := by
    rw [toNat_add_double (by omega), hi, hl]
    omega
  have hi0 : 44 + (UInt32.ofNat k * 2).toNat = l.length := by
    simpa using hdouble (c := 0) (by decide)
  have hi1 : 44 + (UInt32.ofNat k * 2 + 1).toNat = l.length + 1 := by
    rw [UInt32.add_comm]
    exact hdouble (by decide)
  obtain ⟨x, hx, hsample⟩ := Option.bind_eq_some_iff.mp hs
  have hwrite := writeAll_append r (show [0, 0].length = (sampleBytes s).length by
    rw [sampleBytes, length_toBytes]; rfl) l
  rw [← hwrite, writeSample, hi, hx, hi0, hi1, sampleBytes_eq]
  simp [hsample, writeAll]

theorem writeSample_none {samples : List Floating} {wav : List UInt8} (h : wav.length ≤ 44) :
    writeSample samples wav 0 = none := by
  have hwrite (b : UInt8) : write wav 44 b = none := write_none h b
  simp [writeSample, hwrite]

theorem length_flatMap_sampleBytes (codes : List Int16) :
    (codes.flatMap sampleBytes).length = 2 * codes.length := by
  induction codes with
  | nil => rfl
  | cons s codes ih =>
    rw [List.flatMap_cons, List.length_append, ih, sampleBytes, length_toBytes, List.length_cons]
    omega

/-- The loop's invariant: `k` samples stand behind the header. -/
theorem writeSamples_eq {samples : List Floating} {codes : List Int16}
    (hcodes : samples.map pcmSample = codes.map some) (hfits : 44 + 2 * samples.length < 2 ^ 32)
    {hdr : List UInt8} (hhdr : hdr.length = 44) {k : Nat} (hk : k ≤ samples.length) :
    (List.range k).foldlM (fun wav i => writeSample samples wav (UInt32.ofNat i))
        (hdr ++ List.replicate (2 * samples.length) 0) =
      some (hdr ++ (codes.take k).flatMap sampleBytes ++
        List.replicate (2 * (samples.length - k)) 0) := by
  have hlength : codes.length = samples.length := by
    have := congrArg List.length hcodes
    rw [List.length_map, List.length_map] at this
    exact this.symm
  induction k with
  | zero => simp
  | succ k ih =>
    -- the next two zeros make room for the sample
    obtain ⟨n, hn⟩ : ∃ n, samples.length - k = n + 1 := ⟨samples.length - k - 1, by omega⟩
    have hsample : samples[k]?.bind pcmSample = some codes[k] := by
      have hk' : k < codes.length := by omega
      have hget := congrArg (fun l => l[k]?) hcodes
      simp only [List.getElem?_map, List.getElem?_eq_getElem hk, List.getElem?_eq_getElem hk',
        Option.map_some, Option.some.injEq] at hget
      rw [List.getElem?_eq_getElem hk]
      exact hget
    have hzeros : List.replicate (2 * (samples.length - k)) (0 : UInt8) =
        [0, 0] ++ List.replicate (2 * n) 0 := by
      rw [hn, Nat.mul_succ, Nat.add_comm]
      exact List.replicate_add ..
    have hdone : (hdr ++ (codes.take k).flatMap sampleBytes).length = 44 + 2 * k := by
      rw [List.length_append, hhdr, length_flatMap_sampleBytes, List.length_take_of_le (by omega)]
    rw [List.range_succ, List.foldlM_append, ih (by omega), Option.bind_eq_bind, Option.bind_some,
      hzeros, ← List.append_assoc, List.foldlM_cons, writeSample_eq hsample (by omega) hdone]
    have htake : codes.take (k + 1) = codes.take k ++ [codes[k]] :=
      List.take_succ_eq_append_getElem (by omega)
    have hrest : samples.length - (k + 1) = n := by omega
    rw [htake, hrest, List.flatMap_append, List.flatMap_singleton, ← List.append_assoc]
    rfl

theorem ofInt_natCast {n : Nat} (h : n < 2 ^ 31) :
    UInt32.ofInt n = UInt32.ofNat n ∧ (UInt32.ofNat n).toNat = n := by
  refine ⟨?_, UInt32.toNat_ofNat_of_lt' (by rw [UInt32.size]; omega)⟩
  rw [UInt32.ofInt]
  exact congrArg UInt32.ofNat (by omega)

/-- `build_wav_from_float_samples` of samples whose file has a size in 32 bits. -/
theorem buildWavFromFloatSamples_eq {samples : List Floating} {codes : List Int16}
    (hcodes : samples.map pcmSample = codes.map some) (hpos : 1 ≤ samples.length)
    (hfits : 44 + 2 * samples.length < 2 ^ 32) {sampleRate : Int} (hrate : RateFits sampleRate) :
    buildWavFromFloatSamples (some samples) samples.length sampleRate =
      some (wavHeader sampleRate (UInt32.ofNat samples.length) ++ codes.flatMap sampleBytes) := by
  obtain ⟨hnum, hn⟩ := ofInt_natCast (n := samples.length) (by omega)
  have hsize : (44 + UInt32.ofNat samples.length * 2).toNat =
      (wavHeader sampleRate (UInt32.ofNat samples.length)).length + 2 * samples.length := by
    rw [toNat_add_double (by rw [hn]; exact hfits), hn, length_wavHeader]
    rfl
  have hcodes' : codes.take samples.length = codes := by
    have hlength := congrArg List.length hcodes
    rw [List.length_map, List.length_map] at hlength
    exact List.take_of_length_le hlength.ge
  have hloop := writeSamples_eq hcodes hfits
    (length_wavHeader sampleRate (UInt32.ofNat samples.length)) (Nat.le_refl _)
  rw [hcodes', Nat.sub_self, Nat.mul_zero, List.replicate_zero, List.append_nil] at hloop
  rw [buildWavFromFloatSamples, if_neg (by omega), hnum]
  dsimp only
  rw [buildWavHeader_eq hrate, Option.bind_eq_bind, Option.bind_some, hsize, resize_add, hn]
  exact hloop

/-- Of more samples, the first one is written out of bounds. -/
theorem buildWavFromFloatSamples_none {samples : List Floating}
    (hfits : 2 ^ 32 ≤ 44 + 2 * samples.length) (hmax : samples.length < 2 ^ 31)
    (sampleRate : Int) :
    buildWavFromFloatSamples (some samples) samples.length sampleRate = none := by
  obtain ⟨hnum, hn⟩ := ofInt_natCast hmax
  -- the size wraps around once, and what is left of it is less than the header
  have hsize : (44 + UInt32.ofNat samples.length * 2).toNat ≤ 44 := by
    rw [UInt32.toNat_add, UInt32.toNat_mul, hn]
    have h2 : (2 : UInt32).toNat = 2 := rfl
    have h44 : (44 : UInt32).toNat = 44 := rfl
    rw [h2, h44]
    omega
  rw [buildWavFromFloatSamples, if_neg (by omega), hnum]
  dsimp only
  cases buildWavHeader sampleRate (UInt32.ofNat samples.length) with
  | none => rfl
  | some hdr =>
    have hfirst : writeSample samples
        (resize hdr (44 + UInt32.ofNat samples.length * 2).toNat 0) 0 = none :=
      writeSample_none ((length_resize ..).trans_le hsize)
    obtain ⟨k, hk⟩ : ∃ k, samples.length = k + 1 := ⟨samples.length - 1, by omega⟩
    have hrange : List.range samples.length = 0 :: (List.range k).map Nat.succ := by
      rw [hk, List.range_succ_eq_map]
    simp only [Option.bind_eq_bind, Option.bind_some, hn, hrange, List.foldlM_cons]
    rw [show UInt32.ofNat 0 = 0 from rfl, hfirst, Option.bind_none]

/-! ## Reading -/

/-- A number in the header: where it stands, its width, and what was passed to its
writer. -/
structure HeaderField where
  offset : Nat
  width : Nat
  value : Nat

/-- The numbers in the header. -/
def headerFields (sampleRate : Int) (numSamples : UInt32) : List HeaderField :=
  [⟨4, 4, (36 + numSamples * 2).toNat⟩, ⟨16, 4, 16⟩, ⟨20, 2, 1⟩, ⟨22, 2, 1⟩,
    ⟨24, 4, (UInt32.ofInt sampleRate).toNat⟩, ⟨28, 4, (UInt32.ofInt (sampleRate * 2)).toNat⟩,
    ⟨32, 2, 2⟩, ⟨34, 2, 16⟩, ⟨40, 4, (numSamples * 2).toNat⟩]

/-- The numbers are read as they were written. -/
theorem numberAt_wavHeader (sampleRate : Int) (numSamples : UInt32) (payload : List UInt8) :
    ∀ field ∈ headerFields sampleRate numSamples,
      numberAt (wavHeader sampleRate numSamples ++ payload) field.offset field.width =
        field.value := by
  have hlt (v : UInt32) : v.toNat < 256 ^ 4 := by
    have hbits : 256 ^ 4 = 2 ^ 32 := by norm_num
    exact hbits ▸ v.toNat_lt
  simp only [headerFields, wavHeader, fmtPayload, riff_eq, List.append_assoc, List.forall_mem_cons]
  refine ⟨?_, ?_, ?_, ?_, ?_, ?_, ?_, ?_, ?_, by simp⟩
  all_goals
    simp (disch := simp only [length_tags, length_toBytes, Nat.reduceLeDiff]) only [numberAt_skip,
      length_tags, length_toBytes, Nat.reduceSub, Nat.sub_self]
    exact numberAt_zero (by first | exact hlt _ | norm_num) _

/-- The tags stand where a reader looks for them. -/
theorem bytesAt_wavHeader (sampleRate : Int) (numSamples : UInt32) (payload : List UInt8) :
    bytesAt (wavHeader sampleRate numSamples ++ payload) 0 4 = utf8 "RIFF" ∧
    bytesAt (wavHeader sampleRate numSamples ++ payload) 8 4 = utf8 "WAVE" ∧
    bytesAt (wavHeader sampleRate numSamples ++ payload) 12 4 = utf8 "fmt " ∧
    bytesAt (wavHeader sampleRate numSamples ++ payload) 36 4 = utf8 "data" := by
  simp only [wavHeader, fmtPayload, riff_eq, List.append_assoc]
  refine ⟨bytesAt_zero length_tags.1 _, ?_, ?_, ?_⟩
  all_goals
    simp (disch := simp only [length_tags, length_toBytes, Nat.reduceLeDiff]) only [bytesAt_skip,
      length_tags, length_toBytes, Nat.reduceSub, Nat.sub_self]
    exact bytesAt_zero (by simp only [length_tags]) _

/-- What a reader takes from a file of PCM samples: it looks for the chunk with the
format and the one with the data, and decodes samples of the width that the former
says. -/
def readWav (bytes : List UInt8) : Option (List Int) := do
  let file ← Riff.read bytes
  let fmt ← file.chunks.find? fun chunk => chunk.tag = utf8 "fmt "
  let data ← file.chunks.find? fun chunk => chunk.tag = utf8 "data"
  let width := numberAt fmt.payload 14 2 / 8
  if file.form = utf8 "WAVE" then
    some ((split width (data.payload.length / width) data.payload).map signed)
  else none

/-- The chunk with the format. -/
def fmtChunk (sampleRate : Int) : Riff.Chunk where
  tag := utf8 "fmt "
  payload := fmtPayload sampleRate
  tag_length := rfl
  payload_lt := by simp [fmtPayload]

/-- The chunk with the samples. -/
def dataChunk (payload : List UInt8) (h : payload.length < 256 ^ 4) : Riff.Chunk where
  tag := utf8 "data"
  payload := payload
  tag_length := rfl
  payload_lt := h

/-- The file of the two chunks. -/
def wavFile (sampleRate : Int) (payload : List UInt8) (h : payload.length < 256 ^ 4) :
    Riff.File where
  form := utf8 "WAVE"
  chunks := [fmtChunk sampleRate, dataChunk payload h]

theorem content_wavFile (sampleRate : Int) {payload : List UInt8} (h : payload.length < 256 ^ 4)
    (heven : payload.length % 2 = 0) :
    (wavFile sampleRate payload h).content =
      utf8 "WAVE" ++ (utf8 "fmt " ++ toBytes 4 16 ++ fmtPayload sampleRate) ++
        (utf8 "data" ++ toBytes 4 payload.length ++ payload) ∧
    (wavFile sampleRate payload h).content.length = 36 + payload.length := by
  have hfmt : (fmtPayload sampleRate).length = 16 := by
    simp only [fmtPayload, List.length_append, length_toBytes]
  have hcontent : (wavFile sampleRate payload h).content =
      utf8 "WAVE" ++ (utf8 "fmt " ++ toBytes 4 16 ++ fmtPayload sampleRate) ++
        (utf8 "data" ++ toBytes 4 payload.length ++ payload) := by
    simp only [wavFile, Riff.File.content, List.flatMap_cons, List.flatMap_nil, Riff.Chunk.encode,
      fmtChunk, dataChunk, hfmt, heven, List.replicate_zero, List.append_nil, List.append_assoc,
      Nat.reduceMod]
  refine ⟨hcontent, ?_⟩
  simp only [hcontent, List.length_append, length_tags, length_toBytes, hfmt, Nat.reduceAdd]
  omega

/-- The header and the samples are the file of the two chunks. -/
theorem wavHeader_append_eq (sampleRate : Int) {numSamples : UInt32} {payload : List UInt8}
    (hpayload : payload.length = 2 * numSamples.toNat)
    (hfits : 44 + 2 * numSamples.toNat < 2 ^ 32) (h : payload.length < 256 ^ 4) :
    wavHeader sampleRate numSamples ++ payload = (wavFile sampleRate payload h).encode := by
  have hdata : (numSamples * 2).toNat = payload.length := by
    rw [toNat_double (by omega), hpayload]
  have hfile : (36 + numSamples * 2).toNat = 36 + payload.length := by
    rw [toNat_add_double (by rw [show (36 : UInt32).toNat = 36 from rfl]; omega), hpayload]
    rfl
  obtain ⟨hcontent, hlength⟩ := content_wavFile sampleRate h (by omega)
  rw [Riff.File.encode, hlength, hcontent, wavHeader, hdata, hfile]
  simp only [List.append_assoc]

theorem signed_sampleBytes (s : Int16) : signed (sampleBytes s) = s.toInt := by
  have hbits : 256 ^ 2 = 2 ^ 16 := by norm_num
  rw [sampleBytes, signed_toBytes (hbits ▸ s.toUInt16.toNat_lt), hbits]
  exact s.toBitVec.toInt_eq_toNat_bmod.symm

theorem read_wavFile (sampleRate : Int) {payload : List UInt8} (h : payload.length < 256 ^ 4)
    (heven : payload.length % 2 = 0) (hfits : 36 + payload.length < 256 ^ 4) :
    Riff.read (wavFile sampleRate payload h).encode = some (wavFile sampleRate payload h) := by
  obtain ⟨-, hcontent⟩ := content_wavFile sampleRate h heven
  exact Riff.read_encode length_tags.2.1 (by rw [hcontent]; exact hfits)

theorem find_wavFile (sampleRate : Int) {payload : List UInt8} (h : payload.length < 256 ^ 4) :
    (wavFile sampleRate payload h).chunks.find? (fun chunk => chunk.tag = utf8 "fmt ") =
      some (fmtChunk sampleRate) ∧
    (wavFile sampleRate payload h).chunks.find? (fun chunk => chunk.tag = utf8 "data") =
      some (dataChunk payload h) := by
  have htag : utf8 "fmt " ≠ utf8 "data" := by decide
  simp [wavFile, fmtChunk, dataChunk, htag]

/-- A reader finds the format and the samples. -/
theorem readWav_eq (sampleRate : Int) {codes : List Int16}
    (hfits : 44 + 2 * codes.length < 2 ^ 32) :
    readWav (wavHeader sampleRate (UInt32.ofNat codes.length) ++ codes.flatMap sampleBytes) =
      some (codes.map Int16.toInt) := by
  obtain ⟨-, hn⟩ := ofInt_natCast (n := codes.length) (by omega)
  have hlength := length_flatMap_sampleBytes codes
  have hpayload : (codes.flatMap sampleBytes).length < 256 ^ 4 := by omega
  have hwidth : numberAt (fmtPayload sampleRate) 14 2 / 8 = 2 := by
    simp [fmtPayload, numberAt, bytesAt, toBytes, ofBytes]
  have hparts : split 2 ((codes.flatMap sampleBytes).length / 2) (codes.flatMap sampleBytes) =
      codes.map sampleBytes := by
    have hcount : (codes.flatMap sampleBytes).length / 2 = (codes.map sampleBytes).length := by
      rw [List.length_map]
      omega
    rw [hcount, List.flatMap_def]
    refine split_flatten fun part hpart => ?_
    obtain ⟨s, -, rfl⟩ := List.mem_map.mp hpart
    exact length_toBytes ..
  rw [wavHeader_append_eq sampleRate (by rw [hn, hlength]) (by rw [hn]; exact hfits) hpayload,
    readWav, read_wavFile sampleRate hpayload (by omega) (by omega), Option.bind_eq_bind,
    Option.bind_some]
  obtain ⟨hfmt, hdata⟩ := find_wavFile sampleRate hpayload
  simp only [Option.bind_eq_bind, Option.bind_some, hfmt, hdata]
  simp only [wavFile, if_true, fmtChunk, dataChunk, hwidth, hparts, List.map_map, Option.some.injEq]
  refine List.map_congr_left fun s _ => ?_
  rw [Function.comp_apply, signed_sampleBytes]

/-- **The round trip of the samples.** The bytes made of one or more floats, as
long as their number fits into 32 bits, are read as the samples of the floats, each
of them between `-32767` and `32767`, and every number in the header is read as it
was passed to its writer. -/
theorem pcm_round_trip (samples : List Floating) (hpos : 1 ≤ samples.length)
    (hfits : 44 + 2 * samples.length < 2 ^ 32) (sampleRate : Int) (hrate : RateFits sampleRate) :
    ∃ codes : List Int16, samples.map pcmSample = codes.map some ∧
      (∀ s ∈ codes, -32767 ≤ s.toInt ∧ s.toInt ≤ 32767) ∧
      ∃ wav, buildWavFromFloatSamples (some samples) samples.length sampleRate = some wav ∧
        readWav wav = some (codes.map Int16.toInt) ∧
        ∀ field ∈ headerFields sampleRate (UInt32.ofNat samples.length),
          numberAt wav field.offset field.width = field.value := by
  obtain ⟨codes, hcodes, hrange⟩ := exists_codes samples
  have hlength : samples.length = codes.length := by
    have hmap := congrArg List.length hcodes
    rwa [List.length_map, List.length_map] at hmap
  refine ⟨codes, hcodes, hrange, _, buildWavFromFloatSamples_eq hcodes hpos hfits hrate, ?_, ?_⟩
  · rw [hlength]
    exact readWav_eq sampleRate (by rwa [← hlength])
  · exact numberAt_wavHeader _ _ _

/-- The file of two floats has two samples. -/
theorem pcm_round_trip_two :
    ∃ (codes : List Int16) (wav : List UInt8),
      buildWavFromFloatSamples (some [.finite 1, .nan]) 2 24000 = some wav ∧
      readWav wav = some (codes.map Int16.toInt) ∧ codes.length = 2 := by
  obtain ⟨codes, hcodes, -, wav, hwav, hread, -⟩ :=
    pcm_round_trip [.finite 1, .nan] (by decide) (by decide) 24000 ⟨by decide, by decide⟩
  have hlength := congrArg List.length hcodes
  rw [List.length_map, List.length_map] at hlength
  exact ⟨codes, wav, hwav, hread, hlength.symm⟩

end VoxtralServer
