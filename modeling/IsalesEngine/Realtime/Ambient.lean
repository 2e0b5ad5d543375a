import IsalesEngine.Binary.Int16Array
import IsalesEngine.Truncation
import Mathlib.Tactic.Linarith

/-!
Sample arithmetic on outbound audio: the fade that ends buffered speech on a
barge-in, and the background noise that is read as an endless loop. Audio is 16 kHz
mono with samples of 16 bits. The arithmetic of the source is that of floats: the
crossfade takes as an argument how results are rounded, the fade is exact here. The
conversion to an integer truncates toward zero. A byte string that is not made of
whole samples is refused, as `array.frombytes` refuses it.
-/
namespace IsalesEngine
namespace Ambient
open Binary Binary.Int16Array Truncation

def sendRate : Nat := 16000
def sendChannels : Nat := 1
def sampleBytes : Nat := 2
def frameSamples : Nat := sendRate / 100
def frameBytes : Nat := frameSamples * sendChannels * sampleBytes
def silenceFrame : Bytes := List.replicate frameBytes 0
def crossfadeSamples : Nat := sendRate / 50

def clip16 (v : ℚ) : Int :=
  truncate (if v < -32768 then -32768 else if 32767 < v then 32767 else v)

theorem clip16_range (v : ℚ) : -0x8000 ≤ clip16 v ∧ clip16 v ≤ 0x7fff := by
  rw [clip16]
  constructor
  · apply le_truncate
    split_ifs
    all_goals push_cast
    all_goals linarith
  · apply truncate_le
    split_ifs
    all_goals push_cast
    all_goals linarith

theorem clip16_of_range {v : ℚ} (low : -32768 ≤ v) (high : v ≤ 32767) : clip16 v = truncate v := by
  rw [clip16, if_neg (not_lt.mpr low), if_neg (not_lt.mpr high)]

/-- The element a clipped number becomes. -/
def sample (v : ℚ) : Int16 := Int16.ofInt (clip16 v)

theorem item_clip16 (v : ℚ) : item (clip16 v) = some (sample v) :=
  item_of_range (clip16_range v).1 (clip16_range v).2

theorem toInt_sample {v : ℚ} (low : -32768 ≤ v) (high : v ≤ 32767) :
    (sample v).toInt = truncate v := by
  obtain ⟨least, most⟩ := clip16_range v
  rw [sample, Int16.toInt_ofInt_of_le (by omega) (by omega), clip16_of_range low high]

/-- The inner loop of `apply_fadeout`, from the sample with index `idx` of `total` on. -/
def fadeSamples (total : Nat) : Nat → List Int16 → Option (List Int16)
  | _, [] => some []
  | idx, v :: rest => do
      let faded ← item (clip16 (v.toInt * (1 - idx / (total - 1))))
      let rest ← fadeSamples total (idx + 1) rest
      return faded :: rest

/-- The outer loop; the index runs on from frame to frame. -/
def fadeFrames (total : Nat) : Nat → List Bytes → Option (List Bytes)
  | _, [] => some []
  | idx, f :: frames => do
      let sa ← fromBytes f
      let faded ← fadeSamples total idx sa
      let out ← fadeFrames total (idx + sa.length) frames
      return toBytes faded :: out

def applyFadeout (frames : List Bytes) : Option (List Bytes) :=
  let total := (frames.map fun f => f.length / sampleBytes).sum
  if total ≤ 1 then some frames else fadeFrames total 0 frames

/-- The share of `b` in the sample with index `i` of `n`. -/
def share (round : ℚ → ℚ) (n i : Nat) : ℚ := round ((i + 1) / (n + 1))

/-- Two samples in the shares `1 - t` and `t`. -/
def blend (round : ℚ → ℚ) (a b : Int16) (t : ℚ) : ℚ :=
  round (round (a.toInt * round (1 - t)) + round (b.toInt * t))

/-- The loop of `_linear_crossfade` over `n` samples, from the one with index `i` on. -/
def crossfade (round : ℚ → ℚ) (n : Nat) : Nat → List Int16 → List Int16 → Option (List Int16)
  | i, a :: as, b :: bs => do
      let v ← item (clip16 (blend round a b (share round n i)))
      let rest ← crossfade round n (i + 1) as bs
      return v :: rest
  | _, _, _ => some []

def linearCrossfade (round : ℚ → ℚ) (a b : Bytes) : Option Bytes := do
  let sa ← fromBytes a
  let sb ← fromBytes b
  let out ← crossfade round (min sa.length sb.length) 0 sa sb
  return toBytes out

/-- The bytes cut to whole frames. -/
def usable (pcm : Bytes) : Bytes := pcm.take (pcm.length / frameBytes * frameBytes)

def cfBytes : Nat := crossfadeSamples * sampleBytes

def makeSeamless (round : ℚ → ℚ) (pcm : Bytes) : Option Bytes :=
  let pcm := usable pcm
  if pcm.length ≤ 2 * cfBytes then some pcm
  else do
    let head := pcm.take cfBytes
    let tail := pcm.drop (pcm.length - cfBytes)
    let body := (pcm.take (pcm.length - cfBytes)).drop cfBytes
    let seam ← linearCrossfade round tail head
    return usable (body ++ seam)

end Ambient

/-- A cursor over the loop; `pos` is a byte offset. -/
structure AmbientReader where
  pcm : Binary.Bytes
  pos : Nat := 0

namespace AmbientReader

def nextFrame (r : AmbientReader) : Binary.Bytes × AmbientReader :=
  let n := r.pcm.length
  if n < Ambient.frameBytes then (Ambient.silenceFrame, r)
  else
    let start := if n < r.pos + Ambient.frameBytes then 0 else r.pos
    let stop := start + Ambient.frameBytes
    ((r.pcm.take stop).drop start, { r with pos := if stop < n then stop else 0 })

end AmbientReader
end IsalesEngine
