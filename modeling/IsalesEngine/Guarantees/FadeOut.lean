import IsalesEngine.Realtime.Ambient
import IsalesEngine.Realtime.Playout

/-!
The fade of a barge-in is a true fade. The loops over frames and samples compute
one function of the concatenated samples, since the index runs on from frame to
frame; that function scales each sample by a gain that falls from one to zero.
-/
namespace IsalesEngine
namespace Ambient
open Binary Binary.Int16Array Truncation

section Gain
variable {total i j : Nat}

/-- The gain of the sample with index `i` of `total`. -/
def gain (total i : Nat) : ℚ := 1 - i / (total - 1)

theorem gain_first (total : Nat) : gain total 0 = 1 := by simp [gain]

section
variable (enough : 2 ≤ total)
include enough

theorem gain_last : gain total (total - 1) = 0 := by
  have positive : (0 : ℚ) < total - 1 := by
    rw [sub_pos]
    exact_mod_cast enough
  rw [gain, Nat.cast_sub (by omega), Nat.cast_one, div_self positive.ne', sub_self]

theorem gain_antitone (before : i ≤ j) : gain total j ≤ gain total i := by
  have positive : (0 : ℚ) < total - 1 := by
    rw [sub_pos]
    exact_mod_cast enough
  apply sub_le_sub_left
  apply div_le_div_of_nonneg_right _ positive.le
  exact_mod_cast before

theorem gain_nonneg (inside : i < total) : 0 ≤ gain total i := by
  rw [← gain_last enough]
  exact gain_antitone enough (by omega)

theorem gain_le_one : gain total i ≤ 1 := by
  rw [← gain_first total]
  exact gain_antitone enough (Nat.zero_le i)

end

end Gain

section Scaled
variable {v : Int16} {g h : ℚ}

/-- Scaling down keeps a sample in range, so that it is truncated and not clipped. -/
theorem toInt_scaled (nonneg : 0 ≤ g) (le : g ≤ 1) :
    (sample (v.toInt * g)).toInt = truncate (v.toInt * g) := by
  have low : (-32768 : ℚ) ≤ v.toInt := by exact_mod_cast v.le_toInt
  have high : (v.toInt : ℚ) ≤ 32767 := by
    have := v.toInt_lt
    exact_mod_cast (by omega : v.toInt ≤ 32767)
  apply toInt_sample
  · nlinarith
  · nlinarith

theorem abs_scaled_le (nonneg : 0 ≤ g) (le : g ≤ 1) :
    |(sample (v.toInt * g)).toInt| ≤ |v.toInt| := by
  rw [toInt_scaled nonneg le]
  apply abs_truncate_le
  rw [abs_mul, abs_of_nonneg nonneg]
  exact mul_le_of_le_one_right (abs_nonneg _) le

theorem scaled_same_sign (nonneg : 0 ≤ g) (le : g ≤ 1) :
    0 ≤ v.toInt * (sample (v.toInt * g)).toInt := by
  rw [toInt_scaled nonneg le]
  rcases le_total 0 v.toInt with above | below
  · apply mul_nonneg above
    apply truncate_nonneg
    exact mul_nonneg (by exact_mod_cast above) nonneg
  · apply mul_nonneg_of_nonpos_of_nonpos below
    apply truncate_nonpos
    exact mul_nonpos_of_nonpos_of_nonneg (by exact_mod_cast below) nonneg

theorem scaled_one : sample (v.toInt * 1) = v := by
  apply Int16.toInt_inj.mp
  rw [toInt_scaled zero_le_one le_rfl, mul_one, truncate_intCast]

theorem scaled_zero : sample (v.toInt * 0) = 0 := by
  apply Int16.toInt_inj.mp
  rw [toInt_scaled le_rfl zero_le_one, mul_zero, ← Int.cast_zero, truncate_intCast]
  rfl

end Scaled

/-- The fade of a whole span of samples. -/
def fade (input : List Int16) : List Int16 :=
  input.mapIdx fun i v => sample (v.toInt * gain input.length i)

section Loops

theorem fadeSamples_eq (total idx : Nat) (sa : List Int16) : fadeSamples total idx sa =
    some (sa.mapIdx fun j v => sample (v.toInt * gain total (idx + j))) := by
  induction sa generalizing idx with
  | nil => rfl
  | cons v rest ih =>
      rw [fadeSamples, item_clip16, ih, List.mapIdx_cons]
      simp [gain, Nat.add_assoc, Nat.add_comm 1]

/-- The index of a sample in the loops is its index in the concatenation. -/
theorem fadeFrames_eq (total idx : Nat) (arrays : List (List Int16)) :
    ∃ outs : List (List Int16), fadeFrames total idx (arrays.map toBytes) =
        some (outs.map toBytes) ∧ outs.map List.length = arrays.map List.length ∧
      outs.flatten = arrays.flatten.mapIdx fun j v => sample (v.toInt * gain total (idx + j)) := by
  induction arrays generalizing idx with
  | nil => exact ⟨[], rfl, rfl, rfl⟩
  | cons sa arrays ih =>
      obtain ⟨outs, faded, lengths, flat⟩ := ih (idx + sa.length)
      refine ⟨(sa.mapIdx fun j v => sample (v.toInt * gain total (idx + j))) :: outs, ?_, ?_, ?_⟩
      · rw [List.map_cons, fadeFrames, fromBytes_toBytes]
        simp [fadeSamples_eq, faded]
      · rw [List.map_cons, List.map_cons, List.length_mapIdx, lengths]
      · rw [List.flatten_cons, List.flatten_cons, List.mapIdx_append, flat]
        simp only [Nat.add_assoc, Nat.add_comm sa.length]

theorem sum_samples (arrays : List (List Int16)) :
    ((arrays.map toBytes).map fun f => f.length / sampleBytes).sum = arrays.flatten.length := by
  rw [List.length_flatten, List.map_map]
  apply congrArg List.sum
  apply List.map_congr_left
  intro sa _
  rw [Function.comp_apply, length_toBytes, sampleBytes]
  omega

/-- The frames keep their lengths, and together they are the fade of all samples. -/
theorem applyFadeout_eq {arrays : List (List Int16)} (enough : 2 ≤ arrays.flatten.length) :
    ∃ outs : List (List Int16), applyFadeout (arrays.map toBytes) = some (outs.map toBytes) ∧
      outs.map List.length = arrays.map List.length ∧ outs.flatten = fade arrays.flatten := by
  have total := sum_samples arrays
  rw [applyFadeout, total, if_neg (by omega)]
  obtain ⟨outs, faded, lengths, flat⟩ := fadeFrames_eq arrays.flatten.length 0 arrays
  refine ⟨outs, faded, lengths, flat.trans ?_⟩
  simp [fade]

end Loops

section Fade
variable {input : List Int16} {i : Nat} {v w : Int16}

theorem length_fade (input : List Int16) : (fade input).length = input.length := List.length_mapIdx

theorem getElem?_fade (i : Nat) : (fade input)[i]? =
    input[i]?.map fun v => sample (v.toInt * gain input.length i) := List.getElem?_mapIdx

theorem fade_sample (there : input[i]? = some v) (faded : (fade input)[i]? = some w) :
    i < input.length ∧ w = sample (v.toInt * gain input.length i) := by
  rw [getElem?_fade, there] at faded
  exact ⟨(List.getElem?_eq_some_iff.mp there).1, (Option.some.inj faded).symm⟩

theorem fade_first (input : List Int16) : (fade input).head? = input.head? := by
  rw [List.head?_eq_getElem?, List.head?_eq_getElem?, getElem?_fade, gain_first]
  cases input[0]? with
  | none => rfl
  | some v => exact congrArg some scaled_one

theorem fade_last (enough : 2 ≤ input.length) : (fade input).getLast? = some 0 := by
  have inside : input.length - 1 < input.length := by omega
  rw [List.getLast?_eq_getElem?, length_fade, getElem?_fade, List.getElem?_eq_getElem inside,
    gain_last enough]
  exact congrArg some scaled_zero

/-- A constant sound only gets quieter. -/
theorem fade_constant (enough : 2 ≤ input.length) (constant : ∀ u ∈ input, u = v) :
    (fade input).Pairwise fun x y => |y.toInt| ≤ |x.toInt| := by
  rw [List.pairwise_iff_getElem]
  intro i j first second before
  rw [length_fade] at first second
  simp only [fade, List.getElem_mapIdx, constant _ (List.getElem_mem _)]
  rw [toInt_scaled (gain_nonneg enough first) (gain_le_one enough),
    toInt_scaled (gain_nonneg enough second) (gain_le_one enough)]
  exact abs_truncate_mul_le (gain_nonneg enough second) (gain_antitone enough before.le)

end Fade

section Playout

/-- The arithmetic on one frame that the playout leaves open. -/
def ramp (first total : Nat) (frame : Frame) : Frame :=
  (((fromBytes frame).bind (fadeSamples total first)).map toBytes).getD frame

theorem fadeFrames_playout (total idx : Nat) (arrays : List (List Int16)) :
    fadeFrames total idx (arrays.map toBytes) =
      some (applyFadeout.go ramp total idx (arrays.map toBytes)) := by
  induction arrays generalizing idx with
  | nil => rfl
  | cons sa arrays ih =>
      have samples : (toBytes sa).length / 2 = sa.length := by
        rw [length_toBytes]
        omega
      rw [List.map_cons, fadeFrames, applyFadeout.go, ramp, fromBytes_toBytes, samples]
      simp [fadeSamples_eq, ih]

theorem foldl_samples (frames : List Frame) (start : Nat) :
    frames.foldl (fun total frame => total + frame.length / 2) start =
      start + (frames.map fun f => f.length / sampleBytes).sum := by
  induction frames generalizing start with
  | nil => rfl
  | cons frame frames ih =>
      rw [List.foldl_cons, ih, List.map_cons, List.sum_cons, sampleBytes, Nat.add_assoc]

/-- On whole samples the fade of the playout is this one. -/
theorem applyFadeout_playout {frames : List Frame} (even : ∀ f ∈ frames, 2 ∣ f.length) :
    applyFadeout frames = some (IsalesEngine.applyFadeout ramp frames) := by
  obtain ⟨arrays, rfl⟩ := exists_map_toBytes even
  rw [applyFadeout, IsalesEngine.applyFadeout, foldl_samples, Nat.zero_add]
  split
  · rfl
  · exact fadeFrames_playout _ 0 arrays

end Playout
end Ambient

namespace Guarantees
open Ambient Binary Binary.Int16Array

/-- The fade of a barge-in is a true fade. The frames keep their number and lengths; the samples
they hold together do not depend on where one frame ends and the next begins; no sample becomes
louder or changes its sign, the first one stays and the last one is silent; and a constant sound
only gets quieter. -/
theorem fadeout_fades (frames : List Bytes) (even : ∀ f ∈ frames, 2 ∣ f.length)
    (enough : 2 ≤ (frames.map fun f => f.length / sampleBytes).sum) :
    ∃ (out : List Bytes) (input output : List Int16), Ambient.applyFadeout frames = some out ∧
      fromBytes frames.flatten = some input ∧ fromBytes out.flatten = some output ∧
      out.map List.length = frames.map List.length ∧
      (∀ others : List Bytes, (∀ f ∈ others, 2 ∣ f.length) → others.flatten = frames.flatten →
        ∃ out' : List Bytes, Ambient.applyFadeout others = some out' ∧ out'.flatten = out.flatten) ∧
      (∀ (i : Nat) (v w : Int16), input[i]? = some v → output[i]? = some w →
        |w.toInt| ≤ |v.toInt| ∧ 0 ≤ v.toInt * w.toInt) ∧
      output.head? = input.head? ∧ output.getLast? = some 0 ∧
      ∀ v, (∀ u ∈ input, u = v) → output.Pairwise fun x y => |y.toInt| ≤ |x.toInt| := by
  obtain ⟨arrays, rfl⟩ := exists_map_toBytes even
  rw [sum_samples] at enough
  obtain ⟨outs, faded, lengths, flat⟩ := applyFadeout_eq enough
  refine ⟨outs.map toBytes, arrays.flatten, fade arrays.flatten, faded, ?_, ?_, ?_, ?_, ?_,
    fade_first _, fade_last enough, fun v => fade_constant enough⟩
  · rw [flatten_map_toBytes, fromBytes_toBytes]
  · rw [flatten_map_toBytes, flat, fromBytes_toBytes]
  · rw [map_length_toBytes, map_length_toBytes, lengths]
  · intro others even same
    obtain ⟨arrays', rfl⟩ := exists_map_toBytes even
    rw [flatten_map_toBytes, flatten_map_toBytes] at same
    have samples : arrays'.flatten = arrays.flatten := toBytes_injective same
    obtain ⟨outs', faded', -, flat'⟩ := applyFadeout_eq (samples ▸ enough)
    refine ⟨outs'.map toBytes, faded', ?_⟩
    rw [flatten_map_toBytes, flatten_map_toBytes, flat, flat', samples]
  · intro i v w there heard
    obtain ⟨inside, rfl⟩ := fade_sample there heard
    exact ⟨abs_scaled_le (gain_nonneg enough inside) (gain_le_one enough),
      scaled_same_sign (gain_nonneg enough inside) (gain_le_one enough)⟩

/-- The samples 16, -16 and 5 become 16, -8 and 0. -/
theorem three_samples_fade :
    Ambient.applyFadeout [[16, 0], [240, 255, 5, 0]] = some [[16, 0], [248, 255, 0, 0]] ∧
    ∃ (out : List Bytes) (output : List Int16),
      Ambient.applyFadeout [[16, 0], [240, 255, 5, 0]] = some out ∧
        fromBytes out.flatten = some output ∧ output.getLast? = some 0 := by
  refine ⟨by decide +kernel, ?_⟩
  obtain ⟨out, input, output, faded, -, heard, -, -, -, -, last, -⟩ :=
    fadeout_fades [[16, 0], [240, 255, 5, 0]] (by decide) (by decide)
  exact ⟨out, output, faded, heard, last⟩

end Guarantees
end IsalesEngine
