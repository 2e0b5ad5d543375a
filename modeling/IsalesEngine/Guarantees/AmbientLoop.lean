import IsalesEngine.Framing
import IsalesEngine.Realtime.Ambient

/-!
The background loop is gapless. It is made of whole frames, so the reader meets its
end exactly and starts over; and where the end was joined to the beginning, each
sample lies between the two it was blended from, near the one at the start of the
seam and near the other at its end. The latter is about exact arithmetic: rounded,
two samples of 7 blend to one of 6.
-/
namespace IsalesEngine
namespace Ambient
open Binary Binary.Int16Array Truncation

section Blend
variable {a b : Int16} {t : ℚ} (nonneg : 0 ≤ t) (le : t ≤ 1)
include nonneg le

theorem blend_bounds : ((min a.toInt b.toInt : Int) : ℚ) ≤ blend id a b t ∧
    blend id a b t ≤ ((max a.toInt b.toInt : Int) : ℚ) := by
  simp only [blend, id_eq]
  push_cast
  rcases le_total (a.toInt : ℚ) b.toInt with below | above
  · rw [min_eq_left below, max_eq_right below]
    constructor <;> nlinarith
  · rw [min_eq_right above, max_eq_left above]
    constructor <;> nlinarith

/-- A blend is in range, so that it is truncated and not clipped. -/
theorem toInt_blend : (sample (blend id a b t)).toInt = truncate (blend id a b t) := by
  obtain ⟨low, high⟩ := @blend_bounds a b t nonneg le
  have least : -32768 ≤ min a.toInt b.toInt := le_min a.le_toInt b.le_toInt
  have most : max a.toInt b.toInt ≤ 32767 :=
    max_le (Int.le_of_lt_add_one a.toInt_lt) (Int.le_of_lt_add_one b.toInt_lt)
  apply toInt_sample
  · exact le_trans (by exact_mod_cast least) low
  · exact le_trans high (by exact_mod_cast most)

theorem blend_between : min a.toInt b.toInt ≤ (sample (blend id a b t)).toInt ∧
    (sample (blend id a b t)).toInt ≤ max a.toInt b.toInt := by
  rw [toInt_blend nonneg le]
  obtain ⟨low, high⟩ := @blend_bounds a b t nonneg le
  exact ⟨le_truncate low, truncate_le high⟩

/-- Truncation adds less than one to the distance of a blend from a number. -/
theorem blend_near {x d : ℚ} (near : |blend id a b t - x| ≤ d) :
    |((sample (blend id a b t)).toInt : ℚ) - x| ≤ d + 1 := by
  rw [toInt_blend nonneg le]
  have moved := abs_truncate_sub_lt (x := blend id a b t)
  rw [abs_le] at near ⊢
  rw [abs_lt] at moved
  constructor <;> linarith [near.1, near.2, moved.1, moved.2]

theorem blend_near_left : |((sample (blend id a b t)).toInt : ℚ) - a.toInt| ≤
    |(a.toInt - b.toInt : ℚ)| * t + 1 := by
  apply blend_near nonneg le
  have distance : blend id a b t - a.toInt = -((a.toInt - b.toInt) * t) := by
    simp only [blend, id_eq]
    ring
  rw [distance, abs_neg, abs_mul, abs_of_nonneg nonneg]

theorem blend_near_right : |((sample (blend id a b t)).toInt : ℚ) - b.toInt| ≤
    |(a.toInt - b.toInt : ℚ)| * (1 - t) + 1 := by
  apply blend_near nonneg le
  have distance : blend id a b t - b.toInt = (a.toInt - b.toInt) * (1 - t) := by
    simp only [blend, id_eq]
    ring
  rw [distance, abs_mul, abs_of_nonneg (sub_nonneg.mpr le)]

end Blend

section Seam
variable {n i : Nat} {tail head : List Int16} {a b v : Int16}

theorem share_nonneg (n i : Nat) : 0 ≤ share id n i := by
  apply div_nonneg
  · exact_mod_cast Nat.zero_le (i + 1)
  · exact_mod_cast Nat.zero_le (n + 1)

theorem share_le_one (inside : i < n) : share id n i ≤ 1 := by
  apply div_le_one_of_le₀
  · exact_mod_cast Nat.succ_le_succ inside.le
  · exact_mod_cast Nat.zero_le (n + 1)

theorem share_first (n : Nat) : share id n 0 = 1 / (n + 1) := by
  rw [share, Nat.cast_zero, zero_add, id_eq]

theorem share_last (positive : 0 < n) : 1 - share id n (n - 1) = 1 / (n + 1) := by
  have nonzero : (n : ℚ) + 1 ≠ 0 := by exact_mod_cast Nat.succ_ne_zero n
  rw [share, id_eq, Nat.cast_sub positive, Nat.cast_one, sub_add_cancel, eq_div_iff nonzero,
    sub_mul, div_mul_cancel₀ _ nonzero]
  ring

variable (round : ℚ → ℚ)

/-- The crossfade of two arrays. -/
def seam (tail head : List Int16) : List Int16 :=
  let n := min tail.length head.length
  (tail.zip head).mapIdx fun i ab => sample (blend round ab.1 ab.2 (share round n i))

theorem crossfade_eq (n i : Nat) (as bs : List Int16) : crossfade round n i as bs =
    some ((as.zip bs).mapIdx fun j ab =>
      sample (blend round ab.1 ab.2 (share round n (i + j)))) := by
  induction as generalizing i bs with
  | nil => cases bs <;> rfl
  | cons a as ih =>
      cases bs with
      | nil => rfl
      | cons b bs =>
          rw [crossfade, item_clip16, ih, List.zip_cons_cons, List.mapIdx_cons]
          simp [Nat.add_assoc, Nat.add_comm 1]

theorem linearCrossfade_eq (tail head : List Int16) :
    linearCrossfade round (toBytes tail) (toBytes head) =
      some (toBytes (seam round tail head)) := by
  rw [linearCrossfade, fromBytes_toBytes, fromBytes_toBytes]
  simp [crossfade_eq, seam]

theorem length_seam (tail head : List Int16) :
    (seam round tail head).length = min tail.length head.length := by
  rw [seam, List.length_mapIdx, List.length_zip]

theorem seam_sample (last : tail[i]? = some a) (first : head[i]? = some b)
    (joined : (seam round tail head)[i]? = some v) :
    v = sample (blend round a b (share round (min tail.length head.length) i)) := by
  have paired : (tail.zip head)[i]? = some (a, b) :=
    List.getElem?_zip_eq_some.mpr ⟨last, first⟩
  rw [seam, List.getElem?_mapIdx, paired] at joined
  exact (Option.some.inj joined).symm

end Seam

section Loop
variable {pcm : Bytes} (round : ℚ → ℚ)

theorem frameBytes_eq : frameBytes = 320 := rfl

theorem length_usable (pcm : Bytes) : (usable pcm).length = pcm.length / frameBytes * frameBytes :=
  List.length_take_of_le (Nat.div_mul_le_self _ _)

theorem usable_of_dvd (whole : frameBytes ∣ pcm.length) : usable pcm = pcm := by
  rw [usable, Nat.div_mul_cancel whole, List.take_length]

theorem dvd_usable (pcm : Bytes) : frameBytes ∣ (usable pcm).length := by
  rw [length_usable]
  exact Nat.dvd_mul_left _ _

/-- The body has lost two crossfades, which are four frames, and the seam has two of them. -/
theorem length_joined {tail head : List Int16} (long : 2 * cfBytes < (usable pcm).length)
    (lasts : tail.length = crossfadeSamples) (firsts : head.length = crossfadeSamples) :
    (((usable pcm).take ((usable pcm).length - cfBytes)).drop cfBytes ++
      toBytes (seam round tail head)).length = (usable pcm).length - 2 * frameBytes := by
  have size : cfBytes = 2 * crossfadeSamples := rfl
  have frames : cfBytes = 2 * frameBytes := rfl
  rw [List.length_append, List.length_drop, List.length_take, length_toBytes, length_seam, lasts,
    firsts]
  omega

/-- What a recording that is long enough becomes. -/
theorem makeSeamless_of_long (long : 2 * cfBytes < (usable pcm).length) : ∃ tail head : List Int16,
      toBytes tail = (usable pcm).drop ((usable pcm).length - cfBytes) ∧
      toBytes head = (usable pcm).take cfBytes ∧
      tail.length = crossfadeSamples ∧ head.length = crossfadeSamples ∧
      makeSeamless round pcm =
        some (((usable pcm).take ((usable pcm).length - cfBytes)).drop cfBytes ++
          toBytes (seam round tail head)) := by
  have size : cfBytes = 2 * crossfadeSamples := rfl
  have ending : ((usable pcm).drop ((usable pcm).length - cfBytes)).length = cfBytes := by
    rw [List.length_drop]
    omega
  have beginning : ((usable pcm).take cfBytes).length = cfBytes := by
    rw [List.length_take]
    omega
  obtain ⟨tail, last⟩ := exists_toBytes (ending.trans size ▸ Nat.dvd_mul_right 2 _)
  obtain ⟨head, first⟩ := exists_toBytes (beginning.trans size ▸ Nat.dvd_mul_right 2 _)
  rw [← last, length_toBytes] at ending
  rw [← first, length_toBytes] at beginning
  have lasts : tail.length = crossfadeSamples := by omega
  have firsts : head.length = crossfadeSamples := by omega
  refine ⟨tail, head, last, first, lasts, firsts, ?_⟩
  rw [makeSeamless, if_neg (Nat.not_le.mpr long), ← last, ← first]
  dsimp only
  rw [linearCrossfade_eq]
  apply congrArg some
  apply usable_of_dvd
  rw [length_joined round long lasts firsts]
  exact Nat.dvd_sub (dvd_usable pcm) (Nat.dvd_mul_left _ _)

theorem makeSeamless_of_short (short : ¬ 2 * cfBytes < (usable pcm).length) :
    makeSeamless round pcm = some (usable pcm) := by
  rw [makeSeamless, if_pos (Nat.le_of_not_lt short)]

/-- The loop is made of whole frames, of at least one. -/
theorem makeSeamless_whole (enough : frameBytes ≤ pcm.length) :
    ∃ loop, makeSeamless round pcm = some loop ∧ frameBytes ∣ loop.length ∧
      frameBytes ≤ loop.length := by
  by_cases long : 2 * cfBytes < (usable pcm).length
  · obtain ⟨tail, head, -, -, lasts, firsts, made⟩ := makeSeamless_of_long round long
    have frames : cfBytes = 2 * frameBytes := rfl
    refine ⟨_, made, ?_⟩
    rw [length_joined round long lasts firsts]
    refine ⟨Nat.dvd_sub (dvd_usable pcm) (Nat.dvd_mul_left _ _), ?_⟩
    omega
  · refine ⟨_, makeSeamless_of_short round long, dvd_usable pcm, ?_⟩
    have one : 1 ≤ pcm.length / frameBytes := (Nat.one_le_div_iff (by decide)).mpr enough
    rw [length_usable]
    exact Nat.le_mul_of_pos_left _ one

end Loop

section Reader

/-- The reader after `k` frames. -/
def readerAfter (loop : Bytes) (k : Nat) : AmbientReader :=
  (fun r => r.nextFrame.2)^[k] { pcm := loop }

variable {loop : Bytes} {frames j : Nat} (size : loop.length = frames * frameBytes)

theorem readerAfter_succ (k : Nat) : readerAfter loop (k + 1) = (readerAfter loop k).nextFrame.2 :=
  Function.iterate_succ_apply' _ k _

include size

/-- A read at a frame of the loop gives this frame and goes on to the next or the first. -/
theorem nextFrame_at (inside : j < frames) :
    AmbientReader.nextFrame { pcm := loop, pos := j * frameBytes } =
      ((loop.drop (j * frameBytes)).take frameBytes,
        { pcm := loop, pos := (j + 1) % frames * frameBytes }) := by
  rw [frameBytes_eq] at size
  have unguarded : ¬ loop.length < j * frameBytes + frameBytes := by
    rw [frameBytes_eq]
    omega
  have cursor : (if j * frameBytes + frameBytes < loop.length then j * frameBytes + frameBytes
      else 0) = (j + 1) % frames * frameBytes := by
    rw [frameBytes_eq]
    by_cases more : j + 1 < frames
    · rw [Nat.mod_eq_of_lt more, if_pos (by omega)]
      omega
    · obtain rfl : j + 1 = frames := by omega
      rw [Nat.mod_self, if_neg (by omega), Nat.zero_mul]
  rw [AmbientReader.nextFrame]
  dsimp only
  rw [if_neg (by rw [frameBytes_eq]; omega), if_neg unguarded, cursor, List.drop_take,
    Nat.add_sub_cancel_left]

/-- The reader stands at the beginning of the frame that is due. -/
theorem readerAfter_eq (nonempty : 0 < frames) (k : Nat) :
    readerAfter loop k = { pcm := loop, pos := k % frames * frameBytes } := by
  induction k with
  | zero => simp [readerAfter]
  | succ k ih =>
      rw [readerAfter_succ, ih, nextFrame_at size (Nat.mod_lt k nonempty), Nat.mod_add_mod]

theorem getElem?_cut (inside : j < frames) : (Framing.cut frameBytes loop)[j]? =
    some ((loop.drop (j * frameBytes)).take frameBytes) := by
  have positive : 0 < frameBytes := by decide
  rw [Framing.cut, size, Nat.mul_div_cancel _ positive, List.getElem?_map,
    List.getElem?_range inside]
  rfl

omit size in
/-- The reader goes through the frames of the loop, round and round. -/
theorem readerAfter_frame (whole : frameBytes ∣ loop.length) (long : frameBytes ≤ loop.length)
    (k : Nat) : (readerAfter loop k).pos + frameBytes ≤ loop.length ∧
      (Framing.cut frameBytes loop)[k % (loop.length / frameBytes)]? =
        some (readerAfter loop k).nextFrame.1 := by
  obtain ⟨frames, size⟩ := whole
  rw [Nat.mul_comm] at size
  have positive : 0 < frameBytes := by decide
  have nonempty : 0 < frames := by
    apply Nat.pos_of_mul_pos_right
    rw [← size]
    exact Nat.lt_of_lt_of_le positive long
  have due : k % frames < frames := Nat.mod_lt k nonempty
  rw [readerAfter_eq size nonempty, nextFrame_at size due, Nat.div_eq_of_eq_mul_left positive size]
  refine ⟨?_, getElem?_cut size due⟩
  calc k % frames * frameBytes + frameBytes = (k % frames + 1) * frameBytes := by ring
    _ ≤ frames * frameBytes := Nat.mul_le_mul_right frameBytes due
    _ = loop.length := size.symm

end Reader
end Ambient

namespace Guarantees
open Ambient Binary Binary.Int16Array

/-- The background loop is gapless. It is made of whole frames, the reader never passes its end, and
the frame read after `k` others is frame `k` modulo their number. A recording of more than 40 ms is
looped without its first and last 20 ms, which are blended into a seam at the end: each of its
samples lies between the two it was made from, the first next to the one of the ending and the last
next to the one of the beginning, where the arithmetic is exact. -/
theorem ambient_loop_gapless (round : ℚ → ℚ) (pcm : Bytes)
    (enough : Ambient.frameBytes ≤ pcm.length) :
    ∃ loop, makeSeamless round pcm = some loop ∧ Ambient.frameBytes ∣ loop.length ∧
      Ambient.frameBytes ≤ loop.length ∧
      (∀ k, (readerAfter loop k).pos + Ambient.frameBytes ≤ loop.length ∧
        (Framing.cut Ambient.frameBytes loop)[k % (loop.length / Ambient.frameBytes)]? =
          some (readerAfter loop k).nextFrame.1) ∧
      (2 * cfBytes < (usable pcm).length →
        ∃ tail head seam : List Int16,
          fromBytes ((usable pcm).drop ((usable pcm).length - cfBytes)) = some tail ∧
          fromBytes ((usable pcm).take cfBytes) = some head ∧
          tail.length = crossfadeSamples ∧ head.length = crossfadeSamples ∧
          seam.length = crossfadeSamples ∧
          loop = ((usable pcm).take ((usable pcm).length - cfBytes)).drop cfBytes ++ toBytes seam ∧
          ∀ (i : Nat) (a b v : Int16),
            tail[i]? = some a → head[i]? = some b → seam[i]? = some v → round = id →
              min a.toInt b.toInt ≤ v.toInt ∧ v.toInt ≤ max a.toInt b.toInt ∧
              (i = 0 → |(v.toInt - a.toInt : ℚ)| ≤
                |(a.toInt - b.toInt : ℚ)| / (crossfadeSamples + 1) + 1) ∧
              (i + 1 = crossfadeSamples → |(v.toInt - b.toInt : ℚ)| ≤
                |(a.toInt - b.toInt : ℚ)| / (crossfadeSamples + 1) + 1)) := by
  obtain ⟨loop, made, whole, long⟩ := makeSeamless_whole round enough
  refine ⟨loop, made, whole, long, readerAfter_frame whole long, ?_⟩
  intro long
  obtain ⟨tail, head, last, first, lasts, firsts, joined⟩ := makeSeamless_of_long round long
  refine ⟨tail, head, seam round tail head, ?_, ?_, lasts, firsts, ?_, ?_, ?_⟩
  · rw [← last, fromBytes_toBytes]
  · rw [← first, fromBytes_toBytes]
  · rw [length_seam, lasts, firsts, Nat.min_self]
  · exact Option.some.inj (made.symm.trans joined)
  · rintro i a b v ending beginning blended rfl
    have count : min tail.length head.length = crossfadeSamples := by
      rw [lasts, firsts, Nat.min_self]
    have inside : i < crossfadeSamples := lasts ▸ (List.getElem?_eq_some_iff.mp ending).1
    have nonneg : 0 ≤ share id crossfadeSamples i := share_nonneg _ _
    have le : share id crossfadeSamples i ≤ 1 := share_le_one inside
    obtain rfl := seam_sample id ending beginning blended
    rw [count]
    refine ⟨(blend_between nonneg le).1, (blend_between nonneg le).2, ?_, ?_⟩
    · rintro rfl
      apply (blend_near_left nonneg le).trans_eq
      rw [share_first, mul_one_div]
    · intro final
      obtain rfl : i = crossfadeSamples - 1 := by omega
      apply (blend_near_right nonneg le).trans_eq
      rw [share_last (by decide), mul_one_div]

/-- Of five frames: when all frames of the loop have been read, the first one comes again. -/
theorem five_frames_loop :
    2 * cfBytes < (usable (List.replicate 1600 7)).length ∧
      ∃ loop, makeSeamless id (List.replicate 1600 7) = some loop ∧
        (readerAfter loop (loop.length / Ambient.frameBytes)).nextFrame.1 =
          (readerAfter loop 0).nextFrame.1 := by
  have frames : (List.replicate 1600 (7 : UInt8)).length = 1600 := List.length_replicate
  obtain ⟨loop, made, -, -, reads, -⟩ :=
    ambient_loop_gapless id (List.replicate 1600 7) (by rw [frames]; decide)
  refine ⟨by rw [length_usable, frames]; decide, loop, made, ?_⟩
  have again := (reads (loop.length / Ambient.frameBytes)).2
  have first := (reads 0).2
  rw [Nat.mod_self] at again
  rw [Nat.zero_mod] at first
  exact Option.some.inj (again.symm.trans first)

end Guarantees
end IsalesEngine
