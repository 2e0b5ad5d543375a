import Mathlib.Data.List.Basic

/-!
Cutting a sequence into frames of one length. What a frame boundary separates is
cut separately, so a sequence of whole frames is cut into exactly these, whatever
follows; padding the rest makes the last frame whole.
-/
namespace Framing
variable {α : Type} {n : Nat} {frame buf : List α} {frames : List (List α)}

/-- The whole frames of length `n`. -/
def cut (n : Nat) (buf : List α) : List (List α) :=
  (List.range (buf.length / n)).map fun k => (buf.drop (k * n)).take n

/-- What is left behind the whole frames. -/
def rest (n : Nat) (buf : List α) : List α := buf.drop (buf.length / n * n)

/-- The sequence filled up to a multiple of `n`. -/
def pad (n : Nat) (fill : α) (buf : List α) : List α :=
  buf ++ List.replicate ((n - buf.length % n) % n) fill

def Whole (n : Nat) (frames : List (List α)) : Prop := ∀ frame ∈ frames, frame.length = n

theorem Whole.append {more : List (List α)} (whole : Whole n frames) (wholes : Whole n more) :
    Whole n (frames ++ more) := by
  intro frame member
  obtain first | second := List.mem_append.mp member
  · exact whole frame first
  · exact wholes frame second

theorem cut_of_short (short : buf.length < n) : cut n buf = [] := by
  rw [cut, Nat.div_eq_of_lt short]
  rfl

theorem rest_of_short (short : buf.length < n) : rest n buf = buf := by
  rw [rest, Nat.div_eq_of_lt short, Nat.zero_mul, List.drop_zero]

/-- A buffer that is not short begins with a frame. -/
theorem split_frame (enough : n ≤ buf.length) :
    ∃ frame tail, frame.length = n ∧ buf = frame ++ tail :=
  ⟨buf.take n, buf.drop n, List.length_take_of_le enough, (List.take_append_drop n buf).symm⟩

section Positive
variable (positive : 0 < n)
include positive

section
variable (whole : frame.length = n)
include whole

theorem length_frame_append : (frame ++ buf).length / n = buf.length / n + 1 := by
  rw [List.length_append, whole, Nat.add_div_left _ positive]

theorem cut_frame_append : cut n (frame ++ buf) = frame :: cut n buf := by
  rw [cut, length_frame_append positive whole, List.range_succ_eq_map, List.map_cons, List.map_map]
  congr 1
  · rw [Nat.zero_mul, List.drop_zero, ← whole, List.take_left]
  · refine List.map_congr_left fun k _ => ?_
    rw [Function.comp_apply, Nat.succ_mul, Nat.add_comm, ← List.drop_drop, List.drop_left' whole]

theorem rest_frame_append : rest n (frame ++ buf) = rest n buf := by
  rw [rest, length_frame_append positive whole, Nat.succ_mul, Nat.add_comm, ← List.drop_drop,
    List.drop_left' whole]
  rfl

end

/-- What holds of a short buffer, and with a frame in front, holds of every buffer. -/
theorem frame_induction {P : List α → Prop} (short : ∀ buf, buf.length < n → P buf)
    (step : ∀ frame buf, frame.length = n → P buf → P (frame ++ buf)) (buf : List α) : P buf := by
  induction size : buf.length using Nat.strongRecOn generalizing buf with
  | _ size ih =>
      by_cases enough : n ≤ buf.length
      · obtain ⟨frame, tail, whole, rfl⟩ := split_frame enough
        rw [List.length_append] at size
        exact step frame tail whole (ih tail.length (by omega) tail rfl)
      · exact short buf (Nat.lt_of_not_le enough)

theorem whole_cut (buf : List α) : Whole n (cut n buf) := by
  induction buf using frame_induction positive with
  | short buf short =>
      rw [cut_of_short short]
      exact nofun
  | step frame buf whole ih =>
      rw [cut_frame_append positive whole]
      intro next member
      obtain rfl | later := List.mem_cons.mp member
      · exact whole
      · exact ih next later

theorem flatten_cut_append_rest (buf : List α) : (cut n buf).flatten ++ rest n buf = buf := by
  induction buf using frame_induction positive with
  | short buf short =>
      rw [cut_of_short short, rest_of_short short]
      rfl
  | step frame buf whole ih =>
      rw [cut_frame_append positive whole, rest_frame_append positive whole, List.flatten_cons,
        List.append_assoc, ih]

theorem length_rest_lt (buf : List α) : (rest n buf).length < n := by
  induction buf using frame_induction positive with
  | short buf short => rwa [rest_of_short short]
  | step frame buf whole ih => rwa [rest_frame_append positive whole]

/-- Whole frames are cut as they are. -/
theorem cut_flatten (whole : Whole n frames) : cut n frames.flatten = frames := by
  induction frames with
  | nil => exact cut_of_short positive
  | cons frame frames ih =>
      rw [List.flatten_cons, cut_frame_append positive (whole frame List.mem_cons_self),
        ih fun next later => whole next (List.mem_cons_of_mem frame later)]

end Positive

theorem pad_frame_append (fill : α) (whole : frame.length = n) :
    pad n fill (frame ++ buf) = frame ++ pad n fill buf := by
  rw [pad, List.length_append, whole, Nat.add_mod_left, List.append_assoc]
  rfl

theorem pad_flatten_append (fill : α) (whole : Whole n frames) :
    pad n fill (frames.flatten ++ buf) = frames.flatten ++ pad n fill buf := by
  induction frames with
  | nil => rfl
  | cons frame frames ih =>
      rw [List.flatten_cons, List.append_assoc,
        pad_frame_append fill (whole frame List.mem_cons_self),
        ih fun next later => whole next (List.mem_cons_of_mem frame later), List.append_assoc]

end Framing
