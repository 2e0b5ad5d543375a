import Mathlib.Data.List.Infix

/-!
Cutting a sequence while it is read. Elements are buffered one by one, and the
buffer is cut behind an element at which it stops. How the input arrives in
pieces does not matter; the segments are consecutive, and each but the last ends
at the first position that stops.
-/
namespace Scan
variable {α : Type}

section Scanning
variable (stop : List α → α → Bool)

/-- The segments cut off while `as` is read behind `buffer`, and what is buffered then. -/
def scan : List α → List α → List (List α) × List α
  | buffer, [] => ([], buffer)
  | buffer, a :: as =>
      if stop (buffer ++ [a]) a then ((buffer ++ [a]) :: (scan [] as).1, (scan [] as).2)
      else scan (buffer ++ [a]) as

/-- All segments of a sequence, the unfinished one included. -/
def segments (as : List α) : List (List α) := (scan stop [] as).1 ++ [(scan stop [] as).2]

/-- The buffer stops behind its last element. -/
def Stops (buffer : List α) : Prop := ∃ front a, buffer = front ++ [a] ∧ stop buffer a = true

/-- No beginning of the buffer stops. -/
def Unstopped (buffer : List α) : Prop := ∀ front, front <+: buffer → ¬ Stops stop front

end Scanning

variable {stop : List α → α → Bool} {buffer as bs : List α} {a : α}

theorem stops_concat : Stops stop (buffer ++ [a]) ↔ stop (buffer ++ [a]) a = true := by
  constructor
  · rintro ⟨front, b, same, stops⟩
    obtain ⟨rfl, last⟩ := List.append_inj' same rfl
    exact (List.singleton_inj.mp last) ▸ stops
  · exact fun stops => ⟨buffer, a, rfl, stops⟩

theorem not_stops_nil : ¬ Stops stop [] := by
  rintro ⟨front, a, same, _⟩
  simp at same

theorem unstopped_nil : Unstopped stop [] := by
  intro front initial
  rw [List.prefix_nil.mp initial]
  exact not_stops_nil

theorem unstopped_concat :
    Unstopped stop (buffer ++ [a]) ↔ Unstopped stop buffer ∧ ¬ Stops stop (buffer ++ [a]) := by
  constructor
  · intro free
    refine ⟨fun front initial => free front ?_, free _ List.prefix_rfl⟩
    exact initial.trans (List.prefix_append _ _)
  · rintro ⟨free, last⟩ front initial
    obtain rfl | shorter := List.prefix_concat_iff.mp initial
    · exact last
    · exact free front shorter

theorem scan_flatten (stop : List α → α → Bool) (buffer as : List α) :
    (scan stop buffer as).1.flatten ++ (scan stop buffer as).2 = buffer ++ as := by
  induction as generalizing buffer with
  | nil => simp [scan]
  | cons a as ih =>
      rw [scan]
      split
      · have rest := ih []
        simp only [List.flatten_cons, List.append_assoc, rest]
        simp
      · rw [ih]
        simp

/-- Reading in two pieces. -/
theorem scan_append : scan stop buffer (as ++ bs) =
    ((scan stop buffer as).1 ++ (scan stop (scan stop buffer as).2 bs).1,
      (scan stop (scan stop buffer as).2 bs).2) := by
  induction as generalizing buffer with
  | nil => simp [scan]
  | cons a as ih =>
      rw [List.cons_append, scan, scan]
      split
      · rw [ih]
        rfl
      · exact ih

/-- A finished segment ends at the first position that stops. -/
theorem scan_first (free : Unstopped stop buffer) :
    ∀ segment ∈ (scan stop buffer as).1, Stops stop segment ∧
      ∀ front, front <+: segment → front ≠ segment → ¬ Stops stop front := by
  induction as generalizing buffer with
  | nil => simp [scan]
  | cons a as ih =>
      rw [scan]
      split
      · next stops =>
          intro segment member
          obtain rfl | later := List.mem_cons.mp member
          · refine ⟨stops_concat.mpr stops, fun front initial other => ?_⟩
            obtain whole | shorter := List.prefix_concat_iff.mp initial
            · exact absurd whole other
            · exact free front shorter
          · exact ih unstopped_nil segment later
      · next goesOn =>
          exact ih (unstopped_concat.mpr ⟨free, fun stops => goesOn (stops_concat.mp stops)⟩)

theorem scan_last (free : Unstopped stop buffer) : Unstopped stop (scan stop buffer as).2 := by
  induction as generalizing buffer with
  | nil => exact free
  | cons a as ih =>
      rw [scan]
      split
      · exact ih unstopped_nil
      · next goesOn =>
          exact ih (unstopped_concat.mpr ⟨free, fun stops => goesOn (stops_concat.mp stops)⟩)

theorem segments_flatten (stop : List α → α → Bool) (as : List α) :
    (segments stop as).flatten = as := by
  simpa [segments] using scan_flatten stop [] as

/-- Nothing stops within a segment before its end. -/
theorem segments_first {segment front : List α} (member : segment ∈ segments stop as)
    (initial : front <+: segment) (other : front ≠ segment) : ¬ Stops stop front := by
  obtain finished | last := List.mem_append.mp member
  · exact (scan_first unstopped_nil segment finished).2 front initial other
  · obtain rfl := List.mem_singleton.mp last
    exact scan_last unstopped_nil front initial

/-- Positions `i` to `j` of the sequence lie in one segment. -/
def Together (segments : List (List α)) (i j : Nat) : Prop :=
  ∃ before segment after, segments = before ++ segment :: after ∧
    before.flatten.length ≤ i ∧ j < before.flatten.length + segment.length

/-- Behind an element at which every buffer stops a new segment begins. -/
theorem not_together_of_stop {i j : Nat} (at_i : as[i]? = some a)
    (always : ∀ buffer, stop (buffer ++ [a]) a = true) (later : i < j) :
    ¬ Together (segments stop as) i j := by
  rintro ⟨before, segment, after, split, low, high⟩
  have member : segment ∈ segments stop as := by simp [split]
  -- the element stands at index `k` of the segment, which goes on behind it
  obtain ⟨k, rfl⟩ := Nat.exists_eq_add_of_le low
  have inside : k + 1 < segment.length := by omega
  have here : segment[k]? = some a := by
    rw [← segments_flatten stop as, split] at at_i
    simp only [List.flatten_append, List.flatten_cons] at at_i
    rw [List.getElem?_append_right (Nat.le_add_right _ _), Nat.add_sub_cancel_left,
      List.getElem?_append_left (by omega)] at at_i
    exact at_i
  have cut : segment.take (k + 1) = segment.take k ++ [a] := by
    rw [List.take_add_one, here]
    rfl
  refine segments_first member (List.take_prefix (k + 1) segment) ?_ ?_
  · intro whole
    have lengths := congrArg List.length whole
    rw [List.length_take] at lengths
    omega
  · rw [cut]
    exact stops_concat.mpr (always _)

end Scan
