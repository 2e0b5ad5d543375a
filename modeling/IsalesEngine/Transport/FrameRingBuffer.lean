import IsalesEngine.Refinement
import IsalesEngine.Ring

/-!
The frame buffer between the audio thread of the DingRTC SDK and the drainer. The
thread pushes captured frames, the drainer takes them in batches, and a push to a
full buffer overwrites the oldest frame. Every operation holds the mutex for its
whole length, so the operations of the two threads form one sequence. Indices and
size stay below the capacity, a `size_t`, and are natural numbers here; the drop
counter has its 64 bits. Frames are opaque: draining moves a frame out of its cell,
and what a moved-from frame looks like is left open.
-/
namespace IsalesEngine
open Refinement

/-- `ring` holds default frames at first; `head` is the next cell to write, `tail` the next to
read. -/
structure FrameRingBuffer (α : Type) (capacity : Nat) where
  ring : Vector α capacity
  head : Fin capacity
  tail : Fin capacity
  size : Nat := 0
  dropped : UInt64 := 0

namespace FrameRingBuffer
variable {α : Type} {capacity : Nat} [NeZero capacity]

def create (capacity : Nat) [NeZero capacity] (vacant : α) : FrameRingBuffer α capacity where
  ring := Vector.replicate capacity vacant
  head := Fin.ofNat capacity 0
  tail := Fin.ofNat capacity 0

/-- Gives up the oldest frame of a full buffer. -/
def overwriteOldest (b : FrameRingBuffer α capacity) : FrameRingBuffer α capacity :=
  { b with
    tail := Fin.ofNat capacity (b.tail + 1), size := b.size - 1, dropped := b.dropped + 1 }

def store (b : FrameRingBuffer α capacity) (frame : α) : FrameRingBuffer α capacity :=
  { b with
    ring := b.ring.set b.head frame, head := Fin.ofNat capacity (b.head + 1), size := b.size + 1 }

/-- Whether nothing was dropped, and the buffer afterwards. -/
def push (b : FrameRingBuffer α capacity) (frame : α) : Bool × FrameRingBuffer α capacity :=
  if b.size = capacity then (false, b.overwriteOldest.store frame) else (true, b.store frame)

/-- One round of the loop in `drain`. -/
def moveOut (moved : α → α) (b : FrameRingBuffer α capacity) : FrameRingBuffer α capacity :=
  let frame := b.ring.get b.tail
  { b with ring := b.ring.set b.tail (moved frame), tail := Fin.ofNat capacity (b.tail + 1) }

def drainLoop (moved : α → α) : Nat → FrameRingBuffer α capacity → List α →
    List α × FrameRingBuffer α capacity
  | 0, b, out => (out, b)
  | n + 1, b, out => drainLoop moved n (moveOut moved b) (out ++ [b.ring.get b.tail])

/-- How many frames were taken, the vector they were appended to, and the buffer afterwards. -/
def drain (moved : α → α) (b : FrameRingBuffer α capacity) (out : List α) (maxN : Nat) :
    Nat × List α × FrameRingBuffer α capacity :=
  let n := min maxN b.size
  let (out, b) := drainLoop moved n b out
  (n, out, { b with size := b.size - n })

def clear (b : FrameRingBuffer α capacity) : FrameRingBuffer α capacity :=
  { b with head := Fin.ofNat capacity 0, tail := Fin.ofNat capacity 0, size := 0 }

end FrameRingBuffer

/-- The operations of the class; `dropped` and `sizeApprox` only look. -/
inductive RingRequest (α : Type) where
  | push (frame : α)
  | drain (out : List α) (maxN : Nat)
  | clear
  | dropped
  | sizeApprox
  deriving DecidableEq, Repr

inductive RingAnswer (α : Type) where
  | pushed (whole : Bool)
  | drained (n : Nat) (out : List α)
  | cleared
  | dropped (count : UInt64)
  | depth (size : Nat)
  deriving DecidableEq, Repr

namespace FrameRingBuffer
variable {α : Type} {capacity : Nat} [NeZero capacity]

def serve (moved : α → α) (b : FrameRingBuffer α capacity) :
    RingRequest α → RingAnswer α × FrameRingBuffer α capacity
  | .push frame =>
      let (whole, b) := b.push frame
      (.pushed whole, b)
  | .drain out maxN =>
      let (n, out, b) := b.drain moved out maxN
      (.drained n out, b)
  | .clear => (.cleared, b.clear)
  | .dropped => (.dropped b.dropped, b)
  | .sizeApprox => (.depth b.size, b)

def object (moved : α → α) :
    Object (FrameRingBuffer α capacity) (RingRequest α) (RingAnswer α) where
  step := serve moved

end FrameRingBuffer

/-- What the buffer is for: a queue of at most `capacity` frames that counts what it had to drop. -/
structure DropOldest (α : Type) (capacity : Nat) where
  frames : List α := []
  drops : Nat := 0
  bounded : frames.length ≤ capacity

namespace DropOldest
variable {α : Type} {capacity : Nat} {frames : List α}

def empty (α : Type) (capacity : Nat) : DropOldest α capacity := ⟨[], 0, Nat.zero_le capacity⟩

section
variable (bounded : frames.length ≤ capacity)
include bounded

theorem bounded_tail [NeZero capacity] (frame : α) :
    (frames.tail ++ [frame]).length ≤ capacity := by
  have positive : 0 < capacity := Nat.pos_of_neZero capacity
  rw [List.length_append, List.length_tail, List.length_singleton]
  omega

theorem bounded_concat (room : frames.length ≠ capacity) (frame : α) :
    (frames ++ [frame]).length ≤ capacity := by
  rw [List.length_append, List.length_singleton]
  omega

theorem bounded_drop (n : Nat) : (frames.drop n).length ≤ capacity := by
  rw [List.length_drop]
  omega

end

/-- A full queue loses its oldest frame and answers that it did. -/
def push [NeZero capacity] (q : DropOldest α capacity) (frame : α) : Bool × DropOldest α capacity :=
  if full : q.frames.length = capacity then
    (false, ⟨q.frames.tail ++ [frame], q.drops + 1, bounded_tail q.bounded frame⟩)
  else (true, ⟨q.frames ++ [frame], q.drops, bounded_concat q.bounded full frame⟩)

def drain (q : DropOldest α capacity) (maxN : Nat) : List α × DropOldest α capacity :=
  (q.frames.take maxN, ⟨q.frames.drop maxN, q.drops, bounded_drop q.bounded maxN⟩)

def clear (q : DropOldest α capacity) : DropOldest α capacity :=
  { q with frames := [], bounded := Nat.zero_le capacity }

def serve [NeZero capacity] (q : DropOldest α capacity) :
    RingRequest α → RingAnswer α × DropOldest α capacity
  | .push frame =>
      let (whole, q) := q.push frame
      (.pushed whole, q)
  | .drain out maxN =>
      let (taken, q') := q.drain maxN
      (.drained (min maxN q.frames.length) (out ++ taken), q')
  | .clear => (.cleared, q.clear)
  | .dropped => (.dropped (UInt64.ofNat q.drops), q)
  | .sizeApprox => (.depth q.frames.length, q)

def object [NeZero capacity] : Object (DropOldest α capacity) (RingRequest α) (RingAnswer α) where
  step := serve

end DropOldest

namespace FrameRingBuffer
variable {α : Type} {capacity : Nat} [NeZero capacity] {b : FrameRingBuffer α capacity}

/-- The buffered frames, oldest first. -/
def contents (b : FrameRingBuffer α capacity) : List α := Ring.window b.ring.get b.tail b.size

/-- Where the next frame goes is determined by where the oldest is and how many there are. -/
structure Laid (b : FrameRingBuffer α capacity) : Prop where
  fits : b.size ≤ capacity
  head : b.head = Fin.ofNat capacity (b.tail + b.size)

omit [NeZero capacity] in
theorem get_set (ring : Vector α capacity) (i : Fin capacity) (a : α) :
    (ring.set i a).get = Function.update ring.get i a := by
  funext j
  change (ring.set i a)[j.val] = Function.update ring.get i a j
  rw [Vector.getElem_set, Function.update_apply]
  simp only [Fin.ext_iff, eq_comm (a := i.val)]
  rfl

theorem length_contents (b : FrameRingBuffer α capacity) : b.contents.length = b.size := by
  simp [contents]

theorem ofNat_val_add (n i : Nat) :
    Fin.ofNat capacity ((Fin.ofNat capacity n : Fin capacity).val + i) =
      Fin.ofNat capacity (n + i) := by
  apply Fin.ext
  simp [Fin.ofNat]

section Push

theorem Laid.store (laid : b.Laid) (room : b.size < capacity) (frame : α) :
    (b.store frame).Laid := by
  constructor
  · exact room
  · change Fin.ofNat capacity (b.head + 1) = Fin.ofNat capacity (b.tail + (b.size + 1))
    rw [laid.head, ofNat_val_add, Nat.add_assoc]

theorem contents_store (laid : b.Laid) (room : b.size < capacity) (frame : α) :
    (b.store frame).contents = b.contents ++ [frame] := by
  change Ring.window (b.ring.set b.head frame).get b.tail (b.size + 1) = _
  rw [get_set, laid.head]
  exact Ring.window_push b.ring.get room frame

theorem Laid.overwriteOldest (laid : b.Laid) (full : b.size = capacity) :
    b.overwriteOldest.Laid := by
  have positive : 0 < capacity := Nat.pos_of_neZero capacity
  constructor
  · exact Nat.le_trans (Nat.sub_le b.size 1) laid.fits
  · change b.head = Fin.ofNat capacity
      ((Fin.ofNat capacity (b.tail + 1) : Fin capacity) + (b.size - 1))
    have around : b.tail + 1 + (b.size - 1) = b.tail + b.size := by omega
    rw [laid.head, ofNat_val_add, around]

theorem contents_overwriteOldest (full : b.size = capacity) :
    b.overwriteOldest.contents = b.contents.tail := by
  have positive : 0 < capacity := Nat.pos_of_neZero capacity
  obtain ⟨n, more⟩ : ∃ n, b.size = n + 1 := ⟨b.size - 1, by omega⟩
  change Ring.window b.ring.get ((b.tail + 1) % capacity) (b.size - 1) = _
  rw [Ring.window_mod, contents, more, Ring.window_cons]
  simp [Fin.ofNat]

end Push

section Drain
variable (moved : α → α)

/-- The loop leaves everything but the cells and the read index alone. -/
theorem drainLoop_kept (n : Nat) (b : FrameRingBuffer α capacity) (out : List α) :
    (drainLoop moved n b out).2.head = b.head ∧ (drainLoop moved n b out).2.size = b.size ∧
      (drainLoop moved n b out).2.dropped = b.dropped ∧
        (drainLoop moved n b out).2.tail = Fin.ofNat capacity (b.tail + n) := by
  induction n generalizing b out with
  | zero => simp [drainLoop]
  | succ n ih =>
      obtain ⟨head, size, dropped, tail⟩ := ih (moveOut moved b) (out ++ [b.ring.get b.tail])
      refine ⟨head, size, dropped, tail.trans ?_⟩
      change Fin.ofNat capacity ((Fin.ofNat capacity (b.tail + 1) : Fin capacity) + n) = _
      rw [ofNat_val_add, Nat.add_assoc, Nat.add_comm 1 n]

theorem window_moveOut {m : Nat} (room : m < capacity) :
    Ring.window (moveOut moved b).ring.get (moveOut moved b).tail m =
      Ring.window b.ring.get (b.tail + 1) m := by
  change Ring.window (b.ring.set b.tail _).get ((b.tail + 1) % capacity) m = _
  rw [Ring.window_mod, get_set]
  nth_rewrite 1 [← Fin.ofNat_val_eq_self b.tail]
  exact Ring.window_update_front b.ring.get room _

/-- The loop takes the first frames, in order, and leaves the others in their place. -/
theorem drainLoop_window {n m : Nat} (enough : n ≤ m) (fits : m ≤ capacity) (out : List α)
    (b : FrameRingBuffer α capacity) :
    (drainLoop moved n b out).1 = out ++ (Ring.window b.ring.get b.tail m).take n ∧
      Ring.window (drainLoop moved n b out).2.ring.get (drainLoop moved n b out).2.tail (m - n) =
        (Ring.window b.ring.get b.tail m).drop n := by
  induction n generalizing m b out with
  | zero => simp [drainLoop]
  | succ n ih =>
      obtain ⟨m, rfl⟩ : ∃ k, m = k + 1 := ⟨m - 1, by omega⟩
      obtain ⟨taken, left⟩ := ih (Nat.le_of_succ_le_succ enough) (Nat.le_of_succ_le fits)
        (out ++ [b.ring.get b.tail]) (moveOut moved b)
      rw [window_moveOut moved fits] at taken left
      have first : Ring.window b.ring.get b.tail (m + 1) =
          b.ring.get b.tail :: Ring.window b.ring.get (b.tail + 1) m := by
        rw [Ring.window_cons, Fin.ofNat_val_eq_self]
      rw [first]
      constructor
      · exact taken.trans (by simp)
      · rw [Nat.add_sub_add_right, List.drop_succ_cons]
        exact left

end Drain

/-- The buffer stands for the queue. -/
structure Stands (b : FrameRingBuffer α capacity) (q : DropOldest α capacity) : Prop where
  laid : b.Laid
  frames : b.contents = q.frames
  dropped : b.dropped = UInt64.ofNat q.drops

namespace Stands
variable {q : DropOldest α capacity}

theorem size (stands : Stands b q) : b.size = q.frames.length := by
  rw [← stands.frames, length_contents]

theorem create (vacant : α) : Stands (create capacity vacant) (.empty α capacity) := by
  constructor
  · exact ⟨Nat.zero_le capacity, by simp [FrameRingBuffer.create]⟩
  · rfl
  · rfl

theorem push (stands : Stands b q) (frame : α) :
    (b.push frame).1 = (q.push frame).1 ∧ Stands (b.push frame).2 (q.push frame).2 := by
  have size := stands.size
  have fits := stands.laid.fits
  have positive : 0 < capacity := Nat.pos_of_neZero capacity
  by_cases full : b.size = capacity
  · have room : b.overwriteOldest.size < capacity := by
      change b.size - 1 < capacity
      omega
    have laid := stands.laid.overwriteOldest full
    rw [FrameRingBuffer.push, if_pos full, DropOldest.push, dif_pos (size.symm.trans full)]
    refine ⟨rfl, laid.store room frame, ?_, ?_⟩
    · rw [contents_store laid room, contents_overwriteOldest full, stands.frames]
    · change b.dropped + 1 = UInt64.ofNat (q.drops + 1)
      rw [stands.dropped]
      simp
  · have room : b.size < capacity := by omega
    rw [FrameRingBuffer.push, if_neg full, DropOldest.push, dif_neg (by omega)]
    refine ⟨rfl, stands.laid.store room frame, ?_, stands.dropped⟩
    rw [contents_store stands.laid room, stands.frames]

theorem drain (stands : Stands b q) (moved : α → α) (out : List α) (maxN : Nat) :
    (b.drain moved out maxN).1 = min maxN q.frames.length ∧
      (b.drain moved out maxN).2.1 = out ++ (q.drain maxN).1 ∧
        Stands (b.drain moved out maxN).2.2 (q.drain maxN).2 := by
  have size := stands.size
  have fits := stands.laid.fits
  have enough : min maxN b.size ≤ b.size := Nat.min_le_right maxN b.size
  obtain ⟨taken, left⟩ := drainLoop_window moved enough fits out b
  obtain ⟨head, kept, dropped, tail⟩ := drainLoop_kept moved (min maxN b.size) b out
  have take : b.contents.take (min maxN b.size) = q.frames.take maxN := by
    rw [stands.frames, List.take_eq_take_iff]
    omega
  have drop : b.contents.drop (min maxN b.size) = q.frames.drop maxN := by
    rw [stands.frames, size, ← List.drop_eq_drop_min]
  refine ⟨congrArg (min maxN) size, taken.trans (congrArg (out ++ ·) take), ⟨?_, ?_⟩, ?_, ?_⟩
  · exact Nat.le_trans (Nat.sub_le _ _) (kept.trans_le fits)
  · change (drainLoop moved (min maxN b.size) b out).2.head =
      Fin.ofNat capacity ((drainLoop moved (min maxN b.size) b out).2.tail +
        ((drainLoop moved (min maxN b.size) b out).2.size - min maxN b.size))
    have whole : b.tail + min maxN b.size + (b.size - min maxN b.size) = b.tail + b.size := by omega
    rw [head, kept, tail, ofNat_val_add, whole]
    exact stands.laid.head
  · change Ring.window _ _ ((drainLoop moved (min maxN b.size) b out).2.size - min maxN b.size) = _
    rw [kept]
    exact left.trans drop
  · exact dropped.trans stands.dropped

theorem clear (stands : Stands b q) : Stands b.clear q.clear := by
  constructor
  · exact ⟨Nat.zero_le capacity, by simp [FrameRingBuffer.clear]⟩
  · rfl
  · exact stands.dropped

end Stands

/-- The ring buffer is a queue that drops its oldest frame. -/
theorem refines_dropOldest (moved : α → α) : Refines (object moved) DropOldest.object
    (Stands : FrameRingBuffer α capacity → DropOldest α capacity → Prop) where
  answer b q request stands := by
    cases request with
    | push frame => exact congrArg RingAnswer.pushed (stands.push frame).1
    | drain out maxN =>
        obtain ⟨count, taken, -⟩ := stands.drain moved out maxN
        exact congrArg₂ RingAnswer.drained count taken
    | clear => rfl
    | dropped => exact congrArg RingAnswer.dropped stands.dropped
    | sizeApprox => exact congrArg RingAnswer.depth stands.size
  related b q request stands := by
    cases request with
    | push frame => exact (stands.push frame).2
    | drain out maxN => exact (stands.drain moved out maxN).2.2
    | clear => exact stands.clear
    | dropped | sizeApprox => exact stands

end FrameRingBuffer

section Traffic
variable {α : Type} {capacity : Nat} [NeZero capacity]

@[simp]
def RingRequest.isPush : RingRequest α → Bool
  | .push _ => true
  | _ => false

/-- The push that was answered had to drop a frame. -/
@[simp]
def RingAnswer.isDrop : RingAnswer α → Bool
  | .pushed whole => !whole
  | _ => false

/-- How many frames the answer handed out. -/
@[simp]
def RingAnswer.taken : RingAnswer α → Nat
  | .drained n _ => n
  | _ => 0

/-- The frames a `clear` discards, of `buffered` ones. -/
@[simp]
def RingRequest.discards (request : RingRequest α) (buffered : Nat) : List Nat :=
  match request with
  | .clear => [buffered]
  | _ => []

def drainedIn (answers : List (RingAnswer α)) : Nat := (answers.map RingAnswer.taken).sum

def dropsIn (answers : List (RingAnswer α)) : Nat := answers.countP RingAnswer.isDrop

namespace DropOldest
variable (q : DropOldest α capacity) (requests : List (RingRequest α))

/-- The frames discarded by the `clear`s of a sequence. -/
def clearedIn : Nat := (object.collect (fun q request => request.discards q.frames.length) q
  requests).sum

theorem object_step (request : RingRequest α) : object.step q request = q.serve request := rfl

/-- One request adds at most one frame, and what leaves was taken, discarded or dropped. -/
theorem serve_balance (request : RingRequest α) :
    (if request.isPush then 1 else 0) + q.frames.length =
      (q.serve request).1.taken + (request.discards q.frames.length).sum +
        (q.serve request).2.frames.length + (if (q.serve request).1.isDrop then 1 else 0) := by
  have positive : 0 < capacity := Nat.pos_of_neZero capacity
  cases request with
  | push frame =>
      by_cases full : q.frames.length = capacity
      · have whole : 1 + (capacity - 1) = capacity := by omega
        simp [serve, push, full, Nat.add_comm, whole]
      · simp [serve, push, full, Nat.add_comm]
  | drain out maxN =>
      have split : min maxN q.frames.length + (q.frames.length - maxN) = q.frames.length := by omega
      simp [serve, drain, split]
  | clear => simp [serve, clear]
  | dropped | sizeApprox => simp [serve]

theorem serve_drops (request : RingRequest α) : (q.serve request).2.drops =
    q.drops + (if (q.serve request).1.isDrop then 1 else 0) := by
  cases request with
  | push frame => by_cases full : q.frames.length = capacity <;> simp [serve, push, full]
  | drain out maxN | clear | dropped | sizeApprox => rfl

/-- Every frame pushed is handed out, discarded, dropped or still there. -/
theorem balance : requests.countP RingRequest.isPush + q.frames.length =
    drainedIn (object.answers q requests) + q.clearedIn requests +
      (object.after q requests).frames.length + dropsIn (object.answers q requests) := by
  induction requests generalizing q with
  | nil => simp [drainedIn, clearedIn, dropsIn, Object.answers, Object.collect, Object.after]
  | cons request requests ih =>
      have first := serve_balance q request
      have later := ih (q.serve request).2
      simp only [drainedIn, clearedIn, dropsIn, Object.answers, Object.collect, Object.after,
        object_step, List.countP_cons, List.map_cons, List.sum_cons, List.sum_append] at later ⊢
      omega

theorem drops_after : (object.after q requests).drops =
    q.drops + dropsIn (object.answers q requests) := by
  induction requests generalizing q with
  | nil => rfl
  | cons request requests ih =>
      have first := serve_drops q request
      have later := ih (q.serve request).2
      simp only [dropsIn, Object.answers, Object.after, object_step, List.countP_cons] at later ⊢
      omega

end DropOldest
end Traffic

namespace Guarantees
open FrameRingBuffer

/-- The ring buffer is a bounded queue that drops its oldest frame. It answers every sequence of
requests as the queue does; it holds the queue's frames, at most `capacity`, from `tail` on and up
to `head`; and every frame pushed was drained, cleared, dropped or is buffered. The drop counter
counts modulo 2^64. -/
theorem ring_buffer_drops_oldest {α : Type} (capacity : Nat) [NeZero capacity] (moved : α → α)
    (vacant : α) (requests : List (RingRequest α)) :
    let answers := (object moved).answers (create capacity vacant) requests
    let b := (object moved).after (create capacity vacant) requests
    let q := DropOldest.object.after (.empty α capacity) requests
    let cleared := ((object moved).collect (fun b request => request.discards b.size)
      (create capacity vacant) requests).sum
    answers = DropOldest.object.answers (.empty α capacity) requests ∧
    b.contents = q.frames ∧ b.size = q.frames.length ∧ b.size ≤ capacity ∧
    (b.head : Nat) = (b.tail + b.size) % capacity ∧
    b.dropped = UInt64.ofNat (dropsIn answers) ∧
    requests.countP RingRequest.isPush =
      drainedIn answers + cleared + b.size + dropsIn answers := by
  intro answers b q cleared
  have refines : Refines (object moved) DropOldest.object
      (Stands : FrameRingBuffer α capacity → DropOldest α capacity → Prop) :=
    refines_dropOldest moved
  have start : Stands (create capacity vacant) (.empty α capacity) := .create vacant
  have stands : Stands b q := refines.after start requests
  have same := refines.answers start requests
  have discarded : cleared = (DropOldest.empty α capacity).clearedIn requests := by
    apply congrArg List.sum
    apply refines.collect _ start requests
    intro b q request stands
    rw [stands.size]
  have balance := DropOldest.balance (.empty α capacity) requests
  have drops := DropOldest.drops_after (.empty α capacity) requests
  rw [← same] at balance drops
  refine ⟨same, stands.frames, stands.size, stands.laid.fits, ?_, ?_, ?_⟩
  · exact congrArg Fin.val stands.laid.head
  · rw [stands.dropped, drops]
    exact congrArg UInt64.ofNat (Nat.zero_add _)
  · rw [discarded, stands.size]
    exact balance

/-- The third frame displaces the first, the two that are left are drained in order, and the fourth
is cleared. -/
theorem third_frame_displaces_first :
    let requests : List (RingRequest Nat) :=
      [.push 1, .push 2, .push 3, .drain [] 5, .push 4, .clear]
    let answers := (object fun _ => 0).answers (create 2 0) requests
    answers =
      [.pushed true, .pushed true, .pushed false, .drained 2 [2, 3], .pushed true, .cleared] ∧
    answers = DropOldest.object.answers (.empty Nat 2) requests ∧
    (drainedIn answers, dropsIn answers) = (2, 1) := by
  intro requests answers
  have refined := ring_buffer_drops_oldest 2 (fun _ => 0) 0 requests
  exact ⟨by decide, refined.1, by decide⟩

end Guarantees
end IsalesEngine
