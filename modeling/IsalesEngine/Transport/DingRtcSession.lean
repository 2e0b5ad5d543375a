import Mathlib.Data.List.Count
import IsalesEngine.Asyncio.System

/-!
Leaving an RTC channel. A drainer task moves frames from the SDK to the bounded
inbound queue and drops what finds no room; iterators of `audio_frames` take
them off. `leave` stops the drainer, leaves the channel and puts one end marker
behind the frames. It raises what a crashed drainer raised, before the channel is
left; on a full queue it waits for an iterator; and one marker ends one iterator.
-/
namespace IsalesEngine
open Asyncio

/-- A frame of the binding; attributes may be missing. -/
structure RawFrame where
  remoteUid : Option String
  pcm : Option (List UInt8)
  sampleRate : Option Int
  channels : Option Int
  timestamp : Option Int
  deriving DecidableEq, Repr

structure PcmFrame where
  senderUid : String
  pcm : List UInt8
  sampleRate : Int
  channels : Int
  timestampMs : Int
  deriving DecidableEq, Repr

/-- `int(getattr(raw, name, default) or default)`. -/
def rawInt (value : Option Int) (default : Int) : Int :=
  if value.getD default = 0 then default else value.getD default

def PcmFrame.ofRaw (raw : RawFrame) : PcmFrame where
  senderUid := raw.remoteUid.getD ""
  pcm := raw.pcm.getD []
  sampleRate := rawInt raw.sampleRate 0
  channels := rawInt raw.channels 1
  timestampMs := rawInt raw.timestamp 0

inductive DrainerState where
  | running
  | crashed
  | stopped
  deriving DecidableEq, Repr

/-- An iterator of `audio_frames`; it is gone when its consumer has closed it or was cancelled. -/
inductive IteratorState where
  | live
  | gone
  | ended
  deriving DecidableEq, Repr

/-- Where `leave` stands: it awaits the drainer, the channel, or a slot for the marker. -/
inductive LeavePhase where
  | idle
  | reaping
  | leaving
  | putting
  | returned
  | raised
  deriving DecidableEq, Repr

/-- A session that has joined. The marker on the queue is `none`. -/
structure DingRtcSession where
  inbound : List (Option PcmFrame) := []
  joined : Bool := true
  drainer : DrainerState := .running
  iterators : List IteratorState := []
  phase : LeavePhase := .idle
  channelLeft : Bool := false
  deriving DecidableEq, Repr

/-- A section of the drainer, of an iterator or of `leave`. -/
inductive SessionStep where
  | drain (frames : List RawFrame)
  | crash
  | iterate
  | next (iterator : Nat)
  | abandon (iterator : Nat)
  | leave
  | reaped
  | channelLeaves
  | put
  deriving DecidableEq, Repr

namespace DingRtcSession

def full (size : Nat) (queue : List (Option PcmFrame)) : Bool :=
  decide (0 < size) && decide (size ≤ queue.length)

/-- `put_nowait` with `QueueFull` suppressed. -/
def putFrame (size : Nat) (queue : List (Option PcmFrame)) (raw : RawFrame) :
    List (Option PcmFrame) :=
  if full size queue then queue else queue ++ [some (.ofRaw raw)]

def live (s : DingRtcSession) : Nat := s.iterators.count .live

def takes (s : DingRtcSession) (i : Nat) (item : Option PcmFrame)
    (rest : List (Option PcmFrame)) : DingRtcSession :=
  match item with
  | some _ => { s with inbound := rest }
  | none => { s with inbound := rest, iterators := s.iterators.set i .ended }

/-- Up to the first suspension: a crashed drainer is done, and awaiting it raises at once. -/
def leave (s : DingRtcSession) : DingRtcSession :=
  if s.joined then
    match s.drainer with
    | .crashed => { s with joined := false, phase := .raised }
    | .running | .stopped => { s with joined := false, drainer := .stopped, phase := .reaping }
  else s

def putMarker (size : Nat) (s : DingRtcSession) : DingRtcSession :=
  if full size s.inbound then { s with phase := .putting }
  else { s with inbound := s.inbound ++ [none], phase := .returned }

def step (size : Nat) (s : DingRtcSession) : SessionStep → Option DingRtcSession
  | .drain frames =>
      if s.drainer = .running ∧ frames.length ≤ 8 then
        some { s with inbound := frames.foldl (putFrame size) s.inbound }
      else none
  | .crash => if s.drainer = .running then some { s with drainer := .crashed } else none
  | .iterate =>
      if s.joined = true then some { s with iterators := s.iterators ++ [.live] } else none
  | .next i => match s.inbound with
      | item :: rest => if s.iterators[i]? = some .live then some (s.takes i item rest) else none
      | [] => none
  | .abandon i =>
      if s.iterators[i]? = some .live then some { s with iterators := s.iterators.set i .gone }
      else none
  | .leave => some s.leave
  | .reaped =>
      if s.phase = .reaping then some { s with channelLeft := true, phase := .leaving } else none
  | .channelLeaves => if s.phase = .leaving then some (s.putMarker size) else none
  | .put =>
      if s.phase = .putting ∧ full size s.inbound = false then some (s.putMarker size) else none

def system (size : Nat) : System DingRtcSession SessionStep := ⟨step size⟩

/-- The drainer has not crashed when `leave` is called, and when the channel has been left the
queue has room and at most one iterator is there. -/
def careful (size : Nat) (s : DingRtcSession) : SessionStep → Bool
  | .leave => !s.joined || s.drainer != .crashed
  | .channelLeaves => !full size s.inbound && decide (s.live ≤ 1)
  | _ => true

/-- `leave` has not raised and does not wait for an iterator. When it has returned the channel is
left, and a marker for every iterator stands behind the frames. -/
structure LeavesCleanly (s : DingRtcSession) : Prop where
  unraised : s.phase ≠ .raised
  unblocked : s.phase ≠ .putting
  ends : s.phase = .returned → s.channelLeft = true ∧
    ∃ frames markers, s.inbound = List.map some frames ++ List.replicate markers none ∧
      s.live ≤ markers

/-- The invariant of careful runs. -/
structure Sound (s : DingRtcSession) : Prop extends LeavesCleanly s where
  idle : s.joined = true → s.phase = .idle
  stopped : s.joined = false → s.drainer = .stopped
  leaving : s.phase = .leaving → s.channelLeft = true
  unmarked : s.phase ≠ .returned → ∃ frames, s.inbound = List.map some frames

section Steps
variable {size : Nat} {s s' : DingRtcSession} {label : SessionStep} {i : Nat}

theorem putFrames_map {frames : List PcmFrame} {raws : List RawFrame} :
    ∃ more, raws.foldl (putFrame size) (frames.map some) = List.map some more := by
  induction raws generalizing frames with
  | nil => exact ⟨frames, rfl⟩
  | cons raw raws ih =>
      rw [List.foldl_cons]
      unfold putFrame
      split
      · exact ih
      · rw [show frames.map some ++ [some (PcmFrame.ofRaw raw)] =
          (frames ++ [PcmFrame.ofRaw raw]).map some by simp]
        exact ih

theorem live_set (own : s.iterators[i]? = some .live) (state : IteratorState)
    (past : state ≠ .live) : (s.iterators.set i state).count .live = s.live - 1 := by
  obtain ⟨inside, here⟩ := List.getElem?_eq_some_iff.mp own
  have different : (state == .live) = false := beq_eq_false_iff_ne.mpr past
  rw [List.count_set inside, here, different, live]
  rfl

/-- The session has been left, and the iterators take what is there. -/
theorem ends_next {item : Option PcmFrame} {rest : List (Option PcmFrame)} (left : Prop)
    (queue : s.inbound = item :: rest) (own : s.iterators[i]? = some .live)
    (ends : left ∧ ∃ frames markers,
      s.inbound = List.map some frames ++ List.replicate markers none ∧ s.live ≤ markers) :
    left ∧ ∃ frames markers, (s.takes i item rest).inbound =
        List.map some frames ++ List.replicate markers none ∧
      (s.takes i item rest).live ≤ markers := by
  obtain ⟨gone, frames, markers, shape, enough⟩ := ends
  refine ⟨gone, ?_⟩
  rw [queue] at shape
  cases frames with
  | cons frame frames =>
      obtain ⟨rfl, rfl⟩ := List.cons.inj shape
      exact ⟨frames, markers, rfl, enough⟩
  | nil =>
      cases markers with
      | zero => cases shape
      | succ markers =>
          obtain ⟨rfl, rfl⟩ := List.cons.inj shape
          refine ⟨[], markers, rfl, ?_⟩
          show (s.iterators.set i .ended).count .live ≤ markers
          rw [live_set own .ended (by decide)]
          omega

/-- Leaving once the drainer can be stopped. -/
theorem leave_of_alive (joined : s.joined = true) (alive : s.drainer ≠ .crashed) :
    s.leave = { s with joined := false, drainer := .stopped, phase := .reaping } := by
  unfold DingRtcSession.leave
  rw [if_pos joined]
  cases drainer : s.drainer with
  | crashed => exact absurd drainer alive
  | _ => rfl

section
variable (sound : Sound s)
include sound

theorem Sound.next {item : Option PcmFrame} {rest : List (Option PcmFrame)}
    (queue : s.inbound = item :: rest) (own : s.iterators[i]? = some .live) :
    Sound (s.takes i item rest) := by
  have ends := fun returned => ends_next _ queue own (sound.ends returned)
  have unmarked : s.phase ≠ .returned → ∃ frame frames,
      item = some frame ∧ rest = List.map some frames := by
    intro running
    obtain ⟨frames, all⟩ := sound.unmarked running
    rw [queue] at all
    cases frames with
    | nil => cases all
    | cons frame frames =>
        obtain ⟨rfl, rfl⟩ := List.cons.inj all
        exact ⟨frame, frames, rfl, rfl⟩
  cases item with
  | some frame =>
      refine ⟨⟨sound.unraised, sound.unblocked, ends⟩, sound.idle, sound.stopped, sound.leaving,
        fun running => ?_⟩
      obtain ⟨-, frames, -, all⟩ := unmarked running
      exact ⟨frames, all⟩
  | none =>
      refine ⟨⟨sound.unraised, sound.unblocked, ends⟩, sound.idle, sound.stopped, sound.leaving,
        fun running => ?_⟩
      obtain ⟨frame, -, impossible, -⟩ := unmarked running
      cases impossible

theorem Sound.leave (allowed : (!s.joined || s.drainer != .crashed) = true) : Sound s.leave := by
  cases joined : s.joined with
  | false =>
      have same : s.leave = s := by simp [DingRtcSession.leave, joined]
      rw [same]
      exact sound
  | true =>
      have alive : s.drainer ≠ .crashed := by simpa [joined] using allowed
      have frames := sound.unmarked (by rw [sound.idle joined]; nofun)
      rw [leave_of_alive joined alive]
      exact ⟨⟨nofun, nofun, nofun⟩, nofun, fun _ => rfl, nofun, fun _ => frames⟩

/-- With room in the queue and one iterator the marker ends it. -/
theorem Sound.putMarker (phase : s.phase = .leaving) (room : full size s.inbound = false)
    (single : s.live ≤ 1) : Sound (s.putMarker size) := by
  have shut : s.joined = false := by
    refine Bool.eq_false_iff.mpr fun joined => ?_
    exact nomatch (sound.idle joined).symm.trans phase
  obtain ⟨frames, all⟩ := sound.unmarked (by rw [phase]; nofun)
  unfold DingRtcSession.putMarker
  rw [if_neg (by simp [room])]
  refine ⟨⟨nofun, nofun, fun _ => ?_⟩, ?_, sound.stopped, nofun, fun running => absurd rfl running⟩
  · refine ⟨sound.leaving phase, frames, 1, ?_, single⟩
    rw [all]
    rfl
  · intro joined
    exact absurd (shut.symm.trans joined) (by decide)

theorem Sound.step (stepped : s.step size label = some s') (allowed : s.careful size label = true) :
    Sound s' := by
  have running : s.drainer = .running → s.joined = true := by
    intro running
    refine Classical.byContradiction fun left => ?_
    have stopped := sound.stopped (Bool.eq_false_iff.mpr left)
    exact nomatch running.symm.trans stopped
  obtain ⟨⟨unraised, unblocked, ends⟩, idle, stopped, leaving, unmarked⟩ := sound
  cases label with
  | drain raws =>
      obtain ⟨⟨alive, -⟩, rfl⟩ := of_guard stepped
      have here := idle (running alive)
      obtain ⟨frames, all⟩ := unmarked (by rw [here]; nofun)
      refine ⟨⟨unraised, unblocked, ?_⟩, idle, stopped, leaving, fun _ => ?_⟩
      · exact fun returned => nomatch here.symm.trans returned
      · show ∃ frames, raws.foldl (putFrame size) s.inbound = List.map some frames
        rw [all]
        exact putFrames_map
  | crash =>
      obtain ⟨alive, rfl⟩ := of_guard stepped
      refine ⟨⟨unraised, unblocked, ends⟩, idle, ?_, leaving, unmarked⟩
      intro left
      exact absurd ((running alive).symm.trans left) (by decide)
  | iterate =>
      obtain ⟨joined, rfl⟩ := of_guard stepped
      refine ⟨⟨unraised, unblocked, ?_⟩, idle, stopped, leaving, unmarked⟩
      exact fun returned => nomatch (idle joined).symm.trans returned
  | next i =>
      simp only [DingRtcSession.step] at stepped
      split at stepped
      · rename_i item rest queue
        obtain ⟨own, rfl⟩ := of_guard stepped
        have sound : Sound s :=
          ⟨⟨unraised, unblocked, ends⟩, idle, stopped, leaving, unmarked⟩
        exact sound.next queue own
      · cases stepped
  | abandon i =>
      obtain ⟨own, rfl⟩ := of_guard stepped
      refine ⟨⟨unraised, unblocked, fun returned => ?_⟩, idle, stopped, leaving, unmarked⟩
      obtain ⟨left, frames, markers, shape, enough⟩ := ends returned
      refine ⟨left, frames, markers, shape, ?_⟩
      show (s.iterators.set i .gone).count .live ≤ markers
      rw [live_set own .gone (by decide)]
      omega
  | leave =>
      obtain rfl := Option.some.inj stepped
      have sound : Sound s := ⟨⟨unraised, unblocked, ends⟩, idle, stopped, leaving, unmarked⟩
      exact sound.leave allowed
  | reaped =>
      obtain ⟨phase, rfl⟩ := of_guard stepped
      refine ⟨⟨nofun, nofun, nofun⟩, ?_, stopped, fun _ => rfl, fun _ => ?_⟩
      · exact fun joined => nomatch (idle joined).symm.trans phase
      · exact unmarked (by rw [phase]; nofun)
  | channelLeaves =>
      obtain ⟨phase, rfl⟩ := of_guard stepped
      obtain ⟨room, single⟩ := Bool.and_eq_true_iff.mp allowed
      have sound : Sound s := ⟨⟨unraised, unblocked, ends⟩, idle, stopped, leaving, unmarked⟩
      exact sound.putMarker phase (by simpa using room) (of_decide_eq_true single)
  | put =>
      obtain ⟨⟨phase, -⟩, rfl⟩ := of_guard stepped
      exact absurd phase unblocked

theorem Sound.careful_of (stepped : s.step size label = some s') (clean : LeavesCleanly s') :
    s.careful size label = true := by
  cases label with
  | leave =>
      obtain rfl := Option.some.inj stepped
      refine Classical.byContradiction fun hasty => ?_
      obtain ⟨joined, crashed⟩ : s.joined = true ∧ s.drainer = .crashed := by
        simpa [careful] using hasty
      refine clean.unraised ?_
      simp [DingRtcSession.leave, joined, crashed]
  | channelLeaves =>
      obtain ⟨phase, rfl⟩ := of_guard stepped
      have room : full size s.inbound = false := by
        refine Bool.eq_false_iff.mpr fun crowded => clean.unblocked ?_
        simp [DingRtcSession.putMarker, crowded]
      have now : s.putMarker size =
          { s with inbound := s.inbound ++ [none], phase := .returned } := by
        simp [DingRtcSession.putMarker, room]
      rw [now] at clean
      obtain ⟨frames, all⟩ := sound.unmarked (by rw [phase]; nofun)
      obtain ⟨-, more, markers, shape, enough⟩ := clean.ends rfl
      have counted := congrArg (List.countP Option.isNone) shape
      have single : 1 = markers := by
        simpa [all, List.countP_append, List.countP_map, Function.comp_def,
          List.countP_replicate] using counted
      subst single
      have enough : s.live ≤ 1 := enough
      simp [careful, room, enough]
  | _ => rfl

end

end Steps
end DingRtcSession

namespace Guarantees
open DingRtcSession

/-- In every run of a joined session: all steps were careful exactly if in every state on the way
`leave` has not raised and waits for no iterator, and once it has returned the channel is left and
every iterator ends behind the frames. A careful `leave` returns by its own sections alone. -/
theorem leave_completes_iff (size : Nat) (steps : List SessionStep) (s : DingRtcSession)
    (run : (system size).exec {} steps = some s) :
    (((system size).restrict (careful size)).exec {} steps = some s ↔
      ∀ before t, before <+: steps → (system size).exec {} before = some t → t.LeavesCleanly) ∧
    (s.joined = true → s.drainer ≠ .crashed → full size s.inbound = false →
      ∃ t, (system size).exec s [.leave, .reaped, .channelLeaves] = some t ∧
        t.phase = .returned ∧ t.channelLeft = true) := by
  constructor
  · have sound : Sound {} :=
      ⟨⟨nofun, nofun, nofun⟩, fun _ => rfl, nofun, nofun, fun _ => ⟨[], rfl⟩⟩
    refine System.exec_restrict_iff (J := Sound) (P := LeavesCleanly) ?_ ?_ sound
      sound.toLeavesCleanly run
    · intro s label s' sound allowed stepped
      exact sound.step stepped allowed
    · intro s label s' sound stepped
      exact ⟨fun allowed => (sound.step stepped allowed).toLeavesCleanly,
        sound.careful_of stepped⟩
  · intro joined alive room
    have now := leave_of_alive joined alive
    refine ⟨{ s with
      joined := false, drainer := .stopped, phase := .returned, channelLeft := true
      inbound := s.inbound ++ [none] }, ?_, rfl, rfl⟩
    simp only [System.exec, system, DingRtcSession.step, now, Option.bind_some, if_true,
      DingRtcSession.putMarker, room, Bool.false_eq_true, if_false]

/-- A session with one iterator and two queued frames is left. -/
theorem left_session_ends_iterator :
    ∃ s, (system 1024).exec {} [.iterate,
      .drain [⟨some "edge", some [0, 0], some 48000, none, none⟩,
        ⟨some "edge", some [1, 0], some 48000, some 2, none⟩],
      .leave, .reaped, .channelLeaves, .next 0, .next 0, .next 0] = some s ∧
      s.LeavesCleanly ∧ s.iterators = [.ended] := by
  refine exists_of_map (fun s => s.iterators) [.ended] (by decide) fun s run ended => ?_
  have careful := System.restrict_exec (careful 1024) run (by decide)
  have clean := ((leave_completes_iff 1024 _ s run).1.mp careful) _ s List.prefix_rfl run
  exact ⟨clean, ended⟩

/-- After the drainer has crashed `leave` raises before the channel is left. On a full queue without
an iterator it waits for a slot that nobody frees. -/
theorem leave_raises_or_waits :
    ((system 1024).exec {} [.crash, .leave]).map (fun s => (s.phase, s.channelLeft)) =
      some (.raised, false) ∧
    ((system 2).exec {} [.drain [⟨none, none, none, none, none⟩, ⟨none, none, none, none, none⟩],
      .leave, .reaped, .channelLeaves]).map (fun s => (s.phase, s.iterators)) =
      some (.putting, []) := by
  decide

end Guarantees
end IsalesEngine
