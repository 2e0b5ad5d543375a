import Mathlib.Data.List.Basic
import IsalesEngine.Asyncio.System

/-!
Playout of synthesised speech. `feed_playout` cuts the chunks it receives into
frames of ten milliseconds, puts them on a bounded queue and waits until all are
marked done; the outbound pump takes one frame at a time, pushes it to the RTC
session and marks it done. Queue and pump are made together. The pump ends when
the session is not joined any more or when it is stopped, a cancelled push never
marks its frame, and a new queue with a new pump comes only after a stop.
-/
namespace IsalesEngine
open Asyncio

def frameBytes : Nat := 320

def playoutPrebufferFrames : Nat := 20

abbrev Frame : Type := List UInt8

/-- A frame on its way; the feed it comes from is a history variable. -/
structure PlayoutItem where
  feed : Nat
  frame : Frame
  deriving DecidableEq, Repr

/-- The pump sleeps, pushes a frame (`none` stands for silence), or has ended. -/
inductive PumpState where
  | sleeping
  | pushing (tts : Option PlayoutItem)
  | ended
  deriving DecidableEq, Repr

/-- A playout queue with its pump. `overdrawn` says that `task_done` was called too often; `marked`
is a history variable: what the pump has marked done. -/
structure PlayoutQueue where
  items : List PlayoutItem := []
  unfinished : Nat := 0
  pump : PumpState := .sleeping
  overdrawn : Bool := false
  marked : List PlayoutItem := []
  deriving DecidableEq, Repr

/-- Where a feed stands. It receives chunks or puts the frames they gave, puts the last frames, or
waits in `join`; a join is released for good once nothing was unfinished. -/
inductive FeedStage where
  | receiving (toPut : List Frame)
  | ending (toPut : List Frame)
  | joining (released : Bool)
  | returned
  | raised
  deriving DecidableEq, Repr

/-- A `feed_playout`. What it has received and put are history variables. -/
structure Feed where
  queue : Nat
  primed : Bool
  stage : FeedStage := .receiving []
  leftover : List UInt8 := []
  cushion : List Frame := []
  received : List UInt8 := []
  put : List Frame := []
  deriving DecidableEq, Repr

/-- The outbound side of a `_CallState`. `playout_q` is the last of the queues. -/
structure Playout where
  queues : List PlayoutQueue := []
  outboundPump : Option Nat := none
  ambientActive : Bool := false
  bargeInFadeoutMs : Int := 100
  feeds : List Feed := []
  deriving DecidableEq, Repr

/-- A section of a feed, of a pump, or of the client. -/
inductive PlayoutStep where
  | startPump
  | enableAmbient
  | setFadeout (ms : Int)
  | audioOut
  | chunk (feed : Nat) (bytes : List UInt8)
  | endOfStream (feed : Nat)
  | sourceFails (feed : Nat)
  | put (feed : Nat)
  | joinReturns (feed : Nat)
  | cancel (feed : Nat)
  | tick (queue : Nat)
  | pushed (queue : Nat)
  | notJoined (queue : Nat)
  | stopPump
  deriving DecidableEq, Repr

/-- A fade to silence over all samples, of two bytes each. `ramp first total` stands for the
arithmetic on the samples of one frame, the first of which has index `first` of `total`. -/
def applyFadeout (ramp : Nat → Nat → Frame → Frame) (frames : List Frame) : List Frame :=
  let total := frames.foldl (fun total frame => total + frame.length / 2) 0
  if total ≤ 1 then frames else go total 0 frames
where
  go (total idx : Nat) : List Frame → List Frame
    | [] => []
    | frame :: frames => ramp idx total frame :: go total (idx + frame.length / 2) frames

namespace PlayoutQueue

def maxsize : Nat := 300

def full (q : PlayoutQueue) : Bool := decide (maxsize ≤ q.items.length)

def putItem (q : PlayoutQueue) (item : PlayoutItem) : PlayoutQueue :=
  { q with items := q.items ++ [item], unfinished := q.unfinished + 1 }

def taskDone (q : PlayoutQueue) : PlayoutQueue :=
  if q.unfinished = 0 then { q with overdrawn := true }
  else { q with unfinished := q.unfinished - 1 }

/-- The pump marks the frame it holds, if it holds one. -/
def markDone (q : PlayoutQueue) (tts : Option PlayoutItem) : PlayoutQueue :=
  match tts with
  | some item => { q.taskDone with marked := q.marked ++ [item] }
  | none => q

/-- Everything queued is taken off and marked done. -/
def drain (q : PlayoutQueue) : PlayoutQueue :=
  q.items.foldl (fun q _ => q.taskDone) { q with items := [] }

/-- The frames that are queued again after a flush. -/
def faded (ramp : Nat → Nat → Frame → Frame) (ms : Int) (pending : List PlayoutItem) :
    List PlayoutItem :=
  if ms ≤ 0 then []
  else
    let kept := pending.take (min ((ms + 9) / 10).toNat pending.length)
    List.zipWith (fun item frame => { item with frame }) kept
      (applyFadeout ramp (kept.map PlayoutItem.frame))

end PlayoutQueue

namespace Feed

def isActive (f : Feed) : Bool :=
  match f.stage with
  | .returned | .raised => false
  | _ => true

/-- The full frames of a buffer, and what is left over. -/
def frames (buf : List UInt8) : List Frame :=
  (List.range (buf.length / frameBytes)).map fun k => (buf.drop (k * frameBytes)).take frameBytes

def rest (buf : List UInt8) : List UInt8 := buf.drop (buf.length / frameBytes * frameBytes)

/-- What of the frames is put at once: everything once primed, before that the cushion as soon as
it is long enough. Returns the frames to put, the cushion and whether the feed is primed. -/
def release : List Frame → List Frame → Bool → List Frame × List Frame × Bool
  | [], cushion, primed => ([], cushion, primed)
  | frame :: frames, cushion, true =>
      let (toPut, rest) := release frames cushion true
      (frame :: toPut, rest)
  | frame :: frames, cushion, false =>
      if playoutPrebufferFrames ≤ (cushion ++ [frame]).length then
        let (toPut, rest) := release frames [] true
        (cushion ++ [frame] ++ toPut, rest)
      else release frames (cushion ++ [frame]) false

def chunk (f : Feed) (bytes : List UInt8) : Feed :=
  let buf := f.leftover ++ bytes
  let (toPut, cushion, primed) := release (frames buf) f.cushion f.primed
  { f with
    stage := .receiving toPut, leftover := rest buf, cushion, primed
    received := f.received ++ bytes }

/-- The last partial frame, padded with silence. -/
def padded (leftover : List UInt8) : List Frame :=
  if leftover.isEmpty then [] else [leftover ++ List.replicate (frameBytes - leftover.length) 0]

def lastFrames (f : Feed) : List Frame := f.cushion ++ padded f.leftover

def afterPut (f : Feed) (frame : Frame) (stage : FeedStage) : Feed :=
  { f with stage, put := f.put ++ [frame] }

/-- `q.join()`. -/
def join (unfinished : Nat) : FeedStage := .joining (decide (unfinished = 0))

/-- The feed waits: in `put` for a slot, or in `join` for frames to be marked done. -/
def isBlocked (f : Feed) (q : PlayoutQueue) : Bool :=
  match f.stage with
  | .receiving (_ :: _) | .ending (_ :: _) => q.full
  | .joining released => !released && decide (0 < q.unfinished)
  | _ => false

end Feed

namespace Playout

def setFeed (s : Playout) (i : Nat) (f : Feed) : Playout := { s with feeds := s.feeds.set i f }

/-- When nothing is unfinished on a queue its joins are released. -/
def settle (feeds : List Feed) (k : Nat) (q : PlayoutQueue) : List Feed :=
  if q.unfinished = 0 then
    feeds.map fun f =>
      if f.queue = k ∧ f.stage = .joining false then { f with stage := .joining true } else f
  else feeds

def setQueue (s : Playout) (k : Nat) (q : PlayoutQueue) : Playout :=
  { s with queues := s.queues.set k q, feeds := settle s.feeds k q }

/-- Queue and pump are made together, unless there is a pump already, whether it runs or not. -/
def startOutboundPump (s : Playout) : Playout :=
  if s.outboundPump.isSome then s
  else { s with queues := s.queues ++ [{}], outboundPump := some s.queues.length }

def audioOut (s : Playout) : Playout :=
  let s := s.startOutboundPump
  { s with feeds := s.feeds ++ [{ queue := s.queues.length - 1, primed := !s.ambientActive }] }

/-- `_flush_playout`: the drain may release joins before faded frames are queued again. -/
def flush (ramp : Nat → Nat → Frame → Frame) (s : Playout) : Playout :=
  match s.queues[s.queues.length - 1]? with
  | some q =>
      let k := s.queues.length - 1
      let s := s.setQueue k q.drain
      let again := PlayoutQueue.faded ramp s.bargeInFadeoutMs q.items
      { s with queues := s.queues.set k (again.foldl PlayoutQueue.putItem q.drain) }
  | none => s

/-- The next frame is put, and behind the last one the feed joins. -/
def put (s : Playout) (i : Nat) (f : Feed) (q : PlayoutQueue) : Option Playout :=
  if q.full then none
  else match f.stage with
    | .receiving (frame :: toPut) =>
        some { s.setFeed i (f.afterPut frame (.receiving toPut)) with
          queues := s.queues.set f.queue (q.putItem ⟨i, frame⟩) }
    | .ending (frame :: toPut) =>
        let q := q.putItem ⟨i, frame⟩
        let stage := if toPut.isEmpty then Feed.join q.unfinished else .ending toPut
        some { s.setFeed i (f.afterPut frame stage) with queues := s.queues.set f.queue q }
    | _ => none

def endOfStream (s : Playout) (i : Nat) (f : Feed) (q : PlayoutQueue) : Playout :=
  let toPut := f.lastFrames
  let stage := if toPut.isEmpty then Feed.join q.unfinished else .ending toPut
  s.setFeed i { f with stage }

def tick (s : Playout) (k : Nat) (q : PlayoutQueue) : Playout :=
  match q.items with
  | item :: items => s.setQueue k { q with items, pump := .pushing (some item) }
  | [] => s.setQueue k { q with pump := .pushing none }

def stopOutboundPump (s : Playout) : Playout :=
  match s.outboundPump with
  | some k => match s.queues[k]? with
      | some q => { s with
          outboundPump := none, queues := s.queues.set k { q with pump := .ended } }
      | none => { s with outboundPump := none }
  | none => s

def step (ramp : Nat → Nat → Frame → Frame) (s : Playout) : PlayoutStep → Option Playout
  | .startPump => some s.startOutboundPump
  | .enableAmbient =>
      some (if s.ambientActive then s else { s.startOutboundPump with ambientActive := true })
  | .setFadeout ms => some { s with bargeInFadeoutMs := ms }
  | .audioOut => some s.audioOut
  | .chunk i bytes => match s.feeds[i]? with
      | some f => if f.stage = .receiving [] then some (s.setFeed i (f.chunk bytes)) else none
      | none => none
  | .endOfStream i => match s.feeds[i]? with
      | some f => match s.queues[f.queue]? with
          | some q => if f.stage = .receiving [] then some (s.endOfStream i f q) else none
          | none => none
      | none => none
  | .sourceFails i => match s.feeds[i]? with
      | some f =>
          if f.stage = .receiving [] then some (s.setFeed i { f with stage := .raised }) else none
      | none => none
  | .put i => match s.feeds[i]? with
      | some f => match s.queues[f.queue]? with
          | some q => s.put i f q
          | none => none
      | none => none
  | .joinReturns i => match s.feeds[i]? with
      | some f =>
          if f.stage = .joining true then some (s.setFeed i { f with stage := .returned }) else none
      | none => none
  | .cancel i => match s.feeds[i]? with
      | some f =>
          if f.isActive then some (flush ramp (s.setFeed i { f with stage := .raised })) else none
      | none => none
  | .tick k => match s.queues[k]? with
      | some q => if q.pump = .sleeping then some (s.tick k q) else none
      | none => none
  | .pushed k => match s.queues[k]? with
      | some q => match q.pump with
          | .pushing tts => some (s.setQueue k { q.markDone tts with pump := .sleeping })
          | _ => none
      | none => none
  | .notJoined k => match s.queues[k]? with
      | some q => match q.pump with
          | .pushing tts => some (s.setQueue k { q.markDone tts with pump := .ended })
          | _ => none
      | none => none
  | .stopPump => some s.stopOutboundPump

def system (ramp : Nat → Nat → Frame → Frame) : System Playout PlayoutStep := ⟨step ramp⟩

end Playout
end IsalesEngine
