import IsalesEngine.Realtime.Playout

/-!
What each section of the playout does, and where it may be taken. What follows
about its runs is derived from this relation.
-/
namespace IsalesEngine
open Asyncio

/-- The frame a feed puts next, and where it stands then. -/
inductive Feed.Puts (f : Feed) : Frame → FeedStage → Prop
  | receiving {frame : Frame} {toPut : List Frame} (here : f.stage = .receiving (frame :: toPut)) :
      Puts f frame (.receiving toPut)
  | ending {frame : Frame} {toPut : List Frame} (here : f.stage = .ending (frame :: toPut))
      (more : toPut ≠ []) : Puts f frame (.ending toPut)
  | last {frame : Frame} (here : f.stage = .ending [frame]) : Puts f frame (.joining false)

namespace Playout

inductive Effect (ramp : Nat → Nat → Frame → Frame) (s : Playout) : PlayoutStep → Playout → Prop
  | startPump : Effect ramp s .startPump s.startOutboundPump
  | ambientOn (on : s.ambientActive = true) : Effect ramp s .enableAmbient s
  | enableAmbient (off : ¬ s.ambientActive = true) :
      Effect ramp s .enableAmbient { s.startOutboundPump with ambientActive := true }
  | setFadeout (ms : Int) : Effect ramp s (.setFadeout ms) { s with bargeInFadeoutMs := ms }
  | audioOut : Effect ramp s .audioOut s.audioOut
  | chunk {i : Nat} {f : Feed} (bytes : List UInt8) (own : s.feeds[i]? = some f)
      (ready : f.stage = .receiving []) :
      Effect ramp s (.chunk i bytes) (s.setFeed i (f.chunk bytes))
  | endOfStream {i : Nat} {f : Feed} {q : PlayoutQueue} (own : s.feeds[i]? = some f)
      (queue : s.queues[f.queue]? = some q) (ready : f.stage = .receiving []) :
      Effect ramp s (.endOfStream i) (s.endOfStream i f q)
  | sourceFails {i : Nat} {f : Feed} (own : s.feeds[i]? = some f)
      (ready : f.stage = .receiving []) :
      Effect ramp s (.sourceFails i) (s.setFeed i { f with stage := .raised })
  | put {i : Nat} {f : Feed} {q : PlayoutQueue} {frame : Frame} {stage : FeedStage}
      (own : s.feeds[i]? = some f) (queue : s.queues[f.queue]? = some q) (room : q.full = false)
      (puts : f.Puts frame stage) :
      Effect ramp s (.put i) { s.setFeed i (f.afterPut frame stage) with
        queues := s.queues.set f.queue (q.putItem ⟨i, frame⟩) }
  | joinReturns {i : Nat} {f : Feed} (own : s.feeds[i]? = some f)
      (released : f.stage = .joining true) :
      Effect ramp s (.joinReturns i) (s.setFeed i { f with stage := .returned })
  | cancel {i : Nat} {f : Feed} (own : s.feeds[i]? = some f) (active : f.isActive = true) :
      Effect ramp s (.cancel i) (flush ramp (s.setFeed i { f with stage := .raised }))
  | takes {k : Nat} {q : PlayoutQueue} {item : PlayoutItem} {items : List PlayoutItem}
      (own : s.queues[k]? = some q) (sleeping : q.pump = .sleeping)
      (front : q.items = item :: items) :
      Effect ramp s (.tick k) (s.setQueue k { q with items, pump := .pushing (some item) })
  | silence {k : Nat} {q : PlayoutQueue} (own : s.queues[k]? = some q)
      (sleeping : q.pump = .sleeping) (empty : q.items = []) :
      Effect ramp s (.tick k) (s.setQueue k { q with pump := .pushing none })
  | pushed {k : Nat} {q : PlayoutQueue} {tts : Option PlayoutItem} (own : s.queues[k]? = some q)
      (pump : q.pump = .pushing tts) :
      Effect ramp s (.pushed k) (s.setQueue k { q.markDone tts with pump := .sleeping })
  | notJoined {k : Nat} {q : PlayoutQueue} {tts : Option PlayoutItem} (own : s.queues[k]? = some q)
      (pump : q.pump = .pushing tts) :
      Effect ramp s (.notJoined k) (s.setQueue k { q.markDone tts with pump := .ended })
  | stopPump : Effect ramp s .stopPump s.stopOutboundPump

variable {ramp : Nat → Nat → Frame → Frame} {s s' : Playout} {label : PlayoutStep}

theorem put_effect {i : Nat} {f : Feed} {q : PlayoutQueue} (own : s.feeds[i]? = some f)
    (queue : s.queues[f.queue]? = some q) (stepped : put s i f q = some s') :
    Effect ramp s (.put i) s' := by
  unfold put at stepped
  cases room : q.full with
  | true => simp [room] at stepped
  | false =>
      rw [room] at stepped
      cases stage : f.stage with
      | receiving toPut =>
          cases toPut with
          | nil => simp [stage] at stepped
          | cons frame toPut =>
              simp only [stage, Bool.false_eq_true, if_false, Option.some.injEq] at stepped
              subst stepped
              exact .put own queue room (.receiving stage)
      | ending toPut =>
          match toPut, stage with
          | [], stage => simp [stage] at stepped
          | [frame], stage =>
              simp only [stage, Bool.false_eq_true, if_false, Option.some.injEq] at stepped
              subst stepped
              exact .put own queue room (.last stage)
          | frame :: next :: toPut, stage =>
              simp only [stage, Bool.false_eq_true, if_false, Option.some.injEq] at stepped
              subst stepped
              exact .put own queue room (.ending stage (by simp))
      | joining _ | returned | raised => simp [stage] at stepped

theorem tick_effect {k : Nat} {q : PlayoutQueue} (own : s.queues[k]? = some q)
    (sleeping : q.pump = .sleeping) : Effect ramp s (.tick k) (s.tick k q) := by
  unfold tick
  split
  · next front => exact .takes own sleeping front
  · next empty => exact .silence own sleeping empty

theorem step_effect (stepped : step ramp s label = some s') : Effect ramp s label s' := by
  cases label with
  | startPump =>
      cases stepped
      exact .startPump
  | enableAmbient =>
      cases stepped
      split
      · next on => exact .ambientOn on
      · next off => exact .enableAmbient off
  | setFadeout ms =>
      cases stepped
      exact .setFadeout ms
  | audioOut =>
      cases stepped
      exact .audioOut
  | stopPump =>
      cases stepped
      exact .stopPump
  | chunk i _ | sourceFails i | joinReturns i | cancel i =>
      cases own : s.feeds[i]? with
      | none => simp [step, own] at stepped
      | some f =>
          simp only [step, own] at stepped
          obtain ⟨ready, rfl⟩ := of_guard stepped
          constructor
          · exact own
          · exact ready
  | endOfStream i =>
      cases own : s.feeds[i]? with
      | none => simp [step, own] at stepped
      | some f =>
          cases queue : s.queues[f.queue]? with
          | none => simp [step, own, queue] at stepped
          | some q =>
              simp only [step, own, queue] at stepped
              obtain ⟨ready, rfl⟩ := of_guard stepped
              exact .endOfStream own queue ready
  | put i =>
      cases own : s.feeds[i]? with
      | none => simp [step, own] at stepped
      | some f =>
          cases queue : s.queues[f.queue]? with
          | none => simp [step, own, queue] at stepped
          | some q =>
              simp only [step, own, queue] at stepped
              exact put_effect own queue stepped
  | tick k =>
      cases own : s.queues[k]? with
      | none => simp [step, own] at stepped
      | some q =>
          simp only [step, own] at stepped
          obtain ⟨sleeping, rfl⟩ := of_guard stepped
          exact tick_effect own sleeping
  | pushed k | notJoined k =>
      cases own : s.queues[k]? with
      | none => simp [step, own] at stepped
      | some q =>
          cases pump : q.pump with
          | sleeping | ended => simp [step, own, pump] at stepped
          | pushing tts =>
              simp only [step, own, pump, Option.some.injEq] at stepped
              subst stepped
              constructor
              · exact own
              · exact pump

end Playout
end IsalesEngine
