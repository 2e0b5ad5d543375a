import Mathlib.Data.List.Basic
import IsalesEngine.Asyncio.System

/-!
The event bus of a call. Events of a type go to the lossless or the lossy lane;
each lane has a dispatcher task that hands its events to the handlers subscribed
to their type, and `aclose` drains the lossless lane before it cancels both
dispatchers. A handler runs in the task that delivers, which keeps the event
loop until an awaitable of a handler suspends or its queue is empty. Handlers
and other tasks may post and subscribe at any time.
-/
namespace IsalesEngine
open Asyncio

inductive Lane where
  | lossless
  | lossy
  deriving DecidableEq, Repr

/-- A `_deliver`: the handlers of its snapshot that have run, the one it awaits, and the others. -/
structure Delivery (ε η : Type) where
  event : ε
  ran : List η := []
  awaited : Option η := none
  left : List η
  deriving DecidableEq, Repr

/-- How a handler ends. An exception that is no `Exception` escapes `_deliver`. -/
inductive HandlerResult where
  | returned
  | raised
  | escaped
  deriving DecidableEq, Repr

/-- A mark of the history: a delivery with its snapshot, and a handler's beginning and end. -/
inductive DeliveryMark (ε η : Type) where
  | began (event : ε) (handlers : List η)
  | called (event : ε) (handler : η)
  | finished (event : ε) (handler : η)
  deriving DecidableEq, Repr

inductive DispatcherTask where
  | absent
  | alive
  | ended
  deriving DecidableEq, Repr

/-- The task that delivers: the dispatcher of a lane, or the one in `aclose`. -/
inductive Worker where
  | dispatcher (lane : Lane)
  | closer
  deriving DecidableEq, Repr

def Worker.lane : Worker → Lane
  | .dispatcher lane => lane
  | .closer => .lossless

/-- A lane with its dispatcher. The last three fields are history variables: the events it
accepted, what the handlers did, and the deliveries that were broken off. -/
structure LaneState (ε η : Type) where
  queue : List ε := []
  task : DispatcherTask := .absent
  dispatching : Option (Delivery ε η) := none
  closing : Option (Delivery ε η) := none
  posted : List ε := []
  journal : List (DeliveryMark ε η) := []
  broken : List (Delivery ε η) := []
  deriving DecidableEq, Repr

namespace LaneState
variable {ε η : Type}

def delivery (l : LaneState ε η) : Worker → Option (Delivery ε η)
  | .dispatcher _ => l.dispatching
  | .closer => l.closing

/-- The delivery of the other task. -/
def other (l : LaneState ε η) : Worker → Option (Delivery ε η)
  | .dispatcher _ => l.closing
  | .closer => l.dispatching

def deliver (l : LaneState ε η) (d : Option (Delivery ε η)) : Worker → LaneState ε η
  | .dispatcher _ => { l with dispatching := d }
  | .closer => { l with closing := d }

def note (l : LaneState ε η) (marks : List (DeliveryMark ε η)) : LaneState ε η :=
  { l with journal := l.journal ++ marks }

def accept (l : LaneState ε η) (e : ε) : LaneState ε η :=
  { l with queue := l.queue ++ [e], posted := l.posted ++ [e] }

/-- The event is off the queue, and the handlers are a snapshot. -/
def take (l : LaneState ε η) (w : Worker) (e : ε) (rest : List ε) (handlers : List η) :
    LaneState ε η :=
  ({ l with queue := rest }.deliver (some { event := e, left := handlers }) w).note
    [.began e handlers]

/-- The delivery is over, or was broken off before all handlers had run. -/
def close (l : LaneState ε η) (w : Worker) (d : Delivery ε η) : LaneState ε η :=
  { l.deliver none w with
    broken := if d.awaited.isNone && d.left.isEmpty then l.broken else l.broken ++ [d] }

/-- `task.cancel()`, which also ends the handler it awaits. -/
def cancel (l : LaneState ε η) : LaneState ε η :=
  if l.task = .alive then
    { l with
      task := .ended, dispatching := none, broken := l.broken ++ l.dispatching.toList }
  else l

end LaneState

/-- Where `aclose` stands. -/
inductive ClosePhase where
  | opened
  | draining
  | gathering
  | returned
  | raised
  deriving DecidableEq, Repr

/-- `aclose` takes no more events off the queue. -/
def ClosePhase.over : ClosePhase → Bool
  | .opened | .draining => false
  | .gathering | .returned | .raised => true

/-- `running` is the delivering task that holds the event loop, if one does. -/
structure EventBus (ε τ η : Type) where
  lanes : List (τ × Lane) := []
  handlers : List (τ × η) := []
  lossless : LaneState ε η := {}
  lossy : LaneState ε η := {}
  dropped : Nat := 0
  phase : ClosePhase := .opened
  pending : Nat := 0
  running : Option Worker := none
  deriving DecidableEq, Repr

structure EventBusConfig (ε τ : Type) where
  typeOf : ε → τ
  lossyMaxsize : Nat := 256

/-- A section of one of the tasks. `none` as the result of a call: the handler's awaitable
suspends. -/
inductive BusStep (ε τ η : Type) where
  | registerLane (type : τ) (lane : Lane)
  | subscribe (type : τ) (handler : η)
  | unsubscribe (type : τ) (handler : η)
  | post (event : ε)
  | start
  | take (lane : Lane)
  | call (worker : Worker) (result : Option HandlerResult)
  | resume (worker : Worker) (result : HandlerResult)
  | delivered (worker : Worker)
  | aclose
  | drain
  | cancelTasks
  | gathered
  deriving DecidableEq, Repr

namespace EventBus
variable {ε τ η : Type} [DecidableEq τ] [DecidableEq η]

def lane (s : EventBus ε τ η) : Lane → LaneState ε η
  | .lossless => s.lossless
  | .lossy => s.lossy

def setLane (s : EventBus ε τ η) (l : LaneState ε η) : Lane → EventBus ε τ η
  | .lossless => { s with lossless := l }
  | .lossy => { s with lossy := l }

/-- Both the names with a lossless suffix and the unknown ones default to the lossless lane. -/
def laneFor (s : EventBus ε τ η) (type : τ) : Lane :=
  (s.lanes.lookup type).getD .lossless

def handlersFor (s : EventBus ε τ η) (type : τ) : List η :=
  (s.handlers.filter fun entry => entry.1 = type).map Prod.snd

def lossyFull (cfg : EventBusConfig ε τ) (queue : List ε) : Bool :=
  decide (0 < cfg.lossyMaxsize) && decide (cfg.lossyMaxsize ≤ queue.length)

/-- Drop-oldest when the lane is full. -/
def postLossy (cfg : EventBusConfig ε τ) (s : EventBus ε τ η) (e : ε) : EventBus ε τ η :=
  if lossyFull cfg s.lossy.queue then
    let s := match s.lossy.queue with
      | [] => s
      | _ :: rest => { s with lossy.queue := rest, dropped := s.dropped + 1 }
    if lossyFull cfg s.lossy.queue then { s with dropped := s.dropped + 1 }
    else { s with lossy := s.lossy.accept e }
  else { s with lossy := s.lossy.accept e }

def post (cfg : EventBusConfig ε τ) (s : EventBus ε τ η) (e : ε) : EventBus ε τ η :=
  if s.phase != .opened then s
  else match s.laneFor (cfg.typeOf e) with
    | .lossless => { s with lossless := s.lossless.accept e }
    | .lossy => postLossy cfg s e

def start (s : EventBus ε τ η) : EventBus ε τ η :=
  if s.lossless.task = .absent then
    { s with lossless.task := .alive, lossy.task := .alive }
  else s

def take (cfg : EventBusConfig ε τ) (s : EventBus ε τ η) (w : Worker) (e : ε) (rest : List ε) :
    EventBus ε τ η :=
  { s.setLane ((s.lane w.lane).take w e rest (s.handlersFor (cfg.typeOf e))) w.lane with
    running := some w }

/-- The exception leaves the dispatcher task, or `aclose`. -/
def escape (s : EventBus ε τ η) (w : Worker) (d : Delivery ε η) : EventBus ε τ η :=
  let s := { s.setLane ((s.lane w.lane).close w d) w.lane with running := none }
  match w with
  | .dispatcher .lossless => { s with lossless.task := .ended }
  | .dispatcher .lossy => { s with lossy.task := .ended }
  | .closer => { s with phase := .raised }

/-- A handler has ended, and `d` is what is left of the delivery. -/
def ran (s : EventBus ε τ η) (w : Worker) (d : Delivery ε η) (marks : List (DeliveryMark ε η)) :
    HandlerResult → EventBus ε τ η
  | .escaped => (s.setLane ((s.lane w.lane).note marks) w.lane).escape w d
  | .returned | .raised =>
      { s.setLane (((s.lane w.lane).note marks).deliver (some d) w) w.lane with
        running := some w }

def call (s : EventBus ε τ η) (w : Worker) (d : Delivery ε η) (h : η) (left : List η) :
    Option HandlerResult → EventBus ε τ η
  | none =>
      let l := (s.lane w.lane).note [.called d.event h]
      { s.setLane (l.deliver (some { d with awaited := some h, left }) w) w.lane with
        running := none }
  | some result =>
      s.ran w { d with ran := d.ran ++ [h], left } [.called d.event h, .finished d.event h] result

def resume (s : EventBus ε τ η) (w : Worker) (d : Delivery ε η) (h : η) (result : HandlerResult) :
    EventBus ε τ η :=
  s.ran w { d with ran := d.ran ++ [h], awaited := none } [.finished d.event h] result

/-- A dispatcher goes on at once with the next event, and waits only on an empty queue. -/
def delivered (s : EventBus ε τ η) (w : Worker) (d : Delivery ε η) : EventBus ε τ η :=
  { s.setLane ((s.lane w.lane).close w d) w.lane with
    running := if w = .closer || !(s.lane w.lane).queue.isEmpty then some w else none }

def aclose (s : EventBus ε τ η) : EventBus ε τ η :=
  if s.phase != .opened then s
  else { s with
    phase := .draining, pending := s.lossless.queue.length, running := some .closer }

def step (cfg : EventBusConfig ε τ) (s : EventBus ε τ η) :
    BusStep ε τ η → Option (EventBus ε τ η)
  | .registerLane type lane => some { s with lanes := (type, lane) :: s.lanes }
  | .subscribe type handler => some { s with handlers := s.handlers ++ [(type, handler)] }
  | .unsubscribe type handler => some { s with handlers := s.handlers.erase (type, handler) }
  | .post e => some (s.post cfg e)
  | .start => some s.start
  | .take lane => match (s.lane lane).queue with
      | e :: rest =>
          if (s.lane lane).task = .alive ∧ (s.lane lane).dispatching.isNone ∧
              (s.running = none ∨ s.running = some (.dispatcher lane)) then
            some (s.take cfg (.dispatcher lane) e rest)
          else none
      | [] => none
  | .call w result => match (s.lane w.lane).delivery w with
      | some d => match d.left with
          | h :: left =>
              if d.awaited = none ∧ s.running = some w then some (s.call w d h left result)
              else none
          | [] => none
      | none => none
  | .resume w result => match (s.lane w.lane).delivery w with
      | some d => match d.awaited with
          | some h => if s.running = none then some (s.resume w d h result) else none
          | none => none
      | none => none
  | .delivered w => match (s.lane w.lane).delivery w with
      | some d =>
          if d.awaited = none ∧ d.left = [] ∧ s.running = some w then some (s.delivered w d)
          else none
      | none => none
  | .aclose => if s.running = none then some s.aclose else none
  | .drain => match s.pending, s.lossless.queue with
      | n + 1, e :: rest =>
          if s.phase = .draining ∧ s.lossless.closing.isNone ∧ s.running = some .closer then
            some { s.take cfg .closer e rest with pending := n }
          else none
      | _, _ => none
  | .cancelTasks =>
      if s.phase = .draining ∧ s.lossless.closing.isNone ∧ s.running = some .closer ∧
          (s.pending = 0 ∨ s.lossless.queue.isEmpty) then
        some { s with
          lossless := s.lossless.cancel, lossy := s.lossy.cancel
          phase := if s.lossless.task = .absent then .returned else .gathering
          running := none }
      else none
  | .gathered =>
      if s.phase = .gathering then
        some { s with lossless.task := .absent, lossy.task := .absent, phase := .returned }
      else none

def system (cfg : EventBusConfig ε τ) : System (EventBus ε τ η) (BusStep ε τ η) := ⟨step cfg⟩

end EventBus
end IsalesEngine
