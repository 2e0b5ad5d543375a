import IsalesEngine.Asyncio.Weave
import IsalesEngine.Realtime.CallEvents
import IsalesEngine.Transport.EdgeRegistry

/-!
What the edges send, and the calls it reaches. The reader of a connection maps the
devices of a heartbeat to its edge, whoever has reported them before, and then
hands the frame to the dispatcher, which delivers it only to a call registered for
the same edge. A dial resolves the edge of its device, registers the call for it
and sends the DialCommand there. Call ids are those of fresh rows, so none is
dialed twice.
-/
namespace IsalesEngine
open Asyncio

/-- The payload of an `Edge2Cloud`. `other` are alerts, and empty and unknown payloads. -/
inductive EdgeFrame (δ : Type) where
  | callEvent (callId : Nat) (kind : CallEventKind)
  | dialAck (callId : Nat) (accepted : Bool) (reason : String)
  | heartbeat (devices : List δ)
  | other

structure DialCommand (δ : Type) where
  callId : Nat
  deviceId : δ
  number : String
  rtcToken : String
  deriving DecidableEq, Repr

/-- A call that is registered for an edge. `reporters` is a history variable: the edges that had
reported the device when it was dialed. -/
structure BoundCall (ε δ : Type) where
  edge : ε
  command : DialCommand δ
  sending : Bool := true
  reporters : List ε

/-- What the dispatcher has handed to a call that is registered for `edge`. -/
structure CallDelivery (ε : Type) where
  callId : Nat
  edge : ε
  event : CallEventsStep
  deriving DecidableEq, Repr

structure SentDial (ε δ : Type) where
  edge : ε
  command : DialCommand δ
  reporters : List ε

/-- `reports`, `delivered` and `sent` are history variables. -/
structure EdgeTraffic (ε δ : Type) where
  registry : EdgeRegistry ε δ := {}
  sessions : Nat → Option (BoundCall ε δ) := fun _ => none
  dialed : List Nat := []
  reports : List (ε × δ) := []
  delivered : List (CallDelivery ε) := []
  sent : List (SentDial ε δ) := []

/-- What happens to a connection, a frame that is read from it, and the sections of a call. A step
that is not due changes nothing. -/
inductive TrafficStep (ε δ : Type) where
  | connect (edge : ε)
  | readerEnds (connection : Nat)
  | unwind (connection : Nat)
  | disconnect (connection : Nat)
  | frame (connection : Nat) (frame : EdgeFrame δ)
  | dial (callId : Nat) (device : δ) (number rtcToken : String)
  | sendDial (callId : Nat) (accepted : Bool)
  | purge (callId : Nat)

namespace EdgeTraffic
variable {ε δ : Type} [DecidableEq ε] [DecidableEq δ]

def resolveEdgeForDevice (s : EdgeTraffic ε δ) (device : δ) : Option ε :=
  s.registry.deviceToEdge device

/-- `stream is not None and stream.connected`. -/
def connected (s : EdgeTraffic ε δ) (edge : ε) : Bool :=
  match s.registry.streams edge with
  | some i => s.registry.connections[i]?.any fun c => !c.closed
  | none => false

def onRegistry (s : EdgeTraffic ε δ) (step : RegistryStep ε δ) : EdgeTraffic ε δ :=
  { s with registry := (s.registry.step step).getD s.registry }

/-- `_dispatch_call_event` and `_dispatch_dial_ack`. -/
def dispatch (s : EdgeTraffic ε δ) (identity : ε) (callId : Nat) (event : CallEventsStep) :
    EdgeTraffic ε δ :=
  match s.sessions callId with
  | none => s
  | some entry =>
      if entry.edge = identity then
        { s with delivered := s.delivered ++ [⟨callId, entry.edge, event⟩] }
      else s

def handleEdgeMessage (s : EdgeTraffic ε δ) (identity : ε) : EdgeFrame δ → EdgeTraffic ε δ
  | .callEvent callId kind => s.dispatch identity callId (.callEvent kind)
  | .dialAck callId accepted reason => s.dispatch identity callId (.dialAck accepted reason)
  | .heartbeat _ | .other => s

/-- The mapping from a heartbeat, before the frame is dispatched. -/
def mapHeartbeat (s : EdgeTraffic ε δ) (identity : ε) : EdgeFrame δ → EdgeTraffic ε δ
  | .heartbeat devices => { s with
      registry := s.registry.mapDevices identity devices
      reports := s.reports ++ devices.map fun d => (identity, d) }
  | _ => s

/-- One turn of `_reader_loop`. -/
def read (s : EdgeTraffic ε δ) (connection : Nat) (frame : EdgeFrame δ) : EdgeTraffic ε δ :=
  match s.registry.connections[connection]? with
  | some c =>
      if c.reading = true then (s.mapHeartbeat c.edge frame).handleEdgeMessage c.edge frame else s
  | none => s

/-- The edges that have reported the device. -/
def reporters (s : EdgeTraffic ε δ) (device : δ) : List ε :=
  (s.reports.filter (·.2 = device)).map Prod.fst

/-- From the join to the DialCommand; an edge that cannot be resolved makes the dial raise. -/
def dial (legacyEdge : Option ε) (s : EdgeTraffic ε δ) (command : DialCommand δ) :
    EdgeTraffic ε δ :=
  if command.callId ∈ s.dialed then s
  else { s with
    dialed := command.callId :: s.dialed
    sessions := match legacyEdge.or (s.resolveEdgeForDevice command.deviceId) with
      | none => s.sessions
      | some edge =>
          let call : BoundCall ε δ := { edge, command, reporters := s.reporters command.deviceId }
          Function.update s.sessions command.callId (some call) }

/-- `_purge_call`. -/
def purgeCall (s : EdgeTraffic ε δ) (callId : Nat) : EdgeTraffic ε δ :=
  { s with sessions := Function.update s.sessions callId none }

/-- `send_to_edge` with the DialCommand. A dial to an edge that is not connected, or whose stream
does not accept it in time, is unwound. -/
def sendDial (s : EdgeTraffic ε δ) (callId : Nat) (accepted : Bool) : EdgeTraffic ε δ :=
  match s.sessions callId with
  | none => s
  | some call =>
      if call.sending = true then
        if (s.connected call.edge && accepted) = true then
          { s with
            sessions := Function.update s.sessions callId (some { call with sending := false })
            sent := s.sent ++ [⟨call.edge, call.command, call.reporters⟩] }
        else s.purgeCall callId
      else s

def step (legacyEdge : Option ε) (s : EdgeTraffic ε δ) : TrafficStep ε δ → EdgeTraffic ε δ
  | .connect edge => s.onRegistry (.register edge)
  | .readerEnds i => s.onRegistry (.readerEnds i)
  | .unwind i => s.onRegistry (.unwind i)
  | .disconnect i => s.onRegistry (.deregister i)
  | .frame i frame => s.read i frame
  | .dial callId device number rtcToken => s.dial legacyEdge ⟨callId, device, number, rtcToken⟩
  | .sendDial callId accepted => s.sendDial callId accepted
  | .purge callId => s.purgeCall callId

def run (legacyEdge : Option ε) (steps : List (TrafficStep ε δ)) : EdgeTraffic ε δ :=
  steps.foldl (step legacyEdge) {}

/-- What the calls registered for the edge were given. -/
def deliveredTo (s : EdgeTraffic ε δ) (edge : ε) : List (CallDelivery ε) :=
  s.delivered.filter (·.edge = edge)

/-- The DialCommands for devices that the edge had reported, with the edges they were sent to. -/
def sentFor (s : EdgeTraffic ε δ) (edge : ε) : List (ε × DialCommand δ) :=
  (s.sent.filter fun d => decide (edge ∈ d.reporters)).map fun d => (d.edge, d.command)

/-- The edge sees the same in both states: what its calls were given, where its devices are
mapped to, and where their DialCommands went. -/
structure SameFor (edge : ε) (s t : EdgeTraffic ε δ) : Prop where
  delivered : s.deliveredTo edge = t.deliveredTo edge
  resolved : ∀ d, (edge, d) ∈ t.reports → s.resolveEdgeForDevice d = t.resolveEdgeForDevice d
  sent : s.sentFor edge = t.sentFor edge

end EdgeTraffic
end IsalesEngine
