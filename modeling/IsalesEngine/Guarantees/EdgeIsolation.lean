import IsalesEngine.Transport.SessionDispatcher

/-!
What one edge can do to another. The messages of an edge reach no call of another
edge, and they move no device of it either unless a heartbeat lists one: the map of
devices belongs to whoever has reported last.
-/
namespace IsalesEngine
open Asyncio

/-- Two registries with the same connections that map the devices in `known` alike; only those are
mapped to the edge. -/
structure EdgeRegistry.Aligned {ε δ : Type} (known : δ → Prop) (edge : ε)
    (r r' : EdgeRegistry ε δ) : Prop where
  connections : r.connections = r'.connections
  streams : r.streams = r'.streams
  devices : ∀ d, known d → r.deviceToEdge d = r'.deviceToEdge d
  own : ∀ d, r.deviceToEdge d = some edge → known d
  own' : ∀ d, r'.deviceToEdge d = some edge → known d

namespace EdgeRegistry.Aligned
variable {ε δ : Type} {known : δ → Prop} {edge : ε} {r r' : EdgeRegistry ε δ}

variable (aligned : Aligned known edge r r')
include aligned

theorem congr {q q' : EdgeRegistry ε δ} (connections : q.connections = q'.connections)
    (streams : q.streams = q'.streams) (devices : q.deviceToEdge = r.deviceToEdge)
    (devices' : q'.deviceToEdge = r'.deviceToEdge) : Aligned known edge q q' := by
  refine ⟨connections, streams, ?_, ?_, ?_⟩
  · rw [devices, devices']
    exact aligned.devices
  · rw [devices]
    exact aligned.own
  · rw [devices']
    exact aligned.own'

theorem register [DecidableEq ε] (other : ε) :
    Aligned known edge (r.registerStream other) (r'.registerStream other) := by
  refine aligned.congr ?_ ?_ (displace_fields other).2.1 (displace_fields other).2.1
  · simp only [registerStream, displace, closeStream, setConnection, aligned.connections,
      aligned.streams]
    split
    · split
      · rfl
      · exact congrArg (· ++ _) aligned.connections
    · exact congrArg (· ++ _) aligned.connections
  · rw [register_streams, register_streams, aligned.streams, aligned.connections]

theorem setConnection (i : Nat) (c : EdgeConnection ε) :
    Aligned known edge (r.setConnection i c) (r'.setConnection i c) :=
  aligned.congr (congrArg (·.set i c) aligned.connections) aligned.streams rfl rfl

theorem deregister [DecidableEq ε] (other : ε) (i : Nat) :
    Aligned known edge (r.deregisterStream other i) (r'.deregisterStream other i) := by
  have streams : (r.deregisterStream other i).streams = (r'.deregisterStream other i).streams := by
    funext e
    rw [deregister_streams, deregister_streams, aligned.streams]
  refine ⟨?_, streams, ?_, ?_, ?_⟩
  · rw [deregister_connections, deregister_connections, aligned.connections]
  · intro d here
    rw [deregister_devices, deregister_devices, streams, aligned.devices d here]
  · intro d mapped
    rw [deregister_devices] at mapped
    exact aligned.own d (Option.ite_none_left_eq_some.mp mapped).2
  · intro d mapped
    rw [deregister_devices] at mapped
    exact aligned.own' d (Option.ite_none_left_eq_some.mp mapped).2

end EdgeRegistry.Aligned

/-- What is seen of a call by an edge that it is registered for, or that had reported its device. -/
def BoundCall.seenBy {ε δ : Type} [DecidableEq ε] (edge : ε) (call : BoundCall ε δ) :
    Option (ε × DialCommand δ × Bool × Bool) :=
  if call.edge = edge ∨ edge ∈ call.reporters then
    some (call.edge, call.command, call.sending, decide (edge ∈ call.reporters))
  else none

/-- What the answer to the DialCommand makes of it. -/
def afterSend {ε δ : Type} (delivers : ε → Bool) :
    ε × DialCommand δ × Bool × Bool → Option (ε × DialCommand δ × Bool × Bool)
  | (e, command, true, known) => if delivers e then some (e, command, false, known) else none
  | seen => some seen

/-- The DialCommand that is sent, if it is for a device of the edge. -/
def sentDial {ε δ : Type} (delivers : ε → Bool) :
    ε × DialCommand δ × Bool × Bool → List (ε × DialCommand δ)
  | (e, command, true, true) => if delivers e then [(e, command)] else []
  | _ => []

namespace EdgeTraffic
variable {ε δ : Type} [DecidableEq ε]

/-- What the edge sees of the call. -/
def seenCall (s : EdgeTraffic ε δ) (edge : ε) (callId : Nat) :
    Option (ε × DialCommand δ × Bool × Bool) :=
  (s.sessions callId).bind (BoundCall.seenBy edge)

/-- The edge cannot tell the two states apart, nor what follows from them. -/
structure Aligned (edge : ε) (s t : EdgeTraffic ε δ) : Prop where
  registry : EdgeRegistry.Aligned (fun d => (edge, d) ∈ t.reports) edge s.registry t.registry
  reports : ∀ d, (edge, d) ∈ s.reports ↔ (edge, d) ∈ t.reports
  dialed : s.dialed = t.dialed
  fresh : ∀ c, c ∉ s.dialed → s.seenCall edge c = none
  sessions : ∀ c, s.seenCall edge c = t.seenCall edge c
  delivered : s.deliveredTo edge = t.deliveredTo edge
  sent : s.sentFor edge = t.sentFor edge

section Sections
variable {edge identity : ε} {s t : EdgeTraffic ε δ}

omit [DecidableEq ε] in
theorem mem_reporters [DecidableEq δ] {d : δ} : edge ∈ s.reporters d ↔ (edge, d) ∈ s.reports := by
  simp [reporters]

/-- Whether a call is registered for the edge is seen by it. -/
theorem seenCall_any (c : Nat) : (s.sessions c).any (·.edge = edge) =
    (s.seenCall edge c).any (·.1 = edge) := by
  unfold seenCall
  cases s.sessions c with
  | none => rfl
  | some call => by_cases own : call.edge = edge <;> simp [BoundCall.seenBy, own, apply_ite]

/-- What an event of `identity` for a call is handed to: the call, if it is registered for it. -/
def handed (s : EdgeTraffic ε δ) (identity : ε) (c : Nat) (event : CallEventsStep) :
    List (CallDelivery ε) :=
  if (s.sessions c).any (·.edge = identity) then [⟨c, identity, event⟩] else []

theorem dispatch_eq (s : EdgeTraffic ε δ) (identity : ε) (c : Nat) (event : CallEventsStep) :
    s.dispatch identity c event =
      { s with delivered := s.delivered ++ s.handed identity c event } := by
  unfold dispatch handed
  cases s.sessions c with
  | none => simp
  | some call =>
      by_cases own : call.edge = identity
      · simp [own]
      · simp [own]

theorem handed_filter (c : Nat) (event : CallEventsStep) :
    (s.handed identity c event).filter (·.edge = edge) =
      if identity = edge ∧ (s.seenCall edge c).any (·.1 = edge) = true then [⟨c, edge, event⟩]
      else [] := by
  rw [← seenCall_any]
  unfold handed
  by_cases own : identity = edge
  · subst own
    by_cases bound : (s.sessions c).any (·.edge = identity) = true
    · simp [bound]
    · simp [bound]
  · by_cases bound : (s.sessions c).any (·.edge = identity) = true
    · simp [bound, own]
    · simp [bound, own]

omit [DecidableEq ε] in
theorem mem_reports_heartbeat {devices : List δ} {d : δ} :
    (edge, d) ∈ t.reports ++ devices.map (fun d => (identity, d)) ↔
      (edge, d) ∈ t.reports ∨ d ∈ devices ∧ identity = edge := by
  simp

omit [DecidableEq ε] in
theorem mapHeartbeat_device [DecidableEq δ] {devices : List δ} {d : δ} :
    (s.mapHeartbeat identity (.heartbeat devices)).registry.deviceToEdge d =
      if d ∈ devices then some identity else s.registry.deviceToEdge d :=
  EdgeRegistry.mapDevices_mem

/-- The devices that a frame maps to its sender, of those that the edge has reported. -/
def takes (s : EdgeTraffic ε δ) (edge identity : ε) : EdgeFrame δ → Prop
  | .heartbeat devices => ∃ d ∈ devices, (edge, d) ∈ s.reports ∧
      s.resolveEdgeForDevice d ≠ some identity
  | _ => False

/-- What the edge sees of a dial: the call it is for, with the edge that was resolved. -/
theorem dial_seen [DecidableEq δ] {legacyEdge : Option ε} {command : DialCommand δ}
    (fresh : ∀ c, c ∉ s.dialed → s.seenCall edge c = none) (c : Nat) :
    (s.dial legacyEdge command).seenCall edge c =
      if c = command.callId ∧ command.callId ∉ s.dialed then
        (legacyEdge.or (s.resolveEdgeForDevice command.deviceId)).bind fun e =>
          BoundCall.seenBy edge ⟨e, command, true, s.reporters command.deviceId⟩
      else s.seenCall edge c := by
  unfold dial
  by_cases again : command.callId ∈ s.dialed
  · simp [again]
  · simp only [again, if_false, not_false_eq_true, and_true, seenCall]
    by_cases here : c = command.callId
    · subst here
      cases legacyEdge.or (s.resolveEdgeForDevice command.deviceId) with
      | none => simpa only [if_true, Option.bind_none, seenCall] using fresh _ again
      | some e => simp
    · cases legacyEdge.or (s.resolveEdgeForDevice command.deviceId) with
      | none | some e => simp [here]

theorem purgeCall_seen (c d : Nat) :
    (s.purgeCall d).seenCall edge c = if c = d then none else s.seenCall edge c := by
  by_cases here : c = d
  · simp [purgeCall, seenCall, here]
  · simp [purgeCall, seenCall, here]

/-- What the edge sees of the answer to a DialCommand depends on what it saw of the call. -/
theorem sendDial_seen (c : Nat) (accepted : Bool) (d : Nat) :
    (s.sendDial c accepted).seenCall edge d = if d = c then
        (s.seenCall edge c).bind (afterSend fun e => s.connected e && accepted)
      else s.seenCall edge d := by
  by_cases here : d = c
  · subst here
    rw [if_pos rfl]
    unfold sendDial seenCall
    cases bound : s.sessions d with
    | none => simp [bound]
    | some call =>
        by_cases mine : call.edge = edge ∨ edge ∈ call.reporters
        · by_cases sending : call.sending = true
          · by_cases delivers : (s.connected call.edge && accepted) = true
            · simp [BoundCall.seenBy, afterSend, mine, sending, delivers]
            · simp [BoundCall.seenBy, afterSend, mine, sending, delivers, purgeCall]
          · simp [BoundCall.seenBy, afterSend, mine, sending, bound]
        · by_cases sending : call.sending = true
          · by_cases delivers : (s.connected call.edge && accepted) = true
            · simp [BoundCall.seenBy, mine, sending, delivers]
            · simp [BoundCall.seenBy, mine, sending, delivers, purgeCall]
          · simp [BoundCall.seenBy, mine, sending, bound]
  · rw [if_neg here]
    unfold sendDial seenCall
    cases s.sessions c with
    | none => rfl
    | some call =>
        dsimp only
        split
        · split
          · simp [here]
          · simp [here, purgeCall]
        · rfl

theorem sendDial_sentFor (c : Nat) (accepted : Bool) :
    (s.sendDial c accepted).sentFor edge = s.sentFor edge ++
      ((s.seenCall edge c).map (sentDial fun e => s.connected e && accepted)).getD [] := by
  unfold sendDial seenCall
  cases s.sessions c with
  | none => simp
  | some call =>
      by_cases mine : edge ∈ call.reporters
      · by_cases sending : call.sending = true
        · by_cases delivers : (s.connected call.edge && accepted) = true
          · simp [BoundCall.seenBy, sentDial, mine, sending, delivers, sentFor]
          · simp [BoundCall.seenBy, sentDial, mine, sending, delivers, purgeCall, sentFor]
        · simp [BoundCall.seenBy, sentDial, mine, sending]
      · have unseen : ((call.seenBy edge).map
            (sentDial fun e => s.connected e && accepted)).getD [] = [] := by
          by_cases own : call.edge = edge
          · cases call.sending <;> simp [BoundCall.seenBy, sentDial, mine, own]
          · simp [BoundCall.seenBy, mine, own]
        rw [Option.bind_some, unseen, List.append_nil]
        dsimp only
        split
        · split
          · simp [sentFor, mine]
          · rfl
        · rfl

namespace Aligned
variable (aligned : Aligned edge s t)
include aligned

theorem same : SameFor edge s t := ⟨aligned.delivered, aligned.registry.devices, aligned.sent⟩

theorem withRegistry {r r' : EdgeRegistry ε δ}
    (registry : EdgeRegistry.Aligned (fun d => (edge, d) ∈ t.reports) edge r r') :
    Aligned edge { s with registry := r } { t with registry := r' } := { aligned with registry }

theorem dispatch (identity : ε) (c : Nat) (event : CallEventsStep) :
    Aligned edge (s.dispatch identity c event) (t.dispatch identity c event) := by
  rw [dispatch_eq, dispatch_eq]
  refine { aligned with delivered := ?_ }
  rw [deliveredTo, List.filter_append, handed_filter, deliveredTo, List.filter_append,
    handed_filter, aligned.sessions c]
  exact congrArg (· ++ _) aligned.delivered

/-- A frame of another edge is handed to no call of this one. -/
theorem dispatchOther (other : identity ≠ edge) (c : Nat) (event : CallEventsStep) :
    Aligned edge s (t.dispatch identity c event) := by
  rw [dispatch_eq]
  refine { aligned with delivered := ?_ }
  rw [aligned.delivered, deliveredTo, deliveredTo, List.filter_append, handed_filter,
    if_neg fun own => other own.1, List.append_nil]

theorem handleEdgeMessage (identity : ε) (frame : EdgeFrame δ) :
    Aligned edge (s.handleEdgeMessage identity frame) (t.handleEdgeMessage identity frame) := by
  cases frame with
  | callEvent c kind | dialAck c accepted reason => exact aligned.dispatch identity c _
  | heartbeat devices | other => exact aligned

theorem handleOther (other : identity ≠ edge) (frame : EdgeFrame δ) :
    Aligned edge s (t.handleEdgeMessage identity frame) := by
  cases frame with
  | callEvent c kind | dialAck c accepted reason => exact aligned.dispatchOther other c _
  | heartbeat devices | other => exact aligned

/-- A heartbeat maps the same devices in both runs. -/
theorem mapHeartbeat [DecidableEq δ] (identity : ε) (frame : EdgeFrame δ) :
    Aligned edge (s.mapHeartbeat identity frame) (t.mapHeartbeat identity frame) := by
  cases frame with
  | heartbeat devices =>
      refine { aligned with
        registry := ⟨aligned.registry.connections, aligned.registry.streams, ?_, ?_, ?_⟩
        reports := fun d => ?_ }
      · intro d known
        rw [mapHeartbeat_device, mapHeartbeat_device]
        split
        · rfl
        · rename_i unlisted
          obtain old | ⟨listed, -⟩ := mem_reports_heartbeat.mp known
          · exact aligned.registry.devices d old
          · exact absurd listed unlisted
      · intro d mapped
        rw [mapHeartbeat_device] at mapped
        refine mem_reports_heartbeat.mpr ?_
        split at mapped
        · exact .inr ⟨‹_›, Option.some.inj mapped⟩
        · exact .inl (aligned.registry.own d mapped)
      · intro d mapped
        rw [mapHeartbeat_device] at mapped
        refine mem_reports_heartbeat.mpr ?_
        split at mapped
        · exact .inr ⟨‹_›, Option.some.inj mapped⟩
        · exact .inl (aligned.registry.own' d mapped)
      · exact mem_reports_heartbeat.trans ((or_congr_left (aligned.reports d)).trans
          mem_reports_heartbeat.symm)
  | callEvent _ _ | dialAck _ _ _ | other => exact aligned

/-- A heartbeat of another edge that takes none of the devices of this one. -/
theorem mapOther [DecidableEq δ] (other : identity ≠ edge) {frame : EdgeFrame δ}
    (fair : ¬ t.takes edge identity frame) : Aligned edge s (t.mapHeartbeat identity frame) := by
  cases frame with
  | heartbeat devices =>
      have known (d : δ) : (edge, d) ∈ t.reports ++ devices.map (fun d => (identity, d)) ↔
          (edge, d) ∈ t.reports := by
        rw [mem_reports_heartbeat, or_iff_left fun new => other new.2]
      refine { aligned with
        registry := ⟨aligned.registry.connections, aligned.registry.streams, ?_, ?_, ?_⟩
        reports := fun d => (aligned.reports d).trans (known d).symm }
      · intro d mine
        rw [mapHeartbeat_device, aligned.registry.devices d ((known d).mp mine)]
        split
        · rename_i listed
          by_contra taken
          exact fair ⟨d, listed, (known d).mp mine, taken⟩
        · rfl
      · exact fun d mapped => (known d).mpr (aligned.registry.own d mapped)
      · intro d mapped
        rw [mapHeartbeat_device] at mapped
        split at mapped
        · exact absurd (Option.some.inj mapped) other
        · exact (known d).mpr (aligned.registry.own' d mapped)
  | callEvent _ _ | dialAck _ _ _ | other => exact aligned

theorem read [DecidableEq δ] (i : Nat) (frame : EdgeFrame δ) :
    Aligned edge (s.read i frame) (t.read i frame) := by
  unfold EdgeTraffic.read
  rw [aligned.registry.connections]
  split
  · split
    · exact (aligned.mapHeartbeat _ frame).handleEdgeMessage _ frame
    · exact aligned
  · exact aligned

/-- What a connection does by itself. -/
theorem onConnection [DecidableEq δ] (i : Nat) :
    Aligned edge (s.onRegistry (.readerEnds i)) (t.onRegistry (.readerEnds i)) ∧
      Aligned edge (s.onRegistry (.unwind i)) (t.onRegistry (.unwind i)) ∧
      Aligned edge (s.onRegistry (.deregister i)) (t.onRegistry (.deregister i)) := by
  simp only [onRegistry, EdgeRegistry.step, aligned.registry.connections]
  cases t.registry.connections[i]? with
  | none => exact ⟨aligned, aligned, aligned⟩
  | some c =>
      refine ⟨?_, ?_, ?_⟩
      · dsimp only
        split
        · exact aligned.withRegistry (aligned.registry.setConnection i _)
        · exact aligned
      · dsimp only
        split
        · exact aligned.withRegistry (aligned.registry.setConnection i _)
        · exact aligned
      · dsimp only
        split
        · exact aligned.withRegistry ((aligned.registry.setConnection i _).deregister c.edge i)
        · exact aligned

theorem connected_eq : s.connected = t.connected := by
  funext e
  rw [connected, connected, aligned.registry.connections, aligned.registry.streams]

theorem dial [DecidableEq δ] (legacyEdge : Option ε) (command : DialCommand δ) :
    Aligned edge (s.dial legacyEdge command) (t.dial legacyEdge command) := by
  have fresh : ∀ c, c ∉ t.dialed → t.seenCall edge c = none := fun c new =>
    (aligned.sessions c).symm.trans (aligned.fresh c (aligned.dialed ▸ new))
  have seen (c : Nat) : (s.dial legacyEdge command).seenCall edge c =
      (t.dial legacyEdge command).seenCall edge c := by
    rw [dial_seen aligned.fresh, dial_seen fresh, aligned.dialed, aligned.sessions]
    refine congrArg (ite _ · _) ?_
    have reporters : edge ∈ s.reporters command.deviceId ↔ edge ∈ t.reporters command.deviceId := by
      rw [mem_reporters, mem_reporters, aligned.reports]
    simp only [BoundCall.seenBy, reporters]
    by_cases known : (edge, command.deviceId) ∈ t.reports
    · rw [resolveEdgeForDevice, aligned.registry.devices _ known]
      rfl
    · -- Only the devices it has reported are mapped to the edge.
      have away {r : EdgeRegistry ε δ} (own : ∀ d, r.deviceToEdge d = some edge →
          (edge, d) ∈ t.reports) : ((r.deviceToEdge command.deviceId).bind fun e =>
            if e = edge then some (e, command, true, decide False) else none) = none := by
        rw [Option.bind_eq_none_iff]
        rintro e mapped
        rw [if_neg]
        rintro rfl
        exact known (own _ mapped)
      simp only [mem_reporters, known, or_false]
      cases legacyEdge with
      | some e => rfl
      | none => exact (away aligned.registry.own).trans (away aligned.registry.own').symm
  have dialed (u : EdgeTraffic ε δ) : (u.dial legacyEdge command).dialed =
      if command.callId ∈ u.dialed then u.dialed else command.callId :: u.dialed := by
    unfold EdgeTraffic.dial
    split <;> rfl
  have frame (u : EdgeTraffic ε δ) : u.dial legacyEdge command = { u with
      dialed := (u.dial legacyEdge command).dialed
      sessions := (u.dial legacyEdge command).sessions } := by
    unfold EdgeTraffic.dial
    split <;> rfl
  rw [frame s, frame t]
  refine { aligned with dialed := ?_, fresh := ?_, sessions := seen }
  · rw [dialed, dialed, aligned.dialed]
  · intro c new
    rw [dialed] at new
    show (s.dial legacyEdge command).seenCall edge c = none
    rw [dial_seen aligned.fresh]
    by_cases again : command.callId ∈ s.dialed
    · rw [if_pos again] at new
      rw [if_neg fun first => first.2 again, aligned.fresh c new]
    · rw [if_neg again, List.mem_cons, not_or] at new
      rw [if_neg fun same => new.1 same.1, aligned.fresh c new.2]

theorem purgeCall (c : Nat) : Aligned edge (s.purgeCall c) (t.purgeCall c) := by
  refine { aligned with fresh := fun d new => ?_, sessions := fun d => ?_ }
  · rw [purgeCall_seen, aligned.fresh d new, ite_self]
  · rw [purgeCall_seen, purgeCall_seen, aligned.sessions]

theorem sendDial (c : Nat) (accepted : Bool) :
    Aligned edge (s.sendDial c accepted) (t.sendDial c accepted) := by
  have frame (u : EdgeTraffic ε δ) : u.sendDial c accepted = { u with
      sessions := (u.sendDial c accepted).sessions, sent := (u.sendDial c accepted).sent } := by
    unfold EdgeTraffic.sendDial
    split
    · rfl
    · split
      · split <;> rfl
      · rfl
  have seen (d : Nat) : (s.sendDial c accepted).seenCall edge d =
      (t.sendDial c accepted).seenCall edge d := by
    rw [sendDial_seen, sendDial_seen, connected_eq aligned, aligned.sessions, aligned.sessions]
  have sent : (s.sendDial c accepted).sentFor edge = (t.sendDial c accepted).sentFor edge := by
    rw [sendDial_sentFor, sendDial_sentFor, connected_eq aligned, aligned.sessions, aligned.sent]
  rw [frame s, frame t]
  refine { aligned with fresh := fun d new => ?_, sessions := seen, sent := sent }
  show (s.sendDial c accepted).seenCall edge d = none
  rw [sendDial_seen, aligned.fresh d new]
  split
  · rename_i here
    rw [← here, aligned.fresh d new, Option.bind_none]
  · rfl

/-- A step of both runs. -/
theorem step [DecidableEq δ] (legacyEdge : Option ε) (label : TrafficStep ε δ) :
    Aligned edge (s.step legacyEdge label) (t.step legacyEdge label) := by
  cases label with
  | connect other => exact aligned.withRegistry (aligned.registry.register other)
  | readerEnds i => exact (aligned.onConnection i).1
  | unwind i => exact (aligned.onConnection i).2.1
  | disconnect i => exact (aligned.onConnection i).2.2
  | frame i frame => exact aligned.read i frame
  | dial c device number rtcToken => exact aligned.dial legacyEdge _
  | sendDial c accepted => exact aligned.sendDial c accepted
  | purge c => exact aligned.purgeCall c

end Aligned

theorem Aligned.initial (edge : ε) : Aligned edge ({} : EdgeTraffic ε δ) {} :=
  ⟨⟨rfl, rfl, fun _ _ => rfl, nofun, nofun⟩, fun _ => Iff.rfl, rfl, fun _ _ => rfl, fun _ => rfl,
    rfl, rfl⟩

end Sections

/-- The step reads a frame of the edge. -/
def FrameOf (edge : ε) (s : EdgeTraffic ε δ) : TrafficStep ε δ → Prop
  | .frame i _ => s.registry.connections[i]?.map EdgeConnection.edge = some edge
  | _ => False

/-- If the step reads a heartbeat, it lists no device that the edge has reported and that is not
mapped to the sender already. -/
def Fair (edge : ε) (s : EdgeTraffic ε δ) : TrafficStep ε δ → Prop
  | .frame i frame => ∀ c, s.registry.connections[i]? = some c → c.reading = true →
      ¬ s.takes edge c.edge frame
  | _ => True

section Frames
variable [DecidableEq δ] {edge other : ε} {s t : EdgeTraffic ε δ} {label : TrafficStep ε δ}
  {legacyEdge : Option ε}

theorem Aligned.fair (aligned : Aligned edge s t) (different : other ≠ edge)
    (sender : FrameOf other t label) (fair : Fair edge t label) :
    Aligned edge s (t.step legacyEdge label) := by
  cases label with
  | frame i frame =>
      obtain ⟨c, own, rfl⟩ := Option.map_eq_some_iff.mp sender
      simp only [EdgeTraffic.step, EdgeTraffic.read, own]
      split
      · exact (aligned.mapOther different (fair c own ‹_›)).handleOther different frame
      · exact aligned
  | _ => cases sender

/-- A heartbeat that takes a device of the edge is seen. -/
theorem Aligned.seen (aligned : Aligned edge s t) (sender : FrameOf other t label)
    (same : SameFor edge s (t.step legacyEdge label)) : Fair edge t label := by
  cases label with
  | frame i frame =>
      intro c own reading taken
      cases frame with
      | heartbeat devices =>
          obtain ⟨d, listed, mine, elsewhere⟩ := taken
          simp only [EdgeTraffic.step, EdgeTraffic.read, own, reading, if_true] at same
          have known : (edge, d) ∈ t.reports ++ devices.map (fun d => (c.edge, d)) :=
            List.mem_append_left _ mine
          have moved : s.registry.deviceToEdge d =
              (t.mapHeartbeat c.edge (.heartbeat devices)).registry.deviceToEdge d :=
            same.resolved d known
          rw [mapHeartbeat_device, if_pos listed] at moved
          exact elsewhere ((aligned.registry.devices d mine).symm.trans moved)
      | callEvent _ _ | dialAck _ _ _ | other => cases taken
  | _ => cases sender

end Frames
end EdgeTraffic

namespace Guarantees
open EdgeTraffic

/-- Of two runs, the second reads further frames of the edge `a`. Throughout, the calls of `b` are
given the same events and acks in both, the devices that `b` has reported are mapped alike, and
their DialCommands go to the same edges, if and only if none of the further frames is a heartbeat
with a device that `b` has reported and that is not mapped to `a` already. -/
theorem edges_isolated_iff {ε δ : Type} [DecidableEq ε] [DecidableEq δ] (legacyEdge : Option ε)
    (a b : ε) (different : a ≠ b) (w : List (Woven (TrafficStep ε δ)))
    (only : ∀ p label, p ++ [.extra label] <+: w →
      FrameOf a (run legacyEdge (Woven.full p)) label) :
    (∀ p, p <+: w → SameFor b (run legacyEdge (Woven.base p)) (run legacyEdge (Woven.full p))) ↔
      ∀ p label, p ++ [.extra label] <+: w → Fair b (run legacyEdge (Woven.full p)) label :=
  Woven.agree_iff (step legacyEdge) (Aligned b) Aligned.same
    (fun aligned => aligned.step legacyEdge _)
    (fun aligned sender fair => aligned.fair different sender fair)
    (fun aligned sender same => aligned.seen sender same) w (Aligned.initial b) only

/-- The edges 0 and 1 are connected, and 1 has reported device 5. -/
def twoEdges : List (Woven (TrafficStep Nat Nat)) :=
  [.both (.connect 0), .both (.connect 1), .both (.frame 1 (.heartbeat [5]))]

/-- Edge 0 reports a device of its own and sends an event and an ack for a call of edge 1. -/
def foreignFrames : List (Woven (TrafficStep Nat Nat)) :=
  twoEdges ++ [.extra (.frame 0 (.heartbeat [6])), .both (.dial 7 5 "13800000000" "token"),
    .extra (.frame 0 (.dialAck 7 false "busy")), .both (.sendDial 7 true),
    .extra (.frame 0 (.callEvent 7 (.remoteHangup .normalClearing))),
    .both (.frame 1 (.callEvent 7 .connected))]

theorem foreign_frames_dropped :
    SameFor 1 (run none (Woven.base foreignFrames)) (run none (Woven.full foreignFrames)) ∧
      (run none (Woven.full foreignFrames)).deliveredTo 1 = [⟨7, 1, .callEvent .connected⟩] ∧
      (run none (Woven.full foreignFrames)).sentFor 1 =
        [(1, ⟨7, 5, "13800000000", "token"⟩)] := by
  refine ⟨(edges_isolated_iff none 0 1 (by decide) foreignFrames ?_).mpr ?_ foreignFrames
    List.prefix_rfl, by decide, by decide⟩
  · simp only [foreignFrames, twoEdges, List.cons_append, List.nil_append,
      Woven.forall_extra_both, Woven.forall_extra_extra, Woven.forall_extra_nil]
    exact ⟨rfl, rfl, rfl, trivial⟩
  · simp only [foreignFrames, twoEdges, List.cons_append, List.nil_append,
      Woven.forall_extra_both, Woven.forall_extra_extra, Woven.forall_extra_nil]
    refine ⟨?_, fun _ _ _ => id, fun _ _ _ => id, trivial⟩
    rintro c - - ⟨d, listed, mine, -⟩
    obtain rfl := List.mem_singleton.mp listed
    exact absurd mine (by decide)

/-- A heartbeat of edge 0 lists the device of edge 1: the DialCommand for it goes to edge 0. -/
theorem device_taken :
    let w := twoEdges ++ [.extra (.frame 0 (.heartbeat [5])),
      .both (.dial 7 5 "13800000000" "token"), .both (.sendDial 7 true)]
    (run none (Woven.base w)).sentFor 1 = [(1, ⟨7, 5, "13800000000", "token"⟩)] ∧
    (run none (Woven.full w)).sentFor 1 = [(0, ⟨7, 5, "13800000000", "token"⟩)] ∧
    (run none (Woven.base w)).resolveEdgeForDevice 5 = some 1 ∧
    (run none (Woven.full w)).resolveEdgeForDevice 5 = some 0 := by
  decide

end Guarantees
end IsalesEngine
