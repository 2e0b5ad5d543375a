import IsalesEngine.Asyncio.System
import IsalesEngine.Engine.World

/-!
The event stream of one call. The edge's call events, a refused dial, a dial to
an edge that is not connected and any number of local hangups each put their
terminal event on `events_q` and close the iterators; a put on the unbounded
queue does not suspend, so the first of them puts its event and the end marker in
one section. Whatever they put later stands behind the marker.
-/
namespace IsalesEngine
open Asyncio

inductive EventsItem where
  | event (type : TelephonyEvent) (detail : String)
  | sentinel
  deriving DecidableEq, Repr

inductive EdgeHangupCause where
  | unspecified
  | noAnswer
  | userBusy
  | networkOutOfOrder
  | normalClearing
  | callRejected
  | unknown
  deriving DecidableEq, Repr

/-- `_HANGUP_CAUSE_DETAIL`, with the default of its lookup. -/
def EdgeHangupCause.detail : EdgeHangupCause → String
  | .unspecified => "unspecified"
  | .noAnswer => "no_answer"
  | .userBusy => "user_busy"
  | .networkOutOfOrder => "network_out_of_order"
  | .normalClearing => "normal_clearing"
  | .callRejected => "call_rejected"
  | .unknown => "unspecified"

/-- The kinds of a call event; `other` are the informational and the unknown ones. -/
inductive CallEventKind where
  | connected
  | remoteHangup (cause : EdgeHangupCause)
  | deviceError (code : String)
  | other
  deriving DecidableEq, Repr

/-- A `dial` from its DialCommand on. -/
inductive DialStage where
  | sending
  | unwinding
  | returned
  | raised
  deriving DecidableEq, Repr

inductive HangupStage where
  | sending
  | closing
  | returned
  | raised
  deriving DecidableEq, Repr

/-- `_CallState` as far as its event stream depends on it, with the calls of the client and one
consumer of `events()`. `placed` is a history variable: everything ever put on the queue. -/
structure CallEvents where
  eventsQ : List EventsItem := []
  closed : Bool := false
  inCalls : Bool := true
  dial : DialStage := .sending
  hangups : List HangupStage := []
  seen : List (TelephonyEvent × String) := []
  ended : Bool := false
  placed : List EventsItem := []
  deriving DecidableEq, Repr

/-- A section of one of the tasks. `hangupSent` says whether the CancelCommand was sent or the edge
was not connected; any other exception ends the hangup. -/
inductive CallEventsStep where
  | callEvent (kind : CallEventKind)
  | dialAck (accepted : Bool) (reason : String)
  | dialSent (connected : Bool)
  | dialPurge
  | hangup
  | hangupSent (call : Nat) (ok : Bool)
  | hangupPurge (call : Nat)
  | get
  deriving DecidableEq, Repr

/-- The section ends the call: the edge reports its end or refuses the dial, the dial finds the edge
not connected, or a hangup has got past its CancelCommand. -/
def CallEventsStep.ends : CallEventsStep → Bool
  | .callEvent (.remoteHangup _) | .callEvent (.deviceError _) | .dialAck false _
  | .dialSent false | .hangupSent _ true => true
  | _ => false

namespace CallEvents

def put (s : CallEvents) (item : EventsItem) : CallEvents :=
  { s with eventsQ := s.eventsQ ++ [item], placed := s.placed ++ [item] }

/-- Up to the first suspension; what follows does not touch the events. -/
def closeIterators (s : CallEvents) : CallEvents :=
  if s.closed then s else { s with closed := true }.put .sentinel

/-- What every terminal producer does. -/
def finish (s : CallEvents) (type : TelephonyEvent) (detail : String) : CallEvents :=
  (s.put (.event type detail)).closeIterators

def onCallEvent (s : CallEvents) : CallEventKind → CallEvents
  | .connected => s.put (.event .connected "")
  | .remoteHangup cause => s.finish .remoteHangup cause.detail
  | .deviceError code => s.finish .deviceError code
  | .other => s

def onDialAck (s : CallEvents) (accepted : Bool) (reason : String) : CallEvents :=
  if accepted then s
  else s.finish .remoteHangup (if reason = "" then "dial_rejected" else reason)

def get (s : CallEvents) (item : EventsItem) (rest : List EventsItem) : CallEvents :=
  match item with
  | .event type detail => { s with eventsQ := rest, seen := s.seen ++ [(type, detail)] }
  | .sentinel => { s with eventsQ := rest, ended := true }

def step (s : CallEvents) : CallEventsStep → Option CallEvents
  | .callEvent kind => some (s.onCallEvent kind)
  | .dialAck accepted reason => some (s.onDialAck accepted reason)
  | .dialSent connected =>
      if s.dial = .sending then
        some (if connected then { s with dial := .returned }
          else { s.finish .deviceError "edge_disconnected" with dial := .unwinding })
      else none
  | .dialPurge =>
      if s.dial = .unwinding then some { s with dial := .raised, inCalls := false } else none
  | .hangup => some { s with
      hangups := s.hangups ++ [if s.inCalls then .sending else .returned] }
  | .hangupSent i ok =>
      if s.hangups[i]? = some .sending then
        some (if ok then
            { s.finish .localHangup "" with hangups := s.hangups.set i .closing }
          else { s with hangups := s.hangups.set i .raised })
      else none
  | .hangupPurge i =>
      if s.hangups[i]? = some .closing then
        some { s with hangups := s.hangups.set i .returned, inCalls := false }
      else none
  | .get => match s.eventsQ with
      | item :: rest => if s.ended = false then some (s.get item rest) else none
      | [] => none

def system : System CallEvents CallEventsStep := ⟨step⟩

end CallEvents

namespace EventsItem

def ofSeen (entry : TelephonyEvent × String) : EventsItem := .event entry.1 entry.2

def isConnected : EventsItem → Bool
  | .event .connected _ => true
  | _ => false

def isTerminal : EventsItem → Bool
  | .event type _ => type.isTerminal
  | .sentinel => false

end EventsItem

namespace CallEvents
variable {s s' : CallEvents} {label : CallEventsStep}

/-- An open call has placed connected events only. A closed one has placed a terminal event and the
marker behind them, and no other marker. -/
structure Sound (s : CallEvents) : Prop where
  taken : s.placed = s.seen.map EventsItem.ofSeen ++ (if s.ended then [.sentinel] else []) ++
    s.eventsQ
  opened : s.closed = false → ∀ item ∈ s.placed, item.isConnected = true
  closed : s.closed = true → ∃ before last late,
    s.placed = before ++ last :: .sentinel :: late ∧
    (∀ item ∈ before, item.isConnected = true) ∧ last.isTerminal = true ∧ .sentinel ∉ late

namespace Sound

theorem unmarked {items : List EventsItem} (connected : ∀ item ∈ items, item.isConnected = true) :
    .sentinel ∉ items := fun member => nomatch connected _ member

/-- What stands before the first marker. -/
theorem announced {items : List EventsItem} (rest : List EventsItem)
    (unmarked : .sentinel ∉ items) :
    (items ++ .sentinel :: rest).takeWhile (fun item => item != .sentinel) = items := by
  rw [List.takeWhile_append_of_pos]
  · simp
  · intro item member
    have different : item ≠ .sentinel := fun same => unmarked (same ▸ member)
    simpa using different

theorem ofSeen_unmarked (seen : List (TelephonyEvent × String)) :
    .sentinel ∉ seen.map EventsItem.ofSeen := by
  intro member
  obtain ⟨entry, -, same⟩ := List.mem_map.mp member
  cases same

variable (sound : Sound s)
include sound

theorem congr (queue : s'.eventsQ = s.eventsQ) (closed : s'.closed = s.closed)
    (seen : s'.seen = s.seen) (ended : s'.ended = s.ended) (placed : s'.placed = s.placed) :
    Sound s' := by
  refine ⟨?_, ?_, ?_⟩
  · rw [placed, seen, ended, queue]
    exact sound.taken
  · rw [placed, closed]
    exact sound.opened
  · rw [placed, closed]
    exact sound.closed

theorem taken_put (item : EventsItem) :
    (s.put item).placed = (s.put item).seen.map EventsItem.ofSeen ++
      (if (s.put item).ended then [.sentinel] else []) ++ (s.put item).eventsQ := by
  simp only [put, sound.taken, List.append_assoc]

/-- Behind the marker anything but a second marker may be put. -/
theorem late {item : EventsItem} (closed : s.closed = true) (other : item ≠ .sentinel) :
    Sound (s.put item) := by
  refine ⟨sound.taken_put item, fun opened => ?_, fun _ => ?_⟩
  · exact absurd (closed.symm.trans opened) (by decide)
  · obtain ⟨before, last, late, placed, connected, terminal, single⟩ := sound.closed closed
    refine ⟨before, last, late ++ [item], ?_, connected, terminal, ?_⟩
    · simp only [put, placed, List.append_assoc, List.cons_append]
    · simp [single, Ne.symm other]

theorem connected (detail : String) : Sound (s.put (.event .connected detail)) := by
  cases closed : s.closed with
  | true => exact sound.late closed nofun
  | false =>
      refine ⟨sound.taken_put _, fun _ => ?_, fun now => ?_⟩
      · intro item member
        obtain old | new := List.mem_append.mp member
        · exact sound.opened closed item old
        · rw [List.mem_singleton.mp new]
          rfl
      · exact absurd (closed.symm.trans now) (by decide)

theorem finish {type : TelephonyEvent} (terminal : type.isTerminal = true) (detail : String) :
    Sound (s.finish type detail) := by
  cases closed : s.closed with
  | true =>
      have same : s.finish type detail = s.put (.event type detail) := by
        simp [CallEvents.finish, closeIterators, put, closed]
      rw [same]
      exact sound.late closed nofun
  | false =>
      have now : s.finish type detail =
          ({ s with closed := true }.put (.event type detail)).put .sentinel := by
        simp [CallEvents.finish, closeIterators, put, closed]
      rw [now]
      refine ⟨?_, nofun, fun _ => ?_⟩
      · simp only [put, sound.taken, List.append_assoc]
      · refine ⟨s.placed, .event type detail, [], ?_, sound.opened closed, terminal, nofun⟩
        simp [put]

theorem get {item : EventsItem} {rest : List EventsItem} (queue : s.eventsQ = item :: rest)
    (running : s.ended = false) : Sound (s.get item rest) := by
  have taken := sound.taken
  rw [running, queue] at taken
  cases item with
  | event type detail =>
      refine ⟨?_, sound.opened, sound.closed⟩
      simpa [CallEvents.get, running, EventsItem.ofSeen] using taken
  | sentinel =>
      refine ⟨?_, sound.opened, sound.closed⟩
      simpa [CallEvents.get] using taken

theorem step (stepped : s.step label = some s') : Sound s' := by
  cases label with
  | callEvent kind =>
      cases stepped
      cases kind with
      | connected => exact sound.connected _
      | remoteHangup cause | deviceError code => exact sound.finish rfl _
      | other => exact sound
  | dialAck accepted reason =>
      cases stepped
      unfold onDialAck
      split
      · exact sound
      · exact sound.finish rfl _
  | dialSent connected =>
      obtain ⟨-, rfl⟩ := of_guard stepped
      split
      · exact sound.congr rfl rfl rfl rfl rfl
      · exact (sound.finish (rfl : TelephonyEvent.deviceError.isTerminal = true) _).congr
          rfl rfl rfl rfl rfl
  | dialPurge =>
      obtain ⟨-, rfl⟩ := of_guard stepped
      exact sound.congr rfl rfl rfl rfl rfl
  | hangup =>
      cases stepped
      exact sound.congr rfl rfl rfl rfl rfl
  | hangupSent i ok =>
      obtain ⟨-, rfl⟩ := of_guard stepped
      split
      · exact (sound.finish (rfl : TelephonyEvent.localHangup.isTerminal = true) _).congr
          rfl rfl rfl rfl rfl
      · exact sound.congr rfl rfl rfl rfl rfl
  | hangupPurge i =>
      obtain ⟨-, rfl⟩ := of_guard stepped
      exact sound.congr rfl rfl rfl rfl rfl
  | get =>
      simp only [CallEvents.step] at stepped
      split at stepped
      · rename_i item rest queue
        obtain ⟨running, rfl⟩ := of_guard stepped
        exact sound.get queue running
      · cases stepped

/-- The marker is there once as soon as the call is closed. -/
theorem markers : s.placed.count .sentinel = if s.closed then 1 else 0 := by
  cases closed : s.closed with
  | false => exact List.count_eq_zero_of_not_mem (unmarked (sound.opened closed))
  | true =>
      obtain ⟨before, last, late, placed, connected, terminal, single⟩ := sound.closed closed
      have different : last ≠ .sentinel := by
        rintro rfl
        cases terminal
      rw [placed]
      simp [List.count_append, List.count_eq_zero_of_not_mem (unmarked connected), different,
        List.count_eq_zero_of_not_mem single]

/-- What a consumer that has come to the end has seen. -/
theorem ended (ended : s.ended = true) : ∃ before last,
    s.seen = before ++ [last] ∧ (∀ entry ∈ before, entry.1 = .connected) ∧
    last.1.isTerminal = true := by
  have taken := sound.taken
  rw [ended, if_pos rfl, List.append_assoc, List.singleton_append] at taken
  have closed : s.closed = true := by
    refine Classical.byContradiction fun opened => ?_
    have connected := sound.opened (Bool.eq_false_iff.mpr opened)
    refine unmarked connected ?_
    rw [taken]
    exact List.mem_append_right _ (.head _)
  obtain ⟨before, last, late, placed, connected, terminal, -⟩ := sound.closed closed
  have different : last ≠ .sentinel := by
    rintro rfl
    cases terminal
  have head : .sentinel ∉ before ++ [last] := by
    simp [unmarked connected, Ne.symm different]
  have same : s.seen.map EventsItem.ofSeen = before ++ [last] := by
    rw [← announced s.eventsQ (ofSeen_unmarked s.seen), ← taken, placed]
    rw [List.append_cons before last, announced _ head]
  obtain ⟨first, final, seen, firsts, finals⟩ := List.map_eq_append_iff.mp same
  obtain ⟨entry, rfl, lasts⟩ := List.map_eq_singleton_iff.mp finals
  refine ⟨first, entry, seen, fun e member => ?_, ?_⟩
  · have plain := connected (EventsItem.ofSeen e) (firsts ▸ List.mem_map_of_mem member)
    obtain ⟨type, detail⟩ := e
    cases type with
    | connected => rfl
    | _ => cases plain
  · rw [← lasts] at terminal
    exact terminal

end Sound

theorem closed_finish (s : CallEvents) (type : TelephonyEvent) (detail : String) :
    (s.finish type detail).closed = true := by
  cases closed : s.closed <;> simp [finish, closeIterators, put, closed]

/-- Exactly the sections that end the call close it. -/
theorem closed_step (stepped : s.step label = some s') : s'.closed = (s.closed || label.ends) := by
  cases label with
  | callEvent kind =>
      cases stepped
      cases kind <;> simp [onCallEvent, closed_finish, put, CallEventsStep.ends]
  | dialAck accepted reason =>
      cases stepped
      cases accepted <;> simp [onDialAck, closed_finish, CallEventsStep.ends]
  | dialSent ok =>
      obtain ⟨-, rfl⟩ := of_guard stepped
      cases ok <;> simp [closed_finish, CallEventsStep.ends]
  | hangupSent i ok =>
      obtain ⟨-, rfl⟩ := of_guard stepped
      cases ok <;> simp [closed_finish, CallEventsStep.ends]
  | hangup =>
      cases stepped
      simp [CallEventsStep.ends]
  | dialPurge | hangupPurge i =>
      obtain ⟨-, rfl⟩ := of_guard stepped
      simp [CallEventsStep.ends]
  | get =>
      simp only [step] at stepped
      split at stepped
      · rename_i item rest queue
        obtain ⟨-, rfl⟩ := of_guard stepped
        cases item <;> simp [get, CallEventsStep.ends]
      · cases stepped

theorem closed_exec {steps : List CallEventsStep} (run : system.exec s steps = some s') :
    s'.closed = (s.closed || steps.any CallEventsStep.ends) := by
  induction steps generalizing s with
  | nil =>
      obtain rfl := Option.some.inj run
      simp
  | cons label steps ih =>
      obtain ⟨t, stepped, rest⟩ := System.exec_cons run
      rw [ih rest, closed_step stepped, List.any_cons, Bool.or_assoc]

end CallEvents

namespace Guarantees
open CallEvents

/-- In every run of the producers and a consumer of a call's events: the end marker has been placed
once if a section has ended the call, and never otherwise; and a consumer that has come to the end
has seen connected events and then one terminal event. -/
theorem call_events_end_once (steps : List CallEventsStep) (s : CallEvents)
    (run : system.exec {} steps = some s) :
    s.placed.count .sentinel = (if steps.any CallEventsStep.ends then 1 else 0) ∧
    (s.ended = true → ∃ before last, s.seen = before ++ [last] ∧
      (∀ entry ∈ before, entry.1 = .connected) ∧ last.1.isTerminal = true) := by
  have start : Sound {} := ⟨rfl, nofun, nofun⟩
  have sound : Sound s := System.invariant (fun sound stepped => sound.step stepped) run start
  refine ⟨?_, sound.ended⟩
  rw [sound.markers, closed_exec run]
  rfl

/-- Two hangups overlap with the end the edge reports; the consumer sees that end only. -/
theorem overlapping_ends_seen_once :
    ∃ s, system.exec {} [.dialSent true, .callEvent .connected, .hangup, .hangup,
      .callEvent (.remoteHangup .normalClearing), .hangupSent 0 true, .hangupSent 1 true,
      .hangupPurge 0, .get, .get, .get] = some s ∧
      s.placed.count .sentinel = 1 ∧
      ∃ before last, s.seen = before ++ [last] ∧ last.1.isTerminal = true := by
  refine exists_of_map (fun s => s.ended) true (by decide) fun s run ended => ?_
  obtain ⟨markers, consumer⟩ := call_events_end_once _ s run
  obtain ⟨before, last, seen, -, final⟩ := consumer ended
  exact ⟨markers, before, last, seen, final⟩

end Guarantees
end IsalesEngine
