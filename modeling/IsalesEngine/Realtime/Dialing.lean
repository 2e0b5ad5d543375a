import Mathlib.Logic.Function.Basic
import IsalesEngine.Asyncio.System

/-!
Overlapping dials of `RtcTelephonyClient`. A dial joins its RTC channel, enters
its call state, binds the dispatcher and sends the DialCommand. It looks for an
active call before the join and enters its own after it, and only an edge that is
not connected makes it give back what it has taken. A dial that fails in another
way after the join, cannot leave its channel, or finds another's call state where it
enters its own, leaves something behind or takes something away.
-/
namespace IsalesEngine
open Asyncio

inductive DialPhase where
  | joining
  | sending
  | unwinding
  | purging
  | returned
  | raised
  deriving DecidableEq, Repr

/-- The dial has bound the dispatcher and not ended by an exception. -/
def DialPhase.isBound : DialPhase → Bool
  | .sending | .unwinding | .purging | .returned => true
  | .joining | .raised => false

/-- The dial has tried to leave its channel, or never will. -/
def DialPhase.isOver : DialPhase → Bool
  | .purging | .raised => true
  | .joining | .sending | .unwinding | .returned => false

/-- A `dial`. Its channel counts as joined from the SDK's `join_channel` on: a join that fails
leaves it again, one that is cancelled does not. -/
structure Dial where
  callId : Nat
  phase : DialPhase
  joined : Bool
  deriving DecidableEq, Repr

/-- `calls` and `sessions` name the dial an entry belongs to. -/
structure Dialing where
  dials : List Dial := []
  calls : Nat → Option Nat := fun _ => none
  sessions : Nat → Option Nat := fun _ => none

inductive SendResult where
  | sent
  | edgeNotConnected
  | failed
  deriving DecidableEq, Repr

/-- A section of a dial. `leave` says whether the session could be left: `close_iterators` goes on
if not. `interrupt` is a cancellation at an await, or another exception of the teardown. -/
inductive DialingStep where
  | dial (callId : Nat) (signed : Bool)
  | joinFails (dial : Nat)
  | joinDone (dial : Nat) (resolved : Bool)
  | send (dial : Nat) (result : SendResult)
  | leave (dial : Nat) (ok : Bool)
  | purge (dial : Nat)
  | interrupt (dial : Nat)
  deriving DecidableEq, Repr

namespace Dialing

def setDial (s : Dialing) (i : Nat) (d : Dial) : Dialing := { s with dials := s.dials.set i d }

/-- Up to the join. -/
def dial (s : Dialing) (callId : Nat) (signed : Bool) : Dialing :=
  let active := (s.calls callId).isSome
  let d : Dial := if active || !signed then ⟨callId, .raised, false⟩ else ⟨callId, .joining, true⟩
  { s with dials := s.dials ++ [d] }

/-- From the join to the DialCommand: the edge is resolved, the call entered and the dispatcher
bound, which raises if the call is bound. -/
def joinDone (s : Dialing) (i : Nat) (d : Dial) (resolved : Bool) : Dialing :=
  if resolved then
    let s := { s with calls := Function.update s.calls d.callId (some i) }
    if (s.sessions d.callId).isSome then s.setDial i { d with phase := .raised }
    else { s.setDial i { d with phase := .sending } with
      sessions := Function.update s.sessions d.callId (some i) }
  else s.setDial i { d with phase := .raised }

def send (s : Dialing) (i : Nat) (d : Dial) : SendResult → Dialing
  | .sent => s.setDial i { d with phase := .returned }
  | .edgeNotConnected => s.setDial i { d with phase := .unwinding }
  | .failed => s.setDial i { d with phase := .raised }

/-- `_purge_call`, and the exception goes on. -/
def purge (s : Dialing) (i : Nat) (d : Dial) : Dialing :=
  let s := s.setDial i { d with phase := .raised }
  if (s.calls d.callId).isSome then
    { s with
      calls := Function.update s.calls d.callId none
      sessions := Function.update s.sessions d.callId none }
  else s

def step (s : Dialing) : DialingStep → Option Dialing
  | .dial callId signed => some (s.dial callId signed)
  | .joinFails i => do
      let d ← s.dials[i]?
      if d.phase = .joining then some (s.setDial i { d with phase := .raised, joined := false })
      else none
  | .joinDone i resolved => do
      let d ← s.dials[i]?
      if d.phase = .joining then some (s.joinDone i d resolved) else none
  | .send i result => do
      let d ← s.dials[i]?
      if d.phase = .sending then some (s.send i d result) else none
  | .leave i ok => do
      let d ← s.dials[i]?
      if d.phase = .unwinding then
        some (s.setDial i { d with phase := .purging, joined := d.joined && !ok })
      else none
  | .purge i => do
      let d ← s.dials[i]?
      if d.phase = .purging then some (s.purge i d) else none
  | .interrupt i => do
      let d ← s.dials[i]?
      if d.phase = .joining ∨ d.phase = .sending ∨ d.phase = .unwinding ∨ d.phase = .purging then
        some (s.setDial i { d with phase := .raised })
      else none

def system : System Dialing DialingStep := ⟨step⟩

/-- After the join the edge is resolved and no other dial has entered the call; the DialCommand is
sent or the edge not connected, and then the session can be left; no dial is interrupted. -/
def careful (s : Dialing) : DialingStep → Bool
  | .joinDone i resolved =>
      resolved && (s.dials[i]?).all fun d => (s.calls d.callId).isNone
  | .send _ .failed | .leave _ false | .interrupt _ => false
  | _ => true

/-- A dial that raised, or can only raise, is in no channel; one that raised has left nothing
behind, and one that is bound owns its call state and its registration. -/
structure AllOrNothing (s : Dialing) : Prop where
  left : ∀ (i : Nat) (d : Dial), s.dials[i]? = some d → d.phase.isOver = true →
    d.joined = false
  raised : ∀ (i : Nat) (d : Dial), s.dials[i]? = some d → d.phase = .raised →
    s.calls d.callId ≠ some i ∧ s.sessions d.callId ≠ some i
  bound : ∀ (i : Nat) (d : Dial), s.dials[i]? = some d → d.phase.isBound = true →
    s.calls d.callId = some i ∧ s.sessions d.callId = some i

/-- The invariant of careful runs. -/
structure Sound (s : Dialing) : Prop where
  joined : ∀ (i : Nat) (d : Dial), s.dials[i]? = some d → d.joined = !d.phase.isOver
  agree : s.sessions = s.calls
  owner : ∀ c i, s.calls c = some i ↔
    ∃ d : Dial, s.dials[i]? = some d ∧ d.callId = c ∧ d.phase.isBound = true

inductive Stepped (s : Dialing) : DialingStep → Dialing → Prop
  | dial {callId signed} : Stepped s (.dial callId signed) (s.dial callId signed)
  | joinFails {i d} (own : s.dials[i]? = some d) (phase : d.phase = .joining) :
      Stepped s (.joinFails i) (s.setDial i { d with phase := .raised, joined := false })
  | joinDone {i d resolved} (own : s.dials[i]? = some d) (phase : d.phase = .joining) :
      Stepped s (.joinDone i resolved) (s.joinDone i d resolved)
  | send {i d result} (own : s.dials[i]? = some d) (phase : d.phase = .sending) :
      Stepped s (.send i result) (s.send i d result)
  | leave {i d ok} (own : s.dials[i]? = some d) (phase : d.phase = .unwinding) :
      Stepped s (.leave i ok) (s.setDial i { d with phase := .purging, joined := d.joined && !ok })
  | purge {i d} (own : s.dials[i]? = some d) (phase : d.phase = .purging) :
      Stepped s (.purge i) (s.purge i d)
  | interrupt {i d} (own : s.dials[i]? = some d) (phase : d.phase = .joining ∨
      d.phase = .sending ∨ d.phase = .unwinding ∨ d.phase = .purging) :
      Stepped s (.interrupt i) (s.setDial i { d with phase := .raised })

section Steps
variable {s s' : Dialing} {label : DialingStep} {i : Nat} {d : Dial}

theorem step_stepped (h : s.step label = some s') : Stepped s label s' := by
  cases label with
  | dial callId signed =>
      obtain rfl := Option.some.inj h
      exact .dial
  | joinFails i =>
      obtain ⟨d, own, h⟩ := Option.bind_eq_some_iff.mp h
      obtain ⟨phase, rfl⟩ := of_guard h
      exact .joinFails own phase
  | joinDone i resolved =>
      obtain ⟨d, own, h⟩ := Option.bind_eq_some_iff.mp h
      obtain ⟨phase, rfl⟩ := of_guard h
      exact .joinDone own phase
  | send i result =>
      obtain ⟨d, own, h⟩ := Option.bind_eq_some_iff.mp h
      obtain ⟨phase, rfl⟩ := of_guard h
      exact .send own phase
  | leave i ok =>
      obtain ⟨d, own, h⟩ := Option.bind_eq_some_iff.mp h
      obtain ⟨phase, rfl⟩ := of_guard h
      exact .leave own phase
  | purge i =>
      obtain ⟨d, own, h⟩ := Option.bind_eq_some_iff.mp h
      obtain ⟨phase, rfl⟩ := of_guard h
      exact .purge own phase
  | interrupt i =>
      obtain ⟨d, own, h⟩ := Option.bind_eq_some_iff.mp h
      obtain ⟨phase, rfl⟩ := of_guard h
      exact .interrupt own phase

namespace Sound
variable (sound : Sound s)
include sound

theorem joined_of {p : DialPhase} (own : s.dials[i]? = some d) (phase : d.phase = p) :
    d.joined = !p.isOver :=
  phase ▸ sound.joined i d own

/-- A call is entered for a dial if and only if the dial is bound. -/
theorem owned (own : s.dials[i]? = some d) (c : Nat) :
    s.calls c = some i ↔ d.callId = c ∧ d.phase.isBound = true := by
  simp [sound.owner, own]

/-- A dial changes, and with it its entries. -/
theorem change {e : Dial} (calls : Nat → Option Nat) (own : s.dials[i]? = some d)
    (joined : e.joined = !e.phase.isOver)
    (mine : ∀ c, calls c = some i ↔ e.callId = c ∧ e.phase.isBound = true)
    (others : ∀ c j, j ≠ i → (calls c = some j ↔ s.calls c = some j)) :
    Sound ⟨s.dials.set i e, calls, calls⟩ := by
  refine ⟨fun j f there => ?_, rfl, fun c j => ?_⟩
  · obtain ⟨rfl, rfl⟩ | ⟨-, there⟩ := (getElem?_set_iff own).mp there
    · exact joined
    · exact sound.joined j f there
  · simp only [getElem?_set_iff own]
    by_cases here : j = i
    · subst here
      simp [mine]
    · simp [here, others c j here, sound.owner]

/-- A dial changes and keeps its entries. -/
theorem setDial {e : Dial} (own : s.dials[i]? = some d) (same : e.callId = d.callId)
    (bound : e.phase.isBound = d.phase.isBound) (joined : e.joined = !e.phase.isOver) :
    Sound (s.setDial i e) := by
  have kept := sound.change s.calls own joined
    (fun c => by rw [same, bound]; exact sound.owned own c) fun _ _ _ => Iff.rfl
  unfold Dialing.setDial
  rwa [show s.sessions = s.calls from sound.agree]

theorem dial (callId : Nat) (signed : Bool) : Sound (s.dial callId signed) := by
  obtain ⟨e, added, unbound, joined⟩ : ∃ e : Dial, s.dial callId signed =
      { s with dials := s.dials ++ [e] } ∧ e.phase.isBound = false ∧
      e.joined = !e.phase.isOver := by
    refine ⟨_, rfl, ?_⟩
    split <;> exact ⟨rfl, rfl⟩
  rw [added]
  refine ⟨fun j f there => ?_, sound.agree, fun c j => ?_⟩
  · obtain there | ⟨rfl, rfl⟩ := getElem?_concat_iff.mp there
    · exact sound.joined j f there
    · exact joined
  · simp only [getElem?_concat_iff, sound.owner]
    constructor
    · rintro ⟨f, there, rest⟩
      exact ⟨f, .inl there, rest⟩
    · rintro ⟨f, there | ⟨-, rfl⟩, call, bound⟩
      · exact ⟨f, there, call, bound⟩
      · exact absurd (unbound.symm.trans bound) (by decide)

/-- A dial goes on and changes the entry of its call, which is no other dial's before or after. -/
theorem rebind {phase : DialPhase} (entry : Option Nat) (own : s.dials[i]? = some d)
    (joined : d.joined = !phase.isOver) (mine : entry = some i ↔ phase.isBound = true)
    (others : ∀ j, j ≠ i → entry ≠ some j ∧ s.calls d.callId ≠ some j) :
    Sound ⟨s.dials.set i { d with phase }, Function.update s.calls d.callId entry,
      Function.update s.calls d.callId entry⟩ := by
  refine sound.change _ own joined (fun c => ?_) fun c j other => ?_
  · by_cases same : c = d.callId
    · simp [same, mine]
    · simp [same, sound.owned own, Ne.symm same]
  · by_cases same : c = d.callId
    · simp [same, others j other]
    · simp [same]

/-- The first dial whose join is done enters the call and binds it. -/
theorem joinDone (own : s.dials[i]? = some d) (phase : d.phase = .joining)
    (free : s.calls d.callId = none) : Sound (s.joinDone i d true) := by
  have now : s.joinDone i d true = ⟨s.dials.set i { d with phase := .sending },
      Function.update s.calls d.callId (some i), Function.update s.calls d.callId (some i)⟩ := by
    simp [Dialing.joinDone, Dialing.setDial, sound.agree, free]
  have joined : d.joined = true := sound.joined_of own phase
  rw [now]
  refine sound.rebind (some i) own joined (by simp [DialPhase.isBound]) fun j other => ?_
  simp [free, Ne.symm other]

theorem purge (own : s.dials[i]? = some d) (phase : d.phase = .purging) :
    Sound (s.purge i d) := by
  have mine : s.calls d.callId = some i := (sound.owned own _).mpr ⟨rfl, by rw [phase]; rfl⟩
  have now : s.purge i d = ⟨s.dials.set i { d with phase := .raised },
      Function.update s.calls d.callId none, Function.update s.calls d.callId none⟩ := by
    simp [Dialing.purge, Dialing.setDial, sound.agree, mine]
  have left : d.joined = false := sound.joined_of own phase
  rw [now]
  refine sound.rebind none own left (by simp [DialPhase.isBound]) fun j other => ?_
  simp [mine, Ne.symm other]

theorem step (stepped : Stepped s label s') (allowed : s.careful label = true) : Sound s' := by
  cases stepped with
  | dial => exact sound.dial _ _
  | joinFails own phase => exact sound.setDial own rfl (by rw [phase]; rfl) rfl
  | joinDone own phase =>
      obtain ⟨rfl, free⟩ := Bool.and_eq_true_iff.mp allowed
      rw [own, Option.all_some, Option.isNone_iff_eq_none] at free
      exact sound.joinDone own phase free
  | @send i d result own phase =>
      have joined : d.joined = true := sound.joined_of own phase
      cases result with
      | sent | edgeNotConnected => exact sound.setDial own rfl (by rw [phase]; rfl) joined
      | failed => cases allowed
  | @leave i d ok own phase =>
      cases ok with
      | true => exact sound.setDial own rfl (by rw [phase]; rfl) (Bool.and_false d.joined)
      | false => cases allowed
  | purge own phase => exact sound.purge own phase
  | interrupt own phase => cases allowed

/-- A dial that is joining or bound may not simply raise. -/
theorem not_raised (own : s.dials[i]? = some d)
    (phase : d.phase = .joining ∨ d.phase.isBound = true) :
    ¬ AllOrNothing (s.setDial i { d with phase := .raised }) := by
  intro kept
  have here : (s.setDial i { d with phase := .raised }).dials[i]? =
      some { d with phase := .raised } := (getElem?_set_iff own).mpr (.inl ⟨rfl, rfl⟩)
  obtain joining | bound := phase
  · have joined : d.joined = true := sound.joined_of own joining
    exact absurd (joined.symm.trans (kept.left i { d with phase := .raised } here rfl)) (by decide)
  · exact (kept.raised i _ here rfl).1 ((sound.owned own _).mpr ⟨rfl, bound⟩)

/-- Where another dial has entered the call, entering it takes the other's state away. -/
theorem entered_free (own : s.dials[i]? = some d) (phase : d.phase = .joining)
    (kept : AllOrNothing (s.joinDone i d true)) : s.calls d.callId = none := by
  cases entered : s.calls d.callId with
  | none => rfl
  | some j =>
      obtain ⟨e, there, call, bound⟩ := (sound.owner _ j).mp entered
      have other : j ≠ i := by
        rintro rfl
        obtain rfl := Option.some.inj (own.symm.trans there)
        rw [phase] at bound
        cases bound
      have still : (s.joinDone i d true).dials[j]? = some e := by
        unfold Dialing.joinDone
        simp only [if_true]
        split <;> exact (getElem?_set_iff own).mpr (.inr ⟨other, there⟩)
      have taken : (s.joinDone i d true).calls d.callId = some i := by
        unfold Dialing.joinDone
        simp only [if_true]
        split <;> simp [Dialing.setDial]
      have lost := (kept.bound j e still bound).1
      rw [call, taken] at lost
      exact absurd (Option.some.inj lost).symm other

theorem careful_of (stepped : Stepped s label s') (kept : AllOrNothing s') :
    s.careful label = true := by
  cases stepped with
  | @joinDone i d resolved own phase =>
      cases resolved with
      | false => exact absurd kept (sound.not_raised own (.inl phase))
      | true => simp [careful, own, sound.entered_free own phase kept]
  | @send i d result own phase =>
      cases result with
      | failed => exact absurd kept (sound.not_raised own (.inr (by rw [phase]; rfl)))
      | _ => rfl
  | @leave i d ok own phase =>
      cases ok with
      | true => rfl
      | false =>
          have joined : d.joined = true := sound.joined_of own phase
          have left := kept.left i _ ((getElem?_set_iff own).mpr (.inl ⟨rfl, rfl⟩)) rfl
          rw [joined] at left
          cases left
  | interrupt own phase =>
      refine absurd kept (sound.not_raised own (phase.imp_right ?_))
      rintro (phase | phase | phase) <;> rw [phase] <;> rfl
  | _ => rfl

end Sound

end Steps
end Dialing

namespace Guarantees
open Dialing

end Guarantees
end IsalesEngine
