import Mathlib.Logic.Function.Basic
import IsalesEngine.Asyncio.System

/-!
The edges that are connected, and the devices they own. Every connection
registers its stream under its edge and displaces an older one; its reader maps
the devices of the heartbeats it receives to the edge; its teardown removes the
stream unless it was displaced, and the mappings of the edge unless it is still
connected. Nothing is awaited while the lock is held, so registering and
deregistering are single sections. The reader of a displaced stream goes on until
its own teardown, and may map devices after the replacement has gone.
-/
namespace IsalesEngine
open Asyncio

inductive ConnectionPhase where
  | serving
  | unwinding
  | gone
  deriving DecidableEq, Repr

/-- A `_handle_bidi` from its registration on, with its stream and its reader. -/
structure EdgeConnection (ε : Type) where
  edge : ε
  closed : Bool := false
  reading : Bool := true
  phase : ConnectionPhase := .serving

/-- Streams are named by their connections, which are numbered as they register. -/
structure EdgeRegistry (ε δ : Type) where
  connections : List (EdgeConnection ε) := []
  streams : ε → Option Nat := fun _ => none
  deviceToEdge : δ → Option ε := fun _ => none

/-- A section of a connection. `unwind` is the handler leaving its outbound loop, with the
cancelled reader awaited. -/
inductive RegistryStep (ε δ : Type) where
  | register (edge : ε)
  | heartbeat (connection : Nat) (devices : List δ)
  | readerEnds (connection : Nat)
  | unwind (connection : Nat)
  | deregister (connection : Nat)

namespace EdgeRegistry
variable {ε δ : Type}

def setConnection (s : EdgeRegistry ε δ) (i : Nat) (c : EdgeConnection ε) : EdgeRegistry ε δ :=
  { s with connections := s.connections.set i c }

/-- `old.close()`. -/
def closeStream (s : EdgeRegistry ε δ) (i : Nat) : EdgeRegistry ε δ :=
  match s.connections[i]? with
  | some c => s.setConnection i { c with closed := true }
  | none => s

def displace (s : EdgeRegistry ε δ) (edge : ε) : EdgeRegistry ε δ :=
  match s.streams edge with
  | some old => s.closeStream old
  | none => s

def registerStream [DecidableEq ε] (s : EdgeRegistry ε δ) (edge : ε) : EdgeRegistry ε δ :=
  let s := s.displace edge
  { s with
    connections := s.connections ++ [{ edge := edge }]
    streams := Function.update s.streams edge (some s.connections.length) }

def mapDevices [DecidableEq δ] (s : EdgeRegistry ε δ) (edge : ε) (devices : List δ) :
    EdgeRegistry ε δ :=
  { s with
    deviceToEdge := devices.foldl (fun map d => Function.update map d (some edge)) s.deviceToEdge }

def deregisterStream [DecidableEq ε] (s : EdgeRegistry ε δ) (edge : ε) (i : Nat) :
    EdgeRegistry ε δ :=
  let s := if s.streams edge = some i then
      { s with streams := Function.update s.streams edge none } else s
  if s.streams edge = none then
    { s with
      deviceToEdge := fun d => if s.deviceToEdge d = some edge then none else s.deviceToEdge d }
  else s

def step [DecidableEq ε] [DecidableEq δ] (s : EdgeRegistry ε δ) :
    RegistryStep ε δ → Option (EdgeRegistry ε δ)
  | .register edge => some (s.registerStream edge)
  | .heartbeat i devices => match s.connections[i]? with
      | some c => if c.reading = true then some (s.mapDevices c.edge devices) else none
      | none => none
  | .readerEnds i => match s.connections[i]? with
      | some c =>
          if c.reading = true then
            some (s.setConnection i { c with reading := false, closed := true })
          else none
      | none => none
  | .unwind i => match s.connections[i]? with
      | some c =>
          if c.phase = .serving then
            some (s.setConnection i { c with
              reading := false, closed := true, phase := .unwinding })
          else none
      | none => none
  | .deregister i => match s.connections[i]? with
      | some c =>
          if c.phase = .unwinding then
            some ((s.setConnection i { c with phase := .gone }).deregisterStream c.edge i)
          else none
      | none => none

def system [DecidableEq ε] [DecidableEq δ] :
    System (EdgeRegistry ε δ) (RegistryStep ε δ) := ⟨step⟩

/-- Devices are mapped only to an edge that has a registered stream. -/
def careful (s : EdgeRegistry ε δ) : RegistryStep ε δ → Bool
  | .heartbeat i devices => devices.isEmpty ||
      (s.connections[i]?).all fun c => (s.streams c.edge).isSome
  | _ => true

/-- The connection is of the edge and has not been deregistered. -/
def Serves (s : EdgeRegistry ε δ) (i : Nat) (edge : ε) : Prop :=
  ∃ c, s.connections[i]? = some c ∧ c.edge = edge ∧ c.phase ≠ .gone

/-- The stream registered for an edge is the last one of the edge that has not been deregistered. -/
def Latest (s : EdgeRegistry ε δ) : Prop :=
  ∀ edge i, s.streams edge = some i → s.Serves i edge ∧ ∀ j, s.Serves j edge → j ≤ i

/-- Every device is mapped to an edge that has a registered stream. -/
def Owned (s : EdgeRegistry ε δ) : Prop :=
  ∀ device edge, s.deviceToEdge device = some edge → (s.streams edge).isSome = true

/-- A teardown removes no other stream, and no mapping to an edge that is connected after it. -/
def TornDown (s s' : EdgeRegistry ε δ) (i : Nat) : Prop :=
  (∀ edge j, s.streams edge = some j → j ≠ i → s'.streams edge = some j) ∧
  ∀ device edge, s.deviceToEdge device = some edge → (s'.streams edge).isSome = true →
    s'.deviceToEdge device = some edge

section Deregister
variable [DecidableEq ε] {s : EdgeRegistry ε δ} {edge : ε} {i : Nat}

theorem deregister_streams (other : ε) : (s.deregisterStream edge i).streams other =
      if other = edge ∧ s.streams edge = some i then none else s.streams other := by
  unfold deregisterStream
  by_cases own : s.streams edge = some i
  · simp [own, Function.update_apply]
  · by_cases none : s.streams edge = none <;> simp [own, none]

theorem deregister_connections : (s.deregisterStream edge i).connections = s.connections := by
  unfold deregisterStream
  by_cases own : s.streams edge = some i
  · simp [own]
  · by_cases none : s.streams edge = none <;> simp [own, none]

/-- The mappings of the edge go exactly if it has no stream afterwards. -/
theorem deregister_devices (device : δ) : (s.deregisterStream edge i).deviceToEdge device =
      if (s.deregisterStream edge i).streams edge = none ∧ s.deviceToEdge device = some edge
      then none else s.deviceToEdge device := by
  rw [deregister_streams]
  unfold deregisterStream
  by_cases own : s.streams edge = some i
  · simp [own]
  · by_cases none : s.streams edge = none <;> simp [own, none]

theorem deregister_tornDown : TornDown s (s.deregisterStream edge i) i := by
  constructor
  · intro other j registered different
    rw [deregister_streams, if_neg, registered]
    intro ⟨same, own⟩
    subst same
    exact different (Option.some.inj (registered.symm.trans own))
  · intro device other mapped connected
    rw [deregister_devices, if_neg, mapped]
    intro ⟨gone, same⟩
    obtain rfl := Option.some.inj (mapped.symm.trans same)
    rw [gone] at connected
    cases connected

end Deregister

section Serves
variable {s s' : EdgeRegistry ε δ} {i j : Nat} {c d : EdgeConnection ε} {edge : ε}

theorem serves_set (own : s.connections[i]? = some c) (same : d.edge = c.edge)
    (alive : d.phase = .gone ↔ c.phase = .gone) :
    (s.setConnection i d).Serves j edge ↔ s.Serves j edge := by
  have inside := (List.getElem?_eq_some_iff.mp own).1
  unfold Serves setConnection
  by_cases here : j = i
  · subst here
    rw [List.getElem?_set_self inside, own]
    simp [same, alive]
  · simp [List.getElem?_set_ne (Ne.symm here)]

theorem serves_closeStream : (s.closeStream i).Serves j edge ↔ s.Serves j edge := by
  unfold closeStream
  split
  · rename_i c own
    exact serves_set own rfl Iff.rfl
  · exact Iff.rfl

theorem closeStream_fields : (s.closeStream i).streams = s.streams ∧
    (s.closeStream i).deviceToEdge = s.deviceToEdge ∧
    (s.closeStream i).connections.length = s.connections.length := by
  unfold closeStream
  split
  · exact ⟨rfl, rfl, List.length_set⟩
  · exact ⟨rfl, rfl, rfl⟩

/-- A displaced stream is closed and otherwise left as it is. -/
theorem displace_fields (edge : ε) : (s.displace edge).streams = s.streams ∧
    (s.displace edge).deviceToEdge = s.deviceToEdge ∧
    (s.displace edge).connections.length = s.connections.length := by
  unfold displace
  split
  · exact closeStream_fields
  · exact ⟨rfl, rfl, rfl⟩

theorem serves_displace {other : ε} : (s.displace edge).Serves j other ↔ s.Serves j other := by
  unfold displace
  split
  · exact serves_closeStream
  · exact Iff.rfl

theorem Serves.inside (serves : s.Serves j edge) : j < s.connections.length := by
  obtain ⟨c, own, -⟩ := serves
  exact (List.getElem?_eq_some_iff.mp own).1

theorem serves_append {streams : ε → Option Nat} {other : ε} :
    ({ s with connections := s.connections ++ [EdgeConnection.mk edge false true .serving],
              streams } : EdgeRegistry ε δ).Serves j other ↔
      s.Serves j other ∨ (j = s.connections.length ∧ other = edge) := by
  unfold Serves
  simp only [getElem?_concat_iff]
  constructor
  · rintro ⟨c, old | ⟨last, rfl⟩, same, alive⟩
    · exact .inl ⟨c, old, same, alive⟩
    · exact .inr ⟨last, same.symm⟩
  · rintro (⟨c, old, rest⟩ | ⟨last, rfl⟩)
    · exact ⟨c, .inl old, rest⟩
    · exact ⟨_, .inr ⟨last, rfl⟩, rfl, nofun⟩

theorem serves_register [DecidableEq ε] {other : ε} : (s.registerStream edge).Serves j other ↔
      s.Serves j other ∨ (j = s.connections.length ∧ other = edge) := by
  refine serves_append.trans ?_
  rw [serves_displace, (displace_fields edge).2.2]

theorem register_streams [DecidableEq ε] : (s.registerStream edge).streams =
    Function.update s.streams edge (some s.connections.length) := by
  obtain ⟨streams, -, length⟩ := displace_fields (s := s) edge
  simp only [registerStream, streams, length]

theorem mapDevices_mem [DecidableEq δ] {devices : List δ} {device : δ} :
    (s.mapDevices edge devices).deviceToEdge device =
      if device ∈ devices then some edge else s.deviceToEdge device := by
  unfold mapDevices
  dsimp only
  induction devices generalizing s with
  | nil => rfl
  | cons d devices ih =>
      rw [List.foldl_cons]
      rw [ih (s := { s with deviceToEdge := Function.update s.deviceToEdge d (some edge) })]
      by_cases later : device ∈ devices
      · simp [later]
      · by_cases here : device = d <;> simp [later, here]

theorem Latest.congr (latest : s.Latest) (streams : s'.streams = s.streams)
    (serves : ∀ j edge, s'.Serves j edge ↔ s.Serves j edge) : s'.Latest := by
  intro edge i registered
  rw [streams] at registered
  obtain ⟨own, last⟩ := latest edge i registered
  exact ⟨(serves i edge).mpr own, fun j other => last j ((serves j edge).mp other)⟩

theorem Latest.register [DecidableEq ε] (latest : s.Latest) (edge : ε) :
    (s.registerStream edge).Latest := by
  intro other i registered
  rw [register_streams] at registered
  by_cases same : other = edge
  · subst same
    rw [Function.update_self] at registered
    cases registered
    refine ⟨serves_register.mpr (.inr ⟨rfl, rfl⟩), fun j serves => ?_⟩
    obtain serves | ⟨rfl, -⟩ := serves_register.mp serves
    · exact Nat.le_of_lt serves.inside
    · exact Nat.le_refl _
  · rw [Function.update_of_ne same] at registered
    obtain ⟨own, last⟩ := latest other i registered
    refine ⟨serves_register.mpr (.inl own), fun j serves => ?_⟩
    obtain serves | ⟨-, impossible⟩ := serves_register.mp serves
    · exact last j serves
    · exact absurd impossible same

theorem Latest.deregister [DecidableEq ε] (latest : s.Latest) (own : s.connections[i]? = some c) :
    ((s.setConnection i { c with phase := .gone }).deregisterStream c.edge i).Latest := by
  have inside := (List.getElem?_eq_some_iff.mp own).1
  have serves : ∀ j edge, ((s.setConnection i { c with phase := .gone }).deregisterStream
      c.edge i).Serves j edge ↔ s.Serves j edge ∧ j ≠ i := by
    intro j edge
    unfold Serves
    rw [deregister_connections]
    by_cases here : j = i
    · subst here
      simp [setConnection, inside]
    · simp [setConnection, List.getElem?_set_ne (Ne.symm here), here]
  intro edge k registered
  rw [deregister_streams] at registered
  obtain ⟨kept, registered⟩ := Option.ite_none_left_eq_some.mp registered
  obtain ⟨mine, last⟩ := latest edge k registered
  refine ⟨(serves k edge).mpr ⟨mine, ?_⟩, fun j other => last j ((serves j edge).mp other).1⟩
  rintro rfl
  obtain ⟨d, there, same, -⟩ := mine
  obtain rfl := Option.some.inj (own.symm.trans there)
  exact kept ⟨same.symm, same ▸ registered⟩

end Serves

section Steps
variable [DecidableEq ε] [DecidableEq δ] {s s' : EdgeRegistry ε δ} {label : RegistryStep ε δ}

inductive Stepped (s : EdgeRegistry ε δ) : RegistryStep ε δ → EdgeRegistry ε δ → Prop
  | register {edge} : Stepped s (.register edge) (s.registerStream edge)
  | heartbeat {i c devices} (own : s.connections[i]? = some c) :
      Stepped s (.heartbeat i devices) (s.mapDevices c.edge devices)
  | readerEnds {i c} (own : s.connections[i]? = some c) :
      Stepped s (.readerEnds i) (s.setConnection i { c with reading := false, closed := true })
  | unwind {i c} (own : s.connections[i]? = some c) (serving : c.phase = .serving) :
      Stepped s (.unwind i)
        (s.setConnection i { c with reading := false, closed := true, phase := .unwinding })
  | deregister {i c} (own : s.connections[i]? = some c) :
      Stepped s (.deregister i)
        ((s.setConnection i { c with phase := .gone }).deregisterStream c.edge i)

theorem step_stepped (h : s.step label = some s') : Stepped s label s' := by
  cases label with
  | register edge =>
      cases h
      exact .register
  | heartbeat i _ | readerEnds i | unwind i | deregister i =>
      simp only [step] at h
      split at h
      · obtain ⟨ready, rfl⟩ := of_guard h
        constructor <;> assumption
      · cases h

/-- The registered streams are the latest whatever the readers do. -/
theorem Latest.step (latest : s.Latest) (stepped : Stepped s label s') : s'.Latest := by
  cases stepped with
  | register => exact latest.register _
  | heartbeat own => exact latest
  | readerEnds own => exact latest.congr rfl fun _ _ => serves_set own rfl Iff.rfl
  | unwind own serving =>
      exact latest.congr rfl fun _ _ => serves_set own rfl (by simp [serving])
  | deregister own => exact latest.deregister own

theorem Owned.step (owned : s.Owned) (stepped : Stepped s label s')
    (allowed : s.careful label = true) : s'.Owned := by
  cases stepped with
  | @register edge =>
      intro device other mapped
      have devices : (s.registerStream edge).deviceToEdge = s.deviceToEdge :=
        (displace_fields edge).2.1
      rw [devices] at mapped
      rw [register_streams]
      by_cases same : other = edge
      · rw [same, Function.update_self]
        rfl
      · rw [Function.update_of_ne same]
        exact owned device other mapped
  | @heartbeat i c devices own =>
      intro device other mapped
      rw [mapDevices_mem] at mapped
      split at mapped
      · rename_i member
        cases mapped
        have nonempty : devices.isEmpty = false := by
          cases devices with
          | nil => cases member
          | cons d rest => rfl
        show (s.streams c.edge).isSome = true
        simpa [careful, own, nonempty] using allowed
      · exact owned device other mapped
  | readerEnds own | unwind own serving => exact owned
  | @deregister i c own =>
      intro device other mapped
      rw [deregister_devices] at mapped
      obtain ⟨kept, mapped⟩ := Option.ite_none_left_eq_some.mp mapped
      have before : (s.streams other).isSome = true := owned device other mapped
      rw [deregister_streams] at kept ⊢
      split
      · rename_i own
        obtain ⟨rfl, registered⟩ := own
        exact absurd ⟨if_pos ⟨rfl, registered⟩, mapped⟩ kept
      · exact before

theorem careful_of_owned (stepped : Stepped s label s') (owned : s'.Owned) :
    s.careful label = true := by
  cases stepped with
  | @heartbeat i c devices own =>
      cases devices with
      | nil => rfl
      | cons d devices =>
          have mapped : (s.mapDevices c.edge (d :: devices)).deviceToEdge d = some c.edge := by
            rw [mapDevices_mem, if_pos (List.mem_cons_self ..)]
          have connected : (s.streams c.edge).isSome = true := owned d c.edge mapped
          simp [careful, own, connected]
  | _ => rfl

end Steps
end EdgeRegistry

namespace Guarantees
open EdgeRegistry

variable {ε δ : Type} [DecidableEq ε] [DecidableEq δ]

/-- In every run of the connections every registered stream is the latest of its edge and a
teardown removes no other stream and no mapping of a connected edge; and devices were mapped only
by readers whose edge is connected exactly if in every state on the way every device is mapped to a
connected edge. -/
theorem edge_registry_consistent (steps : List (RegistryStep ε δ)) (s : EdgeRegistry ε δ)
    (run : system.exec {} steps = some s) :
    s.Latest ∧
    (∀ i t, system.step s (.deregister i) = some t → TornDown s t i) ∧
    ((system.restrict careful).exec {} steps = some s ↔
      ∀ before t, before <+: steps → system.exec {} before = some t → t.Owned) := by
  refine ⟨?_, ?_, ?_⟩
  · have start : ({} : EdgeRegistry ε δ).Latest := nofun
    exact System.invariant (fun latest stepped => latest.step (step_stepped stepped)) run start
  · intro i t stepped
    have stepped : Stepped s (.deregister i) t := step_stepped stepped
    cases stepped with
    | deregister own => exact deregister_tornDown (s := s.setConnection i _)
  · have start : ({} : EdgeRegistry ε δ).Owned := nofun
    refine System.exec_restrict_iff (J := Owned) (P := Owned) ?_ ?_ start start run
    · intro s label s' owned allowed stepped
      exact owned.step (step_stepped stepped) allowed
    · intro s label s' owned stepped
      have stepped := step_stepped stepped
      exact ⟨owned.step stepped, careful_of_owned stepped⟩

/-- An edge reconnects, and both connections report the same device before the old one goes. -/
theorem reconnect_keeps_device :
    ∃ s : EdgeRegistry String Nat, system.exec {} [.register "edge", .heartbeat 0 [7],
      .register "edge", .heartbeat 0 [7], .heartbeat 1 [7], .unwind 0, .deregister 0] = some s ∧
      s.deviceToEdge 7 = some "edge" ∧ (s.streams "edge").isSome = true := by
  refine exists_of_map (fun s => s.deviceToEdge 7) (some "edge") (by decide) fun s run mapped => ?_
  have careful := System.restrict_exec careful run (by decide)
  have owned := (edge_registry_consistent _ s run).2.2.mp careful _ s List.prefix_rfl run
  exact ⟨mapped, owned 7 "edge" mapped⟩

/-- The reader of a displaced stream maps a device after the replacement has gone: the device
belongs to an edge that has no stream. -/
theorem displaced_reader_maps_device :
    (system.exec ({} : EdgeRegistry String Nat) [.register "edge", .register "edge", .unwind 1,
      .deregister 1, .heartbeat 0 [7]]).map
      (fun s => (s.streams "edge", s.deviceToEdge 7)) = some (none, some "edge") := by
  decide

end Guarantees
end IsalesEngine
