import Mathlib.Data.List.Basic
import IsalesEngine.Asyncio.System

/-!
Streaming recognition over reconnecting connections. Each connection has a task that
takes chunks from the call's one audio iterator and sends them in packets of 100 ms;
when the connection is over the task is cancelled. A cancellation that reaches it
inside the iterator finishes the iterator, so the next connection has nothing to
send; one that reaches it in a send loses the packets not yet sent; and a normal
close ends recognition whether or not there is audio left.
-/
namespace IsalesEngine
open Asyncio

/-- The iterator of `audio_in`: usable, at its end, or finished by a cancellation. -/
inductive AudioSource where
  | usable
  | exhausted
  | cancelled
  deriving DecidableEq, Repr

/-- The push task of a connection: it has not started, waits in the iterator or in a send, or is
over, because the iterator is or because a send has failed. -/
inductive PushState where
  | created
  | taking
  | sending
  | ended
  | failed
  deriving DecidableEq, Repr

/-- A connection. What it has taken and sent are history variables. -/
structure AsrConnection where
  push : PushState := .created
  buf : List UInt8 := []
  taken : List UInt8 := []
  sent : List (List UInt8) := []
  deriving DecidableEq, Repr

inductive AsrPhase where
  | connecting
  | connected
  | backingOff
  | returned
  | raised
  deriving DecidableEq, Repr

/-- `stream_recognize` over the inbound queue of a call, in which `none` is the end marker. The
connections that are over are a history variable. -/
structure AsrStream where
  inbound : List (Option (List UInt8)) := []
  source : AudioSource := .usable
  phase : AsrPhase := .connecting
  attemptIndex : Nat := 0
  current : AsrConnection := {}
  closed : List AsrConnection := []
  deriving DecidableEq, Repr

/-- Audio arrives; a connection is opened, refused by a close or fails; the push task starts, takes
a chunk, has sent a packet or fails to; a result or an error frame arrives; the vendor closes the
connection; the pause before a reconnect is over. -/
inductive AsrStep where
  | arrive (item : Option (List UInt8))
  | connect
  | connectClosed
  | connectFails
  | pushStarts
  | take
  | sent
  | sendFails
  | result
  | errorFrame
  | normalClose
  | abnormalClose
  | backedOff
  deriving DecidableEq, Repr

/-- The bytes of 100 ms of audio, mono with two bytes a sample. -/
def targetBytes (sampleRate : Nat) : Nat := sampleRate / 10 * 2

structure AsrConfig where
  sampleRate : Nat := 16000
  reconnectBackoffs : Nat := 3
  deriving DecidableEq, Repr

namespace AsrConfig

def packet (config : AsrConfig) : Nat := targetBytes config.sampleRate

end AsrConfig

namespace AsrConnection

/-- Where the push task goes with what it has buffered. -/
def pushOn (config : AsrConfig) (buf : List UInt8) : PushState :=
  if config.packet ≤ buf.length then .sending else .taking

def takeChunk (config : AsrConfig) (c : AsrConnection) (chunk : List UInt8) : AsrConnection :=
  if chunk.isEmpty then c
  else { c with
    buf := c.buf ++ chunk, taken := c.taken ++ chunk, push := pushOn config (c.buf ++ chunk) }

def sendPacket (config : AsrConfig) (c : AsrConnection) : AsrConnection :=
  { c with
    sent := c.sent ++ [c.buf.take config.packet], buf := c.buf.drop config.packet
    push := pushOn config (c.buf.drop config.packet) }

end AsrConnection

namespace AsrStream

/-- The connection is over and its push task is cancelled. -/
def close (s : AsrStream) (phase : AsrPhase) : AsrStream :=
  { s with
    phase, closed := s.closed ++ [s.current], current := {}
    source := if s.current.push = .taking then .cancelled else s.source }

/-- After a `ConnectionClosed` there is a pause, unless the retries are used up. -/
def retry (config : AsrConfig) (s : AsrStream) : AsrPhase :=
  if config.reconnectBackoffs ≤ s.attemptIndex then .raised else .backingOff

def pushStarts (s : AsrStream) : AsrStream :=
  { s with current := { s.current with push := if s.source = .usable then .taking else .ended } }

def take (config : AsrConfig) (s : AsrStream) : Option AsrStream :=
  match s.inbound with
  | some chunk :: inbound => some { s with inbound, current := s.current.takeChunk config chunk }
  | none :: inbound =>
      some { s with inbound, source := .exhausted, current := { s.current with push := .ended } }
  | [] => none

def step (config : AsrConfig) (s : AsrStream) : AsrStep → Option AsrStream
  | .arrive item => some { s with inbound := s.inbound ++ [item] }
  | .connect => if s.phase = .connecting then some { s with phase := .connected } else none
  | .connectClosed =>
      if s.phase = .connecting then some { s with phase := s.retry config } else none
  | .connectFails => if s.phase = .connecting then some { s with phase := .raised } else none
  | .pushStarts =>
      if s.phase = .connected ∧ s.current.push = .created then some s.pushStarts else none
  | .take =>
      if s.phase = .connected ∧ s.current.push = .taking then s.take config else none
  | .sent =>
      if s.phase = .connected ∧ s.current.push = .sending then
        some { s with current := s.current.sendPacket config }
      else none
  | .sendFails =>
      if s.phase = .connected ∧ s.current.push = .sending then
        some { s with current := { s.current with push := .failed } }
      else none
  | .result => if s.phase = .connected then some { s with attemptIndex := 0 } else none
  | .errorFrame => if s.phase = .connected then some (s.close .raised) else none
  | .normalClose => if s.phase = .connected then some (s.close .returned) else none
  | .abnormalClose => if s.phase = .connected then some (s.close (s.retry config)) else none
  | .backedOff =>
      if s.phase = .backingOff then
        some { s with phase := .connecting, attemptIndex := s.attemptIndex + 1 }
      else none

def system (config : AsrConfig) : System AsrStream AsrStep := ⟨step config⟩

/-- Recognition has not failed and keeps hearing: it has ended only at the end of the audio, the
iterator can be used as long as there is audio, a connection takes from it, and everything taken by
a connection was sent in full packets but for less than one packet. -/
structure Hears (config : AsrConfig) (s : AsrStream) : Prop where
  ended : s.phase = .returned → s.source = .exhausted
  kept : s.source ≠ .cancelled
  forwarding : s.phase = .connected → s.source = .usable →
    s.current.push ≠ .ended ∧ s.current.push ≠ .failed
  packets : ∀ c ∈ s.current :: s.closed, ∀ p ∈ c.sent, p.length = config.packet
  whole : ∀ c ∈ s.current :: s.closed, c.taken = c.sent.flatten ++ c.buf
  lost : ∀ c ∈ s.closed, c.buf.length < config.packet

/-- The vendor closes a connection only when the audio is exhausted, or before the push task has
started, or with the retries used up; no send fails. -/
def careful (config : AsrConfig) (s : AsrStream) : AsrStep → Bool
  | .sendFails => false
  | .normalClose => s.source = .exhausted
  | .abnormalClose =>
      s.current.push = .ended || s.current.push = .created ||
        config.reconnectBackoffs ≤ s.attemptIndex
  | _ => true

/-- The push task and what it has buffered agree, it takes from an iterator that can be used, and it
is over only with the audio. -/
structure Agrees (config : AsrConfig) (s : AsrStream) : Prop extends Hears config s where
  idle : s.phase ≠ .connected → s.current = {}
  sound : s.current.push ≠ .failed
  full : s.current.push = .sending → config.packet ≤ s.current.buf.length
  short : s.current.push ≠ .sending → s.current.buf.length < config.packet
  usable : s.current.push = .taking ∨ s.current.push = .sending → s.source = .usable
  audioOver : s.current.push = .ended → s.source = .exhausted

variable {config : AsrConfig} {s s' : AsrStream} {phase : AsrPhase}

theorem pushOn_full {buf : List UInt8} (sends : AsrConnection.pushOn config buf = .sending) :
    config.packet ≤ buf.length := by
  unfold AsrConnection.pushOn at sends
  by_cases full : config.packet ≤ buf.length
  · exact full
  · simp [full] at sends

theorem pushOn_short {buf : List UInt8} (sends : AsrConnection.pushOn config buf ≠ .sending) :
    buf.length < config.packet := by
  unfold AsrConnection.pushOn at sends
  by_cases full : config.packet ≤ buf.length
  · simp [full] at sends
  · omega

theorem pushOn_cases (config : AsrConfig) (buf : List UInt8) :
    AsrConnection.pushOn config buf = .sending ∨ AsrConnection.pushOn config buf = .taking := by
  unfold AsrConnection.pushOn
  split
  · exact Or.inl rfl
  · exact Or.inr rfl

namespace Agrees
variable (agrees : s.Agrees config)
include agrees

section
variable (connected : s.phase = .connected)
include connected

/-- The push task goes on with a longer or shorter buffer of a connection that is up. -/
theorem pushOn (usable : s.source = .usable) {c : AsrConnection}
    {inbound : List (Option (List UInt8))} (moves : c.push = AsrConnection.pushOn config c.buf)
    (packets : ∀ p ∈ c.sent, p.length = config.packet) (whole : c.taken = c.sent.flatten ++ c.buf) :
    Agrees config { s with inbound, current := c } := by
  have states := pushOn_cases config c.buf
  rw [← moves] at states
  have alive : c.push ≠ .ended ∧ c.push ≠ .failed := by
    obtain sends | takes := states
    · simp [sends]
    · simp [takes]
  refine ⟨⟨agrees.ended, agrees.kept, fun _ _ => alive, ?_, ?_, agrees.lost⟩, ?_, alive.2, ?_, ?_,
    fun _ => usable, fun ended => absurd ended alive.1⟩
  · intro d member
    obtain rfl | earlier := List.mem_cons.mp member
    · exact packets
    · exact agrees.packets d (List.mem_cons_of_mem _ earlier)
  · intro d member
    obtain rfl | earlier := List.mem_cons.mp member
    · exact whole
    · exact agrees.whole d (List.mem_cons_of_mem _ earlier)
  · exact fun down => absurd connected down
  · exact fun sends => pushOn_full (moves ▸ sends)
  · exact fun sends => pushOn_short (moves ▸ sends)

/-- The push task comes to the end of the audio. -/
theorem pushEnds
    (short : s.current.buf.length < config.packet) (inbound : List (Option (List UInt8))) :
    Agrees config { s with
      inbound, source := .exhausted, current := { s.current with push := .ended } } := by
  refine ⟨⟨fun _ => rfl, nofun, fun _ => nofun, ?_, ?_, agrees.lost⟩, ?_, nofun, nofun,
    fun _ => short, nofun, fun _ => rfl⟩
  · intro c member
    obtain rfl | earlier := List.mem_cons.mp member
    · exact agrees.packets s.current List.mem_cons_self
    · exact agrees.packets c (List.mem_cons_of_mem _ earlier)
  · intro c member
    obtain rfl | earlier := List.mem_cons.mp member
    · exact agrees.whole s.current List.mem_cons_self
    · exact agrees.whole c (List.mem_cons_of_mem _ earlier)
  · exact fun down => absurd connected down

theorem take (taking : s.current.push = .taking) (stepped : s.take config = some s') :
    s'.Agrees config := by
  have usable := agrees.usable (Or.inl taking)
  have packets := agrees.packets s.current List.mem_cons_self
  have whole := agrees.whole s.current List.mem_cons_self
  have short := agrees.short (by simp [taking])
  unfold AsrStream.take at stepped
  cases items : s.inbound with
  | nil => simp [items] at stepped
  | cons item inbound =>
      cases item with
      | none =>
          simp only [items, Option.some.injEq] at stepped
          subst stepped
          exact agrees.pushEnds connected short inbound
      | some chunk =>
          simp only [items, Option.some.injEq] at stepped
          subst stepped
          unfold AsrConnection.takeChunk
          by_cases nothing : chunk.isEmpty = true
          · rw [if_pos nothing]
            refine agrees.pushOn connected usable ?_ packets whole
            rw [taking, AsrConnection.pushOn, if_neg (by omega)]
          · rw [if_neg nothing]
            exact agrees.pushOn connected usable rfl packets (by simp [whole])

theorem sent (sending : s.current.push = .sending) :
    Agrees config { s with current := s.current.sendPacket config } := by
  have full := agrees.full sending
  refine agrees.pushOn connected (agrees.usable (Or.inr sending)) rfl ?_ ?_
  · intro p member
    obtain earlier | new := List.mem_append.mp member
    · exact agrees.packets s.current List.mem_cons_self p earlier
    · rw [List.mem_singleton.mp new, List.length_take]
      omega
  · have whole := agrees.whole s.current List.mem_cons_self
    simp [AsrConnection.sendPacket, whole]

theorem pushStarts (created : s.current.push = .created) : s.pushStarts.Agrees config := by
  have short := agrees.short (by simp [created])
  cases source : s.source with
  | cancelled => exact absurd source agrees.kept
  | usable =>
      have begins : s.pushStarts = { s with current := { s.current with push := .taking } } := by
        simp [AsrStream.pushStarts, source]
      rw [begins]
      refine agrees.pushOn connected source ?_ (agrees.packets s.current List.mem_cons_self)
        (agrees.whole s.current List.mem_cons_self)
      simp [AsrConnection.pushOn, short]
  | exhausted =>
      have ends : s.pushStarts =
          { s with source := .exhausted, current := { s.current with push := .ended } } := by
        simp [AsrStream.pushStarts, source]
      rw [ends]
      exact agrees.pushEnds connected short s.inbound

end

/-- A connection is over after its push task is, or before it has started. -/
theorem close (down : phase ≠ .connected) (returns : phase = .returned → s.source = .exhausted)
    (still : s.current.push = .ended ∨ s.current.push = .created) :
    (s.close phase).Agrees config := by
  have apart : s.current.push ≠ .taking ∧ s.current.push ≠ .sending := by
    obtain ended | created := still
    · simp [ended]
    · simp [created]
  have short := agrees.short apart.2
  have positive : 0 < config.packet := by omega
  have same : s.close phase =
      { s with phase, closed := s.closed ++ [s.current], current := {} } := by
    simp [AsrStream.close, apart.1]
  rw [same]
  refine ⟨⟨returns, agrees.kept, fun up => absurd up down, ?_, ?_, ?_⟩, fun _ => rfl, nofun, nofun,
    fun _ => positive, nofun, nofun⟩
  · intro c member
    obtain rfl | earlier := List.mem_cons.mp member
    · exact fun _ impossible => nomatch impossible
    · obtain earlier | new := List.mem_append.mp earlier
      · exact agrees.packets c (List.mem_cons_of_mem _ earlier)
      · obtain rfl := List.mem_singleton.mp new
        exact agrees.packets s.current List.mem_cons_self
  · intro c member
    obtain rfl | earlier := List.mem_cons.mp member
    · rfl
    · obtain earlier | new := List.mem_append.mp earlier
      · exact agrees.whole c (List.mem_cons_of_mem _ earlier)
      · obtain rfl := List.mem_singleton.mp new
        exact agrees.whole s.current List.mem_cons_self
  · intro c member
    obtain earlier | new := List.mem_append.mp member
    · exact agrees.lost c earlier
    · obtain rfl := List.mem_singleton.mp new
      exact short

/-- Only a push task that is over or has not started survives the end of its connection. -/
theorem still_of_close (hears : (s.close phase).Hears config) :
    s.current.push = .ended ∨ s.current.push = .created := by
  have kept := hears.kept
  have lost := hears.lost s.current (List.mem_append_right _ (List.mem_singleton.mpr rfl))
  cases push : s.current.push with
  | ended => exact Or.inl rfl
  | created => exact Or.inr rfl
  | failed => exact absurd push agrees.sound
  | taking => simp [AsrStream.close, push] at kept
  | sending =>
      have full := agrees.full push
      omega

/-- The phase changes while there is no connection. -/
theorem setPhase (down : s.phase ≠ .connected) (attemptIndex : Nat) (goesOn : phase ≠ .returned) :
    Agrees config { s with phase, attemptIndex } := by
  have fresh := agrees.idle down
  refine ⟨⟨fun returned => absurd returned goesOn, agrees.kept, fun _ _ => ?_, agrees.packets,
    agrees.whole, agrees.lost⟩, fun _ => fresh, agrees.sound, agrees.full, agrees.short,
    agrees.usable, agrees.audioOver⟩
  simp [fresh]

end Agrees

/-- One section keeps recognition hearing, as long as it does not fail, if and only if it is a
careful one. -/
theorem step_hears {label : AsrStep} (agrees : s.Agrees config)
    (stepped : step config s label = some s') :
    (careful config s label = true → s'.phase ≠ .raised → s'.Agrees config) ∧
      ((s'.phase ≠ .raised → s'.Hears config) → careful config s label = true) := by
  cases label with
  | arrive item =>
      obtain rfl := Option.some.inj stepped
      exact ⟨fun _ _ => { agrees with toHears := { agrees.toHears with } }, fun _ => rfl⟩
  | connect =>
      obtain ⟨phase, rfl⟩ := of_guard stepped
      exact ⟨fun _ _ => agrees.setPhase (by simp [phase]) _ nofun, fun _ => rfl⟩
  | connectClosed =>
      obtain ⟨phase, rfl⟩ := of_guard stepped
      refine ⟨fun _ _ => agrees.setPhase (by simp [phase]) _ ?_, fun _ => rfl⟩
      unfold retry
      split <;> simp
  | connectFails =>
      obtain ⟨_, rfl⟩ := of_guard stepped
      exact ⟨fun _ fine => absurd rfl fine, fun _ => rfl⟩
  | pushStarts =>
      obtain ⟨⟨connected, created⟩, rfl⟩ := of_guard stepped
      exact ⟨fun _ _ => agrees.pushStarts connected created, fun _ => rfl⟩
  | take =>
      obtain ⟨⟨connected, taking⟩, stepped⟩ := Option.ite_none_right_eq_some.mp stepped
      exact ⟨fun _ _ => agrees.take connected taking stepped, fun _ => rfl⟩
  | sent =>
      obtain ⟨⟨connected, sending⟩, rfl⟩ := of_guard stepped
      exact ⟨fun _ _ => agrees.sent connected sending, fun _ => rfl⟩
  | sendFails =>
      obtain ⟨⟨connected, sending⟩, rfl⟩ := of_guard stepped
      refine ⟨nofun, fun hears => ?_⟩
      have forwarding := (hears (by simp [connected])).forwarding connected
        (agrees.usable (Or.inr sending))
      exact absurd rfl forwarding.2
  | result =>
      obtain ⟨connected, rfl⟩ := of_guard stepped
      exact ⟨fun _ _ => { agrees with toHears := { agrees.toHears with } }, fun _ => rfl⟩
  | errorFrame =>
      obtain ⟨_, rfl⟩ := of_guard stepped
      exact ⟨fun _ fine => absurd rfl fine, fun _ => rfl⟩
  | normalClose =>
      obtain ⟨_, rfl⟩ := of_guard stepped
      constructor
      · intro allowed _
        have exhausted : s.source = .exhausted := of_decide_eq_true allowed
        refine agrees.close nofun (fun _ => exhausted) ?_
        cases push : s.current.push with
        | ended => exact Or.inl rfl
        | created => exact Or.inr rfl
        | failed => exact absurd push agrees.sound
        | taking => simp [agrees.usable (Or.inl push)] at exhausted
        | sending => simp [agrees.usable (Or.inr push)] at exhausted
      · intro hears
        have ended := (hears nofun).ended rfl
        by_cases taking : s.current.push = .taking
        · simp [AsrStream.close, taking] at ended
        · simpa [AsrStream.close, taking, careful] using ended
  | abnormalClose =>
      obtain ⟨_, rfl⟩ := of_guard stepped
      by_cases used : config.reconnectBackoffs ≤ s.attemptIndex
      · have raised : (s.close (s.retry config)).phase = .raised := by
          simp [AsrStream.close, retry, used]
        exact ⟨fun _ fine => absurd raised fine, fun _ => by simp [careful, used]⟩
      · have again : s.retry config = .backingOff := by simp [retry, used]
        rw [again]
        constructor
        · intro allowed _
          refine agrees.close nofun nofun ?_
          simpa [careful, used] using allowed
        · intro hears
          have still := agrees.still_of_close (hears nofun)
          simpa [careful, used] using still
  | backedOff =>
      obtain ⟨phase, rfl⟩ := of_guard stepped
      exact ⟨fun _ _ => agrees.setPhase (by simp [phase]) _ nofun, fun _ => rfl⟩

theorem raised_step {label : AsrStep} (raised : s.phase = .raised)
    (stepped : step config s label = some s') :
    careful config s label = true ∧ s'.phase = .raised := by
  cases label with
  | arrive item =>
      obtain rfl := Option.some.inj stepped
      exact ⟨rfl, raised⟩
  | connect | connectClosed | connectFails | pushStarts | take | sent | sendFails | result
  | errorFrame | normalClose | abnormalClose | backedOff => simp [step, raised] at stepped

end AsrStream

namespace Guarantees
open Asyncio AsrStream

/-- Recognition that has not failed keeps hearing throughout a run if and only if the vendor closes
connections only when the audio is exhausted or the push task has not started, and no send fails. -/
theorem recognition_hears_iff (config : AsrConfig) (rate : 10 ≤ config.sampleRate)
    (steps : List AsrStep) (s : AsrStream) (run : (system config).exec {} steps = some s) :
    ((system config).restrict (careful config)).exec {} steps = some s ↔
      ∀ before t, before <+: steps → (system config).exec {} before = some t →
        t.phase ≠ .raised → t.Hears config := by
  have positive : 0 < config.packet := by
    unfold AsrConfig.packet targetBytes
    omega
  have agrees : Agrees config {} := by
    refine ⟨⟨nofun, nofun, fun _ _ => by simp, ?_, ?_, nofun⟩, fun _ => rfl, nofun, nofun,
      fun _ => positive, nofun, nofun⟩
    · intro c member
      obtain rfl := List.mem_singleton.mp member
      exact nofun
    · intro c member
      obtain rfl := List.mem_singleton.mp member
      rfl
  refine System.exec_restrict_iff (J := fun s => s.phase ≠ .raised → s.Agrees config)
    (P := fun s => s.phase ≠ .raised → s.Hears config) ?_ ?_ (fun _ => agrees)
    (fun _ => agrees.toHears) run
  · intro s label s' agrees allowed stepped fine
    by_cases raised : s.phase = .raised
    · exact absurd (raised_step raised stepped).2 fine
    · exact (step_hears (agrees raised) stepped).1 allowed fine
  · intro s label s' agrees stepped
    by_cases raised : s.phase = .raised
    · obtain ⟨allowed, still⟩ := raised_step raised stepped
      exact ⟨fun _ fine => absurd still fine, fun _ => allowed⟩
    · obtain ⟨keeps, only⟩ := step_hears (agrees raised) stepped
      exact ⟨fun allowed fine => (keeps allowed fine).toHears, only⟩

/-- All audio has been sent when the connection breaks; the next one is closed normally. -/
theorem exhausted_audio_heard :
    ∃ s, (system ⟨10, 3⟩).exec {} [.connect, .pushStarts, .arrive (some [1, 2, 3]), .arrive none,
      .take, .sent, .take, .abnormalClose, .backedOff, .connect, .pushStarts, .normalClose] =
      some s ∧ s.Hears ⟨10, 3⟩ ∧
      s.closed.map (fun c => (c.sent, c.buf)) = [([[1, 2]], [3]), ([], [])] := by
  refine exists_of_map (fun s => (s.phase, s.closed.map fun c => (c.sent, c.buf)))
    (.returned, [([[1, 2]], [3]), ([], [])]) (by decide) fun s run same => ?_
  obtain ⟨returned, closed⟩ := Prod.mk.inj same
  have allowed := System.restrict_exec (careful ⟨10, 3⟩) run (by decide)
  have hears := (recognition_hears_iff ⟨10, 3⟩ (by decide) _ s run).mp allowed _ s List.prefix_rfl
    run (by simp [returned])
  exact ⟨hears, closed⟩

/-- A connection breaks while its push task waits for audio: the iterator is finished and the push
task of the next connection ends at once, with audio in the queue. A normal close at such a time
ends recognition without an error. -/
theorem reconnect_loses_audio :
    (∃ s, (system {}).exec {} [.connect, .pushStarts, .abnormalClose, .backedOff,
      .connect, .arrive (some [1, 2]), .pushStarts] = some s ∧ s.phase ≠ .raised ∧
      ¬ s.Hears {} ∧ s.current.push = .ended ∧ s.inbound = [some [1, 2]]) ∧
    (∃ s, (system {}).exec {} [.connect, .pushStarts, .normalClose] = some s ∧
      s.phase = .returned ∧ s.source ≠ .exhausted ∧ ¬ s.Hears {}) := by
  refine ⟨⟨_, rfl, by decide, fun hears => hears.kept rfl, rfl, rfl⟩,
    ⟨_, rfl, rfl, by decide, fun hears => hears.kept rfl⟩⟩

end Guarantees
end IsalesEngine
