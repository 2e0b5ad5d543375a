import Mathlib.Data.List.Nodup
import IsalesEngine.Asyncio.System

/-!
The outbound side of one edge connection. `send` puts a frame on a bounded
queue and waits for a slot until its timeout, `outbound` yields what it takes
off the queue, and `close` puts the end marker there if there is room. A frame is
named by the `send` that passed it. A closed stream ends exactly if its marker
found room, and a `send` that still waits then returns normally when it gets a
slot, so both have to be excluded.
-/
namespace IsalesEngine
open Asyncio

inductive OutboundItem where
  | frame (send : Nat)
  | close
  deriving DecidableEq, Repr

def OutboundItem.sender? : OutboundItem → Option Nat
  | .frame i => some i
  | .close => none

/-- A `send`: in `wait_for`, returned, or ended by `EdgeNotConnected`. -/
inductive SendState where
  | pending
  | returned
  | raised
  deriving DecidableEq, Repr

/-- `accepted` and `pendingAtClose` are history variables: the frames in the order in which they
were put on the queue, and the sends that waited when `close` ran. -/
structure ServerStream where
  outbound : List OutboundItem := []
  closed : Bool := false
  sends : List SendState := []
  ended : Bool := false
  yielded : List Nat := []
  accepted : List Nat := []
  pendingAtClose : List Nat := []
  deriving DecidableEq, Repr

/-- A section of a caller of `send`, of the consumer of `outbound`, or of `close`. -/
inductive ServerStreamStep where
  | send
  | put (send : Nat)
  | timeout (send : Nat)
  | get
  | close
  deriving DecidableEq, Repr

namespace ServerStream

def maxsize : Nat := 64

def full (s : ServerStream) : Bool := decide (maxsize ≤ s.outbound.length)

def send (s : ServerStream) : ServerStream :=
  { s with sends := s.sends ++ [if s.closed then .raised else .pending] }

/-- `put_nowait` of a put that found a free slot; `send` returns. -/
def put (s : ServerStream) (i : Nat) : ServerStream :=
  { s with
    outbound := s.outbound ++ [.frame i], sends := s.sends.set i .returned
    accepted := s.accepted ++ [i] }

def get (s : ServerStream) (item : OutboundItem) (rest : List OutboundItem) : ServerStream :=
  match item with
  | .frame i => { s with outbound := rest, yielded := s.yielded ++ [i] }
  | .close => { s with outbound := rest, ended := true }

/-- The sends that wait. -/
def pending (s : ServerStream) : List Nat :=
  (List.range s.sends.length).filter fun i => s.sends[i]? == some .pending

def close (s : ServerStream) : ServerStream :=
  if s.closed then s
  else { s with
    closed := true, pendingAtClose := s.pending
    outbound := if s.full then s.outbound else s.outbound ++ [.close] }

def step (s : ServerStream) : ServerStreamStep → Option ServerStream
  | .send => some s.send
  | .put i => if s.sends[i]? = some .pending ∧ s.full = false then some (s.put i) else none
  | .timeout i =>
      if s.sends[i]? = some .pending then some { s with sends := s.sends.set i .raised } else none
  | .get => match s.outbound with
      | item :: rest => if s.ended = false then some (s.get item rest) else none
      | [] => none
  | .close => some s.close

def system : System ServerStream ServerStreamStep := ⟨step⟩

/-- The marker finds room, and no `send` that waited for the closing gets a slot. -/
def careful (s : ServerStream) : ServerStreamStep → Bool
  | .close => s.closed || !s.full
  | .put _ => !s.closed
  | _ => true

/-- The frames yielded are those whose `send` returned, in the order in which they were accepted. A
closed stream is never left waiting on an empty queue and its consumer takes a bounded number of
items, and no `send` that waited when it was closed has returned. -/
structure Clean (s : ServerStream) : Prop where
  yields : s.yielded <+: s.accepted ∧ s.accepted.Nodup ∧
    ∀ i, i ∈ s.accepted ↔ s.sends[i]? = some .returned
  ends : s.closed = true →
    (∀ later t, system.exec s later = some t → t.ended = true ∨ t.outbound ≠ []) ∧
    ∃ bound, ∀ later t, system.exec s later = some t → later.count .get ≤ bound
  late : ∀ i ∈ s.pendingAtClose, s.sends[i]? ≠ some .returned

inductive Stepped (s : ServerStream) : ServerStreamStep → ServerStream → Prop
  | send : Stepped s .send s.send
  | put {i} (waits : s.sends[i]? = some .pending) (room : s.full = false) :
      Stepped s (.put i) (s.put i)
  | timeout {i} (waits : s.sends[i]? = some .pending) :
      Stepped s (.timeout i) { s with sends := s.sends.set i .raised }
  | get {item rest} (items : s.outbound = item :: rest) (opened : s.ended = false) :
      Stepped s .get (s.get item rest)
  | close : Stepped s .close s.close

section Steps
variable {s s' : ServerStream} {label : ServerStreamStep} {n i : Nat}

theorem step_stepped (h : s.step label = some s') : Stepped s label s' := by
  cases label with
  | send =>
      cases h
      exact .send
  | put i =>
      obtain ⟨⟨waits, room⟩, rfl⟩ := of_guard h
      exact .put waits room
  | timeout i =>
      obtain ⟨waits, rfl⟩ := of_guard h
      exact .timeout waits
  | get =>
      simp only [step] at h
      split at h
      · rename_i item rest items
        obtain ⟨opened, rfl⟩ := of_guard h
        exact .get items opened
      · cases h
  | close =>
      cases h
      exact .close

/-- The end of the stream is on its way at most `n` items down the queue. -/
def EndsWithin (n : Nat) (s : ServerStream) : Prop :=
  s.ended = true ∨ ∃ before after, s.outbound = before ++ .close :: after ∧ before.length < n

/-- A `get` moves the end marker by one, and nothing else moves it. -/
theorem EndsWithin.get {item : OutboundItem} {rest : List OutboundItem} (ends : EndsWithin n s)
    (items : s.outbound = item :: rest) (running : s.ended = false) :
    0 < n ∧ EndsWithin (n - 1) (s.get item rest) := by
  obtain ended | ⟨before, after, marked, short⟩ := ends
  · exact absurd (ended.symm.trans running) (by decide)
  refine ⟨Nat.zero_lt_of_lt short, ?_⟩
  cases before with
  | nil =>
      obtain ⟨rfl, rfl⟩ := List.cons.inj (items.symm.trans marked)
      exact .inl rfl
  | cons first before =>
      obtain ⟨rfl, rfl⟩ := List.cons.inj (items.symm.trans marked)
      cases item with
      | close => exact .inl rfl
      | frame i =>
          refine .inr ⟨before, after, rfl, ?_⟩
          rw [List.length_cons] at short
          omega

theorem EndsWithin.append (ends : EndsWithin n s) (ended : s'.ended = s.ended)
    (grown : ∃ more, s'.outbound = s.outbound ++ more) : EndsWithin n s' := by
  obtain finished | ⟨before, after, marked, short⟩ := ends
  · exact .inl (ended.trans finished)
  obtain ⟨more, grown⟩ := grown
  refine .inr ⟨before, after ++ more, ?_, short⟩
  rw [grown, marked, List.append_assoc, List.cons_append]

theorem close_outbound : ∃ more, s.close.outbound = s.outbound ++ more := by
  unfold close
  split
  · exact ⟨[], (List.append_nil _).symm⟩
  · dsimp only
    split
    · exact ⟨[], (List.append_nil _).symm⟩
    · exact ⟨[.close], rfl⟩

theorem close_ended : s.close.ended = s.ended := by
  unfold close
  split <;> rfl

theorem EndsWithin.step (ends : EndsWithin n s) (stepped : Stepped s label s')
    (other : label ≠ .get) : EndsWithin n s' := by
  cases stepped with
  | send => exact ends.append rfl ⟨[], (List.append_nil _).symm⟩
  | put waits room => exact ends.append rfl ⟨_, rfl⟩
  | timeout waits => exact ends.append rfl ⟨[], (List.append_nil _).symm⟩
  | get items running => exact absurd rfl other
  | close => exact ends.append close_ended close_outbound

/-- A consumer takes no more items than are left up to the marker, and always finds one. -/
theorem EndsWithin.run {later : List ServerStreamStep} (ends : EndsWithin n s)
    (run : system.exec s later = some s') :
    later.count .get ≤ n ∧ (s'.ended = true ∨ s'.outbound ≠ []) := by
  induction later generalizing s n with
  | nil =>
      cases run
      refine ⟨Nat.zero_le n, ends.imp_right ?_⟩
      intro ⟨before, after, marked, _⟩ empty
      simp [empty] at marked
  | cons label later ih =>
      obtain ⟨t, stepped, rest⟩ := System.exec_cons run
      have stepped := step_stepped stepped
      by_cases taken : label = .get
      · subst taken
        cases stepped with
        | get items running =>
            obtain ⟨positive, shorter⟩ := ends.get items running
            obtain ⟨bounded, more⟩ := ih shorter rest
            refine ⟨?_, more⟩
            rw [List.count_cons_self]
            omega
      · obtain ⟨bounded, more⟩ := ih (ends.step stepped taken) rest
        refine ⟨?_, more⟩
        rw [List.count_cons_of_ne taken]
        exact bounded

/-- Without a marker the consumer can take everything, and then waits. -/
theorem drained (running : s.ended = false) (unmarked : .close ∉ s.outbound) :
    ∃ later t, system.exec s later = some t ∧ t.ended = false ∧ t.outbound = [] := by
  generalize queue : s.outbound = items at unmarked
  induction items generalizing s with
  | nil => exact ⟨[], s, rfl, running, queue⟩
  | cons item rest ih =>
      obtain ⟨different, behind⟩ := not_or.mp (List.mem_cons.not.mp unmarked)
      cases item with
      | close => exact absurd rfl different
      | frame i =>
          obtain ⟨later, t, run, final⟩ := ih (s := s.get (.frame i) rest) running rfl behind
          refine ⟨.get :: later, t, ?_, final⟩
          have stepped : s.step .get = some (s.get (.frame i) rest) := by
            simp only [step, queue, running, if_true]
          exact Option.bind_eq_some_iff.mpr ⟨_, stepped, run⟩

end Steps

/-- The invariant of careful runs. -/
structure Sound (s : ServerStream) : Prop where
  frames : s.accepted = s.yielded ++ s.outbound.filterMap OutboundItem.sender?
  distinct : s.accepted.Nodup
  returned : ∀ i, i ∈ s.accepted ↔ s.sends[i]? = some .returned
  fresh : s.closed = false → s.ended = false ∧ .close ∉ s.outbound ∧ s.pendingAtClose = []
  marked : s.closed = true → ∃ n, EndsWithin n s
  waiting : s.closed = true → ∀ i, s.sends[i]? = some .pending → i ∈ s.pendingAtClose
  late : ∀ i ∈ s.pendingAtClose, s.sends[i]? ≠ some .returned

section Sound
variable {s s' : ServerStream} {label : ServerStreamStep}

theorem mem_pending {i : Nat} : i ∈ s.pending ↔ s.sends[i]? = some .pending := by
  simp only [pending, List.mem_filter, List.mem_range, beq_iff_eq, and_iff_right_iff_imp]
  exact fun waits => (List.getElem?_eq_some_iff.mp waits).1

theorem send_state {i : Nat} {state : SendState} (other : state ≠ .raised)
    (opened : s.closed = true ∨ state ≠ .pending) :
    s.send.sends[i]? = some state ↔ s.sends[i]? = some state := by
  have last : (if s.closed then SendState.raised else .pending) ≠ state := by
    cases closed : s.closed with
    | true => exact fun same => other same.symm
    | false =>
        rw [closed] at opened
        exact fun same => (opened.resolve_left (by decide)) same.symm
  exact getElem?_concat_iff.trans (or_iff_left fun added => last added.2)

theorem Sound.clean (sound : Sound s) : Clean s where
  yields := by
    refine ⟨?_, sound.distinct, sound.returned⟩
    rw [sound.frames]
    exact List.prefix_append _ _
  ends closed := by
    obtain ⟨n, ends⟩ := sound.marked closed
    exact ⟨fun _ _ run => (ends.run run).2, n, fun _ _ run => (ends.run run).1⟩
  late := sound.late

theorem Sound.step (sound : Sound s) (allowed : s.careful label = true)
    (stepped : Stepped s label s') : Sound s' := by
  have marked : ∀ closed : s.closed = true, label ≠ .get → ∃ n, EndsWithin n s' := by
    intro closed other
    obtain ⟨n, ends⟩ := sound.marked closed
    exact ⟨n, ends.step stepped other⟩
  obtain ⟨frames, distinct, returned, fresh, ends, waiting, late⟩ := sound
  cases stepped with
  | send =>
      have same : ∀ i, s.send.sends[i]? = some SendState.returned ↔
          s.sends[i]? = some SendState.returned :=
        fun _ => send_state (by decide) (.inr (by decide))
      have waits : s.closed = true → ∀ i, s.send.sends[i]? = some SendState.pending →
          s.sends[i]? = some SendState.pending :=
        fun closed _ => (send_state (by decide) (.inl closed)).mp
      refine ⟨frames, distinct, ?_, fresh, fun closed => marked closed nofun, ?_, ?_⟩
      · exact fun i => (returned i).trans (same i).symm
      · exact fun closed i still => waiting closed i (waits closed i still)
      · exact fun i early now => late i early ((same i).mp now)
  | @put i waits room =>
      have opened : s.closed = false := by simpa [careful] using allowed
      have unsent : i ∉ s.accepted := by
        rw [returned i, waits]
        nofun
      have shut : s.closed ≠ true := by simp [opened]
      obtain ⟨running, unmarked, nobody⟩ := fresh opened
      refine ⟨?_, ?_, ?_, ?_, fun closed => absurd closed shut,
        fun closed => absurd closed shut, ?_⟩
      · simp [put, frames, OutboundItem.sender?]
      · simpa [put] using List.Nodup.concat unsent distinct
      · intro j
        rw [put, getElem?_set_iff waits, List.mem_append, List.mem_singleton, returned j]
        by_cases same : j = i <;> simp [same]
      · exact fun _ => ⟨running, by simpa [put] using unmarked, nobody⟩
      · intro j early
        rw [show (s.put i).pendingAtClose = [] from nobody] at early
        cases early
  | @timeout i waits =>
      have unsent : i ∉ s.accepted := by
        rw [returned i, waits]
        nofun
      refine ⟨frames, distinct, ?_, fresh, fun closed => marked closed nofun, ?_, ?_⟩
      · intro j
        rw [getElem?_set_iff waits, ← returned j]
        by_cases same : j = i <;> simp [same, unsent]
      · intro closed j still
        obtain ⟨-, impossible⟩ | ⟨-, still⟩ := (getElem?_set_iff waits).mp still
        · cases impossible
        · exact waiting closed j still
      · intro j early now
        obtain ⟨-, impossible⟩ | ⟨-, now⟩ := (getElem?_set_iff waits).mp now
        · cases impossible
        · exact late j early now
  | @get item rest items running =>
      have ends' : s.closed = true → ∃ n, EndsWithin n (s.get item rest) := by
        intro closed
        obtain ⟨n, ends⟩ := ends closed
        exact ⟨n - 1, (ends.get items running).2⟩
      cases item with
      | frame i =>
          refine ⟨?_, distinct, returned, ?_, ends', waiting, late⟩
          · simp [get, frames, items, OutboundItem.sender?]
          · intro opened
            obtain ⟨-, unmarked, nobody⟩ := fresh opened
            rw [items] at unmarked
            exact ⟨running, fun inside => unmarked (.tail _ inside), nobody⟩
      | close =>
          refine ⟨?_, distinct, returned, ?_, ends', waiting, late⟩
          · simp [get, frames, items, List.filterMap_cons, OutboundItem.sender?]
          · intro opened
            obtain ⟨-, unmarked, -⟩ := fresh opened
            rw [items] at unmarked
            exact absurd (List.mem_cons_self ..) unmarked
  | close =>
      cases closed : s.closed with
      | true =>
          have same : s.close = s := by simp [close, closed]
          rw [same]
          exact ⟨frames, distinct, returned, fresh, ends, waiting, late⟩
      | false =>
          have room : s.full = false := by simpa [careful, closed] using allowed
          have now : s.close = { s with
              closed := true, pendingAtClose := s.pending
              outbound := s.outbound ++ [.close] } := by simp [close, closed, room]
          rw [now]
          refine ⟨?_, distinct, returned, nofun, fun _ => ?_, fun _ i => mem_pending.mpr, ?_⟩
          · simp [frames, OutboundItem.sender?]
          · exact ⟨_, .inr ⟨s.outbound, [], rfl, Nat.lt_succ_self _⟩⟩
          · intro i early now
            exact nomatch (mem_pending.mp early).symm.trans now

theorem Sound.careful_of_clean (sound : Sound s) (stepped : Stepped s label s')
    (clean : Clean s') : s.careful label = true := by
  cases stepped with
  | @put i waits room =>
      cases closed : s.closed with
      | false => simp [careful, closed]
      | true =>
          have inside : i < s.sends.length := (List.getElem?_eq_some_iff.mp waits).1
          refine absurd ?_ (clean.late i (sound.waiting closed i waits))
          simp [put, inside]
  | close =>
      refine Classical.byContradiction fun hasty => ?_
      obtain ⟨opened, full⟩ : s.closed = false ∧ s.full = true := by
        simpa [careful] using hasty
      obtain ⟨running, unmarked, -⟩ := sound.fresh opened
      have same : s.close = { s with closed := true, pendingAtClose := s.pending } := by
        simp [close, opened, full]
      rw [same] at clean
      obtain ⟨later, t, run, waits, empty⟩ := drained
        (s := { s with closed := true, pendingAtClose := s.pending }) running unmarked
      obtain ended | more := (clean.ends rfl).1 later t run
      · exact absurd (ended.symm.trans waits) (by decide)
      · exact more empty
  | _ => rfl

end Sound
end ServerStream

namespace Guarantees
open ServerStream

/-- In every run of an edge stream: the closing found room and no send got a slot after it, exactly
if in every state on the way the stream yields what was accepted, a closed stream ends and no send
that waited for the closing has returned. -/
theorem stream_closes_cleanly_iff (steps : List ServerStreamStep) (s : ServerStream)
    (run : system.exec {} steps = some s) :
    (system.restrict careful).exec {} steps = some s ↔
      ∀ before t, before <+: steps → system.exec {} before = some t → t.Clean := by
  have sound : Sound {} :=
    ⟨rfl, .nil, by simp, fun _ => ⟨rfl, nofun, rfl⟩, nofun, nofun, nofun⟩
  refine System.exec_restrict_iff (J := Sound) (P := ServerStream.Clean) ?_ ?_ sound sound.clean run
  · intro s label s' sound allowed stepped
    exact sound.step allowed (step_stepped stepped)
  · intro s label s' sound stepped
    have stepped := step_stepped stepped
    exact ⟨fun allowed => (sound.step allowed stepped).clean, sound.careful_of_clean stepped⟩

/-- A stream is closed with a frame queued and a send waiting, which times out. -/
theorem idle_stream_closes :
    ∃ s, system.exec {} [.send, .put 0, .send, .close, .timeout 1, .get, .get] = some s ∧
      s.Clean := by
  have run : system.exec {} [.send, .put 0, .send, .close, .timeout 1, .get, .get] =
      some ⟨[], true, [.returned, .raised], true, [0], [0], [1]⟩ := by decide
  refine ⟨_, run, ?_⟩
  exact (stream_closes_cleanly_iff _ _ run).mp (by decide) _ _ List.prefix_rfl run

/-- Sixty-four frames are queued and one more send waits when the stream is closed. The marker is
dropped, the waiting send returns once the consumer has taken a frame, and after all frames the
consumer waits on the empty queue. -/
theorem full_stream_never_ends :
    (system.exec {} ((List.range 64).flatMap (fun i => [.send, .put i]) ++
      [.send, .close, .get, .put 64] ++ List.replicate 64 .get)).map
      (fun s => (s.outbound, s.closed, s.ended, s.pendingAtClose, s.sends[64]?)) =
    some ([], true, false, [64], some .returned) := by
  decide +kernel

end Guarantees
end IsalesEngine
