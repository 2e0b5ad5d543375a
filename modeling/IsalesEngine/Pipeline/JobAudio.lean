import IsalesEngine.Pipeline.JobOrder

/-!
The audio of a streamed playback. What a call has streamed and what is left in the
buffer of its job are what the synthesis of the job has produced, and a call that
has seen the end of its iterator has streamed all of it. Every synthesis that still
runs is in somebody's hands: queued, with the producer or with the consumer.
-/
namespace IsalesEngine.PlayStreaming
open Asyncio

variable {τ χ : Type}

/-- The end marker a drain leaves in the buffer. -/
def Drain.mark : Drain → List (Option χ)
  | .ended _ => [none]
  | _ => []

theorem mark_running : (Drain.running.mark : List (Option χ)) = [] := rfl

/-- `audio_out` has not come back. -/
def Call.isOpen (call : Call χ) : Bool :=
  match call.state with
  | .returned _ => false
  | _ => true

variable {s s' : State τ χ} {j : Nat} {job job' : Job τ χ} {past : List (Call χ)} {call : Call χ}

/-- What a call has streamed of a job: what is left of the synthesis so far is in the buffer, and a
call that has seen the end has streamed all of it. -/
def Call.Hears (call : Call χ) (job : Job τ χ) : Prop :=
  match call.state with
  | .streaming => job.drain ≠ .closed ∧ ∃ left,
      job.produced = call.streamed ++ left ∧ job.buffer = left.map some ++ job.drain.mark
  | .ended error | .returned error => job.drain = .ended error ∧ job.produced = call.streamed

/-- Everything produced is in the buffer. -/
def Job.IsFresh (job : Job τ χ) : Prop :=
  job.drain ≠ .closed ∧ job.buffer = job.produced.map some ++ job.drain.mark

/-- The calls so far, one for each job in order. -/
structure Heard (jobs : List (Job τ χ)) (made : List (Call χ)) (consumer : Consumer) : Prop where
  calls : ∀ (i : Nat) (call : Call χ), made[i]? = some call →
    call.job = i ∧ ∃ job, jobs[i]? = some job ∧ call.Hears job
  opened : ∀ (i : Nat) (call : Call χ), made[i]? = some call → call.isOpen = true →
    i + 1 = made.length ∧ consumer.isPlaying = true
  fresh : consumer.isLeaving = false → ∀ (j : Nat) (job : Job τ χ), jobs[j]? = some job →
    made.length ≤ j → job.IsFresh

/-- A call whose iterator has ended hears nothing of what happens to a job that has ended. -/
theorem Call.Hears.close (hears : call.Hears job) (closed : call.isOpen = false) :
    job.close = job := by
  unfold Call.isOpen at closed
  unfold Call.Hears at hears
  cases state : call.state with
  | streaming | ended _ => simp [state] at closed
  | returned error =>
      rw [state] at hears
      rw [Job.close, hears.1]

theorem Job.IsFresh.running (fresh : job.IsFresh) (running : job.drain = .running) :
    job.buffer = job.produced.map some := by
  have buffer := fresh.2
  rw [running, mark_running, List.append_nil] at buffer
  exact buffer

theorem Job.IsFresh.hears (fresh : job.IsFresh) (j : Nat) : Call.Hears { job := j } job :=
  ⟨fresh.1, job.produced, rfl, fresh.2⟩

namespace Heard
variable {jobs : List (Job τ χ)} {made past : List (Call χ)} {consumer consumer' : Consumer}
  {j : Nat} {job job' : Job τ χ} {call call' : Call χ}

/-- The last call is for the job behind those of the calls before it. -/
theorem lastCall (heard : Heard jobs (past ++ [call]) consumer) :
    call.job = past.length ∧ ∃ job, jobs[past.length]? = some job ∧ call.Hears job :=
  heard.calls past.length call (getElem?_concat_iff.mpr (Or.inr ⟨rfl, rfl⟩))

section Moves
variable (heard : Heard jobs made consumer)
include heard

/-- Only a consumer that is playing has a call in progress. -/
theorem closed {i : Nat} (idle : consumer.isPlaying = false) (here : made[i]? = some call) :
    call.isOpen = false := by
  refine Bool.eq_false_iff.mpr fun isOpen => ?_
  have playing := (heard.opened i call here isOpen).2
  rw [idle] at playing
  contradiction

theorem newJob (text : τ) : Heard (jobs ++ [{ text := text }]) made consumer := by
  refine ⟨fun i call here => ?_, heard.opened, fun stays i job present later => ?_⟩
  · obtain ⟨index, job, own, hears⟩ := heard.calls i call here
    exact ⟨index, job, getElem?_concat_iff.mpr (Or.inl own), hears⟩
  · obtain before | ⟨-, rfl⟩ := getElem?_concat_iff.mp present
    · exact heard.fresh stays i job before later
    · exact ⟨nofun, rfl⟩

/-- A drain goes on. -/
theorem drain (own : jobs[j]? = some job)
    (hears : ∀ call : Call χ, call.Hears job → call.Hears job')
    (fresh : job.IsFresh → job'.IsFresh) : Heard (jobs.set j job') made consumer := by
  refine ⟨fun i call here => ?_, heard.opened, fun stays i job present later => ?_⟩
  · obtain ⟨index, job₀, before, hears₀⟩ := heard.calls i call here
    refine ⟨index, ?_⟩
    by_cases same : i = j
    · subst same
      obtain rfl := Option.some.inj (before.symm.trans own)
      exact ⟨job', (getElem?_set_iff own).mpr (Or.inl ⟨rfl, rfl⟩), hears call hears₀⟩
    · exact ⟨job₀, (getElem?_set_iff own).mpr (Or.inr ⟨same, before⟩), hears₀⟩
  · obtain ⟨rfl, rfl⟩ | ⟨-, before⟩ := (getElem?_set_iff own).mp present
    · exact fresh (heard.fresh stays i _ own later)
    · exact heard.fresh stays i job before later

/-- No call is in progress, and the consumer goes on without one. -/
theorem goOn (idle : consumer.isPlaying = false)
    (stays : consumer'.isLeaving = false → consumer.isLeaving = false) :
    Heard jobs made consumer' := by
  refine ⟨heard.calls, fun i call here isOpen => ?_, fun stays' => heard.fresh (stays stays')⟩
  rw [heard.closed idle here] at isOpen
  contradiction

theorem close (away : consumer.isLeaving = true) (j : Nat) :
    Heard (jobs.modify j Job.close) made consumer := by
  have idle : consumer.isPlaying = false := by
    cases consumer <;> first | rfl | contradiction
  refine ⟨fun i call here => ?_, heard.opened, fun stays => ?_⟩
  · obtain ⟨index, job, own, hears⟩ := heard.calls i call here
    refine ⟨index, job, ?_, hears⟩
    rw [List.getElem?_modify, own]
    split
    · exact congrArg some (hears.close (heard.closed idle here))
    · rfl
  · rw [away] at stays
    contradiction

/-- The next job's call begins. -/
theorem play (idle : consumer.isPlaying = false) (stays : consumer.isLeaving = false)
    (next : j = made.length) (started : j < jobs.length) :
    Heard jobs (made ++ [{ job := j }]) (.playing j) := by
  subst next
  refine ⟨fun i call here => ?_, fun i call here isOpen => ?_, fun _ i job own later => ?_⟩
  · obtain before | ⟨rfl, rfl⟩ := getElem?_concat_iff.mp here
    · exact heard.calls i call before
    · have own : jobs[made.length]? = some jobs[made.length] := List.getElem?_eq_getElem started
      exact ⟨rfl, _, own, (heard.fresh stays _ _ own (Nat.le_refl _)).hears _⟩
  · obtain before | ⟨rfl, rfl⟩ := getElem?_concat_iff.mp here
    · rw [heard.closed idle before] at isOpen
      contradiction
    · exact ⟨by rw [List.length_append]; rfl, rfl⟩
  · rw [List.length_append] at later
    exact heard.fresh stays i job own (Nat.le_of_succ_le later)

end Moves

/-- The call in progress goes on, and takes something from its job's buffer. -/
theorem take (call' : Call χ) (job' : Job τ χ) (heard : Heard jobs (past ++ [call]) consumer)
    (last : j = past.length) (own : jobs[j]? = some job) (index : call'.job = call.job)
    (isOpen : call'.isOpen = true → call.isOpen = true)
    (hears : call.Hears job → call'.Hears job') :
    Heard (jobs.set j job') (past ++ [call']) consumer := by
  subst last
  have lengths : (past ++ [call']).length = (past ++ [call]).length := by
    rw [List.length_append, List.length_append]
    rfl
  refine ⟨fun i c here => ?_, fun i c here => ?_, fun stays i job present later => ?_⟩
  · obtain before | ⟨rfl, rfl⟩ := getElem?_concat_iff.mp here
    · have inside : i < past.length := (List.getElem?_eq_some_iff.mp before).1
      obtain ⟨position, job₀, own₀, hears₀⟩ :=
        heard.calls i c (getElem?_concat_iff.mpr (Or.inl before))
      have kept : (jobs.set past.length job')[i]? = some job₀ :=
        (getElem?_set_iff own).mpr (Or.inr ⟨Nat.ne_of_lt inside, own₀⟩)
      exact ⟨position, job₀, kept, hears₀⟩
    · obtain ⟨position, job₀, own₀, hears₀⟩ := heard.lastCall
      obtain rfl := Option.some.inj (own₀.symm.trans own)
      exact ⟨index.trans position, job', (getElem?_set_iff own).mpr (Or.inl ⟨rfl, rfl⟩),
        hears hears₀⟩
  · rw [lengths]
    obtain before | ⟨rfl, rfl⟩ := getElem?_concat_iff.mp here
    · exact heard.opened i c (getElem?_concat_iff.mpr (Or.inl before))
    · exact fun stillOpen => heard.opened _ call (getElem?_concat_iff.mpr (Or.inr ⟨rfl, rfl⟩))
        (isOpen stillOpen)
  · rw [lengths, List.length_append] at later
    obtain ⟨rfl, -⟩ | ⟨-, before⟩ := (getElem?_set_iff own).mp present
    · exact absurd later (by simp)
    · refine heard.fresh stays i job before ?_
      rw [List.length_append]
      exact later

/-- The call in progress returns or raises. -/
theorem finish {error : Option String} (heard : Heard jobs (past ++ [call]) (.playing j))
    (last : j = past.length) (own : jobs[j]? = some job) (ended : call.state = .ended error) :
    Heard jobs (past ++ [{ call with state := .returned error }]) consumer' := by
  have taken := heard.take { call with state := .returned error } job last own rfl nofun
    fun hears => by rw [Call.Hears, ended] at hears; exact hears
  obtain ⟨inside, rfl⟩ := List.getElem?_eq_some_iff.mp own
  rw [List.set_getElem_self] at taken
  refine ⟨taken.calls, fun i c here isOpen => ?_, fun _ => taken.fresh rfl⟩
  -- an open call would be the last one, and that has just returned
  have position := (taken.opened i c here isOpen).1
  obtain before | ⟨-, rfl⟩ := getElem?_concat_iff.mp here
  · have inside : i < past.length := (List.getElem?_eq_some_iff.mp before).1
    rw [List.length_append, List.length_singleton] at position
    omega
  · contradiction

end Heard

def State.IsHeard (s : State τ χ) : Prop := Heard s.jobs s.calls s.consumer

/-- A job that has not ended has no call that saw its end. -/
theorem Call.Hears.streaming (hears : call.Hears job) (running : job.drain = .running) :
    call.state = .streaming ∧ ∃ left, job.produced = call.streamed ++ left ∧
      job.buffer = left.map some := by
  unfold Call.Hears at hears
  cases state : call.state with
  | streaming =>
      rw [state] at hears
      obtain ⟨-, left, produced, buffer⟩ := hears
      rw [running, mark_running, List.append_nil] at buffer
      exact ⟨rfl, left, produced, buffer⟩
  | ended _ | returned _ =>
      rw [state] at hears
      rw [running] at hears
      exact absurd hears.1 nofun

theorem State.IsHeard.synthesizes (heard : s.IsHeard) (chunk : χ)
    (own : s.jobs[j]? = some job) (running : job.drain = .running) : Heard (s.jobs.set j { job with
      buffer := job.buffer ++ [some chunk], produced := job.produced ++ [chunk] })
      s.calls s.consumer := by
  refine heard.drain own (fun call hears => ?_) fun fresh => ?_
  · obtain ⟨state, left, produced, buffer⟩ := hears.streaming running
    rw [Call.Hears, state]
    refine ⟨by rw [running]; nofun, left ++ [chunk], ?_, ?_⟩
    · rw [produced, List.append_assoc]
    · rw [buffer, running, mark_running, List.map_append, List.append_nil]
      rfl
  · refine ⟨fresh.1, ?_⟩
    rw [fresh.running running, running, mark_running, List.map_append, List.append_nil]
    rfl

theorem State.IsHeard.synthesisEnds (heard : s.IsHeard)
    (error : Option String) (own : s.jobs[j]? = some job) (running : job.drain = .running) :
    Heard (s.jobs.set j { job with buffer := job.buffer ++ [none], drain := .ended error })
      s.calls s.consumer := by
  refine heard.drain own (fun call hears => ?_) fun fresh => ?_
  · obtain ⟨state, left, produced, buffer⟩ := hears.streaming running
    rw [Call.Hears, state]
    exact ⟨nofun, left, produced, by rw [buffer]; rfl⟩
  · exact ⟨nofun, by rw [fresh.running running]; rfl⟩

theorem State.IsLined.last (lined : s.IsLined) (playing : s.consumer = .playing j)
    (calls : s.calls = past ++ [call]) : j = past.length := by
  rw [State.IsLined, playing, calls, List.length_append] at lined
  exact Nat.succ.inj (lined.current rfl j (List.mem_singleton.mpr rfl))

theorem State.IsHeard.takesChunk
    {chunk : χ} {buffer : List (Option χ)} (heard : Heard s.jobs (past ++ [call]) s.consumer)
    (last : j = past.length) (own : s.jobs[j]? = some job) (streaming : call.state = .streaming)
    (front : job.buffer = some chunk :: buffer) : Heard (s.jobs.set j { job with buffer })
      (past ++ [{ call with streamed := call.streamed ++ [chunk] }]) s.consumer := by
  refine heard.take _ _ last own rfl id fun hears => ?_
  simp only [Call.Hears, streaming] at hears ⊢
  obtain ⟨live, left, produced, queued⟩ := hears
  rw [front] at queued
  cases left with
  | nil =>
      -- the end marker is not a chunk
      cases drain : job.drain <;> simp [drain, Drain.mark] at queued
  | cons first left =>
      obtain ⟨same, rest⟩ := List.cons.inj queued
      obtain rfl := Option.some.inj same
      exact ⟨live, left, by rw [produced, List.append_assoc]; rfl, rest⟩

theorem State.IsHeard.takesEnd {error : Option String} {buffer : List (Option χ)}
    (heard : Heard s.jobs (past ++ [call]) s.consumer) (last : j = past.length)
    (own : s.jobs[j]? = some job) (streaming : call.state = .streaming)
    (front : job.buffer = none :: buffer) (ended : job.drain = .ended error) :
    Heard (s.jobs.set j { job with buffer })
      (past ++ [{ call with state := .ended error }]) s.consumer := by
  refine heard.take _ _ last own rfl (fun _ => by rw [Call.isOpen, streaming]) fun hears => ?_
  simp only [Call.Hears, streaming] at hears ⊢
  obtain ⟨-, left, produced, queued⟩ := hears
  rw [front] at queued
  cases left with
  | nil => exact ⟨ended, by rw [produced, List.append_nil]⟩
  | cons first left => exact absurd (List.cons.inj queued).1 nofun

theorem State.IsHeard.move (heard : s.IsHeard) (lined : s.IsLined) (move : Move s s') :
    s'.IsHeard := by
  unfold State.IsHeard at heard ⊢
  cases move with
  | yields _ _ => exact heard.newJob _
  | closesPending closing => exact heard.close (lined.stopped (by rw [closing]; rfl)) _
  | synthesizes chunk own running => exact State.IsHeard.synthesizes heard chunk own running
  | synthesisEnds error own running => exact State.IsHeard.synthesisEnds heard error own running
  | getsFirst getting _ =>
      rw [getting] at heard
      exact heard.goOn rfl fun _ => rfl
  | getsJob getting front _ =>
      rw [State.IsLined, getting, front] at lined
      rw [getting] at heard
      obtain ⟨next, started⟩ := lined.takeFirst.stopFiller.next
      exact heard.play rfl rfl next started
  | getsSentinel getting _ =>
      rw [getting] at heard
      exact heard.goOn rfl nofun
  | stopsFiller stopping =>
      rw [stopping] at heard
      exact heard.goOn rfl fun _ => rfl
  | fillerStops stopping _ =>
      rw [State.IsLined, stopping] at lined
      rw [stopping] at heard
      obtain ⟨next, started⟩ := lined.next
      exact heard.play rfl rfl next started
  | takesChunk playing own calls streaming front =>
      have last := State.IsLined.last lined playing calls
      rw [calls] at heard
      exact State.IsHeard.takesChunk heard last own streaming front
  | takesEnd playing own calls streaming front ended =>
      have last := State.IsLined.last lined playing calls
      rw [calls] at heard
      exact State.IsHeard.takesEnd heard last own streaming front ended
  | returns playing calls ended | raises _ playing calls ended =>
      have last := State.IsLined.last lined playing calls
      rw [calls] at heard
      obtain ⟨-, job, own, -⟩ := heard.lastCall
      rw [playing] at heard
      exact heard.finish last (last ▸ own) ended
  | closesCurrent here =>
      rw [here] at heard
      exact (heard.close rfl _).goOn rfl nofun
  | closesQueued here _ => exact heard.close (by rw [here]; rfl) _
  | cleansGate here | cancelsProducer here | producerGone here _ | noCurrent here
  | queueEmpty here _ | cancelsEager here | cancelsFiller here | leaves here _ =>
      rw [here] at heard
      exact heard.goOn rfl nofun
  | _ => exact heard

/-- Every synthesis that still runs is in somebody's hands. -/
def Owned (jobs : List (Job τ χ)) (hands : List Nat) : Prop :=
  ∀ (j : Nat) (job : Job τ χ), jobs[j]? = some job → job.drain = .running → j ∈ hands

def State.IsOwned (s : State τ χ) : Prop := Owned s.jobs (s.waiting ++ s.consumer.current)

namespace Owned
variable {jobs : List (Job τ χ)} {hands hands' : List Nat} {j : Nat} {job job' : Job τ χ}

theorem close_drain (job : Job τ χ) : job.close.drain ≠ .running := by
  unfold Job.close
  split
  · nofun
  · assumption

variable (owned : Owned jobs hands)
include owned

theorem pass (passed : hands ⊆ hands') : Owned jobs hands' :=
  fun i job here running => passed (owned i job here running)

theorem newJob (text : τ) (passed : hands ⊆ hands') (new : jobs.length ∈ hands') :
    Owned (jobs ++ [{ text := text }]) hands' := by
  intro i job here running
  obtain before | ⟨rfl, -⟩ := getElem?_concat_iff.mp here
  · exact passed (owned i job before running)
  · exact new

theorem set (own : jobs[j]? = some job) (drain : job'.drain = .running → job.drain = .running) :
    Owned (jobs.set j job') hands := by
  intro i job₀ here running
  obtain ⟨rfl, rfl⟩ | ⟨-, before⟩ := (getElem?_set_iff own).mp here
  · exact owned i job own (drain running)
  · exact owned i job₀ before running

/-- A job that was closed, or has ended, may be let go. -/
theorem close (passed : ∀ i ∈ hands, i = j ∨ i ∈ hands') :
    Owned (jobs.modify j Job.close) hands' := by
  intro i job here running
  rw [List.getElem?_modify] at here
  obtain ⟨job₀, before, rfl⟩ := Option.map_eq_some_iff.mp here
  by_cases closed : j = i
  · rw [if_pos closed] at running
    exact absurd running (close_drain job₀)
  · rw [if_neg closed] at running
    exact (passed i (owned i job₀ before running)).resolve_left (Ne.symm closed)

theorem letGo (own : jobs[j]? = some job) (ended : job.drain ≠ .running)
    (passed : ∀ i ∈ hands, i = j ∨ i ∈ hands') : Owned jobs hands' := by
  intro i job₀ here running
  obtain rfl | kept := passed i (owned i job₀ here running)
  · obtain rfl := Option.some.inj (own.symm.trans here)
    exact absurd running ended
  · exact kept

end Owned

theorem State.IsOwned.move (owned : s.IsOwned) (lined : s.IsLined) (heard : s.IsHeard)
    (move : Move s s') : s'.IsOwned := by
  unfold State.IsOwned State.waiting at owned ⊢
  cases move with
  | yields pulling _ =>
      refine Owned.newJob owned _ ?_ ?_
      · simp [State.start, pulling, Producer.held]
      · simp [State.start, Producer.held]
  | refuses _ here _ | exhausts here _ _ | fails _ here | stopsFiller here | fillerStops here _
  | raises _ here _ _ | cleansGate here | producerGone here _ | noCurrent here
  | queueEmpty here _ | cancelsEager here | cancelsFiller here =>
      rw [here] at owned
      exact owned
  | putsJob _ putting =>
      refine owned.pass ?_
      simp [putting, Producer.held]
  | putsSentinel _ ending =>
      refine owned.pass ?_
      simp [ending, Producer.held]
  | closesPending closing =>
      refine owned.close fun i => ?_
      simp only [closing, Producer.held, List.mem_append, List.mem_singleton]
      tauto
  | synthesizes _ own running => exact owned.set own fun _ => running
  | synthesisEnds error own _ => exact owned.set own fun running => by simp at running
  | getsFirst getting front | getsSentinel getting front =>
      refine owned.pass ?_
      simp [getting, front, Consumer.current]
  | getsJob getting front _ =>
      refine owned.pass ?_
      simp [getting, front, State.play, Consumer.current]
  | takesChunk _ own _ _ _ | takesEnd _ own _ _ _ _ => exact owned.set own id
  | returns playing calls ended =>
      have last := State.IsLined.last lined playing calls
      rw [State.IsHeard, calls] at heard
      obtain ⟨-, job, own, hears⟩ := Heard.lastCall heard
      rw [Call.Hears, ended] at hears
      refine owned.letGo (last ▸ own) (by simp [hears.1]) ?_
      intro i
      simp only [playing, Consumer.current, List.mem_append, List.mem_singleton]
      tauto
  | cancelsProducer here =>
      rw [here] at owned
      simp only [State.cancelProducer, held_cancel]
      exact owned
  | closesCurrent here =>
      refine owned.close fun i => ?_
      simp only [here, Consumer.current, Option.toList, List.mem_append, List.mem_singleton]
      tauto
  | closesQueued _ front =>
      rw [front] at owned
      exact owned.close fun i member => List.mem_cons.mp member
  | dropsSentinel _ front =>
      rw [front] at owned
      exact owned
  | leaves here _ =>
      rw [lined.released (by rw [here]; rfl)] at owned
      exact owned
  | _ => exact owned

end IsalesEngine.PlayStreaming
