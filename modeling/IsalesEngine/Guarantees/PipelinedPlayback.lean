import IsalesEngine.Pipeline.JobAudio

/-!
Pipelined playback is sequential playback. The jobs are taken in the order of the
sentences, and each call streams what its synthesis produces. The filler is off the
line before the first call. Whatever leaves the consumer's loop early sets the
error, and the `finally` block closes every synthesis that is still in somebody's
hands.
-/
namespace IsalesEngine.PlayStreaming
open Asyncio

variable {τ χ : Type} {s s' : State τ χ} {label : Label τ χ}

/-- As long as no error is set, nothing was lost: no call has raised, a producer that has ended its
loop has handed out the whole reply, and a consumer that has left its loop has played it. -/
structure State.IsFlagged (s : State τ χ) : Prop where
  raised : s.error = none → ∀ call ∈ s.calls, ∀ e, call.state ≠ .returned (some e)
  complete : s.error = none → s.producer = .ending ∨ s.producer = .finished →
    s.generator = .finished ∧ s.replayed = s.reply.length
  played : s.error = none → s.consumer.isLeaving = true →
    s.producer = .finished ∧ s.calls.length = s.jobs.length

/-- Once an error is set there is nothing to show. -/
theorem State.IsFlagged.of_error (set : s.error ≠ none) : s.IsFlagged :=
  ⟨fun none => absurd none set, fun none => absurd none set, fun none => absurd none set⟩

/-- With a producer at work the consumer has not left its loop unless an error is set. -/
theorem State.IsFlagged.working (flagged : s.IsFlagged) (works : s.producer ≠ .finished)
    (fine : s.error = none) : s.consumer.isLeaving ≠ true :=
  fun away => works (flagged.played fine away).1

/-- The generation goes on: then the producer has not ended its loop unless an error is set. -/
theorem State.IsFlagged.generating (flagged : s.IsFlagged) (running : s.generator = .running)
    (fine : s.error = none) : ¬ (s.producer = .ending ∨ s.producer = .finished) := by
  intro ended
  have finished := (flagged.complete fine ended).1
  rw [running] at finished
  contradiction

/-- The call in progress goes on without raising. -/
theorem State.IsFlagged.calls {past : List (Call χ)} {call call' : Call χ} (flagged : s.IsFlagged)
    (calls : s.calls = past ++ [call]) (quiet : ∀ e, call'.state ≠ .returned (some e)) :
    s.error = none → ∀ c ∈ past ++ [call'], ∀ e, c.state ≠ .returned (some e) := by
  intro fine c member
  obtain before | last := List.mem_append.mp member
  · exact flagged.raised fine c (calls ▸ List.mem_append_left _ before)
  · rw [List.mem_singleton.mp last]
    exact quiet

/-- A consumer in its loop has nothing to show yet. -/
theorem staying {consumer : Consumer} {fine shown : Prop} (stays : consumer.isLeaving = false) :
    fine → consumer.isLeaving = true → shown := by
  intro _ away
  rw [stays] at away
  contradiction

theorem State.IsFlagged.move (flagged : s.IsFlagged) (lined : s.IsLined) (move : Move s s') :
    s'.IsFlagged := by
  cases move with
  | generates _ running | finishes running =>
      refine ⟨flagged.raised, fun fine ended => ?_, flagged.played⟩
      exact absurd ended (flagged.generating running fine)
  | flags error _ => exact State.IsFlagged.of_error (Option.some_ne_none error)
  | refuses error _ _ => exact State.IsFlagged.of_error (flag_ne_none s error)
  | fails error _ | raises error _ _ _ => exact State.IsFlagged.of_error (flag_ne_none s error)
  | yields pulling _ =>
      refine ⟨flagged.raised, fun _ ended => ?_, fun fine away => ?_⟩
      · obtain _ | _ := ended <;> contradiction
      · exact absurd away (flagged.working (by simp [pulling]) fine)
  | exhausts pulling finished all =>
      refine ⟨flagged.raised, fun _ _ => ⟨finished, all⟩, fun fine away => ?_⟩
      exact absurd away (flagged.working (by simp [pulling]) fine)
  | putsJob _ putting =>
      refine ⟨flagged.raised, fun _ ended => ?_, fun fine away => ?_⟩
      · obtain _ | _ := ended <;> contradiction
      · exact absurd away (flagged.working (by simp [putting]) fine)
  | putsSentinel _ ending =>
      refine ⟨flagged.raised, fun fine _ => flagged.complete fine (Or.inl ending), ?_⟩
      exact fun fine away => absurd away (flagged.working (by simp [ending]) fine)
  | closesPending closing =>
      refine ⟨flagged.raised, fun _ ended => ?_, fun fine away => ?_⟩
      · obtain _ | _ := ended <;> contradiction
      · exact absurd away (flagged.working (by simp [closing]) fine)
  | synthesizes _ _ _ | synthesisEnds _ _ _ =>
      refine ⟨flagged.raised, flagged.complete, ?_⟩
      rw [List.length_set]
      exact flagged.played
  | getsFirst _ _ | stopsFiller _ => exact ⟨flagged.raised, flagged.complete, staying rfl⟩
  | getsJob _ _ _ | fillerStops _ _ =>
      refine ⟨fun fine c member => ?_, flagged.complete, staying rfl⟩
      obtain before | last := List.mem_append.mp member
      · exact flagged.raised fine c before
      · simp [List.mem_singleton.mp last]
  | getsSentinel getting front =>
      rw [State.IsLined, getting, front] at lined
      obtain ⟨-, finished, count⟩ := lined.sentinelFront
      exact ⟨flagged.raised, flagged.complete, fun _ _ => ⟨finished, count⟩⟩
  | takesChunk playing _ calls streaming _ =>
      refine ⟨flagged.calls calls (by simp [streaming]), flagged.complete, staying ?_⟩
      rw [playing]
      rfl
  | takesEnd playing _ calls _ _ _ =>
      refine ⟨flagged.calls calls (by simp), flagged.complete, staying ?_⟩
      rw [playing]
      rfl
  | returns _ calls _ => exact ⟨flagged.calls calls (by simp), flagged.complete, staying rfl⟩
  | cancelsProducer here =>
      refine ⟨flagged.raised, fun fine ended => ?_, fun fine _ => ?_⟩
      · exact flagged.complete fine (Or.inr (flagged.played fine (by rw [here]; rfl)).1)
      · have played := flagged.played fine (by rw [here]; rfl)
        exact ⟨by rw [State.cancelProducer, played.1]; rfl, played.2⟩
  | closesCurrent here | closesQueued here _ =>
      refine ⟨flagged.raised, flagged.complete, fun fine _ => ?_⟩
      rw [length_closeJob]
      exact flagged.played fine (by rw [here]; rfl)
  | cancelsEager here =>
      refine ⟨flagged.raised, fun fine ended => ?_, fun fine _ => ?_⟩
      · have complete := flagged.complete fine ended
        exact ⟨by simp [complete.1], complete.2⟩
      · exact flagged.played fine (by rw [here]; rfl)
  | cleansGate here | producerGone here _ | noCurrent here | queueEmpty here _
  | cancelsFiller here | leaves here _ =>
      have away : s.consumer.isLeaving = true := by rw [here]; rfl
      exact ⟨flagged.raised, flagged.complete, fun fine _ => flagged.played fine away⟩
  | gateFires _ _ | fillerGoes | dropsSentinel _ _ =>
      exact ⟨flagged.raised, flagged.complete, flagged.played⟩

/-- The filler is off the line before the first call begins, and stays off. -/
structure State.IsSilent (s : State τ χ) : Prop where
  absent : s.hasFiller = false → s.gate = false ∧ s.filler = .idle
  stopped : s.fillerStopped = true → s.gate = false ∧ s.filler = .idle
  before : s.calls ≠ [] → s.hasFiller = false ∨ s.fillerStopped = true
  gate : s.consumer.preparing = 1 → s.gate = false

theorem stopFiller_idle (idle : s.filler = .idle) : s.stopFiller.filler = .idle := by
  simp [State.stopFiller, idle]

theorem State.IsSilent.move (silent : s.IsSilent) (move : Move s s') : s'.IsSilent := by
  obtain ⟨absent, stopped, before, gate⟩ := silent
  have stopping (off : s.gate = false ∧ s.filler = .idle) :
      s.gate = false ∧ s.stopFiller.filler = .idle := ⟨off.1, stopFiller_idle off.2⟩
  cases move with
  | gateFires _ waiting =>
      -- a gate that fires has not been stopped, and belongs to a filler
      refine ⟨fun none => ?_, fun off => ?_, before, fun _ => rfl⟩
      · exact absurd ((absent none).1.symm.trans waiting) nofun
      · exact absurd ((stopped off).1.symm.trans waiting) nofun
  | fillerGoes =>
      exact ⟨fun none => ⟨(absent none).1, rfl⟩, fun off => ⟨(stopped off).1, rfl⟩, before, gate⟩
  | getsFirst _ _ =>
      exact ⟨fun none => ⟨rfl, (absent none).2⟩, fun off => ⟨rfl, (stopped off).2⟩, before,
        fun _ => rfl⟩
  | getsJob _ _ off => exact ⟨absent, stopped, fun _ => off, nofun⟩
  | stopsFiller here =>
      exact ⟨fun none => stopping (absent none), fun off => stopping (stopped off), before,
        fun _ => gate (by rw [here]; rfl)⟩
  | fillerStops here idle =>
      exact ⟨absent, fun _ => ⟨gate (by rw [here]; rfl), idle⟩, fun _ => Or.inr rfl, nofun⟩
  | takesChunk _ _ calls _ _ | takesEnd _ _ calls _ _ _ =>
      exact ⟨absent, stopped, fun _ => before (by simp [calls]), gate⟩
  | returns _ calls _ | raises _ _ calls _ =>
      exact ⟨absent, stopped, fun _ => before (by simp [calls]), nofun⟩
  | cleansGate _ =>
      exact ⟨fun none => ⟨rfl, (absent none).2⟩, fun off => ⟨rfl, (stopped off).2⟩, before, nofun⟩
  | cancelsFiller _ =>
      exact ⟨fun none => stopping (absent none), fun off => stopping (stopped off), before, nofun⟩
  | getsSentinel _ _ | cancelsProducer _ | producerGone _ _ | closesCurrent _ | noCurrent _
  | queueEmpty _ _ | cancelsEager _ | leaves _ _ => exact ⟨absent, stopped, before, nofun⟩
  | _ => exact ⟨absent, stopped, before, gate⟩

structure State.IsSound (s : State τ χ) : Prop where
  lined : s.IsLined
  spoken : s.IsSpoken
  heard : s.IsHeard
  owned : s.IsOwned
  flagged : s.IsFlagged
  silent : s.IsSilent

theorem State.IsSound.init (filler : Bool) : (State.init filler : State τ χ).IsSound where
  lined := ⟨fun _ => rfl, Nat.zero_le _, Nat.zero_le _, ⟨[], [], rfl, Or.inl rfl⟩, nofun, nofun,
    nofun, nofun, nofun⟩
  spoken := ⟨List.nil_prefix, ⟨Nat.le_refl _, Nat.le_refl _⟩, fun _ => rfl⟩
  heard := ⟨nofun, nofun, nofun⟩
  owned := nofun
  flagged := ⟨nofun, by simp [State.init], nofun⟩
  silent := ⟨fun none => ⟨none, rfl⟩, nofun, fun some => absurd rfl some, nofun⟩

theorem State.IsSound.step (sound : s.IsSound) (stepped : s.step label = some s') : s'.IsSound := by
  obtain ⟨lined, spoken, heard, owned, flagged, silent⟩ := sound
  have move := step_move stepped
  exact ⟨State.IsLined.move lined move, State.IsSpoken.move spoken move,
    State.IsHeard.move heard lined move, State.IsOwned.move owned lined heard move,
    flagged.move lined move, silent.move move⟩

/-- What a call has streamed is a beginning of what was produced, and all of it at the end. -/
theorem Call.Hears.sequential {call : Call χ} {job : Job τ χ} (hears : call.Hears job) :
    call.streamed <+: job.produced ∧
      ∀ error, call.state = .ended error ∨ call.state = .returned error →
        job.drain = .ended error ∧ call.streamed = job.produced := by
  unfold Call.Hears at hears
  cases state : call.state with
  | streaming =>
      rw [state] at hears
      obtain ⟨-, left, produced, -⟩ := hears
      refine ⟨⟨left, produced.symm⟩, fun error ended => ?_⟩
      obtain _ | _ := ended <;> contradiction
  | ended e | returned e =>
      rw [state] at hears
      refine ⟨hears.2 ▸ List.prefix_rfl, fun error ended => ?_⟩
      obtain rfl : e = error := by simpa using ended
      exact ⟨hears.1, hears.2.symm⟩

/-- A call that has come back without an error while none is set. -/
theorem State.IsSound.completed (sound : s.IsSound) (returned : s.consumer = .returned)
    (fine : s.error = none) {call : Call χ} (member : call ∈ s.calls) :
    call.state = .returned none := by
  obtain ⟨i, here⟩ := List.getElem?_of_mem member
  have closed := Heard.closed sound.heard (by rw [returned]; rfl) here
  have quiet := sound.flagged.raised fine call member
  unfold Call.isOpen at closed
  cases state : call.state with
  | streaming | ended _ => simp [state] at closed
  | returned error =>
      cases error with
      | none => rfl
      | some e => exact absurd state (quiet e)

theorem getElem?_of_initial {said reply : List τ} {i : Nat} {text : τ} (initial : said <+: reply)
    (own : said[i]? = some text) : reply[i]? = some text := by
  obtain ⟨rest, rfl⟩ := initial
  rw [List.getElem?_append_left (List.getElem?_eq_some_iff.mp own).1]
  exact own

/-- On return nobody holds a job any more. -/
theorem State.IsSound.closed (sound : s.IsSound) (returned : s.consumer = .returned)
    {job : Job τ χ} (member : job ∈ s.jobs) : job.drain ≠ .running := by
  obtain ⟨j, here⟩ := List.getElem?_of_mem member
  intro running
  have held := sound.owned j job here running
  have gone := sound.lined.gone (by rw [returned]; rfl)
  have empty := sound.lined.emptied (by rw [returned]; rfl)
  have none : s.producer.held = [] := by obtain gone | gone := gone <;> rw [gone] <;> rfl
  rw [State.waiting, empty, none, returned] at held
  exact absurd held List.not_mem_nil

end IsalesEngine.PlayStreaming

namespace IsalesEngine.Guarantees
open Asyncio PlayStreaming

/-- For every reply, whatever its generation and the syntheses do and however the tasks interleave,
with or without a filler. The calls to `audio_out` are for the sentences of the reply, in order, and
each streams what the synthesis of its sentence produces, all of it up to the error if there is one.
While one is in progress it is the last one, the filler is off the line, and at most three sentences
beyond it are started; before a call begins the count is from the sentence that comes next. On
return every synthesis has ended or was closed; and if no error is set, every sentence of the reply
was played to its end. -/
theorem pipelined_playback_sequential {τ χ : Type} (filler : Bool) (steps : List (Label τ χ))
    (s : State τ χ) (run : (system τ χ).exec (State.init filler) steps = some s) :
    (∀ (i : Nat) (call : Call χ), s.calls[i]? = some call →
      call.job = i ∧ ∃ job, s.jobs[i]? = some job ∧ s.reply[i]? = some job.text ∧
        call.streamed <+: job.produced ∧
        ∀ error, call.state = .ended error ∨ call.state = .returned error →
          job.drain = .ended error ∧ call.streamed = job.produced) ∧
    (∀ (i : Nat) (call : Call χ), s.calls[i]? = some call → call.isOpen = true →
      i + 1 = s.calls.length ∧ s.filler = .idle ∧ s.jobs.length ≤ i + 1 + 3) ∧
    s.jobs.length ≤ s.reached + 3 ∧
    (s.consumer = .returned → (∀ job ∈ s.jobs, job.drain ≠ .running) ∧
      (s.error = none → s.calls.length = s.reply.length ∧
        ∀ call ∈ s.calls, call.state = .returned none)) := by
  have sound : s.IsSound := System.invariant (J := State.IsSound) State.IsSound.step run
    (State.IsSound.init filler)
  refine ⟨fun i call here => ?_, fun i call here isOpen => ?_, sound.lined.ahead,
    fun returned => ?_⟩
  · obtain ⟨index, job, own, hears⟩ := sound.heard.calls i call here
    have text : s.texts[i]? = some job.text := by rw [State.texts, List.getElem?_map, own]; rfl
    exact ⟨index, job, own, getElem?_of_initial sound.spoken.initial text, hears.sequential⟩
  · obtain ⟨last, playing⟩ := sound.heard.opened i call here isOpen
    have begun : s.consumer.preparing = 0 := by
      cases consumer : s.consumer <;> first | rfl | simp [consumer, Consumer.isPlaying] at playing
    have calls : s.calls ≠ [] := List.ne_nil_of_mem (List.mem_of_getElem? here)
    refine ⟨last, ?_, ?_⟩
    · obtain none | stopped := sound.silent.before calls
      · exact (sound.silent.absent none).2
      · exact (sound.silent.stopped stopped).2
    · have ahead := sound.lined.ahead
      rw [begun] at ahead
      rw [last]
      exact ahead
  · refine ⟨fun job member => sound.closed returned member, fun fine => ⟨?_, ?_⟩⟩
    · obtain ⟨finished, played⟩ := sound.flagged.played fine (by rw [returned]; rfl)
      have started : s.texts.length = s.replayed := sound.spoken.steady (Or.inl fine)
      rw [State.texts, List.length_map] at started
      rw [played, started]
      exact (sound.flagged.complete fine (Or.inr finished)).2
    · exact fun call member => sound.completed returned fine member

/-- Two sentences behind a filler that is cut off when the first job arrives. -/
theorem two_sentences_played :
    ∃ s : State Nat Nat, (system Nat Nat).exec (State.init true) [.generates 1, .gateFires true,
        .yields, .puts, .generates 2, .yields, .finishes, .synthesizes 0 10, .gets, .stopsFiller,
        .fillerCancelled, .fillerStops, .takes, .puts, .exhausts, .synthesisEnds 0 none, .takes,
        .returns, .puts, .gets, .synthesizes 1 20, .takes, .synthesisEnds 1 none, .takes, .returns,
        .gets, .cleans, .cleans, .cleans, .cleans, .cleans, .cleans, .cleans, .cleans] = some s ∧
      s.error = none ∧ s.calls.map Call.streamed = [[10], [20]] ∧
      ∀ call ∈ s.calls, call.state = .returned none := by
  refine exists_of_map (fun s => (s.consumer, s.error, s.calls.map Call.streamed))
    (.returned, none, [[10], [20]]) (by decide) fun s run outcome => ?_
  obtain ⟨returned, fine, streamed⟩ : s.consumer = .returned ∧ s.error = none ∧
    s.calls.map Call.streamed = [[10], [20]] := by simpa using outcome
  obtain ⟨-, -, -, ends⟩ := pipelined_playback_sequential true _ s run
  exact ⟨fine, streamed, ((ends returned).2 fine).2⟩

end IsalesEngine.Guarantees
