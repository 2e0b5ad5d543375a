import IsalesEngine.Pipeline.PlayStreaming

/-!
What the sections of a streamed playback do. A section that is taken is one of the
moves below, with everything its guards have tested; every invariant of a run is an
invariant of the moves.
-/
namespace IsalesEngine.PlayStreaming
open Asyncio

variable {τ χ : Type} {past : List (Call χ)} {call : Call χ} {j : Nat}

/-- What a section does. -/
inductive Move (s : State τ χ) : State τ χ → Prop
  | generates (sentence : τ) (running : s.generator = .running) :
      Move s { s with reply := s.reply ++ [sentence] }
  | flags (error : String) (running : s.generator = .running) :
      Move s { s with error := some error }
  | finishes (running : s.generator = .running) : Move s { s with generator := .finished }
  | yields {sentence : τ} (pulling : s.producer = .pulling)
      (next : s.reply[s.replayed]? = some sentence) : Move s (s.start sentence)
  | refuses (error : String) (pulling : s.producer = .pulling)
      (more : s.replayed < s.reply.length) :
      Move s { s.flag error with replayed := s.replayed + 1, producer := .ending }
  | exhausts (pulling : s.producer = .pulling) (finished : s.generator = .finished)
      (all : s.replayed = s.reply.length) : Move s { s with producer := .ending }
  | fails (error : String) (pulling : s.producer = .pulling) :
      Move s { s.flag error with producer := .ending }
  | putsJob {j : Nat} (room : s.jobQ.length < jobQMaxsize) (putting : s.producer = .putting j) :
      Move s { s with jobQ := s.jobQ ++ [some j], producer := .pulling }
  | putsSentinel (room : s.jobQ.length < jobQMaxsize) (ending : s.producer = .ending) :
      Move s { s with jobQ := s.jobQ ++ [none], producer := .finished }
  | closesPending {j : Nat} (closing : s.producer = .closing j) :
      Move s { s.closeJob j with producer := .cancelled }
  | synthesizes {j : Nat} {job : Job τ χ} (chunk : χ) (own : s.jobs[j]? = some job)
      (running : job.drain = .running) :
      Move s { s with jobs := s.jobs.set j { job with
        buffer := job.buffer ++ [some chunk], produced := job.produced ++ [chunk] } }
  | synthesisEnds {j : Nat} {job : Job τ χ} (error : Option String) (own : s.jobs[j]? = some job)
      (running : job.drain = .running) :
      Move s { s with jobs := s.jobs.set j { job with
        buffer := job.buffer ++ [none], drain := .ended error } }
  | gateFires (phraseReady : Bool) (gate : s.gate = true) : Move s (s.fireGate phraseReady)
  | fillerGoes : Move s { s with filler := .idle }
  | getsFirst {j : Nat} {jobQ : List (Option Nat)} (getting : s.consumer = .getting)
      (front : s.jobQ = some j :: jobQ) :
      Move s { s with jobQ, gate := false, consumer := .stoppingGate j }
  | getsJob {j : Nat} {jobQ : List (Option Nat)} (getting : s.consumer = .getting)
      (front : s.jobQ = some j :: jobQ) (silent : s.hasFiller = false ∨ s.fillerStopped = true) :
      Move s ({ s with jobQ }.play j)
  | getsSentinel {jobQ : List (Option Nat)} (getting : s.consumer = .getting)
      (front : s.jobQ = none :: jobQ) :
      Move s { s with jobQ, consumer := .leaving none .gate }
  | stopsFiller {j : Nat} (stopping : s.consumer = .stoppingGate j) :
      Move s { s.stopFiller with consumer := .stoppingFiller j }
  | fillerStops {j : Nat} (stopping : s.consumer = .stoppingFiller j) (idle : s.filler = .idle) :
      Move s ({ s with fillerStopped := true }.play j)
  | takesChunk {j : Nat} {job : Job τ χ} {past : List (Call χ)} {call : Call χ} {chunk : χ}
      {buffer : List (Option χ)} (playing : s.consumer = .playing j) (own : s.jobs[j]? = some job)
      (calls : s.calls = past ++ [call]) (streaming : call.state = .streaming)
      (front : job.buffer = some chunk :: buffer) :
      Move s { s with
        calls := past ++ [{ call with streamed := call.streamed ++ [chunk] }]
        jobs := s.jobs.set j { job with buffer }, firstAudio := true }
  | takesEnd {j : Nat} {job : Job τ χ} {past : List (Call χ)} {call : Call χ}
      {error : Option String} {buffer : List (Option χ)} (playing : s.consumer = .playing j)
      (own : s.jobs[j]? = some job) (calls : s.calls = past ++ [call])
      (streaming : call.state = .streaming) (front : job.buffer = none :: buffer)
      (ended : job.drain = .ended error) :
      Move s { s with
        calls := past ++ [{ call with state := .ended error }]
        jobs := s.jobs.set j { job with buffer } }
  | returns {j : Nat} {past : List (Call χ)} {call : Call χ} (playing : s.consumer = .playing j)
      (calls : s.calls = past ++ [call]) (ended : call.state = .ended none) :
      Move s { s with
        calls := past ++ [{ call with state := .returned none }], consumer := .getting }
  | raises {j : Nat} {past : List (Call χ)} {call : Call χ} {e : String} (error : String)
      (playing : s.consumer = .playing j) (calls : s.calls = past ++ [call])
      (ended : call.state = .ended (some e)) :
      Move s { s.flag error with
        calls := past ++ [{ call with state := .returned (some e) }]
        consumer := .leaving (some j) .gate }
  | cleansGate {current : Option Nat} (here : s.consumer = .leaving current .gate) :
      Move s { s with gate := false, consumer := .leaving current .producer }
  | cancelsProducer {current : Option Nat} (here : s.consumer = .leaving current .producer) :
      Move s { s.cancelProducer with consumer := .leaving current .awaitProducer }
  | producerGone {current : Option Nat} (here : s.consumer = .leaving current .awaitProducer)
      (gone : s.producer = .finished ∨ s.producer = .cancelled) :
      Move s { s with consumer := .leaving current .current }
  | closesCurrent {j : Nat} (here : s.consumer = .leaving (some j) .current) :
      Move s { s.closeJob j with consumer := .leaving none .queue }
  | noCurrent (here : s.consumer = .leaving none .current) :
      Move s { s with consumer := .leaving none .queue }
  | closesQueued {current : Option Nat} {j : Nat} {jobQ : List (Option Nat)}
      (here : s.consumer = .leaving current .queue) (front : s.jobQ = some j :: jobQ) :
      Move s { s.closeJob j with jobQ }
  | dropsSentinel {current : Option Nat} {jobQ : List (Option Nat)}
      (here : s.consumer = .leaving current .queue) (front : s.jobQ = none :: jobQ) :
      Move s { s with jobQ }
  | queueEmpty {current : Option Nat} (here : s.consumer = .leaving current .queue)
      (empty : s.jobQ = []) : Move s { s with consumer := .leaving current .eager }
  | cancelsEager {current : Option Nat} (here : s.consumer = .leaving current .eager) :
      Move s { s with
        generator := if s.generator = .running then .closed else s.generator
        consumer := .leaving current .filler }
  | cancelsFiller {current : Option Nat} (here : s.consumer = .leaving current .filler) :
      Move s { s.stopFiller with consumer := .leaving current .awaitFiller }
  | leaves {current : Option Nat} (here : s.consumer = .leaving current .awaitFiller)
      (idle : s.filler = .idle) : Move s { s with consumer := .returned }

variable {s s' : State τ χ} {label : Label τ χ}

theorem setCall_eq (calls : s.calls = past ++ [call]) (call' : Call χ) :
    s.setCall call' = { s with calls := past ++ [call'] } := by
  rw [State.setCall, calls, List.dropLast_concat]

theorem take_move {jobQ : List (Option Nat)} (getting : s.consumer = .getting)
    (front : s.jobQ = some j :: jobQ) : Move s ({ s with jobQ }.take j) := by
  unfold State.take
  split
  · exact Move.getsFirst getting front
  · next silent => exact Move.getsJob getting front (by simpa [or_iff_not_imp_left] using silent)

theorem stream_move {job : Job τ χ} (playing : s.consumer = .playing j)
    (own : s.jobs[j]? = some job) (calls : s.calls = past ++ [call])
    (streaming : call.state = .streaming) (stepped : s.stream j job call = some s') :
    Move s s' := by
  unfold State.stream at stepped
  split at stepped
  · next front =>
      rw [setCall_eq calls] at stepped
      cases stepped
      exact Move.takesChunk playing own calls streaming front
  · next front ended =>
      rw [setCall_eq calls] at stepped
      cases stepped
      exact Move.takesEnd playing own calls streaming front ended
  · contradiction

theorem finishCall_move {error : Option String} (playing : s.consumer = .playing j)
    (calls : s.calls = past ++ [call]) (ended : call.state = .ended error) :
    Move s (s.finishCall j call error) := by
  cases error with
  | none =>
      simp only [State.finishCall, setCall_eq calls]
      exact Move.returns playing calls ended
  | some e =>
      simp only [State.finishCall, setCall_eq calls]
      exact Move.raises _ playing calls ended

theorem clean_move {current : Option Nat} {stage : Cleanup}
    (here : s.consumer = .leaving current stage) (stepped : s.clean current stage = some s') :
    Move s s' := by
  cases stage with
  | gate =>
      cases stepped
      exact Move.cleansGate here
  | producer =>
      cases stepped
      exact Move.cancelsProducer here
  | awaitProducer =>
      simp only [State.clean] at stepped
      split at stepped
      · next gone =>
          cases stepped
          exact Move.producerGone here (Or.inl gone)
      · next gone =>
          cases stepped
          exact Move.producerGone here (Or.inr gone)
      · contradiction
  | current =>
      cases current with
      | some j =>
          cases stepped
          exact Move.closesCurrent here
      | none =>
          cases stepped
          exact Move.noCurrent here
  | queue =>
      simp only [State.clean] at stepped
      split at stepped
      · next front =>
          cases stepped
          exact Move.closesQueued here front
      · next front =>
          cases stepped
          exact Move.dropsSentinel here front
      · next empty =>
          cases stepped
          exact Move.queueEmpty here empty
  | eager =>
      cases stepped
      exact Move.cancelsEager here
  | filler =>
      cases stepped
      exact Move.cancelsFiller here
  | awaitFiller =>
      obtain ⟨idle, rfl⟩ := of_guard stepped
      exact Move.leaves here idle

theorem step_move (stepped : s.step label = some s') : Move s s' := by
  cases label with
  | generates sentence =>
      obtain ⟨running, rfl⟩ := of_guard stepped
      exact Move.generates sentence running
  | flags error =>
      obtain ⟨running, rfl⟩ := of_guard stepped
      exact Move.flags error running
  | finishes =>
      obtain ⟨running, rfl⟩ := of_guard stepped
      exact Move.finishes running
  | yields =>
      simp only [State.step] at stepped
      split at stepped
      · next pulling next =>
          cases stepped
          exact Move.yields pulling next
      · contradiction
  | refuses error =>
      obtain ⟨⟨pulling, more⟩, rfl⟩ := of_guard stepped
      exact Move.refuses _ pulling more
  | exhausts =>
      obtain ⟨⟨pulling, finished, all⟩, rfl⟩ := of_guard stepped
      exact Move.exhausts pulling finished all
  | fails error =>
      obtain ⟨pulling, rfl⟩ := of_guard stepped
      exact Move.fails _ pulling
  | puts =>
      simp only [State.step, Option.ite_none_right_eq_some] at stepped
      obtain ⟨room, stepped⟩ := stepped
      split at stepped
      · next putting =>
          cases stepped
          exact Move.putsJob room putting
      · next ending =>
          cases stepped
          exact Move.putsSentinel room ending
      · contradiction
  | closesPending =>
      simp only [State.step] at stepped
      split at stepped
      · next closing =>
          cases stepped
          exact Move.closesPending closing
      · contradiction
  | synthesizes j chunk =>
      simp only [State.step] at stepped
      split at stepped
      · next own =>
          obtain ⟨running, rfl⟩ := of_guard stepped
          exact Move.synthesizes chunk own running
      · contradiction
  | synthesisEnds j error =>
      simp only [State.step] at stepped
      split at stepped
      · next own =>
          obtain ⟨running, rfl⟩ := of_guard stepped
          exact Move.synthesisEnds error own running
      · contradiction
  | gateFires phraseReady =>
      obtain ⟨gate, rfl⟩ := of_guard stepped
      exact Move.gateFires phraseReady gate
  | fillerEnds | fillerCancelled =>
      obtain ⟨_, rfl⟩ := of_guard stepped
      exact Move.fillerGoes
  | gets =>
      simp only [State.step] at stepped
      split at stepped
      · next getting front =>
          cases stepped
          exact take_move getting front
      · next getting front =>
          cases stepped
          exact Move.getsSentinel getting front
      · contradiction
  | stopsFiller =>
      simp only [State.step] at stepped
      split at stepped
      · next stopping =>
          cases stepped
          exact Move.stopsFiller stopping
      · contradiction
  | fillerStops =>
      simp only [State.step] at stepped
      split at stepped
      · next stopping =>
          obtain ⟨idle, rfl⟩ := of_guard stepped
          exact Move.fillerStops stopping idle
      · contradiction
  | takes =>
      simp only [State.step] at stepped
      split at stepped
      · next playing =>
          split at stepped
          · next own last =>
              obtain ⟨past, calls⟩ := List.getLast?_eq_some_iff.mp last
              obtain ⟨streaming, stepped⟩ := Option.ite_none_right_eq_some.mp stepped
              exact stream_move playing own calls streaming stepped
          · contradiction
      · contradiction
  | returns =>
      simp only [State.step] at stepped
      split at stepped
      · next playing last =>
          split at stepped
          · next ended =>
              obtain ⟨past, calls⟩ := List.getLast?_eq_some_iff.mp last
              cases stepped
              exact finishCall_move playing calls ended
          · contradiction
      · contradiction
  | cleans =>
      simp only [State.step] at stepped
      split at stepped
      · next here => exact clean_move here stepped
      · contradiction

end IsalesEngine.PlayStreaming
