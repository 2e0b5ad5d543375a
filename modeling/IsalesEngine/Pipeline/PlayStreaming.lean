import IsalesEngine.Asyncio.System

/-!
Playback of a streamed reply, task by task. The generator extends the reply and
hands out its sentences; the producer starts a synthesis for each and puts the job
on a queue of two; every job drains its synthesis into a buffer of its own; the
consumer takes job after job and streams its buffer to `audio_out`. A filler may
play until the first job arrives. On leaving its loop the consumer cancels and
closes what is left. Barge-in and cancellation of the whole are left out. A section
that the event loop runs in one go may be several sections here, so the model has
more interleavings than the program.
-/
namespace IsalesEngine.PlayStreaming
open Asyncio

/-- The generation of the reply, in the generator itself or in an eager task behind it. -/
inductive Generator where
  | running
  | finished
  | closed
  deriving DecidableEq, Repr

/-- `_producer`: it waits for a sentence, for a slot for a job or for the sentinel, or closes the
job it was cancelled with. -/
inductive Producer where
  | pulling
  | putting (job : Nat)
  | ending
  | closing (job : Nat)
  | finished
  | cancelled
  deriving DecidableEq, Repr

/-- `_SynthJob._drain`, ended with the error of the synthesis if there is one. -/
inductive Drain where
  | running
  | ended (error : Option String)
  | closed
  deriving DecidableEq, Repr

/-- A `_SynthJob`; `none` in the buffer marks its end. What the synthesis has produced is a history
variable. -/
structure Job (τ χ : Type) where
  text : τ
  buffer : List (Option χ) := []
  drain : Drain := .running
  produced : List χ := []
  deriving DecidableEq, Repr

/-- A call to `audio_out`: it takes chunks from its iterator, has seen its end, or has returned or
raised. -/
inductive CallState where
  | streaming
  | ended (error : Option String)
  | returned (error : Option String)
  deriving DecidableEq, Repr

structure Call (χ : Type) where
  job : Nat
  streamed : List χ := []
  state : CallState := .streaming
  deriving DecidableEq, Repr

/-- The filler's own call to `audio_out`. -/
inductive Filler where
  | idle
  | playing
  | cancelling
  deriving DecidableEq, Repr

/-- The sections of the `finally` block, in order. -/
inductive Cleanup where
  | gate
  | producer
  | awaitProducer
  | current
  | queue
  | eager
  | filler
  | awaitFiller
  deriving DecidableEq, Repr

/-- The consumer: `_play_streaming` itself. -/
inductive Consumer where
  | getting
  | stoppingGate (job : Nat)
  | stoppingFiller (job : Nat)
  | playing (job : Nat)
  | leaving (current : Option Nat) (stage : Cleanup)
  | returned
  deriving DecidableEq, Repr

/-- `reply` is `stream.result.reply_text`, sentence by sentence; a default reply, which comes with
an error, is one more sentence. The calls are a history variable. -/
structure State (τ χ : Type) where
  hasFiller : Bool
  gate : Bool
  filler : Filler := .idle
  fillerStopped : Bool := false
  firstAudio : Bool := false
  generator : Generator := .running
  reply : List τ := []
  error : Option String := none
  replayed : Nat := 0
  producer : Producer := .pulling
  jobQ : List (Option Nat) := []
  jobs : List (Job τ χ) := []
  consumer : Consumer := .getting
  calls : List (Call χ) := []
  deriving DecidableEq, Repr

inductive Label (τ χ : Type) where
  | generates (sentence : τ)
  | flags (error : String)
  | finishes
  | yields
  | refuses (error : String)
  | exhausts
  | fails (error : String)
  | puts
  | closesPending
  | synthesizes (job : Nat) (chunk : χ)
  | synthesisEnds (job : Nat) (error : Option String)
  | gateFires (phraseReady : Bool)
  | fillerEnds
  | fillerCancelled
  | gets
  | stopsFiller
  | fillerStops
  | takes
  | returns
  | cleans
  deriving DecidableEq, Repr

variable {τ χ : Type}

def jobQMaxsize : Nat := 2

/-- With a filler its gate is waiting. -/
def State.init (filler : Bool) : State τ χ := { hasFiller := filler, gate := filler }

/-- A producer that is cancelled first closes the job it could not put. -/
def Producer.cancel : Producer → Producer
  | .putting j => .closing j
  | .pulling | .ending => .cancelled
  | other => other

/-- `aclose()`: a synthesis that still runs is cancelled. -/
def Job.close (job : Job τ χ) : Job τ χ :=
  match job.drain with
  | .running => { job with drain := .closed }
  | _ => job

namespace State

def closeJob (s : State τ χ) (j : Nat) : State τ χ := { s with jobs := s.jobs.modify j Job.close }

/-- The first error stays. -/
def flag (s : State τ χ) (error : String) : State τ χ := { s with error := s.error <|> some error }

/-- The producer has a sentence: its synthesis starts at once. -/
def start (s : State τ χ) (sentence : τ) : State τ χ :=
  { s with
    jobs := s.jobs ++ [{ text := sentence }], replayed := s.replayed + 1
    producer := .putting s.jobs.length }

def play (s : State τ χ) (j : Nat) : State τ χ :=
  { s with consumer := .playing j, calls := s.calls ++ [{ job := j }] }

/-- The consumer has a job: before the first one plays, the filler is stopped. -/
def take (s : State τ χ) (j : Nat) : State τ χ :=
  if s.hasFiller && !s.fillerStopped then { s with gate := false, consumer := .stoppingGate j }
  else s.play j

/-- `FillerManager.stop()`, up to waiting for the cancelled task. -/
def stopFiller (s : State τ χ) : State τ χ :=
  { s with filler := if s.filler = .playing then .cancelling else s.filler }

/-- The gate fires: the filler starts unless audio has begun, or it plays, or no phrase is ready. -/
def fireGate (s : State τ χ) (phraseReady : Bool) : State τ χ :=
  { s with
    gate := false
    filler := if !s.firstAudio && s.filler = .idle && phraseReady then .playing else s.filler }

/-- The call in progress, which is the last one, goes on. -/
def setCall (s : State τ χ) (call : Call χ) : State τ χ :=
  { s with calls := s.calls.dropLast ++ [call] }

/-- `audio_out` asks its iterator for the next chunk. -/
def stream (s : State τ χ) (j : Nat) (job : Job τ χ) (call : Call χ) : Option (State τ χ) :=
  match job.buffer, job.drain with
  | some chunk :: buffer, _ =>
      some { s.setCall { call with streamed := call.streamed ++ [chunk] } with
        jobs := s.jobs.set j { job with buffer }, firstAudio := true }
  | none :: buffer, .ended error =>
      some { s.setCall { call with state := .ended error } with
        jobs := s.jobs.set j { job with buffer } }
  | _, _ => none

/-- `audio_out` returns, or raises what its iterator raised. -/
def finishCall (s : State τ χ) (j : Nat) (call : Call χ) (error : Option String) : State τ χ :=
  let s := s.setCall { call with state := .returned error }
  match error with
  | none => { s with consumer := .getting }
  | some e => { s.flag ("tts_playback: " ++ e) with consumer := .leaving (some j) .gate }

def cancelProducer (s : State τ χ) : State τ χ := { s with producer := s.producer.cancel }

/-- One section of the `finally` block. -/
def clean (s : State τ χ) (current : Option Nat) : Cleanup → Option (State τ χ)
  | .gate => some { s with gate := false, consumer := .leaving current .producer }
  | .producer => some { s.cancelProducer with consumer := .leaving current .awaitProducer }
  | .awaitProducer => match s.producer with
      | .finished | .cancelled => some { s with consumer := .leaving current .current }
      | _ => none
  | .current => match current with
      | some j => some { s.closeJob j with consumer := .leaving none .queue }
      | none => some { s with consumer := .leaving none .queue }
  | .queue => match s.jobQ with
      | some j :: jobQ => some { s.closeJob j with jobQ }
      | none :: jobQ => some { s with jobQ }
      | [] => some { s with consumer := .leaving current .eager }
  | .eager => some { s with
      generator := if s.generator = .running then .closed else s.generator
      consumer := .leaving current .filler }
  | .filler => some { s.stopFiller with consumer := .leaving current .awaitFiller }
  | .awaitFiller =>
      if s.filler = .idle then some { s with consumer := .returned } else none

def step (s : State τ χ) : Label τ χ → Option (State τ χ)
  | .generates sentence =>
      if s.generator = .running then some { s with reply := s.reply ++ [sentence] } else none
  | .flags error =>
      if s.generator = .running then some { s with error := some error } else none
  | .finishes => if s.generator = .running then some { s with generator := .finished } else none
  | .yields => match s.producer, s.reply[s.replayed]? with
      | .pulling, some sentence => some (s.start sentence)
      | _, _ => none
  | .refuses error =>
      if s.producer = .pulling ∧ s.replayed < s.reply.length then
        some { s.flag ("main_stream_producer: " ++ error) with
          replayed := s.replayed + 1, producer := .ending }
      else none
  | .exhausts =>
      if s.producer = .pulling ∧ s.generator = .finished ∧ s.replayed = s.reply.length then
        some { s with producer := .ending }
      else none
  | .fails error =>
      if s.producer = .pulling then
        some { s.flag ("main_stream_producer: " ++ error) with producer := .ending }
      else none
  | .puts =>
      if s.jobQ.length < jobQMaxsize then
        match s.producer with
        | .putting j => some { s with jobQ := s.jobQ ++ [some j], producer := .pulling }
        | .ending => some { s with jobQ := s.jobQ ++ [none], producer := .finished }
        | _ => none
      else none
  | .closesPending => match s.producer with
      | .closing j => some { s.closeJob j with producer := .cancelled }
      | _ => none
  | .synthesizes j chunk => match s.jobs[j]? with
      | some job =>
          if job.drain = .running then
            some { s with jobs := s.jobs.set j { job with
              buffer := job.buffer ++ [some chunk], produced := job.produced ++ [chunk] } }
          else none
      | none => none
  | .synthesisEnds j error => match s.jobs[j]? with
      | some job =>
          if job.drain = .running then
            some { s with jobs := s.jobs.set j { job with
              buffer := job.buffer ++ [none], drain := .ended error } }
          else none
      | none => none
  | .gateFires phraseReady => if s.gate then some (s.fireGate phraseReady) else none
  | .fillerEnds => if s.filler = .playing then some { s with filler := .idle } else none
  | .fillerCancelled => if s.filler = .cancelling then some { s with filler := .idle } else none
  | .gets => match s.consumer, s.jobQ with
      | .getting, some j :: jobQ => some ({ s with jobQ }.take j)
      | .getting, none :: jobQ => some { s with jobQ, consumer := .leaving none .gate }
      | _, _ => none
  | .stopsFiller => match s.consumer with
      | .stoppingGate j => some { s.stopFiller with consumer := .stoppingFiller j }
      | _ => none
  | .fillerStops => match s.consumer with
      | .stoppingFiller j =>
          if s.filler = .idle then some ({ s with fillerStopped := true }.play j) else none
      | _ => none
  | .takes => match s.consumer with
      | .playing j => match s.jobs[j]?, s.calls.getLast? with
          | some job, some call => if call.state = .streaming then s.stream j job call else none
          | _, _ => none
      | _ => none
  | .returns => match s.consumer, s.calls.getLast? with
      | .playing j, some call => match call.state with
          | .ended error => some (s.finishCall j call error)
          | _ => none
      | _, _ => none
  | .cleans => match s.consumer with
      | .leaving current stage => s.clean current stage
      | _ => none

end State

def system (τ χ : Type) : System (State τ χ) (Label τ χ) := ⟨State.step⟩

end IsalesEngine.PlayStreaming
