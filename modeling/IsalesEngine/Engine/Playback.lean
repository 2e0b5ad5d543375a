import IsalesEngine.Engine.Telephony

/-!
Playback: a single phrase, and the reply pipeline whose producer runs ahead of
the consumer. The local variables of `_play_streaming` that its `finally` block
reads live in the pipe record. `fuel` bounds the number of sentences of one
reply; a run that needs more is not a run of that fuel.
-/
namespace IsalesEngine
open Asyncio Asyncio.Coro

/-- A loop of the source that has used up its fuel. -/
def outOfFuel {α : Type} : Prog α := do
  let impossible ← await .outOfFuel
  nomatch (impossible : Empty)

namespace World

def startPlay (site : PlaySite) (text : Text) (interruptible : Bool) (w : World) : World :=
  { w.note (.playback site) with
    play := some { id := w.nextTaskId, site := site, text := text }
    nextTaskId := w.nextTaskId + 1
    session := { w.session with currentSpeakingTask :=
      if interruptible then some w.nextTaskId else w.session.currentSpeakingTask }
    phone := { w.phone with outboundPump := w.phone.outboundPump || w.phone.inCalls } }

def clearPlay (interruptible : Bool) (w : World) : World :=
  { w with
    play := none
    session := { w.session with currentSpeakingTask :=
      if interruptible ∧ w.session.currentSpeakingTask = w.play.map PlayTask.id then none
      else w.session.currentSpeakingTask } }

def playCancelled (w : World) : Bool := w.play.any fun p => p.status = .cancelled

end World

/-- Whether the audio was played in full; `false` if its task was cancelled. -/
def playChunks (site : PlaySite) (text : Text) (interruptible : Bool) : Prog Bool := do
  update (World.startPlay site text interruptible)
  let played : Prog Bool := do
    await .playback
    pure true
  let interrupted : Prog Bool := do
    let cancelled ← read World.playCancelled
    if cancelled then pure false else raise .cancelled
  andFinally (exceptCancelled played interrupted) (update (World.clearPlay interruptible))

def playTts (site : PlaySite) (text : Text) (interruptible : Bool := true) : Prog Unit := do
  let _ ← playChunks site text interruptible
  pure ()

def updateStream (i : Nat) (f : Stream → Stream) : Prog Unit := update fun w =>
  w.setStream i (f (w.stream i))

def updatePipe (f : Pipe → Pipe) : Prog Unit := update fun w => { w with pipe := w.pipe.map f }

/-- `PipelineStream.cancel_eager`. -/
def cancelEager (i : Nat) : Prog Unit := do
  let live ← read fun w => (w.stream i).eager.any fun e => e.status ≠ .ended
  when live do
    updateStream i fun st => { st with eager := st.eager.map fun e =>
      { e with status := .cancelling } }
    suppress isAny (await (.reapEager i))

/-- Tasks of the turn that have ended or were cancelled. -/
def dropTasks (ts : List TurnTask) : Prog Unit := update fun w =>
  { w with turnTasks := w.turnTasks.diff ts }

/-- `_SynthJob.aclose`. -/
def closeJob (job : Text) : Prog Unit := do
  dropTasks [.synth job]
  suppress isCancelled (await .reapSynth)
  suppress isException (await .closeSynth)

namespace FillerManager

def start (delayMs processingStart : Nat) : Prog Unit := update fun w =>
  { w with filler := { gate := .sleeping, deadline := processingStart + delayMs } }

def reapGate : Prog Unit := do
  update fun w => { w with filler := { w.filler with
    gate := if w.filler.gate = .sleeping then .cancelled else w.filler.gate } }
  let ended ← read fun w => decide (w.filler.gate = .ended)
  when (!ended) (suppress isCancelled (await .reapFillerGate))

def stop : Prog Unit := do
  update fun w => { w with filler := { w.filler with stopped := true } }
  let playing ← read fun w => w.filler.playing.isSome
  when playing (suppress isCancelled (await .reapFiller))

end FillerManager

namespace PlayStreaming

def begin (i : Nat) (filler : Bool) (fillerDelayMs processingStart : Nat) : Prog Unit := do
  update fun w => { w with pipe := some { stream := i, processingStart := processingStart } }
  when filler (FillerManager.start fillerDelayMs processingStart)

def recordPlaybackError (i : Nat) (e : Err) : Prog Unit :=
  updateStream i fun st => { st with result := { st.result with
    error := some (st.result.error.getD ("tts_playback: " ++ reprStr e)) } }

/-- Play one job. `true` means the consumer goes on to the next one. -/
def playJob (i : Nat) (job : Text) : Prog Bool := do
  let attempt : Prog (Option Bool) := do
    let whole ← playChunks .sentence job true
    pure (some whole)
  let played ← exceptError attempt fun e => do
    recordPlaybackError i e
    pure none
  match played with
  | none => pure false
  | some false => do
      update fun w => w.note (.cut job)
      updatePipe fun p => { p with fullyPlayed := false }
      pure false
  | some true => do
      -- `audio_out` has read the whole synthesis, so that its task is over.
      dropTasks [.synth job]
      update fun w => w.note (.played job)
      updatePipe fun p => { p with currentJob := none }
      pure true

/-- The consumer loop. -/
def consume (i : Nat) : (filler : Bool) → (fuel : Nat) → Prog Unit
  | _, 0 => outOfFuel
  | filler, fuel + 1 => do
      let next ← await .jobGet
      match next with
      | none => pure ()
      | some job => do
          updatePipe fun p => { p with currentJob := some job }
          when filler do
            FillerManager.reapGate
            FillerManager.stop
          let goOn ← playJob i job
          when goOn (consume i false fuel)

def cancelProducer : Prog Unit := do
  updatePipe fun p => { p with cancelRequested := true }
  let live ← read fun w => w.pipe.any fun p => !p.producer.isDone
  when live (suppress isAny (await .reapProducer))

/-- Take every queued job; nobody else reads the queue once the producer is over. -/
def takeJobs : Prog (List Text) := act fun w =>
  ((w.pipe.map Pipe.jobs).getD [] |>.filterMap id,
    { w with pipe := w.pipe.map fun p => { p with jobs := [] } })

/-- `stream.buffer_remainder()`, empty for a stream that is not eager. -/
def bufferRemainder (st : Stream) : Text :=
  match st.eager with
  | some e => (e.buffer.drop e.replayedCount).flatten
  | none => []

def captureRemainder (captured : List Text) : Prog Unit := update fun w =>
  let remaining := Text.strip captured.flatten
  { w.note (.captured remaining) with session := { w.session with
    interruptRemainingText := if remaining = [] then none else some remaining } }

/-- The `finally` block. -/
def finish (i : Nat) (filler : Bool) : Prog Unit := do
  let current ← read fun w => w.pipe.bind Pipe.currentJob
  let capture ← read fun w => (w.pipe.any fun p => !p.fullyPlayed) && !(w.stream i).isRestructure
  when filler FillerManager.reapGate
  cancelProducer
  forEach closeJob current.toList
  let queued ← takeJobs
  forEach closeJob queued
  let tail ← read fun w => bufferRemainder (w.stream i)
  cancelEager i
  when filler FillerManager.stop
  when capture (captureRemainder (current.toList ++ queued ++ [tail]))

/-- The two values `_play_streaming` returns; its frame ends here. -/
def take : Prog (Option Nat × Bool) := act fun w =>
  ((w.pipe.bind Pipe.firstAudioMs, w.pipe.all Pipe.fullyPlayed), { w with pipe := none })

end PlayStreaming

open PlayStreaming in
/-- `_play_streaming`: first-audio latency and whether the reply was played in full. -/
def playStreaming (i : Nat) (filler : Bool) (fillerDelayMs processingStart fuel : Nat) :
    Prog (Option Nat × Bool) := do
  begin i filler fillerDelayMs processingStart
  andFinally (consume i filler fuel) (finish i filler)
  take

end IsalesEngine
