import IsalesEngine.Engine.Signature

/-!
One atomic section of each task that runs beside `main`: the control plane, the
bus dispatchers, the ASR and event pumps, the partial monitor, the listening
window's two tasks, playback, reply generation and its producer, the filler,
and the finalizer. A section that the task cannot take now is `none`.
-/
namespace IsalesEngine

/-- The producer has a job: it is queued, or the producer blocks in `put`. -/
def Pipe.offer (p : Pipe) (job : Text) (last : Bool) : Pipe :=
  if p.jobs.length < Pipe.jobsMaxsize then
    { p with jobs := p.jobs ++ [some job], producer := if last then .ending else .pulling }
  else { p with producer := .putting job last }

/-- `_CallState.close_iterators`, when the edge ends the call. -/
def Phone.closeByEdge (p : Phone) : Phone :=
  if p.closed then p
  else { p with
    closed := true, joined := false, outboundPump := false, events := p.events ++ [none] }

namespace World

/-- The current playback has not ended yet. -/
def playLive (w : World) : Bool := w.play.any fun p => !p.status.isDone

/-- `main.cancel()` while `main` waits at `op`: a running task it waits for is cancelled in its
place, otherwise `main` itself resumes with `CancelledError`. A task that is done stays so. -/
@[grind] def cancelMain (op : Op) (w : World) : World :=
  { w with
    play := if op = .playback then w.play.map PlayTask.cancel else w.play
    cancelPending := w.cancelPending || (op ≠ .mainDone && !(op = .playback && w.playLive))
    history := if op = .mainDone then w.history else .cancel :: w.history }

@[grind] def terminate (op : Op) (w : World) : World :=
  cancelMain op { w with
    session := { w.session with
      hangupCause := if op = .mainDone then w.session.hangupCause else some .manualHangup }
    history := if op = .mainDone then w.history else .terminate :: w.history }

/-- `SessionManager.cancel_all` on this session's tasks. -/
@[grind] def cancelAll (op : Op) (w : World) : World :=
  cancelMain op { w with listen := { w.listen with
    asrPump := w.listen.asrPump.cancel
    evPump := w.listen.evPump.cancel
    prewarm := w.listen.prewarm.cancel
    partialMonitor := if w.listen.monitorsAttached then w.listen.partialMonitor.cancel
      else w.listen.partialMonitor } }

/-- The subscribers of the lossless lane. -/
def deliver (op : Op) (w : World) : BusEvent → World
  | .asrFinal r => { w with listen := { w.listen with finals := w.listen.finals ++ [r] } }
  | .asrStreamEnded => w
  | .hangupDetected _ => { w with listen := { w.listen with hangupEvent := true } }
  | .manualHangupRequested => w.terminate op
  | .transferRequested => w.terminate op

attribute [grind =] deliver.eq_def

@[grind] def dispatch (op : Op) (w : World) : Option World :=
  if w.bus.dispatching then
    match w.bus.lossless with
    | e :: rest => some (({ w with bus := { w.bus with lossless := rest } }).deliver op e)
    | [] => none
  else none

@[grind] def dispatchLossy (w : World) : Option World :=
  if w.bus.dispatching then
    match w.bus.lossy with
    | r :: rest => some { w with
        bus := { w.bus with lossy := rest }
        listen := { w.listen with partials := w.listen.partials ++ [r] } }
    | [] => none
  else none

/-- The ASR pump receives one result. -/
@[grind] def asrResult (w : World) (text : Text) (isFinal : Bool) : Option World :=
  if w.listen.asrPump = .running then
    if text = [] then some w
    else if isFinal then
      let r : AsrResult := ⟨text, w.asrCount⟩
      let w := if w.bus.closed then w else w.note (.posted r)
      some { w with
        bus := w.bus.post (.asrFinal r)
        asrCount := w.asrCount + 1
        session := { w.session with currentUserSpeechStartedMs := none }
        speech := .final r.index :: w.speech }
    else some { w with
      bus := w.bus.postPartial ⟨text, w.asrCount⟩
      asrCount := w.asrCount + 1 }
  else none

/-- The ASR pump ends, on its own or after a cancel; its `finally` posts the end marker. -/
@[grind] def asrPumpEnd (w : World) : Option World :=
  if w.listen.asrPump = .running ∨ w.listen.asrPump = .cancelled then
    some { w with
      listen := { w.listen with asrPump := .ended }
      bus := w.bus.post .asrStreamEnded }
  else none

@[grind] def evPumpStep (w : World) : Option World :=
  match w.listen.evPump, w.phone.events with
  | .running, some e :: rest =>
      let w := { w with phone := { w.phone with events := rest } }
      if e.isTerminal then some { w with
        listen := { w.listen with evPump := .ended }
        bus := w.bus.post (.hangupDetected e) }
      else some w
  | .running, none :: rest => some { w with
      phone := { w.phone with events := rest }
      listen := { w.listen with evPump := .ended } }
  | .cancelled, _ => some { w with listen := { w.listen with evPump := .ended } }
  | _, _ => none

/-- The cancelled partial monitor returns. -/
@[grind] def monitorEnd (w : World) : Option World :=
  if w.listen.partialMonitor = .cancelled then
    some { w with listen := { w.listen with partialMonitor := .ended } }
  else none

/-- The monitor's guard: a reply turn is in progress or audio plays, and nothing is latched. -/
def partialCounts (w : World) : Bool :=
  (w.session.inProcessingTurn || w.session.currentSpeakingTask.isSome)
    && !w.session.interruptionSignaled

/-- Latch the interruption, record it, and cancel the speaking task unless it is done. -/
@[grind] def triggerInterruption (w : World) (text : Text) : World :=
  { w with
    session := { w.session with interruptionSignaled := true }.appendEvent w.clock
      (.interruption w.session.currentTurnId text)
    play := if w.session.currentSpeakingTask = w.play.map PlayTask.id
      then w.play.map PlayTask.cancel else w.play
    history := .trigger w.session.inProcessingTurn :: w.history }

/-- The partial monitor handles one partial transcript. -/
@[grind] def partialMonitorStep (cfg : RuntimeConfig) (w : World) : Option World :=
  match w.listen.partialMonitor, w.listen.partials with
  | .running, r :: rest =>
      let w := { w with listen := { w.listen with partials := rest } }
      let text := r.text.strip
      if w.partialCounts = false ∨ text = [] then some w
      else
        let anchor := w.session.currentUserSpeechStartedMs.getD w.clock
        let w := { w.note (.evaluated r) with
          session := { w.session with currentUserSpeechStartedMs := some anchor }
          speech := .measured r anchor w.clock :: w.speech }
        if evaluatePartial text anchor w.clock cfg.interruption
        then some (w.triggerInterruption text) else some w
  | _, _ => none

@[grind] def asrGetStep (w : World) : Option World :=
  match w.listen.window, w.listen.finals with
  | some win, r :: rest =>
      if win.asrGet = .waiting then some { w with listen := { w.listen with
        finals := rest, window := some { win with asrGet := .held r } } }
      else none
  | _, _ => none

@[grind] def hangupWaitStep (w : World) : Option World :=
  match w.listen.window with
  | some win =>
      if win.hangupWait = .waiting ∧ w.listen.hangupEvent then
        some { w with listen := { w.listen with
          window := some { win with hangupWait := .finished } } }
      else none
  | none => none

/-- `audio_out` ends; once cancelled it stops with `CancelledError`. -/
@[grind] def playEnd (w : World) (ok : Bool) : Option World :=
  match w.play with
  | some p => match p.status with
      | .running => some { w with play := some { p with status := if ok then .done else .failed } }
      | .cancelling => some { w with play := some { p with status := .cancelled } }
      | _ => none
  | none => none

/-- The eager task of a stream produces its next sentence. -/
@[grind] def eagerSentence (w : World) (i : Nat) (s : Text) : Option World :=
  let st := w.stream i
  match st.eager with
  | some e =>
      if e.status = .running ∧ s.Sentence then some (w.setStream i { st with
        eager := some { e with buffer := e.buffer ++ [s] }
        result := { st.result with replyText := st.result.replyText ++ s } })
      else none
  | none => none

@[grind] def eagerEnd (w : World) (i : Nat) (error : Option String) : Option World :=
  let st := w.stream i
  match st.eager with
  | some e =>
      if e.status ≠ .ended then some (w.setStream i { st with
        eager := some { e with status := .ended }
        result := { st.result with error := error.or st.result.error } })
      else none
  | none => none

/-- The pipe, if its producer is waiting for the generator. -/
def pulling? (w : World) : Option Pipe :=
  w.pipe.filter fun p => p.producer = .pulling && !p.cancelRequested

/-- Direct generation yields a sentence to the producer. -/
@[grind] def produceSentence (w : World) (s : Text) : Option World :=
  match w.pulling? with
  | some p =>
      let st := w.stream p.stream
      if st.eager = none ∧ s.Sentence then some { w.setStream p.stream { st with
          result := { st.result with replyText := st.result.replyText ++ s } } with
        pipe := some (Pipe.offer p s false)
        turnTasks := w.turnTasks ++ [.synth s] }
      else none
  | none => none

/-- The replay of an eager buffer: its next sentence and the advanced cursor. -/
def nextReplay? (st : Stream) : Option (Text × Stream) :=
  match st.eager with
  | some e => match e.buffer.drop e.replayedCount with
      | s :: _ => some (s, { st with
          eager := some { e with replayedCount := e.replayedCount + 1 } })
      | [] => none
  | none => none

/-- Eager generation: the producer takes the next sentence of the replay. -/
@[grind] def replaySentence (w : World) : Option World :=
  match w.pulling? with
  | some p => match nextReplay? (w.stream p.stream) with
      | some (s, st) => some { w.setStream p.stream st with
          pipe := some (Pipe.offer p s false)
          turnTasks := w.turnTasks ++ [.synth s] }
      | none => none
  | none => none

def stallReply : Text := "好的，请稍等。".toList

/-- The generator is exhausted. A silent reply is replaced by a default one. -/
@[grind] def generatorEnd (cfg : RuntimeConfig) (w : World) (error : Option String) (pick : Text) :
    Option World :=
  match w.pulling? with
  | some p =>
      let st := w.stream p.stream
      let exhausted := match st.eager with
        | some e => e.status = .ended && e.buffer.length ≤ e.replayedCount
        | none => true
      let result : MainStreamResult := { st.result with
        error := if st.eager.isNone then error.or st.result.error else st.result.error }
      let options := if cfg.pipeline.defaultReplies = [] then [stallReply]
        else cfg.pipeline.defaultReplies
      if exhausted = false then none
      else if result.replyText.strip ≠ [] then some { w.setStream p.stream { st with
          result := result } with pipe := some { p with producer := .ending } }
      else if pick ∈ options then
        let error := result.error.getD "empty_reply_default_used"
        some ({ w.setStream p.stream { st with result :=
            ⟨pick, true, some error⟩ } with
          pipe := some (Pipe.offer p pick true)
          turnTasks := w.turnTasks ++ [TurnTask.synth pick] }.append
            (.defaultReplyUsed pick (some error)))
      else none
  | none => none

/-- The generator raises; the producer records it and goes on to the sentinel. -/
@[grind] def generatorError (w : World) (message : String) : Option World :=
  match w.pulling? with
  | some p =>
      let st := w.stream p.stream
      if st.eager = none then some { w.setStream p.stream { st with result := { st.result with
          error := some (st.result.error.getD ("main_stream_producer: " ++ message)) } } with
        pipe := some { p with producer := .ending } }
      else none
  | none => none

/-- A blocked `put` goes through: of a job, or of the sentinel. -/
@[grind] def producerPut (w : World) : Option World :=
  match w.pipe with
  | some p =>
      if p.cancelRequested = false ∧ p.jobs.length < Pipe.jobsMaxsize then
        match p.producer with
        | .putting job last => some { w with pipe := some { p with
            jobs := p.jobs ++ [some job], producer := if last then .ending else .pulling } }
        | .ending => some { w with pipe := some { p with
            jobs := p.jobs ++ [none], producer := .done } }
        | _ => none
      else none
  | none => none

/-- The cancelled producer ends; a job it never enqueued is closed with it. -/
@[grind] def producerEnd (w : World) : Option World :=
  match w.pipe with
  | some p =>
      if p.cancelRequested ∧ p.producer.isDone = false then
        let w := match p.producer with
          | .putting job _ => { w.note (.lost job) with
              turnTasks := w.turnTasks.erase (.synth job) }
          | _ => w
        some { w with pipe := some { p with producer := .cancelled } }
      else none
  | none => none

/-- The first chunk of a reply is played. -/
@[grind] def firstAudio (w : World) : Option World :=
  match w.pipe, w.play with
  | some p, some t =>
      if p.firstAudioMs = none ∧ t.site = .sentence ∧ t.status = .running then
        some { w with pipe := some { p with firstAudioMs := some (w.clock - p.processingStart) } }
      else none
  | _, _ => none

/-- `FillerManager._pick_phrase`: the candidates, and whether the used set is reset. -/
def fillerCandidates (phrases used : List Text) : List Text × List Text :=
  let ready := phrases.filter fun p => p.strip ≠ []
  let unused := ready.filter fun p => !used.contains p
  if unused = [] then (ready, []) else (unused, used)

/-- The filler gate's timer fires. -/
@[grind] def fillerGateStep (cfg : RuntimeConfig) (w : World) (pick : Text) : Option World :=
  if w.filler.gate = .sleeping ∧ w.filler.deadline ≤ w.clock then
    let w := { w with filler := { w.filler with gate := .ended } }
    let (unused, used) := fillerCandidates cfg.fillerPhrases w.session.usedFillerPhrases
    if (w.pipe.bind Pipe.firstAudioMs).isSome ∨ unused = [] then some w
    else if pick ∈ unused then some { w with
      session := { w.session with usedFillerPhrases := used ++ [pick] }
      filler := { w.filler with playing := some pick, stopped := false } }
    else none
  else if w.filler.gate = .cancelled then
    some { w with filler := { w.filler with gate := .ended } }
  else none

/-- The filler's playback ends; only one that was not stopped is recorded. -/
@[grind] def fillerEnd (w : World) (ok : Bool) : Option World :=
  match w.filler.playing with
  | some phrase =>
      let w' := { w with filler := { w.filler with playing := none } }
      if ok ∧ w.filler.stopped = false
      then some (w'.append (.filler phrase (max 50 (phrase.length * 20)))) else some w'
  | none => none

/-- A task of the turn ends on its own. -/
@[grind] def taskEnd (w : World) (t : TurnTask) : Option World :=
  if t ∈ w.turnTasks then some { w with turnTasks := w.turnTasks.erase t } else none

/-- The dispatcher delivers one edge message to the registered call. -/
@[grind] def edgeMessage (w : World) (m : EdgeMessage) : Option World :=
  if w.phone.client = .rtc ∧ w.phone.registered then
    let put (e : TelephonyEvent) := { w.phone with events := w.phone.events ++ [some e] }
    let ends (e : TelephonyEvent) := { (put e).closeByEdge with terminalReported := true }
    match m with
    | .connected => some { w with phone := put .connected }
    | .remoteHangup => some { w with phone := ends .remoteHangup }
    | .deviceError => some { w with phone := ends .deviceError }
    | .dialAck false => some { w with phone := ends .remoteHangup }
    | .dialAck true => some w
    | .informational => some w
  else none

/-- A client known only by its contract reports any event at any time. -/
@[grind] def telephonyEvent (w : World) (e : Option TelephonyEvent) : Option World :=
  if w.phone.client = .other then
    some { w with phone := { w.phone with events := w.phone.events ++ [e] } }
  else none

/-- One step of `finalize_session`; `ok` is whether its storage command succeeded. -/
@[grind] def finalizeStep (w : World) (extract ok : Bool) : Option World :=
  let f := w.finalize
  match f.stage with
  | .created =>
      let cause := w.session.hangupCause.getD .normalClearing
      some { w with
        session := { w.session with hangupCause := some cause }
        finalize := { f with stage := .persisting, starts := f.starts + 1, cause := some cause }
        history := .finalizing :: w.history }
  | .persisting => some { w with finalize := { f with
      persisted := ok
      failed := if ok then f.failed else .persist :: f.failed
      stage := if extract ∧ w.session.dialogHistory ≠ [] then .extracting else .pushing } }
  | .extracting => some { w with finalize := { f with stage := .pushing } }
  | .pushing => some { w with finalize := { f with
      callEnded := if ok then f.callEnded ++ f.cause.toList else f.callEnded
      failed := if ok then f.failed else .pushCallEnded :: f.failed
      stage := .decrementing } }
  | .decrementing => some { w with
      finalize := { f with
        decrements := if ok then f.decrements + 1 else f.decrements
        failed := if ok then f.failed else .decrement :: f.failed
        stage := .finished }
      managed := false }
  | _ => none

end World
end IsalesEngine
