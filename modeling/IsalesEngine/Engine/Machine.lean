import IsalesEngine.Engine.Tasks

/-!
The event loop around `main`: which sections of other tasks may run while it is
suspended, and which results may resume it. Code outside the repository is
assumed to follow asyncio's rules: a wait whose task was cancelled resumes with
`CancelledError` and with nothing else, and no wait raises `CancelledError` on
its own. Providers may otherwise answer anything and raise any exception.
-/
namespace IsalesEngine
open Asyncio

inductive Control where
  | manualHangup | transfer
  deriving DecidableEq, Repr

inductive Move where
  | tick (ms : Nat)
  | control (c : Control)
  | cancelAll
  | cancelConsumer
  | dispatch
  | dispatchLossy
  | asrResult (text : Text) (isFinal : Bool)
  | asrPumpEnd
  | evPump
  | monitorEnd
  | partialMonitor
  | asrGet
  | hangupWait
  | playEnd (ok : Bool)
  | eagerSentence (stream : Nat) (sentence : Text)
  | eagerEnd (stream : Nat) (error : Option String)
  | produceSentence (sentence : Text)
  | replaySentence
  | generatorEnd (error : Option String) (pick : Text)
  | generatorError (message : String)
  | producerPut
  | producerEnd
  | firstAudio
  | fillerGate (pick : Text)
  | fillerEnd (ok : Bool)
  | taskEnd (t : TurnTask)
  | edge (m : EdgeMessage)
  | telephony (e : Option TelephonyEvent)
  | finalize (extract ok : Bool)
  deriving DecidableEq, Repr

namespace Engine

def postControl (w : World) : Control → World
  | .manualHangup => { w with bus := w.bus.post .manualHangupRequested }
  | .transfer => { w with bus := w.bus.post .transferRequested }

attribute [grind =] postControl.eq_def

/-- A section of another task while the call's `main` task waits at `op`. -/
@[grind] def callMove (cfg : RuntimeConfig) (op : Op) (w : World) : Move → Option World
  | .tick ms => some { w with clock := w.clock + ms }
  | .control c => some (postControl w c)
  | .cancelAll => some (w.cancelAll op)
  | .cancelConsumer => none
  | .dispatch => w.dispatch op
  | .dispatchLossy => w.dispatchLossy
  | .asrResult text isFinal => w.asrResult text isFinal
  | .asrPumpEnd => w.asrPumpEnd
  | .evPump => w.evPumpStep
  | .monitorEnd => w.monitorEnd
  | .partialMonitor => w.partialMonitorStep cfg
  | .asrGet => w.asrGetStep
  | .hangupWait => w.hangupWaitStep
  | .playEnd ok => w.playEnd ok
  | .eagerSentence i s => w.eagerSentence i s
  | .eagerEnd i error => w.eagerEnd i error
  | .produceSentence s => w.produceSentence s
  | .replaySentence => w.replaySentence
  | .generatorEnd error pick => w.generatorEnd cfg error pick
  | .generatorError message => w.generatorError message
  | .producerPut => w.producerPut
  | .producerEnd => w.producerEnd
  | .firstAudio => w.firstAudio
  | .fillerGate pick => w.fillerGateStep cfg pick
  | .fillerEnd ok => w.fillerEnd ok
  | .taskEnd t => w.taskEnd t
  | .edge m => w.edgeMessage m
  | .telephony e => w.telephonyEvent e
  | .finalize extract ok => w.finalizeStep extract ok

def move (cfg : RuntimeConfig) (op : Op) (m : Move) (w : World) : Option World :=
  if op.ofConsumer then
    if m = .cancelConsumer then some { w.note .cancel with cancelPending := true } else none
  else if op.suspends then callMove cfg op w m
  else none

variable {α : Type}

/-- The resumption of a synchronous call. -/
def synchronous (w : World) : Reply α → Option World
  | .error .cancelled => none
  | _ => some w

/-- The resumption of a wait: a pending cancel wins over any answer. -/
def plain (w : World) : Reply α → Option World
  | .error .cancelled => if w.cancelPending then some { w with cancelPending := false } else none
  | _ => if w.cancelPending then none else some w

/-- The resumption of a wait that cannot raise and whose answer must be `allowed`. -/
def answer (w : World) (allowed : α → Bool) : Reply α → Option World
  | .ok a => if allowed a then plain w (.ok a : Reply α) else none
  | .error .cancelled => plain w (.error .cancelled : Reply α)
  | .error (.error _) => none

/-- The resumption of a reap. The awaited task was cancelled already, so a cancel of `main`
that arrived meanwhile ends here, whichever way the task ended. -/
def reap (w : World) (gone : Bool) : Reply α → Option World
  | .error (.error _) => none
  | _ => if gone then some { w with cancelPending := false } else none

/-- The resumption of a reap whose task may also have ended with an exception. -/
def reapFailing (w : World) (gone : Bool) (_ : Reply α) : Option World :=
  if gone then some { w with cancelPending := false } else none

def replyPlayback (w : World) (r : Reply Unit) : Option World :=
  match w.play, r with
  | some p, .ok _ => if p.status = .done then plain w r else none
  | some p, .error (.error _) => if p.status = .failed then plain w r else none
  | some p, .error .cancelled =>
      if p.status = .cancelled then some { w with cancelPending := false }
      else if p.status.isDone then plain w r else none
  | none, _ => none

/-- `asyncio.wait` returns when one of the two tasks is done or its timer has fired; the timer
may be early by the resolution of the clock. -/
def listenOver (w : World) (timeoutMs : Nat) : Bool :=
  match w.listen.window with
  | some win => (win.asrGet matches .held _) || win.hangupWait = .finished
      || win.started + timeoutMs ≤ w.clock + 1
  | none => false

/-- The probe ends with `CancelledError` if it was told to stop before it was over. -/
def replyPrewarm (w : World) : Reply Unit → Option World
  | .error .cancelled => plain { w with cancelPending :=
      w.cancelPending || w.listen.prewarm = .cancelled } (.error .cancelled : Reply Unit)
  | r => plain w r

def replyJob (w : World) : Reply (Option Text) → Option World
  | .ok job => match w.pipe with
      | some p => match p.jobs with
          | j :: rest => if j = job ∧ w.cancelPending = false
              then some { w with pipe := some { p with jobs := rest } } else none
          | [] => none
      | none => none
  | r => answer w (fun _ => true) r

def replyEvent (w : World) : Reply (Option TelephonyEvent) → Option World
  | .ok e => match w.phone.events with
      | e' :: rest => if e' = e ∧ w.cancelPending = false
          then some { w with phone := { w.phone with events := rest } } else none
      | [] => none
  | r => plain w r

/-- Resumptions that the history records: the session was not reserved, the call task was
cancelled before its first step, or it left the finalizer running. -/
def noting (mark : Mark) (bad : Bool) (w : Option World) : Option World :=
  if bad then w.map fun w => w.note mark else w

def isOk : Reply α → Bool
  | .ok _ => true
  | .error _ => false

def pumpsOver (l : Listen) : Bool :=
  l.asrPump = .ended && l.evPump = .ended && (!l.monitorsAttached || l.partialMonitor = .ended)

def reply (cfg : RuntimeConfig) : (op : Op) → Reply op.Res → World → Option World
  | .ext _, r, w => synchronous w r
  | .choice options, r, w => match r with
      | .ok x => if x ∈ options then some w else none
      | .error _ => none
  | .firstStep, r, w => noting .neverStarted (!isOk r) (answer w (fun _ => true) r)
  | .loadConfig, r, w => plain w r
  | .closeTts, r, w => plain w r
  | .closeLlms, r, w => plain w r
  | .joinRtc, r, w => plain w r
  | .sendToEdge _, r, w => plain w r
  | .reapOutboundPump, r, w => reapFailing w true r
  | .leaveRtc, r, w => plain w r
  | .awaitInboundPump, r, w => plain w r
  | .reapInboundPump, r, w => reapFailing w true r
  | .clientDial, r, w => plain w r
  | .clientHangup, r, w => plain w r
  | .nextEvent, r, w => replyEvent w r
  | .greetingChat, r, w => plain w r
  | .reapPrewarm, r, w => replyPrewarm w r
  | .playback, r, w => replyPlayback w r
  | .listen timeoutMs, r, w => answer w (fun _ => listenOver w timeoutMs) r
  | .reapAsrGet, r, w => reap w true r
  | .reapHangupWait, r, w => reap w true r
  | .gate, r, w =>
      answer w (fun rs => rs.map RefereeResult.label = cfg.pipeline.refereeLabels) r
  | .reapEager i, r, w =>
      reapFailing w ((w.stream i).eager.all fun e => e.status = .ended) r
  | .transferLlm, r, w => plain w r
  | .jobGet, r, w => replyJob w r
  | .reapFillerGate, r, w => reap w (w.filler.gate = .ended) r
  | .reapFiller, r, w => reap w w.filler.playing.isNone r
  | .reapProducer, r, w => reap w (w.pipe.all fun p => p.producer.isDone) r
  | .reapSynth, r, w => reap w true r
  | .closeSynth, r, w => plain w r
  | .wrapUpReferee, r, w => plain w r
  | .stopPumps, r, w => answer w (fun _ => pumpsOver w.listen) r
  | .closeBus, r, w => answer w (fun _ => true) r
  | .runner, _, w => some { w with cancelPending := false }
  | .finalizeSession, r, w => noting .leftFinalize (w.finalize.stage ≠ .finished)
      (answer w (fun _ => w.finalize.stage = .finished) r)
  | .mainDone, r, w =>
      if isOk r ∧ (w.finalize.stage = .notCreated ∨ w.finalize.stage = .finished) then some w
      else none
  | .dlqPush, r, w => plain w r
  | .reserve, r, w => noting .unreserved (!isOk r) (plain w r)
  | .outOfFuel, _, _ => none

end Engine

/-- The engine's event loop around one call. -/
def engine (cfg : RuntimeConfig) : Machine sig World where
  Move := Move
  move := Engine.move cfg
  reply := Engine.reply cfg

/-- The engine in which only the allowed actions are taken. -/
abbrev allowing (cfg : RuntimeConfig) (allow : Op → Action sig Move → World → Bool) :
    Machine sig World :=
  (engine cfg).restrict allow

/-- Nothing is asked at a wait. -/
abbrev anything (_ : Op) (_ : World) : Prop := True

end IsalesEngine
