import IsalesEngine.Asyncio.Logic
import IsalesEngine.Policy.Gate

/-!
The shared state of one call: the session, the event bus with its bridges, the
tasks around the run loop, and the telephony client's entry for the call. Tasks
other than the call's `main` task are represented by the data a step of theirs
depends on. `history` is a history variable, newest first: no modelled function
reads it, it only says what has happened so far.
-/
namespace IsalesEngine

inductive TelephonyEvent where
  | connected | localHangup | remoteHangup | deviceError
  deriving DecidableEq, Repr

def TelephonyEvent.isTerminal : TelephonyEvent → Bool
  | .connected => false
  | _ => true

/-- What the edge may report about a call. -/
inductive EdgeMessage where
  | connected | remoteHangup | deviceError
  | dialAck (accepted : Bool)
  | informational
  deriving DecidableEq, Repr

inductive EdgeCommand where
  | dial | cancel
  deriving DecidableEq, Repr

/-- `RtcTelephonyClient`, or a client only known by its contract. -/
inductive Client where
  | rtc | other
  deriving DecidableEq, Repr

/-- The client's state for this call. `events` is `events_q`, its end marker `none`. -/
structure Phone where
  client : Client
  inCalls : Bool := false
  registered : Bool := false
  closed : Bool := false
  joined : Bool := false
  outboundPump : Bool := false
  events : List (Option TelephonyEvent) := []
  sent : List EdgeCommand := []
  terminalReported : Bool := false
  deriving DecidableEq, Repr

/-- What the release of a call is about: whether the client and the dispatcher know it, the
commands sent for it, and whether the edge has reported its end. -/
structure Line where
  client : Client
  inCalls : Bool
  registered : Bool
  sent : List EdgeCommand
  terminalReported : Bool

def Phone.line (p : Phone) : Line :=
  ⟨p.client, p.inCalls, p.registered, p.sent, p.terminalReported⟩

/-- A recognised text; `index` numbers the results in the order in which the ASR pump posts them. -/
structure AsrResult where
  text : Text
  index : Nat
  deriving DecidableEq, Repr

inductive BusEvent where
  | asrFinal (r : AsrResult)
  | asrStreamEnded
  | hangupDetected (cause : TelephonyEvent)
  | manualHangupRequested
  | transferRequested
  deriving DecidableEq, Repr

def BusEvent.isControl : BusEvent → Bool
  | .manualHangupRequested | .transferRequested => true
  | _ => false

attribute [grind =] BusEvent.isControl.eq_def

/-- The two lanes; the lossy one carries partial transcripts only. -/
structure Bus where
  lossless : List BusEvent := []
  lossy : List AsrResult := []
  dispatching : Bool := false
  closed : Bool := false
  dropped : Nat := 0
  deriving DecidableEq, Repr

namespace Bus

def lossyMaxsize : Nat := 256

def post (b : Bus) (e : BusEvent) : Bus :=
  if b.closed then b else { b with lossless := b.lossless ++ [e] }

def postPartial (b : Bus) (r : AsrResult) : Bus :=
  if b.closed then b
  else if b.lossy.length < lossyMaxsize then { b with lossy := b.lossy ++ [r] }
  else { b with lossy := b.lossy.tail ++ [r], dropped := b.dropped + 1 }

end Bus

inductive Pump where
  | absent | running | cancelled | ended
  deriving DecidableEq, Repr

def Pump.cancel : Pump → Pump
  | .running => .cancelled
  | p => p

inductive GetTask where
  | waiting
  | held (r : AsrResult)
  | cancelled
  deriving DecidableEq, Repr

inductive WaitTask where
  | waiting | finished | cancelled
  deriving DecidableEq, Repr

/-- The two tasks a listening window waits on. -/
structure Window where
  asrGet : GetTask := .waiting
  hangupWait : WaitTask := .waiting
  started : Nat
  deriving DecidableEq, Repr

structure Listen where
  finals : List AsrResult := []
  partials : List AsrResult := []
  hangupEvent : Bool := false
  asrPump : Pump := .absent
  evPump : Pump := .absent
  prewarm : Pump := .absent
  partialMonitor : Pump := .absent
  monitorsAttached : Bool := false
  window : Option Window := none
  deriving DecidableEq, Repr

/-- Where a playback was started. -/
inductive PlaySite where
  | greeting | silenceHangup | silenceActivation | listenOnlyCue | handoffPhrase | hangupPhrase
  | wrapUpClosing | cappedDefault | sentence
  deriving DecidableEq, Repr

inductive PlayStatus where
  | running | cancelling | done | failed | cancelled
  deriving DecidableEq, Repr

def PlayStatus.isDone : PlayStatus → Bool
  | .running | .cancelling => false
  | _ => true

/-- The `audio_out` task of the current playback. -/
structure PlayTask where
  id : Nat
  site : PlaySite
  text : Text
  status : PlayStatus := .running
  deriving DecidableEq, Repr

/-- `Task.cancel`, which a task that is done ignores. -/
def PlayTask.cancel (p : PlayTask) : PlayTask :=
  if p.status.isDone then p else { p with status := .cancelling }

structure MainStreamResult where
  replyText : Text := []
  usedDefaultReply : Bool := false
  error : Option String := none
  deriving DecidableEq, Repr

inductive EagerStatus where
  | running | cancelling | ended
  deriving DecidableEq, Repr

/-- The replay buffer a background task fills with the sentences of a reply. -/
structure Eager where
  buffer : List Text := []
  replayedCount : Nat := 0
  status : EagerStatus := .running
  deriving DecidableEq, Repr

structure Stream where
  turnId : Nat
  slot : Slot := {}
  isRestructure : Bool := false
  eager : Option Eager := none
  result : MainStreamResult := {}
  deriving DecidableEq, Repr

/-- Where the sentence producer stands: pulling from the generator, blocked in `job_q.put` with
a job (`last`: the generator has nothing after it), about to put the sentinel, or over. -/
inductive Producer where
  | pulling
  | putting (job : Text) (last : Bool)
  | ending
  | done
  | cancelled
  deriving DecidableEq, Repr

def Producer.isDone : Producer → Bool
  | .done | .cancelled => true
  | _ => false

/-- The producer/consumer pipeline of one reply; `none` in the job queue is the sentinel. -/
structure Pipe where
  stream : Nat
  jobs : List (Option Text) := []
  producer : Producer := .pulling
  cancelRequested : Bool := false
  firstAudioMs : Option Nat := none
  processingStart : Nat
  currentJob : Option Text := none
  fullyPlayed : Bool := true
  deriving DecidableEq, Repr

def Pipe.jobsMaxsize : Nat := 2

inductive FillerGate where
  | absent | sleeping | cancelled | ended
  deriving DecidableEq, Repr

structure Filler where
  gate : FillerGate := .absent
  deadline : Nat := 0
  playing : Option Text := none
  stopped : Bool := false
  deriving DecidableEq, Repr

/-- A task of the current turn whose only visible effect is that it runs: the referees, the
transfer detector, the referee of the wrap-up phase, and the synthesis of a sentence. -/
inductive TurnTask where
  | referee | detector | wrapUpReferee
  | synth (job : Text)
  deriving DecidableEq, Repr

inductive FinalizeStage where
  | notCreated | created | persisting | extracting | pushing | decrementing | finished
  deriving DecidableEq, Repr

inductive FinalizeCommand where
  | persist | pushCallEnded | decrement
  deriving DecidableEq, Repr

/-- `finalize_session` and its effects; `failed` are the commands whose failure it only logs. -/
structure Finalize where
  stage : FinalizeStage := .notCreated
  starts : Nat := 0
  cause : Option HangupCause := none
  persisted : Bool := false
  callEnded : List HangupCause := []
  decrements : Nat := 0
  failed : List FinalizeCommand := []
  deriving DecidableEq, Repr

/-- The columns of a pipeline trace row that later code or the worker reads. -/
structure TraceRecord where
  turnId : Nat
  userInput : Text
  mainReplyText : Text
  firstAudioMs : Option Nat
  error : Option String
  refereeResults : List RefereeResult := []
  matchedRule : Option RoutingRule := none
  restructureText : Option Text := none
  restructureTrigger : Option String := none
  selectedRouteId : Option String := none
  selectedRouteKind : Option RouteKind := none
  personaCandidates : Option (List String) := none
  deriving DecidableEq, Repr

inductive Outcome where
  | userFinal (text : Text)
  | silenceActivation (phrase : Text)
  | silenceHangup (phrase : Option Text)
  | remoteHangup
  | noProgress
  deriving DecidableEq, Repr

/-- What the history variable records. `drained` has the results that were still on a lane, and
`batch` the partial transcripts that had not reached the monitor. -/
inductive Mark where
  | cancel
  | terminate
  | listening (signaled : Bool)
  | turn
  | playback (site : PlaySite)
  | trigger (inProcessingTurn : Bool)
  | abort
  | posted (r : AsrResult)
  | drained (posted : Nat) (finals partials : List AsrResult)
  | batch (finals : List AsrResult) (outcome : Outcome) (late : List AsrResult)
  | evaluated (r : AsrResult)
  | released (routeId : String) (slot : Slot) (roleConfigId : Nat)
  | wrapUpReply
  | wrapUpReplied (elapsedMs : Nat)
  | captured (text : Text)
  | played (sentence : Text)
  | cut (sentence : Text)
  | lost (sentence : Text)
  | recorded (cause : Option HangupCause)
  | attemptHangup
  | unreserved
  | neverStarted
  | leftFinalize
  | finalizing
  deriving DecidableEq, Repr

/-- What the journal of `main` records: the listening windows with their outcomes, and the turns
that the count of restructures depends on. -/
inductive Entry where
  | opened
  | closed (elapsedMs : Nat) (inWrapUp : Bool) (finals : List AsrResult) (outcome : Outcome)
  | revoicing
  | capped
  | repliedInFull
  deriving DecidableEq, Repr

/-- What is recorded of the caller's speech: the finals as they are received, and the partial
transcripts that were evaluated, with the anchor of their utterance and the time. -/
inductive SpeechEntry where
  | final (index : Nat)
  | measured (r : AsrResult) (startedMs nowMs : Nat)
  deriving DecidableEq, Repr

structure World where
  session : CallSession
  phone : Phone
  clock : Nat := 0
  cancelPending : Bool := false
  bus : Bus := {}
  asrCount : Nat := 0
  listen : Listen := {}
  play : Option PlayTask := none
  nextTaskId : Nat := 0
  streams : List Stream := []
  pipe : Option Pipe := none
  filler : Filler := {}
  turnTasks : List TurnTask := []
  shortReplyActive : Bool := false
  pipelineTraceRecords : List TraceRecord := []
  managed : Bool := false
  finalize : Finalize := {}
  deadLetters : Nat := 0
  history : List Mark := []
  journal : List Entry := []
  speech : List SpeechEntry := []
  deriving DecidableEq, Repr

namespace World

/-- The state in which a call's task is created. -/
def initial (callRecordId : Nat) (client : Client) : World where
  session := { callRecordId := callRecordId }
  phone := { client := client }

/-- A state in which `run_session` is entered: nothing of the call has been done. -/
structure Fresh (w : World) : Prop where
  session : w.session = { callRecordId := w.session.callRecordId }
  phone : w.phone = { client := w.phone.client }
  cancelPending : w.cancelPending = false
  bus : w.bus = {}
  listen : w.listen = {}
  play : w.play = none
  pipe : w.pipe = none
  filler : w.filler = {}
  finalize : w.finalize = {}
  history : w.history = []

theorem initial_fresh (callRecordId : Nat) (client : Client) :
    (initial callRecordId client).Fresh := ⟨rfl, rfl, rfl, rfl, rfl, rfl, rfl, rfl, rfl, rfl⟩

@[grind] def note (w : World) (m : Mark) : World := { w with history := m :: w.history }

def enter (w : World) (e : Entry) : World := { w with journal := e :: w.journal }

@[grind] def append (w : World) (e : TranscriptEvent) : World :=
  { w with session := w.session.appendEvent w.clock e }

def transition (w : World) (new : CallStatus) (reason : String) : World :=
  { w with session := StateMachine.transitionTo w.session w.clock new reason }

def stream (w : World) (i : Nat) : Stream := w.streams.getD i { turnId := 0 }

/-- What the streams of the call were built with. -/
def slots (w : World) : List Slot := w.streams.map Stream.slot

@[grind] def setStream (w : World) (i : Nat) (st : Stream) : World :=
  { w with streams := w.streams.set i st }

end World
end IsalesEngine
