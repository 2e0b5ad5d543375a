import IsalesEngine.Engine.World

/-!
The suspension points of the call's `main` task, and of the consumer task that
creates it. `ext` and `choice` are synchronous calls out of the modelled code:
the event loop runs nothing during them, but they may raise or answer anything.
Every other operation is an `await`. Reaping a task that was just cancelled is
an operation of its own, because the code wraps those in `suppress`. At
`mainDone` the `main` task has ended and only the other tasks go on.
-/
namespace IsalesEngine
open Asyncio

inductive Err where
  | timeout
  | edgeNotConnected
  | other (message : String)
  deriving DecidableEq, Repr

/-- Synchronous calls into providers, the publisher and the telephony client. -/
inductive Ext where
  | publish | configureAmbient | setBargeInFadeout | streamRecognize | events | audioInVad
  | llmFor | buildStream | signForCall | resolveEdge | registerCall
  deriving DecidableEq, Repr

inductive Op where
  | ext (call : Ext)
  | choice (options : List Text)
  | firstStep
  | loadConfig
  | closeTts
  | closeLlms
  | joinRtc
  | sendToEdge (command : EdgeCommand)
  | reapOutboundPump
  | leaveRtc
  | awaitInboundPump
  | reapInboundPump
  | clientDial
  | clientHangup
  | nextEvent
  | greetingChat
  | reapPrewarm
  | playback
  | listen (timeoutMs : Nat)
  | reapAsrGet
  | reapHangupWait
  | gate
  | reapEager (stream : Nat)
  | transferLlm
  | jobGet
  | reapFillerGate
  | reapFiller
  | reapProducer
  | reapSynth
  | closeSynth
  | wrapUpReferee
  | stopPumps
  | closeBus
  | runner
  | finalizeSession
  | mainDone
  | dlqPush
  | reserve
  | outOfFuel
  deriving DecidableEq, Repr

abbrev Op.Res : Op → Type
  | .choice _ => Text
  | .nextEvent => Option TelephonyEvent
  | .greetingChat => Text
  | .gate => List RefereeResult
  | .transferLlm => Option TransferDecision
  | .jobGet => Option Text
  | .wrapUpReferee => RefereeResult
  | .outOfFuel => Empty
  | _ => Unit

abbrev sig : Signature := ⟨Op, Op.Res, Err⟩

instance : DecidableEq sig.Op := inferInstanceAs (DecidableEq Op)

abbrev Prog (α : Type) : Type := Coro sig World α

abbrev Reply (α : Type) : Type := sig.Reply α

abbrev await (op : Op) : Prog op.Res := Coro.wait (S := sig) op

/-- Whether other tasks run while `main` is at this point. -/
def Op.suspends : Op → Bool
  | .ext _ | .choice _ | .outOfFuel => false
  | _ => true

/-- The waits of the dial consumer, before the call task exists. -/
def Op.ofConsumer : Op → Bool
  | .dlqPush | .reserve => true
  | _ => false

/-- Waits for a task that was cancelled just before, under `suppress(CancelledError)`. -/
def Op.isReap : Op → Bool
  | .reapOutboundPump | .reapInboundPump | .reapAsrGet | .reapHangupWait | .reapEager _
  | .reapFillerGate | .reapFiller | .reapProducer | .reapSynth => true
  | _ => false

/-- The other waits of `run_session`. -/
def Op.isPlain : Op → Bool
  | .runner | .firstStep | .finalizeSession | .mainDone | .dlqPush | .reserve => false
  | op => !op.isReap

end IsalesEngine
