import IsalesEngine.Engine.Turn

/-!
The whole call: the turn loop and `run_session` around it. `fuel` bounds the
number of listening windows and, within each reply, of sentences.
-/
namespace IsalesEngine
open Asyncio Asyncio.Coro

def evaluateTransferCheap (cfg : RuntimeConfig) (userText : Text) :
    Prog (Option TransferDecision) := do
  let turnCount ← read fun w => w.session.dialogHistory.length
  match transferTrigger userText turnCount false cfg.transfer with
  | some (type, detail) => do
      let phrase ← pickFrom cfg.transfer.phrases []
      pure (some ⟨type, detail, phrase⟩)
  | none => pure none

namespace TurnLoop

def onRemoteHangup : Prog Directive := do
  transition .ended "user_hangup"
  setHangupCause .userHangup
  appendHangup "user_hangup" "user"
  pure .return

def onSilenceHangup (phrase : Option Text) : Prog Directive := do
  let text := phrase.getD []
  when (text ≠ []) (playTts .silenceHangup text)
  let inWrapUp ← read fun w => w.session.inWrapUp
  let reason := if inWrapUp then "wrap_up_silence" else "silence_max_reached"
  transition .ended reason
  setHangupCause .silenceMaxReached
  appendHangup reason "ai"
  pure .return

def onSilenceActivation (phrase : Text) : Prog Directive := do
  transition .inCall "silence_threshold"
  update fun w => w.append (.silenceActivation phrase w.session.silenceActivationCount)
  playTts .silenceActivation phrase
  modifySession fun s => { s with silenceActivationCount := s.silenceActivationCount + 1 }
  transition .inCall "activation_done"
  pure .continue

def listenOnlyCue : Text := "您请说。".toList

def setShortReply (active : Bool) : Prog Unit := update fun w =>
  { w with shortReplyActive := active }

def onListenOnly : Prog Directive := do
  transition .inCall "listen_only_cue"
  playTts .listenOnlyCue listenOnlyCue false
  modifySession fun s => { s with consecutiveInterruptionCount := 0 }
  setShortReply false
  transition .inCall "listen_only_done"
  pure .continue

/-- A turn begins with these tasks. -/
def startTasks (ts : List TurnTask) : Prog Unit := update fun w => { w with turnTasks := ts }

def process (cfg : RuntimeConfig) (fuel : Nat) (userText : Text) (isWrapUp shortReply : Bool) :
    Prog Directive := do
  setShortReply shortReply
  transition .inCall "speech_end"
  ext .publish
  let processingStart ← read World.clock
  let transferLlm := !isWrapUp && (cfg.transfer.intentEnabled || cfg.transfer.llmEnabled)
  startTasks (if transferLlm then [.detector] else [])
  runGatedTurn cfg fuel userText isWrapUp (cfg.fillerEnabled && !isWrapUp) transferLlm
    processingStart

def onUserFinal (cfg : RuntimeConfig) (fuel : Nat) (userText : Text) : Prog Directive := do
  append (.userSpeech userText)
  ext .publish
  let decision ← evaluateTransferCheap cfg userText
  match decision with
  | some d => do
      performHandoff d.triggerType d.triggerDetail d.phrase
      pure .return
  | none => do
      let isWrapUp ← read fun w => w.session.inWrapUp
      let protection ← read fun w => decideProtection w.session cfg
      match protection with
      | .listenOnly => onListenOnly
      | .shortReply => process cfg fuel userText isWrapUp true
      | .none => process cfg fuel userText isWrapUp false

def onOutcome (cfg : RuntimeConfig) (fuel : Nat) : Outcome → Prog Directive
  | .remoteHangup => onRemoteHangup
  | .silenceHangup phrase => onSilenceHangup phrase
  | .silenceActivation phrase => onSilenceActivation phrase
  | .noProgress => pure .continue
  | .userFinal text => onUserFinal cfg fuel text

end TurnLoop

/-- `_main_turn_loop`. -/
def mainTurnLoop (cfg : RuntimeConfig) (replyFuel : Nat) : (fuel : Nat) → Prog Unit
  | 0 => outOfFuel
  | fuel + 1 => do
      let ended ← read fun w => decide (w.session.state = .ended)
      when (!ended) do
        let outcome ← awaitUserOrSilence cfg
        let directive ← TurnLoop.onOutcome cfg replyFuel outcome
        match directive with
        | .return => pure ()
        | .continue => mainTurnLoop cfg replyFuel fuel

namespace RunSession

def onNoAnswer : Prog Unit := do
  transition .ended "no_answer"
  setHangupCause .noAnswer
  appendHangup "no_answer" "ai"

def afterConnect (cfg : RuntimeConfig) (fuel : Nat) : Prog Unit := do
  transition .inCall "connected"
  ext .publish
  Telephony.configureAmbient
  ext .setBargeInFadeout
  startListenPumps
  when (prewarms cfg) kickMainLlmPrewarm
  doGreeting cfg
  transition .inCall "greeting_done"
  ext .publish
  when (prewarms cfg) (suppress isException (await .reapPrewarm))
  drainGreetingEraAsr
  startMonitors
  mainTurnLoop cfg fuel fuel

/-- The `try` block. -/
def body (cfg : RuntimeConfig) (fuel : Nat) : Prog Unit := do
  update fun w => { w with bus := { w.bus with dispatching := true } }
  let connected ← dialAndWaitConnected
  if connected then afterConnect cfg fuel else onNoAnswer

/-- The `except Exception` block. -/
def onException : Prog Unit := do
  let ended ← read fun w => decide (w.session.state = .ended)
  when (!ended) (transition .ended "engine_internal_error")
  modifySession fun s => { s with hangupCause := some (s.hangupCause.getD .noProgressTimeout) }
  update fun w =>
    (w.append (.hangup ((w.session.hangupCause.map HangupCause.value).getD "") "ai")).note
      (.recorded w.session.hangupCause)

/-- The `finally` block. -/
def cleanup : Prog Unit := do
  let pumps ← read fun w => decide (w.listen.asrPump ≠ .absent)
  when pumps stopListenPumps
  closeBus

end RunSession

open RunSession in
/-- `run_session`. -/
def runSession (cfg : RuntimeConfig) (fuel : Nat) : Prog Unit := do
  update fun w => { w with session := { w.session with callStartedAt := w.clock } }
  ext .publish
  andFinally (exceptError (body cfg fuel) fun _ => onException) cleanup

namespace RunSession

/-- The steps of a call that is dialled and answered. -/
def answeredRun : Client → List (Action sig Move)
  | .rtc =>
      [.reply (.ext .publish) (.ok ()), .reply (.ext .signForCall) (.ok ()),
        .reply .joinRtc (.ok ()), .reply (.ext .resolveEdge) (.ok ()),
        .reply (.ext .registerCall) (.ok ()), .reply (.sendToEdge .dial) (.ok ()),
        .reply (.ext .events) (.ok ()), .move (.edge .connected),
        .reply .nextEvent (.ok (some .connected))]
  | .other =>
      [.reply (.ext .publish) (.ok ()), .reply .clientDial (.ok ()),
        .reply (.ext .events) (.ok ()), .move (.telephony (some .connected)),
        .reply .nextEvent (.ok (some .connected))]

/-- An answered call with a fixed greeting, up to the wait for its playback. -/
def greetingRun (client : Client) : List (Action sig Move) := answeredRun client ++
  [.reply (.ext .publish) (.ok ()), .reply (.ext .configureAmbient) (.ok ()),
    .reply (.ext .setBargeInFadeout) (.ok ()), .reply (.ext .streamRecognize) (.ok ()),
    .reply (.ext .events) (.ok ()), .reply (.ext .llmFor) (.ok ()), .reply (.ext .llmFor) (.ok ())]

/-- From the end of the greeting's playback to the first listening window. -/
def greetedRun : List (Action sig Move) :=
  [.reply (.ext .publish) (.ok ()), .reply .reapPrewarm (.ok ()),
    .reply (.ext .audioInVad) (.ok ())]

/-- An answered call, up to its first listening window. -/
def listeningRun (client : Client) : List (Action sig Move) :=
  greetingRun client ++ [.move (.playEnd true), .reply .playback (.ok ())] ++ greetedRun

def remoteHangup : Client → Move
  | .rtc => .edge .remoteHangup
  | .other => .telephony (some .remoteHangup)

/-- The callee hangs up during a listening window. -/
def hangupRun (client : Client) : List (Action sig Move) :=
  [.move (remoteHangup client), .move .evPump, .move .dispatch, .move .hangupWait,
    .reply (.listen 5000) (.ok ()), .reply .reapAsrGet (.error .cancelled)]

/-- The caller's words arrive during a listening window and close it. -/
def spokenRun (text : Text) : List (Action sig Move) :=
  [.move (.asrResult text true), .move .dispatch, .move .asrGet, .reply (.listen 5000) (.ok ()),
    .reply .reapHangupWait (.error .cancelled)]

/-- The turn for the caller's words, up to its gate. -/
def gateRun : List (Action sig Move) :=
  [.reply (.ext .publish) (.ok ()), .reply (.ext .publish) (.ok ()),
    .reply (.ext .buildStream) (.ok ())]

/-- The cleanup, undisturbed. -/
def cleanupRun : List (Action sig Move) :=
  [.move .asrPumpEnd, .move .monitorEnd, .reply .stopPumps (.ok ()), .reply .closeBus (.ok ())]

end RunSession
end IsalesEngine
