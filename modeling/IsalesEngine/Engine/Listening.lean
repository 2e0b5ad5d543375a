import IsalesEngine.Engine.Playback

/-!
The parts of the run loop before and around a turn: dialling, the greeting, the
listen pumps with their teardown, and one listening window.
-/
namespace IsalesEngine
open Asyncio Asyncio.Coro

def modifySession (f : CallSession → CallSession) : Prog Unit := update fun w =>
  { w with session := f w.session }

/-- An update of the session that the journal records. -/
def recordSession (e : Entry) (f : CallSession → CallSession) : Prog Unit := update fun w =>
  { w.enter e with session := f w.session }

def append (e : TranscriptEvent) : Prog Unit := update fun w => w.append e

def transition (new : CallStatus) (reason : String) : Prog Unit := update fun w =>
  w.transition new reason

/-- The `hangup` event that ends the transcript. -/
def appendHangup (reason initiatedBy : String) : Prog Unit := update fun w =>
  (w.append (.hangup reason initiatedBy)).note (.recorded w.session.hangupCause)

def setHangupCause (cause : HangupCause) : Prog Unit :=
  modifySession fun s => { s with hangupCause := some cause }

/-- `async for ev in telephony.events(..)`: every event a client reports decides at once. -/
def awaitConnected : Prog Bool := do
  ext .events
  let event ← await .nextEvent
  match event with
  | some .connected => pure true
  | some _ => pure false
  | none => pure false

def dialAndWaitConnected : Prog Bool := do
  Telephony.dial
  exceptError awaitConnected fun e =>
    if e = .timeout then pure false else raise (.error e)

def politeGreeting : Text := "您好。".toList

/-- `generate_greeting`. -/
def generateGreeting (cfg : RuntimeConfig) : Prog Text :=
  match cfg.fixedGreeting with
  | some (c :: cs) => pure (c :: cs)
  | _ => do
      let reply ← exceptError (await .greetingChat) fun _ => pure politeGreeting
      pure (if Text.strip reply = [] then politeGreeting else Text.strip reply)

def doGreeting (cfg : RuntimeConfig) : Prog Unit := do
  ext .llmFor
  let text ← generateGreeting cfg
  append (.greeting text)
  playTts .greeting text

/-- Whether the main model is probed during the greeting: only a fixed greeting leaves it cold. -/
def prewarms (cfg : RuntimeConfig) : Bool := (cfg.fixedGreeting.getD []) ≠ []

def kickMainLlmPrewarm : Prog Unit := do
  ext .llmFor
  update fun w => { w with listen := { w.listen with prewarm := .running } }

def startListenPumps : Prog Unit := do
  ext .streamRecognize
  ext .events
  update fun w => { w with listen := { w.listen with asrPump := .running, evPump := .running } }

/-- The finals that are posted but not yet delivered. -/
def laneFinals (b : Bus) : List AsrResult := b.lossless.filterMap fun
  | .asrFinal r => some r
  | _ => none

/-- Nothing is left of what the recognizer heard during the greeting. -/
abbrev World.drained (w : World) : World :=
  { w.note (.drained w.asrCount (laneFinals w.bus) w.bus.lossy) with
    listen := { w.listen with finals := [], partials := [] }
    session := { w.session with currentUserSpeechStartedMs := none } }

def drainGreetingEraAsr : Prog Unit := update World.drained

abbrev World.monitored (w : World) : World :=
  { w.drained with listen := { w.drained.listen with partialMonitor := .running } }

/-- The monitor starts first; if `audio_in_vad` then raises, it is never attached. -/
def startMonitors : Prog Unit := do
  update fun w => { w with listen := { w.listen with partialMonitor := .running } }
  ext .audioInVad
  update fun w => { w with listen := { w.listen with monitorsAttached := true } }

def stopListenPumps : Prog Unit := do
  update fun w => { w with listen := { w.listen with
    asrPump := w.listen.asrPump.cancel
    evPump := w.listen.evPump.cancel
    partialMonitor := if w.listen.monitorsAttached then w.listen.partialMonitor.cancel
      else w.listen.partialMonitor } }
  await .stopPumps

/-- `EventBus.aclose`: what is queued is delivered by `main` itself, then the dispatchers stop. -/
def closeBus : Prog Unit := do
  let closed ← read fun w => w.bus.closed
  when (!closed) do
    update fun w =>
      let open' := { w with bus := { w.bus with closed := true, lossless := [] } }
      let delivered := w.bus.lossless.foldl (World.deliver .closeBus) open'
      { delivered with bus := { delivered.bus with dispatching := false } }
    await .closeBus

namespace AwaitUser

def timeoutMs (cfg : RuntimeConfig) (w : World) : Nat :=
  if w.session.inWrapUp then cfg.silence.wrapUpHangupMs else cfg.silence.thresholdMs

def openWindow : Prog Unit := update fun w =>
  { w with listen := { w.listen with window := some { started := w.clock } } }

def cancelAsrGet : Prog Unit := update fun w => { w with listen := { w.listen with
  window := w.listen.window.map fun win =>
    { win with asrGet := if win.asrGet = .waiting then .cancelled else win.asrGet } } }

def cancelHangupWait : Prog Unit := update fun w => { w with listen := { w.listen with
  window := w.listen.window.map fun win =>
    { win with hangupWait := if win.hangupWait = .waiting then .cancelled else win.hangupWait } } }

/-- How long the window has been open. -/
def elapsedMs (w : World) : Nat := w.clock - (w.listen.window.map Window.started).getD w.clock

/-- The window is closed with the finals it consumed and what they amount to. -/
def closed (finals : List AsrResult) (outcome : Outcome) (w : World) : World :=
  { w.note (.batch finals outcome (w.listen.partials ++ w.bus.lossy)) with
    listen := { w.listen with window := none }
    journal := .closed (elapsedMs w) w.session.inWrapUp finals outcome :: w.journal }

def closeWindow (finals : List AsrResult) (outcome : Outcome) : Prog Outcome := do
  update (closed finals outcome)
  pure outcome

def held : Option Window → Option AsrResult
  | some ⟨.held r, _, _⟩ => some r
  | _ => none

def hangupSeen (w : World) : Bool :=
  (w.listen.window.any fun win => win.hangupWait = .finished) && w.listen.hangupEvent

/-- What a batch of finals amounts to: stripped, joined, and checked against the whitelist. -/
def combine (cfg : RuntimeConfig) (finals : List AsrResult) : Outcome :=
  let combined := Text.joinSpace ((finals.map fun r => r.text.strip).filter (· ≠ []))
  if combined = [] ∨ combined ∈ cfg.interruption.whitelist then .noProgress
  else .userFinal combined

def onHangup : Prog Outcome := do
  let got ← read fun w => held w.listen.window
  cancelAsrGet
  when got.isNone (suppress isAny (await .reapAsrGet))
  closeWindow got.toList .remoteHangup

def onFinal (cfg : RuntimeConfig) (first : AsrResult) : Prog Outcome := do
  cancelHangupWait
  suppress isAny (await .reapHangupWait)
  let backlog ← act fun w => (w.listen.finals, { w with listen := { w.listen with finals := [] } })
  closeWindow (first :: backlog) (combine cfg (first :: backlog))

def onSilence (cfg : RuntimeConfig) : Prog Outcome := do
  cancelAsrGet
  cancelHangupWait
  suppress isAny (await .reapAsrGet)
  suppress isAny (await .reapHangupWait)
  let decision ← read fun w => evaluateSilence (elapsedMs w) w.session.silenceActivationCount
    cfg.silence w.session.inWrapUp
  match decision with
  | .activate phrase => closeWindow [] (.silenceActivation phrase)
  | .hangup phrase => closeWindow [] (.silenceHangup phrase)
  | .wait => closeWindow [] .noProgress

end AwaitUser

open AwaitUser in
/-- `_await_user_or_silence`. -/
def awaitUserOrSilence (cfg : RuntimeConfig) : Prog Outcome := do
  update fun w => (w.note (.listening w.session.interruptionSignaled)).enter .opened
  let hungUp ← read fun w => w.listen.hangupEvent
  if hungUp then closeWindow [] .remoteHangup
  else do
    openWindow
    let timeout ← read (timeoutMs cfg)
    exceptCancelled (await (.listen timeout)) do
      cancelAsrGet
      cancelHangupWait
      raise .cancelled
    let seen ← read hangupSeen
    let got ← read fun w => held w.listen.window
    if seen then onHangup
    else match got with
      | some first => onFinal cfg first
      | none => onSilence cfg

end IsalesEngine
