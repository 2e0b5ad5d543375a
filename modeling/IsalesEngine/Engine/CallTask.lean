import IsalesEngine.Engine.RunLoop

/-!
From a dial message to a finalized call: the consumer that validates and
reserves, the per-call task it spawns, and the shielded finalizer. A message is
what the schema peek and the validator say about it. `dialMessage` is all that
is done for one popped message, first by the consumer and then by the call task.
-/
namespace IsalesEngine
open Asyncio Asyncio.Coro

namespace CallTask

/-- The default runner of `main.py`. -/
def defaultRunner (cfg : RuntimeConfig) (fuel : Nat) : Prog Unit := do
  await .loadConfig
  andFinally (runSession cfg fuel) do
    suppress isException (await .closeTts)
    await .closeLlms

/-- Any runner at all: it returns, raises or is cancelled. -/
def anyRunner : Prog Unit := await .runner

def defaultCause (cause : HangupCause) : Prog Unit :=
  modifySession fun s => { s with hangupCause := some (s.hangupCause.getD cause) }

/-- Whether the runner was cancelled. -/
def guardedRunner (runner : Prog Unit) : Prog Bool :=
  let returned : Prog Bool := do
    runner
    pure false
  exceptError
    (exceptCancelled returned do
      defaultCause .manualHangup
      pure true)
    fun _ => do
      defaultCause .noProgressTimeout
      pure false

/-- `asyncio.shield(finalize_session(..))`: the inner task is created, then awaited. -/
def shieldedFinalize : Prog Unit := do
  update fun w => { w with finalize := { w.finalize with stage := .created } }
  await .finalizeSession

def runnerWithFinalize (runner : Prog Unit) : Prog Unit := do
  let cancelled ← guardedRunner runner
  exceptError shieldedFinalize fun _ => pure ()
  when cancelled (raise .cancelled)

/-- The task created by `handle_dial`: a cancel before its first step never enters the body. -/
def callTask (runner : Prog Unit) : Prog Unit := do
  await .firstStep
  runnerWithFinalize runner

/-- The task, and the other tasks after its end until the finalizer has nothing left to do. -/
def settled (task : Prog Unit) : Prog Unit := task.andThen fun r => do
  await .mainDone
  ofReply r

end CallTask

structure DialMessage where
  schemaVersion : Option Int
  valid : Bool
  deriving DecidableEq, Repr

namespace DialConsumer

def supportedSchemaVersions : List Int := [1]

def DialMessage.supported (m : DialMessage) : Bool :=
  m.schemaVersion.any supportedSchemaVersions.contains

def deadLetter : Prog Bool := do
  await .dlqPush
  update fun w => { w with deadLetters := w.deadLetters + 1 }
  pure false

/-- Whether a session was registered and its task spawned. -/
def handleDial (m : DialMessage) : Prog Bool :=
  if DialMessage.supported m = false then deadLetter
  else if m.valid = false then deadLetter
  else do
    let attempt : Prog Bool := do
      await .reserve
      pure true
    let reserved ← exceptError attempt fun _ => pure false
    if reserved then do
      update fun w => { w with managed := true }
      pure true
    else deadLetter

def dialMessage (m : DialMessage) (runner : Prog Unit) : Prog Unit := do
  let spawned ← exceptError (handleDial m) fun _ => pure false
  when spawned (CallTask.callTask runner)

end DialConsumer
end IsalesEngine
