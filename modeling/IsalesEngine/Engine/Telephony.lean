import IsalesEngine.Engine.Machine

/-!
The telephony client as `main` drives it: `dial` and `hangup` of
`RtcTelephonyClient` with the teardown they share, and a client known only by
its contract, whose `dial` and `hangup` are single waits.
-/
namespace IsalesEngine
open Asyncio Asyncio.Coro

def ext (call : Ext) : Prog Unit := await (.ext call)

/-- `contextlib.suppress(Exception)`. -/
def isException : Exc Err → Bool
  | .error _ => true
  | .cancelled => false

/-- `contextlib.suppress(asyncio.CancelledError)`. -/
def isCancelled (e : Exc Err) : Bool := !isException e

/-- `contextlib.suppress(asyncio.CancelledError, Exception)`. -/
def isAny (_ : Exc Err) : Bool := true

namespace Telephony

def putEvent (e : Option TelephonyEvent) : Prog Unit := update fun w =>
  { w with phone := { w.phone with events := w.phone.events ++ [e] } }

def stopOutboundPump : Prog Unit := do
  let pump ← read fun w => w.phone.outboundPump
  when pump do
    update fun w => { w with phone := { w.phone with outboundPump := false } }
    suppress isAny (await .reapOutboundPump)

def closeIterators : Prog Unit := do
  let closed ← read fun w => w.phone.closed
  when (!closed) do
    update fun w => { w with phone := { w.phone with closed := true } }
    putEvent none
    stopOutboundPump
    let joined ← read fun w => w.phone.joined
    when joined do
      suppress isException (await .leaveRtc)
      update fun w => { w with phone := { w.phone with joined := false } }
    exceptError (await .awaitInboundPump) fun e =>
      if e = .timeout then suppress isAny (await .reapInboundPump) else raise (.error e)

def purgeCall : Prog Unit := update fun w =>
  { w with phone := { w.phone with inCalls := false, registered := false } }

def send (command : EdgeCommand) : Prog Unit := do
  await (.sendToEdge command)
  update fun w => { w with phone := { w.phone with sent := w.phone.sent ++ [command] } }

def rtcDial : Prog Unit := do
  let active ← read fun w => w.phone.inCalls
  when active (raise (.error (.other "call_id already active")))
  ext .signForCall
  await .joinRtc
  update fun w => { w with phone := { w.phone with joined := true } }
  ext .resolveEdge
  update fun w => { w with phone := { w.phone with inCalls := true } }
  ext .registerCall
  update fun w => { w with phone := { w.phone with registered := true } }
  exceptError (send .dial) fun e => do
    when (e = .edgeNotConnected) do
      putEvent (some .deviceError)
      closeIterators
      purgeCall
    raise (.error e)

def rtcHangup : Prog Unit := do
  let active ← read fun w => w.phone.inCalls
  when active do
    suppress (fun e => e = .error .edgeNotConnected) (send .cancel)
    putEvent (some .localHangup)
    closeIterators
    purgeCall

def dial : Prog Unit := do
  let client ← read fun w => w.phone.client
  match client with
  | .rtc => rtcDial
  | .other => await .clientDial

def hangup : Prog Unit := do
  let client ← read fun w => w.phone.client
  match client with
  | .rtc => rtcHangup
  | .other => await .clientHangup

/-- `_attempt_hangup`. -/
def attemptHangup : Prog Unit := do
  update fun w => w.note .attemptHangup
  exceptError hangup fun _ => pure ()

/-- `configure_ambient` starts the outbound pump of a known call. -/
def configureAmbient : Prog Unit := do
  ext .configureAmbient
  update fun w => { w with phone := { w.phone with
    outboundPump := w.phone.outboundPump || w.phone.inCalls } }

end Telephony
end IsalesEngine
