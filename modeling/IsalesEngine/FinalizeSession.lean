import IsalesEngine.Asyncio.Outcome
import IsalesEngine.CallLifecycle
import IsalesEngine.Engine.World

/-!
`finalize_session` down to the single commands it sends to the database and to
Redis. Every command may raise, in which case it has no effect. The row of the
call, the concurrency counter and the registry of sessions are shared with the
worker, with the scheduler and with the other calls.
-/
namespace IsalesEngine
open Asyncio Asyncio.Coro

/-- What the session of a call is created with, and its extractor slot. -/
structure DialedCall where
  callRecordId : Nat
  leadId : Nat
  campaignId : Nat
  callerId : String
  promptVersionsSnapshot : List (String × Nat) := []
  extractorRoleConfigId : Nat := 0
  extractorPromptVersionId : Nat := 0
  deriving DecidableEq, Repr

/-- The columns that `_write_in_transaction` assigns. -/
structure FinishedColumns where
  status : CallStatus
  startedAt : Nat
  endedAt : Nat
  duration : Nat
  transcript : List (Nat × TranscriptEvent)
  transferStatus : TransferStatus
  transferReason : Option String
  wrapUpStartedAt : Option Nat
  promptVersions : List (String × Nat)
  deriving DecidableEq, Repr

/-- A column `wrap_up_started_at` that is not assigned keeps its value. -/
def FinishedColumns.onto (columns : FinishedColumns) (old : Option FinishedColumns) :
    FinishedColumns :=
  { columns with
    wrapUpStartedAt := columns.wrapUpStartedAt.or (old.bind FinishedColumns.wrapUpStartedAt) }

/-- A row of `call_record`; a row that was never finished has no `finished` columns. -/
structure CallRecord where
  leadId : Nat
  campaignId : Nat
  callerId : String
  finished : Option FinishedColumns := none
  extractStatus : Option String := none
  deriving DecidableEq, Repr

/-- What a transaction writes when it is committed. -/
inductive DatabaseWrite where
  | insert (record : CallRecord) (traces : List TraceRecord)
  | update (columns : FinishedColumns) (traces : List TraceRecord)
  | extractPending
  deriving DecidableEq, Repr

inductive QueueMessage where
  | callEnded (callRecordId : Nat) (hangupCause : HangupCause) (endedAt : Nat)
  | extract (callRecordId : Nat) (transcriptSnapshot : List DialogTurn)
      (extractorRoleConfigId extractorPromptVersionId : Nat)
  deriving DecidableEq, Repr

/-- What `finalize_session` waits for. -/
inductive StorageCommand where
  | get (callRecordId : Nat)
  | execute (write : DatabaseWrite)
  | commit (write : DatabaseWrite)
  | close
  | lpush (queue : String) (message : QueueMessage)
  | decr
  | set
  | sleep (ms : Nat)
  deriving DecidableEq, Repr

/-- What a command answers. -/
abbrev StorageCommand.Res : StorageCommand → Type
  | .get _ => Option CallRecord
  | .decr => Int
  | _ => Unit

/-- A command that was answered; one that was not `applied` raised. -/
structure Issued where
  command : StorageCommand
  applied : Bool
  deriving DecidableEq, Repr

/-- The row of the call and its traces, the counter, the sessions that are registered, and the
session object. `issued` is a history variable: the commands of the call, the oldest first.
`finalized` is the `persisted` of the line that is logged in the end. -/
structure Storage where
  record : Option CallRecord
  traces : List TraceRecord := []
  concurrency : Concurrency
  sessions : List Nat
  session : CallSession
  pipelineTraceRecords : List TraceRecord := []
  issued : List Issued := []
  finalized : Option Bool := none
  deriving DecidableEq, Repr

namespace SessionManager

def register (sessions : List Nat) (callRecordId : Nat) : List Nat :=
  if callRecordId ∈ sessions then sessions else callRecordId :: sessions

def unregister (sessions : List Nat) (callRecordId : Nat) : List Nat :=
  sessions.filter (· ≠ callRecordId)

theorem not_mem_unregister (sessions : List Nat) (callRecordId : Nat) :
    callRecordId ∉ unregister sessions callRecordId := by
  simp [unregister]

end SessionManager

namespace FinalizeSession

abbrev storageSig : Signature where
  Op := StorageCommand
  Res := StorageCommand.Res
  Err := String

abbrev Proc (α : Type) : Type := Coro storageSig Storage α

abbrev issue (op : StorageCommand) : Proc op.Res := Coro.wait (S := storageSig) op

/-- One of the loops `for attempt in range(1, max_retries + 1)`, with `left` attempts to go. -/
def retrying (body : Proc Unit) : (left : Nat) → (backoff : Nat) → Proc Bool
  | 0, _ => pure false
  | left + 1, backoff => (do body; pure true).exceptError fun _ => do
      Coro.when (decide (0 < left)) (issue (.sleep backoff))
      retrying body left (2 * backoff)

def maxRetries : Nat := 3

/-- In milliseconds. -/
def firstBackoff : Nat := 200

/-- `async with sessionmaker() as db`. -/
def withDatabase (body : Proc Unit) : Proc Unit := body.andFinally (issue .close)

/-- The columns of a call that lasted from `startedAt` to `endedAt`, in microseconds. -/
def finishedColumns (call : DialedCall) (s : CallSession) (startedAt endedAt : Nat) :
    FinishedColumns where
  status := .ended
  startedAt := startedAt
  endedAt := endedAt
  duration := (endedAt - startedAt) / 1000000
  transcript := s.fullTranscript
  transferStatus := s.transferStatus
  transferReason := s.transferReason
  wrapUpStartedAt := s.wrapUpStartedAt
  promptVersions := call.promptVersionsSnapshot

def writeInTransaction (call : DialedCall) (startedAt endedAt : Nat) : Proc Unit := do
  let record ← issue (.get call.callRecordId)
  let columns ← read fun s => finishedColumns call s.session startedAt endedAt
  let traces ← read (·.pipelineTraceRecords)
  match record with
  | none => issue (.commit (.insert
      { leadId := call.leadId, campaignId := call.campaignId, callerId := call.callerId
        finished := some columns } traces))
  | some _ => issue (.commit (.update columns traces))

def persistCallRecord (call : DialedCall) (startedAt endedAt : Nat) : Proc Bool :=
  retrying (withDatabase (writeInTransaction call startedAt endedAt)) maxRetries firstBackoff

def extractQueue : String := "isales:extract"

def lpushExtract (call : DialedCall) : Proc Bool := do
  let payload ← read fun s => QueueMessage.extract call.callRecordId s.session.dialogHistory
    call.extractorRoleConfigId call.extractorPromptVersionId
  let pushed ← retrying (issue (.lpush extractQueue payload)) maxRetries firstBackoff
  Coro.when pushed ((withDatabase do
    issue (.execute .extractPending)
    issue (.commit .extractPending)).exceptError fun _ => pure ())
  pure pushed

def lpushCallEnded (queue : String) (callRecordId : Nat) (hangupCause : HangupCause)
    (endedAt : Nat) : Proc Bool :=
  retrying (issue (.lpush queue (.callEnded callRecordId hangupCause endedAt))) maxRetries
    firstBackoff

def decrConcurrency : Proc Bool :=
  retrying (do
    let new ← issue .decr
    Coro.when (decide (new < 0)) (issue .set)) maxRetries firstBackoff

def finalizeSession (queue : String) (call : DialedCall) (startedAt endedAt : Nat) :
    Proc Unit := do
  let cause ← read (·.session.hangupCause.getD .normalClearing)
  update fun s => { s with session := { s.session with hangupCause := some cause } }
  let persisted ← persistCallRecord call startedAt endedAt
  let extracts ← read fun s =>
    decide (call.extractorRoleConfigId ≠ 0 ∧ s.session.dialogHistory ≠ [])
  Coro.when extracts (do let _ ← lpushExtract call; pure ())
  let _ ← lpushCallEnded queue call.callRecordId cause endedAt
  let _ ← decrConcurrency
  update fun s => { s with sessions := SessionManager.unregister s.sessions call.callRecordId }
  update fun s => { s with finalized := some persisted }

end FinalizeSession

def DatabaseWrite.apply (s : Storage) : DatabaseWrite → Storage
  | .insert record traces => { s with record := some record, traces := s.traces ++ traces }
  | .update columns traces => { s with
      record := s.record.map fun r => { r with finished := some (columns.onto r.finished) }
      traces := s.traces ++ traces }
  | .extractPending => { s with
      record := s.record.map fun r => { r with extractStatus := some "pending" } }

/-- What the other users of the storage, and other tasks of the call, do in between. -/
inductive StorageMove where
  | counter (command : RedisCommand)
  | extracted (status : String)
  | register (callRecordId : Nat)
  | unregister (callRecordId : Nat)
  | session (session : CallSession) (traces : List TraceRecord)
  deriving DecidableEq, Repr

/-- The call whose finalizer issues the command. -/
def RedisCommand.call? : RedisCommand → Option Nat
  | .incr => none
  | .decr i _ | .set i _ => some i

namespace Storage

def log (s : Storage) (command : StorageCommand) (applied : Bool) : Storage :=
  { s with issued := s.issued ++ [⟨command, applied⟩] }

/-- The counter after a command on it. -/
def count (s : Storage) (command : RedisCommand) : Option Storage :=
  (s.concurrency.step command).map fun counter => { s with concurrency := counter }

def move (i : Nat) (s : Storage) : StorageMove → Option Storage
  | .counter command => if command.call? = some i then none else s.count command
  | .extracted status => some { s with
      record := s.record.map fun r => { r with extractStatus := some status } }
  | .register id => some { s with sessions := SessionManager.register s.sessions id }
  | .unregister id => some { s with sessions := SessionManager.unregister s.sessions id }
  | .session session traces => some { s with session, pipelineTraceRecords := traces }

/-- The command of call `i` takes effect and answers. -/
def applied (i : Nat) (s : Storage) : (op : StorageCommand) → op.Res → Option Storage
  | .get id, found => if found = s.record then some (s.log (.get id) true) else none
  | .commit write, _ => some ((write.apply s).log (.commit write) true)
  | .decr, new => (s.count (.decr i true)).bind fun s' =>
      if new = s'.concurrency.active then some (s'.log .decr true) else none
  | .set, _ => (s.count (.set i true)).map fun s' => s'.log .set true
  | .execute write, _ => some (s.log (.execute write) true)
  | .close, _ => some (s.log .close true)
  | .lpush queue message, _ => some (s.log (.lpush queue message) true)
  | .sleep ms, _ => some (s.log (.sleep ms) true)

/-- The command of call `i` raises. A sleep does not. -/
def raised (i : Nat) (s : Storage) : StorageCommand → Option Storage
  | .decr => (s.count (.decr i false)).map fun s' => s'.log .decr false
  | .set => (s.count (.set i false)).map fun s' => s'.log .set false
  | .sleep _ => none
  | op => some (s.log op false)

end Storage

/-- The storage as call `i` finds it while it is finalized. Nothing cancels the finalizer. -/
def storage (i : Nat) : Machine FinalizeSession.storageSig Storage where
  Move := StorageMove
  move _ m s := s.move i m
  reply op r s := match r with
    | .ok answer => s.applied i op answer
    | .error (.error _) => s.raised i op
    | .error .cancelled => none

end IsalesEngine
