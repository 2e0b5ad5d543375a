import IsalesEngine.Text

/-!
The per-call record shared by every task of a call, with its two writers: the
transcript and the state machine. The transition guard is advisory, as in the
source: a transition outside the table is recorded as a warning and still
taken. Times are milliseconds of the monotonic clock.
-/
namespace IsalesEngine

inductive CallStatus where
  | init | inCall | transferring | ended
  deriving DecidableEq, Repr

inductive HangupCause where
  | noAnswer | userBusy | networkOutOfOrder | temporaryFailure | normalClearing | callRejected
  | userHangup | wrapUpCompleted | silenceMaxReached | markedForHandoff | noProgressTimeout
  | manualHangup | refereeHangup
  deriving DecidableEq, Repr

def HangupCause.value : HangupCause → String
  | .noAnswer => "no_answer"
  | .userBusy => "user_busy"
  | .networkOutOfOrder => "network_out_of_order"
  | .temporaryFailure => "temporary_failure"
  | .normalClearing => "normal_clearing"
  | .callRejected => "call_rejected"
  | .userHangup => "user_hangup"
  | .wrapUpCompleted => "wrap_up_completed"
  | .silenceMaxReached => "silence_max_reached"
  | .markedForHandoff => "marked_for_handoff"
  | .noProgressTimeout => "no_progress_timeout"
  | .manualHangup => "manual_hangup"
  | .refereeHangup => "referee_hangup"

inductive TransferStatus where
  | none | markedForHandoff
  deriving DecidableEq, Repr

inductive TranscriptEvent where
  | greeting (text : Text)
  | userSpeech (text : Text)
  | aiReply (text : Text) (turnId : Nat) (selectedRoleConfigId : Option Nat)
      (goalAchieved : Bool) (goalType : String) (isWrapUp : Bool)
  | interruption (interruptedEventId : Nat) (userTextAtInterruption : Text)
  | filler (text : Text) (durationMs : Nat)
  | defaultReplyUsed (text : Text) (reason : Option String)
  | silenceActivation (text : Text) (activationIndex : Nat)
  | transferInitiated (triggerType triggerDetail : String)
  | transferMarked
  | goalAchieved (goalType : String)
  | wrapUpStarted (roundsRemaining secondsRemaining : Nat)
  | wrapUpCompleted (reason : String)
  | hangup (reason initiatedBy : String)
  | stateWarning (attempted : String) (fromState toState : CallStatus)
  deriving DecidableEq, Repr

inductive Role where
  | user | assistant
  deriving DecidableEq, Repr

structure DialogTurn where
  role : Role
  text : Text
  tsMs : Nat
  deriving DecidableEq, Repr

namespace TranscriptEvent

/-- The events that are real conversation, with who spoke. -/
def dialogTurn? : TranscriptEvent → Option (Role × Text)
  | .greeting text => some (.assistant, text)
  | .userSpeech text => some (.user, text)
  | .aiReply text .. => some (.assistant, text)
  | _ => none

def isHangup : TranscriptEvent → Bool
  | .hangup .. => true
  | _ => false

def isStateWarning : TranscriptEvent → Bool
  | .stateWarning .. => true
  | _ => false

def isUserSpeech : TranscriptEvent → Bool
  | .userSpeech .. => true
  | _ => false

/-- The role a reply is attributed to. -/
def replyRole? : TranscriptEvent → Option (Option Nat)
  | .aiReply _ _ selectedRoleConfigId .. => some selectedRoleConfigId
  | _ => none

end TranscriptEvent

structure Transition where
  source : CallStatus
  target : CallStatus
  reason : Option String
  deriving DecidableEq, Repr

/-- The fields of a call session that the run loop and its helpers read or write. -/
structure CallSession where
  callRecordId : Nat
  state : CallStatus := .init
  previousState : Option CallStatus := none
  stateHistory : List Transition := []
  dialogHistory : List DialogTurn := []
  fullTranscript : List (Nat × TranscriptEvent) := []
  usedFillerPhrases : List Text := []
  silenceActivationCount : Nat := 0
  consecutiveInterruptionCount : Nat := 0
  consecutiveRestructureCount : Nat := 0
  wrapUpRoundCount : Nat := 0
  wrapUpStartedAt : Option Nat := none
  inWrapUp : Bool := false
  currentTurnId : Nat := 0
  hangupCause : Option HangupCause := none
  transferStatus : TransferStatus := .none
  transferReason : Option String := none
  currentSpeakingTask : Option Nat := none
  interruptionSignaled : Bool := false
  inProcessingTurn : Bool := false
  currentUserSpeechStartedMs : Option Nat := none
  interruptRemainingText : Option Text := none
  callStartedAt : Nat := 0
  deriving DecidableEq, Repr

/-- Where a session stands in the wrap-up phase. -/
structure WrapUp where
  active : Bool
  rounds : Nat
  startedAt : Option Nat
  deriving DecidableEq, Repr

namespace CallSession

def wrapUp (s : CallSession) : WrapUp := ⟨s.inWrapUp, s.wrapUpRoundCount, s.wrapUpStartedAt⟩

def appendEvent (s : CallSession) (now : Nat) (e : TranscriptEvent) : CallSession :=
  let ts := now - s.callStartedAt
  { s with
    fullTranscript := s.fullTranscript ++ [(ts, e)]
    dialogHistory := match e.dialogTurn? with
      | some (role, text) => s.dialogHistory ++ [⟨role, text, ts⟩]
      | none => s.dialogHistory }

def events (s : CallSession) : List TranscriptEvent := s.fullTranscript.map Prod.snd

def hangups (s : CallSession) : List TranscriptEvent := s.events.filter (·.isHangup)

def warnings (s : CallSession) : List TranscriptEvent := s.events.filter (·.isStateWarning)

def userSpeeches (s : CallSession) : List Text := s.events.filterMap fun
  | .userSpeech text => some text
  | _ => none

/-- The roles of the replies given so far. -/
def replies (s : CallSession) : List (Option Nat) := s.events.filterMap TranscriptEvent.replyRole?

end CallSession

namespace StateMachine

def legalTransitions : CallStatus → List CallStatus
  | .init => [.inCall, .ended]
  | .inCall => [.transferring, .ended]
  | .transferring => [.ended]
  | .ended => []

def transitionTo (s : CallSession) (now : Nat) (newState : CallStatus) (reason : String) :
    CallSession :=
  if newState = s.state then s
  else
    let s' := if newState ∈ legalTransitions s.state then s
      else s.appendEvent now (.stateWarning reason s.state newState)
    { s' with
      previousState := some s.state
      state := newState
      stateHistory := s'.stateHistory ++ [⟨s.state, newState, some reason⟩] }

/-- A state history that is a path of the transition table. -/
def LegalPath : CallStatus → List Transition → CallStatus → Prop
  | a, [], b => a = b
  | a, t :: ts, b => t.source = a ∧ t.target ∈ legalTransitions a ∧ LegalPath t.target ts b

instance decidableLegalPath : (a : CallStatus) → (ts : List Transition) → (b : CallStatus) →
    Decidable (LegalPath a ts b)
  | a, [], b => inferInstanceAs (Decidable (a = b))
  | a, t :: ts, b =>
      have := decidableLegalPath t.target ts b
      inferInstanceAs (Decidable (t.source = a ∧ t.target ∈ legalTransitions a ∧ _))

theorem legalPath_snoc {a b : CallStatus} {ts : List Transition} {t : Transition}
    (path : LegalPath a ts b) (source : t.source = b) (legal : t.target ∈ legalTransitions b) :
    LegalPath a (ts ++ [t]) t.target := by
  induction ts generalizing a with
  | nil =>
      cases path
      exact ⟨source, legal, rfl⟩
  | cons u us ih => exact ⟨path.1, path.2.1, ih path.2.2⟩

end StateMachine

namespace CallSession
open StateMachine

variable (s : CallSession) (now : Nat)

section Append
variable (e : TranscriptEvent)

@[simp] theorem events_appendEvent :
    (s.appendEvent now e).events = s.events ++ [e] := by
  simp [events, appendEvent]

@[simp] theorem hangups_appendEvent :
    (s.appendEvent now e).hangups = s.hangups ++ if e.isHangup then [e] else [] := by
  by_cases h : e.isHangup <;> simp [hangups, h]

@[simp] theorem warnings_appendEvent :
    (s.appendEvent now e).warnings = s.warnings ++ if e.isStateWarning then [e] else [] := by
  by_cases h : e.isStateWarning <;> simp [warnings, h]

@[simp] theorem userSpeeches_appendEvent :
    (s.appendEvent now e).userSpeeches = s.userSpeeches ++ (match e with
      | .userSpeech text => [text]
      | _ => []) := by
  cases e <;> simp [userSpeeches]

@[simp] theorem replies_appendEvent :
    (s.appendEvent now e).replies = s.replies ++ e.replyRole?.toList := by
  cases h : e.replyRole? <;> simp [replies, h]

end Append

section Transition
variable (new : CallStatus) (reason : String)

/-- Beside the state, a transition changes only what is recorded of it. -/
theorem transitionTo_frame : ∃ previous path transcript, transitionTo s now new reason =
    { s with
      previousState := previous
      state := new
      stateHistory := path
      fullTranscript := transcript } := by
  unfold transitionTo
  split_ifs with same
  · exact ⟨s.previousState, s.stateHistory, s.fullTranscript, by rw [same]⟩
  · exact ⟨_, _, _, rfl⟩
  · exact ⟨_, _, _, rfl⟩

@[simp] theorem state_transitionTo : (transitionTo s now new reason).state = new := by
  obtain ⟨_, _, _, changed⟩ := transitionTo_frame s now new reason
  rw [changed]

@[simp] theorem speaking_transitionTo :
    (transitionTo s now new reason).currentSpeakingTask = s.currentSpeakingTask := by
  obtain ⟨_, _, _, changed⟩ := transitionTo_frame s now new reason
  rw [changed]

@[simp] theorem processing_transitionTo :
    (transitionTo s now new reason).inProcessingTurn = s.inProcessingTurn := by
  obtain ⟨_, _, _, changed⟩ := transitionTo_frame s now new reason
  rw [changed]

@[simp] theorem restructures_transitionTo :
    (transitionTo s now new reason).consecutiveRestructureCount =
      s.consecutiveRestructureCount := by
  obtain ⟨_, _, _, changed⟩ := transitionTo_frame s now new reason
  rw [changed]

@[simp] theorem hangupCause_transitionTo :
    (transitionTo s now new reason).hangupCause = s.hangupCause := by
  obtain ⟨_, _, _, changed⟩ := transitionTo_frame s now new reason
  rw [changed]

@[simp] theorem replies_transitionTo : (transitionTo s now new reason).replies = s.replies := by
  unfold transitionTo
  split_ifs
  · rfl
  · rfl
  · show (s.appendEvent now (.stateWarning reason s.state new)).replies = s.replies
    simp [TranscriptEvent.replyRole?]

end Transition

variable {s now} {new : CallStatus} {reason : String}

theorem transitionTo_self (same : new = s.state) : transitionTo s now new reason = s := by
  simp only [transitionTo, same, if_true]

theorem transitionTo_legal (legal : new ∈ legalTransitions s.state) :
    transitionTo s now new reason =
      { s with
        previousState := some s.state
        state := new
        stateHistory := s.stateHistory ++ [⟨s.state, new, some reason⟩] } := by
  have differs : new ≠ s.state := by
    intro same
    rw [same] at legal
    revert legal
    cases s.state <;> decide
  simp only [transitionTo, differs, legal, if_false, if_true]

/-- The recorded history is a legal path to the current state and nothing was flagged. -/
structure WellFormed (s : CallSession) : Prop where
  path : LegalPath .init s.stateHistory s.state
  noWarning : s.warnings = []

theorem WellFormed.transitionTo (wf : s.WellFormed) (legal : new ∈ legalTransitions s.state) :
    (transitionTo s now new reason).WellFormed := by
  rw [transitionTo_legal legal]
  exact ⟨legalPath_snoc wf.path rfl legal, wf.noWarning⟩

end CallSession
end IsalesEngine
