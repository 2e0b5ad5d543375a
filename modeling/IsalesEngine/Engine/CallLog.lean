import IsalesEngine.Engine.Ledger

/-!
What a call may write to its ledger, as a transition system of its own. The
phases are the points of a call between two entries: listening, a turn with the
id it has drawn, its reply and the re-voicing of an interrupted one, the wrap-up
phase, and the end. It knows nothing of streams, queues and tasks. What the
configuration and the surroundings of a call decide is a parameter.
-/
namespace IsalesEngine

/-- Where a call stands. The turn and its reply say whether they are of the wrap-up phase, and a
call that was cancelled or has failed is `broken`. -/
inductive Phase where
  | idle | heard | cueing
  | begun (wrapUp : Bool) | drawn (wrapUp : Bool)
  | replying (wrapUp : Bool) | replyCut (wrapUp : Bool)
  | recorded | restructuring | revoicing | revoiceCut | closing | ended | broken
  deriving DecidableEq, Repr

/-- The phases in which the stream of a restructure speaks. -/
def Phase.revoices : Phase → Bool
  | .revoicing | .revoiceCut => true
  | _ => false

/-- What is decided outside the ledger: whether the call goes on after a turn, when the round
trigger may fire, when a re-voiced text or a reply of the wrap-up phase may be played in full, with
which goal and state change a reply may end, and whether a text may be re-voiced. -/
structure LedgerRules where
  goesOn : Prop
  round : Ledger → Prop
  whole : Ledger → Prop
  reply : (goalAchieved : Bool) → (goalType : String) → (wrapsUp : Bool) → Prop
  revoices : Prop

/-- The row `r` and the event `e` are those of the reply of the turn drawn last. -/
structure Ledger.Answers (L : Ledger) (r : TraceRecord) (e : TranscriptEvent)
    (goalAchieved : Bool) (goalType : String) (isWrapUp : Bool) : Prop where
  turnId : r.turnId = L.drawn
  event : ∃ role, e = .aiReply r.mainReplyText L.drawn role goalAchieved goalType isWrapUp

def TranscriptEvent.isEnding : TranscriptEvent → Bool
  | .transferMarked | .wrapUpCompleted _ | .hangup .. => true
  | _ => false

theorem TranscriptEvent.silent_of_ending {e : TranscriptEvent} (ending : e.isEnding = true) :
    e.replyRole? = none := by
  cases e with
  | aiReply => cases ending
  | _ => rfl

/-- The event and the row of a reply are entered. -/
def Ledger.answer (L : Ledger) (r : TraceRecord) (e : TranscriptEvent) : Ledger :=
  (L.record r).write e

/-- The last row is given the verdict of the referee. -/
def Ledger.judge (L : Ledger) (results : List RefereeResult) : Ledger :=
  { L with records := L.records.dropLast ++
      (L.records.getLast?.map fun t => { t with refereeResults := results }).toList }

/-- The wrap-up phase begins. -/
def Ledger.wrapUp (L : Ledger) (rounds seconds : Nat) (goalType : String) : Ledger :=
  (({ L with wrappingUp := true }).write (.wrapUpStarted rounds seconds)).write
    (.goalAchieved goalType)

section
variable (rules : LedgerRules)

inductive LedgerStep : Phase → Ledger → Phase → Ledger → Prop
  | greeting {L} (text) : rules.goesOn → LedgerStep .idle L .idle (L.write (.greeting text))
  | activation {L} (text index) : rules.goesOn →
      LedgerStep .idle L .idle (L.write (.silenceActivation text index))
  | listening {L} (signaled) : rules.goesOn →
      LedgerStep .idle L .idle (L.mark (.listening signaled))
  | heard {L} (text) : rules.goesOn → LedgerStep .idle L .heard (L.write (.userSpeech text))
  | transfer {L} (type detail) : (type = "round" → rules.round L) →
      LedgerStep .heard L .ended (L.write (.transferInitiated type detail))
  | cue {L} : LedgerStep .heard L .cueing (L.mark (.playback .listenOnlyCue))
  | cued {L} : LedgerStep .cueing L .idle { L with interruptions := 0 }
  | turn {L} : LedgerStep .heard L (.begun L.wrappingUp) (L.mark .turn)
  | draw {L} (wrapUp) : LedgerStep (.begun wrapUp) L (.drawn wrapUp) L.draw
  | abort {L} (r : TraceRecord) : r.turnId = L.drawn → r.restructureText = none →
      LedgerStep (.drawn false) L .idle ((L.interrupt.mark .abort).record r)
  | record {L} (r : TraceRecord) : r.turnId = L.drawn → r.restructureText = none →
      LedgerStep (.drawn false) L .recorded (L.record r)
  | restructure {L} (r : TraceRecord) : r.turnId = L.drawn → r.restructureText.isSome = true →
      rules.revoices → LedgerStep (.drawn false) L .restructuring (L.record r)
  | unanswered {L} : LedgerStep .recorded L .idle L
  | handoff {L} (type detail) :
      LedgerStep .recorded L .ended (L.write (.transferInitiated type detail))
  | hangup {L} : LedgerStep .recorded L .ended L
  | release {L} (routeId slot roleConfigId) : LedgerStep (.drawn false) L (.replying false)
      (L.mark (.released routeId slot roleConfigId))
  | wrapUpReply {L} : LedgerStep (.drawn true) L (.replying true) (L.mark .wrapUpReply)
  | sentence {L} (wrapUp) : LedgerStep (.replying wrapUp) L (.replying wrapUp)
      (L.mark (.playback .sentence))
  | cut {L} (wrapUp job) : LedgerStep (.replying wrapUp) L (.replyCut wrapUp)
      (L.mark (.cut job))
  | interrupted {L} (wrapUp) (r : TraceRecord) (e) : r.restructureText = none →
      L.Answers r e false "" wrapUp →
      LedgerStep (.replyCut wrapUp) L .idle (L.answer r e).interrupt
  | replied {L} (r : TraceRecord) (e goalAchieved goalType) : r.restructureText = none →
      L.Answers r e goalAchieved goalType goalAchieved →
      rules.reply goalAchieved goalType false →
      LedgerStep (.replying false) L .idle ({ L with interruptions := 0 }.answer r e)
  | wrapsUp {L} (r : TraceRecord) (e goalAchieved goalType rounds seconds) :
      r.restructureText = none → L.Answers r e goalAchieved goalType goalAchieved →
      rules.reply goalAchieved goalType true →
      LedgerStep (.replying false) L .idle
        (({ L with interruptions := 0 }.answer r e).wrapUp rounds seconds goalType)
  | closed {L} (r : TraceRecord) (e) : r.restructureText = none → L.Answers r e false "" true →
      rules.whole L → LedgerStep (.replying true) L .closing (L.answer r e)
  | judged {L} (results) : LedgerStep .closing L .closing (L.judge results)
  | wrapUpGoesOn {L} : LedgerStep .closing L .idle L
  | wrapUpEnds {L} : LedgerStep .closing L .ended L
  | redraw {L} : LedgerStep .restructuring L .revoicing L.draw
  | resentence {L} : LedgerStep .revoicing L .revoicing (L.mark (.playback .sentence))
  | recut {L} (job) : LedgerStep .revoicing L .revoiceCut (L.mark (.cut job))
  | reinterrupted {L} (r : TraceRecord) (e) : L.Answers r e false "" false →
      LedgerStep .revoiceCut L .idle (L.answer r e).interrupt
  | revoiced {L} (r : TraceRecord) (e) : L.Answers r e false "" false → rules.whole L →
      LedgerStep .revoicing L .idle (L.answer r e)
  | ends {L} : rules.goesOn → LedgerStep .idle L .ended L
  | ending {L} (e : TranscriptEvent) : e.isEnding = true → LedgerStep .ended L .ended (L.write e)
  | breaks {L} (p) : LedgerStep p L .broken L
  | brokenOff {L} (reason by') : LedgerStep .broken L .broken (L.write (.hangup reason by'))

end

/-- The ledgers a call may have in each phase, from `start` on. -/
inductive CallLog (rules : LedgerRules) (first : Phase) (start : Ledger) : Phase → Ledger → Prop
  | start : CallLog rules first start first start
  | step {p p' : Phase} {L L' : Ledger} : CallLog rules first start p L →
      LedgerStep rules p L p' L' → CallLog rules first start p' L'

variable {rules : LedgerRules} {p : Phase} {L : Ledger}

/-- What holds at the start and is kept by every entry holds of every ledger. -/
theorem CallLog.invariant {first : Phase} {start : Ledger} {J : Phase → Ledger → Prop}
    (log : CallLog rules first start p L) (begins : J first start)
    (kept : ∀ {p p' L L'}, LedgerStep rules p L p' L' → J p L → J p' L') : J p L := by
  induction log with
  | start => exact begins
  | step _ step ih => exact kept step ih

/-- The phase of a turn says whether the call is wrapping up. -/
def Phase.Wraps (L : Ledger) : Phase → Prop
  | .begun wrapUp | .drawn wrapUp | .replying wrapUp | .replyCut wrapUp => L.wrappingUp = wrapUp
  | .recorded | .restructuring | .revoicing | .revoiceCut => L.wrappingUp = false
  | .closing => L.wrappingUp = true
  | .idle | .heard | .cueing | .ended | .broken => True

theorem LedgerStep.wraps {p' : Phase} {L' : Ledger} (step : LedgerStep rules p L p' L')
    (wraps : p.Wraps L) : p'.Wraps L' := by
  cases step with
  | turn => rfl
  | draw | record | restructure | release | wrapUpReply | sentence | cut | closed | judged
  | redraw | resentence | recut => exact wraps
  | _ => trivial

theorem CallLog.wraps {first : Phase} {start : Ledger} (log : CallLog rules first start p L)
    (begins : first.Wraps start) : p.Wraps L :=
  log.invariant (J := fun p L => p.Wraps L) begins LedgerStep.wraps

end IsalesEngine
