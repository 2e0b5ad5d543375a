import IsalesEngine.Engine.CallTask
import IsalesEngine.Engine.Sections

/-!
What one section of another task, or one resumption of `main`, can do to each
part of the shared state. Every invariant of the development is derived from
these lemmas; none of them unfolds a task again.
-/
namespace IsalesEngine
open Asyncio

/-- The marks that sections of other tasks leave. -/
def Mark.byOthers : Mark → Bool
  | .cancel | .terminate | .evaluated _ | .trigger _ | .posted _ | .lost _ | .finalizing => true
  | _ => false

/-- What one section of another task adds to the history. -/
def HistoryStep (h h' : List Mark) : Prop := ∃ ms, h' = ms ++ h ∧ ∀ m ∈ ms, m.byOthers = true

namespace HistoryStep
variable {h h' : List Mark}

theorem refl (h : List Mark) : HistoryStep h h := ⟨[], rfl, nofun⟩

theorem mark {m : Mark} (step : HistoryStep h h') (own : m.byOthers = true) :
    HistoryStep h (m :: h') := by
  obtain ⟨ms, rfl, all⟩ := step
  refine ⟨m :: ms, rfl, fun m' member => ?_⟩
  obtain rfl | member := List.mem_cons.mp member
  · exact own
  · exact all m' member

/-- A property of histories that each such mark keeps. -/
theorem induct {P : List Mark → Prop} (step : HistoryStep h h') (holds : P h)
    (kept : ∀ m h, m.byOthers = true → P h → P (m :: h)) : P h' := by
  obtain ⟨ms, rfl, all⟩ := step
  induction ms with
  | nil => exact holds
  | cons m ms ih =>
      exact kept m _ (all m List.mem_cons_self) (ih fun m' member => all m' (.tail m member))

end HistoryStep

/-- Every mark meets `P`, which may speak about the marks before it. -/
def EachMark (P : Mark → List Mark → Prop) : List Mark → Prop
  | [] => True
  | m :: h => P m h ∧ EachMark P h

theorem EachMark.imp {P Q : Mark → List Mark → Prop} {h : List Mark} (each : EachMark P h)
    (implies : ∀ m older, older ⊆ h → P m older → Q m older) : EachMark Q h := by
  induction h with
  | nil => trivial
  | cons m h ih =>
      refine ⟨implies m h (List.subset_cons_self m h) each.1, ih each.2 fun m' older sub => ?_⟩
      exact implies m' older (List.subset_cons_of_subset m sub)

/-- The parts of a session that only `main` writes. -/
structure MainOwned (s s' : CallSession) : Prop where
  state : s'.state = s.state
  stateHistory : s'.stateHistory = s.stateHistory
  speaking : s'.currentSpeakingTask = s.currentSpeakingTask
  processing : s'.inProcessingTurn = s.inProcessingTurn
  remaining : s'.interruptRemainingText = s.interruptRemainingText
  wrapUp : s'.wrapUp = s.wrapUp
  restructures : s'.consecutiveRestructureCount = s.consecutiveRestructureCount

/-- The parts of the shared state that only `main` writes. -/
structure MainFrame (w w' : World) : Prop where
  session : MainOwned w.session w'.session
  turnId : w'.session.currentTurnId = w.session.currentTurnId
  interruptions : w'.session.consecutiveInterruptionCount = w.session.consecutiveInterruptionCount
  activations : w'.session.silenceActivationCount = w.session.silenceActivationCount
  records : w'.pipelineTraceRecords = w.pipelineTraceRecords
  journal : w'.journal = w.journal

/-- The transcript events that other tasks write. -/
def TranscriptEvent.byOthers : TranscriptEvent → Bool
  | .interruption .. | .filler .. | .defaultReplyUsed .. => true
  | _ => false

attribute [grind =] TranscriptEvent.byOthers.eq_def

/-- Some task beside `main` may write to the transcript. -/
def World.Loud (w : World) : Prop :=
  w.session.currentSpeakingTask ≠ none ∨ w.session.inProcessingTurn = true ∨ w.pipe ≠ none ∨
    w.filler.playing ≠ none

/-- Nothing was appended to the transcript, or one event by a task that may do so. -/
def TranscriptStep (w w' : World) : Prop :=
  w'.session.fullTranscript = w.session.fullTranscript ∨
    (w.Loud ∧ ∃ ts e, w'.session.fullTranscript = w.session.fullTranscript ++ [(ts, e)] ∧
      e.byOthers = true)

theorem TranscriptStep.kept {w w' : World} (step : TranscriptStep w w') :
    w'.session.hangups = w.session.hangups ∧ w'.session.warnings = w.session.warnings ∧
      w'.session.userSpeeches = w.session.userSpeeches := by
  obtain same | ⟨-, ts, e, grown, byOthers⟩ := step
  · simp [CallSession.hangups, CallSession.warnings, CallSession.userSpeeches,
      CallSession.events, same]
  · have plain : e.isHangup = false ∧ e.isStateWarning = false := by
      cases e <;> first | exact ⟨rfl, rfl⟩ | cases byOthers
    refine ⟨?_, ?_, ?_⟩
    · simp [CallSession.hangups, CallSession.events, grown, plain.1]
    · simp [CallSession.warnings, CallSession.events, grown, plain.2]
    · cases e with
      | interruption | filler | defaultReplyUsed =>
          simp [CallSession.userSpeeches, CallSession.events, grown]
      | _ => cases byOthers

theorem TranscriptStep.replies {w w' : World} (step : TranscriptStep w w') :
    w'.session.replies = w.session.replies := by
  obtain same | ⟨-, ts, e, grown, byOthers⟩ := step
  · simp [CallSession.replies, CallSession.events, same]
  · have silent : e.replyRole? = none := by
      cases e <;> first | rfl | cases byOthers
    simp [CallSession.replies, CallSession.events, grown, silent]

/-- A playback is left alone, told to stop, or ends. -/
def PlayStep (play play' : Option PlayTask) : Prop :=
  play' = play ∨ play' = play.map PlayTask.cancel ∨
    ∃ p status, play = some p ∧ play' = some { p with status := status } ∧
      ((p.status = .running ∧ status.isDone = true) ∨
        (p.status = .cancelling ∧ status = .cancelled))

namespace PlayStep
variable {play play' : Option PlayTask} {p : PlayTask}

theorem id (step : PlayStep play play') : play'.map PlayTask.id = play.map PlayTask.id := by
  obtain rfl | rfl | ⟨p, status, rfl, rfl, -⟩ := step
  · rfl
  · cases play with
    | none => rfl
    | some p =>
        simp only [Option.map_some, PlayTask.cancel]
        split <;> rfl
  · rfl

theorem ended (step : PlayStep play play') (done : ∀ p, play = some p → p.status.isDone = true) :
    play' = play := by
  obtain rfl | rfl | ⟨p, status, rfl, rfl, running⟩ := step
  · rfl
  · cases play with
    | none => rfl
    | some p => simp [PlayTask.cancel, done p rfl]
  · have done := done p rfl
    obtain ⟨running, -⟩ | ⟨running, -⟩ := running
    · rw [running] at done
      cases done
    · rw [running] at done
      cases done

/-- A playback that was told to stop is not taken back. -/
theorem stopped (step : PlayStep (some p) play') : ∃ p', play' = some p' ∧ p'.site = p.site ∧
    (p.status = .cancelling ∨ p.status = .cancelled →
      p'.status = .cancelling ∨ p'.status = .cancelled) := by
  obtain rfl | rfl | ⟨p', status, same, rfl, running⟩ := step
  · exact ⟨p, rfl, rfl, fun told => told⟩
  · refine ⟨p.cancel, rfl, ?_, ?_⟩
    · unfold PlayTask.cancel
      split <;> rfl
    · unfold PlayTask.cancel
      split
      · exact fun told => told
      · exact fun _ => .inl rfl
  · obtain rfl := Option.some.inj same
    refine ⟨_, rfl, rfl, fun told => ?_⟩
    obtain ⟨running, -⟩ | ⟨-, rfl⟩ := running
    · rw [running] at told
      cases told with
      | inl h | inr h => cases h
    · exact .inr rfl

end PlayStep

namespace Engine
variable {cfg : RuntimeConfig} {op : Op} {m : Move} {w w' : World}

theorem finalizeStep_marks {extract ok : Bool} (h : w.finalizeStep extract ok = some w') :
    w'.history = w.history ∨ w'.history = .finalizing :: w.history := by
  obtain ⟨_, _, _, _, rfl, marks, -⟩ := finalizeStep_writes h
  exact marks

theorem cancelMain_marks (op : Op) (w : World) :
    (w.cancelMain op).history = w.history ∨ (w.cancelMain op).history = .cancel :: w.history := by
  unfold World.cancelMain
  dsimp only
  split
  · exact .inl rfl
  · exact .inr rfl

/-- A control event overwrites the cause, unless `main` is done. -/
theorem terminate_control (op : Op) (w : World) :
    ((w.terminate op).session.hangupCause = w.session.hangupCause ∧
        (w.terminate op).history = w.history) ∨
      ((w.terminate op).session.hangupCause = some .manualHangup ∧
        (w.terminate op).history = .cancel :: .terminate :: w.history) := by
  by_cases done : op = .mainDone
  · exact .inl (by simp [World.terminate, World.cancelMain, done])
  · exact .inr (by simp [World.terminate, World.cancelMain, done])

theorem loud_of_partialCounts (counts : w.partialCounts = true) : w.Loud := by
  simp only [World.partialCounts, Bool.and_eq_true, Bool.or_eq_true] at counts
  obtain ⟨turn | speaking, -⟩ := counts
  · exact .inr (.inl turn)
  · exact .inl (Option.isSome_iff_ne_none.mp speaking)

theorem pulling_some {p : Pipe} (h : w.pulling? = some p) :
    w.pipe = some p ∧ p.producer = .pulling := by
  simp only [World.pulling?, Option.filter_eq_some_iff, Bool.and_eq_true, decide_eq_true_eq] at h
  exact ⟨h.1, h.2.1⟩

theorem cancelMain_play (op : Op) (w : World) :
    (w.cancelMain op).play = w.play ∨ (w.cancelMain op).play = w.play.map PlayTask.cancel := by
  unfold World.cancelMain
  dsimp only
  split
  · exact .inr rfl
  · exact .inl rfl

/-- Whether a section cancels `main`: a shutdown, or a control event that is next on the lane. -/
def asksCancel (w : World) : Move → Bool
  | .cancelAll => true
  | .dispatch => w.bus.lossless.head?.any BusEvent.isControl
  | _ => false

attribute [grind =] asksCancel.eq_def

theorem cancelMain_pending (own : op ≠ .mainDone) (w : World) :
    (w.cancelMain op).cancelPending = (w.cancelPending || !(op = .playback && w.playLive)) := by
  simp [World.cancelMain, own]

/-- The next partial transcript makes the monitor latch an interruption. -/
def triggers (cfg : RuntimeConfig) (w : World) : Bool :=
  w.listen.partialMonitor = .running && w.partialCounts && match w.listen.partials with
    | r :: _ => r.text.strip ≠ [] && evaluatePartial r.text.strip
        (w.session.currentUserSpeechStartedMs.getD w.clock) w.clock cfg.interruption
    | [] => false

attribute [grind =] triggers.eq_def

/-- What an offer leaves alone. -/
theorem offer_kept (p : Pipe) (job : Text) (last : Bool) :
    (p.offer job last).stream = p.stream ∧ (p.offer job last).fullyPlayed = p.fullyPlayed ∧
      (p.offer job last).currentJob = p.currentJob ∧
      (p.offer job last).cancelRequested = p.cancelRequested := by
  unfold Pipe.offer
  split
  · exact ⟨rfl, rfl, rfl, rfl⟩
  · exact ⟨rfl, rfl, rfl, rfl⟩

section Moves
variable (h : callMove cfg op w m = some w')
include h

/-- Only the finalizer's own sections touch its record and note its start; every other section
leaves the cause alone or is a control event that overwrites it. -/
theorem callMove_control :
    (∃ extract ok, m = .finalize extract ok ∧ w.finalizeStep extract ok = some w') ∨
      w'.finalize = w.finalize ∧
        ((w'.session.hangupCause = w.session.hangupCause ∧ (w'.history = w.history ∨
          w'.history = .cancel :: w.history ∨ (∃ r, w'.history = .evaluated r :: w.history) ∨
          (∃ b r, w'.history = .trigger b :: .evaluated r :: w.history) ∨
          (∃ r, w'.history = .posted r :: w.history) ∨
          ∃ job, w'.history = .lost job :: w.history)) ∨
        (w'.session.hangupCause = some .manualHangup ∧
          w'.history = .cancel :: .terminate :: w.history)) := by
  cases callMove_effect h with
  | finalize stepped => exact .inl ⟨_, _, rfl, stepped⟩
  | cancelAll =>
      refine .inr ⟨rfl, .inl ⟨rfl, ?_⟩⟩
      obtain same | cancelled := cancelMain_marks op _
      · exact .inl same
      · exact .inr (.inl cancelled)
  | deliverControl _ _ =>
      obtain ⟨cause, marks⟩ | ended := terminate_control op _
      · exact .inr ⟨rfl, .inl ⟨cause, .inl marks⟩⟩
      · exact .inr ⟨rfl, .inr ended⟩
  | asrFinal _ _ =>
      refine .inr ⟨rfl, .inl ⟨rfl, ?_⟩⟩
      dsimp only
      split
      · exact .inl rfl
      · exact .inr (.inr (.inr (.inr (.inl ⟨_, rfl⟩))))
  | monitorMeasures _ _ _ _ _ _ =>
      exact .inr ⟨rfl, .inl ⟨rfl, .inr (.inr (.inl ⟨_, rfl⟩))⟩⟩
  | monitorTriggers _ _ _ _ _ _ =>
      exact .inr ⟨rfl, .inl ⟨rfl, .inr (.inr (.inr (.inl ⟨_, _, rfl⟩)))⟩⟩
  | producerDropsJob _ _ _ =>
      exact .inr ⟨rfl, .inl ⟨rfl, .inr (.inr (.inr (.inr (.inr ⟨_, rfl⟩))))⟩⟩
  | _ => exact .inr ⟨rfl, .inl ⟨rfl, .inl rfl⟩⟩

theorem callMove_marks : w'.history = w.history ∨ w'.history = .cancel :: w.history ∨
      w'.history = .cancel :: .terminate :: w.history ∨
      (∃ r, w'.history = .evaluated r :: w.history) ∨
      (∃ b r, w'.history = .trigger b :: .evaluated r :: w.history) ∨
      (∃ r, w'.history = .posted r :: w.history) ∨
      (∃ job, w'.history = .lost job :: w.history) ∨ w'.history = .finalizing :: w.history := by
  obtain ⟨extract, ok, -, stepped⟩ | ⟨-, ⟨-, marks⟩ | ⟨-, terminated⟩⟩ := callMove_control h
  · obtain same | noted := finalizeStep_marks stepped
    · exact .inl same
    · grind
  · grind
  · exact .inr (.inr (.inl terminated))

theorem callMove_history : HistoryStep w.history w'.history := by
  have none := HistoryStep.refl w.history
  obtain same | same | same | ⟨_, same⟩ | ⟨_, _, same⟩ | ⟨_, same⟩ | ⟨_, same⟩ | same :=
    callMove_marks h
  · exact same ▸ none
  · exact same ▸ none.mark rfl
  · exact same ▸ (none.mark rfl).mark rfl
  · exact same ▸ none.mark rfl
  · exact same ▸ (none.mark rfl).mark rfl
  · exact same ▸ none.mark rfl
  · exact same ▸ none.mark rfl
  · exact same ▸ none.mark rfl

theorem callMove_finalize : (w'.finalize = w.finalize ∧ w'.managed = w.managed) ∨
      ∃ extract ok, m = .finalize extract ok ∧ w.finalizeStep extract ok = some w' := by
  cases callMove_effect h with
  | finalize stepped => exact .inr ⟨_, _, rfl, stepped⟩
  | _ => exact .inl ⟨rfl, rfl⟩

theorem callMove_frame : MainFrame w w' := by
  cases callMove_effect h with
  | _ => exact ⟨⟨rfl, rfl, rfl, rfl, rfl, rfl, rfl⟩, rfl, rfl, rfl, rfl, rfl⟩

theorem callMove_mainOwned : MainOwned w.session w'.session := (callMove_frame h).session

/-- The turn ids, the count of interruptions and the trace rows are written by `main` alone. -/
theorem callMove_counts : w'.session.currentTurnId = w.session.currentTurnId ∧
      w'.session.consecutiveInterruptionCount = w.session.consecutiveInterruptionCount ∧
        w'.pipelineTraceRecords = w.pipelineTraceRecords :=
  have frame := callMove_frame h
  ⟨frame.turnId, frame.interruptions, frame.records⟩

/-- The count of activations and the journal are written by `main` alone. -/
theorem callMove_journal :
    w'.session.silenceActivationCount = w.session.silenceActivationCount ∧ w'.journal = w.journal :=
  have frame := callMove_frame h
  ⟨frame.activations, frame.journal⟩

theorem callMove_transcript : TranscriptStep w w' := by
  cases callMove_effect h with
  | monitorTriggers _ _ counts _ _ _ =>
      exact .inr ⟨loud_of_partialCounts counts, _, _, rfl, rfl⟩
  | defaultReply pulling _ _ =>
      have piped : w.pipe ≠ none := by simp [(pulling_some pulling).1]
      exact .inr ⟨.inr (.inr (.inl piped)), _, _, rfl, rfl⟩
  | fillerPlayed playing _ =>
      have plays : w.filler.playing ≠ none := by simp [playing]
      exact .inr ⟨.inr (.inr (.inr plays)), _, _, rfl, rfl⟩
  | _ => exact .inl rfl

theorem callMove_pipe_none (idle : w.pipe = none) : w'.pipe = none := by
  cases callMove_effect h with
  | produceSentence pulling _ _ | replaySentence pulling _ | generatorEnd pulling _ _
  | defaultReply pulling _ _ | generatorError pulling _ =>
      exact absurd (idle.symm.trans (pulling_some pulling).1) (by simp)
  | producerPutJob piped _ _ _ | producerPutSentinel piped _ _ _ | producerDropsJob piped _ _
  | producerEnd piped _ _ _ | firstAudio piped _ _ _ _ =>
      exact absurd (idle.symm.trans piped) (by simp)
  | _ => exact idle

theorem callMove_filler_silent (silent : w.filler.playing = none ∧ w.filler.gate ≠ .sleeping) :
    w'.filler.playing = none ∧ w'.filler.gate ≠ .sleeping := by
  cases callMove_effect h with
  | fillerSkip asleep _ | fillerStart asleep _ _ _ => exact absurd asleep silent.2
  | fillerGateEnd _ => exact ⟨silent.1, by simp⟩
  | fillerPlayed _ _ | fillerCut _ => exact ⟨rfl, silent.2⟩
  | _ => exact silent

theorem callMove_filler_ended (ended : w.filler.gate = .ended) : w'.filler.gate = .ended := by
  cases callMove_effect h with
  | fillerSkip _ _ | fillerStart _ _ _ _ | fillerGateEnd _ => rfl
  | _ => exact ended

/-- A section leaves the playback alone, cancels it, or is its own end. -/
theorem callMove_playStep : PlayStep w.play w'.play := by
  have told : ∀ {play'}, play' = w.play ∨ play' = w.play.map PlayTask.cancel →
      PlayStep w.play play' := fun h => h.imp_right .inl
  cases callMove_effect h with
  | cancelAll | deliverControl _ _ => exact told (cancelMain_play op _)
  | monitorTriggers _ _ _ _ _ _ =>
      refine told ?_
      unfold World.triggerInterruption
      dsimp only
      split
      · exact .inr rfl
      · exact .inl rfl
  | playEnd ok playing running =>
      exact .inr (.inr ⟨_, _, playing, rfl, .inl ⟨running, by cases ok <;> rfl⟩⟩)
  | playStop ok playing cancelling =>
      exact .inr (.inr ⟨_, _, playing, rfl, .inr ⟨cancelling, rfl⟩⟩)
  | _ => exact .inl rfl

theorem callMove_playId : w'.play.map PlayTask.id = w.play.map PlayTask.id :=
  (callMove_playStep h).id

/-- Nobody but `main` touches a playback that has ended. -/
theorem callMove_play_ended (ended : w.playLive = false) : w'.play = w.play := by
  refine (callMove_playStep h).ended fun p playing => ?_
  simpa [World.playLive, playing] using ended

/-- Of a call's line, other tasks write only that the edge has reported its end. -/
theorem callMove_line : w'.phone.line = w.phone.line ∨
      w'.phone.line = { w.phone.line with terminalReported := true } := by
  cases callMove_effect h with
  | edgeEnds _ _ =>
      refine .inr ?_
      unfold Phone.closeByEdge
      split <;> rfl
  | _ => exact .inl rfl

/-- A recorded cause is never withdrawn. -/
theorem callMove_cause (some : w.session.hangupCause ≠ none) : w'.session.hangupCause ≠ none := by
  obtain ⟨extract, ok, -, stepped⟩ | ⟨-, ⟨same, -⟩ | ⟨manual, -⟩⟩ := callMove_control h
  · obtain ⟨_, _, _, _, rfl, -, kept⟩ := finalizeStep_writes stepped
    exact kept some
  · rwa [same]
  · simp [manual]

/-- A section that cancels `main` leaves the cancel pending, unless it stops a playback in its
place; any other section leaves the cancels as they are. -/
theorem callMove_cancel (own : op ≠ .mainDone) : (asksCancel w m = true ∧
      w'.cancelPending = (w.cancelPending || !(op = .playback && w.playLive))) ∨
    (w'.cancelPending = w.cancelPending ∧ (.cancel ∈ w'.history → .cancel ∈ w.history)) := by
  cases callMove_effect h with
  | cancelAll => exact .inl ⟨rfl, cancelMain_pending own _⟩
  | deliverControl lane asks =>
      exact .inl ⟨by simp [asksCancel, lane, asks], cancelMain_pending own _⟩
  | asrFinal _ _ =>
      refine .inr ⟨rfl, ?_⟩
      dsimp only
      split <;> simp
  | monitorMeasures _ _ _ _ _ _ | producerDropsJob _ _ _ => exact .inr ⟨rfl, by simp⟩
  | monitorTriggers _ _ _ _ _ _ => exact .inr ⟨rfl, by simp [World.triggerInterruption]⟩
  | finalize stepped =>
      refine .inr ⟨rfl, fun member => ?_⟩
      obtain same | noted := finalizeStep_marks stepped
      · exact same ▸ member
      · rw [noted] at member
        simpa using member
  | _ => exact .inr ⟨rfl, id⟩

/-- Only a trigger of the partial monitor latches an interruption. -/
theorem callMove_signal : w'.session.interruptionSignaled = w.session.interruptionSignaled ∨
      (m = .partialMonitor ∧ triggers cfg w = true ∧ w'.session.interruptionSignaled = true ∧
        (∃ r, w'.history = .trigger w.session.inProcessingTurn :: .evaluated r :: w.history) ∧
        w'.play = if w.session.currentSpeakingTask = w.play.map PlayTask.id
          then w.play.map PlayTask.cancel else w.play) := by
  cases callMove_effect h with
  | monitorTriggers running front counts said anchored above =>
      subst anchored
      exact .inr ⟨rfl, by simp [triggers, running, front, counts, said, above], rfl, ⟨_, rfl⟩, rfl⟩
  | _ => exact .inl rfl

theorem callMove_clock : w.clock ≤ w'.clock := by
  cases callMove_effect h with
  | tick ms => exact Nat.le_add_right _ _
  | _ => exact Nat.le_refl _

/-- The monitor is started by `main` alone. -/
theorem callMove_monitor (absent : w.listen.partialMonitor = .absent) :
    w'.listen.partialMonitor = .absent := by
  cases callMove_effect h with
  | cancelAll => simp [World.cancelAll, World.cancelMain, absent, Pump.cancel]
  | monitorEnd cancelled =>
      rw [absent] at cancelled
      cases cancelled
  | _ => exact absent

/-- Only a window whose `get` is waiting is given a final. -/
theorem callMove_asrGet (idle : w.listen.window.map Window.asrGet ≠ some .waiting) :
    w'.listen.window.map Window.asrGet = w.listen.window.map Window.asrGet := by
  cases callMove_effect h with
  | asrGet window _ waiting =>
      rw [window] at idle
      exact absurd (congrArg some waiting) idle
  | hangupWait window _ _ =>
      rw [window]
      rfl
  | _ => rfl

/-- What the consumer writes in its pipe is its own. -/
theorem callMove_pipe {p : Pipe} (piped : w.pipe = some p) :
    ∃ p', w'.pipe = some p' ∧ p'.stream = p.stream ∧ p'.fullyPlayed = p.fullyPlayed ∧
      p'.currentJob = p.currentJob ∧ p'.cancelRequested = p.cancelRequested := by
  cases callMove_effect h with
  | produceSentence pulling _ _ | replaySentence pulling _ | defaultReply pulling _ _ =>
      obtain rfl := Option.some.inj (piped.symm.trans (pulling_some pulling).1)
      exact ⟨_, rfl, offer_kept p _ _⟩
  | generatorEnd pulling _ _ | generatorError pulling _ =>
      obtain rfl := Option.some.inj (piped.symm.trans (pulling_some pulling).1)
      exact ⟨_, rfl, rfl, rfl, rfl, rfl⟩
  | producerPutJob here _ _ _ | producerPutSentinel here _ _ _ | producerDropsJob here _ _
  | producerEnd here _ _ _ | firstAudio here _ _ _ _ =>
      obtain rfl := Option.some.inj (piped.symm.trans here)
      exact ⟨_, rfl, rfl, rfl, rfl, rfl⟩
  | _ => exact ⟨p, piped, rfl, rfl, rfl, rfl⟩

end Moves

/-- A resumption changes nothing but the pending cancel, the queue it reads and the history. -/
structure ReplyFrame (w w' : World) : Prop where
  session : w'.session = w.session
  clock : w'.clock = w.clock
  bus : w'.bus = w.bus
  listen : w'.listen = w.listen
  play : w'.play = w.play
  streams : w'.streams = w.streams
  filler : w'.filler = w.filler
  finalize : w'.finalize = w.finalize
  managed : w'.managed = w.managed
  asrCount : w'.asrCount = w.asrCount
  turnTasks : w'.turnTasks = w.turnTasks
  records : w'.pipelineTraceRecords = w.pipelineTraceRecords
  journal : w'.journal = w.journal
  speech : w'.speech = w.speech
  pending : w'.cancelPending = w.cancelPending ∨ w'.cancelPending = false
  pipe : w'.pipe = w.pipe ∨ ∃ p, w.pipe = some p ∧ w'.pipe = some { p with jobs := p.jobs.tail }
  phone : w'.phone = w.phone ∨ w'.phone = { w.phone with events := w.phone.events.tail }
  history : w'.history = w.history ∨ w'.history = .neverStarted :: w.history ∨
    w'.history = .leftFinalize :: w.history ∨ w'.history = .unreserved :: w.history

/-- A property of the history that holds whatever mark a resumption leaves. -/
theorem ReplyFrame.noted {P : List Mark → Prop} (frame : ReplyFrame w w') (same : P w.history)
    (neverStarted : P (.neverStarted :: w.history)) (left : P (.leftFinalize :: w.history))
    (unreserved : P (.unreserved :: w.history)) : P w'.history := by
  obtain here | here | here | here := frame.history <;> rwa [here]

/-- A resumption that leaves the state alone or takes the pending cancel off it. -/
def Resumed (w w' : World) : Prop := w' = w ∨ w' = { w with cancelPending := false }

section Resume
variable {α : Type} {r : Reply α}

theorem synchronous_resumed (h : synchronous w r = some w') : Resumed w w' := by
  unfold synchronous at h
  split at h
  · cases h
  · exact .inl (Option.some.inj h).symm

/-- The outcome of a wait that can be cancelled and whose answer changes nothing. -/
def Answered (r : Reply α) (w w' : World) : Prop :=
  (r ≠ .error .cancelled ∧ w.cancelPending = false ∧ w' = w) ∨
    (r = .error .cancelled ∧ w.cancelPending = true ∧ w' = { w with cancelPending := false })

theorem Answered.resumed (h : Answered r w w') : Resumed w w' := by
  obtain ⟨-, -, same⟩ | ⟨-, -, off⟩ := h
  · exact .inl same
  · exact .inr off

theorem plain_some (h : plain w r = some w') : Answered r w w' := by
  unfold plain at h
  split at h
  · split at h
    · exact .inr ⟨rfl, ‹_›, (Option.some.inj h).symm⟩
    · cases h
  · rename_i uncancelled
    split at h
    · cases h
    · rename_i idle
      exact .inl ⟨uncancelled, Bool.eq_false_iff.mpr idle, (Option.some.inj h).symm⟩

theorem plain_pending (pending : w.cancelPending = true) (h : plain w r = some w') :
    r = .error .cancelled := by
  obtain ⟨-, free, -⟩ | ⟨cancelled, -⟩ := plain_some h
  · rw [pending] at free
    cases free
  · exact cancelled

theorem answer_some {allowed : α → Bool} (h : answer w allowed r = some w') :
    (∃ a, r = .ok a ∧ allowed a = true ∧ w.cancelPending = false ∧ w' = w) ∨
      (r = .error .cancelled ∧ w.cancelPending = true ∧
        w' = { w with cancelPending := false }) := by
  unfold answer at h
  split at h
  · rename_i a
    split at h
    · obtain ⟨-, idle, same⟩ | ⟨cancelled, -⟩ := plain_some h
      · exact .inl ⟨a, rfl, ‹_›, idle, same⟩
      · cases cancelled
    · cases h
  · obtain ⟨uncancelled, -⟩ | cancelled := plain_some h
    · exact absurd rfl uncancelled
    · exact .inr cancelled
  · cases h

theorem answer_resumed {allowed : α → Bool} (h : answer w allowed r = some w') : Resumed w w' := by
  obtain ⟨a, -, -, -, same⟩ | ⟨-, -, off⟩ := answer_some h
  · exact .inl same
  · exact .inr off

theorem reapFailing_some {gone : Bool} (h : reapFailing w gone r = some w') :
    gone = true ∧ w' = { w with cancelPending := false } := by
  unfold reapFailing at h
  split at h
  · exact ⟨‹_›, (Option.some.inj h).symm⟩
  · cases h

theorem reap_some {gone : Bool} (h : reap w gone r = some w') :
    gone = true ∧ (∀ e, r ≠ .error (.error e)) ∧ w' = { w with cancelPending := false } := by
  unfold reap at h
  split at h
  · cases h
  · rename_i raised
    obtain ⟨gone, same⟩ := reapFailing_some (r := r) h
    exact ⟨gone, raised, same⟩

/-- What `suppress(CancelledError)` around a reap catches. -/
theorem reap_caught (raised : ∀ e, r ≠ .error (.error e)) (e : Exc Err) (same : r = .error e) :
    isCancelled e = true := by
  cases e with
  | cancelled => rfl
  | error e => exact absurd same (raised e)

theorem replyPlayback_resumed {r : Reply Unit} (h : replyPlayback w r = some w') :
    Resumed w w' := by
  unfold replyPlayback at h
  split at h
  · split at h
    · exact (plain_some h).resumed
    · cases h
  · split at h
    · exact (plain_some h).resumed
    · cases h
  · split at h
    · exact .inr (Option.some.inj h).symm
    · split at h
      · exact (plain_some h).resumed
      · cases h
  · cases h

theorem replyPlayback_pending {r : Reply Unit} (pending : w.cancelPending = true)
    (h : replyPlayback w r = some w') : r = .error .cancelled := by
  unfold replyPlayback at h
  split at h
  · split at h
    · exact plain_pending pending h
    · cases h
  · split at h
    · exact plain_pending pending h
    · cases h
  · rfl
  · cases h

theorem replyPrewarm_resumed {r : Reply Unit} (h : replyPrewarm w r = some w') :
    Resumed w w' := by
  unfold replyPrewarm at h
  split at h
  · obtain ⟨uncancelled, -⟩ | ⟨-, -, off⟩ := plain_some h
    · exact absurd rfl uncancelled
    · exact .inr off
  · exact (plain_some h).resumed

theorem replyPrewarm_pending {r : Reply Unit} (pending : w.cancelPending = true)
    (h : replyPrewarm w r = some w') : r = .error .cancelled := by
  unfold replyPrewarm at h
  split at h
  · rfl
  · exact plain_pending pending h

theorem replyJob_some {r : Reply (Option Text)} (h : replyJob w r = some w') :
    (∃ job p, r = .ok job ∧ w.pipe = some p ∧ w.cancelPending = false ∧
      p.jobs = job :: p.jobs.tail ∧ w' = { w with pipe := some { p with jobs := p.jobs.tail } }) ∨
    (r = .error .cancelled ∧ w.cancelPending = true ∧ w' = { w with cancelPending := false }) := by
  match r with
  | .ok job =>
      cases pipe : w.pipe with
      | none => simp [replyJob, pipe] at h
      | some p =>
          cases jobs : p.jobs with
          | nil => simp [replyJob, pipe, jobs] at h
          | cons first rest =>
              simp only [replyJob, pipe, jobs, Option.ite_none_right_eq_some,
                Option.some.injEq] at h
              obtain ⟨⟨rfl, idle⟩, rfl⟩ := h
              exact .inl ⟨first, p, rfl, rfl, idle, by simp [jobs], by simp [jobs]⟩
  | .error .cancelled =>
      simp only [replyJob, answer, plain, Option.ite_none_right_eq_some] at h
      exact .inr ⟨rfl, h.1, (Option.some.inj h.2).symm⟩
  | .error (.error e) => cases h

theorem replyEvent_some {r : Reply (Option TelephonyEvent)} (h : replyEvent w r = some w') :
    Resumed w w' ∨ w' = { w with phone := { w.phone with events := w.phone.events.tail } } := by
  match r with
  | .ok e =>
      cases events : w.phone.events with
      | nil => simp [replyEvent, events] at h
      | cons first rest =>
          simp only [replyEvent, events, Option.ite_none_right_eq_some] at h
          exact .inr (Option.some.inj h.2).symm
  | .error e => exact .inl ((plain_some h).resumed)

theorem replyEvent_pending {r : Reply (Option TelephonyEvent)} (pending : w.cancelPending = true)
    (h : replyEvent w r = some w') : r = .error .cancelled := by
  match r with
  | .ok e =>
      cases events : w.phone.events with
      | nil => simp [replyEvent, events] at h
      | cons first rest => simp [replyEvent, events, pending] at h
  | .error e => exact plain_pending pending h

end Resume

theorem Resumed.frame (h : Resumed w w') : ReplyFrame w w' := by
  cases h with
  | inl same =>
      subst same
      exact ⟨rfl, rfl, rfl, rfl, rfl, rfl, rfl, rfl, rfl, rfl, rfl, rfl, rfl, rfl, .inl rfl,
        .inl rfl, .inl rfl, .inl rfl⟩
  | inr off =>
      subst off
      exact ⟨rfl, rfl, rfl, rfl, rfl, rfl, rfl, rfl, rfl, rfl, rfl, rfl, rfl, rfl, .inr rfl,
        .inl rfl, .inl rfl, .inl rfl⟩

theorem noting_some {mark : Mark} {bad : Bool} {o : Option World}
    (h : noting mark bad o = some w') :
    ∃ w₁, o = some w₁ ∧ (w' = w₁ ∧ bad = false ∨ w' = w₁.note mark ∧ bad = true) := by
  unfold noting at h
  split at h
  · obtain ⟨w₁, some, rfl⟩ := Option.map_eq_some_iff.mp h
    exact ⟨w₁, some, .inr ⟨rfl, ‹_›⟩⟩
  · rename_i good
    exact ⟨w', h, .inl ⟨rfl, Bool.eq_false_iff.mpr good⟩⟩

theorem noting_frame {mark : Mark} {bad : Bool} {o : Option World}
    (resumed : ∀ w₁, o = some w₁ → Resumed w w₁)
    (mine : mark = .neverStarted ∨ mark = .leftFinalize ∨ mark = .unreserved)
    (h : noting mark bad o = some w') : ReplyFrame w w' := by
  obtain ⟨w₁, some, same | noted⟩ := noting_some h
  · rw [same.1]
    exact (resumed w₁ some).frame
  · have frame := (resumed w₁ some).frame
    have history : w₁.history = w.history := by
      cases resumed w₁ some with
      | inl same => rw [same]
      | inr off => rw [off]
    rw [noted.1]
    refine { frame with history := .inr ?_ }
    simp only [World.note, history]
    obtain rfl | rfl | rfl := mine
    · exact .inl rfl
    · exact .inr (.inl rfl)
    · exact .inr (.inr rfl)

/-- The waits of a streamed reply that can only be cancelled. -/
theorem reply_cancelled_only {e : Err}
    (own : op = .jobGet ∨ op = .reapFillerGate ∨ op = .reapFiller ∨ op = .reapProducer ∨
      op = .reapSynth) : reply cfg op (.error (.error e)) w ≠ some w' := by
  obtain rfl | rfl | rfl | rfl | rfl := own
  all_goals nofun

variable (cfg) in
theorem reply_mainDone {r : Reply Unit} (h : reply cfg .mainDone r w = some w') :
    isOk r = true ∧ (w.finalize.stage = .notCreated ∨ w.finalize.stage = .finished) ∧ w' = w := by
  simp only [reply, Option.ite_none_right_eq_some] at h
  exact ⟨h.1.1, h.1.2, (Option.some.inj h.2).symm⟩

/-- A cancel that is pending wins over any answer. -/
theorem reply_pending {r : Reply op.Res} (plain : op.isPlain = true)
    (suspends : op.suspends = true) (pending : w.cancelPending = true)
    (h : reply cfg op r w = some w') : r = .error .cancelled := by
  have idle : w.cancelPending ≠ false := by simp [pending]
  cases op with
  | ext call | choice options | outOfFuel => cases suspends
  | playback => exact replyPlayback_pending pending h
  | jobGet =>
      obtain ⟨_, _, -, -, free, -⟩ | ⟨cancelled, -⟩ := replyJob_some h
      · exact absurd free idle
      · exact cancelled
  | nextEvent => exact replyEvent_pending pending h
  | reapPrewarm => exact replyPrewarm_pending pending h
  | listen _ | gate | stopPumps | closeBus =>
      obtain ⟨_, -, -, free, -⟩ | ⟨cancelled, -⟩ := answer_some h
      · exact absurd free idle
      · exact cancelled
  | reapAsrGet | reapHangupWait | reapFillerGate | reapFiller | reapProducer | reapSynth
  | reapOutboundPump | reapInboundPump | reapEager _ | runner | firstStep | finalizeSession
  | mainDone | dlqPush | reserve => cases plain
  | _ => exact plain_pending pending h

theorem reply_frame {r : Reply op.Res} (h : reply cfg op r w = some w') : ReplyFrame w w' := by
  cases op with
  | ext call => exact (synchronous_resumed h).frame
  | choice options =>
      match r with
      | .ok x =>
          simp only [reply, Option.ite_none_right_eq_some] at h
          exact Resumed.frame (.inl (Option.some.inj h.2).symm)
      | .error _ => cases h
  | firstStep => exact noting_frame (fun _ h => answer_resumed h) (.inl rfl) h
  | finalizeSession => exact noting_frame (fun _ h => answer_resumed h) (.inr (.inl rfl)) h
  | reserve => exact noting_frame (fun _ h => (plain_some h).resumed) (.inr (.inr rfl)) h
  | playback => exact (replyPlayback_resumed h).frame
  | reapPrewarm => exact (replyPrewarm_resumed h).frame
  | jobGet =>
      obtain ⟨job, p, -, pipe, -, -, rfl⟩ | ⟨-, -, rfl⟩ := replyJob_some h
      · exact ⟨rfl, rfl, rfl, rfl, rfl, rfl, rfl, rfl, rfl, rfl, rfl, rfl, rfl, rfl, .inl rfl,
          .inr ⟨p, pipe, rfl⟩, .inl rfl, .inl rfl⟩
      · exact Resumed.frame (.inr rfl)
  | nextEvent =>
      obtain resumed | rfl := replyEvent_some h
      · exact resumed.frame
      · exact ⟨rfl, rfl, rfl, rfl, rfl, rfl, rfl, rfl, rfl, rfl, rfl, rfl, rfl, rfl, .inl rfl,
          .inl rfl, .inr rfl, .inl rfl⟩
  | runner => exact Resumed.frame (.inr (Option.some.inj h).symm)
  | mainDone => exact Resumed.frame (.inl (reply_mainDone cfg h).2.2)
  | outOfFuel => cases h
  | listen _ | gate | stopPumps | closeBus => exact (answer_resumed h).frame
  | reapAsrGet | reapHangupWait | reapFillerGate | reapFiller | reapProducer | reapSynth =>
      exact Resumed.frame (.inr (reap_some h).2.2)
  | reapOutboundPump | reapInboundPump | reapEager _ =>
      exact Resumed.frame (.inr (reapFailing_some (r := r) h).2)
  | _ => exact (plain_some h).resumed.frame

/-- A reap, the end of a synthesis and the end of a playback resume `main` and change nothing. -/
theorem reply_resumed {r : Reply op.Res} (h : reply cfg op r w = some w')
    (own : op.isReap = true ∨ op = .closeSynth ∨ op = .playback) : Resumed w w' := by
  obtain reaps | rfl | rfl := own
  · cases op with
    | reapAsrGet | reapHangupWait | reapFillerGate | reapFiller | reapProducer | reapSynth =>
        exact .inr (reap_some h).2.2
    | reapOutboundPump | reapInboundPump | reapEager _ =>
        exact .inr (reapFailing_some (r := r) h).2
    | _ => cases reaps
  · exact (plain_some h).resumed
  · exact replyPlayback_resumed h

section
variable (h : move cfg op m w = some w')
include h

theorem callMove_of_move (own : op.ofConsumer = false) :
    op.suspends = true ∧ callMove cfg op w m = some w' := by
  simp only [move, own, Bool.false_eq_true, if_false, Option.ite_none_right_eq_some] at h
  exact h

theorem move_cases :
    callMove cfg op w m = some w' ∨ w' = { w.note .cancel with cancelPending := true } := by
  unfold move at h
  split at h
  · split at h
    · exact .inr (Option.some.inj h).symm
    · cases h
  · split at h
    · exact .inl h
    · cases h

theorem move_history : HistoryStep w.history w'.history := by
  obtain called | rfl := move_cases h
  · exact callMove_history called
  · exact (HistoryStep.refl _).mark rfl

end

/-- A property is stable if sections of other tasks keep it, a cancel of the consumer keeps it,
and it does not depend on what a resumption may change. -/
theorem stable_of {J : World → Prop}
    (call : ∀ op m w w', J w → callMove cfg op w m = some w' → J w')
    (consumer : ∀ w, J w → J { w.note .cancel with cancelPending := true })
    (resume : ∀ w w', J w → ReplyFrame w w' → J w') : (engine cfg).Stable J where
  move holds moved := by
    obtain called | rfl := move_cases moved
    · exact call _ _ _ _ holds called
    · exact consumer _ holds
  reply holds replied := resume _ _ holds (reply_frame replied)

/-- Stability at the waits that only resume `main`. -/
theorem stableAt_of {J : World → Prop} {allow : Op → Action sig Move → World → Bool}
    (own : op.isReap = true ∨ op = .closeSynth ∨ op = .playback)
    (call : ∀ m w w', J w → allow op (.move m) w = true → callMove cfg op w m = some w' → J w')
    (pending : ∀ {w b}, J w → J { w with cancelPending := b }) :
    ((engine cfg).restrict allow).StableAt op J where
  move holds moved := by
    obtain ⟨allowed, moved⟩ := Machine.restrict_move_some moved
    have plain : op.ofConsumer = false := by
      obtain reaps | rfl | rfl := own
      · cases op <;> first | rfl | cases reaps
      · rfl
      · rfl
    exact call _ _ _ holds allowed (callMove_of_move moved plain).2
  reply holds replied := by
    obtain rfl | rfl := reply_resumed (Machine.restrict_reply_some replied).2 own
    · exact holds
    · exact pending holds

/-- A resumption does not touch the session. -/
theorem stable_session (P : CallSession → Prop)
    (call : ∀ {op m w w'}, callMove cfg op w m = some w' → P w.session → P w'.session) :
    (engine cfg).Stable fun w => P w.session := by
  refine stable_of (fun _ _ _ _ holds moved => call moved holds) (fun _ holds => holds) ?_
  intro w w' holds frame
  rw [frame.session]
  exact holds

theorem caused_stable : (engine cfg).Stable fun w => w.session.hangupCause ≠ none :=
  stable_session (·.hangupCause ≠ none) callMove_cause

/-- Only `main` counts restructures. -/
theorem below_stable (n : Nat) :
    (engine cfg).Stable fun w => w.session.consecutiveRestructureCount < n := by
  apply stable_session (·.consecutiveRestructureCount < n)
  intro op m w w' moved below
  rw [(callMove_mainOwned moved).restructures]
  exact below

theorem piped_stable : (engine cfg).Stable fun w => w.pipe ≠ none := by
  refine stable_of ?_ ?_ ?_
  · intro op m w w' piped moved
    obtain ⟨p, pipe⟩ := Option.ne_none_iff_exists'.mp piped
    obtain ⟨p', pipe', -⟩ := callMove_pipe moved pipe
    simp [pipe']
  · intro w piped
    exact piped
  · intro w w' piped frame
    obtain same | ⟨p, -, same⟩ := frame.pipe
    · exact same ▸ piped
    · simp [same]

/-- Only `main` marks a reply as cut. -/
theorem played_stable (played : Option Bool) :
    (engine cfg).Stable fun w => w.pipe.map Pipe.fullyPlayed = played := by
  refine stable_of ?_ ?_ ?_
  · rintro op m w w' rfl moved
    cases pipe : w.pipe with
    | none => rw [callMove_pipe_none moved pipe]
    | some p =>
        obtain ⟨p', pipe', -, same, -⟩ := callMove_pipe moved pipe
        simp [pipe', same]
  · intro w same
    exact same
  · rintro w w' rfl frame
    obtain same | ⟨p, pipe, same⟩ := frame.pipe
    · rw [same]
    · simp [same, pipe]

end Engine
end IsalesEngine
