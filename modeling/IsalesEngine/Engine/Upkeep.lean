import IsalesEngine.Engine.Endings
import IsalesEngine.Engine.Inventory
import IsalesEngine.Engine.Speech

/-!
What `main` leaves alone in passing. Nearly all of its updates change neither
the counters of silence and restructure, nor the anchor of the caller's speech,
nor what is about to be synthesized; an assertion that those updates keep
survives every part of a call that makes no others.
-/
namespace IsalesEngine
open Asyncio Asyncio.Coro

/-- The sentences a stream has generated ahead. -/
def Stream.buffered (st : Stream) : List Text := (st.eager.map Eager.buffer).getD []

/-- A new stream has generated nothing ahead. -/
theorem World.buffered_addStream {w : World} {st : Stream} (fresh : st.buffered = []) {j : Nat}
    {s : Text} (member : s ∈ ((w.addStream st).stream j).buffered) : s ∈ (w.stream j).buffered := by
  by_cases old : j < w.streams.length
  · have same : (w.addStream st).stream j = w.stream j := by
      simp [World.stream, List.getD_eq_getElem?_getD, List.getElem?_append_left old]
    rwa [same] at member
  · have empty : ((w.addStream st).stream j).buffered = [] := by
      simp only [World.stream, World.streams_addStream, List.getD_eq_getElem?_getD,
        List.getElem?_append_right (Nat.le_of_not_lt old)]
      cases j - w.streams.length with
      | zero => exact fresh
      | succ n => rfl
    rw [empty] at member
    cases member

/-- The events the silence ladder is about. -/
def TranscriptEvent.ofLadder : TranscriptEvent → Bool
  | .silenceActivation .. | .wrapUpStarted .. => true
  | _ => false

/-- The counters of a call, its journal, and the caller's speech as far as it was measured. -/
structure Tracked where
  activations : Nat
  restructures : Nat
  inWrapUp : Bool
  journal : List Entry
  speech : List SpeechEntry
  anchor : Option Nat
  asrCount : Nat
  partials : List AsrResult

def World.tracked (w : World) : Tracked where
  activations := w.session.silenceActivationCount
  restructures := w.session.consecutiveRestructureCount
  inWrapUp := w.session.inWrapUp
  journal := w.journal
  speech := w.speech
  anchor := w.session.currentUserSpeechStartedMs
  asrCount := w.asrCount
  partials := partialsInTransit w.listen w.bus

/-- An update in passing; a playback it starts is one that `utters` allows. -/
structure Aside (utters : PlaySite → Text → Prop) (w w' : World) : Prop where
  tracked : w'.tracked = w.tracked
  remaining : w'.session.interruptRemainingText = w.session.interruptRemainingText ∨
    w'.session.interruptRemainingText ≠ some []
  events : ∃ es, w'.session.events = w.session.events ++ es ∧ ∀ e ∈ es, e.ofLadder = false
  unwatched : w.listen.partialMonitor = .absent → w'.listen.partialMonitor = .absent
  play : w'.play = w.play ∨ ∀ p, w'.play = some p → utters p.site p.text
  filler : w'.filler.playing = w.filler.playing ∨ w'.filler.playing = none
  synths : ∀ job, .synth job ∈ w'.turnTasks → .synth job ∈ w.turnTasks
  buffers : ∀ i s, s ∈ (w'.stream i).buffered → s ∈ (w.stream i).buffered

namespace Aside
variable {utters : PlaySite → Text → Prop} {w w' : World} {st : Stream} {e : TranscriptEvent}
  {site : PlaySite}

/-- Nothing is changed. An update of other fields is this one with those fields given. -/
theorem refl (utters : PlaySite → Text → Prop) (w : World) : Aside utters w w where
  tracked := rfl
  remaining := .inl rfl
  events := ⟨[], (List.append_nil _).symm, List.forall_mem_nil _⟩
  unwatched := id
  play := .inl rfl
  filler := .inl rfl
  synths _ := id
  buffers _ _ := id

/-- An update of what the session holds beside its counters, its texts and the transcript. -/
theorem session {s : CallSession} (same : s = { w.session with
      consecutiveInterruptionCount := s.consecutiveInterruptionCount
      wrapUpRoundCount := s.wrapUpRoundCount, currentTurnId := s.currentTurnId
      hangupCause := s.hangupCause, transferStatus := s.transferStatus
      transferReason := s.transferReason, interruptionSignaled := s.interruptionSignaled
      inProcessingTurn := s.inProcessingTurn, callStartedAt := s.callStartedAt }) :
    Aside utters w { w with session := s } := by
  rw [same]
  exact { refl utters w with }

/-- An update of the telephony client, of the pipe, of the trace rows or of the short-reply mode. -/
theorem other (same : w' = { w with
      phone := w'.phone, pipe := w'.pipe, pipelineTraceRecords := w'.pipelineTraceRecords
      shortReplyActive := w'.shortReplyActive }) : Aside utters w w' := by
  rw [same]
  exact { refl utters w with }

/-- An update of the queue of finals, the window and the pumps other than the partial monitor. -/
theorem listen {l : Listen} (partials : l.partials = w.listen.partials)
    (unwatched : w.listen.partialMonitor = .absent → l.partialMonitor = .absent) :
    Aside utters w { w with listen := l } :=
  { refl utters w with
    tracked := by simp [World.tracked, partialsInTransit, partials]
    unwatched := unwatched }

theorem bus {b : Bus} (lossy : b.lossy = w.bus.lossy) : Aside utters w { w with bus := b } :=
  { refl utters w with tracked := by simp [World.tracked, partialsInTransit, lossy] }

theorem filling {f : Filler} (playing : f.playing = w.filler.playing ∨ f.playing = none) :
    Aside utters w { w with filler := f } := { refl utters w with filler := playing }

theorem tasks {ts : List TurnTask} (fewer : ∀ job, .synth job ∈ ts → .synth job ∈ w.turnTasks) :
    Aside utters w { w with turnTasks := ts } := { refl utters w with synths := fewer }

theorem remainder {text : Option Text} (whole : text ≠ some []) : Aside utters w
    { w with session := { w.session with interruptRemainingText := text } } :=
  { refl utters w with remaining := .inr whole }

theorem clearPlay (interruptible : Bool) : Aside utters w (w.clearPlay interruptible) :=
  { refl utters w with play := .inr nofun }

theorem append (other : e.ofLadder = false) : Aside utters w (w.append e) :=
  { refl utters w with events := ⟨[e], by simp [World.append], by simpa using other⟩ }

theorem note (m : Mark) : Aside utters w (w.note m) := { refl utters w with }

theorem appendNote {m : Mark} (other : e.ofLadder = false) : Aside utters w ((w.append e).note m) :=
  { refl utters w with
    events := ⟨[e], by simp [World.append, World.note], by simpa using other⟩ }

theorem transition (new : CallStatus) (reason : String) :
    Aside utters w (w.transition new reason) := by
  unfold World.transition StateMachine.transitionTo
  split
  · exact { refl utters w with }
  · dsimp only
    split
    · exact { refl utters w with }
    · exact { refl utters w with events := ⟨[.stateWarning reason w.session.state new], by
        simp [CallSession.events, CallSession.appendEvent], by simp [TranscriptEvent.ofLadder]⟩ }

theorem setStream {i : Nat} (fewer : ∀ s ∈ st.buffered, s ∈ (w.stream i).buffered) :
    Aside utters w (w.setStream i st) := by
  refine { refl utters w with buffers := fun j s member => ?_ }
  obtain same | ⟨rfl, same⟩ := stream_setStream_cases w i j st
  · rwa [same] at member
  · rw [same] at member
    exact fewer s member

theorem addStream (fresh : st.buffered = []) (plain : st.isRestructure = false) :
    Aside utters w (w.addStream st) :=
  { refl utters w with
    tracked := by simp [World.tracked, World.addStream, plain]
    buffers := fun _ _ => World.buffered_addStream fresh }

theorem startPlay {text : Text} {interruptible : Bool} (said : utters site text) :
    Aside utters w (w.startPlay site text interruptible) := by
  refine { refl utters w with play := .inr fun p same => ?_ }
  obtain rfl := Option.some.inj same
  exact said

theorem deliver {op : Op} {e : BusEvent} (own : op ≠ .playback) :
    Aside utters w (w.deliver op e) := by
  have terminates : Aside utters w (w.terminate op) := by
    by_cases ended : op = .mainDone
    · subst ended
      exact { refl utters w with }
    · exact { refl utters w with play := .inl (by simp [World.terminate, World.cancelMain, own]) }
  cases e with
  | asrFinal r => exact .listen rfl id
  | asrStreamEnded => exact { refl utters w with }
  | hangupDetected _ => exact .listen rfl id
  | manualHangupRequested | transferRequested => exact terminates

variable (aside : Aside utters w w')
include aside

theorem activations : w'.session.silenceActivationCount = w.session.silenceActivationCount :=
  congrArg Tracked.activations aside.tracked

theorem restructures :
    w'.session.consecutiveRestructureCount = w.session.consecutiveRestructureCount :=
  congrArg Tracked.restructures aside.tracked

theorem wrapUp : w'.session.inWrapUp = w.session.inWrapUp := congrArg Tracked.inWrapUp aside.tracked

theorem journal : w'.journal = w.journal := congrArg Tracked.journal aside.tracked

theorem speech : w'.speech = w.speech := congrArg Tracked.speech aside.tracked

theorem anchor : w'.session.currentUserSpeechStartedMs = w.session.currentUserSpeechStartedMs :=
  congrArg Tracked.anchor aside.tracked

theorem asrCount : w'.asrCount = w.asrCount := congrArg Tracked.asrCount aside.tracked

theorem partials : partialsInTransit w'.listen w'.bus = partialsInTransit w.listen w.bus :=
  congrArg Tracked.partials aside.tracked

end Aside

/-- An assertion that other tasks and every update in passing keep. -/
structure Upkeep (M : Machine sig World) (utters : PlaySite → Text → Prop)
    (I : Op → World → Prop) (K : World → Prop) : Prop where
  stable : M.Stable K
  assertion : ∀ op w, K w → I op w
  aside : ∀ {w w'}, Aside utters w w' → K w → K w'

namespace Upkeep
variable {M : Machine sig World} {utters : PlaySite → Text → Prop} {I : Op → World → Prop}
  {K : World → Prop} (up : Upkeep M utters I K)
include up

theorem wait (op : Op) : Preserves M I K (await op) := Preserves.wait up.stable up.assertion op

theorem ext (call : Ext) : Preserves M I K (ext call) := up.wait (.ext call)

theorem quiet {f : World → World} (aside : ∀ w, Aside utters w (f w)) :
    Preserves M I K (update f) := Preserves.update fun w => up.aside (aside w)

theorem append {e : TranscriptEvent} (other : e.ofLadder = false) : Preserves M I K (append e) :=
  up.quiet fun _ => .append other

theorem transition (new : CallStatus) (reason : String) : Preserves M I K (transition new reason) :=
  up.quiet fun _ => .transition new reason

theorem appendHangup (reason initiatedBy : String) :
    Preserves M I K (appendHangup reason initiatedBy) := up.quiet fun _ => .appendNote rfl

theorem phone : PhoneFrame M I K K where
  toWaits := .of_stable up.stable up.assertion fun _ h => h
  phone holds := up.aside (.other rfl) holds

section Playback

theorem playTts {site : PlaySite} {text : Text} (said : utters site text) (interruptible : Bool) :
    Preserves M I K (playTts site text interruptible) := by
  refine Preserves.bind (playChunks_preserves (up.wait .playback) ?_ ?_) fun _ => Preserves.pure ()
  · exact fun holds => up.aside (.startPlay said) holds
  · exact fun holds => up.aside (.clearPlay _) holds

/-- A phrase that is played unless it is empty. -/
theorem playUnless {site : PlaySite} (text : Text) (said : text ≠ [] → utters site text) :
    Preserves M I K (when (text ≠ []) (IsalesEngine.playTts site text)) := by
  cases text with
  | nil => exact Preserves.pure ()
  | cons c cs => exact (up.playTts (said nofun) true).when

theorem dropTasks (ts : List TurnTask) : Preserves M I K (dropTasks ts) :=
  up.quiet fun w => .tasks fun _ member => List.diff_subset w.turnTasks ts member

theorem cancelEager (i : Nat) : Preserves M I K (cancelEager i) := by
  refine (Preserves.read _).bind fun live => Preserves.when (Preserves.bind ?_ fun _ => ?_)
  · refine up.quiet fun w => .setStream fun s member => ?_
    cases eager : (w.stream i).eager with
    | none => simp [Stream.buffered, eager] at member
    | some e => simpa [Stream.buffered, eager] using member
  · exact (up.wait _).suppress

theorem closeJob (job : Text) : Preserves M I K (closeJob job) :=
  (up.dropTasks _).bind fun _ => (up.wait .reapSynth).suppress.bind fun _ =>
    (up.wait .closeSynth).suppress

theorem reapGate : Preserves M I K FillerManager.reapGate := by
  refine Preserves.bind (up.quiet fun _ => .filling ?_) fun _ => (Preserves.read _).bind fun _ => ?_
  · exact .inl rfl
  · exact (up.wait .reapFillerGate).suppress.when

theorem stop : Preserves M I K FillerManager.stop := by
  refine Preserves.bind (up.quiet fun _ => .filling ?_) fun _ => (Preserves.read _).bind fun _ => ?_
  · exact .inl rfl
  · exact (up.wait .reapFiller).suppress.when

theorem finish (i : Nat) (filler : Bool) : Preserves M I K (PlayStreaming.finish i filler) := by
  refine (Preserves.read _).bind fun current => (Preserves.read _).bind fun capture => ?_
  refine up.reapGate.when.bind fun _ => Preserves.bind ?_ fun _ => ?_
  · exact (up.quiet fun _ => .other rfl).bind fun _ => (Preserves.read _).bind fun _ =>
      (up.wait .reapProducer).suppress.when
  refine (Preserves.forEach (fun job => up.closeJob job) _).bind fun _ => ?_
  refine Preserves.bind (Preserves.act fun _ => up.aside (.other rfl)) fun queued => ?_
  refine (Preserves.forEach (fun job => up.closeJob job) _).bind fun _ => ?_
  refine (Preserves.read _).bind fun tail => (up.cancelEager i).bind fun _ => ?_
  refine up.stop.when.bind fun _ => Preserves.when (Preserves.update fun w holds => ?_)
  refine up.aside (.remainder ?_) (up.aside (.note _) holds)
  split
  · nofun
  · rename_i rest
    exact fun same => rest (Option.some.inj same)

section
variable (sentences : ∀ s, utters .sentence s)
include sentences

theorem playJob (i : Nat) (job : Text) : Preserves M I K (PlayStreaming.playJob i job) := by
  refine Preserves.bind (Preserves.exceptError ?_ fun e => ?_) fun played => ?_
  · refine Preserves.bind (playChunks_preserves (up.wait .playback) ?_ ?_) fun _ =>
      Preserves.pure _
    · exact fun holds => up.aside (.startPlay (sentences job)) holds
    · exact fun holds => up.aside (.clearPlay _) holds
  · exact Preserves.bind (up.quiet fun w => .setStream fun _ member => member) fun _ =>
      Preserves.pure none
  · match played with
    | none => exact Preserves.pure false
    | some false =>
        exact (up.quiet fun _ => .note _).bind fun _ => (up.quiet fun _ => .other rfl).bind
          fun _ => Preserves.pure false
    | some true =>
        exact (up.dropTasks _).bind fun _ => (up.quiet fun _ => .note _).bind fun _ =>
          (up.quiet fun _ => .other rfl).bind fun _ => Preserves.pure true

theorem consume (i : Nat) (filler : Bool) (fuel : Nat) :
    Preserves M I K (PlayStreaming.consume i filler fuel) := by
  induction fuel generalizing filler with
  | zero => exact (up.wait .outOfFuel).bind fun impossible => nomatch (impossible : Empty)
  | succ fuel ih =>
      refine (up.wait .jobGet).bind fun next => ?_
      match (next : Option Text) with
      | none => exact Preserves.pure ()
      | some job =>
          refine (up.quiet fun _ => .other rfl).bind fun _ => Preserves.bind ?_ fun _ => ?_
          · exact Preserves.when (up.reapGate.bind fun _ => up.stop)
          · exact (up.playJob sentences i job).bind fun _ => (ih false).when

theorem playStreaming (i : Nat) (filler : Bool) (fillerDelayMs processingStart fuel : Nat) :
    Preserves M I K (playStreaming i filler fillerDelayMs processingStart fuel) := by
  refine Preserves.bind ?_ fun _ => Preserves.bind ?_ fun _ => ?_
  · exact (up.quiet fun _ => .other rfl).bind fun _ =>
      Preserves.when (up.quiet fun _ => .filling (.inr rfl))
  · exact (up.consume sentences i filler fuel).andFinally (up.finish i filler)
  · exact Preserves.act fun _ => up.aside (.other rfl)

end

end Playback

section Turn

theorem addTrace (i : Nat) (userText : Text) (firstAudioMs : Option Nat)
    (f : TraceRecord → TraceRecord) : Preserves M I K (addTrace i userText firstAudioMs f) :=
  up.quiet fun _ => .other rfl

theorem appendAiReply (i roleConfigId : Nat) (goalAchieved : Bool) (goalType : String)
    (isWrapUp : Bool) :
    Preserves M I K (appendAiReply i roleConfigId goalAchieved goalType isWrapUp) :=
  up.quiet fun _ => .append rfl

theorem cancelCandidates (keep : Option String) (candidates : List Candidate) :
    Preserves M I K (cancelCandidates keep candidates) := by
  refine Preserves.forEach (fun c => ?_) candidates
  exact (up.cancelEager c.stream).when

/-- A stream that re-voices nothing. -/
theorem runPipelineStream (slot : Slot) (eager : Bool) :
    Preserves M I K (runPipelineStream slot false eager) := by
  refine (up.ext .buildStream).bind fun _ => (up.quiet fun _ => .session rfl).bind fun _ => ?_
  refine (Preserves.read _).bind fun turnId => Preserves.act fun w => up.aside (.addStream ?_ rfl)
  cases eager with
  | true | false => rfl

theorem spawnPersonas (turnId : Nat) (personas : List PersonaSpec) (candidates : List Candidate) :
    Preserves M I K (spawnPersonas turnId personas candidates) := by
  induction personas generalizing candidates with
  | nil => exact Preserves.pure candidates
  | cons persona personas ih =>
      refine (up.ext .buildStream).bind fun _ => Preserves.bind ?_ fun _ => ih _
      exact Preserves.act fun _ => up.aside (.addStream rfl rfl)

theorem spawnTasks {ts : List TurnTask} (other : ∀ job, .synth job ∉ ts) :
    Preserves M I K (spawnTasks ts) := by
  refine up.quiet fun w => .tasks fun job member => ?_
  exact (List.mem_append.mp member).resolve_right (other job)

theorem gatePhase (cfg : RuntimeConfig) : Preserves M I K (gatePhase cfg) := by
  refine (up.quiet fun _ => .session rfl).bind fun _ =>
    Preserves.andFinally ?_ (up.quiet fun _ => .session rfl)
  refine (up.runPipelineStream _ true).bind fun mainStream => ?_
  refine (up.spawnTasks ?_).bind fun _ => (Preserves.read _).bind fun turnId => ?_
  · intro job member
    obtain ⟨_, -, same⟩ := List.mem_map.mp member
    cases same
  refine (up.spawnPersonas _ _ _).bind fun candidates => ?_
  have gathered : ∀ results : List RefereeResult, Preserves M I K (do
      IsalesEngine.dropTasks (cfg.pipeline.refereeLabels.map fun _ => TurnTask.referee)
      pure (mainStream, candidates, results)) :=
    fun results => (up.dropTasks _).bind fun _ => Preserves.pure _
  dsimp only
  split
  · exact gathered []
  · exact (up.wait .gate).bind gathered

theorem countInterruption : Preserves M I K countInterruption := up.quiet fun _ => .session rfl

theorem abort (mainStream : Nat) (userText : Text) (candidates : List Candidate)
    (results : List RefereeResult) :
    Preserves M I K (GatedTurn.abort mainStream userText candidates results) := by
  refine (up.cancelCandidates _ _).bind fun _ => up.countInterruption.bind fun _ => ?_
  exact (up.quiet fun _ => .note _).bind fun _ => (up.addTrace _ _ _ _).bind fun _ =>
    Preserves.pure _

theorem assembleInterruptText (source : Option String) :
    Preserves M I K (assembleInterruptText source) := by
  refine Preserves.act fun w holds => ?_
  dsimp only
  split
  · have forgotten : K { w with session := { w.session with interruptRemainingText := none } } :=
      up.aside (.remainder nofun) holds
    split
    · exact forgotten
    · exact forgotten
  · exact holds

theorem chooseWinner (cfg : RuntimeConfig) (mainStream : Nat) (candidates : List Candidate)
    (sel : GatedSelection) :
    Preserves M I K (GatedTurn.chooseWinner cfg mainStream candidates sel) := by
  unfold GatedTurn.chooseWinner
  split
  · exact (up.cancelCandidates _ _).bind fun _ => Preserves.pure _
  · refine (up.cancelCandidates _ _).bind fun _ => (up.ext .buildStream).bind fun _ => ?_
    refine (Preserves.read _).bind fun _ => Preserves.bind ?_ fun _ => Preserves.pure _
    exact Preserves.act fun _ => up.aside (.addStream rfl rfl)

theorem refereeVerdict (enabled : Bool) : Preserves M I K (WrapUpTurn.refereeVerdict enabled) := by
  cases enabled with
  | false => exact Preserves.pure none
  | true =>
      refine (up.dropTasks _).bind fun _ => Preserves.exceptError ?_ fun _ => Preserves.pure none
      exact (up.wait .wrapUpReferee).bind fun _ => Preserves.pure _

end Turn

section Ending

theorem performHandoff (type detail : String) {phrase : Text}
    (said : phrase ≠ [] → utters .handoffPhrase phrase) :
    Preserves M I K (performHandoff type detail phrase) := by
  refine (up.transition _ _).bind fun _ => (up.append rfl).bind fun _ => ?_
  refine Preserves.bind ?_ fun _ => (up.quiet fun _ => .session rfl).bind fun _ => ?_
  · exact up.playUnless _ said
  refine (up.append rfl).bind fun _ => Preserves.bind ?_ fun _ => ?_
  · exact (up.phone.attemptHangup fun holds => up.aside (.note _) holds).preserves
  · exact (up.transition _ _).bind fun _ => (up.quiet fun _ => .session rfl).bind fun _ =>
      up.appendHangup _ _

theorem refereeHangup : Preserves M I K WrapUpTurn.refereeHangup :=
  (up.quiet fun _ => .session rfl).bind fun _ => (up.transition _ _).bind fun _ =>
    (up.appendHangup _ _).bind fun _ => Preserves.pure _

theorem onRemoteHangup : Preserves M I K TurnLoop.onRemoteHangup :=
  (up.transition _ _).bind fun _ => (up.quiet fun _ => .session rfl).bind fun _ =>
    (up.appendHangup _ _).bind fun _ => Preserves.pure _

theorem onNoAnswer : Preserves M I K RunSession.onNoAnswer :=
  (up.transition _ _).bind fun _ => (up.quiet fun _ => .session rfl).bind fun _ =>
    up.appendHangup _ _

theorem onException : Preserves M I K RunSession.onException :=
  (Preserves.read _).bind fun _ => (up.transition _ _).when.bind fun _ =>
    (up.quiet fun _ => .session rfl).bind fun _ => up.quiet fun _ => .appendNote rfl

theorem delivered (events : List BusEvent) {w : World} (holds : K w) :
    K (events.foldl (World.deliver .closeBus) w) := by
  induction events generalizing w with
  | nil => exact holds
  | cons e events ih => exact ih (up.aside (.deliver nofun) holds)

theorem cleanup : Preserves M I K RunSession.cleanup := by
  refine (Preserves.read _).bind fun pumps => Preserves.bind (Preserves.when ?_) fun _ => ?_
  · refine Preserves.bind (up.quiet fun w => .listen rfl fun absent => ?_) fun _ =>
      up.wait .stopPumps
    dsimp only
    split
    · rw [absent]
      rfl
    · exact absent
  · refine (Preserves.read _).bind fun closed => Preserves.when ?_
    refine Preserves.bind (Preserves.update fun w holds => ?_) fun _ => up.wait .closeBus
    have emptied : K { w with bus := { w.bus with closed := true, lossless := [] } } :=
      up.aside (.bus rfl) holds
    exact up.aside (.bus rfl) (up.delivered w.bus.lossless emptied)

end Ending
end Upkeep
end IsalesEngine
