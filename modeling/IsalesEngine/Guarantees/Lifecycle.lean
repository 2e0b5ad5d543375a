import IsalesEngine.Engine.Quiet

/-!
How a call that is not cancelled ends: in state END, along a legal path, with a
cause, and with one hangup event that closes the transcript. Legality follows
from the control flow; that nothing is appended after the hangup event follows
because no task beside `main` is left that could.
-/
namespace IsalesEngine
open Asyncio Asyncio.Coro

/-- The session of a call that ended as it should. -/
structure CallSession.Finished (s : CallSession) : Prop where
  state : s.state = .ended
  path : StateMachine.LegalPath .init s.stateHistory s.state
  noWarning : s.warnings = []
  cause : s.hangupCause ≠ none
  hangup : ∃ e, s.hangups = [e] ∧ s.events.getLast? = some e

/-- The session of a call that has not appended its hangup event yet. -/
structure Standing (state : CallStatus) (s : CallSession) : Prop where
  wellFormed : s.WellFormed
  unfinished : s.hangups = []
  state : s.state = state

namespace Standing
variable {state : CallStatus} {s s' : CallSession}

theorem congr (standing : Standing state s) (same : s'.state = s.state)
    (path : s'.stateHistory = s.stateHistory) (hangups : s'.hangups = s.hangups)
    (warnings : s'.warnings = s.warnings) : Standing state s' := by
  obtain ⟨⟨legal, noWarning⟩, unfinished, here⟩ := standing
  refine ⟨⟨?_, warnings.trans noWarning⟩, hangups.trans unfinished, same.trans here⟩
  rw [path, same]
  exact legal

theorem bookkeeping (standing : Standing .inCall s) (kept : SessionKept s s') :
    Standing .inCall s' := by
  obtain ⟨state, path⟩ := kept.state standing.state
  obtain ⟨es, grown, plain⟩ := kept.transcript
  refine standing.congr (state.trans standing.state.symm) path ?_ ?_
  · have none : (es.map Prod.snd).filter (·.isHangup) = [] := by
      simp only [List.filter_eq_nil_iff, List.mem_map]
      rintro _ ⟨e, member, rfl⟩
      simp [(plain e member).1]
    simp [CallSession.hangups, CallSession.events, grown, none]
  · have none : (es.map Prod.snd).filter (·.isStateWarning) = [] := by
      simp only [List.filter_eq_nil_iff, List.mem_map]
      rintro _ ⟨e, member, rfl⟩
      simp [(plain e member).2.2 standing.state]
    simp [CallSession.warnings, CallSession.events, grown, none]

theorem transition (standing : Standing state s) {new : CallStatus}
    (legal : new ∈ StateMachine.legalTransitions state) (now : Nat) (reason : String) :
    Standing new (StateMachine.transitionTo s now new reason) := by
  have legal' : new ∈ StateMachine.legalTransitions s.state := standing.state ▸ legal
  refine ⟨standing.wellFormed.transitionTo legal', ?_, ?_⟩
  · rw [CallSession.transitionTo_legal legal']
    exact standing.unfinished
  · rw [CallSession.transitionTo_legal legal']

theorem append (standing : Standing state s) (now : Nat) (e : TranscriptEvent)
    (hangup : e.isHangup = false) (warning : e.isStateWarning = false) :
    Standing state (s.appendEvent now e) :=
  standing.congr rfl rfl (by simp [hangup]) (by simp [warning])

theorem hangup (standing : Standing .ended s) (cause : s.hangupCause ≠ none) (now : Nat)
    (reason initiatedBy : String) : (s.appendEvent now (.hangup reason initiatedBy)).Finished := by
  obtain ⟨⟨path, noWarning⟩, unfinished, here⟩ := standing
  refine ⟨here, path, ?_, cause, .hangup reason initiatedBy, ?_, ?_⟩
  · simp [noWarning, TranscriptEvent.isStateWarning]
  · simp [unfinished, TranscriptEvent.isHangup]
  · simp

theorem finish (standing : Standing .ended s) (cause : HangupCause) (now : Nat)
    (reason initiatedBy : String) :
    (({ s with hangupCause := some cause } : CallSession).appendEvent now
      (.hangup reason initiatedBy)).Finished := by
  have caused : Standing .ended { s with hangupCause := some cause } :=
    standing.congr rfl rfl rfl rfl
  exact caused.hangup nofun now reason initiatedBy

end Standing

theorem CallSession.Finished.congr {s s' : CallSession} (finished : s.Finished)
    (state : s'.state = s.state) (path : s'.stateHistory = s.stateHistory)
    (transcript : s'.fullTranscript = s.fullTranscript) (cause : s'.hangupCause ≠ none) :
    s'.Finished := by
  have events : s'.events = s.events := congrArg (List.map Prod.snd) transcript
  obtain ⟨ended, legal, noWarning, -, e, one, last⟩ := finished
  refine ⟨state.trans ended, ?_, ?_, cause, e, ?_, events ▸ last⟩
  · rw [path, state]
    exact legal
  · rw [← noWarning, CallSession.warnings, CallSession.warnings, events]
  · rw [← one, CallSession.hangups, CallSession.hangups, events]

theorem legal_ended {state : CallStatus} (live : state ≠ .ended) :
    .ended ∈ StateMachine.legalTransitions state := by
  cases state with
  | ended => exact absurd rfl live
  | init | inCall | transferring => decide

namespace Lifecycle
variable {cfg : RuntimeConfig} {allow : Op → Action sig Move → World → Bool} {state : CallStatus}
  {w : World}

theorem standing_stable (state : CallStatus) :
    (allowing cfg allow).Stable fun w => Standing state w.session := by
  refine Machine.Stable.restrict (Engine.stable_session (Standing state) ?_) allow
  intro op m w w' moved standing
  have owned := Engine.callMove_mainOwned moved
  have kept := (Engine.callMove_transcript moved).kept
  exact standing.congr owned.state owned.stateHistory kept.1 kept.2.1

/-- With nobody else left to write, a finished call stays finished. -/
theorem finished_stable :
    (allowing cfg allow).Stable fun w => w.session.Finished ∧ Still w.session w.pipe w.filler := by
  have still : (allowing cfg allow).Stable
      fun w => Still w.session w.pipe w.filler := Quiet.still_stable
  refine ⟨fun holds moved => ⟨?_, still.move holds.2 moved⟩,
    fun holds replied => ⟨?_, still.reply holds.2 replied⟩⟩
  · obtain called | rfl := Engine.move_cases (Machine.restrict_move_some moved).2
    · have owned := Engine.callMove_mainOwned called
      refine holds.1.congr owned.state owned.stateHistory ?_
        (Engine.callMove_cause called holds.1.cause)
      obtain same | ⟨speaking | processing | piped | filling, -⟩ :=
        Engine.callMove_transcript called
      · exact same
      · exact absurd holds.2.hushed.speaking speaking
      · exact absurd processing (by simp [holds.2.hushed.processing])
      · exact absurd holds.2.pipe piped
      · exact absurd holds.2.silent.playing filling
    · exact holds.1
  · rw [(Engine.reply_frame (Machine.restrict_reply_some replied).2).session]
    exact holds.1

theorem standing_playback (state : CallStatus) :
    PlaybackFrame (allowing cfg allow) anything (fun w => Standing state w.session) := by
  refine ⟨standing_stable state, fun _ _ _ => trivial, ?_⟩
  intro w w' step standing
  rw [step.session]
  exact standing.congr rfl rfl rfl rfl

/-- A call that stands in a state, with nobody else writing to its transcript. -/
def Steady (state : CallStatus) (w : World) : Prop :=
  Standing state w.session ∧ Still w.session w.pipe w.filler

/-- A call that has not ended. -/
def Unended (w : World) : Prop := ∃ state, state ≠ .ended ∧ Steady state w

theorem steady_stable (state : CallStatus) : (allowing cfg allow).Stable (Steady state) :=
  (standing_stable state).and Quiet.still_stable

theorem steady_unended (live : state ≠ .ended) (w : World) (steady : Steady state w) : Unended w :=
  ⟨state, live, steady⟩

section
variable (state)

theorem steady_playTts (site : PlaySite) (text : Text)
    (interruptible : Bool) : Keeps (allowing cfg allow) anything
      (fun _ => True) (Steady state) (playTts site text interruptible) :=
  (((standing_playback state).playTts site text interruptible).and
    (Quiet.playTts_still site text interruptible)).keeps fun _ _ => trivial

theorem steady_waits : Waits (allowing cfg allow) anything (fun _ => True) (Steady state) :=
  .of_stable (steady_stable state) (fun _ _ _ => trivial) fun _ _ => trivial

theorem steady_phone : PhoneFrame (allowing cfg allow) anything (fun _ => True) (Steady state) :=
  ⟨steady_waits state, id⟩

theorem steady_window : WindowFrame (allowing cfg allow) anything (fun _ => True) (Steady state) :=
  ⟨steady_waits state, id, id, id, id⟩

end

theorem finished_cleanup : CleanupFrame (allowing cfg allow) anything
    (fun w => w.session.Finished ∧ Still w.session w.pipe w.filler) := by
  refine ⟨finished_stable, fun _ _ _ => trivial, id, id, ?_⟩
  intro w e holds
  cases e with
  | manualHangupRequested | transferRequested =>
      exact ⟨holds.1.congr rfl rfl rfl nofun, holds.2.congr rfl rfl⟩
  | _ => exact holds

/-- The assertions of a call that ends as it should unless it is cancelled. -/
def verdicts : Verdicts where
  dialing := Steady .init
  dialed := Steady .init
  greeting := Steady .inCall
  live := Steady .inCall
  loose := Steady .inCall
  processing w := Standing .inCall w.session ∧ w.session.currentSpeakingTask = none ∧
    w.pipe = none ∧ w.filler.Silent
  gated := Steady .inCall
  aborting := Steady .inCall
  heard _ := Steady .inCall
  finished w := w.session.Finished ∧ Still w.session w.pipe w.filler
  failed := Unended
  dropped _ := True

theorem processing_stable : (allowing cfg allow).Stable verdicts.processing := by
  have speaking : (allowing cfg allow).Stable
      fun w => w.session.currentSpeakingTask = none := by
    refine Machine.Stable.restrict (Engine.stable_session (·.currentSpeakingTask = none) ?_) allow
    intro op m w w' moved none
    exact (Engine.callMove_mainOwned moved).speaking.trans none
  exact (standing_stable .inCall).and (speaking.and (Quiet.pipe_stable.and Quiet.silent_stable))

theorem steady_bookkeeping {w' : World} (kept : Bookkeeping w w') (steady : Steady .inCall w) :
    Steady .inCall w' := by
  refine ⟨steady.1.bookkeeping kept.session, ?_⟩
  have still := steady.2.congr kept.session.speaking kept.session.processing
  rw [kept.frame]
  exact still

theorem steady_rests : Rests (allowing cfg allow) anything (fun _ => True) (Steady .inCall) :=
  .of (steady_waits .inCall) steady_bookkeeping

theorem processing_rests :
    Rests (allowing cfg allow) anything (fun _ => True) verdicts.processing := by
  refine .of (.of_stable processing_stable (fun _ _ _ => trivial) fun _ _ => trivial) ?_
  intro w w' kept ⟨standing, speaking, idle, silent⟩
  refine ⟨standing.bookkeeping kept.session, kept.session.speaking.trans speaking, ?_, ?_⟩
  · rw [kept.frame]
    exact idle
  · rw [kept.frame]
    exact silent

abbrev Ends (cfg : RuntimeConfig) (allow : Op → Action sig Move → World → Bool) {α : Type}
    (x : Prog α) (K : α → World → Prop) (w : World) : Prop :=
  x.wp ((engine cfg).restrict allow) (fun _ _ => True) (verdicts.post K) w

/-- What a part of the call does that leaves it as it stands. -/
theorem steady_wp {α : Type} {x : Prog α} (steady : Steady state w) (live : state ≠ .ended)
    (kept : Keeps (allowing cfg allow) anything (fun _ => True) (Steady state) x) :
    Ends cfg allow x (fun _ => Steady state) w :=
  kept.last steady (steady_unended live) fun _ _ h => h

/-- Ending the call: state, cause and the hangup event, with nothing in between. -/
theorem finished_of_steady (steady : Steady state w)
    (live : state ≠ .ended) (cause : HangupCause) (why reason initiatedBy : String) :
    verdicts.finished { w with session := (({ (w.transition .ended why).session with
      hangupCause := some cause } : CallSession).appendEvent w.clock
        (.hangup reason initiatedBy)) } :=
  ⟨(steady.1.transition (legal_ended live) w.clock why).finish cause w.clock reason initiatedBy,
    (steady.2.transition .ended why).congr rfl rfl⟩

/-- Ending a call whose cause is known already. -/
theorem finished_of_caused (steady : Steady .inCall w) (caused : w.session.hangupCause ≠ none)
    (why reason initiatedBy : String) :
    verdicts.finished ((w.transition .ended why).append (.hangup reason initiatedBy)) := by
  have ended := steady.1.transition (legal_ended nofun) w.clock why
  have cause : (StateMachine.transitionTo w.session w.clock .ended why).hangupCause ≠ none := by
    simpa using caused
  exact ⟨ended.hangup cause w.clock _ _, (steady.2.transition _ _).congr rfl rfl⟩

section Endings
variable {w : World}

theorem onNoAnswer_wp (steady : Steady .init w) :
    Ends cfg allow RunSession.onNoAnswer (fun _ => verdicts.finished) w :=
  finished_of_steady steady nofun .noAnswer "no_answer" "no_answer" "ai"

section
variable (steady : Steady .inCall w)
include steady

theorem onRemoteHangup_wp : Ends cfg allow TurnLoop.onRemoteHangup verdicts.directed w :=
  finished_of_steady steady nofun .userHangup "user_hangup" "user_hangup" "user"

theorem onSilenceHangup_wp {phrase : Option Text} :
    Ends cfg allow (TurnLoop.onSilenceHangup phrase) verdicts.directed w := by
  refine wp.seq (steady_wp steady nofun (Keeps.when (steady_playTts _ _ _ _))) ?_
  intro _ w₁ steady₁
  exact finished_of_steady steady₁ nofun .silenceMaxReached _ _ "ai"

theorem refereeHangup_wp : Ends cfg allow WrapUpTurn.refereeHangup verdicts.directed w := by
  have caused : Steady .inCall { w with session := { w.session with
      hangupCause := some .refereeHangup } } :=
    ⟨steady.1.congr rfl rfl rfl rfl, steady.2.congr rfl rfl⟩
  exact finished_of_caused caused nofun _ _ "ai"

theorem complete_wp {reason : String} :
    Ends cfg allow (WrapUpTurn.complete cfg reason) verdicts.directed w := by
  refine (steady_rests.pickFrom _ _).seq steady (steady_unended nofun) fun phrase w₁ steady₁ => ?_
  refine wp.seq (steady_wp steady₁ nofun (steady_playTts _ _ _ _)) fun _ w₂ steady₂ => ?_
  have completed : Steady .inCall (w₂.append (.wrapUpCompleted reason)) :=
    ⟨steady₂.1.append _ (.wrapUpCompleted reason) rfl rfl, steady₂.2.congr rfl rfl⟩
  exact finished_of_steady completed nofun .wrapUpCompleted _ _ "ai"

theorem hangupRoute_wp {sel : GatedSelection} {i : Nat} {text : Text} {audio : Option Nat}
    {f : TraceRecord → TraceRecord} :
    Ends cfg allow (GatedTurn.hangupRoute sel (addTrace i text audio f)) verdicts.directed w := by
  refine wp_update_bind.mpr ?_
  have play : Keeps (allowing cfg allow) anything (fun _ => True)
      (fun w => Steady .inCall w ∧ w.session.hangupCause ≠ none)
      (playTts .hangupPhrase (if sel.closingPhrase.getD [] ≠ [] then sel.closingPhrase.getD []
        else (sel.toolConfig.bind ToolConfig.closingPhrase).getD [])) :=
    ((((standing_playback _).playTts _ _ _).and (Quiet.playTts_still _ _ _)).and
      ((caused_playback (Engine.caused_stable.restrict allow)).playTts _ _ _)).keeps
        fun _ _ => trivial
  have caused : Steady .inCall { w with session := { w.session with
      hangupCause := some .refereeHangup } } ∧ some HangupCause.refereeHangup ≠ none :=
    ⟨⟨steady.1.congr rfl rfl rfl rfl, steady.2.congr rfl rfl⟩, nofun⟩
  refine (Keeps.when play).seq caused
    (fun _ h => ⟨.inCall, nofun, h.1⟩) fun _ w₁ holds => ?_
  exact finished_of_caused holds.1 holds.2 _ _ "ai"

theorem performHandoff_wp {type detail : String} {phrase : Text} :
    Ends cfg allow (performHandoff type detail phrase) (fun _ => verdicts.finished) w := by
  refine wp_update_bind.mpr (wp_update_bind.mpr ?_)
  have transferable : CallStatus.transferring ∈ StateMachine.legalTransitions .inCall := by decide
  have initiated : Steady .transferring ((w.transition .transferring
      (if type = "" then "transfer" else type)).append (.transferInitiated type detail)) :=
    ⟨(steady.1.transition transferable _ _).append _ (.transferInitiated type detail) rfl rfl,
      (steady.2.transition _ _).congr rfl rfl⟩
  refine wp.seq (steady_wp initiated nofun (Keeps.when (steady_playTts _ _ _ _))) ?_
  intro _ w₁ steady₁
  refine wp_update_bind.mpr (wp_update_bind.mpr ?_)
  have transferred : Standing .transferring { w₁.session with
      transferStatus := .markedForHandoff, transferReason := some type } :=
    steady₁.1.congr rfl rfl rfl rfl
  have marked : Steady .transferring (({ w₁ with session := { w₁.session with
      transferStatus := .markedForHandoff, transferReason := some type } } : World).append
        .transferMarked) :=
    ⟨transferred.append _ .transferMarked rfl rfl, steady₁.2.congr rfl rfl⟩
  refine wp.seq (steady_wp marked nofun ((steady_phone _).attemptHangup id)) ?_
  intro _ w₂ steady₂
  exact finished_of_steady steady₂ nofun .markedForHandoff _ _ "ai"

end

theorem onException_wp (unended : Unended w) :
    RunSession.onException.wp (allowing cfg allow) anything
      (outcomes (fun _ => True) (fun _ => False) fun _ => verdicts.finished) w := by
  obtain ⟨state, live, standing, still⟩ := unended
  have open' : decide (w.session.state = .ended) = false :=
    decide_eq_false (standing.state.symm ▸ live)
  refine wp_read_bind.mpr ?_
  rw [open']
  refine wp_update_bind.mpr ?_
  exact ⟨(standing.transition (legal_ended live) w.clock _).finish _ _ _ _,
    (still.transition _ _).congr rfl rfl⟩

end Endings

/-- What is asked of `run_session`: nothing unless it returns. -/
def Returned (r : Reply Unit) (w : World) : Prop := ∀ u, r = .ok u → w.session.Finished

theorem listen_wp (steady : Steady .inCall w) :
    Ends cfg allow (awaitUserOrSilence cfg) verdicts.heard w :=
  steady_wp steady nofun ((steady_window .inCall).awaitUserOrSilence cfg)

theorem reply_wp {i : Nat} {filler : Bool} {delay start fuel : Nat} (steady : Steady .inCall w) :
    Ends cfg allow (playStreaming i filler delay start fuel)
      (fun r => verdicts.after verdicts.live r.2) w := by
  have frame : PlaybackFrame (allowing cfg allow) anything
      (fun w => Standing .inCall w.session) := standing_playback .inCall
  refine ((frame.playStreaming i filler delay start fuel w steady.1).and
    (Quiet.playStreaming_still i filler delay start fuel steady.2)).mono ?_
  intro r w' post
  match r with
  | .ok (_, true) | .ok (_, false) => exact post
  | .error .cancelled => trivial
  | .error (.error _) => exact post.2.elim

theorem turnRule : TurnRule cfg (allowing cfg allow) anything verdicts where
  live := steady_rests
  loose := steady_rests
  processing := processing_rests
  aborting := steady_rests
  exhausted _ := trivial
  stuck replied := nomatch (Machine.restrict_reply_some replied).2
  live_failed := steady_unended nofun
  loose_failed := steady_unended nofun
  gated_failed := steady_unended nofun
  aborting_failed := steady_unended nofun
  stopped steady ended := nomatch steady.1.state.symm.trans ended
  listen := listen_wp
  heard steady _ := steady
  spoken := fun {text w} steady =>
    ⟨steady.1.append w.clock (.userSpeech text) rfl rfl, steady.2.congr rfl rfl⟩
  activation steady := steady_wp steady nofun (steady_playTts _ _ _ _)
  capped steady := steady_wp steady nofun (steady_playTts _ _ _ _)
  listenOnly steady := steady_wp steady nofun (steady_playTts _ _ _ _)
  reply := reply_wp
  released steady := steady
  settled steady := ⟨steady.1.congr rfl rfl rfl rfl, steady.2.congr rfl rfl⟩
  turn steady := steady
  wrapUpReply steady := steady
  wrapUpPlayed steady := steady
  wrapUpCut steady := steady
  round steady := ⟨steady.1.congr rfl rfl rfl rfl, steady.2.congr rfl rfl⟩
  forget steady := ⟨steady.1.congr rfl rfl rfl rfl, steady.2.congr rfl rfl⟩
  closing steady := ⟨steady.1.congr rfl rfl rfl rfl, steady.2.congr rfl rfl⟩
  enterGate steady := ⟨steady.1.congr rfl rfl rfl rfl, steady.2.hushed.speaking, steady.2.pipe,
    steady.2.silent⟩
  gate := processing_rests.wait .gate rfl
  leaveGate := fun ⟨standing, speaking, idle, silent⟩ =>
    ⟨standing.congr rfl rfl rfl rfl, ⟨speaking, rfl⟩, idle, silent⟩
  dropGate _ := trivial
  unsignaled steady _ := steady
  signaled steady _ := steady
  aborted steady := ⟨steady.1.congr rfl rfl rfl rfl, steady.2.congr rfl rfl⟩
  handoff steady := performHandoff_wp steady
  hangupRoute steady := hangupRoute_wp steady
  complete steady := complete_wp steady
  refereeHangup := refereeHangup_wp
  remoteHangup := onRemoteHangup_wp
  silenceHangup steady := onSilenceHangup_wp steady

theorem callRule : CallRule cfg (allowing cfg allow) anything verdicts Returned where
  toLoopRule := turnRule.loop
  begin steady := ⟨steady.1.congr rfl rfl rfl rfl, steady.2.congr rfl rfl⟩
  announce steady := by
    refine wp_wait.mpr ⟨trivial, fun w₁ w₂ r steps replied => ?_⟩
    cases r with
    | ok _ => exact (steady_stable .init).reply ((steady_stable .init).steps steps steady) replied
    | error e => exact nofun
  dispatching steady := steady
  dial steady := steady_wp steady nofun (steady_phone .init).dialAndWaitConnected
  noAnswer := onNoAnswer_wp
  connected steady := ⟨steady.1.transition (by decide) _ _, steady.2.transition _ _⟩
  greeting := steady_rests
  greeting_failed := steady_unended nofun
  ambient steady := steady
  pumps steady := steady
  greet steady := steady_wp steady nofun (steady_playTts _ _ _ _)
  monitored steady := ⟨steady.1.congr rfl rfl rfl rfl, steady.2.congr rfl rfl⟩
  attached steady := steady
  exception := onException_wp
  cleanupFinished finished := by
    refine (finished_cleanup.cleanup _ finished).mono fun r w' kept => ?_
    cases r with
    | ok _ => exact fun _ _ => kept.1
    | error e => exact nofun
  cleanupDropped _ := by
    refine (wp_true _ _).mono fun r w' _ => ?_
    cases r with
    | ok _ | error e => exact nofun

theorem steady_of_fresh (fresh : w.Fresh) : Steady .init w := by
  obtain ⟨session, -, -, -, -, -, idle, silent, -, -⟩ := fresh
  refine ⟨?_, ?_⟩
  · rw [session]
    exact ⟨⟨rfl, rfl⟩, rfl, rfl⟩
  · rw [session, idle, silent]
    exact ⟨⟨rfl, rfl⟩, rfl, rfl, nofun⟩

end Lifecycle

namespace Guarantees

/-- Every run of `run_session` that returns leaves a call that ended as it should, whatever the
providers, the telephony and the other tasks did. -/
theorem returned_call_finished (cfg : RuntimeConfig) (fuel : Nat) (w : World)
    (acts : List (Action sig Move)) (c : Susp sig World Unit) (fresh : w.Fresh)
    (run : (engine cfg).exec (runSession cfg fuel w) acts = some c)
    (returned : c.result? = some (.ok ())) : c.state.session.Finished := by
  have rule : CallRule cfg ((engine cfg).restrict fun _ _ _ => true) (fun _ _ => True)
      Lifecycle.verdicts Lifecycle.Returned := Lifecycle.callRule
  rw [Machine.restrict_true] at rule
  exact (rule.runSession_wp (Lifecycle.steady_of_fresh fresh)).result run returned () rfl

/-- The callee hangs up after the greeting. -/
def hungUpRun : List (Action sig Move) :=
  RunSession.listeningRun .other ++ RunSession.hangupRun .other ++ RunSession.cleanupRun

theorem hung_up_call_finished :
    ∃ c, (engine .minimal).exec (runSession .minimal 2 (World.initial 1 .other)) hungUpRun =
      some c ∧ c.state.session.hangupCause = some .userHangup ∧ c.state.session.Finished := by
  refine exists_of_map (fun c => (c.result?, c.state.session.hangupCause))
    (some (.ok ()), some .userHangup) (by decide) fun c run facts => ?_
  obtain ⟨result, cause⟩ := Prod.mk.inj facts
  exact ⟨cause, returned_call_finished .minimal 2 (World.initial 1 .other) hungUpRun c
    (World.initial_fresh 1 .other) run result⟩

end Guarantees
end IsalesEngine
