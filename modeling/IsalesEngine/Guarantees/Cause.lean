import IsalesEngine.Engine.Frames

/-!
Which cause a finished call reports. The run loop records a cause together with
the hangup event, but the control bridge goes on listening while `main` unwinds
and overwrites it. The finalizer reads the field at its first step, so the
report is the recorded cause unless a control event came in between.
-/
namespace IsalesEngine
open Asyncio Asyncio.Coro

/-- The marks that settle which cause is reported. -/
def Mark.decides : Mark → Bool
  | .recorded _ | .finalizing => true
  | _ => false

/-- No hangup event was appended and no finalizer has started. -/
def Undecided (h : List Mark) : Prop := ∀ m ∈ h, m.decides = false

/-- One hangup event was appended, and `cause` is what the session says now. -/
def Decided (cause : Option HangupCause) (h : List Mark) : Prop :=
  ∃ first since before, h = since ++ .recorded (some first) :: before ∧ Undecided since ∧
    Undecided before ∧ cause = some (if .terminate ∈ since then .manualHangup else first)

/-- What a section without a finalizer can do to the cause and the history. -/
inductive CauseStep (cause : Option HangupCause) (h : List Mark) :
    Option HangupCause → List Mark → Prop
  | marks (ms : List Mark) (undecided : Undecided ms) (other : .terminate ∉ ms) :
      CauseStep cause h cause (ms ++ h)
  | terminated : CauseStep cause h (some .manualHangup) (.cancel :: .terminate :: h)

variable {c c' : Option HangupCause} {h h' : List Mark}

theorem Undecided.nil : Undecided [] := nofun

theorem Undecided.cons (undecided : Undecided h) {m : Mark} (plain : m.decides = false) :
    Undecided (m :: h) := List.forall_mem_cons.mpr ⟨plain, undecided⟩

theorem CauseStep.same (cause : Option HangupCause) (h : List Mark) : CauseStep cause h cause h :=
  .marks [] .nil nofun

theorem CauseStep.mark (cause : Option HangupCause) (h : List Mark) (m : Mark)
    (undecided : m.decides = false) (other : m ≠ .terminate) : CauseStep cause h cause (m :: h) :=
  .marks [m] (Undecided.nil.cons undecided) (by simpa using other.symm)

theorem Undecided.step (undecided : Undecided h) (step : CauseStep c h c' h') : Undecided h' := by
  cases step with
  | marks ms plain _ => exact List.forall_mem_append.mpr ⟨plain, undecided⟩
  | terminated => exact (undecided.cons rfl).cons rfl

theorem Decided.step (decided : Decided c h) (step : CauseStep c h c' h') : Decided c' h' := by
  obtain ⟨first, since, before, rfl, quiet, earlier, cause⟩ := decided
  cases step with
  | marks ms plain other =>
      refine ⟨first, ms ++ since, before, (List.append_assoc _ _ _).symm,
        List.forall_mem_append.mpr ⟨plain, quiet⟩, earlier, ?_⟩
      simpa [other] using cause
  | terminated =>
      exact ⟨first, .cancel :: .terminate :: since, before, rfl, (quiet.cons rfl).cons rfl, earlier,
        by simp⟩

theorem Decided.recorded (undecided : Undecided h) (cause : HangupCause) :
    Decided (some cause) (.recorded (some cause) :: h) :=
  ⟨cause, [], h, rfl, nofun, undecided, by simp⟩

theorem Decided.caused (decided : Decided c h) : ∃ cause, c = some cause := by
  obtain ⟨_, _, _, _, _, _, same⟩ := decided
  exact ⟨_, same⟩

namespace Cause
variable {cfg : RuntimeConfig} {state : CallStatus} {w w' : World}

/-- Every section of another task is a step of the finalizer or leaves its record alone. -/
theorem move_step {op : Op} {m : Move} (moved : (engine cfg).move op m w = some w') :
    (∃ extract ok, w.finalizeStep extract ok = some w') ∨ w'.finalize = w.finalize ∧
        CauseStep w.session.hangupCause w.history w'.session.hangupCause w'.history := by
  obtain called | rfl := Engine.move_cases moved
  · obtain ⟨extract, ok, -, stepped⟩ | ⟨finalize, ⟨cause, marks⟩ | ⟨cause, marks⟩⟩ :=
      Engine.callMove_control called
    · exact .inl ⟨extract, ok, stepped⟩
    · refine .inr ⟨finalize, ?_⟩
      rw [cause]
      obtain same | same | ⟨_, same⟩ | ⟨b, r, same⟩ | ⟨_, same⟩ | ⟨_, same⟩ := marks
      · exact same ▸ .same _ _
      · exact same ▸ .mark _ _ _ rfl nofun
      · exact same ▸ .mark _ _ _ rfl nofun
      · exact same ▸ .marks [.trigger b, .evaluated r] ((Undecided.nil.cons rfl).cons rfl) nofun
      · exact same ▸ .mark _ _ _ rfl nofun
      · exact same ▸ .mark _ _ _ rfl nofun
    · refine .inr ⟨finalize, ?_⟩
      rw [cause, marks]
      exact .terminated
  · exact .inr ⟨rfl, .mark _ _ .cancel rfl nofun⟩

theorem reply_step {op : Op} {r : Reply op.Res} (replied : (engine cfg).reply op r w = some w') :
    w'.finalize = w.finalize ∧
      CauseStep w.session.hangupCause w.history w'.session.hangupCause w'.history := by
  have frame := Engine.reply_frame replied
  refine ⟨frame.finalize, ?_⟩
  rw [frame.session]
  exact frame.noted (.same _ _) (.mark _ _ _ rfl nofun) (.mark _ _ _ rfl nofun)
    (.mark _ _ _ rfl nofun)

/-- Before there is a finalizer, what cause steps keep is stable. -/
theorem idle_stable {J : Option HangupCause → List Mark → Prop}
    (closed : ∀ {c h c' h'}, CauseStep c h c' h' → J c h → J c' h') :
    (engine cfg).Stable fun w => w.finalize = {} ∧ J w.session.hangupCause w.history where
  move := by
    intro op m w w' holds moved
    obtain ⟨extract, ok, stepped⟩ | ⟨finalize, step⟩ := move_step moved
    · simp [World.finalizeStep, holds.1] at stepped
    · exact ⟨finalize.trans holds.1, closed step holds.2⟩
  reply := by
    intro op r w w' holds replied
    obtain ⟨finalize, step⟩ := reply_step replied
    exact ⟨finalize.trans holds.1, closed step holds.2⟩

/-- A call in a given state whose cause is still open. -/
def Talking (state : CallStatus) (w : World) : Prop :=
  w.session.state = state ∧ w.finalize = {} ∧ Undecided w.history

/-- A call whose cause was recorded. -/
def HungUp (w : World) : Prop := w.finalize = {} ∧ Decided w.session.hangupCause w.history

/-- A call that has no finalizer yet. -/
def Unreported (w : World) : Prop :=
  w.finalize = {} ∧ (Undecided w.history ∨ Decided w.session.hangupCause w.history)

theorem talking_stable (state : CallStatus) : (engine cfg).Stable (Talking state) := by
  refine Machine.Stable.and ?_ (idle_stable fun step holds => Undecided.step holds step)
  apply Engine.stable_session (·.state = state)
  intro op m w w' moved here
  exact (Engine.callMove_mainOwned moved).state.trans here

theorem hungUp_stable : (engine cfg).Stable HungUp := idle_stable fun step holds => holds.step step

theorem unreported_stable : (engine cfg).Stable Unreported :=
  idle_stable (J := fun c h => Undecided h ∨ Decided c h) fun step holds =>
    holds.imp (·.step step) (·.step step)

theorem talking_unreported (w : World) (talking : Talking state w) : Unreported w :=
  ⟨talking.2.1, .inl talking.2.2⟩

theorem hungUp_unreported (hungUp : HungUp w) : Unreported w := ⟨hungUp.1, .inr hungUp.2⟩

theorem talking_note (talking : Talking state w) {m : Mark} (plain : m.decides = false) :
    Talking state (w.note m) := ⟨talking.1, talking.2.1, talking.2.2.cons plain⟩

section
variable (state)

theorem talking_playback : PlaybackFrame (engine cfg) anything (Talking state) := by
  refine ⟨talking_stable state, fun _ _ _ => trivial, ?_⟩
  intro w w' step ⟨here, idle, undecided⟩
  refine ⟨?_, ?_, ?_⟩
  · rw [step.session]
    exact here
  · rw [step.frame]
    exact idle
  · obtain same | ⟨m, own, same⟩ := step.history
    · rw [same]
      exact undecided
    · rw [same]
      refine undecided.cons ?_
      cases m <;> first | rfl | cases own

theorem talking_waits : Waits (engine cfg) anything Unreported (Talking state) :=
  .of_stable (talking_stable state) (fun _ _ _ => trivial) talking_unreported

theorem talking_window : WindowFrame (engine cfg) anything Unreported (Talking state) :=
  ⟨talking_waits state, fun h => talking_note h rfl, fun h => talking_note h rfl, id, id⟩

theorem talking_phone : PhoneFrame (engine cfg) anything Unreported (Talking state) :=
  ⟨talking_waits state, id⟩

theorem talking_playTts (site : PlaySite) (text : Text) (interruptible : Bool) :
    Keeps (engine cfg) anything Unreported (Talking state) (playTts site text interruptible) :=
  ((talking_playback state).playTts site text interruptible).keeps talking_unreported

end

/-- Inline delivery by `main` itself, while it closes the bus. -/
theorem deliver_step (w : World) (e : BusEvent) : (w.deliver .closeBus e).finalize = w.finalize ∧
      CauseStep w.session.hangupCause w.history (w.deliver .closeBus e).session.hangupCause
        (w.deliver .closeBus e).history := by
  cases e with
  | manualHangupRequested | transferRequested => exact ⟨rfl, .terminated⟩
  | _ => exact ⟨rfl, .same _ _⟩

theorem hungUp_cleanup : CleanupFrame (engine cfg) anything HungUp :=
  ⟨hungUp_stable, fun _ _ _ => trivial, id, id, fun hungUp =>
    ⟨(deliver_step _ _).1.trans hungUp.1, hungUp.2.step (deliver_step _ _).2⟩⟩

theorem unreported_cleanup : CleanupFrame (engine cfg) anything Unreported :=
  ⟨unreported_stable, fun _ _ _ => trivial, id, id, fun unreported =>
    ⟨(deliver_step _ _).1.trans unreported.1, unreported.2.imp (·.step (deliver_step _ _).2)
      (·.step (deliver_step _ _).2)⟩⟩

/-- The assertions of a call whose cause is recorded once, when it ends. -/
def verdicts : Verdicts where
  dialing := Talking .init
  dialed := Talking .init
  greeting := Talking .inCall
  live := Talking .inCall
  loose := Talking .inCall
  processing := Talking .inCall
  gated := Talking .inCall
  aborting := Talking .inCall
  heard _ := Talking .inCall
  finished := HungUp
  failed w := ∃ state, Talking state w
  dropped := Unreported

theorem talking_rests : Rests (engine cfg) anything Unreported (Talking .inCall) := by
  refine .of (talking_waits .inCall) ?_
  intro w w' kept ⟨here, idle, undecided⟩
  refine ⟨(kept.session.state here).1, ?_, ?_⟩
  · rw [kept.frame]
    exact idle
  · rw [kept.frame]
    exact undecided

theorem talking_failed (w : World) (talking : Talking state w) : verdicts.failed w :=
  ⟨state, talking⟩

theorem talking_wp {α : Type} {x : Prog α} (talking : Talking state w)
    (kept : Keeps (engine cfg) anything Unreported (Talking state) x) :
    x.wp (engine cfg) anything (verdicts.post fun _ => Talking state) w :=
  kept.last talking talking_failed fun _ _ h => h

section Endings

/-- The cause and the hangup event are written in one section. -/
theorem hungUp_of (talking : Talking state w) (cause : HangupCause) :
    w.finalize = {} ∧ Decided (some cause) (.recorded (some cause) :: w.history) :=
  ⟨talking.2.1, .recorded talking.2.2 cause⟩

/-- The cause was written earlier, and is recorded as it stands now. -/
theorem hungUp_of_caused (talking : Talking state w)
    (caused : w.session.hangupCause ≠ none) (why : String) :
    w.finalize = {} ∧ Decided (w.transition .ended why).session.hangupCause
      (.recorded (w.transition .ended why).session.hangupCause :: w.history) := by
  obtain ⟨cause, same⟩ := Option.ne_none_iff_exists'.mp caused
  simp only [World.transition, CallSession.hangupCause_transitionTo, same]
  exact hungUp_of talking cause

theorem onSilenceHangup_wp {phrase : Option Text} (talking : Talking .inCall w) :
    (TurnLoop.onSilenceHangup phrase).wp (engine cfg) anything verdicts.round w := by
  refine wp.seq (talking_wp talking (Keeps.when (talking_playTts _ _ _ _))) ?_
  intro _ w₁ talking₁
  exact hungUp_of talking₁ .silenceMaxReached

theorem complete_wp {reason : String} (talking : Talking .inCall w) :
    (WrapUpTurn.complete cfg reason).wp (engine cfg) anything verdicts.round w := by
  refine (talking_rests.pickFrom _ _).seq talking talking_failed fun phrase w₁ talking₁ => ?_
  refine wp.seq (talking_wp talking₁ (talking_playTts _ _ _ _)) ?_
  intro _ w₂ talking₂
  exact hungUp_of talking₂ .wrapUpCompleted

/-- The cause of a referee's hangup is set before the closing phrase, so it is recorded as a
control event during the phrase has left it. -/
theorem hangupRoute_wp {sel : GatedSelection} {i : Nat} {text : Text} {audio : Option Nat}
    {f : TraceRecord → TraceRecord} (talking : Talking .inCall w) :
    (GatedTurn.hangupRoute sel (addTrace i text audio f)).wp (engine cfg) anything
      verdicts.round w := by
  refine wp_update_bind.mpr ?_
  have play : Keeps (engine cfg) anything Unreported
      (fun w => Talking .inCall w ∧ w.session.hangupCause ≠ none)
      (playTts .hangupPhrase (if sel.closingPhrase.getD [] ≠ [] then sel.closingPhrase.getD []
        else (sel.toolConfig.bind ToolConfig.closingPhrase).getD [])) :=
    (((talking_playback _).playTts _ _ _).and
      ((caused_playback Engine.caused_stable).playTts _ _ _)).keeps
        fun w h => talking_unreported w h.1
  refine (Keeps.when play).seq ⟨talking, nofun⟩ (fun w h => talking_failed w h.1) ?_
  intro _ w₁ holds
  exact hungUp_of_caused holds.1 holds.2 "referee_hangup"

theorem performHandoff_wp {type detail : String} {phrase : Text} (talking : Talking .inCall w) :
    (performHandoff type detail phrase).wp (engine cfg) anything
      (verdicts.post fun _ => verdicts.finished) w := by
  refine wp_update_bind.mpr (wp_update_bind.mpr ?_)
  have initiated : Talking .transferring ((w.transition .transferring
      (if type = "" then "transfer" else type)).append (.transferInitiated type detail)) :=
    ⟨CallSession.state_transitionTo _ _ _ _, talking.2⟩
  refine wp.seq (talking_wp initiated (Keeps.when (talking_playTts _ _ _ _))) ?_
  intro _ w₁ talking₁
  refine wp_update_bind.mpr (wp_update_bind.mpr ?_)
  have marked : Talking .transferring (({ w₁ with session := { w₁.session with
      transferStatus := .markedForHandoff, transferReason := some type } } : World).append
        .transferMarked) := talking₁
  refine wp.seq (talking_wp marked ((talking_phone _).attemptHangup fun h =>
    talking_note h rfl)) ?_
  intro _ w₂ talking₂
  exact hungUp_of talking₂ .markedForHandoff

theorem onException_wp (failed : ∃ state, Talking state w) :
    RunSession.onException.wp (engine cfg) anything
      (outcomes Unreported (fun _ => False) fun _ => HungUp) w := by
  obtain ⟨state, talking⟩ := failed
  refine wp_read_bind.mpr (wp.seq (L := fun _ => fun w => ∃ state, Talking state w) ?_ ?_)
  · refine (wp_when _ _).mpr ?_
    split
    · exact ⟨.ended, CallSession.state_transitionTo _ _ _ _, talking.2⟩
    · exact ⟨state, talking⟩
  · intro _ w₁ ⟨_, talking₁⟩
    exact hungUp_of talking₁ _

end Endings

theorem turnRule : TurnRule cfg (engine cfg) anything verdicts where
  live := talking_rests
  loose := talking_rests
  processing := talking_rests
  aborting := talking_rests
  exhausted _ := trivial
  stuck replied := nomatch replied
  live_failed := talking_failed
  loose_failed := talking_failed
  gated_failed := talking_failed
  aborting_failed := talking_failed
  stopped talking ended := nomatch talking.1.symm.trans ended
  listen talking := talking_wp talking ((talking_window _).awaitUserOrSilence cfg)
  heard talking _ := talking
  spoken talking := talking
  activation talking := talking_wp talking (talking_playTts _ _ _ _)
  capped talking := talking_wp talking (talking_playTts _ _ _ _)
  listenOnly talking := talking_wp talking (talking_playTts _ _ _ _)
  reply := by
    intro i filler delay start fuel w talking
    refine (talking_wp talking (((talking_playback _).playStreaming i filler delay start
      fuel).keeps talking_unreported)).imp ?_
    intro r w' kept
    unfold Verdicts.after
    split
    · exact kept
    · exact kept
  released talking := talking_note talking rfl
  settled talking := talking
  turn talking := talking_note talking rfl
  wrapUpReply talking := talking_note talking rfl
  wrapUpPlayed talking := talking_note talking rfl
  wrapUpCut talking := talking_note talking rfl
  round talking := talking
  forget talking := talking
  closing talking := talking
  enterGate talking := talking_note talking rfl
  gate := talking_rests.wait .gate rfl
  leaveGate talking := talking
  dropGate unreported := unreported
  unsignaled talking _ := talking
  signaled talking _ := talking
  aborted talking := talking_note talking rfl
  handoff := performHandoff_wp
  hangupRoute := hangupRoute_wp
  complete := complete_wp
  refereeHangup := fun {w} talking => by
    have caused : Talking .inCall { w with session := { w.session with
        hangupCause := some .refereeHangup } } := talking
    exact hungUp_of_caused caused nofun "wrap_up_referee_hangup"
  remoteHangup talking := hungUp_of talking .userHangup
  silenceHangup := onSilenceHangup_wp

theorem callRule : CallRule cfg (engine cfg) anything verdicts (fun _ => Unreported) where
  toLoopRule := turnRule.loop
  begin talking := talking
  announce talking := by
    refine wp_wait.mpr ⟨trivial, fun w₁ w₂ r steps replied => ?_⟩
    have talking₂ := (talking_stable .init).reply ((talking_stable .init).steps steps talking)
      replied
    cases r with
    | ok _ => exact talking₂
    | error e => exact talking_unreported w₂ talking₂
  dispatching talking := talking
  dial talking := talking_wp talking (talking_phone .init).dialAndWaitConnected
  noAnswer talking := hungUp_of talking .noAnswer
  connected talking := ⟨CallSession.state_transitionTo _ _ _ _, talking.2⟩
  greeting := talking_rests
  greeting_failed := talking_failed
  ambient talking := talking
  pumps talking := talking
  greet talking := talking_wp talking (talking_playTts _ _ _ _)
  monitored talking := talking_note talking rfl
  attached talking := talking
  exception := onException_wp
  cleanupFinished hungUp := by
    refine (hungUp_cleanup.cleanup _ hungUp).mono fun r w' kept => ?_
    cases r with
    | ok _ | error e => exact hungUp_unreported kept
  cleanupDropped unreported := by
    refine (unreported_cleanup.cleanup _ unreported).mono fun r w' kept => ?_
    cases r with
    | ok _ | error e => exact kept

/-- The finalizer has read the cause at its first step; what it pushed is what it read. -/
structure Reported (f : Finalize) (h : List Mark) : Prop where
  started : f.stage ≠ .notCreated ∧ f.stage ≠ .created
  pushed : ∀ d ∈ f.callEnded, f.cause = some d
  marks : ∃ later earlier, h = later ++ .finalizing :: earlier ∧ Undecided later ∧
    (Undecided earlier ∨ Decided f.cause earlier)

/-- A call on its way to its report: without a finalizer, with one that has not taken its first
step, or with one that has. -/
inductive Reporting (w : World) : Prop
  | unreported (unreported : Unreported w)
  | created (stage : w.finalize = { stage := .created })
      (marks : Undecided w.history ∨ Decided w.session.hangupCause w.history)
  | reported (reported : Reported w.finalize w.history)

theorem CauseStep.undecided (step : CauseStep c h c' h') :
    ∃ new, Undecided new ∧ h' = new ++ h := by
  cases step with
  | marks ms plain _ => exact ⟨ms, plain, rfl⟩
  | terminated =>
      exact ⟨[.cancel, .terminate], (Undecided.nil.cons rfl).cons rfl, rfl⟩

theorem Reported.step {f : Finalize} (reported : Reported f h) (step : CauseStep c h c' h') :
    Reported f h' := by
  obtain ⟨started, pushed, later, earlier, rfl, quiet, marks⟩ := reported
  obtain ⟨new, plain, rfl⟩ := CauseStep.undecided step
  refine ⟨started, pushed, new ++ later, earlier, by simp, ?_, marks⟩
  exact List.forall_mem_append.mpr ⟨plain, quiet⟩

/-- The first step of the finalizer. -/
theorem finalizeStep_created {extract ok : Bool} (stage : w.finalize = { stage := .created })
    (marks : Undecided w.history ∨ Decided w.session.hangupCause w.history)
    (stepped : w.finalizeStep extract ok = some w') : Reported w'.finalize w'.history := by
  simp only [World.finalizeStep, stage, Option.some.injEq] at stepped
  subst stepped
  refine ⟨⟨nofun, nofun⟩, nofun, [], w.history, rfl, nofun, marks.imp_right fun decided => ?_⟩
  obtain ⟨cause, caused⟩ := decided.caused
  simpa [caused] using decided

/-- Its later steps. -/
theorem finalizeStep_reported {extract ok : Bool} (reported : Reported w.finalize w.history)
    (stepped : w.finalizeStep extract ok = some w') : Reported w'.finalize w'.history := by
  obtain ⟨started, pushed, marks⟩ := reported
  unfold World.finalizeStep at stepped
  cases stage : w.finalize.stage with
  | notCreated => exact absurd stage started.1
  | created => exact absurd stage started.2
  | finished => simp [stage] at stepped
  | pushing =>
      simp only [stage] at stepped
      obtain rfl := Option.some.inj stepped
      refine ⟨⟨nofun, nofun⟩, ?_, marks⟩
      intro d member
      cases ok with
      | false => exact pushed d member
      | true =>
          obtain old | new := List.mem_append.mp member
          · exact pushed d old
          · exact Option.mem_toList.mp new
  | persisting =>
      simp only [stage] at stepped
      obtain rfl := Option.some.inj stepped
      refine ⟨?_, pushed, marks⟩
      dsimp only
      split <;> exact ⟨nofun, nofun⟩
  | extracting | decrementing =>
      simp only [stage] at stepped
      obtain rfl := Option.some.inj stepped
      exact ⟨⟨nofun, nofun⟩, pushed, marks⟩

theorem reporting_stable : (engine cfg).Stable Reporting where
  move := by
    intro op m w w' reporting moved
    cases reporting with
    | unreported unreported => exact .unreported (unreported_stable.move unreported moved)
    | created stage marks =>
        obtain ⟨extract, ok, stepped⟩ | ⟨finalize, step⟩ := move_step moved
        · exact .reported (finalizeStep_created stage marks stepped)
        · exact .created (finalize.trans stage) (marks.imp (·.step step) (·.step step))
    | reported reported =>
        obtain ⟨extract, ok, stepped⟩ | ⟨finalize, step⟩ := move_step moved
        · exact .reported (finalizeStep_reported reported stepped)
        · refine .reported ?_
          rw [finalize]
          exact reported.step step
  reply := by
    intro op r w w' reporting replied
    obtain ⟨finalize, step⟩ := reply_step replied
    cases reporting with
    | unreported unreported => exact .unreported (unreported_stable.reply unreported replied)
    | created stage marks =>
        exact .created (finalize.trans stage) (marks.imp (·.step step) (·.step step))
    | reported reported =>
        refine .reported ?_
        rw [finalize]
        exact reported.step step

section Task
variable {fuel : Nat}

theorem defaultRunner_wp (talking : Talking .init w) :
    (CallTask.defaultRunner cfg fuel).wp (engine cfg) anything (fun _ => Unreported) w := by
  have wait : ∀ op, Preserves (engine cfg) anything Unreported (await op) :=
    Preserves.wait unreported_stable fun _ _ _ => trivial
  refine wp.bind (Preserves.wait (talking_stable .init) (fun _ _ _ => trivial) .loadConfig w
    talking) ?_ (fun _ w₁ talking₁ => talking_unreported w₁ talking₁)
  intro _ w₁ talking₁
  refine (callRule.runSession_wp talking₁).andFinally fun r w₂ unreported => ?_
  refine ((wait .closeTts).suppress.bind (fun _ => wait .closeLlms) w₂ unreported).mono ?_
  intro r' w₃ kept
  cases r' with
  | ok _ | error e => exact kept

/-- A default cause changes nothing once a cause was recorded. -/
theorem unreported_defaultCause (unreported : Unreported w) (cause : HangupCause) :
    Unreported { w with session := { w.session with
      hangupCause := some (w.session.hangupCause.getD cause) } } := by
  refine ⟨unreported.1, unreported.2.imp_right fun decided => ?_⟩
  obtain ⟨recorded, same⟩ := decided.caused
  simpa [same] using decided

theorem guardedRunner_wp (talking : Talking .init w) :
    (CallTask.guardedRunner (CallTask.defaultRunner cfg fuel)).wp (engine cfg) anything
      (fun _ => Unreported) w := by
  refine (wp_exceptError _ _).mpr ((wp_exceptCancelled _ _).mpr ((wp_bind _ _).mpr ?_))
  refine (defaultRunner_wp talking).mono fun r w' unreported => ?_
  match r with
  | .ok _ => exact unreported
  | .error .cancelled | .error (.error e) => exact unreported_defaultCause unreported _

theorem shieldedFinalize_wp (unreported : Unreported w) :
    CallTask.shieldedFinalize.wp (engine cfg) anything (fun _ => Reporting) w := by
  refine wp_update_bind.mpr ?_
  refine Preserves.wait reporting_stable (fun _ _ _ => trivial) .finalizeSession _ ?_
  exact .created (by rw [unreported.1]) unreported.2

theorem callTask_wp (talking : Talking .init w) :
    (CallTask.callTask (CallTask.defaultRunner cfg fuel)).wp (engine cfg) anything
      (fun _ => Reporting) w := by
  refine wp.bind (Preserves.wait (talking_stable .init) (fun _ _ _ => trivial) .firstStep w
    talking) ?_ (fun _ w₁ talking₁ => .unreported (talking_unreported w₁ talking₁))
  intro _ w₁ talking₁
  refine (guardedRunner_wp talking₁).bind ?_ (fun _ _ unreported => .unreported unreported)
  intro cancelled w₂ unreported
  refine wp.bind ((shieldedFinalize_wp unreported).exceptError (Q := fun _ => Reporting)
    (fun _ _ h => h) (fun _ h => h) (fun _ _ h => h)) ?_ (fun _ _ h => h)
  intro _ w₃ reporting
  cases cancelled with
  | true | false => exact reporting

theorem settled_wp (talking : Talking .init w) :
    (CallTask.settled (CallTask.callTask (CallTask.defaultRunner cfg fuel))).wp (engine cfg)
      anything (fun _ => Reporting) w := by
  refine wp_andThen.mpr ((callTask_wp talking).mono fun r w₁ reporting => ?_)
  refine Preserves.bind (Preserves.wait reporting_stable (fun _ _ _ => trivial) .mainDone)
    (fun _ => ?_) w₁ reporting
  exact fun _ h => h

end Task

theorem talking_of_fresh (fresh : w.Fresh) : Talking .init w :=
  ⟨by rw [fresh.session], fresh.finalize, by rw [fresh.history]; exact .nil⟩

/-- The history between the hangup event and the first step of the finalizer. -/
def unwinding (h : List Mark) : List Mark :=
  (h.dropWhile fun m => m ≠ .finalizing).tail.takeWhile fun m => !m.decides

theorem unwinding_eq {later since before : List Mark} {cause : Option HangupCause}
    (quiet : Undecided later) (between : Undecided since) :
    unwinding (later ++ .finalizing :: (since ++ .recorded cause :: before)) = since := by
  have dropped : ∀ m ∈ later, decide (m ≠ .finalizing) = true := by
    intro m member
    refine decide_eq_true fun same => ?_
    have undecided := quiet m member
    rw [same] at undecided
    cases undecided
  unfold unwinding
  rw [List.dropWhile_append_of_pos dropped]
  simp only [ne_eq, not_true_eq_false, decide_false, List.dropWhile_cons, Bool.false_eq_true,
    if_false, List.tail_cons]
  rw [List.takeWhile_append_of_pos fun m member => by simp [between m member]]
  simp [Mark.decides]

end Cause

namespace Guarantees

/-- For a call whose tasks have all ended: the cause that `CallEnded` carries is the one recorded
with the hangup event if and only if no control event was handled between that event and the
first step of the finalizer, or the recorded cause was a manual hangup anyway. -/
theorem reported_cause_iff (cfg : RuntimeConfig) (fuel : Nat) (w : World)
    (acts : List (Action sig Move)) (c : Susp sig World Unit) (cause : Option HangupCause)
    (reported : HangupCause) (fresh : w.Fresh)
    (run : (engine cfg).exec
      (CallTask.settled (CallTask.callTask (CallTask.defaultRunner cfg fuel)) w) acts = some c)
    (ended : ∃ r, c.result? = some r) (recorded : .recorded cause ∈ c.state.history)
    (pushed : reported ∈ c.state.finalize.callEnded) :
    some reported = cause ↔
      cause = some .manualHangup ∨ .terminate ∉ Cause.unwinding c.state.history := by
  obtain ⟨r, result⟩ := ended
  have reporting := (Cause.settled_wp (Cause.talking_of_fresh fresh)).result run result
  cases reporting with
  | unreported unreported => simp [unreported.1] at pushed
  | created stage _ => simp [stage] at pushed
  | reported facts =>
      obtain ⟨-, own, later, earlier, marks, quiet, open' | decided⟩ := facts
      · rw [marks, List.mem_append, List.mem_cons] at recorded
        obtain inLater | same | inEarlier := recorded
        · cases quiet _ inLater
        · cases same
        · cases open' _ inEarlier
      · obtain ⟨first, since, before, rfl, between, older, final⟩ := decided
        have same : cause = some first := by
          rw [marks, List.mem_append, List.mem_cons, List.mem_append, List.mem_cons] at recorded
          obtain inLater | same | inSince | same | inBefore := recorded
          · cases quiet _ inLater
          · cases same
          · cases between _ inSince
          · exact Mark.recorded.inj same
          · cases older _ inBefore
        rw [marks, Cause.unwinding_eq quiet between, ← own _ pushed, final, same]
        by_cases terminated : .terminate ∈ since
        · simp [terminated, eq_comm]
        · simp [terminated]

/-- The callee hangs up after the greeting and the call is finalized; `unwind` is what happens
while `main` stops its pumps and closes the bus. -/
def reportedRun (unwind : List (Action sig Move)) : List (Action sig Move) :=
  [.reply .firstStep (.ok ()), .reply .loadConfig (.ok ())] ++ RunSession.listeningRun .other ++
    RunSession.hangupRun .other ++ unwind ++
  [.reply .closeTts (.ok ()), .reply .closeLlms (.ok ()), .move (.finalize false true),
    .move (.finalize false true), .move (.finalize false true), .move (.finalize false true),
    .reply .finalizeSession (.ok ()), .reply .mainDone (.ok ())]

/-- A manual hangup is requested while the pumps are being stopped. -/
def controlledUnwind : List (Action sig Move) :=
  [.move (.control .manualHangup), .move .dispatch, .reply .stopPumps (.error .cancelled)]

theorem quiet_unwind_reports_recorded :
    ∃ c, (engine .minimal).exec (CallTask.settled (CallTask.callTask
        (CallTask.defaultRunner .minimal 2)) (World.initial 1 .other))
        (reportedRun RunSession.cleanupRun) = some c ∧
        .recorded (some .userHangup) ∈ c.state.history ∧
        c.state.finalize.callEnded = [.userHangup] ∧
        .terminate ∉ Cause.unwinding c.state.history := by
  refine exists_of_map (fun c =>
    (c.result?, c.state.finalize.callEnded, decide
     (.recorded (some .userHangup) ∈ c.state.history))) (some (.ok ()), [.userHangup], true)
       (by decide) fun c run facts => ?_
  obtain ⟨result, facts⟩ := Prod.mk.inj facts
  obtain ⟨pushed, recorded⟩ := Prod.mk.inj facts
  have marked := of_decide_eq_true recorded
  have unwound := (reported_cause_iff .minimal 2 (World.initial 1 .other) _ c _ .userHangup
    (World.initial_fresh 1 .other) run ⟨_, result⟩ marked (by simp [pushed])).mp rfl
  exact ⟨marked, pushed, unwound.resolve_left nofun⟩

/-- The recorded cause is overwritten although the hangup event was appended before. -/
theorem control_event_overwrites_recorded_cause :
    ((engine .minimal).exec (CallTask.settled (CallTask.callTask
      (CallTask.defaultRunner .minimal 2)) (World.initial 1 .other))
      (reportedRun controlledUnwind)).map
      (fun c => (c.result?, c.state.session.hangups, c.state.finalize.callEnded,
        c.state.history.take 4)) =
      some (some (.error .cancelled), [.hangup "user_hangup" "user"], [.manualHangup],
        [.finalizing, .cancel, .terminate, .recorded (some .userHangup)]) := by
  decide

end Guarantees
end IsalesEngine
