import IsalesEngine.Engine.Frames

/-!
When nobody beside `main` can write to the transcript: no phrase is playing and
interruptible, no turn is being processed, no reply is being produced and no
filler is pending. Playback and streamed replies end in such a state again.
-/
namespace IsalesEngine
open Asyncio Asyncio.Coro

/-- The partial monitor has nothing to interrupt. -/
structure Hushed (s : CallSession) : Prop where
  speaking : s.currentSpeakingTask = none
  processing : s.inProcessingTurn = false

/-- A phrase is playing; it is the speaking task if it may be interrupted. -/
structure Speaking (interruptible : Bool) (s : CallSession) (play : Option PlayTask) : Prop where
  speaking : s.currentSpeakingTask = if interruptible then play.map PlayTask.id else none
  processing : s.inProcessingTurn = false

/-- No filler is playing or about to. -/
structure Filler.Silent (f : Filler) : Prop where
  playing : f.playing = none
  gate : f.gate ≠ .sleeping

/-- Only `main` writes to the transcript. -/
structure Still (s : CallSession) (pipe : Option Pipe) (filler : Filler) : Prop where
  hushed : Hushed s
  pipe : pipe = none
  silent : filler.Silent

theorem Still.congr {s s' : CallSession} {pipe : Option Pipe} {filler : Filler}
    (still : Still s pipe filler) (speaking : s'.currentSpeakingTask = s.currentSpeakingTask)
    (processing : s'.inProcessingTurn = s.inProcessingTurn) : Still s' pipe filler :=
  ⟨⟨speaking.trans still.hushed.speaking, processing.trans still.hushed.processing⟩, still.pipe,
    still.silent⟩

theorem Still.transition {w : World} (still : Still w.session w.pipe w.filler) (new : CallStatus)
    (reason : String) : Still (w.transition new reason).session w.pipe w.filler :=
  still.congr (CallSession.speaking_transitionTo _ _ _ _)
    (CallSession.processing_transitionTo _ _ _ _)

namespace Quiet
variable {cfg : RuntimeConfig} {allow : Op → Action sig Move → World → Bool} {w : World}

theorem hushed_stable : (allowing cfg allow).Stable fun w => Hushed w.session := by
  refine Machine.Stable.restrict (Engine.stable_session Hushed ?_) allow
  intro op m w w' moved hushed
  have owned := Engine.callMove_mainOwned moved
  exact ⟨owned.speaking.trans hushed.speaking, owned.processing.trans hushed.processing⟩

theorem speaking_stable {interruptible : Bool} :
    (allowing cfg allow).Stable fun w => Speaking interruptible w.session w.play := by
  refine Machine.Stable.restrict (Engine.stable_of ?_ ?_ ?_) allow
  · intro op m w w' speaking moved
    have owned := Engine.callMove_mainOwned moved
    refine ⟨?_, owned.processing.trans speaking.processing⟩
    rw [owned.speaking, Engine.callMove_playId moved]
    exact speaking.speaking
  · intro w speaking
    exact speaking
  · intro w w' speaking frame
    rw [frame.session, frame.play]
    exact speaking

theorem silent_stable : (allowing cfg allow).Stable fun w => w.filler.Silent := by
  refine Machine.Stable.restrict (Engine.stable_of ?_ ?_ ?_) allow
  · intro op m w w' silent moved
    have kept := Engine.callMove_filler_silent moved ⟨silent.playing, silent.gate⟩
    exact ⟨kept.1, kept.2⟩
  · intro w silent
    exact silent
  · intro w w' silent frame
    rw [frame.filler]
    exact silent

theorem pipe_stable : (allowing cfg allow).Stable fun w => w.pipe = none := by
  refine Machine.Stable.restrict (Engine.stable_of ?_ ?_ ?_) allow
  · intro op m w w' idle moved
    exact Engine.callMove_pipe_none moved idle
  · intro w idle
    exact idle
  · intro w w' idle frame
    obtain same | ⟨p, some, -⟩ := frame.pipe
    · exact same.trans idle
    · rw [idle] at some
      cases some

theorem clearPlay_hushed {interruptible : Bool}
    (speaking : Speaking interruptible w.session w.play) :
    Hushed (w.clearPlay interruptible).session := by
  refine ⟨?_, speaking.processing⟩
  have here := speaking.speaking
  cases interruptible with
  | true | false => simp [World.clearPlay, here]

/-- A playback sets the speaking task and clears it again, however it ends. -/
theorem playChunks_hushed (site : PlaySite) (text : Text) (interruptible : Bool) :
    Preserves (allowing cfg allow) anything (fun w => Hushed w.session)
      (playChunks site text interruptible) := by
  intro w hushed
  have stable : (allowing cfg allow).Stable
      fun w => Speaking interruptible w.session w.play := speaking_stable
  have wait : Preserves (allowing cfg allow) anything
      (fun w => Speaking interruptible w.session w.play) (await .playback) :=
    Preserves.wait stable (fun _ _ _ => trivial) .playback
  refine wp_update_bind.mpr (wp.andFinally
    (P := fun _ w => Speaking interruptible w.session w.play) ?_ ?_)
  · refine Preserves.exceptCancelled (wait.bind fun _ => Preserves.pure true) ?_ _ ?_
    · refine (Preserves.read _).bind fun cancelled => ?_
      split
      · exact Preserves.pure false
      · exact Preserves.raise .cancelled
    · refine ⟨?_, hushed.processing⟩
      cases interruptible with
      | true => rfl
      | false => exact hushed.speaking
  · intro r w' speaking
    exact clearPlay_hushed speaking

theorem playTts_hushed (site : PlaySite) (text : Text) (interruptible : Bool) :
    Preserves (allowing cfg allow) anything (fun w => Hushed w.session)
      (playTts site text interruptible) :=
  (playChunks_hushed site text interruptible).bind fun _ => Preserves.pure ()

/-- Streamed replies touch the speaking task only through their single playbacks. -/
theorem hushed_stream (filler : Bool) :
    StreamFrame (allowing cfg allow) anything (fun w => Hushed w.session)
      (fun w => Hushed w.session) filler := by
  have waits : Waits (allowing cfg allow) anything
      (fun w => Hushed w.session) (fun w => Hushed w.session) :=
    .of_stable hushed_stable (fun _ _ _ => trivial) fun _ h => h
  refine ⟨waits, ?_, fun hushed => ⟨hushed.speaking, hushed.processing⟩, fun _ hushed => hushed, ?_⟩
  · intro w w' step hushed
    rw [step.frame]
    exact hushed
  · exact fun _ => (playChunks_hushed _ _ _).keeps fun _ h => h

/-- A property of the filler survives what a reply does beside its filler. -/
theorem filler_closing {J : Filler → Prop} {C : World → Prop}
    (stable : (allowing cfg allow).Stable fun w => J w.filler)
    (drops : ∀ w : World, J w.filler → C w) :
    ClosingFrame (allowing cfg allow) anything C (fun w => J w.filler) false := by
  refine ⟨.of_stable stable (fun _ _ _ => trivial) drops, ?_, fun _ _ holds => holds, nofun, nofun⟩
  intro w w' step holds
  rw [step.frame]
  exact holds

theorem filler_stream {J : Filler → Prop}
    (stable : (allowing cfg allow).Stable fun w => J w.filler) :
    StreamFrame (allowing cfg allow) anything (fun w => J w.filler)
      (fun w => J w.filler) false := by
  refine ⟨.of_stable stable (fun _ _ _ => trivial) fun _ h => h, ?_, id, nofun, fun job => ?_⟩
  · intro w w' step holds
    rw [step.frame]
    exact holds
  · exact (playChunks_preserves (Preserves.wait stable (fun _ _ _ => trivial) _) id id).keeps
      fun _ h => h

theorem gateEnded_stable : (allowing cfg allow).Stable fun w => w.filler.gate = .ended := by
  refine Machine.Stable.restrict (Engine.stable_of ?_ ?_ ?_) allow
  · intro op m w w' ended moved
    exact Engine.callMove_filler_ended moved ended
  · intro w ended
    exact ended
  · intro w w' ended frame
    rw [frame.filler]
    exact ended

/-- The filler's timer is over once it was reaped. -/
theorem reapGate_ended (w : World) : FillerManager.reapGate.wp (allowing cfg allow) anything
      (outcomes (fun _ => True) (fun _ => True) fun _ w => w.filler.gate = .ended) w := by
  refine (wp_true _ w).bind ?_ (fun e _ _ => by cases e <;> trivial)
  intro _ w₁ _
  refine wp_read_bind.mpr ((wp_when _ _).mpr ?_)
  split
  · refine wp.suppress
      (P := fun r (w : World) => (∀ e, r ≠ .error (.error e)) ∧ w.filler.gate = .ended)
      (wp_wait.mpr ⟨trivial, ?_⟩) fun r w₂ post => ⟨Engine.reap_caught post.1, post.2⟩
    intro w₂ w₃ r _ replied
    obtain ⟨ended, raised, rfl⟩ := Engine.reap_some (Machine.restrict_reply_some replied).2
    exact ⟨raised, of_decide_eq_true ended⟩
  · rename_i ended
    show w₁.filler.gate = .ended
    simpa using ended

/-- No filler is left once its playback was reaped after its timer. -/
theorem stop_silent (ended : w.filler.gate = .ended) :
    FillerManager.stop.wp (allowing cfg allow) anything
      (outcomes (fun _ => True) (fun _ => True) fun _ w => w.filler.Silent) w := by
  refine wp_update_bind.mpr (wp_read_bind.mpr ((wp_when _ _).mpr ?_))
  split
  · refine wp.suppress (P := fun r (w : World) => (∀ e, r ≠ .error (.error e)) ∧ w.filler.Silent)
      (wp_wait.mpr ⟨trivial, ?_⟩) fun r w₂ post => ⟨Engine.reap_caught post.1, post.2⟩
    intro w₂ w₃ r steps replied
    have ended₂ : w₂.filler.gate = .ended := gateEnded_stable.steps steps ended
    obtain ⟨silent, raised, rfl⟩ := Engine.reap_some (Machine.restrict_reply_some replied).2
    exact ⟨raised, Option.isNone_iff_eq_none.mp silent, by simp [ended₂]⟩
  · rename_i idle
    exact ⟨by simpa using idle, by simp [ended]⟩

theorem finish_silent (i : Nat) (w : World) :
    (PlayStreaming.finish i true).wp (allowing cfg allow) anything
      (outcomes (fun _ => True) (fun _ => True) fun _ w => w.filler.Silent) w := by
  have frame : FinishFrame (allowing cfg allow) anything (fun _ => True)
      (fun w => w.filler.gate = .ended) false :=
    (filler_closing (J := fun f => f.gate = .ended) gateEnded_stable fun _ _ => trivial).finishFrame
  refine wp_read_bind.mpr (wp_read_bind.mpr (wp.seq (reapGate_ended w) fun _ w₁ ended₁ => ?_))
  refine frame.cancelProducer.seq ended₁ (fun _ _ => trivial) fun _ w₂ ended₂ => ?_
  refine (Keeps.forEach frame.closeJob _).seq ended₂ (fun _ _ => trivial) fun _ w₃ ended₃ => ?_
  refine wp_act_bind.mpr ?_
  refine (Keeps.forEach frame.closeJob _).seq ended₃ (fun _ _ => trivial) ?_
  intro _ w₄ ended₄
  refine wp_read_bind.mpr ?_
  refine (frame.cancelEager i).seq ended₄ (fun _ _ => trivial) fun _ w₅ ended₅ => ?_
  refine wp.seq (stop_silent ended₅) fun _ w₆ silent => ?_
  refine (wp_when _ _).mpr ?_
  split
  · exact silent
  · exact silent

theorem still_stable : (allowing cfg allow).Stable fun w => Still w.session w.pipe w.filler where
  move still moved := ⟨hushed_stable.move still.hushed moved, pipe_stable.move still.pipe moved,
    silent_stable.move still.silent moved⟩
  reply still replied := ⟨hushed_stable.reply still.hushed replied,
    pipe_stable.reply still.pipe replied, silent_stable.reply still.silent replied⟩

theorem playTts_still (site : PlaySite) (text : Text) (interruptible : Bool) :
    Preserves (allowing cfg allow) anything
      (fun w => Still w.session w.pipe w.filler) (playTts site text interruptible) := by
  have others : Preserves (allowing cfg allow) anything
      (fun w => w.pipe = none ∧ w.filler.Silent) (playChunks site text interruptible) :=
    playChunks_preserves
      (Preserves.wait (pipe_stable.and silent_stable) (fun _ _ _ => trivial) .playback) id id
  intro w still
  refine (((playTts_hushed site text interruptible).and
    (others.bind fun _ => Preserves.pure ())) w ⟨still.hushed, still.pipe, still.silent⟩).mono ?_
  intro r w' kept
  exact ⟨kept.1, kept.2.1, kept.2.2⟩

section Unfailing

theorem unfailing_wait {op : Op}
    (own : op = .jobGet ∨ op = .reapFillerGate ∨ op = .reapFiller ∨ op = .reapProducer ∨
      op = .reapSynth) : Unfailing (allowing cfg allow) (await op) :=
  Unfailing.wait fun replied =>
    Engine.reply_cancelled_only own (Machine.restrict_reply_some replied).2

theorem unfailing_closeJob (job : Text) : Unfailing (allowing cfg allow) (closeJob job) :=
  (Unfailing.update _).bind fun _ => (unfailing_wait (by simp)).suppress.bind fun _ =>
    Unfailing.suppressed fun _ => rfl

theorem unfailing_reapGate : Unfailing (allowing cfg allow) FillerManager.reapGate := by
  refine (Unfailing.update _).bind fun _ => (Unfailing.read _).bind fun _ => Unfailing.when ?_
  exact (unfailing_wait (by simp)).suppress

theorem unfailing_stop : Unfailing (allowing cfg allow) FillerManager.stop := by
  refine (Unfailing.update _).bind fun _ => (Unfailing.read _).bind fun _ => Unfailing.when ?_
  exact (unfailing_wait (by simp)).suppress

theorem unfailing_cancelEager (i : Nat) : Unfailing (allowing cfg allow) (cancelEager i) := by
  refine (Unfailing.read _).bind fun _ => Unfailing.when ?_
  exact (Unfailing.update _).bind fun _ => Unfailing.suppressed fun _ => rfl

theorem unfailing_playJob (i : Nat) (job : Text) :
    Unfailing (allowing cfg allow) (PlayStreaming.playJob i job) := by
  refine Unfailing.bind (Unfailing.exceptError fun e => ?_) fun played => ?_
  · exact (Unfailing.update _).bind fun _ => Unfailing.pure none
  · match played with
    | none => exact Unfailing.pure false
    | some false =>
        exact (Unfailing.update _).bind fun _ => (Unfailing.update _).bind fun _ =>
          Unfailing.pure false
    | some true =>
        exact (Unfailing.update _).bind fun _ => (Unfailing.update _).bind fun _ =>
          (Unfailing.update _).bind fun _ => Unfailing.pure true

theorem unfailing_consume (i fuel : Nat) (filler : Bool) :
    Unfailing (allowing cfg allow) (PlayStreaming.consume i filler fuel) := by
  induction fuel generalizing filler with
  | zero =>
      refine Unfailing.bind (Unfailing.wait ?_) fun impossible => nomatch (impossible : Empty)
      exact fun replied => nomatch (Machine.restrict_reply_some replied).2
  | succ fuel ih =>
      refine (unfailing_wait (by simp)).bind fun next => ?_
      match (next : Option Text) with
      | none => exact Unfailing.pure ()
      | some job =>
          refine (Unfailing.update _).bind fun _ => Unfailing.bind (Unfailing.when ?_) fun _ => ?_
          · exact unfailing_reapGate.bind fun _ => unfailing_stop
          · exact (unfailing_playJob i job).bind fun _ => Unfailing.when (ih false)

theorem unfailing_finish (i : Nat) (filler : Bool) :
    Unfailing (allowing cfg allow) (PlayStreaming.finish i filler) := by
  refine (Unfailing.read _).bind fun current => (Unfailing.read _).bind fun capture => ?_
  refine (Unfailing.when unfailing_reapGate).bind fun _ => Unfailing.bind ?_ fun _ => ?_
  · refine (Unfailing.update _).bind fun _ => (Unfailing.read _).bind fun _ => ?_
    exact Unfailing.when (unfailing_wait (by simp)).suppress
  · refine (Unfailing.forEach unfailing_closeJob _).bind fun _ => (Unfailing.act _).bind ?_
    intro queued
    refine (Unfailing.forEach unfailing_closeJob queued).bind fun _ => ?_
    refine (Unfailing.read _).bind fun tail => (unfailing_cancelEager i).bind fun _ => ?_
    exact (Unfailing.when unfailing_stop).bind fun _ => Unfailing.when (Unfailing.update _)

/-- `_play_streaming` turns every exception of a provider into a trace entry. -/
theorem unfailing_playStreaming (i : Nat) (filler : Bool) (delay start fuel : Nat) :
    Unfailing (allowing cfg allow) (playStreaming i filler delay start fuel) := by
  refine Unfailing.bind ?_ fun _ => Unfailing.bind ?_ fun _ => Unfailing.act _
  · exact (Unfailing.update _).bind fun _ => Unfailing.when (Unfailing.update _)
  · exact (unfailing_consume i fuel filler).andFinally (unfailing_finish i filler)

end Unfailing

section Exit
variable (i : Nat) (filler : Bool) (delay start fuel : Nat)

theorem playStreaming_pipe (w : World) :
    (playStreaming i filler delay start fuel).wp (allowing cfg allow) anything
      (outcomes (fun _ => True) (fun _ => True) fun _ w => w.pipe = none) w := by
  have fails : ∀ (e : Exc Err) (w : World), outcomes (S := sig) (fun _ => True) (fun _ => True)
      (fun (_ : Option Nat × Bool) w => w.pipe = none) (.error e) w := by
    intro e w
    cases e <;> trivial
  refine (wp_true _ w).bind (fun _ w₁ _ => ?_) fun e w _ => fails e w
  exact (wp_true _ w₁).bind (fun _ w₂ _ => rfl) fun e w _ => fails e w

theorem playStreaming_silent (silent : w.filler.Silent) :
    (playStreaming i filler delay start fuel).wp (allowing cfg allow) anything
      (outcomes (fun _ => True) (fun _ => True) fun _ w => w.filler.Silent) w := by
  cases filler with
  | false =>
      refine ((filler_stream silent_stable).preserves i delay start fuel w silent).mono ?_
      intro r w' kept
      match r with
      | .ok _ => exact kept
      | .error .cancelled | .error (.error _) => trivial
  | true =>
      refine (wp_true _ w).bind (fun _ w₁ _ => ?_) fun e _ _ => by cases e <;> trivial
      refine wp.seq (L := fun _ w => w.filler.Silent) ?_ fun _ w₂ silent₂ => silent₂
      refine (wp_true _ w₁).andFinally fun r w₂ _ => (finish_silent i w₂).mono fun r' w₃ post => ?_
      match r', r with
      | .ok _, .ok _ => exact post
      | .ok _, .error .cancelled => trivial
      | .ok _, .error (.error _) | .error .cancelled, _ | .error (.error _), _ => trivial

/-- After a streamed reply nobody beside `main` is left to write to the transcript. -/
theorem playStreaming_still (still : Still w.session w.pipe w.filler) :
    (playStreaming i filler delay start fuel).wp (allowing cfg allow) anything
      (outcomes (fun _ => True) (fun _ => False) fun _ w => Still w.session w.pipe w.filler) w := by
  have hushed : (playStreaming i filler delay start fuel).wp (allowing cfg allow)
      anything (fun _ w => Hushed w.session) w :=
    (hushed_stream filler).preserves i delay start fuel w still.hushed
  refine (((hushed.and (unfailing_playStreaming i filler delay start fuel w)).and
    (playStreaming_pipe i filler delay start fuel w)).and
    (playStreaming_silent i filler delay start fuel still.silent)).mono fun r w' post => ?_
  obtain ⟨⟨⟨hushed', unfailing⟩, idle'⟩, silent'⟩ := post
  match r with
  | .ok _ => exact ⟨hushed', idle', silent'⟩
  | .error .cancelled => trivial
  | .error (.error e) => exact unfailing e rfl

end Exit

end Quiet
end IsalesEngine
