import IsalesEngine.Engine.Endings
import IsalesEngine.Engine.Quiet

/-!
Where a cancel of `main` gets through. A cancel that arrives while `main` waits
for a running playback stops the playback in its place, and one that arrives
while `main` reaps a task it has cancelled itself is swallowed with that task's
own `CancelledError`; in both cases the call goes on. At every other wait
nothing is started after a cancel, and `run_session` ends with it.
-/
namespace IsalesEngine
open Asyncio Asyncio.Coro

/-- What `main` starts: a listening window, a turn or a playback. -/
def Mark.starts : Mark → Bool
  | .listening _ | .turn | .playback _ => true
  | _ => false

/-- Nothing was started after a cancel. -/
def Obeyed (h : List Mark) : Prop :=
  h.Pairwise fun newer older => newer.starts = true → older ≠ .cancel

/-- Nobody has asked `main` to cancel. -/
structure Uncancelled (h : List Mark) (pending : Bool) : Prop where
  obeyed : Obeyed h
  clear : .cancel ∉ h
  idle : pending = false

namespace Obeyed
variable {h h' : List Mark} {m : Mark}

theorem mark (obeyed : Obeyed h) (plain : m.starts = false) : Obeyed (m :: h) := by
  refine List.pairwise_cons.mpr ⟨fun _ _ starts => ?_, obeyed⟩
  rw [plain] at starts
  cases starts

theorem start (obeyed : Obeyed h) (clear : .cancel ∉ h) : Obeyed (m :: h) := by
  refine List.pairwise_cons.mpr ⟨?_, obeyed⟩
  rintro older member - rfl
  exact clear member

theorem step (obeyed : Obeyed h) (step : HistoryStep h h') : Obeyed h' := by
  refine step.induct obeyed fun m h own obeyed => obeyed.mark ?_
  cases m <;> first | rfl | cases own

end Obeyed

theorem Uncancelled.mark {h : List Mark} {pending : Bool} {m : Mark}
    (uncancelled : Uncancelled h pending) (other : m ≠ .cancel) : Uncancelled (m :: h) pending :=
  ⟨uncancelled.obeyed.start uncancelled.clear,
    List.not_mem_cons_of_ne_of_not_mem other.symm uncancelled.clear, uncancelled.idle⟩

/-- `main` waits where a cancel reaches it: not for a task it has cancelled itself, and not for a
playback that the cancel would stop, or that a barge-in has stopped. -/
def World.passesOn (op : Op) (w : World) : Bool :=
  !op.isReap && !(op = .playback && (w.playLive || w.playCancelled))

/-- The first cancel arrives where it is passed on. -/
def cancelPasses (op : Op) (a : Action sig Move) (w : World) : Bool :=
  match a with
  | .move m => !Engine.asksCancel w m || decide (.cancel ∈ w.history) || w.passesOn op
  | .reply _ _ => true

namespace Cancellation
variable {cfg : RuntimeConfig} {op : Op} {w w' : World}

abbrev machine (cfg : RuntimeConfig) : Machine sig World := (engine cfg).restrict cancelPasses

/-- What holds at every wait. -/
def always (_ : Op) (w : World) : Prop := Obeyed w.history

/-- After a cancel. -/
def dropped (w : World) : Prop := Obeyed w.history

/-- Before any cancel. -/
def live (w : World) : Prop := Uncancelled w.history w.cancelPending

theorem obeyed_stable : (machine cfg).Stable fun w => Obeyed w.history := by
  refine Machine.Stable.restrict (Engine.stable_of ?_ ?_ ?_) cancelPasses
  · intro op m w w' obeyed moved
    exact obeyed.step (Engine.callMove_history moved)
  · intro w obeyed
    exact obeyed.mark rfl
  · intro w w' obeyed frame
    exact frame.noted obeyed (obeyed.mark rfl) (obeyed.mark rfl) (obeyed.mark rfl)

/-- While `main` waits: it is not cancelled, or it is and will resume with the cancel. -/
def Awaiting (op : Op) (w : World) : Prop :=
  live w ∨ (Obeyed w.history ∧ w.cancelPending = true ∧ op.suspends = true ∧
    (op = .playback → w.playLive = false ∧ w.playCancelled = false))

theorem plain_own (plain : op.isPlain = true) : op.ofConsumer = false ∧ op ≠ .mainDone := by
  cases op <;> simp_all [Op.isPlain, Op.isReap, Op.ofConsumer]

theorem reap_own (reaps : op.isReap = true) : op.ofConsumer = false ∧ op ≠ .mainDone := by
  cases op <;> simp_all [Op.isReap, Op.ofConsumer]

/-- A section that does not cancel `main`. -/
theorem live_step (uncancelled : live w) (step : HistoryStep w.history w'.history)
    (pending : w'.cancelPending = w.cancelPending)
    (clear : .cancel ∈ w'.history → .cancel ∈ w.history) : live w' :=
  ⟨uncancelled.obeyed.step step, fun cancelled => uncancelled.clear (clear cancelled),
    pending.trans uncancelled.idle⟩

theorem awaiting_move {m : Move} (plain : op.isPlain = true) (awaiting : Awaiting op w)
    (moved : (machine cfg).move op m w = some w') : Awaiting op w' := by
  obtain ⟨allowed, moved⟩ := Machine.restrict_move_some moved
  obtain ⟨own, running⟩ := plain_own plain
  obtain ⟨suspends, called⟩ := Engine.callMove_of_move moved own
  have step := Engine.callMove_history called
  cases awaiting with
  | inl uncancelled =>
      obtain ⟨asks, pending⟩ | ⟨pending, clear⟩ := Engine.callMove_cancel called running
      · have passes : w.passesOn op = true := by
          simpa [cancelPasses, asks, uncancelled.clear] using allowed
        have ended : op = .playback → w.playLive = false ∧ w.playCancelled = false := by
          rintro rfl
          simpa [World.passesOn, Op.isReap] using passes
        refine .inr ⟨uncancelled.obeyed.step step, ?_, suspends, fun playing => ?_⟩
        · rw [pending]
          by_cases playing : op = .playback
          · simp [(ended playing).1]
          · simp [playing]
        · have same := Engine.callMove_play_ended called (ended playing).1
          simpa only [World.playLive, World.playCancelled, same] using ended playing
      · exact .inl (live_step uncancelled step pending clear)
  | inr cancelled =>
      obtain ⟨obeyed, pending, -, ended⟩ := cancelled
      refine .inr ⟨obeyed.step step, ?_, suspends, fun playing => ?_⟩
      · obtain ⟨-, same⟩ | ⟨same, -⟩ := Engine.callMove_cancel called running
        · simp [same, pending]
        · exact same.trans pending
      · have same := Engine.callMove_play_ended called (ended playing).1
        simpa only [World.playLive, World.playCancelled, same] using ended playing

theorem live_reply {r : Reply op.Res} (uncancelled : live w)
    (replied : (machine cfg).reply op r w = some w') : live w' := by
  have frame := Engine.reply_frame (Machine.restrict_reply_some replied).2
  have idle : w'.cancelPending = false := by
    obtain same | off := frame.pending
    · exact same.trans uncancelled.idle
    · exact off
  have kept : Uncancelled w'.history w.cancelPending :=
    frame.noted (P := (Uncancelled · _)) uncancelled (uncancelled.mark nofun)
      (uncancelled.mark nofun) (uncancelled.mark nofun)
  exact ⟨kept.obeyed, kept.clear, idle⟩

/-- A wait that passes cancels on: `main` resumes as before, or with the cancel. -/
theorem wait_wp (plain : op.isPlain = true) (uncancelled : live w) :
    (await op).wp (machine cfg) always (fun r w' => live w' ∨
      (r = .error .cancelled ∧ Obeyed w'.history ∧ (op = .playback → w'.playCancelled = false)))
      w := by
  refine wp_wait.mpr ⟨uncancelled.obeyed, fun w₁ w₂ r steps replied => ?_⟩
  have awaiting : Awaiting op w₁ := Machine.Steps.invariant
    (fun _ _ _ holds moved => awaiting_move plain holds moved) steps (.inl uncancelled)
  cases awaiting with
  | inl uncancelled => exact .inl (live_reply uncancelled replied)
  | inr cancelled =>
      obtain ⟨obeyed, pending, suspends, ended⟩ := cancelled
      have reply := (Machine.restrict_reply_some replied).2
      refine .inr ⟨Engine.reply_pending plain suspends pending reply,
        obeyed_stable.reply obeyed replied, fun playing => ?_⟩
      have same := (Engine.reply_frame reply).play
      simpa only [World.playCancelled, same] using (ended playing).2

theorem live_reap {m : Move} (reaps : op.isReap = true) (uncancelled : live w)
    (moved : (machine cfg).move op m w = some w') : live w' := by
  obtain ⟨allowed, moved⟩ := Machine.restrict_move_some moved
  obtain ⟨own, running⟩ := reap_own reaps
  obtain ⟨-, called⟩ := Engine.callMove_of_move moved own
  obtain ⟨asks, -⟩ | ⟨pending, clear⟩ := Engine.callMove_cancel called running
  · simp [cancelPasses, asks, uncancelled.clear, World.passesOn, reaps] at allowed
  · exact live_step uncancelled (Engine.callMove_history called) pending clear

theorem waits : Waits (machine cfg) always dropped live where
  wait op plain w uncancelled := by
    refine (wait_wp plain uncancelled).mono fun r w' post => ?_
    cases post with
    | inl kept =>
        match r with
        | .ok _ => exact kept
        | .error .cancelled => exact kept.obeyed
        | .error (.error _) => exact kept
    | inr cancelled =>
        obtain ⟨rfl, obeyed, -⟩ := cancelled
        exact obeyed
  reap op reaps w uncancelled := by
    refine wp_wait.mpr ⟨uncancelled.obeyed, fun w₁ w₂ r steps replied => live_reply ?_ replied⟩
    exact Machine.Steps.invariant (fun _ _ _ holds moved => live_reap reaps holds moved) steps
      uncancelled

/-- A playback that a barge-in has stopped is over; a cancel that finds it ended is passed on. -/
theorem playChunks_keeps (site : PlaySite) (text : Text) (interruptible : Bool) :
    Keeps (machine cfg) always dropped live (playChunks site text interruptible) := by
  intro w uncancelled
  have started : live (w.startPlay site text interruptible) := uncancelled.mark nofun
  refine wp_update_bind.mpr (wp.andFinally (P := outcomes dropped live fun _ => live) ?_ ?_)
  · refine (wp_exceptCancelled _ _).mpr (wp.bind (@wait_wp cfg .playback _ rfl started) ?_ ?_)
    · intro _ w₁ post
      obtain kept | ⟨cancelled, -⟩ := post
      · exact kept
      · cases cancelled
    · intro e w₁ post
      cases e with
      | cancelled =>
          refine wp_read_bind.mpr ?_
          cases stopped : w₁.playCancelled with
          | true =>
              obtain kept | ⟨-, -, passed⟩ := post
              · exact kept
              · rw [passed rfl] at stopped
                cases stopped
          | false =>
              obtain kept | ⟨-, obeyed, -⟩ := post
              · exact kept.obeyed
              · exact obeyed
      | error e =>
          obtain kept | ⟨cancelled, -⟩ := post
          · exact kept
          · cases cancelled
  · intro r w₁ post
    match r with
    | .ok _ | .error .cancelled | .error (.error _) => exact post

theorem playTts_keeps (site : PlaySite) (text : Text) (interruptible : Bool) :
    Keeps (machine cfg) always dropped live (playTts site text interruptible) :=
  (playChunks_keeps site text interruptible).bind fun _ => Keeps.pure ()

theorem closing (filler : Bool) : ClosingFrame (machine cfg) always dropped dropped filler := by
  have waits : Waits (machine cfg) always dropped dropped :=
    .of_stable obeyed_stable (fun _ _ h => h) fun _ h => h
  refine ⟨waits, ?_, fun _ _ obeyed => Obeyed.mark obeyed rfl, fun _ => waits.reapGate id,
    fun _ => waits.stop id⟩
  intro w w' step obeyed
  rw [step.frame]
  exact obeyed

theorem stream (filler : Bool) : StreamFrame (machine cfg) always dropped live filler := by
  refine ⟨waits, ?_, fun h => h.mark nofun, fun _ h => h, fun job => playChunks_keeps _ _ _⟩
  intro w w' step uncancelled
  have pending : w'.cancelPending = w.cancelPending := by rw [step.frame]
  have kept : Uncancelled w'.history w.cancelPending := by
    obtain same | ⟨m, own, same⟩ := step.history
    · exact same ▸ uncancelled
    · refine same ▸ uncancelled.mark ?_
      rintro rfl
      cases own
  exact ⟨kept.obeyed, kept.clear, pending.trans uncancelled.idle⟩

theorem playStreaming_keeps (i : Nat) (filler : Bool) (delay start fuel : Nat) :
    Keeps (machine cfg) always dropped live (playStreaming i filler delay start fuel) := by
  refine (stream filler).playStreaming (fun w obeyed => ?_) delay start fuel
  exact ((closing filler).finish i).unfailing (Quiet.unfailing_finish i filler) obeyed

theorem window : WindowFrame (machine cfg) always dropped live :=
  ⟨waits, fun h => h.mark nofun, fun h => h.mark nofun, id, id⟩

theorem rests : Rests (machine cfg) always dropped live := by
  refine .of waits fun kept uncancelled => ?_
  rw [kept.frame]
  exact uncancelled

theorem ending : EndingFrame (machine cfg) always dropped live := by
  refine ⟨waits, playTts_keeps, id, fun _ h => h, fun own h => h.mark ?_⟩
  rintro rfl
  cases own

abbrev verdicts : Verdicts := .throughout live live dropped fun _ => live

theorem route : RouteFrame (machine cfg) always dropped live where
  __ : Rests (machine cfg) always dropped live := rests
  __ : EndingFrame (machine cfg) always dropped live := ending
  round _ uncancelled := uncancelled
  mark own uncancelled := uncancelled.mark (by
    rintro rfl
    cases own)
  reply := playStreaming_keeps

theorem turnFrame : TurnFrame cfg (machine cfg) always dropped live fun _ => live where
  toRouteFrame := route
  assertion uncancelled := uncancelled.obeyed
  stuck replied := nomatch (Machine.restrict_reply_some replied).2
  dropped _ obeyed := obeyed
  released uncancelled := uncancelled.mark nofun
  listen := window.awaitUserOrSilence cfg _
  heard uncancelled _ := uncancelled
  spoken uncancelled := uncancelled

theorem live_wp {α : Type} {x : Prog α} (uncancelled : live w)
    (kept : Keeps (machine cfg) always dropped live x) :
    x.wp (machine cfg) always (verdicts.post fun _ => live) w := kept w uncancelled

/-- The cleanup only waits for things that cannot fail. -/
theorem cleanup_unfailing : Unfailing (machine cfg) RunSession.cleanup := by
  have answers : ∀ op : Op, op = .stopPumps ∨ op = .closeBus →
      Unfailing (machine cfg) (await op) := by
    rintro op (rfl | rfl)
    · exact Unfailing.wait fun replied => nomatch (Machine.restrict_reply_some replied).2
    · exact Unfailing.wait fun replied => nomatch (Machine.restrict_reply_some replied).2
  refine (Unfailing.read _).bind fun pumps => Unfailing.bind (Unfailing.when ?_) fun _ => ?_
  · exact (Unfailing.update _).bind fun _ => answers _ (.inl rfl)
  · refine (Unfailing.read _).bind fun closed => Unfailing.when ?_
    exact (Unfailing.update _).bind fun _ => answers _ (.inr rfl)

theorem cleanup_dropped : CleanupFrame (machine cfg) always dropped := by
  refine ⟨obeyed_stable, fun _ _ h => h, id, id, ?_⟩
  intro w e obeyed
  cases e with
  | manualHangupRequested | transferRequested => exact (obeyed.mark rfl).mark rfl
  | _ => exact obeyed

/-- In the cleanup a cancel of `main` by itself is pending at once. -/
def Unwinding (w : World) : Prop :=
  Obeyed w.history ∧ (.cancel ∈ w.history → w.cancelPending = true)

theorem deliver_unwinding (unwinding : Unwinding w) (e : BusEvent) :
    Unwinding (w.deliver .closeBus e) := by
  cases e with
  | manualHangupRequested | transferRequested =>
      refine ⟨(unwinding.1.mark rfl).mark rfl, fun _ => ?_⟩
      simp [World.deliver, World.terminate, World.cancelMain]
  | _ => exact unwinding

theorem deliver_all_unwinding (events : List BusEvent) (unwinding : Unwinding w) :
    Unwinding (events.foldl (World.deliver .closeBus) w) := by
  induction events generalizing w with
  | nil => exact unwinding
  | cons e events ih => exact ih (deliver_unwinding unwinding e)

theorem unwinding_move {m : Move} (unwinding : Unwinding w)
    (moved : (machine cfg).move .closeBus m w = some w') : Unwinding w' := by
  have moved : Engine.move cfg .closeBus m w = some w' := (Machine.restrict_move_some moved).2
  obtain ⟨-, called⟩ := Engine.callMove_of_move moved rfl
  refine ⟨unwinding.1.step (Engine.callMove_history called), fun cancelled => ?_⟩
  obtain ⟨-, pending⟩ | ⟨pending, clear⟩ := Engine.callMove_cancel called nofun
  · simp [pending]
  · exact pending.trans (unwinding.2 (clear cancelled))

/-- The bus is closed: what is queued is handled first, and a control event among it cancels
`main` at this very wait. -/
theorem closeBus_wp (uncancelled : live w) : closeBus.wp (machine cfg) always
    (outcomes dropped (fun _ => False) fun _ => live) w := by
  refine wp_read_bind.mpr ((wp_when _ _).mpr ?_)
  split
  · refine wp_update_bind.mpr (wp_wait.mpr ?_)
    have unwinding : Unwinding w := ⟨uncancelled.obeyed, fun h => absurd h uncancelled.clear⟩
    have delivered := deliver_all_unwinding w.bus.lossless
      (w := { w with bus := { w.bus with closed := true, lossless := [] } }) unwinding
    refine ⟨delivered.1, fun w₁ w₂ r steps replied => ?_⟩
    have unwinding₁ : Unwinding w₁ := Machine.Steps.invariant
      (fun _ _ _ holds moved => unwinding_move holds moved) steps delivered
    obtain ⟨_, rfl, -, idle, rfl⟩ | ⟨rfl, -, rfl⟩ :=
      Engine.answer_some (Machine.restrict_reply_some replied).2
    · refine ⟨unwinding₁.1, fun cancelled => ?_, idle⟩
      rw [unwinding₁.2 cancelled] at idle
      cases idle
    · exact unwinding₁.1
  · exact uncancelled

/-- How `run_session` ends: with a cancel if there was one. -/
def Passed (r : Reply Unit) (w : World) : Prop :=
  Obeyed w.history ∧ (.cancel ∈ w.history → r = .error .cancelled)

theorem live_passed {r : Reply Unit} (uncancelled : live w) : Passed r w :=
  ⟨uncancelled.obeyed, fun cancelled => absurd cancelled uncancelled.clear⟩

theorem cleanup_wp (uncancelled : live w) : RunSession.cleanup.wp (machine cfg) always
    (outcomes dropped (fun _ => True) fun _ => live) w := by
  refine (Keeps.read _).seq uncancelled (fun _ _ => trivial) fun pumps w₁ uncancelled₁ => ?_
  have stops : Keeps (machine cfg) always dropped live stopListenPumps :=
    Keeps.bind (Keeps.update fun _ h => h) fun _ => waits.wait .stopPumps rfl
  refine (Keeps.when stops).seq uncancelled₁ (fun _ _ => trivial) fun _ w₂ uncancelled₂ => ?_
  exact (closeBus_wp uncancelled₂).fail fun _ h => h.elim

theorem callRule : CallRule cfg (machine cfg) always verdicts Passed where
  toLoopRule := turnFrame.turnRule.loop
  begin uncancelled := uncancelled
  announce uncancelled := by
    refine (wait_wp rfl uncancelled).mono fun r w' post => ?_
    match r with
    | .ok _ =>
        obtain kept | ⟨cancelled, -⟩ := post
        · exact kept
        · cases cancelled
    | .error e =>
        obtain kept | ⟨cancelled, obeyed, -⟩ := post
        · exact live_passed kept
        · exact ⟨obeyed, fun _ => cancelled⟩
  dispatching uncancelled := uncancelled
  dial uncancelled := live_wp uncancelled ending.phoneFrame.dialAndWaitConnected
  noAnswer uncancelled := live_wp uncancelled ending.onNoAnswer
  connected uncancelled := uncancelled
  greeting := rests
  greeting_failed _ h := h
  ambient uncancelled := uncancelled
  pumps uncancelled := uncancelled
  greet uncancelled := live_wp uncancelled (playTts_keeps _ _ _)
  monitored uncancelled := uncancelled.mark nofun
  attached uncancelled := uncancelled
  exception uncancelled := ending.exception_wp uncancelled
  cleanupFinished uncancelled := by
    refine ((cleanup_wp uncancelled).and (cleanup_unfailing _)).mono fun r w' post => ?_
    match r with
    | .ok _ => exact live_passed post.1
    | .error .cancelled => exact ⟨post.1, fun _ => rfl⟩
    | .error (.error e) => exact absurd rfl (post.2 e)
  cleanupDropped obeyed := by
    refine ((cleanup_dropped.cleanup _ obeyed).and (cleanup_unfailing _)).mono ?_
    intro r w' post
    match r with
    | .ok _ | .error .cancelled => exact ⟨post.1, fun _ => rfl⟩
    | .error (.error e) => exact absurd rfl (post.2 e)

end Cancellation

namespace Guarantees

end Guarantees
end IsalesEngine
