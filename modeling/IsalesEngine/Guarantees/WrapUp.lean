import IsalesEngine.Engine.Endings
import IsalesEngine.Guarantees.Lifecycle

/-!
How long the wrap-up phase lasts. A reply of this phase counts when it was
played in full: then the rounds and the time are checked and the call ends once
one of them is used up. A reply that is cut by a barge-in counts for nothing and
skips both checks. In a run in which no reply of the phase is cut, nothing but
the goodbye follows the reply that uses up the phase.
-/
namespace IsalesEngine
open Asyncio Asyncio.Coro

/-- A reply of the wrap-up phase has ended when its rounds or its time were used up. -/
def usedUp (cfg : WrapUpConfig) : List Mark → Bool
  | [] => false
  | .wrapUpReplied elapsed :: h => decide (cfg.maxRounds ≤ h.count .wrapUpReply) ||
      decide (cfg.maxSeconds * 1000 ≤ elapsed) || usedUp cfg h
  | _ :: h => usedUp cfg h

/-- The marks with which the conversation goes on. -/
def Mark.goesOn : Mark → Bool
  | .listening _ | .turn | .wrapUpReply => true
  | _ => false

/-- The conversation has never gone on when the wrap-up phase was used up. -/
def WrapUpBounded (cfg : WrapUpConfig) (h : List Mark) : Prop :=
  EachMark (fun m older => m.goesOn = true → usedUp cfg older = false) h

/-- No reply of the wrap-up phase is cut. -/
def closingUncut (_ : Op) (a : Action sig Move) (w : World) : Bool :=
  match a with
  | .reply .playback (.error .cancelled) =>
      !(w.session.inWrapUp && w.pipe.isSome && w.playCancelled)
  | _ => true

/-- The marks that have nothing to do with the wrap-up phase. -/
def Mark.isAside : Mark → Bool
  | .listening _ | .turn | .wrapUpReply | .wrapUpReplied _ => false
  | _ => true

section History
variable {cfg : WrapUpConfig} {h : List Mark} {m : Mark}

theorem usedUp_aside (aside : m.isAside = true) : usedUp cfg (m :: h) = usedUp cfg h := by
  cases m with
  | wrapUpReplied elapsed => cases aside
  | _ => rfl

theorem count_aside (aside : m.isAside = true) :
    (m :: h).count .wrapUpReply = h.count .wrapUpReply := by
  refine List.count_cons_of_ne ?_
  rintro rfl
  cases aside

theorem WrapUpBounded.aside (bounded : WrapUpBounded cfg h) (aside : m.isAside = true) :
    WrapUpBounded cfg (m :: h) := by
  refine ⟨fun goesOn => ?_, bounded⟩
  cases m with
  | listening _ | turn | wrapUpReply => cases aside
  | _ => cases goesOn

theorem WrapUpBounded.goOn (bounded : WrapUpBounded cfg h) (unspent : usedUp cfg h = false) :
    WrapUpBounded cfg (m :: h) := ⟨fun _ => unspent, bounded⟩

theorem wrapUpExhausted_later {rounds now now' : Nat} {startedAt : Option Nat}
    (exhausted : wrapUpExhausted rounds startedAt cfg now ≠ none) (later : now ≤ now') :
    wrapUpExhausted rounds startedAt cfg now' ≠ none := by
  unfold wrapUpExhausted at exhausted ⊢
  split
  · nofun
  · rw [if_neg ‹_›] at exhausted
    cases startedAt with
    | none => exact exhausted
    | some started =>
        simp only [ne_eq, ite_eq_right_iff, reduceCtorEq, imp_false, not_not] at exhausted ⊢
        exact Nat.le_trans exhausted (Nat.sub_le_sub_right later started)

end History

namespace WrapUpPhase
variable {cfg : RuntimeConfig} {w w' : World}

abbrev machine (cfg : RuntimeConfig) : Machine sig World := (engine cfg).restrict closingUncut

/-- The phase is not used up, and `u` counts its replies but the one `inProgress`. -/
structure Open (cfg : RuntimeConfig) (inProgress : Nat) (u : WrapUp) (h : List Mark) (_ : Nat) :
    Prop where
  bounded : WrapUpBounded cfg.wrapUp h
  unspent : usedUp cfg.wrapUp h = false
  rounds : h.count .wrapUpReply = u.rounds + inProgress
  started : u.active = true → u.startedAt ≠ none

/-- During a turn of the phase. -/
structure Replying (cfg : RuntimeConfig) (inProgress : Nat) (u : WrapUp) (h : List Mark)
    (now : Nat) : Prop extends Open cfg inProgress u h now where
  active : u.active = true

/-- A reply of the phase was played in full: if it has used up the phase, the check at the end of
the turn will find it so. -/
structure Replied (cfg : RuntimeConfig) (u : WrapUp) (h : List Mark) (now : Nat) : Prop where
  bounded : WrapUpBounded cfg.wrapUp h
  rounds : h.count .wrapUpReply = u.rounds + 1
  started : u.active = true → u.startedAt ≠ none
  spent : usedUp cfg.wrapUp h = true →
    wrapUpExhausted (u.rounds + 1) u.startedAt cfg.wrapUp now ≠ none

/-- `P` holds of the session's wrap-up record, the history and the time. -/
def At (P : WrapUp → List Mark → Nat → Prop) (w : World) : Prop :=
  P w.session.wrapUp w.history w.clock

abbrev live (cfg : RuntimeConfig) : World → Prop := At (Open cfg 0)

abbrev replying (cfg : RuntimeConfig) (inProgress : Nat) : World → Prop :=
  At (Replying cfg inProgress)

abbrev replied (cfg : RuntimeConfig) : World → Prop := At (Replied cfg)

abbrev bounded (cfg : RuntimeConfig) : World → Prop := At fun _ h _ => WrapUpBounded cfg.wrapUp h

/-- What holds at every wait. -/
abbrev always (cfg : RuntimeConfig) (_ : Op) : World → Prop := bounded cfg

/-- A property that the passing of time and other marks keep. -/
structure Steady (cfg : RuntimeConfig) (P : WrapUp → List Mark → Nat → Prop) : Prop where
  aside : ∀ {u h now m}, m.isAside = true → P u h now → P u (m :: h) now
  later : ∀ {u h now now'}, now ≤ now' → P u h now → P u h now'
  bounded : ∀ {u h now}, P u h now → WrapUpBounded cfg.wrapUp h

theorem open_steady (inProgress : Nat) : Steady cfg (Open cfg inProgress) where
  aside own here := ⟨here.bounded.aside own, (usedUp_aside own).trans here.unspent,
    (count_aside own).trans here.rounds, here.started⟩
  later _ here := ⟨here.bounded, here.unspent, here.rounds, here.started⟩
  bounded here := here.bounded

theorem replying_steady (inProgress : Nat) : Steady cfg (Replying cfg inProgress) where
  aside own here := ⟨(open_steady inProgress).aside own here.toOpen, here.active⟩
  later more here := ⟨(open_steady inProgress).later more here.toOpen, here.active⟩
  bounded here := here.bounded

theorem replied_steady : Steady cfg (Replied cfg) where
  aside own here := ⟨here.bounded.aside own, (count_aside own).trans here.rounds, here.started,
    fun spent => here.spent ((usedUp_aside own).symm.trans spent)⟩
  later more here := ⟨here.bounded, here.rounds, here.started,
    fun spent => wrapUpExhausted_later (here.spent spent) more⟩
  bounded here := here.bounded

theorem bounded_steady : Steady cfg fun _ h _ => WrapUpBounded cfg.wrapUp h :=
  ⟨fun own here => here.aside own, fun _ here => here, fun here => here⟩

namespace Steady
variable {P : WrapUp → List Mark → Nat → Prop}

theorem session (_ : Steady cfg P) {s : CallSession} (here : At P w)
    (same : s.wrapUp = w.session.wrapUp) : At P { w with session := s } := by
  unfold At
  rw [same]
  exact here

variable (steady : Steady cfg P)
include steady

theorem note {m : Mark} (here : At P w) (own : m.isAside = true) : At P (w.note m) :=
  steady.aside own here

theorem boundedly (w : World) (here : At P w) : WrapUpPhase.bounded cfg w := steady.bounded here

theorem stable : (machine cfg).Stable (At P) := by
  refine Machine.Stable.restrict (Engine.stable_of ?_ ?_ ?_) _
  · intro op m w w' here moved
    unfold At
    rw [(Engine.callMove_mainOwned moved).wrapUp]
    refine steady.later (Engine.callMove_clock moved) ?_
    refine (Engine.callMove_history moved).induct
      (P := fun h => P w.session.wrapUp h w.clock) here ?_
    intro m h own kept
    refine steady.aside ?_ kept
    cases m <;> first | rfl | cases own
  · intro w here
    exact steady.aside (m := .cancel) rfl here
  · intro w w' here frame
    unfold At
    rw [frame.session, frame.clock]
    exact frame.noted (P := fun h => P w.session.wrapUp h w.clock) here (steady.aside rfl here)
      (steady.aside rfl here) (steady.aside rfl here)

theorem waits : Waits (machine cfg) (always cfg) (WrapUpPhase.bounded cfg) (At P) :=
  .of_stable steady.stable (fun _ => steady.boundedly) steady.boundedly

theorem rests : Rests (machine cfg) (always cfg) (WrapUpPhase.bounded cfg) (At P) := by
  refine .of steady.waits ?_
  intro w w' kept here
  have session := steady.session here kept.session.wrapUp
  rw [kept.frame]
  exact session

theorem playback : PlaybackFrame (machine cfg) (always cfg) (At P) := by
  refine ⟨steady.stable, fun _ => steady.boundedly, ?_⟩
  intro w w' step here
  have session : w'.session.wrapUp = w.session.wrapUp := by
    rw [step.session]
    rfl
  have clock : w'.clock = w.clock := by rw [step.frame]
  unfold At
  rw [session, clock]
  obtain same | ⟨m, own, same⟩ := step.history
  · rw [same]
    exact here
  · rw [same]
    refine steady.aside ?_ here
    cases m <;> first | rfl | cases own

theorem playTts (site : PlaySite) (text : Text) (interruptible : Bool) :
    Keeps (machine cfg) (always cfg) (WrapUpPhase.bounded cfg) (At P)
      (playTts site text interruptible) :=
  (steady.playback.playTts site text interruptible).keeps steady.boundedly

theorem ending : EndingFrame (machine cfg) (always cfg) (WrapUpPhase.bounded cfg) (At P) := by
  refine ⟨steady.waits, steady.playTts, id, fun kept here => ?_, fun {w m} own here => ?_⟩
  · exact steady.session here kept.wrapUp
  · refine steady.note here ?_
    cases m <;> first | rfl | cases own

end Steady

theorem live_bounded (w : World) (here : live cfg w) : bounded cfg w := here.bounded

/-- The conversation goes on. -/
theorem Open.goOn {inProgress now : Nat} {u : WrapUp} {h : List Mark} {m : Mark}
    (here : Open cfg inProgress u h now) (own : m.goesOn = true) (silent : m ≠ .wrapUpReply) :
    Open cfg inProgress u (m :: h) now := by
  refine ⟨here.bounded.goOn here.unspent, ?_, ?_, here.started⟩
  · cases m with
    | wrapUpReplied elapsed => cases own
    | _ => exact here.unspent
  · exact (List.count_cons_of_ne silent).trans here.rounds

theorem window : WindowFrame (machine cfg) (always cfg) (bounded cfg) (live cfg) :=
  ⟨(open_steady 0).waits, fun here => here.goOn rfl nofun,
    fun here => (open_steady 0).note here rfl, id, id⟩

def verdicts (cfg : RuntimeConfig) : Verdicts where
  dialing := live cfg
  dialed := live cfg
  greeting := live cfg
  live := live cfg
  loose := live cfg
  processing := live cfg
  gated := live cfg
  aborting := live cfg
  heard := fun _ => live cfg
  finished := bounded cfg
  failed := bounded cfg
  dropped := bounded cfg

theorem ends {x : Prog Directive} (returns : Returning (machine cfg) x)
    (kept : Keeps (machine cfg) (always cfg) (bounded cfg) (bounded cfg) x) (here : bounded cfg w) :
    x.wp (machine cfg) (always cfg) (verdicts cfg).round w :=
  returns.directed kept here (fun _ h => h) fun _ h => h

/-- Everything outside the phase leaves it alone. -/
theorem gateRule : GateRule cfg (machine cfg) (always cfg) (verdicts cfg) where
  live := (open_steady 0).rests
  loose := (open_steady 0).rests
  processing := (open_steady 0).rests
  aborting := (open_steady 0).rests
  exhausted here := here.bounded
  stuck replied := nomatch (Machine.restrict_reply_some replied).2
  live_failed := live_bounded
  loose_failed := live_bounded
  gated_failed := live_bounded
  aborting_failed := live_bounded
  stopped here _ := here.bounded
  listen here := (window.awaitUserOrSilence cfg).last here live_bounded fun _ _ h => h
  heard here _ := here
  spoken here := (open_steady 0).session here rfl
  activation here := ((open_steady 0).playTts _ _ _).last here live_bounded fun _ _ h => h
  listenOnly here := ((open_steady 0).playTts _ _ _).last here live_bounded fun _ _ h => h
  capped here := ((open_steady 0).playTts _ _ _).last here live_bounded fun _ _ h => h
  reply {i filler delay start fuel w} here := by
    refine (((open_steady 0).playback.playStreaming i filler delay start fuel).keeps
      live_bounded).last here live_bounded fun r w' h => ?_
    unfold Verdicts.after
    split
    · exact h
    · exact h
  released here := (open_steady 0).note here rfl
  settled here := (open_steady 0).session here rfl
  enterGate here := (open_steady 0).session (here.goOn rfl nofun) rfl
  gate := (open_steady 0).rests.wait .gate rfl
  leaveGate here := (open_steady 0).session here rfl
  dropGate here := bounded_steady.session here rfl
  unsignaled here _ := here
  signaled here _ := here
  aborted here := (open_steady 0).note ((open_steady 0).session here rfl) rfl
  forget here := (open_steady 0).session here rfl
  closing here := ⟨here.bounded, here.unspent, here.rounds, nofun⟩
  handoff here := (bounded_steady.ending.performHandoff _ _ _).last here.bounded (fun _ h => h)
    fun _ _ h => h
  hangupRoute here := ends (.hangupRoute _ _)
    (bounded_steady.ending.hangupRoute _ (bounded_steady.rests.addTrace _ _ _ _)) here.bounded
  remoteHangup here := ends .onRemoteHangup bounded_steady.ending.onRemoteHangup here.bounded
  silenceHangup here := ends (.onSilenceHangup _) (bounded_steady.ending.onSilenceHangup _)
    here.bounded

section ClosingTurn

/-- A reply of the phase that nothing has cut. -/
def whole (w : World) : Prop := w.pipe.map Pipe.fullyPlayed = some true ∧ w.session.inWrapUp = true

theorem whole_stable : (machine cfg).Stable whole := by
  refine Machine.Stable.and ((Engine.played_stable _).restrict _) ?_
  refine Machine.Stable.restrict (Engine.stable_session (·.wrapUp.active = true) ?_) _
  intro op m w w' moved active
  exact (WrapUp.mk.inj (Engine.callMove_mainOwned moved).wrapUp).1.trans active

theorem whole_waits : Waits (machine cfg) anything (fun _ => True) whole :=
  .of_stable whole_stable (fun _ _ _ => trivial) fun _ _ => trivial

theorem sentence_wp {job : Text} (here : whole w) :
    (playChunks .sentence job true).wp (machine cfg) anything (outcomes (fun _ => True) whole
        fun played => if played then whole else fun _ => False) w := by
  have waited : (await .playback).wp (machine cfg) anything (fun r w => whole w ∧
      (r = .error .cancelled → w.playCancelled = false)) (w.startPlay .sentence job true) := by
    refine wp_wait.mpr ⟨trivial, fun w₁ w₂ r steps replied => ?_⟩
    have here₁ := whole_stable.steps steps (s := w.startPlay .sentence job true) here
    refine ⟨whole_stable.reply here₁ replied, ?_⟩
    obtain ⟨allowed, replied⟩ := Machine.restrict_reply_some replied
    have frame := (Engine.replyPlayback_resumed (r := r) replied).frame
    rintro rfl
    obtain ⟨p, pipe, -⟩ := Option.map_eq_some_iff.mp here₁.1
    unfold World.playCancelled
    rw [frame.play]
    simpa [closingUncut, pipe, here₁.2, World.playCancelled] using allowed
  refine playChunks_wp waited ?_ ?_ ?_ ?_
  · exact fun post => post.1
  · intro w post cancelled
    rw [post.2 rfl] at cancelled
    cases cancelled
  · exact fun _ _ => trivial
  · exact fun post => post.1

theorem consumeRule (i : Nat) :
    ConsumerRule (machine cfg) anything (fun _ => True) whole i false whole (fun _ => whole)
      whole where
  exhausted here := whole_waits.wait .outOfFuel rfl _ here
  get here := by
    refine (whole_waits.wait .jobGet rfl).last here (fun _ h => h) fun next w here => ?_
    match (next : Option Text) with
    | none => exact here
    | some job => exact ⟨by simpa [Function.comp_def] using here.1, here.2⟩
  reapGate own := nomatch own
  stop own := nomatch own
  failed _ here := here
  play here := by
    refine PlayStreaming.playJob_wp (sentence_wp here) ?_ False.elim id
    exact fun here => ⟨by simpa [Function.comp_def] using here.1, here.2⟩

/-- A reply of the phase that returns was played in full. -/
theorem playStreaming_whole {i delay start fuel : Nat} (active : w.session.inWrapUp = true) :
    (playStreaming i false delay start fuel).wp (machine cfg) anything
      (outcomes (fun _ => True) (fun _ => True) fun r _ => r.2 = true) w := by
  have closing : ClosingFrame (machine cfg) anything (fun _ => True) whole false := by
    refine ⟨whole_waits, ?_, fun _ _ here => here, nofun, nofun⟩
    intro w w' step here
    refine ⟨step.played.trans here.1, ?_⟩
    rw [step.frame]
    exact here.2
  have begun : (PlayStreaming.begin i false delay start).wp (machine cfg) anything
      (outcomes (fun _ => True) (fun _ => True) fun _ => whole) w := ⟨rfl, active⟩
  refine wp.seq begun fun _ w₁ here => wp.seq (L := fun _ => whole) ?_ fun _ w₁ here => ?_
  · refine wp.andFinallyOk (J := whole) ?_ fun w₁ here => ?_
    · exact ((consumeRule i).consume_wp fuel id here).fail fun _ _ => trivial
    · exact (closing.finish i w₁ here).fail fun _ _ => trivial
  · obtain ⟨p, pipe, played⟩ := Option.map_eq_some_iff.mp here.1
    show w₁.pipe.all Pipe.fullyPlayed = true
    simp [pipe, played]

theorem reply_wp {i delay start fuel : Nat} (here : replying cfg 1 w) :
    (playStreaming i false delay start fuel).wp (machine cfg) (always cfg)
      (outcomes (bounded cfg) (bounded cfg) fun r w => r.2 = true ∧ replying cfg 1 w) w := by
  have kept := (replying_steady 1).playback.playStreaming i false delay start fuel w here
  refine (kept.and (playStreaming_whole here.active)).mono fun r w' post => ?_
  match r with
  | .ok _ => exact ⟨post.2, post.1⟩
  | .error .cancelled | .error (.error _) => exact post.1.bounded

/-- The end of a reply uses up the phase only if the check of the turn will find it so. -/
theorem Replying.replied {u : WrapUp} {h : List Mark} {now : Nat} (here : Replying cfg 1 u h now) :
    Replied cfg u (.wrapUpReplied (now - u.startedAt.getD now) :: h) now := by
  obtain ⟨startedAt, same⟩ := Option.ne_none_iff_exists'.mp (here.started here.active)
  have other : ∀ elapsed, Mark.wrapUpReplied elapsed ≠ .wrapUpReply := nofun
  refine ⟨⟨nofun, here.bounded⟩, ?_, here.started, fun spent => ?_⟩
  · exact (List.count_cons_of_ne (other _)).trans here.rounds
  · simp only [usedUp, here.unspent, here.rounds, same, Bool.or_false, Bool.or_eq_true,
      decide_eq_true_eq, Option.getD_some] at spent
    simp only [wrapUpExhausted, same]
    obtain rounds | seconds := spent
    · rw [if_pos rounds]
      nofun
    · split
      · nofun
      · nofun

theorem afterReply_wp (here : replied cfg w) : (WrapUpTurn.afterReply cfg).wp (machine cfg)
    (always cfg) (verdicts cfg).round w := by
  have rests : Rests (machine cfg) (always cfg) (bounded cfg) (replied cfg) := replied_steady.rests
  have fails : ∀ w, replied cfg w → bounded cfg w := replied_steady.boundedly
  refine (rests.refereeVerdict _).seq here fails fun verdict w₁ here₁ => ?_
  refine Keeps.seq (rests.other fun _ => rfl) here₁ fails fun _ w₂ here₂ => ?_
  split
  · exact ends .refereeHangup bounded_steady.ending.refereeHangup here₂.bounded
  · refine wp_update_bind.mpr (wp_read_bind.mpr ?_)
    split
    · exact ends (.complete _ _) (bounded_steady.ending.complete _ _) here₂.bounded
    · rename_i unexhausted
      refine ⟨here₂.bounded, Bool.eq_false_iff.mpr fun spent => ?_, here₂.rounds, here₂.started⟩
      exact here₂.spent spent unexhausted

theorem wrapUpRun_wp {fuel processingStart : Nat} {userText : Text} (here : replying cfg 0 w) :
    (WrapUpTurn.run cfg fuel userText processingStart).wp (machine cfg) (always cfg)
      (verdicts cfg).round w := by
  have rests : Rests (machine cfg) (always cfg) (bounded cfg) (replying cfg 0) :=
    (replying_steady 0).rests
  have fails : ∀ w, replying cfg 0 w → bounded cfg w := (replying_steady 0).boundedly
  refine (rests.runPipelineStream _ _ _).seq here fails fun i w₁ here₁ => ?_
  refine Keeps.seq (Keeps.when (rests.other fun _ => rfl)) here₁ fails fun _ w₂ here₂ => ?_
  refine (rests.transition _).seq here₂ fails fun _ w₃ here₃ => ?_
  have begun : replying cfg 1 (w₃.note .wrapUpReply) := by
    refine ⟨⟨here₃.bounded.goOn here₃.unspent, here₃.unspent, ?_, here₃.started⟩, here₃.active⟩
    exact List.count_cons_self.trans (congrArg (· + 1) here₃.rounds)
  refine wp_update_bind.mpr (wp.seq (reply_wp begun) fun r w₄ post => wp_update_bind.mpr ?_)
  have rests : Rests (machine cfg) (always cfg) (bounded cfg) (replied cfg) := replied_steady.rests
  have fails : ∀ w, replied cfg w → bounded cfg w := replied_steady.boundedly
  refine (rests.addTrace _ _ _ _).seq post.2.replied fails fun _ w₅ here₅ => ?_
  refine (rests.appendAiReply _ _ _ _ _).seq here₅ fails fun _ w₆ here₆ => ?_
  rw [post.1]
  exact afterReply_wp here₆

end ClosingTurn

theorem process_wp {fuel : Nat} {text : Text} {shortReply : Bool} (here : live cfg w) :
    (TurnLoop.process cfg fuel text w.session.inWrapUp shortReply).wp (machine cfg) (always cfg)
      (verdicts cfg).round w := by
  cases wrapUp : w.session.inWrapUp with
  | true =>
      refine RoundRule.process_wp (replying_steady 0).rests (replying_steady 0).boundedly ?_
        ⟨here, wrapUp⟩
      intro useFiller transferLlm processingStart w here
      exact wp_update_bind.mpr (wrapUpRun_wp ⟨here.toOpen.goOn rfl nofun, here.active⟩)
  | false => exact RoundRule.process_wp gateRule.live live_bounded gateRule.gatedTurn_wp here

theorem cleanup : CleanupFrame (machine cfg) (always cfg) (bounded cfg) := by
  refine ⟨bounded_steady.stable, fun _ _ h => h, id, id, ?_⟩
  intro w e here
  cases e with
  | manualHangupRequested | transferRequested =>
      exact WrapUpBounded.aside (m := .cancel) (WrapUpBounded.aside (m := .terminate) here rfl) rfl
  | _ => exact here

theorem callRule : CallRule cfg (machine cfg) (always cfg) (verdicts cfg) fun _ => bounded cfg where
  toRoundRule := gateRule.toRoundRule
  process := process_wp
  begin here := (open_steady 0).session here rfl
  announce here := by
    refine ((open_steady 0).waits.wait (.ext .publish) rfl _ here).mono fun r w' post => ?_
    match r with
    | .ok _ | .error .cancelled => exact post
    | .error (.error _) => exact post.bounded
  dispatching here := here
  dial here := (open_steady 0).ending.phoneFrame.dialAndWaitConnected.last here live_bounded
    fun _ _ h => h
  noAnswer here := (open_steady 0).ending.onNoAnswer.last here live_bounded fun _ => live_bounded
  connected {w} here := (open_steady 0).session here (SessionEnding.transition _ _ _ _).wrapUp
  greeting := (open_steady 0).rests
  greeting_failed := live_bounded
  ambient here := here
  pumps here := here
  greet here := ((open_steady 0).playTts _ _ _).last here live_bounded fun _ _ h => h
  monitored here := (open_steady 0).session ((open_steady 0).note here rfl) rfl
  attached here := here
  exception here := bounded_steady.ending.exception_wp here
  cleanupFinished here := cleanup.cleanup.lastly here _
  cleanupDropped here := cleanup.cleanup.lastly here _

end WrapUpPhase

namespace Guarantees

/-- In every run in which no reply of the wrap-up phase is cut: in any state of the run, no window
was opened, no turn begun and no reply of the phase started once a reply of it had ended with the
rounds or the time used up; and when the run has returned, the call has ended. -/
theorem wrap_up_bounded (cfg : RuntimeConfig) (fuel : Nat) (w : World)
    (acts : List (Action sig Move)) (c : Susp sig World Unit) (fresh : w.Fresh)
    (run : ((engine cfg).restrict closingUncut).exec (runSession cfg fuel w) acts = some c) :
    WrapUpBounded cfg.wrapUp c.state.history ∧
      (c.result? = some (.ok ()) → c.state.session.state = .ended) := by
  have dialing : (WrapUpPhase.verdicts cfg).dialing w := by
    have history := fresh.history
    have session := fresh.session
    refine ⟨?_, ?_, ?_, ?_⟩
    · rw [history]
      trivial
    · rw [history]
      rfl
    · rw [history, session]
      rfl
    · rw [session]
      nofun
  have rule : (runSession cfg fuel).wp (WrapUpPhase.machine cfg) (WrapUpPhase.always cfg)
      (fun _ => WrapUpPhase.bounded cfg) w := WrapUpPhase.callRule.runSession_wp dialing
  refine ⟨?_, fun returned => ?_⟩
  · exact rule.always (fun _ _ h => h)
      (fun _ _ _ _ h => WrapUpPhase.bounded_steady.stable.move h) (fun _ _ h => h) run
  · have ended : (runSession cfg fuel).wp ((engine cfg).restrict closingUncut) (fun _ _ => True)
        Lifecycle.Returned w := Lifecycle.callRule.runSession_wp (Lifecycle.steady_of_fresh fresh)
    exact (ended.result run returned () rfl).1

/-- A campaign whose referee can see that the goal was reached; wrap-up has one round. -/
def closingConfig : RuntimeConfig := { RuntimeConfig.refereed with
  pipeline := { RuntimeConfig.refereed.pipeline with
    routingRules := [⟨"intent", ["done"], .transition (some "goal_achieved") none⟩] } }

/-- A reply of one sentence is played in full. -/
def sentenceRun (sentence : Text) : List (Action sig Move) :=
  [.move (.produceSentence sentence), .reply .jobGet (.ok (some sentence)), .move (.playEnd true),
    .reply .playback (.ok ()), .move (.generatorEnd none []), .move .producerPut,
    .reply .jobGet (.ok none)]

/-- The goal is reached in the first turn, and the caller says something in wrap-up. -/
def wrappingUpRun : List (Action sig Move) :=
  RunSession.listeningRun .other ++ RunSession.spokenRun "好的".toList ++ RunSession.gateRun ++
    [.move (.eagerEnd 0 none), .reply .gate (.ok [⟨"intent", some "done", none⟩]),
      .reply (.ext .buildStream) (.ok ())] ++ sentenceRun "再见。".toList ++
    RunSession.spokenRun "嗯".toList ++ RunSession.gateRun

/-- The closing reply is played in full, and the call ends. -/
def goodbyeRun : List (Action sig Move) := wrappingUpRun ++ sentenceRun "慢走。".toList ++
  [.move (.playEnd true), .reply .playback (.ok ()), .move .evPump] ++ RunSession.cleanupRun

theorem one_round_wrap_up :
    ∃ c, ((engine closingConfig).restrict closingUncut).exec
      (runSession closingConfig 4 (World.initial 1 .other)) goodbyeRun = some c ∧
      usedUp closingConfig.wrapUp c.state.history = true ∧
      WrapUpBounded closingConfig.wrapUp c.state.history ∧ c.state.session.state = .ended := by
  refine exists_of_map (fun c => (decide (c.result? = some (.ok ())), usedUp closingConfig.wrapUp
    c.state.history)) (true, true) (by decide +kernel) fun c run facts => ?_
  obtain ⟨returned, spent⟩ := Prod.mk.inj facts
  have result := wrap_up_bounded closingConfig 4 _ _ c (World.initial_fresh 1 .other) run
  exact ⟨spent, result.1, result.2 (of_decide_eq_true returned)⟩

/-- The only round of wrap-up is cut by a barge-in. The next turn gives another reply. -/
theorem cut_round_not_counted :
    ((engine closingConfig).exec (runSession closingConfig 4 (World.initial 1 .other))
      (wrappingUpRun ++ [.move (.produceSentence "慢走。".toList),
        .reply .jobGet (.ok (some "慢走。".toList)), .move (.asrResult "等等".toList false),
        .move .dispatchLossy, .move .partialMonitor, .move (.playEnd false),
        .reply .playback (.error .cancelled), .move .producerEnd,
        .reply .reapProducer (.error .cancelled), .reply .reapSynth (.ok ()),
        .reply .closeSynth (.ok ())] ++ RunSession.spokenRun "请讲".toList ++
        RunSession.gateRun)).map
      (fun c => (c.state.history.take 6, c.state.session.wrapUpRoundCount,
        usedUp closingConfig.wrapUp (c.state.history.drop 5))) =
    some ([.wrapUpReply, .turn, .batch [⟨"请讲".toList, 3⟩] (.userFinal "请讲".toList) [],
      .posted ⟨"请讲".toList, 3⟩, .listening false, .wrapUpReplied 0], 0, true) := by
  decide +kernel

end Guarantees
end IsalesEngine
