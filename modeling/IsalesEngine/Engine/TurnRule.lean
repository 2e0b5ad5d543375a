import IsalesEngine.Engine.Bookkeeping

/-!
The turn loop as one rule. A property of whole calls is given by assertions at
the few points where the turn loop stands (`Verdicts`), and the rule asks what
listening, playing, the gate and the endings do to them. Everything in between
is bookkeeping, followed here once through the text of the turn.
-/
namespace IsalesEngine
open Asyncio Asyncio.Coro

/-- The assertions at the points of a call: before it is dialled, until it is answered, up to the
end of the greeting, between two windows, after a reply that was cut, while the gate is open, when
it has closed, when the turn is being dropped, when a window has closed with an outcome, when the
call is over, and after an exception or a cancel. -/
structure Verdicts where
  dialing : World → Prop
  dialed : World → Prop
  greeting : World → Prop
  live : World → Prop
  loose : World → Prop
  processing : World → Prop
  gated : World → Prop
  aborting : World → Prop
  heard : Outcome → World → Prop
  finished : World → Prop
  failed : World → Prop
  dropped : World → Prop

namespace Verdicts
variable {α : Type}

def post (V : Verdicts) (K : α → World → Prop) : Reply α → World → Prop :=
  outcomes V.dropped V.failed K

/-- After one round of the loop. -/
def directed (V : Verdicts) : Directive → World → Prop
  | .continue => V.live
  | .return => V.finished

/-- How a round ends. -/
abbrev round (V : Verdicts) : Reply Directive → World → Prop := V.post V.directed

/-- After a reply that has `L` when it was played in full. -/
def after (V : Verdicts) (L : World → Prop) (played : Bool) : World → Prop :=
  if played then L else V.loose

end Verdicts

section Rules
variable (cfg : RuntimeConfig) (M : Machine sig World) (I : Op → World → Prop) (V : Verdicts)

/-- What the parts of a round outside its turn have to do to the assertions. -/
structure RoundRule : Prop where
  live : Rests M I V.dropped V.live
  exhausted : ∀ {w}, V.live w → I .outOfFuel w
  stuck : ∀ {r w w'}, M.reply .outOfFuel r w ≠ some w'
  live_failed : ∀ w, V.live w → V.failed w
  stopped : ∀ {w}, V.live w → w.session.state = .ended → V.finished w
  listen : ∀ {w}, V.live w → (awaitUserOrSilence cfg).wp M I (V.post V.heard) w
  heard : ∀ {o w}, V.heard o w → (∀ text, o ≠ .userFinal text) → V.live w
  spoken : ∀ {text w}, V.heard (.userFinal text) w → V.live (w.append (.userSpeech text))
  activation : ∀ {text w}, V.live w →
    (playTts .silenceActivation text).wp M I (V.post fun _ => V.live) w
  listenOnly : ∀ {text w}, V.live w →
    (playTts .listenOnlyCue text false).wp M I (V.post fun _ => V.live) w
  handoff : ∀ {type detail phrase w}, V.live w →
    (performHandoff type detail phrase).wp M I (V.post fun _ => V.finished) w
  remoteHangup : ∀ {w}, V.live w → TurnLoop.onRemoteHangup.wp M I (V.post V.directed) w
  silenceHangup : ∀ {phrase w}, V.live w →
    (TurnLoop.onSilenceHangup phrase).wp M I (V.post V.directed) w

/-- What a whole round has to do to the assertions. -/
structure LoopRule : Prop extends RoundRule cfg M I V where
  process : ∀ {fuel text shortReply w}, V.live w →
    (TurnLoop.process cfg fuel text w.session.inWrapUp shortReply).wp M I (V.post V.directed) w

/-- What the routes of a turn have to do to the assertions; a route is taken from `L`. -/
structure RouteRule (L : World → Prop) : Prop extends RoundRule cfg M I V where
  route : Rests M I V.dropped L
  route_live : ∀ w, L w → V.live w
  loose : Rests M I V.dropped V.loose
  loose_failed : ∀ w, V.loose w → V.failed w
  capped : ∀ {text w}, L w → (playTts .cappedDefault text).wp M I (V.post fun _ => L) w
  reply : ∀ {i filler delay start fuel w}, L w →
    (playStreaming i filler delay start fuel).wp M I (V.post fun r => V.after L r.2) w
  released : ∀ {routeId slot roleConfigId w}, L w → L (w.note (.released routeId slot roleConfigId))
  settled : ∀ {w}, V.loose w → V.live { w with session := w.session.interrupted }
  forget : ∀ {w}, L w → L { w with session := { w.session with interruptRemainingText := none } }
  closing : ∀ {w}, L w → V.live { w with session := { w.session with
    inWrapUp := true, wrapUpStartedAt := some w.clock } }
  hangupRoute : ∀ {sel i text audio f w}, V.live w →
    (GatedTurn.hangupRoute sel (addTrace i text audio f)).wp M I (V.post V.directed) w

/-- What the parts of a turn outside the wrap-up phase have to do to the assertions. -/
structure GateRule : Prop extends RouteRule cfg M I V V.live where
  route := live
  route_live := fun _ live => live
  processing : Rests M I V.dropped V.processing
  aborting : Rests M I V.dropped V.aborting
  gated_failed : ∀ w, V.gated w → V.failed w
  aborting_failed : ∀ w, V.aborting w → V.failed w
  enterGate : ∀ {w}, V.live w → V.processing
    { w.note .turn with session := { w.session with inProcessingTurn := true } }
  gate : Keeps M I V.dropped V.processing (await .gate)
  leaveGate : ∀ {w}, V.processing w →
    V.gated { w with session := { w.session with inProcessingTurn := false } }
  dropGate : ∀ {w}, V.dropped w →
    V.dropped { w with session := { w.session with inProcessingTurn := false } }
  unsignaled : ∀ {w}, V.gated w → w.session.interruptionSignaled = false → V.live w
  signaled : ∀ {w}, V.gated w → w.session.interruptionSignaled = true → V.aborting w
  aborted : ∀ {w}, V.aborting w → V.live ({ w with session := w.session.interrupted }.note .abort)

/-- What a turn of the wrap-up phase has to do to the assertions; it is taken from `L`. -/
structure WrapUpRule (L : World → Prop) : Prop extends RouteRule cfg M I V L where
  wrapUpReply : ∀ {w}, L w → L (w.note .wrapUpReply)
  wrapUpPlayed : ∀ {elapsed w}, L w → L (w.note (.wrapUpReplied elapsed))
  wrapUpCut : ∀ {elapsed w}, V.loose w → V.loose (w.note (.wrapUpReplied elapsed))
  round : ∀ {w}, L w → L { w with session := { w.session with
    wrapUpRoundCount := w.session.wrapUpRoundCount + 1 } }
  complete : ∀ {reason w}, L w → (WrapUpTurn.complete cfg reason).wp M I (V.post V.directed) w
  refereeHangup : ∀ {w}, L w → WrapUpTurn.refereeHangup.wp M I (V.post V.directed) w

/-- What listening, playing, the gate, the wrap-up phase and the endings have to do to the
assertions. -/
structure TurnRule : Prop extends GateRule cfg M I V, WrapUpRule cfg M I V V.live where
  turn : ∀ {w}, V.live w → V.live (w.note .turn)

end Rules

variable {cfg : RuntimeConfig} {M : Machine sig World} {I : Op → World → Prop} {V : Verdicts}
  {L : World → Prop} {w : World} {fuel processingStart mainStream : Nat} {userText : Text}
  {useFiller transferLlm : Bool} {sel : GatedSelection} {candidates : List Candidate}

namespace RouteRule
variable (rule : RouteRule cfg M I V L)
include rule

theorem route_failed (w : World) (here : L w) : V.failed w :=
  rule.live_failed w (rule.route_live w here)

theorem after_rests (played : Bool) : Rests M I V.dropped (V.after L played) := by
  cases played with
  | true => exact rule.route
  | false => exact rule.loose

theorem after_failed (played : Bool) (w : World) (replied : V.after L played w) : V.failed w := by
  cases played with
  | true => exact rule.route_failed w replied
  | false => exact rule.loose_failed w replied

theorem runRestructure_wp {text : Text} {trigger : Option String} (here : L w) :
    (runRestructure cfg fuel text trigger).wp M I (V.post fun played => V.after L played) w := by
  refine (rule.route.runPipelineStream _ _ _).seq here rule.route_failed fun i w₁ here₁ => ?_
  refine (Keeps.read _).seq here₁ rule.route_failed fun now w₂ here₂ => ?_
  refine wp.seq (rule.reply here₂) fun r w₃ replied => ?_
  have rests := rule.after_rests r.2
  have fails := rule.after_failed r.2
  refine (rests.appendAiReply _ _ _ _ _).seq replied fails fun _ w₄ replied₄ => ?_
  exact (rests.addTrace _ _ _ _).seq replied₄ fails fun _ _ replied₅ => replied₅

theorem cappedRoute_wp (here : L w) : (GatedTurn.cappedRoute cfg).wp M I V.round w := by
  have spoken : ∀ w, L w → (when (cfg.pipeline.defaultReplies ≠ []) do
      let reply ← await (.choice cfg.pipeline.defaultReplies)
      playTts .cappedDefault reply).wp M I (V.post fun _ => L) w := by
    intro w here
    refine (wp_when _ _).mpr ?_
    split
    · refine (rule.route.wait _ rfl).seq here rule.route_failed fun _ _ here₁ => rule.capped here₁
    · exact here
  refine wp.seq (spoken w here) fun _ w₁ here₁ => ?_
  refine Keeps.seq ?_ here₁ rule.route_failed fun _ w₂ here₂ => rule.route_live w₂ here₂
  exact rule.route.record .capped fun _ => .of_eq rfl

theorem assembleInterruptText_keeps (source : Option String) :
    Keeps M I V.dropped L (assembleInterruptText source) := by
  refine Keeps.act fun w here => ?_
  dsimp only
  split
  · split
    · exact rule.forget here
    · exact rule.forget here
  · exact here

/-- The text that was assembled is re-voiced. -/
theorem revoice_wp {trigger : Option String}
    {trace : Prog Unit} (traces : Keeps M I V.dropped L trace) (text : Option Text) (here : L w) :
    (do
      trace
      match text with
      | none => pure .continue
      | some text => do
          let played ← runRestructure cfg fuel text trigger
          modifySession fun s => { s with
            consecutiveRestructureCount := s.consecutiveRestructureCount + 1 }
          when (!played) countInterruption
          pure .continue : Prog Directive).wp M I V.round w := by
  refine traces.seq here rule.route_failed fun _ w₁ here₁ => ?_
  cases text with
  | none => exact rule.route_live w₁ here₁
  | some text =>
      refine wp.seq (rule.runRestructure_wp here₁) fun played w₂ replied => ?_
      cases played with
      | true =>
          refine Keeps.seq ?_ replied rule.route_failed fun _ w₃ here₃ => rule.route_live w₃ here₃
          exact rule.route.session fun _ => .of_eq rfl
      | false =>
          refine Keeps.seq ?_ replied rule.loose_failed fun _ _ loose₃ => rule.settled loose₃
          exact rule.loose.session fun _ => .of_eq rfl

theorem restructureRoute_wp {trace : Option Text → Prog Unit}
    (traces : ∀ text, Keeps M I V.dropped L (trace text)) (here : L w) :
    (GatedTurn.restructureRoute cfg fuel sel trace).wp M I V.round w := by
  refine (Keeps.read _).seq here rule.route_failed fun capped w₁ here₁ => ?_
  split
  · exact (traces none).seq here₁ rule.route_failed fun _ _ here₂ => rule.cappedRoute_wp here₂
  · refine (rule.assembleInterruptText_keeps _).seq here₁ rule.route_failed ?_
    exact fun text w₂ here₂ => rule.revoice_wp (traces text) text here₂

theorem enterWrapUp_wp {goalType : String} (here : L w) :
    (GatedTurn.enterWrapUp cfg goalType).wp M I (V.post fun _ => V.live) w := by
  refine (rule.route.transition _).seq here rule.route_failed fun _ w₁ here₁ => ?_
  refine wp_update_bind.mpr (Keeps.seq (K := V.live) ?_ (rule.closing here₁) rule.live_failed ?_)
  · exact rule.live.appendOf fun _ => ⟨rfl, rfl, rfl⟩
  · intro _ w₂ live₂
    refine Keeps.last ?_ live₂ rule.live_failed fun _ _ live₃ => live₃
    exact rule.live.appendOf fun _ => ⟨rfl, rfl, rfl⟩

theorem dialogueRoute_wp {trace : Nat → Option Nat → Prog Unit}
    (traces : ∀ {K} (_ : Rests M I V.dropped K) i audio, Keeps M I V.dropped K (trace i audio))
    (here : L w) :
    (GatedTurn.dialogueRoute cfg fuel useFiller processingStart mainStream candidates sel
      trace).wp M I V.round w := by
  refine (rule.route.chooseWinner _ _ _ _).seq here rule.route_failed fun winner w₁ here₁ => ?_
  refine (rule.route.transition _).seq here₁ rule.route_failed fun _ w₂ here₂ => ?_
  refine wp_update_bind.mpr ?_
  refine wp.seq (rule.reply (rule.released here₂)) fun r w₃ replied => ?_
  obtain ⟨firstAudioMs, played⟩ := r
  cases played with
  | false =>
      refine (traces rule.loose _ _).seq replied rule.loose_failed fun _ w₄ loose₄ => ?_
      refine (rule.loose.appendAiReply _ _ _ _ _).seq loose₄ rule.loose_failed ?_
      intro _ w₅ loose₅
      exact rule.settled loose₅
  | true =>
      have counters : Keeps M I V.dropped L (recordSession .repliedInFull fun s => { s with
          consecutiveInterruptionCount := 0, consecutiveRestructureCount := 0 }) :=
        rule.route.record _ fun _ => .of_eq rfl
      refine counters.seq replied rule.route_failed fun _ w₄ here₄ => ?_
      refine (traces rule.route _ _).seq here₄ rule.route_failed fun _ w₅ here₅ => ?_
      refine (rule.route.appendAiReply _ _ _ _ _).seq here₅ rule.route_failed ?_
      intro _ w₆ here₆
      refine wp.seq (L := fun _ => V.live) ((wp_when _ _).mpr ?_) fun _ _ live₇ => live₇
      split
      · exact rule.enterWrapUp_wp here₆
      · exact rule.route_live w₆ here₆

theorem handoffRoute_wp {row : TraceRecord → TraceRecord} {type detail : String}
    {phrase : Text} (live : V.live w) :
    (do
      cancelCandidates none candidates
      addTrace mainStream userText none row
      performHandoff type detail phrase
      pure Directive.return).wp M I V.round w := by
  refine (rule.live.cancelCandidates none candidates).seq live rule.live_failed ?_
  intro _ w₁ live₁
  refine (rule.live.addTrace _ _ _ _).seq live₁ rule.live_failed fun _ w₂ live₂ => ?_
  exact wp.seq (rule.handoff live₂) fun _ _ finished => finished

theorem route_wp {row : Option Text → TraceRecord → TraceRecord}
    {decision : Option TransferDecision} (here : L w) :
    (GatedTurn.route cfg fuel useFiller processingStart mainStream candidates sel
      (fun text i audio => addTrace i userText audio (row text)) decision).wp M I V.round w := by
  have cancels := rule.route.cancelCandidates none candidates
  have live := rule.route_live w here
  have handoff : ∀ {type detail phrase}, (do
      cancelCandidates none candidates
      addTrace mainStream userText none (row none)
      performHandoff type detail phrase
      pure Directive.return).wp M I V.round w :=
    rule.handoffRoute_wp live
  unfold GatedTurn.route
  split
  · exact handoff
  · exact handoff
  · exact handoff
  · refine (rule.live.cancelCandidates none candidates).seq live rule.live_failed ?_
    exact fun _ _ live₁ => rule.hangupRoute live₁
  · exact handoff
  · split
    · refine cancels.seq here rule.route_failed fun _ _ here₁ => ?_
      exact rule.restructureRoute_wp (fun text => rule.route.addTrace _ _ _ _) here₁
    · exact rule.dialogueRoute_wp (fun rests i audio => rests.addTrace _ _ _ _) here

end RouteRule

namespace GateRule
variable (rule : GateRule cfg M I V)
include rule

theorem gatePhase_wp (live : V.live w) :
    (gatePhase cfg).wp M I (V.post fun _ => V.gated) (w.note .turn) := by
  refine wp_update_bind.mpr ?_
  refine wp.andFinally (P := outcomes V.dropped V.processing fun _ => V.processing) ?_ ?_
  · refine Keeps.bind (rule.processing.runPipelineStream _ _ _) (fun _ => ?_) _
      (rule.enterGate live)
    refine (rule.processing.other fun _ => rfl).bind fun _ => (Keeps.read _).bind fun _ => ?_
    refine (rule.processing.spawnPersonas _ _ _).bind fun _ => ?_
    split
    · exact (Keeps.pure _).bind fun _ => (rule.processing.other fun _ => rfl).bind fun _ =>
        Keeps.pure _
    · exact rule.gate.bind fun _ => (rule.processing.other fun _ => rfl).bind fun _ =>
        Keeps.pure _
  · intro r w' post
    match r with
    | .ok _ => exact rule.leaveGate post
    | .error .cancelled => exact rule.dropGate post
    | .error (.error e) => exact rule.gated_failed _ (rule.leaveGate post)

theorem abort_wp {results : List RefereeResult} (aborting : V.aborting w) :
    (GatedTurn.abort mainStream userText candidates results).wp M I V.round w := by
  refine (rule.aborting.cancelCandidates _ _).seq aborting rule.aborting_failed ?_
  intro _ w₁ aborting₁
  refine wp_update_bind.mpr (wp_update_bind.mpr ?_)
  exact (rule.live.addTrace _ _ _ _).seq (rule.aborted aborting₁) rule.live_failed
    fun _ _ live => live

omit rule in
theorem autoRestructure_session (cfg : PipelineConfig) (results : List RefereeResult)
    (s : CallSession) (action : DeciderAction) : (autoRestructure cfg results s action).2 = s ∨
      (autoRestructure cfg results s action).2 = { s with interruptRemainingText := none } := by
  simp only [autoRestructure]
  split_ifs
  · exact .inl rfl
  · exact .inr rfl
  · exact .inl rfl

theorem release_wp {results : List RefereeResult} (live : V.live w) :
    (GatedTurn.release cfg fuel userText useFiller transferLlm processingStart mainStream
      candidates results).wp M I V.round w := by
  refine wp_act_bind.mpr ?_
  have live₁ : V.live { w with session := (autoRestructure cfg.pipeline results w.session
      (decideAction results cfg.pipeline.routingRules)).2 } := by
    obtain same | same := autoRestructure_session cfg.pipeline results w.session
      (decideAction results cfg.pipeline.routingRules)
    · rw [same]
      exact live
    · rw [same]
      exact rule.forget live
  refine (rule.live.resolveTransferLlm _).seq live₁ rule.live_failed fun decision w₂ live₂ => ?_
  exact rule.route_wp live₂

/-- The rule of a turn outside the wrap-up phase. -/
theorem gatedTurn_wp (live : V.live w) :
    (runGatedTurn cfg fuel userText false useFiller transferLlm processingStart).wp M I
      V.round w := by
  refine wp_update_bind.mpr ?_
  refine wp.seq (rule.gatePhase_wp live) fun opened w₁ gated => ?_
  refine wp_read_bind.mpr ?_
  split
  · exact rule.abort_wp (rule.signaled gated ‹_›)
  · exact rule.release_wp (rule.unsignaled gated (Bool.eq_false_iff.mpr ‹_›))

end GateRule

namespace WrapUpRule
variable (rule : WrapUpRule cfg M I V L)
include rule

theorem afterReply_wp (here : L w) : (WrapUpTurn.afterReply cfg).wp M I V.round w := by
  refine (rule.route.refereeVerdict _).seq here rule.route_failed fun verdict w₁ here₁ => ?_
  refine Keeps.seq (rule.route.other fun _ => rfl) here₁ rule.route_failed fun _ w₂ here₂ => ?_
  split
  · exact rule.refereeHangup here₂
  · have counted : Keeps M I V.dropped L (modifySession fun s => { s with
        wrapUpRoundCount := s.wrapUpRoundCount + 1 }) := Keeps.update fun _ => rule.round
    refine counted.seq here₂ rule.route_failed fun _ w₃ here₃ => ?_
    refine (Keeps.read _).seq here₃ rule.route_failed fun exhausted w₄ here₄ => ?_
    cases exhausted with
    | none => exact rule.route_live w₄ here₄
    | some reason => exact rule.complete here₄

theorem wrapUpReplied {played : Bool} {elapsed : Nat} (replied : V.after L played w) :
    V.after L played (w.note (.wrapUpReplied elapsed)) := by
  cases played with
  | true => exact rule.wrapUpPlayed replied
  | false => exact rule.wrapUpCut replied

theorem wrapUpRun_wp (here : L w) :
    (WrapUpTurn.run cfg fuel userText processingStart).wp M I V.round w := by
  refine (rule.route.runPipelineStream _ _ _).seq here rule.route_failed fun i w₁ here₁ => ?_
  refine Keeps.seq (Keeps.when (rule.route.other fun _ => rfl)) here₁ rule.route_failed ?_
  intro _ w₂ here₂
  refine (rule.route.transition _).seq here₂ rule.route_failed fun _ w₃ here₃ => ?_
  refine wp_update_bind.mpr (wp.seq (rule.reply (rule.wrapUpReply here₃)) ?_)
  intro r w₄ replied
  have rests := rule.after_rests r.2
  have fails := rule.after_failed r.2
  refine wp_update_bind.mpr ?_
  refine (rests.addTrace _ _ _ _).seq (rule.wrapUpReplied replied) fails fun _ w₄ replied₄ => ?_
  refine (rests.appendAiReply _ _ _ _ _).seq replied₄ fails fun _ w₅ replied₅ => ?_
  obtain ⟨firstAudioMs, played⟩ := r
  cases played with
  | false =>
      refine Keeps.seq (rule.loose.other fun _ => rfl) replied₅ rule.loose_failed ?_
      exact fun _ _ loose => rule.settled loose
  | true => exact rule.afterReply_wp replied₅

end WrapUpRule

namespace TurnRule
variable (rule : TurnRule cfg M I V)
include rule

theorem runGatedTurn_wp {isWrapUp : Bool} (live : V.live w) :
    (runGatedTurn cfg fuel userText isWrapUp useFiller transferLlm processingStart).wp M I
      V.round w := by
  cases isWrapUp with
  | true => exact wp_update_bind.mpr (rule.wrapUpRun_wp (rule.turn live))
  | false => exact rule.gatedTurn_wp live

end TurnRule

namespace RoundRule

theorem onSilenceActivation_wp (rule : RoundRule cfg M I V) {phrase : Text} (live : V.live w) :
    (TurnLoop.onSilenceActivation phrase).wp M I V.round w := by
  refine (rule.live.transition _).seq live rule.live_failed fun _ w₁ live₁ => ?_
  refine Keeps.seq (rule.live.appendOf fun _ => ⟨rfl, rfl, rfl⟩) live₁ rule.live_failed ?_
  intro _ w₂ live₂
  refine wp.seq (rule.activation live₂) fun _ w₃ live₃ => ?_
  have counted : Keeps M I V.dropped V.live (modifySession fun s => { s with
      silenceActivationCount := s.silenceActivationCount + 1 }) :=
    rule.live.session fun _ => .of_eq rfl
  refine counted.seq live₃ rule.live_failed fun _ w₄ live₄ => ?_
  exact (rule.live.transition _).seq live₄ rule.live_failed fun _ _ live₅ => live₅

theorem onListenOnly_wp (rule : RoundRule cfg M I V) (live : V.live w) :
    TurnLoop.onListenOnly.wp M I V.round w := by
  refine (rule.live.transition _).seq live rule.live_failed fun _ w₁ live₁ => ?_
  refine wp.seq (rule.listenOnly live₁) fun _ w₂ live₂ => ?_
  have counted : Keeps M I V.dropped V.live (modifySession fun s => { s with
      consecutiveInterruptionCount := 0 }) :=
    rule.live.session fun _ => .of_eq rfl
  refine counted.seq live₂ rule.live_failed fun _ w₃ live₃ => ?_
  refine Keeps.seq (rule.live.other fun _ => rfl) live₃ rule.live_failed fun _ w₄ live₄ => ?_
  exact (rule.live.transition _).seq live₄ rule.live_failed fun _ _ live₅ => live₅

/-- A turn is processed as `_run_gated_turn` does. -/
theorem process_wp {K : World → Prop} (rests : Rests M I V.dropped K)
    (fails : ∀ w, K w → V.failed w) {isWrapUp shortReply : Bool}
    (turn : ∀ {useFiller transferLlm processingStart w}, K w →
      (runGatedTurn cfg fuel userText isWrapUp useFiller transferLlm processingStart).wp M I
        V.round w) (holds : K w) :
    (TurnLoop.process cfg fuel userText isWrapUp shortReply).wp M I V.round w := by
  refine Keeps.seq (rests.other fun _ => rfl) holds fails fun _ w₁ holds₁ => ?_
  refine (rests.transition _).seq holds₁ fails fun _ w₂ holds₂ => ?_
  refine (rests.ext .publish).seq holds₂ fails fun _ w₃ holds₃ => wp_read_bind.mpr ?_
  exact Keeps.seq (rests.other fun _ => rfl) holds₃ fails fun _ _ holds₄ => turn holds₄

theorem evaluateTransferCheap_keeps {C K : World → Prop} (rests : Rests M I C K)
    (cfg : RuntimeConfig) (userText : Text) :
    Keeps M I C K (evaluateTransferCheap cfg userText) := by
  refine (Keeps.read _).bind fun turnCount => ?_
  split
  · exact (rests.pickFrom _ _).bind fun _ => Keeps.pure _
  · exact Keeps.pure none

end RoundRule

theorem TurnRule.loop (rule : TurnRule cfg M I V) : LoopRule cfg M I V where
  toRoundRule := rule.toRoundRule
  process live := RoundRule.process_wp rule.live rule.live_failed rule.runGatedTurn_wp live

namespace LoopRule
variable (rule : LoopRule cfg M I V)
include rule

theorem onUserFinal_wp (heard : V.heard (.userFinal userText) w) :
    (TurnLoop.onUserFinal cfg fuel userText).wp M I V.round w := by
  refine wp_update_bind.mpr ?_
  refine (rule.live.ext .publish).seq (rule.spoken heard) rule.live_failed fun _ w₁ live₁ => ?_
  refine (RoundRule.evaluateTransferCheap_keeps rule.live cfg userText).seq live₁
    rule.live_failed fun decision w₂ live₂ => ?_
  cases decision with
  | some d => exact wp.seq (rule.handoff live₂) fun _ _ finished => finished
  | none =>
      refine wp_read_bind.mpr (wp_read_bind.mpr ?_)
      split
      · exact rule.onListenOnly_wp live₂
      · exact rule.process live₂
      · exact rule.process live₂

theorem onOutcome_wp {o : Outcome} (heard : V.heard o w) :
    (TurnLoop.onOutcome cfg fuel o).wp M I V.round w := by
  cases o with
  | remoteHangup => exact rule.remoteHangup (rule.heard heard nofun)
  | silenceHangup phrase => exact rule.silenceHangup (rule.heard heard nofun)
  | silenceActivation phrase => exact rule.onSilenceActivation_wp (rule.heard heard nofun)
  | noProgress => exact rule.heard heard nofun
  | userFinal text => exact rule.onUserFinal_wp heard

/-- The rule of the turn loop: one round after the other, each from `live`. -/
theorem mainTurnLoop_wp {replyFuel : Nat} (live : V.live w) :
    (mainTurnLoop cfg replyFuel fuel).wp M I (V.post fun _ => V.finished) w := by
  induction fuel generalizing w with
  | zero => exact outOfFuel_wp (fun _ _ _ => rule.stuck) (rule.exhausted live)
  | succ fuel ih =>
      refine wp_read_bind.mpr ((wp_when _ _).mpr ?_)
      split
      · refine wp.seq (rule.listen live) fun o w₁ heard => ?_
        refine wp.seq (rule.onOutcome_wp heard) fun directive w₂ directed => ?_
        cases directive with
        | «return» => exact directed
        | «continue» => exact ih directed
      · rename_i ended
        exact rule.stopped live (by simpa using ended)

end LoopRule
end IsalesEngine
