import IsalesEngine.Engine.Frames

/-!
The ways a call ends, and assertions that hold of a call throughout. An ending
is a last phrase, the transition, the cause and the `hangup` event, in an order
that differs from one ending to the next; an assertion that survives each of
these survives them all. An assertion that also does not care about the turn in
progress is an instance of the turn rule.
-/
namespace IsalesEngine
open Asyncio Asyncio.Coro

variable {M : Machine sig World} {I : Op → World → Prop} {C K : World → Prop}

/-- What the end of a call leaves alone in its session. -/
structure SessionEnding (s s' : CallSession) : Prop where
  speeches : s'.userSpeeches = s.userSpeeches
  speaking : s'.currentSpeakingTask = s.currentSpeakingTask
  processing : s'.inProcessingTurn = s.inProcessingTurn
  signaled : s'.interruptionSignaled = s.interruptionSignaled
  remaining : s'.interruptRemainingText = s.interruptRemainingText
  wrapUp : s'.wrapUp = s.wrapUp

namespace SessionEnding

theorem transition (s : CallSession) (now : Nat) (new : CallStatus) (reason : String) :
    SessionEnding s (StateMachine.transitionTo s now new reason) := by
  unfold StateMachine.transitionTo
  split
  · exact ⟨rfl, rfl, rfl, rfl, rfl, rfl⟩
  · dsimp only
    split
    · exact ⟨rfl, rfl, rfl, rfl, rfl, rfl⟩
    · refine ⟨?_, rfl, rfl, rfl, rfl, rfl⟩
      show (s.appendEvent now (.stateWarning reason s.state new)).userSpeeches = s.userSpeeches
      simp

theorem append (s : CallSession) (now : Nat) {e : TranscriptEvent} (user : e.isUserSpeech = false) :
    SessionEnding s (s.appendEvent now e) := by
  refine ⟨?_, rfl, rfl, rfl, rfl, rfl⟩
  cases e with
  | userSpeech text => cases user
  | _ => simp

end SessionEnding

def Mark.ofEnding : Mark → Bool
  | .attemptHangup | .recorded _ => true
  | _ => false

/-- An assertion that survives every way a call ends. -/
structure EndingFrame (M : Machine sig World) (I : Op → World → Prop) (C K : World → Prop) : Prop
    extends Waits M I C K where
  play : ∀ site text interruptible, Keeps M I C K (playTts site text interruptible)
  phone : ∀ {w p}, K w → K { w with phone := p }
  session : ∀ {w s}, SessionEnding w.session s → K w → K { w with session := s }
  ending : ∀ {w m}, m.ofEnding = true → K w → K (w.note m)

namespace EndingFrame
variable (frame : EndingFrame M I C K)
include frame

theorem phoneFrame : PhoneFrame M I C K := ⟨frame.toWaits, frame.phone⟩

theorem transition (new : CallStatus) (reason : String) : Keeps M I C K (transition new reason) :=
  Keeps.update fun w => frame.session (.transition w.session w.clock new reason)

theorem append {e : TranscriptEvent} (user : e.isUserSpeech = false) : Keeps M I C K (append e) :=
  Keeps.update fun w => frame.session (.append w.session w.clock user)

theorem setHangupCause (cause : HangupCause) : Keeps M I C K (setHangupCause cause) :=
  Keeps.update fun _ => frame.session ⟨rfl, rfl, rfl, rfl, rfl, rfl⟩

theorem appendHangup (reason initiatedBy : String) :
    Keeps M I C K (appendHangup reason initiatedBy) :=
  Keeps.update fun w h =>
    frame.ending rfl (frame.session (.append w.session w.clock rfl) h)

theorem performHandoff (type detail : String) (phrase : Text) :
    Keeps M I C K (performHandoff type detail phrase) := by
  refine (frame.transition _ _).bind fun _ => (frame.append rfl).bind fun _ => ?_
  refine (Keeps.when (frame.play _ _ _)).bind fun _ => Keeps.bind ?_ fun _ => ?_
  · exact Keeps.update fun _ => frame.session ⟨rfl, rfl, rfl, rfl, rfl, rfl⟩
  refine (frame.append rfl).bind fun _ => ?_
  refine (frame.phoneFrame.attemptHangup (frame.ending rfl)).bind fun _ => ?_
  refine (frame.transition _ _).bind fun _ => (frame.setHangupCause _).bind fun _ => ?_
  exact frame.appendHangup _ _

theorem hangupRoute (sel : GatedSelection) {trace : Prog Unit} (traces : Keeps M I C K trace) :
    Keeps M I C K (GatedTurn.hangupRoute sel trace) := by
  refine (frame.setHangupCause _).bind fun _ => (Keeps.when (frame.play _ _ _)).bind fun _ => ?_
  refine traces.bind fun _ => (frame.transition _ _).bind fun _ => ?_
  exact (frame.appendHangup _ _).bind fun _ => Keeps.pure _

theorem complete (cfg : RuntimeConfig) (reason : String) :
    Keeps M I C K (WrapUpTurn.complete cfg reason) := by
  refine (frame.pickFrom _ _).bind fun _ => (frame.play _ _ _).bind fun _ => ?_
  refine (frame.append rfl).bind fun _ => (frame.transition _ _).bind fun _ => ?_
  refine (frame.setHangupCause _).bind fun _ => (frame.appendHangup _ _).bind fun _ => ?_
  exact Keeps.pure _

theorem refereeHangup : Keeps M I C K WrapUpTurn.refereeHangup := by
  refine (frame.setHangupCause _).bind fun _ => (frame.transition _ _).bind fun _ => ?_
  exact (frame.appendHangup _ _).bind fun _ => Keeps.pure _

theorem onRemoteHangup : Keeps M I C K TurnLoop.onRemoteHangup := by
  refine (frame.transition _ _).bind fun _ => (frame.setHangupCause _).bind fun _ => ?_
  exact (frame.appendHangup _ _).bind fun _ => Keeps.pure _

theorem onSilenceHangup (phrase : Option Text) :
    Keeps M I C K (TurnLoop.onSilenceHangup phrase) := by
  refine (Keeps.when (frame.play _ _ _)).bind fun _ => (Keeps.read _).bind fun _ => ?_
  refine (frame.transition _ _).bind fun _ => (frame.setHangupCause _).bind fun _ => ?_
  exact (frame.appendHangup _ _).bind fun _ => Keeps.pure _

theorem onNoAnswer : Keeps M I C K RunSession.onNoAnswer := by
  refine (frame.transition _ _).bind fun _ => (frame.setHangupCause _).bind fun _ => ?_
  exact frame.appendHangup _ _

theorem onException : Keeps M I C K RunSession.onException := by
  refine (Keeps.read _).bind fun _ => (Keeps.when (frame.transition _ _)).bind fun _ => ?_
  refine Keeps.bind ?_ fun _ => ?_
  · exact Keeps.update fun _ => frame.session ⟨rfl, rfl, rfl, rfl, rfl, rfl⟩
  · exact Keeps.update fun w h => frame.ending rfl (frame.session (.append w.session w.clock rfl) h)

theorem exception_wp {w : World} (holds : K w) :
    RunSession.onException.wp M I (outcomes C (fun _ => False) fun _ => K) w :=
  frame.onException.unfailing RunSession.unfailing_onException holds

end EndingFrame

/-- The coroutine ends the turn loop, if it ends normally. -/
def Returning (M : Machine sig World) (x : Prog Directive) : Prop :=
  ∀ w, x.wp M (fun _ _ => True) (fun r _ => ∀ d, r = .ok d → d = .return) w

namespace Returning

theorem pure : Returning M (Pure.pure .return) := by
  rintro w d ⟨rfl⟩
  rfl

theorem bind {α : Type} {x : Prog α} {f : α → Prog Directive} (next : ∀ a, Returning M (f a)) :
    Returning M (x >>= f) :=
  fun w => (wp_true x w).bind (fun a w' _ => next a w') (fun _ _ _ => nofun)

theorem hangupRoute (sel : GatedSelection) (trace : Prog Unit) :
    Returning M (GatedTurn.hangupRoute sel trace) :=
  bind fun _ => bind fun _ => bind fun _ => bind fun _ => bind fun _ => pure

theorem complete (cfg : RuntimeConfig) (reason : String) :
    Returning M (WrapUpTurn.complete cfg reason) :=
  bind fun _ => bind fun _ => bind fun _ => bind fun _ => bind fun _ => bind fun _ => pure

theorem refereeHangup : Returning M WrapUpTurn.refereeHangup :=
  bind fun _ => bind fun _ => bind fun _ => pure

theorem onRemoteHangup : Returning M TurnLoop.onRemoteHangup :=
  bind fun _ => bind fun _ => bind fun _ => pure

theorem onSilenceHangup (phrase : Option Text) : Returning M (TurnLoop.onSilenceHangup phrase) :=
  bind fun _ => bind fun _ => bind fun _ => bind fun _ => bind fun _ => pure

/-- An ending as the turn rule asks for it. -/
theorem directed {V : Verdicts} {x : Prog Directive} {w : World} (returns : Returning M x)
    (kept : Keeps M I V.dropped K x) (holds : K w) (fails : ∀ w, K w → V.failed w)
    (finishes : ∀ w, K w → V.finished w) : x.wp M I V.round w := by
  refine ((kept w holds).and (returns w)).mono fun r w' post => ?_
  match r with
  | .ok d =>
      obtain rfl := post.2 d rfl
      exact finishes w' post.1
  | .error .cancelled => exact post.1
  | .error (.error _) => exact fails w' post.1

end Returning

/-- The marks that `main` leaves at the points of a turn. -/
def Mark.ofRound : Mark → Bool
  | .turn | .abort | .wrapUpReply | .wrapUpReplied _ => true
  | _ => false

/-- An assertion that every part of a turn keeps but the release of its reply. -/
structure RouteFrame (M : Machine sig World) (I : Op → World → Prop) (C K : World → Prop) : Prop
    extends EndingFrame M I C K, Rests M I C K where
  round : ∀ {w s}, s.userSpeeches = w.session.userSpeeches → K w → K { w with session := s }
  mark : ∀ {w m}, m.ofRound = true → K w → K (w.note m)
  reply : ∀ i filler delay start fuel, Keeps M I C K (playStreaming i filler delay start fuel)

namespace RouteFrame
variable (frame : RouteFrame M I C K)
include frame

theorem abort (mainStream : Nat) (userText : Text) (candidates : List Candidate)
    (results : List RefereeResult) :
    Keeps M I C K (GatedTurn.abort mainStream userText candidates results) := by
  refine (frame.cancelCandidates _ _).bind fun _ => Keeps.bind ?_ fun _ => Keeps.bind ?_ fun _ => ?_
  · exact Keeps.update fun _ => frame.round rfl
  · exact Keeps.update fun _ => frame.mark rfl
  · exact (frame.addTrace _ _ _ _).bind fun _ => Keeps.pure _

theorem runRestructure (cfg : RuntimeConfig) (fuel : Nat) (text : Text) (trigger : Option String) :
    Keeps M I C K (runRestructure cfg fuel text trigger) := by
  refine (frame.runPipelineStream _ _ _).bind fun i => (Keeps.read _).bind fun now => ?_
  refine (frame.reply _ _ _ _ _).bind fun r => (frame.appendAiReply _ _ _ _ _).bind fun _ => ?_
  exact (frame.addTrace _ _ _ _).bind fun _ => Keeps.pure _

theorem cappedRoute (cfg : RuntimeConfig) : Keeps M I C K (GatedTurn.cappedRoute cfg) := by
  refine Keeps.bind (Keeps.when ?_) fun _ => Keeps.bind ?_ fun _ => Keeps.pure _
  · exact (frame.wait (.choice _) rfl).bind fun _ => frame.play _ _ _
  · exact frame.record .capped fun _ => .of_eq rfl

theorem restructureRoute (cfg : RuntimeConfig) (fuel : Nat) (sel : GatedSelection)
    {trace : Option Text → Prog Unit} (traces : ∀ text, Keeps M I C K (trace text)) :
    Keeps M I C K (GatedTurn.restructureRoute cfg fuel sel trace) := by
  refine (Keeps.read _).bind fun capped => ?_
  split
  · exact (traces none).bind fun _ => frame.cappedRoute cfg
  · refine Keeps.bind (Keeps.act fun w holds => ?_) fun text => (traces text).bind fun _ => ?_
    · dsimp only
      split
      · split
        · exact frame.round rfl holds
        · exact frame.round rfl holds
      · exact holds
    · cases text with
      | none => exact Keeps.pure _
      | some text =>
          refine (frame.runRestructure cfg fuel text _).bind fun played => ?_
          refine Keeps.bind ?_ fun _ => Keeps.bind ?_ fun _ => Keeps.pure _
          · exact Keeps.update fun _ => frame.round rfl
          · exact Keeps.when (Keeps.update fun _ => frame.round rfl)

end RouteFrame

/-- The assertions of a property that holds of a call throughout; it has `E` up to the end of the
greeting, and a cancel leaves `C`. -/
def Verdicts.throughout (E K C : World → Prop) (heard : Outcome → World → Prop) : Verdicts where
  dialing := E
  dialed := E
  greeting := E
  live := K
  loose := K
  processing := K
  gated := K
  aborting := K
  heard := heard
  finished := K
  failed := K
  dropped := C

/-- An assertion that every part of a turn keeps. -/
structure TurnFrame (cfg : RuntimeConfig) (M : Machine sig World) (I : Op → World → Prop)
    (C K : World → Prop) (H : Outcome → World → Prop) : Prop extends RouteFrame M I C K where
  assertion : ∀ {w}, K w → I .outOfFuel w
  stuck : ∀ {r w w'}, M.reply .outOfFuel r w ≠ some w'
  dropped : ∀ {w s}, s.userSpeeches = w.session.userSpeeches → C w → C { w with session := s }
  released : ∀ {routeId slot roleConfigId w}, K w → K (w.note (.released routeId slot roleConfigId))
  listen : ∀ {w}, K w → (awaitUserOrSilence cfg).wp M I (outcomes C K H) w
  heard : ∀ {o w}, H o w → (∀ text, o ≠ .userFinal text) → K w
  spoken : ∀ {text w}, H (.userFinal text) w → K (w.append (.userSpeech text))

namespace TurnFrame
variable {cfg : RuntimeConfig} {E : World → Prop} {H : Outcome → World → Prop}

theorem directed (_ : TurnFrame cfg M I C K H) {x : Prog Directive} (kept : Keeps M I C K x)
    {w : World} (holds : K w) :
    x.wp M I ((Verdicts.throughout E K C H).post (Verdicts.throughout E K C H).directed) w := by
  refine kept.last holds (fun _ h => h) fun directive w' h => ?_
  cases directive with
  | «continue» | «return» => exact h

/-- A property that holds of a call throughout, as an instance of the turn rule. -/
theorem turnRule (frame : TurnFrame cfg M I C K H) :
    TurnRule cfg M I (Verdicts.throughout E K C H) where
  live := frame.toRests
  loose := frame.toRests
  processing := frame.toRests
  aborting := frame.toRests
  exhausted := frame.assertion
  stuck := frame.stuck
  live_failed _ h := h
  loose_failed _ h := h
  gated_failed _ h := h
  aborting_failed _ h := h
  stopped h _ := h
  listen := frame.listen
  heard := frame.heard
  spoken := frame.spoken
  activation := frame.play _ _ _ _
  capped := frame.play _ _ _ _
  listenOnly := frame.play _ _ _ _
  reply := by
    intro i filler delay start fuel w holds
    refine (frame.reply i filler delay start fuel).last holds (fun _ h => h) fun r w' h => ?_
    unfold Verdicts.after
    split
    · exact h
    · exact h
  released := frame.released
  settled := frame.round rfl
  enterGate h := frame.round rfl (frame.mark rfl h)
  gate := frame.wait .gate rfl
  leaveGate := frame.round rfl
  dropGate := frame.dropped rfl
  unsignaled h _ := h
  signaled h _ := h
  aborted h := frame.mark rfl (frame.round rfl h)
  forget := frame.round rfl
  closing := frame.round rfl
  turn := frame.mark rfl
  wrapUpReply := frame.mark rfl
  wrapUpPlayed := frame.mark rfl
  wrapUpCut := frame.mark rfl
  round := frame.round rfl
  handoff := frame.performHandoff _ _ _ _
  hangupRoute h := frame.directed (frame.hangupRoute _ (frame.addTrace _ _ _ _)) h
  complete h := frame.directed (frame.complete cfg _) h
  refereeHangup h := frame.directed frame.refereeHangup h
  remoteHangup h := frame.directed frame.onRemoteHangup h
  silenceHangup h := frame.directed (frame.onSilenceHangup _) h

end TurnFrame
end IsalesEngine
