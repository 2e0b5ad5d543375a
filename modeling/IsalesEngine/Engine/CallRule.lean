import IsalesEngine.Engine.TurnRule

/-!
The rule of a whole call: `run_session` from dialling to cleanup, with the turn
loop in the middle. A property of every run is an instance of this rule, or of
the frame it is derived from, in which the loop is taken as a whole.
-/
namespace IsalesEngine
open Asyncio Asyncio.Coro

section Rules
variable (cfg : RuntimeConfig) (M : Machine sig World) (I : Op → World → Prop) (V : Verdicts)
  (Q : Reply Unit → World → Prop)

/-- What the parts of a call around the turn loop have to do to the assertions; `Q` is what is
asked of `run_session` itself. -/
structure CallParts : Prop where
  begin : ∀ {w}, V.dialing w →
    V.dialing { w with session := { w.session with callStartedAt := w.clock } }
  announce : ∀ {w}, V.dialing w → (ext .publish).wp M I
    (fun r w' => match r with
      | .ok _ => V.dialing w'
      | .error e => Q (.error e) w') w
  dispatching : ∀ {w}, V.dialing w → V.dialing { w with bus := { w.bus with dispatching := true } }
  dial : ∀ {w}, V.dialing w → dialAndWaitConnected.wp M I (V.post fun _ => V.dialed) w
  noAnswer : ∀ {w}, V.dialed w → RunSession.onNoAnswer.wp M I (V.post fun _ => V.finished) w
  connected : ∀ {w}, V.dialed w → V.greeting (w.transition .inCall "connected")
  greeting_failed : ∀ w, V.greeting w → V.failed w
  ambient : ∀ {w}, V.greeting w → V.greeting { w with phone := { w.phone with
    outboundPump := w.phone.outboundPump || w.phone.inCalls } }
  pumps : ∀ {w asr ev probe}, V.greeting w → V.greeting { w with listen := { w.listen with
    asrPump := asr, evPump := ev, prewarm := probe } }
  greet : ∀ {text w}, V.greeting w →
    (playTts .greeting text).wp M I (V.post fun _ => V.greeting) w
  monitored : ∀ {w}, V.greeting w → V.live w.monitored
  attached : ∀ {w}, V.live w →
    V.live { w with listen := { w.listen with monitorsAttached := true } }
  exception : ∀ {w}, V.failed w →
    RunSession.onException.wp M I (outcomes V.dropped (fun _ => False) fun _ => V.finished) w
  cleanupFinished : ∀ {w}, V.finished w → RunSession.cleanup.wp M I (finallyThen (.ok ()) Q) w
  cleanupDropped : ∀ {w}, V.dropped w →
    RunSession.cleanup.wp M I (finallyThen (.error .cancelled) Q) w

structure CallRule : Prop extends LoopRule cfg M I V, CallParts M I V Q where
  greeting : Rests M I V.dropped V.greeting

/-- What a call has to do to the assertions, with its turn loop as one of its parts. -/
structure CallFrame : Prop extends CallParts M I V Q where
  greeting : Waits M I V.dropped V.greeting
  words : ∀ {text w}, V.greeting w → V.greeting (w.append (.greeting text))
  greeted : ∀ {w}, V.greeting w → V.greeting (w.transition .inCall "greeting_done")
  watch : Waits M I V.dropped V.live
  live_failed : ∀ w, V.live w → V.failed w
  loop : ∀ {fuel w}, V.live w → (mainTurnLoop cfg fuel fuel).wp M I (V.post fun _ => V.finished) w

end Rules

variable {cfg : RuntimeConfig} {M : Machine sig World} {I : Op → World → Prop} {V : Verdicts}
  {Q : Reply Unit → World → Prop} {w : World} {fuel : Nat}

theorem Waits.generateGreeting {C K : World → Prop} (waits : Waits M I C K) (cfg : RuntimeConfig) :
    Keeps M I C K (generateGreeting cfg) := by
  unfold IsalesEngine.generateGreeting
  split
  · exact Keeps.pure _
  · refine Keeps.bind ?_ fun _ => Keeps.pure _
    exact (waits.wait .greetingChat rfl).exceptError fun _ => Keeps.pure _

namespace CallFrame
variable (frame : CallFrame cfg M I V Q)
include frame

theorem doGreeting_wp (greeting : V.greeting w) :
    (doGreeting cfg).wp M I (V.post fun _ => V.greeting) w := by
  refine (frame.greeting.ext .llmFor).seq greeting frame.greeting_failed fun _ w₁ greeting₁ => ?_
  refine (frame.greeting.generateGreeting cfg).seq greeting₁ frame.greeting_failed ?_
  intro text w₂ greeting₂
  exact wp_update_bind.mpr (frame.greet (frame.words greeting₂))

theorem startMonitors_wp (greeting : V.greeting w) :
    startMonitors.wp M I (V.post fun _ => V.live) w.drained := by
  refine wp_update_bind.mpr ?_
  exact (frame.watch.ext .audioInVad).seq (frame.monitored greeting) frame.live_failed
    fun _ _ live => frame.attached live

theorem afterConnect_wp (dialed : V.dialed w) :
    (RunSession.afterConnect cfg fuel).wp M I (V.post fun _ => V.finished) w := by
  have fails := frame.greeting_failed
  refine wp_update_bind.mpr ?_
  refine (frame.greeting.ext .publish).seq (frame.connected dialed) fails fun _ w₁ greeting₁ => ?_
  have ambient : Keeps M I V.dropped V.greeting Telephony.configureAmbient :=
    (frame.greeting.ext .configureAmbient).bind fun _ => Keeps.update fun _ => frame.ambient
  refine ambient.seq greeting₁ fails fun _ w₂ greeting₂ => ?_
  refine (frame.greeting.ext .setBargeInFadeout).seq greeting₂ fails fun _ w₃ greeting₃ => ?_
  have pumps : Keeps M I V.dropped V.greeting startListenPumps :=
    (frame.greeting.ext .streamRecognize).bind fun _ => (frame.greeting.ext .events).bind fun _ =>
      Keeps.update fun _ => frame.pumps
  refine pumps.seq greeting₃ fails fun _ w₄ greeting₄ => ?_
  have kicks : Keeps M I V.dropped V.greeting kickMainLlmPrewarm :=
    (frame.greeting.ext .llmFor).bind fun _ => Keeps.update fun _ => frame.pumps
  refine kicks.when.seq greeting₄ fails fun _ w₅ greeting₅ => ?_
  refine wp.seq (frame.doGreeting_wp greeting₅) fun _ w₆ greeting₆ => ?_
  refine wp_update_bind.mpr ?_
  refine (frame.greeting.ext .publish).seq (frame.greeted greeting₆) fails fun _ w₇ greeting₇ => ?_
  have prewarm : Keeps M I V.dropped V.greeting
      (when (prewarms cfg) (suppress isException (await .reapPrewarm))) :=
    Keeps.when (Keeps.suppress rfl (frame.greeting.wait .reapPrewarm rfl))
  refine prewarm.seq greeting₇ fails fun _ w₈ greeting₈ => ?_
  refine wp_update_bind.mpr ?_
  exact wp.seq (frame.startMonitors_wp greeting₈) fun _ _ live => frame.loop live

theorem body_wp (dialing : V.dialing w) :
    (RunSession.body cfg fuel).wp M I (V.post fun _ => V.finished) w := by
  refine wp_update_bind.mpr ?_
  refine wp.seq (frame.dial (frame.dispatching dialing)) fun connected w₁ dialed => ?_
  cases connected with
  | true => exact frame.afterConnect_wp dialed
  | false => exact frame.noAnswer dialed

theorem runSession_wp (dialing : V.dialing w) : (runSession cfg fuel).wp M I Q w := by
  refine wp_update_bind.mpr ?_
  refine (frame.announce (frame.begin dialing)).bind ?_ (fun _ _ failed => failed)
  intro _ w₁ dialing₁
  refine wp.andFinally (P := outcomes V.dropped (fun _ => False) fun _ => V.finished) ?_ ?_
  · exact (frame.body_wp dialing₁).exceptError (fun _ _ finished => finished)
      (fun _ dropped => dropped) (fun _ _ failed => frame.exception failed)
  · intro r w₂ post
    match r with
    | .ok _ => exact frame.cleanupFinished post
    | .error .cancelled => exact frame.cleanupDropped post
    | .error (.error e) => exact post.elim

end CallFrame

theorem CallRule.frame (rule : CallRule cfg M I V Q) : CallFrame cfg M I V Q :=
  { rule with
    greeting := rule.greeting.toWaits
    words := fun {text w} greeting => rule.greeting.bookkeeping
      ⟨.append (e := .greeting text) w.session w.clock rfl rfl rfl, rfl⟩ greeting
    greeted := fun {w} greeting => rule.greeting.bookkeeping
      ⟨.transition w.session w.clock _, rfl⟩ greeting
    watch := rule.live.toWaits
    loop := fun live => rule.mainTurnLoop_wp live }

/-- The rule of a whole call. -/
theorem CallRule.runSession_wp (rule : CallRule cfg M I V Q) (dialing : V.dialing w) :
    (runSession cfg fuel).wp M I Q w := rule.frame.runSession_wp dialing

end IsalesEngine
