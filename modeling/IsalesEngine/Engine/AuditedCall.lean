import IsalesEngine.Engine.AuditedTurn

/-!
The turn loop and `run_session` around it, held against the call log. A run of a
whole call has a logged ledger at every wait and when it ends.
-/
namespace IsalesEngine
open Asyncio Asyncio.Coro

namespace Audit
variable {a : Audit} {w : World} {fuel : Nat}

/-- What a whole call has to be given: it goes on, and any route may be taken. -/
structure Unbound (a : Audit) : Prop extends a.Abides where
  goesOn : a.rules.goesOn
  permits : ∀ sel, a.Permits sel

section Loop
variable {userText : Text} {isWrapUp shortReply : Bool}

theorem onRemoteHangup_wp (ended : a.At .ended [] w) :
    a.Ends TurnLoop.onRemoteHangup a.directed w := by
  refine (transition _ _).seq ended At.logged fun _ w₁ ended₁ => ?_
  refine (setHangupCause_keeps _).seq ended₁ At.logged fun _ w₂ ended₂ => ?_
  exact (appendHangup_keeps _ _).seq ended₂ At.logged fun _ _ ended₃ => ended₃

theorem onSilenceHangup_wp {phrase : Option Text} (ended : a.At .ended [] w) :
    a.Ends (TurnLoop.onSilenceHangup phrase) a.directed w := by
  refine (Keeps.when (playTts (fun _ => rfl) _ _)).seq ended At.logged fun _ w₁ ended₁ => ?_
  refine wp_read_bind.mpr ((transition _ _).seq ended₁ At.logged fun _ w₂ ended₂ => ?_)
  refine (setHangupCause_keeps _).seq ended₂ At.logged fun _ w₃ ended₃ => ?_
  exact (appendHangup_keeps _ _).seq ended₃ At.logged fun _ _ ended₄ => ended₄

theorem listenOnlyCue_wp {text : Text} {interruptible : Bool} (here : a.At .heard [] w) :
    a.Ends (IsalesEngine.playTts .listenOnlyCue text interruptible) (fun _ => a.At .cueing []) w :=
  (Booked.playTts_wp logged (fun _ log => log.step .cue) here).fail At.logged

theorem onListenOnly_wp (here : a.At .heard [] w) : a.Ends TurnLoop.onListenOnly a.directed w := by
  refine (transition _ _).seq here At.logged fun _ w₁ here₁ => ?_
  refine wp.seq (listenOnlyCue_wp here₁) fun _ w₂ here₂ => ?_
  have idle : a.At .idle [] { w₂ with session := { w₂.session with
      consecutiveInterruptionCount := 0 } } := here₂.enter .cued
  refine wp_update_bind.mpr (wp_update_bind.mpr (wp_update_bind.mpr ?_))
  exact idle.unchanged (World.ledger_transition _ _ _) rfl

/-- The round trigger can only fire where the rules allow it. -/
def RoundAllowed (a : Audit) (w : World) : Prop :=
  ∀ text detail, transferTrigger text w.session.dialogHistory.length false a.cfg.transfer =
    some ("round", detail) → a.rules.round w.ledger

theorem publish_wp (abides : a.Abides) (here : a.At .heard [] w) :
    a.Ends (ext .publish) (fun _ w => a.At .heard [] w ∧ a.RoundAllowed w) w := by
  refine wp_wait.mpr ⟨At.logged _ here, fun w₁ w₂ r steps replied => ?_⟩
  have here₁ := Booked.stable.steps steps here
  have here₂ := Booked.stable.reply here₁ replied
  obtain ⟨allowed, replied⟩ := Machine.restrict_reply_some replied
  match r with
  | .error .cancelled | .error (.error e) => exact At.logged _ here₂
  | .ok () =>
      cases replied
      exact ⟨here₂, fun text detail fires => abides.round allowed fires⟩

/-- The caller's words may have to hand the call over. -/
abbrev transfers (a : Audit) (d : TransferDecision) : World → Prop :=
  a.Given .heard (fun L => d.triggerType = "round" → a.rules.round L) []

theorem evaluateTransferCheap_wp (here : a.At .heard [] w) (allowed : a.RoundAllowed w) :
    a.Ends (evaluateTransferCheap a.cfg userText) (fun decision =>
      match decision with
      | some d => a.transfers d
      | none => a.At .heard []) w := by
  refine wp_read_bind.mpr ?_
  split
  · rename_i type detail fires
    have round : type = "round" → a.rules.round w.ledger := by
      intro same
      subst same
      exact allowed userText detail fires
    have due : a.Given .heard (fun L => type = "round" → a.rules.round L) [] w :=
      here.imp fun log => ⟨log, round⟩
    exact (Given.helps.pickFrom _ _).seq due Given.logged fun _ _ holds => holds
  · exact here

variable (unbound : a.Unbound)
include unbound

theorem awaitUserOrSilence_keeps : a.Stays .idle [] (awaitUserOrSilence a.cfg) := by
  refine (Booked.window logged fun L signaled log => ?_).awaitUserOrSilence a.cfg
  exact log.step (.listening signaled unbound.goesOn)

theorem onSilenceActivation_wp {phrase : Text} (idle : a.At .idle [] w) :
    a.Ends (TurnLoop.onSilenceActivation phrase) a.directed w := by
  refine (transition _ _).seq idle At.logged fun _ w₁ idle₁ => wp_update_bind.mpr ?_
  have spoken : a.At .idle [] (w₁.append
      (.silenceActivation phrase w₁.session.silenceActivationCount)) := by
    refine idle₁.enter ?_
    rw [w₁.ledger_append rfl]
    exact .activation _ _ unbound.goesOn
  refine (playTts (fun _ => rfl) _ _).seq spoken At.logged fun _ w₂ idle₂ => ?_
  refine wp_update_bind.mpr (wp_update_bind.mpr ?_)
  exact idle₂.unchanged (World.ledger_transition _ _ _) rfl

theorem process_wp (here : a.Given .heard (fun L => L.wrappingUp = isWrapUp) [] w) :
    a.Ends (TurnLoop.process a.cfg fuel userText isWrapUp shortReply) a.directed w := by
  refine wp_update_bind.mpr (wp_update_bind.mpr ?_)
  have moved : a.Given .heard (fun L => L.wrappingUp = isWrapUp) []
      (World.transition { w with shortReplyActive := shortReply } .inCall "speech_end") :=
    here.unchanged (World.ledger_transition _ _ _) rfl
  refine (Given.helps.ext .publish).seq moved Given.logged fun _ w₁ here₁ => ?_
  refine wp_read_bind.mpr (wp_update_bind.mpr ?_)
  refine runGatedTurn_wp unbound.toAbides unbound.permits ⟨?_, nofun⟩
  rw [← here₁.ledger.2]
  exact here₁.ledger.1.step .turn

theorem onUserFinal_wp (idle : a.At .idle [] w) :
    a.Ends (TurnLoop.onUserFinal a.cfg fuel userText) a.directed w := by
  refine wp_update_bind.mpr ?_
  have here : a.At .heard [] (w.append (.userSpeech userText)) := by
    refine idle.enter ?_
    rw [w.ledger_append rfl]
    exact .heard _ unbound.goesOn
  refine wp.seq (publish_wp unbound.toAbides here) fun _ w₁ ⟨here₁, allowed⟩ => ?_
  refine wp.seq (evaluateTransferCheap_wp here₁ allowed) fun decision w₂ decided => ?_
  match decision, decided with
  | some d, here₂ =>
      refine wp.seq (performHandoff_wp (here₂.imp And.left) ?_) fun _ _ ended => ended
      exact .transfer _ _ here₂.ledger.2
  | none, here₂ =>
      refine wp_read_bind.mpr (wp_read_bind.mpr ?_)
      split
      · exact onListenOnly_wp here₂
      · exact process_wp unbound (here₂.imp fun log => ⟨log, rfl⟩)
      · exact process_wp unbound (here₂.imp fun log => ⟨log, rfl⟩)

theorem onOutcome_wp {o : Outcome} (idle : a.At .idle [] w) :
    a.Ends (TurnLoop.onOutcome a.cfg fuel o) a.directed w := by
  cases o with
  | remoteHangup => exact onRemoteHangup_wp (idle.enter (.ends unbound.goesOn))
  | silenceHangup phrase => exact onSilenceHangup_wp (idle.enter (.ends unbound.goesOn))
  | silenceActivation phrase => exact onSilenceActivation_wp unbound idle
  | noProgress => exact idle
  | userFinal text => exact onUserFinal_wp unbound idle

/-- A window and what it heard, one after the other, each from an idle ledger. -/
theorem mainTurnLoop_wp {replyFuel : Nat} (idle : a.At .idle [] w) :
    a.Ends (mainTurnLoop a.cfg replyFuel fuel) (fun _ => a.At .ended []) w := by
  induction fuel generalizing w with
  | zero =>
      refine outOfFuel_wp (fun _ _ _ replied => ?_) (At.logged _ idle)
      exact nomatch (Machine.restrict_reply_some replied).2
  | succ fuel ih =>
      refine wp_read_bind.mpr ((wp_when _ _).mpr ?_)
      split
      · refine (awaitUserOrSilence_keeps unbound).seq idle At.logged fun o w₁ idle₁ => ?_
        refine wp.seq (onOutcome_wp unbound idle₁) fun directive w₂ directed => ?_
        cases directive with
        | «return» => exact directed
        | «continue» => exact ih directed
      · exact idle.enter (.ends unbound.goesOn)

end Loop

section Call

/-- The ledger is idle until the loop has ended, and logged from then on. -/
abbrev verdicts (a : Audit) : Verdicts where
  dialing := a.At .idle []
  dialed := a.At .idle []
  greeting := a.At .idle []
  live := a.At .idle []
  loose := a.At .idle []
  processing := a.At .idle []
  gated := a.At .idle []
  aborting := a.At .idle []
  heard _ := a.At .idle []
  finished w := a.Logged w.ledger
  failed w := a.Logged w.ledger
  dropped w := a.Logged w.ledger

theorem onNoAnswer_wp (ended : a.At .ended [] w) :
    a.Ends RunSession.onNoAnswer (fun _ w => a.Logged w.ledger) w := by
  refine (transition _ _).seq ended At.logged fun _ w₁ ended₁ => ?_
  refine (setHangupCause_keeps _).seq ended₁ At.logged fun _ w₂ ended₂ => ?_
  exact (appendHangup_keeps _ _).last ended₂ At.logged fun _ => At.logged

theorem onException_keeps : a.Stays .broken [] RunSession.onException := by
  refine (Keeps.read _).bind fun _ => (Keeps.when (transition _ _)).bind fun _ => ?_
  refine Keeps.bind (quiet (fun _ => rfl) fun _ => rfl) fun _ => ?_
  refine Keeps.update fun w here => here.enter ?_
  rw [World.ledger_note _ fun _ => rfl, World.ledger_append _ rfl]
  exact .brokenOff _ _

theorem exception_wp (log : a.Logged w.ledger) : RunSession.onException.wp a.machine a.always
    (outcomes (fun w => a.Logged w.ledger) (fun _ => False) fun _ w => a.Logged w.ledger) w := by
  obtain ⟨p, log⟩ := log
  have broken : a.At .broken [] w := ⟨log.step (.breaks p), nofun⟩
  exact (onException_keeps.unfailing RunSession.unfailing_onException broken).imp fun _ => At.logged

theorem cleanup_preserves :
    Preserves a.machine a.always (fun w => a.Logged w.ledger) RunSession.cleanup := by
  have kept : CleanupFrame a.machine a.always (Booked a.Logged [] false) :=
    Booked.cleanup fun _ h => h
  intro w log
  exact (kept.cleanup w ⟨log, nofun⟩).mono fun _ _ here => here.ledger

theorem callFrame (unbound : a.Unbound) : CallFrame a.cfg a.machine a.always a.verdicts
    fun _ w => a.Logged w.ledger where
  begin idle := idle.unchanged rfl rfl
  announce idle := by
    refine (helps.ext .publish _ idle).mono fun r w' post => ?_
    match r with
    | .ok _ | .error .cancelled => exact post
    | .error (.error _) => exact At.logged _ post
  dispatching idle := idle.unchanged rfl rfl
  dial idle := (Booked.phone logged).dialAndWaitConnected.last idle At.logged fun _ _ h => h
  noAnswer idle := onNoAnswer_wp (idle.enter (.ends unbound.goesOn))
  connected idle := idle.unchanged (World.ledger_transition _ _ _) rfl
  greeting := helps.toWaits
  greeting_failed := At.logged
  ambient idle := idle.unchanged rfl rfl
  pumps idle := idle.unchanged rfl rfl
  words idle := idle.enter (by
    rw [World.ledger_append _ rfl]
    exact .greeting _ unbound.goesOn)
  greet idle := (playTts (fun _ => rfl) _ _).last idle At.logged fun _ _ h => h
  greeted idle := idle.unchanged (World.ledger_transition _ _ _) rfl
  monitored idle := idle.unchanged (World.ledger_note _ fun _ => rfl) rfl
  watch := helps.toWaits
  live_failed := At.logged
  attached idle := idle.unchanged rfl rfl
  loop idle := (mainTurnLoop_wp unbound idle).imp fun _ => At.logged
  exception := exception_wp
  cleanupFinished log := cleanup_preserves.lastly log _
  cleanupDropped log := cleanup_preserves.lastly log _

/-- The ledger of a call that is run from its start is logged, wherever the call is stopped. -/
theorem runSession_logged (unbound : a.Unbound) (first : a.first = .idle)
    (start : a.start = w.ledger) {acts : List (Action sig Move)} {c : Susp sig World Unit}
    (run : a.machine.exec (runSession a.cfg fuel w) acts = some c) : a.Logged c.state.ledger := by
  have idle : a.At .idle [] w := ⟨first ▸ start ▸ CallLog.start, nofun⟩
  refine ((callFrame unbound).runSession_wp idle).always (fun _ _ log => log) ?_
    (fun _ _ log => log) run
  intro op m w₁ w₂ log moved
  have here : Booked a.Logged [] false w₁ := ⟨log, nofun⟩
  exact (Booked.stable.move here moved).ledger

end Call
end Audit
end IsalesEngine
