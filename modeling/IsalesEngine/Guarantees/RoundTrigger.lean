import IsalesEngine.Engine.AuditedCall
import IsalesEngine.Guarantees.WrapUp

/-!
The round trigger and the wrap-up phase. The turn loop asks for a transfer
before it looks at the phase of the call, and always as if the goal had not
been achieved, so the round trigger is left out of the wrap-up phase only where
it is not due there. Every other transfer is of a turn outside the phase.
-/
namespace IsalesEngine
open Asyncio Asyncio.Coro

namespace TranscriptEvent

def startsWrapUp : TranscriptEvent → Bool
  | .wrapUpStarted .. => true
  | _ => false

def isRoundTransfer : TranscriptEvent → Bool
  | .transferInitiated type _ => type = "round"
  | _ => false

end TranscriptEvent

/-- The dialogue is long enough for the round trigger. -/
def TransferConfig.roundDue (cfg : TransferConfig) (turnCount : Nat) : Bool :=
  cfg.roundEnabled && cfg.roundThreshold.any (· ≤ turnCount)

theorem TransferConfig.roundDue_of_trigger {cfg : TransferConfig} {text : Text} {turnCount : Nat}
    {detail : String} (fires : transferTrigger text turnCount false cfg = some ("round", detail)) :
    cfg.roundDue turnCount = true := by
  unfold transferTrigger at fires
  dsimp only at fires
  split at fires
  · simp at fires
  · split at fires
    · rename_i threshold found
      split at fires
      · rename_i due
        simpa [roundDue, found] using due
      · cases fires
    · cases fires

/-- No transfer of the round trigger comes after the start of the wrap-up phase. -/
def RoundSpared (events : List TranscriptEvent) : Prop :=
  events.Pairwise fun e e' => ¬(e.startsWrapUp = true ∧ e'.isRoundTransfer = true)

/-- In the wrap-up phase the round trigger is not due. -/
def roundNotDue (cfg : RuntimeConfig) (op : Op) (_ : Action sig Move) (w : World) : Bool :=
  !(decide (op = .ext .publish) && w.session.inWrapUp &&
    cfg.transfer.roundDue w.session.dialogHistory.length)

/-- The transfers so far, and what the phase of the call says about the next one. -/
structure Ledger.Spares (L : Ledger) : Prop where
  started : ∀ e ∈ L.events, e.startsWrapUp = true → L.wrappingUp = true
  spared : RoundSpared L.events

namespace Ledger.Spares
variable {L L' : Ledger} {e : TranscriptEvent}

variable (spares : L.Spares)
include spares

theorem same (events : L'.events = L.events) (wrappingUp : L'.wrappingUp = L.wrappingUp) :
    L'.Spares where
  started e member starts := wrappingUp ▸ spares.started e (events ▸ member) starts
  spared := events ▸ spares.spared

theorem add (events : L'.events = L.events ++ [e])
    (kept : L.wrappingUp = true → L'.wrappingUp = true)
    (starts : e.startsWrapUp = true → L'.wrappingUp = true)
    (round : e.isRoundTransfer = true → L.wrappingUp = false) : L'.Spares where
  started e' member starts' := by
    rw [events] at member
    obtain old | new := List.mem_append.mp member
    · exact kept (spares.started e' old starts')
    · rw [List.mem_singleton.mp new] at starts'
      exact starts starts'
  spared := by
    rw [events]
    refine List.pairwise_append.mpr ⟨spares.spared, List.pairwise_singleton _ _, ?_⟩
    intro e₁ old e₂ new ⟨started, transfers⟩
    rw [List.mem_singleton.mp new] at transfers
    have wrappingUp := spares.started e₁ old started
    rw [round transfers] at wrappingUp
    cases wrappingUp

theorem write (starts : e.startsWrapUp = false)
    (round : e.isRoundTransfer = true → L.wrappingUp = false) : (L.write e).Spares :=
  spares.add rfl id (fun started => by rw [starts] at started; cases started) round

theorem answer {r : TraceRecord} {goalAchieved isWrapUp : Bool} {goalType : String}
    (answers : L.Answers r e goalAchieved goalType isWrapUp) : (L.answer r e).Spares := by
  obtain ⟨role, rfl⟩ := answers.event
  have filed : (L.record r).Spares := spares.same rfl rfl
  exact filed.write rfl nofun

theorem wrapUp (rounds seconds : Nat) (goalType : String) :
    (L.wrapUp rounds seconds goalType).Spares := by
  have started : ({ L with wrappingUp := true }.write (.wrapUpStarted rounds seconds)).Spares :=
    spares.add rfl (fun _ => rfl) (fun _ => rfl) nofun
  exact started.write rfl nofun

end Ledger.Spares

variable {e : TranscriptEvent}

theorem TranscriptEvent.byMain_of_starts (starts : e.startsWrapUp = true) : e.byMain = true := by
  cases e with
  | wrapUpStarted => rfl
  | _ => cases starts

theorem TranscriptEvent.byMain_of_round (round : e.isRoundTransfer = true) : e.byMain = true := by
  cases e with
  | transferInitiated => rfl
  | _ => cases round

theorem TranscriptEvent.plain_of_ending (ending : e.isEnding = true) :
    e.startsWrapUp = false ∧ e.isRoundTransfer = false := by
  cases e with
  | wrapUpStarted | transferInitiated => cases ending
  | _ => exact ⟨rfl, rfl⟩

theorem LedgerStep.spares {rules : LedgerRules} {p p' : Phase} {L L' : Ledger}
    (round : ∀ L, rules.round L → L.wrappingUp = false) (step : LedgerStep rules p L p' L')
    (holds : p.Wraps L ∧ L.Spares) : p'.Wraps L' ∧ L'.Spares := by
  obtain ⟨wraps, spares⟩ := holds
  refine ⟨step.wraps wraps, ?_⟩
  cases step with
  | greeting | activation | heard | brokenOff => exact spares.write rfl nofun
  | transfer type detail allowed =>
      refine spares.write rfl fun fires => round L (allowed ?_)
      simpa [TranscriptEvent.isRoundTransfer] using fires
  | handoff => exact spares.write rfl fun _ => wraps
  | ending e ending =>
      obtain ⟨starts, round⟩ := TranscriptEvent.plain_of_ending ending
      exact spares.write starts fun fires => by rw [round] at fires; cases fires
  | interrupted _ r e _ answers | reinterrupted r e answers =>
      exact (spares.answer answers).same rfl rfl
  | closed r e _ answers _ | revoiced r e answers _ => exact spares.answer answers
  | replied r e _ _ _ answers _ => exact (spares.answer answers).same rfl rfl
  | wrapsUp r e _ _ _ _ _ answers _ =>
      have reset : ({ L with interruptions := 0 }.answer r e).Spares :=
        (spares.answer answers).same rfl rfl
      exact reset.wrapUp _ _ _
  | _ => exact spares.same rfl rfl

/-- The audit of a call in whose wrap-up phase the round trigger is not due. -/
def Audit.ofRounds (cfg : RuntimeConfig) (start : Ledger) : Audit where
  cfg := cfg
  allow := roundNotDue cfg
  rules := ⟨True, fun L => L.wrappingUp = false, fun _ => True, fun _ _ _ => True, True⟩
  first := .idle
  start := start

theorem Audit.ofRounds_unbound (cfg : RuntimeConfig) (start : Ledger) :
    (Audit.ofRounds cfg start).Unbound where
  start := trivial
  round {w _ _} allowed fires := by
    have due : cfg.transfer.roundDue w.session.dialogHistory.length = true :=
      TransferConfig.roundDue_of_trigger fires
    have early : w.session.inWrapUp = false := by
      simpa [ofRounds, roundNotDue, due] using allowed
    exact early
  whole _ _ _ := trivial
  goesOn := trivial
  permits _ := ⟨fun _ _ => trivial, fun _ _ => trivial⟩

namespace Guarantees

/-- In every run in which the round trigger is not due while the call wraps up: once the wrap-up
phase has started, no utterance leads to a transfer of the round trigger. -/
theorem no_round_transfer_in_wrap_up (cfg : RuntimeConfig) (fuel : Nat) (w : World)
    (acts : List (Action sig Move)) (c : Susp sig World Unit) (fresh : w.Fresh)
    (run : ((engine cfg).restrict (roundNotDue cfg)).exec (runSession cfg fuel w) acts = some c) :
    c.state.session.events.Pairwise fun e e' =>
      ¬(e.startsWrapUp = true ∧ e'.isRoundTransfer = true) := by
  obtain ⟨p, log⟩ := Audit.runSession_logged (Audit.ofRounds_unbound cfg w.ledger) rfl rfl run
  have begins : Phase.idle.Wraps w.ledger ∧ w.ledger.Spares := by
    rw [fresh.ledger]
    exact ⟨trivial, nofun, List.Pairwise.nil⟩
  have kept := (log.invariant (J := fun p L => p.Wraps L ∧ L.Spares) begins
    (LedgerStep.spares fun _ early => early)).2.spared
  refine (List.pairwise_filter.mp kept).imp fun {e e'} apart both => ?_
  exact apart (TranscriptEvent.byMain_of_starts both.1)
    (TranscriptEvent.byMain_of_round both.2) both

/-- A campaign that transfers calls of `threshold` dialogue entries. -/
def roundConfig (threshold : Nat) : RuntimeConfig := { closingConfig with
  transfer := { closingConfig.transfer with roundEnabled := true, roundThreshold := threshold } }

/-- The caller says something in the wrap-up phase, before the trigger is due. -/
theorem long_threshold_spared :
    ∃ c, ((engine (roundConfig 5)).restrict (roundNotDue (roundConfig 5))).exec
      (runSession (roundConfig 5) 4 (World.initial 1 .other)) wrappingUpRun = some c ∧
      c.state.session.inWrapUp = true ∧
      c.state.session.events.Pairwise fun e e' =>
        ¬(e.startsWrapUp = true ∧ e'.isRoundTransfer = true) := by
  refine exists_of_map (fun c => c.state.session.inWrapUp) true (by decide +kernel)
    fun c run wrappingUp => ?_
  exact ⟨wrappingUp, no_round_transfer_in_wrap_up (roundConfig 5) 4 _ _ c
    (World.initial_fresh 1 .other) run⟩

/-- The goal is achieved in the first turn, and the caller's next words make the dialogue long
enough: the call is transferred. -/
theorem round_transfer_in_wrap_up :
    ((engine (roundConfig 4)).exec (runSession (roundConfig 4) 4 (World.initial 1 .other))
      (RunSession.listeningRun .other ++ RunSession.spokenRun "好的".toList ++
        RunSession.gateRun ++ [.move (.eagerEnd 0 none),
          .reply .gate (.ok [⟨"intent", some "done", none⟩]),
          .reply (.ext .buildStream) (.ok ())] ++ sentenceRun "再见。".toList ++
        RunSession.spokenRun "嗯".toList ++ [.reply (.ext .publish) (.ok ())])).map
      (fun c => (c.state.session.inWrapUp, c.state.session.events.drop 3)) =
    some (true, [.wrapUpStarted 1 60, .goalAchieved "", .userSpeech "嗯".toList,
      .transferInitiated "round" "turn_count=4", .transferMarked]) := by
  decide +kernel

end Guarantees
end IsalesEngine
