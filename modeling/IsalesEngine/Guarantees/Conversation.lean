import IsalesEngine.Guarantees.TurnRecords

/-!
The transcript of a call is a conversation. What `main` writes to it follows a
protocol of its own: a reply comes right after the utterance it answers, the
wrap-up phase begins right after a reply and only once, a transfer answers an
utterance, and nothing but endings comes after an ending.
-/
namespace IsalesEngine
open Asyncio

/-- What came last: a line of the agent that needs no answer, the caller, a reply, the start of the
wrap-up phase, or the end of the call. -/
inductive Floor where
  | «open» | caller | agent | wrapUp | over
  deriving DecidableEq, Repr

structure Conversation where
  wrappingUp : Bool := false
  floor : Floor := .open

namespace Conversation

def pass (s : Conversation) (before : List Floor) (floor : Floor) : Option Conversation :=
  if s.floor ∈ before then some { s with floor } else none

/-- A reply says whether it belongs to the wrap-up phase, which a reply that reaches the goal
does. -/
def step (s : Conversation) : TranscriptEvent → Option Conversation
  | .greeting _ | .silenceActivation .. => s.pass [.open, .caller, .agent] .open
  | .userSpeech _ => s.pass [.open, .caller, .agent] .caller
  | .aiReply _ _ _ goalAchieved _ isWrapUp =>
      if isWrapUp = (s.wrappingUp || goalAchieved) then s.pass [.caller] .agent else none
  | .wrapUpStarted .. =>
      if s.wrappingUp then none else { s with wrappingUp := true }.pass [.agent] .wrapUp
  | .goalAchieved _ => s.pass [.wrapUp] .open
  | .transferInitiated .. => s.pass [.caller] .over
  | .transferMarked | .wrapUpCompleted _ | .hangup .. =>
      s.pass [.open, .caller, .agent, .over] .over
  | .interruption .. | .filler .. | .defaultReplyUsed .. | .stateWarning .. => none

def system : System Conversation TranscriptEvent where
  step := step

end Conversation

namespace Phase

def floors : Phase → List Floor
  | .idle => [.open, .caller, .agent]
  | .closing => [.agent]
  | .ended | .broken => [.open, .caller, .agent, .over]
  | _ => [.caller]

/-- The entries so far are a conversation that fits the phase. -/
def Converses (p : Phase) (L : Ledger) : Prop :=
  ∃ floor ∈ p.floors, Conversation.system.exec {} L.events = some ⟨L.wrappingUp, floor⟩

namespace Converses
variable {p p' : Phase} {L : Ledger} {e : TranscriptEvent} (here : p.Converses L)
include here

theorem goOn (fits : p.floors ⊆ p'.floors) : p'.Converses L := by
  obtain ⟨floor, inside, run⟩ := here
  exact ⟨floor, fits inside, run⟩

theorem write {before : List Floor} {floor : Floor}
    (rule : ∀ s : Conversation, s.wrappingUp = L.wrappingUp → s.step e = s.pass before floor)
    (fits : p.floors ⊆ before) (inside : floor ∈ p'.floors) : p'.Converses (L.write e) := by
  obtain ⟨last, member, run⟩ := here
  refine ⟨floor, inside, System.exec_concat run ?_⟩
  exact (rule _ rfl).trans (if_pos (fits member))

theorem answer {r : TraceRecord} {goalAchieved isWrapUp wrappingUp : Bool} {goalType : String}
    (answers : L.Answers r e goalAchieved goalType isWrapUp) (wraps : L.wrappingUp = wrappingUp)
    (flagged : isWrapUp = (wrappingUp || goalAchieved)) (caller : p.floors = [.caller])
    (inside : .agent ∈ p'.floors) : p'.Converses (L.answer r e) := by
  obtain ⟨role, rfl⟩ := answers.event
  refine write (L := L.record r) here (fun s same => if_pos ?_) (caller ▸ List.Subset.refl _)
    inside
  rw [same, flagged, ← wraps]
  rfl

end Converses
end Phase

theorem LedgerStep.converses {rules : LedgerRules} {p p' : Phase} {L L' : Ledger}
    (step : LedgerStep rules p L p' L') (wraps : p.Wraps L) (here : p.Converses L) :
    p'.Converses L' := by
  cases step with
  | greeting | activation | heard | transfer | handoff | brokenOff =>
      exact here.write (fun _ _ => rfl) (List.Subset.refl _) (by decide)
  | ending e ending =>
      cases e with
      | transferMarked | wrapUpCompleted | hangup =>
          exact here.write (fun _ _ => rfl) (List.Subset.refl _) (by decide)
      | _ => cases ending
  | interrupted wrapUp r e _ answers =>
      exact here.answer answers wraps (Bool.or_false wrapUp).symm rfl (by decide)
  | closed r e _ answers | reinterrupted r e answers | revoiced r e answers
  | replied r e _ _ _ answers => exact here.answer answers wraps rfl rfl (by decide)
  | wrapsUp r e goalAchieved goalType rounds seconds _ answers =>
      obtain ⟨floor, agent, run⟩ : Phase.closing.Converses (L.answer r e) :=
        here.answer answers wraps rfl rfl (by decide)
      have wrappingUp : (L.answer r e).wrappingUp = false := wraps
      rw [List.mem_singleton.mp agent, wrappingUp] at run
      have started := System.exec_concat (e := .wrapUpStarted rounds seconds) run rfl
      exact ⟨.open, by decide, System.exec_concat started rfl⟩
  | breaks => exact here.goOn (by cases p <;> simp [Phase.floors])
  | _ => exact here.goOn (by simp [Phase.floors])

namespace Guarantees

/-- In every state of every run the entries of `main` in the transcript are a conversation, which
says whether the call is wrapping up. -/
theorem transcript_is_conversation (cfg : RuntimeConfig) (fuel : Nat) (w : World)
    (acts : List (Action sig Move)) (c : Susp sig World Unit) (fresh : w.Fresh)
    (run : (engine cfg).exec (runSession cfg fuel w) acts = some c) :
    ∃ s, Conversation.system.exec {} c.state.session.entries = some s ∧
      s.wrappingUp = c.state.session.inWrapUp := by
  have unbound : (Audit.ofEntries cfg True .idle w.ledger).Unbound :=
    ⟨Audit.ofEntries_abides trivial, trivial, Audit.ofEntries_permits⟩
  obtain ⟨p, log⟩ := Audit.runSession_logged unbound rfl rfl run
  have begins : Phase.idle.Wraps w.ledger ∧ Phase.idle.Converses w.ledger := by
    rw [fresh.ledger]
    exact ⟨trivial, .open, by decide, rfl⟩
  obtain ⟨-, floor, -, conversation⟩ := log.invariant (J := fun p L => p.Wraps L ∧ p.Converses L)
    begins fun step holds => ⟨step.wraps holds.1, step.converses holds.1 holds.2⟩
  exact ⟨_, conversation, rfl⟩

/-- The goal is reached in the first turn, and the closing reply ends the call. -/
theorem goodbye_is_conversation :
    ∃ c, (engine closingConfig).exec (runSession closingConfig 4 (World.initial 1 .other))
        goodbyeRun = some c ∧ c.state.session.entries.length = 9 ∧
      ∃ s, Conversation.system.exec {} c.state.session.entries = some s ∧ s.wrappingUp = true := by
  refine exists_of_map (fun c => (c.state.session.entries.length, c.state.session.inWrapUp))
    (9, true) (by decide +kernel) fun c run facts => ?_
  obtain ⟨count, wrappingUp⟩ := Prod.mk.inj facts
  obtain ⟨s, conversation, same⟩ := transcript_is_conversation closingConfig 4 _ _ c
    (World.initial_fresh 1 .other) run
  exact ⟨count, s, conversation, same.trans wrappingUp⟩

end Guarantees
end IsalesEngine
