import IsalesEngine.Engine.AuditedCall
import IsalesEngine.Guarantees.Carryover
import IsalesEngine.Guarantees.WrapUp

/-!
The transcript of a call and its trace rows agree. The ids of the rows are the
ids the turns have drawn, in that order, and every reply of the transcript has
a row of its own with its text. A turn that returns has added the row of the
id it drew, and the row of the re-voiced reply when it had a text to re-voice.
-/
namespace IsalesEngine
open Asyncio Asyncio.Coro

namespace Ledger

/-- The id and the text of each row. -/
def rows (L : Ledger) : List (Nat × Text) := L.records.map fun r => (r.turnId, r.mainReplyText)

/-- The first `n` ids have a row each, and so has every reply. -/
structure Filed (L : Ledger) (n : Nat) : Prop where
  ids : L.rows.map Prod.fst = List.range' 1 n
  replies : ∀ {text turnId role goalAchieved goalType isWrapUp},
    .aiReply text turnId role goalAchieved goalType isWrapUp ∈ L.events → (turnId, text) ∈ L.rows

variable {L L' : Ledger} {n : Nat} {r : TraceRecord} {e : TranscriptEvent}

theorem rows_record : (L.record r).rows = L.rows ++ [(r.turnId, r.mainReplyText)] := by
  simp [rows, record]

theorem rows_judge (results : List RefereeResult) : (L.judge results).rows = L.rows := by
  obtain none | ⟨older, last, some⟩ := L.records.eq_nil_or_concat
  · simp [rows, judge, none]
  · simp [rows, judge, some]

namespace Filed

variable (filed : L.Filed n)
include filed

theorem same (rows : L'.rows = L.rows) (events : L'.events = L.events) : L'.Filed n where
  ids := rows ▸ filed.ids
  replies member := rows ▸ filed.replies (events ▸ member)

theorem write (silent : e.replyRole? = none) : (L.write e).Filed n where
  ids := filed.ids
  replies member := by
    obtain old | new := List.mem_append.mp member
    · exact filed.replies old
    · rw [← List.mem_singleton.mp new] at silent
      cases silent

theorem record (next : r.turnId = n + 1) : (L.record r).Filed (n + 1) where
  ids := by
    rw [rows_record, List.map_append, filed.ids, List.range'_concat]
    simp only [List.map_cons, List.map_nil, next, Nat.one_mul, Nat.add_comm]
  replies member := by
    rw [rows_record]
    exact List.mem_append_left _ (filed.replies member)

theorem answer {goalAchieved isWrapUp : Bool} {goalType : String} (next : L.drawn = n + 1)
    (answers : L.Answers r e goalAchieved goalType isWrapUp) : (L.answer r e).Filed (n + 1) where
  ids := (filed.record (answers.turnId.trans next)).ids
  replies member := by
    obtain old | new := List.mem_append.mp member
    · exact (filed.record (answers.turnId.trans next)).replies old
    · obtain ⟨role, same⟩ := answers.event
      cases (List.mem_singleton.mp new).trans same
      show _ ∈ (L.record r).rows
      rw [rows_record, answers.turnId]
      exact List.mem_append_right _ List.mem_cons_self

theorem wrapUp (rounds seconds : Nat) (goalType : String) :
    (L.wrapUp rounds seconds goalType).Filed n := by
  have begun : { L with wrappingUp := true }.Filed n := filed.same rfl rfl
  have started := begun.write (e := .wrapUpStarted rounds seconds) rfl
  exact started.write rfl

theorem increasing : (L.records.map TraceRecord.turnId).Pairwise (· < ·) := by
  have ids := filed.ids
  rw [rows, List.map_map] at ids
  exact ids ▸ List.pairwise_lt_range'

/-- The row of a reply is the only one with its id. -/
theorem row_of_reply {text : Text} {turnId : Nat} {role : Option Nat} {goalAchieved isWrapUp : Bool}
    {goalType : String}
    (member : .aiReply text turnId role goalAchieved goalType isWrapUp ∈ L.events) :
    ∃ r, L.records.filter (fun r => r.turnId = turnId) = [r] ∧ r.mainReplyText = text := by
  obtain ⟨r, here, same⟩ := List.mem_map.mp (filed.replies member)
  obtain ⟨rfl, rfl⟩ := Prod.mk.inj same
  obtain ⟨before, after, split⟩ := List.append_of_mem here
  have increasing := filed.increasing
  rw [split, List.map_append, List.map_cons, List.pairwise_append, List.pairwise_cons] at increasing
  obtain ⟨-, ⟨later, -⟩, earlier⟩ := increasing
  have none_before : before.filter (fun b => b.turnId = r.turnId) = [] := by
    refine List.filter_eq_nil_iff.mpr fun b member => ?_
    have less := earlier _ (List.mem_map_of_mem member) _ List.mem_cons_self
    simp only [decide_eq_true_eq]
    omega
  have none_after : after.filter (fun b => b.turnId = r.turnId) = [] := by
    refine List.filter_eq_nil_iff.mpr fun b member => ?_
    have less := later _ (List.mem_map_of_mem member)
    simp only [decide_eq_true_eq]
    omega
  refine ⟨r, ?_, rfl⟩
  rw [split, List.filter_append, List.filter_cons_of_pos (by simp), none_before, none_after]
  rfl

end Filed

theorem filed_of_fresh {w : World} (fresh : w.Fresh) (unrecorded : w.pipelineTraceRecords = []) :
    w.ledger.Filed w.ledger.drawn := by
  rw [fresh.ledger, unrecorded]
  exact ⟨rfl, nofun⟩

end Ledger

/-- Up to which id the rows go in each phase. -/
def Phase.Files (L : Ledger) : Phase → Prop
  | .drawn _ | .replying _ | .replyCut _ | .revoicing | .revoiceCut =>
      ∃ n, L.drawn = n + 1 ∧ L.Filed n
  | .broken => ∃ n, L.Filed n
  | _ => L.Filed L.drawn

theorem Phase.Files.filed {p : Phase} {L : Ledger} (files : p.Files L) : ∃ n, L.Filed n := by
  cases p with
  | drawn _ | replying _ | replyCut _ | revoicing | revoiceCut =>
      obtain ⟨n, -, filed⟩ := files
      exact ⟨n, filed⟩
  | broken => exact files
  | _ => exact ⟨_, files⟩

theorem LedgerStep.files {rules : LedgerRules} {p p' : Phase} {L L' : Ledger}
    (step : LedgerStep rules p L p' L') (files : p.Files L) : p'.Files L' := by
  cases step with
  | greeting | activation | heard | transfer | handoff => exact Ledger.Filed.write files rfl
  | listening | cue | cued | turn | unanswered | hangup | wrapUpGoesOn | wrapUpEnds
  | ends => exact Ledger.Filed.same files rfl rfl
  | draw | redraw => exact ⟨_, rfl, Ledger.Filed.same files rfl rfl⟩
  | release | wrapUpReply | sentence | cut | resentence | recut =>
      obtain ⟨n, next, filed⟩ := files
      exact ⟨n, next, filed.same rfl rfl⟩
  | abort r turnId _ =>
      obtain ⟨n, next, filed⟩ := files
      have entered := filed.record (turnId.trans next)
      rw [← next] at entered
      exact entered.same rfl rfl
  | record r turnId _ | restructure r turnId _ _ =>
      obtain ⟨n, next, filed⟩ := files
      have entered := filed.record (turnId.trans next)
      rwa [← next] at entered
  | interrupted _ r e _ answers | replied r e _ _ _ answers _ | closed r e _ answers _
  | reinterrupted r e answers | revoiced r e answers _ =>
      obtain ⟨n, next, filed⟩ := files
      have entered := filed.answer next answers
      rw [← next] at entered
      exact entered.same rfl rfl
  | wrapsUp r e _ _ _ _ _ answers _ =>
      obtain ⟨n, next, filed⟩ := files
      have entered := filed.answer next answers
      rw [← next] at entered
      have reset : ({ L with interruptions := 0 }.answer r e).Filed L.drawn :=
        entered.same rfl rfl
      exact reset.wrapUp _ _ _
  | judged results => exact Ledger.Filed.same files (Ledger.rows_judge results) rfl
  | ending e ending => exact Ledger.Filed.write files (TranscriptEvent.silent_of_ending ending)
  | breaks => exact files.filed
  | brokenOff =>
      obtain ⟨n, filed⟩ := files
      exact ⟨n, filed.write rfl⟩

section Turn
variable (start L : Ledger)

/-- One row has been added, for the id that was drawn first. -/
def Ledger.OneRow : Prop := ∃ r, L.records = start.records ++ [r] ∧
  r.turnId = start.drawn + 1 ∧ r.restructureText = none

/-- One row has been added, and a text is to be re-voiced. -/
def Ledger.FirstRow : Prop := ∃ r, L.records = start.records ++ [r] ∧
  r.turnId = start.drawn + 1 ∧ r.restructureText.isSome = true

/-- Two rows have been added. -/
def Ledger.TwoRows : Prop := ∃ r r', L.records = start.records ++ [r, r'] ∧
  r.turnId = start.drawn + 1 ∧ r.restructureText.isSome = true ∧ r'.turnId = start.drawn + 2

/-- What a turn has drawn and recorded in each phase. -/
def Phase.Records : Phase → Prop
  | .begun _ => L.records = start.records ∧ L.drawn = start.drawn
  | .drawn _ | .replying _ | .replyCut _ =>
      L.records = start.records ∧ L.drawn = start.drawn + 1
  | .recorded | .closing => start.OneRow L
  | .restructuring => start.FirstRow L ∧ L.drawn = start.drawn + 1
  | .revoicing | .revoiceCut => start.FirstRow L ∧ L.drawn = start.drawn + 2
  | .idle | .ended => start.OneRow L ∨ start.TwoRows L
  | .heard | .cueing => False
  | .broken => True

variable {start L} {L' : Ledger}

theorem Ledger.OneRow.of_drawn {r : TraceRecord} (records : L.records = start.records)
    (drawn : L.drawn = start.drawn + 1) (turnId : r.turnId = L.drawn)
    (plain : r.restructureText = none) (same : L'.records = L.records ++ [r]) : start.OneRow L' :=
  ⟨r, by rw [same, records], turnId.trans drawn, plain⟩

theorem Ledger.TwoRows.of_drawn {r : TraceRecord} (first : start.FirstRow L)
    (drawn : L.drawn = start.drawn + 2) (turnId : r.turnId = L.drawn)
    (same : L'.records = L.records ++ [r]) : start.TwoRows L' := by
  obtain ⟨r₀, records, turnId₀, revoiced⟩ := first
  refine ⟨r₀, r, ?_, turnId₀, revoiced, turnId.trans drawn⟩
  rw [same, records, List.append_assoc, List.singleton_append]

theorem Ledger.OneRow.judge {results : List RefereeResult} (one : start.OneRow L) :
    start.OneRow (L.judge results) := by
  obtain ⟨r, records, turnId, plain⟩ := one
  exact ⟨{ r with refereeResults := results }, by simp [Ledger.judge, records], turnId, plain⟩

/-- A turn on its own: nothing is heard after it. -/
theorem LedgerStep.records {rules : LedgerRules} {p p' : Phase} (alone : ¬rules.goesOn)
    (step : LedgerStep rules p L p' L') (records : p.Records start L) : p'.Records start L' := by
  cases step with
  | greeting _ goesOn | activation _ _ goesOn | listening _ goesOn | heard _ goesOn
  | ends goesOn => exact absurd goesOn alone
  | transfer | cue | cued | turn => exact records.elim
  | draw | redraw => exact ⟨records.1, congrArg (· + 1) records.2⟩
  | abort r turnId plain => exact .inl (.of_drawn records.1 records.2 turnId plain rfl)
  | record r turnId plain => exact .of_drawn records.1 records.2 turnId plain rfl
  | restructure r turnId revoiced _ =>
      exact ⟨⟨r, by rw [Ledger.record, records.1], turnId.trans records.2, revoiced⟩, records.2⟩
  | unanswered | handoff | hangup | wrapUpGoesOn | wrapUpEnds => exact .inl records
  | release | wrapUpReply | sentence | cut | resentence | recut | ending => exact records
  | interrupted _ r e plain answers | replied r e _ _ plain answers _
  | wrapsUp r e _ _ _ _ plain answers _ =>
      exact .inl (.of_drawn records.1 records.2 answers.turnId plain rfl)
  | closed r e plain answers _ => exact .of_drawn records.1 records.2 answers.turnId plain rfl
  | judged => exact Ledger.OneRow.judge records
  | reinterrupted r e answers | revoiced r e answers _ =>
      exact .inr (.of_drawn records.1 records.2 answers.turnId rfl)
  | breaks | brokenOff => trivial

end Turn

/-- The audit of a call that is held to nothing but the order of its entries. -/
def Audit.ofEntries (cfg : RuntimeConfig) (goesOn : Prop) (first : Phase) (start : Ledger) :
    Audit where
  cfg := cfg
  allow _ _ _ := true
  rules := ⟨goesOn, fun _ => True, fun _ => True, fun _ _ _ => True, True⟩
  first := first
  start := start

theorem Audit.ofEntries_abides {cfg : RuntimeConfig} {goesOn : Prop} {first : Phase}
    {start : Ledger} (wraps : first.Wraps start) :
    (Audit.ofEntries cfg goesOn first start).Abides :=
  ⟨wraps, fun _ _ => trivial, fun _ _ _ => trivial⟩

theorem Audit.ofEntries_permits {cfg : RuntimeConfig} {goesOn : Prop} {first : Phase}
    {start : Ledger} (sel : GatedSelection) :
    (Audit.ofEntries cfg goesOn first start).Permits sel := ⟨fun _ _ => trivial, fun _ _ => trivial⟩

namespace Guarantees

/-- In every state of every run the ids of the trace rows are strictly increasing, and each
`ai_reply` event has exactly one row with its turn id, which has its text. A turn that returns has
added one row, for the id it drew; a turn that re-voices a text has added two, for its own id and
for that of the re-voiced reply. -/
theorem trace_agrees_with_transcript (cfg : RuntimeConfig) (fuel : Nat) :
    (∀ (w : World) (acts : List (Action sig Move)) (c : Susp sig World Unit), w.Fresh →
      w.pipelineTraceRecords = [] → (engine cfg).exec (runSession cfg fuel w) acts = some c →
      (c.state.pipelineTraceRecords.map TraceRecord.turnId).Pairwise (· < ·) ∧
      ∀ text turnId role goalAchieved goalType isWrapUp,
        .aiReply text turnId role goalAchieved goalType isWrapUp ∈ c.state.session.events →
        ∃ r, c.state.pipelineTraceRecords.filter (fun r => r.turnId = turnId) = [r] ∧
          r.mainReplyText = text) ∧
    ∀ (w : World) (userText : Text) (useFiller transferLlm : Bool) (processingStart : Nat)
      (acts : List (Action sig Move)) (c : Susp sig World Directive) (directive : Directive),
      (engine cfg).exec (runGatedTurn cfg fuel userText w.session.inWrapUp useFiller transferLlm
        processingStart w) acts = some c → c.result? = some (.ok directive) →
      (∃ r, c.state.pipelineTraceRecords = w.pipelineTraceRecords ++ [r] ∧
        r.turnId = w.session.currentTurnId + 1 ∧ r.restructureText = none) ∨
      ∃ r r', c.state.pipelineTraceRecords = w.pipelineTraceRecords ++ [r, r'] ∧
        r.turnId = w.session.currentTurnId + 1 ∧ r.restructureText.isSome = true ∧
        r'.turnId = w.session.currentTurnId + 2 := by
  constructor
  · intro w acts c fresh unrecorded run
    have unbound : (Audit.ofEntries cfg True .idle w.ledger).Unbound :=
      ⟨Audit.ofEntries_abides trivial, trivial, Audit.ofEntries_permits⟩
    obtain ⟨p, log⟩ := Audit.runSession_logged unbound rfl rfl run
    have begins : Phase.idle.Files w.ledger := Ledger.filed_of_fresh fresh unrecorded
    obtain ⟨n, filed⟩ := (log.invariant (J := fun p L => p.Files L) begins LedgerStep.files).filed
    exact ⟨filed.increasing, fun text turnId role goalAchieved goalType isWrapUp member =>
      filed.row_of_reply (List.mem_filter.mpr ⟨member, rfl⟩)⟩
  · intro w userText useFiller transferLlm processingStart acts c directive run returned
    have abides : (Audit.ofEntries cfg False (.begun w.session.inWrapUp)
        (w.note .turn).ledger).Abides := Audit.ofEntries_abides rfl
    have directed := (Audit.runGatedTurn_wp abides Audit.ofEntries_permits
      ⟨.start, nofun⟩).result run returned
    have kept {p : Phase} {L : Ledger} (log : (Audit.ofEntries cfg False
        (.begun w.session.inWrapUp) (w.note .turn).ledger).Log p L) :
        p.Records (w.note .turn).ledger L :=
      log.invariant (J := fun p L => p.Records (w.note .turn).ledger L) ⟨rfl, rfl⟩
        (LedgerStep.records id)
    cases directive with
    | «continue» | «return» => exact kept directed.ledger

/-- From the gate of a turn that has a text to re-voice, until that has been played. -/
def revoicedRun (mainStream : Nat) : List (Action sig Move) :=
  [.reply .gate (.ok [⟨"intent", some "filler", none⟩]), .move (.eagerEnd mainStream none),
    .reply (.reapEager mainStream) (.error .cancelled), .reply (.ext .buildStream) (.ok ())] ++
    sentenceRun "您好。".toList

/-- A turn after a cut reply. -/
def cutOffWorld : World :=
  { World.initial 1 .other with session := { callRecordId := 1, currentTurnId := 1
                                             interruptRemainingText := some "您好。".toList } }

theorem revoiced_turn_recorded :
    (∃ c, (engine resumingConfig).exec (runSession resumingConfig 4 (World.initial 1 .other))
        (resumedRun ++ revoicedRun 1) = some c ∧
      c.state.pipelineTraceRecords.map TraceRecord.turnId = [1, 2, 3] ∧
      (c.state.pipelineTraceRecords.map TraceRecord.turnId).Pairwise (· < ·)) ∧
    ∃ c, (engine resumingConfig).exec (runGatedTurn resumingConfig 4 [] false false false 0
        cutOffWorld) ([.reply (.ext .buildStream) (.ok ())] ++ revoicedRun 0) = some c ∧
      c.state.pipelineTraceRecords.map TraceRecord.turnId = [2, 3] ∧
      ((∃ r, c.state.pipelineTraceRecords = [r] ∧ r.turnId = 2 ∧ r.restructureText = none) ∨
        ∃ r r', c.state.pipelineTraceRecords = [r, r'] ∧ r.turnId = 2 ∧
          r.restructureText.isSome = true ∧ r'.turnId = 3) := by
  have agrees := trace_agrees_with_transcript resumingConfig 4
  constructor
  · refine exists_of_map (fun c => c.state.pipelineTraceRecords.map TraceRecord.turnId) [1, 2, 3]
      (by decide +kernel) fun c run ids => ?_
    exact ⟨ids, (agrees.1 _ _ c (World.initial_fresh 1 .other) rfl run).1⟩
  · refine exists_of_map (fun c => (c.state.pipelineTraceRecords.map TraceRecord.turnId,
      decide (c.result? = some (.ok .continue)))) ([2, 3], true) (by decide +kernel)
      fun c run facts => ?_
    obtain ⟨ids, returned⟩ := Prod.mk.inj facts
    exact ⟨ids, agrees.2 cutOffWorld [] false false 0 _ c .continue run
      (of_decide_eq_true returned)⟩

end Guarantees
end IsalesEngine
