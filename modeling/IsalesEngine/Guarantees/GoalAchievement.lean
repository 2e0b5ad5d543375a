import IsalesEngine.Engine.AuditedCall
import IsalesEngine.Guarantees.WrapUp

/-!
The goal a reply is recorded with and the entry into the wrap-up phase. The
first is read off the id of the selected route, the second off its state change,
and the configuration of a campaign sets both. They coincide if and only if the
action of the gate is coherent: no unknown target falls back to the closing
route, that route is not given another state change, and no other route is given
that of the closing one.
-/
namespace IsalesEngine
open Asyncio Asyncio.Coro

namespace PipelineConfig
variable (cfg : PipelineConfig)

/-- An action without a known target is not answered by the closing route. -/
def failsOpenSafely : Bool := decide (cfg.refereeFailOpenRoute ≠ "closing")

/-- The route of the action closes the call and begins the wrap-up phase, or does neither. -/
def goalCoherent : DeciderAction → Bool
  | .transition target _ _ =>
      decide (target ∈ [some "goal_achieved", some "transfer", some "customer_decline"]) ||
        cfg.failsOpenSafely
  | .restructure .. => true
  | .route target _ thenState _ =>
      if target.getD "" = "closing" then
        decide (thenState ∈ [none, some "", some "WRAPPING_UP"])
      else if target.getD "" = "recovery" || cfg.hasPersona (target.getD "") then
        decide (thenState ≠ some "WRAPPING_UP")
      else cfg.failsOpenSafely
  | .tool tool .. => cfg.hasTool (tool.getD "") || cfg.failsOpenSafely
  | .continue _ => cfg.failsOpenSafely

variable {cfg} {thenState : Option String}

theorem failOpen_agrees :
    cfg.failOpen.goalAchieved = cfg.failOpen.wrapsUp ↔ cfg.failsOpenSafely = true := by
  by_cases empty : cfg.refereeFailOpenRoute = ""
  · simp [GatedSelection.goalAchieved, GatedSelection.wrapsUp, failOpen, failsOpenSafely, empty]
  · simp [GatedSelection.goalAchieved, GatedSelection.wrapsUp, failOpen, failsOpenSafely, empty]

theorem failOpen_safe (restructure : cfg.failOpen.routeId = "restructure") :
    cfg.failsOpenSafely = true := by
  refine failOpen_agrees.mp ?_
  rw [GatedSelection.goalAchieved, restructure]
  rfl

theorem orElse_wrapsUp : orElse thenState "WRAPPING_UP" = "WRAPPING_UP" ↔
      thenState ∈ [none, some "", some "WRAPPING_UP"] := by
  cases thenState with
  | none => simp [orElse]
  | some state =>
      by_cases empty : state = ""
      · simp [orElse, empty]
      · simp [orElse, empty]

theorem orElse_activates :
    orElse thenState "ACTIVATING" = "WRAPPING_UP" ↔ thenState = some "WRAPPING_UP" := by
  cases thenState with
  | none => simp [orElse]
  | some state =>
      by_cases empty : state = ""
      · simp [orElse, empty]
      · simp [orElse, empty]

theorem toolSelection_failOpen {name : String} {closingPhrase : Option Text}
    (dialogue : (cfg.toolSelection name thenState closingPhrase).kind = .dialogue) :
    cfg.toolSelection name thenState closingPhrase = cfg.failOpen ∧ cfg.hasTool name = false := by
  unfold toolSelection at dialogue ⊢
  unfold hasTool
  cases found : (cfg.tools.find? fun t => t.1 = name).map Prod.snd with
  | none => exact ⟨rfl, rfl⟩
  | some tool =>
      rw [found] at dialogue
      obtain ⟨type, phrase⟩ := tool
      cases type with
      | other => exact ⟨rfl, rfl⟩
      | hangup | transfer => cases dialogue

theorem transition_agrees {target goalType : Option String} {matched : RoutingRule}
    (dialogue : (cfg.selectGatedRoute (.transition target goalType matched)).kind = .dialogue) :
    (cfg.selectGatedRoute (.transition target goalType matched)).goalAchieved =
        (cfg.selectGatedRoute (.transition target goalType matched)).wrapsUp ↔
      cfg.goalCoherent (.transition target goalType matched) = true := by
  unfold selectGatedRoute at dialogue ⊢
  unfold goalCoherent
  dsimp only at dialogue ⊢
  split
  · simp [GatedSelection.goalAchieved, GatedSelection.wrapsUp]
  · cases dialogue
  · simp [GatedSelection.goalAchieved, GatedSelection.wrapsUp]
  · rename_i goal transfer decline
    have unknown : target ∉ [some "goal_achieved", some "transfer", some "customer_decline"] := by
      simpa using ⟨goal, transfer, decline⟩
    rw [failOpen_agrees, decide_eq_false unknown, Bool.false_or]

section Route
variable {target goalType thenState : Option String} {matched : RoutingRule}

theorem select_closing (closing : target.getD "" = "closing") :
    cfg.selectGatedRoute (.route target goalType thenState matched) =
      { routeId := "closing", kind := .dialogue, thenState := some (orElse thenState "WRAPPING_UP")
        goalType := goalType.getD "" } := by
  simp only [selectGatedRoute, closing, builtinThen]

theorem select_recovery (recovery : target.getD "" = "recovery") :
    cfg.selectGatedRoute (.route target goalType thenState matched) =
      { routeId := "recovery", kind := .dialogue, thenState := some (orElse thenState "ACTIVATING")
        goalType := goalType.getD "" } := by
  simp only [selectGatedRoute, recovery, builtinThen]

/-- A target that is not built in is a persona or unknown. -/
theorem select_other (closing : target.getD "" ≠ "closing")
    (recovery : target.getD "" ≠ "recovery") :
    cfg.selectGatedRoute (.route target goalType thenState matched) =
      if cfg.hasPersona (target.getD "") then
        { routeId := "persona:" ++ target.getD "", kind := .dialogue, thenState := thenState }
      else cfg.failOpen := by
  have unbuilt : builtinThen (target.getD "") = none := by
    unfold builtinThen
    split
    · exact absurd ‹_› closing
    · exact absurd ‹_› recovery
    · rfl
  simp only [selectGatedRoute, unbuilt]
  rfl

theorem route_agrees :
    (cfg.selectGatedRoute (.route target goalType thenState matched)).goalAchieved =
        (cfg.selectGatedRoute (.route target goalType thenState matched)).wrapsUp ↔
      cfg.goalCoherent (.route target goalType thenState matched) = true := by
  by_cases closing : target.getD "" = "closing"
  · simp only [select_closing closing, goalCoherent, closing, if_true, decide_eq_true_eq,
      ← orElse_wrapsUp]
    simp [GatedSelection.goalAchieved, GatedSelection.wrapsUp]
  by_cases recovery : target.getD "" = "recovery"
  · simp only [select_recovery recovery, goalCoherent, recovery]
    simp [GatedSelection.goalAchieved, GatedSelection.wrapsUp, orElse_activates]
  rw [select_other closing recovery]
  by_cases persona : cfg.hasPersona (target.getD "") = true
  · have apart : "persona:" ++ target.getD "" ≠ "closing" := persona_ne (by decide)
    simp [goalCoherent, closing, recovery, persona, GatedSelection.goalAchieved,
      GatedSelection.wrapsUp, apart]
  · rw [if_neg persona, failOpen_agrees]
    simp [goalCoherent, closing, recovery, persona]

end Route

/-- The goal and the state change of a reply agree where its action is coherent. -/
theorem selection_agrees {action : DeciderAction}
    (dialogue : (cfg.selectGatedRoute action).kind = .dialogue) :
    (cfg.selectGatedRoute action).goalAchieved = (cfg.selectGatedRoute action).wrapsUp ↔
      cfg.goalCoherent action = true := by
  cases action with
  | «continue» matched => exact failOpen_agrees
  | transition target goalType matched => exact transition_agrees dialogue
  | route target goalType thenState matched => exact route_agrees
  | tool tool thenState closingPhrase matched =>
      obtain ⟨same, unknown⟩ := toolSelection_failOpen dialogue
      simp only [selectGatedRoute, goalCoherent, same, unknown, Bool.false_or]
      exact failOpen_agrees
  | restructure source trigger =>
      simp [selectGatedRoute, goalCoherent, GatedSelection.goalAchieved, GatedSelection.wrapsUp]

/-- A text is re-voiced only by actions that are coherent. -/
theorem restructure_coherent {action : DeciderAction}
    (dialogue : (cfg.selectGatedRoute action).kind = .dialogue)
    (restructure : (cfg.selectGatedRoute action).routeId = "restructure") :
    cfg.goalCoherent action = true := by
  cases action with
  | «continue» matched => exact failOpen_safe restructure
  | transition target goalType matched =>
      unfold selectGatedRoute at restructure
      dsimp only at restructure
      split at restructure
      · simp at restructure
      · simp at restructure
      · simp at restructure
      · simp [goalCoherent, failOpen_safe restructure]
  | route target goalType thenState matched =>
      by_cases closing : target.getD "" = "closing"
      · simp [select_closing closing] at restructure
      by_cases recovery : target.getD "" = "recovery"
      · simp [select_recovery recovery] at restructure
      rw [select_other closing recovery] at restructure
      by_cases persona : cfg.hasPersona (target.getD "") = true
      · rw [if_pos persona] at restructure
        exact absurd restructure (persona_ne (by decide))
      · rw [if_neg persona] at restructure
        simp [goalCoherent, closing, recovery, persona, failOpen_safe restructure]
  | tool tool thenState closingPhrase matched =>
      obtain ⟨same, unknown⟩ := toolSelection_failOpen dialogue
      rw [selectGatedRoute, same] at restructure
      simp [goalCoherent, failOpen_safe restructure]
  | restructure source trigger => rfl

end PipelineConfig

/-- How a turn that was not cut has ended: silently, with a reply and no state change, with a reply
and the wrap-up phase begun, or with a re-voiced text. -/
inductive Ledger.Closes (rules : LedgerRules) (start L : Ledger) : Prop
  | silent : L.events = start.events → Closes rules start L
  | stays (text : Text) (turnId : Nat) (role : Option Nat) (goalAchieved : Bool)
      (goalType : String) : L.events = start.events ++
        [.aiReply text turnId role goalAchieved goalType goalAchieved] →
      L.wrappingUp = false → rules.reply goalAchieved goalType false → Closes rules start L
  | wrapsUp (text : Text) (turnId : Nat) (role : Option Nat) (goalAchieved : Bool)
      (goalType : String) (rounds seconds : Nat) : L.events = start.events ++
        [.aiReply text turnId role goalAchieved goalType goalAchieved,
          .wrapUpStarted rounds seconds, .goalAchieved goalType] →
      L.wrappingUp = true → rules.reply goalAchieved goalType true → Closes rules start L
  | revoiced (text : Text) (turnId : Nat) (role : Option Nat) : L.events = start.events ++
        [.aiReply text turnId role false "" false] →
      L.wrappingUp = false → rules.revoices → Closes rules start L

/-- What a turn has written in each phase, from the drawing of its id on. -/
def Phase.Writes (rules : LedgerRules) (start L : Ledger) : Phase → Prop
  | .drawn wrapUp | .replying wrapUp => wrapUp = false ∧ L.events = start.events
  | .recorded => L.events = start.events
  | .restructuring | .revoicing => rules.revoices ∧ L.events = start.events
  | .replyCut _ | .revoiceCut => L.tally.cut = true
  | .idle => L.tally.cut = true ∨ Ledger.Closes rules start L
  | .ended => ∃ more, L.events = start.events ++ more ∧ ∀ e ∈ more, e.replyRole? = none
  | .broken => True
  | .begun _ | .heard | .cueing | .closing => False

variable {cfg : RuntimeConfig} {sel : GatedSelection} {action : DeciderAction} {start L : Ledger}
  {text : Text} {turnId : Nat} {role : Option Nat} {goalAchieved isWrapUp : Bool}
  {goalType : String}

theorem LedgerStep.writes {rules : LedgerRules} {p p' : Phase} {L' : Ledger} (alone : ¬rules.goesOn)
    (step : LedgerStep rules p L p' L') (holds : p.Wraps L ∧ p.Writes rules start L) :
    p'.Wraps L' ∧ p'.Writes rules start L' := by
  obtain ⟨wraps, writes⟩ := holds
  refine ⟨step.wraps wraps, ?_⟩
  cases step with
  | greeting _ goesOn | activation _ _ goesOn | listening _ goesOn | heard _ goesOn
  | ends goesOn => exact absurd goesOn alone
  | transfer | cue | cued | turn | draw | judged | wrapUpGoesOn | wrapUpEnds => exact writes.elim
  | wrapUpReply | closed => cases writes.1
  | release | sentence | redraw | resentence => exact writes
  | abort => exact .inl rfl
  | cut | recut => rfl
  | interrupted | reinterrupted => exact .inl writes
  | record => exact writes.2
  | restructure _ _ _ permits => exact ⟨permits, writes.2⟩
  | unanswered => exact .inr (.silent writes)
  | handoff type detail =>
      exact ⟨[.transferInitiated type detail], congrArg (· ++ _) writes, by simp; rfl⟩
  | hangup => exact ⟨[], by rw [writes, List.append_nil], nofun⟩
  | replied r e goalAchieved goalType _ answers permits =>
      obtain ⟨role, rfl⟩ := answers.event
      exact .inr (.stays _ _ role _ _ (congrArg (· ++ _) writes.2) wraps permits)
  | wrapsUp r e goalAchieved goalType rounds seconds _ answers permits =>
      obtain ⟨role, rfl⟩ := answers.event
      refine .inr (.wrapsUp r.mainReplyText L.drawn role _ _ rounds seconds ?_ rfl permits)
      simp [Ledger.wrapUp, Ledger.answer, Ledger.write, Ledger.record, writes.2]
  | revoiced r e answers _ =>
      obtain ⟨role, rfl⟩ := answers.event
      exact .inr (.revoiced _ _ role (congrArg (· ++ _) writes.2) wraps writes.1)
  | ending e ending =>
      obtain ⟨more, events, silent⟩ := writes
      refine ⟨more ++ [e], ?_, fun e' member => ?_⟩
      · rw [Ledger.write, events, List.append_assoc]
      · obtain old | new := List.mem_append.mp member
        · exact silent e' old
        · rw [List.mem_singleton.mp new]
          exact TranscriptEvent.silent_of_ending ending
  | breaks | brokenOff => trivial

/-- The reply of a turn that has written `new` achieves the goal if and only if the turn begins the
wrap-up phase, and both have the same goal. -/
def GoalCoincides (goalAchieved : Bool) (goalType : String) (inWrapUp : Bool)
    (new : List TranscriptEvent) : Prop :=
  (goalAchieved = true ↔ inWrapUp = true ∧ (∃ rounds seconds, .wrapUpStarted rounds seconds ∈ new) ∧
    ∃ type, .goalAchieved type ∈ new) ∧
  ∀ type, .goalAchieved type ∈ new → type = goalType

theorem GoalCoincides.of_stays : GoalCoincides goalAchieved goalType false
      [.aiReply text turnId role goalAchieved goalType isWrapUp] ↔ goalAchieved = false := by
  simp [GoalCoincides]

theorem GoalCoincides.of_wrapsUp {rounds seconds : Nat} : GoalCoincides goalAchieved goalType true
      [.aiReply text turnId role goalAchieved goalType isWrapUp, .wrapUpStarted rounds seconds,
        .goalAchieved goalType] ↔ goalAchieved = true := by
  simp [GoalCoincides]

/-- The audit of a turn whose gate has selected `sel`. -/
def Audit.ofRoute (cfg : RuntimeConfig) (sel : GatedSelection) (start : Ledger) : Audit where
  cfg := cfg
  allow _ _ _ := true
  rules := {
    goesOn := False
    round := fun _ => True
    whole := fun _ => True
    reply := fun goalAchieved _ wrapsUp => sel.kind = .dialogue ∧
      goalAchieved = sel.goalAchieved ∧ wrapsUp = sel.wrapsUp
    revoices := sel.kind = .dialogue ∧ sel.routeId = "restructure" }
  first := .drawn false
  start := start

theorem Audit.ofRoute_abides (outside : start.wrappingUp = false) :
    (Audit.ofRoute cfg sel start).Abides := ⟨outside, fun _ _ => trivial, fun _ _ _ => trivial⟩

theorem Audit.ofRoute_permits : (Audit.ofRoute cfg sel start).Permits sel :=
  ⟨fun dialogue _ => ⟨dialogue, rfl, rfl⟩, fun dialogue restructure => ⟨dialogue, restructure⟩⟩

/-- A turn that has replied and was not cut. -/
theorem Ledger.Closes.coincides {new : List TranscriptEvent} (closes : Ledger.Closes
      (Audit.ofRoute cfg (cfg.pipeline.selectGatedRoute action) start).rules start L)
    (written : L.events = start.events ++ new)
    (reply : .aiReply text turnId role goalAchieved goalType isWrapUp ∈ new) :
    GoalCoincides goalAchieved goalType L.wrappingUp new ↔
      cfg.pipeline.goalCoherent action = true := by
  cases closes with
  | silent events =>
      have none : new = [] := by simpa [events] using written
      rw [none] at reply
      cases reply
  | stays text' turnId' role' goalAchieved' goalType' events stays permits =>
      obtain rfl := List.append_cancel_left (written.symm.trans events)
      obtain ⟨dialogue, achieved, stays'⟩ := permits
      cases List.mem_singleton.mp reply
      rw [stays, GoalCoincides.of_stays, ← PipelineConfig.selection_agrees dialogue, ← achieved,
        ← stays']
  | wrapsUp text' turnId' role' goalAchieved' goalType' rounds seconds events wraps permits =>
      obtain rfl := List.append_cancel_left (written.symm.trans events)
      obtain ⟨dialogue, achieved, wraps'⟩ := permits
      have same : (.aiReply text turnId role goalAchieved goalType isWrapUp : TranscriptEvent) =
          .aiReply text' turnId' role' goalAchieved' goalType' goalAchieved' := by
        simpa using reply
      cases same
      rw [wraps, GoalCoincides.of_wrapsUp, ← PipelineConfig.selection_agrees dialogue, ← achieved,
        ← wraps']
  | revoiced text' turnId' role' events stays permits =>
      obtain rfl := List.append_cancel_left (written.symm.trans events)
      cases List.mem_singleton.mp reply
      rw [stays, GoalCoincides.of_stays]
      exact ⟨fun _ => PipelineConfig.restructure_coherent permits.1 permits.2, fun _ => rfl⟩

namespace Guarantees

/-- In every turn outside the wrap-up phase that returns with a reply which was not cut, whatever
the action of its gate: the reply achieves the goal if and only if the turn begins the wrap-up
phase, with the same goal, exactly if the action is coherent. -/
theorem goal_coincides_iff_coherent (cfg : RuntimeConfig) (fuel : Nat) (useFiller : Bool)
    (processingStart mainStream : Nat) (candidates : List Candidate) (action : DeciderAction)
    (results : List RefereeResult) (userText : Text) (decision : Option TransferDecision)
    (w : World) (acts : List (Action sig Move)) (c : Susp sig World Directive)
    (directive : Directive) (new : List TranscriptEvent) (text : Text) (turnId : Nat)
    (role : Option Nat) (goalAchieved : Bool) (goalType : String) (isWrapUp : Bool)
    (outside : w.session.inWrapUp = false)
    (cast : ∀ i ∈ mainStream :: candidates.map Candidate.stream,
      w.voices[i]? = some (w.session.currentTurnId, false))
    (run : (engine cfg).exec (GatedTurn.route cfg fuel useFiller processingStart mainStream
      candidates (cfg.pipeline.selectGatedRoute action) (fun text stream firstAudioMs =>
        addTrace stream userText firstAudioMs
          (gated results action (cfg.pipeline.selectGatedRoute action) candidates text))
      decision w) acts = some c)
    (returned : c.result? = some (.ok directive))
    (uncut : (tally c.state.history).cut = false)
    (written : c.state.session.entries = w.session.entries ++ new)
    (reply : .aiReply text turnId role goalAchieved goalType isWrapUp ∈ new) :
    GoalCoincides goalAchieved goalType c.state.session.inWrapUp new ↔
      cfg.pipeline.goalCoherent action = true := by
  have here : (Audit.ofRoute cfg (cfg.pipeline.selectGatedRoute action) w.ledger).At (.drawn false)
      (mainStream :: candidates.map Candidate.stream) w := ⟨.start, cast⟩
  have directed := (Audit.route_wp (Audit.ofRoute_abides outside)
    (Audit.gated_fills results action) Audit.ofRoute_permits here List.mem_cons_self
    fun c member => List.mem_cons_of_mem _ (List.mem_map_of_mem member)).result run returned
  have kept {p : Phase} {L : Ledger} (log : (Audit.ofRoute cfg
      (cfg.pipeline.selectGatedRoute action) w.ledger).Log p L) :=
    (log.invariant (J := fun p L => p.Wraps L ∧ p.Writes (Audit.ofRoute cfg
      (cfg.pipeline.selectGatedRoute action) w.ledger).rules w.ledger L) ⟨outside, rfl, rfl⟩
      (LedgerStep.writes id)).2
  cases directive with
  | «continue» =>
      obtain cut | closes := kept directed.ledger
      · exact absurd (cut.symm.trans uncut) (by decide)
      · exact closes.coincides written reply
  | «return» =>
      obtain ⟨more, events, silent⟩ := kept directed.ledger
      obtain rfl := List.append_cancel_left (written.symm.trans events)
      cases silent _ reply

/-- A turn whose main stream has been built. -/
def turnDrawn : World :=
  { World.initial 1 .other with
    streams := [{ turnId := 1 }], session := { callRecordId := 1, currentTurnId := 1 } }

def closingRun : List (Action sig Move) :=
  [.reply (.ext .buildStream) (.ok ())] ++ sentenceRun "再见。".toList

def closingAction : DeciderAction :=
  .transition (some "goal_achieved") none
    ⟨"intent", ["done"], .transition (some "goal_achieved") none⟩

theorem closing_coincides :
    ∃ c, (engine closingConfig).exec (GatedTurn.route closingConfig 2 false 0 0 [⟨"main", 0, none⟩]
        (closingConfig.pipeline.selectGatedRoute closingAction) (fun text stream firstAudioMs =>
          addTrace stream [] firstAudioMs (gated [] closingAction
            (closingConfig.pipeline.selectGatedRoute closingAction) [⟨"main", 0, none⟩] text))
        none turnDrawn) closingRun = some c ∧
      GoalCoincides true "" c.state.session.inWrapUp
        [.aiReply "再见。".toList 1 (some 1) true "" true, .wrapUpStarted 1 60,
          .goalAchieved ""] := by
  refine exists_of_map (fun c =>
    (decide (c.result? = some (.ok .continue)), (tally c.state.history).cut,
     c.state.session.entries))
       (true, false, [.aiReply "再见。".toList 1 (some 1) true "" true, .wrapUpStarted 1 60,
         .goalAchieved ""]) (by decide +kernel) fun c run facts => ?_
  obtain ⟨returned, facts⟩ := Prod.mk.inj facts
  obtain ⟨uncut, written⟩ := Prod.mk.inj facts
  refine (goal_coincides_iff_coherent closingConfig 2 false 0 0 [⟨"main", 0, none⟩]
    closingAction [] [] none turnDrawn _ c .continue _ _ _ _ _ _ _ rfl (by decide) run
    (of_decide_eq_true returned) uncut written List.mem_cons_self).mpr (by decide)

/-- A campaign in which a turn without a verdict falls back to the closing route. -/
def closingByDefault : RuntimeConfig := { RuntimeConfig.refereed with
  pipeline := { RuntimeConfig.refereed.pipeline with refereeFailOpenRoute := "closing" } }

/-- A campaign that recovers a declined call into the wrap-up phase. -/
def wrappedRecovery : RuntimeConfig := { RuntimeConfig.refereed with
  pipeline := { RuntimeConfig.refereed.pipeline with
    routingRules := [⟨"intent", ["declined"],
      .route (some "recovery") (some "visit") (some "WRAPPING_UP")⟩] } }

/-- A goal without a wrap-up phase, and a wrap-up phase without a goal. -/
theorem goal_without_wrap_up :
    ((engine closingByDefault).exec (runGatedTurn closingByDefault 2 [] false false false 0
      (World.initial 1 .other)) ([.reply (.ext .buildStream) (.ok ()), .move (.eagerEnd 0 none),
        .reply .gate (.ok [⟨"intent", none, none⟩])] ++ closingRun)).map
      (fun c => (c.state.session.inWrapUp, c.state.session.events)) =
    some (false, [.aiReply "再见。".toList 1 (some 1) true "" true]) ∧
    ((engine wrappedRecovery).exec (runGatedTurn wrappedRecovery 2 [] false false false 0
      (World.initial 1 .other)) ([.reply (.ext .buildStream) (.ok ()), .move (.eagerEnd 0 none),
        .reply .gate (.ok [⟨"intent", some "declined", none⟩])] ++ closingRun)).map
      (fun c => (c.state.session.inWrapUp, c.state.session.events)) =
    some (true, [.aiReply "再见。".toList 1 (some 1) false "" false, .wrapUpStarted 1 60,
      .goalAchieved ""]) := by
  constructor
  · decide +kernel
  · decide +kernel

end Guarantees
end IsalesEngine
