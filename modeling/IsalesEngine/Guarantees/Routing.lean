import Mathlib.Data.List.Nodup
import IsalesEngine.Engine.UpkeptCall
import IsalesEngine.Guarantees.Carryover
import IsalesEngine.Guarantees.GoalAchievement

/-!
The pre-reply gate reads the referees' results as a dictionary and takes the
first rule that matches. Its verdict depends on the results as a set, and on the
rules only up to those that cannot match. The restructure route is selected when
no rule matches and a cut-off line may be resumed; it is also selected by a rule
of an unknown type, which counts as no rule, and by a fail-open route of that
name.
-/
namespace IsalesEngine
open Asyncio Asyncio.Coro

/-- The rule cannot match: its referee is absent, failed open, or said something else. -/
def RoutingRule.Removed (results : List RefereeResult) (rule : RoutingRule) : Prop :=
  (∀ r ∈ results, r.label ≠ rule.referee) ∨
  (∃ r ∈ results, r.label = rule.referee ∧ r.category = none) ∨
  ∃ r ∈ results, r.label = rule.referee ∧
    (r.category.any fun category => !rule.categories.contains category) = true

instance (results : List RefereeResult) (rule : RoutingRule) : Decidable (rule.Removed results) :=
  inferInstanceAs (Decidable (_ ∨ _ ∨ _))

section Lookup
variable {results : List RefereeResult}

theorem categoryOf_absent {label : String} (absent : ∀ r ∈ results, r.label ≠ label) :
    categoryOf results label = none := by
  have missed : (results.reverse.find? fun r => r.label = label) = none := by
    rw [List.find?_eq_none]
    intro r member
    simpa using absent r (List.mem_reverse.mp member)
  simp [categoryOf, missed]

variable (labels : (results.map RefereeResult.label).Nodup)
include labels

theorem categoryOf_eq {r : RefereeResult} (member : r ∈ results) :
    categoryOf results r.label = r.category := by
  cases found : results.reverse.find? fun r' => r'.label = r.label with
  | none =>
      have := List.find?_eq_none.mp found r (List.mem_reverse.mpr member)
      simp at this
  | some r' =>
      have member' : r' ∈ results := List.mem_reverse.mp (List.mem_of_find?_eq_some found)
      have label : r'.label = r.label := by simpa using List.find?_some found
      have same : r' = r := List.inj_on_of_nodup_map labels member' member label
      simp [categoryOf, found, same]

/-- With one result per label, a rule matches exactly when it is not removed. -/
theorem RoutingRule.matchesResults_eq (rule : RoutingRule) :
    rule.matchesResults results = !decide (rule.Removed results) := by
  by_cases absent : ∀ r ∈ results, r.label ≠ rule.referee
  · have removed : rule.Removed results := .inl absent
    simp [RoutingRule.matchesResults, categoryOf_absent absent, removed]
  · obtain ⟨r, member, label⟩ : ∃ r ∈ results, r.label = rule.referee := by
      simpa using absent
    have unique : ∀ r' ∈ results, r'.label = rule.referee → r' = r := fun r' member' label' =>
      List.inj_on_of_nodup_map labels member' member (label'.trans label.symm)
    have lookup : categoryOf results rule.referee = r.category :=
      label ▸ categoryOf_eq labels member
    cases said : r.category with
    | none =>
        have removed : rule.Removed results := .inr (.inl ⟨r, member, label, said⟩)
        simp [RoutingRule.matchesResults, lookup, said, removed]
    | some category =>
        have removed : rule.Removed results ↔ category ∉ rule.categories := by
          constructor
          · rintro (none | ⟨r', member', label', none⟩ | ⟨r', member', label', other⟩)
            · exact absurd label (none r member)
            · rw [unique r' member' label', said] at none
              cases none
            · rw [unique r' member' label', said] at other
              simpa using other
          · intro other
            exact .inr (.inr ⟨r, member, label, by simpa [said] using other⟩)
        simp [RoutingRule.matchesResults, lookup, said, removed]

/-- The dictionary does not depend on the order of the results. -/
theorem categoryOf_perm {results' : List RefereeResult} (perm : results.Perm results')
    (label : String) : categoryOf results' label = categoryOf results label := by
  have labels' : (results'.map RefereeResult.label).Nodup := (perm.map _).nodup_iff.mp labels
  by_cases absent : ∀ r ∈ results, r.label ≠ label
  · have absent' : ∀ r ∈ results', r.label ≠ label :=
      fun r member => absent r (perm.mem_iff.mpr member)
    rw [categoryOf_absent absent, categoryOf_absent absent']
  · obtain ⟨r, member, rfl⟩ : ∃ r ∈ results, r.label = label := by simpa using absent
    rw [categoryOf_eq labels member, categoryOf_eq labels' (perm.mem_iff.mp member)]

end Lookup

section Rules
variable {results : List RefereeResult} {rules : List RoutingRule} {rule : RoutingRule}

@[simp] theorem decideAction_nil : decideAction results [] = .continue none := rfl

theorem decideAction_matched (hit : rule.matchesResults results = true) :
    decideAction results (rule :: rules) = rule.toAction := by
  simp [decideAction, hit]

theorem decideAction_missed (miss : rule.matchesResults results = false) :
    decideAction results (rule :: rules) = decideAction results rules := by
  simp [decideAction, miss]

theorem RoutingRule.toAction_ne (rule : RoutingRule) : rule.toAction ≠ .continue none := by
  unfold RoutingRule.toAction
  cases rule.action <;> simp

theorem decideAction_filter (results : List RefereeResult) (rules : List RoutingRule) :
    decideAction results (rules.filter (·.matchesResults results)) =
      decideAction results rules := by
  induction rules with
  | nil => rfl
  | cons rule rules ih =>
      cases hit : rule.matchesResults results with
      | true => simp only [List.filter_cons, hit, if_true, decideAction_matched hit]
      | false =>
          rw [List.filter_cons_of_neg (by simp [hit]), decideAction_missed hit]
          exact ih

/-- Rules that miss are passed over. -/
theorem decideAction_append {before : List RoutingRule}
    (missed : ∀ rule ∈ before, rule.matchesResults results = false) :
    decideAction results (before ++ rules) = decideAction results rules := by
  induction before with
  | nil => rfl
  | cons rule before ih =>
      have miss := missed rule List.mem_cons_self
      rw [List.cons_append, decideAction_missed miss]
      exact ih fun rule' member => missed rule' (List.mem_cons_of_mem rule member)

theorem decideAction_continue_iff : decideAction results rules = .continue none ↔
      ∀ rule ∈ rules, rule.matchesResults results = false := by
  induction rules with
  | nil => simp
  | cons rule rules ih =>
      cases hit : rule.matchesResults results with
      | true => simp [decideAction_matched hit, hit, rule.toAction_ne]
      | false => simp [decideAction_missed hit, hit, ih]

theorem decideAction_perm {results' : List RefereeResult}
    (labels : (results.map RefereeResult.label).Nodup) (perm : results.Perm results') :
    decideAction results' rules = decideAction results rules := by
  have same : (fun rule : RoutingRule => rule.matchesResults results') =
      fun rule => rule.matchesResults results := by
    funext rule
    simp only [RoutingRule.matchesResults, categoryOf_perm labels perm]
  simp only [decideAction, same]

end Rules

def DeciderAction.isContinue : DeciderAction → Bool
  | .continue _ => true
  | _ => false

namespace PipelineConfig
variable {cfg : PipelineConfig} {results : List RefereeResult} {s : CallSession}

/-- The first rule that matches. -/
def firstMatch (cfg : PipelineConfig) (results : List RefereeResult) : Option RoutingRule :=
  cfg.routingRules.find? (·.matchesResults results)

/-- The action names a route that exists. -/
def maps (cfg : PipelineConfig) : RuleAction → Bool
  | .transition target _ =>
      [some "goal_achieved", some "transfer", some "customer_decline"].contains target
  | .route target _ _ =>
      (builtinThen (target.getD "")).isSome || cfg.hasPersona (target.getD "")
  | .tool tool _ _ => cfg.hasTool (tool.getD "")
  | .other => false

/-- A cut-off line is pending, and the referees and the configuration allow to resume it. -/
def Resumes (cfg : PipelineConfig) (results : List RefereeResult) (s : CallSession) : Prop :=
  (∃ r ∈ results, r.category = some cfg.restructureGateCategory) ∧
    cfg.autoRestructureOnInterrupt = true ∧ cfg.restructureRoleConfigId.isSome = true ∧
    s.interruptRemainingText.getD [] ≠ []

instance : Decidable (cfg.Resumes results s) := inferInstanceAs (Decidable (_ ∧ _))

theorem failOpen_restructure :
    cfg.failOpen.routeId = "restructure" ↔ cfg.refereeFailOpenRoute = "restructure" := by
  unfold failOpen
  dsimp only
  split
  · rename_i empty
    simp [empty]
  · rfl

theorem toolSelection_restructure {name : String} {thenState : Option String}
    {closingPhrase : Option Text} :
    (cfg.toolSelection name thenState closingPhrase).routeId = "restructure" ↔
      cfg.hasTool name = false ∧ cfg.refereeFailOpenRoute = "restructure" := by
  have tool : "tool:" ++ name ≠ "restructure" := by
    intro same
    have first := congrArg (fun s => s.toList.head?) same
    simp at first
  unfold toolSelection hasTool
  cases (cfg.tools.find? fun t => t.1 = name).map Prod.snd with
  | none => simpa using failOpen_restructure
  | some config =>
      obtain ⟨type, phrase⟩ := config
      cases type with
      | other => simpa using failOpen_restructure
      | hangup | transfer => simpa using tool

/-- A rule selects the restructure route only by falling open to it. -/
theorem selectGatedRoute_toAction (rule : RoutingRule) :
    (cfg.selectGatedRoute rule.toAction).routeId = "restructure" ↔
      cfg.maps rule.action = false ∧ cfg.refereeFailOpenRoute = "restructure" := by
  obtain ⟨referee, categories, action⟩ := rule
  cases action with
  | transition target goalType =>
      simp only [RoutingRule.toAction, selectGatedRoute, maps]
      split
      · simp
      · simp
      · simp
      · rename_i goal transfer decline
        have unknown : target ∉ [some "goal_achieved", some "transfer", some "customer_decline"] :=
          by simpa using ⟨goal, transfer, decline⟩
        simp only [List.contains_eq_mem, decide_eq_false unknown, true_and]
        exact failOpen_restructure
  | route target goalType thenState =>
      simp only [RoutingRule.toAction, selectGatedRoute, maps]
      cases builtin : builtinThen (target.getD "") with
      | some then' =>
          have named : target.getD "" ≠ "restructure" := by
            intro same
            rw [same] at builtin
            cases builtin
          simpa using named
      | none =>
          have persona : "persona:" ++ target.getD "" ≠ "restructure" :=
            persona_ne (by simp)
          cases known : cfg.hasPersona (target.getD "") with
          | true =>
              rw [hasPersona] at known
              simpa [known] using persona
          | false =>
              rw [hasPersona] at known
              simpa [known] using failOpen_restructure
  | tool tool thenState closingPhrase => exact toolSelection_restructure
  | other =>
      simp only [RoutingRule.toAction, selectGatedRoute, maps, true_and]
      exact failOpen_restructure

/-- The override takes the place of any `continue`; else a pending line is dropped. -/
theorem autoRestructure_eq (action : DeciderAction) : autoRestructure cfg results s action =
    if action.isContinue = true ∧ cfg.Resumes results s then
      (.restructure "interrupt_remaining" "interrupt_remaining", s)
    else (action, if cfg.autoRestructureOnInterrupt = true ∧ s.interruptRemainingText.getD [] ≠ []
      then { s with interruptRemainingText := none } else s) := by
  have kept : ∀ (p q : Prop) [Decidable p] [Decidable q] (a : DeciderAction × CallSession)
      (t t' : CallSession), ¬ p →
      (if p then a else if q then (action, t) else (action, t')) =
        (action, if q then t else t') := by
    intro p q _ _ a t t' other
    rw [if_neg other]
    split <;> rfl
  cases action with
  | «continue» matched =>
      by_cases resumes : cfg.Resumes results s
      · rw [if_pos ⟨rfl, resumes⟩]
        unfold Resumes at resumes
        unfold autoRestructure
        rw [if_pos (by simpa using resumes)]
      · rw [if_neg fun fires => resumes fires.2]
        unfold Resumes at resumes
        exact kept _ _ _ _ _ (by simpa using resumes)
  | _ => exact (kept _ _ _ _ _ (by simp)).trans (if_neg (by simp [DeciderAction.isContinue])).symm

/-- When the restructure route is selected although a rule matches. -/
theorem select_matched {rule : RoutingRule} (first : cfg.firstMatch results = some rule) :
    (cfg.select results s).1.routeId = "restructure" ↔
      rule.action = .other ∧ cfg.Resumes results s ∨
        cfg.maps rule.action = false ∧ cfg.refereeFailOpenRoute = "restructure" := by
  have decided : decideAction results cfg.routingRules = rule.toAction := by
    simp [decideAction, show cfg.routingRules.find? _ = some rule from first]
  have goesOn : rule.toAction.isContinue = true ↔ rule.action = .other := by
    unfold RoutingRule.toAction
    cases rule.action <;> simp [DeciderAction.isContinue]
  simp only [select, decided, autoRestructure_eq, goesOn]
  by_cases fires : rule.action = .other ∧ cfg.Resumes results s
  · rw [if_pos fires]
    exact ⟨fun _ => .inl fires, fun _ => rfl⟩
  · rw [if_neg fires, selectGatedRoute_toAction, or_iff_right fires]

theorem select_unmatched (none : cfg.firstMatch results = none) :
    (cfg.select results s).1.routeId = "restructure" ↔
      cfg.Resumes results s ∨ cfg.refereeFailOpenRoute = "restructure" := by
  have decided : decideAction results cfg.routingRules = .continue .none := by
    simp [decideAction, show cfg.routingRules.find? _ = .none from none]
  simp only [select, decided, autoRestructure_eq, DeciderAction.isContinue, true_and]
  by_cases resumes : cfg.Resumes results s
  · rw [if_pos resumes]
    exact ⟨fun _ => .inl resumes, fun _ => rfl⟩
  · rw [if_neg resumes, or_iff_right resumes]
    exact failOpen_restructure

/-- With the switch on, a line that is not resumed is dropped. -/
theorem select_drops (switch : cfg.autoRestructureOnInterrupt = true)
    (whole : s.interruptRemainingText ≠ some [])
    (other : (cfg.select results s).1.routeId ≠ "restructure") :
    (cfg.select results s).2.interruptRemainingText = none := by
  rw [select, autoRestructure_eq] at other ⊢
  by_cases fires : (decideAction results cfg.routingRules).isContinue = true ∧
      cfg.Resumes results s
  · rw [if_pos fires] at other
    exact absurd rfl other
  · rw [if_neg fires]
    dsimp only
    split
    · rfl
    · rename_i idle
      have nothing : s.interruptRemainingText.getD [] = [] := by simpa [switch] using idle
      cases pending : s.interruptRemainingText with
      | none => rfl
      | some text =>
          rw [pending] at nothing whole
          exact absurd (congrArg some nothing) whole

end PipelineConfig

namespace Guarantees

/-- A text that was cut off is never empty. -/
theorem remainder_whole (cfg : RuntimeConfig) (fuel : Nat) (w : World)
    (acts : List (Action sig Move)) (c : Susp sig World Unit) (fresh : w.Fresh)
    (run : (engine cfg).exec (runSession cfg fuel w) acts = some c) :
    c.state.session.interruptRemainingText ≠ some [] := by
  have stable : (engine cfg).Stable fun w => w.session.interruptRemainingText ≠ some [] := by
    apply Engine.stable_session (·.interruptRemainingText ≠ some [])
    intro op m w w' moved whole
    rw [(Engine.callMove_mainOwned moved).remaining]
    exact whole
  have up : Upkeep (engine cfg) (fun _ _ => True)
      (fun _ w => w.session.interruptRemainingText ≠ some [])
      fun w => w.session.interruptRemainingText ≠ some [] := by
    refine ⟨stable, fun _ _ h => h, fun aside whole => ?_⟩
    obtain same | cut := aside.remaining
    · rwa [same]
    · exact cut
  refine (up.call (Speaks.any cfg fun _ _ _ => true) Engine.below_stable ?_).reached ?_ run
  · intro w w' episode whole
    cases episode <;> exact whole
  · show w.session.interruptRemainingText ≠ some []
    rw [fresh.session]
    nofun

/-- In every state of a call, the gate selects the restructure route exactly when no rule matches
and a cut-off line may be resumed, and else drops the line, if and only if the first matching rule
is not of an unknown type while the line may be resumed, and nothing falls open to a route of that
name. -/
theorem restructure_exactly_when (cfg : RuntimeConfig) (fuel : Nat) (w : World)
    (acts : List (Action sig Move)) (c : Susp sig World Unit) (fresh : w.Fresh)
    (run : (engine cfg).exec (runSession cfg fuel w) acts = some c)
    (results : List RefereeResult) :
    let selected := cfg.pipeline.select results c.state.session
    let remaining := c.state.session.interruptRemainingText
    ((selected.1.routeId = "restructure" ↔
        (∀ rule ∈ cfg.pipeline.routingRules, rule.matchesResults results = false) ∧
        (∃ r ∈ results, r.category = some cfg.pipeline.restructureGateCategory) ∧
        cfg.pipeline.autoRestructureOnInterrupt = true ∧
        cfg.pipeline.restructureRoleConfigId.isSome = true ∧ remaining.getD [] ≠ []) ∧
      (cfg.pipeline.autoRestructureOnInterrupt = true → selected.1.routeId ≠ "restructure" →
        selected.2.interruptRemainingText = none)) ↔
    (∀ rule, cfg.pipeline.firstMatch results = some rule →
      (rule.action = .other → ¬ cfg.pipeline.Resumes results c.state.session) ∧
      (cfg.pipeline.refereeFailOpenRoute = "restructure" →
        cfg.pipeline.maps rule.action = true)) ∧
    (cfg.pipeline.firstMatch results = none →
      cfg.pipeline.refereeFailOpenRoute = "restructure" →
      cfg.pipeline.Resumes results c.state.session) := by
  intro selected remaining
  have drops : cfg.pipeline.autoRestructureOnInterrupt = true →
      selected.1.routeId ≠ "restructure" → selected.2.interruptRemainingText = none :=
    fun switch => PipelineConfig.select_drops switch (remainder_whole cfg fuel w acts c fresh run)
  rw [and_iff_left drops]
  cases first : cfg.pipeline.firstMatch results with
  | none =>
      have missed : ∀ rule ∈ cfg.pipeline.routingRules, rule.matchesResults results = false := by
        simpa [PipelineConfig.firstMatch] using first
      rw [PipelineConfig.select_unmatched first, and_iff_right missed]
      change (_ ↔ cfg.pipeline.Resumes results c.state.session) ↔ _
      grind
  | some rule =>
      have matched : ¬ ∀ rule ∈ cfg.pipeline.routingRules,
          rule.matchesResults results = false := by
        intro missed
        have none : cfg.pipeline.firstMatch results = none := by
          simpa [PipelineConfig.firstMatch] using missed
        rw [none] at first
        cases first
      rw [PipelineConfig.select_matched first]
      simp only [matched, false_and, iff_false]
      grind

theorem filler_resumed :
    ∃ c, (engine resumingConfig).exec (runSession resumingConfig 4 (World.initial 1 .other))
        resumedRun = some c ∧
      (resumingConfig.pipeline.select [⟨"intent", some "filler", none⟩]
        c.state.session).1.routeId = "restructure" := by
  refine exists_of_map (fun c => c.state.session.interruptRemainingText) (some "您好。".toList)
    (by decide +kernel) fun c run pending => ?_
  have exactly := (restructure_exactly_when resumingConfig 4 _ _ c (World.initial_fresh 1 .other)
    run [⟨"intent", some "filler", none⟩]).mpr
  rw [pending] at exactly
  have unmatched : resumingConfig.pipeline.firstMatch [⟨"intent", some "filler", none⟩] = none := by
    decide
  have holds := exactly ⟨fun rule matched => (Option.some_ne_none rule
    (matched.symm.trans unmatched)).elim, fun _ falls => absurd falls (by decide)⟩
  exact holds.1.mpr (by decide)

/-- The same campaign with a rule of a type the engine does not know. -/
def unknownRuleConfig : RuntimeConfig := { resumingConfig with
  pipeline := { resumingConfig.pipeline with
    routingRules := [⟨"intent", ["filler"], .other⟩] } }

/-- A campaign whose fall-back route is called like the restructure route. -/
def restructureOpenConfig : RuntimeConfig := { RuntimeConfig.refereed with
  pipeline := { RuntimeConfig.refereed.pipeline with
    refereeFailOpenRoute := "restructure" } }

/-- A rule matches and the line is resumed nonetheless; no line was cut, no slot is configured and
the restructure route is taken nonetheless. -/
theorem restructure_unasked :
    ((engine unknownRuleConfig).exec (runSession unknownRuleConfig 4 (World.initial 1 .other))
      resumedRun).map (fun c =>
        (unknownRuleConfig.pipeline.routingRules.map
          (·.matchesResults [⟨"intent", some "filler", none⟩]),
        (unknownRuleConfig.pipeline.select [⟨"intent", some "filler", none⟩]
          c.state.session).1.routeId)) = some ([true], "restructure") ∧
    ((engine restructureOpenConfig).exec
      (runSession restructureOpenConfig 4 (World.initial 1 .other))
      (RunSession.listeningRun .other ++ RunSession.spokenRun "好的".toList ++
        RunSession.gateRun)).map (fun c =>
        (c.state.session.interruptRemainingText,
        (restructureOpenConfig.pipeline.select [⟨"intent", none, none⟩]
          c.state.session).1.routeId)) = some (none, "restructure") := by
  decide +kernel

/-- With pairwise distinct labels, the verdict does not depend on the order of the results, on
rules that are removed, or on rules after the first that is not; it is a `continue` without a
rule exactly when all of them are removed. -/
theorem decide_first_match (results : List RefereeResult) (rules : List RoutingRule)
    (labels : (results.map RefereeResult.label).Nodup) :
    (∀ results', results.Perm results' →
      decideAction results' rules = decideAction results rules) ∧
    decideAction results (rules.filter fun rule => ¬ rule.Removed results) =
      decideAction results rules ∧
    (∀ before rule after after', rules = before ++ rule :: after →
      (∀ r ∈ before, r.Removed results) → ¬ rule.Removed results →
      decideAction results (before ++ rule :: after') = decideAction results rules) ∧
    (decideAction results rules = .continue none ↔
      (rules.filter fun rule => ¬ rule.Removed results) = []) := by
  have missed : ∀ rule : RoutingRule,
      rule.matchesResults results = false ↔ rule.Removed results := by
    intro rule
    simp [RoutingRule.matchesResults_eq labels]
  have surviving : (rules.filter fun rule => ¬ rule.Removed results) =
      rules.filter (·.matchesResults results) :=
    List.filter_congr fun rule _ => by simp [RoutingRule.matchesResults_eq labels]
  refine ⟨fun results' perm => decideAction_perm labels perm, ?_, ?_, ?_⟩
  · rw [surviving]
    exact decideAction_filter results rules
  · rintro before rule after after' rfl removed survives
    have hit : rule.matchesResults results = true := by
      simpa [RoutingRule.matchesResults_eq labels] using survives
    have passed : ∀ r ∈ before, r.matchesResults results = false :=
      fun r member => (missed r).mpr (removed r member)
    rw [decideAction_append passed, decideAction_append passed, decideAction_matched hit,
      decideAction_matched hit]
  · rw [decideAction_continue_iff, List.filter_eq_nil_iff]
    simp [missed]

/-- The rule for a referee that failed open may as well be missing. -/
theorem failed_referee_skipped :
    let results : List RefereeResult :=
      [⟨"mood", none, some "timeout"⟩, ⟨"intent", some "GOAL", none⟩]
    let goal : RoutingRule := ⟨"intent", ["GOAL"], .transition (some "goal_achieved") none⟩
    decideAction results [goal] = decideAction results [⟨"mood", ["BAD"], .other⟩, goal] := by
  intro results goal
  exact (decide_first_match results [⟨"mood", ["BAD"], .other⟩, goal] (by decide)).2.1

end Guarantees
end IsalesEngine
