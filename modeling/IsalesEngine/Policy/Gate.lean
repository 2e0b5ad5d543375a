import IsalesEngine.Policy.Detectors

/-!
The pre-reply gate: the first routing rule that matches what the referees said,
and its mapping to one route. Route ids, `then_state` values and transition
targets are open strings of the campaign configuration and are compared as
such; a rule or tool of an unknown type falls back to the main dialogue.
-/
namespace IsalesEngine

structure RefereeResult where
  label : String
  category : Option String
  failopenReason : Option String := none
  deriving DecidableEq, Repr

def RefereeResult.failOpen (label reason : String) : RefereeResult := ⟨label, none, some reason⟩

inductive RuleAction where
  | transition (target : Option String) (goalType : Option String)
  | route (target : Option String) (goalType thenState : Option String)
  | tool (tool : Option String) (thenState : Option String) (closingPhrase : Option Text)
  | other
  deriving DecidableEq, Repr

structure RoutingRule where
  referee : String
  categories : List String
  action : RuleAction
  deriving DecidableEq, Repr

inductive DeciderAction where
  | continue (matched : Option RoutingRule)
  | transition (target : Option String) (goalType : Option String) (matched : RoutingRule)
  | route (target : Option String) (goalType thenState : Option String) (matched : RoutingRule)
  | tool (tool : Option String) (thenState : Option String) (closingPhrase : Option Text)
      (matched : RoutingRule)
  | restructure (source trigger : String)
  deriving DecidableEq, Repr

/-- The dictionary of labels to categories: a later result of a label replaces an earlier one. -/
def categoryOf (results : List RefereeResult) (label : String) : Option String :=
  (results.reverse.find? fun r => r.label = label).bind RefereeResult.category

def RoutingRule.matchesResults (rule : RoutingRule) (results : List RefereeResult) : Bool :=
  match categoryOf results rule.referee with
  | some category => rule.categories.contains category
  | none => false

def RoutingRule.toAction (rule : RoutingRule) : DeciderAction :=
  match rule.action with
  | .transition target goalType => .transition target goalType rule
  | .route target goalType thenState => .route target goalType thenState rule
  | .tool tool thenState closingPhrase => .tool tool thenState closingPhrase rule
  | .other => .continue (some rule)

def decideAction (results : List RefereeResult) (rules : List RoutingRule) : DeciderAction :=
  match rules.find? (·.matchesResults results) with
  | some rule => rule.toAction
  | none => .continue none

inductive ToolType where
  | hangup | transfer | other
  deriving DecidableEq, Repr

structure ToolConfig where
  type : ToolType
  closingPhrase : Option Text
  deriving DecidableEq, Repr

/-- What a reply is generated with; `provider` and `model` select the LLM client. -/
structure Slot where
  provider : Option String := none
  model : Option String := none
  systemPrompt : String := ""
  temperature : Rat := 1
  topP : Rat := 1
  deriving DecidableEq, Repr

/-- A client of the call: the engine's own, or one built for a provider and a model. -/
inductive LlmClient where
  | default
  | built (provider : String) (model : Option String)
  deriving DecidableEq, Repr

/-- `LLMRegistry.resolve`; `builds` says for which providers and models a client can be built. -/
def LlmRegistry.resolve (builds : String → Option String → Bool) (provider model : Option String) :
    LlmClient :=
  match provider with
  | none => .default
  | some p => if p = "" ∨ builds p model = false then .default else .built p model

def Slot.client (builds : String → Option String → Bool) (slot : Slot) : LlmClient :=
  LlmRegistry.resolve builds slot.provider slot.model

structure PersonaSpec where
  label : String
  roleConfigId : Nat
  slot : Slot := {}
  deriving DecidableEq, Repr

/-- `_persona_main_spec`: the persona's slot as a main slot; the provider is not handed on. -/
def PersonaSpec.mainSpec (p : PersonaSpec) : Slot := { p.slot with provider := none }

structure PipelineConfig where
  mainRoleConfigId : Nat
  main : Slot := {}
  refereeLabels : List String
  defaultReplies : List Text
  restructureRoleConfigId : Option Nat
  restructure : Slot := {}
  routingRules : List RoutingRule
  maxContinuousRestructure : Nat
  autoRestructureOnInterrupt : Bool
  restructureGateCategory : String
  personas : List PersonaSpec
  tools : List (String × ToolConfig)
  personaFanoutCap : Int
  refereeFailOpenRoute : String

inductive RouteKind where
  | dialogue
  | tool (type : ToolType)
  deriving DecidableEq, Repr

structure GatedSelection where
  routeId : String
  kind : RouteKind
  thenState : Option String := none
  goalType : String := ""
  source : Option String := none
  restructureTrigger : Option String := none
  toolConfig : Option ToolConfig := none
  closingPhrase : Option Text := none
  deriving DecidableEq, Repr

namespace PipelineConfig

def failOpen (cfg : PipelineConfig) : GatedSelection where
  routeId := if cfg.refereeFailOpenRoute = "" then "main" else cfg.refereeFailOpenRoute
  kind := .dialogue

/-- `x or y` on an optional string: absent and empty both fall through. -/
def orElse (x : Option String) (y : String) : String :=
  match x with
  | some s => if s = "" then y else s
  | none => y

def toolSelection (cfg : PipelineConfig) (name : String) (thenState : Option String)
    (closingPhrase : Option Text) : GatedSelection :=
  match (cfg.tools.find? fun t => t.1 = name).map Prod.snd with
  | some tc => match tc.type with
      | .other => cfg.failOpen
      | type =>
          { routeId := "tool:" ++ name
            kind := .tool type
            thenState := some (orElse thenState
              (if type = .hangup then "END" else "TRANSFERRING"))
            toolConfig := some tc
            closingPhrase := closingPhrase }
  | none => cfg.failOpen

def builtinThen : String → Option String
  | "closing" => some "WRAPPING_UP"
  | "recovery" => some "ACTIVATING"
  | _ => none

def selectGatedRoute (cfg : PipelineConfig) : DeciderAction → GatedSelection
  | .transition target goalType _ => match target with
      | some "goal_achieved" =>
          { routeId := "closing", kind := .dialogue, thenState := some "WRAPPING_UP"
            goalType := goalType.getD "" }
      | some "transfer" =>
          { routeId := "tool:transfer", kind := .tool .transfer, thenState := some "TRANSFERRING" }
      | some "customer_decline" =>
          { routeId := "recovery", kind := .dialogue, thenState := some "ACTIVATING" }
      | _ => cfg.failOpen
  | .restructure source trigger =>
      { routeId := "restructure", kind := .dialogue, thenState := some "LISTENING"
        source := some source, restructureTrigger := some trigger }
  | .route target goalType thenState _ =>
      let route := target.getD ""
      match builtinThen route with
      | some builtin =>
          { routeId := route, kind := .dialogue, thenState := some (orElse thenState builtin)
            goalType := goalType.getD "" }
      | none =>
          if cfg.personas.any fun p => p.label = route then
            { routeId := "persona:" ++ route, kind := .dialogue, thenState := thenState }
          else cfg.failOpen
  | .tool tool thenState closingPhrase _ =>
      cfg.toolSelection (tool.getD "") thenState closingPhrase
  | .continue _ => cfg.failOpen

def hasTool (cfg : PipelineConfig) (name : String) : Bool :=
  ((cfg.tools.find? fun t => t.1 = name).map Prod.snd).any fun tc => decide (tc.type ≠ .other)

def hasPersona (cfg : PipelineConfig) (label : String) : Bool :=
  cfg.personas.any fun p => p.label = label

theorem persona_ne {label other : String} (apart : other.toList.head? ≠ some 'p') :
    "persona:" ++ label ≠ other := by
  rintro rfl
  simp at apart

/-- The slot a restructure is voiced with. -/
def restructureSlot (cfg : PipelineConfig) : Slot :=
  if cfg.restructureRoleConfigId.isSome then cfg.restructure else cfg.main

/-- The personas generated speculatively beside the main reply. -/
def enabledPersonas (cfg : PipelineConfig) : List PersonaSpec :=
  cfg.personas.take (max 1 (min 3 cfg.personaFanoutCap) - 1).toNat

end PipelineConfig

inductive ContinuousInterruptionStrategy where
  | shortReply | listenOnly
  deriving DecidableEq, Repr

structure RuntimeConfig where
  pipeline : PipelineConfig
  fillerPhrases : List Text
  transfer : TransferConfig
  wrapUp : WrapUpConfig
  interruption : InterruptionConfig
  silence : SilenceConfig
  fixedGreeting : Option Text
  fillerEnabled : Bool
  fillerDelayMs : Nat
  maxContinuousInterruptions : Nat
  continuousInterruptionStrategy : ContinuousInterruptionStrategy

/-- A campaign with a fixed greeting and none of the optional features. -/
def RuntimeConfig.minimal : RuntimeConfig where
  pipeline :=
    { mainRoleConfigId := 1, refereeLabels := [], defaultReplies := []
      restructureRoleConfigId := none, routingRules := [], maxContinuousRestructure := 1
      autoRestructureOnInterrupt := false, restructureGateCategory := "", personas := []
      tools := [], personaFanoutCap := 1, refereeFailOpenRoute := "main" }
  fillerPhrases := []
  transfer :=
    { keywordEnabled := false, keywords := [], intentEnabled := false, roundEnabled := false
      roundThreshold := none, llmEnabled := false, phrases := [] }
  wrapUp := { maxRounds := 1, maxSeconds := 60, closingPhrases := [], refereeEnabled := false }
  interruption := { whitelist := [], rule := .length 2 }
  silence :=
    { thresholdMs := 5000, maxActivations := 1, phrases := ["在吗".toList], hangupPhrase := []
      wrapUpHangupMs := 5000 }
  fixedGreeting := some "您好".toList
  fillerEnabled := false
  fillerDelayMs := 0
  maxContinuousInterruptions := 3
  continuousInterruptionStrategy := .shortReply

/-- The same campaign with one referee. -/
def RuntimeConfig.refereed : RuntimeConfig := { RuntimeConfig.minimal with
  pipeline := { RuntimeConfig.minimal.pipeline with refereeLabels := ["intent"] } }

inductive Protection where
  | none | listenOnly | shortReply
  deriving DecidableEq, Repr

def decideProtection (s : CallSession) (cfg : RuntimeConfig) : Protection :=
  if s.consecutiveInterruptionCount < cfg.maxContinuousInterruptions then .none
  else match cfg.continuousInterruptionStrategy with
    | .listenOnly => .listenOnly
    | .shortReply => .shortReply

end IsalesEngine
