import IsalesEngine.CallSession

/-!
The pure decision helpers of a turn: the barge-in rule tree, the silence
ladder, the wrap-up counters and the cheap transfer triggers. A regular
expression leaf is given by what `re.search` answers. Phrases drawn with
`random.choice` are left to the caller.
-/
namespace IsalesEngine

inductive KeywordMatch where
  | contains | exact
  deriving DecidableEq, Repr

inductive Rule where
  | keyword (values : List Text) (how : KeywordMatch)
  | length (value : Nat)
  | duration (valueMs : Nat)
  | regex (search : Text → Bool)
  | splitByDelimiter (delimiters : List Text)
  | none
  | and (rules : List Rule)
  | or (rules : List Rule)
  | not (rule : Rule)

namespace Rule

def trailingPunct : Text := "。，！？、；,.!?;".toList

mutual

def evaluate (text : Text) (elapsedMs : Nat) : Rule → Bool
  | .keyword values .exact => values.contains text.strip
  | .keyword values .contains =>
      let t := Text.rstripChars trailingPunct text.strip
      !t.isEmpty && values.any t.includes
  | .length value => value ≤ text.strip.length
  | .duration valueMs => valueMs ≤ elapsedMs
  | .regex search => search text
  | .splitByDelimiter delimiters => delimiters.any text.includes
  | .none => false
  | .and rules => evaluateAll text elapsedMs rules
  | .or rules => evaluateAny text elapsedMs rules
  | .not rule => !evaluate text elapsedMs rule

def evaluateAll (text : Text) (elapsedMs : Nat) : List Rule → Bool
  | [] => true
  | rule :: rules => evaluate text elapsedMs rule && evaluateAll text elapsedMs rules

def evaluateAny (text : Text) (elapsedMs : Nat) : List Rule → Bool
  | [] => false
  | rule :: rules => evaluate text elapsedMs rule || evaluateAny text elapsedMs rules

end

end Rule

structure InterruptionConfig where
  whitelist : List Text
  rule : Rule

def evaluatePartial (text : Text) (speechStartedMs nowMs : Nat) (cfg : InterruptionConfig) : Bool :=
  cfg.rule.evaluate text (nowMs - speechStartedMs)

structure SilenceConfig where
  thresholdMs : Nat
  maxActivations : Int
  phrases : List Text
  hangupPhrase : Text
  wrapUpHangupMs : Nat

inductive SilenceDecision where
  | wait
  | activate (phrase : Text)
  | hangup (phrase : Option Text)
  deriving DecidableEq, Repr

def evaluateSilence (silenceElapsedMs activationsSoFar : Nat) (cfg : SilenceConfig)
    (inWrapUp : Bool) : SilenceDecision :=
  if inWrapUp then
    if cfg.wrapUpHangupMs ≤ silenceElapsedMs then .hangup none else .wait
  else if silenceElapsedMs < cfg.thresholdMs then .wait
  else if cfg.maxActivations ≤ (activationsSoFar : Int) then .hangup (some cfg.hangupPhrase)
  else if cfg.phrases = [] then .activate []
  else .activate (cfg.phrases.getD (min activationsSoFar (cfg.phrases.length - 1)) [])

structure WrapUpConfig where
  maxRounds : Nat
  maxSeconds : Nat
  closingPhrases : List Text
  refereeEnabled : Bool

/-- Why wrap-up is exhausted, if it is. -/
def wrapUpExhausted (roundsSoFar : Nat) (startedAt : Option Nat) (cfg : WrapUpConfig)
    (now : Nat) : Option String :=
  if cfg.maxRounds ≤ roundsSoFar then some "max_rounds"
  else match startedAt with
    | some started => if cfg.maxSeconds * 1000 ≤ now - started then some "max_seconds" else none
    | none => none

structure TransferConfig where
  keywordEnabled : Bool
  keywords : List Text
  intentEnabled : Bool
  roundEnabled : Bool
  roundThreshold : Option Nat
  llmEnabled : Bool
  phrases : List Text

structure TransferDecision where
  triggerType : String
  triggerDetail : String
  phrase : Text
  deriving DecidableEq, Repr

/-- The keyword and round triggers: type and detail of the one that fires. -/
def transferTrigger (userText : Text) (turnCount : Nat) (goalAchieved : Bool)
    (cfg : TransferConfig) : Option (String × String) :=
  let keyword := if cfg.keywordEnabled
    then cfg.keywords.find? fun kw => !kw.isEmpty && userText.includes kw else none
  match keyword with
  | some kw => some ("keyword", String.ofList kw)
  | none => match cfg.roundThreshold with
      | some threshold =>
          if cfg.roundEnabled && threshold ≤ turnCount && !goalAchieved
          then some ("round", "turn_count=" ++ toString turnCount) else none
      | none => none

end IsalesEngine
