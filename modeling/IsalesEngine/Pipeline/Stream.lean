import IsalesEngine.Asyncio.System
import IsalesEngine.SentenceSplitter
import IsalesEngine.Engine.World

/-!
The reply of one turn as a stream of sentences. Generation splits the tokens of the
model into sentences and falls back to a plain `chat` when the token stream fails
before the first of them. `sentences` drives it directly, or replays the buffer that
a background task fills; in both cases a reply with nothing to say becomes a default
reply. The replay waits on a condition variable: whoever holds its lock does not
suspend, so each critical section is one step.
-/
namespace IsalesEngine
open Asyncio SentenceSplitter

/-- What the model does: the tokens it streams, how the stream fails if it does, and what `chat`
returns or raises. -/
structure LlmBehaviour where
  tokens : List Text
  failure : Option String
  chat : Except String (Option Text)

/-- The text and the reason of a `default_reply_used` event. -/
structure DefaultReplyUsed where
  text : Text
  reason : String
  deriving DecidableEq, Repr

/-- What generation does, in order: it yields a sentence, records an error, or marks the fallback as
used. -/
inductive CoreEffect where
  | sentence (text : Text)
  | error (message : String)
  | fallbackUsed
  deriving DecidableEq, Repr

namespace CoreEffect

def text? : CoreEffect → Option Text
  | .sentence text => some text
  | _ => none

end CoreEffect

namespace MainStreamResult

def record (r : MainStreamResult) : CoreEffect → MainStreamResult
  | .sentence text => { r with replyText := r.replyText ++ text }
  | .error message => { r with error := some message }
  | .fallbackUsed => r

end MainStreamResult

/-- A stream's configuration: which characters can be voiced, the default replies and the random
choice among them. -/
structure StreamConfig where
  readable : Char → Bool
  defaultReplies : List Text
  choice : Nat

namespace StreamConfig
variable (config : StreamConfig)

/-- The sentences cut from tokens before the token stream ends. -/
def splitOpen : Text → List Text → List Text
  | _, [] => []
  | buffer, token :: tokens =>
      let (out, buffer') :=
        feedChars config.readable softSentenceChars maxSentenceChars buffer token
      out ++ splitOpen buffer' tokens

def split (tokens : List Text) : List Text :=
  splitSentences config.readable softSentenceChars maxSentenceChars tokens

def chatFallback (llm : LlmBehaviour) : List CoreEffect :=
  match llm.chat with
  | .error message => [.error ("main_fallback: " ++ message)]
  | .ok content =>
      let text := (content.getD []).strip
      .fallbackUsed :: if text = [] then [] else (config.split [text]).map .sentence

/-- `_generate_core`. -/
def generateCore (llm : LlmBehaviour) : List CoreEffect :=
  match llm.failure with
  | none => (config.split llm.tokens).map .sentence
  | some message =>
      let out := config.splitOpen [] llm.tokens
      if out = [] then config.chatFallback llm
      else out.map .sentence ++ [.error ("main_stream_mid: " ++ message)]

def defaultReply : Text :=
  match config.defaultReplies with
  | [] => "好的，请稍等。".toList
  | replies => replies.getD (config.choice % replies.length) []

end StreamConfig

/-- A stream whose sentences are consumed: what has been yielded, the result and the events. -/
structure Consumption where
  yielded : List Text := []
  result : MainStreamResult := {}
  events : List DefaultReplyUsed := []
  deriving DecidableEq, Repr

namespace Consumption

/-- The end of `sentences`: a reply with nothing to say becomes a default reply. -/
def guardSilence (config : StreamConfig) (c : Consumption) : Consumption :=
  if c.result.replyText.strip = [] then
    let text := config.defaultReply
    let reason := c.result.error.getD "empty_reply_default_used"
    { yielded := c.yielded ++ [text]
      result := { replyText := text, usedDefaultReply := true, error := some reason }
      events := c.events ++ [⟨text, reason⟩] }
  else c

/-- The consumer itself runs generation up to its next effect. -/
def drive (c : Consumption) (effect : CoreEffect) : Consumption :=
  { c with yielded := c.yielded ++ effect.text?.toList, result := c.result.record effect }

/-- `sentences` without `start_eager`. -/
def direct (config : StreamConfig) (llm : LlmBehaviour) : Consumption :=
  ((config.generateCore llm).foldl drive {}).guardSilence config

end Consumption

inductive ReplayState where
  | running
  | waiting
  | notified
  | returned
  deriving DecidableEq, Repr

/-- A stream after `start_eager`: what generation still does, the buffer, and the consumer. -/
structure EagerStream where
  remaining : List CoreEffect
  buffer : List Text := []
  eagerDone : Bool := false
  replayedCount : Nat := 0
  consumer : ReplayState := .running
  consumption : Consumption := {}
  deriving DecidableEq, Repr

/-- The background task generates, or has come to the end; the consumer takes its next step. -/
inductive EagerStep where
  | generate
  | generationEnds
  | consume
  deriving DecidableEq, Repr

namespace EagerStream

def notifyAll : ReplayState → ReplayState
  | .waiting => .notified
  | state => state

def generate (s : EagerStream) : Option EagerStream :=
  match s.remaining with
  | [] => none
  | effect :: remaining =>
      let result := s.consumption.result.record effect
      let s := { s with remaining, consumption := { s.consumption with result } }
      match effect with
      | .sentence text =>
          some { s with buffer := s.buffer ++ [text], consumer := notifyAll s.consumer }
      | _ => some s

def generationEnds (s : EagerStream) : Option EagerStream :=
  if s.remaining = [] ∧ s.eagerDone = false then
    some { s with eagerDone := true, consumer := notifyAll s.consumer }
  else none

/-- The consumer takes the next buffered sentence, waits for one, or comes to the end. -/
def consume (config : StreamConfig) (s : EagerStream) : Option EagerStream :=
  match s.consumer with
  | .running | .notified => match s.buffer[s.replayedCount]? with
      | some text =>
          some { s with
            replayedCount := s.replayedCount + 1, consumer := .running
            consumption := { s.consumption with yielded := s.consumption.yielded ++ [text] } }
      | none =>
          if s.eagerDone then
            some { s with
              consumer := .returned, consumption := s.consumption.guardSilence config }
          else some { s with consumer := .waiting }
  | _ => none

def step (config : StreamConfig) (s : EagerStream) : EagerStep → Option EagerStream
  | .generate => s.generate
  | .generationEnds => s.generationEnds
  | .consume => s.consume config

def system (config : StreamConfig) : System EagerStream EagerStep := ⟨step config⟩

def start (config : StreamConfig) (llm : LlmBehaviour) : EagerStream :=
  { remaining := config.generateCore llm }

end EagerStream

theorem voiceable_of_mem_splitOpen {config : StreamConfig} {tokens : List Text} {buffer t : Text}
    (h : t ∈ config.splitOpen buffer tokens) : Voiceable config.readable t := by
  induction tokens generalizing buffer with
  | nil => cases h
  | cons token tokens ih =>
      obtain here | later := List.mem_append.mp h
      · exact voiceable_of_mem_feedChars here
      · exact ih later

theorem filterMap_sentences (ts : List Text) :
    (ts.map CoreEffect.sentence).filterMap CoreEffect.text? = ts := by
  induction ts with
  | nil => rfl
  | cons t ts ih => simp [CoreEffect.text?, ih]

/-- Everything generation yields is a sentence with something to voice. -/
theorem voiceable_of_generated {config : StreamConfig} {llm : LlmBehaviour} {t : Text}
    (h : t ∈ (config.generateCore llm).filterMap CoreEffect.text?) :
    Voiceable config.readable t := by
  unfold StreamConfig.generateCore at h
  cases failed : llm.failure with
  | none =>
      simp only [failed, filterMap_sentences] at h
      exact voiceable_of_mem_splitSentences h
  | some message =>
      simp only [failed] at h
      by_cases silent : config.splitOpen [] llm.tokens = []
      · rw [if_pos silent] at h
        unfold StreamConfig.chatFallback at h
        cases chat : llm.chat with
        | error message => simp [chat, CoreEffect.text?] at h
        | ok content =>
            simp only [chat, List.filterMap_cons, CoreEffect.text?] at h
            split at h
            · cases h
            · rw [filterMap_sentences] at h
              exact voiceable_of_mem_splitSentences h
      · rw [if_neg silent, List.filterMap_append, filterMap_sentences] at h
        obtain h | h := List.mem_append.mp h
        · exact voiceable_of_mem_splitOpen h
        · simp [CoreEffect.text?] at h

theorem record_replyText (effects : List CoreEffect) (r : MainStreamResult) :
    (effects.foldl MainStreamResult.record r).replyText =
      r.replyText ++ (effects.filterMap CoreEffect.text?).flatten := by
  induction effects generalizing r with
  | nil => simp
  | cons effect effects ih =>
      rw [List.foldl_cons, ih]
      cases effect with
      | sentence text => simp [MainStreamResult.record, CoreEffect.text?]
      | error message => simp [MainStreamResult.record, CoreEffect.text?, List.filterMap_cons]
      | fallbackUsed => simp [MainStreamResult.record, CoreEffect.text?, List.filterMap_cons]

theorem flatten_strip_nil_iff {ts : List Text} (h : ∀ t ∈ ts, t.Sentence) :
    Text.strip ts.flatten = [] ↔ ts = [] := by
  rw [Text.stripped_flatten h]
  cases ts with
  | nil => simp
  | cons t ts =>
      have spoken := (h t List.mem_cons_self).1
      simp [spoken]

namespace Consumption

/-- Generation run to its end by the consumer. -/
def generated (effects : List CoreEffect) : Consumption :=
  { yielded := effects.filterMap CoreEffect.text?
    result := effects.foldl MainStreamResult.record {} }

theorem foldl_drive (effects : List CoreEffect) (c : Consumption) :
    effects.foldl drive c =
      { c with
        yielded := c.yielded ++ effects.filterMap CoreEffect.text?
        result := effects.foldl MainStreamResult.record c.result } := by
  induction effects generalizing c with
  | nil => simp
  | cons effect effects ih =>
      rw [List.foldl_cons, ih]
      cases effect with
      | sentence text => simp [drive, CoreEffect.text?]
      | error message | fallbackUsed => simp [drive, CoreEffect.text?, List.filterMap_cons]

theorem direct_eq (config : StreamConfig) (llm : LlmBehaviour) :
    direct config llm = (generated (config.generateCore llm)).guardSilence config := by
  rw [direct, foldl_drive]
  rfl

theorem generated_replyText (effects : List CoreEffect) :
    (generated effects).result.replyText = (generated effects).yielded.flatten :=
  record_replyText effects {}

end Consumption
end IsalesEngine
