import IsalesEngine.Text

/-!
The sentence splitter between the reply model and speech synthesis. Tokens are
buffered character by character; a buffer is cut at a terminator, at a blank
line, at pause punctuation once it is long enough, or at a hard ceiling. Which
code points count as letters or digits is a parameter: the source asks the
Unicode database.
-/
namespace IsalesEngine.SentenceSplitter

def terminators : Text := "。？！?!.".toList
def trailing : Text := "”’\"')）」』】".toList
def softBoundaries : Text := "，、；：,;:".toList
def softSentenceChars : Nat := 60
def maxSentenceChars : Nat := 120

variable (readable : Char → Bool) (softChars maxChars : Nat)

def hasSynthesizableText (t : Text) : Bool := t.any readable

def shouldEmit (buffer : Text) (ch : Char) : Bool :=
  terminators.contains ch
    || "\n\n".toList.isSuffixOf buffer
    || (softChars ≤ buffer.length && softBoundaries.contains ch)
    || maxChars ≤ buffer.length

/-- What leaves the splitter when a buffer is cut: nothing if there is nothing to voice. -/
def emit (buffer : Text) : List Text :=
  let out := buffer.strip
  if out ≠ [] ∧ hasSynthesizableText readable out then [out] else []

def feedChars : Text → Text → List Text × Text
  | buffer, [] => ([], buffer)
  | buffer, ch :: chs =>
      let buffer' := buffer ++ [ch]
      if shouldEmit softChars maxChars buffer' ch then
        let (rest, last) := feedChars [] chs
        (emit readable buffer' ++ rest, last)
      else feedChars buffer' chs

def splitFrom : Text → List Text → List Text
  | buffer, [] => emit readable buffer
  | buffer, token :: tokens =>
      let (out, buffer') := feedChars readable softChars maxChars buffer token
      out ++ splitFrom buffer' tokens

def splitSentences (tokens : List Text) : List Text :=
  splitFrom readable softChars maxChars [] tokens

variable {readable softChars maxChars} {buffer s : Text}

/-- A text the splitter may hand on: a sentence with something to voice. -/
def Voiceable (readable : Char → Bool) (s : Text) : Prop :=
  s.Sentence ∧ hasSynthesizableText readable s = true

theorem voiceable_of_mem_emit (h : s ∈ emit readable buffer) : Voiceable readable s := by
  simp only [emit] at h
  split at h
  · rename_i cond
    rw [List.mem_singleton.mp h]
    exact ⟨⟨cond.1, Text.strip_idem buffer⟩, cond.2⟩
  · cases h

theorem voiceable_of_mem_feedChars {chs : Text}
    (h : s ∈ (feedChars readable softChars maxChars buffer chs).1) : Voiceable readable s := by
  induction chs generalizing buffer with
  | nil => cases h
  | cons ch chs ih =>
      simp only [feedChars] at h
      split at h
      · rcases List.mem_append.mp h with here | later
        · exact voiceable_of_mem_emit here
        · exact ih later
      · exact ih h

theorem voiceable_of_mem_splitFrom {tokens : List Text}
    (h : s ∈ splitFrom readable softChars maxChars buffer tokens) : Voiceable readable s := by
  induction tokens generalizing buffer with
  | nil => exact voiceable_of_mem_emit h
  | cons token tokens ih =>
      rcases List.mem_append.mp h with here | later
      · exact voiceable_of_mem_feedChars here
      · exact ih later

/-- Every sentence handed to playback is non-empty, has no whitespace at its ends, and has something
to voice. -/
theorem voiceable_of_mem_splitSentences {tokens : List Text}
    (h : s ∈ splitSentences readable softChars maxChars tokens) : Voiceable readable s :=
  voiceable_of_mem_splitFrom h

end IsalesEngine.SentenceSplitter
