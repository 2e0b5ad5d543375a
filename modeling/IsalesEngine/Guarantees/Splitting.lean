import IsalesEngine.Scan
import IsalesEngine.SentenceSplitter

/-!
What the sentence splitter makes of a text. It is a scan that stops at the emit
condition, so tokens only carry the text: the segments follow one another, each
but the last ends at the first position where the condition holds, and what is
handed on is the segments with something to voice. The scan never looks ahead. A
closing quote behind a terminator therefore opens the next segment.
-/
namespace IsalesEngine
namespace SentenceSplitter
open Scan

variable {readable : Char → Bool} {softChars maxChars : Nat}

/-- A place where speech may be cut: behind a terminator, behind a blank line, or behind a pause
mark of a text that is long enough. -/
def BoundaryMark (softChars : Nat) (t : Text) : Prop :=
  (∃ c ∈ terminators, t.getLast? = some c) ∨ "\n\n".toList <:+ t ∨
    (softChars ≤ t.length ∧ ∃ c ∈ softBoundaries, t.getLast? = some c)

def EmitCondition (softChars maxChars : Nat) (t : Text) : Prop :=
  BoundaryMark softChars t ∨ t.length = maxChars

/-- A text falls into finished segments and the rest, each finished one cut at the first position
that satisfies the emit condition. -/
structure Segmentation (softChars maxChars : Nat) (text : Text) (finished : List Text)
    (rest : Text) : Prop where
  whole : finished.flatten ++ rest = text
  emits : ∀ segment ∈ finished, EmitCondition softChars maxChars segment
  first : ∀ segment ∈ finished, ∀ front, front <+: segment → front ≠ segment →
    ¬ EmitCondition softChars maxChars front
  unfinished : ∀ front, front <+: rest → ¬ EmitCondition softChars maxChars front

/-- The segments of a text, the last of which is what is flushed at the end of the stream. -/
def segments (softChars maxChars : Nat) (text : Text) : List Text :=
  Scan.segments (shouldEmit softChars maxChars) text

/-- The stripped segments with a letter or a digit. -/
def spoken (readable : Char → Bool) (segments : List Text) : List Text :=
  (segments.map Text.strip).filter (hasSynthesizableText readable)

theorem emit_eq (buffer : Text) : emit readable buffer = spoken readable [buffer] := by
  cases text : hasSynthesizableText readable buffer.strip with
  | false => simp [emit, spoken, text]
  | true =>
      have nonempty : buffer.strip ≠ [] := by
        intro empty
        simp [empty, hasSynthesizableText] at text
      simp [emit, spoken, text, nonempty]

theorem spoken_append (front back : List Text) :
    spoken readable (front ++ back) = spoken readable front ++ spoken readable back := by
  simp [spoken]

/-- Reading a token is scanning it. -/
theorem feedChars_eq (buffer chs : Text) : feedChars readable softChars maxChars buffer chs =
      (spoken readable (scan (shouldEmit softChars maxChars) buffer chs).1,
        (scan (shouldEmit softChars maxChars) buffer chs).2) := by
  induction chs generalizing buffer with
  | nil => rfl
  | cons ch chs ih =>
      simp only [feedChars, scan, ih]
      split
      · rw [emit_eq, ← spoken_append]
        rfl
      · rfl

theorem splitFrom_eq (buffer : Text) (tokens : List Text) :
    splitFrom readable softChars maxChars buffer tokens =
      spoken readable ((scan (shouldEmit softChars maxChars) buffer tokens.flatten).1 ++
        [(scan (shouldEmit softChars maxChars) buffer tokens.flatten).2]) := by
  induction tokens generalizing buffer with
  | nil => exact emit_eq buffer
  | cons token tokens ih =>
      rw [List.flatten_cons, scan_append, splitFrom, feedChars_eq]
      simp only [ih, spoken_append, List.append_assoc]

/-- What is handed on depends on the text alone. -/
theorem splitSentences_eq (tokens : List Text) : splitSentences readable softChars maxChars tokens =
      spoken readable (segments softChars maxChars tokens.flatten) := splitFrom_eq [] tokens

/-- Up to the ceiling the scan stops exactly where the emit condition holds. -/
theorem stops_iff {t : Text} (bounded : t.length ≤ maxChars) (room : 1 ≤ maxChars) :
    Stops (shouldEmit softChars maxChars) t ↔ EmitCondition softChars maxChars t := by
  obtain rfl | ⟨front, ch, rfl⟩ := List.eq_nil_or_concat' t
  · refine iff_of_false not_stops_nil ?_
    rintro ((⟨c, _, last⟩ | blank | ⟨_, c, _, last⟩) | full)
    · cases last
    · exact absurd (List.suffix_nil.mp blank) (by decide)
    · cases last
    · rw [List.length_nil] at full
      omega
  · rw [stops_concat]
    have reached : maxChars ≤ (front ++ [ch]).length ↔ (front ++ [ch]).length = maxChars := by
      omega
    simp only [shouldEmit, EmitCondition, BoundaryMark, Bool.or_eq_true, Bool.and_eq_true,
      decide_eq_true_iff, List.contains_iff_mem, List.isSuffixOf_iff_suffix, List.getLast?_concat,
      Option.some.injEq, exists_eq_right', or_assoc, reached]

/-- The scan stops at the ceiling at the latest. -/
theorem stops_of_length {t : Text} (full : maxChars ≤ t.length) (room : 1 ≤ maxChars) :
    Stops (shouldEmit softChars maxChars) t := by
  obtain rfl | ⟨front, ch, rfl⟩ := List.eq_nil_or_concat' t
  · rw [List.length_nil] at full
    omega
  · rw [stops_concat]
    simp only [shouldEmit, Bool.or_eq_true, decide_eq_true_iff]
    exact Or.inr full

theorem length_segment_le {t segment : Text} (room : 1 ≤ maxChars)
    (member : segment ∈ segments softChars maxChars t) : segment.length ≤ maxChars := by
  by_contra longer
  have cut : (segment.take maxChars).length = maxChars := by
    rw [List.length_take]
    omega
  refine segments_first member (List.take_prefix maxChars segment) ?_
    (stops_of_length (Nat.le_of_eq cut.symm) room)
  intro whole
  rw [whole] at cut
  omega

theorem segmentation (softChars : Nat) (room : 1 ≤ maxChars) (text : Text) :
    Segmentation softChars maxChars text (scan (shouldEmit softChars maxChars) [] text).1
      (scan (shouldEmit softChars maxChars) [] text).2 := by
  have short : ∀ segment ∈ segments softChars maxChars text, ∀ front, front <+: segment →
      front.length ≤ maxChars :=
    fun segment member front initial =>
      initial.length_le.trans (length_segment_le room member)
  have done : ∀ segment ∈ (scan (shouldEmit softChars maxChars) [] text).1,
      segment ∈ segments softChars maxChars text :=
    fun segment member => List.mem_append_left _ member
  have last : (scan (shouldEmit softChars maxChars) [] text).2 ∈
      segments softChars maxChars text :=
    List.mem_append_right _ (List.mem_singleton.mpr rfl)
  refine ⟨scan_flatten _ _ _, ?_, ?_, ?_⟩
  · intro segment member
    have bounded := short segment (done segment member) segment List.prefix_rfl
    exact (stops_iff bounded room).mp (scan_first unstopped_nil segment member).1
  · intro segment member front initial other emits
    have bounded := short segment (done segment member) front initial
    exact (scan_first unstopped_nil segment member).2 front initial other
      ((stops_iff bounded room).mpr emits)
  · intro front initial emits
    have bounded := short _ last front initial
    exact scan_last unstopped_nil front initial ((stops_iff bounded room).mpr emits)

/-- No letter or digit is lost: whitespace is neither. -/
theorem filter_spoken (apart : ∀ c, Text.isSpace c = true → readable c = false)
    (segments : List Text) :
    (spoken readable segments).flatten.filter readable = segments.flatten.filter readable := by
  induction segments with
  | nil => rfl
  | cons segment segments ih =>
      have here : (spoken readable [segment]).flatten.filter readable =
          segment.filter readable := by
        cases text : hasSynthesizableText readable segment.strip with
        | true => simp [spoken, text, Text.filter_strip apart]
        | false =>
            have silent : segment.strip.filter readable = [] := by
              simpa [hasSynthesizableText] using text
            rw [Text.filter_strip apart] at silent
            simp [spoken, text, silent]
      rw [List.flatten_cons, List.filter_append, ← ih, ← here, ← List.filter_append,
        ← List.flatten_append, ← spoken_append]
      rfl

/-- Behind every terminator the closing quotes and brackets that follow it at once belong to its
segment. -/
def ClosingKept (softChars maxChars : Nat) (tokens : List Text) : Prop :=
  ∀ i k t, 0 < k → tokens.flatten[i]? = some t → t ∈ terminators →
    (∀ j, i < j → j ≤ i + k → ∃ c ∈ trailing, tokens.flatten[j]? = some c) →
    Together (segments softChars maxChars tokens.flatten) i (i + k)

/-- Somewhere in the text a closing quote or bracket directly follows a terminator. -/
def ClosesBehindTerminator (text : Text) : Prop :=
  ∃ i, (∃ t ∈ terminators, text[i]? = some t) ∧ ∃ c ∈ trailing, text[i + 1]? = some c

/-- A terminator ends its segment at once. -/
theorem not_closingKept {tokens : List Text} (closes : ClosesBehindTerminator tokens.flatten) :
    ¬ ClosingKept softChars maxChars tokens := by
  obtain ⟨i, ⟨t, terminator, here⟩, c, closing, next⟩ := closes
  intro kept
  refine not_together_of_stop here (fun buffer => ?_) (Nat.lt_succ_self i)
    (kept i 1 t Nat.one_pos here terminator fun j above below => ?_)
  · simp [shouldEmit, terminator]
  · obtain rfl : j = i + 1 := by omega
    exact ⟨c, closing, next⟩

end SentenceSplitter

namespace Guarantees
open SentenceSplitter Scan

/-- Sentence splitting depends on the text only, not on how it is cut into tokens. The text is a
sequence of segments, each but the last cut at the first position that satisfies the emit condition;
the sentences are the stripped segments with a letter or a digit, so that none of these is lost, and
none is longer than the ceiling. Whitespace is no letter or digit in Unicode. -/
theorem splitting_faithful (readable : Char → Bool) (softChars maxChars : Nat)
    (room : 1 ≤ maxChars) (apart : ∀ c, Text.isSpace c = true → readable c = false)
    (tokens : List Text) :
    (∀ tokens', tokens'.flatten = tokens.flatten →
      splitSentences readable softChars maxChars tokens' =
        splitSentences readable softChars maxChars tokens) ∧
    (∃ finished rest, Segmentation softChars maxChars tokens.flatten finished rest ∧
      (∀ segment ∈ finished, segment.length < maxChars → BoundaryMark softChars segment) ∧
      splitSentences readable softChars maxChars tokens =
        ((finished ++ [rest]).map Text.strip).filter (hasSynthesizableText readable)) ∧
    (splitSentences readable softChars maxChars tokens).flatten.filter readable =
      tokens.flatten.filter readable ∧
    ∀ sentence ∈ splitSentences readable softChars maxChars tokens,
      sentence ≠ [] ∧ sentence.strip = sentence ∧ sentence.length ≤ maxChars := by
  refine ⟨fun tokens' same => ?_, ?_, ?_, fun sentence member => ?_⟩
  · rw [splitSentences_eq, splitSentences_eq, same]
  · have cut := segmentation softChars room tokens.flatten
    refine ⟨_, _, cut, fun segment member shorter => ?_, splitSentences_eq tokens⟩
    exact (cut.emits segment member).resolve_right (Nat.ne_of_lt shorter)
  · rw [splitSentences_eq, filter_spoken apart]
    exact congrArg _ (segments_flatten _ _)
  · obtain ⟨⟨nonempty, stripped⟩, _⟩ := voiceable_of_mem_splitSentences member
    refine ⟨nonempty, stripped, ?_⟩
    rw [splitSentences_eq] at member
    obtain ⟨segment, cut, rfl⟩ := List.mem_map.mp (List.mem_of_mem_filter member)
    exact (Text.length_strip_le segment).trans (length_segment_le room cut)

/-- The ideographs of the basic block, which are letters. -/
def ideograph (c : Char) : Bool := decide (0x4E00 ≤ c.toNat) && decide (c.toNat ≤ 0x9FFF)

theorem two_sentences_split :
    splitSentences ideograph 60 120 ["您".toList, "好。请".toList, "问\n".toList] =
      ["您好。".toList, "请问".toList] ∧
    (splitSentences ideograph 60 120 ["您".toList, "好。请".toList, "问\n".toList]).flatten.filter
      ideograph = "您好请问".toList := by
  have apart : ∀ c, Text.isSpace c = true → ideograph c = false := by
    intro c space
    simp only [Text.isSpace, Bool.or_eq_true, Bool.and_eq_true, decide_eq_true_iff] at space
    simp only [ideograph, Bool.and_eq_false_iff, decide_eq_false_iff_not]
    omega
  obtain ⟨_, _, kept, _⟩ := splitting_faithful ideograph 60 120 (by decide) apart
    ["您".toList, "好。请".toList, "问\n".toList]
  refine ⟨by decide, kept.trans ?_⟩
  decide

/-- Closing quotes and brackets stay with the terminator before them exactly in the texts in which
none directly follows a terminator. -/
theorem closing_kept_iff (softChars maxChars : Nat) (tokens : List Text) :
    ClosingKept softChars maxChars tokens ↔ ¬ ClosesBehindTerminator tokens.flatten := by
  constructor
  · exact fun kept closes => not_closingKept closes kept
  · intro never i k t some here terminator closing
    obtain ⟨c, member, next⟩ := closing (i + 1) (by omega) (by omega)
    exact absurd ⟨i, ⟨t, terminator, here⟩, c, member, next⟩ never

/-- The closing quote of a quoted sentence opens the next one, and at the end of the stream it is
dropped. -/
theorem closing_quote_cut :
    ¬ ClosingKept 60 120 ["他说“好。".toList, "”再见。".toList] ∧
    splitSentences ideograph 60 120 ["他说“好。".toList, "”再见。".toList] =
      ["他说“好。".toList, "”再见。".toList] ∧
    splitSentences ideograph 60 120 ["他说“好。”".toList] = ["他说“好。".toList] := by
  refine ⟨not_closingKept ?_, by decide, by decide⟩
  exact ⟨4, ⟨'。', by decide, by decide⟩, '”', by decide, by decide⟩

end Guarantees
end IsalesEngine
