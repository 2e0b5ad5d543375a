import Mathlib.Algebra.Order.BigOperators.Group.List
import Mathlib.Algebra.Order.Group.Nat
import IsalesEngine.Engine.UpkeptCall

/-!
The finals of a listening window and the whitelist of back-channel words. The
finals that are queued when a window closes are joined before the whitelist is
asked, so the verdict on the batch and the verdicts on its parts agree of their
own accord only where at most one of them is not blank. A whitelist for which
they agree on every batch is one that has no use.
-/
namespace IsalesEngine
open Asyncio Asyncio.Coro

namespace AwaitUser
variable {whitelist : List Text} {finals : List AsrResult}

/-- The words of a batch: its finals stripped, without the blank ones. -/
def words (finals : List AsrResult) : List Text :=
  (finals.map fun r => r.text.strip).filter (· ≠ [])

/-- Every final of the batch is blank or a back-channel word. -/
def Backchannel (whitelist : List Text) (finals : List AsrResult) : Prop :=
  ∀ r ∈ finals, r.text.strip = [] ∨ r.text.strip ∈ whitelist

/-- The batch is back-channel words that are not whitelisted when joined, or the other way round. -/
def Misjudged (whitelist : List Text) (finals : List AsrResult) : Prop :=
  2 ≤ (words finals).length ∧
    ((∀ word ∈ words finals, word ∈ whitelist) ∧ Text.joinSpace (words finals) ∉ whitelist ∨
      Text.joinSpace (words finals) ∈ whitelist ∧ ∃ word ∈ words finals, word ∉ whitelist)

instance : Decidable (Misjudged whitelist finals) := inferInstanceAs (Decidable (_ ∧ (_ ∨ _)))

theorem sentence_of_words {word : Text} (member : word ∈ words finals) : word.Sentence := by
  simp only [words, List.mem_filter, List.mem_map] at member
  obtain ⟨⟨r, -, rfl⟩, spoken⟩ := member
  exact ⟨by simpa using spoken, Text.strip_idem r.text⟩

theorem backchannel_iff :
    Backchannel whitelist finals ↔ ∀ word ∈ words finals, word ∈ whitelist := by
  simp only [Backchannel, words, List.mem_filter, List.mem_map]
  constructor
  · rintro each _ ⟨⟨r, member, rfl⟩, spoken⟩
    exact (each r member).resolve_left (by simpa using spoken)
  · intro each r member
    by_cases blank : r.text.strip = []
    · exact .inl blank
    · exact .inr (each _ ⟨⟨r, member, rfl⟩, by simpa using blank⟩)

theorem combine_noProgress (cfg : RuntimeConfig) : combine cfg finals = .noProgress ↔
    words finals = [] ∨ Text.joinSpace (words finals) ∈ cfg.interruption.whitelist := by
  have blank : Text.joinSpace (words finals) = [] ↔ words finals = [] := by
    refine ⟨fun empty => ?_, fun empty => by rw [empty]; rfl⟩
    by_contra spoken
    exact (Text.joinSpace_sentence spoken fun _ => sentence_of_words).1 empty
  rw [← blank]
  unfold combine words
  dsimp only
  split <;> simp_all

/-- The verdict on the batch and the verdicts on its finals agree on all other batches. -/
theorem commutes_iff (cfg : RuntimeConfig) :
    (combine cfg finals = .noProgress ↔ Backchannel cfg.interruption.whitelist finals) ↔
      ¬ Misjudged cfg.interruption.whitelist finals := by
  rw [combine_noProgress, backchannel_iff, Misjudged]
  match spoken : words finals with
  | [] => simp
  | [word] => simp [Text.joinSpace_singleton]
  | word :: next :: rest =>
      simp only [List.length_cons, reduceCtorEq, false_or, Nat.le_add_left, true_and]
      grind

/-- A word said often enough is not whitelisted as a whole. -/
theorem exists_misjudged {word : Text} (member : word ∈ whitelist) (spoken : word.Sentence) :
    ∃ finals, finals ≠ [] ∧ Misjudged whitelist finals := by
  let times := (whitelist.map List.length).sum + 2
  let final : AsrResult := ⟨word, 0⟩
  refine ⟨.replicate times final, by simp [times], ?_⟩
  have said : words (.replicate times final) = .replicate times word := by
    simp [words, final, show word.strip = word from spoken.2, spoken.1]
  rw [Misjudged, said]
  refine ⟨by simp [times], .inl ⟨fun w h => List.eq_of_mem_replicate h ▸ member, fun joined => ?_⟩⟩
  have short : (Text.joinSpace (.replicate times word)).length ≤ (whitelist.map List.length).sum :=
    List.le_sum_of_mem (List.mem_map_of_mem joined)
  have each : ∀ w ∈ List.replicate times word, w ≠ [] :=
    fun w h => List.eq_of_mem_replicate h ▸ spoken.1
  have long := Text.length_le_joinSpace each
  rw [List.length_replicate] at long
  omega

/-- The verdicts agree on every batch exactly if the whitelist has no word a final can amount to. -/
theorem always_commutes_iff (cfg : RuntimeConfig) :
    (∀ finals ≠ [], combine cfg finals = .noProgress ↔
      Backchannel cfg.interruption.whitelist finals) ↔
    ∀ word ∈ cfg.interruption.whitelist, ¬ word.Sentence := by
  constructor
  · intro commutes word member spoken
    obtain ⟨finals, some, misjudged⟩ := exists_misjudged member spoken
    exact (commutes_iff cfg).mp (commutes finals some) misjudged
  · intro useless finals _
    refine (commutes_iff cfg).mpr fun ⟨several, misjudged⟩ => ?_
    have some : words finals ≠ [] := by
      intro none
      simp [none] at several
    obtain ⟨each, -⟩ | ⟨joined, -⟩ := misjudged
    · obtain ⟨word, member⟩ := List.exists_mem_of_ne_nil _ some
      exact useless word (each word member) (sentence_of_words member)
    · exact useless _ joined (Text.joinSpace_sentence some fun _ => sentence_of_words)

end AwaitUser

namespace Guarantees
open AwaitUser

/-- The outcome of a window that woke on a final is that of its batch. -/
def Entry.Combined (cfg : RuntimeConfig) : Entry → Prop
  | .closed _ _ finals o => finals = [] ∨ o = .remoteHangup ∨ o = combine cfg finals
  | _ => True

theorem journal_combined (cfg : RuntimeConfig) (fuel : Nat) (w : World)
    (acts : List (Action sig Move)) (c : Susp sig World Unit) (fresh : w.journal = [])
    (run : (engine cfg).exec (runSession cfg fuel w) acts = some c) :
    ∀ e ∈ c.state.journal, Entry.Combined cfg e := by
  have up : Upkeep (engine cfg) (fun _ _ => True)
      (fun _ w => ∀ e ∈ w.counters.journal, Entry.Combined cfg e)
      fun w => ∀ e ∈ w.counters.journal, Entry.Combined cfg e :=
    .counters (P := fun t => ∀ e ∈ t.journal, Entry.Combined cfg e) fun _ h => h
  refine (up.call (Speaks.any cfg fun _ _ _ => true) Engine.below_stable ?_).reached ?_ run
  · intro w w' episode here
    cases episode with
    | closed closes =>
        refine List.forall_mem_cons.mpr ⟨?_, here⟩
        cases closes with
        | hungUp => exact .inr (.inl rfl)
        | heard => exact .inr (.inr rfl)
        | silent => exact .inl rfl
    | revoice fresh =>
        simp only [World.counters, World.addStream]
        split
        · exact List.forall_mem_cons.mpr ⟨trivial, here⟩
        · exact here
    | opened | capped | replied => exact List.forall_mem_cons.mpr ⟨trivial, here⟩
    | monitored | activation | activated | revoiced | wrapUp => exact here
  · show ∀ e ∈ w.journal, _
    rw [fresh]
    exact List.forall_mem_nil _

/-- In every call, a window that woke on a final ends without progress exactly when each final of
its batch is blank or whitelisted, if and only if the batch is not one of several words that are
whitelisted each but not joined, or joined but not each. This is so of every batch if and only if
no whitelisted word is one that a stripped final can be. -/
theorem coalescing_commutes_iff (cfg : RuntimeConfig) (fuel : Nat) (w : World)
    (acts : List (Action sig Move)) (c : Susp sig World Unit) (fresh : w.journal = [])
    (run : (engine cfg).exec (runSession cfg fuel w) acts = some c) :
    (∀ elapsedMs inWrapUp finals o, .closed elapsedMs inWrapUp finals o ∈ c.state.journal →
      finals ≠ [] → o ≠ .remoteHangup →
      ((o = .noProgress ↔ Backchannel cfg.interruption.whitelist finals) ↔
        ¬ Misjudged cfg.interruption.whitelist finals)) ∧
    ((∀ finals ≠ [], combine cfg finals = .noProgress ↔
        Backchannel cfg.interruption.whitelist finals) ↔
      ∀ word ∈ cfg.interruption.whitelist, ¬ word.Sentence) := by
  refine ⟨fun elapsedMs inWrapUp finals o member some stays => ?_, always_commutes_iff cfg⟩
  obtain none | hungUp | rfl := journal_combined cfg fuel w acts c fresh run _ member
  · exact absurd none some
  · exact absurd hungUp stays
  · exact commutes_iff cfg

/-- A campaign with a whitelist of two back-channel phrases. -/
def whitelistConfig : RuntimeConfig := { RuntimeConfig.minimal with
  interruption := { RuntimeConfig.minimal.interruption with
    whitelist := ["嗯".toList, "好 的".toList] } }

/-- Two finals are queued when the window closes. -/
def twoFinalsRun (first second : Text) : List (Action sig Move) :=
  RunSession.listeningRun .other ++ [.move (.asrResult first true), .move .dispatch,
    .move (.asrResult second true), .move .dispatch, .move .asrGet, .reply (.listen 5000) (.ok ()),
    .reply .reapHangupWait (.error .cancelled)]

theorem blank_and_backchannel :
    ∃ c, (engine whitelistConfig).exec (runSession whitelistConfig 4 (World.initial 1 .other))
        (twoFinalsRun "嗯".toList " ".toList) = some c ∧
      .closed 0 false [⟨"嗯".toList, 0⟩, ⟨" ".toList, 1⟩] .noProgress ∈
        c.state.journal ∧
      ((Outcome.noProgress = .noProgress ↔ Backchannel whitelistConfig.interruption.whitelist
        [⟨"嗯".toList, 0⟩, ⟨" ".toList, 1⟩]) ↔
          ¬ Misjudged whitelistConfig.interruption.whitelist
            [⟨"嗯".toList, 0⟩, ⟨" ".toList, 1⟩]) := by
  refine exists_of_map (fun c => decide
    (.closed 0 false [⟨"嗯".toList, 0⟩, ⟨" ".toList, 1⟩] .noProgress ∈ c.state.journal)) true
      (by decide +kernel) fun c run closed => ?_
  have closed := of_decide_eq_true closed
  exact ⟨closed, (coalescing_commutes_iff whitelistConfig 4 _ _ c rfl run).1 _ _ _ _
    closed (by decide) (by decide)⟩

/-- A back-channel word said twice is a user turn, and the parts of a whitelisted phrase are none
although neither is whitelisted. -/
theorem repeated_word_is_a_turn :
    ((engine whitelistConfig).exec (runSession whitelistConfig 4 (World.initial 1 .other))
      (twoFinalsRun "嗯".toList "嗯".toList)).map (fun c => c.state.journal.head?) =
      some (some (.closed 0 false [⟨"嗯".toList, 0⟩, ⟨"嗯".toList, 1⟩]
        (.userFinal "嗯 嗯".toList))) ∧
    Backchannel whitelistConfig.interruption.whitelist
      [⟨"嗯".toList, 0⟩, ⟨"嗯".toList, 1⟩] ∧
    combine whitelistConfig [⟨"好".toList, 0⟩, ⟨"的".toList, 1⟩] = .noProgress ∧
    ¬ Backchannel whitelistConfig.interruption.whitelist
      [⟨"好".toList, 0⟩, ⟨"的".toList, 1⟩] := by
  refine ⟨by decide +kernel, ?_, by decide +kernel, ?_⟩
  · exact backchannel_iff.mpr (by decide)
  · exact fun each => absurd (backchannel_iff.mp each) (by decide)

end Guarantees
end IsalesEngine
