import IsalesEngine.Realtime.Fillers
import IsalesEngine.Rounds
import Mathlib.Data.List.Dedup

/-!
Fillers do not repeat until the pool is used up. A pick is one that was not used, or,
when all were, the first after they are forgotten. So along a call the picks form
rounds, in each of which every text of the pool comes once.
-/
namespace IsalesEngine
open Asyncio
namespace Fillers
variable {phrases used picks : List Text}

/-- The texts of a pool that can be picked, each once. -/
def texts (phrases : List Text) : List Text := (phrases.filter fun p => p.strip ≠ []).dedup

theorem mem_texts {text : Text} : text ∈ texts phrases ↔ text ∈ phrases ∧ text.strip ≠ [] := by
  rw [texts, List.mem_dedup, List.mem_filter, decide_eq_true_eq]

/-- A pick goes on with the round, or begins the next one. -/
theorem fair_pick {pick : Text} (fair : Rounds.Fair (texts phrases) used picks)
    (picked : pick ∈ (World.fillerCandidates phrases used).1) :
    Rounds.Fair (texts phrases) ((World.fillerCandidates phrases used).2 ++ [pick])
      (picks ++ [pick]) := by
  unfold World.fillerCandidates at picked ⊢
  dsimp only at picked ⊢
  split at picked
  · rename_i spent
    rw [if_pos spent, List.nil_append]
    have member : pick ∈ texts phrases := List.mem_dedup.mpr picked
    apply fair.restart (List.nodup_dedup _) _ member
    intro text inside
    have seen := List.filter_eq_nil_iff.mp spent text (List.mem_dedup.mp inside)
    simpa using seen
  · rename_i left
    rw [if_neg left]
    obtain ⟨ready, unused⟩ := List.mem_filter.mp picked
    apply fair.pick (List.mem_dedup.mpr ready)
    simpa using unused

theorem fair_step {s s' : State} {label : Label}
    (fair : Rounds.Fair (texts phrases) s.usedFillerPhrases s.picks)
    (stepped : step phrases s label = some s') :
    Rounds.Fair (texts phrases) s'.usedFillerPhrases s'.picks := by
  obtain ⟨new, grown, picked⟩ := step_picks stepped
  rw [grown]
  revert picked
  generalize s'.usedFillerPhrases = after
  intro picked
  cases picked with
  | none =>
      rw [List.append_nil]
      exact fair
  | one picked => exact fair_pick fair picked

end Fillers

namespace Guarantees
open Fillers

/-- Along every call, however its managers are started and stopped and whatever the random choices:
the fillers picked, cut into blocks as long as the pool has distinct texts that are not blank, are
each a permutation of these texts; the last block, which may be shorter, repeats none of them; and
no blank text is picked. -/
theorem fillers_come_in_rounds (phrases : List Text) (labels : List Label) (s : State)
    (nonempty : 1 ≤ (texts phrases).length)
    (run : (Fillers.system phrases).exec {} labels = some s) :
    (∀ block ∈ Framing.cut (texts phrases).length s.picks, block.Perm (texts phrases)) ∧
      (Framing.rest (texts phrases).length s.picks).Nodup ∧
      ∀ text ∈ s.picks, text ∈ phrases ∧ text.strip ≠ [] := by
  have fair : Rounds.Fair (texts phrases) s.usedFillerPhrases s.picks :=
    System.invariant (J := fun s => Rounds.Fair (texts phrases) s.usedFillerPhrases s.picks)
      (fun fair stepped => fair_step fair stepped) run (.start _)
  have cut := fair.cut (List.length_pos_iff.mp nonempty)
  exact ⟨cut.1, cut.2, fun text picked => mem_texts.mp (fair.subset picked)⟩

/-- One phrase is listed twice and one is blank. Two turns use up the pool; in the third the filler
of the second comes again, and starting it twice picks nothing more. -/
theorem third_turn_begins_anew :
    let phrases := ["嗯".toList, " ".toList, "我看看".toList, "嗯".toList]
    ∃ s, (Fillers.system phrases).exec {} [.create, .start 0 "嗯".toList, .stop 0, .playEnds 0,
        .stopReturns 0, .create, .start 1 "我看看".toList, .playEnds 1, .create,
        .start 2 "我看看".toList, .start 2 "嗯".toList] = some s ∧
      s.picks = ["嗯".toList, "我看看".toList, "我看看".toList] ∧
      ∀ block ∈ Framing.cut (texts phrases).length s.picks, block.Perm (texts phrases) := by
  intro phrases
  refine exists_of_map State.picks ["嗯".toList, "我看看".toList, "我看看".toList] (by decide +kernel)
    fun s run picks => ?_
  exact ⟨picks, (fillers_come_in_rounds phrases _ s (by decide +kernel) run).1⟩

end Guarantees
end IsalesEngine
