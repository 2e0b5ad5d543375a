import IsalesEngine.Pipeline.Stream

/-!
Replay of an eager reply. Whatever the relative speed of the background task and the
consumer, the sentences yielded are an initial part of those of direct generation, a
run has a bounded number of steps, and it can only stop where the consumer has come
to the end, with everything as after direct generation.
-/
namespace IsalesEngine
namespace EagerStream
open Asyncio Consumption

/-- The stream after the background task has done `executed`. Until it comes to the end the consumer
has yielded the replayed part of the buffer; it waits only when there is nothing to replay. -/
structure Replays (config : StreamConfig) (effects executed : List CoreEffect) (s : EagerStream) :
    Prop where
  split : executed ++ s.remaining = effects
  buffer : s.buffer = executed.filterMap CoreEffect.text?
  cursor : s.replayedCount ≤ s.buffer.length
  ended : s.eagerDone = true → s.remaining = []
  replaying : s.consumer ≠ .returned → s.consumption =
    ⟨s.buffer.take s.replayedCount, executed.foldl MainStreamResult.record {}, []⟩
  waiting : s.consumer = .waiting → s.eagerDone = false
  returned : s.consumer = .returned →
    s.eagerDone = true ∧ s.consumption = (generated executed).guardSilence config

variable {config : StreamConfig} {effects executed : List CoreEffect} {s s' : EagerStream}

theorem notifyAll_returned {state : ReplayState} :
    notifyAll state = .returned ↔ state = .returned := by
  cases state <;> simp [notifyAll]

theorem notifyAll_waiting (state : ReplayState) : notifyAll state ≠ .waiting := by
  cases state <;> simp [notifyAll]

/-- A consumer that runs has something to replay, or the buffer is exhausted. -/
theorem consume_cases (stepped : s.consume config = some s') :
    (s.consumer = .running ∨ s.consumer = .notified) ∧
      ((∃ text, s.buffer[s.replayedCount]? = some text ∧ s' = { s with
          replayedCount := s.replayedCount + 1, consumer := .running
          consumption := { s.consumption with yielded := s.consumption.yielded ++ [text] } }) ∨
        (s.buffer[s.replayedCount]? = none ∧ s.eagerDone = true ∧ s' = { s with
          consumer := .returned, consumption := s.consumption.guardSilence config }) ∨
        (s.eagerDone = false ∧ s' = { s with consumer := .waiting })) := by
  unfold EagerStream.consume at stepped
  cases consumer : s.consumer with
  | waiting | returned => simp [consumer] at stepped
  | running | notified =>
      refine ⟨by simp, ?_⟩
      cases buffered : s.buffer[s.replayedCount]? with
      | some text =>
          simp only [consumer, buffered, Option.some.injEq] at stepped
          exact Or.inl ⟨text, rfl, stepped.symm⟩
      | none =>
          cases done : s.eagerDone with
          | true =>
              simp only [consumer, buffered, done, if_true, Option.some.injEq] at stepped
              exact Or.inr (Or.inl ⟨rfl, rfl, stepped.symm⟩)
          | false =>
              simp only [consumer, buffered, done, Bool.false_eq_true, if_false,
                Option.some.injEq] at stepped
              exact Or.inr (Or.inr ⟨rfl, stepped.symm⟩)

section
variable (replays : Replays config effects executed s)
include replays

theorem Replays.generate (stepped : s.generate = some s') :
    ∃ effect, Replays config effects (executed ++ [effect]) s' := by
  unfold EagerStream.generate at stepped
  cases left : s.remaining with
  | nil => simp [left] at stepped
  | cons effect remaining =>
      refine ⟨effect, ?_⟩
      have unfinished : s.eagerDone ≠ true := by
        intro done
        simp [replays.ended done] at left
      have here : s.consumer ≠ .returned := fun returned =>
        unfinished (replays.returned returned).1
      have before := replays.replaying here
      have split : executed ++ [effect] ++ remaining = effects := by
        simpa [left] using replays.split
      cases effect with
      | sentence text =>
          simp only [left, Option.some.injEq] at stepped
          subst stepped
          refine ⟨split, ?_, ?_, fun done => absurd done unfinished, fun _ => ?_, ?_, ?_⟩
          · simp [replays.buffer, CoreEffect.text?]
          · simpa using Nat.le_succ_of_le replays.cursor
          · simp [before, List.take_append_of_le_length replays.cursor]
          · exact fun waits => absurd waits (notifyAll_waiting _)
          · exact fun back => absurd (notifyAll_returned.mp back) here
      | error _ | fallbackUsed =>
          simp only [left, Option.some.injEq] at stepped
          subst stepped
          refine ⟨split, ?_, replays.cursor, fun done => absurd done unfinished, fun _ => ?_,
            replays.waiting, fun back => absurd back here⟩
          · simp [replays.buffer, CoreEffect.text?]
          · simp [before]

theorem Replays.generationEnds (stepped : s.generationEnds = some s') :
    Replays config effects executed s' := by
  obtain ⟨⟨nothing, unfinished⟩, rfl⟩ := of_guard stepped
  have here : s.consumer ≠ .returned := by
    intro returned
    simp [(replays.returned returned).1] at unfinished
  refine ⟨replays.split, replays.buffer, replays.cursor, fun _ => nothing, ?_, ?_, ?_⟩
  · exact fun _ => replays.replaying here
  · exact fun waits => absurd waits (notifyAll_waiting _)
  · exact fun back => absurd (notifyAll_returned.mp back) here

theorem Replays.consume (stepped : s.consume config = some s') :
    Replays config effects executed s' := by
  obtain ⟨active, moves⟩ := consume_cases stepped
  have here : s.consumer ≠ .returned := by
    obtain running | notified := active
    · simp [running]
    · simp [notified]
  have before := replays.replaying here
  obtain ⟨text, buffered, rfl⟩ | ⟨exhausted, done, rfl⟩ | ⟨unfinished, rfl⟩ := moves
  · obtain ⟨inside, same⟩ := List.getElem?_eq_some_iff.mp buffered
    refine ⟨replays.split, replays.buffer, inside, replays.ended, fun _ => ?_, nofun, nofun⟩
    simp [before, List.take_add_one, buffered]
  · refine ⟨replays.split, replays.buffer, replays.cursor, replays.ended, ?_, nofun, fun _ => ?_⟩
    · exact fun impossible => absurd rfl impossible
    · have all : s.buffer.take s.replayedCount = executed.filterMap CoreEffect.text? := by
        rw [List.take_of_length_le (List.getElem?_eq_none_iff.mp exhausted), replays.buffer]
      refine ⟨done, ?_⟩
      rw [before, all]
      rfl
  · exact ⟨replays.split, replays.buffer, replays.cursor, replays.ended,
      fun _ => before, fun _ => unfinished, nofun⟩

end

theorem replays_step {label : EagerStep} (replays : ∃ executed, Replays config effects executed s)
    (stepped : (system config).step s label = some s') :
    ∃ executed, Replays config effects executed s' := by
  obtain ⟨executed, replays⟩ := replays
  cases label with
  | generate =>
      obtain ⟨effect, later⟩ := replays.generate stepped
      exact ⟨executed ++ [effect], later⟩
  | generationEnds => exact ⟨executed, replays.generationEnds stepped⟩
  | consume => exact ⟨executed, replays.consume stepped⟩

/-- What is left to do: each effect leads to at most three steps, the end to two. -/
def work (s : EagerStream) : Nat :=
  3 * s.remaining.length + (s.buffer.length - s.replayedCount) + (if s.eagerDone then 0 else 2) +
    (if s.consumer = .running ∨ s.consumer = .notified then 1 else 0)

theorem awake_le (state : ReplayState) :
    (if state = .running ∨ state = .notified then 1 else 0) ≤ 1 := by
  split <;> omega

theorem work_lowers {label : EagerStep} (stepped : (system config).step s label = some s') :
    s'.work < s.work := by
  cases label with
  | generate =>
      change s.generate = some s' at stepped
      unfold EagerStream.generate at stepped
      cases left : s.remaining with
      | nil => simp [left] at stepped
      | cons effect remaining =>
          cases effect with
          | sentence text =>
              simp only [left, Option.some.injEq] at stepped
              subst stepped
              have awake := awake_le (notifyAll s.consumer)
              simp only [work, left, List.length_cons, List.length_append, List.length_nil]
              omega
          | error _ | fallbackUsed =>
              simp only [left, Option.some.injEq] at stepped
              subst stepped
              simp only [work, left, List.length_cons]
              omega
  | generationEnds =>
      obtain ⟨⟨_, unfinished⟩, rfl⟩ := of_guard stepped
      have awake := awake_le (notifyAll s.consumer)
      simp only [work, unfinished, if_true, Bool.false_eq_true, if_false]
      omega
  | consume =>
      obtain ⟨active, moves⟩ := consume_cases stepped
      obtain ⟨text, buffered, rfl⟩ | ⟨_, _, rfl⟩ | ⟨_, rfl⟩ := moves
      · have inside := (List.getElem?_eq_some_iff.mp buffered).1
        simp only [work, active, if_true, true_or]
        omega
      · simp [work, active]
      · simp [work, active]

theorem guardSilence_yielded (config : StreamConfig) (c : Consumption) :
    c.yielded <+: (c.guardSilence config).yielded := by
  unfold guardSilence
  split
  · exact List.prefix_append _ _
  · exact List.prefix_rfl

variable (replays : Replays config effects executed s)
include replays

/-- A run stops only when the consumer has come to the end. -/
theorem returned_of_stuck (stuck : ∀ label, (system config).step s label = none) :
    s.consumer = .returned := by
  have generated : s.remaining = [] := by
    have none := stuck .generate
    cases left : s.remaining with
    | nil => rfl
    | cons effect remaining => cases effect <;> simp [system, step, generate, left] at none
  have done : s.eagerDone = true := by
    have none := stuck .generationEnds
    simpa [system, step, generationEnds, generated] using none
  have none := stuck .consume
  cases consumer : s.consumer with
  | returned => rfl
  | waiting => simp [replays.waiting consumer] at done
  | running | notified =>
      simp only [system, step, consume, consumer, done, if_true] at none
      split at none <;> exact nomatch none

theorem Replays.finished (returned : s.consumer = .returned) :
    s.consumption = (generated effects).guardSilence config := by
  obtain ⟨done, consumed⟩ := replays.returned returned
  have all : executed = effects := by simpa [replays.ended done] using replays.split
  exact all ▸ consumed

theorem Replays.yielded :
    s.consumption.yielded <+: ((generated effects).guardSilence config).yielded := by
  by_cases returned : s.consumer = .returned
  · rw [replays.finished returned]
  · rw [replays.replaying returned]
    have part : s.buffer <+: (generated effects).yielded := by
      rw [replays.buffer, ← replays.split]
      simp [generated]
    exact ((List.take_prefix _ _).trans part).trans (guardSilence_yielded config _)

end EagerStream

namespace Guarantees
open Asyncio EagerStream Consumption

/-- However the background task and the consumer interleave, `sentences` after `start_eager` has
yielded an initial part of what it yields without; every run ends, and where it ends the sentences,
the result and the events are those of direct generation. These are never empty, the reply text is
their concatenation, and there is one `default_reply_used` event if and only if generation has
produced no sentence. -/
theorem eager_replay_refines_direct (config : StreamConfig) (llm : LlmBehaviour)
    (steps : List EagerStep) (s : EagerStream)
    (run : (system config).exec (start config llm) steps = some s) :
    s.consumption.yielded <+: (direct config llm).yielded ∧
    steps.length ≤ 3 * (config.generateCore llm).length + 3 ∧
    ((∀ label, (system config).step s label = none) → s.consumer = .returned) ∧
    (s.consumer = .returned → s.consumption = direct config llm) ∧
    (direct config llm).yielded ≠ [] ∧
    (direct config llm).result.replyText = (direct config llm).yielded.flatten ∧
    (direct config llm).events.length =
      if (config.generateCore llm).filterMap CoreEffect.text? = [] then 1 else 0 := by
  have first : Replays config (config.generateCore llm) [] (start config llm) :=
    ⟨rfl, rfl, Nat.le_refl 0, nofun, fun _ => rfl, nofun, nofun⟩
  obtain ⟨executed, replays⟩ := System.invariant replays_step run ⟨[], first⟩
  have bounded := System.exec_length_le work_lowers run
  have begun : (start config llm).work = 3 * (config.generateCore llm).length + 3 := rfl
  have spoken : (generated (config.generateCore llm)).result.replyText.strip = [] ↔
      (config.generateCore llm).filterMap CoreEffect.text? = [] := by
    rw [generated_replyText]
    exact flatten_strip_nil_iff fun t generated => (voiceable_of_generated generated).1
  refine ⟨?_, by omega, returned_of_stuck replays, ?_, ?_⟩
  · rw [direct_eq]
    exact replays.yielded
  · intro returned
    rw [direct_eq]
    exact replays.finished returned
  · rw [direct_eq]
    by_cases silent : (config.generateCore llm).filterMap CoreEffect.text? = []
    · have nothing : (generated (config.generateCore llm)).yielded = [] := silent
      unfold guardSilence
      rw [if_pos (spoken.mpr silent), if_pos silent]
      exact ⟨by simp, by simp [nothing], rfl⟩
    · unfold guardSilence
      rw [if_neg (mt spoken.mp silent), if_neg silent]
      exact ⟨silent, generated_replyText _, rfl⟩

/-- The token stream fails in the middle of the first sentence and `chat` gives the reply, while the
consumer is the faster of the two. -/
theorem fallback_replayed :
    ∃ s, (system ⟨fun c => c != '。', [], 0⟩).exec (start ⟨fun c => c != '。', [], 0⟩
        ⟨["您".toList], some "reset", .ok (some "您好。请说。".toList)⟩)
        [.consume, .generate, .generate, .consume, .consume, .generate, .consume, .consume,
          .generationEnds, .consume] = some s ∧
      s.consumption = direct ⟨fun c => c != '。', [], 0⟩
        ⟨["您".toList], some "reset", .ok (some "您好。请说。".toList)⟩ ∧
      s.consumption.yielded = ["您好。".toList, "请说。".toList] := by
  refine exists_of_map (fun s => (s.consumer, s.consumption.yielded))
    (.returned, ["您好。".toList, "请说。".toList]) (by decide) fun s run same => ?_
  obtain ⟨returned, yielded⟩ := Prod.mk.inj same
  exact ⟨(eager_replay_refines_direct _ _ _ s run).2.2.2.1 returned, yielded⟩

end Guarantees
end IsalesEngine
