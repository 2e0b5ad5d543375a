import IsalesEngine.Engine.UpkeptCall
import IsalesEngine.Guarantees.TurnRecords

/-!
How many restructures can follow each other. The counter goes up when a
restructure has been voiced, and back to zero at the points of the call: when a
restructure turn is capped, and when a reply was played in full. So the counter
is the number of restructures voiced since the last point, and the check of the
cap before a restructure bounds it between any two.
-/
namespace IsalesEngine
open Asyncio Asyncio.Coro

section Segments
variable {α : Type} {point counted : α → Bool} {m : Nat} {a : α} {l : List α}

/-- How many elements are counted before the first point. -/
def countToPoint (point counted : α → Bool) (l : List α) : Nat :=
  (l.takeWhile fun a => !point a).countP counted

/-- Between any two points, at most `m` elements are counted. -/
def BoundedBetween (point counted : α → Bool) (m : Nat) (l : List α) : Prop :=
  ∀ segment, segment <:+: l → (∀ a ∈ segment, point a = false) → segment.countP counted ≤ m

theorem countToPoint_cons (clear : point a = false) : countToPoint point counted (a :: l) =
    countToPoint point counted l + if counted a then 1 else 0 := by
  simp only [countToPoint, List.takeWhile_cons, clear, Bool.not_false, if_true, List.countP_cons]

theorem countToPoint_point (stops : point a = true) : countToPoint point counted (a :: l) = 0 := by
  simp [countToPoint, stops]

theorem BoundedBetween.nil : BoundedBetween point counted m [] := by
  intro segment within _
  rw [List.infix_nil.mp within]
  exact Nat.zero_le m

/-- A new element is in question only for the segment it begins. -/
theorem BoundedBetween.cons (old : BoundedBetween point counted m l)
    (new : countToPoint point counted (a :: l) ≤ m) : BoundedBetween point counted m (a :: l) := by
  intro segment within clear
  obtain begins | older := List.infix_cons_iff.mp within
  · obtain ⟨rest, split⟩ := begins
    have upTo : segment <+: (a :: l).takeWhile fun a => !point a := by
      rw [← split, List.takeWhile_append_of_pos (by simpa using clear)]
      exact List.prefix_append ..
    exact (upTo.sublist.countP_le).trans new
  · exact old segment older clear

end Segments

/-- The points of a call: a capped restructure turn, a reply played in full. -/
def Entry.isPoint : Entry → Bool
  | .capped | .repliedInFull => true
  | _ => false

def Entry.isRevoicing : Entry → Bool
  | .revoicing => true
  | _ => false

namespace Counters

/-- Between two points of the call at most `m` restructures are voiced. -/
def Unchained (m : Nat) (t : Counters) : Prop :=
  t.restructures ≤ m ∧ BoundedBetween Entry.isPoint Entry.isRevoicing m t.journal

/-- The counter tells how many restructures are voiced since the last point, but for `voicing`. -/
structure Chain (m voicing : Nat) (t : Counters) : Prop where
  since : countToPoint Entry.isPoint Entry.isRevoicing t.journal = t.restructures + voicing
  atMost : t.restructures + voicing ≤ m
  between : BoundedBetween Entry.isPoint Entry.isRevoicing m t.journal

namespace Chain
variable {m voicing n : Nat} {t t' : Counters} {e : Entry}

theorem unchained (chain : t.Chain m voicing) : t.Unchained m :=
  ⟨(Nat.le_add_right ..).trans chain.atMost, chain.between⟩

theorem same (chain : t.Chain m voicing) (restructures : t'.restructures = t.restructures)
    (journal : t'.journal = t.journal) : t'.Chain m voicing where
  since := by rw [journal, restructures, chain.since]
  atMost := restructures ▸ chain.atMost
  between := journal ▸ chain.between

/-- The restructure that was voiced is counted. -/
theorem count (chain : t.Chain m 1) (restructures : t'.restructures = t.restructures + 1)
    (journal : t'.journal = t.journal) : t'.Chain m 0 where
  since := by rw [journal, restructures, chain.since, Nat.add_zero]
  atMost := restructures ▸ chain.atMost
  between := journal ▸ chain.between

theorem enter (chain : t.Chain m voicing) (plain : e.isPoint = false)
    (counts : voicing + (if e.isRevoicing then 1 else 0) = n) (room : t.restructures + n ≤ m)
    (restructures : t'.restructures = t.restructures) (journal : t'.journal = e :: t.journal) :
    t'.Chain m n := by
  have since : countToPoint Entry.isPoint Entry.isRevoicing (e :: t.journal) =
      t.restructures + n := by
    rw [countToPoint_cons plain, chain.since, ← counts, Nat.add_assoc]
  refine ⟨?_, ?_, ?_⟩
  · rw [journal, restructures, since]
  · rw [restructures]
    exact room
  · rw [journal]
    exact chain.between.cons (since ▸ room)

theorem point (chain : t.Chain m 0) (stops : e.isPoint = true) (restructures : t'.restructures = 0)
    (journal : t'.journal = e :: t.journal) : t'.Chain m 0 := by
  have since : countToPoint Entry.isPoint Entry.isRevoicing (e :: t.journal) = 0 :=
    countToPoint_point stops
  refine ⟨?_, ?_, ?_⟩
  · rw [journal, restructures, since]
  · rw [restructures]
    exact Nat.zero_le m
  · rw [journal]
    exact chain.between.cons (since ▸ Nat.zero_le m)

end Chain

/-- The stages of a call, by what the counter has still to count. -/
def chainStages (m : Nat) : Stages where
  before w := w.counters.Chain m 0
  live w := w.counters.Chain m 0
  window w := w.counters.Chain m 0
  revoicing w := w.counters.Chain m 1
  activating w := w.counters.Chain m 0
  heard _ w := w.counters.Chain m 0
  always w := w.counters.Unchained m

theorem chained (cfg : RuntimeConfig) : CallUpkeep cfg (engine cfg) (fun _ _ => True)
      (chainStages cfg.pipeline.maxContinuousRestructure) where
  speaks := Speaks.any cfg fun _ _ _ => true
  before := .counters (P := Chain _ 0) fun _ => Chain.unchained
  live := .counters (P := Chain _ 0) fun _ => Chain.unchained
  window := .counters (P := Chain _ 0) fun _ => Chain.unchained
  revoicing := .counters (P := Chain _ 1) fun _ => Chain.unchained
  activating := .counters (P := Chain _ 0) fun _ => Chain.unchained
  always := .counters (P := Unchained _) fun _ h => h
  below := Engine.below_stable
  monitored chain := chain
  opened chain := chain.enter rfl rfl chain.atMost rfl rfl
  closed _ chain := chain.enter rfl rfl chain.atMost rfl rfl
  remoteHangup chain := chain
  noProgress chain := chain
  userFinal chain := chain
  silenceHangup chain := chain.unchained
  activation {phrase w} chain :=
    have aside : Aside (fun _ _ => True) w (w.transition .inCall "silence_threshold") :=
      .transition _ _
    chain.same aside.restructures aside.journal
  activated chain := chain.same rfl rfl
  revoice chain below revoices _ := chain.enter (e := .revoicing) rfl rfl below rfl
    (by simp [World.counters, World.addStream, revoices])
  revoiced chain := chain.count rfl rfl
  capped chain := chain.point rfl rfl rfl
  replied chain := chain.point rfl rfl rfl
  wrapUp chain := chain.same rfl rfl

end Counters

namespace Guarantees

/-- In every state of a call, the counter is at most the maximum, and at most that many restructures
are voiced in a stretch of the call without a capped restructure turn or a reply played in full. -/
theorem restructures_bounded (cfg : RuntimeConfig) (fuel : Nat) (w : World)
    (acts : List (Action sig Move)) (c : Susp sig World Unit) (fresh : w.Fresh)
    (journal : w.journal = [])
    (run : (engine cfg).exec (runSession cfg fuel w) acts = some c) :
    c.state.session.consecutiveRestructureCount ≤ cfg.pipeline.maxContinuousRestructure ∧
    ∀ segment, segment <:+: c.state.journal → (∀ e ∈ segment, e ≠ .capped ∧ e ≠ .repliedInFull) →
      segment.count .revoicing ≤ cfg.pipeline.maxContinuousRestructure := by
  have start : w.counters.Chain cfg.pipeline.maxContinuousRestructure 0 := by
    rw [fresh.counters journal]
    exact ⟨rfl, Nat.zero_le _, .nil⟩
  obtain ⟨atMost, between⟩ := (Counters.chained cfg).reached start run
  refine ⟨atMost, fun segment within clear => ?_⟩
  have counted := between segment within fun e member => by
    have := clear e member
    cases e <;> simp_all [Entry.isPoint]
  have same : segment.count .revoicing = segment.countP Entry.isRevoicing := by
    refine List.countP_congr fun e _ => ?_
    cases e <;> simp [Entry.isRevoicing]
  rwa [same]

theorem restructure_counted :
    ∃ c, (engine resumingConfig).exec (runSession resumingConfig 4 (World.initial 1 .other))
        (resumedRun ++ revoicedRun 1) = some c ∧
      c.state.session.consecutiveRestructureCount = 1 ∧
      1 ≤ resumingConfig.pipeline.maxContinuousRestructure ∧
      ∀ segment, segment <:+: c.state.journal →
        (∀ e ∈ segment, e ≠ .capped ∧ e ≠ .repliedInFull) →
        segment.count .revoicing ≤ resumingConfig.pipeline.maxContinuousRestructure := by
  refine exists_of_map (fun c => c.state.session.consecutiveRestructureCount) 1 (by decide +kernel)
    fun c run one => ?_
  have bounded := restructures_bounded resumingConfig 4 _ _ c (World.initial_fresh 1 .other) rfl run
  exact ⟨one, one ▸ bounded.1, bounded.2⟩

end Guarantees
end IsalesEngine
