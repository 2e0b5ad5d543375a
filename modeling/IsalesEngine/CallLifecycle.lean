import Mathlib.Algebra.Order.BigOperators.Group.List
import Mathlib.Algebra.Ring.Int.Defs
import IsalesEngine.Asyncio.System

/-!
The global concurrency counter. The scheduler increments it for every call it
starts, and `_decr_concurrency` takes one off when a call is finalized: a DECR,
and a SET to zero when the DECR went below. Redis executes single commands
atomically, so other engines and the scheduler come in between. A SET that finds
increments wipes them out, and a SET that fails makes the call decrement again.
-/
namespace IsalesEngine
open Asyncio

/-- Where one `_decr_concurrency` stands: about to issue DECR or SET in an attempt, or returned. -/
inductive DecrStage where
  | decr (attempt : Nat)
  | clamp (attempt : Nat)
  | returned (ok : Bool)
  deriving DecidableEq, Repr

/-- `effect` is a history variable: what the call's commands have added to the counter. -/
structure DecrCall where
  stage : DecrStage := .decr 1
  effect : Int := 0
  deriving DecidableEq, Repr

/-- The counter, the INCRs it has seen, and the calls that are being finalized. -/
structure Concurrency where
  active : Int
  incrs : Nat := 0
  calls : List DecrCall
  deriving DecidableEq, Repr

/-- A command of the scheduler, or of call `i`. A command that was not `applied` raised. -/
inductive RedisCommand where
  | incr
  | decr (i : Nat) (applied : Bool)
  | set (i : Nat) (applied : Bool)
  deriving DecidableEq, Repr

namespace Concurrency

def maxRetries : Nat := 3

/-- The `except` block. -/
def retry (attempt : Nat) : DecrStage :=
  if attempt < maxRetries then .decr (attempt + 1) else .returned false

/-- `new = await redis.decr(key)`, and the test of its result. -/
def decr (s : Concurrency) (i : Nat) (c : DecrCall) (attempt : Nat) : Concurrency :=
  let new := s.active - 1
  let stage := if new < 0 then .clamp attempt else .returned true
  { s with active := new, calls := s.calls.set i ⟨stage, c.effect - 1⟩ }

/-- `await redis.set(key, 0)`. -/
def clamp (s : Concurrency) (i : Nat) (c : DecrCall) : Concurrency :=
  { s with active := 0, calls := s.calls.set i ⟨.returned true, c.effect - s.active⟩ }

def failed (s : Concurrency) (i : Nat) (c : DecrCall) (attempt : Nat) : Concurrency :=
  { s with calls := s.calls.set i { c with stage := retry attempt } }

def step (s : Concurrency) : RedisCommand → Option Concurrency
  | .incr => some { s with active := s.active + 1, incrs := s.incrs + 1 }
  | .decr i applied => match s.calls[i]? with
      | some c => match c.stage with
          | .decr attempt => some (if applied then s.decr i c attempt else s.failed i c attempt)
          | _ => none
      | none => none
  | .set i applied => match s.calls[i]? with
      | some c => match c.stage with
          | .clamp attempt => some (if applied then s.clamp i c else s.failed i c attempt)
          | _ => none
      | none => none

def system : System Concurrency RedisCommand := ⟨step⟩

/-- The calls `n` are finalized from a counter that stands at `active`. -/
def start (active : Int) (n : Nat) : Concurrency := ⟨active, 0, List.replicate n {}⟩

/-- A DECR is the first of its call to be applied, and a SET finds no increment. -/
def careful (s : Concurrency) : RedisCommand → Bool
  | .decr i true => s.calls[i]?.all fun c => decide (0 ≤ c.effect)
  | .set _ true => decide (s.active ≤ 0)
  | _ => true

/-- No call has taken more than one off the counter. -/
def LowersOnce (s : Concurrency) : Prop := ∀ c ∈ s.calls, -1 ≤ c.effect

/-- The sections of the system, with the call each of them belongs to. -/
inductive Stepped (s : Concurrency) : RedisCommand → Concurrency → Prop
  | incr : Stepped s .incr { s with active := s.active + 1, incrs := s.incrs + 1 }
  | decr {i c attempt} (own : s.calls[i]? = some c) (stage : c.stage = .decr attempt) :
      Stepped s (.decr i true) (s.decr i c attempt)
  | decrFailed {i c attempt} (own : s.calls[i]? = some c) (stage : c.stage = .decr attempt) :
      Stepped s (.decr i false) (s.failed i c attempt)
  | clamp {i c attempt} (own : s.calls[i]? = some c) (stage : c.stage = .clamp attempt) :
      Stepped s (.set i true) (s.clamp i c)
  | clampFailed {i c attempt} (own : s.calls[i]? = some c) (stage : c.stage = .clamp attempt) :
      Stepped s (.set i false) (s.failed i c attempt)

section Steps
variable {s s' : Concurrency} {command : RedisCommand} {i : Nat} {c d : DecrCall}

theorem step_stepped (h : s.step command = some s') : Stepped s command s' := by
  cases command with
  | incr =>
      cases h
      exact .incr
  | decr i applied =>
      simp only [step] at h
      split at h
      · split at h <;> cases h
        cases applied with
        | true => exact .decr ‹_› ‹_›
        | false => exact .decrFailed ‹_› ‹_›
      · cases h
  | set i applied =>
      simp only [step] at h
      split at h
      · split at h <;> cases h
        cases applied with
        | true => exact .clamp ‹_› ‹_›
        | false => exact .clampFailed ‹_› ‹_›
      · cases h

theorem sum_effect_set (own : s.calls[i]? = some c) : ((s.calls.set i d).map DecrCall.effect).sum =
      (s.calls.map DecrCall.effect).sum + (d.effect - c.effect) := by
  obtain ⟨bound, rfl⟩ := List.getElem?_eq_some_iff.mp own
  rw [List.map_set, List.sum_set', dif_pos (by simpa using bound), List.getElem_map]
  omega

/-- A property of all calls, when one of them moves on. -/
theorem forall_set {P : DecrCall → Prop} (own : s.calls[i]? = some c)
    (all : ∀ c ∈ s.calls, P c) : (∀ e ∈ s.calls.set i d, P e) ↔ P d := by
  constructor
  · intro moved
    obtain ⟨bound, -⟩ := List.getElem?_eq_some_iff.mp own
    exact moved d (List.mem_set bound d)
  · intro next e member
    obtain old | rfl := List.mem_or_eq_of_mem_set member
    · exact all e old
    · exact next

end Steps

/-- The counter is what the increments and the calls have made of it. -/
structure Balanced (active : Int) (n : Nat) (s : Concurrency) : Prop where
  active : s.active = active + s.incrs + (s.calls.map DecrCall.effect).sum
  calls : s.calls.length = n

theorem Balanced.step {active : Int} {n : Nat} {s s' : Concurrency} {command : RedisCommand}
    (balanced : Balanced active n s) (stepped : Stepped s command s') : Balanced active n s' := by
  have before := balanced.active
  cases stepped with
  | incr =>
      refine ⟨?_, balanced.calls⟩
      dsimp only
      omega
  | decr own stage =>
      refine ⟨?_, List.length_set.trans balanced.calls⟩
      simp only [Concurrency.decr, sum_effect_set own]
      omega
  | clamp own stage =>
      refine ⟨?_, List.length_set.trans balanced.calls⟩
      simp only [Concurrency.clamp, sum_effect_set own]
      omega
  | decrFailed own stage | clampFailed own stage =>
      refine ⟨?_, List.length_set.trans balanced.calls⟩
      simp only [Concurrency.failed, sum_effect_set own]
      omega

/-- What a call has done to the counter by the stage it is in. -/
def Paced (c : DecrCall) : Prop :=
  match c.stage with
  | .decr _ => c.effect = 0 ∨ c.effect = -1
  | .clamp _ => c.effect = -1
  | .returned _ => -1 ≤ c.effect

theorem Paced.once {c : DecrCall} (paced : Paced c) : -1 ≤ c.effect := by
  unfold Paced at paced
  split at paced <;> omega

theorem paced_retry {c : DecrCall} {attempt : Nat} (effect : c.effect = 0 ∨ c.effect = -1) :
    Paced { c with stage := retry attempt } := by
  unfold retry
  split
  · exact effect
  · show -1 ≤ c.effect
    omega

section Careful
variable {s s' : Concurrency} {command : RedisCommand} {c : DecrCall} {attempt : Nat}

section
variable (paced : ∀ c ∈ s.calls, Paced c)
include paced

theorem paced_decr {i : Nat} (own : s.calls[i]? = some c) (stage : c.stage = .decr attempt) :
    c.effect = 0 ∨ c.effect = -1 := by
  have here : Paced c := paced c (List.mem_of_getElem? own)
  simpa only [Paced, stage] using here

theorem paced_clamp {i : Nat} (own : s.calls[i]? = some c) (stage : c.stage = .clamp attempt) :
    c.effect = -1 := by
  have here : Paced c := paced c (List.mem_of_getElem? own)
  simpa only [Paced, stage] using here

/-- A careful command keeps every call to its pace. -/
theorem paced_step (allowed : s.careful command = true) (stepped : Stepped s command s') :
    ∀ c ∈ s'.calls, Paced c := by
  cases stepped with
  | incr => exact paced
  | decr own stage =>
      have pace := paced_decr paced own stage
      have first := of_decide_eq_true (by simpa [careful, own] using allowed)
      refine (forall_set own paced).mpr ?_
      unfold Paced
      dsimp only
      split <;> omega
  | decrFailed own stage =>
      exact (forall_set own paced).mpr (paced_retry (paced_decr paced own stage))
  | clamp own stage =>
      have pace := paced_clamp paced own stage
      have empty := of_decide_eq_true allowed
      refine (forall_set own paced).mpr ?_
      show -1 ≤ _ - s.active
      omega
  | clampFailed own stage =>
      exact (forall_set own paced).mpr (paced_retry (.inr (paced_clamp paced own stage)))

/-- A command is careful exactly if its call has not taken two off the counter after it. -/
theorem careful_iff (stepped : Stepped s command s') :
    s.careful command = true ↔ s'.LowersOnce := by
  have once : ∀ c ∈ s.calls, -1 ≤ c.effect := fun c member => (paced c member).once
  cases stepped with
  | incr => exact ⟨fun _ => once, fun _ => rfl⟩
  | decr own stage =>
      refine Iff.trans ?_ (forall_set own once).symm
      simp only [careful, own, Option.all_some, decide_eq_true_eq]
      omega
  | decrFailed own stage =>
      have kept : -1 ≤ _ := once _ (List.mem_of_getElem? own)
      exact ⟨fun _ => (forall_set own once).mpr kept, fun _ => rfl⟩
  | clamp own stage =>
      have pace := paced_clamp paced own stage
      refine Iff.trans ?_ (forall_set own once).symm
      simp only [careful, decide_eq_true_eq]
      omega
  | clampFailed own stage =>
      have kept : -1 ≤ _ := once _ (List.mem_of_getElem? own)
      exact ⟨fun _ => (forall_set own once).mpr kept, fun _ => rfl⟩

end

end Careful

/-- Calls that take one off the counter each leave the increments of the others in it. -/
theorem Balanced.counts {active : Int} {n : Nat} {s : Concurrency} (balanced : Balanced active n s)
    (nonneg : 0 ≤ active) (once : s.LowersOnce) : (s.incrs : Int) - n ≤ s.active := by
  have least : (s.calls.map DecrCall.effect).length • (-1 : Int) ≤
      (s.calls.map DecrCall.effect).sum := by
    refine List.card_nsmul_le_sum _ _ fun effect member => ?_
    obtain ⟨c, listed, rfl⟩ := List.mem_map.mp member
    exact once c listed
  rw [List.length_map, balanced.calls, Int.nsmul_eq_mul] at least
  have sum := balanced.active
  omega

end Concurrency

namespace Guarantees
open Concurrency

/-- In every run of the calls and the scheduler: the commands were all careful exactly if no call
ever took more than one off the counter and the counter is left with the increments less the
calls. -/
theorem increments_kept_iff (active : Int) (n : Nat) (commands : List RedisCommand)
    (s : Concurrency) (nonneg : 0 ≤ active)
    (run : system.exec (start active n) commands = some s) :
    (system.restrict careful).exec (start active n) commands = some s ↔
      (∀ before t, before <+: commands → system.exec (start active n) before = some t →
        t.LowersOnce) ∧ (s.incrs : Int) - n ≤ s.active := by
  have paced : ∀ c ∈ (start active n).calls, Paced c := by
    intro c member
    rw [(List.mem_replicate.mp member).2]
    exact .inl rfl
  have balanced : Balanced active n s := by
    refine System.invariant (fun balanced stepped => balanced.step (step_stepped stepped)) run ?_
    refine ⟨?_, List.length_replicate⟩
    simp [start]
  have iff := System.exec_restrict_iff (S := system) (P := LowersOnce)
    (fun paced allowed stepped => paced_step paced allowed (step_stepped stepped))
    (fun paced stepped => careful_iff paced (step_stepped stepped)) paced
    (fun c member => (paced c member).once) run
  refine iff.trans ⟨fun once => ⟨once, ?_⟩, And.left⟩
  exact balanced.counts nonneg (once commands s List.prefix_rfl run)

/-- Two calls end while the counter stands at one, and the scheduler starts a call in between. -/
theorem two_calls_one_increment :
    ∃ s, system.exec (start 1 2)
      [.decr 0 true, .decr 1 false, .decr 1 true, .set 1 true, .incr] = some s ∧
      (s.incrs : Int) - 2 ≤ s.active := by
  have run : system.exec (start 1 2)
      [.decr 0 true, .decr 1 false, .decr 1 true, .set 1 true, .incr] =
      some ⟨1, 1, [⟨.returned true, -1⟩, ⟨.returned true, 0⟩]⟩ := by decide
  exact ⟨_, run, ((increments_kept_iff 1 2 _ _ (by decide) run).mp (by decide)).2⟩

/-- Two increments arrive between the DECR of a call and its SET, which wipes them out: with two
increments and one call the counter is zero. The call has taken two off it. -/
theorem clamp_loses_increments :
    (system.exec (start 0 1) [.decr 0 true, .incr, .incr, .set 0 true]).map
      (fun s => (s.active, s.incrs, s.calls)) = some (0, 2, [⟨.returned true, -2⟩]) ∧
    ¬ ((2 : Int) - 1 ≤ 0) := by
  decide

end Guarantees
end IsalesEngine
