import IsalesEngine.EventBus

/-!
The lossy lane. A post to a full lane drops the oldest event, so the queue is
always the end of what was posted, and what is not queued any more was taken by
the dispatcher or dropped. Every other section leaves queue and counter alone.
-/
namespace IsalesEngine
open Asyncio

variable {ε τ η : Type}

/-- An event was posted to the lossy lane, or taken off it by the dispatcher. -/
inductive LossyMark (ε : Type) where
  | posted (e : ε)
  | taken (e : ε)
  deriving DecidableEq, Repr

namespace LossyMark

def posted? : LossyMark ε → Option ε
  | .posted e => some e
  | .taken _ => none

def taken? : LossyMark ε → Option ε
  | .posted _ => none
  | .taken e => some e

end LossyMark

/-- The events posted so far, in order. -/
def postedEvents (marks : List (LossyMark ε)) : List ε := marks.filterMap LossyMark.posted?

def takenEvents (marks : List (LossyMark ε)) : List ε := marks.filterMap LossyMark.taken?

section Marks
variable (marks : List (LossyMark ε)) (e : ε)

@[simp] theorem postedEvents_posted :
    postedEvents (marks ++ [.posted e]) = postedEvents marks ++ [e] := by
  simp [postedEvents, LossyMark.posted?]

@[simp] theorem postedEvents_taken :
    postedEvents (marks ++ [.taken e]) = postedEvents marks := by
  simp [postedEvents, List.filterMap_cons, LossyMark.posted?]

@[simp] theorem takenEvents_posted :
    takenEvents (marks ++ [.posted e]) = takenEvents marks := by
  simp [takenEvents, List.filterMap_cons, LossyMark.taken?]

@[simp] theorem takenEvents_taken :
    takenEvents (marks ++ [.taken e]) = takenEvents marks ++ [e] := by
  simp [takenEvents, LossyMark.taken?]

end Marks

/-- The sections as the lossy lane sees them: its queue and the drop counter. -/
inductive LossyStep (maxsize : Nat) (queue : List ε) (dropped : Nat) :
    List (LossyMark ε) → List ε → Nat → Prop
  | aside : LossyStep maxsize queue dropped [] queue dropped
  | post (e : ε) (room : queue.length < maxsize) :
      LossyStep maxsize queue dropped [.posted e] (queue ++ [e]) dropped
  | displace {oldest rest} (e : ε) (front : queue = oldest :: rest)
      (full : queue.length = maxsize) :
      LossyStep maxsize queue dropped [.posted e] (rest ++ [e]) (dropped + 1)
  | take {e rest} (front : queue = e :: rest) :
      LossyStep maxsize queue dropped [.taken e] rest dropped

theorem LossyStep.of_same {maxsize dropped dropped' : Nat} {queue queue' : List ε}
    (same : queue' = queue) (counter : dropped' = dropped) :
    LossyStep maxsize queue dropped [] queue' dropped' := by
  subst same counter
  exact .aside

/-- The queue is the end of what was posted, and what was posted before it was taken in order or
dropped. -/
structure LossyAccount (maxsize : Nat) (queue : List ε) (dropped : Nat)
    (marks : List (LossyMark ε)) : Prop where
  bounded : queue.length ≤ maxsize
  split : ∃ gone, postedEvents marks = gone ++ queue ∧ (takenEvents marks).Sublist gone ∧
    gone.length = (takenEvents marks).length + dropped

namespace LossyAccount
variable {maxsize dropped dropped' : Nat} {queue queue' : List ε}
  {marks more : List (LossyMark ε)}

theorem step (account : LossyAccount maxsize queue dropped marks)
    (stepped : LossyStep maxsize queue dropped more queue' dropped') :
    LossyAccount maxsize queue' dropped' (marks ++ more) := by
  obtain ⟨bounded, gone, posted, taken, count⟩ := account
  cases stepped with
  | aside =>
      rw [List.append_nil]
      exact ⟨bounded, gone, posted, taken, count⟩
  | post e room =>
      refine ⟨by simp only [List.length_append, List.length_singleton]; omega, gone, ?_, ?_, ?_⟩
      · rw [postedEvents_posted, posted, List.append_assoc]
      · rwa [takenEvents_posted]
      · rwa [takenEvents_posted]
  | @displace oldest rest e front full =>
      subst front
      refine ⟨by simpa using bounded, gone ++ [oldest], ?_, ?_, ?_⟩
      · rw [postedEvents_posted, posted]
        simp
      · rw [takenEvents_posted]
        exact taken.trans (List.sublist_append_left gone _)
      · rw [takenEvents_posted, List.length_append, count]
        rfl
  | @take e rest front =>
      subst front
      refine ⟨Nat.le_of_succ_le bounded, gone ++ [e], ?_, ?_, ?_⟩
      · rw [postedEvents_taken, posted]
        simp
      · rw [takenEvents_taken]
        exact taken.append (List.Sublist.refl _)
      · rw [takenEvents_taken, List.length_append, List.length_append, count]
        omega

/-- An event is dropped only by the post of the `maxsize`-th later one. -/
theorem drop (account : LossyAccount maxsize queue dropped marks)
    (stepped : LossyStep maxsize queue dropped more queue' dropped') (drops : dropped' ≠ dropped) :
    ∃ e oldest i, more = [.posted e] ∧ dropped' = dropped + 1 ∧ queue.head? = some oldest ∧
      queue' = queue.tail ++ [e] ∧ (postedEvents marks)[i]? = some oldest ∧
      i + maxsize = (postedEvents marks).length := by
  obtain ⟨_, gone, posted, _, _⟩ := account
  cases stepped with
  | @displace oldest rest e front full =>
      subst front
      refine ⟨e, oldest, gone.length, rfl, rfl, rfl, rfl, ?_, ?_⟩
      · simp [posted]
      · rw [posted, List.length_append, full]
  | aside | post _ _ | take _ => exact absurd rfl drops

end LossyAccount

namespace EventBus
variable {cfg : EventBusConfig ε τ} {s s' : EventBus ε τ η}

theorem postLossy_step (room : 1 ≤ cfg.lossyMaxsize)
    (bounded : s.lossy.queue.length ≤ cfg.lossyMaxsize) (e : ε) :
    LossyStep cfg.lossyMaxsize s.lossy.queue s.dropped [.posted e]
      (postLossy cfg s e).lossy.queue (postLossy cfg s e).dropped := by
  by_cases full : cfg.lossyMaxsize ≤ s.lossy.queue.length
  · cases queue : s.lossy.queue with
    | nil =>
        rw [queue, List.length_nil] at full
        omega
    | cons oldest rest =>
        rw [queue, List.length_cons] at full bounded
        have now : lossyFull cfg (oldest :: rest) = true := by
          simp only [lossyFull, Bool.and_eq_true, decide_eq_true_iff, List.length_cons]
          omega
        have after : lossyFull cfg rest = false := by
          simp only [lossyFull, Bool.and_eq_false_iff, decide_eq_false_iff_not]
          omega
        simp only [postLossy, queue, now, after, if_true, Bool.false_eq_true, if_false]
        exact .displace e rfl (by rw [List.length_cons]; omega)
  · have now : lossyFull cfg s.lossy.queue = false := by
      simp only [lossyFull, Bool.and_eq_false_iff, decide_eq_false_iff_not]
      exact Or.inr full
    simp only [postLossy, now, Bool.false_eq_true, if_false]
    exact .post e (Nat.lt_of_not_le full)

/-- A delivery leaves queue and counter alone, however its handlers end. -/
theorem ran_lossy (w : Worker) (d : Delivery ε η) (marks : List (DeliveryMark ε η))
    (result : HandlerResult) : (s.ran w d marks result).lossy.queue = s.lossy.queue ∧
      (s.ran w d marks result).dropped = s.dropped := by
  cases w with
  | dispatcher lane => cases lane <;> cases result <;> exact ⟨rfl, rfl⟩
  | closer => cases result <;> exact ⟨rfl, rfl⟩

variable [DecidableEq τ] [DecidableEq η]

/-- What a section posts to the lossy lane before `aclose`, or takes off it. -/
def lossyMarks (cfg : EventBusConfig ε τ) (s : EventBus ε τ η) :
    BusStep ε τ η → List (LossyMark ε)
  | .post e =>
      if s.phase = .opened ∧ s.laneFor (cfg.typeOf e) = .lossy then [.posted e] else []
  | .take .lossy => s.lossy.queue.head?.toList.map .taken
  | _ => []

/-- The posts to the lossy lane and what its dispatcher has taken in a run. -/
def lossyHistory (cfg : EventBusConfig ε τ) (steps : List (BusStep ε τ η)) :
    List (LossyMark ε) := (system cfg).collect (lossyMarks cfg) {} steps

theorem step_lossy {label : BusStep ε τ η} (room : 1 ≤ cfg.lossyMaxsize)
    (bounded : s.lossy.queue.length ≤ cfg.lossyMaxsize) (stepped : s.step cfg label = some s') :
    LossyStep cfg.lossyMaxsize s.lossy.queue s.dropped (lossyMarks cfg s label) s'.lossy.queue
      s'.dropped := by
  cases label with
  | registerLane _ _ | subscribe _ _ | unsubscribe _ _ =>
      cases stepped
      exact .aside
  | post e =>
      cases stepped
      cases phase : s.phase with
      | opened =>
          cases lane : s.laneFor (cfg.typeOf e) with
          | lossless =>
              simp only [lossyMarks, post, phase, lane]
              exact .aside
          | lossy =>
              simp only [lossyMarks, post, phase, lane]
              exact postLossy_step room bounded e
      | _ =>
          simp only [lossyMarks, post, phase]
          exact .aside
  | start =>
      cases stepped
      unfold start
      split <;> exact .aside
  | take lane =>
      simp only [step] at stepped
      split at stepped
      · rename_i e rest queue
        obtain ⟨_, rfl⟩ := of_guard stepped
        cases lane with
        | lossless => exact .aside
        | lossy =>
            have front : s.lossy.queue = e :: rest := queue
            simp only [lossyMarks, front]
            exact .take rfl
      · cases stepped
  | call w result =>
      simp only [step] at stepped
      split at stepped
      · split at stepped
        · obtain ⟨_, rfl⟩ := of_guard stepped
          cases result with
          | none =>
              cases w with
              | dispatcher lane => cases lane <;> exact .aside
              | closer => exact .aside
          | some result =>
              obtain ⟨queue, counter⟩ := ran_lossy (s := s) w _ _ result
              exact .of_same queue counter
        · cases stepped
      · cases stepped
  | resume w result =>
      simp only [step] at stepped
      split at stepped
      · split at stepped
        · obtain ⟨_, rfl⟩ := of_guard stepped
          obtain ⟨queue, counter⟩ := ran_lossy (s := s) w _ _ result
          exact .of_same queue counter
        · cases stepped
      · cases stepped
  | delivered w =>
      simp only [step] at stepped
      split at stepped
      · obtain ⟨_, rfl⟩ := of_guard stepped
        cases w with
        | dispatcher lane => cases lane <;> exact .aside
        | closer => exact .aside
      · cases stepped
  | aclose =>
      obtain ⟨_, rfl⟩ := of_guard stepped
      unfold aclose
      split <;> exact .aside
  | drain =>
      simp only [step] at stepped
      split at stepped
      · obtain ⟨_, rfl⟩ := of_guard stepped
        exact .aside
      · cases stepped
  | cancelTasks =>
      obtain ⟨_, rfl⟩ := of_guard stepped
      have same : s.lossy.cancel.queue = s.lossy.queue := by
        unfold LaneState.cancel
        split <;> rfl
      exact .of_same same rfl
  | gathered =>
      obtain ⟨_, rfl⟩ := of_guard stepped
      exact .aside

omit [DecidableEq η] in
theorem eq_post_of_lossyMarks {label : BusStep ε τ η} {e : ε}
    (posts : lossyMarks cfg s label = [.posted e]) : label = .post e := by
  cases label with
  | post e' =>
      simp only [lossyMarks] at posts
      split at posts
      · cases posts
        rfl
      · cases posts
  | take lane =>
      cases lane with
      | lossless => cases posts
      | lossy => cases queue : s.lossy.queue <;> simp [lossyMarks, queue] at posts
  | _ => cases posts

end EventBus

namespace Guarantees
open EventBus

variable [DecidableEq τ] [DecidableEq η]

/-- In every run of a bus whose lossy lane holds at least one event: what was posted to the lane is
what is gone followed by the queue, which is never longer than its bound; what the dispatcher took
is a subsequence of what is gone, and the rest of it was dropped; and an event is dropped only by
the post of the `lossy_maxsize`-th later event while it is the oldest in the queue. -/
theorem lossy_lane_keeps_newest (cfg : EventBusConfig ε τ) (room : 1 ≤ cfg.lossyMaxsize)
    (steps : List (BusStep ε τ η)) (s : EventBus ε τ η)
    (run : (system cfg).exec {} steps = some s) :
    s.lossy.queue.length ≤ cfg.lossyMaxsize ∧
    (∃ gone, postedEvents (lossyHistory cfg steps) = gone ++ s.lossy.queue ∧
      (takenEvents (lossyHistory cfg steps)).Sublist gone ∧
      gone.length = (takenEvents (lossyHistory cfg steps)).length + s.dropped) ∧
    (postedEvents (lossyHistory cfg steps)).length =
      (takenEvents (lossyHistory cfg steps)).length + s.lossy.queue.length + s.dropped ∧
    ∀ label s', (system cfg).step s label = some s' → s'.dropped ≠ s.dropped →
      ∃ e oldest i, label = .post e ∧ s'.dropped = s.dropped + 1 ∧
        s.lossy.queue.head? = some oldest ∧ s'.lossy.queue = s.lossy.queue.tail ++ [e] ∧
        (postedEvents (lossyHistory cfg steps))[i]? = some oldest ∧
        i + cfg.lossyMaxsize = (postedEvents (lossyHistory cfg steps)).length := by
  have account : LossyAccount cfg.lossyMaxsize s.lossy.queue s.dropped
      (lossyHistory cfg steps) := by
    have start : LossyAccount cfg.lossyMaxsize ([] : List ε) 0 [] :=
      ⟨Nat.zero_le _, [], rfl, List.Sublist.refl _, rfl⟩
    exact System.collect_invariant
      (J := fun s marks => LossyAccount cfg.lossyMaxsize s.lossy.queue s.dropped marks)
      (fun account stepped => account.step (step_lossy room account.bounded stepped)) run start
  obtain ⟨bounded, gone, posted, taken, count⟩ := account
  refine ⟨bounded, ⟨gone, posted, taken, count⟩, ?_, fun label s' stepped drops => ?_⟩
  · rw [posted, List.length_append, count]
    omega
  · have seen := step_lossy room bounded stepped
    obtain ⟨e, oldest, i, marks, rest⟩ :=
      LossyAccount.drop ⟨bounded, gone, posted, taken, count⟩ seen drops
    exact ⟨e, oldest, i, eq_post_of_lossyMarks marks, rest⟩

/-- A lane for two events gets four while its dispatcher takes one: the oldest but one is
dropped. -/
theorem oldest_event_dropped :
    ∃ s, (system ⟨fun _ => (), 2⟩).exec ({} : EventBus Nat Unit String)
      [.registerLane () .lossy, .start, .post 1, .take .lossy, .post 2, .post 3, .post 4] = some s ∧
      (s.lossy.queue, s.dropped) = ([3, 4], 1) ∧ s.lossy.queue.length ≤ 2 := by
  refine exists_of_map (fun s => (s.lossy.queue, s.dropped)) ([3, 4], 1) (by decide)
    fun s run state => ?_
  exact ⟨state, (lossy_lane_keeps_newest ⟨fun _ => (), 2⟩ (by decide) _ s run).1⟩

end Guarantees
end IsalesEngine
