import Mathlib.Logic.Relation
import IsalesEngine.Realtime.PlayoutEffects

/-!
The accounts of the playout queues. A queue changes when a feed puts a frame, when
its pump moves and when a barge-in flushes it. What it owes are the frames put and
not yet marked done: the one the pump holds and those queued, and, once the pump
has been stopped, the one it held then. A flush marks what it takes off and puts
back no more than that, so it marks nothing twice and always finds room.
-/
namespace IsalesEngine
open Asyncio

namespace PlayoutQueue
variable {ramp : Nat → Nat → Frame → Frame} {q q' : PlayoutQueue} {out : List PlayoutItem}

/-- The frame in the pump's hands. -/
def held (q : PlayoutQueue) : List PlayoutItem :=
  match q.pump with
  | .pushing (some item) => [item]
  | _ => []

/-- The frames that are unfinished, in the order they were put. Only a pump that has ended leaves
some that it took and will not mark. -/
structure Owes (q : PlayoutQueue) (out : List PlayoutItem) : Prop where
  count : q.unfinished = out.length
  order : ∃ lost, out = q.held ++ lost ++ q.items ∧ (q.pump ≠ .ended → lost = [])

/-- What the pump does to its queue. -/
inductive PumpMove (q : PlayoutQueue) : PlayoutQueue → Prop
  | take {item : PlayoutItem} {items : List PlayoutItem} (sleeping : q.pump = .sleeping)
      (front : q.items = item :: items) : PumpMove q { q with items, pump := .pushing (some item) }
  | silence (sleeping : q.pump = .sleeping) (empty : q.items = []) :
      PumpMove q { q with pump := .pushing none }
  | pushed {tts : Option PlayoutItem} {after : PumpState} (pump : q.pump = .pushing tts)
      (rests : after = .sleeping ∨ after = .ended) :
      PumpMove q { q.markDone tts with pump := after }
  | stop : PumpMove q { q with pump := .ended }

/-- A pump serves its queue in order: what it marks is the oldest frame owed. -/
structure Serves (q q' : PlayoutQueue) (out out' : List PlayoutItem) : Prop where
  owes : q'.Owes out'
  accounted : q'.marked ++ out' = q.marked ++ out
  fewer : out' <:+ out
  items : q'.items.length ≤ q.items.length
  overdrawn : q'.overdrawn = q.overdrawn

theorem held_eq_nil (rests : q.pump = .sleeping ∨ q.pump = .ended) : q.held = [] := by
  obtain sleeping | ended := rests
  · simp [held, sleeping]
  · simp [held, ended]

theorem Owes.empty : Owes {} [] := ⟨rfl, [], rfl, fun _ => rfl⟩

theorem Owes.of_running (owes : q.Owes out) (runs : q.pump ≠ .ended) : out = q.held ++ q.items := by
  obtain ⟨lost, order, none⟩ := owes.order
  rw [order, none runs, List.append_nil]

theorem Owes.put (owes : q.Owes out) (item : PlayoutItem) :
    (q.putItem item).Owes (out ++ [item]) := by
  obtain ⟨lost, order, none⟩ := owes.order
  refine ⟨?_, lost, ?_, none⟩
  · rw [putItem, owes.count, List.length_append, List.length_singleton]
  · rw [order, List.append_assoc _ q.items]
    rfl

theorem PumpMove.serves (moves : q.PumpMove q') (owes : q.Owes out) :
    ∃ out', Serves q q' out out' := by
  cases moves with
  | take sleeping front =>
      have order := owes.of_running (by simp [sleeping])
      refine ⟨out, ⟨owes.count, [], ?_, fun _ => rfl⟩, rfl, List.suffix_rfl, ?_, rfl⟩
      · simpa [held, sleeping, front] using order
      · simp [front]
  | silence sleeping empty =>
      have order := owes.of_running (by simp [sleeping])
      refine ⟨out, ⟨owes.count, [], ?_, fun _ => rfl⟩, rfl, List.suffix_rfl, Nat.le_refl _, rfl⟩
      simpa [held, sleeping] using order
  | @pushed tts after pump rests =>
      have order := owes.of_running (by simp [pump])
      cases tts with
      | none =>
          refine ⟨out, ⟨owes.count, [], ?_, fun _ => rfl⟩, rfl, List.suffix_rfl, Nat.le_refl _, rfl⟩
          rw [held_eq_nil rests, order]
          simp [held, pump, markDone]
      | some item =>
          have holds : out = item :: q.items := by simpa [held, pump] using order
          have count : q.unfinished = q.items.length + 1 := by rw [owes.count, holds]; rfl
          have done : q.taskDone = { q with unfinished := q.items.length } := by
            rw [taskDone, if_neg (by omega), count, Nat.add_sub_cancel]
          simp only [markDone, done]
          refine ⟨q.items, ⟨rfl, [], ?_, fun _ => rfl⟩, ?_, ?_, Nat.le_refl _, rfl⟩
          · rw [held_eq_nil rests]
            rfl
          · rw [holds, List.append_assoc]
            rfl
          · rw [holds]
            exact List.suffix_cons item q.items
  | stop =>
      obtain ⟨lost, order, _⟩ := owes.order
      refine ⟨out, ⟨owes.count, q.held ++ lost, ?_, fun runs => absurd rfl runs⟩, rfl,
        List.suffix_rfl, Nat.le_refl _, rfl⟩
      rw [order]
      rfl

/-- The queue is within its bound, nothing was marked too often, and what is unfinished is owed. -/
structure Account (q : PlayoutQueue) : Prop where
  bounded : q.items.length ≤ maxsize
  sound : q.overdrawn = false
  owes : ∃ out, q.Owes out

theorem full_eq_false : q.full = false ↔ q.items.length < maxsize := by
  simp [full]

theorem taskDones_eq {α : Type} (marks : List α) (q : PlayoutQueue)
    (enough : marks.length ≤ q.unfinished) : marks.foldl (fun q _ => q.taskDone) q =
      { q with unfinished := q.unfinished - marks.length } := by
  induction marks generalizing q with
  | nil => rfl
  | cons mark marks ih =>
      rw [List.length_cons] at enough
      have one : q.taskDone = { q with unfinished := q.unfinished - 1 } := if_neg (by omega)
      have later : marks.length ≤ q.unfinished - 1 := by omega
      rw [List.foldl_cons, one, ih _ later, List.length_cons, Nat.sub_sub, Nat.add_comm 1]

theorem putItems_eq (items : List PlayoutItem) (q : PlayoutQueue) : items.foldl putItem q =
      { q with items := q.items ++ items, unfinished := q.unfinished + items.length } := by
  induction items generalizing q with
  | nil => simp
  | cons item items ih =>
      rw [List.foldl_cons, ih]
      simp [putItem, Nat.add_assoc, Nat.add_comm 1]

section
variable (ramp)

theorem length_applyFadeout (frames : List Frame) :
    (applyFadeout ramp frames).length = frames.length := by
  have ramped (total idx : Nat) (frames : List Frame) :
      (applyFadeout.go ramp total idx frames).length = frames.length := by
    induction frames generalizing idx with
    | nil => rfl
    | cons frame frames ih => rw [applyFadeout.go, List.length_cons, ih, List.length_cons]
  simp only [applyFadeout]
  split
  · rfl
  · exact ramped _ _ _

theorem length_faded_le (ms : Int) (pending : List PlayoutItem) :
    (faded ramp ms pending).length ≤ pending.length := by
  unfold faded
  split
  · exact Nat.zero_le _
  · rw [List.length_zipWith, List.length_take]
    omega

/-- What is put back are the frames that fit into the fade, faded. -/
theorem faded_frames (ms : Int) (pending : List PlayoutItem) :
    (faded ramp ms pending).map PlayoutItem.frame = if ms ≤ 0 then [] else applyFadeout ramp
        ((pending.map PlayoutItem.frame).take (min (-(-ms / 10)).toNat pending.length)) := by
  unfold faded
  split
  · rfl
  · -- the model rounds up by adding nine, the source by negating twice
    have ceiling : (ms + 9) / 10 = -(-ms / 10) := by omega
    rw [ceiling, ← List.map_take]
    generalize pending.take (min (-(-ms / 10)).toNat pending.length) = kept
    have lengths := length_applyFadeout ramp (kept.map PlayoutItem.frame)
    rw [List.length_map] at lengths
    rw [List.map_zipWith, ← List.map_uncurry_zip_eq_zipWith]
    exact List.map_snd_zip (Nat.le_of_eq lengths)

end

/-- The queue after a flush. -/
def flushed (ramp : Nat → Nat → Frame → Frame) (ms : Int) (q : PlayoutQueue) : PlayoutQueue :=
  (faded ramp ms q.items).foldl putItem q.drain

namespace Account
variable (account : q.Account)
include account

/-- As long as the pump runs, what is unfinished is what is queued and what the pump holds. -/
theorem unfinished (runs : q.pump ≠ .ended) : q.unfinished = q.items.length + q.held.length := by
  obtain ⟨out, owes⟩ := account.owes
  rw [owes.count, owes.of_running runs, List.length_append, Nat.add_comm]

theorem put (room : q.full = false) (item : PlayoutItem) : (q.putItem item).Account := by
  obtain ⟨out, owes⟩ := account.owes
  refine ⟨?_, account.sound, out ++ [item], owes.put item⟩
  have below := full_eq_false.mp room
  rw [putItem, List.length_append, List.length_singleton]
  omega

theorem pump (moves : q.PumpMove q') : q'.Account := by
  obtain ⟨out, owes⟩ := account.owes
  obtain ⟨out', served⟩ := moves.serves owes
  exact ⟨Nat.le_trans served.items account.bounded, served.overdrawn.trans account.sound,
    out', served.owes⟩

/-- Everything queued is unfinished, so a drain marks exactly that. -/
theorem drain_eq : q.items.length ≤ q.unfinished ∧
      q.drain = { q with items := [], unfinished := q.unfinished - q.items.length } := by
  obtain ⟨out, owes⟩ := account.owes
  obtain ⟨lost, order, _⟩ := owes.order
  have enough : q.items.length ≤ q.unfinished := by
    rw [owes.count, order, List.length_append]
    omega
  exact ⟨enough, taskDones_eq q.items { q with items := [] } enough⟩

theorem putBack (again : List PlayoutItem) : again.foldl putItem q.drain =
      { q with items := again, unfinished := q.unfinished - q.items.length + again.length } := by
  rw [putItems_eq, account.drain_eq.2, List.nil_append]

/-- A flush always finds room. -/
theorem room (ms : Int) {j : Nat} (next : j < (faded ramp ms q.items).length) :
    (((faded ramp ms q.items).take j).foldl putItem q.drain).full = false := by
  have fewer := length_faded_le ramp ms q.items
  have bounded := account.bounded
  rw [account.putBack, full_eq_false, List.length_take]
  omega

theorem flushed (ms : Int) : (q.flushed ramp ms).Account := by
  have fewer := length_faded_le ramp ms q.items
  obtain ⟨out, owes⟩ := account.owes
  obtain ⟨lost, order, none⟩ := owes.order
  rw [PlayoutQueue.flushed, account.putBack]
  refine ⟨Nat.le_trans fewer account.bounded, account.sound,
    q.held ++ lost ++ faded ramp ms q.items, ?_, lost, rfl, none⟩
  rw [List.length_append, owes.count, order, List.length_append, Nat.add_sub_cancel]

end Account

end PlayoutQueue

namespace Feed

/-- What a feed does besides receiving and putting; it joins a queue with `unfinished` frames. -/
inductive Move (unfinished : Nat) (f : Feed) : Feed → Prop
  | fails (ready : f.stage = .receiving []) : Move unfinished f { f with stage := .raised }
  | ends (ready : f.stage = .receiving []) (last : f.lastFrames ≠ []) :
      Move unfinished f { f with stage := .ending f.lastFrames }
  | joins (ready : f.stage = .receiving []) (last : f.lastFrames = []) :
      Move unfinished f { f with stage := Feed.join unfinished }
  | returns (released : f.stage = .joining true) : Move unfinished f { f with stage := .returned }

end Feed

namespace Playout
variable {ramp : Nat → Nat → Frame → Frame} {s s' : Playout} {label : PlayoutStep} {k i : Nat}
  {q : PlayoutQueue}

/-- The queue with a number; one that has not been made yet is empty. -/
def queueAt (s : Playout) (k : Nat) : PlayoutQueue := s.queues[k]?.getD {}

/-- What a section does that neither cancels a feed nor brings it a chunk. -/
inductive Change (s : Playout) : Playout → Prop
  | settings {s' : Playout} (queues : s'.queues = s.queues) (feeds : s'.feeds = s.feeds) :
      Change s s'
  | newQueue {s' : Playout} (queues : s'.queues = s.queues ++ [({} : PlayoutQueue)])
      (feeds : s'.feeds = s.feeds) :
      Change s s'
  | newFeed (primed : Bool) :
      Change s { s with feeds := s.feeds ++ [{ queue := s.queues.length - 1, primed }] }
  | feed {i : Nat} {f f' : Feed} (own : s.feeds[i]? = some f)
      (moves : f.Move (s.queueAt f.queue).unfinished f') : Change s (s.setFeed i f')
  | put {i : Nat} {f : Feed} {q : PlayoutQueue} {frame : Frame} {stage : FeedStage}
      (own : s.feeds[i]? = some f) (queue : s.queues[f.queue]? = some q) (room : q.full = false)
      (puts : f.Puts frame stage) :
      Change s { s.setFeed i (f.afterPut frame stage) with
        queues := s.queues.set f.queue (q.putItem ⟨i, frame⟩) }
  | pump {k : Nat} {q q' : PlayoutQueue} {s' : Playout} (own : s.queues[k]? = some q)
      (moves : q.PumpMove q') (queues : s'.queues = s.queues.set k q')
      (feeds : s'.feeds = s.feeds ∨ s'.feeds = settle s.feeds k q') : Change s s'

abbrev Changes : Playout → Playout → Prop := Relation.ReflTransGen Change

theorem Change.once (change : Change s s') : Changes s s' := Relation.ReflTransGen.single change

/-- What one change keeps, many keep. -/
theorem Changes.keep {P : Playout → Prop} (kept : ∀ {s s'}, P s → Change s s' → P s')
    (changes : Changes s s') (holds : P s) : P s' := by
  induction changes with
  | refl => exact holds
  | tail _ change ih => exact kept ih change

theorem queueAt_of_some (own : s.queues[k]? = some q) : s.queueAt k = q := by
  rw [queueAt, own, Option.getD_some]

theorem queueAt_set {q' : PlayoutQueue} (own : s.queues[k]? = some q)
    (queues : s'.queues = s.queues.set k q') (j : Nat) :
    s'.queueAt j = if j = k then q' else s.queueAt j := by
  have inside : k < s.queues.length := (List.getElem?_eq_some_iff.mp own).1
  unfold queueAt
  rw [queues]
  by_cases same : j = k
  · subst same
    rw [if_pos rfl, List.getElem?_set_self inside, Option.getD_some]
  · rw [if_neg same, List.getElem?_set_ne (Ne.symm same)]

/-- A queue that is made now is as empty as it counted before. -/
theorem queueAt_newQueue (queues : s'.queues = s.queues ++ [({} : PlayoutQueue)]) (j : Nat) :
    s'.queueAt j = s.queueAt j := by
  unfold queueAt
  rw [queues, List.getElem?_append]
  split
  · rfl
  · next beyond =>
      rw [List.getElem?_eq_none (Nat.le_of_not_lt beyond), Option.getD_none]
      cases j - s.queues.length <;> rfl

theorem startOutboundPump_changes (s : Playout) : Changes s s.startOutboundPump := by
  unfold startOutboundPump
  split
  · exact Relation.ReflTransGen.refl
  · exact Change.once (Change.newQueue rfl rfl)

theorem stopOutboundPump_changes (s : Playout) : Changes s s.stopOutboundPump := by
  unfold stopOutboundPump
  split
  · split
    · next own => exact Change.once (Change.pump own .stop rfl (Or.inl rfl))
    · exact Change.once (Change.settings rfl rfl)
  · exact Relation.ReflTransGen.refl

theorem endOfStream_changes {f : Feed} (own : s.feeds[i]? = some f)
    (queue : s.queues[f.queue]? = some q) (ready : f.stage = .receiving []) :
    Changes s (s.endOfStream i f q) := by
  have unfinished : (s.queueAt f.queue).unfinished = q.unfinished := by rw [queueAt_of_some queue]
  by_cases last : f.lastFrames = []
  · simp only [endOfStream, last, List.isEmpty_nil, if_true, ← unfinished]
    exact Change.once (Change.feed own (.joins ready last))
  · simp only [endOfStream, List.isEmpty_iff, last, if_false]
    exact Change.once (Change.feed own (.ends ready last))

theorem cancel_flushes (stepped : step ramp s (.cancel i) = some s') :
    ∃ f, s.feeds[i]? = some f ∧ s' = flush ramp (s.setFeed i { f with stage := .raised }) := by
  cases step_effect stepped with
  | cancel own _ => exact ⟨_, own, rfl⟩

theorem chunk_receives {bytes : List UInt8} (stepped : step ramp s (.chunk i bytes) = some s') :
    ∃ f, s.feeds[i]? = some f ∧ f.stage = .receiving [] ∧ s' = s.setFeed i (f.chunk bytes) := by
  cases step_effect stepped with
  | chunk _ own ready => exact ⟨_, own, ready, rfl⟩

/-- The sections that neither cancel a feed nor bring it a chunk. -/
def isPlain : PlayoutStep → Bool
  | .cancel _ | .chunk _ _ => false
  | _ => true

/-- Every plain section changes feeds and queues step by step. -/
theorem step_changes (plain : isPlain label = true)
    (stepped : step ramp s label = some s') : Changes s s' := by
  cases step_effect stepped with
  | startPump => exact s.startOutboundPump_changes
  | ambientOn _ => exact Relation.ReflTransGen.refl
  | enableAmbient _ => exact s.startOutboundPump_changes.tail (Change.settings rfl rfl)
  | setFadeout ms => exact Change.once (Change.settings rfl rfl)
  | audioOut => exact s.startOutboundPump_changes.tail (Change.newFeed _)
  | chunk _ _ _ | cancel _ _ => simp [isPlain] at plain
  | endOfStream own queue ready => exact endOfStream_changes own queue ready
  | sourceFails own ready => exact Change.once (Change.feed own (.fails ready))
  | put own queue room puts => exact Change.once (Change.put own queue room puts)
  | joinReturns own released => exact Change.once (Change.feed own (.returns released))
  | takes own sleeping front =>
      exact Change.once (Change.pump own (.take sleeping front) rfl (Or.inr rfl))
  | silence own sleeping empty =>
      exact Change.once (Change.pump own (.silence sleeping empty) rfl (Or.inr rfl))
  | pushed own pump =>
      exact Change.once (Change.pump own (.pushed pump (Or.inl rfl)) rfl (Or.inr rfl))
  | notJoined own pump =>
      exact Change.once (Change.pump own (.pushed pump (Or.inr rfl)) rfl (Or.inr rfl))
  | stopPump => exact s.stopOutboundPump_changes

def Accounts (s : Playout) : Prop := ∀ k, (s.queueAt k).Account

theorem Accounts.empty : Accounts {} := fun _ => ⟨Nat.zero_le _, rfl, [], PlayoutQueue.Owes.empty⟩

/-- The call's queue after a flush. -/
theorem flush_queues (ramp : Nat → Nat → Frame → Frame)
    (own : s.queues[s.queues.length - 1]? = some q) : (flush ramp s).queues =
      s.queues.set (s.queues.length - 1) (q.flushed ramp s.bargeInFadeoutMs) := by
  simp only [flush, own, setQueue, List.set_set]
  rfl

namespace Accounts
variable (accounts : s.Accounts)
include accounts

theorem same (queues : s'.queues = s.queues) : s'.Accounts := by
  intro k
  rw [queueAt, queues]
  exact accounts k

theorem set {q' : PlayoutQueue} (own : s.queues[k]? = some q)
    (queues : s'.queues = s.queues.set k q') (kept : q.Account → q'.Account) : s'.Accounts := by
  intro j
  rw [queueAt_set own queues]
  split
  · exact kept (queueAt_of_some own ▸ accounts k)
  · exact accounts j

theorem change (change : Change s s') : s'.Accounts := by
  cases change with
  | settings queues _ => exact accounts.same queues
  | newQueue queues _ => exact fun k => queueAt_newQueue queues k ▸ accounts k
  | newFeed _ | feed _ _ => exact accounts.same rfl
  | put _ queue room _ => exact accounts.set queue rfl fun account => account.put room _
  | pump own moves queues _ => exact accounts.set own queues fun account => account.pump moves

theorem flush : (flush ramp s).Accounts := by
  cases own : s.queues[s.queues.length - 1]? with
  | none =>
      unfold Playout.flush
      rw [own]
      exact accounts
  | some q => exact accounts.set own (flush_queues ramp own) fun account => account.flushed _

theorem step (stepped : step ramp s label = some s') : s'.Accounts := by
  cases label with
  | cancel i =>
      obtain ⟨f, -, rfl⟩ := cancel_flushes stepped
      exact Accounts.flush (accounts.same rfl)
  | chunk i bytes =>
      obtain ⟨f, -, -, rfl⟩ := chunk_receives stepped
      exact accounts.same rfl
  | _ => exact (step_changes rfl stepped).keep Accounts.change accounts

end Accounts

end Playout

namespace Guarantees
open Asyncio Playout PlayoutQueue

/-- In every run, whatever feeds, pumps and cancellations do: nothing is marked done too often, and
while the pump of a queue runs its unfinished frames are those queued and the one the pump holds; a
flush of any length finds room for every frame it puts back; and right after the flush of a
cancellation the call's queue holds the frames that fit into the fade, faded, in order. -/
theorem flush_keeps_accounts (ramp : Nat → Nat → Frame → Frame) (steps : List PlayoutStep)
    (s : Playout) (run : (system ramp).exec {} steps = some s) :
    (∀ (k : Nat) (q : PlayoutQueue), s.queues[k]? = some q → q.overdrawn = false ∧
      (q.pump ≠ .ended → q.unfinished = q.items.length + q.held.length)) ∧
    (∀ (k : Nat) (q : PlayoutQueue) (ms : Int) (j : Nat), s.queues[k]? = some q →
      j < (faded ramp ms q.items).length →
      (((faded ramp ms q.items).take j).foldl putItem q.drain).full = false) ∧
    (∀ (i : Nat) (q : PlayoutQueue) (s' : Playout), s.queues[s.queues.length - 1]? = some q →
      (system ramp).step s (.cancel i) = some s' →
      ∃ q', s'.queues[s.queues.length - 1]? = some q' ∧
        q'.items.map PlayoutItem.frame =
          if s.bargeInFadeoutMs ≤ 0 then []
          else applyFadeout ramp ((q.items.map PlayoutItem.frame).take
            (min (-(-s.bargeInFadeoutMs / 10)).toNat q.items.length))) := by
  have accounts : s.Accounts := System.invariant (J := Accounts) Accounts.step run Accounts.empty
  have account {k : Nat} {q : PlayoutQueue} (own : s.queues[k]? = some q) : q.Account :=
    queueAt_of_some own ▸ accounts k
  refine ⟨?_, ?_, ?_⟩
  · intro k q own
    exact ⟨(account own).sound, (account own).unfinished⟩
  · intro k q ms j own next
    exact (account own).room ms next
  · intro i q s' own stepped
    obtain ⟨f, -, rfl⟩ := cancel_flushes stepped
    -- raising the feed leaves the queues and the setting alone
    have queues := flush_queues (s := s.setFeed i { f with stage := .raised }) ramp own
    refine ⟨q.flushed ramp s.bargeInFadeoutMs, ?_, ?_⟩
    · rw [queues]
      exact (getElem?_set_iff own).mpr (Or.inl ⟨rfl, rfl⟩)
    · rw [flushed, (account own).putBack]
      exact faded_frames ramp _ _

/-- A barge-in while the pump holds the first of two frames: the other one is faded and stays
queued, and both are unfinished. -/
theorem barge_in_fades_queued_frame :
    ∃ s q, (system fun _ _ frame => frame).exec {} [.audioOut, .chunk 0 [1, 0], .endOfStream 0,
      .put 0, .audioOut, .chunk 1 [2, 0], .endOfStream 1, .put 1, .tick 0, .cancel 1] = some s ∧
      s.queues[0]? = some q ∧ q.items.length = 1 ∧ q.unfinished = 1 + q.held.length ∧
      q.overdrawn = false := by
  have final : ((system fun _ _ frame => frame).exec {} [.audioOut, .chunk 0 [1, 0],
      .endOfStream 0, .put 0, .audioOut, .chunk 1 [2, 0], .endOfStream 1, .put 1, .tick 0,
      .cancel 1]).map (fun s => s.queues[0]?.map fun q =>
        (q.items.length, decide (q.pump = .ended))) = some (some (1, false)) := by decide +kernel
  obtain ⟨s, run, queue⟩ := Option.map_eq_some_iff.mp final
  obtain ⟨q, own, shape⟩ := Option.map_eq_some_iff.mp queue
  obtain ⟨queued, running⟩ := Prod.mk.inj shape
  obtain ⟨sound, count⟩ := (flush_keeps_accounts _ _ s run).1 0 q own
  have count := count (of_decide_eq_false running)
  exact ⟨s, q, run, own, queued, queued ▸ count, sound⟩

end Guarantees
end IsalesEngine
