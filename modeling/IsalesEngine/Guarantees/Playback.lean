import IsalesEngine.Realtime.PlayoutEffects

/-!
Playback and its pump. A feed in progress is attended when the pump of its queue
runs; a feed that waits for a slot or for its frames to be marked done is then
served. Attendance is lost in two ways: the pump ends while a feed is in progress,
because the session is left or the pump is stopped, or playback starts while the
pump that ended by itself still stands for the call's pump.
-/
namespace IsalesEngine
namespace Playout
open Asyncio

/-- A pump that has not ended takes frames off queue `k`. -/
def Live (s : Playout) (k : Nat) : Prop := ∃ q, s.queues[k]? = some q ∧ q.pump ≠ .ended

def Attended (s : Playout) : Prop := ∀ f ∈ s.feeds, f.isActive = true → s.Live f.queue

/-- No feed waits on a queue without a running pump. -/
def NeverStuck (s : Playout) : Prop :=
  ∀ (i : Nat) (f : Feed) (q : PlayoutQueue), s.feeds[i]? = some f → s.queues[f.queue]? = some q →
    f.isBlocked q = true → q.pump ≠ .ended

/-- No feed in progress uses queue `k`. -/
def idle (s : Playout) (k : Nat) : Bool := s.feeds.all fun f => !(f.isActive && f.queue == k)

/-- The pump ends only while no feed uses its queue, and playback does not start on a pump that
has ended. -/
def careful (s : Playout) : PlayoutStep → Bool
  | .stopPump => s.outboundPump.all fun k => s.idle k
  | .notJoined k => s.idle k
  | .audioOut => s.outboundPump.all fun k => s.queues[k]?.all fun q => q.pump != .ended
  | _ => true

/-- The pump the call has is the one of its last queue. -/
def Latest (s : Playout) : Prop := ∀ k, s.outboundPump = some k → k + 1 = s.queues.length

variable {s s' : Playout} {f : Feed} {q q' : PlayoutQueue} {k : Nat}

theorem blocked_active (blocked : f.isBlocked q = true) : f.isActive = true := by
  unfold Feed.isBlocked at blocked
  unfold Feed.isActive
  cases stage : f.stage with
  | returned | raised => simp [stage] at blocked
  | _ => rfl

theorem Attended.neverStuck (attended : s.Attended) : s.NeverStuck := by
  intro i f q own queue blocked
  obtain ⟨q', same, alive⟩ := attended f (List.mem_of_getElem? own) (blocked_active blocked)
  obtain rfl := Option.some.inj (queue.symm.trans same)
  exact alive

theorem idle_iff : s.idle k = true ↔ ∀ f ∈ s.feeds, f.isActive = true → f.queue ≠ k := by
  simp only [idle, List.all_eq_true, Bool.not_eq_true', Bool.and_eq_false_iff, beq_eq_false_iff_ne]
  refine forall₂_congr fun f _ => ?_
  cases f.isActive <;> simp

/-- Between two states feeds in progress and running pumps correspond: no feed begins, and no pump
ends. -/
structure Served (s s' : Playout) : Prop where
  feeds : ∀ f' ∈ s'.feeds, f'.isActive = true →
    ∃ f ∈ s.feeds, f.isActive = true ∧ f.queue = f'.queue
  live : ∀ k, s.Live k → s'.Live k
  pump : s'.outboundPump = s.outboundPump
  queues : s'.queues.length = s.queues.length

theorem Attended.served (attended : s.Attended) (served : Served s s') : s'.Attended := by
  intro f' member active
  obtain ⟨f, earlier, inProgress, same⟩ := served.feeds f' member active
  exact same ▸ served.live f.queue (attended f earlier inProgress)

theorem Latest.served (latest : s.Latest) (served : Served s s') : s'.Latest := by
  intro k pump
  rw [served.queues]
  exact latest k (served.pump ▸ pump)

theorem Served.trans {t u : Playout} (first : Served s t) (second : Served t u) : Served s u where
  feeds f'' member active := by
    obtain ⟨f', earlier, inProgress, same⟩ := second.feeds f'' member active
    obtain ⟨f, earliest, begun, same'⟩ := first.feeds f' earlier inProgress
    exact ⟨f, earliest, begun, same'.trans same⟩
  live k alive := second.live k (first.live k alive)
  pump := second.pump.trans first.pump
  queues := second.queues.trans first.queues

/-- A feed moves on. -/
theorem served_setFeed {i : Nat} (f' : Feed) (own : s.feeds[i]? = some f)
    (active : f'.isActive = true → f.isActive = true) (same : f'.queue = f.queue) :
    Served s (s.setFeed i f') := by
  refine ⟨?_, fun _ alive => alive, rfl, rfl⟩
  intro g member inProgress
  obtain earlier | rfl := List.mem_or_eq_of_mem_set member
  · exact ⟨g, earlier, inProgress, rfl⟩
  · exact ⟨f, List.mem_of_getElem? own, active inProgress, same.symm⟩

theorem live_set (own : s.queues[k]? = some q) (runs : q.pump ≠ .ended → q'.pump ≠ .ended) (j : Nat)
    (alive : s.Live j) : ∃ r, (s.queues.set k q')[j]? = some r ∧ r.pump ≠ .ended := by
  obtain ⟨r, queue, running⟩ := alive
  by_cases same : j = k
  · subst same
    obtain rfl := Option.some.inj (own.symm.trans queue)
    exact ⟨q', (getElem?_set_iff own).mpr (Or.inl ⟨rfl, rfl⟩), runs running⟩
  · exact ⟨r, (getElem?_set_iff own).mpr (Or.inr ⟨same, queue⟩), running⟩

/-- A queue changes while its pump runs on. -/
theorem served_queues (own : s.queues[k]? = some q) (runs : q.pump ≠ .ended → q'.pump ≠ .ended) :
    Served s { s with queues := s.queues.set k q' } :=
  ⟨fun f member active => ⟨f, member, active, rfl⟩, live_set own runs, rfl, List.length_set⟩

/-- A feed whose join may return stays active on its queue. -/
theorem settle_map (feeds : List Feed) : ∃ g : Feed → Feed, settle feeds k q = feeds.map g ∧
    ∀ f, f.isActive = (g f).isActive ∧ f.queue = (g f).queue := by
  unfold settle
  split
  · refine ⟨_, rfl, fun f => ?_⟩
    split
    · next released => exact ⟨by simp [Feed.isActive, released.2], rfl⟩
    · exact ⟨rfl, rfl⟩
  · exact ⟨id, (List.map_id _).symm, fun _ => ⟨rfl, rfl⟩⟩

theorem settle_feeds {feeds : List Feed} {f' : Feed} (member : f' ∈ settle feeds k q) :
    ∃ f ∈ feeds, f.isActive = f'.isActive ∧ f.queue = f'.queue := by
  obtain ⟨g, settled, kept⟩ := settle_map (k := k) (q := q) feeds
  rw [settled] at member
  obtain ⟨f, earlier, rfl⟩ := List.mem_map.mp member
  exact ⟨f, earlier, kept f⟩

theorem served_setQueue (own : s.queues[k]? = some q) (runs : q.pump ≠ .ended → q'.pump ≠ .ended) :
    Served s (s.setQueue k q') := by
  refine ⟨?_, live_set own runs, rfl, List.length_set⟩
  intro f' member active
  obtain ⟨f, earlier, same, queue⟩ := settle_feeds member
  exact ⟨f, earlier, same.trans active, queue⟩

theorem taskDone_pump (q : PlayoutQueue) : q.taskDone.pump = q.pump := by
  unfold PlayoutQueue.taskDone
  split <;> rfl

theorem drain_pump (q : PlayoutQueue) : q.drain.pump = q.pump := by
  have folded (items : List PlayoutItem) (q : PlayoutQueue) :
      (items.foldl (fun q _ => q.taskDone) q).pump = q.pump := by
    induction items generalizing q with
    | nil => rfl
    | cons item items ih => exact (ih _).trans (taskDone_pump q)
  exact folded q.items _

theorem putItems_pump (items : List PlayoutItem) (q : PlayoutQueue) :
    (items.foldl PlayoutQueue.putItem q).pump = q.pump := by
  induction items generalizing q with
  | nil => rfl
  | cons item items ih => exact ih _

theorem served_flush (ramp : Nat → Nat → Frame → Frame) (s : Playout) :
    Served s (flush ramp s) := by
  unfold flush
  split
  · next q own =>
      have drained : Served s (s.setQueue (s.queues.length - 1) q.drain) :=
        served_setQueue own fun alive => drain_pump q ▸ alive
      refine drained.trans (served_queues ((getElem?_set_iff own).mpr (Or.inl ⟨rfl, rfl⟩)) ?_)
      rw [putItems_pump]
      exact id
  · exact ⟨fun f member active => ⟨f, member, active, rfl⟩, fun _ alive => alive, rfl, rfl⟩

/-- A feed that puts a frame is in progress. -/
theorem puts_active {frame : Frame} {stage : FeedStage} (puts : f.Puts frame stage) :
    f.isActive = true := by
  cases puts with
  | receiving here | ending here _ | last here => simp [Feed.isActive, here]

/-- The sections in which no pump is made or ends and no feed begins. -/
def isCalm : PlayoutStep → Bool
  | .startPump | .enableAmbient | .audioOut | .notJoined _ | .stopPump => false
  | _ => true

theorem Effect.served {ramp : Nat → Nat → Frame → Frame} {label : PlayoutStep}
    (effect : Effect ramp s label s') (calm : isCalm label = true) : Served s s' := by
  cases effect with
  | startPump | ambientOn _ | enableAmbient _ | audioOut | notJoined _ _ | stopPump =>
      simp [isCalm] at calm
  | setFadeout ms =>
      exact ⟨fun f member active => ⟨f, member, active, rfl⟩, fun _ alive => alive, rfl, rfl⟩
  | chunk _ own stage | sourceFails own stage | endOfStream own _ stage | joinReturns own stage =>
      exact served_setFeed _ own (fun _ => by simp [Feed.isActive, stage]) rfl
  | @put i f q frame stage own queue room puts =>
      have moved := served_setFeed (f.afterPut frame stage) own (fun _ => puts_active puts) rfl
      exact moved.trans (served_queues queue id)
  | @cancel i f own active =>
      have moved := served_setFeed { f with stage := .raised } own (fun _ => active) rfl
      exact moved.trans (served_flush ramp _)
  | takes own _ _ | silence own _ _ | pushed own _ => exact served_setQueue own (fun _ => by simp)

structure Sound (s : Playout) : Prop where
  attended : s.Attended
  latest : s.Latest

theorem settle_covers {feeds : List Feed} (member : f ∈ feeds) :
    ∃ f' ∈ settle feeds k q, f.isActive = f'.isActive ∧ f.queue = f'.queue := by
  obtain ⟨g, settled, kept⟩ := settle_map (k := k) (q := q) feeds
  rw [settled]
  exact ⟨g f, List.mem_map_of_mem member, kept f⟩

section Attendance
variable (sound : s.Sound)
include sound

theorem Sound.served (served : Served s s') : s'.Sound :=
  ⟨sound.attended.served served, sound.latest.served served⟩

theorem Sound.startOutboundPump : s.startOutboundPump.Sound := by
  unfold Playout.startOutboundPump
  cases pump : s.outboundPump with
  | some k => exact sound
  | none =>
      refine ⟨?_, ?_⟩
      · intro f member active
        obtain ⟨q, queue, alive⟩ := sound.attended f member active
        exact ⟨q, getElem?_concat_iff.mpr (Or.inl queue), alive⟩
      · intro k made
        obtain rfl := Option.some.inj made
        simp

/-- The pump a call has after `start_outbound_pump` runs if it ran before or was just made. -/
theorem start_live : careful s .audioOut = true ↔
      s.startOutboundPump.Live (s.startOutboundPump.queues.length - 1) := by
  unfold startOutboundPump
  cases pump : s.outboundPump with
  | some k =>
      have last := sound.latest k pump
      have same : s.queues.length - 1 = k := by omega
      have queue : s.queues[k]? = some s.queues[k] := List.getElem?_eq_getElem (by omega)
      simp [careful, pump, Live, same, queue]
  | none => simp [careful, pump, Live]

theorem audioOut_attended : careful s .audioOut = true ↔ s.audioOut.Attended := by
  rw [start_live sound]
  constructor
  · intro live f member active
    obtain earlier | new := List.mem_append.mp member
    · exact sound.startOutboundPump.attended f earlier active
    · obtain rfl := List.mem_singleton.mp new
      exact live
  · intro attended
    exact attended _ (List.mem_append_right _ (List.mem_singleton.mpr rfl)) rfl

/-- Ending a pump keeps attendance if and only if no feed in progress uses its queue. -/
theorem ended_attended (own : s.queues[k]? = some q) (ended : q'.pump = .ended)
    (queues : s'.queues = s.queues.set k q')
    (after : ∀ f' ∈ s'.feeds, ∃ f ∈ s.feeds, f.isActive = f'.isActive ∧ f.queue = f'.queue)
    (before : ∀ f ∈ s.feeds, ∃ f' ∈ s'.feeds, f.isActive = f'.isActive ∧ f.queue = f'.queue) :
    s.idle k = true ↔ s'.Attended := by
  rw [idle_iff]
  constructor
  · intro unused f' member active
    obtain ⟨f, earlier, same, queue⟩ := after f' member
    have active := same.trans active
    obtain ⟨r, held, alive⟩ := sound.attended f earlier active
    have other := unused f earlier active
    rw [← queue]
    refine ⟨r, ?_, alive⟩
    rw [queues]
    exact (getElem?_set_iff own).mpr (Or.inr ⟨other, held⟩)
  · intro attended f member active used
    obtain ⟨f', later, same, queue⟩ := before f member
    obtain ⟨r, held, alive⟩ := attended f' later (same.symm.trans active)
    rw [queues, ← queue, used] at held
    obtain ⟨_, rfl⟩ | ⟨other, _⟩ := (getElem?_set_iff own).mp held
    · exact alive ended
    · exact other rfl

theorem endedPump_attended (own : s.queues[k]? = some q) (ended : q'.pump = .ended) :
    (s.idle k = true ↔ (s.setQueue k q').Attended) ∧ (s.setQueue k q').Latest := by
  refine ⟨ended_attended sound own ended rfl (fun _ => settle_feeds) (fun _ => settle_covers), ?_⟩
  intro j held
  exact (sound.latest j held).trans List.length_set.symm

theorem stopPump_attended :
    (careful s .stopPump = true ↔ s.stopOutboundPump.Attended) ∧ s.stopOutboundPump.Latest := by
  unfold stopOutboundPump
  cases pump : s.outboundPump with
  | none =>
      simp only [careful, pump, Option.all_none, true_iff]
      exact ⟨sound.attended, sound.latest⟩
  | some k =>
      have last := sound.latest k pump
      have queue : s.queues[k]? = some s.queues[k] := List.getElem?_eq_getElem (by omega)
      simp only [careful, pump, Option.all_some, queue]
      refine ⟨ended_attended sound queue rfl rfl ?_ ?_, nofun⟩
      · exact fun f member => ⟨f, member, rfl, rfl⟩
      · exact fun f member => ⟨f, member, rfl, rfl⟩

theorem step_attended {ramp : Nat → Nat → Frame → Frame} {label : PlayoutStep}
    (stepped : step ramp s label = some s') :
    (careful s label = true ↔ s'.Attended) ∧ s'.Latest := by
  have effect := step_effect stepped
  by_cases calm : isCalm label = true
  · have served := sound.served (effect.served calm)
    have free : careful s label = true := by cases label <;> first | rfl | cases calm
    exact ⟨⟨fun _ => served.attended, fun _ => free⟩, served.latest⟩
  · cases effect with
    | startPump | enableAmbient _ =>
        have started := sound.startOutboundPump
        exact ⟨⟨fun _ => started.attended, fun _ => rfl⟩, started.latest⟩
    | ambientOn _ => exact ⟨⟨fun _ => sound.attended, fun _ => rfl⟩, sound.latest⟩
    | audioOut => exact ⟨audioOut_attended sound, sound.startOutboundPump.latest⟩
    | notJoined own pump => exact endedPump_attended sound own rfl
    | stopPump => exact stopPump_attended sound
    | _ => exact absurd rfl calm

end Attendance

end Playout

namespace Guarantees
open Asyncio Playout

/-- In a run in which pumps end only while no feed uses their queue, and playback does not start on
a pump that has ended, no feed ever waits without a running pump. These are exactly the runs in
which every feed in progress has a running pump throughout. -/
theorem playback_attended_iff (ramp : Nat → Nat → Frame → Frame) (steps : List PlayoutStep)
    (s : Playout) (run : (system ramp).exec {} steps = some s) :
    (((system ramp).restrict careful).exec {} steps = some s ↔
      ∀ before t, before <+: steps → (system ramp).exec {} before = some t → t.Attended) ∧
    (((system ramp).restrict careful).exec {} steps = some s →
      ∀ before t, before <+: steps → (system ramp).exec {} before = some t → t.NeverStuck) := by
  have sound : Sound {} := ⟨nofun, nofun⟩
  have exact_iff := System.exec_restrict_iff (J := Sound) (P := Attended)
    (fun sound allowed stepped =>
      ⟨(step_attended sound stepped).1.mp allowed, (step_attended sound stepped).2⟩)
    (fun sound stepped => (step_attended sound stepped).1) sound sound.attended run
  refine ⟨exact_iff, ?_⟩
  intro restricted before t initial reached
  exact (exact_iff.mp restricted before t initial reached).neverStuck

/-- One frame of speech is fed, pushed and marked done; then the pump is stopped. -/
theorem frame_played_then_stopped :
    ∃ s, (system fun _ _ frame => frame).exec {} [.audioOut, .chunk 0 [1, 0], .endOfStream 0,
      .put 0, .tick 0, .pushed 0, .joinReturns 0, .stopPump] = some s ∧ s.NeverStuck ∧
      s.feeds.map (fun f => f.stage) = [.returned] := by
  refine exists_of_map (fun s => s.feeds.map fun f => f.stage) [.returned] (by decide)
    fun s run returned => ?_
  have allowed := System.restrict_exec careful run (by decide)
  have never := (playback_attended_iff _ _ s run).2 allowed _ s List.prefix_rfl run
  exact ⟨never, returned⟩

/-- A hangup stops the pump in the middle of a push: the frame is never marked done and the feed
waits in `join` on a queue that nothing serves. The same happens to playback that starts after the
pump has left its loop because the session was not joined. -/
theorem stopped_pump_leaves_feed :
    (∃ s, (system fun _ _ frame => frame).exec {} [.audioOut, .chunk 0 [1, 0], .endOfStream 0,
      .put 0, .tick 0, .stopPump] = some s ∧ ¬ s.NeverStuck) ∧
    (∃ s, (system fun _ _ frame => frame).exec {} [.startPump, .tick 0, .notJoined 0, .audioOut,
      .chunk 0 [1, 0], .endOfStream 0, .put 0] = some s ∧ ¬ s.NeverStuck) :=
  ⟨⟨_, rfl, fun never => never 0 _ _ rfl rfl rfl rfl⟩,
    ⟨_, rfl, fun never => never 0 _ _ rfl rfl rfl rfl⟩⟩

end Guarantees
end IsalesEngine
