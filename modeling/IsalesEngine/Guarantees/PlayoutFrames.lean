import IsalesEngine.Framing
import IsalesEngine.Guarantees.PlayoutFlush

/-!
What a feed puts on its queue. Between chunks a feed keeps less than a frame and a
cushion of whole frames; put together with these, the frames it has put are what it
has received. At the end of the stream the rest is padded, so the frames put are
the padded stream cut into frames. The frames marked done and those still owed are,
feed by feed, the frames put, and a feed leaves `join` only when nothing is owed.
-/
namespace IsalesEngine
open Asyncio

namespace Feed
variable {f f' : Feed}

theorem frameBytes_pos : 0 < frameBytes := by decide

theorem frames_eq (buf : List UInt8) : frames buf = Framing.cut frameBytes buf := rfl

theorem rest_eq (buf : List UInt8) : rest buf = Framing.rest frameBytes buf := rfl

/-- The stream filled up with silence to whole frames. -/
def zeroPadded (pcm : List UInt8) : List UInt8 := Framing.pad frameBytes 0 pcm

/-- The frames at hand that are still to be put. -/
def toPut (f : Feed) : List Frame :=
  match f.stage with
  | .receiving toPut | .ending toPut => toPut
  | _ => []

/-- `join` was left, or is about to be. -/
def isSettled (f : Feed) : Bool :=
  match f.stage with
  | .joining true | .returned => true
  | _ => false

/-- What the frames put and kept back make up, at each stage. -/
def Preserves (f : Feed) : Prop :=
  match f.stage with
  | .receiving toPut => (f.put ++ toPut ++ f.cushion).flatten ++ f.leftover = f.received
  | .ending toPut => (f.put ++ toPut).flatten = zeroPadded f.received
  | .joining _ | .returned => f.put.flatten = zeroPadded f.received
  | .raised => f.put.flatten <+: f.received

structure Framed (f : Feed) : Prop where
  whole : Framing.Whole frameBytes (f.put ++ f.toPut ++ f.cushion)
  short : f.leftover.length < frameBytes
  primed : f.primed = true → f.cushion = []
  preserves : f.Preserves

theorem Framed.new (queue : Nat) (primed : Bool) : Framed { queue, primed } :=
  ⟨nofun, frameBytes_pos, fun _ => rfl, rfl⟩

/-- The cushion is released in front of the frames that come after it. -/
theorem release_spec (frames cushion : List Frame) (primed : Bool)
    (empty : primed = true → cushion = []) :
    (release frames cushion primed).1 ++ (release frames cushion primed).2.1 = cushion ++ frames ∧
      ((release frames cushion primed).2.2 = true → (release frames cushion primed).2.1 = []) := by
  induction frames, cushion, primed using release.induct with
  | case1 cushion primed => exact ⟨(List.append_nil _).symm, empty⟩
  | case2 frame frames cushion toPut rest released ih =>
      obtain rfl := empty rfl
      obtain ⟨order, kept⟩ := ih fun _ => rfl
      exact ⟨congrArg (frame :: ·) order, kept⟩
  | case3 frame frames cushion enough toPut rest released ih =>
      obtain ⟨order, kept⟩ := ih fun _ => rfl
      rw [release, if_pos enough]
      refine ⟨?_, kept⟩
      rw [List.append_assoc, order, List.nil_append, List.append_assoc]
      rfl
  | case4 frame frames cushion few ih =>
      obtain ⟨order, kept⟩ := ih nofun
      rw [release, if_neg few]
      refine ⟨?_, kept⟩
      rw [order, List.append_assoc]
      rfl

/-- A padded rest completes the frames in front of it. -/
theorem flatten_padded {frames : List Frame} {leftover : List UInt8}
    (whole : Framing.Whole frameBytes frames) (short : leftover.length < frameBytes) :
    (frames ++ padded leftover).flatten = zeroPadded (frames.flatten ++ leftover) := by
  rw [zeroPadded, Framing.pad_flatten_append 0 whole, List.flatten_append]
  congr 1
  cases leftover with
  | nil => rfl
  | cons byte leftover =>
      have positive : 0 < (byte :: leftover).length := Nat.zero_lt_succ _
      have missing : frameBytes - (byte :: leftover).length < frameBytes := by omega
      rw [Framing.pad, Nat.mod_eq_of_lt short, Nat.mod_eq_of_lt missing]
      exact List.append_nil _

theorem whole_padded {leftover : List UInt8} (short : leftover.length < frameBytes) :
    Framing.Whole frameBytes (padded leftover) := by
  intro frame member
  unfold padded at member
  split at member
  · exact absurd member List.not_mem_nil
  · obtain rfl := List.mem_singleton.mp member
    rw [List.length_append, List.length_replicate]
    omega

/-- All frames have been put. -/
def isJoined (f : Feed) : Bool :=
  match f.stage with
  | .joining _ | .returned => true
  | _ => false

namespace Framed
variable (framed : f.Framed)
include framed

theorem chunk (ready : f.stage = .receiving []) (bytes : List UInt8) : (f.chunk bytes).Framed := by
  obtain ⟨whole, short, primed, preserves⟩ := framed
  obtain ⟨order, kept⟩ := release_spec (frames (f.leftover ++ bytes)) f.cushion f.primed primed
  simp only [toPut, ready, List.append_nil] at whole
  simp only [Preserves, ready, List.append_nil] at preserves
  refine ⟨?_, Framing.length_rest_lt frameBytes_pos _, kept, ?_⟩
  · have cut := whole.append (Framing.whole_cut frameBytes_pos (f.leftover ++ bytes))
    rw [← frames_eq, List.append_assoc, ← order, ← List.append_assoc] at cut
    exact cut
  · have bytes_kept := Framing.flatten_cut_append_rest frameBytes_pos (f.leftover ++ bytes)
    have received : (f.put ++ (f.cushion ++ frames (f.leftover ++ bytes))).flatten ++
        rest (f.leftover ++ bytes) = f.received ++ bytes := by
      rw [← List.append_assoc, List.flatten_append, List.append_assoc, frames_eq, rest_eq,
        bytes_kept, ← List.append_assoc, preserves]
    rw [← order, ← List.append_assoc] at received
    exact received

/-- With the last frames the stream is complete. -/
theorem complete (ready : f.stage = .receiving []) :
    Framing.Whole frameBytes (f.put ++ f.lastFrames) ∧
      (f.put ++ f.lastFrames).flatten = zeroPadded f.received := by
  obtain ⟨whole, short, _, preserves⟩ := framed
  simp only [toPut, ready, List.append_nil] at whole
  simp only [Preserves, ready, List.append_nil] at preserves
  rw [lastFrames, ← List.append_assoc]
  refine ⟨whole.append (whole_padded short), ?_⟩
  rw [flatten_padded whole short, preserves]

theorem move {unfinished : Nat} (moves : f.Move unfinished f') : f'.Framed := by
  have whole := framed.whole
  have preserves := framed.preserves
  have cushion : Framing.Whole frameBytes f.cushion :=
    fun frame member => whole frame (List.mem_append_right _ member)
  cases moves with
  | fails ready =>
      simp only [toPut, ready] at whole
      simp only [Preserves, ready, List.append_nil] at preserves
      rw [List.flatten_append, List.append_assoc] at preserves
      exact ⟨whole, framed.short, framed.primed, _, preserves⟩
  | ends ready _ =>
      obtain ⟨lasts, complete⟩ := framed.complete ready
      exact ⟨lasts.append cushion, framed.short, framed.primed, complete⟩
  | joins ready last =>
      obtain ⟨lasts, complete⟩ := framed.complete ready
      rw [last, List.append_nil] at lasts complete
      refine ⟨?_, framed.short, framed.primed, complete⟩
      simpa [toPut, join] using lasts.append cushion
  | returns released =>
      simp only [toPut, released] at whole
      simp only [Preserves, released] at preserves
      exact ⟨whole, framed.short, framed.primed, preserves⟩

theorem put {frame : Frame} {stage : FeedStage} (puts : f.Puts frame stage) :
    (f.afterPut frame stage).Framed := by
  obtain ⟨whole, short, primed, preserves⟩ := framed
  cases puts with
  | receiving here | ending here _ | last here =>
      simp only [Feed.toPut, here] at whole
      simp only [Preserves, here] at preserves
      exact ⟨by simpa [Feed.toPut, afterPut] using whole, short, primed,
        by simpa [Preserves, afterPut] using preserves⟩

/-- A join that is released. -/
theorem released (waits : f.stage = .joining false) : Framed { f with stage := .joining true } := by
  have whole := framed.whole
  have preserves := framed.preserves
  simp only [toPut, waits] at whole
  simp only [Preserves, waits] at preserves
  exact ⟨whole, framed.short, framed.primed, preserves⟩

theorem flatten_put : f.put.flatten <+: zeroPadded f.received := by
  have preserves := framed.preserves
  have padding : f.received <+: zeroPadded f.received := List.prefix_append _ _
  unfold Preserves at preserves
  split at preserves
  · rw [List.append_assoc, List.flatten_append, List.append_assoc] at preserves
    exact List.IsPrefix.trans ⟨_, preserves⟩ padding
  · rw [List.flatten_append] at preserves
    exact ⟨_, preserves⟩
  · exact preserves ▸ List.prefix_rfl
  · exact preserves ▸ List.prefix_rfl
  · exact preserves.trans padding

theorem put_whole : Framing.Whole frameBytes f.put :=
  fun frame member =>
    framed.whole frame (List.mem_append_left _ (List.mem_append_left _ member))

theorem joined (joined : f.isJoined = true) :
    f.put.flatten = zeroPadded f.received ∧ f.put = frames (zeroPadded f.received) := by
  have bytes : f.put.flatten = zeroPadded f.received := by
    have preserves := framed.preserves
    unfold isJoined at joined
    unfold Preserves at preserves
    split at joined
    · next stage => simpa only [stage] using preserves
    · next stage => simpa only [stage] using preserves
    · contradiction
  refine ⟨bytes, ?_⟩
  rw [frames_eq, ← bytes, Framing.cut_flatten frameBytes_pos framed.put_whole]

end Framed

end Feed

namespace Playout
variable {ramp : Nat → Nat → Frame → Frame} {s s' : Playout} {label : PlayoutStep}
variable {i k : Nat} {f f' : Feed} {out out' : List PlayoutItem} {q : PlayoutQueue}
  {stage : FeedStage}

/-- The frames of feed `i`, in order. -/
def framesOf (i : Nat) (items : List PlayoutItem) : List Frame :=
  (items.filter fun item => item.feed = i).map PlayoutItem.frame

theorem framesOf_append (i : Nat) (items more : List PlayoutItem) :
    framesOf i (items ++ more) = framesOf i items ++ framesOf i more := by
  rw [framesOf, List.filter_append, List.map_append]
  rfl

theorem framesOf_eq_nil {items : List PlayoutItem} :
    framesOf i items = [] ↔ ∀ item ∈ items, item.feed ≠ i := by
  simp [framesOf]

/-- What queue `k` has seen of its feeds: the frames of each that are marked or owed are those it
has put, and nothing is owed to a feed that has left `join`. -/
structure Ledger (s : Playout) (k : Nat) (out : List PlayoutItem) : Prop where
  owes : (s.queueAt k).Owes out
  known : ∀ item ∈ (s.queueAt k).marked ++ out, item.feed < s.feeds.length
  put : ∀ (i : Nat) (f : Feed), s.feeds[i]? = some f → f.queue = k →
    framesOf i ((s.queueAt k).marked ++ out) = f.put
  settled : ∀ (i : Nat) (f : Feed), s.feeds[i]? = some f → f.queue = k → f.isSettled = true →
    framesOf i out = []

/-- The feeds go on and put nothing, and leave `join` only when nothing is unfinished. -/
structure Carried (s s' : Playout) : Prop where
  length : s'.feeds.length = s.feeds.length
  feed : ∀ (i : Nat) (f' : Feed), s'.feeds[i]? = some f' →
    ∃ f, s.feeds[i]? = some f ∧ f'.queue = f.queue ∧ f'.put = f.put ∧
      (f'.isSettled = true → f.isSettled = true ∨ (s'.queueAt f.queue).unfinished = 0)

theorem Ledger.carried (ledger : Ledger s k out) (carried : Carried s s')
    (serves : (s.queueAt k).Serves (s'.queueAt k) out out') : Ledger s' k out' := by
  obtain ⟨owes, known, put, settled⟩ := ledger
  refine ⟨serves.owes, ?_, ?_, ?_⟩
  · rw [serves.accounted, carried.length]
    exact known
  · intro i f' own queue
    obtain ⟨f, before, sameQueue, samePut, -⟩ := carried.feed i f' own
    rw [serves.accounted, samePut]
    exact put i f before (sameQueue.symm.trans queue)
  · intro i f' own queue done
    obtain ⟨f, before, sameQueue, -, leaves⟩ := carried.feed i f' own
    have onQueue : f.queue = k := sameQueue.symm.trans queue
    obtain earlier | finished := leaves done
    · have none := framesOf_eq_nil.mp (settled i f before onQueue earlier)
      exact framesOf_eq_nil.mpr fun item member => none item (serves.fewer.subset member)
    · rw [onQueue, serves.owes.count, List.length_eq_zero_iff] at finished
      rw [finished]
      rfl

/-- Feeds are cut properly and every queue has its ledger. -/
structure Kept (s : Playout) : Prop where
  framed : ∀ (i : Nat) (f : Feed), s.feeds[i]? = some f → f.Framed
  ledgers : ∀ k, ∃ out, Ledger s k out

theorem Kept.empty : Kept {} := ⟨nofun, fun _ => ⟨[], PlayoutQueue.Owes.empty, nofun, nofun, nofun⟩⟩

/-- Feeds go on while every queue stays as it is. -/
theorem Ledger.unserved (ledger : Ledger s k out) (carried : Carried s s')
    (same : s'.queueAt k = s.queueAt k) : Ledger s' k out := by
  refine ledger.carried carried ?_
  rw [same]
  exact ⟨ledger.owes, rfl, List.suffix_rfl, Nat.le_refl _, rfl⟩

theorem Carried.same (feeds : s'.feeds = s.feeds) : Carried s s' := by
  refine ⟨congrArg List.length feeds, fun i f' own => ⟨f', feeds ▸ own, rfl, rfl, Or.inl⟩⟩

theorem Carried.setFeed (own : s.feeds[i]? = some f) (queue : f'.queue = f.queue)
    (put : f'.put = f.put)
    (leaves : f'.isSettled = true → f.isSettled = true ∨ (s.queueAt f.queue).unfinished = 0) :
    Carried s (s.setFeed i f') := by
  refine ⟨List.length_set, fun j g' after => ?_⟩
  obtain ⟨rfl, rfl⟩ | ⟨-, other⟩ := (getElem?_set_iff own).mp after
  · exact ⟨f, own, queue, put, leaves⟩
  · exact ⟨g', other, rfl, rfl, Or.inl⟩

/-- A feed puts a frame: it is owed now, behind everything else. -/
theorem Ledger.frame {frame : Frame} (ledger : Ledger s f.queue out) (own : s.feeds[i]? = some f)
    (queue : s.queues[f.queue]? = some q) (unsettled : (f.afterPut frame stage).isSettled = false)
    (queues : s'.queues = s.queues.set f.queue (q.putItem ⟨i, frame⟩))
    (feeds : s'.feeds = s.feeds.set i (f.afterPut frame stage)) :
    Ledger s' f.queue (out ++ [⟨i, frame⟩]) := by
  obtain ⟨owes, known, put, settled⟩ := ledger
  have after : s'.queueAt f.queue = q.putItem ⟨i, frame⟩ := by
    rw [queueAt_set queue queues, if_pos rfl]
  have inside : i < s.feeds.length := (List.getElem?_eq_some_iff.mp own).1
  -- the pump has marked nothing meanwhile
  have marked : (s'.queueAt f.queue).marked = q.marked := by rw [after]; rfl
  rw [queueAt_of_some queue] at owes known put
  refine ⟨after ▸ owes.put _, ?_, ?_, ?_⟩
  · rw [marked, ← List.append_assoc, feeds, List.length_set]
    intro item member
    obtain earlier | new := List.mem_append.mp member
    · exact known item earlier
    · rw [List.mem_singleton.mp new]
      exact inside
  · rw [feeds, marked, ← List.append_assoc]
    intro j g present onQueue
    rw [framesOf_append]
    obtain ⟨rfl, rfl⟩ | ⟨other, before⟩ := (getElem?_set_iff own).mp present
    · rw [put j f own rfl]
      simp [framesOf, Feed.afterPut]
    · rw [put j g before onQueue]
      simp [framesOf, Ne.symm other]
  · rw [feeds]
    intro j g present onQueue done
    obtain ⟨rfl, rfl⟩ | ⟨other, before⟩ := (getElem?_set_iff own).mp present
    · rw [unsettled] at done
      contradiction
    · rw [framesOf_append, settled j g before onQueue done]
      simp [framesOf, Ne.symm other]

/-- The other queues hear nothing of it. -/
theorem Ledger.elsewhere (ledger : Ledger s k out) (own : s.feeds[i]? = some f)
    (other : f'.queue ≠ k) (same : s'.queueAt k = s.queueAt k)
    (feeds : s'.feeds = s.feeds.set i f') : Ledger s' k out := by
  obtain ⟨owes, known, put, settled⟩ := ledger
  have before {j : Nat} {g : Feed} (present : s'.feeds[j]? = some g) (onQueue : g.queue = k) :
      s.feeds[j]? = some g := by
    rw [feeds] at present
    obtain ⟨-, rfl⟩ | ⟨-, before⟩ := (getElem?_set_iff own).mp present
    · exact absurd onQueue other
    · exact before
  refine ⟨same ▸ owes, ?_, ?_, ?_⟩
  · rw [same, feeds, List.length_set]
    exact known
  · intro j g present onQueue
    rw [same]
    exact put j g (before present onQueue) onQueue
  · intro j g present onQueue done
    exact settled j g (before present onQueue) onQueue done

/-- A feed behind `settle`: it is the same, or its join was released. -/
theorem getElem?_settle {feeds : List Feed} (present : (settle feeds k q)[i]? = some f') :
    ∃ f, feeds[i]? = some f ∧ (f' = f ∨ q.unfinished = 0 ∧ f.queue = k ∧
      f.stage = .joining false ∧ f' = { f with stage := .joining true }) := by
  unfold settle at present
  by_cases finished : q.unfinished = 0
  · rw [if_pos finished, List.getElem?_map] at present
    obtain ⟨f, before, rfl⟩ := Option.map_eq_some_iff.mp present
    refine ⟨f, before, ?_⟩
    by_cases waits : f.queue = k ∧ f.stage = .joining false
    · rw [if_pos waits]
      exact Or.inr ⟨finished, waits.1, waits.2, rfl⟩
    · rw [if_neg waits]
      exact Or.inl rfl
  · rw [if_neg finished] at present
    exact ⟨f', present, Or.inl rfl⟩

theorem length_settle (feeds : List Feed) (k : Nat) (q : PlayoutQueue) :
    (settle feeds k q).length = feeds.length := by
  unfold settle
  split
  · rw [List.length_map]
  · rfl

/-- No feed is cancelled. -/
def uncancelled (_ : Playout) : PlayoutStep → Bool
  | .cancel _ => false
  | _ => true

namespace Kept
variable (kept : s.Kept)
include kept

theorem setFeed (own : s.feeds[i]? = some f) (carried : Carried s (s.setFeed i f'))
    (framed : f'.Framed) : (s.setFeed i f').Kept := by
  refine ⟨fun j g after => ?_, fun k => ?_⟩
  · obtain ⟨rfl, rfl⟩ | ⟨-, other⟩ := (getElem?_set_iff own).mp after
    · exact framed
    · exact kept.framed j g other
  · obtain ⟨out, ledger⟩ := kept.ledgers k
    exact ⟨out, ledger.unserved carried rfl⟩

theorem same (queues : ∀ k, s'.queueAt k = s.queueAt k) (feeds : s'.feeds = s.feeds) : s'.Kept := by
  refine ⟨feeds ▸ kept.framed, fun k => ?_⟩
  obtain ⟨out, ledger⟩ := kept.ledgers k
  exact ⟨out, ledger.unserved (Carried.same feeds) (queues k)⟩

theorem newFeed (queue : Nat) (primed : Bool) :
    Kept { s with feeds := s.feeds ++ [{ queue, primed }] } := by
  refine ⟨fun i f own => ?_, fun k => ?_⟩
  · obtain before | ⟨-, rfl⟩ := getElem?_concat_iff.mp own
    · exact kept.framed i f before
    · exact Feed.Framed.new queue primed
  · obtain ⟨out, owes, known, put, settled⟩ := kept.ledgers k
    refine ⟨out, owes, ?_, ?_, ?_⟩
    · intro item member
      rw [List.length_append]
      exact Nat.lt_add_right 1 (known item member)
    · intro i f own onQueue
      obtain before | ⟨rfl, rfl⟩ := getElem?_concat_iff.mp own
      · exact put i f before onQueue
      · exact framesOf_eq_nil.mpr fun item member => Nat.ne_of_lt (known item member)
    · intro i f own onQueue done
      obtain before | ⟨-, rfl⟩ := getElem?_concat_iff.mp own
      · exact settled i f before onQueue done
      · contradiction

theorem move {unfinished : Nat} (own : s.feeds[i]? = some f)
    (count : (s.queueAt f.queue).unfinished = unfinished) (moves : f.Move unfinished f') :
    (s.setFeed i f').Kept := by
  have framed := (kept.framed i f own).move moves
  cases moves with
  | fails _ | ends _ _ => exact kept.setFeed own (Carried.setFeed own rfl rfl nofun) framed
  | joins _ _ =>
      refine kept.setFeed own (Carried.setFeed own rfl rfl fun done => Or.inr ?_) framed
      rw [count]
      by_contra some
      simp [Feed.isSettled, Feed.join, some] at done
  | returns released =>
      refine kept.setFeed own (Carried.setFeed own rfl rfl fun _ => Or.inl ?_) framed
      simp [Feed.isSettled, released]

theorem put {frame : Frame} (own : s.feeds[i]? = some f) (queue : s.queues[f.queue]? = some q)
    (puts : f.Puts frame stage) (queues : s'.queues = s.queues.set f.queue (q.putItem ⟨i, frame⟩))
    (feeds : s'.feeds = s.feeds.set i (f.afterPut frame stage)) : s'.Kept := by
  refine ⟨?_, fun k => ?_⟩
  · rw [feeds]
    intro j g present
    obtain ⟨rfl, rfl⟩ | ⟨-, before⟩ := (getElem?_set_iff own).mp present
    · exact (kept.framed j f own).put puts
    · exact kept.framed j g before
  · obtain ⟨out, ledger⟩ := kept.ledgers k
    by_cases here : f.queue = k
    · subst here
      have unsettled : (f.afterPut frame stage).isSettled = false := by cases puts <;> rfl
      exact ⟨_, ledger.frame own queue unsettled queues feeds⟩
    · have same : s'.queueAt k = s.queueAt k := by
        rw [queueAt_set queue queues, if_neg (Ne.symm here)]
      have other : (f.afterPut frame stage).queue ≠ k := here
      exact ⟨out, ledger.elsewhere own other same feeds⟩

theorem pump {q' : PlayoutQueue} (own : s.queues[k]? = some q) (moves : q.PumpMove q')
    (queues : s'.queues = s.queues.set k q')
    (feeds : s'.feeds = s.feeds ∨ s'.feeds = settle s.feeds k q') : s'.Kept := by
  have after := queueAt_set own queues
  have carried : Carried s s' := by
    obtain same | settles := feeds
    · exact Carried.same same
    · refine ⟨settles ▸ length_settle _ _ _, fun i f' present => ?_⟩
      rw [settles] at present
      obtain ⟨f, before, rfl | ⟨finished, rfl, -, rfl⟩⟩ := getElem?_settle present
      · exact ⟨f', before, rfl, rfl, Or.inl⟩
      · refine ⟨f, before, rfl, rfl, fun _ => Or.inr ?_⟩
        rw [after, if_pos rfl]
        exact finished
  refine ⟨fun i f' present => ?_, fun j => ?_⟩
  · obtain same | settles := feeds
    · exact kept.framed i f' (same ▸ present)
    · rw [settles] at present
      obtain ⟨f, before, rfl | ⟨-, -, waits, rfl⟩⟩ := getElem?_settle present
      · exact kept.framed i f' before
      · exact (kept.framed i f before).released waits
  · obtain ⟨out, ledger⟩ := kept.ledgers j
    by_cases here : j = k
    · subst here
      have owes := queueAt_of_some own ▸ ledger.owes
      obtain ⟨out', serves⟩ := moves.serves owes
      refine ⟨out', ledger.carried carried ?_⟩
      rw [after, if_pos rfl, queueAt_of_some own]
      exact serves
    · exact ⟨out, ledger.unserved carried ((after j).trans (if_neg here))⟩

theorem change (change : Change s s') : s'.Kept := by
  cases change with
  | settings queues feeds => exact kept.same (fun k => by rw [queueAt, queues]; rfl) feeds
  | newQueue queues feeds => exact kept.same (queueAt_newQueue queues) feeds
  | newFeed primed => exact kept.newFeed _ primed
  | feed own moves => exact kept.move own rfl moves
  | put own queue _ puts => exact kept.put own queue puts rfl rfl
  | pump own moves queues feeds => exact kept.pump own moves queues feeds

theorem step (allowed : uncancelled s label = true) (stepped : step ramp s label = some s') :
    s'.Kept := by
  cases label with
  | cancel _ => contradiction
  | chunk i bytes =>
      obtain ⟨f, own, ready, rfl⟩ := chunk_receives stepped
      have framed := (kept.framed i f own).chunk ready bytes
      exact kept.setFeed own (Carried.setFeed own rfl rfl nofun) framed
  | _ => exact (step_changes rfl stepped).keep Kept.change kept

end Kept

/-- What feed `i` has received; nothing before it begins. -/
def receivedAt (s : Playout) (i : Nat) : List UInt8 := (s.feeds[i]?.map Feed.received).getD []

/-- The bytes a section brings to feed `i`. -/
def bytesFor (i : Nat) : PlayoutStep → List UInt8
  | .chunk j bytes => if j = i then bytes else []
  | _ => []

theorem receivedAt_of_some (own : s.feeds[i]? = some f) : s.receivedAt i = f.received := by
  rw [receivedAt, own]
  rfl

theorem receivedAt_set (own : s.feeds[i]? = some f) (feeds : s'.feeds = s.feeds.set i f')
    (j : Nat) : s'.receivedAt j = if j = i then f'.received else s.receivedAt j := by
  have inside : i < s.feeds.length := (List.getElem?_eq_some_iff.mp own).1
  unfold receivedAt
  rw [feeds]
  by_cases same : j = i
  · subst same
    rw [if_pos rfl, List.getElem?_set_self inside]
    rfl
  · rw [if_neg same, List.getElem?_set_ne (Ne.symm same)]

/-- A feed that goes on has received what it had. -/
theorem receivedAt_kept (f' : Feed) (own : s.feeds[i]? = some f)
    (feeds : s'.feeds = s.feeds.set i f') (same : f'.received = f.received) (j : Nat) :
    s'.receivedAt j = s.receivedAt j := by
  rw [receivedAt_set own feeds]
  split
  · next here => rw [same, here, receivedAt_of_some own]
  · rfl

theorem receivedAt_settle (feeds : s'.feeds = settle s.feeds k q) (i : Nat) :
    s'.receivedAt i = s.receivedAt i := by
  have lengths := length_settle s.feeds k q
  cases present : s'.feeds[i]? with
  | none =>
      have absent : s.feeds[i]? = none := by
        rw [List.getElem?_eq_none_iff, feeds, lengths] at present
        exact List.getElem?_eq_none_iff.mpr present
      rw [receivedAt, receivedAt, present, absent]
  | some f' =>
      rw [feeds] at present
      obtain ⟨f, before, rfl | ⟨-, -, -, rfl⟩⟩ := getElem?_settle present
      · rw [receivedAt_of_some (feeds ▸ present), receivedAt_of_some before]
      · rw [receivedAt_of_some (feeds ▸ present), receivedAt_of_some before]

theorem Change.receivedAt (change : Change s s') (i : Nat) : s'.receivedAt i = s.receivedAt i := by
  cases change with
  | settings _ feeds | newQueue _ feeds => rw [Playout.receivedAt, feeds]; rfl
  | newFeed primed =>
      unfold Playout.receivedAt
      rw [List.getElem?_append]
      split
      · rfl
      · next beyond =>
          rw [List.getElem?_eq_none (Nat.le_of_not_lt beyond)]
          cases i - s.feeds.length <;> rfl
  | feed own moves => exact receivedAt_kept _ own rfl (by cases moves <;> rfl) i
  | @put j f q frame stage own => exact receivedAt_kept (f.afterPut frame stage) own rfl rfl i
  | pump _ _ _ feeds =>
      obtain same | settles := feeds
      · rw [Playout.receivedAt, same]
        rfl
      · exact receivedAt_settle settles i

theorem receivedAt_step (allowed : uncancelled s label = true)
    (stepped : step ramp s label = some s') (i : Nat) :
    s'.receivedAt i = s.receivedAt i ++ bytesFor i label := by
  cases label with
  | cancel _ => contradiction
  | chunk j bytes =>
      obtain ⟨f, own, -, rfl⟩ := chunk_receives stepped
      rw [receivedAt_set own rfl, bytesFor]
      by_cases here : i = j
      · rw [if_pos here, if_pos here.symm, here, receivedAt_of_some own]
        rfl
      · rw [if_neg here, if_neg (Ne.symm here), List.append_nil]
  | _ =>
      have kept := (step_changes rfl stepped).keep (P := fun t => t.receivedAt i = s.receivedAt i)
        (fun holds change => (change.receivedAt i).trans holds) rfl
      exact kept.trans (List.append_nil _).symm

end Playout

namespace Guarantees
open Asyncio Playout PlayoutQueue

/-- In every run without cancellation, for every feed and the bytes its chunks bring, however these
are cut: the frames put are whole, they are a beginning of the stream padded with silence, and they
are what the pump has marked, what it holds and what is queued. When the last frame has been put
they are the padded stream cut into frames, whatever the chunks were and whether or not a cushion
was kept back; and when the feed returns the pump has marked every one of them. -/
theorem playout_preserves_audio (ramp : Nat → Nat → Frame → Frame) (steps : List PlayoutStep)
    (s : Playout) (run : ((system ramp).restrict uncancelled).exec {} steps = some s)
    (i : Nat) (f : Feed) (own : s.feeds[i]? = some f) :
    (∀ frame ∈ f.put, frame.length = frameBytes) ∧
    f.put.flatten <+: Feed.zeroPadded (steps.flatMap (bytesFor i)) ∧
    ((s.queueAt f.queue).pump ≠ .ended → f.put = framesOf i
      ((s.queueAt f.queue).marked ++ (s.queueAt f.queue).held ++ (s.queueAt f.queue).items)) ∧
    (f.isJoined = true →
      f.put.flatten = Feed.zeroPadded (steps.flatMap (bytesFor i)) ∧
      f.put = Feed.frames (Feed.zeroPadded (steps.flatMap (bytesFor i)))) ∧
    (f.stage = .returned → framesOf i (s.queueAt f.queue).marked = f.put) := by
  have kept : s.Kept := by
    refine System.invariant (J := Kept) (fun kept stepped => ?_) run Kept.empty
    obtain ⟨allowed, stepped⟩ := System.restrict_some stepped
    exact kept.step allowed stepped
  have received : f.received = steps.flatMap (bytesFor i) := by
    have collected : s.receivedAt i =
        [] ++ ((system ramp).restrict uncancelled).collect (fun _ => bytesFor i) {} steps := by
      refine System.collect_invariant (J := fun t bytes => t.receivedAt i = bytes)
        (fun holds stepped => ?_) run rfl
      obtain ⟨allowed, stepped⟩ := System.restrict_some stepped
      rw [receivedAt_step allowed stepped, holds]
    rw [System.collect_labels run, receivedAt_of_some own] at collected
    exact collected
  have framed := kept.framed i f own
  obtain ⟨out, ledger⟩ := kept.ledgers f.queue
  have put := ledger.put i f own rfl
  rw [← received]
  refine ⟨framed.put_whole, framed.flatten_put, ?_, framed.joined, ?_⟩
  · intro runs
    rw [List.append_assoc, ← ledger.owes.of_running runs]
    exact put.symm
  · intro returned
    have settled := ledger.settled i f own rfl (by rw [Feed.isSettled, returned])
    rw [framesOf_append, settled, List.append_nil] at put
    exact put

/-- Three bytes in chunks of one, none and two, behind a cushion: one frame with silence behind
them, marked done when the feed returns. -/
theorem odd_chunks_played :
    ∃ s f, ((system fun _ _ frame => frame).restrict uncancelled).exec {} [.enableAmbient,
        .audioOut, .chunk 0 [1], .chunk 0 [], .chunk 0 [2, 3], .endOfStream 0, .put 0, .tick 0,
        .pushed 0, .joinReturns 0] = some s ∧
      s.feeds[0]? = some f ∧ f.put = Feed.frames (Feed.zeroPadded [1, 2, 3]) ∧
      framesOf 0 (s.queueAt f.queue).marked = f.put := by
  have final : (((system fun _ _ frame => frame).restrict uncancelled).exec {} [.enableAmbient,
      .audioOut, .chunk 0 [1], .chunk 0 [], .chunk 0 [2, 3], .endOfStream 0, .put 0, .tick 0,
      .pushed 0, .joinReturns 0]).map (fun s => s.feeds[0]?.map Feed.stage) =
      some (some .returned) := by decide
  obtain ⟨s, run, feed⟩ := Option.map_eq_some_iff.mp final
  obtain ⟨f, own, returned⟩ := Option.map_eq_some_iff.mp feed
  obtain ⟨-, -, -, joined, marked⟩ := playout_preserves_audio _ _ s run 0 f own
  exact ⟨s, f, run, own, (joined (by rw [Feed.isJoined, returned])).2, marked returned⟩

end Guarantees
end IsalesEngine
