import IsalesEngine.Engine.Endings
import IsalesEngine.Engine.Workload
import IsalesEngine.Guarantees.Remainder

/-!
What a streamed reply leaves running. Its `finally` block cancels the filler's
timer, the producer, every synthesis that was started and the generation of the
stream, also when the reply was cancelled. Only a cancel that hits the block
itself, at the close of a synthesis, leaves some of them running.
-/
namespace IsalesEngine
open Asyncio Asyncio.Coro

/-- No cancel of `main` and no exception comes at a point from which the turn does not reap its
tasks, and no barge-in drops the turn while its transfer detector runs. -/
def orderly (_ : Op) (a : Action sig Move) (w : World) : Bool :=
  match a with
  | .reply (.ext .buildStream) (.error _) =>
      w.turnTasks.isEmpty && !w.streams.any Stream.generating
  | .reply .gate (.ok _) => !(w.session.interruptionSignaled && w.turnTasks.contains .detector)
  | .reply .gate (.error .cancelled) => false
  | .reply .transferLlm (.error .cancelled) => false
  | .reply .closeSynth (.error .cancelled) => false
  | .reply .jobGet (.error .cancelled) => !w.turnTasks.contains .wrapUpReferee
  | .reply .playback (.error .cancelled) =>
      w.playCancelled || !w.turnTasks.contains .wrapUpReferee
  | _ => true

/-- Something that was started since there were `n` streams still runs and was not cancelled: a
task of the turn, the generation of a stream, the producer of a reply, or its filler. -/
def World.background (n : Nat) (w : World) : Bool :=
  !w.turnTasks.isEmpty || (w.streams.drop n).any Stream.generating ||
    w.pipe.any (fun p => !p.producer.isDone && !p.cancelRequested) ||
    decide (w.filler.gate = .sleeping) || (w.filler.playing.isSome && !w.filler.stopped)

namespace Reaping
variable {cfg : RuntimeConfig} {op : Op} {m : Move} {i n : Nat} {ts : List TurnTask}
  {ids : List Nat} {current : Option Text} {w w' : World} {C : World → Prop}

abbrev machine (cfg : RuntimeConfig) : Machine sig World := (engine cfg).restrict orderly

abbrev always (_ : Op) (_ : World) : Prop := True

/-- A reply of stream `i` is in progress; its consumer holds `current`. -/
structure Replying (n : Nat) (ts : List TurnTask) (i : Nat) (current : Option Text) (w : World) :
    Prop extends Busy n (current.toList.map .synth ++ ts) [i] w where
  current : w.pipe.map Pipe.currentJob = some current

theorem Replying.move (replying : Replying n ts i current w)
    (h : Engine.callMove cfg op w m = some w') : Replying n ts i current w' := by
  refine ⟨replying.toBusy.move h, ?_⟩
  obtain ⟨p, pipe, here⟩ := Option.map_eq_some_iff.mp replying.current
  obtain ⟨p', pipe', -, -, job, -⟩ := Engine.callMove_pipe h pipe
  rw [pipe', Option.map_some, job, here]

theorem Replying.congr (replying : Replying n ts i current w) (tasks : w'.turnTasks = w.turnTasks)
    (pipe : w'.pipe = w.pipe) (streams : w'.streams = w.streams) : Replying n ts i current w' := by
  refine ⟨replying.toBusy.congr tasks ?_ streams, ?_⟩
  · rw [World.waiting, World.waiting, pipe]
  · rw [pipe]
    exact replying.current

theorem replying_stableAt {op : Op} (own : op.isReap = true ∨ op = .closeSynth ∨ op = .playback) :
    (machine cfg).StableAt op (Replying n ts i current) :=
  Engine.stableAt_of own (fun _ _ _ replying _ moved => replying.move moved)
    fun replying => replying.congr rfl rfl rfl

theorem replying_reaps : Reaps (machine cfg) always (Replying n ts i current) :=
  fun _ own => Preserves.waitAt (replying_stableAt (.inl own)) fun _ _ => trivial

/-- The consumer has stopped. -/
def Stopped (n : Nat) (ts : List TurnTask) (i : Nat) (w : World) : Prop :=
  ∃ current, Replying n ts i current w

/-- When `main` is cancelled, no task is left that a reply would not reap. -/
theorem Replying.spared (spared : ∀ t ∈ ts, t = .wrapUpReferee)
    (replying : Replying n ts i current w)
    (absent : .wrapUpReferee ∉ w.turnTasks) : Stopped n [] i w := by
  refine ⟨current, ?_, replying.current⟩
  rw [List.append_nil]
  refine replying.toBusy.without fun t member => ?_
  rw [spared t member]
  exact absent

section Consume

variable (spared : ∀ t ∈ ts, t = .wrapUpReferee)
include spared

theorem jobGet_wp (replying : Replying n ts i none w) :
    (await .jobGet).wp (machine cfg) always (outcomes (Stopped n [] i) (Stopped n ts i)
      (Taken (fun job => Replying n ts i (some job)) (Stopped n ts i))) w := by
  refine wp_wait.mpr ⟨trivial, fun w₁ w₂ r steps replied => ?_⟩
  have kept : ∀ m t t', Replying n ts i none t → (engine cfg).move Op.jobGet m t = some t' →
      Replying n ts i none t' :=
    fun m t t' replying moved =>
      replying.move (@Engine.callMove_of_move cfg .jobGet m t t' moved rfl).2
  have replying₁ : Replying n ts i none w₁ := Machine.restrict_steps kept steps replying
  obtain ⟨allowed, replied⟩ := Machine.restrict_reply_some replied
  obtain ⟨job, p, rfl, pipe, -, jobs, rfl⟩ | ⟨rfl, -, rfl⟩ := Engine.replyJob_some replied
  · have idle : p.currentJob = none := by simpa [pipe] using replying₁.current
    have before := Engine.waiting_some pipe
    cases job with
    | none =>
        refine ⟨none, replying₁.toBusy.congr rfl (.trans ?_ before.symm) rfl, congrArg some idle⟩
        rw [Pipe.waiting, jobs]
        rfl
    | some job =>
        refine ⟨replying₁.toBusy.take rfl (before.trans ?_) rfl, rfl⟩
        rw [Pipe.waiting, jobs]
        rfl
  · refine Replying.spared spared (replying₁.congr rfl rfl rfl) ?_
    simpa [orderly] using allowed

theorem playJob_wp {job : Text} (replying : Replying n ts i (some job) w) :
    (PlayStreaming.playJob i job).wp (machine cfg) always (outcomes (Stopped n [] i)
      (Stopped n ts i) fun goOn => if goOn then Replying n ts i none else Stopped n ts i) w := by
  have wait : (await .playback).wp (machine cfg) always
      (fun r w => Replying n ts i (some job) w ∧ (r = .error .cancelled → w.playCancelled = false →
        .wrapUpReferee ∉ w.turnTasks)) (w.startPlay .sentence job true) := by
    refine wp_wait.mpr ⟨trivial, fun w₁ w₂ r steps replied => ?_⟩
    have stable : (machine cfg).StableAt .playback (Replying n ts i (some job)) :=
      replying_stableAt (.inr (.inr rfl))
    have replying₁ := stable.steps steps (replying.congr rfl rfl rfl)
    refine ⟨stable.reply replying₁ replied, ?_⟩
    obtain ⟨allowed, replied⟩ := Machine.restrict_reply_some replied
    have resumed := Engine.replyPlayback_resumed (r := r) replied
    rintro rfl going
    rw [resumed.frame.turnTasks]
    have going₁ : w₁.playCancelled = false := by
      rw [← going, World.playCancelled, World.playCancelled, resumed.frame.play]
    simpa [orderly, going₁] using allowed
  refine PlayStreaming.playJob_wp (T := Replying n ts i (some job))
    (S := Replying n ts i (some job)) (F := Replying n ts i (some job))
    (playChunks_wp wait ?_ ?_ ?_ ?_) ?_ ?_ ?_
  · exact fun post => post.1.congr rfl rfl rfl
  · exact fun post _ => post.1.congr rfl rfl rfl
  · intro w' post going
    obtain ⟨current, stopped⟩ := Replying.spared spared post.1 (post.2 rfl going)
    exact ⟨current, stopped.congr rfl rfl rfl⟩
  · exact fun post => post.1.congr rfl rfl rfl
  · intro w' post
    obtain ⟨p, pipe, -⟩ := Option.map_eq_some_iff.mp post.current
    have dropped : Busy n ts [i] { w' with turnTasks := w'.turnTasks.diff [.synth job] } :=
      Busy.drop [.synth job] post.toBusy
    refine ⟨dropped.congr rfl ?_ rfl, by simp [pipe]⟩
    simp [World.waiting, pipe, Pipe.waiting]
  · intro w' post
    obtain ⟨p, pipe, here⟩ := Option.map_eq_some_iff.mp post.current
    refine ⟨some job, post.toBusy.congr rfl ?_ rfl, by simp [pipe, here]⟩
    simp [World.waiting, pipe, Pipe.waiting]
  · intro w' error post
    refine ⟨some job, post.toBusy.step (.same rfl rfl) fun j generating => ?_, post.current⟩
    obtain other | ⟨rfl, set⟩ := stream_setStream_cases w' i j _
    · rwa [other] at generating
    · rwa [set] at generating

theorem consumeRule (filler : Bool) :
    ConsumerRule (machine cfg) always (Stopped n [] i) (Stopped n ts i) i filler
      (Replying n ts i none) (fun job => Replying n ts i (some job)) (Stopped n ts i) where
  exhausted _ := wp_wait.mpr
    ⟨trivial, fun _ _ _ _ replied => nomatch (Machine.restrict_reply_some replied).2⟩
  get := jobGet_wp spared
  reapGate _ _ := replying_reaps.reapGate fun replying => replying.congr rfl rfl rfl
  stop _ _ := replying_reaps.stop fun replying => replying.congr rfl rfl rfl
  failed _ replying := ⟨_, replying⟩
  play := playJob_wp spared

end Consume

section Finish
variable {P C E : World → Prop} {jobs : List Text}

/-- The syntheses of `jobs` are still to be closed, and `P` holds. -/
def Closing (n : Nat) (ts : List TurnTask) (i : Nat) (P : World → Prop) (jobs : List Text)
    (w : World) : Prop := Busy n (jobs.map .synth ++ ts) [i] w ∧ P w

/-- What other tasks keep, and what does not depend on the turn's tasks. -/
structure Untasked (cfg : RuntimeConfig) (P : World → Prop) : Prop where
  move : ∀ {op m w w'}, P w → Engine.callMove cfg op w m = some w' → P w'
  other : ∀ {w b ts}, P w → P { w with cancelPending := b, turnTasks := ts }

theorem closing_stableAt (untasked : Untasked cfg P)
    (own : op.isReap = true ∨ op = .closeSynth ∨ op = .playback) :
    (machine cfg).StableAt op (Closing n ts i P jobs) := by
  refine Engine.stableAt_of own ?_ ?_
  · exact fun _ _ _ closing _ moved => ⟨closing.1.move moved, untasked.move closing.2 moved⟩
  · exact fun closing => ⟨closing.1.congr rfl rfl rfl, untasked.other closing.2⟩

/-- The close of a synthesis cannot fail, and it is not cancelled. -/
theorem closeSynth_ends {K : World → Prop}
    (stable : (machine cfg).StableAt .closeSynth K) (holds : K w) :
    (suppress isException (await .closeSynth)).wp (machine cfg) always
      (outcomes C E fun _ => K) w := by
  refine wp.suppress (P := fun r w => r ≠ .error .cancelled ∧ K w)
    (wp_wait.mpr ⟨trivial, fun w₁ w₂ r steps replied => ?_⟩) fun r w₁ post => ⟨?_, post.2⟩
  · refine ⟨?_, stable.reply (stable.steps steps holds) replied⟩
    rintro rfl
    cases (Machine.restrict_reply_some replied).1
  · rintro e rfl
    cases e with
    | cancelled => exact absurd rfl post.1
    | error e => rfl

theorem closeJob_wp {job : Text} (untasked : Untasked cfg P)
    (closing : Closing n ts i P (job :: jobs) w) :
    (closeJob job).wp (machine cfg) always (outcomes C E fun _ => Closing n ts i P jobs) w := by
  have dropped : Closing n ts i P jobs { w with turnTasks := w.turnTasks.diff [.synth job] } :=
    ⟨Busy.drop [.synth job] closing.1, untasked.other closing.2⟩
  have reap : Preserves (machine cfg) always (Closing n ts i P jobs) (await .reapSynth) :=
    Preserves.waitAt (closing_stableAt untasked (.inl rfl)) fun _ _ => trivial
  have reaped : Keeps (machine cfg) always C (Closing n ts i P jobs)
      (suppress isCancelled (await .reapSynth)) := Keeps.suppressCancelled rfl reap
  have ends := reaped.unfailing (E := E) (Quiet.unfailing_wait (by simp)).suppress dropped
  refine wp_update_bind.mpr (wp.seq ends fun _ w₁ closing₁ => ?_)
  exact closeSynth_ends (closing_stableAt untasked (.inr (.inl rfl))) closing₁

theorem closeJobs_wp (untasked : Untasked cfg P) (closing : Closing n ts i P jobs w) :
    (forEach closeJob jobs).wp (machine cfg) always
      (outcomes C E fun _ => Closing n ts i P []) w := by
  induction jobs generalizing w with
  | nil => exact closing
  | cons job jobs ih =>
      exact wp.seq (closeJob_wp untasked closing) fun _ w₁ closing₁ => ih closing₁

theorem over_untasked : Untasked cfg Remainder.Over :=
  ⟨fun finished moved => finished.move moved, id⟩

theorem drained_untasked : Untasked cfg Remainder.Drained :=
  ⟨fun drained moved => drained.move moved, id⟩

theorem cancelProducer_wp (replying : Replying n ts i current w) :
    PlayStreaming.cancelProducer.wp (machine cfg) always
      (outcomes C E fun _ => Closing n ts i Remainder.Over current.toList) w := by
  obtain ⟨p, pipe, here⟩ := Option.map_eq_some_iff.mp replying.current
  have asked : Replying n ts i current
      { w with pipe := w.pipe.map fun p => { p with cancelRequested := true } } := by
    refine ⟨replying.toBusy.congr rfl ?_ rfl, by simp [pipe, here]⟩
    simp [World.waiting, pipe, Pipe.waiting]
  refine wp_update_bind.mpr (wp_read_bind.mpr ((wp_when _ _).mpr ?_))
  split
  · refine wp.suppress (P := fun _ => Closing n ts i Remainder.Over current.toList)
      (wp_wait.mpr ⟨trivial, fun w₁ w₂ r steps replied => ?_⟩)
      fun r w₂ post => ⟨fun _ _ => rfl, post⟩
    have stable : (machine cfg).StableAt Op.reapProducer (Replying n ts i current) :=
      replying_stableAt (.inl rfl)
    have replying₁ := stable.steps steps asked
    obtain ⟨done, -, rfl⟩ := Engine.reap_some (Machine.restrict_reply_some replied).2
    obtain ⟨p₁, pipe₁, -⟩ := Option.map_eq_some_iff.mp replying₁.current
    refine ⟨replying₁.toBusy.congr rfl rfl rfl, p₁, pipe₁, ?_⟩
    simpa [pipe₁] using done
  · rename_i done
    refine ⟨asked.toBusy, { p with cancelRequested := true }, ?_, by simpa [pipe] using done⟩
    rw [pipe]
    rfl

/-- The jobs of a producer that is over are those of its queue. -/
theorem takeJobs_closing (closing : Closing n ts i Remainder.Over [] w) :
    Closing n ts i Remainder.Drained ((w.pipe.map Pipe.jobs).getD [] |>.filterMap id)
      { w with pipe := w.pipe.map fun p => { p with jobs := [] } } := by
  obtain ⟨p, pipe, done⟩ := closing.2
  refine ⟨⟨fun t => ?_, closing.1.generating⟩, { p with jobs := [] }, by simp [pipe], done, rfl⟩
  have before := closing.1.tasks t
  have queued := Remainder.waiting_over done
  have none := Remainder.waiting_over (p := { p with jobs := [] }) done
  simp only [World.waiting, pipe, Option.map_some, Option.getD_some, queued, none,
    List.filterMap_nil, List.map_nil, List.append_nil, List.nil_append,
    List.count_append] at before ⊢
  omega

/-- The reply is over: all that is left are the tasks `ts`. -/
def Closed (n : Nat) (ts : List TurnTask) (w : World) : Prop := Busy n ts [] w ∧ Remainder.Drained w

theorem closed_stableAt (own : op.isReap = true) : (machine cfg).StableAt op (Closed n ts) := by
  refine Engine.stableAt_of (.inl own) ?_ ?_
  · exact fun _ _ _ closed _ moved => ⟨closed.1.move moved, closed.2.move moved⟩
  · exact fun closed => ⟨closed.1.congr rfl rfl rfl, closed.2⟩

theorem closed_reaps : Reaps (machine cfg) always (Closed n ts) :=
  fun _ own => Preserves.waitAt (closed_stableAt own) fun _ _ => trivial

theorem finish_wp (filler : Bool) (stopped : Stopped n ts i w) :
    (PlayStreaming.finish i filler).wp (machine cfg) always
      (outcomes C E fun _ => Closed n ts) w := by
  obtain ⟨current, replying⟩ := stopped
  have read : w.pipe.bind Pipe.currentJob = current := by
    obtain ⟨p, pipe, here⟩ := Option.map_eq_some_iff.mp replying.current
    simp [pipe, here]
  refine wp_read_bind.mpr (wp_read_bind.mpr ?_)
  rw [read]
  have gate : Keeps (machine cfg) always C (Replying n ts i current) FillerManager.reapGate :=
    replying_reaps.reapGate fun replying => replying.congr rfl rfl rfl
  refine wp.seq (gate.when.unfailing Quiet.unfailing_reapGate.when replying) ?_
  intro _ w₁ replying₁
  refine wp.seq (cancelProducer_wp replying₁) fun _ w₂ closing₂ => ?_
  refine wp.seq (closeJobs_wp over_untasked closing₂) fun _ w₃ closing₃ => wp_act_bind.mpr ?_
  refine wp.seq (closeJobs_wp drained_untasked (takeJobs_closing closing₃)) fun _ w₄ closing₄ => ?_
  have reap : Preserves (machine cfg) always (Closed n ts) (await (.reapEager i)) :=
    closed_reaps (.reapEager i) rfl
  have alone : [i].filter (· ≠ i) = [] := by simp
  have cancels := Busy.cancelEager_wp (M := machine cfg) (I := always) (C := C) (E := E)
    closing₄.1 closing₄.2 id (by rw [alone]; exact reap)
  rw [alone] at cancels
  refine wp_read_bind.mpr (wp.seq cancels fun _ w₅ closed₅ => ?_)
  have stop : Keeps (machine cfg) always C (Closed n ts) FillerManager.stop :=
    closed_reaps.stop fun closed => ⟨closed.1.congr rfl rfl rfl, closed.2⟩
  refine wp.seq (stop.when.unfailing Quiet.unfailing_stop.when closed₅) fun _ w₆ closed₆ => ?_
  refine (wp_when _ _).mpr ?_
  split
  · exact ⟨closed₆.1.congr rfl rfl rfl, closed₆.2⟩
  · exact closed₆

end Finish

abbrev reaped (n : Nat) (w : World) : Prop := w.background n = false

theorem reaped_of (tasks : w.turnTasks = [])
    (generating : ∀ i, (w.stream i).generating = true → i < n)
    (producer : ∀ p, w.pipe = some p → p.producer.isDone = true) (silent : w.filler.Silent) :
    reaped n w := by
  have streams : (w.streams.drop n).any Stream.generating = false := by
    rw [Bool.eq_false_iff]
    intro found
    obtain ⟨st, member, runs⟩ := List.any_eq_true.mp found
    obtain ⟨k, bound, rfl⟩ := List.getElem_of_mem member
    rw [List.getElem_drop] at runs
    have here : (w.stream (n + k)).generating = true := by
      have inside : n + k < w.streams.length := by
        rw [List.length_drop] at bound
        omega
      simpa [World.stream, inside] using runs
    exact absurd (generating _ here) (by omega)
  have pipe : w.pipe.any (fun p => !p.producer.isDone && !p.cancelRequested) = false := by
    cases here : w.pipe with
    | none => rfl
    | some p => simp [producer p here]
  simp [reaped, World.background, tasks, streams, pipe, silent.gate, silent.playing]

theorem tasks_nil (busy : Busy n [] ids w) (none : w.waiting = []) : w.turnTasks = [] := by
  refine List.eq_nil_iff_forall_not_mem.mpr fun t member => ?_
  have bound := busy.tasks t
  rw [none] at bound
  exact Nat.not_lt_zero _ (Nat.lt_of_lt_of_le (List.count_pos_iff.mpr member) bound)

/-- No reply is in progress. -/
structure Resting (n : Nat) (ts : List TurnTask) (ids : List Nat) (w : World) : Prop
    extends Busy n ts ids w where
  pipe : w.pipe = none
  silent : w.filler.Silent

/-- An update that starts and stops nothing. -/
structure Aside (w w' : World) : Prop where
  tasks : w'.turnTasks = w.turnTasks
  streams : w'.streams = w.streams
  pipe : w'.pipe = w.pipe
  filler : w'.filler = w.filler

namespace Resting

theorem waiting (resting : Resting n ts ids w) : w.waiting = [] := by
  simp [World.waiting, resting.pipe]

theorem reaped (resting : Resting n [] [] w) : reaped n w := by
  refine reaped_of (tasks_nil resting.toBusy resting.waiting) (fun i generating => ?_) ?_
    resting.silent
  · simpa using resting.generating i generating
  · intro p pipe
    rw [resting.pipe] at pipe
    cases pipe

theorem aside (resting : Resting n ts ids w) (aside : Aside w w') : Resting n ts ids w' := by
  refine ⟨resting.toBusy.congr aside.tasks ?_ aside.streams, aside.pipe.trans resting.pipe, ?_⟩
  · rw [World.waiting, World.waiting, aside.pipe]
  · rw [aside.filler]
    exact resting.silent

theorem mono {ids' : List Nat} (resting : Resting n ts ids w) (subset : ids ⊆ ids') :
    Resting n ts ids' w :=
  ⟨resting.toBusy.mono (fun _ => Nat.le_refl _) subset, resting.pipe, resting.silent⟩

end Resting

theorem resting_stable : (machine cfg).Stable (Resting n ts ids) := by
  refine Machine.Stable.restrict (Engine.stable_of ?_ ?_ ?_) orderly
  · intro op m w w' resting moved
    have silent := Engine.callMove_filler_silent moved ⟨resting.silent.playing, resting.silent.gate⟩
    exact ⟨resting.toBusy.move moved, Engine.callMove_pipe_none moved resting.pipe, silent.1,
      silent.2⟩
  · exact fun w resting => resting.aside ⟨rfl, rfl, rfl, rfl⟩
  · intro w w' resting frame
    refine resting.aside ⟨frame.turnTasks, frame.streams, ?_, frame.filler⟩
    obtain same | ⟨p, pipe, -⟩ := frame.pipe
    · exact same
    · rw [resting.pipe] at pipe
      cases pipe

theorem resting_waits (drops : ∀ w, Resting n ts ids w → C w) :
    Waits (machine cfg) always C (Resting n ts ids) :=
  .of_stable resting_stable (fun _ _ _ => trivial) drops

theorem keeps_aside {f : World → World} (aside : ∀ w, Aside w (f w)) :
    Keeps (machine cfg) always C (Resting n ts ids) (update f) :=
  Keeps.update fun w resting => resting.aside (aside w)

theorem modifySession_keeps (f : CallSession → CallSession) :
    Keeps (machine cfg) always C (Resting n ts ids) (modifySession f) :=
  keeps_aside fun _ => ⟨rfl, rfl, rfl, rfl⟩

theorem recordSession_keeps (e : Entry) (f : CallSession → CallSession) :
    Keeps (machine cfg) always C (Resting n ts ids) (recordSession e f) :=
  keeps_aside fun _ => ⟨rfl, rfl, rfl, rfl⟩

theorem playTts_keeps (site : PlaySite) (text : Text) (interruptible : Bool) :
    Keeps (machine cfg) always (reaped n) (Resting n [] []) (playTts site text interruptible) := by
  have plays : Preserves (machine cfg) always (Resting n [] [])
      (playChunks site text interruptible) :=
    playChunks_preserves (Preserves.wait resting_stable (fun _ _ _ => trivial) .playback)
      (fun resting => resting.aside ⟨rfl, rfl, rfl, rfl⟩)
      (fun resting => resting.aside ⟨rfl, rfl, rfl, rfl⟩)
  exact (plays.bind fun _ => Preserves.pure ()).keeps fun _ => Resting.reaped

theorem ending : EndingFrame (machine cfg) always (reaped n) (Resting n [] []) where
  toWaits := resting_waits fun _ => Resting.reaped
  play := playTts_keeps
  phone resting := resting.aside ⟨rfl, rfl, rfl, rfl⟩
  session _ resting := resting.aside ⟨rfl, rfl, rfl, rfl⟩
  ending _ resting := resting.aside ⟨rfl, rfl, rfl, rfl⟩

section Reply
variable {filler : Bool} {delay start fuel : Nat}

/-- Without a filler of its own a reply leaves the filler silent. -/
def Hushes (filler : Bool) (w : World) : Prop := filler = true ∨ w.filler.Silent

theorem consume_hushes (hushes : Hushes filler w) :
    (PlayStreaming.consume i filler fuel).wp (machine cfg) always (fun _ => Hushes filler) w := by
  cases filler with
  | true => exact (wp_true _ w).mono fun _ _ _ => .inl rfl
  | false =>
      have silent : w.filler.Silent := hushes.resolve_left nofun
      have frame : StreamFrame (machine cfg) always (fun w => w.filler.Silent)
          (fun w => w.filler.Silent) false := Quiet.filler_stream Quiet.silent_stable
      refine ((frame.consumeRule i).consume_wp fuel id silent).mono fun r w' post => .inr ?_
      match r with
      | .ok _ | .error .cancelled | .error (.error _) => exact post

theorem finish_hushes (hushes : Hushes filler w) :
    (PlayStreaming.finish i filler).wp (machine cfg) always
      (outcomes (fun _ => True) (fun _ => True) fun _ w => w.filler.Silent) w := by
  cases filler with
  | true => exact Quiet.finish_silent i w
  | false =>
      have frame : ClosingFrame (machine cfg) always (fun _ => True) (fun w => w.filler.Silent)
          false := Quiet.filler_closing Quiet.silent_stable fun _ _ => trivial
      exact (frame.finish i).last (hushes.resolve_left nofun) (fun _ _ => trivial) fun _ _ h => h

theorem Closed.waiting (closed : Closed n ts w) : w.waiting = [] := by
  obtain ⟨p, pipe, done, empty⟩ := closed.2
  rw [Engine.waiting_some pipe, Remainder.waiting_over done, empty]
  rfl

theorem Closed.reaped (closed : Closed n [] w) (silent : w.filler.Silent) : reaped n w := by
  refine reaped_of (tasks_nil closed.1 closed.waiting) (fun i generating => ?_) ?_ silent
  · simpa using closed.1.generating i generating
  · intro p pipe
    obtain ⟨p', pipe', done, -⟩ := closed.2
    obtain rfl := Option.some.inj (pipe.symm.trans pipe')
    exact done

theorem consume_wp (spared : ∀ t ∈ ts, t = .wrapUpReferee) (replying : Replying n ts i none w)
    (hushes : Hushes filler w) : (PlayStreaming.consume i filler fuel).wp (machine cfg) always
      (fun r w => outcomes (S := sig) (Stopped n [] i) (fun _ => False) (fun _ => Stopped n ts i)
        r w ∧ Hushes filler w) w := by
  have rule : ConsumerRule (machine cfg) always _ _ i filler (Replying n ts i none) _ _ :=
    consumeRule spared filler
  refine (((rule.consume_wp fuel id replying).and (consume_hushes hushes)).and
    (Quiet.unfailing_consume i fuel filler w)).mono fun r w' post => ⟨?_, post.1.2⟩
  match r with
  | .ok _ | .error .cancelled => exact post.1.1
  | .error (.error e) => exact absurd rfl (post.2 e)

/-- A reply that is over leaves what ran beside it; a reply that was cancelled leaves nothing. -/
theorem playStreaming_wp (spared : ∀ t ∈ ts, t = .wrapUpReferee) (resting : Resting n ts [i] w) :
    (playStreaming i filler delay start fuel).wp (machine cfg) always
      (outcomes (reaped n) (fun _ => False) fun _ => Resting n ts []) w := by
  have begun : (PlayStreaming.begin i filler delay start).wp (machine cfg) always
      (outcomes (reaped n) (fun _ => False) fun _ w => Replying n ts i none w ∧ Hushes filler w)
      w := by
    refine wp_update_bind.mpr ((wp_when _ _).mpr ?_)
    have replying : ∀ f, Replying n ts i none { w with
        pipe := some { stream := i, processingStart := start }, filler := f } := fun f =>
      ⟨resting.toBusy.congr rfl (by rw [resting.waiting]; rfl) rfl, rfl⟩
    split
    · rename_i own
      exact ⟨replying _, .inl own⟩
    · exact ⟨replying w.filler, .inr resting.silent⟩
  refine wp.seq begun fun _ w₁ here₁ => ?_
  have finishes : ∀ {ts : List TurnTask} {w : World}, Stopped n ts i w → Hushes filler w →
      (PlayStreaming.finish i filler).wp (machine cfg) always
        (outcomes (fun _ => False) (fun _ => False) fun _ w => Closed n ts w ∧ w.filler.Silent)
        w := by
    intro ts w stopped hushes
    refine ((finish_wp (C := fun _ => False) (E := fun _ => False) filler stopped).and
      (finish_hushes hushes)).mono fun r w' post => ?_
    match r with
    | .ok _ => exact post
    | .error .cancelled | .error (.error _) => exact post.1
  refine wp.seq (L := fun _ w => Closed n ts w ∧ w.filler.Silent) ?_ fun _ w₂ here₂ => ?_
  · refine (consume_wp spared here₁.1 here₁.2).andFinally fun r w₂ post => ?_
    obtain ⟨stopped, hushes⟩ := post
    match r with
    | .ok _ =>
        refine (finishes stopped hushes).mono fun r' w₃ post => ?_
        match r' with
        | .ok _ => exact post
    | .error .cancelled =>
        refine (finishes stopped hushes).mono fun r' w₃ post => ?_
        match r' with
        | .ok _ => exact post.1.reaped post.2
    | .error (.error e) => exact stopped.elim
  · refine ⟨here₂.1.1.congr rfl ?_ rfl, rfl, here₂.2⟩
    rw [here₂.1.waiting]
    rfl

end Reply

end Reaping
end IsalesEngine
