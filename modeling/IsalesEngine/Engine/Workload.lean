import Mathlib.Data.List.Count
import IsalesEngine.Engine.Inventory
import IsalesEngine.Engine.Quiet

/-!
The background work of a turn. Referees, the transfer detector and syntheses
are counted in the record of the turn's tasks, and every stream says whether it
is being generated. A synthesis belongs to a job of the reply, so the tasks that
run are bounded by those `main` knows of and by the jobs that wait in the pipe,
and every section of another task keeps this bound.
-/
namespace IsalesEngine
open Asyncio Asyncio.Coro

/-- The stream is generated in the background and nobody has cancelled this. -/
def Stream.generating (st : Stream) : Bool := st.eager.any fun e => e.status = .running

/-- The jobs of the reply in progress that wait for the consumer. -/
def World.waiting (w : World) : List Text := (w.pipe.map Pipe.waiting).getD []

/-- What a section of another task does to the turn's tasks and to the jobs of its reply. -/
inductive TaskStep (w w' : World) : Prop
  | same (tasks : w'.turnTasks = w.turnTasks) (jobs : w'.waiting = w.waiting)
  | queued (s : Text) (tasks : w'.turnTasks = w.turnTasks ++ [.synth s])
      (jobs : w'.waiting = w.waiting ++ [s])
  | ended (t : TurnTask) (tasks : w'.turnTasks = w.turnTasks.erase t)
      (jobs : w'.waiting = w.waiting)
  | dropped (s : Text) (tasks : w'.turnTasks = w.turnTasks.erase (.synth s))
      (jobs : w.waiting = w'.waiting ++ [s])

namespace Engine
variable {cfg : RuntimeConfig} {op : Op} {m : Move} {w w' : World}

theorem waiting_some {p : Pipe} (pipe : w.pipe = some p) : w.waiting = p.waiting := by
  simp [World.waiting, pipe]

theorem nextReplay_generating {st st' : Stream} {s : Text}
    (h : World.nextReplay? st = some (s, st')) : st'.generating = st.generating := by
  obtain ⟨e, rest, eager, -, rfl⟩ := nextReplay_next h
  simp [Stream.generating, eager]

/-- The producer offers a job whose synthesis it has started. -/
theorem offer_taskStep {p : Pipe} {s : Text} {last : Bool} (pulls : w.pulling? = some p)
    (pipe : w'.pipe = some (p.offer s last)) (tasks : w'.turnTasks = w.turnTasks ++ [.synth s]) :
    TaskStep w w' := by
  obtain ⟨here, pulling⟩ := pulling_some pulls
  refine .queued s tasks ?_
  rw [waiting_some pipe, waiting_some here]
  exact waiting_offer pulling

/-- The producer goes on to the sentinel. -/
theorem ending_taskStep {p : Pipe} (pulls : w.pulling? = some p)
    (pipe : w'.pipe = some { p with producer := .ending }) (tasks : w'.turnTasks = w.turnTasks) :
    TaskStep w w' := by
  obtain ⟨here, pulling⟩ := pulling_some pulls
  refine .same tasks ?_
  rw [waiting_some pipe, waiting_some here]
  simp [Pipe.waiting, pulling]

theorem callMove_taskStep (h : callMove cfg op w m = some w') : TaskStep w w' := by
  cases callMove_effect h with
  | produceSentence pulls _ _ | replaySentence pulls _ | defaultReply pulls _ _ =>
      exact offer_taskStep pulls rfl rfl
  | generatorEnd pulls _ _ | generatorError pulls _ => exact ending_taskStep pulls rfl rfl
  | @producerPutJob p job last piped _ _ putting =>
      refine .same rfl ?_
      rw [waiting_some rfl, waiting_some piped]
      cases last <;> simp [Pipe.waiting, putting]
  | producerPutSentinel piped _ _ ending =>
      refine .same rfl ?_
      rw [waiting_some rfl, waiting_some piped]
      simp [Pipe.waiting, ending]
  | producerDropsJob piped _ putting =>
      refine .dropped _ rfl ?_
      rw [waiting_some piped, waiting_some rfl]
      simp [Pipe.waiting, putting]
  | producerEnd piped _ _ empty =>
      refine .same rfl ?_
      rw [waiting_some rfl, waiting_some piped, waiting_idle empty]
      simp [Pipe.waiting]
  | firstAudio piped _ _ _ _ =>
      refine .same rfl ?_
      rw [waiting_some rfl, waiting_some piped]
      rfl
  | taskEnd _ => exact .ended _ rfl rfl
  | _ => exact .same rfl rfl

/-- Nobody but `main` starts the generation of a stream. -/
theorem callMove_generating (h : callMove cfg op w m = some w') (i : Nat)
    (generating : (w'.stream i).generating = true) : (w.stream i).generating = true := by
  have written : w'.streams = w.streams ∨ ∃ j st, w'.streams = (w.setStream j st).streams ∧
      (st.generating = true → (w.stream j).generating = true) := by
    cases callMove_effect h with
    | eagerSentence eager running _ =>
        exact .inr ⟨_, _, rfl, fun _ => by simp [Stream.generating, eager, running]⟩
    | eagerEnd _ _ => exact .inr ⟨_, _, rfl, by simp [Stream.generating]⟩
    | replaySentence _ next =>
        exact .inr ⟨_, _, rfl, fun more => nextReplay_generating next ▸ more⟩
    | produceSentence _ _ _ | generatorEnd _ _ _ | defaultReply _ _ _ | generatorError _ _ =>
        exact .inr ⟨_, _, rfl, id⟩
    | _ => exact .inl rfl
  obtain same | own := stream_written written i
  · rwa [same] at generating
  · exact own generating

end Engine

/-- The tasks that run are among `ts` and the syntheses of the jobs that wait. Of the streams from
`n` on, only those of `ids` are being generated. -/
structure Busy (n : Nat) (ts : List TurnTask) (ids : List Nat) (w : World) : Prop where
  tasks : ∀ t, w.turnTasks.count t ≤ (ts ++ w.waiting.map TurnTask.synth).count t
  generating : ∀ i, (w.stream i).generating = true → i < n ∨ i ∈ ids

namespace Busy
variable {n i : Nat} {ts : List TurnTask} {ids : List Nat} {w w' : World} {p : Pipe} {st : Stream}

section Kept
variable (busy : Busy n ts ids w)
include busy

theorem congr (tasks : w'.turnTasks = w.turnTasks) (jobs : w'.waiting = w.waiting)
    (streams : w'.streams = w.streams) : Busy n ts ids w' := by
  refine ⟨fun t => ?_, fun i generating => busy.generating i ?_⟩
  · rw [tasks, jobs]
    exact busy.tasks t
  · simpa [World.stream, streams] using generating

/-- A job is taken out of the pipe. -/
theorem take {job : Text} (tasks : w'.turnTasks = w.turnTasks)
    (jobs : w.waiting = job :: w'.waiting) (streams : w'.streams = w.streams) :
    Busy n (.synth job :: ts) ids w' := by
  refine ⟨fun t => ?_, fun i generating => busy.generating i ?_⟩
  · have before := busy.tasks t
    rw [jobs] at before
    rw [tasks]
    simp only [List.cons_append, List.count_append, List.map_cons, List.count_cons] at before ⊢
    omega
  · simpa [World.stream, streams] using generating

theorem step (step : TaskStep w w')
    (streams : ∀ i, (w'.stream i).generating = true → (w.stream i).generating = true) :
    Busy n ts ids w' := by
  refine ⟨fun t => ?_, fun i generating => busy.generating i (streams i generating)⟩
  have before := busy.tasks t
  simp only [List.count_append] at before ⊢
  cases step with
  | same tasks jobs => rwa [tasks, jobs]
  | queued s tasks jobs =>
      rw [tasks, jobs, List.map_append, List.count_append, List.count_append]
      exact Nat.le_trans (Nat.add_le_add_right before _) (Nat.le_of_eq (Nat.add_assoc _ _ _))
  | ended t' tasks jobs =>
      rw [tasks, jobs]
      exact Nat.le_trans (List.erase_sublist.count_le t) before
  | dropped s tasks jobs =>
      rw [jobs, List.map_append, List.count_append, List.map_singleton] at before
      rw [tasks, List.count_erase]
      rw [List.count_singleton] at before
      split at before
      · rename_i same
        simp only [beq_iff_eq] at same
        simp only [same, BEq.rfl, if_true]
        omega
      · omega

theorem move {cfg : RuntimeConfig} {op : Op} {m : Move} (h : Engine.callMove cfg op w m = some w') :
    Busy n ts ids w' := busy.step (Engine.callMove_taskStep h) (Engine.callMove_generating h)

theorem mono {ts' : List TurnTask} {ids' : List Nat} (more : ∀ t, ts.count t ≤ ts'.count t)
    (subset : ids ⊆ ids') : Busy n ts' ids' w := by
  refine ⟨fun t => ?_, fun i generating => (busy.generating i generating).imp_right (@subset i)⟩
  have before := busy.tasks t
  have grown := more t
  simp only [List.count_append] at before ⊢
  omega

end Kept

/-- Tasks that do not run need not be counted. -/
theorem without {gone : List TurnTask} (busy : Busy n (ts ++ gone) ids w)
    (absent : ∀ t ∈ gone, t ∉ w.turnTasks) : Busy n ts ids w := by
  refine ⟨fun t => ?_, busy.generating⟩
  have before := busy.tasks t
  by_cases member : t ∈ gone
  · simp [List.count_eq_zero_of_not_mem (absent t member)]
  · simpa [List.count_eq_zero_of_not_mem member] using before

theorem lacks {t : TurnTask} (busy : Busy n [t] ids w) (absent : t ∉ w.turnTasks) :
    Busy n [] ids w := by
  refine without (List.nil_append [t] ▸ busy) fun t' member => ?_
  rw [List.mem_singleton.mp member]
  exact absent

/-- Tasks that have ended or were cancelled are taken off the record. -/
theorem drop (gone : List TurnTask) (busy : Busy n (gone ++ ts) ids w) :
    Busy n ts ids { w with turnTasks := w.turnTasks.diff gone } := by
  refine ⟨fun t => ?_, busy.generating⟩
  have before := busy.tasks t
  show (w.turnTasks.diff gone).count t ≤ (ts ++ w.waiting.map TurnTask.synth).count t
  simp only [List.count_append, List.count_diff] at before ⊢
  omega

theorem spawn (new : List TurnTask) (busy : Busy n ts ids w) :
    Busy n (new ++ ts) ids { w with turnTasks := w.turnTasks ++ new } := by
  refine ⟨fun t => ?_, busy.generating⟩
  have before := busy.tasks t
  show (w.turnTasks ++ new).count t ≤ (new ++ ts ++ w.waiting.map TurnTask.synth).count t
  simp only [List.count_append] at before ⊢
  omega

section
variable (busy : Busy n ts ids w)
include busy

/-- A stream is added to those of the turn. -/
theorem add (own : st.generating = true → w.streams.length ∈ ids) :
    Busy n ts ids (w.addStream st) := by
  refine ⟨busy.tasks, fun i generating => ?_⟩
  simp only [World.stream, World.streams_addStream, List.getD_eq_getElem?_getD] at generating
  by_cases old : i < w.streams.length
  · rw [List.getElem?_append_left old] at generating
    exact busy.generating i (by simpa [World.stream, List.getD_eq_getElem?_getD] using generating)
  · by_cases same : i = w.streams.length
    · subst same
      rw [List.getElem?_append_right (Nat.le_refl _)] at generating
      exact .inr (own (by simpa using generating))
    · rw [List.getElem?_eq_none (by simp; omega)] at generating
      cases generating

/-- The generation of a stream was cancelled. -/
theorem cancelled (silenced : st.generating = false) (bound : i < w.streams.length) :
    Busy n ts (ids.filter (· ≠ i)) (w.setStream i st) := by
  refine ⟨busy.tasks, fun j generating => ?_⟩
  by_cases same : j = i
  · subst same
    rw [stream_setStream bound, silenced] at generating
    cases generating
  · rw [stream_setStream_of_ne same] at generating
    exact (busy.generating j generating).imp_right fun member => by simp [member, same]

theorem idle (silent : (w.stream i).generating = false) : Busy n ts (ids.filter (· ≠ i)) w := by
  refine ⟨busy.tasks, fun j generating => ?_⟩
  refine (busy.generating j generating).imp_right fun member => ?_
  have other : j ≠ i := by
    rintro rfl
    rw [silent] at generating
    cases generating
  simp [member, other]

/-- After `cancel_eager` the stream is not generated any more. -/
theorem cancelEager_wp {M : Machine sig World} {I : Op → World → Prop} {C E P : World → Prop}
    (holds : P w) (streams : ∀ {w st}, P w → P (World.setStream w i st))
    (reap : Preserves M I (fun w => Busy n ts (ids.filter (· ≠ i)) w ∧ P w)
      (await (.reapEager i))) :
    (cancelEager i).wp M I (outcomes C E fun _ w => Busy n ts (ids.filter (· ≠ i)) w ∧ P w) w := by
  refine wp_read_bind.mpr ((wp_when _ _).mpr ?_)
  split
  · rename_i live
    obtain ⟨e, eager⟩ : ∃ e, (w.stream i).eager = some e := by
      cases eager : (w.stream i).eager with
      | none => simp [eager] at live
      | some e => exact ⟨e, rfl⟩
    have bound : i < w.streams.length := by
      refine Nat.lt_of_not_le fun beyond => ?_
      simp [World.stream, List.getElem?_eq_none beyond] at eager
    refine wp_update_bind.mpr (reap.suppressAll (fun _ => rfl) ⟨?_, streams holds⟩)
    exact busy.cancelled (by simp [Stream.generating, eager]) bound
  · rename_i ended
    refine ⟨busy.idle ?_, holds⟩
    cases eager : (w.stream i).eager with
    | none => simp [Stream.generating, eager]
    | some e => simp_all [Stream.generating]

end

end Busy
end IsalesEngine
