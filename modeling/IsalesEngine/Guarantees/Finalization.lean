import IsalesEngine.Engine.Effects

/-!
The finalizer of a call: when it runs exactly once and to completion, and when
the slot of a dial message is given back. The call task can miss it in two ways
only. A cancel before the first step never enters the body that creates it, and
a cancel during the shielded wait lets the task end before it.
-/
namespace IsalesEngine
open Asyncio Asyncio.Coro

/-- `finalize_session` was started once, has run to its end and dropped the session; what it
did not store is what it logged as failed. -/
structure World.FinalizedOnce (w : World) : Prop where
  once : w.finalize.starts = 1
  finished : w.finalize.stage = .finished
  persisted : .persist ∉ w.finalize.failed → w.finalize.persisted = true
  pushed : .pushCallEnded ∉ w.finalize.failed → w.finalize.callEnded.length = 1
  decremented : .decrement ∉ w.finalize.failed → w.finalize.decrements = 1
  unregistered : w.managed = false

/-- No cancel kept the call task from its first step or made it leave the finalizer early. -/
structure Undisturbed (h : List Mark) : Prop where
  started : .neverStarted ∉ h
  stayed : .leftFinalize ∉ h

/-- Nor did its session fail to be reserved. -/
structure Clean (h : List Mark) : Prop extends Undisturbed h where
  reserved : .unreserved ∉ h

/-- No finalizer exists yet, and nothing stands in its way. -/
structure Unfinalized (f : Finalize) (h : List Mark) : Prop where
  idle : f = {}
  clean : Clean h

/-- A finalizer that was created, and what it has done by the stage it is at. -/
structure Finalizing (f : Finalize) (managed : Bool) : Prop where
  created : f.stage ≠ .notCreated
  once : f.starts = if f.stage = .created then 0 else 1
  cause : f.stage ≠ .created → f.cause.isSome = true
  persisted : f.persisted.toNat + f.failed.count .persist =
    if f.stage = .created ∨ f.stage = .persisting then 0 else 1
  pushed : f.callEnded.length + f.failed.count .pushCallEnded =
    if f.stage = .decrementing ∨ f.stage = .finished then 1 else 0
  decremented : f.decrements + f.failed.count .decrement = if f.stage = .finished then 1 else 0
  unregistered : f.stage = .finished → managed = false

theorem Finalizing.finalizedOnce {w : World} (finalizing : Finalizing w.finalize w.managed)
    (finished : w.finalize.stage = .finished) : w.FinalizedOnce := by
  obtain ⟨-, once, -, persisted, pushed, decremented, unregistered⟩ := finalizing
  simp only [finished] at once persisted pushed decremented
  refine ⟨once, finished, ?_, ?_, ?_, unregistered finished⟩
  · intro stored
    rw [List.count_eq_zero_of_not_mem stored] at persisted
    exact Bool.toNat_eq_one.mp persisted
  · intro stored
    rw [List.count_eq_zero_of_not_mem stored] at pushed
    exact pushed
  · intro stored
    rw [List.count_eq_zero_of_not_mem stored] at decremented
    exact decremented

/-- The ways in which a call task can end, as far as its finalizer is concerned. -/
inductive World.TaskEnd (w : World) : Prop
  | missed (idle : w.finalize = {}) (mark : .neverStarted ∈ w.history)
  | left (finalizing : Finalizing w.finalize w.managed) (unfinished : w.finalize.stage ≠ .finished)
      (mark : .leftFinalize ∈ w.history) (started : .neverStarted ∉ w.history)
      (reserved : .unreserved ∉ w.history)
  | completed (finalizing : Finalizing w.finalize w.managed)
      (finished : w.finalize.stage = .finished) (clean : Clean w.history)

theorem World.TaskEnd.finalizedOnce_iff {w : World} (ended : w.TaskEnd) :
    w.FinalizedOnce ↔ Undisturbed w.history := by
  cases ended with
  | missed idle mark =>
      exact ⟨fun h => absurd h.once (by simp [idle]), fun h => absurd mark h.started⟩
  | left finalizing unfinished mark started reserved =>
      exact ⟨fun h => absurd h.finished unfinished, fun h => absurd mark h.stayed⟩
  | completed finalizing finished clean =>
      exact ⟨fun _ => clean.toUndisturbed, fun _ => finalizing.finalizedOnce finished⟩

namespace Guarantees
variable {cfg : RuntimeConfig} {op : Op} {m : Move} {w w' : World}

/-- Other tasks leave no mark that only a resumption of the call's tasks leaves. -/
theorem resumption_mark_move {mark : Mark}
    (own : mark = .neverStarted ∨ mark = .leftFinalize ∨ mark = .unreserved)
    (moved : (engine cfg).move op m w = some w') : mark ∈ w'.history ↔ mark ∈ w.history := by
  refine (Engine.move_history moved).induct (P := fun h => mark ∈ h ↔ mark ∈ w.history) Iff.rfl ?_
  intro m' h others same
  rw [List.mem_cons, same, or_iff_right]
  rintro rfl
  obtain rfl | rfl | rfl := own
  all_goals cases others

theorem clean_move (before : Clean w.history) (moved : (engine cfg).move op m w = some w') :
    Clean w'.history := by
  refine ⟨⟨?_, ?_⟩, ?_⟩
  · exact mt (resumption_mark_move (.inl rfl) moved).mp before.started
  · exact mt (resumption_mark_move (.inr (.inl rfl)) moved).mp before.stayed
  · exact mt (resumption_mark_move (.inr (.inr rfl)) moved).mp before.reserved

theorem finalize_move (moved : (engine cfg).move op m w = some w') :
    (w'.finalize = w.finalize ∧ w'.managed = w.managed) ∨
      ∃ extract ok, m = .finalize extract ok ∧ w.finalizeStep extract ok = some w' := by
  obtain called | rfl := Engine.move_cases moved
  · exact Engine.callMove_finalize called
  · exact .inl ⟨rfl, rfl⟩

theorem idle_move (idle : w.finalize = {}) (moved : (engine cfg).move op m w = some w') :
    w'.finalize = {} := by
  obtain ⟨same, -⟩ | ⟨extract, ok, -, stepped⟩ := finalize_move moved
  · rw [same, idle]
  · simp [World.finalizeStep, idle] at stepped

theorem unfinalized_move (before : Unfinalized w.finalize w.history)
    (moved : (engine cfg).move op m w = some w') : Unfinalized w'.finalize w'.history :=
  ⟨idle_move before.idle moved, clean_move before.clean moved⟩

theorem finalizing_step {extract ok : Bool} (before : Finalizing w.finalize w.managed)
    (stepped : w.finalizeStep extract ok = some w') : Finalizing w'.finalize w'.managed := by
  obtain ⟨created, once, cause, persisted, pushed, decremented, -⟩ := before
  unfold World.finalizeStep at stepped
  cases stage : w.finalize.stage with
  | notCreated => exact absurd stage created
  | finished => simp [stage] at stepped
  | _ =>
      simp only [stage] at stepped once cause persisted pushed decremented
      obtain rfl := Option.some.inj stepped
      constructor <;> grind

theorem finalizing_move (before : Finalizing w.finalize w.managed)
    (moved : (engine cfg).move op m w = some w') : Finalizing w'.finalize w'.managed := by
  obtain ⟨finalize, managed⟩ | ⟨extract, ok, -, stepped⟩ := finalize_move moved
  · rw [finalize, managed]
    exact before
  · exact finalizing_step before stepped

theorem unfinalized_steps (before : Unfinalized w.finalize w.history)
    (steps : (engine cfg).Steps op w w') : Unfinalized w'.finalize w'.history :=
  Machine.Steps.invariant (J := fun w => Unfinalized w.finalize w.history)
    (fun _ _ _ => unfinalized_move) steps before

theorem finalizing_steps (before : Finalizing w.finalize w.managed)
    (steps : (engine cfg).Steps op w w') : Finalizing w'.finalize w'.managed :=
  Machine.Steps.invariant (J := fun w => Finalizing w.finalize w.managed)
    (fun _ _ _ => finalizing_move) steps before

theorem clean_steps (before : Clean w.history) (steps : (engine cfg).Steps op w w') :
    Clean w'.history :=
  Machine.Steps.invariant (J := fun w => Clean w.history) (fun _ _ _ => clean_move) steps before

theorem finalizeSession_wp (finalizing : Finalizing w.finalize w.managed)
    (clean : Clean w.history) :
    (await .finalizeSession).wp (engine cfg) anything (fun _ w' => w'.TaskEnd) w := by
  refine wp_wait.mpr ⟨trivial, ?_⟩
  intro w₁ w₂ r steps replied
  have finalizing₁ := finalizing_steps finalizing steps
  have clean₁ := clean_steps clean steps
  obtain ⟨w₃, resumed, noted⟩ := Engine.noting_some replied
  obtain ⟨a, rfl, complete, -, rfl⟩ | ⟨rfl, -, rfl⟩ := Engine.answer_some resumed
  · obtain ⟨rfl, -⟩ | ⟨-, unfinished⟩ := noted
    · exact .completed finalizing₁ (of_decide_eq_true complete) clean₁
    · exact absurd (of_decide_eq_true complete) (of_decide_eq_true unfinished)
  · obtain ⟨rfl, finished⟩ | ⟨rfl, unfinished⟩ := noted
    · exact .completed finalizing₁ (not_not.mp (of_decide_eq_false finished)) clean₁
    · exact .left finalizing₁ (of_decide_eq_true unfinished) (List.mem_cons_self ..)
        (by simp [World.note, clean₁.started]) (by simp [World.note, clean₁.reserved])

section
variable (before : Unfinalized w.finalize w.history)
include before

theorem firstStep_wp :
    (await .firstStep).wp (engine cfg) anything (fun r w' => match r with
        | .ok _ => Unfinalized w'.finalize w'.history | .error _ => w'.TaskEnd) w := by
  refine wp_wait.mpr ⟨trivial, ?_⟩
  intro w₁ w₂ r steps replied
  have before₁ := unfinalized_steps before steps
  obtain ⟨w₃, resumed, noted⟩ := Engine.noting_some replied
  obtain ⟨a, rfl, -, -, rfl⟩ | ⟨rfl, -, rfl⟩ := Engine.answer_some resumed
  · obtain ⟨rfl, -⟩ | ⟨-, bad⟩ := noted
    · exact before₁
    · cases bad
  · obtain ⟨-, good⟩ | ⟨rfl, -⟩ := noted
    · cases good
    · exact .missed before₁.idle (List.mem_cons_self ..)

theorem anyRunner_wp : CallTask.anyRunner.wp (engine cfg) anything
      (fun _ w' => Unfinalized w'.finalize w'.history) w := by
  refine wp_wait.mpr ⟨trivial, ?_⟩
  intro w₁ w₂ r steps replied
  have before₁ := unfinalized_steps before steps
  obtain rfl := Option.some.inj replied
  exact before₁

theorem shieldedFinalize_wp :
    CallTask.shieldedFinalize.wp (engine cfg) anything (fun _ w' => w'.TaskEnd) w := by
  refine wp_update_bind.mpr ?_
  refine finalizeSession_wp ⟨nofun, ?_, nofun, ?_, ?_, ?_, nofun⟩ before.clean
  all_goals simp [before.idle]

theorem guardedRunner_wp : (CallTask.guardedRunner CallTask.anyRunner).wp (engine cfg) anything
      (fun r w' => r.isOk ∧ Unfinalized w'.finalize w'.history) w := by
  refine (wp_exceptError _ _).mpr ((wp_exceptCancelled _ _).mpr ((wp_bind _ _).mpr ?_))
  refine (anyRunner_wp before).mono ?_
  intro r w' after
  match r with
  | .ok _ | .error .cancelled | .error (.error e) => exact ⟨rfl, after⟩

theorem callTask_wp :
    (CallTask.callTask CallTask.anyRunner).wp (engine cfg) anything (fun _ w' => w'.TaskEnd) w := by
  refine (firstStep_wp before).bind ?_ (fun _ _ missed => missed)
  intro _ w₁ before₁
  refine (guardedRunner_wp before₁).bind ?_ (fun _ _ failed => nomatch failed.1)
  intro cancelled w₂ ⟨_, before₂⟩
  refine wp.bind (wp.exceptError (Q := fun _ (w : World) => w.TaskEnd)
    (shieldedFinalize_wp before₂) (fun _ _ h => h) (fun _ h => h) (fun _ _ h => h)) ?_
    (fun _ _ h => h)
  intro _ w₃ ended
  cases cancelled with
  | true | false => exact ended

end

/-- For a family of call tasks that have all ended, such as those `cancel_all` waited for: every
session was finalized exactly once if and only if no cancel came before a task's first step or
made it leave its finalizer early. -/
theorem finalized_once_iff_undisturbed {ι : Type} (cfg : RuntimeConfig) (w : ι → World)
    (acts : ι → List (Action sig Move)) (c : ι → Susp sig World Unit)
    (before : ∀ i, Unfinalized (w i).finalize (w i).history)
    (run : ∀ i, (engine cfg).exec (CallTask.callTask CallTask.anyRunner (w i)) (acts i) =
      some (c i))
    (ended : ∀ i, ∃ r, (c i).result? = some r) :
    (∀ i, (c i).state.FinalizedOnce) ↔ ∀ i, Undisturbed (c i).state.history := by
  refine forall_congr' fun i => ?_
  obtain ⟨r, result⟩ := ended i
  have taskEnd : (c i).state.TaskEnd := (callTask_wp (before i)).result (run i) result
  exact taskEnd.finalizedOnce_iff

/-- A session that was just registered by `handle_dial`. -/
def registered : World := { World.initial 1 .rtc with managed := true }

/-- The runner is cancelled and the finalizer then runs to its end. -/
def cancelledRunnerRun : List (Action sig Move) :=
  [.reply .firstStep (.ok ()), .move .cancelAll, .reply .runner (.error .cancelled),
    .move (.finalize false true), .move (.finalize false true), .move (.finalize false true),
    .move (.finalize false true), .reply .finalizeSession (.ok ())]

theorem cancelled_runner_finalized_once :
    ∃ c, (engine .minimal).exec (CallTask.callTask CallTask.anyRunner registered)
      cancelledRunnerRun = some c ∧ c.state.FinalizedOnce := by
  refine exists_of_map (fun c => (c.result?, c.state.history))
    (some (.error .cancelled), [.finalizing, .cancel]) (by decide) fun c run facts => ?_
  obtain ⟨result, history⟩ := Prod.mk.inj facts
  have undisturbed : Undisturbed c.state.history := by
    rw [history]
    exact ⟨by decide, by decide⟩
  exact (finalized_once_iff_undisturbed .minimal (fun _ : Unit => registered)
    (fun _ => cancelledRunnerRun) (fun _ => c) (fun _ => ⟨rfl, ⟨nofun, nofun⟩, nofun⟩)
    (fun _ => run) (fun _ => ⟨_, result⟩)).mpr (fun _ => undisturbed) ()

/-- A cancel before the first step leaves the session registered and never finalized; a cancel
during the shielded wait ends the task while the finalizer has only begun. -/
theorem cancelled_call_task_not_finalized :
    ((engine .minimal).exec (CallTask.callTask CallTask.anyRunner registered)
      [.move .cancelAll, .reply .firstStep (.error .cancelled)]).map
      (fun c => (c.result?, c.state.finalize, c.state.managed)) =
        some (some (.error .cancelled), {}, true) ∧
    ((engine .minimal).exec (CallTask.callTask CallTask.anyRunner registered)
      [.reply .firstStep (.ok ()), .reply .runner (.ok ()), .move .cancelAll,
        .move (.finalize false true), .reply .finalizeSession (.error .cancelled)]).map
      (fun c => (c.result?, c.state.finalize.starts, c.state.finalize.stage, c.state.managed)) =
        some (some (.error .cancelled), 1, .persisting, true) := by
  decide

/-- What one dial message leaves behind once all its tasks have ended or only wait for the
finalizer: either its call task has a finalizer, or it was turned away for good. -/
inductive MessageEnd (msg : DialMessage) (f : Finalize) (managed : Bool) (h : List Mark) : Prop
  | finalizing (finalizing : Finalizing f managed)
      (accepted : DialConsumer.DialMessage.supported msg = true ∧ msg.valid = true)
      (reserved : .unreserved ∉ h) (started : .neverStarted ∉ h)
  | turnedAway (idle : f = {})
      (why : ¬ (DialConsumer.DialMessage.supported msg = true ∧ msg.valid = true) ∨
        .unreserved ∈ h ∨ .neverStarted ∈ h)

variable {msg : DialMessage}

theorem messageEnd_move (before : MessageEnd msg w.finalize w.managed w.history)
    (moved : (engine cfg).move op m w = some w') :
    MessageEnd msg w'.finalize w'.managed w'.history := by
  have reservedMark := resumption_mark_move (.inr (.inr rfl)) moved
  have startedMark := resumption_mark_move (.inl rfl) moved
  cases before with
  | finalizing finalizing accepted reserved started =>
      exact .finalizing (finalizing_move finalizing moved) accepted (mt reservedMark.mp reserved)
        (mt startedMark.mp started)
  | turnedAway idle why =>
      rw [← reservedMark, ← startedMark] at why
      exact .turnedAway (idle_move idle moved) why

theorem messageEnd_steps (before : MessageEnd msg w.finalize w.managed w.history)
    (steps : (engine cfg).Steps op w w') : MessageEnd msg w'.finalize w'.managed w'.history :=
  Machine.Steps.invariant (J := fun w => MessageEnd msg w.finalize w.managed w.history)
    (fun _ _ _ => messageEnd_move) steps before

theorem TaskEnd.messageEnd (ended : w.TaskEnd)
    (accepted : DialConsumer.DialMessage.supported msg = true ∧ msg.valid = true) :
    MessageEnd msg w.finalize w.managed w.history := by
  cases ended with
  | missed idle mark => exact .turnedAway idle (.inr (.inr mark))
  | left finalizing unfinished mark started reserved =>
      exact .finalizing finalizing accepted reserved started
  | completed finalizing finished clean =>
      exact .finalizing finalizing accepted clean.reserved clean.started

/-- The outcome of `handle_dial`: a task was spawned, or nothing more will happen. -/
def Handled (msg : DialMessage) : Reply Bool → World → Prop
  | .ok true, w => Unfinalized w.finalize w.history ∧
      DialConsumer.DialMessage.supported msg = true ∧ msg.valid = true
  | _, w => MessageEnd msg w.finalize w.managed w.history

theorem deadLetter_wp (before : MessageEnd msg w.finalize w.managed w.history) :
    DialConsumer.deadLetter.wp (engine cfg) anything (Handled msg) w := by
  have pushed : (await .dlqPush).wp (engine cfg) anything
      (fun _ w' => MessageEnd msg w'.finalize w'.managed w'.history) w := by
    refine wp_wait.mpr ⟨trivial, ?_⟩
    intro w₁ w₂ r steps replied
    have before₁ := messageEnd_steps before steps
    obtain rfl | rfl := (Engine.plain_some replied).resumed
    · exact before₁
    · exact before₁
  exact pushed.bind (fun _ _ after => after) (fun _ _ after => after)

theorem reserve_wp (msg : DialMessage) (before : Unfinalized w.finalize w.history) :
    (await .reserve).wp (engine cfg) anything
      (fun r w' => match r with
        | .ok _ => Unfinalized w'.finalize w'.history
        | .error _ => MessageEnd msg w'.finalize w'.managed w'.history) w := by
  refine wp_wait.mpr ⟨trivial, ?_⟩
  intro w₁ w₂ r steps replied
  have before₁ := unfinalized_steps before steps
  obtain ⟨w₃, resumed, noted⟩ := Engine.noting_some replied
  have same : Unfinalized w₃.finalize w₃.history := by
    obtain rfl | rfl := (Engine.plain_some resumed).resumed
    · exact before₁
    · exact before₁
  cases r with
  | ok _ =>
      obtain ⟨rfl, -⟩ | ⟨-, bad⟩ := noted
      · exact same
      · cases bad
  | error e =>
      obtain ⟨-, good⟩ | ⟨rfl, -⟩ := noted
      · cases good
      · exact .turnedAway same.idle (.inr (.inl (List.mem_cons_self ..)))

section
variable (before : Unfinalized w.finalize w.history)
include before

theorem handleDial_wp : (DialConsumer.handleDial msg).wp (engine cfg) anything (Handled msg) w := by
  unfold DialConsumer.handleDial
  split
  · rename_i unsupported
    exact deadLetter_wp (.turnedAway before.idle (.inl (by simp [unsupported])))
  · split
    · rename_i invalid
      exact deadLetter_wp (.turnedAway before.idle (.inl (by simp [invalid])))
    · rename_i supported valid
      have accepted : DialConsumer.DialMessage.supported msg = true ∧ msg.valid = true :=
        ⟨Bool.not_eq_false _ ▸ supported, Bool.not_eq_false _ ▸ valid⟩
      refine (wp_bind _ _).mpr ((wp_exceptError _ _).mpr ((wp_bind _ _).mpr ?_))
      refine (reserve_wp msg before).mono ?_
      intro r w₁ reserved
      match r with
      | .ok _ => exact ⟨reserved, accepted⟩
      | .error .cancelled => exact reserved
      | .error (.error e) => exact deadLetter_wp reserved

theorem dialMessage_wp : (DialConsumer.dialMessage msg CallTask.anyRunner).wp (engine cfg) anything
      (fun _ w' => MessageEnd msg w'.finalize w'.managed w'.history) w := by
  refine wp.bind (P := Handled msg) ?_ ?_ (fun _ _ away => away)
  · exact (handleDial_wp before).exceptError (fun _ _ h => h) (fun _ h => h) (fun _ _ h => h)
  · intro spawned w₁ handled
    cases spawned with
    | true => exact (callTask_wp handled.1).mono fun _ _ ended => TaskEnd.messageEnd ended handled.2
    | false => exact handled

theorem settled_wp :
    (CallTask.settled (DialConsumer.dialMessage msg CallTask.anyRunner)).wp (engine cfg)
      anything (fun _ w' => MessageEnd msg w'.finalize w'.managed w'.history ∧
        (w'.finalize.stage = .notCreated ∨ w'.finalize.stage = .finished)) w := by
  refine wp_andThen.mpr ((dialMessage_wp before).mono ?_)
  intro r w₁ ended
  refine (wp_bind _ _).mpr ?_
  refine wp_wait.mpr ⟨trivial, ?_⟩
  intro w₂ w₃ r' steps replied
  have ended₂ := messageEnd_steps ended steps
  obtain ⟨ok, complete, rfl⟩ := Engine.reply_mainDone cfg replied
  cases r' with
  | ok _ => exact ⟨ended₂, complete⟩
  | error e => cases ok

end

/-- Once all tasks of a message have ended, its slot was given back exactly once if and only if
the message was accepted and reserved and its call task reached its first step. -/
theorem slot_returned_once_iff (cfg : RuntimeConfig) (msg : DialMessage) (w : World)
    (acts : List (Action sig Move)) (c : Susp sig World Unit)
    (before : Unfinalized w.finalize w.history)
    (run : (engine cfg).exec
      (CallTask.settled (DialConsumer.dialMessage msg CallTask.anyRunner) w) acts = some c)
    (ended : ∃ r, c.result? = some r)
    (redis : .decrement ∉ c.state.finalize.failed) :
    c.state.finalize.decrements = 1 ↔
      (DialConsumer.DialMessage.supported msg = true ∧ msg.valid = true) ∧
        .unreserved ∉ c.state.history ∧ .neverStarted ∉ c.state.history := by
  obtain ⟨r, result⟩ := ended
  obtain ⟨messageEnd, complete⟩ := (settled_wp before).result run result
  cases messageEnd with
  | finalizing finalizing accepted reserved started =>
      have finished : c.state.finalize.stage = .finished := complete.resolve_left finalizing.created
      exact ⟨fun _ => ⟨accepted, reserved, started⟩,
        fun _ => (finalizing.finalizedOnce finished).decremented redis⟩
  | turnedAway idle why =>
      have none : c.state.finalize.decrements ≠ 1 := by simp [idle]
      refine ⟨fun h => absurd h none, ?_⟩
      rintro ⟨accepted, reserved, started⟩
      obtain rejected | mark | mark := why
      · exact absurd accepted rejected
      · exact absurd mark reserved
      · exact absurd mark started

/-- A message of the supported version that passes validation. -/
def dialMessageV1 : DialMessage := ⟨some 1, true⟩

/-- It is reserved, its runner returns, and the finalizer runs to its end. -/
def servedRun : List (Action sig Move) :=
  [.reply .reserve (.ok ()), .reply .firstStep (.ok ()), .reply .runner (.ok ()),
    .move (.finalize false true), .move (.finalize false true), .move (.finalize false true),
    .move (.finalize false true), .reply .finalizeSession (.ok ()), .reply .mainDone (.ok ())]

theorem served_message_slot_returned_once :
    ∃ c, (engine .minimal).exec
      (CallTask.settled (DialConsumer.dialMessage dialMessageV1 CallTask.anyRunner)
        (World.initial 1 .rtc)) servedRun = some c ∧ c.state.finalize.decrements = 1 := by
  refine exists_of_map (fun c => (c.result?, c.state.history, c.state.finalize.failed))
    (some (.ok ()), [.finalizing], []) (by decide) fun c run facts => ?_
  obtain ⟨result, facts⟩ := Prod.mk.inj facts
  obtain ⟨history, failed⟩ := Prod.mk.inj facts
  refine (slot_returned_once_iff .minimal dialMessageV1 (World.initial 1 .rtc) servedRun c
    ⟨rfl, ⟨nofun, nofun⟩, nofun⟩ run ⟨_, result⟩ (by simp [failed])).mpr ?_
  rw [history]
  decide

/-- A message that is dead-lettered, for its version, its content or a failed reservation, never
gives its slot back. -/
theorem dead_letter_keeps_slot :
    ((engine .minimal).exec
      (CallTask.settled (DialConsumer.dialMessage ⟨some 2, true⟩ CallTask.anyRunner)
        (World.initial 1 .rtc))
      [.reply .dlqPush (.ok ()), .reply .mainDone (.ok ())]).map
      (fun c => (c.result?, c.state.deadLetters, c.state.finalize.decrements)) =
        some (some (.ok ()), 1, 0) ∧
    ((engine .minimal).exec
      (CallTask.settled (DialConsumer.dialMessage ⟨some 1, false⟩ CallTask.anyRunner)
        (World.initial 1 .rtc))
      [.reply .dlqPush (.ok ()), .reply .mainDone (.ok ())]).map
      (fun c => (c.result?, c.state.deadLetters, c.state.finalize.decrements)) =
        some (some (.ok ()), 1, 0) ∧
    ((engine .minimal).exec
      (CallTask.settled (DialConsumer.dialMessage dialMessageV1 CallTask.anyRunner)
        (World.initial 1 .rtc))
      [.reply .reserve (.error (.error (.other "db"))), .reply .dlqPush (.ok ()),
        .reply .mainDone (.ok ())]).map
      (fun c => (c.result?, c.state.deadLetters, c.state.finalize.decrements)) =
        some (some (.ok ()), 1, 0) := by
  refine ⟨?_, ?_, ?_⟩ <;> decide

end Guarantees
end IsalesEngine
