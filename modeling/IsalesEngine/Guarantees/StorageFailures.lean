import IsalesEngine.FinalizeSession
import IsalesEngine.Engine.Tasks

/-!
Finalization under failures of the storage. Whatever commands raise, every loop
of `finalize_session` comes to its end and the next one is entered.
-/
namespace IsalesEngine
open Asyncio Asyncio.Coro FinalizeSession

/-- What the order of the commands is about. -/
inductive Milestone where
  | extract | callEnded | decrement
  deriving DecidableEq, Repr

def Milestone.rank : Milestone → Nat
  | .extract => 0
  | .callEnded => 1
  | .decrement => 2

/-- A message that was pushed for the call `id`, or an attempt to decrement. -/
def Issued.milestone? (id : Nat) : Issued → Option Milestone
  | ⟨.lpush _ (.extract call ..), true⟩ => if call = id then some .extract else none
  | ⟨.lpush _ (.callEnded call ..), true⟩ => if call = id then some .callEnded else none
  | ⟨.decr, _⟩ => some .decrement
  | _ => none

/-- An attempt to push `CallEnded` that raised. -/
def Issued.missesCallEnded : Issued → Bool
  | ⟨.lpush _ (.callEnded ..), false⟩ => true
  | _ => false

namespace Storage

def milestones (s : Storage) (id : Nat) : List Milestone := s.issued.filterMap (·.milestone? id)

def missed (s : Storage) : Nat := s.issued.countP Issued.missesCallEnded

/-- Where the call is in `_decr_concurrency`. -/
def stage? (s : Storage) (i : Nat) : Option DecrStage := s.concurrency.calls[i]?.map DecrCall.stage

/-- When the call ended, according to its row. -/
def endedAt? (s : Storage) : Option Nat :=
  (s.record.bind CallRecord.finished).map FinishedColumns.endedAt

end Storage

/-- What a finalizer has done so far. -/
structure Course where
  extracted : Bool := false
  pushed : Bool := false
  decrements : Nat := 0
  missed : Nat := 0
  stage : DecrStage := .decr 1

namespace Course

def milestones (c : Course) : List Milestone :=
  (if c.extracted then [.extract] else []) ++ (if c.pushed then [.callEnded] else []) ++
    List.replicate c.decrements .decrement

/-- The commands on the counter that `_decr_concurrency` can issue at its stage. -/
def Allows (c : Course) : StorageCommand → Prop
  | .decr => ∃ attempt, c.stage = .decr attempt
  | .set => ∃ attempt, c.stage = .clamp attempt
  | _ => True

theorem count_extract (c : Course) : c.milestones.count .extract = c.extracted.toNat := by
  obtain ⟨_ | _, _ | _, k, m, stage⟩ := c <;> simp [milestones, List.count_replicate]

theorem count_callEnded (c : Course) : c.milestones.count .callEnded = c.pushed.toNat := by
  obtain ⟨_ | _, _ | _, k, m, stage⟩ := c <;> simp [milestones, List.count_replicate]

theorem ordered (c : Course) : c.milestones.Pairwise (fun a b => a.rank ≤ b.rank) := by
  obtain ⟨_ | _, _ | _, k, m, stage⟩ := c <;>
    simp [milestones, Milestone.rank, List.pairwise_replicate]

end Course

/-- A command that was answered takes the course to `c'`. -/
structure Course.Next (c : Course) (id : Nat) (issued : Issued) (c' : Course) : Prop where
  milestones : c'.milestones = c.milestones ++ (issued.milestone? id).toList
  missed : c'.missed = c.missed + issued.missesCallEnded.toNat

/-- The finalizer of call `i` has gone through `c`, and at most `left` answers are to come. -/
structure Within (i id left : Nat) (c : Course) (s : Storage) : Prop where
  length : s.issued.length + left ≤ 32
  milestones : s.milestones id = c.milestones
  missed : s.missed = c.missed
  stage : s.stage? i = some c.stage

section Steps
variable {i id left : Nat} {c c' : Course} {s s' : Storage} {command : RedisCommand}
  {m : StorageMove}

/-- A command on the counter is a step of the call it belongs to. -/
theorem Storage.count_some (counted : s.count command = some s') :
    s' = { s with concurrency := s'.concurrency } ∧
      s.concurrency.step command = some s'.concurrency := by
  obtain ⟨counter, stepped, rfl⟩ := Option.map_eq_some_iff.mp counted
  exact ⟨rfl, stepped⟩

/-- A command of another call leaves this one at its stage. -/
theorem Concurrency.step_other {k k' : Concurrency} (stepped : k.step command = some k')
    (other : command.call? ≠ some i) : k'.calls[i]? = k.calls[i]? := by
  cases step_stepped stepped with
  | incr => rfl
  | decr own stage | clamp own stage | decrFailed own stage | clampFailed own stage =>
      exact List.getElem?_set_ne fun same => other (congrArg some same)

/-- The extraction has a column of its own. -/
theorem Storage.endedAt?_extractStatus (s : Storage) (status : Option String) :
    { s with record := s.record.map fun r : CallRecord =>
      { r with extractStatus := status } }.endedAt? = s.endedAt? := by
  unfold endedAt?
  cases s.record <;> rfl

/-- What a move leaves alone. -/
theorem Storage.move_own (moved : s.move i m = some s') :
    s'.issued = s.issued ∧ s'.stage? i = s.stage? i ∧ s'.endedAt? = s.endedAt? ∧
      s'.record.isSome = s.record.isSome := by
  cases m with
  | counter command =>
      simp only [move] at moved
      split at moved
      · cases moved
      · rename_i other
        obtain ⟨same, stepped⟩ := count_some moved
        rw [same]
        exact ⟨rfl, congrArg _ (Concurrency.step_other stepped other), rfl, rfl⟩
  | extracted status =>
      cases moved
      exact ⟨rfl, rfl, endedAt?_extractStatus s _, Option.isSome_map⟩
  | register _ | unregister _ | session _ _ =>
      cases moved
      exact ⟨rfl, rfl, rfl, rfl⟩

theorem Within.move {op : StorageCommand} (within : Within i id left c s)
    (moved : (storage i).move op m s = some s') : Within i id left c s' := by
  obtain ⟨issued, stage, -⟩ := Storage.move_own moved
  obtain ⟨length, milestones, missed, at_⟩ := within
  refine ⟨?_, ?_, ?_, stage.trans at_⟩
  · rwa [issued]
  · rwa [Storage.milestones, issued]
  · rwa [Storage.missed, issued]

/-- One command more was answered. -/
theorem Within.issue {command : StorageCommand} {applied : Bool}
    (within : Within i id (left + 1) c s) (issued : s'.issued = s.issued ++ [⟨command, applied⟩])
    (stage : s'.stage? i = some c'.stage) (next : c.Next id ⟨command, applied⟩ c') :
    Within i id left c' s' := by
  obtain ⟨length, milestones, missed, -⟩ := within
  refine ⟨?_, ?_, ?_, stage⟩
  · rw [issued, List.length_append, List.length_singleton]
    omega
  · rw [Storage.milestones, issued, List.filterMap_append, next.milestones, ← milestones]
    cases marked : Issued.milestone? id ⟨command, applied⟩ <;> simp [marked, Storage.milestones]
  · rw [Storage.missed, issued, List.countP_append, next.missed, ← missed]
    cases misses : Issued.missesCallEnded ⟨command, applied⟩ <;> simp [misses, Storage.missed]

end Steps

/-- A command that is not on the counter. -/
def StorageCommand.plain : StorageCommand → Bool
  | .decr | .set => false
  | _ => true

/-- A command that is no milestone, nor a miss of one. -/
def StorageCommand.quiet : StorageCommand → Bool
  | .decr | .set | .lpush .. => false
  | _ => true

/-- What a finalizer is found with at an await. -/
def AwaitsAnswer (i id : Nat) (op : StorageCommand) (s : Storage) : Prop :=
  ∃ left c, Within i id (left + 1) c s ∧ c.Allows op

theorem StorageCommand.quiet_next {op : StorageCommand} (quiet : op.quiet = true) (c : Course)
    (id : Nat) (applied : Bool) : c.Next id ⟨op, applied⟩ c := by
  cases op with
  | decr | set | lpush _ _ => cases quiet
  | _ => exact ⟨(List.append_nil _).symm, rfl⟩

/-- A part of a finalizer whose awaits are answered: it raises in `E` or returns in `K`. -/
abbrev Answers (i id : Nat) {α : Type} (x : Proc α) (E : Storage → Prop) (K : α → Storage → Prop)
    (s : Storage) : Prop := x.wp (storage i) (AwaitsAnswer i id) (outcomes (fun _ => False) E K) s

/-- A part of a finalizer that does not raise. -/
abbrev Returns (i id : Nat) {α : Type} (x : Proc α) (K : α → Storage → Prop) (s : Storage) : Prop :=
  Answers i id x (fun _ => False) K s

section Rules
variable {i id left rest attempt startedAt endedAt : Nat} {c : Course} {s s' : Storage}
  {op : StorageCommand} {queue : String} {call : DialedCall} {body : Proc Unit}
  {applied extracted : Bool}

theorem Storage.applied_plain (plain : op.plain = true) {answer : op.Res}
    (applied : s.applied i op answer = some s') :
    s'.issued = s.issued ++ [⟨op, true⟩] ∧ s'.stage? i = s.stage? i := by
  cases op with
  | get id =>
      simp only [Storage.applied] at applied
      split at applied
      · cases applied
        exact ⟨rfl, rfl⟩
      · cases applied
  | commit write =>
      cases applied
      cases write <;> exact ⟨rfl, rfl⟩
  | execute _ | close | lpush _ _ | sleep _ =>
      cases applied
      exact ⟨rfl, rfl⟩
  | decr | set => cases plain

theorem Storage.raised_plain (plain : op.plain = true) (raised : s.raised i op = some s') :
    s'.issued = s.issued ++ [⟨op, false⟩] ∧ s'.stage? i = s.stage? i := by
  cases op with
  | get _ | commit _ | execute _ | close | lpush _ _ =>
      cases raised
      exact ⟨rfl, rfl⟩
  | sleep _ => cases raised
  | decr | set => cases plain

/-- The rule of an await: what other parties do before the answer leaves the course alone. -/
theorem issue_wp {E : Storage → Prop} {K : op.Res → Storage → Prop}
    (within : Within i id (left + 1) c s) (allowed : c.Allows op)
    (raises : ∀ s s', Within i id (left + 1) c s → s.raised i op = some s' → E s')
    (applies : ∀ s s' a, Within i id (left + 1) c s → s.applied i op a = some s' → K a s') :
    Answers i id (issue op) E K s := by
  refine wp_wait.mpr ⟨⟨left, c, within, allowed⟩, ?_⟩
  intro s₁ s₂ r steps replied
  have within₁ : Within i id (left + 1) c s₁ :=
    Machine.Steps.invariant (J := Within i id (left + 1) c)
      (fun _ _ _ here moved => here.move moved) steps within
  match r with
  | .ok a => exact applies s₁ s₂ a within₁ replied
  | .error (.error _) => exact raises s₁ s₂ within₁ replied
  | .error .cancelled => cases replied

/-- The rule of an await of a command that is not on the counter. -/
theorem issue_plain {c₁ c₂ : Course} (plain : op.plain = true) (within : Within i id (left + 1) c s)
    (due₁ : c₁.stage = c.stage) (due₂ : c₂.stage = c.stage) (raises : c.Next id ⟨op, false⟩ c₁)
    (applies : c.Next id ⟨op, true⟩ c₂) :
    Answers i id (issue op) (Within i id left c₁) (fun _ => Within i id left c₂) s := by
  have allowed : c.Allows op := by cases op <;> trivial
  refine issue_wp within allowed ?_ ?_
  · intro s₁ s₂ here raised
    obtain ⟨issued, stage⟩ := Storage.raised_plain plain raised
    exact here.issue issued (due₁ ▸ stage.trans here.stage) raises
  · intro s₁ s₂ a here applied
    obtain ⟨issued, stage⟩ := Storage.applied_plain plain applied
    exact here.issue issued (due₂ ▸ stage.trans here.stage) applies

theorem issue_quiet (quiet : op.quiet = true) (within : Within i id (left + 1) c s) :
    Answers i id (issue op) (Within i id left c) (fun _ => Within i id left c) s := by
  have plain : op.plain = true := by cases op <;> trivial
  exact issue_plain plain within rfl rfl (op.quiet_next quiet ..) (op.quiet_next quiet ..)

theorem issue_sleep {ms : Nat} (within : Within i id (left + 1) c s) :
    Returns i id (issue (.sleep ms)) (fun _ => Within i id left c) s := by
  refine issue_wp within trivial (fun _ _ _ raised => nomatch raised) ?_
  intro s₁ s₂ a here applied
  obtain ⟨issued, stage⟩ := Storage.applied_plain rfl applied
  exact here.issue issued (stage.trans here.stage) (StorageCommand.quiet_next rfl ..)

/-- The rule of a retry loop: an attempt with `n` more to go ends in `E n` if it raises. -/
theorem retrying_wp {I : StorageCommand → Storage → Prop} {J E : Nat → Storage → Prop}
    {K : Storage → Prop}
    (tries : ∀ n s, J n s → body.wp (storage i) I (outcomes (fun _ => False) (E n) fun _ => K) s)
    (rests : ∀ n ms s, E (n + 1) s → (issue (.sleep ms)).wp (storage i) I
      (outcomes (fun _ => False) (fun _ => False) fun _ => J n) s)
    (n backoff : Nat) (s : Storage) (holds : J n s) :
    (retrying body (n + 1) backoff).wp (storage i) I
      (outcomes (fun _ => False) (fun _ => False) fun ok s => if ok then K s else E 0 s) s := by
  induction n generalizing backoff s with
  | zero =>
      refine wp.exceptError (P := outcomes (fun _ => False) (E 0) fun ok s => ok = true ∧ K s)
        ((tries 0 s holds).seq fun _ _ done => ⟨rfl, done⟩) ?_ (fun _ h => h) ?_
      · rintro a s₁ ⟨rfl, done⟩
        exact done
      · exact fun _ _ failed => failed
  | succ n ih =>
      refine wp.exceptError (P := outcomes (fun _ => False) (E (n + 1)) fun ok s => ok = true ∧ K s)
        ((tries (n + 1) s holds).seq fun _ _ done => ⟨rfl, done⟩) ?_ (fun _ h => h) ?_
      · rintro a s₁ ⟨rfl, done⟩
        exact done
      · exact fun _ s₁ failed => (rests n backoff s₁ failed).seq fun _ s₂ => ih (2 * backoff) s₂

theorem Within.le {left' : Nat} (within : Within i id left c s) (fewer : left' ≤ left) :
    Within i id left' c s :=
  { within with length := Nat.le_trans (Nat.add_le_add_left fewer _) within.length }

theorem withDatabase_wp (inside : Answers i id body (Within i id (left + 1) c)
    (fun _ => Within i id (left + 1) c) s) :
    Answers i id (withDatabase body) (Within i id left c) (fun _ => Within i id left c) s := by
  refine wp.andFinally inside ?_
  intro r s₁ here
  match r with
  | .ok _ | .error (.error _) =>
      refine (issue_quiet rfl here).mono ?_
      rintro (_ | _) s₂ after
      · exact after
      · exact after
  | .error .cancelled => exact here.elim

theorem writeInTransaction_wp (within : Within i id (left + 2) c s) :
    Answers i id (writeInTransaction call startedAt endedAt) (Within i id left c)
      (fun _ => Within i id left c) s := by
  refine (issue_quiet rfl within).bind ?_ ?_
  · rintro (_ | _) s₁ here
    · exact issue_quiet rfl here
    · exact issue_quiet rfl here
  · rintro (_ | _) s₁ here
    · exact here
    · exact here.le (Nat.le_succ _)

theorem persistCallRecord_wp (within : Within i id (rest + 11) c s) :
    Returns i id (persistCallRecord call startedAt endedAt) (fun _ => Within i id rest c) s := by
  refine (retrying_wp (J := fun n => Within i id (4 * n + rest + 3) c)
    (E := fun n => Within i id (4 * n + rest) c) (K := Within i id rest c) ?_ ?_ 2 _ s ?_).imp ?_
  · intro n s₁ here
    refine (withDatabase_wp (writeInTransaction_wp here)).imp fun _ _ h => ?_
    exact h.le (Nat.le_add_left _ _)
  · intro n ms s₁ here
    exact issue_sleep (here.le (by omega))
  · exact within.le (by omega)
  · rintro (_ | _) s₁ here
    · exact here.le (by omega)
    · exact here

theorem issue_extract {turns : List DialogTurn} {role prompt : Nat}
    (within : Within i id (left + 1) {} s) :
    Answers i id (issue (.lpush queue (.extract id turns role prompt))) (Within i id left {})
      (fun _ => Within i id left { extracted := true }) s :=
  issue_plain rfl within rfl rfl ⟨rfl, rfl⟩
    ⟨by simp [Course.milestones, Issued.milestone?], rfl⟩

theorem lpushExtract_wp (within : Within i call.callRecordId (rest + 8) {} s) :
    Returns i call.callRecordId (lpushExtract call)
      (fun _ s => ∃ extracted, Within i call.callRecordId rest { extracted } s) s := by
  refine wp_read_bind.mpr (wp.seq (retrying_wp
    (J := fun n => Within i call.callRecordId (2 * n + rest + 4) {})
    (E := fun n => Within i call.callRecordId (2 * n + rest + 3) {})
    (K := Within i call.callRecordId (rest + 3) { extracted := true })
    ?_ ?_ 2 _ s (within.le (by omega))) ?_)
  · intro n s₁ here
    exact (issue_extract here).imp fun _ _ h => h.le (by omega)
  · intro n ms s₁ here
    exact issue_sleep (here.le (by omega))
  · rintro (_ | _) s₁ here
    · exact ⟨false, here.le (by omega)⟩
    · refine wp.seq (L := fun _ s => Within i call.callRecordId rest { extracted := true } s) ?_
        fun _ s₂ after => ⟨true, after⟩
      refine wp.exceptError (withDatabase_wp ((issue_quiet rfl here).bind
        (fun _ _ h => issue_quiet rfl h) ?_)) (fun _ _ h => h) (fun _ h => h) fun _ _ h => h
      rintro (_ | _) s₂ h
      · exact h
      · exact h.le (Nat.le_succ _)

theorem issue_callEnded {cause : HangupCause} {missed : Nat}
    (within : Within i id (left + 1) { extracted, missed } s) :
    Answers i id (issue (.lpush queue (.callEnded id cause endedAt)))
      (Within i id left { extracted, missed := missed + 1 })
      (fun _ => Within i id left { extracted, pushed := true, missed }) s :=
  issue_plain rfl within rfl rfl ⟨by simp [Course.milestones, Issued.milestone?], rfl⟩
    ⟨by simp [Course.milestones, Issued.milestone?], rfl⟩

/-- `CallEnded` is pushed, or three attempts to push it have raised. -/
theorem lpushCallEnded_wp {cause : HangupCause} (within : Within i id (rest + 5) { extracted } s) :
    Returns i id (lpushCallEnded queue id cause endedAt) (fun ok s => ∃ missed,
      (ok = true ∨ missed = 3) ∧ Within i id rest { extracted, pushed := ok, missed } s) s := by
  refine (retrying_wp
    (J := fun n s => n ≤ 2 ∧ Within i id (2 * n + rest + 1) { extracted, missed := 2 - n } s)
    (E := fun n s => n ≤ 2 ∧ Within i id (2 * n + rest) { extracted, missed := 3 - n } s)
    (K := fun s => ∃ missed, Within i id rest { extracted, pushed := true, missed } s)
    ?_ ?_ 2 _ s ⟨Nat.le_refl 2, within.le (by omega)⟩).imp ?_
  · intro n s₁ ⟨bound, here⟩
    refine (issue_callEnded here).mono (outcomes_mono (fun _ h => h) ?_ ?_)
    · intro s₂ after
      rw [show 2 - n + 1 = 3 - n by omega] at after
      exact ⟨bound, after⟩
    · exact fun _ _ after => ⟨_, after.le (by omega)⟩
  · intro n ms s₁ ⟨bound, here⟩
    have here' : Within i id (2 * n + rest + 1 + 1) { extracted, missed := 2 - n } s₁ := by
      rw [show 3 - (n + 1) = 2 - n by omega] at here
      exact here.le (by omega)
    exact (issue_sleep here').imp fun _ _ after => ⟨by omega, after⟩
  · rintro (_ | _) s₁ here
    · exact ⟨3, .inr rfl, here.2.le (by omega)⟩
    · exact here.imp fun missed after => ⟨.inl rfl, after⟩

/-- The command on the counter that is due at a stage. -/
def DecrStage.command? (i : Nat) (applied : Bool) : DecrStage → Option RedisCommand
  | .decr _ => some (.decr i applied)
  | .clamp _ => some (.set i applied)
  | .returned _ => none

/-- Where the command takes the call if it leaves the counter at `active`. -/
def DecrStage.next (applied : Bool) (active : Int) : DecrStage → DecrStage
  | .decr attempt =>
      if applied then if active < 0 then .clamp attempt else .returned true
      else Concurrency.retry attempt
  | .clamp attempt => if applied then .returned true else Concurrency.retry attempt
  | .returned ok => .returned ok

/-- A command on the counter that is due can be issued. -/
theorem Storage.count_due {stage : DecrStage} {command : RedisCommand} (applied : Bool)
    (due : s.stage? i = some stage) (asks : stage.command? i applied = some command) :
    ∃ s', s.count command = some s' ∧ s'.issued = s.issued ∧
      s'.stage? i = some (stage.next applied s'.concurrency.active) := by
  obtain ⟨call, own, rfl⟩ := Option.map_eq_some_iff.mp due
  have bound := (List.getElem?_eq_some_iff.mp own).1
  cases stage : call.stage with
  | returned _ =>
      rw [stage] at asks
      cases asks
  | decr attempt | clamp attempt =>
      rw [stage] at asks
      cases asks
      simp only [count, Concurrency.step, own, stage, Option.map_some]
      refine ⟨_, rfl, rfl, ?_⟩
      cases applied <;> simp [stage?, DecrStage.next, Concurrency.decr, Concurrency.clamp,
        Concurrency.failed, bound]

theorem Storage.count_own {stage : DecrStage} {command : RedisCommand}
    (due : s.stage? i = some stage) (asks : stage.command? i applied = some command)
    (counted : s.count command = some s') :
    s'.issued = s.issued ∧ s'.stage? i = some (stage.next applied s'.concurrency.active) := by
  obtain ⟨s₁, same, facts⟩ := count_due applied due asks
  rwa [← Option.some.inj (counted.symm.trans same)] at facts

theorem issue_decr (within : Within i id (left + 1) c s) (due : c.stage = .decr attempt) :
    Answers i id (issue .decr)
      (Within i id left { c with
        decrements := c.decrements + 1, stage := Concurrency.retry attempt })
      (fun (new : Int) => Within i id left { c with
        decrements := c.decrements + 1
        stage := if new < 0 then .clamp attempt else .returned true }) s := by
  have next (applied : Bool) (stage : DecrStage) : c.Next id ⟨.decr, applied⟩
      { c with decrements := c.decrements + 1, stage } := by
    refine ⟨?_, by cases applied <;> rfl⟩
    cases applied <;> simp [Course.milestones, List.replicate_succ', Issued.milestone?]
  refine issue_wp within ⟨attempt, due⟩ ?_ ?_
  · intro s₁ s₂ here raised
    obtain ⟨s₃, counted, rfl⟩ := Option.map_eq_some_iff.mp raised
    obtain ⟨issued, stage⟩ := Storage.count_own (due ▸ here.stage) rfl counted
    exact here.issue (congrArg (· ++ _) issued) stage (next _ _)
  · intro s₁ s₂ new here applied
    obtain ⟨s₃, counted, answered⟩ := Option.bind_eq_some_iff.mp applied
    obtain ⟨issued, stage⟩ := Storage.count_own (due ▸ here.stage) rfl counted
    obtain ⟨rfl, rfl⟩ := of_guard answered
    exact here.issue (congrArg (· ++ _) issued) stage (next _ _)

theorem issue_set (within : Within i id (left + 1) c s) (due : c.stage = .clamp attempt) :
    Answers i id (issue .set) (Within i id left { c with stage := Concurrency.retry attempt })
      (fun _ => Within i id left { c with stage := .returned true }) s := by
  refine issue_wp within ⟨attempt, due⟩ ?_ ?_
  · intro s₁ s₂ here raised
    obtain ⟨s₃, counted, rfl⟩ := Option.map_eq_some_iff.mp raised
    obtain ⟨issued, stage⟩ := Storage.count_own (due ▸ here.stage) rfl counted
    exact here.issue (congrArg (· ++ _) issued) stage ⟨(List.append_nil _).symm, rfl⟩
  · intro s₁ s₂ new here applied
    obtain ⟨s₃, counted, rfl⟩ := Option.map_eq_some_iff.mp applied
    obtain ⟨issued, stage⟩ := Storage.count_own (due ▸ here.stage) rfl counted
    exact here.issue (congrArg (· ++ _) issued) stage ⟨(List.append_nil _).symm, rfl⟩

/-- One attempt at the decrement. -/
theorem decrOnce_wp (within : Within i id (left + 2) c s)
    (due : c.stage = .decr attempt) :
    Answers i id (do let new ← issue .decr; Coro.when (decide (new < 0)) (issue .set) : Proc Unit)
      (Within i id left { c with
        decrements := c.decrements + 1, stage := Concurrency.retry attempt })
      (fun _ => Within i id left { c with
        decrements := c.decrements + 1, stage := .returned true }) s := by
  refine (issue_decr within due).bind ?_ ?_
  · intro (new : Int) s₁ here
    by_cases below : new < 0
    · rw [outcomes_ok, if_pos below] at here
      rw [decide_eq_true below]
      exact issue_set here rfl
    · rw [outcomes_ok, if_neg below] at here
      rw [decide_eq_false below]
      exact here.le (Nat.le_succ _)
  · rintro (_ | _) s₁ here
    · exact here
    · exact here.le (Nat.le_succ _)

/-- The counter is decremented at least once, or three attempts have been made. -/
theorem decrConcurrency_wp {pushed : Bool} {missed : Nat}
    (within : Within i id (rest + 8) { extracted, pushed, missed } s) :
    Returns i id decrConcurrency (fun ok s => ∃ decrements, 0 < decrements ∧
      Within i id rest { extracted, pushed, missed, decrements, stage := .returned ok } s) s := by
  let made (decrements : Nat) (stage : DecrStage) : Course :=
    { extracted, pushed, missed, decrements, stage }
  refine (retrying_wp
    (J := fun n s => n ≤ 2 ∧ Within i id (3 * n + rest + 2) (made (2 - n) (.decr (3 - n))) s)
    (E := fun n s => n ≤ 2 ∧
      Within i id (3 * n + rest) (made (3 - n) (Concurrency.retry (3 - n))) s)
    (K := fun s => ∃ n, 0 < n ∧ Within i id rest (made n (.returned true)) s)
    ?_ ?_ 2 _ s ⟨Nat.le_refl 2, within.le (by omega)⟩).imp ?_
  · intro n s₁ ⟨bound, here⟩
    refine (decrOnce_wp here rfl).mono (outcomes_mono (fun _ h => h) ?_ ?_)
    · intro s₂ after
      rw [show (made (2 - n) (.decr (3 - n))).decrements + 1 = 3 - n by
        show 2 - n + 1 = _; omega] at after
      exact ⟨bound, after⟩
    · exact fun _ _ after => ⟨_, Nat.succ_pos _, after.le (by omega)⟩
  · intro n ms s₁ ⟨bound, here⟩
    have here' : Within i id (3 * n + rest + 2 + 1) (made (2 - n) (.decr (3 - n))) s₁ := by
      rw [show 3 - (n + 1) = 2 - n by omega, Concurrency.retry,
        if_pos (by simp [Concurrency.maxRetries]; omega), show 2 - n + 1 = 3 - n by omega] at here
      exact here.le (by omega)
    exact (issue_sleep here').imp fun _ _ after => ⟨by omega, after⟩
  · rintro (_ | _) s₁ here
    · exact ⟨3, by omega, here.2.le (by omega)⟩
    · exact here

end Rules

/-- Before the first command. -/
theorem Within.start {i : Nat} {s : Storage} (id : Nat) (fresh : s.issued = [])
    (due : s.stage? i = some (.decr 1)) : Within i id 32 {} s where
  length := by simp [fresh]
  milestones := by simp [Storage.milestones, fresh, Course.milestones]
  missed := by simp [Storage.missed, fresh]
  stage := due

/-- A finalizer that has returned. -/
structure FinalizerEnd (i : Nat) (call : DialedCall) (s : Storage) : Prop where
  unregistered : call.callRecordId ∉ s.sessions
  reported : ∃ persisted, s.finalized = some persisted
  course : ∃ c ok, Within i call.callRecordId 0 c s ∧ (c.pushed = true ∨ c.missed = 3) ∧
    0 < c.decrements ∧ c.stage = .returned ok

theorem finalizeSession_ends {i : Nat} {queue : String} {call : DialedCall}
    {startedAt endedAt : Nat} {s : Storage} (within : Within i call.callRecordId 32 {} s) :
    Returns i call.callRecordId (finalizeSession queue call startedAt endedAt)
      (fun _ => FinalizerEnd i call) s := by
  refine wp_read_bind.mpr (wp_update_bind.mpr ?_)
  have named : Within i call.callRecordId (21 + 11) {} { s with session := { s.session with
      hangupCause := some (s.session.hangupCause.getD .normalClearing) } } :=
    ⟨within.length, within.milestones, within.missed, within.stage⟩
  refine (persistCallRecord_wp named).seq fun persisted s₁ here₁ => ?_
  refine wp_read_bind.mpr (wp.seq
    (L := fun _ s => ∃ extracted, Within i call.callRecordId 13 { extracted } s) ?_ ?_)
  · refine (wp_when _ _).mpr ?_
    split
    · exact (lpushExtract_wp here₁).seq fun _ _ after => after
    · exact ⟨false, here₁.le (by omega)⟩
  rintro - s₂ ⟨extracted, here₂⟩
  refine (lpushCallEnded_wp here₂).seq ?_
  rintro pushed s₃ ⟨missed, hit, here₃⟩
  refine (decrConcurrency_wp here₃).seq ?_
  rintro ok s₄ ⟨decrements, positive, length, milestones, misses, stage⟩
  exact ⟨SessionManager.not_mem_unregister _ _, ⟨persisted, rfl⟩,
    _, ok, ⟨length, milestones, misses, stage⟩, hit, positive, rfl⟩

section Answers
variable {i id : Nat} {s s' : Storage} {op : StorageCommand}

theorem AwaitsAnswer.move {m : StorageMove} (awaits : AwaitsAnswer i id op s)
    (moved : (storage i).move op m s = some s') : AwaitsAnswer i id op s' := by
  obtain ⟨left, c, within, allowed⟩ := awaits
  exact ⟨left, c, within.move moved, allowed⟩

/-- A command that is awaited can be executed, and it can raise unless it is a sleep. -/
theorem AwaitsAnswer.answerable (awaits : AwaitsAnswer i id op s) :
    (∃ answer, ((storage i).reply op (.ok answer) s).isSome = true) ∧ ((∀ ms, op ≠ .sleep ms) →
        ∀ e, ((storage i).reply op (.error (.error e)) s).isSome = true) := by
  obtain ⟨left, c, within, allowed⟩ := awaits
  cases op with
  | get id => exact ⟨⟨s.record, by simp [storage, Storage.applied]⟩, fun _ _ => rfl⟩
  | commit _ | execute _ | close | lpush _ _ => exact ⟨⟨(), rfl⟩, fun _ _ => rfl⟩
  | sleep ms => exact ⟨⟨(), rfl⟩, fun never => absurd rfl (never ms)⟩
  | decr =>
      obtain ⟨attempt, due⟩ := allowed
      obtain ⟨s₁, counted, -⟩ := Storage.count_due true (due ▸ within.stage) rfl
      obtain ⟨s₂, failed, -⟩ := Storage.count_due false (due ▸ within.stage) rfl
      refine ⟨⟨s₁.concurrency.active, ?_⟩, fun _ _ => ?_⟩
      · simp [storage, Storage.applied, counted]
      · simp [storage, Storage.raised, failed]
  | set =>
      obtain ⟨attempt, due⟩ := allowed
      obtain ⟨s₁, counted, -⟩ := Storage.count_due true (due ▸ within.stage) rfl
      obtain ⟨s₂, failed, -⟩ := Storage.count_due false (due ▸ within.stage) rfl
      refine ⟨⟨(), ?_⟩, fun _ _ => ?_⟩
      · simp [storage, Storage.applied, counted]
      · simp [storage, Storage.raised, failed]

end Answers

/-- A command after which the row of the call may be another one. -/
def StorageCommand.writesRow : StorageCommand → Bool
  | .commit (.insert ..) | .commit (.update ..) => true
  | _ => false

section Rows
variable {i endedAt : Nat} {s s' : Storage} {op : StorageCommand}

theorem Storage.log_endedAt? (s : Storage) (command : StorageCommand) (applied : Bool) :
    (s.log command applied).endedAt? = s.endedAt? := rfl

theorem Storage.count_endedAt? {command : RedisCommand} (counted : s.count command = some s') :
    s'.endedAt? = s.endedAt? := by
  rw [(count_some counted).1]
  rfl

theorem Storage.applied_endedAt? (other : op.writesRow = false) {answer : op.Res}
    (applied : s.applied i op answer = some s') : s'.endedAt? = s.endedAt? := by
  cases op with
  | get id => rw [← (of_guard applied).2, log_endedAt?]
  | commit write =>
      cases applied
      cases write with
      | extractPending =>
          exact endedAt?_extractStatus s _
      | insert _ _ | update _ _ => cases other
  | decr =>
      obtain ⟨s₁, counted, answered⟩ := Option.bind_eq_some_iff.mp applied
      rw [← (of_guard answered).2, log_endedAt?, count_endedAt? counted]
  | set =>
      obtain ⟨s₁, counted, rfl⟩ := Option.map_eq_some_iff.mp applied
      rw [log_endedAt?, count_endedAt? counted]
  | execute _ | close | lpush _ _ | sleep _ =>
      cases applied
      rfl

theorem Storage.raised_endedAt? (raised : s.raised i op = some s') : s'.endedAt? = s.endedAt? := by
  cases op with
  | decr | set =>
      obtain ⟨s₁, counted, rfl⟩ := Option.map_eq_some_iff.mp raised
      rw [log_endedAt?, count_endedAt? counted]
  | sleep _ => cases raised
  | get _ | commit _ | execute _ | close | lpush _ _ =>
      cases raised
      rfl

theorem endedAt?_stableAt (other : op.writesRow = false) {P : Option Nat → Prop} :
    (storage i).StableAt op fun s => P s.endedAt? where
  move here moved := by rwa [(Storage.move_own moved).2.2.1]
  reply := by
    intro r s s' here replied
    match r with
    | .ok a => rwa [Storage.applied_endedAt? other replied]
    | .error (.error _) => rwa [Storage.raised_endedAt? replied]
    | .error .cancelled => cases replied

theorem retrying_preserves {P : Option Nat → Prop} {body : Proc Unit}
    (tries : Preserves (storage i) (fun _ _ => True) (fun s => P s.endedAt?) body)
    (left backoff : Nat) : Preserves (storage i) (fun _ _ => True) (fun s => P s.endedAt?)
      (retrying body left backoff) := by
  induction left generalizing backoff with
  | zero => exact Preserves.pure false
  | succ left ih =>
      refine (tries.bind fun _ => Preserves.pure true).exceptError fun _ => ?_
      exact (Preserves.waitAt (endedAt?_stableAt rfl) fun _ _ => trivial).when.bind
        fun _ => ih (2 * backoff)

/-- An answer came that was no cancel. -/
theorem issue_true {K : op.Res → Storage → Prop}
    (applies : ∀ s₁ s₂ a, (storage i).Steps op s s₁ → s₁.applied i op a = some s₂ → K a s₂) :
    (issue op).wp (storage i) (fun _ _ => True)
      (outcomes (fun _ => False) (fun _ => True) K) s := by
  refine wp_wait.mpr ⟨trivial, ?_⟩
  intro s₁ s₂ r steps replied
  match r with
  | .ok a => exact applies s₁ s₂ a steps replied
  | .error (.error _) => trivial
  | .error .cancelled => cases replied

theorem writeInTransaction_stores (call : DialedCall) (startedAt endedAt : Nat) (s : Storage) :
    (writeInTransaction call startedAt endedAt).wp (storage i) (fun _ _ => True)
      (outcomes (fun _ => False) (fun _ => True) fun _ s => s.endedAt? = some endedAt) s := by
  refine wp.seq (L := fun found s => found.isSome = s.record.isSome) (issue_true ?_) ?_
  · intro s₁ s₂ found steps applied
    obtain ⟨rfl, rfl⟩ := of_guard applied
    rfl
  · intro found s₁ same
    refine wp_read_bind.mpr (wp_read_bind.mpr ?_)
    cases found with
    | none =>
        refine issue_true fun s₂ s₃ _ steps applied => ?_
        cases applied
        rfl
    | some record =>
        refine issue_true fun s₂ s₃ _ steps applied => ?_
        cases applied
        have exists₂ : s₂.record.isSome = true :=
          Machine.Steps.invariant (J := fun s : Storage => s.record.isSome = true)
            (fun _ _ _ here moved => (Storage.move_own moved).2.2.2.trans here) steps same.symm
        obtain ⟨row, found⟩ := Option.isSome_iff_exists.mp exists₂
        rw [Storage.log_endedAt?]
        simp [Storage.endedAt?, DatabaseWrite.apply, found, FinishedColumns.onto, finishedColumns]

theorem persistCallRecord_stores (call : DialedCall) (startedAt endedAt : Nat) (s : Storage) :
    (persistCallRecord call startedAt endedAt).wp (storage i) (fun _ _ => True)
      (outcomes (fun _ => False) (fun _ => False)
        fun ok s => ok = true → s.endedAt? = some endedAt) s := by
  refine (retrying_wp (J := fun _ _ => True) (E := fun _ _ => True)
    (K := fun s => s.endedAt? = some endedAt) ?_ ?_ 2 _ s trivial).mono ?_
  · intro _ s₁ _
    refine wp.andFinally (writeInTransaction_stores call startedAt endedAt s₁) ?_
    intro r s₂ stored
    have closed : ((storage i).StableAt .close fun s => s.endedAt? = some endedAt) :=
      endedAt?_stableAt (P := (· = some endedAt)) rfl
    match r with
    | .ok _ =>
        refine (issue_true fun s₃ s₄ a steps applied => closed.reply (closed.steps steps stored)
          (r := .ok a) applied).mono ?_
        rintro (_ | _) s₃ after
        · exact after
        · exact after
    | .error (.error _) =>
        refine (issue_true fun _ _ _ _ _ => trivial).mono ?_
        rintro ((_ | _) | _) s₃ after
        · exact after
        · trivial
        · trivial
    | .error .cancelled => cases stored
  · intro _ ms s₁ _
    refine wp_wait.mpr ⟨trivial, ?_⟩
    intro s₂ s₃ r steps replied
    match r with
    | .ok _ => trivial
    | .error (.error _) | .error .cancelled => cases replied
  · refine outcomes_mono (fun _ h => h) (fun _ h => h) ?_
    rintro (_ | _) s₁ after
    · exact nofun
    · exact fun _ => after

/-- A finalizer that logs its row as persisted has written it. -/
theorem finalizeSession_stores (queue : String) (call : DialedCall) (startedAt endedAt : Nat)
    (s : Storage) : (finalizeSession queue call startedAt endedAt).wp (storage i) (fun _ _ => True)
      (fun r s => r = .ok () → s.finalized = some true → s.endedAt? = some endedAt) s := by
  refine wp_read_bind.mpr (wp_update_bind.mpr ?_)
  refine (persistCallRecord_stores call startedAt endedAt _).bind ?_ fun _ _ _ failed =>
    nomatch failed
  intro persisted s₁ stored₁
  have plain {op : StorageCommand} (other : op.writesRow = false) : Preserves (storage i)
      (fun _ _ => True) (fun s => persisted = true → s.endedAt? = some endedAt) (issue op) :=
    Preserves.waitAt (endedAt?_stableAt (P := fun at_ => persisted = true → at_ = some endedAt)
      other) fun _ _ => trivial
  have loops {body : Proc Unit} (tries : Preserves (storage i) (fun _ _ => True)
      (fun s => persisted = true → s.endedAt? = some endedAt) body) :
      Preserves (storage i) (fun _ _ => True)
        (fun s => persisted = true → s.endedAt? = some endedAt)
        (retrying body maxRetries firstBackoff) :=
    retrying_preserves (P := fun at_ => persisted = true → at_ = some endedAt) tries _ _
  refine wp_read_bind.mpr ((Preserves.when (Preserves.bind ?_ fun _ => Preserves.pure ()) s₁
    stored₁).bind (fun _ s₂ stored₂ => ?_) fun _ _ _ failed => nomatch failed)
  · refine (Preserves.read _).bind fun _ => (loops (plain rfl)).bind fun _ => ?_
    refine Preserves.bind (Preserves.when (Preserves.exceptError ?_ fun _ => Preserves.pure ()))
      fun _ => Preserves.pure _
    exact ((plain rfl).bind fun _ => plain rfl).andFinally (plain rfl)
  refine (loops (plain rfl) s₂ stored₂).bind (fun _ s₃ stored₃ => ?_) fun _ _ _ failed =>
    nomatch failed
  refine (loops ((plain rfl).bind fun _ => (plain rfl).when) s₃ stored₃).bind
    (fun _ s₄ stored₄ => ?_) fun _ _ _ failed => nomatch failed
  intro _ reported
  exact stored₄ (Option.some.inj reported)

end Rows

/-- The steps of a finalizer in the model of a call, by how its commands went. -/
def World.finalizeSteps (w : World) (extract persisted pushed decremented : Bool) :
    Option World := do
  let w ← w.finalizeStep extract true
  let w ← w.finalizeStep extract persisted
  let w ← if w.finalize.stage = .extracting then w.finalizeStep extract true else some w
  let w ← w.finalizeStep extract pushed
  w.finalizeStep extract decremented

theorem World.finalizeSteps_created {w : World} (created : w.finalize = { stage := .created })
    (extract persisted pushed decremented : Bool) :
    ∃ w', w.finalizeSteps extract persisted pushed decremented = some w' ∧
      w'.finalize.stage = .finished ∧ w'.managed = false ∧ w'.finalize.persisted = persisted ∧
      w'.finalize.callEnded.length = pushed.toNat ∧ w'.finalize.decrements = decremented.toNat := by
  have once : (if pushed then [w.session.hangupCause.getD .normalClearing] else []).length =
      pushed.toNat := by cases pushed <;> rfl
  have counted : (if decremented then 1 else 0) = decremented.toNat := by cases decremented <;> rfl
  by_cases extracts : extract = true ∧ ¬ w.session.dialogHistory = []
  · simp [finalizeSteps, finalizeStep, created, extracts, once, counted]
  · simp [finalizeSteps, finalizeStep, created, extracts, once, counted]

namespace Guarantees

/-- Whatever commands raise and whatever others do meanwhile: the finalizer waits for at most 32
answers, each of which can come; it pushes each of its messages at most once, the extract task
before `CallEnded` and that before it first decrements. It can only return, and then the session
is unregistered, a decrement was attempted, and `CallEnded` was pushed or three attempts to push
it have raised. -/
theorem finalization_survives_failures (i : Nat) (queue : String) (call : DialedCall)
    (startedAt endedAt : Nat) (s : Storage) (acts : List (Action storageSig StorageMove))
    (c : Susp storageSig Storage Unit) (fresh : s.issued = []) (due : s.stage? i = some (.decr 1))
    (run : (storage i).exec (finalizeSession queue call startedAt endedAt s) acts = some c) :
    c.state.issued.length ≤ 32 ∧
    (∀ op, c.waitsAt? = some op →
      (∃ answer, ((storage i).reply op (.ok answer) c.state).isSome = true) ∧
      ((∀ ms, op ≠ .sleep ms) →
        ∀ e, ((storage i).reply op (.error (.error e)) c.state).isSome = true)) ∧
    (c.state.milestones call.callRecordId).count .extract ≤ 1 ∧
    (c.state.milestones call.callRecordId).count .callEnded ≤ 1 ∧
    (c.state.milestones call.callRecordId).Pairwise (fun a b => a.rank ≤ b.rank) ∧
    ∀ r, c.result? = some r → r = .ok () ∧ call.callRecordId ∉ c.state.sessions ∧
      .decrement ∈ c.state.milestones call.callRecordId ∧
      (.callEnded ∈ c.state.milestones call.callRecordId ∨ c.state.missed = 3) := by
  have first := Within.start call.callRecordId fresh due
  have sat : (finalizeSession queue call startedAt endedAt).wp (storage i) _ _ s :=
    finalizeSession_ends first
  obtain ⟨left, course, within⟩ :
      ∃ left course, Within i call.callRecordId left course c.state := by
    refine sat.always (J := fun s => ∃ left c, Within i call.callRecordId left c s) ?_ ?_ ?_ run
    · rintro op s₁ ⟨left, course, within, -⟩
      exact ⟨left + 1, course, within⟩
    · rintro op m s₁ s₂ ⟨left, course, within⟩ moved
      exact ⟨left, course, within.move moved⟩
    · rintro ((_ | _) | _) s₁ ended
      · cases ended
      · cases ended
      · obtain ⟨course, -, within, -⟩ := ended.course
        exact ⟨0, course, within⟩
  rw [within.milestones]
  refine ⟨Nat.le_trans (Nat.le_add_right _ _) within.length, ?_, ?_, ?_, course.ordered, ?_⟩
  · intro op suspended
    obtain ⟨s₀, awaits, steps⟩ := sat.waiting run suspended
    exact (steps.invariant (fun _ _ _ here moved => here.move moved) awaits).answerable
  · rw [course.count_extract]
    exact Bool.toNat_le _
  · rw [course.count_callEnded]
    exact Bool.toNat_le _
  · intro r returned
    have ended := sat.result run returned
    match r with
    | .error .cancelled | .error (.error _) => cases ended
    | .ok () =>
        obtain ⟨unregistered, -, last, ok, here, hit, positive, -⟩ := ended
        rw [← within.milestones, here.milestones, here.missed]
        refine ⟨rfl, unregistered, ?_, hit.imp_left ?_⟩
        · simp [Course.milestones, positive.ne']
        · exact fun pushed => by simp [Course.milestones, pushed]

/-- A call with an extractor slot, and its storage: no row was reserved, and the counter is at
zero. -/
def extractedCall : DialedCall := ⟨7, 1, 1, "", [], 5, 2⟩

def emptyStorage : Storage where
  record := none
  concurrency := Concurrency.start 0 1
  sessions := [7, 8]
  session := { callRecordId := 7, dialogHistory := [⟨.user, ['a'], 0⟩] }

/-- Each loop meets failures: the row is never written, the extract task is pushed by the second
attempt, `CallEnded` by the third, and the SET after a DECR raises once. -/
def failingRun : List (Action storageSig StorageMove) :=
  let raises : storageSig.Reply Unit := .error (.error "connection lost")
  let write := StorageCommand.commit (.insert ⟨1, 1, "", some (finishedColumns extractedCall
    { emptyStorage.session with hangupCause := some .normalClearing } 0 3000000), none⟩ [])
  let extract := StorageCommand.lpush extractQueue (.extract 7 [⟨.user, ['a'], 0⟩] 5 2)
  let callEnded := StorageCommand.lpush "call_ended" (.callEnded 7 .normalClearing 3000000)
  [.reply (.get 7) (.error (.error "connection lost")), .reply .close (.ok ()),
    .reply (.sleep 200) (.ok ()),
    .reply (.get 7) (.ok none), .reply write raises, .reply .close raises,
    .reply (.sleep 400) (.ok ()),
    .reply (.get 7) (.ok none), .reply write raises, .reply .close (.ok ()),
    .reply extract raises, .reply (.sleep 200) (.ok ()), .reply extract (.ok ()),
    .reply (.execute .extractPending) raises, .reply .close (.ok ()), .move (.register 9),
    .reply callEnded raises, .reply (.sleep 200) (.ok ()), .reply callEnded raises,
    .reply (.sleep 400) (.ok ()), .reply callEnded (.ok ()),
    .reply .decr (.error (.error "connection lost")), .reply (.sleep 200) (.ok ()),
    .reply .decr (.ok (-1)), .reply .set raises, .reply (.sleep 400) (.ok ()),
    .reply .decr (.ok (-2)), .reply .set (.ok ())]

theorem failing_run_finalizes :
    ∃ c, (storage 0).exec (finalizeSession "call_ended" extractedCall 0 3000000 emptyStorage)
      failingRun = some c ∧ c.result? = some (.ok ()) ∧ 7 ∉ c.state.sessions ∧
      c.state.missed = 2 ∧ .callEnded ∈ c.state.milestones 7 := by
  refine exists_of_map (fun c => (c.result?, c.state.missed)) (some (.ok ()), 2) (by decide)
    fun c run facts => ?_
  obtain ⟨result, missed⟩ := Prod.mk.inj facts
  obtain ⟨-, -, -, -, -, ended⟩ := finalization_survives_failures 0 "call_ended" extractedCall 0
    3000000 emptyStorage failingRun c rfl rfl run
  obtain ⟨-, unregistered, -, pushed⟩ := ended _ result
  exact ⟨result, unregistered, missed, pushed.resolve_right (by omega)⟩

/-- The finalizer in the model of a call simulates this one: for every run that returns it has a run
with the same return values of `_persist_call_record` and `_decr_concurrency` and as many
`CallEnded`s. A row that is reported as persisted has the end time; what a DECR did to the counter
before a SET that raised is in neither value. -/
theorem finalizeSession_simulated (i : Nat) (queue : String) (call : DialedCall)
    (startedAt endedAt : Nat) (s : Storage) (acts : List (Action storageSig StorageMove))
    (c : Susp storageSig Storage Unit) (w : World) (extract : Bool) (fresh : s.issued = [])
    (due : s.stage? i = some (.decr 1)) (created : w.finalize = { stage := .created })
    (run : (storage i).exec (finalizeSession queue call startedAt endedAt s) acts = some c)
    (returned : c.result? = some (.ok ())) :
    ∃ persisted pushed decremented w',
      w.finalizeSteps extract persisted pushed decremented = some w' ∧
      w'.finalize.stage = .finished ∧ w'.managed = false ∧ call.callRecordId ∉ c.state.sessions ∧
      c.state.finalized = some w'.finalize.persisted ∧
      (w'.finalize.persisted = true → c.state.endedAt? = some endedAt) ∧
      w'.finalize.callEnded.length = (c.state.milestones call.callRecordId).count .callEnded ∧
      c.state.stage? i = some (.returned decremented) ∧
      w'.finalize.decrements = decremented.toNat := by
  have sat : (finalizeSession queue call startedAt endedAt).wp (storage i) _ _ s :=
    finalizeSession_ends (Within.start call.callRecordId fresh due)
  obtain ⟨unregistered, ⟨persisted, reported⟩, course, ok, within, -, -, stage⟩ :=
    sat.result run returned
  have stored := (finalizeSession_stores queue call startedAt endedAt s).result run returned rfl
  obtain ⟨w', steps, finished, dropped, same, pushed, decremented⟩ :=
    World.finalizeSteps_created created extract persisted course.pushed ok
  refine ⟨persisted, course.pushed, ok, w', steps, finished, dropped, unregistered, ?_, ?_, ?_, ?_,
    decremented⟩
  · rw [same, reported]
  · rw [same]
    rintro rfl
    exact stored reported
  · rw [pushed, within.milestones, course.count_callEnded]
  · rw [within.stage, stage]

/-- Of the failing run, with its row that was never written. -/
theorem failing_run_simulated :
    ∃ c, (storage 0).exec (finalizeSession "call_ended" extractedCall 0 3000000 emptyStorage)
      failingRun = some c ∧ c.state.finalized = some false ∧
      ∃ persisted pushed decremented w', World.finalizeSteps { World.initial 7 .other with
          finalize := { stage := .created } } true persisted pushed decremented = some w' ∧
        c.state.finalized = some w'.finalize.persisted := by
  refine exists_of_map (fun c => (c.result?, c.state.finalized)) (some (.ok ()), some false)
    (by decide) fun c run facts => ?_
  obtain ⟨result, unwritten⟩ := Prod.mk.inj facts
  obtain ⟨persisted, pushed, decremented, w', steps, -, -, -, same, -⟩ :=
    finalizeSession_simulated 0 "call_ended" extractedCall 0 3000000 emptyStorage failingRun c
      { World.initial 7 .other with finalize := { stage := .created } } true rfl rfl rfl run result
  exact ⟨unwritten, persisted, pushed, decremented, w', steps, same⟩

end Guarantees
end IsalesEngine
