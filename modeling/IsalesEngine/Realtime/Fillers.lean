import IsalesEngine.Engine.Sections

/-!
The fillers of one call. Every turn has a `FillerManager` of its own, and all of them
share the phrases that the session remembers as used. A section is a call of a
manager's method up to its first suspension, the end of a playback, or the rest of a
`stop` that has waited for one; `random.choice` may choose anything.
-/
namespace IsalesEngine
open Asyncio
namespace Fillers

inductive TaskStatus where
  | running | cancelled | done
  deriving DecidableEq, Repr

/-- A `_play` task. -/
structure FillerTask where
  phrase : Text
  status : TaskStatus := .running
  deriving DecidableEq, Repr

/-- `_task` is an index into the tasks of the call. -/
structure Manager where
  task : Option Nat := none
  stopped : Bool := false
  deriving DecidableEq, Repr

/-- `stops` are the calls of `stop` that wait, with their manager and the task they wait for. -/
structure State where
  usedFillerPhrases : List Text := []
  tasks : List FillerTask := []
  managers : List Manager := []
  stops : List (Nat × Nat) := []
  deriving DecidableEq, Repr

/-- The task that a manager has, unless it is done. -/
def State.inFlight (s : State) (m : Manager) : Option Nat :=
  m.task.filter fun t => s.tasks[t]?.any fun task => task.status ≠ .done

/-- `start`, with the choice that `_pick_phrase` makes. -/
def start (phrases : List Text) (s : State) (i : Nat) (m : Manager) (choice : Text) :
    Option State :=
  if (s.inFlight m).isSome then some s
  else
    let (unused, used) := World.fillerCandidates phrases s.usedFillerPhrases
    if unused = [] then some s
    else if choice ∈ unused then some { s with
      usedFillerPhrases := used ++ [choice]
      tasks := s.tasks ++ [{ phrase := choice }]
      managers := s.managers.set i { task := some s.tasks.length } }
    else none

/-- `stop`, up to its wait for the task it has cancelled. -/
def stop (s : State) (i : Nat) (m : Manager) : State :=
  match s.inFlight m with
  | some t => { s with
      tasks := s.tasks.modify t fun task => { task with status := .cancelled }
      managers := s.managers.set i { m with stopped := true }
      stops := s.stops ++ [(i, t)] }
  | none => { s with managers := s.managers.set i { task := none, stopped := true } }

inductive Label where
  | create
  | start (i : Nat) (choice : Text)
  | stop (i : Nat)
  | playEnds (t : Nat)
  | stopReturns (k : Nat)
  deriving DecidableEq, Repr

def step (phrases : List Text) (s : State) : Label → Option State
  | .create => some { s with managers := s.managers ++ [{}] }
  | .start i choice => s.managers[i]?.bind fun m => start phrases s i m choice
  | .stop i => s.managers[i]?.map fun m => stop s i m
  | .playEnds t => s.tasks[t]?.bind fun task =>
      if task.status = .done then none
      else some { s with tasks := s.tasks.set t { task with status := .done } }
  | .stopReturns k => s.stops[k]?.bind fun (i, t) =>
      if s.tasks[t]?.any fun task => task.status = .done then some { s with
        managers := s.managers.modify i fun m => { m with task := none }
        stops := s.stops.eraseIdx k }
      else none

def system (phrases : List Text) : System State Label where
  step := step phrases

/-- The phrases picked so far, in order. -/
def State.picks (s : State) : List Text := s.tasks.map FillerTask.phrase

/-- What a section does to the used phrases and to the picks. -/
inductive Picks (phrases used : List Text) : List Text → List Text → Prop
  | none : Picks phrases used [] used
  | one {pick : Text} (picked : pick ∈ (World.fillerCandidates phrases used).1) :
      Picks phrases used [pick] ((World.fillerCandidates phrases used).2 ++ [pick])

variable {phrases : List Text} {s s' : State}

theorem start_picks {i : Nat} {m : Manager} {choice : Text}
    (started : start phrases s i m choice = some s') : ∃ new, s'.picks = s.picks ++ new ∧
      Picks phrases s.usedFillerPhrases new s'.usedFillerPhrases := by
  unfold start at started
  dsimp only at started
  split_ifs at started with busy unready picked
  · cases started
    exact ⟨[], (List.append_nil _).symm, .none⟩
  · cases started
    exact ⟨[], (List.append_nil _).symm, .none⟩
  · cases started
    exact ⟨[choice], List.map_append, .one picked⟩

theorem stop_picks (i : Nat) (m : Manager) : (stop s i m).picks = s.picks ∧
    (stop s i m).usedFillerPhrases = s.usedFillerPhrases := by
  unfold stop
  split
  · refine ⟨?_, rfl⟩
    apply List.ext_getElem?
    intro j
    simp only [State.picks, List.getElem?_map, List.getElem?_modify]
    grind
  · exact ⟨rfl, rfl⟩

theorem step_picks {label : Label} (stepped : step phrases s label = some s') :
    ∃ new, s'.picks = s.picks ++ new ∧
      Picks phrases s.usedFillerPhrases new s'.usedFillerPhrases := by
  have idle : s'.picks = s.picks → s'.usedFillerPhrases = s.usedFillerPhrases →
      ∃ new, s'.picks = s.picks ++ new ∧
        Picks phrases s.usedFillerPhrases new s'.usedFillerPhrases := by
    intro picks used
    rw [picks, used]
    exact ⟨[], (List.append_nil _).symm, .none⟩
  cases label with
  | create =>
      cases stepped
      exact idle rfl rfl
  | start i choice =>
      obtain ⟨m, -, started⟩ := Option.bind_eq_some_iff.mp stepped
      exact start_picks started
  | stop i =>
      obtain ⟨m, -, rfl⟩ := Option.map_eq_some_iff.mp stepped
      exact idle (stop_picks i m).1 (stop_picks i m).2
  | playEnds t =>
      obtain ⟨task, own, ended⟩ := Option.bind_eq_some_iff.mp stepped
      obtain ⟨-, same⟩ := Option.ite_none_left_eq_some.mp ended
      cases same
      exact idle (map_set_same own rfl) rfl
  | stopReturns k =>
      obtain ⟨⟨i, t⟩, -, returned⟩ := Option.bind_eq_some_iff.mp stepped
      obtain ⟨-, rfl⟩ := of_guard returned
      exact idle rfl rfl

/-- The gate of a filler in the engine picks as `start` of a new manager does. -/
theorem start_of_fillerGateStep {cfg : RuntimeConfig} {w w' : World} {pick : Text}
    (fired : w.fillerGateStep cfg pick = some w') (idle : w.filler.playing = none)
    (plays : w'.filler.playing = some pick) (i : Nat)
    (shared : s.usedFillerPhrases = w.session.usedFillerPhrases) :
    (start cfg.fillerPhrases s i {} pick).map State.usedFillerPhrases =
      some w'.session.usedFillerPhrases := by
  have effect : Engine.Effect cfg .jobGet w (.fillerGate pick) w' :=
    Engine.fillerGate_effect fired
  cases effect with
  | fillerSkip _ _ | fillerGateEnd _ => exact absurd (idle.symm.trans plays) (by simp)
  | fillerStart _ _ _ picked =>
      rw [← shared] at picked ⊢
      rw [start, if_neg (by simp [State.inFlight])]
      dsimp only
      rw [if_neg (List.ne_nil_of_mem picked), if_pos picked]
      rfl

end Fillers
end IsalesEngine
