import Mathlib.Data.List.Nodup
import IsalesEngine.Engine.Endings
import IsalesEngine.Engine.Inventory

/-!
Who speaks when the gate selects a persona. The candidates of a turn are the
main reply and one reply for each persona under the fan-out cap, in a
dictionary by route id; a persona without a candidate falls through to a fresh
main reply, and a persona's provider is not handed on. The voice of a label is
therefore a function of the configuration, and it is the persona's own exactly
if the two agree.
-/
namespace IsalesEngine
open Asyncio Asyncio.Coro

def Mark.release? : Mark → Option (String × Slot × Nat)
  | .released routeId slot roleConfigId => some (routeId, slot, roleConfigId)
  | _ => none

/-- The replies released so far, newest first. -/
def releases (h : List Mark) : List (String × Slot × Nat) := h.filterMap Mark.release?

/-- The slot generates as the persona is configured to, and the reply is attributed to it. -/
structure PersonaSpec.Speaks (builds : String → Option String → Bool) (p : PersonaSpec)
    (slot : Slot) (roleConfigId : Nat) : Prop where
  systemPrompt : slot.systemPrompt = p.slot.systemPrompt
  temperature : slot.temperature = p.slot.temperature
  topP : slot.topP = p.slot.topP
  client : slot.client builds = p.slot.client builds
  roleConfigId : roleConfigId = p.roleConfigId

/-- The candidate of a label is the last of the personas under the cap that has it. -/
def PipelineConfig.candidateOf (cfg : PipelineConfig) (label : String) : Option PersonaSpec :=
  cfg.enabledPersonas.reverse.find? fun p => p.label = label

/-- The slot and the role that speak for a label. -/
def PipelineConfig.voice (cfg : PipelineConfig) (label : String) : Slot × Nat :=
  match cfg.candidateOf label with
  | some p => (p.mainSpec, p.roleConfigId)
  | none => (cfg.main, cfg.mainRoleConfigId)

/-- The persona under the cap that answers to the label is configured as this one, which has no LLM
client of its own; if there is none, the main slot is configured as this one. -/
def PipelineConfig.Voices (builds : String → Option String → Bool) (cfg : PipelineConfig)
    (p : PersonaSpec) : Prop :=
  match cfg.candidateOf p.label with
  | some q => q.slot.systemPrompt = p.slot.systemPrompt ∧ q.slot.temperature = p.slot.temperature ∧
      q.slot.topP = p.slot.topP ∧ q.roleConfigId = p.roleConfigId ∧ p.slot.client builds = .default
  | none => p.Speaks builds cfg.main cfg.mainRoleConfigId

theorem PipelineConfig.voices_iff (builds : String → Option String → Bool) (cfg : PipelineConfig)
    (p : PersonaSpec) :
    p.Speaks builds (cfg.voice p.label).1 (cfg.voice p.label).2 ↔ cfg.Voices builds p := by
  unfold PipelineConfig.voice PipelineConfig.Voices
  cases cfg.candidateOf p.label with
  | none => rfl
  | some q =>
      constructor
      · exact fun speaks => ⟨speaks.systemPrompt, speaks.temperature, speaks.topP,
          speaks.roleConfigId, speaks.client.symm⟩
      · exact fun ⟨systemPrompt, temperature, topP, role, client⟩ =>
          ⟨systemPrompt, temperature, topP, client.symm, role⟩

/-- A persona under the cap whose label is its own and that has no LLM client of its own. -/
theorem PipelineConfig.voices_of_enabled {builds : String → Option String → Bool}
    {cfg : PipelineConfig} {p : PersonaSpec} (enabled : p ∈ cfg.enabledPersonas)
    (distinct : (cfg.enabledPersonas.map PersonaSpec.label).Nodup)
    (client : p.slot.client builds = .default) : cfg.Voices builds p := by
  have own : cfg.candidateOf p.label = some p := by
    cases found : cfg.candidateOf p.label with
    | none =>
        have missing := List.find?_eq_none.mp found p (List.mem_reverse.mpr enabled)
        exact absurd (decide_eq_true rfl) missing
    | some q =>
        have member := List.mem_reverse.mp (List.mem_of_find?_eq_some found)
        have same : q.label = p.label := by simpa using List.find?_some found
        rw [List.inj_on_of_nodup_map distinct member enabled same]
  unfold PipelineConfig.Voices
  rw [own]
  exact ⟨rfl, rfl, rfl, rfl, client⟩

/-- The event's `role_config_id or None`. -/
def roleOrNone (roleConfigId : Nat) : Option Nat :=
  if roleConfigId = 0 then none else some roleConfigId

namespace Persona
variable {cfg : RuntimeConfig} {w w' : World} {slots : List Slot} {candidates : List Candidate}
  {personas : List PersonaSpec}

section Candidates

theorem persona_ne_main (label : String) : "persona:" ++ label ≠ "main" := by
  intro same
  have := congrArg String.toList same
  simp at this

theorem find_insertCandidate (c : Candidate) (candidates : List Candidate) (routeId : String) :
    (insertCandidate c candidates).find? (fun d => d.routeId = routeId) =
      if c.routeId = routeId then some c else candidates.find? fun d => d.routeId = routeId := by
  induction candidates with
  | nil => by_cases here : c.routeId = routeId <;> simp [insertCandidate, here]
  | cons d ds ih =>
      simp only [insertCandidate]
      split
      · rename_i same
        by_cases here : c.routeId = routeId
        · simp [here]
        · simp [here, same]
      · rename_i other
        by_cases here : d.routeId = routeId
        · simp [here, show c.routeId ≠ routeId from fun h => other (here.trans h.symm)]
        · simp [here, ih]

/-- The candidates after the given personas have been started. -/
structure Cast (personas : List PersonaSpec) (slots : List Slot) (candidates : List Candidate) :
    Prop where
  main : ∀ c ∈ candidates, c.persona = none → c.routeId = "main"
  slot : ∀ c ∈ candidates, ∀ p, c.persona = some p → slots[c.stream]? = some p.mainSpec
  found : ∀ label, (candidates.find? fun c => c.routeId = "persona:" ++ label).bind
    Candidate.persona = personas.reverse.find? fun p => p.label = label

theorem Cast.start (slots : List Slot) (i : Nat) : Cast [] slots [⟨"main", i, none⟩] := by
  refine ⟨?_, ?_, fun label => ?_⟩
  · intro c member _
    rw [List.mem_singleton.mp member]
  · intro c member p own
    rw [List.mem_singleton.mp member] at own
    cases own
  · simp [(persona_ne_main label).symm]

section
variable (cast : Cast personas slots candidates)
include cast

theorem Cast.grow {slots' : List Slot} (grown : slots <+: slots') :
    Cast personas slots' candidates := by
  refine ⟨cast.main, fun c member p own => ?_, cast.found⟩
  obtain ⟨more, rfl⟩ := grown
  have here := cast.slot c member p own
  rw [List.getElem?_append_left (List.getElem?_eq_some_iff.mp here).1]
  exact here

theorem Cast.insert (p : PersonaSpec) : Cast (personas ++ [p]) (slots ++ [p.mainSpec])
      (insertCandidate ⟨"persona:" ++ p.label, slots.length, some p⟩ candidates) := by
  have grown := cast.grow (List.prefix_append slots [p.mainSpec])
  refine ⟨?_, ?_, fun label => ?_⟩
  · intro c member none
    obtain rfl | member := mem_insertCandidate member
    · cases none
    · exact grown.main c member none
  · intro c member q own
    obtain rfl | member := mem_insertCandidate member
    · obtain rfl := Option.some.inj own
      simp
    · exact grown.slot c member q own
  · rw [find_insertCandidate, List.reverse_append]
    by_cases same : p.label = label
    · simp [same]
    · simpa [same] using grown.found label

/-- The candidate that is found for a label is that of a persona. -/
theorem Cast.persona {c : Candidate} {label : String}
    (found : candidates.find? (fun c => c.routeId = "persona:" ++ label) = some c) :
    ∃ p, c.persona = some p ∧ (personas.reverse.find? fun p => p.label = label) = some p ∧
      slots[c.stream]? = some p.mainSpec := by
  have member := List.mem_of_find?_eq_some found
  have routeId : c.routeId = "persona:" ++ label := by simpa using List.find?_some found
  cases own : c.persona with
  | none =>
      rw [cast.main c member own] at routeId
      exact absurd routeId.symm (persona_ne_main label)
  | some p =>
      refine ⟨p, rfl, ?_, cast.slot c member p own⟩
      rw [← cast.found label, found]
      exact own

end

end Candidates

abbrev Releases : Type := List (String × Slot × Nat)

/-- A property of the replies that have been released and of those that were recorded. -/
def Told (P : Releases → List (Option Nat) → Prop) (w : World) : Prop :=
  P (releases w.history) w.session.replies

/-- A reply that is released for a persona's label has the voice of the label. -/
def Voiced (cfg : RuntimeConfig) (r : String × Slot × Nat) : Prop :=
  ∀ label, r.1 = "persona:" ++ label → r.2 = cfg.pipeline.voice label

/-- Since `before`, every released reply has its voice and is recorded under its role. -/
def Right (cfg : RuntimeConfig) (before : Releases) (n : Nat) (rel : Releases)
    (recorded : List (Option Nat)) : Prop :=
  ∀ new, rel = new ++ before → ∀ r ∈ new, Voiced cfg r ∧
    ∀ id ∈ recorded.drop n, id = roleOrNone r.2.2

def Unreleased (before rel : Releases) (_ : List (Option Nat)) : Prop := rel = before

/-- The turn has neither released nor recorded a reply. -/
def Untold (before : Releases) (n : Nat) (rel : Releases) (recorded : List (Option Nat)) : Prop :=
  rel = before ∧ recorded.length = n

/-- The turn has released one reply and recorded none. -/
def Voicing (cfg : RuntimeConfig) (before : Releases) (n : Nat) (r : String × Slot × Nat)
    (rel : Releases) (recorded : List (Option Nat)) : Prop :=
  rel = r :: before ∧ Voiced cfg r ∧ recorded.length = n

/-- The turn has released one reply, and recorded no other. -/
def Spoken (cfg : RuntimeConfig) (before : Releases) (n : Nat) (r : String × Slot × Nat)
    (rel : Releases) (recorded : List (Option Nat)) : Prop :=
  rel = r :: before ∧ Voiced cfg r ∧ ∀ id ∈ recorded.drop n, id = roleOrNone r.2.2

variable {before rel : Releases} {n : Nat} {recorded : List (Option Nat)}
  {r : String × Slot × Nat}

theorem Unreleased.right (unreleased : Unreleased before rel recorded) :
    Right cfg before n rel recorded := by
  intro new grown r member
  rw [unreleased] at grown
  rw [List.self_eq_append_left.mp grown] at member
  cases member

theorem Untold.right (untold : Untold before n rel recorded) : Right cfg before n rel recorded := by
  have unreleased : Unreleased before rel recorded := untold.1
  exact unreleased.right

theorem Spoken.right (spoken : Spoken cfg before n r rel recorded) :
    Right cfg before n rel recorded := by
  intro new grown r' member
  have same : new ++ before = [r] ++ before := grown.symm.trans spoken.1
  rw [List.append_cancel_right same] at member
  rw [List.mem_singleton.mp member]
  exact spoken.2

theorem Voicing.spoken (voicing : Voicing cfg before n r rel recorded) :
    Spoken cfg before n r rel recorded := by
  refine ⟨voicing.1, voicing.2.1, fun id member => ?_⟩
  rw [List.drop_eq_nil_of_le voicing.2.2.le] at member
  cases member

section Frames
variable {P Q : Releases → List (Option Nat) → Prop}

theorem releases_cons {m : Mark} {h : List Mark} (other : m.release? = none) :
    releases (m :: h) = releases h := by
  simp [releases, other]

theorem told_stable : (engine cfg).Stable (Told P) := by
  refine Engine.stable_of ?_ (fun _ h => h) ?_
  · intro op m w w' told moved
    have same : releases w'.history = releases w.history := by
      refine (Engine.callMove_history moved).induct
        (P := fun h => releases h = releases w.history) rfl fun m h own same => ?_
      rw [releases_cons (by cases m <;> first | rfl | cases own), same]
    unfold Told
    rw [same, (Engine.callMove_transcript moved).replies]
    exact told
  · intro w w' told frame
    have same : releases w'.history = releases w.history :=
      frame.noted (P := (releases · = _)) rfl (releases_cons rfl) (releases_cons rfl)
        (releases_cons rfl)
    unfold Told
    rw [same, frame.session]
    exact told

/-- What is asked at every wait. -/
abbrev always (cfg : RuntimeConfig) (before : Releases) (n : Nat) (_ : Op) : World → Prop :=
  Told (Right cfg before n)

/-- A part of a turn after which, if it is cancelled or fails, the turn has told nothing wrong. -/
abbrev Ends (cfg : RuntimeConfig) (before : Releases) (n : Nat) {α : Type} (x : Prog α)
    (K : α → World → Prop) (w : World) : Prop :=
  x.wp (engine cfg) (always cfg before n)
    (outcomes (Told (Right cfg before n)) (Told (Right cfg before n)) K) w

theorem told_waits (right : ∀ {rel recorded}, P rel recorded → Right cfg before n rel recorded) :
    Waits (engine cfg) (always cfg before n) (Told (Right cfg before n)) (Told P) :=
  .of_stable told_stable (fun _ _ told => right told) fun _ told => right told

theorem Told.step (told : Told P w) (step : Preparation w w') : Told P w' := by
  have history : w'.history = w.history := by rw [step.frame]
  unfold Told
  rw [history, step.replies]
  exact told

section
variable (right : ∀ {rel recorded}, P rel recorded → Right cfg before n rel recorded)
include right

theorem told_prepares :
    Prepares (engine cfg) (always cfg before n) (Told (Right cfg before n)) (Told P) :=
  ⟨told_waits right, fun step told => told.step step⟩

theorem told_playback : PlaybackFrame (engine cfg) (always cfg before n) (Told P) := by
  refine ⟨told_stable, fun _ _ told => right told, fun {w w'} step told => ?_⟩
  have same : releases w'.history = releases w.history := by
    obtain same | ⟨m, own, same⟩ := step.history
    · rw [same]
    · rw [same, releases_cons (by cases m <;> first | rfl | cases own)]
  unfold Told
  rw [same, step.session]
  exact told

end

theorem unreleased_rests : Rests (engine cfg) (always cfg before n)
    (Told (Right cfg before n)) (Told (Unreleased before)) := by
  refine .of (told_waits Unreleased.right) fun {w w'} kept unreleased => ?_
  have history : w'.history = w.history := by rw [kept.frame]
  unfold Told
  rw [history]
  exact unreleased

theorem unreleased_ending : EndingFrame (engine cfg) (always cfg before n)
    (Told (Right cfg before n)) (Told (Unreleased before)) where
  toWaits := told_waits Unreleased.right
  play site text interruptible :=
    ((told_playback Unreleased.right).playTts site text interruptible).keeps
      fun _ unreleased => unreleased.right
  phone unreleased := unreleased
  session _ unreleased := unreleased
  ending {w m} own unreleased := by
    have other : m.release? = none := by cases m <;> first | rfl | cases own
    exact (releases_cons other).trans unreleased

theorem unreleased_route : RouteFrame (engine cfg) (always cfg before n)
    (Told (Right cfg before n)) (Told (Unreleased before)) where
  __ : Rests (engine cfg) (always cfg before n) (Told (Right cfg before n))
    (Told (Unreleased before)) := unreleased_rests
  __ : EndingFrame (engine cfg) (always cfg before n) (Told (Right cfg before n))
    (Told (Unreleased before)) := unreleased_ending
  round _ unreleased := unreleased
  mark {w m} own unreleased := by
    have other : m.release? = none := by cases m <;> first | rfl | cases own
    exact (releases_cons other).trans unreleased
  reply i filler delay start fuel :=
    ((told_playback Unreleased.right).playStreaming i filler delay start fuel).keeps
      fun _ unreleased => unreleased.right

theorem slots_stable (cfg : RuntimeConfig) (J : List Slot → Prop) :
    (engine cfg).Stable fun w => J w.slots := by
  refine Engine.stable_of ?_ (fun _ h => h) ?_
  · intro op m w w' holds moved
    rw [Engine.callMove_slots moved]
    exact holds
  · intro w w' holds frame
    rw [World.slots, frame.streams]
    exact holds

end Frames

section Turn
variable {fuel processingStart mainStream : Nat} {userText : Text} {useFiller : Bool}
  {sel : GatedSelection}

/-- The turn has its candidates and nothing has been said yet. -/
def Casting (before : Releases) (n : Nat) (personas : List PersonaSpec)
    (candidates : List Candidate) (w : World) : Prop :=
  Told (Untold before n) w ∧ Cast personas w.slots candidates

theorem Casting.right (casting : Casting before n personas candidates w) :
    Told (Right cfg before n) w := casting.1.right

theorem casting_prepares : Prepares (engine cfg) (always cfg before n) (Told (Right cfg before n))
    (Casting before n personas candidates) := by
  have cast := slots_stable cfg fun slots => Cast personas slots candidates
  refine ⟨.of_stable (told_stable.and cast) (fun _ _ casting => casting.1.right)
    fun _ casting => casting.1.right, fun {w w'} step casting => ?_⟩
  exact ⟨casting.1.step step, casting.2.grow step.slots⟩

theorem spawnPersonas_wp {turnId : Nat} {rest : List PersonaSpec}
    (casting : Casting before n personas candidates w) :
    Ends cfg before n (spawnPersonas turnId rest candidates)
      (Casting before n (personas ++ rest)) w := by
  induction rest generalizing personas candidates w with
  | nil =>
      rw [List.append_nil]
      exact casting
  | cons p rest ih =>
      refine (casting_prepares.ext .buildStream).seq casting (fun _ h => h.right) ?_
      intro _ w₁ casting₁
      refine wp_act_bind.mpr ?_
      have same : personas ++ p :: rest = personas ++ [p] ++ rest := by simp
      rw [same]
      refine ih ⟨casting₁.1, ?_⟩
      have inserted := casting₁.2.insert p
      simpa [World.slots] using inserted

theorem gatePhase_wp (untold : Told (Untold before n) w) : Ends cfg before n (gatePhase cfg)
      (fun opened => Casting before n cfg.pipeline.enabledPersonas opened.2.1) w := by
  have prepares : Prepares (engine cfg) (always cfg before n) (Told (Right cfg before n))
    (Told (Untold before n)) := told_prepares Untold.right
  have fails : ∀ w, Told (Untold before n) w → Told (Right cfg before n) w :=
    fun _ untold => untold.right
  refine wp_update_bind.mpr (wp.andFinally (P := outcomes (Told (Right cfg before n))
    (Told (Right cfg before n)) fun opened =>
      Casting before n cfg.pipeline.enabledPersonas opened.2.1) ?_ ?_)
  · refine (prepares.runPipelineStream _ _ _).seq untold fails fun i w₁ untold₁ => ?_
    refine Keeps.seq (prepares.tasks fun _ => rfl) untold₁ fails fun _ w₂ untold₂ => ?_
    refine wp_read_bind.mpr ?_
    have start : Casting before n [] [⟨"main", i, none⟩] w₂ := ⟨untold₂, .start _ i⟩
    refine wp.seq (spawnPersonas_wp start) fun candidates w₃ casting₃ => ?_
    have closing : ∀ (results : List RefereeResult) w,
        Casting before n cfg.pipeline.enabledPersonas candidates w → (do
        dropTasks (cfg.pipeline.refereeLabels.map fun _ => TurnTask.referee)
        pure (i, candidates, results)).wp (engine cfg) (always cfg before n)
          (outcomes (Told (Right cfg before n)) (Told (Right cfg before n)) fun opened =>
            Casting before n cfg.pipeline.enabledPersonas opened.2.1) w := by
      intro results w casting
      refine Keeps.seq (casting_prepares.tasks fun _ => rfl) casting (fun _ h => h.right) ?_
      exact fun _ _ casting => casting
    split
    · exact closing [] w₃ casting₃
    · exact (casting_prepares.wait .gate rfl).seq casting₃ (fun _ h => h.right) closing
  · intro r w₁ post
    match r with
    | .ok _ | .error .cancelled | .error (.error _) => exact post

/-- The stream that will speak, and who it speaks for. -/
def Chosen (cfg : RuntimeConfig) (before : Releases) (n : Nat) (routeId : String)
    (winner : Nat × Option PersonaSpec) (w : World) : Prop :=
  Told (Untold before n) w ∧ ∀ label, routeId = "persona:" ++ label →
    w.slots[winner.1]? = some (cfg.pipeline.voice label).1 ∧
      (winner.2.map PersonaSpec.roleConfigId).getD cfg.pipeline.mainRoleConfigId =
        (cfg.pipeline.voice label).2

theorem chosen_prepares {routeId : String} {winner : Nat × Option PersonaSpec} :
    Prepares (engine cfg) (always cfg before n) (Told (Right cfg before n))
      (Chosen cfg before n routeId winner) := by
  have stable := slots_stable cfg fun slots => ∀ label, routeId = "persona:" ++ label →
    slots[winner.1]? = some (cfg.pipeline.voice label).1 ∧
      (winner.2.map PersonaSpec.roleConfigId).getD cfg.pipeline.mainRoleConfigId =
        (cfg.pipeline.voice label).2
  refine ⟨.of_stable (told_stable.and stable) (fun _ _ chosen => chosen.1.right)
    fun _ chosen => chosen.1.right, fun {w w'} step chosen => ⟨chosen.1.step step, ?_⟩⟩
  intro label named
  obtain ⟨here, role⟩ := chosen.2 label named
  obtain ⟨more, grown⟩ := step.slots
  rw [← grown, List.getElem?_append_left (List.getElem?_eq_some_iff.mp here).1]
  exact ⟨here, role⟩

theorem chooseWinner_wp (casting : Casting before n cfg.pipeline.enabledPersonas candidates w) :
    Ends cfg before n (GatedTurn.chooseWinner cfg mainStream candidates sel)
      (Chosen cfg before n sel.routeId) w := by
  have fails : ∀ w, Casting before n cfg.pipeline.enabledPersonas candidates w →
      Told (Right cfg before n) w := fun _ casting => casting.right
  unfold GatedTurn.chooseWinner
  split
  · rename_i c found
    refine (casting_prepares.cancelCandidates _ _).seq casting fails fun _ w₁ casting₁ => ?_
    refine ⟨casting₁.1, fun label named => ?_⟩
    rw [named] at found
    obtain ⟨p, own, candidate, slot⟩ := casting₁.2.persona found
    have voice : cfg.pipeline.voice label = (p.mainSpec, p.roleConfigId) := by
      simp [PipelineConfig.voice, PipelineConfig.candidateOf, candidate]
    rw [own, voice]
    exact ⟨slot, rfl⟩
  · rename_i missing
    refine (casting_prepares.cancelCandidates _ _).seq casting fails fun _ w₁ casting₁ => ?_
    refine (casting_prepares.ext .buildStream).seq casting₁ fails fun _ w₂ casting₂ => ?_
    refine wp_read_bind.mpr (wp_act_bind.mpr ⟨casting₂.1, fun label named => ?_⟩)
    rw [named] at missing
    have candidate := casting₂.2.found label
    rw [missing] at candidate
    have voice : cfg.pipeline.voice label = (cfg.pipeline.main, cfg.pipeline.mainRoleConfigId) := by
      simp [PipelineConfig.voice, PipelineConfig.candidateOf, ← candidate]
    rw [voice]
    simp [World.slots]

/-- The role the reply of a candidate is attributed to. -/
abbrev roleOf (cfg : RuntimeConfig) (persona : Option PersonaSpec) : Nat :=
  (persona.map PersonaSpec.roleConfigId).getD cfg.pipeline.mainRoleConfigId

theorem Chosen.release {routeId : String} {winner : Nat × Option PersonaSpec}
    (chosen : Chosen cfg before n routeId winner w) :
    Told (Voicing cfg before n (routeId, (w.stream winner.1).slot, roleOf cfg winner.2))
      (w.note (.released routeId (w.stream winner.1).slot (roleOf cfg winner.2))) := by
  refine ⟨?_, fun label named => ?_, chosen.1.2⟩
  · have old : releases w.history = before := chosen.1.1
    simp [World.note, releases, Mark.release?, ← old]
  · obtain ⟨slot, role⟩ := chosen.2 label named
    obtain ⟨bound, here⟩ := List.getElem?_eq_some_iff.mp slot
    have inside : winner.1 < w.streams.length := by simpa [World.slots] using bound
    refine Prod.ext ?_ role
    simpa [World.slots, World.stream, inside] using here

theorem record {text : Text} {turnId role : Nat} {goalAchieved isWrapUp : Bool}
    {goalType : String} (own : r.2.2 = role) (voicing : Told (Voicing cfg before n r) w) :
    Told (Spoken cfg before n r) (w.append (.aiReply text turnId
      (if role = 0 then none else some role) goalAchieved goalType isWrapUp)) := by
  subst own
  refine ⟨voicing.1, voicing.2.1, fun id member => ?_⟩
  have length : w.session.replies.length = n := voicing.2.2
  rw [World.append, CallSession.replies_appendEvent, List.drop_append_of_le_length length.ge,
    List.drop_eq_nil_of_le length.le] at member
  simpa [TranscriptEvent.replyRole?, roleOrNone] using member

section
variable (casting : Casting before n cfg.pipeline.enabledPersonas candidates w)
include casting

theorem dialogueRoute_wp {row : TraceRecord → TraceRecord} :
    Ends cfg before n (GatedTurn.dialogueRoute cfg fuel useFiller processingStart mainStream
      candidates sel fun i audio => addTrace i userText audio row)
      (fun _ => Told (Right cfg before n)) w := by
  refine wp.seq (chooseWinner_wp casting) fun winner w₁ chosen₁ => ?_
  refine (chosen_prepares.transition _).seq chosen₁ (fun _ h => h.1.right) fun _ w₂ chosen₂ => ?_
  refine wp_update_bind.mpr ?_
  obtain ⟨r, role, released⟩ : ∃ r : String × Slot × Nat, r.2.2 = roleOf cfg winner.2 ∧
      Told (Voicing cfg before n r) (w₂.note (.released sel.routeId (w₂.stream winner.1).slot
        (roleOf cfg winner.2))) := ⟨_, rfl, chosen₂.release⟩
  have right : ∀ {rel recorded}, Voicing cfg before n r rel recorded →
      Right cfg before n rel recorded := fun voicing => voicing.spoken.right
  have fails : ∀ w, Told (Voicing cfg before n r) w → Told (Right cfg before n) w :=
    fun _ voicing => right voicing
  have reply := ((told_playback right).playStreaming winner.1 useFiller cfg.fillerDelayMs
    processingStart fuel).keeps fails
  refine reply.seq released fails fun result w₃ voicing₃ => ?_
  obtain ⟨audio, played⟩ := result
  have traces : Keeps (engine cfg) (always cfg before n) (Told (Right cfg before n))
      (Told (Voicing cfg before n r)) (addTrace winner.1 userText audio row) :=
    (told_prepares right).addTrace _ _ _ _
  cases played with
  | false =>
      refine traces.seq voicing₃ fails fun _ w₄ voicing₄ => ?_
      refine wp_update_bind.mpr (wp_update_bind.mpr ?_)
      exact Spoken.right (record role voicing₄)
  | true =>
      refine wp_update_bind.mpr (traces.seq voicing₃ fails fun _ w₄ voicing₄ => ?_)
      refine wp_update_bind.mpr ?_
      have spoken : Prepares (engine cfg) (always cfg before n) (Told (Right cfg before n))
        (Told (Spoken cfg before n r)) := told_prepares Spoken.right
      refine Keeps.seq (Keeps.when (spoken.enterWrapUp cfg _ id)) (record role voicing₄)
        (fun _ h => h.right) fun _ _ h => ?_
      exact h.right

theorem route_wp {row : Option Text → TraceRecord → TraceRecord}
    {decision : Option TransferDecision} :
    Ends cfg before n (GatedTurn.route cfg fuel useFiller processingStart mainStream candidates sel
      (fun text i audio => addTrace i userText audio (row text)) decision)
      (fun _ => Told (Right cfg before n)) w := by
  have frame : RouteFrame (engine cfg) (always cfg before n) (Told (Right cfg before n))
    (Told (Unreleased before)) := unreleased_route
  have unreleased : Told (Unreleased before) w := casting.1.1
  have others : ∀ {x : Prog Directive}, Keeps (engine cfg) (always cfg before n)
      (Told (Right cfg before n)) (Told (Unreleased before)) x →
      Ends cfg before n x (fun _ => Told (Right cfg before n)) w :=
    fun kept => kept.last unreleased (fun _ h => h.right) fun _ _ h => h.right
  have cancels := frame.cancelCandidates none candidates
  have handoff : ∀ type detail phrase, Keeps (engine cfg) (always cfg before n)
      (Told (Right cfg before n)) (Told (Unreleased before)) (do
        cancelCandidates none candidates
        addTrace mainStream userText none (row none)
        performHandoff type detail phrase
        pure Directive.return) := by
    intro type detail phrase
    refine cancels.bind fun _ => (frame.addTrace _ _ _ _).bind fun _ => ?_
    exact (frame.performHandoff _ _ _).bind fun _ => Keeps.pure _
  unfold GatedTurn.route
  split
  · exact others (handoff _ _ _)
  · exact others (handoff _ _ _)
  · exact others (handoff _ _ _)
  · exact others (cancels.bind fun _ => frame.hangupRoute _ (frame.addTrace _ _ _ _))
  · exact others (handoff _ _ _)
  · split
    · refine others (cancels.bind fun _ => ?_)
      exact frame.restructureRoute cfg fuel sel fun text => frame.addTrace _ _ _ _
    · exact dialogueRoute_wp casting

end

theorem runGatedTurn_wp {transferLlm : Bool} (untold : Told (Untold before n) w) :
    Ends cfg before n (runGatedTurn cfg fuel userText false useFiller transferLlm processingStart)
      (fun _ => Told (Right cfg before n)) w := by
  refine wp_update_bind.mpr (wp.seq (gatePhase_wp untold) fun opened w₁ casting₁ => ?_)
  refine wp_read_bind.mpr ?_
  split
  · have unreleased : Told (Unreleased before) w₁ := casting₁.1.1
    exact (unreleased_route.abort _ _ _ _).last unreleased (fun _ h => h.right)
      fun _ _ h => h.right
  · refine wp_act_bind.mpr ?_
    have casting₂ : Casting before n cfg.pipeline.enabledPersonas opened.2.1 { w₁ with
        session := (autoRestructure cfg.pipeline opened.2.2 w₁.session
          (decideAction opened.2.2 cfg.pipeline.routingRules)).2 } := by
      obtain same | same := GateRule.autoRestructure_session cfg.pipeline opened.2.2 w₁.session
        (decideAction opened.2.2 cfg.pipeline.routingRules)
      · rw [same]
        exact casting₁
      · rw [same]
        exact casting₁
    refine (casting_prepares.resolveTransferLlm _).seq casting₂ (fun _ h => h.right) ?_
    exact fun decision w₃ casting₃ => route_wp casting₃

end Turn

/-- A campaign with one persona, which the referee selects. -/
def salesConfig (personaFanoutCap : Int) (provider : Option String) : RuntimeConfig :=
  { RuntimeConfig.refereed with
    pipeline := { RuntimeConfig.refereed.pipeline with
      routingRules := [⟨"intent", ["buy"], .route (some "sales") none none⟩]
      personas := [⟨"sales", 7, { provider := provider, systemPrompt := "sell" }⟩]
      personaFanoutCap := personaFanoutCap } }

/-- The gate opens with the given number of streams, the referee selects the persona, and the
streams that lost are reaped. -/
def salesRun (streams : Nat) (lost : List Nat) : List (Action sig Move) :=
  List.replicate streams (.reply (.ext .buildStream) (.ok ())) ++
    [.reply .gate (.ok [⟨"intent", some "buy", none⟩])] ++
    lost.flatMap fun i => [.move (.eagerEnd i none), .reply (.reapEager i) (.error .cancelled)]

end Persona

namespace Guarantees
open Persona

/-- A reply that a turn releases for a persona's label is the persona's if and only if the
configuration gives the label that persona's voice, and the turn records no reply under another
role. -/
theorem persona_speaks_iff (cfg : RuntimeConfig) (builds : String → Option String → Bool)
    (fuel : Nat) (userText : Text) (useFiller transferLlm : Bool) (processingStart : Nat)
    (w : World) (acts : List (Action sig Move)) (c : Susp sig World Directive)
    (run : (engine cfg).exec (runGatedTurn cfg fuel userText false useFiller transferLlm
      processingStart w) acts = some c)
    (new : List (String × Slot × Nat))
    (grown : releases c.state.history = new ++ releases w.history)
    (slot : Slot) (role : Nat) (p : PersonaSpec) (_ : p ∈ cfg.pipeline.personas)
    (released : ("persona:" ++ p.label, slot, role) ∈ new) :
    (p.Speaks builds slot role ↔ cfg.pipeline.Voices builds p) ∧
      ∀ id ∈ c.state.session.replies.drop w.session.replies.length, id = roleOrNone role := by
  have start : Told (Untold (releases w.history) w.session.replies.length) w := ⟨rfl, rfl⟩
  have right : Told (Right cfg (releases w.history) w.session.replies.length) c.state := by
    have stable : (engine cfg).Stable (Told (Right cfg (releases w.history)
      w.session.replies.length)) := told_stable
    refine (runGatedTurn_wp start).always (fun _ _ h => h)
      (fun _ _ _ _ h moved => stable.move h moved) (fun r _ h => ?_) run
    match r with
    | .ok _ | .error .cancelled | .error (.error _) => exact h
  obtain ⟨voiced, recorded⟩ := right new grown _ released
  refine ⟨?_, recorded⟩
  have voice : (slot, role) = cfg.pipeline.voice p.label := voiced p.label rfl
  rw [← PipelineConfig.voices_iff, ← voice]

theorem sales_persona_speaks :
    ∃ c, (engine (salesConfig 2 none)).exec (runGatedTurn (salesConfig 2 none) 1 [] false false
      false 0 (World.initial 1 .other)) (salesRun 2 [0]) = some c ∧
      releases c.state.history = [("persona:sales", { systemPrompt := "sell" }, 7)] ∧
      PersonaSpec.Speaks (fun _ _ => true) ⟨"sales", 7, { systemPrompt := "sell" }⟩
        { systemPrompt := "sell" } 7 := by
  refine exists_of_map (fun c => releases c.state.history)
    [("persona:sales", { systemPrompt := "sell" }, 7)] (by decide +kernel) fun c run released => ?_
  refine ⟨released, ?_⟩
  refine (persona_speaks_iff (salesConfig 2 none) (fun _ _ => true) 1 [] false false 0 _ _ c run
    [("persona:sales", { systemPrompt := "sell" }, 7)] released _ _
    ⟨"sales", 7, { systemPrompt := "sell" }⟩ (by decide) (by decide +kernel)).1.mpr ?_
  exact PipelineConfig.voices_of_enabled (by decide) (by decide) rfl

/-- A persona beyond the fan-out cap is voiced by the main slot under the main role, and a persona
under the cap is generated on the engine's own client whatever its provider. -/
theorem persona_not_heard :
    ((engine (salesConfig 1 none)).exec (runGatedTurn (salesConfig 1 none) 1 [] false false false 0
      (World.initial 1 .other)) (salesRun 1 [0] ++ [.reply (.ext .buildStream) (.ok ())])).map
      (fun c => releases c.state.history) = some [("persona:sales", {}, 1)] ∧
    ((engine (salesConfig 2 (some "ark"))).exec (runGatedTurn (salesConfig 2 (some "ark")) 1 []
      false false false 0 (World.initial 1 .other)) (salesRun 2 [0])).map
      (fun c => (releases c.state.history).map fun r => r.2.1.client fun _ _ => true) =
        some [.default] ∧
    Slot.client (fun _ _ => true) { provider := some "ark", systemPrompt := "sell" } =
      .built "ark" none := by
  refine ⟨?_, ?_, ?_⟩ <;> decide +kernel

end Guarantees
end IsalesEngine
