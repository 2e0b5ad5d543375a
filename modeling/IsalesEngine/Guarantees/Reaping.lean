import IsalesEngine.Guarantees.Persona
import IsalesEngine.Guarantees.ReplyTasks

/-!
The tasks of a turn when the turn is over. Every way out of a turn cancels the
candidates it does not play and waits for the referees and the transfer
detector, except that a turn dropped by a barge-in forgets its detector, that a
candidate whose label is taken again is forgotten, and that a cancel or an
exception while candidates are pending cancels nothing. A turn without any of
these leaves nothing running.
-/
namespace IsalesEngine
open Asyncio Asyncio.Coro

namespace Reaping
variable {cfg : RuntimeConfig} {i n : Nat} {ts : List TurnTask} {ids : List Nat} {w w' : World}

/-- A part of a turn that leaves nothing running when it is cancelled or fails. -/
abbrev Ends (cfg : RuntimeConfig) (n : Nat) {α : Type} (x : Prog α) (K : α → World → Prop)
    (w : World) : Prop :=
  x.wp (machine cfg) always (outcomes (reaped n) (reaped n) K) w

/-- A part of a turn after which only what the turn was told of is pending. -/
abbrev Clears (cfg : RuntimeConfig) (n : Nat) {α : Type} (x : Prog α) (w : World) : Prop :=
  Ends cfg n x (fun _ => Resting n [] []) w

section Gate

theorem ext_steps {call : Ext} (steps : (machine cfg).Steps (.ext call) w w') : w' = w := by
  refine Machine.Steps.invariant (J := fun v => v = w) ?_ steps rfl
  intro m v v' _ moved
  have suspends := (@Engine.callMove_of_move cfg (.ext call) m v v'
    (Machine.restrict_move_some moved).2 rfl).1
  cases suspends

/-- A stream is built without a suspension. It fails only when nothing runs. -/
theorem buildStream_wp (resting : Resting n ts ids w) :
    Ends cfg n (ext .buildStream) (fun _ w' => w' = w) w := by
  refine wp_wait.mpr ⟨trivial, fun w₁ w₂ r steps replied => ?_⟩
  obtain rfl := ext_steps steps
  obtain ⟨allowed, replied⟩ := Machine.restrict_reply_some replied
  have same : w₂ = w₁ := by
    simp only [engine, Engine.reply, Engine.synchronous] at replied
    split at replied
    · cases replied
    · exact (Option.some.inj replied).symm
  subst same
  have nothing : ∀ e, r = .error e → reaped n w₂ := by
    rintro e rfl
    simp only [orderly, Bool.and_eq_true, List.isEmpty_iff, Bool.not_eq_true',
      List.any_eq_false] at allowed
    refine reaped_of allowed.1 (fun i generating => ?_) ?_ resting.silent
    · have inside : i < w₂.streams.length := by
        refine Nat.lt_of_not_le fun beyond => ?_
        simp [World.stream, List.getElem?_eq_none beyond, Stream.generating] at generating
      refine absurd generating (allowed.2 _ ?_)
      simp [World.stream, inside]
    · intro p pipe
      rw [resting.pipe] at pipe
      cases pipe
  cases r with
  | ok _ => rfl
  | error e => cases e <;> exact nothing _ rfl

theorem runPipelineStream_wp (slot : Slot) (isRestructure eager : Bool)
    (resting : Resting n ts ids w) : Ends cfg n (runPipelineStream slot isRestructure eager)
      (fun i w' => Resting n ts (if eager then i :: ids else ids) w' ∧ w'.turnTasks = w.turnTasks ∧
       w'.session.interruptionSignaled = w.session.interruptionSignaled) w := by
  refine wp.seq (buildStream_wp resting) fun _ w₁ same => ?_
  subst same
  refine wp_update_bind.mpr (wp_read_bind.mpr ⟨?_, rfl, rfl⟩)
  have counted : Resting n ts ids { w₁ with session := { w₁.session with
      currentTurnId := w₁.session.currentTurnId + 1 } } := resting.aside ⟨rfl, rfl, rfl, rfl⟩
  cases eager with
  | true =>
      have started := counted.mono (List.subset_cons_self w₁.streams.length ids)
      exact ⟨started.toBusy.add fun _ => .head _, started.pipe, started.silent⟩
  | false => exact ⟨counted.toBusy.add nofun, counted.pipe, counted.silent⟩

theorem insertCandidate_fresh {c : Candidate} {candidates : List Candidate}
    (fresh : c.routeId ∉ candidates.map Candidate.routeId) :
    insertCandidate c candidates = candidates ++ [c] := by
  induction candidates with
  | nil => rfl
  | cons d ds ih =>
      simp only [List.map_cons, List.mem_cons, not_or] at fresh
      simp only [insertCandidate, if_neg (Ne.symm fresh.1), ih fresh.2, List.cons_append]

/-- Candidates with different labels are all remembered. -/
theorem spawnPersonas_wp {turnId : Nat} {rest : List PersonaSpec} (candidates : List Candidate)
    (resting : Resting n ts (candidates.map Candidate.stream) w)
    (fresh : (candidates.map Candidate.routeId ++ rest.map fun p => "persona:" ++ p.label).Nodup) :
    Ends cfg n (spawnPersonas turnId rest candidates)
      (fun cs w' => Resting n ts (cs.map Candidate.stream) w' ∧ (cs.map Candidate.routeId).Nodup ∧
       w'.turnTasks = w.turnTasks ∧ w'.session = w.session) w := by
  induction rest generalizing candidates w with
  | nil => exact ⟨resting, by simpa using fresh, rfl, rfl⟩
  | cons persona rest ih =>
      refine wp.seq (buildStream_wp resting) fun _ w₁ same => wp_act_bind.mpr ?_
      subst same
      have unused : "persona:" ++ persona.label ∉ candidates.map Candidate.routeId := by
        rw [List.nodup_append] at fresh
        exact fun member => fresh.2.2 _ member _ (by simp) rfl
      rw [insertCandidate_fresh (c := ⟨_, _, _⟩) unused]
      refine ih (w := w₁.addStream _) _ ?_ ?_
      · have started : Resting n ts ((candidates ++ [Candidate.mk ("persona:" ++ persona.label)
            w₁.streams.length (some persona)]).map Candidate.stream) w₁ :=
          resting.mono (by simp)
        exact ⟨started.toBusy.add fun _ => by simp, started.pipe, started.silent⟩
      · simpa using fresh

/-- The detector of a turn that a barge-in drops is over. -/
def Spared (w : World) : Prop := w.session.interruptionSignaled = true → .detector ∉ w.turnTasks

theorem gate_wp (resting : Resting n ts ids w) :
    Ends cfg n (await .gate) (fun _ w => Resting n ts ids w ∧ Spared w) w := by
  refine wp_wait.mpr ⟨trivial, fun w₁ w₂ r steps replied => ?_⟩
  have resting₂ := resting_stable.reply (resting_stable.steps steps resting) replied
  obtain ⟨allowed, replied⟩ := Machine.restrict_reply_some replied
  obtain ⟨results, rfl, -, -, rfl⟩ | ⟨rfl, -, -⟩ := Engine.answer_some replied
  · refine ⟨resting₂, fun signaled member => ?_⟩
    simp [orderly, signaled, member] at allowed
  · cases allowed

/-- When the gate has closed: every generation that runs is one of a candidate. -/
structure Gated (n : Nat) (ts : List TurnTask) (candidates : List Candidate) (w : World) : Prop
    extends Resting n ts (candidates.map Candidate.stream) w where
  distinct : (candidates.map Candidate.routeId).Nodup
  spared : Spared w

theorem gatePhase_wp (labels : (cfg.pipeline.enabledPersonas.map PersonaSpec.label).Nodup)
    (unrefereed : cfg.pipeline.refereeLabels = [] → Spared w) (resting : Resting n ts [] w) :
    Ends cfg n (gatePhase cfg) (fun opened => Gated n ts opened.2.1) w := by
  refine wp_update_bind.mpr (wp.andFinally
    (P := outcomes (reaped n) (reaped n) fun opened => Gated n ts opened.2.1) ?_ ?_)
  · refine wp.seq (runPipelineStream_wp _ _ true (resting.aside ⟨rfl, rfl, rfl, rfl⟩)) ?_
    intro i w₁ here₁
    refine wp_update_bind.mpr (wp_read_bind.mpr ?_)
    have spawned : Resting n ((cfg.pipeline.refereeLabels.map fun _ => .referee) ++ ts) [i]
        { w₁ with turnTasks := w₁.turnTasks ++
          cfg.pipeline.refereeLabels.map fun _ => TurnTask.referee } :=
      ⟨here₁.1.toBusy.spawn _, here₁.1.pipe, here₁.1.silent⟩
    have fresh : (["main"] ++
        cfg.pipeline.enabledPersonas.map fun p => "persona:" ++ p.label).Nodup := by
      refine List.nodup_cons.mpr ⟨fun member => ?_, ?_⟩
      · obtain ⟨p, -, same⟩ := List.mem_map.mp member
        exact Persona.persona_ne_main p.label same
      · have injective : Function.Injective fun label : String => "persona:" ++ label :=
          fun a b same => String.append_right_inj _ |>.mp same
        simpa [Function.comp_def] using labels.map injective
    refine wp.seq (spawnPersonas_wp [⟨"main", i, none⟩] spawned fresh) ?_
    intro candidates w₂ here₂
    have closing : ∀ (results : List RefereeResult) (w : World),
        Resting n ((cfg.pipeline.refereeLabels.map fun _ => .referee) ++ ts)
          (candidates.map Candidate.stream) w → Spared w → (do
          dropTasks (cfg.pipeline.refereeLabels.map fun _ => TurnTask.referee)
          pure (i, candidates, results) : Prog _).wp (machine cfg) always
            (outcomes (reaped n) (reaped n) fun opened => Gated n ts opened.2.1) w := by
      intro results w resting spared
      refine ⟨⟨resting.toBusy.drop _, resting.pipe, resting.silent⟩, here₂.2.1,
        fun signaled member => ?_⟩
      exact spared signaled ((List.diff_sublist _ _).mem member)
    split
    · rename_i none
      refine closing [] w₂ here₂.1 fun signaled member => ?_
      rw [here₂.2.2.2] at signaled
      rw [here₂.2.2.1] at member
      refine unrefereed none (here₁.2.2.symm.trans signaled) ?_
      rw [none] at member
      simpa [here₁.2.1] using member
    · exact wp.seq (gate_wp here₂.1) fun results w₃ here₃ => closing results w₃ here₃.1 here₃.2
  · intro r w₁ post
    match r with
    | .ok _ => exact ⟨post.toResting.aside ⟨rfl, rfl, rfl, rfl⟩, post.distinct, post.spared⟩
    | .error .cancelled | .error (.error _) => exact post

end Gate

section Route
variable {candidates : List Candidate} {C E : World → Prop} {fuel processingStart mainStream : Nat}
  {userText : Text} {useFiller : Bool} {sel : GatedSelection}

theorem cancelEager_wp (resting : Resting n ts ids w) (i : Nat) :
    (cancelEager i).wp (machine cfg) always
      (outcomes C E fun _ => Resting n ts (ids.filter (· ≠ i))) w := by
  have cancels := Busy.cancelEager_wp (M := machine cfg) (I := always) (C := C) (E := E)
    (P := fun w => w.pipe = none ∧ w.filler.Silent) resting.toBusy ⟨resting.pipe, resting.silent⟩
    id (i := i) ?_
  · exact cancels.imp fun _ _ h => ⟨h.1, h.2.1, h.2.2⟩
  · have stable : (machine cfg).Stable (Resting n ts (ids.filter (· ≠ i))) := resting_stable
    intro w' here
    exact ((Preserves.wait stable (fun _ _ _ => trivial) (.reapEager i)) w'
      ⟨here.1, here.2.1, here.2.2⟩).mono fun _ _ h => ⟨h.toBusy, h.pipe, h.silent⟩

/-- Every candidate is cancelled whose generation is not to go on. -/
theorem cancelCandidates_wp {keep : Option String} (kept : List Nat) (resting : Resting n ts ids w)
    (covered : ∀ j ∈ ids, j ∈ kept ∨ ∃ c ∈ candidates, c.stream = j ∧ some c.routeId ≠ keep) :
    (cancelCandidates keep candidates).wp (machine cfg) always
      (outcomes C E fun _ => Resting n ts kept) w := by
  induction candidates generalizing ids w with
  | nil =>
      refine resting.mono fun j member => (covered j member).resolve_right ?_
      rintro ⟨c, member, -⟩
      cases member
  | cons c cs ih =>
      refine (wp_bind _ _).mpr ((wp_when _ _).mpr ?_)
      split
      · refine (cancelEager_wp (C := C) (E := E) resting c.stream).mono fun r w' post => ?_
        match r with
        | .ok _ =>
            refine ih post fun j member => ?_
            obtain ⟨member, other⟩ := List.mem_filter.mp member
            refine (covered j member).imp_right ?_
            rintro ⟨d, inside, rfl, dropped⟩
            obtain rfl | inside := List.mem_cons.mp inside
            · simp at other
            · exact ⟨d, inside, rfl, dropped⟩
        | .error .cancelled | .error (.error _) => exact post
      · rename_i same
        refine ih resting fun j member => (covered j member).imp_right ?_
        rintro ⟨d, inside, rfl, dropped⟩
        obtain rfl | inside := List.mem_cons.mp inside
        · exact absurd dropped (by simpa using same)
        · exact ⟨d, inside, rfl, dropped⟩

theorem cancelAll_wp (resting : Resting n ts (candidates.map Candidate.stream) w) :
    (cancelCandidates none candidates).wp (machine cfg) always
      (outcomes C E fun _ => Resting n ts []) w := by
  refine cancelCandidates_wp [] resting fun j member => .inr ?_
  obtain ⟨c, inside, rfl⟩ := List.mem_map.mp member
  exact ⟨c, inside, rfl, nofun⟩

theorem addTrace_keeps (i : Nat) (userText : Text) (audio : Option Nat)
    (f : TraceRecord → TraceRecord) :
    Keeps (machine cfg) always C (Resting n ts ids) (addTrace i userText audio f) :=
  keeps_aside fun _ => ⟨rfl, rfl, rfl, rfl⟩

theorem appendAiReply_keeps (i role : Nat) (goal : Bool) (type : String) (isWrapUp : Bool) :
    Keeps (machine cfg) always C (Resting n ts ids) (appendAiReply i role goal type isWrapUp) :=
  keeps_aside fun _ => ⟨rfl, rfl, rfl, rfl⟩

theorem abort_wp {results : List RefereeResult}
    (resting : Resting n [] (candidates.map Candidate.stream) w) :
    Clears cfg n (GatedTurn.abort mainStream userText candidates results) w := by
  refine wp.seq (cancelAll_wp resting) fun _ w₁ resting₁ => ?_
  refine wp_update_bind.mpr (wp_update_bind.mpr (wp_update_bind.mpr ?_))
  exact resting₁.aside ⟨rfl, rfl, rfl, rfl⟩

/-- What a turn does once its candidates are gone. -/
abbrev Winds (cfg : RuntimeConfig) (n : Nat) {α : Type} (x : Prog α) : Prop :=
  Keeps (machine cfg) always (reaped n) (Resting n [] []) x

theorem winds_last {α : Type} {x : Prog α} (winds : Winds cfg n x) (resting : Resting n [] [] w) :
    Clears cfg n x w := winds.last resting (fun _ => Resting.reaped) fun _ _ h => h

theorem unbuffered_wp (slot : Slot) (isRestructure : Bool) (resting : Resting n ts ids w) :
    Ends cfg n (runPipelineStream slot isRestructure false) (fun _ => Resting n ts ids) w :=
  (runPipelineStream_wp slot isRestructure false resting).imp fun _ _ post => post.1

/-- The reply of a turn; its stream is the only one that may be generated. -/
theorem spoken_wp {filler : Bool} {delay start : Nat} (resting : Resting n [] [i] w) :
    Clears cfg n (playStreaming i filler delay start fuel) w :=
  (playStreaming_wp (by simp) resting).fail fun _ h => h.elim

theorem runRestructure_wp {text : Text} {trigger : Option String} (resting : Resting n [] [] w) :
    Clears cfg n (runRestructure cfg fuel text trigger) w := by
  refine wp.seq (unbuffered_wp _ _ resting) fun i w₁ resting₁ => wp_read_bind.mpr ?_
  refine wp.seq (spoken_wp (resting₁.mono (List.nil_subset _))) fun r w₂ resting₂ => ?_
  refine (appendAiReply_keeps _ _ _ _ _).seq resting₂ (fun _ => Resting.reaped) ?_
  intro _ w₃ resting₃
  refine (addTrace_keeps _ _ _ _).seq resting₃ (fun _ => Resting.reaped) ?_
  exact fun _ w₄ resting₄ => resting₄

theorem cappedRoute_winds : Winds cfg n (GatedTurn.cappedRoute cfg) := by
  refine (Keeps.when ?_).bind fun _ => (recordSession_keeps _ _).bind fun _ => Keeps.pure _
  exact (ending.wait (.choice _) rfl).bind fun reply => playTts_keeps _ _ _

theorem restructureRoute_wp {trace : Option Text → Prog Unit}
    (traces : ∀ text, Winds cfg n (trace text)) (resting : Resting n [] [] w) :
    Clears cfg n (GatedTurn.restructureRoute cfg fuel sel trace) w := by
  refine wp_read_bind.mpr ?_
  split
  · exact winds_last ((traces none).bind fun _ => cappedRoute_winds) resting
  · have assembled : Winds cfg n (assembleInterruptText sel.source) := by
      refine Keeps.act fun w resting => ?_
      dsimp only
      split
      · split
        · exact resting.aside ⟨rfl, rfl, rfl, rfl⟩
        · exact resting.aside ⟨rfl, rfl, rfl, rfl⟩
      · exact resting
    refine assembled.seq resting (fun _ => Resting.reaped) fun text w₁ resting₁ => ?_
    refine (traces text).seq resting₁ (fun _ => Resting.reaped) fun _ w₂ resting₂ => ?_
    cases text with
    | none => exact resting₂
    | some text =>
        refine wp.seq (runRestructure_wp resting₂) fun played w₃ resting₃ => ?_
        refine winds_last ((modifySession_keeps _).bind fun _ => ?_) resting₃
        exact (modifySession_keeps _).when.bind fun _ => Keeps.pure _

/-- The stream that speaks is the only one whose generation goes on. -/
theorem chooseWinner_wp (resting : Resting n [] (candidates.map Candidate.stream) w)
    (distinct : (candidates.map Candidate.routeId).Nodup) :
    Ends cfg n (GatedTurn.chooseWinner cfg mainStream candidates sel)
      (fun winner => Resting n [] [winner.1]) w := by
  unfold GatedTurn.chooseWinner
  split
  · rename_i c found
    have member := List.mem_of_find?_eq_some found
    have own : c.routeId = sel.routeId := by simpa using List.find?_some found
    refine wp.seq (cancelCandidates_wp [c.stream] resting fun j inside => ?_)
      fun _ w₁ resting₁ => resting₁
    obtain ⟨d, listed, rfl⟩ := List.mem_map.mp inside
    by_cases same : d.routeId = sel.routeId
    · obtain rfl := List.inj_on_of_nodup_map distinct listed member (same.trans own.symm)
      exact .inl (.head _)
    · exact .inr ⟨d, listed, rfl, by simpa using same⟩
  · refine wp.seq (cancelAll_wp resting) fun _ w₁ resting₁ => ?_
    refine wp.seq (buildStream_wp resting₁) fun _ w₂ same => wp_read_bind.mpr ?_
    subst same
    refine wp_act_bind.mpr ?_
    have added : Resting n [] [] (w₂.addStream
        { turnId := (w₂.stream mainStream).turnId, slot := cfg.pipeline.main }) :=
      ⟨resting₁.toBusy.add nofun, resting₁.pipe, resting₁.silent⟩
    exact added.mono (List.nil_subset _)

theorem enterWrapUp_winds (goalType : String) :
    Winds cfg n (GatedTurn.enterWrapUp cfg goalType) := by
  refine (ending.transition _ _).bind fun _ => Keeps.bind ?_ fun _ => ?_
  · exact keeps_aside fun _ => ⟨rfl, rfl, rfl, rfl⟩
  · exact (ending.append rfl).bind fun _ => ending.append rfl

theorem dialogueRoute_wp {trace : Nat → Option Nat → Prog Unit}
    (traces : ∀ i audio, Winds cfg n (trace i audio))
    (resting : Resting n [] (candidates.map Candidate.stream) w)
    (distinct : (candidates.map Candidate.routeId).Nodup) :
    Clears cfg n (GatedTurn.dialogueRoute cfg fuel useFiller processingStart mainStream candidates
      sel trace) w := by
  refine wp.seq (chooseWinner_wp resting distinct) fun winner w₁ resting₁ => ?_
  refine wp_update_bind.mpr (wp_update_bind.mpr ?_)
  refine wp.seq (spoken_wp (resting₁.aside ⟨rfl, rfl, rfl, rfl⟩)) fun r w₂ resting₂ => ?_
  dsimp only
  split
  · refine winds_last ((traces _ _).bind fun _ => ?_) resting₂
    refine Keeps.bind (appendAiReply_keeps _ _ _ _ _) fun _ => ?_
    exact (modifySession_keeps _).bind fun _ => Keeps.pure _
  · refine winds_last ((recordSession_keeps _ _).bind fun _ => ?_) resting₂
    refine (traces _ _).bind fun _ => Keeps.bind (appendAiReply_keeps _ _ _ _ _) fun _ => ?_
    exact (enterWrapUp_winds _).when.bind fun _ => Keeps.pure _

theorem route_wp {trace : Option Text → Nat → Option Nat → Prog Unit}
    {decision : Option TransferDecision} (traces : ∀ text i audio, Winds cfg n (trace text i audio))
    (resting : Resting n [] (candidates.map Candidate.stream) w)
    (distinct : (candidates.map Candidate.routeId).Nodup) :
    Clears cfg n (GatedTurn.route cfg fuel useFiller processingStart mainStream candidates sel trace
      decision) w := by
  have handoff : ∀ type detail phrase, Winds cfg n (do
      trace none mainStream none
      performHandoff type detail phrase
      pure Directive.return) := fun type detail phrase =>
    (traces _ _ _).bind fun _ => (ending.performHandoff _ _ _).bind fun _ => Keeps.pure _
  unfold GatedTurn.route
  split
  · exact wp.seq (cancelAll_wp resting) fun _ _ resting₁ => winds_last (handoff _ _ _) resting₁
  · exact wp.seq (cancelAll_wp resting) fun _ _ resting₁ => winds_last (handoff _ _ _) resting₁
  · exact wp.seq (cancelAll_wp resting) fun _ _ resting₁ => winds_last (handoff _ _ _) resting₁
  · refine wp.seq (cancelAll_wp resting) fun _ _ resting₁ => ?_
    exact winds_last (ending.hangupRoute sel (traces _ _ _)) resting₁
  · exact wp.seq (cancelAll_wp resting) fun _ _ resting₁ => winds_last (handoff _ _ _) resting₁
  · split
    · refine wp.seq (cancelAll_wp resting) fun _ _ resting₁ => ?_
      exact restructureRoute_wp (fun text => traces text _ _) resting₁
    · exact dialogueRoute_wp (traces none) resting distinct

/-- The detector is awaited before any route is taken. -/
theorem resolveTransferLlm_wp {spawned : Bool}
    (resting : Resting n (if spawned then [.detector] else []) ids w) :
    Ends cfg n (resolveTransferLlm spawned) (fun _ => Resting n [] ids) w := by
  cases spawned with
  | false => exact resting
  | true =>
      refine wp.seq (L := fun _ => Resting n [.detector] ids) ?_ fun decision w₁ resting₁ => ?_
      · refine wp.exceptError (P := fun r w => r ≠ .error .cancelled ∧ Resting n [.detector] ids w)
          (wp_wait.mpr ⟨trivial, fun w₁ w₂ r steps replied => ⟨?_, ?_⟩⟩)
          (fun _ _ post => post.2) (fun _ post => absurd rfl post.1) fun _ _ post => post.2
        · rintro rfl
          cases (Machine.restrict_reply_some replied).1
        · exact resting_stable.reply (resting_stable.steps steps resting) replied
      · exact ⟨resting₁.toBusy.drop [.detector], resting₁.pipe, resting₁.silent⟩

theorem release_wp {transferLlm : Bool} {results : List RefereeResult}
    (gated : Gated n (if transferLlm then [.detector] else []) candidates w) :
    Clears cfg n (GatedTurn.release cfg fuel userText useFiller transferLlm processingStart
      mainStream candidates results) w := by
  refine wp_act_bind.mpr ?_
  refine wp.seq (resolveTransferLlm_wp (gated.toResting.aside ⟨rfl, rfl, rfl, rfl⟩)) ?_
  intro decision w₁ resting₁
  exact route_wp (fun _ _ _ => addTrace_keeps _ _ _ _) resting₁ gated.distinct

end Route

section WrapUp

/-- The referee of a wrap-up turn. -/
def closingTasks (cfg : RuntimeConfig) : List TurnTask :=
  if cfg.wrapUp.refereeEnabled then [.wrapUpReferee] else []

theorem closingTasks_spared : ∀ t ∈ closingTasks cfg, t = .wrapUpReferee := by
  intro t member
  unfold closingTasks at member
  split at member
  · simpa using member
  · cases member

section
variable (resting : Resting n (closingTasks cfg) [] w)
include resting

theorem dropReferee :
    Resting n [] [] { w with turnTasks := w.turnTasks.diff [.wrapUpReferee] } := by
  have most : Busy n ([.wrapUpReferee] ++ []) [] w := by
    refine resting.toBusy.mono (fun t => ?_) (List.Subset.refl _)
    unfold closingTasks
    split
    · exact Nat.le_refl _
    · exact Nat.zero_le _
  exact ⟨most.drop _, resting.pipe, resting.silent⟩

theorem refereeVerdict_wp :
    Clears cfg n (WrapUpTurn.refereeVerdict cfg.wrapUp.refereeEnabled) w := by
  cases enabled : cfg.wrapUp.refereeEnabled with
  | false =>
      have none : Resting n [] [] w := by simpa [closingTasks, enabled] using resting
      exact none
  | true =>
      refine wp_update_bind.mpr (winds_last (Keeps.exceptError ?_ fun _ => ?_)
        (dropReferee resting))
      · exact (ending.wait .wrapUpReferee rfl).bind fun r => Keeps.pure (some r)
      · exact Keeps.pure none

theorem afterReply_wp : Clears cfg n (WrapUpTurn.afterReply cfg) w := by
  refine wp.seq (refereeVerdict_wp resting) fun verdict w₁ resting₁ => wp_update_bind.mpr ?_
  split
  · exact winds_last ending.refereeHangup (resting₁.aside ⟨rfl, rfl, rfl, rfl⟩)
  · refine (modifySession_keeps _).seq (resting₁.aside ⟨rfl, rfl, rfl, rfl⟩)
      (fun _ => Resting.reaped) fun _ w₂ resting₂ => wp_read_bind.mpr ?_
    split
    · exact winds_last (ending.complete cfg _) resting₂
    · exact resting₂

end

theorem wrapUpRun_wp {fuel processingStart : Nat} {userText : Text} (resting : Resting n [] [] w) :
    Clears cfg n (WrapUpTurn.run cfg fuel userText processingStart) w := by
  refine wp.seq (unbuffered_wp _ _ resting) fun i w₁ resting₁ => ?_
  refine wp.seq (L := fun _ => Resting n (closingTasks cfg) []) ?_ fun _ w₂ resting₂ => ?_
  · refine (wp_when _ _).mpr ?_
    unfold closingTasks
    split
    · exact ⟨resting₁.toBusy.spawn [.wrapUpReferee], resting₁.pipe, resting₁.silent⟩
    · exact resting₁
  refine wp_update_bind.mpr (wp_update_bind.mpr ?_)
  have begun : Resting n (closingTasks cfg) [i]
      ((w₂.transition .inCall "main_stream_started").note .wrapUpReply) :=
    (resting₂.mono (List.nil_subset [i])).aside ⟨rfl, rfl, rfl, rfl⟩
  refine wp.seq ((playStreaming_wp closingTasks_spared begun).fail fun _ h => h.elim)
    fun r w₃ resting₃ => ?_
  refine wp_update_bind.mpr (wp_update_bind.mpr (wp_update_bind.mpr ?_))
  dsimp only
  split
  · refine wp_update_bind.mpr (wp_update_bind.mpr ?_)
    exact (dropReferee (resting₃.aside ⟨rfl, rfl, rfl, rfl⟩)).aside ⟨rfl, rfl, rfl, rfl⟩
  · exact afterReply_wp (resting₃.aside ⟨rfl, rfl, rfl, rfl⟩)

end WrapUp

theorem runGatedTurn_wp {fuel processingStart : Nat} {userText : Text}
    {isWrapUp useFiller detects : Bool}
    (labels : (cfg.pipeline.enabledPersonas.map PersonaSpec.label).Nodup)
    (unrefereed : cfg.pipeline.refereeLabels = [] → Spared w)
    (resting : Resting n (if !isWrapUp && detects then [.detector] else []) [] w) :
    (runGatedTurn cfg fuel userText isWrapUp useFiller (!isWrapUp && detects)
      processingStart).wp (machine cfg) always (fun _ => reaped n) w := by
  have over' : ∀ {x : Prog Directive} {w : World}, Clears cfg n x w →
      x.wp (machine cfg) always (fun _ => reaped n) w := by
    intro x w body
    refine body.mono fun r w' post => ?_
    match r with
    | .ok _ => exact post.reaped
    | .error .cancelled | .error (.error _) => exact post
  refine wp_update_bind.mpr (over' ?_)
  cases isWrapUp with
  | true => exact wrapUpRun_wp (resting.aside ⟨rfl, rfl, rfl, rfl⟩)
  | false =>
      refine wp.seq (gatePhase_wp labels unrefereed (resting.aside ⟨rfl, rfl, rfl, rfl⟩)) ?_
      intro opened w₁ gated
      refine wp_read_bind.mpr ?_
      split
      · rename_i signaled
        refine abort_wp ⟨?_, gated.pipe, gated.silent⟩
        cases detects with
        | true => exact gated.toBusy.lacks (gated.spared signaled)
        | false => exact gated.toBusy
      · exact release_wp gated

end Reaping

namespace Guarantees

/-- In every orderly run of a turn whose candidates have different labels: when the turn has
returned or raised, nothing that was started for it still runs without having been cancelled. The
turn is entered with its transfer detector started and with no reply in progress, and a turn
without referees is not entered with a barge-in already latched and a detector running. -/
theorem turn_reaps_tasks (cfg : RuntimeConfig) (fuel : Nat) (userText : Text)
    (isWrapUp useFiller detects : Bool) (processingStart : Nat) (w : World)
    (acts : List (Action sig Move)) (c : Susp sig World Directive) (r : Reply Directive)
    (labels : (cfg.pipeline.enabledPersonas.map PersonaSpec.label).Nodup)
    (tasks : w.turnTasks = if !isWrapUp && detects then [.detector] else [])
    (unrefereed : cfg.pipeline.refereeLabels = [] → w.session.interruptionSignaled = true →
      .detector ∉ w.turnTasks)
    (pipe : w.pipe = none) (silent : w.filler.Silent)
    (run : ((engine cfg).restrict orderly).exec (runGatedTurn cfg fuel userText isWrapUp useFiller
      (!isWrapUp && detects) processingStart w) acts = some c)
    (ended : c.result? = some r) : c.state.background w.streams.length = false := by
  have resting : Reaping.Resting w.streams.length
      (if !isWrapUp && detects then [.detector] else []) [] w := by
    refine ⟨⟨fun t => ?_, fun i generating => .inl ?_⟩, pipe, silent⟩
    · rw [← tasks, List.count_append]
      exact Nat.le_add_right _ _
    · refine Nat.lt_of_not_le fun beyond => ?_
      simp [World.stream, List.getElem?_eq_none beyond, Stream.generating] at generating
  exact (Reaping.runGatedTurn_wp labels unrefereed resting).result run ended

/-- A campaign with one referee and personas of the given labels, with a transfer detector or
without. -/
def personaConfig (llmEnabled : Bool) (labels : List String) : RuntimeConfig :=
  { RuntimeConfig.refereed with
    transfer := { RuntimeConfig.refereed.transfer with llmEnabled := llmEnabled }
    pipeline := { RuntimeConfig.refereed.pipeline with
      personas := labels.map fun label => ⟨label, 7, {}⟩, personaFanoutCap := 3 } }

/-- A turn begins with the given tasks, and the caller says something more. -/
def turnBegun (tasks : List TurnTask) : World := { World.initial 1 .other with
  listen := { partialMonitor := .running, partials := [⟨"等等".toList, 0⟩] }
  turnTasks := tasks }

/-- The generation of a stream ends after it was cancelled. -/
def eagerReaped (i : Nat) : List (Action sig Move) :=
  [.move (.eagerEnd i none), .reply (.reapEager i) (.error .cancelled)]

/-- Three candidates, of which the main one is played until the caller interrupts it. -/
def interruptedRun : List (Action sig Move) :=
  List.replicate 3 (.reply (.ext .buildStream) (.ok ())) ++
    [.reply .gate (.ok [⟨"intent", none, none⟩]), .reply .transferLlm (.ok none)] ++
    eagerReaped 1 ++ eagerReaped 2 ++
    [.move (.eagerSentence 0 "您好。".toList), .move .replaySentence,
      .reply .jobGet (.ok (some "您好。".toList)), .move .partialMonitor, .move (.playEnd true),
      .reply .playback (.error .cancelled), .move .producerEnd, .reply .reapProducer (.ok ()),
      .reply .reapSynth (.ok ()), .reply .closeSynth (.ok ())] ++ eagerReaped 0

theorem interrupted_turn_reaped :
    ∃ c, ((engine (personaConfig true ["a", "b"])).restrict orderly).exec (runGatedTurn
      (personaConfig true ["a", "b"]) 4 "在".toList false false true 0 (turnBegun [.detector]))
      interruptedRun = some c ∧
      c.result? = some (.ok .continue) ∧ c.state.background 0 = false := by
  refine exists_of_map (fun c => decide (c.result? = some (.ok .continue))) true (by decide +kernel)
    fun c run returned => ?_
  have returned := of_decide_eq_true returned
  refine ⟨returned, ?_⟩
  exact turn_reaps_tasks (personaConfig true ["a", "b"]) 4 "在".toList false false true 0
    (turnBegun [.detector]) interruptedRun c _ (by decide) rfl nofun rfl ⟨rfl, nofun⟩ run returned

/-- The caller speaks while the gate is open. The turn is dropped, and its transfer detector is
forgotten. So is the first of two personas with one label, whose place the second has taken. -/
theorem dropped_turn_forgets_tasks :
    ((engine (personaConfig true [])).exec (runGatedTurn (personaConfig true []) 4 "在".toList false
      false true 0 (turnBegun [.detector])) ([.reply (.ext .buildStream) (.ok ()),
        .move .partialMonitor, .reply .gate (.ok [⟨"intent", none, none⟩])] ++ eagerReaped 0)).map
      (fun c => (decide (c.result? = some (.ok .continue)), c.state.turnTasks,
        c.state.background 0)) = some (true, [.detector], true) ∧
    ((engine (personaConfig false ["a", "a"])).exec (runGatedTurn (personaConfig false ["a", "a"])
      4 "在".toList false false false 0 (turnBegun []))
      (List.replicate 3 (.reply (.ext .buildStream) (.ok ())) ++
        [.move .partialMonitor, .reply .gate (.ok [⟨"intent", none, none⟩])] ++ eagerReaped 0 ++
        eagerReaped 2)).map
      (fun c => (decide (c.result? = some (.ok .continue)),
        c.state.streams.map Stream.generating, c.state.background 0)) =
      some (true, [false, true, false], true) := by
  constructor
  · decide +kernel
  · decide +kernel

end Guarantees
end IsalesEngine
