import IsalesEngine.Engine.Audit

/-!
A turn held against the call log: the gate and its candidates, the routes, the
re-voicing of an interrupted reply, and the turn of the wrap-up phase. A turn
that returns leaves the ledger idle or the call over.
-/
namespace IsalesEngine
open Asyncio Asyncio.Coro

namespace Audit
variable {a : Audit} {p p' : Phase} {own : List Nat} {w w' : World} {i : Nat}

section Turn
variable {fuel processingStart mainStream : Nat} {userText : Text} {useFiller : Bool}
  {candidates : List Candidate} {sel : GatedSelection}

theorem runPipelineStream_wp {slot : Slot} {isRestructure eager : Bool} (here : a.At p own w)
    (draw : ∀ L, LedgerStep a.rules p L p' L.draw) (same : isRestructure = p'.revoices) :
    a.Ends (runPipelineStream slot isRestructure eager) (fun i => a.At p' [i]) w := by
  refine (helps.ext .buildStream).seq here At.logged fun _ w₁ here₁ => ?_
  refine wp_update_bind.mpr (wp_read_bind.mpr ?_)
  have drawn : a.At p' [] { w₁ with session := { w₁.session with
      currentTurnId := w₁.session.currentTurnId + 1 } } := here₁.enter (draw _)
  exact drawn.addStream rfl same

theorem addTrace_drawn (here : a.At (.drawn false) own w) (member : i ∈ own)
    {f : TraceRecord → TraceRecord} {audio : Option Nat} (fills : Fills f none) :
    a.At .recorded [] { w with pipelineTraceRecords := w.pipelineTraceRecords ++
      [f (row w i userText audio)] } :=
  here.enter (.record _ (row_turnId (here.voices i member) fills) (fills.text _ rfl))

theorem abort_wp {results : List RefereeResult} (here : a.At (.drawn false) own w)
    (member : mainStream ∈ own) :
    a.Ends (GatedTurn.abort mainStream userText candidates results) a.directed w := by
  refine (helps.cancelCandidates none candidates).seq here At.logged fun _ w₁ here₁ => ?_
  have fills : Fills (fun t => { t with refereeResults := results }) none :=
    ⟨fun _ => rfl, fun _ => rfl, fun _ h => h⟩
  exact here₁.enter (.abort _ (row_turnId (here₁.voices _ member) fills) rfl)

theorem cappedRoute_wp (here : a.At .recorded [] w) :
    a.Ends (GatedTurn.cappedRoute a.cfg) a.directed w := by
  have spoken : a.Stays .recorded [] (when (a.cfg.pipeline.defaultReplies ≠ []) do
        let reply ← await (.choice a.cfg.pipeline.defaultReplies)
        IsalesEngine.playTts .cappedDefault reply) :=
    Keeps.when ((helps.wait _ rfl).bind fun _ => playTts (fun _ => rfl) _ _)
  refine spoken.seq here At.logged fun _ w₁ here₁ => ?_
  exact here₁.enter .unanswered

theorem assembleInterruptText_keeps (source : Option String) :
    a.Stays p own (assembleInterruptText source) := by
  refine Keeps.act fun w here => ?_
  dsimp only
  split
  · split
    · exact here.unchanged rfl rfl
    · exact here.unchanged rfl rfl
  · exact here

/-- The re-voiced text has been played, or it was cut and is counted as soon as it is recorded. -/
theorem runRestructure_wp (abides : a.Abides) {text : Text} {trigger : Option String}
    (here : a.At .restructuring [] w) :
    a.Ends (runRestructure a.cfg fuel text trigger) (fun played w =>
      if played then a.Log .idle w.ledger else a.Log .idle w.ledger.interrupt) w := by
  have redrawn : a.Ends (runPipelineStream a.cfg.pipeline.restructureSlot true false)
      (fun i => a.At .revoicing [i]) w :=
    runPipelineStream_wp here (fun _ => .redraw) rfl
  refine wp.seq redrawn fun i w₁ here₁ => wp_read_bind.mpr ?_
  refine wp.seq (Voicing.playStreaming_wp (P := a.Log .revoicing)
    (T := fun L => a.Log .revoicing L ∧ a.rules.whole L) (R := a.Log .revoiceCut) logged
    (fun L h => ⟨_, h.1⟩) logged (fun L h => h.step .resentence)
    (fun L job h => h.step (.recut job)) ?_ here₁) ?_
  · intro w₂ speaking finishes
    have revoices := (World.stream_of_voice (speaking.voices i List.mem_cons_self)).2
    exact ⟨speaking.ledger, abides.whole speaking.flag (.inl revoices) finishes⟩
  · intro r w₂ post
    have fills : Fills (fun t => { t with
        restructureText := some text, restructureTrigger := trigger }) (some text) :=
      ⟨fun _ => rfl, fun _ => rfl, fun _ _ => rfl⟩
    refine replyThenTrace fun w₃ same => ?_
    obtain ⟨firstAudioMs, played⟩ := r
    cases played with
    | true =>
        have here₂ : a.At .revoicing [i] w₂ := post.imp And.left
        show a.Log .idle w₃.ledger
        rw [same]
        exact here₂.ledger.step
          (.revoiced _ _ (answers (here₂.voices i List.mem_cons_self) fills) post.ledger.2)
    | false =>
        have here₂ : a.At .revoiceCut [i] w₂ := post
        show a.Log .idle w₃.ledger.interrupt
        rw [same]
        exact here₂.ledger.step
          (.reinterrupted _ _ (answers (here₂.voices i List.mem_cons_self) fills))

/-- The rows of a turn, each filled in by its route. -/
abbrev traces (userText : Text) (f : Option Text → TraceRecord → TraceRecord) (text : Option Text)
    (i : Nat) (audio : Option Nat) : Prog Unit := addTrace i userText audio (f text)

variable {f : Option Text → TraceRecord → TraceRecord}

theorem restructureRoute_wp (abides : a.Abides) (fills : ∀ text, Fills (f text) text)
    (permits : a.rules.revoices) (here : a.At (.drawn false) own w) (member : mainStream ∈ own) :
    a.Ends (GatedTurn.restructureRoute a.cfg fuel sel fun text =>
      traces userText f text mainStream none) a.directed w := by
  refine wp_read_bind.mpr ?_
  split
  · exact wp_update_bind.mpr (cappedRoute_wp (addTrace_drawn here member (fills none)))
  · refine (assembleInterruptText_keeps _).seq here At.logged fun text w₁ here₁ => ?_
    refine wp_update_bind.mpr ?_
    cases text with
    | none => exact (addTrace_drawn here₁ member (fills none)).enter .unanswered
    | some text =>
        have texted := congrArg Option.isSome
          ((fills (some text)).text (row w₁ mainStream userText none) rfl)
        have restructuring : a.At .restructuring [] { w₁ with pipelineTraceRecords :=
            w₁.pipelineTraceRecords ++ [f (some text) (row w₁ mainStream userText none)] } :=
          here₁.enter (.restructure _ (row_turnId (here₁.voices mainStream member)
            (fills (some text))) texted permits)
        refine wp.seq (runRestructure_wp abides restructuring) fun played w₂ post => ?_
        refine wp_update_bind.mpr ?_
        cases played with
        | true | false => exact ⟨post, nofun⟩

theorem chooseWinner_wp (here : a.At (.drawn false) own w) (member : mainStream ∈ own)
    (cast : ∀ c ∈ candidates, c.stream ∈ own) :
    a.Ends (GatedTurn.chooseWinner a.cfg mainStream candidates sel)
      (fun winner => a.At (.drawn false) [winner.1]) w := by
  unfold GatedTurn.chooseWinner
  split
  · rename_i c found
    refine (helps.cancelCandidates _ _).seq here At.logged fun _ w₁ here₁ => ?_
    refine here₁.mono fun j only => ?_
    rw [List.mem_singleton.mp only]
    exact cast c (List.mem_of_find?_eq_some found)
  · refine (helps.cancelCandidates _ _).seq here At.logged fun _ w₁ here₁ => ?_
    refine (helps.ext .buildStream).seq here₁ At.logged fun _ w₂ here₂ => ?_
    have drawn := (World.stream_of_voice (here₂.voices mainStream member)).1
    have built : a.At (.drawn false) (w₂.streams.length :: own) (w₂.addStream
        { turnId := (w₂.stream mainStream).turnId, slot := a.cfg.pipeline.main }) :=
      here₂.addStream drawn rfl
    refine wp_read_bind.mpr (wp_act_bind.mpr ?_)
    exact built.mono fun j only => List.mem_cons.mpr (.inl (List.mem_singleton.mp only))

theorem enterWrapUp_wp {M : Machine sig World} {I : Op → World → Prop}
    {Q : Reply Unit → World → Prop} {goalType : String}
    (next : ∀ w', w'.ledger = w.ledger.wrapUp a.cfg.wrapUp.maxRounds a.cfg.wrapUp.maxSeconds
      goalType → Q (.ok ()) w') : (GatedTurn.enterWrapUp a.cfg goalType).wp M I Q w := by
  refine wp_update_bind.mpr (wp_update_bind.mpr (wp_update_bind.mpr (next _ ?_)))
  rw [World.ledger_append _ rfl, World.ledger_append _ rfl]
  have same := w.ledger_transition .inCall (if goalType = "" then "goal_achieved" else goalType)
  exact congrArg (fun L : Ledger => L.wrapUp a.cfg.wrapUp.maxRounds a.cfg.wrapUp.maxSeconds
    goalType) same

section
variable (fills : Fills (f none) none)
include fills

theorem dialogueRoute_wp (permits : a.rules.reply sel.goalAchieved sel.replyGoal sel.wrapsUp)
    (here : a.At (.drawn false) own w) (member : mainStream ∈ own)
    (cast : ∀ c ∈ candidates, c.stream ∈ own) :
    a.Ends (GatedTurn.dialogueRoute a.cfg fuel useFiller processingStart mainStream candidates sel
      (traces userText f none)) a.directed w := by
  refine wp.seq (chooseWinner_wp here member cast) fun winner w₁ here₁ => ?_
  obtain ⟨winner, persona⟩ := winner
  refine (transition _ _).seq here₁ At.logged fun _ w₂ here₂ => wp_update_bind.mpr ?_
  refine wp.seq (Voicing.playStreaming_wp (P := a.Log (.replying false))
    (T := a.Log (.replying false)) (R := a.Log (.replyCut false)) logged logged logged
    (fun L h => h.step (.sentence false)) (fun L job h => h.step (.cut false job))
    (fun speaking _ => speaking.ledger) (here₂.goOn (.release _ _ _) rfl rfl rfl)) ?_
  intro r w₃ post
  obtain ⟨firstAudioMs, played⟩ := r
  cases played with
  | false =>
      have here₃ : a.At (.replyCut false) [winner] w₃ := post
      refine traceThenReply fun w₄ same => ?_
      refine ⟨?_, nofun⟩
      show a.Log .idle w₄.ledger.interrupt
      rw [same]
      exact here₃.ledger.step (.interrupted false _ _ (fills.text _ rfl)
        (answers (here₃.voices winner List.mem_cons_self) fills))
  | true =>
      have here₃ : a.At (.replying false) [winner] w₃ := post
      refine wp_update_bind.mpr (traceThenReply fun w₄ same => ?_)
      have voice := here₃.voices winner List.mem_cons_self
      refine wp.seq (L := fun _ => a.At .idle []) ((wp_when _ _).mpr ?_) fun _ _ idle => idle
      split
      · rename_i wraps
        rw [show sel.wrapsUp = true from wraps] at permits
        refine enterWrapUp_wp fun w₅ wrapped => ⟨?_, nofun⟩
        rw [wrapped, same]
        exact here₃.ledger.step (.wrapsUp _ _ _ _ _ _ (fills.text _ rfl) (answers voice fills)
          permits)
      · rename_i stays
        rw [show sel.wrapsUp = false from Bool.eq_false_iff.mpr stays] at permits
        refine ⟨?_, nofun⟩
        rw [same]
        exact here₃.ledger.step (.replied _ _ _ _ (fills.text _ rfl) (answers voice fills)
          permits)

theorem hangupRoute_wp (here : a.At (.drawn false) own w) (member : mainStream ∈ own) :
    a.Ends (GatedTurn.hangupRoute sel (traces userText f none mainStream none)) a.directed w := by
  refine (setHangupCause_keeps _).seq here At.logged fun _ w₁ here₁ => ?_
  refine (Keeps.when (playTts (fun _ => rfl) _ _)).seq here₁ At.logged fun _ w₂ here₂ => ?_
  have ended : a.At .ended [] { w₂ with pipelineTraceRecords := w₂.pipelineTraceRecords ++
      [f none (row w₂ mainStream userText none)] } :=
    (addTrace_drawn here₂ member fills).enter .hangup
  refine wp_update_bind.mpr ((transition _ _).seq ended At.logged fun _ w₃ ended₃ => ?_)
  exact (appendHangup_keeps _ _).seq ended₃ At.logged fun _ _ ended₄ => ended₄

theorem handoffRoute_wp {type detail : String} {phrase : Text}
    (here : a.At (.drawn false) own w) (member : mainStream ∈ own) :
    a.Ends (do
      cancelCandidates none candidates
      traces userText f none mainStream none
      performHandoff type detail phrase
      pure Directive.return) a.directed w := by
  refine (helps.cancelCandidates none candidates).seq here At.logged fun _ w₁ here₁ => ?_
  refine wp_update_bind.mpr ?_
  exact wp.seq (performHandoff_wp (addTrace_drawn here₁ member fills) (.handoff type detail))
    fun _ _ ended => ended

end

/-- The route of a turn leaves the ledger idle, or the call is over. -/
theorem route_wp (abides : a.Abides) (fills : ∀ text, Fills (f text) text)
    (permits : a.Permits sel) {decision : Option TransferDecision}
    (here : a.At (.drawn false) own w) (member : mainStream ∈ own)
    (cast : ∀ c ∈ candidates, c.stream ∈ own) :
    a.Ends (GatedTurn.route a.cfg fuel useFiller processingStart mainStream candidates sel
      (traces userText f) decision) a.directed w := by
  have cancels : a.Stays (.drawn false) own
      (cancelCandidates none candidates) := helps.cancelCandidates none candidates
  unfold GatedTurn.route
  split
  · exact handoffRoute_wp (fills none) here member
  · exact handoffRoute_wp (fills none) here member
  · exact handoffRoute_wp (fills none) here member
  · exact cancels.seq here At.logged fun _ _ here₁ => hangupRoute_wp (fills none) here₁ member
  · exact handoffRoute_wp (fills none) here member
  · rename_i dialogue
    split
    · rename_i restructure
      exact cancels.seq here At.logged fun _ _ here₁ =>
        restructureRoute_wp abides fills (permits.revoices dialogue restructure) here₁ member
    · rename_i other
      exact dialogueRoute_wp (fills none) (permits.reply dialogue other) here member cast

theorem gated_fills (results : List RefereeResult) (action : DeciderAction) (text : Option Text) :
    Fills (gated results action sel candidates text) text :=
  ⟨fun _ => rfl, fun _ => rfl, fun _ _ => rfl⟩

theorem spawnPersonas_wp {turnId : Nat} {personas : List PersonaSpec}
    (here : a.Given (.drawn false) (fun L => L.drawn = turnId)
      (mainStream :: candidates.map Candidate.stream) w) :
    a.Ends (spawnPersonas turnId personas candidates) (fun cs =>
      a.At (.drawn false) (mainStream :: cs.map Candidate.stream)) w := by
  induction personas generalizing candidates w with
  | nil => exact here.imp And.left
  | cons persona personas ih =>
      refine (Given.helps.ext .buildStream).seq here Given.logged fun _ w₁ here₁ => ?_
      refine wp_act_bind.mpr (ih ?_)
      refine (here₁.addStream here₁.ledger.2.symm rfl).mono fun j member => ?_
      obtain rfl | member := List.mem_cons.mp member
      · exact List.mem_cons_of_mem _ List.mem_cons_self
      · obtain ⟨c, inserted, rfl⟩ := List.mem_map.mp member
        obtain rfl | old := mem_insertCandidate inserted
        · exact List.mem_cons_self
        · exact List.mem_cons_of_mem _ (List.mem_cons_of_mem _ (List.mem_map_of_mem old))

/-- The streams of an open gate are those of the turn. -/
theorem gatePhase_wp (here : a.At (.begun false) [] w) : a.Ends (gatePhase a.cfg) (fun opened =>
      a.At (.drawn false) (opened.1 :: opened.2.1.map Candidate.stream)) w := by
  refine wp_update_bind.mpr (wp.andFinally (P := a.post fun opened =>
    a.At (.drawn false) (opened.1 :: opened.2.1.map Candidate.stream)) ?_ ?_)
  · have entered : a.At (.begun false) [] { w with session := { w.session with
        inProcessingTurn := true } } := here.unchanged rfl rfl
    have drawn : a.Ends (runPipelineStream a.cfg.pipeline.main false true)
        (fun i => a.At (.drawn false) [i]) _ :=
      runPipelineStream_wp entered (fun _ => .draw false) rfl
    refine wp.seq drawn fun i w₁ here₁ => ?_
    refine (spawnTasks_keeps _).seq here₁ At.logged fun _ w₂ here₂ => wp_read_bind.mpr ?_
    have voice := here₂.voices i List.mem_cons_self
    refine wp.seq (L := fun candidates => a.At (.drawn false)
      (i :: candidates.map Candidate.stream)) (spawnPersonas_wp ⟨⟨here₂.ledger, ?_⟩, ?_⟩) ?_
    · exact (World.stream_of_voice voice).1.symm
    · intro j member
      have only : j = i := by simpa using member
      exact only ▸ voice
    · intro candidates w₃ here₃
      have closes : ∀ (results : List RefereeResult) (w : World),
          a.At (.drawn false) (i :: candidates.map Candidate.stream) w →
          a.Ends (do
            dropTasks (a.cfg.pipeline.refereeLabels.map fun _ => TurnTask.referee)
            pure (i, candidates, results)) (fun opened =>
              a.At (.drawn false) (opened.1 :: opened.2.1.map Candidate.stream)) w :=
        fun results w here => (helps.dropTasks _).seq here At.logged fun _ _ here => here
      split
      · exact closes [] w₃ here₃
      · exact (helps.wait .gate rfl).seq here₃ At.logged closes
  · intro r w' post
    match r with
    | .ok _ => exact post.unchanged rfl rfl
    | .error .cancelled | .error (.error _) => exact post

theorem release_wp (abides : a.Abides) (permits : ∀ sel, a.Permits sel) {transferLlm : Bool}
    {results : List RefereeResult}
    (here : a.At (.drawn false) (mainStream :: candidates.map Candidate.stream) w) :
    a.Ends (GatedTurn.release a.cfg fuel userText useFiller transferLlm processingStart mainStream
      candidates results) a.directed w := by
  refine wp_act_bind.mpr ?_
  have here₁ : a.At (.drawn false) (mainStream :: candidates.map Candidate.stream) { w with
      session := (autoRestructure a.cfg.pipeline results w.session
        (decideAction results a.cfg.pipeline.routingRules)).2 } := by
    obtain same | same := GateRule.autoRestructure_session a.cfg.pipeline results w.session
      (decideAction results a.cfg.pipeline.routingRules)
    · rw [same]
      exact here
    · rw [same]
      exact here.unchanged rfl rfl
  refine (helps.resolveTransferLlm _).seq here₁ At.logged fun decision w₂ here₂ => ?_
  exact route_wp abides (gated_fills results _) (permits _) here₂ List.mem_cons_self
    fun c member => List.mem_cons_of_mem _ (List.mem_map_of_mem member)

end Turn

section WrapUp
variable {fuel processingStart : Nat} {userText : Text}

theorem refereeHangup_wp (ended : a.At .ended [] w) :
    a.Ends WrapUpTurn.refereeHangup a.directed w := by
  refine (setHangupCause_keeps _).seq ended At.logged fun _ w₁ ended₁ => ?_
  refine (transition _ _).seq ended₁ At.logged fun _ w₂ ended₂ => ?_
  exact (appendHangup_keeps _ _).seq ended₂ At.logged fun _ _ ended₃ => ended₃

theorem complete_wp {reason : String} (ended : a.At .ended [] w) :
    a.Ends (WrapUpTurn.complete a.cfg reason) a.directed w := by
  refine (helps.pickFrom _ _).seq ended At.logged fun phrase w₁ ended₁ => ?_
  refine (playTts (fun _ => rfl) _ _).seq ended₁ At.logged fun _ w₂ ended₂ => ?_
  refine (append_keeps rfl rfl).seq ended₂ At.logged fun _ w₃ ended₃ => ?_
  refine (transition _ _).seq ended₃ At.logged fun _ w₄ ended₄ => ?_
  refine (setHangupCause_keeps _).seq ended₄ At.logged fun _ w₅ ended₅ => ?_
  exact (appendHangup_keeps _ _).seq ended₅ At.logged fun _ _ ended₆ => ended₆

theorem afterReply_wp (here : a.At .closing [] w) :
    a.Ends (WrapUpTurn.afterReply a.cfg) a.directed w := by
  refine (helps.refereeVerdict _).seq here At.logged fun verdict w₁ here₁ => ?_
  refine Keeps.seq (Keeps.update ?_) here₁ At.logged fun _ w₂ here₂ => ?_
  · intro w here
    cases verdict with
    | none => exact here
    | some r => exact here.enter (.judged [r])
  split
  · exact refereeHangup_wp (here₂.enter .wrapUpEnds)
  · refine wp_update_bind.mpr (wp_read_bind.mpr ?_)
    split
    · exact complete_wp (here₂.enter .wrapUpEnds)
    · exact here₂.enter .wrapUpGoesOn

theorem wrapUpRun_wp (abides : a.Abides) (here : a.At (.begun true) [] w) :
    a.Ends (WrapUpTurn.run a.cfg fuel userText processingStart) a.directed w := by
  have drawn : a.Ends (runPipelineStream a.cfg.pipeline.main false false)
      (fun i => a.At (.drawn true) [i]) w :=
    runPipelineStream_wp here (fun _ => .draw true) rfl
  refine wp.seq drawn fun i w₁ here₁ => ?_
  refine (Keeps.when (spawnTasks_keeps _)).seq here₁ At.logged fun _ w₂ here₂ => ?_
  refine (transition _ _).seq here₂ At.logged fun _ w₃ here₃ => wp_update_bind.mpr ?_
  refine wp.seq (Voicing.playStreaming_wp (P := a.Log (.replying true))
    (T := fun L => a.Log (.replying true) L ∧ a.rules.whole L) (R := a.Log (.replyCut true)) logged
    (fun L h => ⟨_, h.1⟩) logged (fun L h => h.step (.sentence true))
    (fun L job h => h.step (.cut true job)) ?_ (here₃.goOn .wrapUpReply rfl rfl rfl)) ?_
  · intro w₄ speaking finishes
    have wraps : w₄.session.inWrapUp = true := speaking.ledger.wraps abides.start
    exact ⟨speaking.ledger, abides.whole speaking.flag (.inr wraps) finishes⟩
  · intro r w₄ post
    have fills : Fills (fun t => { t with
        selectedRouteId := some "closing", selectedRouteKind := some .dialogue }) none :=
      ⟨fun _ => rfl, fun _ => rfl, fun _ h => h⟩
    refine wp_update_bind.mpr (traceThenReply fun w₅ same => ?_)
    obtain ⟨firstAudioMs, played⟩ := r
    cases played with
    | false =>
        have here₄ : a.At (.replyCut true) [i] w₄ := post
        refine ⟨?_, nofun⟩
        show a.Log .idle w₅.ledger.interrupt
        rw [same]
        exact here₄.ledger.step (.interrupted true _ _ rfl
          (answers (here₄.voices i List.mem_cons_self) fills))
    | true =>
        have here₄ : a.At (.replying true) [i] w₄ := post.imp And.left
        refine afterReply_wp ⟨?_, nofun⟩
        rw [same]
        exact here₄.ledger.step (.closed _ _ rfl
          (answers (here₄.voices i List.mem_cons_self) fills) post.ledger.2)

end WrapUp

/-- A turn leaves the ledger idle, or the call is over. -/
theorem runGatedTurn_wp (abides : a.Abides) (permits : ∀ sel, a.Permits sel)
    {fuel processingStart : Nat} {userText : Text} {isWrapUp useFiller transferLlm : Bool}
    (here : a.At (.begun isWrapUp) [] (w.note .turn)) :
    a.Ends (runGatedTurn a.cfg fuel userText isWrapUp useFiller transferLlm processingStart)
      a.directed w := by
  refine wp_update_bind.mpr ?_
  cases isWrapUp with
  | true => exact wrapUpRun_wp abides here
  | false =>
      refine wp.seq (gatePhase_wp here) fun opened w₁ here₁ => ?_
      refine wp_read_bind.mpr ?_
      split
      · exact abort_wp here₁ List.mem_cons_self
      · exact release_wp abides permits here₁

end Audit
end IsalesEngine
