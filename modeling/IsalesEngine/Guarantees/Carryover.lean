import IsalesEngine.Guarantees.PendingText

/-!
How long the rest of a reply that was cut stays pending. The turn after the cut
either re-voices it or drops it, with four exceptions: the automatic restructure
is off, the turn is itself dropped for a barge-in, its restructure has reached
the cap, or it is a turn of the wrap-up phase. In a run without these exceptions
what is pending when a turn begins was left by the turn before it.
-/
namespace IsalesEngine
open Asyncio Asyncio.Coro

namespace Carryover
variable {cfg : RuntimeConfig} {w w' : World}

def verdicts (cfg : RuntimeConfig) : Verdicts where
  dialing := cleared
  dialed := cleared
  greeting := cleared
  live := live cfg
  loose := loose cfg
  processing := started cfg
  gated := started cfg
  aborting := cleared
  heard := fun _ => live cfg
  finished := recent
  failed := recent
  dropped := recent

abbrev Directs (cfg : RuntimeConfig) (x : Prog Directive) (w : World) : Prop :=
  x.wp (machine cfg) always ((verdicts cfg).post (verdicts cfg).directed) w

theorem ends {x : Prog Directive} (returns : Returning (machine cfg) x)
    (kept : Keeps (machine cfg) always recent recent x) (here : recent w) :
    Directs cfg x w := returns.directed kept here (fun _ h => h) fun _ h => h

theorem live_recent (w : World) (here : live cfg w) : recent w := live_steady.recently w here

theorem roundRule : RoundRule cfg (machine cfg) always (verdicts cfg) where
  live := live_steady.rests
  exhausted here := live_recent _ here
  stuck replied := nomatch (Machine.restrict_reply_some replied).2
  live_failed := live_recent
  stopped here _ := live_recent _ here
  listen here := (live_steady.window.awaitUserOrSilence cfg).last here live_recent fun _ _ h => h
  heard here _ := here
  spoken here := live_steady.session here rfl rfl rfl
  activation here := (live_steady.playTts _ _ _).last here live_recent fun _ _ h => h
  listenOnly here := (live_steady.playTts _ _ _).last here live_recent fun _ _ h => h
  handoff here := (recent_steady.ending.performHandoff _ _ _).last (live_recent _ here)
    (fun _ h => h) fun _ _ h => h
  remoteHangup here := ends .onRemoteHangup recent_steady.ending.onRemoteHangup (live_recent _ here)
  silenceHangup here := ends (.onSilenceHangup _) (recent_steady.ending.onSilenceHangup _)
    (live_recent _ here)

/-- Once nothing is pending, the routes of a turn and a turn of the wrap-up phase leave a text only
if they are cut. -/
theorem wrapUpRule : WrapUpRule cfg (machine cfg) always (verdicts cfg) cleared where
  toRoundRule := roundRule
  route := cleared_steady.rests
  route_live _ here := .of_cleared here
  loose := loose_steady.rests
  loose_failed := loose_steady.recently
  capped here := (cleared_steady.playTts _ _ _).last here cleared_steady.recently fun _ _ h => h
  reply := playStreaming_wp
  released here := cleared_steady.note here nofun
  settled here t pending :=
    ⟨⟨(here t pending).unspoken, (here t pending).captured, (here t pending).clearable⟩, rfl⟩
  forget _ := cleared_iff.mpr rfl
  closing here := .of_cleared (cleared_iff.mpr (cleared_iff.mp here))
  hangupRoute here := ends (.hangupRoute _ _)
    (recent_steady.ending.hangupRoute _ (recent_steady.rests.addTrace _ _ _ _)) (live_recent _ here)
  wrapUpReply here := cleared_steady.note here nofun
  wrapUpPlayed here := cleared_steady.note here nofun
  wrapUpCut here := loose_steady.note here nofun
  round here := cleared_steady.session here rfl rfl rfl
  complete here := ends (.complete _ _) (recent_steady.ending.complete _ _) (.of_cleared here)
  refereeHangup here := ends .refereeHangup recent_steady.ending.refereeHangup (.of_cleared here)

section Turn
variable {fuel processingStart mainStream : Nat} {userText : Text} {useFiller : Bool}
  {results : List RefereeResult} {candidates : List Candidate}

/-- What the referees said does not re-voice a text beyond the cap. -/
def Uncapped (cfg : PipelineConfig) (results : List RefereeResult) (s : CallSession) : Prop :=
  revoices cfg results s = true → s.consecutiveRestructureCount < cfg.maxContinuousRestructure

theorem Uncapped.congr {cfg : PipelineConfig} {s s' : CallSession}
    (uncapped : Uncapped cfg results s)
    (remaining : s'.interruptRemainingText = s.interruptRemainingText)
    (restructures : s'.consecutiveRestructureCount = s.consecutiveRestructureCount) :
    Uncapped cfg results s' := by
  have same : revoices cfg results s' = revoices cfg results s := by
    unfold revoices autoRestructure
    rw [remaining]
    dsimp only
    split_ifs
    · rfl
    · rfl
    · rfl
  unfold Uncapped
  rw [same, restructures]
  exact uncapped

/-- Without referees nothing is re-voiced. -/
theorem revoices_nil (cfg : PipelineConfig) (s : CallSession) : revoices cfg [] s = false := by
  have unmatched : decideAction [] cfg.routingRules = .continue none := by
    have none : cfg.routingRules.find? (·.matchesResults []) = none :=
      List.find?_eq_none.mpr fun rule _ => nofun
    simp [decideAction, none]
  unfold revoices autoRestructure
  rw [unmatched]
  dsimp only
  split_ifs with chosen
  · exact nomatch chosen.1
  · rfl
  · rfl

theorem gate_wp (here : started cfg w) : (await .gate).wp (machine cfg) always
    (outcomes recent (started cfg) fun results w =>
      started cfg w ∧ Uncapped cfg.pipeline results w.session) w := by
  refine wp_wait.mpr ⟨started_steady.recently _ here, fun w₁ w₂ r steps replied => ?_⟩
  have started₁ := started_steady.stable.steps steps here
  have started₂ := started_steady.stable.reply started₁ replied
  obtain ⟨allowed, replied⟩ := Machine.restrict_reply_some replied
  have frame := (Engine.answer_resumed (r := r) replied).frame
  match r with
  | .ok results =>
      refine ⟨started₂, fun chosen => ?_⟩
      rw [frame.session] at chosen ⊢
      simpa [remainderTaken, chosen] using allowed
  | .error .cancelled => exact started_steady.recently _ started₂
  | .error (.error e) => exact started₂

theorem gatePhase_wp (here : started cfg w) : (gatePhase cfg).wp (machine cfg) always
    (outcomes recent recent fun opened w =>
      started cfg w ∧ Uncapped cfg.pipeline opened.2.2 w.session) w := by
  have rests : Rests (machine cfg) always recent (started cfg) := started_steady.rests
  refine wp_update_bind.mpr ?_
  refine wp.andFinally (P := outcomes recent (started cfg) fun opened w =>
    started cfg w ∧ Uncapped cfg.pipeline opened.2.2 w.session) ?_ ?_
  · have entered := started_steady.session (s := { w.session with inProcessingTurn := true })
      here rfl rfl rfl
    refine (rests.runPipelineStream _ _ _).seq entered (fun _ h => h) fun i w₁ here₁ => ?_
    refine Keeps.seq (rests.other fun _ => rfl) here₁ (fun _ h => h) fun _ w₂ here₂ => ?_
    refine (Keeps.read _).seq here₂ (fun _ h => h) fun turnId w₃ here₃ => ?_
    refine (rests.spawnPersonas _ _ _).seq here₃ (fun _ h => h) fun candidates w₄ here₄ => ?_
    have closing : ∀ (results : List RefereeResult) (w : World), started cfg w →
        Uncapped cfg.pipeline results w.session → (do
          dropTasks (cfg.pipeline.refereeLabels.map fun _ => TurnTask.referee)
          pure (i, candidates, results) : Prog _).wp (machine cfg) always
            (outcomes recent (started cfg) fun opened w =>
              started cfg w ∧ Uncapped cfg.pipeline opened.2.2 w.session) w :=
      fun results w here uncapped => ⟨here, uncapped⟩
    split
    · refine closing [] w₄ here₄ fun chosen => ?_
      rw [revoices_nil] at chosen
      cases chosen
    · exact wp.seq (gate_wp here₄) fun results w post => closing results w post.1 post.2
  · intro r w' post
    match r with
    | .ok _ => exact ⟨started_steady.session post.1 rfl rfl rfl, post.2.congr rfl rfl⟩
    | .error .cancelled => exact recent_steady.session post rfl rfl rfl
    | .error (.error e) => exact started_steady.recently _ (started_steady.session post rfl rfl rfl)

theorem abort_wp (here : cleared w) :
    Directs cfg (GatedTurn.abort mainStream userText candidates results) w := by
  have rests : Rests (machine cfg) always recent cleared := cleared_steady.rests
  refine (rests.cancelCandidates _ _).seq here cleared_steady.recently fun _ w₁ here₁ => ?_
  refine wp_update_bind.mpr (wp_update_bind.mpr ?_)
  refine (rests.addTrace _ _ _ _).seq (cleared_iff.mpr (cleared_iff.mp here₁))
    cleared_steady.recently fun _ _ here₂ => ?_
  exact .of_cleared here₂

/-- The gate takes what is pending, unless it re-voices it. -/
theorem autoRestructure_takes (results : List RefereeResult) (here : started cfg w) :
    (revoices cfg.pipeline results w.session = true ∧ autoRestructure cfg.pipeline results w.session
        (decideAction results cfg.pipeline.routingRules) =
          (.restructure "interrupt_remaining" "interrupt_remaining", w.session)) ∨
      (autoRestructure cfg.pipeline results w.session
        (decideAction results cfg.pipeline.routingRules)).2.interruptRemainingText = none := by
  unfold revoices
  unfold autoRestructure
  cases pending : w.session.interruptRemainingText with
  | none => simp [pending]
  | some t =>
      have started := here t pending
      dsimp only
      split_ifs with chosen taken
      · exact .inl ⟨rfl, rfl⟩
      · exact .inr rfl
      · exact absurd ⟨started.clearable.2, by simpa [pending] using started.unspoken⟩ taken

/-- The turn is about to re-voice what is pending. -/
def revoicing (cfg : RuntimeConfig) (w : World) : Prop := started cfg w ∧
  w.session.consecutiveRestructureCount < cfg.pipeline.maxContinuousRestructure

theorem revoicing_recent (w : World) (here : revoicing cfg w) : recent w :=
  started_steady.recently w here.1

theorem revoicing_prepares : Prepares (machine cfg) always recent (revoicing cfg) := by
  have stable : (machine cfg).Stable (revoicing cfg) :=
    started_steady.stable.and ((Engine.below_stable _).restrict _)
  refine ⟨.of_stable stable (fun _ => revoicing_recent) revoicing_recent, ?_⟩
  have rests : Rests (machine cfg) always recent (started cfg) := started_steady.rests
  intro w w' step here
  refine ⟨rests.bookkeeping step.toBookkeeping here.1, ?_⟩
  rw [step.restructures]
  exact here.2

/-- The pending text is taken and re-voiced. -/
theorem restructureRoute_wp {sel : GatedSelection} {trace : Option Text → Prog Unit}
    (source : sel.source = some "interrupt_remaining")
    (traces : ∀ text, Keeps (machine cfg) always recent cleared (trace text))
    (here : revoicing cfg w) : Directs cfg (GatedTurn.restructureRoute cfg fuel sel trace) w := by
  refine wp_read_bind.mpr ?_
  rw [decide_eq_false (Nat.not_le.mpr here.2)]
  refine wp_act_bind.mpr (wrapUpRule.revoice_wp (traces _) _ ?_)
  rw [if_pos source]
  dsimp only
  split
  · exact cleared_iff.mpr rfl
  · exact cleared_iff.mpr rfl

theorem revoice_wp
    {row : Option Text → TraceRecord → TraceRecord} (decision : Option TransferDecision)
    (here : revoicing cfg w) :
    Directs cfg (GatedTurn.route cfg fuel useFiller processingStart mainStream candidates
      (cfg.pipeline.selectGatedRoute (.restructure "interrupt_remaining" "interrupt_remaining"))
      (fun text i audio => addTrace i userText audio (row text)) decision) w := by
  have prepares : Prepares (machine cfg) always recent (revoicing cfg) := revoicing_prepares
  have cancels := prepares.cancelCandidates none candidates
  cases decision with
  | some d =>
      refine cancels.seq here revoicing_recent fun _ w₁ here₁ => ?_
      have handoff : Keeps (machine cfg) always recent (started cfg) (do
          addTrace mainStream userText none (row none)
          performHandoff d.triggerType d.triggerDetail d.phrase
          pure Directive.return) :=
        (started_steady.rests.addTrace _ _ _ _).bind fun _ =>
          (started_steady.ending.performHandoff _ _ _).bind fun _ => Keeps.pure _
      refine Returning.directed ?_ handoff here₁.1 started_steady.recently started_steady.recently
      exact .bind fun _ => .bind fun _ => .pure
  | none =>
      refine cancels.seq here revoicing_recent fun _ w₁ here₁ => ?_
      exact restructureRoute_wp rfl (fun text => cleared_steady.rests.addTrace _ _ _ _) here₁

theorem release_wp {transferLlm : Bool} (here : started cfg w)
    (uncapped : Uncapped cfg.pipeline results w.session) :
    Directs cfg (GatedTurn.release cfg fuel userText useFiller transferLlm processingStart
      mainStream candidates results) w := by
  refine wp_act_bind.mpr ?_
  obtain ⟨chosen, same⟩ | taken := autoRestructure_takes results here
  · dsimp only
    rw [same]
    have revoicing : revoicing cfg w := ⟨here, uncapped chosen⟩
    refine (revoicing_prepares.resolveTransferLlm _).seq revoicing revoicing_recent ?_
    exact fun decision w₁ revoicing₁ => revoice_wp decision revoicing₁
  · refine (cleared_steady.rests.resolveTransferLlm _).seq (cleared_iff.mpr taken)
      cleared_steady.recently fun decision w₁ cleared₁ => ?_
    exact wrapUpRule.route_wp cleared₁

theorem gatedTurn_wp {transferLlm : Bool} (here : live cfg w) :
    Directs cfg (runGatedTurn cfg fuel userText false useFiller transferLlm processingStart) w := by
  have begun : started cfg (w.note .turn) := fun t pending =>
    ⟨(here t pending).unspoken, lastTurn_turn ▸ (here t pending).captured,
      (here t pending).clearable, (here t pending).clear⟩
  refine wp_update_bind.mpr (wp.seq (gatePhase_wp begun) fun opened w₁ post => ?_)
  obtain ⟨started₁, uncapped⟩ := post
  refine wp_read_bind.mpr ?_
  split
  · rename_i signaled
    refine abort_wp fun t pending => ?_
    rw [(started₁ t pending).clear] at signaled
    cases signaled
  · exact release_wp started₁ uncapped

theorem process_wp {text : Text} {shortReply : Bool} (here : live cfg w) :
    Directs cfg (TurnLoop.process cfg fuel text w.session.inWrapUp shortReply) w := by
  cases wrapUp : w.session.inWrapUp with
  | true =>
      refine RoundRule.process_wp cleared_steady.rests cleared_steady.recently ?_ ?_
      · intro useFiller transferLlm processingStart w clean
        exact wp_update_bind.mpr (wrapUpRule.wrapUpRun_wp clean)
      · intro t pending
        rw [(here t pending).clearable.1] at wrapUp
        cases wrapUp
  | false => exact RoundRule.process_wp live_steady.rests live_recent gatedTurn_wp here

end Turn

theorem cleanup : CleanupFrame (machine cfg) always recent := by
  refine ⟨recent_steady.stable, fun _ _ h => h, id, id, ?_⟩
  intro w e here
  cases e with
  | manualHangupRequested | transferRequested =>
      intro t pending
      have kept := recent_steady.mark (m := .terminate) nofun (here t pending)
      have cancelled := recent_steady.mark (m := .cancel) nofun kept
      exact recent_steady.congr (s := w.session) rfl rfl cancelled
  | _ => exact here

theorem callRule : CallRule cfg (machine cfg) always (verdicts cfg) fun _ => recent where
  toRoundRule := roundRule
  process := process_wp
  begin clean := cleared_steady.session clean rfl rfl rfl
  announce clean := by
    refine (cleared_steady.waits.wait (.ext .publish) rfl _ clean).mono fun r w' post => ?_
    match r with
    | .ok _ | .error .cancelled => exact post
    | .error (.error _) => exact cleared_steady.recently _ post
  dispatching clean := clean
  dial clean := cleared_steady.ending.phoneFrame.dialAndWaitConnected.last clean
    cleared_steady.recently fun _ _ h => h
  noAnswer clean := cleared_steady.ending.onNoAnswer.last clean cleared_steady.recently
    fun _ => cleared_steady.recently
  connected {w} clean := by
    have kept := SessionEnding.transition w.session w.clock .inCall "connected"
    exact cleared_iff.mpr (kept.remaining.trans (cleared_iff.mp clean))
  greeting := cleared_steady.rests
  greeting_failed := cleared_steady.recently
  ambient clean := clean
  pumps clean := clean
  greet clean := (cleared_steady.playTts _ _ _).last clean cleared_steady.recently fun _ _ h => h
  monitored clean := .of_cleared (cleared_iff.mpr (cleared_iff.mp clean))
  attached here := here
  exception here := recent_steady.ending.exception_wp here
  cleanupFinished here := cleanup.cleanup.lastly here _
  cleanupDropped here := cleanup.cleanup.lastly here _

end Carryover

namespace Guarantees
open Carryover

/-- In every run in which no turn is dropped for a barge-in while a text is pending, no verdict
that re-voices it meets the cap, and no reply is cut in the wrap-up phase or with the automatic
restructure off: the text that is pending in any state of the run was left by a cut reply of the
turn in progress or of the one before it; when a turn begins, of the one before it. -/
theorem remainder_from_last_turn (cfg : RuntimeConfig) (fuel : Nat) (w : World)
    (acts : List (Action sig Move)) (c : Susp sig World Unit) (fresh : w.Fresh)
    (run : ((engine cfg).restrict (remainderTaken cfg)).exec (runSession cfg fuel w) acts = some c)
    (t : Text) (pending : c.state.session.interruptRemainingText = some t) :
    t ≠ [] ∧
      (.captured t ∈ thisTurn c.state.history ∨ .captured t ∈ lastTurn c.state.history) ∧
      ∀ older, c.state.history = .turn :: older → .captured t ∈ thisTurn older := by
  have dialing : (verdicts cfg).dialing w := cleared_iff.mpr (by rw [fresh.session])
  have rule : (runSession cfg fuel).wp (machine cfg) always (fun _ => recent) w :=
    callRule.runSession_wp dialing
  have here : recent c.state := rule.always (fun _ _ h => h)
    (fun _ _ _ _ h => recent_steady.stable.move h) (fun _ _ h => h) run
  obtain ⟨unspoken, captured⟩ := here t pending
  refine ⟨unspoken, captured, fun older begins => ?_⟩
  rw [begins, thisTurn_turn, lastTurn_turn] at captured
  exact captured.resolve_left List.not_mem_nil

/-- A campaign with one referee that re-voices a reply that was cut. -/
def resumingConfig : RuntimeConfig := { RuntimeConfig.refereed with
  pipeline := { RuntimeConfig.refereed.pipeline with
    autoRestructureOnInterrupt := true, restructureRoleConfigId := some 2
    restructureGateCategory := "filler" } }

def bargeInRun : List (Action sig Move) :=
  [.move (.asrResult "等等".toList false), .move .dispatchLossy, .move .partialMonitor]

/-- From the gate of the turn of stream `i`: its only sentence is cut. -/
def cutRunAt (i : Nat) : List (Action sig Move) :=
  [.move (.eagerSentence i "您好。".toList), .reply .gate (.ok [⟨"intent", none, none⟩]),
    .move .replaySentence, .reply .jobGet (.ok (some "您好。".toList))] ++ bargeInRun ++
    [.move (.playEnd false), .reply .playback (.error .cancelled), .move .producerEnd,
      .reply .reapProducer (.error .cancelled), .reply .reapSynth (.ok ()),
      .reply .closeSynth (.ok ()), .move (.eagerEnd i none),
      .reply (.reapEager i) (.error .cancelled)]

/-- The turn after the cut begins with what the reply left. -/
def resumedRun : List (Action sig Move) :=
  RunSession.listeningRun .other ++ RunSession.spokenRun "好的".toList ++ RunSession.gateRun ++
    cutRunAt 0 ++ RunSession.spokenRun "嗯".toList ++ RunSession.gateRun

theorem cut_reply_pending :
    ∃ c, ((engine resumingConfig).restrict (remainderTaken resumingConfig)).exec
      (runSession resumingConfig 4 (World.initial 1 .other)) resumedRun = some c ∧
      c.state.session.interruptRemainingText = some "您好。".toList ∧
      "您好。".toList ≠ [] ∧
      (.captured "您好。".toList ∈ thisTurn c.state.history ∨
        .captured "您好。".toList ∈ lastTurn c.state.history) ∧
      ∀ older, c.state.history = .turn :: older → .captured "您好。".toList ∈ thisTurn older := by
  refine exists_of_map (fun c => c.state.session.interruptRemainingText) (some "您好。".toList)
    (by decide +kernel) fun c run pending => ?_
  exact ⟨pending, remainder_from_last_turn resumingConfig 4 _ _ c
    (World.initial_fresh 1 .other) run _ pending⟩

/-- The turn after the cut is dropped for a barge-in. The turn after that begins with what is left
of a reply two turns back. -/
theorem dropped_turn_keeps_remainder :
    ((engine resumingConfig).exec (runSession resumingConfig 5 (World.initial 1 .other))
      (resumedRun ++ bargeInRun ++ [.reply .gate (.ok [⟨"intent", none, none⟩]),
        .move (.eagerEnd 1 none), .reply (.reapEager 1) (.error .cancelled)] ++
        RunSession.spokenRun "请讲".toList ++ RunSession.gateRun)).map
      (fun c => (c.state.session.interruptRemainingText, c.state.history.head?,
        decide (.captured "您好。".toList ∈ lastTurn c.state.history), lastTurn c.state.history)) =
    some (some "您好。".toList, some .turn, false,
      [.batch [⟨"请讲".toList, 4⟩] (.userFinal "请讲".toList) [], .posted ⟨"请讲".toList, 4⟩,
        .listening false, .abort, .trigger true, .evaluated ⟨"等等".toList, 3⟩]) := by
  decide +kernel

end Guarantees
end IsalesEngine
