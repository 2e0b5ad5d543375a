import IsalesEngine.Engine.Listening

/-!
One user turn: the gate-first turn with its speculative candidates, the
restructure and wrap-up variants, and the human handoff.
-/
namespace IsalesEngine
open Asyncio Asyncio.Coro

inductive Directive where
  | continue | return
  deriving DecidableEq, Repr

/-- `random.choice(options)`, or a fixed text when there is nothing to choose from. -/
def pickFrom (options : List Text) (fallback : Text) : Prog Text :=
  if options = [] then pure fallback else await (.choice options)

def performHandoff (triggerType triggerDetail : String) (phrase : Text) : Prog Unit := do
  transition .transferring (if triggerType = "" then "transfer" else triggerType)
  append (.transferInitiated triggerType triggerDetail)
  when (phrase ≠ []) (playTts .handoffPhrase phrase)
  modifySession fun s => { s with
    transferStatus := .markedForHandoff, transferReason := some triggerType }
  append .transferMarked
  Telephony.attemptHangup
  transition .ended "marked_for_handoff"
  setHangupCause .markedForHandoff
  appendHangup "marked_for_handoff" "ai"

/-- A reply that is generated while the gate is still open. -/
structure Candidate where
  routeId : String
  stream : Nat
  persona : Option PersonaSpec := none
  deriving DecidableEq, Repr

/-- Insertion into the dictionary of candidates: an equal route id is replaced in place. -/
def insertCandidate (c : Candidate) : List Candidate → List Candidate
  | [] => [c]
  | d :: ds => if d.routeId = c.routeId then c :: ds else d :: insertCandidate c ds

def World.addStream (st : Stream) (w : World) : World := { w with
  streams := w.streams ++ [st]
  journal := if st.isRestructure then .revoicing :: w.journal else w.journal }

@[simp] theorem World.streams_addStream (st : Stream) (w : World) :
    (w.addStream st).streams = w.streams ++ [st] := rfl

def addStream (st : Stream) : Prog Nat := act fun w => (w.streams.length, w.addStream st)

/-- Build and start a stream of a new turn. -/
def runPipelineStream (slot : Slot) (isRestructure eager : Bool) : Prog Nat := do
  ext .buildStream
  modifySession fun s => { s with currentTurnId := s.currentTurnId + 1 }
  let turnId ← read fun w => w.session.currentTurnId
  addStream { turnId := turnId, slot := slot, isRestructure := isRestructure
              eager := if eager then some {} else none }

def spawnPersonas (turnId : Nat) : List PersonaSpec → List Candidate → Prog (List Candidate)
  | [], candidates => pure candidates
  | persona :: personas, candidates => do
      ext .buildStream
      let i ← addStream { turnId := turnId, slot := persona.mainSpec, eager := some {} }
      spawnPersonas turnId personas
        (insertCandidate ⟨"persona:" ++ persona.label, i, some persona⟩ candidates)

/-- Tasks that are created for the turn. -/
def spawnTasks (ts : List TurnTask) : Prog Unit := update fun w =>
  { w with turnTasks := w.turnTasks ++ ts }

def turnIdOf (i : Nat) : Prog Nat := read fun w => (w.stream i).turnId

/-- Start the candidates and wait for the referees; `in_processing_turn` is set meanwhile. -/
def gatePhase (cfg : RuntimeConfig) : Prog (Nat × List Candidate × List RefereeResult) := do
  modifySession fun s => { s with inProcessingTurn := true }
  let body : Prog (Nat × List Candidate × List RefereeResult) := do
    let mainStream ← runPipelineStream cfg.pipeline.main false true
    let referees := cfg.pipeline.refereeLabels.map fun _ => TurnTask.referee
    spawnTasks referees
    let turnId ← turnIdOf mainStream
    let candidates ← spawnPersonas turnId cfg.pipeline.enabledPersonas [⟨"main", mainStream, none⟩]
    let results ← if cfg.pipeline.refereeLabels = [] then pure [] else await .gate
    dropTasks referees
    pure (mainStream, candidates, results)
  andFinally body (modifySession fun s => { s with inProcessingTurn := false })

def cancelCandidates (keep : Option String) (candidates : List Candidate) : Prog Unit :=
  forEach (fun c => when (some c.routeId ≠ keep) (cancelEager c.stream)) candidates

def addTrace (i : Nat) (userText : Text) (firstAudioMs : Option Nat)
    (f : TraceRecord → TraceRecord) : Prog Unit := update fun w =>
  let st := w.stream i
  { w with pipelineTraceRecords := w.pipelineTraceRecords ++ [f
    { turnId := st.turnId, userInput := userText, mainReplyText := st.result.replyText
      firstAudioMs := firstAudioMs, error := st.result.error }] }

/-- The gating columns of a trace row. -/
def gated (results : List RefereeResult) (action : DeciderAction) (sel : GatedSelection)
    (candidates : List Candidate) (restructureText : Option Text) (t : TraceRecord) :
    TraceRecord :=
  { t with
    refereeResults := results
    matchedRule := match action with
      | .continue matched => matched
      | .transition _ _ matched | .route _ _ _ matched | .tool _ _ _ matched => some matched
      | .restructure _ _ => none
    restructureText := restructureText
    restructureTrigger := if restructureText.isSome then sel.restructureTrigger else none
    selectedRouteId := some sel.routeId
    selectedRouteKind := some sel.kind
    personaCandidates := if 1 < candidates.length
      then some (candidates.map Candidate.routeId) else none }

def appendAiReply (i : Nat) (roleConfigId : Nat) (goalAchieved : Bool) (goalType : String)
    (isWrapUp : Bool) : Prog Unit := update fun w =>
  w.append (.aiReply (w.stream i).result.replyText (w.stream i).turnId
    (if roleConfigId = 0 then none else some roleConfigId) goalAchieved goalType isWrapUp)

/-- A reply was cut by a barge-in: count it and drop the signal. -/
def CallSession.interrupted (s : CallSession) : CallSession := { s with
  consecutiveInterruptionCount := s.consecutiveInterruptionCount + 1
  interruptionSignaled := false }

def countInterruption : Prog Unit := modifySession CallSession.interrupted

/-- The last assistant utterance that says something. -/
def lastReply (s : CallSession) : Option Text :=
  (s.dialogHistory.reverse.find? fun t => t.role = .assistant ∧ t.text.strip ≠ []).map
    DialogTurn.text

/-- `_assemble_interrupt_text`: the captured remainder is taken and cleared. -/
def assembleInterruptText (source : Option String) : Prog (Option Text) := act fun w =>
  if source = some "interrupt_remaining" then
    let remaining := w.session.interruptRemainingText.getD []
    let w' := { w with session := { w.session with interruptRemainingText := none } }
    if remaining.strip ≠ [] then (some remaining, w') else (lastReply w.session, w')
  else (lastReply w.session, w)

/-- `_run_restructure`: whether the re-voiced text was played in full. -/
def runRestructure (cfg : RuntimeConfig) (fuel : Nat) (text : Text) (trigger : Option String) :
    Prog Bool := do
  let i ← runPipelineStream cfg.pipeline.restructureSlot true false
  let now ← read World.clock
  let (firstAudioMs, played) ← playStreaming i false cfg.fillerDelayMs now fuel
  appendAiReply i (cfg.pipeline.restructureRoleConfigId.getD 0) false "" false
  addTrace i text firstAudioMs fun t => { t with
    restructureText := some text, restructureTrigger := trigger }
  pure played

def resolveTransferLlm (spawned : Bool) : Prog (Option TransferDecision) :=
  if spawned then do
    let decision ← exceptError (await .transferLlm) fun _ => pure none
    dropTasks [.detector]
    pure decision
  else pure none

/-- The action of the gate, after the automatic restructure of a cut-off line. -/
def autoRestructure (cfg : PipelineConfig) (results : List RefereeResult) (s : CallSession)
    (action : DeciderAction) : DeciderAction × CallSession :=
  let pending := s.interruptRemainingText.getD [] ≠ []
  let filler := results.any fun r => r.category = some cfg.restructureGateCategory
  if filler ∧ (action matches .continue _) ∧ cfg.autoRestructureOnInterrupt
      ∧ cfg.restructureRoleConfigId.isSome ∧ pending then
    (.restructure "interrupt_remaining" "interrupt_remaining", s)
  else if cfg.autoRestructureOnInterrupt ∧ pending then
    (action, { s with interruptRemainingText := none })
  else (action, s)

namespace GatedTurn

/-- Thinking-window barge-in: the turn is dropped before any audio. -/
def abort (mainStream : Nat) (userText : Text) (candidates : List Candidate)
    (results : List RefereeResult) : Prog Directive := do
  cancelCandidates none candidates
  countInterruption
  update fun w => w.note .abort
  addTrace mainStream userText none fun t => { t with refereeResults := results }
  pure .continue

def hangupRoute (sel : GatedSelection) (trace : Prog Unit) : Prog Directive := do
  setHangupCause .refereeHangup
  let own := sel.closingPhrase.getD []
  let phrase := if own ≠ [] then own else (sel.toolConfig.bind ToolConfig.closingPhrase).getD []
  when (phrase ≠ []) (playTts .hangupPhrase phrase)
  trace
  transition .ended "referee_hangup"
  appendHangup "referee_hangup" "ai"
  pure .return

def cappedRoute (cfg : RuntimeConfig) : Prog Directive := do
  when (cfg.pipeline.defaultReplies ≠ []) do
    let reply ← await (.choice cfg.pipeline.defaultReplies)
    playTts .cappedDefault reply
  recordSession .capped fun s => { s with consecutiveRestructureCount := 0 }
  pure .continue

def restructureRoute (cfg : RuntimeConfig) (fuel : Nat) (sel : GatedSelection)
    (trace : Option Text → Prog Unit) : Prog Directive := do
  let capped ← read fun w =>
    decide (cfg.pipeline.maxContinuousRestructure ≤ w.session.consecutiveRestructureCount)
  if capped then do
    trace none
    cappedRoute cfg
  else do
    let text ← assembleInterruptText sel.source
    trace text
    match text with
    | none => pure .continue
    | some text => do
        let played ← runRestructure cfg fuel text sel.restructureTrigger
        modifySession fun s => { s with
          consecutiveRestructureCount := s.consecutiveRestructureCount + 1 }
        when (!played) countInterruption
        pure .continue

/-- The stream that speaks: a candidate, or a fresh one for a route that was not buffered. -/
def chooseWinner (cfg : RuntimeConfig) (mainStream : Nat) (candidates : List Candidate)
    (sel : GatedSelection) : Prog (Nat × Option PersonaSpec) :=
  match candidates.find? fun c => c.routeId = sel.routeId with
  | some c => do
      cancelCandidates (some sel.routeId) candidates
      pure (c.stream, c.persona)
  | none => do
      cancelCandidates none candidates
      ext .buildStream
      let turnId ← turnIdOf mainStream
      let i ← addStream { turnId := turnId, slot := cfg.pipeline.main }
      pure (i, none)

def enterWrapUp (cfg : RuntimeConfig) (goalType : String) : Prog Unit := do
  transition .inCall (if goalType = "" then "goal_achieved" else goalType)
  update fun w => { w with session := { w.session with
    inWrapUp := true, wrapUpStartedAt := some w.clock } }
  append (.wrapUpStarted cfg.wrapUp.maxRounds cfg.wrapUp.maxSeconds)
  append (.goalAchieved goalType)

def dialogueRoute (cfg : RuntimeConfig) (fuel : Nat) (useFiller : Bool) (processingStart : Nat)
    (mainStream : Nat) (candidates : List Candidate) (sel : GatedSelection)
    (trace : Nat → Option Nat → Prog Unit) : Prog Directive := do
  let (winner, persona) ← chooseWinner cfg mainStream candidates sel
  let roleConfigId := (persona.map PersonaSpec.roleConfigId).getD cfg.pipeline.mainRoleConfigId
  transition .inCall "main_stream_started"
  update fun w => w.note (.released sel.routeId (w.stream winner).slot roleConfigId)
  let (firstAudioMs, played) ←
    playStreaming winner useFiller cfg.fillerDelayMs processingStart fuel
  let goalAchieved := decide (sel.routeId = "closing")
  let goalType := if goalAchieved then sel.goalType else ""
  if !played then do
    trace winner firstAudioMs
    appendAiReply winner roleConfigId false "" false
    countInterruption
    pure .continue
  else do
    recordSession .repliedInFull fun s => { s with
      consecutiveInterruptionCount := 0, consecutiveRestructureCount := 0 }
    trace winner firstAudioMs
    appendAiReply winner roleConfigId goalAchieved goalType goalAchieved
    when (sel.thenState = some "WRAPPING_UP") (enterWrapUp cfg goalType)
    pure .continue

/-- The route the turn takes; a transfer decision overrides every route but a transfer. -/
def route (cfg : RuntimeConfig) (fuel : Nat) (useFiller : Bool) (processingStart mainStream : Nat)
    (candidates : List Candidate) (sel : GatedSelection)
    (trace : Option Text → Nat → Option Nat → Prog Unit) (decision : Option TransferDecision) :
    Prog Directive :=
  match decision, sel.kind with
  | some d, .dialogue | some d, .tool .hangup | some d, .tool .other => do
      cancelCandidates none candidates
      trace none mainStream none
      performHandoff d.triggerType d.triggerDetail d.phrase
      pure .return
  | _, .tool .hangup => do
      cancelCandidates none candidates
      hangupRoute sel (trace none mainStream none)
  | _, .tool _ => do
      cancelCandidates none candidates
      trace none mainStream none
      performHandoff "referee" "referee_decision" []
      pure .return
  | none, .dialogue =>
      if sel.routeId = "restructure" then do
        cancelCandidates none candidates
        restructureRoute cfg fuel sel fun text => trace text mainStream none
      else dialogueRoute cfg fuel useFiller processingStart mainStream candidates sel (trace none)

/-- What happens once the gate has resolved without a barge-in. -/
def release (cfg : RuntimeConfig) (fuel : Nat) (userText : Text) (useFiller transferLlm : Bool)
    (processingStart mainStream : Nat) (candidates : List Candidate)
    (results : List RefereeResult) : Prog Directive := do
  let action ← act fun w =>
    let chosen := autoRestructure cfg.pipeline results w.session
      (decideAction results cfg.pipeline.routingRules)
    (chosen.1, { w with session := chosen.2 })
  let sel := cfg.pipeline.selectGatedRoute action
  let decision ← resolveTransferLlm transferLlm
  route cfg fuel useFiller processingStart mainStream candidates sel
    (fun text stream firstAudioMs =>
      addTrace stream userText firstAudioMs (gated results action sel candidates text)) decision

end GatedTurn

namespace WrapUpTurn

def hangupCategories : List String := ["无问题"]

def goodbye : Text := "好的，再见。".toList

/-- The done-detection referee's verdict, if it arrived in time. -/
def refereeVerdict (enabled : Bool) : Prog (Option RefereeResult) :=
  if enabled then do
    -- `wait_for` ends the referee's task however it returns.
    dropTasks [.wrapUpReferee]
    exceptError (do
      let r ← await .wrapUpReferee
      pure (some r)) fun _ => pure none
  else pure none

def complete (cfg : RuntimeConfig) (reason : String) : Prog Directive := do
  let phrase ← pickFrom cfg.wrapUp.closingPhrases goodbye
  playTts .wrapUpClosing phrase
  append (.wrapUpCompleted reason)
  transition .ended "wrap_up_completed"
  setHangupCause .wrapUpCompleted
  appendHangup "wrap_up_completed" "ai"
  pure .return

def refereeHangup : Prog Directive := do
  setHangupCause .refereeHangup
  transition .ended "wrap_up_referee_hangup"
  appendHangup "wrap_up_referee_hangup" "ai"
  pure .return

/-- A closing reply was played in full: ask the referee, then the counters. -/
def afterReply (cfg : RuntimeConfig) : Prog Directive := do
  let verdict ← refereeVerdict cfg.wrapUp.refereeEnabled
  update fun w => { w with pipelineTraceRecords := match verdict with
    | some r => w.pipelineTraceRecords.dropLast ++
        (w.pipelineTraceRecords.getLast?.map fun t => { t with refereeResults := [r] }).toList
    | none => w.pipelineTraceRecords }
  if verdict.any fun r => r.category.any hangupCategories.contains then refereeHangup
  else do
    modifySession fun s => { s with wrapUpRoundCount := s.wrapUpRoundCount + 1 }
    let exhausted ← read fun w =>
      wrapUpExhausted w.session.wrapUpRoundCount w.session.wrapUpStartedAt cfg.wrapUp w.clock
    match exhausted with
    | some reason => complete cfg reason
    | none => pure .continue

def run (cfg : RuntimeConfig) (fuel : Nat) (userText : Text) (processingStart : Nat) :
    Prog Directive := do
  let i ← runPipelineStream cfg.pipeline.main false false
  when cfg.wrapUp.refereeEnabled (spawnTasks [.wrapUpReferee])
  transition .inCall "main_stream_started"
  update fun w => w.note .wrapUpReply
  let (firstAudioMs, played) ← playStreaming i false cfg.fillerDelayMs processingStart fuel
  update fun w => w.note (.wrapUpReplied (w.clock - w.session.wrapUpStartedAt.getD w.clock))
  addTrace i userText firstAudioMs fun t => { t with
    selectedRouteId := some "closing", selectedRouteKind := some .dialogue }
  appendAiReply i cfg.pipeline.mainRoleConfigId false "" true
  if !played then do
    dropTasks [.wrapUpReferee]
    countInterruption
    pure .continue
  else afterReply cfg

end WrapUpTurn

/-- `_run_gated_turn`. -/
def runGatedTurn (cfg : RuntimeConfig) (fuel : Nat) (userText : Text) (isWrapUp useFiller : Bool)
    (transferLlm : Bool) (processingStart : Nat) : Prog Directive := do
  update fun w => w.note .turn
  if isWrapUp then WrapUpTurn.run cfg fuel userText processingStart
  else do
    let (mainStream, candidates, results) ← gatePhase cfg
    let signaled ← read fun w => w.session.interruptionSignaled
    if signaled then GatedTurn.abort mainStream userText candidates results
    else
      GatedTurn.release cfg fuel userText useFiller transferLlm processingStart mainStream
        candidates results

end IsalesEngine
