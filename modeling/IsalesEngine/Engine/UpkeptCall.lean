import IsalesEngine.Engine.Upkeep

/-!
The rule of a call whose updates in passing keep every assertion. What is left
to show of a property is what the few other updates do: a listening window that
opens and closes, an activation phrase, a restructure that is voiced or capped,
a reply played in full, the entry into wrap-up, and the drain of the greeting
era.
-/
namespace IsalesEngine
open Asyncio Asyncio.Coro

/-- The outcome of a silent window. -/
def SilenceDecision.outcome : SilenceDecision → Outcome
  | .activate phrase => .silenceActivation phrase
  | .hangup phrase => .silenceHangup phrase
  | .wait => .noProgress

/-- With what a listening window closes. -/
inductive Closes (cfg : RuntimeConfig) (w : World) : List AsrResult → Outcome → Prop
  | hungUp (finals : List AsrResult) : Closes cfg w finals .remoteHangup
  | heard (first : AsrResult) (backlog : List AsrResult) :
      Closes cfg w (first :: backlog) (AwaitUser.combine cfg (first :: backlog))
  | silent : Closes cfg w [] (evaluateSilence (AwaitUser.elapsedMs w)
      w.session.silenceActivationCount cfg.silence w.session.inWrapUp).outcome

/-- The phrase a hangup route says, if it is not empty. -/
def GatedSelection.hangupPhrase (sel : GatedSelection) : Text :=
  if sel.closingPhrase.getD [] ≠ [] then sel.closingPhrase.getD []
  else (sel.toolConfig.bind ToolConfig.closingPhrase).getD []

/-- What the gate selects for these results, and the session it leaves. -/
def PipelineConfig.select (cfg : PipelineConfig) (results : List RefereeResult) (s : CallSession) :
    GatedSelection × CallSession :=
  let chosen := autoRestructure cfg results s (decideAction results cfg.routingRules)
  (cfg.selectGatedRoute chosen.1, chosen.2)

/-- The texts `main` has to voice are ones that `utters` allows. -/
structure Speaks (cfg : RuntimeConfig) (M : Machine sig World)
    (utters : PlaySite → Text → Prop) : Prop where
  sentence : ∀ s, utters .sentence s
  fixedGreeting : ∀ {text}, cfg.fixedGreeting = some text → text ≠ [] → utters .greeting text
  politeGreeting : utters .greeting politeGreeting
  chat : ∀ {text : Text} {w w'}, M.reply .greetingChat (.ok text) w = some w' →
    text.strip ≠ [] → utters .greeting text.strip
  activation : ∀ {elapsed n inWrapUp phrase},
    evaluateSilence elapsed n cfg.silence inWrapUp = .activate phrase →
    utters .silenceActivation phrase
  silenceHangup : cfg.silence.hangupPhrase ≠ [] → utters .silenceHangup cfg.silence.hangupPhrase
  cue : utters .listenOnlyCue TurnLoop.listenOnlyCue
  transfer : ∀ phrase ∈ cfg.transfer.phrases, phrase ≠ [] → utters .handoffPhrase phrase
  detected : ∀ {d : TransferDecision} {w w'}, M.reply .transferLlm (.ok (some d)) w = some w' →
    d.phrase ≠ [] → utters .handoffPhrase d.phrase
  hangup : ∀ results s, (cfg.pipeline.select results s).1.hangupPhrase ≠ [] →
    utters .hangupPhrase (cfg.pipeline.select results s).1.hangupPhrase
  closing : ∀ phrase ∈ cfg.wrapUp.closingPhrases, utters .wrapUpClosing phrase
  goodbye : utters .wrapUpClosing WrapUpTurn.goodbye
  capped : ∀ reply ∈ cfg.pipeline.defaultReplies, utters .cappedDefault reply
  chosen : ∀ {options : List Text} {x : Text} {w w'},
    M.reply (.choice options) (.ok x) w = some w' → x ∈ options

variable {w : World} {cfg : RuntimeConfig}

theorem Engine.reply_choice (cfg : RuntimeConfig) {options : List Text} {x : Text} {w' : World}
    (h : reply cfg (.choice options) (.ok x) w = some w') : x ∈ options := by
  simp only [reply, Option.ite_none_right_eq_some] at h
  exact h.1

/-- Nothing is asked of the texts. -/
theorem Speaks.any (cfg : RuntimeConfig) (allow : Op → Action sig Move → World → Bool) :
    Speaks cfg (allowing cfg allow) fun _ _ => True where
  sentence _ := trivial
  fixedGreeting _ _ := trivial
  politeGreeting := trivial
  chat _ _ := trivial
  activation _ := trivial
  silenceHangup _ := trivial
  cue := trivial
  transfer _ _ _ := trivial
  detected _ _ := trivial
  hangup _ _ _ := trivial
  closing _ _ := trivial
  goodbye := trivial
  capped _ _ := trivial
  chosen replied := Engine.reply_choice cfg (Machine.restrict_reply_some replied).2

namespace Upkeep
variable {cfg : RuntimeConfig} {M : Machine sig World} {utters : PlaySite → Text → Prop}
  {I : Op → World → Prop} {K : World → Prop}

/-- The phrase of a transfer decision may be voiced. -/
def Handoff (utters : PlaySite → Text → Prop) (decision : Option TransferDecision) : Prop :=
  ∀ d, decision = some d → d.phrase ≠ [] → utters .handoffPhrase d.phrase

variable (up : Upkeep M utters I K)
include up

theorem hangupRoute {sel : GatedSelection} {trace : Prog Unit}
    (said : sel.hangupPhrase ≠ [] → utters .hangupPhrase sel.hangupPhrase)
    (traces : Preserves M I K trace) : Preserves M I K (GatedTurn.hangupRoute sel trace) := by
  refine (up.quiet fun _ => .session rfl).bind fun _ => ?_
  refine (up.playUnless sel.hangupPhrase said).bind fun _ => traces.bind fun _ => ?_
  exact (up.transition _ _).bind fun _ => (up.appendHangup _ _).bind fun _ => Preserves.pure _

section
variable (speaks : Speaks cfg M utters)
include speaks

theorem pickFrom (options : List Text)
    (fallback : Text) : Yields M I K (fun x => x ∈ options ∨ options = [] ∧ x = fallback)
      (pickFrom options fallback) := by
  unfold IsalesEngine.pickFrom
  split
  · exact Yields.pure (.inr ⟨‹_›, rfl⟩)
  · refine fun w holds => (Yields.wait up.stable up.assertion (.choice options)
      (P := (· ∈ options)) (fun replied => speaks.chosen replied) w holds).mono ?_
    exact fun r w' post => ⟨post.1, fun x same => .inl (post.2 x same)⟩

theorem resolveTransferLlm (spawned : Bool) :
    Yields M I K (Handoff utters) (resolveTransferLlm spawned) := by
  cases spawned with
  | false => exact Yields.pure nofun
  | true =>
      refine Yields.bind (L := Handoff utters) (Yields.exceptError ?_ fun _ => Yields.pure nofun) ?_
      · refine Yields.wait up.stable up.assertion .transferLlm fun replied d same => ?_
        subst same
        exact speaks.detected replied
      · exact fun decision said w holds => (up.dropTasks _ w holds).bind (fun _ w' kept =>
          Yields.pure said w' kept) fun _ _ kept => ⟨kept, nofun⟩

theorem evaluateTransferCheap (userText : Text) :
    Yields M I K (Handoff utters) (evaluateTransferCheap cfg userText) := by
  refine fun w holds => wp_read_bind.mpr ?_
  split
  · refine (up.pickFrom speaks _ _ |>.bind fun phrase picked => Yields.pure ?_) w holds
    intro d same said
    obtain rfl := Option.some.inj same
    obtain member | ⟨-, rfl⟩ := picked
    · exact speaks.transfer phrase member said
    · exact absurd rfl said
  · exact Yields.pure nofun w holds

theorem generateGreeting : Yields M I K (utters .greeting) (generateGreeting cfg) := by
  unfold IsalesEngine.generateGreeting
  split
  · rename_i c cs fixed
    exact Yields.pure (speaks.fixedGreeting fixed nofun)
  · refine Yields.bind (L := fun text => Text.strip text = [] ∨
      utters .greeting (Text.strip text)) (Yields.exceptError ?_ fun _ => Yields.pure ?_) ?_
    · refine Yields.wait up.stable up.assertion .greetingChat fun replied => ?_
      exact or_iff_not_imp_left.mpr (speaks.chat replied)
    · exact .inr speaks.politeGreeting
    · intro text said
      refine Yields.pure ?_
      split
      · exact speaks.politeGreeting
      · exact said.resolve_left ‹_›

theorem doGreeting : Preserves M I K (doGreeting cfg) := by
  refine (up.ext .llmFor).bind fun _ => (up.generateGreeting speaks).then fun text said => ?_
  exact (up.append rfl).bind fun _ => up.playTts said true

theorem complete (reason : String) : Preserves M I K (WrapUpTurn.complete cfg reason) := by
  refine (up.pickFrom speaks _ _).then fun phrase picked => Preserves.bind ?_ fun _ => ?_
  · obtain member | ⟨-, rfl⟩ := picked
    · exact up.playTts (speaks.closing phrase member) true
    · exact up.playTts speaks.goodbye true
  · exact (up.append rfl).bind fun _ => (up.transition _ _).bind fun _ =>
      (up.quiet fun _ => .session rfl).bind fun _ => (up.appendHangup _ _).bind fun _ =>
        Preserves.pure _

theorem afterReply : Preserves M I K (WrapUpTurn.afterReply cfg) := by
  refine (up.refereeVerdict _).bind fun verdict => (up.quiet fun _ => .other rfl).bind fun _ => ?_
  split
  · exact up.refereeHangup
  · refine (up.quiet fun _ => .session rfl).bind fun _ => (Preserves.read _).bind ?_
    intro exhausted
    cases exhausted with
    | some reason => exact up.complete speaks reason
    | none => exact Preserves.pure _

theorem wrapUpTurn (fuel : Nat) (userText : Text) (processingStart : Nat) :
    Preserves M I K (WrapUpTurn.run cfg fuel userText processingStart) := by
  refine (up.runPipelineStream _ false).bind fun i => Preserves.bind ?_ fun _ => ?_
  · exact Preserves.when (up.spawnTasks (by simp))
  refine (up.transition _ _).bind fun _ => (up.quiet fun _ => .note _).bind fun _ => ?_
  refine (up.playStreaming speaks.sentence _ _ _ _ _).bind fun r => ?_
  refine (up.quiet fun _ => .note _).bind fun _ => (up.addTrace _ _ _ _).bind fun _ => ?_
  refine (up.appendAiReply _ _ _ _ _).bind fun _ => ?_
  split
  · exact (up.dropTasks _).bind fun _ => up.countInterruption.bind fun _ => Preserves.pure _
  · exact up.afterReply speaks

theorem onListenOnly : Preserves M I K TurnLoop.onListenOnly := by
  refine (up.transition _ _).bind fun _ => (up.playTts speaks.cue false).bind fun _ => ?_
  refine (up.quiet fun _ => .session rfl).bind fun _ => (up.quiet fun _ => .other rfl).bind ?_
  exact fun _ => (up.transition _ _).bind fun _ => Preserves.pure _

end

theorem onSilenceHangup {phrase : Option Text}
    (said : phrase.getD [] ≠ [] → utters .silenceHangup (phrase.getD [])) :
    Preserves M I K (TurnLoop.onSilenceHangup phrase) := by
  refine (up.playUnless _ said).bind fun _ => (Preserves.read _).bind fun inWrapUp => ?_
  exact (up.transition _ _).bind fun _ => (up.quiet fun _ => .session rfl).bind fun _ =>
    (up.appendHangup _ _).bind fun _ => Preserves.pure _

/-- With the number of restructures below a bound. -/
theorem below (n : Nat) (stable : M.Stable fun w => w.session.consecutiveRestructureCount < n) :
    Upkeep M utters I fun w => K w ∧ w.session.consecutiveRestructureCount < n where
  stable := up.stable.and stable
  assertion op w holds := up.assertion op w holds.1
  aside aside holds := ⟨up.aside aside holds.1, aside.restructures ▸ holds.2⟩

end Upkeep

/-- The assertions of a call: before the monitor starts, in the turn loop, in a listening window,
while a restructure is voiced, while an activation phrase is played, after a listening window, and
of every state. -/
structure Stages where
  before : World → Prop
  live : World → Prop
  window : World → Prop
  revoicing : World → Prop
  activating : World → Prop
  heard : Outcome → World → Prop
  always : World → Prop

/-- A property that holds of a call throughout. -/
def Stages.constant (K : World → Prop) : Stages := ⟨K, K, K, K, K, fun _ => K, K⟩

/-- What a silent window makes `main` say may be voiced. -/
def Outcome.Utterable (utters : PlaySite → Text → Prop) : Outcome → Prop
  | .silenceActivation phrase => utters .silenceActivation phrase
  | .silenceHangup phrase => phrase.getD [] ≠ [] → utters .silenceHangup (phrase.getD [])
  | _ => True

/-- What the updates of a call that are not in passing have to do to the assertions. -/
structure CallUpkeep (cfg : RuntimeConfig) (M : Machine sig World)
    (utters : PlaySite → Text → Prop) (S : Stages) : Prop where
  speaks : Speaks cfg M utters
  before : Upkeep M utters (fun _ => S.always) S.before
  live : Upkeep M utters (fun _ => S.always) S.live
  window : Upkeep M utters (fun _ => S.always) S.window
  revoicing : Upkeep M utters (fun _ => S.always) S.revoicing
  activating : Upkeep M utters (fun _ => S.always) S.activating
  always : Upkeep M utters (fun _ => S.always) S.always
  below : ∀ n, M.Stable fun w => w.session.consecutiveRestructureCount < n
  monitored : ∀ {w}, S.before w → S.live w.monitored
  opened : ∀ {w signaled}, S.live w → S.window ((w.note (.listening signaled)).enter .opened)
  closed : ∀ {w finals o}, Closes cfg w finals o → S.window w →
    S.heard o (AwaitUser.closed finals o w)
  remoteHangup : ∀ {w}, S.heard .remoteHangup w → S.live w
  noProgress : ∀ {w}, S.heard .noProgress w → S.live w
  userFinal : ∀ {text w}, S.heard (.userFinal text) w → S.live w
  silenceHangup : ∀ {phrase w}, S.heard (.silenceHangup phrase) w → S.always w
  activation : ∀ {phrase w}, S.heard (.silenceActivation phrase) w → S.activating
    ((w.transition .inCall "silence_threshold").append
      (.silenceActivation phrase w.session.silenceActivationCount))
  activated : ∀ {w}, S.activating w → S.live { w with session := { w.session with
    silenceActivationCount := w.session.silenceActivationCount + 1 } }
  revoice : ∀ {w st}, S.live w →
    w.session.consecutiveRestructureCount < cfg.pipeline.maxContinuousRestructure →
    st.isRestructure = true → st.buffered = [] → S.revoicing (w.addStream st)
  revoiced : ∀ {w}, S.revoicing w → S.live { w with session := { w.session with
    consecutiveRestructureCount := w.session.consecutiveRestructureCount + 1 } }
  capped : ∀ {w}, S.live w → S.live { w.enter .capped with session := { w.session with
    consecutiveRestructureCount := 0 } }
  replied : ∀ {w}, S.live w → S.live { w.enter .repliedInFull with session := { w.session with
    consecutiveInterruptionCount := 0, consecutiveRestructureCount := 0 } }
  wrapUp : ∀ {w maxRounds maxSeconds}, S.live w →
    S.live ({ w with session := { w.session with
      inWrapUp := true, wrapUpStartedAt := some w.clock } }.append
        (.wrapUpStarted maxRounds maxSeconds))

/-- A part of the call has `K` after a value. -/
abbrev Stages.Ends {α : Type} (S : Stages) (M : Machine sig World) (x : Prog α)
    (K : α → World → Prop) (w : World) : Prop :=
  x.wp M (fun _ => S.always) (outcomes S.always S.always K) w

/-- A part of the call that the turn loop goes on after. -/
abbrev Stages.Lives {α : Type} (S : Stages) (M : Machine sig World) (x : Prog α) : Prop :=
  Survives M (fun _ => S.always) S.always S.live x

namespace CallUpkeep
variable {cfg : RuntimeConfig} {M : Machine sig World} {utters : PlaySite → Text → Prop}
  {S : Stages} {w : World} {fuel : Nat}

/-- A listening window has closed. -/
abbrev Heard (S : Stages) (utters : PlaySite → Text → Prop) (o : Outcome) (w : World) : Prop :=
  S.heard o w ∧ o.Utterable utters

/-- After a directive the loop goes on, or is over. -/
def directed (S : Stages) : Directive → World → Prop
  | .continue => S.live
  | .return => S.always

variable (call : CallUpkeep cfg M utters S)
include call

theorem live_always (w : World) (live : S.live w) : S.always w :=
  call.live.assertion .mainDone w live

theorem window_always (w : World) (here : S.window w) : S.always w :=
  call.window.assertion .mainDone w here

theorem revoicing_always (w : World) (here : S.revoicing w) : S.always w :=
  call.revoicing.assertion .mainDone w here

theorem activating_always (w : World) (here : S.activating w) : S.always w :=
  call.activating.assertion .mainDone w here

theorem before_always (w : World) (before : S.before w) : S.always w :=
  call.before.assertion .mainDone w before

theorem lives {α : Type} {x : Prog α} (kept : Preserves M (fun _ => S.always) S.live x) :
    S.Lives M x := kept.survives call.live_always

section Window

/-- The window closes. -/
theorem closeWindow_wp {finals : List AsrResult} {o : Outcome} (closes : Closes cfg w finals o)
    (here : S.window w) : S.Ends M (AwaitUser.closeWindow finals o) (Heard S utters) w := by
  refine ⟨call.closed closes here, ?_⟩
  cases closes with
  | hungUp => trivial
  | heard first backlog =>
      unfold AwaitUser.combine
      dsimp only
      split <;> trivial
  | silent =>
      cases decision : evaluateSilence (AwaitUser.elapsedMs w) w.session.silenceActivationCount
          cfg.silence w.session.inWrapUp with
      | wait => trivial
      | activate phrase => exact call.speaks.activation decision
      | hangup phrase =>
          intro said
          have own : phrase.getD [] = cfg.silence.hangupPhrase := by
            unfold evaluateSilence at decision
            grind
          rw [own] at said ⊢
          exact call.speaks.silenceHangup said

theorem cancelAsrGet : Preserves M (fun _ => S.always) S.window AwaitUser.cancelAsrGet :=
  call.window.quiet fun _ => .listen rfl id

theorem cancelHangupWait : Preserves M (fun _ => S.always) S.window AwaitUser.cancelHangupWait :=
  call.window.quiet fun _ => .listen rfl id

theorem onHangup_wp (here : S.window w) : S.Ends M AwaitUser.onHangup (Heard S utters) w := by
  refine wp_read_bind.mpr ?_
  refine call.cancelAsrGet.seq here call.window_always fun _ w₁ here₁ => ?_
  refine (call.window.wait .reapAsrGet).suppress.when.seq here₁ call.window_always ?_
  intro _ w₂ here₂
  exact call.closeWindow_wp (.hungUp _) here₂

theorem onFinal_wp (first : AsrResult) (here : S.window w) :
    S.Ends M (AwaitUser.onFinal cfg first) (Heard S utters) w := by
  refine call.cancelHangupWait.seq here call.window_always fun _ w₁ here₁ => ?_
  refine (call.window.wait .reapHangupWait).suppress.seq here₁ call.window_always ?_
  intro _ w₂ here₂
  refine wp_act_bind.mpr (call.closeWindow_wp (.heard first _) ?_)
  exact call.window.aside (.listen rfl id) here₂

theorem onSilence_wp (here : S.window w) :
    S.Ends M (AwaitUser.onSilence cfg) (Heard S utters) w := by
  refine call.cancelAsrGet.seq here call.window_always fun _ w₁ here₁ => ?_
  refine call.cancelHangupWait.seq here₁ call.window_always fun _ w₂ here₂ => ?_
  refine (call.window.wait .reapAsrGet).suppress.seq here₂ call.window_always fun _ w₃ here₃ => ?_
  refine (call.window.wait .reapHangupWait).suppress.seq here₃ call.window_always ?_
  intro _ w₄ here₄
  refine wp_read_bind.mpr ?_
  have closes : Closes cfg w₄ [] _ := .silent
  revert closes
  cases evaluateSilence (AwaitUser.elapsedMs w₄) w₄.session.silenceActivationCount cfg.silence
      w₄.session.inWrapUp with
  | wait | activate phrase | hangup phrase => exact fun closes => call.closeWindow_wp closes here₄

theorem awaitUserOrSilence_wp (live : S.live w) :
    S.Ends M (awaitUserOrSilence cfg) (Heard S utters) w := by
  refine wp_update_bind.mpr (wp_read_bind.mpr ?_)
  have opened : S.window ((w.note (.listening w.session.interruptionSignaled)).enter .opened) :=
    call.opened live
  split
  · exact call.closeWindow_wp (.hungUp []) opened
  · refine wp_update_bind.mpr (wp_read_bind.mpr ?_)
    have waits : ∀ timeout, Preserves M (fun _ => S.always) S.window (exceptCancelled
        (await (.listen timeout)) do
          AwaitUser.cancelAsrGet
          AwaitUser.cancelHangupWait
          raise .cancelled) := fun timeout =>
      (call.window.wait _).exceptCancelled (call.cancelAsrGet.bind fun _ =>
        call.cancelHangupWait.bind fun _ => Preserves.raise .cancelled)
    refine (waits _).seq (call.window.aside (.listen rfl id) opened) call.window_always ?_
    intro _ w₁ here₁
    refine wp_read_bind.mpr (wp_read_bind.mpr ?_)
    split
    · exact call.onHangup_wp here₁
    · split
      · exact call.onFinal_wp _ here₁
      · exact call.onSilence_wp here₁

end Window

section Turn

theorem enterWrapUp (goalType : String) :
    Preserves M (fun _ => S.always) S.live (GatedTurn.enterWrapUp cfg goalType) := by
  refine (call.live.transition _ _).bind fun _ w live => ?_
  exact wp_update_bind.mpr (wp_update_bind.mpr (call.live.append rfl _ (call.wrapUp live)))

theorem dialogueRoute (fuel : Nat) (useFiller : Bool)
    (processingStart mainStream : Nat) (candidates : List Candidate) (sel : GatedSelection)
    {trace : Nat → Option Nat → Prog Unit}
    (traces : ∀ i audio, Preserves M (fun _ => S.always) S.live (trace i audio)) :
    Preserves M (fun _ => S.always) S.live (GatedTurn.dialogueRoute cfg fuel useFiller
      processingStart mainStream candidates sel trace) := by
  have live := call.live
  refine (live.chooseWinner cfg _ _ _).bind fun winner => (live.transition _ _).bind fun _ => ?_
  refine (live.quiet fun _ => .note _).bind fun _ => ?_
  refine (live.playStreaming call.speaks.sentence _ _ _ _ _).bind fun r => ?_
  dsimp only
  split
  · exact (traces _ _).bind fun _ => (live.appendAiReply _ _ _ _ _).bind fun _ =>
      live.countInterruption.bind fun _ => Preserves.pure _
  · refine Preserves.bind (Preserves.update fun _ => call.replied) fun _ => ?_
    refine (traces _ _).bind fun _ => (live.appendAiReply _ _ _ _ _).bind fun _ => ?_
    exact (call.enterWrapUp _).when.bind fun _ => Preserves.pure _

theorem cappedRoute : Preserves M (fun _ => S.always) S.live (GatedTurn.cappedRoute cfg) := by
  refine Preserves.bind (Preserves.when ?_) fun _ => Preserves.bind ?_ fun _ => Preserves.pure _
  · have picked := Yields.wait call.live.stable call.live.assertion
      (.choice cfg.pipeline.defaultReplies) (P := (· ∈ cfg.pipeline.defaultReplies))
      fun replied => call.speaks.chosen replied
    exact picked.then fun reply member => call.live.playTts (call.speaks.capped reply member) true
  · exact Preserves.update fun _ => call.capped

theorem uncapped : Upkeep M utters (fun _ => S.always) fun w => S.live w ∧
    w.session.consecutiveRestructureCount < cfg.pipeline.maxContinuousRestructure :=
  call.live.below _ (call.below _)

/-- A restructure that is voiced: the stream is built, played, and counted. -/
theorem runRestructure_wp {text : Text} {trigger : Option String} (live : S.live w)
    (below : w.session.consecutiveRestructureCount < cfg.pipeline.maxContinuousRestructure) :
    S.Ends M (runRestructure cfg fuel text trigger) (fun _ => S.revoicing) w := by
  have under := call.uncapped
  have up := call.revoicing
  have built : S.Ends M (runPipelineStream cfg.pipeline.restructureSlot true false)
      (fun _ => S.revoicing) w := by
    refine (under.ext .buildStream).seq ⟨live, below⟩ (under.assertion .mainDone) ?_
    intro _ w₁ here₁
    refine wp_update_bind.mpr (wp_read_bind.mpr ?_)
    have here₂ := under.aside (.session (s := { w₁.session with
      currentTurnId := w₁.session.currentTurnId + 1 }) rfl) here₁
    exact call.revoice here₂.1 here₂.2 rfl rfl
  refine wp.seq built fun i w₁ here₁ => wp_read_bind.mpr ?_
  refine (up.playStreaming call.speaks.sentence _ _ _ _ _).seq here₁ call.revoicing_always ?_
  intro r w₂ here₂
  refine (up.appendAiReply _ _ _ _ _).seq here₂ call.revoicing_always fun _ w₃ here₃ => ?_
  exact (up.addTrace _ _ _ _).seq here₃ call.revoicing_always fun _ _ here₄ => here₄

section
variable (fuel)

theorem restructureRoute (sel : GatedSelection)
    (i : Nat) (userText : Text) (f : Option Text → TraceRecord → TraceRecord) :
    S.Lives M (GatedTurn.restructureRoute cfg fuel sel
      fun text => addTrace i userText none (f text)) := by
  refine fun w live => wp_read_bind.mpr ?_
  split
  · exact call.lives ((call.live.addTrace _ _ _ _).bind fun _ => call.cappedRoute) w live
  · rename_i room
    have below : w.session.consecutiveRestructureCount < cfg.pipeline.maxContinuousRestructure := by
      simpa using room
    have under := call.uncapped
    have weaker := under.assertion .mainDone
    refine (under.assembleInterruptText _).seq ⟨live, below⟩ weaker fun text w₁ here₁ => ?_
    refine (under.addTrace _ _ _ _).seq here₁ weaker fun _ w₂ here₂ => ?_
    cases text with
    | none => exact here₂.1
    | some text =>
        refine wp.seq (call.runRestructure_wp here₂.1 here₂.2) fun played w₃ here₃ => ?_
        refine wp_update_bind.mpr ?_
        exact call.live.countInterruption.when.seq (call.revoiced here₃) call.live_always
          fun _ _ live₄ => live₄

theorem route (useFiller : Bool)
    (processingStart mainStream : Nat) (candidates : List Candidate) {sel : GatedSelection}
    (userText : Text) (f : Option Text → TraceRecord → TraceRecord)
    {decision : Option TransferDecision} (handoff : Upkeep.Handoff utters decision)
    (hangup : sel.hangupPhrase ≠ [] → utters .hangupPhrase sel.hangupPhrase) :
    S.Lives M (GatedTurn.route cfg fuel useFiller processingStart mainStream candidates sel
      (fun text stream audio => addTrace stream userText audio (f text)) decision) := by
  have live := call.live
  have cancelled := live.cancelCandidates none candidates
  have handsOff : ∀ type detail phrase, (phrase ≠ [] → utters .handoffPhrase phrase) →
      S.Lives M (do
        cancelCandidates none candidates
        addTrace mainStream userText none (f none)
        performHandoff type detail phrase
        pure Directive.return) := by
    intro type detail phrase said
    refine call.lives (cancelled.bind fun _ => (live.addTrace _ _ _ _).bind fun _ => ?_)
    exact (live.performHandoff _ _ said).bind fun _ => Preserves.pure _
  have hangsUp : S.Lives M (do
      cancelCandidates none candidates
      GatedTurn.hangupRoute sel (addTrace mainStream userText none (f none))) :=
    call.lives (cancelled.bind fun _ => live.hangupRoute hangup (live.addTrace _ _ _ _))
  unfold GatedTurn.route
  split
  · exact handsOff _ _ _ (handoff _ rfl)
  · exact handsOff _ _ _ (handoff _ rfl)
  · exact handsOff _ _ _ (handoff _ rfl)
  · exact hangsUp
  · exact handsOff _ _ _ (absurd rfl)
  · split
    · exact (call.lives cancelled).bind fun _ => call.restructureRoute _ _ _ _ _
    · exact call.lives (call.dialogueRoute _ _ _ _ _ _ fun _ _ => live.addTrace _ _ _ _)

theorem release (userText : Text) (useFiller transferLlm : Bool) (processingStart mainStream : Nat)
    (candidates : List Candidate) (results : List RefereeResult) :
    S.Lives M (GatedTurn.release cfg fuel userText useFiller
      transferLlm processingStart mainStream candidates results) := by
  refine fun w live => wp_act_bind.mpr ?_
  have selected : S.live { w with session := (cfg.pipeline.select results w.session).2 } := by
    obtain same | same := GateRule.autoRestructure_session cfg.pipeline results w.session
      (decideAction results cfg.pipeline.routingRules)
    · rw [PipelineConfig.select, same]
      exact live
    · rw [PipelineConfig.select, same]
      exact call.live.aside (.remainder nofun) live
  refine Survives.then (call.live.resolveTransferLlm call.speaks transferLlm) call.live_always
    (fun decision handoff => ?_) _ selected
  exact call.route _ _ _ _ _ _ _ handoff (call.speaks.hangup results w.session)

theorem runGatedTurn (userText : Text) (isWrapUp useFiller transferLlm : Bool)
    (processingStart : Nat) :
    S.Lives M (runGatedTurn cfg fuel userText isWrapUp useFiller transferLlm processingStart) := by
  have live := call.live
  refine (call.lives (live.quiet fun _ => .note _)).bind fun _ => ?_
  cases isWrapUp with
  | true => exact call.lives (live.wrapUpTurn call.speaks _ _ _)
  | false =>
      refine (call.lives (live.gatePhase cfg)).bind fun gate => ?_
      refine (call.lives (.read _)).bind fun signaled => ?_
      cases signaled with
      | true => exact call.lives (live.abort _ _ _ _)
      | false => exact call.release _ _ _ _ _ _ _ _

theorem process (userText : Text) (isWrapUp shortReply : Bool) :
    S.Lives M (TurnLoop.process cfg fuel userText isWrapUp shortReply) := by
  have live := call.live
  refine (call.lives (live.quiet fun _ => .other rfl)).bind fun _ => ?_
  refine (call.lives (live.transition _ _)).bind fun _ => ?_
  refine (call.lives (live.ext .publish)).bind fun _ => ?_
  refine (call.lives (.read _)).bind fun processingStart => ?_
  refine Survives.bind (call.lives ?_) fun _ => call.runGatedTurn _ _ _ _ _ _
  refine live.quiet fun w => .tasks fun job member => ?_
  split at member
  · simp at member
  · cases member

theorem onUserFinal (userText : Text) : S.Lives M (TurnLoop.onUserFinal cfg fuel userText) := by
  have live := call.live
  refine (call.lives (live.append rfl)).bind fun _ => ?_
  refine (call.lives (live.ext .publish)).bind fun _ => ?_
  refine Survives.then (live.evaluateTransferCheap call.speaks userText) call.live_always ?_
  intro decision handoff
  cases decision with
  | some d =>
      refine call.lives ?_
      exact (live.performHandoff _ _ (handoff d rfl)).bind fun _ => Preserves.pure _
  | none =>
      refine (call.lives (.read _)).bind fun isWrapUp => ?_
      refine (call.lives (.read _)).bind fun protection => ?_
      cases protection with
      | none => exact call.process _ _ _ _
      | listenOnly => exact call.lives (live.onListenOnly call.speaks)
      | shortReply => exact call.process _ _ _ _

end

theorem onSilenceActivation_wp {phrase : Text}
    (heard : S.heard (.silenceActivation phrase) w) (said : utters .silenceActivation phrase) :
    S.Ends M (TurnLoop.onSilenceActivation phrase) (fun _ => S.live) w := by
  refine wp_update_bind.mpr (wp_update_bind.mpr ?_)
  have counted : (w.transition .inCall "silence_threshold").session.silenceActivationCount =
      w.session.silenceActivationCount :=
    (Aside.transition (w := w) .inCall "silence_threshold" : Aside utters _ _).activations
  rw [counted]
  refine (call.activating.playTts said true).seq (call.activation heard) call.activating_always ?_
  intro _ w₁ here₁
  refine wp_update_bind.mpr ?_
  exact (call.live.transition _ _).seq (call.activated here₁) call.live_always
    fun _ _ live₂ => live₂

end Turn

section Loop

theorem goesOn {x : Prog Directive}
    (kept : S.Ends M x (fun _ => S.live) w) : S.Ends M x (directed S) w := by
  refine kept.imp fun d w' live => ?_
  cases d with
  | «continue» => exact live
  | «return» => exact call.live_always w' live

theorem onOutcome_wp {o : Outcome} (heard : S.heard o w) (said : o.Utterable utters) :
    S.Ends M (TurnLoop.onOutcome cfg fuel o) (directed S) w := by
  cases o with
  | userFinal text => exact call.goesOn (call.onUserFinal fuel text w (call.userFinal heard))
  | silenceActivation phrase => exact call.goesOn (call.onSilenceActivation_wp heard said)
  | silenceHangup phrase =>
      have kept := call.always.onSilenceHangup said w (call.silenceHangup heard)
      refine (kept.and (Returning.onSilenceHangup phrase w)).mono fun r w' post => ?_
      match r with
      | .ok d =>
          obtain rfl := post.2 d rfl
          exact post.1
      | .error .cancelled | .error (.error _) => exact post.1
  | remoteHangup =>
      exact call.goesOn (call.lives call.live.onRemoteHangup w (call.remoteHangup heard))
  | noProgress => exact call.noProgress heard

theorem mainTurnLoop_wp {replyFuel : Nat} (fuel : Nat) (live : S.live w) :
    S.Ends M (mainTurnLoop cfg replyFuel fuel) (fun _ => S.always) w := by
  induction fuel generalizing w with
  | zero =>
      have stuck : Preserves M (fun _ => S.always) S.live (outOfFuel : Prog Unit) :=
        (call.live.wait .outOfFuel).bind fun impossible => nomatch (impossible : Empty)
      exact (call.lives stuck w live).imp fun _ => call.live_always
  | succ fuel ih =>
      refine wp_read_bind.mpr ((wp_when _ _).mpr ?_)
      split
      · refine wp.seq (call.awaitUserOrSilence_wp live) fun o w₁ heard => ?_
        refine wp.seq (call.onOutcome_wp heard.1 heard.2) fun d w₂ next => ?_
        cases d with
        | «continue» => exact ih next
        | «return» => exact next
      · exact call.live_always w live

end Loop

section Call

theorem startListenPumps : Preserves M (fun _ => S.always) S.before startListenPumps :=
  (call.before.ext _).bind fun _ => (call.before.ext _).bind fun _ =>
    call.before.quiet fun _ => .listen rfl id

section
variable (before : S.before w)
include before

theorem startMonitors_wp : S.Ends M startMonitors (fun _ => S.live) w.drained := by
  refine wp_update_bind.mpr ?_
  exact (call.live.ext .audioInVad).seq (call.monitored before) call.live_always
    fun _ _ live => call.live.aside (.listen rfl id) live

theorem afterConnect_wp : S.Ends M (RunSession.afterConnect cfg fuel) (fun _ => S.always) w := by
  have up := call.before
  have weaker := call.before_always
  refine (up.transition _ _).seq before weaker fun _ w₁ before₁ => ?_
  refine (up.ext .publish).seq before₁ weaker fun _ w₂ before₂ => ?_
  have ambient : Preserves M (fun _ => S.always) S.before Telephony.configureAmbient :=
    (up.ext _).bind fun _ => up.quiet fun _ => .other rfl
  refine ambient.seq before₂ weaker fun _ w₃ before₃ => ?_
  refine (up.ext .setBargeInFadeout).seq before₃ weaker fun _ w₄ before₄ => ?_
  refine call.startListenPumps.seq before₄ weaker fun _ w₅ before₅ => ?_
  have kicks : Preserves M (fun _ => S.always) S.before kickMainLlmPrewarm :=
    (up.ext _).bind fun _ => up.quiet fun _ => .listen rfl id
  refine kicks.when.seq before₅ weaker fun _ w₆ before₆ => ?_
  refine (up.doGreeting call.speaks).seq before₆ weaker fun _ w₇ before₇ => ?_
  refine (up.transition _ _).seq before₇ weaker fun _ w₈ before₈ => ?_
  refine (up.ext .publish).seq before₈ weaker fun _ w₉ before₉ => ?_
  refine (up.wait .reapPrewarm).suppress.when.seq before₉ weaker fun _ w₁₀ before₁₀ => ?_
  refine wp_update_bind.mpr ?_
  exact wp.seq (call.startMonitors_wp before₁₀) fun _ _ live => call.mainTurnLoop_wp fuel live

theorem body_wp : S.Ends M (RunSession.body cfg fuel) (fun _ => S.always) w := by
  refine wp_update_bind.mpr ?_
  have dials := call.before.phone.dialAndWaitConnected.preserves
  refine dials.seq (call.before.aside (.bus rfl) before) call.before_always ?_
  intro connected w₁ before₁
  cases connected with
  | true => exact call.afterConnect_wp before₁
  | false =>
      refine (call.before.onNoAnswer.survives call.before_always w₁ before₁).mono ?_
      exact outcomes_mono (fun _ h => h) (fun _ h => h) fun _ => call.before_always

theorem runSession_wp : (runSession cfg fuel).wp M (fun _ => S.always) (fun _ => S.always) w := by
  refine wp_update_bind.mpr ?_
  refine (call.before.ext .publish _ (call.before.aside (.session rfl) before)).bind ?_ ?_
  · intro _ w₁ before₁
    refine wp.andFinally (P := fun _ => S.always) ?_ fun r w₂ post =>
      call.always.cleanup.lastly post r
    exact wp.exceptError (call.body_wp before₁) (fun _ _ h => h) (fun _ h => h)
      fun e w₂ post => call.always.onException w₂ post
  · exact fun _ w₁ kept => call.before_always w₁ kept

/-- The property holds in every state of every run. -/
theorem reached {acts : List (Action sig M.Move)} {c : Susp sig World Unit}
    (run : M.exec (runSession cfg fuel w) acts = some c) : S.always c.state :=
  (call.runSession_wp before).always (fun _ _ h => h)
    (fun _ _ _ _ holds moved => call.always.stable.move holds moved) (fun _ _ h => h) run

end

end Call
end CallUpkeep

/-- The updates of a call that are not in passing. -/
inductive Episode (cfg : RuntimeConfig) (w : World) : World → Prop
  | monitored : Episode cfg w w.monitored
  | opened (signaled : Bool) : Episode cfg w ((w.note (.listening signaled)).enter .opened)
  | closed {finals : List AsrResult} {o : Outcome} (closes : Closes cfg w finals o) :
      Episode cfg w (AwaitUser.closed finals o w)
  | activation (phrase : Text) (n : Nat) :
      Episode cfg w (w.append (.silenceActivation phrase n))
  | activated : Episode cfg w { w with session := { w.session with
      silenceActivationCount := w.session.silenceActivationCount + 1 } }
  | revoice {st : Stream} (fresh : st.buffered = []) : Episode cfg w (w.addStream st)
  | revoiced : Episode cfg w { w with session := { w.session with
      consecutiveRestructureCount := w.session.consecutiveRestructureCount + 1 } }
  | capped : Episode cfg w { w.enter .capped with session := { w.session with
      consecutiveRestructureCount := 0 } }
  | replied : Episode cfg w { w.enter .repliedInFull with session := { w.session with
      consecutiveInterruptionCount := 0, consecutiveRestructureCount := 0 } }
  | wrapUp (maxRounds maxSeconds : Nat) : Episode cfg w ({ w with session := { w.session with
      inWrapUp := true, wrapUpStartedAt := some w.clock } }.append
        (.wrapUpStarted maxRounds maxSeconds))

/-- A property that every update keeps. -/
theorem Upkeep.call {M : Machine sig World} {utters : PlaySite → Text → Prop} {K : World → Prop}
    (up : Upkeep M utters (fun _ => K) K) (speaks : Speaks cfg M utters)
    (below : ∀ n, M.Stable fun w => w.session.consecutiveRestructureCount < n)
    (episode : ∀ {w w'}, Episode cfg w w' → K w → K w') :
    CallUpkeep cfg M utters (.constant K) where
  speaks := speaks
  before := up
  live := up
  window := up
  revoicing := up
  activating := up
  always := up
  below := below
  monitored := episode .monitored
  opened := episode (.opened _)
  closed closes := episode (.closed closes)
  remoteHangup := id
  noProgress := id
  userFinal := id
  silenceHangup := id
  activation here := episode (.activation _ _) (up.aside (.transition _ _) here)
  activated := episode .activated
  revoice here _ _ fresh := episode (.revoice fresh) here
  revoiced := episode .revoiced
  capped := episode .capped
  replied := episode .replied
  wrapUp := episode (.wrapUp _ _)

/-- What a call counts of its silences and restructures, and the events and entries to count. -/
structure Counters where
  activations : Nat
  restructures : Nat
  inWrapUp : Bool
  ladder : List TranscriptEvent
  journal : List Entry

def World.counters (w : World) : Counters where
  activations := w.session.silenceActivationCount
  restructures := w.session.consecutiveRestructureCount
  inWrapUp := w.session.inWrapUp
  ladder := w.session.events.filter (·.ofLadder)
  journal := w.journal

theorem World.Fresh.counters (fresh : w.Fresh) (journal : w.journal = []) :
    w.counters = ⟨0, 0, false, [], []⟩ := by
  rw [World.counters, fresh.session, journal]
  rfl

namespace World

theorem counters_append (w : World) {e : TranscriptEvent} (ofLadder : e.ofLadder = true) :
    (w.append e).counters = { w.counters with ladder := w.counters.ladder ++ [e] } := by
  simp [counters, append, CallSession.appendEvent, CallSession.events, ofLadder]

theorem counters_revoice (w : World) {st : Stream} (revoices : st.isRestructure = true) :
    (w.addStream st).counters = { w.counters with journal := .revoicing :: w.journal } := by
  simp [counters, addStream, revoices]

end World

theorem Aside.counters {utters : PlaySite → Text → Prop} {w' : World} (aside : Aside utters w w') :
    w'.counters = w.counters := by
  obtain ⟨es, grown, others⟩ := aside.events
  have none : es.filter (·.ofLadder) = [] := by simpa using others
  simp [World.counters, aside.activations, aside.restructures, aside.wrapUp, aside.journal, grown,
    none]

/-- No other task has a part in the tally. -/
theorem Engine.counters_stable (P : Counters → Prop) :
    (engine cfg).Stable fun w => P w.counters := by
  refine Engine.stable_of ?_ (fun _ h => h) ?_
  · intro op m w w' holds moved
    have owned := Engine.callMove_mainOwned moved
    have ladder : w'.session.events.filter (·.ofLadder) =
        w.session.events.filter (·.ofLadder) := by
      obtain same | ⟨-, ts, e, grown, byOthers⟩ := Engine.callMove_transcript moved
      · rw [CallSession.events, same, CallSession.events]
      · have other : e.ofLadder = false := by
          cases e <;> first | rfl | cases byOthers
        simp [CallSession.events, grown, other]
    have wrapUp : w'.session.inWrapUp = w.session.inWrapUp :=
      congrArg WrapUp.active owned.wrapUp
    obtain ⟨activations, journal⟩ := Engine.callMove_journal moved
    have same : w'.counters = w.counters := by
      simp [World.counters, activations, journal, owned.restructures, wrapUp, ladder]
    rwa [same]
  · intro w w' holds frame
    rwa [World.counters, frame.session, frame.journal]

theorem Upkeep.counters {P A : Counters → Prop} (weaker : ∀ t, P t → A t) :
    Upkeep (engine cfg) (fun _ _ => True) (fun _ w => A w.counters) fun w => P w.counters where
  stable := Engine.counters_stable P
  assertion _ w holds := weaker w.counters holds
  aside aside holds := by rwa [aside.counters]

end IsalesEngine
