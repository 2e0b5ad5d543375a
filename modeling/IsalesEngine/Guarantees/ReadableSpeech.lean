import IsalesEngine.Guarantees.SilenceLadder
import IsalesEngine.Guarantees.Routing
import IsalesEngine.Pipeline.Stream

/-!
What is handed to speech synthesis. Generated sentences have passed the
splitter, which holds back what cannot be voiced; the other texts are constants
of the engine, phrases of the campaign, and a greeting that the model writes.
Only two of them can be unreadable in a campaign whose phrases are not: the
greeting of the model, and the activation phrase if none is configured.
-/
namespace IsalesEngine
open Asyncio Asyncio.Coro SentenceSplitter

variable {readable : Char → Bool}

/-- The texts that are being synthesized. A sentence is synthesized by a task of its own, not by
its playback. -/
def World.synthesized (w : World) : List Text :=
  (w.play.toList.filter fun p => p.site ≠ .sentence).map PlayTask.text ++
    w.turnTasks.filterMap (fun
      | .synth s => some s
      | _ => none) ++ w.filler.playing.toList

/-- What the engine says of its own accord. -/
def ownPhrases : List Text :=
  [politeGreeting, World.stallReply, TurnLoop.listenOnlyCue, WrapUpTurn.goodbye]

/-- Every phrase of the campaign has something to voice; lists may be empty. -/
structure RuntimeConfig.Readable (readable : Char → Bool) (cfg : RuntimeConfig) : Prop where
  greeting : ∀ text, cfg.fixedGreeting = some text → text ≠ [] →
    hasSynthesizableText readable text = true
  defaultReplies : ∀ text ∈ cfg.pipeline.defaultReplies, hasSynthesizableText readable text = true
  fillers : ∀ text ∈ cfg.fillerPhrases, hasSynthesizableText readable text = true
  silence : ∀ text ∈ cfg.silence.phrases, hasSynthesizableText readable text = true
  silenceHangup : cfg.silence.hangupPhrase ≠ [] →
    hasSynthesizableText readable cfg.silence.hangupPhrase = true
  transfer : ∀ text ∈ cfg.transfer.phrases, hasSynthesizableText readable text = true
  closing : ∀ text ∈ cfg.wrapUp.closingPhrases, hasSynthesizableText readable text = true
  rules : ∀ rule ∈ cfg.pipeline.routingRules, ∀ tool thenState phrase,
    rule.action = .tool tool thenState (some phrase) → phrase ≠ [] →
    hasSynthesizableText readable phrase = true
  tools : ∀ tool ∈ cfg.pipeline.tools, ∀ phrase, tool.2.closingPhrase = some phrase →
    phrase ≠ [] → hasSynthesizableText readable phrase = true

/-- What generation and the transfer detector can come up with. -/
def generatedReadable (readable : Char → Bool) (cfg : RuntimeConfig) : Action sig Move → Bool
  | .move (.eagerSentence _ s) => hasSynthesizableText readable s
  | .move (.produceSentence s) => hasSynthesizableText readable s
  | .reply .transferLlm (.ok (some d)) =>
      decide (d.phrase = []) || cfg.transfer.phrases.contains d.phrase
  | _ => true

/-- The model writes a greeting with something to voice, or none. -/
def greetingReadable (readable : Char → Bool) : Action sig Move → Bool
  | .reply .greetingChat (.ok text) =>
      let text : Text := text
      decide (text.strip = []) || hasSynthesizableText readable text.strip
  | _ => true

/-- The runs whose greeting can be voiced. -/
def voicedRuns (readable : Char → Bool) (cfg : RuntimeConfig) (_ : Op) (a : Action sig Move)
    (_ : World) : Bool :=
  generatedReadable readable cfg a && greetingReadable readable a

/-- Whatever is not a sentence of a reply has to have something to voice. -/
def VoicedAt (readable : Char → Bool) (site : PlaySite) (text : Text) : Prop :=
  site = .sentence ∨ hasSynthesizableText readable text = true

namespace PipelineConfig
variable {cfg : PipelineConfig}

/-- Where the phrase of a hangup route comes from. -/
def Phrased (cfg : PipelineConfig) (phrase : Text) : Prop :=
  phrase = [] ∨
    (∃ rule ∈ cfg.routingRules, ∃ tool thenState,
      rule.action = .tool tool thenState (some phrase)) ∨
    ∃ tool ∈ cfg.tools, tool.2.closingPhrase = some phrase

theorem failOpen_hangupPhrase : cfg.failOpen.hangupPhrase = [] := rfl

theorem toolSelection_phrased {name : String} {thenState : Option String}
    {closingPhrase : Option Text} (own : cfg.Phrased (closingPhrase.getD [])) :
    cfg.Phrased (cfg.toolSelection name thenState closingPhrase).hangupPhrase := by
  unfold toolSelection
  cases found : (cfg.tools.find? fun t => t.1 = name).map Prod.snd with
  | none => exact .inl failOpen_hangupPhrase
  | some config =>
      obtain ⟨tool, member, rfl⟩ := Option.map_eq_some_iff.mp found
      have chosen : ∀ {routeId kind thenState}, cfg.Phrased (GatedSelection.hangupPhrase
          { routeId := routeId, kind := kind, thenState := thenState
            toolConfig := some tool.2, closingPhrase := closingPhrase }) := by
        intro routeId kind thenState
        unfold GatedSelection.hangupPhrase
        split
        · exact own
        · cases phrase : tool.2.closingPhrase with
          | none => simp [phrase, Phrased]
          | some text =>
              refine .inr (.inr ⟨tool, List.mem_of_find?_eq_some member, ?_⟩)
              simp [phrase]
      cases type : tool.2.type with
      | other => simpa [type] using .inl failOpen_hangupPhrase
      | hangup | transfer => simpa [type] using chosen

theorem toAction_phrased {rule : RoutingRule} (member : rule ∈ cfg.routingRules) :
    cfg.Phrased (cfg.selectGatedRoute rule.toAction).hangupPhrase := by
  cases action : rule.action with
  | transition target goalType =>
      simp only [RoutingRule.toAction, action, selectGatedRoute]
      split <;> exact .inl rfl
  | route target goalType thenState =>
      simp only [RoutingRule.toAction, action, selectGatedRoute]
      split
      · exact .inl rfl
      · split <;> exact .inl rfl
  | tool tool thenState closingPhrase =>
      simp only [RoutingRule.toAction, action, selectGatedRoute]
      refine toolSelection_phrased ?_
      cases closingPhrase with
      | none => exact .inl rfl
      | some phrase => exact .inr (.inl ⟨rule, member, tool, thenState, action⟩)
  | other =>
      simp only [RoutingRule.toAction, action, selectGatedRoute]
      exact .inl failOpen_hangupPhrase

/-- The phrase of a hangup route is that of the rule or of the tool. -/
theorem select_phrased (cfg : PipelineConfig) (results : List RefereeResult) (s : CallSession) :
    cfg.Phrased (cfg.select results s).1.hangupPhrase := by
  rw [select, autoRestructure_eq]
  by_cases fires : (decideAction results cfg.routingRules).isContinue = true ∧
      cfg.Resumes results s
  · rw [if_pos fires]
    exact .inl rfl
  · rw [if_neg fires]
    cases found : cfg.routingRules.find? (·.matchesResults results) with
    | none =>
        simp only [decideAction, found, selectGatedRoute]
        exact .inl failOpen_hangupPhrase
    | some rule =>
        simp only [decideAction, found]
        exact toAction_phrased (List.mem_of_find?_eq_some found)

end PipelineConfig

theorem RuntimeConfig.Readable.speaks {cfg : RuntimeConfig} (configured : cfg.Readable readable)
    (own : ∀ text ∈ ownPhrases, hasSynthesizableText readable text = true)
    (ladder : cfg.silence.phrases ≠ [] ∨ cfg.silence.maxActivations ≤ 0) :
    Speaks cfg ((engine cfg).restrict (voicedRuns readable cfg)) (VoicedAt readable) where
  sentence _ := .inl rfl
  fixedGreeting fixed some := .inr (configured.greeting _ fixed some)
  politeGreeting := .inr (own _ (by simp [ownPhrases]))
  chat {text w w'} replied spoken := by
    have allowed := (Machine.restrict_reply_some replied).1
    right
    simpa [voicedRuns, generatedReadable, greetingReadable, spoken] using allowed
  activation {elapsedMs n inWrapUp phrase} decided := by
    obtain ⟨-, more, rfl⟩ := evaluateSilence_activate decided
    have some := ladder.resolve_right (by omega)
    refine .inr (configured.silence _ ?_)
    have inside : min n (cfg.silence.phrases.length - 1) < cfg.silence.phrases.length := by
      have := List.length_pos_iff.mpr some
      omega
    simp [SilenceConfig.phraseAt, List.getD_eq_getElem?_getD, List.getElem?_eq_getElem inside]
  silenceHangup some := .inr (configured.silenceHangup some)
  cue := .inr (own _ (by simp [ownPhrases]))
  transfer phrase member _ := .inr (configured.transfer phrase member)
  detected {d w w'} replied spoken := by
    have allowed := (Machine.restrict_reply_some replied).1
    refine .inr (configured.transfer d.phrase ?_)
    simpa [voicedRuns, generatedReadable, greetingReadable, spoken] using allowed
  hangup results s some := by
    obtain none | ⟨rule, member, tool, thenState, action⟩ | ⟨tool, member, phrase⟩ :=
      cfg.pipeline.select_phrased results s
    · exact absurd none some
    · exact .inr (configured.rules rule member tool thenState _ action some)
    · exact .inr (configured.tools tool member _ phrase some)
  closing phrase member := .inr (configured.closing phrase member)
  goodbye := .inr (own _ (by simp [ownPhrases]))
  capped reply member := .inr (configured.defaultReplies reply member)
  chosen replied := Engine.reply_choice cfg (Machine.restrict_reply_some replied).2

namespace Engine
variable {cfg : RuntimeConfig} {op : Op} {m : Move} {w w' : World}

/-- Other tasks start no playback. -/
theorem callMove_play_text (h : callMove cfg op w m = some w') {p' : PlayTask}
    (plays : w'.play = some p') : ∃ p, w.play = some p ∧ p'.site = p.site ∧ p'.text = p.text := by
  have cancelled : ∀ p : PlayTask, p.cancel.site = p.site ∧ p.cancel.text = p.text := by
    intro p
    unfold PlayTask.cancel
    split <;> exact ⟨rfl, rfl⟩
  obtain same | same | ⟨p, status, playing, same, -⟩ := callMove_playStep h
  · exact ⟨p', same ▸ plays, rfl, rfl⟩
  · rw [same] at plays
    obtain ⟨p, playing, rfl⟩ := Option.map_eq_some_iff.mp plays
    exact ⟨p, playing, cancelled p⟩
  · rw [same] at plays
    cases plays
    exact ⟨p, playing, rfl, rfl⟩

theorem mem_of_fillerCandidates {phrases used : List Text} {phrase : Text}
    (picked : phrase ∈ (World.fillerCandidates phrases used).1) : phrase ∈ phrases := by
  unfold World.fillerCandidates at picked
  dsimp only at picked
  split at picked
  · exact List.mem_of_mem_filter picked
  · exact List.mem_of_mem_filter (List.mem_of_mem_filter picked)

theorem callMove_filler_phrase (h : callMove cfg op w m = some w') {phrase : Text}
    (plays : w'.filler.playing = some phrase) :
    w.filler.playing = some phrase ∨ phrase ∈ cfg.fillerPhrases := by
  cases callMove_effect h with
  | fillerStart _ _ _ picked =>
      cases plays
      exact .inr (mem_of_fillerCandidates picked)
  | fillerPlayed _ _ | fillerCut _ => cases plays
  | _ => exact .inl plays

theorem nextReplay_buffered {st st' : Stream} {s : Text}
    (h : World.nextReplay? st = some (s, st')) : s ∈ st.buffered ∧ st'.buffered = st.buffered := by
  obtain ⟨e, rest, eager, dropped, rfl⟩ := nextReplay_next h
  have member : s ∈ e.buffer := List.mem_of_mem_drop (dropped ▸ List.mem_cons_self ..)
  exact ⟨by simpa [Stream.buffered, eager] using member, by simp [Stream.buffered, eager]⟩

theorem callMove_buffered (h : callMove cfg op w m = some w') {i : Nat} {s : Text}
    (member : s ∈ (w'.stream i).buffered) : s ∈ (w.stream i).buffered ∨ m = .eagerSentence i s := by
  have written : w'.streams = w.streams ∨ ∃ j st, w'.streams = (w.setStream j st).streams ∧
      ∀ s ∈ st.buffered, s ∈ (w.stream j).buffered ∨ m = .eagerSentence j s := by
    cases callMove_effect h with
    | @eagerSentence j sentence e eager _ _ =>
        refine .inr ⟨j, _, rfl, fun s member => ?_⟩
        have grown : s ∈ e.buffer ++ [sentence] := member
        obtain old | new := List.mem_append.mp grown
        · exact .inl (by simpa [Stream.buffered, eager] using old)
        · exact .inr (by rw [List.mem_singleton.mp new])
    | eagerEnd eager _ =>
        refine .inr ⟨_, _, rfl, fun s member => .inl ?_⟩
        simpa [Stream.buffered, eager] using member
    | replaySentence _ next =>
        refine .inr ⟨_, _, rfl, fun s member => .inl ?_⟩
        rwa [← (nextReplay_buffered next).2]
    | produceSentence _ _ _ | generatorEnd _ _ _ | defaultReply _ _ _ | generatorError _ _ =>
        exact .inr ⟨_, _, rfl, fun s member => .inl member⟩
    | _ => exact .inl rfl
  obtain same | own := stream_written written i
  · exact .inl (same ▸ member)
  · exact own s member

theorem mem_synths_append {tasks : List TurnTask} {s new : Text}
    (member : .synth s ∈ tasks ++ [.synth new]) : .synth s ∈ tasks ∨ s = new := by
  simpa using member

theorem default_picked {pick : Text}
    (picked : pick ∈ if cfg.pipeline.defaultReplies = [] then [World.stallReply]
      else cfg.pipeline.defaultReplies) :
    pick = World.stallReply ∨ pick ∈ cfg.pipeline.defaultReplies := by
  split at picked
  · exact .inl (List.mem_singleton.mp picked)
  · exact .inr picked

/-- What is synthesized for a reply: what was generated, directly or ahead, or a default reply. -/
theorem callMove_synth (h : callMove cfg op w m = some w') {s : Text}
    (member : .synth s ∈ w'.turnTasks) :
    .synth s ∈ w.turnTasks ∨ m = .produceSentence s ∨ (∃ i, s ∈ (w.stream i).buffered) ∨
      s = World.stallReply ∨ s ∈ cfg.pipeline.defaultReplies := by
  cases callMove_effect h with
  | produceSentence _ _ _ =>
      obtain old | new := mem_synths_append member
      · exact .inl old
      · exact .inr (.inl (new ▸ rfl))
  | replaySentence _ next =>
      obtain old | rfl := mem_synths_append member
      · exact .inl old
      · exact .inr (.inr (.inl ⟨_, (nextReplay_buffered next).1⟩))
  | defaultReply _ _ picked =>
      obtain old | rfl := mem_synths_append member
      · exact .inl old
      · exact .inr (.inr (.inr (default_picked picked)))
  | producerDropsJob _ _ _ | taskEnd _ => exact .inl (List.mem_of_mem_erase member)
  | _ => exact .inl member

end Engine

/-- What is synthesized, and what is generated ahead, has something to voice. -/
structure World.Voices (readable : Char → Bool) (w : World) : Prop where
  play : ∀ p, w.play = some p → VoicedAt readable p.site p.text
  synths : ∀ s, .synth s ∈ w.turnTasks → hasSynthesizableText readable s = true
  filler : ∀ phrase, w.filler.playing = some phrase → hasSynthesizableText readable phrase = true
  buffers : ∀ i s, s ∈ (w.stream i).buffered → hasSynthesizableText readable s = true

namespace World.Voices
variable {cfg : RuntimeConfig} {w w' : World}

/-- What is being synthesized can be voiced. -/
theorem synthesized (voices : w.Voices readable) :
    ∀ text ∈ w.synthesized, hasSynthesizableText readable text = true := by
  intro text member
  simp only [World.synthesized, List.mem_append, List.mem_map, List.mem_filter,
    List.mem_filterMap, Option.mem_toList] at member
  obtain (⟨p, ⟨playing, site⟩, rfl⟩ | ⟨task, running, named⟩) | playing := member
  · exact (voices.play p playing).resolve_left (by simpa using site)
  · cases task with
    | synth s =>
        cases named
        exact voices.synths _ running
    | _ => cases named
  · exact voices.filler text playing

theorem moved {op : Op} {m : Move} (configured : cfg.Readable readable)
    (own : ∀ text ∈ ownPhrases, hasSynthesizableText readable text = true)
    (voices : w.Voices readable) (allowed : voicedRuns readable cfg op (.move m) w = true)
    (h : Engine.callMove cfg op w m = some w') : w'.Voices readable := by
  have allowed := (Bool.and_eq_true_iff.mp allowed).1
  refine ⟨?_, ?_, ?_, ?_⟩
  · intro p' plays
    obtain ⟨p, playing, site, text⟩ := Engine.callMove_play_text h plays
    rw [site, text]
    exact voices.play p playing
  · intro s member
    obtain old | rfl | ⟨i, ahead⟩ | rfl | default := Engine.callMove_synth h member
    · exact voices.synths s old
    · exact allowed
    · exact voices.buffers i s ahead
    · exact own _ (by simp [ownPhrases])
    · exact configured.defaultReplies s default
  · intro phrase plays
    obtain old | new := Engine.callMove_filler_phrase h plays
    · exact voices.filler phrase old
    · exact configured.fillers phrase new
  · intro i s member
    obtain old | rfl := Engine.callMove_buffered h member
    · exact voices.buffers i s old
    · exact allowed

theorem same (voices : w.Voices readable) (play : w'.play = w.play)
    (tasks : w'.turnTasks = w.turnTasks) (filler : w'.filler = w.filler)
    (streams : w'.streams = w.streams) : w'.Voices readable := by
  obtain ⟨plays, synths, phrases, buffers⟩ := voices
  refine ⟨by rwa [play], by rwa [tasks], by rwa [filler], ?_⟩
  simpa only [World.stream, streams] using buffers

theorem upkeep (configured : cfg.Readable readable)
    (own : ∀ text ∈ ownPhrases, hasSynthesizableText readable text = true) :
    Upkeep ((engine cfg).restrict (voicedRuns readable cfg)) (VoicedAt readable)
      (fun _ => World.Voices readable) (World.Voices readable) where
  stable :=
    { move voices step := by
        obtain ⟨allowed, step⟩ := Machine.restrict_move_some step
        obtain called | rfl := Engine.move_cases step
        · exact voices.moved configured own allowed called
        · exact voices.same rfl rfl rfl rfl
      reply voices step := by
        have frame := Engine.reply_frame (Machine.restrict_reply_some step).2
        exact voices.same frame.play frame.turnTasks frame.filler frame.streams }
  assertion _ _ voices := voices
  aside aside voices := by
    refine ⟨?_, ?_, ?_, ?_⟩
    · obtain same | said := aside.play
      · rw [same]
        exact voices.play
      · exact said
    · exact fun s member => voices.synths s (aside.synths s member)
    · obtain same | silent := aside.filler
      · rw [same]
        exact voices.filler
      · rw [silent]
        nofun
    · exact fun i s member => voices.buffers i s (aside.buffers i s member)

theorem episode (voices : w.Voices readable) (step : Episode cfg w w') : w'.Voices readable := by
  cases step with
  | revoice fresh =>
      refine ⟨voices.play, voices.synths, voices.filler, fun i s member => ?_⟩
      exact voices.buffers i s (World.buffered_addStream fresh member)
  | _ => exact voices.same rfl rfl rfl rfl

end World.Voices

namespace Guarantees

/-- In a campaign whose phrases can be voiced and that has an activation phrase or never activates,
and with a greeting of the model that can be voiced or is blank, everything that is handed to
synthesis in a call can be voiced. What generation yields always can. -/
theorem readable_text_synthesized (readable : Char → Bool) (cfg : RuntimeConfig) (fuel : Nat)
    (w : World) (acts : List (Action sig Move)) (c : Susp sig World Unit) (fresh : w.Fresh)
    (idle : w.turnTasks = []) (streams : w.streams = [])
    (own : ∀ text ∈ ownPhrases, hasSynthesizableText readable text = true)
    (configured : cfg.Readable readable)
    (ladder : cfg.silence.phrases ≠ [] ∨ cfg.silence.maxActivations ≤ 0)
    (run : ((engine cfg).restrict (voicedRuns readable cfg)).exec (runSession cfg fuel w) acts =
      some c) :
    (∀ text ∈ c.state.synthesized, hasSynthesizableText readable text = true) ∧
    ∀ (config : StreamConfig) (llm : LlmBehaviour), config.readable = readable →
      ∀ s ∈ (config.generateCore llm).filterMap CoreEffect.text?,
        hasSynthesizableText readable s = true := by
  have start : w.Voices readable := by
    refine ⟨?_, ?_, ?_, ?_⟩
    · rw [fresh.play]
      nofun
    · rw [idle]
      nofun
    · rw [fresh.filler]
      nofun
    · intro i s member
      simp [World.stream, streams, Stream.buffered] at member
  have call := (World.Voices.upkeep configured own).call (configured.speaks own ladder)
    (fun n => (Engine.below_stable n).restrict _) fun step voices => voices.episode step
  refine ⟨(call.reached start run).synthesized, ?_⟩
  rintro config llm rfl s member
  exact (voiceable_of_generated member).2

/-- The code points of the texts below that are letters. -/
def letter (c : Char) : Bool := "您好的请稍等说再见在吗".toList.contains c

theorem minimal_readable : RuntimeConfig.minimal.Readable letter where
  greeting text fixed _ := by
    cases fixed
    decide
  defaultReplies := nofun
  fillers := nofun
  silence := by decide
  silenceHangup some := absurd rfl some
  transfer := nofun
  closing := nofun
  rules := nofun
  tools := nofun

theorem activation_phrase_voiced :
    ∃ c, ((engine RuntimeConfig.minimal).restrict
          (voicedRuns letter RuntimeConfig.minimal)).exec
        (runSession RuntimeConfig.minimal 4 (World.initial 1 .other))
        (RunSession.listeningRun .other ++ silentRun) = some c ∧
      c.state.synthesized = ["在吗".toList] ∧
      ∀ text ∈ c.state.synthesized, hasSynthesizableText letter text = true := by
  refine exists_of_map (fun c => c.state.synthesized) ["在吗".toList] (by decide +kernel)
    fun c run phrase => ?_
  exact ⟨phrase, (readable_text_synthesized letter RuntimeConfig.minimal 4 _ _ c
    (World.initial_fresh 1 .other) rfl rfl (by decide) minimal_readable (.inl nofun) run).1⟩

/-- Without an activation phrase the empty text is synthesized, and a greeting of the model is
synthesized whatever it is. -/
theorem unreadable_text_synthesized :
    (let cfg := { RuntimeConfig.minimal with
      silence := { RuntimeConfig.minimal.silence with phrases := [] } }
    ((engine cfg).exec (runSession cfg 4 (World.initial 1 .other))
      (RunSession.listeningRun .other ++ silentRun)).map (fun c => c.state.synthesized) =
      some [[]]) ∧
    (let cfg := { RuntimeConfig.minimal with fixedGreeting := none }
    ((engine cfg).exec (runSession cfg 4 (World.initial 1 .other))
      ((RunSession.greetingRun .other).dropLast ++
        [.reply .greetingChat (.ok "……".toList)])).map (fun c => c.state.synthesized) =
      some ["……".toList]) ∧
    (∀ readable, hasSynthesizableText readable [] = false) ∧
    hasSynthesizableText letter "……".toList = false := by
  refine ⟨?_, ?_, fun _ => rfl, ?_⟩
  all_goals decide +kernel

end Guarantees
end IsalesEngine
