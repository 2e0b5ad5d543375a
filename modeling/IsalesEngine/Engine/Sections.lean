import IsalesEngine.Asyncio.System
import IsalesEngine.Engine.Machine

/-!
The sections of the tasks beside `main`, by what they do to the shared state and
when they can be taken. Whatever holds of every section is shown by cases on this
relation, so that no task is unfolded again.
-/
namespace IsalesEngine
open Asyncio
namespace Engine

section
variable (cfg : RuntimeConfig) (op : Op) (w : World)

inductive Effect : Move → World → Prop
  | tick (ms : Nat) : Effect (.tick ms) { w with clock := w.clock + ms }
  | control (c : Control) {e : BusEvent} (asks : e.isControl = true) :
      Effect (.control c) { w with bus := w.bus.post e }
  | cancelAll : Effect .cancelAll (w.cancelAll op)
  | deliverFinal {r : AsrResult} {rest : List BusEvent}
      (lane : w.bus.lossless = .asrFinal r :: rest) :
      Effect .dispatch { w with
        bus := { w.bus with lossless := rest }
        listen := { w.listen with finals := w.listen.finals ++ [r] } }
  | deliverEnd {rest : List BusEvent} (lane : w.bus.lossless = .asrStreamEnded :: rest) :
      Effect .dispatch { w with bus := { w.bus with lossless := rest } }
  | deliverHangup {e : TelephonyEvent} {rest : List BusEvent}
      (lane : w.bus.lossless = .hangupDetected e :: rest) :
      Effect .dispatch { w with
        bus := { w.bus with lossless := rest }
        listen := { w.listen with hangupEvent := true } }
  | deliverControl {e : BusEvent} {rest : List BusEvent} (lane : w.bus.lossless = e :: rest)
      (asks : e.isControl = true) :
      Effect .dispatch
        (World.terminate op { w with bus := { w.bus with lossless := rest } })
  | deliverPartial {r : AsrResult} {rest : List AsrResult} (lane : w.bus.lossy = r :: rest) :
      Effect .dispatchLossy { w with
        bus := { w.bus with lossy := rest }
        listen := { w.listen with partials := w.listen.partials ++ [r] } }
  | asrEmpty (isFinal : Bool) (running : w.listen.asrPump = .running) :
      Effect (.asrResult [] isFinal) w
  | asrFinal {text : Text} (running : w.listen.asrPump = .running) (said : text ≠ []) :
      Effect (.asrResult text true) { w with
        history := if w.bus.closed then w.history else .posted ⟨text, w.asrCount⟩ :: w.history
        bus := w.bus.post (.asrFinal ⟨text, w.asrCount⟩)
        asrCount := w.asrCount + 1
        session := { w.session with currentUserSpeechStartedMs := none }
        speech := .final w.asrCount :: w.speech }
  | asrPartial {text : Text} (running : w.listen.asrPump = .running) (said : text ≠ []) :
      Effect (.asrResult text false) { w with
        bus := w.bus.postPartial ⟨text, w.asrCount⟩
        asrCount := w.asrCount + 1 }
  | asrPumpEnd (active : w.listen.asrPump = .running ∨ w.listen.asrPump = .cancelled) :
      Effect .asrPumpEnd { w with
        listen := { w.listen with asrPump := .ended }
        bus := w.bus.post .asrStreamEnded }
  | evPumpHangup {e : TelephonyEvent} {rest : List (Option TelephonyEvent)}
      (running : w.listen.evPump = .running) (front : w.phone.events = some e :: rest)
      (terminal : e.isTerminal = true) :
      Effect .evPump { w with
        phone := { w.phone with events := rest }
        listen := { w.listen with evPump := .ended }
        bus := w.bus.post (.hangupDetected e) }
  | evPumpSkip {e : TelephonyEvent} {rest : List (Option TelephonyEvent)}
      (running : w.listen.evPump = .running) (front : w.phone.events = some e :: rest) :
      Effect .evPump { w with phone := { w.phone with events := rest } }
  | evPumpClosed {rest : List (Option TelephonyEvent)} (running : w.listen.evPump = .running)
      (front : w.phone.events = none :: rest) :
      Effect .evPump { w with
        phone := { w.phone with events := rest }
        listen := { w.listen with evPump := .ended } }
  | evPumpEnd (cancelled : w.listen.evPump = .cancelled) :
      Effect .evPump { w with listen := { w.listen with evPump := .ended } }
  | monitorEnd (cancelled : w.listen.partialMonitor = .cancelled) :
      Effect .monitorEnd { w with listen := { w.listen with partialMonitor := .ended } }
  | monitorSkips {r : AsrResult} {rest : List AsrResult}
      (running : w.listen.partialMonitor = .running) (front : w.listen.partials = r :: rest)
      (idle : w.partialCounts = false ∨ r.text.strip = []) :
      Effect .partialMonitor { w with listen := { w.listen with partials := rest } }
  | monitorMeasures {r : AsrResult} {rest : List AsrResult} {anchor : Nat}
      (running : w.listen.partialMonitor = .running) (front : w.listen.partials = r :: rest)
      (counts : w.partialCounts = true) (said : r.text.strip ≠ [])
      (anchored : anchor = w.session.currentUserSpeechStartedMs.getD w.clock)
      (below : evaluatePartial r.text.strip anchor w.clock cfg.interruption = false) :
      Effect .partialMonitor { w with
        listen := { w.listen with partials := rest }
        session := { w.session with currentUserSpeechStartedMs := some anchor }
        history := .evaluated r :: w.history
        speech := .measured r anchor w.clock :: w.speech }
  | monitorTriggers {r : AsrResult} {rest : List AsrResult} {anchor : Nat}
      (running : w.listen.partialMonitor = .running) (front : w.listen.partials = r :: rest)
      (counts : w.partialCounts = true) (said : r.text.strip ≠ [])
      (anchored : anchor = w.session.currentUserSpeechStartedMs.getD w.clock)
      (above : evaluatePartial r.text.strip anchor w.clock cfg.interruption = true) :
      Effect .partialMonitor (World.triggerInterruption { w with
        listen := { w.listen with partials := rest }
        session := { w.session with currentUserSpeechStartedMs := some anchor }
        history := .evaluated r :: w.history
        speech := .measured r anchor w.clock :: w.speech } r.text.strip)
  | asrGet {win : Window} {r : AsrResult} {rest : List AsrResult}
      (window : w.listen.window = some win) (front : w.listen.finals = r :: rest)
      (waiting : win.asrGet = .waiting) :
      Effect .asrGet { w with listen := { w.listen with
        finals := rest, window := some { win with asrGet := .held r } } }
  | hangupWait {win : Window} (window : w.listen.window = some win)
      (waiting : win.hangupWait = .waiting) (detected : w.listen.hangupEvent = true) :
      Effect .hangupWait { w with listen := { w.listen with
        window := some { win with hangupWait := .finished } } }
  | playEnd {p : PlayTask} (ok : Bool) (playing : w.play = some p)
      (running : p.status = .running) :
      Effect (.playEnd ok)
        { w with play := some { p with status := if ok then .done else .failed } }
  | playStop {p : PlayTask} (ok : Bool) (playing : w.play = some p)
      (cancelling : p.status = .cancelling) :
      Effect (.playEnd ok) { w with play := some { p with status := .cancelled } }
  | eagerSentence {i : Nat} {s : Text} {e : Eager} (eager : (w.stream i).eager = some e)
      (running : e.status = .running) (sentence : s.Sentence) :
      Effect (.eagerSentence i s) (w.setStream i { w.stream i with
        eager := some { e with buffer := e.buffer ++ [s] }
        result := { (w.stream i).result with
          replyText := (w.stream i).result.replyText ++ s } })
  | eagerEnd {i : Nat} {error : Option String} {e : Eager} (eager : (w.stream i).eager = some e)
      (running : e.status ≠ .ended) :
      Effect (.eagerEnd i error) (w.setStream i { w.stream i with
        eager := some { e with status := .ended }
        result := { (w.stream i).result with error := error.or (w.stream i).result.error } })
  | produceSentence {s : Text} {p : Pipe} (pulling : w.pulling? = some p)
      (direct : (w.stream p.stream).eager = none) (sentence : s.Sentence) :
      Effect (.produceSentence s) { w with
        streams := w.streams.set p.stream { w.stream p.stream with
          result := { (w.stream p.stream).result with
            replyText := (w.stream p.stream).result.replyText ++ s } }
        pipe := some (Pipe.offer p s false)
        turnTasks := w.turnTasks ++ [.synth s] }
  | replaySentence {s : Text} {st : Stream} {p : Pipe} (pulling : w.pulling? = some p)
      (next : World.nextReplay? (w.stream p.stream) = some (s, st)) :
      Effect .replaySentence { w with
        streams := w.streams.set p.stream st
        pipe := some (Pipe.offer p s false)
        turnTasks := w.turnTasks ++ [.synth s] }
  | generatorEnd {error : Option String} {pick : Text} {p : Pipe} {result : MainStreamResult}
      (pulling : w.pulling? = some p)
      (text : result.replyText = (w.stream p.stream).result.replyText)
      (spoken : result.replyText.strip ≠ []) :
      Effect (.generatorEnd error pick) { w with
        streams := w.streams.set p.stream { w.stream p.stream with result := result }
        pipe := some { p with producer := .ending } }
  | defaultReply {error : Option String} {pick : Text} {p : Pipe} {cause : String}
      (pulling : w.pulling? = some p)
      (silent : (w.stream p.stream).result.replyText.strip = [])
      (picked : pick ∈ if cfg.pipeline.defaultReplies = [] then [World.stallReply]
        else cfg.pipeline.defaultReplies) :
      Effect (.generatorEnd error pick) (World.append { w with
        streams := w.streams.set p.stream { w.stream p.stream with
          result := ⟨pick, true, some cause⟩ }
        pipe := some (Pipe.offer p pick true)
        turnTasks := w.turnTasks ++ [.synth pick] } (.defaultReplyUsed pick (some cause)))
  | generatorError {message : String} {p : Pipe} (pulling : w.pulling? = some p)
      (direct : (w.stream p.stream).eager = none) :
      Effect (.generatorError message) { w with
        streams := w.streams.set p.stream { w.stream p.stream with
          result := { (w.stream p.stream).result with
            error := some
              ((w.stream p.stream).result.error.getD ("main_stream_producer: " ++ message)) } }
        pipe := some { p with producer := .ending } }
  | producerPutJob {p : Pipe} {job : Text} {last : Bool} (piped : w.pipe = some p)
      (live : p.cancelRequested = false) (room : p.jobs.length < Pipe.jobsMaxsize)
      (putting : p.producer = .putting job last) :
      Effect .producerPut { w with pipe := some { p with
        jobs := p.jobs ++ [some job], producer := if last then .ending else .pulling } }
  | producerPutSentinel {p : Pipe} (piped : w.pipe = some p) (live : p.cancelRequested = false)
      (room : p.jobs.length < Pipe.jobsMaxsize) (ending : p.producer = .ending) :
      Effect .producerPut { w with pipe := some { p with
        jobs := p.jobs ++ [none], producer := .done } }
  | producerDropsJob {p : Pipe} {job : Text} {last : Bool} (piped : w.pipe = some p)
      (cancelled : p.cancelRequested = true) (putting : p.producer = .putting job last) :
      Effect .producerEnd { w with
        history := .lost job :: w.history
        turnTasks := w.turnTasks.erase (.synth job)
        pipe := some { p with producer := .cancelled } }
  | producerEnd {p : Pipe} (piped : w.pipe = some p) (cancelled : p.cancelRequested = true)
      (active : p.producer.isDone = false) (empty : ∀ job last, p.producer ≠ .putting job last) :
      Effect .producerEnd { w with pipe := some { p with producer := .cancelled } }
  | firstAudio {p : Pipe} {t : PlayTask} (piped : w.pipe = some p) (playing : w.play = some t)
      (first : p.firstAudioMs = none) (site : t.site = .sentence) (running : t.status = .running) :
      Effect .firstAudio { w with
        pipe := some { p with firstAudioMs := some (w.clock - p.processingStart) } }
  | fillerSkip {pick : Text} (asleep : w.filler.gate = .sleeping)
      (due : w.filler.deadline ≤ w.clock) :
      Effect (.fillerGate pick) { w with filler := { w.filler with gate := .ended } }
  | fillerStart {pick : Text} (asleep : w.filler.gate = .sleeping)
      (due : w.filler.deadline ≤ w.clock) (early : (w.pipe.bind Pipe.firstAudioMs) = none)
      (picked : pick ∈
        (World.fillerCandidates cfg.fillerPhrases w.session.usedFillerPhrases).1) :
      Effect (.fillerGate pick) { w with
        session := { w.session with usedFillerPhrases :=
          (World.fillerCandidates cfg.fillerPhrases w.session.usedFillerPhrases).2 ++ [pick] }
        filler := { w.filler with gate := .ended, playing := some pick, stopped := false } }
  | fillerGateEnd {pick : Text} (cancelled : w.filler.gate = .cancelled) :
      Effect (.fillerGate pick) { w with filler := { w.filler with gate := .ended } }
  | fillerPlayed {phrase : Text} (playing : w.filler.playing = some phrase)
      (live : w.filler.stopped = false) :
      Effect (.fillerEnd true) (World.append
        { w with filler := { w.filler with playing := none } }
        (.filler phrase (max 50 (phrase.length * 20))))
  | fillerCut {ok : Bool} {phrase : Text} (playing : w.filler.playing = some phrase) :
      Effect (.fillerEnd ok) { w with filler := { w.filler with playing := none } }
  | taskEnd {t : TurnTask} (active : t ∈ w.turnTasks) :
      Effect (.taskEnd t) { w with turnTasks := w.turnTasks.erase t }
  | edgeNoted {m : EdgeMessage} (client : w.phone.client = .rtc ∧ w.phone.registered = true) :
      Effect (.edge m) w
  | edgeConnected {m : EdgeMessage} (e : TelephonyEvent)
      (client : w.phone.client = .rtc ∧ w.phone.registered = true) :
      Effect (.edge m)
        { w with phone := { w.phone with events := w.phone.events ++ [some e] } }
  | edgeEnds {m : EdgeMessage} (e : TelephonyEvent)
      (client : w.phone.client = .rtc ∧ w.phone.registered = true) :
      Effect (.edge m) { w with phone :=
        { ({ w.phone with events := w.phone.events ++ [some e] } : Phone).closeByEdge with
          terminalReported := true } }
  | telephony (e : Option TelephonyEvent) (client : w.phone.client = .other) : Effect (.telephony e)
        { w with phone := { w.phone with events := w.phone.events ++ [e] } }
  | finalize {extract ok : Bool} {cause : Option HangupCause} {finalize : Finalize} {managed : Bool}
      {history : List Mark} (stepped : w.finalizeStep extract ok = some { w with
        session := { w.session with hangupCause := cause }, finalize, managed, history }) :
      Effect (.finalize extract ok) { w with
        session := { w.session with hangupCause := cause }, finalize, managed, history }

end

variable {cfg : RuntimeConfig} {op : Op} {m : Move} {w w' : World}

theorem control_effect (c : Control) : Effect cfg op w (.control c) (postControl w c) := by
  cases c with
  | manualHangup => exact .control _ (e := .manualHangupRequested) rfl
  | transfer => exact .control _ (e := .transferRequested) rfl

theorem dispatch_effect (h : w.dispatch op = some w') : Effect cfg op w .dispatch w' := by
  simp only [World.dispatch, Option.ite_none_right_eq_some] at h
  split at h
  · rename_i e rest lane
    obtain rfl := Option.some.inj h.2
    cases e with
    | asrFinal r => exact .deliverFinal lane
    | asrStreamEnded => exact .deliverEnd lane
    | hangupDetected e => exact .deliverHangup lane
    | manualHangupRequested | transferRequested => exact .deliverControl lane rfl
  · cases h.2

theorem dispatchLossy_effect (h : w.dispatchLossy = some w') :
    Effect cfg op w .dispatchLossy w' := by
  simp only [World.dispatchLossy, Option.ite_none_right_eq_some] at h
  split at h
  · rename_i r rest lane
    obtain rfl := Option.some.inj h.2
    exact .deliverPartial lane
  · cases h.2

theorem asrResult_effect {text : Text} {isFinal : Bool} (h : w.asrResult text isFinal = some w') :
    Effect cfg op w (.asrResult text isFinal) w' := by
  simp only [World.asrResult, Option.ite_none_right_eq_some] at h
  obtain ⟨running, h⟩ := h
  by_cases empty : text = []
  · subst empty
    rw [if_pos rfl] at h
    cases h
    exact .asrEmpty isFinal running
  · rw [if_neg empty] at h
    cases isFinal with
    | true =>
        cases h
        have final : Effect cfg op w (.asrResult text true) _ := .asrFinal running empty
        cases closed : w.bus.closed with
        | true => simpa [closed] using final
        | false => simpa [closed, World.note] using final
    | false =>
        cases h
        exact .asrPartial running empty

theorem evPump_effect (h : w.evPumpStep = some w') : Effect cfg op w .evPump w' := by
  unfold World.evPumpStep at h
  dsimp only at h
  split at h
  · rename_i running front
    split at h
    · rename_i terminal
      cases h
      exact .evPumpHangup running front terminal
    · cases h
      exact .evPumpSkip running front
  · rename_i running front
    cases h
    exact .evPumpClosed running front
  · rename_i cancelled
    cases h
    exact .evPumpEnd cancelled
  · cases h

theorem partialMonitor_effect (h : w.partialMonitorStep cfg = some w') :
    Effect cfg op w .partialMonitor w' := by
  unfold World.partialMonitorStep at h
  split at h
  · rename_i r rest running front
    dsimp only at h
    split at h
    · rename_i idle
      cases h
      exact .monitorSkips running front idle
    · rename_i counted
      obtain ⟨counts, said⟩ := not_or.mp counted
      have counts : w.partialCounts = true := Bool.not_eq_false _ ▸ counts
      split at h
      · rename_i above
        cases h
        exact .monitorTriggers running front counts said rfl above
      · rename_i below
        cases h
        exact .monitorMeasures running front counts said rfl (Bool.eq_false_iff.mpr below)
  · cases h

theorem asrGet_effect (h : w.asrGetStep = some w') : Effect cfg op w .asrGet w' := by
  unfold World.asrGetStep at h
  split at h
  · rename_i window front
    obtain ⟨waiting, rfl⟩ := of_guard h
    exact .asrGet window front waiting
  · cases h

theorem hangupWait_effect (h : w.hangupWaitStep = some w') : Effect cfg op w .hangupWait w' := by
  unfold World.hangupWaitStep at h
  split at h
  · rename_i window
    obtain ⟨⟨waiting, detected⟩, rfl⟩ := of_guard h
    exact .hangupWait window waiting detected
  · cases h

theorem playEnd_effect {ok : Bool} (h : w.playEnd ok = some w') :
    Effect cfg op w (.playEnd ok) w' := by
  unfold World.playEnd at h
  split at h
  · rename_i playing
    split at h
    · rename_i running
      cases h
      exact .playEnd ok playing running
    · rename_i cancelling
      cases h
      exact .playStop ok playing cancelling
    · cases h
  · cases h

theorem eagerSentence_effect {i : Nat} {s : Text} (h : w.eagerSentence i s = some w') :
    Effect cfg op w (.eagerSentence i s) w' := by
  unfold World.eagerSentence at h
  dsimp only at h
  split at h
  · rename_i eager
    obtain ⟨⟨running, sentence⟩, rfl⟩ := of_guard h
    exact .eagerSentence eager running sentence
  · cases h

theorem eagerEnd_effect {i : Nat} {error : Option String} (h : w.eagerEnd i error = some w') :
    Effect cfg op w (.eagerEnd i error) w' := by
  unfold World.eagerEnd at h
  dsimp only at h
  split at h
  · rename_i eager
    obtain ⟨running, rfl⟩ := of_guard h
    exact .eagerEnd eager running
  · cases h

theorem produceSentence_effect {s : Text} (h : w.produceSentence s = some w') :
    Effect cfg op w (.produceSentence s) w' := by
  unfold World.produceSentence at h
  dsimp only at h
  split at h
  · rename_i pulling
    obtain ⟨⟨direct, sentence⟩, rfl⟩ := of_guard h
    exact .produceSentence pulling direct sentence
  · cases h

theorem replaySentence_effect (h : w.replaySentence = some w') :
    Effect cfg op w .replaySentence w' := by
  unfold World.replaySentence at h
  split at h
  · rename_i pulling
    split at h
    · rename_i next
      cases h
      exact .replaySentence pulling next
    · cases h
  · cases h

theorem generatorEnd_effect {error : Option String} {pick : Text}
    (h : w.generatorEnd cfg error pick = some w') :
    Effect cfg op w (.generatorEnd error pick) w' := by
  unfold World.generatorEnd at h
  dsimp only at h
  split at h
  · rename_i p pulling
    rw [Option.ite_none_left_eq_some] at h
    obtain ⟨_, h⟩ := h
    by_cases silent : (w.stream p.stream).result.replyText.strip = []
    · rw [if_neg (not_not.mpr silent)] at h
      obtain ⟨picked, rfl⟩ := of_guard h
      exact .defaultReply pulling silent picked
    · rw [if_pos silent] at h
      cases h
      exact .generatorEnd pulling rfl silent
  · cases h

theorem generatorError_effect {message : String} (h : w.generatorError message = some w') :
    Effect cfg op w (.generatorError message) w' := by
  unfold World.generatorError at h
  dsimp only at h
  split at h
  · rename_i pulling
    obtain ⟨direct, rfl⟩ := of_guard h
    exact .generatorError pulling direct
  · cases h

theorem producerPut_effect (h : w.producerPut = some w') : Effect cfg op w .producerPut w' := by
  unfold World.producerPut at h
  split at h
  · rename_i piped
    simp only [Option.ite_none_right_eq_some] at h
    obtain ⟨⟨live, room⟩, h⟩ := h
    split at h
    · rename_i putting
      cases h
      exact .producerPutJob piped live room putting
    · rename_i ending
      cases h
      exact .producerPutSentinel piped live room ending
    · cases h
  · cases h

theorem producerEnd_effect (h : w.producerEnd = some w') : Effect cfg op w .producerEnd w' := by
  unfold World.producerEnd at h
  split at h
  · rename_i p piped
    obtain ⟨⟨cancelled, active⟩, rfl⟩ := of_guard h
    cases producer : p.producer with
    | putting job last => exact .producerDropsJob piped cancelled producer
    | _ => exact .producerEnd piped cancelled active (by simp [producer])
  · cases h

theorem firstAudio_effect (h : w.firstAudio = some w') : Effect cfg op w .firstAudio w' := by
  unfold World.firstAudio at h
  split at h
  · rename_i piped playing
    obtain ⟨⟨first, site, running⟩, rfl⟩ := of_guard h
    exact .firstAudio piped playing first site running
  · cases h

theorem fillerGate_effect {pick : Text} (h : w.fillerGateStep cfg pick = some w') :
    Effect cfg op w (.fillerGate pick) w' := by
  unfold World.fillerGateStep at h
  dsimp only at h
  split at h
  · rename_i asleep
    split at h
    · cases h
      exact .fillerSkip asleep.1 asleep.2
    · rename_i early
      obtain ⟨picked, rfl⟩ := of_guard h
      have none := Option.not_isSome_iff_eq_none.mp (not_or.mp early).1
      exact .fillerStart asleep.1 asleep.2 none picked
  · obtain ⟨cancelled, rfl⟩ := of_guard h
    exact .fillerGateEnd cancelled

theorem fillerEnd_effect {ok : Bool} (h : w.fillerEnd ok = some w') :
    Effect cfg op w (.fillerEnd ok) w' := by
  unfold World.fillerEnd at h
  dsimp only at h
  split at h
  · rename_i playing
    split at h
    · rename_i complete
      obtain ⟨rfl, live⟩ := complete
      cases h
      exact .fillerPlayed playing live
    · cases h
      exact .fillerCut playing
  · cases h

theorem edgeMessage_effect {m : EdgeMessage} (h : w.edgeMessage m = some w') :
    Effect cfg op w (.edge m) w' := by
  simp only [World.edgeMessage, Option.ite_none_right_eq_some] at h
  obtain ⟨client, h⟩ := h
  split at h <;> cases h
  · exact .edgeConnected _ client
  · exact .edgeEnds _ client
  · exact .edgeEnds _ client
  · exact .edgeEnds _ client
  · exact .edgeNoted client
  · exact .edgeNoted client

/-- The finalizer writes its own record, the cause, the registration and the note of its start. -/
theorem finalizeStep_writes {extract ok : Bool} (h : w.finalizeStep extract ok = some w') :
    ∃ cause finalize managed history, w' = { w with
        session := { w.session with hangupCause := cause }, finalize, managed, history } ∧
      (history = w.history ∨ history = .finalizing :: w.history) ∧
      (w.session.hangupCause ≠ none → cause ≠ none) := by
  unfold World.finalizeStep at h
  dsimp only at h
  split at h <;> cases h
  · exact ⟨_, _, _, _, rfl, .inr rfl, fun _ => Option.some_ne_none _⟩
  all_goals exact ⟨w.session.hangupCause, _, _, _, rfl, .inl rfl, id⟩

theorem callMove_effect (h : callMove cfg op w m = some w') : Effect cfg op w m w' := by
  cases m with
  | tick ms =>
      cases h
      exact .tick ms
  | control c =>
      cases h
      exact control_effect c
  | cancelAll =>
      cases h
      exact .cancelAll
  | cancelConsumer => cases h
  | dispatch => exact dispatch_effect h
  | dispatchLossy => exact dispatchLossy_effect h
  | asrResult text isFinal => exact asrResult_effect h
  | asrPumpEnd =>
      obtain ⟨active, rfl⟩ := of_guard h
      exact .asrPumpEnd active
  | evPump => exact evPump_effect h
  | monitorEnd =>
      obtain ⟨cancelled, rfl⟩ := of_guard h
      exact .monitorEnd cancelled
  | partialMonitor => exact partialMonitor_effect h
  | asrGet => exact asrGet_effect h
  | hangupWait => exact hangupWait_effect h
  | playEnd ok => exact playEnd_effect h
  | eagerSentence i s => exact eagerSentence_effect h
  | eagerEnd i error => exact eagerEnd_effect h
  | produceSentence s => exact produceSentence_effect h
  | replaySentence => exact replaySentence_effect h
  | generatorEnd error pick => exact generatorEnd_effect h
  | generatorError message => exact generatorError_effect h
  | producerPut => exact producerPut_effect h
  | producerEnd => exact producerEnd_effect h
  | firstAudio => exact firstAudio_effect h
  | fillerGate pick => exact fillerGate_effect h
  | fillerEnd ok => exact fillerEnd_effect h
  | taskEnd t =>
      obtain ⟨active, rfl⟩ := of_guard h
      exact .taskEnd active
  | edge m => exact edgeMessage_effect h
  | telephony e =>
      obtain ⟨client, rfl⟩ := of_guard h
      exact .telephony e client
  | finalize extract ok =>
      obtain ⟨cause, finalize, managed, history, rfl, -⟩ := finalizeStep_writes h
      exact .finalize h

end Engine
end IsalesEngine
