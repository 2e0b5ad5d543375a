import IsalesEngine.Engine.CallRule

/-!
Frame rules: an assertion that other tasks keep, and that does not speak about
what playback, a listening window, the telephony client or the cleanup writes,
survives them however they end.
-/
namespace IsalesEngine
open Asyncio Asyncio.Coro

variable {M : Machine sig World} {I : Op → World → Prop} {C E K : World → Prop} {w : World}
  {i : Nat}

/-- The rule of a playback: it is over, it was stopped, `main` was cancelled, or it failed. -/
theorem playChunks_wp {N : Bool → World → Prop} {R : Reply Unit → World → Prop}
    {site : PlaySite} {text : Text} {interruptible : Bool}
    (wait : (await .playback).wp M I R (w.startPlay site text interruptible))
    (over' : ∀ {w}, R (.ok ()) w → N true (w.clearPlay interruptible))
    (stopped : ∀ {w}, R (.error .cancelled) w → w.playCancelled = true →
      N false (w.clearPlay interruptible))
    (dropped : ∀ {w}, R (.error .cancelled) w → w.playCancelled = false →
      C (w.clearPlay interruptible))
    (failed : ∀ {e w}, R (.error (.error e)) w → E (w.clearPlay interruptible)) :
    (playChunks site text interruptible).wp M I (outcomes C E N) w := by
  refine wp_update_bind.mpr (wp.andFinally (P := outcomes
    (fun w => C (w.clearPlay interruptible)) (fun w => E (w.clearPlay interruptible))
    fun whole w => N whole (w.clearPlay interruptible)) ?_ ?_)
  · refine (wp_exceptCancelled _ _).mpr (wp.bind wait (fun _ _ => over') fun e w₁ post => ?_)
    cases e with
    | cancelled =>
        refine wp_read_bind.mpr ?_
        split
        · exact stopped post ‹_›
        · exact dropped post (Bool.eq_false_iff.mpr ‹_›)
    | error e => exact failed post
  · intro r w₁ post
    match r with
    | .ok _ | .error .cancelled | .error (.error _) => exact post

/-- A playback, from what it does to start and to end. -/
theorem playChunks_preserves {site : PlaySite} {text : Text} {interruptible : Bool}
    (wait : Preserves M I K (await .playback))
    (start : ∀ {w}, K w → K (w.startPlay site text interruptible))
    (clear : ∀ {w}, K w → K (w.clearPlay interruptible)) :
    Preserves M I K (playChunks site text interruptible) := by
  refine Preserves.bind (Preserves.update fun _ => start) fun _ => ?_
  refine Preserves.andFinally (Preserves.exceptCancelled ?_ ?_) (Preserves.update fun _ => clear)
  · exact wait.bind fun _ => Preserves.pure true
  · refine (Preserves.read _).bind fun cancelled => ?_
    split
    · exact Preserves.pure false
    · exact Preserves.raise .cancelled

/-- An assertion that survives every reap. -/
def Reaps (M : Machine sig World) (I : Op → World → Prop) (K : World → Prop) : Prop :=
  ∀ op : Op, op.isReap = true → Preserves M I K (await op)

namespace Reaps

theorem reapGate (reaps : Reaps M I K) (filler : ∀ {w f}, K w → K { w with filler := f }) :
    Keeps M I C K FillerManager.reapGate := by
  refine (Keeps.update fun _ => filler).bind fun _ => (Keeps.read _).bind fun _ => ?_
  exact Keeps.when (Keeps.suppressCancelled rfl (reaps .reapFillerGate rfl))

theorem stop (reaps : Reaps M I K) (filler : ∀ {w f}, K w → K { w with filler := f }) :
    Keeps M I C K FillerManager.stop := by
  refine (Keeps.update fun _ => filler).bind fun _ => (Keeps.read _).bind fun _ => ?_
  exact Keeps.when (Keeps.suppressCancelled rfl (reaps .reapFiller rfl))

theorem closeJob (reaps : Reaps M I K) (close : Keeps M I C K (await .closeSynth))
    (tasks : ∀ {w ts}, K w → K { w with turnTasks := ts }) (job : Text) :
    Keeps M I C K (closeJob job) := by
  refine Keeps.bind (Keeps.update fun _ => tasks) fun _ => ?_
  exact (Keeps.suppressCancelled rfl (reaps .reapSynth rfl)).bind fun _ => Keeps.suppress rfl close

end Reaps

namespace Waits
variable (waits : Waits M I C K)
include waits

theorem reapGate (filler : ∀ {w f}, K w → K { w with filler := f }) :
    Keeps M I C K FillerManager.reapGate := Reaps.reapGate waits.reap filler

theorem stop (filler : ∀ {w f}, K w → K { w with filler := f }) :
    Keeps M I C K FillerManager.stop := Reaps.stop waits.reap filler

end Waits

/-- An update of the streams, the pipe and the turn's tasks in the `finally` block of a streamed
reply. -/
structure ClosingStep (w w' : World) : Prop where
  played : w'.pipe.map Pipe.fullyPlayed = w.pipe.map Pipe.fullyPlayed
  frame : w' = { w with streams := w'.streams, pipe := w'.pipe, turnTasks := w'.turnTasks }

/-- The remainder of a reply that was cut is recorded. -/
def World.captured (text : Text) (w : World) : World :=
  { w.note (.captured text) with session := { w.session with
    interruptRemainingText := if text = [] then none else some text } }

/-- An assertion that survives the `finally` block of a streamed reply, unless it is cancelled; it
may speak about what the streams were built with. `filler` says whether the reply has one. -/
structure FinishFrame (M : Machine sig World) (I : Op → World → Prop) (C K : World → Prop)
    (filler : Bool) : Prop extends Helps M I C K where
  pipe : ∀ {w f}, (∀ p : Pipe, (f p).fullyPlayed = p.fullyPlayed ∧ (f p).stream = p.stream) →
    K w → K { w with pipe := w.pipe.map f }
  capture : ∀ {w₀ w text}, K w₀ → (w₀.pipe.any fun p => !p.fullyPlayed) = true → K w →
    K (w.captured text)
  reapGate : filler = true → Keeps M I C K FillerManager.reapGate
  stop : filler = true → Keeps M I C K FillerManager.stop

namespace FinishFrame
variable {filler : Bool} (frame : FinishFrame M I C K filler)
include frame

theorem whenFiller {x : Prog Unit}
    (body : filler = true → Keeps M I C K x) : Keeps M I C K (when filler x) := by
  cases filler with
  | true => exact body rfl
  | false => exact Keeps.pure ()

theorem closeJob (job : Text) : Keeps M I C K (closeJob job) :=
  Reaps.closeJob frame.reap (frame.wait .closeSynth rfl) frame.tasks job

theorem cancelProducer : Keeps M I C K PlayStreaming.cancelProducer := by
  refine Keeps.bind (Keeps.update fun _ => frame.pipe fun _ => ⟨rfl, rfl⟩) fun _ => ?_
  refine (Keeps.read _).bind fun _ => Keeps.when ?_
  exact Keeps.suppressCancelled rfl (frame.reap .reapProducer rfl)

theorem finish (i : Nat) : Keeps M I C K (PlayStreaming.finish i filler) := by
  intro w₀ holds
  have captures : ∀ captured, Keeps M I C K (when ((w₀.pipe.any fun p => !p.fullyPlayed) &&
      !(w₀.stream i).isRestructure) (PlayStreaming.captureRemainder captured)) := by
    intro captured
    cases cut : w₀.pipe.any fun p => !p.fullyPlayed with
    | false => exact Keeps.pure ()
    | true => exact Keeps.when (Keeps.update fun _ kept => frame.capture holds cut kept)
  refine wp_read_bind.mpr (wp_read_bind.mpr (Keeps.bind ?_ (fun _ => ?_) w₀ holds))
  · exact frame.whenFiller frame.reapGate
  refine frame.cancelProducer.bind fun _ => ?_
  refine (Keeps.forEach frame.closeJob _).bind fun _ => Keeps.bind ?_ fun queued => ?_
  · exact Keeps.act fun w => frame.pipe fun _ => ⟨rfl, rfl⟩
  · refine (Keeps.forEach frame.closeJob queued).bind fun _ => ?_
    refine (Keeps.read _).bind fun tail => (frame.cancelEager i).bind fun _ => ?_
    exact (frame.whenFiller frame.stop).bind fun _ => captures _

end FinishFrame

/-- An assertion that survives the `finally` block of a streamed reply, unless it is cancelled;
`filler` says whether the reply has one. -/
structure ClosingFrame (M : Machine sig World) (I : Op → World → Prop) (C K : World → Prop)
    (filler : Bool) : Prop extends Waits M I C K where
  step : ∀ {w w'}, ClosingStep w w' → K w → K w'
  capture : ∀ {w₀ w text}, K w₀ → (w₀.pipe.any fun p => !p.fullyPlayed) = true → K w →
    K (w.captured text)
  reapGate : filler = true → Keeps M I C K FillerManager.reapGate
  stop : filler = true → Keeps M I C K FillerManager.stop

namespace ClosingFrame
variable {filler : Bool}

theorem played_map {f : Pipe → Pipe} (kept : ∀ p, (f p).fullyPlayed = p.fullyPlayed) :
    ClosingStep w { w with pipe := w.pipe.map f } := by
  refine ⟨?_, rfl⟩
  show (w.pipe.map f).map Pipe.fullyPlayed = w.pipe.map Pipe.fullyPlayed
  rw [Option.map_map]
  exact congrArg (fun g => w.pipe.map g) (funext kept)

variable (frame : ClosingFrame M I C K filler)
include frame

theorem finishFrame : FinishFrame M I C K filler where
  toWaits := frame.toWaits
  stream _ _ _ := frame.step ⟨rfl, rfl⟩
  tasks := frame.step ⟨rfl, rfl⟩
  pipe kept := frame.step (played_map fun p => (kept p).1)
  capture := frame.capture
  reapGate := frame.reapGate
  stop := frame.stop

theorem finish (i : Nat) : Keeps M I C K (PlayStreaming.finish i filler) :=
  frame.finishFrame.finish i

end ClosingFrame

/-- The rule of one sentence: its audio is over, it was cut, or it failed. -/
theorem PlayStreaming.playJob_wp {F T S : World → Prop} {N : Bool → World → Prop}
    {job : Text}
    (chunks : (playChunks .sentence job true).wp M I
      (outcomes C F fun whole => if whole then T else S) w)
    (whole : ∀ {w}, T w → N true { w.note (.played job) with
      turnTasks := w.turnTasks.diff [.synth job]
      pipe := w.pipe.map fun p => { p with currentJob := none } })
    (cut : ∀ {w}, S w → N false { w.note (.cut job) with
      pipe := w.pipe.map fun p => { p with fullyPlayed := false } })
    (failed : ∀ {w error}, F w → N false (w.setStream i { w.stream i with
      result := { (w.stream i).result with error := error } })) :
    (PlayStreaming.playJob i job).wp M I (outcomes C E N) w := by
  have attempt : (exceptError (do
      let whole ← playChunks .sentence job true
      pure (some whole)) fun e => do
        recordPlaybackError i e
        pure none).wp M I (outcomes C E fun played : Option Bool => played.elim (N false)
          fun whole => if whole then T else S) w := by
    refine wp.exceptError (P := outcomes C F fun played : Option Bool => played.elim (N false)
      fun whole => if whole then T else S) (wp.seq chunks fun whole w₁ post => ?_)
      (fun _ _ post => post) (fun _ post => post) fun e w₁ post => ?_
    · cases whole with
      | true | false => exact post
    · exact failed post
  refine wp.seq attempt fun played w₁ post => ?_
  match played with
  | none => exact post
  | some true => exact whole post
  | some false => exact cut post

/-- The state in which the consumer finds itself when the queue has answered. -/
def Taken (holding : Text → World → Prop) (after : World → Prop) : Option Text → World → Prop
  | none, w => after w
  | some job, w => holding job { w with
      pipe := w.pipe.map fun p => { p with currentJob := some job } }

/-- The consumer loop as one rule: `between` two sentences, `holding` one, and `after` the loop; an
exception leaves `E`. -/
structure ConsumerRule (M : Machine sig World) (I : Op → World → Prop) (C E : World → Prop)
    (i : Nat) (filler : Bool) (between : World → Prop) (holding : Text → World → Prop)
    (after : World → Prop) : Prop where
  exhausted : ∀ {w}, between w →
    (await .outOfFuel).wp M I (outcomes C E fun _ => after) w
  get : ∀ {w}, between w →
    (await .jobGet).wp M I (outcomes C E (Taken holding after)) w
  reapGate : filler = true → ∀ job, Keeps M I C (holding job) FillerManager.reapGate
  stop : filler = true → ∀ job, Keeps M I C (holding job) FillerManager.stop
  failed : ∀ {job} w, holding job w → E w
  play : ∀ {job w}, holding job w → (PlayStreaming.playJob i job).wp M I
    (outcomes C E fun goOn => if goOn then between else after) w

/-- The consumer stops the filler at most once, before its first playback. -/
theorem ConsumerRule.consume_wp {filler : Bool} {between after : World → Prop}
    {holding : Text → World → Prop} (rule : ConsumerRule M I C E i filler between holding after)
    {first : Bool} (fuel : Nat) (own : first = true → filler = true) (here : between w) :
    (PlayStreaming.consume i first fuel).wp M I (outcomes C E fun _ => after) w := by
  induction fuel generalizing first w with
  | zero =>
      exact wp.seq (rule.exhausted here) fun impossible => nomatch (impossible : Empty)
  | succ fuel ih =>
      refine wp.seq (rule.get here) fun next w₁ taken => ?_
      match (next : Option Text), taken with
      | none, taken => exact taken
      | some job, taken =>
          refine wp_update_bind.mpr ?_
          have hush : Keeps M I C (holding job) (when first do
              FillerManager.reapGate
              FillerManager.stop) := by
            cases first with
            | true => exact (rule.reapGate (own rfl) job).bind fun _ => rule.stop (own rfl) job
            | false => exact Keeps.pure ()
          refine hush.seq taken rule.failed fun _ w₂ held => ?_
          refine wp.seq (rule.play held) fun goOn w₃ played => ?_
          cases goOn with
          | true => exact ih nofun played
          | false => exact played

def Mark.ofReply : Mark → Bool
  | .played _ | .cut _ => true
  | _ => false

/-- An update of the streams, the pipe and the turn's tasks that a streamed reply makes. -/
structure StreamStep (w w' : World) : Prop where
  history : w'.history = w.history ∨ ∃ m : Mark, m.ofReply = true ∧ w'.history = m :: w.history
  frame : w' = { w with
    streams := w'.streams, pipe := w'.pipe, turnTasks := w'.turnTasks, history := w'.history }

theorem ClosingStep.stream {w' : World} (step : ClosingStep w w') : StreamStep w w' := by
  rw [step.frame]
  exact ⟨.inl rfl, rfl⟩

/-- An assertion that survives every part of a streamed reply, unless it is cancelled. -/
structure StreamFrame (M : Machine sig World) (I : Op → World → Prop) (C K : World → Prop)
    (filler : Bool) : Prop extends Waits M I C K where
  step : ∀ {w w'}, StreamStep w w' → K w → K w'
  capture : ∀ {w text}, K w → K (w.captured text)
  filling : ∀ {w f}, filler = true → K w → K { w with filler := f }
  chunks : ∀ job, Keeps M I C K (playChunks .sentence job true)

namespace StreamFrame
variable {filler : Bool} (frame : StreamFrame M I C K filler)
include frame

theorem closing : ClosingFrame M I C K filler where
  toWaits := frame.toWaits
  step step := frame.step step.stream
  capture _ _ := frame.capture
  reapGate own := frame.toWaits.reapGate (frame.filling own)
  stop own := frame.toWaits.stop (frame.filling own)

/-- Updates of streams, of the pipe and of the turn's tasks. -/
theorem quiet {f : World → World} (same : ∀ w, f w = { w with
      streams := (f w).streams, pipe := (f w).pipe, turnTasks := (f w).turnTasks }) :
    Keeps M I C K (update f) := by
  refine Keeps.update fun w => frame.step ?_
  rw [same w]
  exact ⟨.inl rfl, rfl⟩

theorem note {m : Mark} (own : m.ofReply = true) : Keeps M I C K (update fun w => w.note m) :=
  Keeps.update fun _ => frame.step ⟨.inr ⟨m, own, rfl⟩, rfl⟩

theorem playJob (i : Nat) (job : Text) : Keeps M I C K (PlayStreaming.playJob i job) := by
  refine Keeps.bind (Keeps.exceptError ?_ fun e => ?_) fun played => ?_
  · exact (frame.chunks job).bind fun _ => Keeps.pure _
  · exact (frame.quiet fun _ => rfl).bind fun _ => Keeps.pure none
  · match played with
    | none => exact Keeps.pure false
    | some false =>
        exact (frame.note rfl).bind fun _ => (frame.quiet fun _ => rfl).bind fun _ =>
          Keeps.pure false
    | some true =>
        exact (frame.quiet fun _ => rfl).bind fun _ => (frame.note rfl).bind fun _ =>
          (frame.quiet fun _ => rfl).bind fun _ => Keeps.pure true

theorem consumeRule (i : Nat) : ConsumerRule M I C K i filler K (fun _ => K) K where
  exhausted holds := frame.wait .outOfFuel rfl _ holds
  get holds := by
    refine (frame.wait .jobGet rfl).last holds (fun _ h => h) fun next w kept => ?_
    match (next : Option Text) with
    | none => exact kept
    | some job => exact frame.step (w := w) ⟨.inl rfl, rfl⟩ kept
  reapGate own _ := frame.closing.reapGate own
  stop own _ := frame.closing.stop own
  failed _ holds := holds
  play holds := by
    refine (frame.playJob i _).last holds (fun _ h => h) fun goOn w kept => ?_
    split
    · exact kept
    · exact kept

/-- A cancel during the reply runs the `finally` block from what it leaves. -/
theorem playStreaming
    (dropped : ∀ w, C w → (PlayStreaming.finish i filler).wp M I (outcomes C K fun _ => C) w)
    (fillerDelayMs processingStart fuel : Nat) :
    Keeps M I C K (playStreaming i filler fillerDelayMs processingStart fuel) := by
  refine Keeps.bind ?_ fun _ => Keeps.bind ?_ fun _ => ?_
  · refine (frame.quiet fun _ => rfl).bind fun _ => ?_
    exact frame.closing.finishFrame.whenFiller fun own => Keeps.update fun _ => frame.filling own
  · refine Keeps.andFinally ?_ (frame.closing.finish i) dropped
    exact fun w holds => (frame.consumeRule i).consume_wp fuel id holds
  · exact Keeps.act fun w => frame.step ⟨.inl rfl, rfl⟩

omit frame in
/-- An assertion that survives a cancel as well. -/
theorem preserves (frame : StreamFrame M I K K filler) (i fillerDelayMs processingStart : Nat)
    (fuel : Nat) :
    Preserves M I K (IsalesEngine.playStreaming i filler fillerDelayMs processingStart fuel) :=
  (frame.playStreaming (frame.closing.finish i) fillerDelayMs processingStart fuel).preserves

end StreamFrame

def Mark.ofPlayback : Mark → Bool
  | .playback _ | .played _ | .cut _ | .captured _ => true
  | _ => false

/-- Any update that playback makes. -/
structure PlaybackStep (w w' : World) : Prop where
  session : w'.session = { w.session with
    currentSpeakingTask := w'.session.currentSpeakingTask
    interruptRemainingText := w'.session.interruptRemainingText }
  phone : w'.phone = { w.phone with outboundPump := w'.phone.outboundPump }
  history : w'.history = w.history ∨ ∃ m : Mark, m.ofPlayback = true ∧ w'.history = m :: w.history
  frame : w' = { w with
    session := w'.session, phone := w'.phone, play := w'.play, nextTaskId := w'.nextTaskId
    streams := w'.streams, pipe := w'.pipe, filler := w'.filler, turnTasks := w'.turnTasks
    history := w'.history }

/-- An assertion that does not speak about what playback writes. -/
structure PlaybackFrame (M : Machine sig World) (I : Op → World → Prop) (K : World → Prop) :
    Prop where
  stable : M.Stable K
  assertion : ∀ op w, K w → I op w
  step : ∀ {w w'}, PlaybackStep w w' → K w → K w'

namespace PlaybackFrame
variable (frame : PlaybackFrame M I K)
include frame

theorem wait (op : Op) : Preserves M I K (await op) :=
  Preserves.wait frame.stable frame.assertion op

theorem playChunks (site : PlaySite) (text : Text) (interruptible : Bool) :
    Preserves M I K (playChunks site text interruptible) :=
  playChunks_preserves (frame.wait .playback)
    (frame.step ⟨rfl, rfl, .inr ⟨.playback site, rfl, rfl⟩, rfl⟩)
    (frame.step ⟨rfl, rfl, .inl rfl, rfl⟩)

theorem playTts (site : PlaySite) (text : Text) (interruptible : Bool) :
    Preserves M I K (playTts site text interruptible) :=
  (frame.playChunks site text interruptible).bind fun _ => Preserves.pure ()

theorem filler {f : Filler} (holds : K w) : K { w with filler := f } :=
  frame.step ⟨rfl, rfl, .inl rfl, rfl⟩ holds

theorem waits : Waits M I K K := .of_stable frame.stable frame.assertion fun _ h => h

theorem stream (filler : Bool) : StreamFrame M I K K filler where
  toWaits := frame.waits
  step := by
    intro w w' step holds
    refine frame.step ⟨?_, ?_, ?_, ?_⟩ holds
    · rw [step.frame]
    · rw [step.frame]
    · refine step.history.imp_right ?_
      rintro ⟨m, own, same⟩
      refine ⟨m, ?_, same⟩
      cases m <;> first | rfl | cases own
    · rw [step.frame]
  capture := frame.step ⟨rfl, rfl, .inr ⟨.captured _, rfl, rfl⟩, rfl⟩
  filling _ := frame.filler
  chunks job := (frame.playChunks .sentence job true).keeps fun _ h => h

theorem playStreaming (i : Nat) (filler : Bool) (fillerDelayMs processingStart fuel : Nat) :
    Preserves M I K (playStreaming i filler fillerDelayMs processingStart fuel) :=
  (frame.stream filler).preserves i fillerDelayMs processingStart fuel

end PlaybackFrame

theorem caused_playback (stable : M.Stable fun w => w.session.hangupCause ≠ none) :
    PlaybackFrame M anything fun w => w.session.hangupCause ≠ none := by
  refine ⟨stable, fun _ _ _ => trivial, ?_⟩
  intro w w' step caused
  rw [step.session]
  exact caused

/-- An assertion that every update of a listening window keeps; a cancel leaves `C`. -/
structure WindowFrame (M : Machine sig World) (I : Op → World → Prop) (C K : World → Prop) : Prop
    extends Waits M I C K where
  listening : ∀ {w}, K w → K ((w.note (.listening w.session.interruptionSignaled)).enter .opened)
  batch : ∀ {w finals o late e}, K w → K ((w.note (.batch finals o late)).enter e)
  listen : ∀ {w l}, K w → K { w with listen := l }
  dropped : ∀ {w l}, C w → C { w with listen := l }

namespace WindowFrame
variable (frame : WindowFrame M I C K)
include frame

theorem closeWindow (finals : List AsrResult) (o : Outcome) :
    Keeps M I C K (AwaitUser.closeWindow finals o) :=
  (Keeps.update fun _ h => frame.listen (frame.batch h)).bind fun _ => Keeps.pure o

theorem cancelAsrGet : Keeps M I C K AwaitUser.cancelAsrGet := Keeps.update fun _ => frame.listen

theorem cancelHangupWait : Keeps M I C K AwaitUser.cancelHangupWait :=
  Keeps.update fun _ => frame.listen

theorem reapAsrGet : Keeps M I C K (suppress isAny (await .reapAsrGet)) :=
  Keeps.suppressCancelled rfl (frame.reap .reapAsrGet rfl)

theorem reapHangupWait : Keeps M I C K (suppress isAny (await .reapHangupWait)) :=
  Keeps.suppressCancelled rfl (frame.reap .reapHangupWait rfl)

theorem onHangup : Keeps M I C K AwaitUser.onHangup := by
  refine (Keeps.read _).bind fun got => frame.cancelAsrGet.bind fun _ => ?_
  exact (Keeps.when frame.reapAsrGet).bind fun _ => frame.closeWindow _ _

theorem onFinal (cfg : RuntimeConfig) (first : AsrResult) :
    Keeps M I C K (AwaitUser.onFinal cfg first) := by
  refine frame.cancelHangupWait.bind fun _ => frame.reapHangupWait.bind fun _ => ?_
  exact (Keeps.act fun _ => frame.listen).bind fun backlog => frame.closeWindow _ _

theorem onSilence (cfg : RuntimeConfig) : Keeps M I C K (AwaitUser.onSilence cfg) := by
  refine frame.cancelAsrGet.bind fun _ => frame.cancelHangupWait.bind fun _ => ?_
  refine frame.reapAsrGet.bind fun _ => frame.reapHangupWait.bind fun _ => ?_
  refine (Keeps.read _).bind fun decision => ?_
  cases decision with
  | wait | activate phrase | hangup phrase => exact frame.closeWindow _ _

theorem awaitUserOrSilence (cfg : RuntimeConfig) : Keeps M I C K (awaitUserOrSilence cfg) := by
  refine (Keeps.update fun _ => frame.listening).bind fun _ => ?_
  refine (Keeps.read _).bind fun hungUp => ?_
  split
  · exact frame.closeWindow _ _
  · refine (Keeps.update fun _ => frame.listen).bind fun _ => (Keeps.read _).bind ?_
    intro timeout
    refine Keeps.bind (Keeps.exceptCancelled (frame.wait (.listen timeout) rfl) ?_) fun _ => ?_
    · intro w dropped
      exact frame.dropped (frame.dropped dropped)
    · refine (Keeps.read _).bind fun seen => (Keeps.read _).bind fun got => ?_
      split
      · exact frame.onHangup
      · cases got with
        | none => exact frame.onSilence cfg
        | some first => exact frame.onFinal cfg first

end WindowFrame

/-- An assertion that does not depend on the queues and pumps of the telephony client. -/
structure LineFrame (M : Machine sig World) (I : Op → World → Prop) (C K : World → Prop) : Prop
    extends Waits M I C K where
  phone : ∀ {w p}, K w → p.line = w.phone.line → K { w with phone := p }

namespace LineFrame
variable (frame : LineFrame M I C K)
include frame

theorem putEvent (e : Option TelephonyEvent) : Keeps M I C K (Telephony.putEvent e) :=
  Keeps.update fun _ h => frame.phone h rfl

theorem stopOutboundPump : Keeps M I C K Telephony.stopOutboundPump := by
  refine (Keeps.read _).bind fun pump => Keeps.when (Keeps.bind ?_ fun _ => ?_)
  · exact Keeps.update fun _ h => frame.phone h rfl
  · exact Keeps.suppressCancelled rfl (frame.reap .reapOutboundPump rfl)

theorem closeIterators : Keeps M I C K Telephony.closeIterators := by
  refine (Keeps.read _).bind fun closed => Keeps.when (Keeps.bind ?_ fun _ => ?_)
  · exact Keeps.update fun _ h => frame.phone h rfl
  refine (frame.putEvent none).bind fun _ => ?_
  refine frame.stopOutboundPump.bind fun _ => (Keeps.read _).bind fun joined => ?_
  refine Keeps.bind (Keeps.when ?_) fun _ => Keeps.exceptError ?_ fun e => ?_
  · exact (Keeps.suppress rfl (frame.wait .leaveRtc rfl)).bind fun _ =>
      Keeps.update fun _ h => frame.phone h rfl
  · exact frame.wait .awaitInboundPump rfl
  · split
    · exact Keeps.suppressCancelled rfl (frame.reap .reapInboundPump rfl)
    · exact Keeps.raise _

end LineFrame

/-- An assertion that every update of the telephony client keeps. -/
structure PhoneFrame (M : Machine sig World) (I : Op → World → Prop) (C K : World → Prop) : Prop
    extends Waits M I C K where
  phone : ∀ {w p}, K w → K { w with phone := p }

namespace PhoneFrame
variable (frame : PhoneFrame M I C K)
include frame

theorem ext (call : Ext) : Keeps M I C K (ext call) := frame.wait (.ext call) rfl

theorem line : LineFrame M I C K := ⟨frame.toWaits, fun h _ => frame.phone h⟩

theorem send (command : EdgeCommand) : Keeps M I C K (Telephony.send command) :=
  (frame.wait (.sendToEdge command) rfl).bind fun _ => Keeps.update fun _ => frame.phone

theorem purgeCall : Keeps M I C K Telephony.purgeCall := Keeps.update fun _ => frame.phone

theorem rtcDial : Keeps M I C K Telephony.rtcDial := by
  refine (Keeps.read _).bind fun active => (Keeps.when (Keeps.raise _)).bind ?_
  intro _
  refine (frame.ext .signForCall).bind fun _ => (frame.wait .joinRtc rfl).bind fun _ => ?_
  refine (Keeps.update fun _ => frame.phone).bind fun _ => ?_
  refine (frame.ext .resolveEdge).bind fun _ => ?_
  refine (Keeps.update fun _ => frame.phone).bind fun _ => ?_
  refine (frame.ext .registerCall).bind fun _ => ?_
  refine (Keeps.update fun _ => frame.phone).bind fun _ => ?_
  refine (frame.send .dial).exceptError fun e => Keeps.bind (Keeps.when ?_) fun _ => ?_
  · exact (frame.line.putEvent _).bind fun _ => frame.line.closeIterators.bind fun _ =>
      frame.purgeCall
  · exact Keeps.raise _

theorem rtcHangup : Keeps M I C K Telephony.rtcHangup := by
  refine (Keeps.read _).bind fun active => Keeps.when ?_
  refine (Keeps.suppress rfl (frame.send .cancel)).bind fun _ => ?_
  exact (frame.line.putEvent _).bind fun _ => frame.line.closeIterators.bind fun _ =>
    frame.purgeCall

theorem dial : Keeps M I C K Telephony.dial := by
  refine (Keeps.read _).bind fun client => ?_
  cases client with
  | rtc => exact frame.rtcDial
  | other => exact frame.wait .clientDial rfl

theorem hangup : Keeps M I C K Telephony.hangup := by
  refine (Keeps.read _).bind fun client => ?_
  cases client with
  | rtc => exact frame.rtcHangup
  | other => exact frame.wait .clientHangup rfl

theorem attemptHangup (note : ∀ {w}, K w → K (w.note .attemptHangup)) :
    Keeps M I C K Telephony.attemptHangup :=
  (Keeps.update fun _ => note).bind fun _ => frame.hangup.exceptError fun _ => Keeps.pure ()

end PhoneFrame

/-- The wait for the callee. -/
theorem Waits.awaitAnswer (waits : Waits M I C K) :
    Keeps M I C K (exceptError awaitConnected fun e =>
      if e = .timeout then pure false else raise (.error e)) := by
  refine Keeps.exceptError ?_ fun e => ?_
  · refine (waits.ext .events).bind fun _ => (waits.wait .nextEvent rfl).bind fun event => ?_
    match (event : Option TelephonyEvent) with
    | none => exact Keeps.pure false
    | some .connected => exact Keeps.pure true
    | some .localHangup | some .remoteHangup | some .deviceError => exact Keeps.pure false
  · split
    · exact Keeps.pure false
    · exact Keeps.raise _

theorem PhoneFrame.dialAndWaitConnected (frame : PhoneFrame M I C K) :
    Keeps M I C K dialAndWaitConnected :=
  frame.dial.bind fun _ => frame.awaitAnswer

/-- An assertion that every task and every update of the cleanup keeps. -/
structure CleanupFrame (M : Machine sig World) (I : Op → World → Prop) (K : World → Prop) :
    Prop where
  stable : M.Stable K
  assertion : ∀ op w, K w → I op w
  listen : ∀ {w l}, K w → K { w with listen := l }
  bus : ∀ {w b}, K w → K { w with bus := b }
  deliver : ∀ {w e}, K w → K (w.deliver .closeBus e)

theorem RunSession.unfailing_onException : Unfailing M RunSession.onException := by
  refine (Unfailing.read _).bind fun _ => (Unfailing.when (Unfailing.update _)).bind fun _ => ?_
  exact (Unfailing.update _).bind fun _ => Unfailing.update _

namespace CleanupFrame
variable (frame : CleanupFrame M I K)
include frame

theorem delivered (events : List BusEvent) (holds : K w) :
    K (events.foldl (World.deliver .closeBus) w) := by
  induction events generalizing w with
  | nil => exact holds
  | cons e events ih => exact ih (frame.deliver holds)

theorem cleanup : Preserves M I K RunSession.cleanup := by
  have wait := Preserves.wait frame.stable frame.assertion
  refine (Preserves.read _).bind fun pumps => Preserves.bind (Preserves.when ?_) fun _ => ?_
  · exact (Preserves.update fun _ => frame.listen).bind fun _ => wait .stopPumps
  · refine (Preserves.read _).bind fun closed => Preserves.when ?_
    refine Preserves.bind (Preserves.update fun w holds => ?_) fun _ => wait .closeBus
    exact frame.bus (frame.delivered _ (frame.bus holds))

end CleanupFrame
end IsalesEngine
