import IsalesEngine.Engine.Endings
import IsalesEngine.Engine.Quiet

/-!
Whose barge-in stops a turn. The monitor latches an interruption while a phrase
plays or a turn is processed, and whoever waits for the phrase or the turn takes
it off again. Two phrases are played by code that does not, and a sentence that
has just ended by itself is taken for one that was not interrupted: a trigger at
these moments stays latched and stops the next turn. At all others each turn is
stopped by its own barge-in only.
-/
namespace IsalesEngine
open Asyncio Asyncio.Coro

/-- The monitor has triggered since the turn began, while it was processed. -/
def triggeredInTurn : List Mark → Bool
  | [] => false
  | .turn :: _ => false
  | .trigger true :: _ => true
  | _ :: h => triggeredInTurn h

/-- Nothing is latched when a window opens, and a turn is dropped for its own barge-in. -/
def Justified : Mark → List Mark → Prop
  | .listening signaled, _ => signaled = false
  | .abort, older => triggeredInTurn older = true
  | _, _ => True

/-- Every window and every dropped turn so far was justified. -/
def Just (h : List Mark) : Prop := EachMark Justified h

/-- The playback is one whose interruption nobody takes off. -/
def PlayTask.deaf (p : PlayTask) : Bool :=
  p.site = .silenceActivation || p.site = .cappedDefault ||
    (p.site = .sentence && (p.status = .done || p.status = .failed))

/-- The monitor does not trigger on a playback whose interruption nobody takes off. -/
def triggerNoticed (cfg : RuntimeConfig) (_ : Op) (a : Action sig Move) (w : World) : Bool :=
  match a with
  | .move .partialMonitor => !(Engine.triggers cfg w && w.play.any PlayTask.deaf)
  | _ => true

/-- The marks that need no justification. -/
def Mark.isPlain : Mark → Bool
  | .listening _ | .abort => false
  | _ => true

section History
variable {h h' : List Mark} {m : Mark}

theorem Just.mark (just : Just h) (plain : m.isPlain = true) : Just (m :: h) := by
  refine ⟨?_, just⟩
  cases m <;> trivial

theorem Just.step (just : Just h) (step : HistoryStep h h') : Just h' := by
  refine step.induct just fun m h own just => just.mark ?_
  cases m <;> first | rfl | cases own

theorem triggeredInTurn_cons (triggered : triggeredInTurn h = true) (within : m ≠ .turn) :
    triggeredInTurn (m :: h) = true := by
  cases m with
  | turn => exact absurd rfl within
  | trigger b => cases b <;> first | rfl | exact triggered
  | _ => exact triggered

end History

namespace Interruption
variable {cfg : RuntimeConfig} {w w' : World} {s : CallSession} {h h' : List Mark} {m : Mark}
  {site : PlaySite}

abbrev machine (cfg : RuntimeConfig) : Machine sig World :=
  (engine cfg).restrict (triggerNoticed cfg)

/-- What holds at every wait. -/
def always (_ : Op) (w : World) : Prop := Just w.history

/-- After a cancel. -/
def dropped (w : World) : Prop := Just w.history

/-- After a reply or a phrase that may have been interrupted. -/
structure Loose (s : CallSession) (h : List Mark) : Prop where
  hushed : Hushed s
  just : Just h

/-- Between two windows: nothing is latched. -/
structure Live (s : CallSession) (h : List Mark) : Prop extends Loose s h where
  clear : s.interruptionSignaled = false

/-- While a turn is processed, and when it was; what is latched is this turn's. -/
structure Claimed (processing : Bool) (s : CallSession) (h : List Mark) : Prop where
  speaking : s.currentSpeakingTask = none
  processing : s.inProcessingTurn = processing
  just : Just h
  own : s.interruptionSignaled = true → triggeredInTurn h = true

/-- While a turn is dropped. -/
structure Aborting (s : CallSession) (h : List Mark) : Prop extends Loose s h where
  triggered : triggeredInTurn h = true

abbrev loose (w : World) : Prop := Loose w.session w.history
abbrev live (w : World) : Prop := Live w.session w.history
abbrev early (w : World) : Prop := live w ∧ w.listen.partialMonitor = .absent
abbrev claimed (processing : Bool) (w : World) : Prop := Claimed processing w.session w.history
abbrev aborting (w : World) : Prop := Aborting w.session w.history

/-- The session agrees on what the monitor reads and writes. -/
structure SameFlags (s s' : CallSession) : Prop where
  speaking : s'.currentSpeakingTask = s.currentSpeakingTask
  processing : s'.inProcessingTurn = s.inProcessingTurn
  signaled : s'.interruptionSignaled = s.interruptionSignaled

/-- An assertion about the monitor's flags and the history that plain marks keep. -/
structure Steady (P : CallSession → List Mark → Prop) : Prop where
  flags : ∀ {s s' h}, SameFlags s s' → P s h → P s' h
  mark : ∀ {s h m}, m.isPlain = true → m ≠ .turn → P s h → P s (m :: h)
  just : ∀ {s h}, P s h → Just h
  trigger : ∀ {s s' h r}, P s h → (s.inProcessingTurn || s.currentSpeakingTask.isSome) = true →
    s'.currentSpeakingTask = s.currentSpeakingTask → s'.inProcessingTurn = s.inProcessingTurn →
    P s' (.trigger s.inProcessingTurn :: .evaluated r :: h)

theorem Loose.congr {s' : CallSession} (loose : Loose s h) (same : SameFlags s s') : Loose s' h :=
  ⟨⟨same.speaking.trans loose.hushed.speaking, same.processing.trans loose.hushed.processing⟩,
    loose.just⟩

theorem Loose.mark (loose : Loose s h) (plain : m.isPlain = true) : Loose s (m :: h) :=
  ⟨loose.hushed, loose.just.mark plain⟩

theorem Loose.idle (loose : Loose s h) :
    (s.inProcessingTurn || s.currentSpeakingTask.isSome) = false := by
  simp [loose.hushed.speaking, loose.hushed.processing]

theorem loose_steady : Steady Loose where
  flags same loose := loose.congr same
  mark plain _ loose := loose.mark plain
  just loose := loose.just
  trigger loose counts := by
    rw [loose.idle] at counts
    cases counts

theorem live_steady : Steady Live where
  flags same live := ⟨live.toLoose.congr same, same.signaled.trans live.clear⟩
  mark plain _ live := ⟨live.toLoose.mark plain, live.clear⟩
  just live := live.just
  trigger live counts := by
    rw [live.toLoose.idle] at counts
    cases counts

theorem aborting_steady : Steady Aborting where
  flags same aborting := ⟨aborting.toLoose.congr same, aborting.triggered⟩
  mark plain within aborting :=
    ⟨aborting.toLoose.mark plain, triggeredInTurn_cons aborting.triggered within⟩
  just aborting := aborting.just
  trigger aborting counts := by
    rw [aborting.toLoose.idle] at counts
    cases counts

theorem claimed_steady (processing : Bool) : Steady (Claimed processing) where
  flags same claimed := ⟨same.speaking.trans claimed.speaking,
    same.processing.trans claimed.processing, claimed.just, fun signaled =>
      claimed.own (same.signaled ▸ signaled)⟩
  mark plain within claimed := ⟨claimed.speaking, claimed.processing, claimed.just.mark plain,
    fun signaled => triggeredInTurn_cons (claimed.own signaled) within⟩
  just claimed := claimed.just
  trigger claimed counts speaking processing := by
    rw [claimed.speaking, Option.isSome_none, Bool.or_false] at counts
    refine ⟨speaking.trans claimed.speaking, processing.trans claimed.processing,
      (claimed.just.mark rfl).mark rfl, fun _ => ?_⟩
    rw [counts]
    rfl

section Steady
variable {P : CallSession → List Mark → Prop}

namespace Steady
variable (steady : Steady P)
include steady

theorem step (holds : P s h) (step : HistoryStep h h') : P s h' := by
  refine step.induct holds fun m h own holds => steady.mark ?_ ?_ holds
  · cases m <;> first | rfl | cases own
  · rintro rfl
    cases own

theorem move {op : Op} {m : Move} (holds : P w.session w.history)
    (moved : Engine.callMove cfg op w m = some w') : P w'.session w'.history := by
  have owned := Engine.callMove_mainOwned moved
  obtain signaled | ⟨-, triggers, -, ⟨r, history⟩, -⟩ := Engine.callMove_signal moved
  · exact steady.step (steady.flags ⟨owned.speaking, owned.processing, signaled⟩ holds)
      (Engine.callMove_history moved)
  · rw [history]
    refine steady.trigger holds ?_ owned.speaking owned.processing
    simp only [Engine.triggers, World.partialCounts, Bool.and_eq_true] at triggers
    exact triggers.1.2.1

theorem stable : (machine cfg).Stable fun w => P w.session w.history := by
  refine Machine.Stable.restrict (Engine.stable_of ?_ ?_ ?_) _
  · intro op m w w' holds moved
    exact steady.move holds moved
  · intro w holds
    exact steady.mark rfl nofun holds
  · intro w w' holds frame
    rw [frame.session]
    exact frame.noted holds (steady.mark rfl nofun holds) (steady.mark rfl nofun holds)
      (steady.mark rfl nofun holds)

theorem waits : Waits (machine cfg) always dropped fun w => P w.session w.history :=
  .of_stable steady.stable (fun _ _ => steady.just) fun _ => steady.just

theorem rests : Rests (machine cfg) always dropped fun w => P w.session w.history := by
  refine .of steady.waits fun kept holds => ?_
  have same := kept.session
  rw [kept.frame]
  exact steady.flags ⟨same.speaking, same.processing, same.signaled⟩ holds

end Steady

end Steady

theorem absent_stable : (machine cfg).Stable fun w => w.listen.partialMonitor = .absent := by
  refine Machine.Stable.restrict (Engine.stable_of ?_ ?_ ?_) _
  · intro op m w w' absent moved
    exact Engine.callMove_monitor moved absent
  · intro w absent
    exact absent
  · intro w w' absent frame
    rw [frame.listen]
    exact absent

theorem early_rests : Rests (machine cfg) always dropped early := by
  have stable : (machine cfg).Stable early := live_steady.stable.and absent_stable
  refine .of (.of_stable stable (fun _ _ h => h.1.just) fun _ h => h.1.just) ?_
  intro w w' kept early
  have live : Rests (machine cfg) always dropped live := live_steady.rests
  refine ⟨live.bookkeeping kept early.1, ?_⟩
  rw [kept.frame]
  exact early.2

section Playback

/-- The sites whose interruption is taken off, or at which there is none. -/
def heeds : PlaySite → Bool
  | .greeting | .silenceActivation | .cappedDefault | .sentence => true
  | _ => false

def told (p : PlayTask) : Bool := p.status = .cancelling || p.status = .cancelled

/-- A phrase plays and may be interrupted; only a sentence is, and then it was told to stop. -/
structure Sounding (site : PlaySite) (w : World) : Prop where
  speaking : Speaking true w.session w.play
  just : Just w.history
  here : w.play.map PlayTask.site = some site
  absent : site = .greeting → w.listen.partialMonitor = .absent
  told : w.session.interruptionSignaled = true → site = .sentence ∧ w.play.any told = true

theorem sounding_start (text : Text) (live : live w)
    (absent : site = .greeting → w.listen.partialMonitor = .absent) :
    Sounding site (w.startPlay site text true) := by
  refine ⟨⟨rfl, live.hushed.processing⟩, live.just.mark rfl, rfl, absent, fun signaled => ?_⟩
  rw [show (w.startPlay site text true).session.interruptionSignaled =
    w.session.interruptionSignaled from rfl, live.clear] at signaled
  cases signaled

theorem told_step {play play' : Option PlayTask} (step : PlayStep play play')
    (stopped : play.any told = true) : play'.any told = true := by
  cases play with
  | none => cases stopped
  | some p =>
      obtain ⟨p', rfl, -, kept⟩ := step.stopped
      simp only [Option.any_some, told, Bool.or_eq_true, decide_eq_true_eq] at stopped ⊢
      exact kept stopped

theorem site_step {play play' : Option PlayTask} (step : PlayStep play play')
    (here : play.map PlayTask.site = some site) : play'.map PlayTask.site = some site := by
  obtain ⟨p, rfl, rfl⟩ := Option.map_eq_some_iff.mp here
  obtain ⟨p', rfl, same, -⟩ := step.stopped
  exact congrArg some same

/-- A trigger on a phrase that is heeded finds a sentence that still plays, and stops it. -/
theorem sounding_trigger (heeded : heeds site = true) (sounding : Sounding site w) {op : Op}
    (noticed : triggerNoticed cfg op (.move .partialMonitor) w = true)
    (triggers : Engine.triggers cfg w = true) :
    site = .sentence ∧ (w.play.map PlayTask.cancel).any told = true := by
  obtain ⟨p, playing, rfl⟩ := Option.map_eq_some_iff.mp sounding.here
  have deaf : p.deaf = false := by simpa [triggerNoticed, triggers, playing] using noticed
  have running : w.listen.partialMonitor = .running := by
    simp only [Engine.triggers, Bool.and_eq_true, decide_eq_true_eq] at triggers
    exact triggers.1.1
  have sentence : p.site = .sentence := by
    cases site : p.site with
    | sentence => rfl
    | greeting =>
        rw [sounding.absent site] at running
        cases running
    | silenceActivation | cappedDefault => simp [PlayTask.deaf, site] at deaf
    | _ => simp [heeds, site] at heeded
  refine ⟨sentence, ?_⟩
  obtain ⟨id, site, text, status⟩ := p
  cases status <;> simp_all [PlayTask.deaf, PlayTask.cancel, told, PlayStatus.isDone]

theorem sounding_stable (heeded : heeds site = true) : (machine cfg).Stable (Sounding site) where
  move {op m w w'} sounding moved := by
    obtain ⟨allowed, raw⟩ := Machine.restrict_move_some moved
    have speaking := Quiet.speaking_stable.move sounding.speaking moved
    have absent := fun greeting => absent_stable.move (sounding.absent greeting) moved
    obtain called | rfl := Engine.move_cases raw
    · have played := Engine.callMove_playStep called
      refine ⟨speaking, sounding.just.step (Engine.callMove_history called),
        site_step played sounding.here, absent, fun signaled => ?_⟩
      obtain same | ⟨rfl, triggers, -, -, play⟩ := Engine.callMove_signal called
      · obtain ⟨sentence, stopped⟩ := sounding.told (same ▸ signaled)
        exact ⟨sentence, told_step played stopped⟩
      · have own : w.session.currentSpeakingTask = w.play.map PlayTask.id :=
          sounding.speaking.speaking
        rw [play, if_pos own]
        exact sounding_trigger heeded sounding allowed triggers
    · exact ⟨speaking, sounding.just.mark rfl, sounding.here, absent, sounding.told⟩
  reply {op r w w'} sounding replied := by
    have frame := Engine.reply_frame (Machine.restrict_reply_some replied).2
    have just : Just w'.history := by
      have just := sounding.just
      exact frame.noted just (just.mark rfl) (just.mark rfl) (just.mark rfl)
    refine ⟨?_, just, ?_, ?_, ?_⟩
    · rw [frame.session, frame.play]
      exact sounding.speaking
    · rw [frame.play]
      exact sounding.here
    · rw [frame.listen]
      exact sounding.absent
    · rw [frame.session, frame.play]
      exact sounding.told

/-- A playback that ends by itself was not interrupted. -/
theorem sounding_over {r : Reply Unit} (sounding : Sounding site w)
    (replied : Engine.replyPlayback w r = some w') (whole : r ≠ .error .cancelled) :
    w'.session.interruptionSignaled = false := by
  rw [(Engine.replyPlayback_resumed replied).frame.session]
  by_contra signaled
  obtain ⟨-, stopped⟩ := sounding.told (by simpa using signaled)
  obtain ⟨p, playing, -⟩ := Option.map_eq_some_iff.mp sounding.here
  simp only [playing, Option.any_some, told, Bool.or_eq_true, decide_eq_true_eq] at stopped
  match r with
  | .ok _ =>
      simp only [Engine.replyPlayback, playing, Option.ite_none_right_eq_some] at replied
      grind
  | .error .cancelled => exact whole rfl
  | .error (.error _) =>
      simp only [Engine.replyPlayback, playing, Option.ite_none_right_eq_some] at replied
      grind

theorem sounding_wp (heeded : heeds site = true) (sounding : Sounding site w) :
    (await .playback).wp (machine cfg) always (fun r w => Sounding site w ∧
      (r ≠ .error .cancelled → w.session.interruptionSignaled = false)) w := by
  refine wp_wait.mpr ⟨sounding.just, fun w₁ w₂ r steps replied => ?_⟩
  have sounding₁ := (sounding_stable heeded).steps steps sounding
  refine ⟨(sounding_stable heeded).reply sounding₁ replied, fun whole => ?_⟩
  exact sounding_over sounding₁ (Machine.restrict_reply_some replied).2 whole

theorem Sounding.loose (sounding : Sounding site w) : loose (w.clearPlay true) :=
  ⟨Quiet.clearPlay_hushed sounding.speaking, sounding.just⟩

theorem Sounding.live (sounding : Sounding site w)
    (clear : w.session.interruptionSignaled = false) : live (w.clearPlay true) :=
  ⟨sounding.loose, clear⟩

/-- A phrase at which no interruption is latched. -/
theorem phrase_wp (site : PlaySite) {text : Text} (heeded : heeds site = true)
    (other : site ≠ .sentence) (live : live w)
    (absent : site = .greeting → w.listen.partialMonitor = .absent) :
    (playTts site text).wp (machine cfg) always (outcomes dropped loose
      fun _ => Interruption.live) w := by
  have clear : ∀ {w}, Sounding site w → w.session.interruptionSignaled = false := by
    intro w sounding
    by_contra signaled
    exact other (sounding.told (by simpa using signaled)).1
  refine wp.seq (L := fun _ => Interruption.live) ?_ fun _ _ live => live
  refine playChunks_wp (sounding_wp heeded (sounding_start text live absent)) ?_ ?_ ?_ ?_
  · exact fun post => post.1.live (clear post.1)
  · exact fun post _ => post.1.live (clear post.1)
  · exact fun post _ => post.1.just
  · exact fun post => post.1.loose

/-- A phrase that cannot be interrupted. -/
theorem cue_preserves (site : PlaySite) (text : Text) :
    Preserves (machine cfg) always live (playTts site text false) := by
  refine Preserves.bind (playChunks_preserves ?_ ?_ ?_) fun _ => Preserves.pure ()
  · exact Preserves.wait live_steady.stable (fun _ _ live => live.just) .playback
  · exact fun live => live_steady.mark rfl nofun (live_steady.flags ⟨rfl, rfl, rfl⟩ live)
  · exact fun live => live_steady.flags ⟨by simp, rfl, rfl⟩ live

theorem just_playback : PlaybackFrame (machine cfg) always dropped := by
  have stable : (machine cfg).Stable dropped := by
    refine Machine.Stable.restrict (Engine.stable_of ?_ ?_ ?_) _
    · intro op m w w' just moved
      exact Just.step just (Engine.callMove_history moved)
    · intro w just
      exact Just.mark just rfl
    · intro w w' just frame
      unfold dropped
      exact frame.noted just (Just.mark just rfl) (Just.mark just rfl) (Just.mark just rfl)
  refine ⟨stable, fun _ _ h => h, ?_⟩
  intro w w' step just
  unfold dropped
  obtain same | ⟨m, own, same⟩ := step.history
  · exact same ▸ just
  · refine same ▸ Just.mark just ?_
    cases m <;> first | rfl | cases own

/-- The last phrase of a call may be interrupted: no window follows. -/
theorem last_phrase (site : PlaySite) (text : Text) (interruptible : Bool) :
    Keeps (machine cfg) always dropped loose (playTts site text interruptible) := by
  intro w loose
  refine ((just_playback.playTts site text interruptible w loose.just).and
    (Quiet.playTts_hushed site text interruptible w loose.hushed)).mono fun r w' post => ?_
  match r with
  | .ok _ => exact ⟨post.2, post.1⟩
  | .error .cancelled => exact post.1
  | .error (.error _) => exact ⟨post.2, post.1⟩

theorem ending : EndingFrame (machine cfg) always dropped loose := by
  refine ⟨loose_steady.waits, last_phrase, id, fun kept loose => ?_, fun {w m} own loose => ?_⟩
  · exact loose.congr ⟨kept.speaking, kept.processing, kept.signaled⟩
  · refine loose.mark ?_
    cases m <;> first | rfl | cases own

/-- The consumer of a reply between two sentences. -/
abbrev between (w : World) : Prop := live w ∧ w.pipe ≠ none

/-- After the consumer: an interruption has marked the reply as cut. -/
structure Consumed (s : CallSession) (h : List Mark) (played : Option Bool) : Prop
    extends Loose s h where
  cut : s.interruptionSignaled = true → played = some false

abbrev consumed (w : World) : Prop := Consumed w.session w.history (w.pipe.map Pipe.fullyPlayed)

theorem between_consumed (w : World) (here : between w) : consumed w :=
  ⟨here.1.toLoose, fun signaled => by rw [here.1.clear] at signaled; cases signaled⟩

theorem consumed_steady (played : Option Bool) : Steady fun s h => Consumed s h played where
  flags same here := ⟨here.toLoose.congr same, fun signaled => here.cut (same.signaled ▸ signaled)⟩
  mark plain _ here := ⟨here.toLoose.mark plain, here.cut⟩
  just here := here.just
  trigger here counts := by
    rw [here.toLoose.idle] at counts
    cases counts

theorem consumed_stable : (machine cfg).Stable consumed where
  move here moved := by
    obtain ⟨kept, played⟩ :=
      ((consumed_steady _).stable.and ((Engine.played_stable _).restrict _)).move ⟨here, rfl⟩ moved
    unfold consumed
    rw [played]
    exact kept
  reply here replied := by
    obtain ⟨kept, played⟩ := ((consumed_steady _).stable.and
      ((Engine.played_stable _).restrict _)).reply ⟨here, rfl⟩ replied
    unfold consumed
    rw [played]
    exact kept

theorem closing (filler : Bool) : ClosingFrame (machine cfg) always dropped consumed filler := by
  have waits : Waits (machine cfg) always dropped consumed :=
    .of_stable consumed_stable (fun _ _ h => h.just) fun _ h => h.just
  refine ⟨waits, ?_, ?_, fun _ => waits.reapGate id, fun _ => waits.stop id⟩
  · intro w w' step here
    unfold consumed
    rw [step.played, step.frame]
    exact here
  · intro w₀ w text _ _ here
    have same : SameFlags w.session (w.captured text).session := ⟨rfl, rfl, rfl⟩
    exact ⟨Loose.mark (m := .captured text) (here.toLoose.congr same) rfl, here.cut⟩

theorem between_waits : Waits (machine cfg) always dropped between :=
  .of_stable (live_steady.stable.and (Engine.piped_stable.restrict _)) (fun _ _ h => h.1.just)
    fun _ h => h.1.just

/-- The audio of one sentence: it is over, it was cut, or it failed. -/
theorem sentence_wp {job : Text} (here : between w) :
    (playChunks .sentence job true).wp (machine cfg) always (outcomes dropped between
      fun whole => if whole then between else fun w => loose w ∧ w.pipe ≠ none) w := by
  have started : Sounding .sentence (w.startPlay .sentence job true) :=
    sounding_start job here.1 nofun
  have piped : Preserves (machine cfg) anything (fun w => w.pipe ≠ none)
      (await .playback) := Preserves.wait (Engine.piped_stable.restrict _) (fun _ _ _ => trivial) _
  refine playChunks_wp ((sounding_wp rfl started).and (piped _ here.2)) ?_ ?_ ?_ ?_
  · exact fun post => ⟨post.1.1.live (post.1.2 nofun), post.2⟩
  · exact fun post _ => ⟨post.1.1.loose, post.2⟩
  · exact fun post _ => post.1.1.just
  · exact fun post => ⟨post.1.1.live (post.1.2 nofun), post.2⟩

theorem playJob_wp {i : Nat} {job : Text} (here : between w) :
    (PlayStreaming.playJob i job).wp (machine cfg) always
      (outcomes dropped consumed fun goOn => if goOn then between else consumed) w := by
  refine PlayStreaming.playJob_wp (sentence_wp here) ?_ ?_ ?_
  · exact fun here => ⟨live_steady.mark rfl nofun here.1, by simpa using here.2⟩
  · rintro w ⟨loose, piped⟩
    obtain ⟨p, pipe⟩ := Option.ne_none_iff_exists'.mp piped
    refine ⟨loose.mark rfl, fun _ => ?_⟩
    simp [pipe]
  · exact fun here => between_consumed _ here

theorem consumeRule (i : Nat) (filler : Bool) :
    ConsumerRule (machine cfg) always dropped consumed i filler between (fun _ => between)
      consumed where
  exhausted here := (between_waits.wait .outOfFuel rfl).last here between_consumed
    fun _ => between_consumed
  get here := by
    refine (between_waits.wait .jobGet rfl).last here between_consumed fun next w here => ?_
    match (next : Option Text) with
    | none => exact between_consumed w here
    | some job => exact ⟨here.1, by simpa using here.2⟩
  reapGate _ _ := between_waits.reapGate id
  stop _ _ := between_waits.stop id
  failed := between_consumed
  play := playJob_wp

/-- A streamed reply that returns as played in full leaves nothing latched. -/
theorem playStreaming_wp {i : Nat} {filler : Bool} {delay start fuel : Nat} (live : live w) :
    (playStreaming i filler delay start fuel).wp (machine cfg) always
      (outcomes dropped loose fun r => if r.2 then Interruption.live else loose) w := by
  have begins : ∀ {w}, Interruption.live w →
      (PlayStreaming.begin i filler delay start).wp (machine cfg) always
        (outcomes dropped loose fun _ => between) w := by
    intro w live
    refine wp_update_bind.mpr ((wp_when _ _).mpr ?_)
    split
    · exact ⟨live, nofun⟩
    · exact ⟨live, nofun⟩
  have taken : ∀ {w}, consumed w → PlayStreaming.take.wp (machine cfg) always
      (outcomes dropped loose fun r => if r.2 then Interruption.live else loose) w := by
    intro w here
    show (if w.pipe.all Pipe.fullyPlayed then Interruption.live else loose) { w with pipe := none }
    split
    · refine ⟨here.toLoose, Bool.eq_false_iff.mpr fun signaled => ?_⟩
      obtain ⟨p, pipe, cut⟩ := Option.map_eq_some_iff.mp (here.cut signaled)
      simp_all
    · exact here.toLoose
  refine wp.seq (begins live) fun _ w₁ here => ?_
  have unwound : ∀ w, dropped w → (PlayStreaming.finish i filler).wp (machine cfg) always
      (outcomes dropped consumed fun _ => dropped) w := fun w =>
    ((just_playback.stream filler).closing.finish i).unfailing (Quiet.unfailing_finish i filler)
  have played := ((consumeRule i filler).consume_wp fuel id here).andFinallyKeeps
    ((closing filler).finish i) unwound
  refine wp.seq (played.fail fun _ h => h.toLoose) ?_
  exact fun _ _ => taken

end Playback

theorem Live.mark (live : Live s h) (plain : m.isPlain = true) : Live s (m :: h) :=
  ⟨live.toLoose.mark plain, live.clear⟩

theorem window : WindowFrame (machine cfg) always dropped live :=
  ⟨live_steady.waits, fun live => ⟨⟨live.hushed, live.clear, live.just⟩, live.clear⟩,
    fun live => live.mark rfl, id, id⟩

def verdicts : Verdicts where
  dialing := early
  dialed := early
  greeting := early
  live := live
  loose := loose
  processing := claimed true
  gated := claimed false
  aborting := aborting
  heard := fun _ => live
  finished := loose
  failed := loose
  dropped := dropped

theorem session (live : live w) (same : SameFlags w.session s) :
    Interruption.live { w with session := s } := live_steady.flags same live

theorem live_loose (w : World) (live : live w) : loose w := live.toLoose

theorem claimed_loose (w : World) (claimed : claimed false w) : loose w :=
  ⟨⟨claimed.speaking, claimed.processing⟩, claimed.just⟩

theorem ends {x : Prog Directive} (returns : Returning (machine cfg) x)
    (kept : Keeps (machine cfg) always dropped loose x) (live : live w) :
    x.wp (machine cfg) always verdicts.round w :=
  returns.directed kept live.toLoose (fun _ h => h) fun _ h => h

theorem turnRule : TurnRule cfg (machine cfg) always verdicts where
  live := live_steady.rests
  loose := loose_steady.rests
  processing := (claimed_steady true).rests
  aborting := aborting_steady.rests
  exhausted live := live.just
  stuck replied := nomatch (Machine.restrict_reply_some replied).2
  live_failed := live_loose
  loose_failed _ h := h
  gated_failed := claimed_loose
  aborting_failed _ h := h.toLoose
  stopped live _ := live.toLoose
  listen live := (window.awaitUserOrSilence cfg).last live live_loose fun _ _ h => h
  heard live _ := live
  spoken live := session live ⟨rfl, rfl, rfl⟩
  activation live := phrase_wp .silenceActivation rfl nofun live nofun
  capped live := phrase_wp .cappedDefault rfl nofun live nofun
  listenOnly live := ((cue_preserves _ _).keeps fun _ live => live.just).last live live_loose
    fun _ _ h => h
  reply live := playStreaming_wp live
  released live := live_steady.mark rfl nofun live
  settled loose := ⟨⟨⟨loose.hushed.speaking, loose.hushed.processing⟩, loose.just⟩, rfl⟩
  enterGate live := ⟨live.hushed.speaking, rfl, live.just.mark rfl, fun signaled => by
    rw [show _ = false from live.clear] at signaled
    cases signaled⟩
  gate := (claimed_steady true).waits.wait .gate rfl
  leaveGate claimed := ⟨claimed.speaking, rfl, claimed.just, claimed.own⟩
  dropGate just := just
  unsignaled claimed clear := ⟨claimed_loose _ claimed, clear⟩
  signaled claimed signaled := ⟨claimed_loose _ claimed, claimed.own signaled⟩
  aborted aborting := ⟨⟨⟨aborting.hushed.speaking, aborting.hushed.processing⟩,
    aborting.triggered, aborting.just⟩, rfl⟩
  forget live := session live ⟨rfl, rfl, rfl⟩
  closing live := session live ⟨rfl, rfl, rfl⟩
  turn live := live.mark rfl
  wrapUpReply live := live.mark rfl
  wrapUpPlayed live := live.mark rfl
  wrapUpCut loose := loose.mark rfl
  round live := session live ⟨rfl, rfl, rfl⟩
  handoff live := (ending.performHandoff _ _ _).last live.toLoose (fun _ h => h) fun _ _ h => h
  hangupRoute live := ends (.hangupRoute _ _)
    (ending.hangupRoute _ (loose_steady.rests.addTrace _ _ _ _)) live
  complete live := ends (.complete _ _) (ending.complete _ _) live
  refereeHangup live := ends .refereeHangup ending.refereeHangup live
  remoteHangup live := ends .onRemoteHangup ending.onRemoteHangup live
  silenceHangup live := ends (.onSilenceHangup _) (ending.onSilenceHangup _) live

theorem absent_playback :
    PlaybackFrame (machine cfg) anything fun w => w.listen.partialMonitor = .absent := by
  refine ⟨absent_stable, fun _ _ _ => trivial, ?_⟩
  intro w w' step absent
  rw [step.frame]
  exact absent

theorem greet_wp {text : Text} (early : early w) : (playTts .greeting text).wp (machine cfg) always
    (outcomes dropped loose fun _ => Interruption.early) w := by
  have absent := absent_playback.playTts (M := machine cfg) .greeting text true w early.2
  refine ((phrase_wp .greeting rfl nofun early.1 fun _ => early.2).and absent).mono ?_
  intro r w' post
  match r with
  | .ok _ => exact post
  | .error .cancelled | .error (.error _) => exact post.1

theorem cleanup : CleanupFrame (machine cfg) always dropped := by
  refine ⟨just_playback.stable, fun _ _ h => h, id, id, ?_⟩
  intro w e just
  cases e with
  | manualHangupRequested | transferRequested => exact (Just.mark just rfl).mark rfl
  | _ => exact just

theorem early_loose (w : World) (early : early w) : loose w := early.1.toLoose

theorem callRule : CallRule cfg (machine cfg) always verdicts fun _ => dropped where
  toLoopRule := turnRule.loop
  begin early := ⟨session early.1 ⟨rfl, rfl, rfl⟩, early.2⟩
  announce early := by
    refine (early_rests.wait (.ext .publish) rfl _ early).mono fun r w' post => ?_
    match r with
    | .ok _ | .error .cancelled => exact post
    | .error (.error _) => exact post.1.just
  dispatching early := early
  dial early := by
    have phone : PhoneFrame (machine cfg) always dropped Interruption.early :=
      ⟨early_rests.toWaits, fun early => early⟩
    exact phone.dialAndWaitConnected.last early early_loose fun _ _ h => h
  noAnswer early := ending.onNoAnswer.last early.1.toLoose (fun _ h => h) fun _ _ h => h
  connected {w} early := by
    have kept := SessionEnding.transition w.session w.clock .inCall "connected"
    exact ⟨session early.1 ⟨kept.speaking, kept.processing, kept.signaled⟩, early.2⟩
  greeting := early_rests
  greeting_failed := early_loose
  ambient early := early
  pumps early := early
  greet := greet_wp
  monitored {w} early :=
    session (w := w.note _) (s := w.drained.session) (early.1.mark rfl) ⟨rfl, rfl, rfl⟩
  attached live := live
  exception loose := ending.exception_wp loose
  cleanupFinished loose := cleanup.cleanup.lastly loose.just _
  cleanupDropped just := cleanup.cleanup.lastly just _

end Interruption

namespace Guarantees

/-- In every run of `run_session` in which the monitor does not trigger during a silence phrase,
during a default reply at the cap, or on a sentence whose playback has ended by itself: in any
state of the run, nothing was latched when a listening window opened, and every turn that was
dropped had a trigger while it was processed itself. -/
theorem turn_dropped_for_own_interruption (cfg : RuntimeConfig) (fuel : Nat) (w : World)
    (acts : List (Action sig Move)) (c : Susp sig World Unit) (fresh : w.Fresh)
    (run : ((engine cfg).restrict (triggerNoticed cfg)).exec (runSession cfg fuel w) acts =
      some c) :
    EachMark Justified c.state.history := by
  have dialing : Interruption.verdicts.dialing w := by
    have absent : w.listen.partialMonitor = .absent := by rw [fresh.listen]
    refine ⟨⟨⟨⟨?_, ?_⟩, ?_⟩, ?_⟩, absent⟩
    · rw [fresh.session]
    · rw [fresh.session]
    · rw [fresh.history]
      exact trivial
    · rw [fresh.session]
  have rule : (runSession cfg fuel).wp (Interruption.machine cfg) Interruption.always
      (fun _ => Interruption.dropped) w := Interruption.callRule.runSession_wp dialing
  exact rule.always (fun _ _ h => h) (fun _ _ _ _ h => Interruption.just_playback.stable.move h)
    (fun _ _ h => h) run

/-- The gate of a turn that is dropped: its only candidate is cancelled. -/
def droppedRun : List (Action sig Move) :=
  [.reply .gate (.ok [⟨"intent", none, none⟩]), .move (.eagerEnd 0 none),
    .reply (.reapEager 0) (.error .cancelled)]

/-- The caller goes on talking while the turn is processed. -/
theorem interrupted_turn_dropped :
    ∃ c, ((engine .refereed).restrict (triggerNoticed .refereed)).exec
      (runSession .refereed 2 (World.initial 1 .other))
      (RunSession.listeningRun .other ++ RunSession.spokenRun "好的".toList ++ RunSession.gateRun ++
        [.move (.asrResult "等等".toList false), .move .dispatchLossy, .move .partialMonitor] ++
        droppedRun) = some c ∧
      .abort ∈ c.state.history ∧ EachMark Justified c.state.history := by
  refine exists_of_map (fun c => decide (.abort ∈ c.state.history)) true (by decide +kernel)
    fun c run aborted => ?_
  exact ⟨of_decide_eq_true aborted, turn_dropped_for_own_interruption .refereed 2 _ _ c
    (World.initial_fresh 1 .other) run⟩

/-- A trigger during a silence phrase stays latched: the next window opens with it, and the next
turn is dropped although nothing was said since it began. -/
theorem silence_phrase_interruption_drops_turn :
    ((engine .refereed).exec (runSession .refereed 3 (World.initial 1 .other))
      (RunSession.listeningRun .other ++ [.move (.tick 5000), .reply (.listen 5000) (.ok ()),
        .reply .reapAsrGet (.error .cancelled), .reply .reapHangupWait (.error .cancelled),
        .move (.asrResult "等等".toList false), .move .dispatchLossy, .move .partialMonitor,
        .move (.playEnd false), .reply .playback (.error .cancelled)] ++
        RunSession.spokenRun "好的".toList ++ RunSession.gateRun ++ droppedRun)).map
      (fun c => c.state.history.take 9) =
      some [.listening false, .abort, .turn,
        .batch [⟨"好的".toList, 1⟩] (.userFinal "好的".toList) [], .posted ⟨"好的".toList, 1⟩,
        .listening true, .trigger false, .evaluated ⟨"等等".toList, 0⟩,
        .playback .silenceActivation] := by
  decide +kernel

end Guarantees
end IsalesEngine
