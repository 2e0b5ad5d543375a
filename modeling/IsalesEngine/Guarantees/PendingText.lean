import IsalesEngine.Engine.Endings
import IsalesEngine.Engine.Quiet

/-!
The text that a cut reply leaves unspoken, and in which turn it was left. The
history is cut into turns; assertions about the pending text say which of the
last two turns it comes from. A streamed reply that begins with nothing pending
leaves something only if it is cut, and then it is of this turn.
-/
namespace IsalesEngine
open Asyncio Asyncio.Coro

/-- What happened since the last turn began. -/
def thisTurn (h : List Mark) : List Mark := h.takeWhile (· ≠ .turn)

/-- What had happened when the last turn began. -/
def beforeTurn (h : List Mark) : List Mark := (h.dropWhile (· ≠ .turn)).tail

/-- What happened between the last two turns' beginnings. -/
def lastTurn (h : List Mark) : List Mark := thisTurn (beforeTurn h)

/-- The gate chooses to re-voice what is pending. -/
def revoices (cfg : PipelineConfig) (results : List RefereeResult) (s : CallSession) : Bool :=
  (autoRestructure cfg results s (decideAction results cfg.routingRules)).1 matches
    .restructure _ _

/-- A reply that is cut now would leave a text that the next turn does not take. -/
def RuntimeConfig.abandons (cfg : RuntimeConfig) (w : World) : Bool :=
  w.pipe.isSome && w.playCancelled &&
    (w.session.inWrapUp || !cfg.pipeline.autoRestructureOnInterrupt)

/-- A barge-in does not drop a turn while a text is pending, the cap is not reached by a verdict
that would re-voice it, and a reply is cut only if the next turn takes what it leaves. -/
def remainderTaken (cfg : RuntimeConfig) (_ : Op) (a : Action sig Move) (w : World) : Bool :=
  match a with
  | .move .partialMonitor => !(Engine.triggers cfg w && w.session.interruptRemainingText.isSome)
  | .reply .gate (.ok results) => !(revoices cfg.pipeline results w.session &&
      decide (cfg.pipeline.maxContinuousRestructure ≤ w.session.consecutiveRestructureCount))
  | .reply .playback (.error .cancelled) => !cfg.abandons w
  | _ => true

section History
variable {h : List Mark} {m : Mark}

theorem thisTurn_cons (within : m ≠ .turn) : thisTurn (m :: h) = m :: thisTurn h :=
  List.takeWhile_cons_of_pos (by simpa using within)

theorem beforeTurn_cons (within : m ≠ .turn) : beforeTurn (m :: h) = beforeTurn h := by
  unfold beforeTurn
  rw [List.dropWhile_cons_of_pos (by simpa using within)]

@[simp] theorem thisTurn_turn : thisTurn (.turn :: h) = [] := List.takeWhile_cons_of_neg (by simp)

@[simp] theorem beforeTurn_turn : beforeTurn (.turn :: h) = h := by
  unfold beforeTurn
  rw [List.dropWhile_cons_of_neg (by simp)]
  rfl

theorem lastTurn_cons (within : m ≠ .turn) : lastTurn (m :: h) = lastTurn h :=
  congrArg thisTurn (beforeTurn_cons within)

@[simp] theorem lastTurn_turn : lastTurn (.turn :: h) = thisTurn h :=
  congrArg thisTurn beforeTurn_turn

end History

namespace Carryover
variable {cfg : RuntimeConfig} {w w' : World} {s : CallSession} {played : Bool}

abbrev machine (cfg : RuntimeConfig) : Machine sig World :=
  (engine cfg).restrict (remainderTaken cfg)

/-- The next turn takes what a cut reply leaves. -/
def Clearable (cfg : RuntimeConfig) (s : CallSession) : Prop :=
  s.inWrapUp = false ∧ cfg.pipeline.autoRestructureOnInterrupt = true

/-- The pending text `t` was left by this turn or by the one before it. -/
structure Recent (t : Text) (_ : CallSession) (h : List Mark) : Prop where
  unspoken : t ≠ []
  captured : .captured t ∈ thisTurn h ∨ .captured t ∈ lastTurn h

/-- It was left by this turn, and the next one takes it. -/
structure Loose (cfg : RuntimeConfig) (t : Text) (s : CallSession) (h : List Mark) : Prop where
  unspoken : t ≠ []
  captured : .captured t ∈ thisTurn h
  clearable : Clearable cfg s

/-- Between two windows: nothing is latched either that would drop the next turn. -/
structure Live (cfg : RuntimeConfig) (t : Text) (s : CallSession) (h : List Mark) : Prop
    extends Loose cfg t s h where
  clear : s.interruptionSignaled = false

/-- It was left by the turn before this one, which has not taken it yet. -/
structure Started (cfg : RuntimeConfig) (t : Text) (s : CallSession) (h : List Mark) : Prop where
  unspoken : t ≠ []
  captured : .captured t ∈ lastTurn h
  clearable : Clearable cfg s
  clear : s.interruptionSignaled = false

/-- Whatever text is pending meets `Q`. -/
def Pending (Q : Text → CallSession → List Mark → Prop) (w : World) : Prop :=
  ∀ t, w.session.interruptRemainingText = some t → Q t w.session w.history

abbrev recent : World → Prop := Pending Recent
abbrev loose (cfg : RuntimeConfig) : World → Prop := Pending (Loose cfg)
abbrev live (cfg : RuntimeConfig) : World → Prop := Pending (Live cfg)
abbrev started (cfg : RuntimeConfig) : World → Prop := Pending (Started cfg)

/-- Nothing is pending. -/
abbrev cleared : World → Prop := Pending fun _ _ _ => False

/-- What holds at every wait. -/
abbrev always (_ : Op) : World → Prop := recent

/-- A property of pending texts that marks other than a turn's beginning keep. -/
structure Steady (Q : Text → CallSession → List Mark → Prop) : Prop where
  congr : ∀ {t s s' h}, s'.inWrapUp = s.inWrapUp →
    s'.interruptionSignaled = s.interruptionSignaled → Q t s h → Q t s' h
  mark : ∀ {t s h m}, m ≠ .turn → Q t s h → Q t s (m :: h)
  recent : ∀ {t s h}, Q t s h → Recent t s h

theorem Clearable.congr {s' : CallSession} (clearable : Clearable cfg s)
    (same : s'.inWrapUp = s.inWrapUp) : Clearable cfg s' := ⟨same.trans clearable.1, clearable.2⟩

theorem recent_steady : Steady Recent where
  congr _ _ recent := ⟨recent.unspoken, recent.captured⟩
  mark within recent := by
    refine ⟨recent.unspoken, ?_⟩
    rw [thisTurn_cons within, lastTurn_cons within]
    exact recent.captured.imp_left (.tail _)
  recent recent := recent

theorem loose_steady : Steady (Loose cfg) where
  congr same _ loose := ⟨loose.unspoken, loose.captured, loose.clearable.congr same⟩
  mark within loose :=
    ⟨loose.unspoken, thisTurn_cons within ▸ loose.captured.tail _, loose.clearable⟩
  recent loose := ⟨loose.unspoken, .inl loose.captured⟩

theorem live_steady : Steady (Live cfg) where
  congr same signal live := ⟨loose_steady.congr same signal live.toLoose, signal.trans live.clear⟩
  mark within live := ⟨loose_steady.mark within live.toLoose, live.clear⟩
  recent live := loose_steady.recent live.toLoose

theorem started_steady : Steady (Started cfg) where
  congr same signal started := ⟨started.unspoken, started.captured, started.clearable.congr same,
    signal.trans started.clear⟩
  mark within started := ⟨started.unspoken, (lastTurn_cons within).symm ▸ started.captured,
    started.clearable, started.clear⟩
  recent started := ⟨started.unspoken, .inr started.captured⟩

theorem cleared_steady : Steady fun _ _ _ => False :=
  ⟨fun _ _ => False.elim, fun _ => False.elim, False.elim⟩

theorem cleared_iff : cleared w ↔ w.session.interruptRemainingText = none :=
  Option.eq_none_iff_forall_ne_some.symm

theorem Pending.of_cleared {Q : Text → CallSession → List Mark → Prop} (cleared : cleared w) :
    Pending Q w := fun t pending => (cleared t pending).elim

namespace Steady
variable {Q : Text → CallSession → List Mark → Prop}

theorem inWrapUp_of_wrapUp {s' : CallSession} (same : s'.wrapUp = s.wrapUp) :
    s'.inWrapUp = s.inWrapUp := (WrapUp.mk.inj same).1

variable (steady : Steady Q)
include steady

theorem session (here : Pending Q w)
    (remaining : s.interruptRemainingText = w.session.interruptRemainingText)
    (wrapUp : s.inWrapUp = w.session.inWrapUp)
    (signaled : s.interruptionSignaled = w.session.interruptionSignaled) :
    Pending Q { w with session := s } :=
  fun t pending => steady.congr wrapUp signaled (here t (remaining ▸ pending))

theorem note {m : Mark} (here : Pending Q w) (within : m ≠ .turn) : Pending Q (w.note m) :=
  fun t pending => steady.mark within (here t pending)

theorem recently (w : World) (here : Pending Q w) : Carryover.recent w :=
  fun t pending => steady.recent (here t pending)

theorem stable : (machine cfg).Stable (Pending Q) where
  move {op m w w'} here moved := by
    obtain ⟨allowed, moved⟩ := Machine.restrict_move_some moved
    obtain called | rfl := Engine.move_cases moved
    · have owned := Engine.callMove_mainOwned called
      intro t pending
      rw [owned.remaining] at pending
      have kept : Q t w.session w'.history := by
        refine (Engine.callMove_history called).induct (here t pending) ?_
        intro m h own kept
        refine steady.mark ?_ kept
        rintro rfl
        cases own
      refine steady.congr (inWrapUp_of_wrapUp owned.wrapUp) ?_ kept
      obtain same | ⟨rfl, triggers, -⟩ := Engine.callMove_signal called
      · exact same
      · simp [remainderTaken, triggers, pending] at allowed
    · exact steady.note here nofun
  reply here replied := by
    have frame := Engine.reply_frame (Machine.restrict_reply_some replied).2
    intro t pending
    rw [frame.session] at pending ⊢
    have here := here t pending
    exact frame.noted here (steady.mark nofun here) (steady.mark nofun here)
      (steady.mark nofun here)

theorem waits : Waits (machine cfg) always Carryover.recent (Pending Q) :=
  .of_stable steady.stable (fun _ => steady.recently) steady.recently

theorem rests : Rests (machine cfg) always Carryover.recent (Pending Q) := by
  refine .of steady.waits ?_
  intro w w' kept here
  have session := steady.session here kept.session.remaining
    (inWrapUp_of_wrapUp kept.session.wrapUp) kept.session.signaled
  rw [kept.frame]
  exact session

theorem playTts (site : PlaySite) (text : Text) (interruptible : Bool) :
    Keeps (machine cfg) always Carryover.recent (Pending Q) (playTts site text interruptible) := by
  have plays : Preserves (machine cfg) always (Pending Q) (playChunks site text interruptible) := by
    refine playChunks_preserves (Preserves.wait steady.stable (fun _ => steady.recently) _) ?_ ?_
    · intro w here t pending
      exact steady.mark nofun (steady.congr (s := w.session) rfl rfl (here t pending))
    · exact fun here => steady.session here rfl rfl rfl
  exact (plays.bind fun _ => Preserves.pure ()).keeps steady.recently

theorem ending : EndingFrame (machine cfg) always Carryover.recent (Pending Q) := by
  refine ⟨steady.waits, steady.playTts, id, fun kept here => ?_, fun {w m} own here => ?_⟩
  · exact steady.session here kept.remaining (inWrapUp_of_wrapUp kept.wrapUp) kept.signaled
  · refine steady.note here ?_
    rintro rfl
    cases own

theorem window : WindowFrame (machine cfg) always Carryover.recent (Pending Q) :=
  ⟨steady.waits, fun here => steady.note here nofun, fun here => steady.note here nofun, id, id⟩

end Steady

section Reply

/-- A streamed reply that nothing has cut, or that was `played` in part only. -/
structure Speaking (cfg : RuntimeConfig) (played : Bool) (w : World) : Prop where
  pipe : w.pipe.map Pipe.fullyPlayed = some played
  whole : played = true → cleared w
  cut : played = false → loose cfg w ∧ Clearable cfg w.session

/-- When the consumer has ended. -/
def consumed (cfg : RuntimeConfig) (w : World) : Prop := ∃ played, Speaking cfg played w

theorem Speaking.loose (here : Speaking cfg played w) : loose cfg w := by
  cases played with
  | true => exact .of_cleared (here.whole rfl)
  | false => exact (here.cut rfl).1

theorem clearable_stable : (machine cfg).Stable fun w => Clearable cfg w.session := by
  refine Machine.Stable.restrict (Engine.stable_session _ ?_) _
  intro op m w w' moved clearable
  exact clearable.congr (Steady.inWrapUp_of_wrapUp (Engine.callMove_mainOwned moved).wrapUp)

theorem speaking_stable (played : Bool) : (machine cfg).Stable (Speaking cfg played) where
  move here moved :=
    ⟨((Engine.played_stable _).restrict _).move here.pipe moved,
      fun whole => cleared_steady.stable.move (here.whole whole) moved,
      fun cut => ⟨loose_steady.stable.move (here.cut cut).1 moved,
        clearable_stable.move (here.cut cut).2 moved⟩⟩
  reply here replied :=
    ⟨((Engine.played_stable _).restrict _).reply here.pipe replied,
      fun whole => cleared_steady.stable.reply (here.whole whole) replied,
      fun cut => ⟨loose_steady.stable.reply (here.cut cut).1 replied,
        clearable_stable.reply (here.cut cut).2 replied⟩⟩

theorem Speaking.recent (w : World) (here : Speaking cfg played w) : recent w :=
  loose_steady.recently w here.loose

theorem speaking_waits (played : Bool) : Waits (machine cfg) always recent (Speaking cfg played) :=
  .of_stable (speaking_stable played) (fun _ => Speaking.recent) Speaking.recent

/-- An update that leaves the session alone and may add a mark. -/
theorem Speaking.step (here : Speaking cfg played w)
    (pipe : w'.pipe.map Pipe.fullyPlayed = w.pipe.map Pipe.fullyPlayed)
    (session : w'.session = w.session)
    (history : w'.history = w.history ∨ ∃ m : Mark, m ≠ .turn ∧ w'.history = m :: w.history) :
    Speaking cfg played w' := by
  have kept : ∀ {Q}, Steady Q → Pending Q w → Pending Q w' := by
    intro Q steady here t pending
    rw [session] at pending ⊢
    obtain same | ⟨m, within, same⟩ := history
    · exact same ▸ here t pending
    · exact same ▸ steady.mark within (here t pending)
  exact ⟨pipe.trans here.pipe, fun whole => kept cleared_steady (here.whole whole),
    fun cut => ⟨kept loose_steady (here.cut cut).1, session ▸ (here.cut cut).2⟩⟩

/-- The audio of a sentence is cut only where the next turn takes what is left. -/
theorem sentence_wp {job : Text} (here : Speaking cfg true w) :
    (playChunks .sentence job true).wp (machine cfg) always (outcomes recent (Speaking cfg true)
      fun whole => if whole then Speaking cfg true else
        fun w => Speaking cfg true w ∧ Clearable cfg w.session) w := by
  have waited : (await .playback).wp (machine cfg) always (fun r w => Speaking cfg true w ∧
      (r = .error .cancelled → w.playCancelled = true → Clearable cfg w.session))
      (w.startPlay .sentence job true) := by
    have started : Speaking cfg true (w.startPlay .sentence job true) :=
      ⟨here.pipe, fun _ => here.whole rfl, nofun⟩
    refine wp_wait.mpr ⟨Speaking.recent _ started, fun w₁ w₂ r steps replied => ?_⟩
    have speaking := (speaking_stable true).steps steps started
    refine ⟨(speaking_stable true).reply speaking replied, ?_⟩
    obtain ⟨allowed, replied⟩ := Machine.restrict_reply_some replied
    have frame := (Engine.replyPlayback_resumed (r := r) replied).frame
    rintro rfl cancelled
    obtain ⟨p, pipe, -⟩ := Option.map_eq_some_iff.mp speaking.pipe
    have cancelled : w₁.playCancelled = true := by
      unfold World.playCancelled at cancelled ⊢
      rwa [frame.play] at cancelled
    rw [frame.session]
    simpa [remainderTaken, RuntimeConfig.abandons, Clearable, pipe, cancelled] using allowed
  have cleared : ∀ {w : World}, Speaking cfg true w → Speaking cfg true (w.clearPlay true) :=
    fun here => ⟨here.pipe, fun _ => here.whole rfl, nofun⟩
  refine playChunks_wp waited ?_ ?_ ?_ ?_
  · exact fun post => cleared post.1
  · exact fun post cancelled => ⟨cleared post.1, post.2 rfl cancelled⟩
  · exact fun post _ => Speaking.recent _ (cleared post.1)
  · exact fun post => cleared post.1

theorem playJob_wp {i : Nat} {job : Text} (here : Speaking cfg true w) :
    (PlayStreaming.playJob i job).wp (machine cfg) always (outcomes recent (consumed cfg)
      fun goOn => if goOn then Speaking cfg true else consumed cfg) w := by
  refine PlayStreaming.playJob_wp (sentence_wp here) ?_ ?_ ?_
  · intro w here
    refine here.step ?_ rfl (.inr ⟨.played job, nofun, rfl⟩)
    simp [Function.comp_def]
  · rintro w ⟨here, clearable⟩
    obtain ⟨p, pipe, -⟩ := Option.map_eq_some_iff.mp here.pipe
    refine ⟨false, by simp [pipe], nofun, fun _ => ⟨.of_cleared ?_, clearable⟩⟩
    exact cleared_steady.note (m := .cut job) (here.whole rfl) nofun
  · exact fun here => ⟨true, here.pipe, here.whole, here.cut⟩

theorem consumeRule (i : Nat) (filler : Bool) : ConsumerRule (machine cfg) always recent
    (consumed cfg) i filler (Speaking cfg true) (fun _ => Speaking cfg true) (consumed cfg) where
  exhausted here := ((speaking_waits true).wait .outOfFuel rfl).last here (fun _ h => ⟨true, h⟩)
    fun _ _ h => ⟨true, h⟩
  get here := by
    refine ((speaking_waits true).wait .jobGet rfl).last here (fun _ h => ⟨true, h⟩) ?_
    intro next w here
    match (next : Option Text) with
    | none => exact ⟨true, here⟩
    | some job => exact here.step (by simp [Function.comp_def]) rfl (.inl rfl)
  reapGate _ _ := (speaking_waits true).reapGate fun here => ⟨here.pipe, here.whole, here.cut⟩
  stop _ _ := (speaking_waits true).stop fun here => ⟨here.pipe, here.whole, here.cut⟩
  failed _ here := ⟨true, here⟩
  play := playJob_wp

theorem captured_thisTurn (text : Text) (h : List Mark) :
    .captured text ∈ thisTurn (.captured text :: h) := by
  rw [thisTurn_cons (m := .captured text) nofun]
  exact List.mem_cons_self

theorem captured_loose {text : Text} (clearable : Clearable cfg w.session) :
    loose cfg (w.captured text) := by
  intro t pending
  obtain ⟨unspoken, rfl⟩ : text ≠ [] ∧ text = t := by
    simpa [World.captured] using pending
  exact ⟨unspoken, captured_thisTurn text w.history, clearable⟩

/-- What a cut reply leaves is captured; a reply that was played in full leaves nothing. -/
theorem closing (filler played : Bool) :
    ClosingFrame (machine cfg) always recent (Speaking cfg played) filler := by
  have filling : ∀ {w f}, Speaking cfg played w → Speaking cfg played { w with filler := f } :=
    fun here => ⟨here.pipe, here.whole, here.cut⟩
  have waits : Waits (machine cfg) always recent (Speaking cfg played) := speaking_waits played
  refine ⟨waits, ?_, ?_, fun _ => waits.reapGate filling, fun _ => waits.stop filling⟩
  · intro w w' step here
    refine here.step step.played ?_ (.inl ?_)
    · rw [step.frame]
    · rw [step.frame]
  · intro w₀ w text here₀ cut here
    obtain ⟨p, pipe, rfl⟩ := Option.map_eq_some_iff.mp here₀.pipe
    have partially : p.fullyPlayed = false := by simpa [pipe] using cut
    refine ⟨here.pipe, by simp [partially], fun _ => ?_⟩
    exact ⟨captured_loose (here.cut partially).2, (here.cut partially).2⟩

/-- After a cancel. -/
theorem unwinding (filler : Bool) : ClosingFrame (machine cfg) always recent recent filler := by
  have waits : Waits (machine cfg) always recent recent := recent_steady.waits
  refine ⟨waits, ?_, ?_, fun _ => waits.reapGate id, fun _ => waits.stop id⟩
  · intro w w' step here
    rw [step.frame]
    exact here
  · intro w₀ w text _ _ _ t pending
    obtain ⟨unspoken, rfl⟩ : text ≠ [] ∧ text = t := by
      simpa [World.captured] using pending
    exact ⟨unspoken, .inl (captured_thisTurn text w.history)⟩

theorem playStreaming_wp {i : Nat} {filler : Bool} {delay start fuel : Nat} (clean : cleared w) :
    (playStreaming i filler delay start fuel).wp (machine cfg) always
      (outcomes recent recent fun r => if r.2 then cleared else loose cfg) w := by
  have begun : (PlayStreaming.begin i filler delay start).wp (machine cfg) always
      (outcomes recent recent fun _ => Speaking cfg true) w := by
    refine wp_update_bind.mpr ((wp_when _ _).mpr ?_)
    split
    · exact ⟨rfl, fun _ => clean, nofun⟩
    · exact ⟨rfl, fun _ => clean, nofun⟩
  refine wp.seq begun fun _ w₁ here => wp.seq (L := fun _ => consumed cfg) ?_ ?_
  · have finish : Keeps (machine cfg) always recent (consumed cfg)
        (PlayStreaming.finish i filler) := by
      rintro w ⟨played, here⟩
      exact ((closing filler played).finish i).last here (fun _ h => ⟨played, h⟩)
        fun _ _ h => ⟨played, h⟩
    have unwound : ∀ w, recent w → (PlayStreaming.finish i filler).wp (machine cfg) always
        (outcomes recent (consumed cfg) fun _ => recent) w := fun w =>
      ((unwinding filler).finish i).unfailing (Quiet.unfailing_finish i filler)
    have played := ((consumeRule i filler).consume_wp fuel id here).andFinallyKeeps finish unwound
    refine played.fail ?_
    exact fun w h => h.elim fun _ => Speaking.recent w
  · rintro _ w₂ ⟨played, here⟩
    obtain ⟨p, pipe, rfl⟩ := Option.map_eq_some_iff.mp here.pipe
    show (if w₂.pipe.all Pipe.fullyPlayed then cleared else loose cfg) { w₂ with pipe := none }
    rw [pipe]
    split
    · exact here.whole ‹_›
    · exact here.loose

end Reply

end Carryover
end IsalesEngine
