import IsalesEngine.Engine.Account
import IsalesEngine.Engine.Endings

/-!
What becomes of recognised speech. Every final that is posted after the
greeting's drain is consumed by exactly one listening window, in posting order,
and what a window consumed is what the caller is recorded to have said. The
drain itself, and the end of an utterance, only reach the queues behind the two
lanes: a result that is still on its way then arrives later, as if it were new.
-/
namespace IsalesEngine
open Asyncio Asyncio.Coro

/-- Recognised speech is accounted for, and the transcript has what the windows have heard. -/
def Heard (w : World) : Prop :=
  Hearing w.history w.asrCount (finalsInTransit w.listen w.bus)
    (partialsInTransit w.listen w.bus) ∧ w.session.userSpeeches = spoken w.history

namespace Heard
variable {cfg : RuntimeConfig} {w w' : World} {watching : Bool}

section
variable (heard : Heard w)
include heard

theorem step (step : SpeechStep w w')
    (speeches : w'.session.userSpeeches = w.session.userSpeeches) : Heard w' := by
  obtain ⟨hearing, said⟩ := heard
  rw [← speeches] at said
  cases step with
  | moved count finals partials history =>
      refine ⟨?_, said.trans (spoken_unspoken history).symm⟩
      rw [finals]
      exact (hearing.moved count partials).unspoken history
  | posted r index count finals partials history =>
      refine ⟨?_, said.trans (history ▸ rfl)⟩
      rw [finals, partials, count, history]
      exact hearing.posted index
  | evaluated r running waiting count finals partials history =>
      refine ⟨?_, said.trans (spoken_unspoken history).symm⟩
      rw [finals, count]
      refine Hearing.unspoken ?_ history
      exact (hearing.evaluates waiting).moved (Nat.le_refl _)
        fun p member => .inl (partials p member)

/-- An update that has nothing to do with recognised speech. -/
theorem congr (count : w'.asrCount = w.asrCount)
    (finals : finalsInTransit w'.listen w'.bus = finalsInTransit w.listen w.bus)
    (partials : partialsInTransit w'.listen w'.bus = partialsInTransit w.listen w.bus)
    (speeches : w'.session.userSpeeches = w.session.userSpeeches)
    (history : Unspoken w.history w'.history) : Heard w' :=
  heard.step (.of_eq count finals partials history) speeches

theorem note {m : Mark} (plain : m.isSpeech = false) : Heard (w.note m) :=
  heard.congr rfl rfl rfl rfl ((Unspoken.refl _).mark plain)

theorem session {s : CallSession} (speeches : s.userSpeeches = w.session.userSpeeches) :
    Heard { w with session := s } :=
  heard.congr rfl rfl rfl speeches (.refl _)

end

theorem stable : (engine cfg).Stable Heard := by
  refine Engine.stable_of ?_ ?_ ?_
  · intro op m w w' heard moved
    exact heard.step (Engine.callMove_speech moved) (Engine.callMove_transcript moved).kept.2.2
  · intro w heard
    exact heard.note rfl
  · intro w w' heard frame
    refine heard.congr frame.asrCount ?_ ?_ ?_ ?_
    · rw [frame.listen, frame.bus]
    · rw [frame.listen, frame.bus]
    · rw [frame.session]
    · exact frame.unspoken

/-- The window's `get` stands at `get`, which is not waiting. -/
def Stands (get : Option GetTask) (w : World) : Prop :=
  Heard w ∧ w.listen.window.map Window.asrGet = get

theorem stands_stable {get : Option GetTask} (idle : get ≠ some .waiting) :
    (engine cfg).Stable (Stands get) := by
  refine stable.and (Engine.stable_of ?_ ?_ ?_)
  · intro op m w w' here moved
    have unwaiting : w.listen.window.map Window.asrGet ≠ some .waiting := by
      rw [here]
      exact idle
    exact (Engine.callMove_asrGet moved unwaiting).trans here
  · intro w here
    exact here
  · intro w w' here frame
    rw [frame.listen]
    exact here

/-- The monitor has not been started, and nothing was consumed or evaluated. -/
def Unwatched (w : World) : Prop := w.listen.partialMonitor = .absent ∧ Hearing.Unheard w.history

theorem unwatched_stable : (engine cfg).Stable Unwatched := by
  refine Engine.stable_of ?_ ?_ ?_
  · intro op m w w' unwatched moved
    refine ⟨Engine.callMove_monitor moved unwatched.1, ?_⟩
    cases Engine.callMove_speech moved with
    | moved _ _ _ history => exact unwatched.2.unspoken history
    | posted r _ _ _ _ history => exact history ▸ unwatched.2.mark fun _ _ _ => trivial
    | evaluated r running =>
        rw [unwatched.1] at running
        cases running
  · intro w unwatched
    exact ⟨unwatched.1, unwatched.2.mark fun _ _ _ => trivial⟩
  · intro w w' unwatched frame
    refine ⟨frame.listen ▸ unwatched.1, unwatched.2.unspoken frame.unspoken⟩

/-- What holds at every wait. -/
abbrev always (_ : Op) : World → Prop := Heard

/-- No window is open; and unless the monitor is `watching`, nothing was heard yet. -/
def Idle (watching : Bool) (w : World) : Prop := Stands none w ∧ (watching = false → Unwatched w)

/-- Up to the drain. -/
abbrev early : World → Prop := Idle false

/-- Between two windows. -/
abbrev live : World → Prop := Idle true

theorem wait (get : Option GetTask) (idle : get ≠ some .waiting) (op : Op) :
    Preserves (engine cfg) always (Stands get) (await op) :=
  Preserves.wait (stands_stable idle) (fun _ _ here => here.1) op

theorem idle_stable (watching : Bool) : (engine cfg).Stable (Idle watching) := by
  have closed : (engine cfg).Stable (Stands none) := stands_stable nofun
  refine closed.and ⟨?_, ?_⟩
  · exact fun unwatched moved early => unwatched_stable.move (unwatched early) moved
  · exact fun unwatched replied early => unwatched_stable.reply (unwatched early) replied

section
variable (here : Idle watching w)
include here

/-- Updates that have nothing to do with recognised speech. -/
theorem Idle.congr (count : w'.asrCount = w.asrCount) (listen : w'.listen = w.listen)
    (bus : w'.bus = w.bus) (speeches : w'.session.userSpeeches = w.session.userSpeeches)
    (history : Unspoken w.history w'.history) : Idle watching w' := by
  obtain ⟨⟨heard, closed⟩, unwatched⟩ := here
  refine ⟨⟨heard.congr count ?_ ?_ speeches history, listen ▸ closed⟩, fun early => ?_⟩
  · rw [listen, bus]
  · rw [listen, bus]
  · exact ⟨listen ▸ (unwatched early).1, (unwatched early).2.unspoken history⟩

theorem Idle.heard : Heard w := here.1.1

theorem Idle.note {m : Mark} (plain : m.isSpeech = false) : Idle watching (w.note m) :=
  here.congr rfl rfl rfl rfl ((Unspoken.refl _).mark plain)

theorem Idle.session {s : CallSession} (speeches : s.userSpeeches = w.session.userSpeeches) :
    Idle watching { w with session := s } := here.congr rfl rfl rfl speeches (.refl _)

end

section
variable (watching)

theorem waits : Waits (engine cfg) always Heard (Idle watching) :=
  .of_stable (idle_stable watching) (fun _ _ here => here.heard) fun _ here => here.heard

theorem rests : Rests (engine cfg) always Heard (Idle watching) := by
  refine .of (waits watching) ?_
  intro w w' kept here
  have speeches := kept.session.speeches
  rw [kept.frame]
  exact here.congr rfl rfl rfl speeches (.refl _)

theorem playback : PlaybackFrame (engine cfg) always (Idle watching) := by
  refine ⟨idle_stable watching, fun _ _ here => here.heard, ?_⟩
  intro w w' step here
  have speeches : w'.session.userSpeeches = w.session.userSpeeches := by rw [step.session]; rfl
  have unspoken : Unspoken w.history w'.history := by
    obtain same | ⟨m, own, same⟩ := step.history
    · exact .of_eq same
    · refine same ▸ (Unspoken.refl _).mark ?_
      cases m <;> first | rfl | cases own
  rw [step.frame]
  exact here.congr rfl rfl rfl speeches unspoken

theorem plays (site : PlaySite) (text : Text) (interruptible : Bool) :
    Keeps (engine cfg) always Heard (Idle watching) (playTts site text interruptible) :=
  ((playback watching).playTts site text interruptible).keeps fun _ here => here.heard

theorem ending : EndingFrame (engine cfg) always Heard (Idle watching) := by
  refine ⟨waits watching, plays watching, fun here => here.congr rfl rfl rfl rfl (.refl _),
    fun kept here => here.session kept.speeches, fun {w m} own here => here.note ?_⟩
  cases m <;> first | rfl | cases own

end

section Window
variable {watching : Bool} {taken : Option AsrResult}

/-- The final a window's `get` has taken. -/
def got : GetTask → Option AsrResult
  | .held r => some r
  | _ => none

theorem held_get (window : Option Window) :
    AwaitUser.held window = (window.map Window.asrGet).bind got := by
  match window with
  | none | some ⟨.waiting, _, _⟩ | some ⟨.cancelled, _, _⟩ | some ⟨.held r, _, _⟩ => rfl

/-- The window's `get` is over, and `taken` is what it has taken. -/
def Over (taken : Option AsrResult) (w : World) : Prop :=
  ∃ get, get ≠ some .waiting ∧ get.bind got = taken ∧ Stands get w

theorem Over.transit (over' : Over taken w) :
    finalsInTransit w.listen w.bus = taken.toList ++ w.listen.finals ++ laneFinals w.bus := by
  obtain ⟨get, -, rfl, -, rfl⟩ := over'
  rw [finalsInTransit, held_get]

theorem over_waits (taken : Option AsrResult) (op : Op) :
    Preserves (engine cfg) always (Over taken) (await op) := by
  rintro w ⟨get, idle, same, here⟩
  exact (wait get idle op w here).mono fun _ _ here => ⟨get, idle, same, here⟩

/-- Cancelling the window's `get` loses nothing: one that holds a final is done. -/
theorem cancelAsrGet (heard : Heard w) : Over (AwaitUser.held w.listen.window)
    { w with listen := { w.listen with window := w.listen.window.map fun win =>
      { win with asrGet := if win.asrGet = .waiting then .cancelled else win.asrGet } } } := by
  refine ⟨_, ?_, ?_, heard.congr rfl ?_ rfl rfl (.refl _), rfl⟩
  · cases w.listen.window with
    | none => nofun
    | some win =>
        simp only [Option.map_some, ne_eq, Option.some.injEq]
        split
        · nofun
        · assumption
  · rw [← held_get]
    match w.listen.window with
    | none | some ⟨.waiting, _, _⟩ | some ⟨.cancelled, _, _⟩ | some ⟨.held r, _, _⟩ => rfl
  · unfold finalsInTransit
    match w.listen.window with
    | none | some ⟨.waiting, _, _⟩ | some ⟨.cancelled, _, _⟩ | some ⟨.held r, _, _⟩ => rfl

theorem Over.cancelHangupWait (ended : Over taken w) : Over taken
    { w with listen := { w.listen with window := w.listen.window.map fun win =>
      { win with hangupWait :=
        if win.hangupWait = .waiting then .cancelled else win.hangupWait } } } := by
  obtain ⟨get, idle, same, heard, here⟩ := ended
  refine ⟨get, idle, same, heard.congr rfl ?_ rfl rfl (.refl _), ?_⟩
  · simp only [finalsInTransit, held_get, Option.map_map, Function.comp_def]
  · simpa [Function.comp_def] using here

theorem Over.of_held {r : AsrResult} (heard : Heard w)
    (held : AwaitUser.held w.listen.window = some r) : Over (some r) w := by
  refine ⟨_, ?_, (held_get _).symm.trans held, heard, rfl⟩
  intro waiting
  rw [held_get, waiting] at held
  cases held

/-- After a window has closed, before what it heard is in the transcript. -/
def outcome (o : Outcome) (w : World) : Prop :=
  Hearing w.history w.asrCount (finalsInTransit w.listen w.bus)
      (partialsInTransit w.listen w.bus) ∧
    w.listen.window.map Window.asrGet = none ∧
    spoken w.history = w.session.userSpeeches ++ o.words

/-- A window closes with the oldest of the finals that are on their way. -/
theorem close {taken : List AsrResult} {o : Outcome} {l : Listen} (heard : Heard w)
    (transit : finalsInTransit w.listen w.bus = taken ++ finalsInTransit l w.bus)
    (partials : l.partials = w.listen.partials) (window : l.window = none)
    (amounts : ∀ text, o = .userFinal text → text = saidBy taken) :
    outcome o { w.note (.batch taken o (w.listen.partials ++ w.bus.lossy)) with listen := l } := by
  obtain ⟨hearing, said⟩ := heard
  rw [transit] at hearing
  refine ⟨?_, by simp [window], ?_⟩
  · show Hearing _ _ (finalsInTransit l w.bus) (l.partials ++ w.bus.lossy)
    rw [partials]
    exact hearing.batch amounts
  · exact (spoken_batch _ _ _ _).trans (congrArg (· ++ o.words) said.symm)

theorem Over.heard (ended : Over taken w) : Heard w := by
  obtain ⟨_, -, -, heard, -⟩ := ended
  exact heard

/-- A window closes with nothing but what its `get` has taken. -/
theorem closeWindow_wp {o : Outcome} (ended : Over taken w) (silent : o.words = []) :
    (AwaitUser.closeWindow taken.toList o).wp (engine cfg) always
      (outcomes Heard live outcome) w := by
  refine close ended.heard ?_ rfl rfl ?_
  · rw [ended.transit, List.append_assoc]
    rfl
  · rintro text rfl
    cases silent

theorem reap_wp {x : Prog Unit} (kept : Preserves (engine cfg) always (Over taken) x)
    (ended : Over taken w) :
    (suppress isAny x).wp (engine cfg) always (outcomes Heard live fun _ => Over taken) w :=
  kept.suppressAll (fun _ => rfl) ended

theorem onHangup_wp (heard : Heard w) : AwaitUser.onHangup.wp (engine cfg) always
    (outcomes Heard live outcome) w := by
  refine wp_read_bind.mpr (wp_update_bind.mpr ?_)
  refine wp.seq (L := fun _ => Over (AwaitUser.held w.listen.window)) ?_ ?_
  · refine (wp_when _ _).mpr ?_
    split
    · exact reap_wp (over_waits _ .reapAsrGet) heard.cancelAsrGet
    · exact heard.cancelAsrGet
  · exact fun _ _ ended => closeWindow_wp ended rfl

theorem combine_said {cfg : RuntimeConfig} {taken : List AsrResult} {text : Text}
    (said : AwaitUser.combine cfg taken = .userFinal text) : text = saidBy taken := by
  unfold AwaitUser.combine at said
  dsimp only at said
  split at said
  · cases said
  · exact (Outcome.userFinal.inj said).symm

/-- The backlog behind the first final is taken with it. -/
theorem onFinal_wp {first : AsrResult} (ended : Over (some first) w) :
    (AwaitUser.onFinal cfg first).wp (engine cfg) always (outcomes Heard live outcome) w := by
  refine wp_update_bind.mpr ?_
  refine wp.seq (reap_wp (over_waits _ .reapHangupWait) ended.cancelHangupWait) ?_
  intro _ w₁ ended₁
  have transit : finalsInTransit w₁.listen w₁.bus = (first :: w₁.listen.finals) ++
      finalsInTransit { w₁.listen with finals := [], window := none } w₁.bus := by
    rw [ended₁.transit]
    rfl
  exact wp_act_bind.mpr (ended₁.heard.close transit rfl rfl fun _ => combine_said)

theorem onSilence_wp (idle : AwaitUser.held w.listen.window = none) (heard : Heard w) :
    (AwaitUser.onSilence cfg).wp (engine cfg) always (outcomes Heard live outcome) w := by
  have ended := heard.cancelAsrGet
  rw [idle] at ended
  refine wp_update_bind.mpr (wp_update_bind.mpr ?_)
  refine wp.seq (reap_wp (over_waits _ .reapAsrGet) ended.cancelHangupWait) fun _ w₁ ended₁ => ?_
  refine wp.seq (reap_wp (over_waits _ .reapHangupWait) ended₁) fun _ w₂ ended₂ => ?_
  refine wp_read_bind.mpr ?_
  split
  · exact closeWindow_wp ended₂ rfl
  · exact closeWindow_wp ended₂ rfl
  · exact closeWindow_wp ended₂ rfl

theorem openWindow (here : Stands none w) : Heard { w with listen := { w.listen with
    window := some { started := w.clock } } } := by
  refine here.1.congr rfl ?_ rfl rfl (.refl _)
  have closed : w.listen.window = none := Option.map_eq_none_iff.mp here.2
  simp [finalsInTransit, AwaitUser.held, closed]

/-- The wait of a window cannot raise. -/
theorem listen_wp {timeout : Nat} (heard : Heard w) :
    (exceptCancelled (await (.listen timeout)) do
      AwaitUser.cancelAsrGet
      AwaitUser.cancelHangupWait
      raise .cancelled).wp (engine cfg) always (outcomes Heard live fun _ => Heard) w := by
  have waited : Preserves (engine cfg) always Heard (await (.listen timeout)) :=
    Preserves.wait stable (fun _ _ h => h) _
  have unfailing : Unfailing (engine cfg) (await (.listen timeout)) :=
    Unfailing.wait fun replied => nomatch replied
  refine (wp_exceptCancelled _ _).mpr (((waited w heard).and (unfailing w)).mono ?_)
  intro r w₁ post
  match r with
  | .ok _ => exact post.1
  | .error .cancelled => exact post.1.cancelAsrGet.cancelHangupWait.heard
  | .error (.error e) => exact absurd rfl (post.2 e)

theorem awaitUserOrSilence_wp (here : live w) : (awaitUserOrSilence cfg).wp (engine cfg) always
    (outcomes Heard live outcome) w := by
  refine wp_update_bind.mpr (wp_read_bind.mpr ?_)
  have noted : live ((w.note (.listening w.session.interruptionSignaled)).enter .opened) :=
    here.note rfl
  split
  · exact closeWindow_wp ⟨none, nofun, rfl, noted.1⟩ rfl
  · refine wp_update_bind.mpr (wp_read_bind.mpr ?_)
    refine wp.seq (listen_wp (openWindow noted.1)) fun _ w₁ heard₁ => ?_
    refine wp_read_bind.mpr (wp_read_bind.mpr ?_)
    split
    · exact onHangup_wp heard₁
    · split
      · exact onFinal_wp (.of_held heard₁ ‹_›)
      · exact onSilence_wp ‹_› heard₁

end Window

theorem route : RouteFrame (engine cfg) always Heard live where
  __ : Rests (engine cfg) always Heard live := rests true
  __ : EndingFrame (engine cfg) always Heard live := ending true
  round speeches here := here.session speeches
  mark own here := here.note (by
    cases ‹Mark› <;> first | rfl | cases own)
  reply i filler delay start fuel :=
    ((playback true).playStreaming i filler delay start fuel).keeps fun _ here => here.heard

theorem turnFrame : TurnFrame cfg (engine cfg) always Heard live outcome where
  toRouteFrame := route
  assertion here := here.heard
  stuck replied := nomatch replied
  dropped speeches heard := heard.session speeches
  released here := here.note rfl
  listen := awaitUserOrSilence_wp
  heard := by
    rintro o w ⟨hearing, closed, said⟩ other
    refine ⟨⟨⟨hearing, ?_⟩, closed⟩, nofun⟩
    cases o with
    | userFinal text => exact absurd rfl (other text)
    | _ => simpa [Outcome.words] using said.symm
  spoken := by
    rintro text w ⟨hearing, closed, said⟩
    refine ⟨⟨⟨hearing, ?_⟩, closed⟩, nofun⟩
    simpa [World.append, Outcome.words] using said.symm

theorem early_live (w : World) (here : early w) : live w := ⟨here.1, nofun⟩

theorem drained (here : early w) : live w.monitored := by
  obtain ⟨⟨⟨hearing, said⟩, closed⟩, unwatched⟩ := here
  have window : w.listen.window = none := Option.map_eq_none_iff.mp closed
  refine ⟨⟨⟨?_, said⟩, closed⟩, nofun⟩
  simp only [finalsInTransit, partialsInTransit, window] at hearing ⊢
  exact hearing.drain (unwatched rfl).2

/-- What is left on the lossless lane is delivered when the bus closes. -/
theorem delivered (events : List BusEvent) (empty : w.bus.lossless = [])
    (heard : Heard { w with bus := { w.bus with lossless := events } }) :
    Heard (events.foldl (World.deliver .closeBus) w) := by
  induction events generalizing w with
  | nil =>
      rw [← empty] at heard
      exact heard
  | cons e events ih =>
      have same : { w.deliver .closeBus e with
          bus := { (w.deliver .closeBus e).bus with lossless := events } } =
          { w with bus := { w.bus with lossless := events } }.deliver .closeBus e := by
        cases e <;> rfl
      have bus : (w.deliver .closeBus e).bus = w.bus := by cases e <;> rfl
      refine ih (bus ▸ empty) (same ▸ heard.step ?_ ?_)
      · exact @Engine.deliver_speech { w with bus := { w.bus with lossless := e :: events } }
          .closeBus e events rfl
      · cases e <;> rfl

theorem closeBus_preserves : Preserves (engine cfg) always Heard closeBus := by
  refine (Preserves.read _).bind fun closed => Preserves.when (Preserves.bind ?_ fun _ => ?_)
  · refine Preserves.update fun w heard => ?_
    have emptied := delivered w.bus.lossless
      (w := { w with bus := { w.bus with closed := true, lossless := [] } }) rfl
      (heard.congr rfl rfl rfl rfl (.refl _))
    exact emptied.congr rfl rfl rfl rfl (.refl _)
  · exact Preserves.wait stable (fun _ _ h => h) .closeBus

theorem cleanup_preserves : Preserves (engine cfg) always Heard RunSession.cleanup := by
  refine (Preserves.read _).bind fun pumps => Preserves.bind (Preserves.when ?_) fun _ => ?_
  · refine Preserves.bind (Preserves.update fun w heard => ?_) fun _ => ?_
    · exact heard.congr rfl rfl rfl rfl (.refl _)
    · exact Preserves.wait stable (fun _ _ h => h) .stopPumps
  · exact closeBus_preserves

abbrev verdicts : Verdicts := .throughout early live Heard outcome

theorem callRule : CallRule cfg (engine cfg) always verdicts fun _ => Heard where
  toLoopRule := turnFrame.turnRule.loop
  begin here := here.session rfl
  announce here := by
    refine ((playback false).wait (.ext .publish) _ here).mono fun r w' kept => ?_
    match r with
    | .ok _ => exact kept
    | .error _ => exact kept.heard
  dispatching here := ⟨⟨here.heard.congr rfl rfl rfl rfl (.refl _), here.1.2⟩, here.2⟩
  dial here := (ending false).phoneFrame.dialAndWaitConnected.last here early_live fun _ _ h => h
  noAnswer here := (ending false).onNoAnswer.last here early_live fun _ => early_live
  connected here := here.session (SessionEnding.transition _ _ _ _).speeches
  greeting := rests false
  greeting_failed := early_live
  ambient here := here.congr rfl rfl rfl rfl (.refl _)
  pumps here := ⟨⟨here.heard.congr rfl rfl rfl rfl (.refl _), here.1.2⟩, here.2⟩
  greet here := (plays false _ _ _).last here early_live fun _ _ h => h
  monitored := drained
  attached here := ⟨⟨here.heard.congr rfl rfl rfl rfl (.refl _), here.1.2⟩, nofun⟩
  exception here := (ending true).exception_wp here
  cleanupFinished here := cleanup_preserves.lastly here.heard _
  cleanupDropped heard := cleanup_preserves.lastly heard _

/-- Before anything was posted. -/
theorem of_fresh (fresh : w.Fresh) : early w := by
  have heard : Heard w := by
    unfold Heard
    rw [fresh.history, fresh.listen, fresh.bus, fresh.session]
    exact ⟨⟨rfl, nofun, nofun, nofun, nofun, trivial, nofun⟩, rfl⟩
  have unheard : Hearing.Unheard w.history := by
    rw [fresh.history]
    exact nofun
  exact ⟨⟨heard, by rw [fresh.listen]; rfl⟩, fun _ => ⟨by rw [fresh.listen], unheard⟩⟩

/-- In every state of every run. -/
theorem of_run {fuel : Nat} {acts : List (Action sig Move)} {c : Susp sig World Unit}
    (fresh : w.Fresh) (run : (engine cfg).exec (runSession cfg fuel w) acts = some c) :
    Heard c.state := by
  have rule : (runSession cfg fuel).wp (engine cfg) always (fun _ => Heard) w :=
    callRule.runSession_wp (of_fresh fresh)
  exact rule.always (fun _ _ h => h) (fun _ _ _ _ h => stable.move h) (fun _ _ h => h) run

end Heard

namespace Guarantees

/-- In every run of `run_session`, in any state of it: the finals that were posted since the drain
are those the listening windows have consumed, in posting order, followed by those still on their
way; a window that closes with words of the caller has them from its finals; and the transcript
has one `user_speech` event for each such window. -/
theorem finals_consumed_once (cfg : RuntimeConfig) (fuel : Nat) (w : World)
    (acts : List (Action sig Move)) (c : Susp sig World Unit) (fresh : w.Fresh)
    (run : (engine cfg).exec (runSession cfg fuel w) acts = some c) :
    arrivals c.state.history = consumed c.state.history ++
        finalsInTransit c.state.listen c.state.bus ∧
      (∀ finals text late, .batch finals (.userFinal text) late ∈ c.state.history →
        text = saidBy finals) ∧
      c.state.session.userSpeeches = spoken c.state.history := by
  obtain ⟨hearing, said⟩ := Heard.of_run fresh run
  exact ⟨hearing.flow, hearing.said, said⟩

/-- Two finals that arrive during one window are one utterance. -/
theorem coalesced_finals :
    ∃ c, (engine .minimal).exec (runSession .minimal 2 (World.initial 1 .other))
      (RunSession.listeningRun .other ++ [.move (.asrResult "好".toList true), .move .dispatch,
        .move (.asrResult "的".toList true), .move .dispatch, .move .asrGet,
        .reply (.listen 5000) (.ok ()), .reply .reapHangupWait (.error .cancelled)]) = some c ∧
      spoken c.state.history = ["好 的".toList] ∧
      c.state.session.userSpeeches = spoken c.state.history := by
  refine exists_of_map (fun c => spoken c.state.history) ["好 的".toList] (by decide +kernel)
    fun c run said => ?_
  exact ⟨said,
    (finals_consumed_once .minimal 2 _ _ c (World.initial_fresh 1 .other) run).2.2⟩

/-- In every run in which no partial transcript is on its way to the monitor when a window closes
with words of the caller, the monitor evaluates during the turn for these words only partial
transcripts that were posted after them. -/
theorem utterance_spares_own_turn (cfg : RuntimeConfig) (fuel : Nat) (w : World)
    (acts : List (Action sig Move)) (c : Susp sig World Unit) (fresh : w.Fresh)
    (run : (engine cfg).exec (runSession cfg fuel w) acts = some c)
    (arrived : ∀ finals text late, .batch finals (.userFinal text) late ∈ c.state.history →
      late = []) :
    EachMark SparesOwnTurn c.state.history := by
  obtain ⟨hearing, -⟩ := Heard.of_run fresh run
  refine hearing.evaluated.imp fun m older sub own p finals text late evaluated last => ?_
  have empty := arrived finals text late (sub (Hearing.lastBatch_mem last))
  obtain queued | newer := own p finals _ late evaluated last
  · rw [empty] at queued
    cases queued
  · exact newer

/-- A partial transcript of the next utterance stops the turn. -/
theorem next_utterance_stops_turn :
    ∃ c, (engine .refereed).exec (runSession .refereed 2 (World.initial 1 .other))
      (RunSession.listeningRun .other ++ RunSession.spokenRun "好的".toList ++ RunSession.gateRun ++
        [.move (.asrResult "等等".toList false), .move .dispatchLossy, .move .partialMonitor]) =
        some c ∧
      .evaluated ⟨"等等".toList, 1⟩ ∈ c.state.history ∧
      EachMark SparesOwnTurn c.state.history := by
  refine exists_of_map (fun c => c.state.history)
    [.trigger true, .evaluated ⟨"等等".toList, 1⟩, .turn, .batch [⟨"好的".toList, 0⟩]
     (.userFinal "好的".toList) [], .posted ⟨"好的".toList, 0⟩, .listening false, .drained 0 [] [],
       .playback .greeting] (by decide +kernel) fun c run history => ?_
  refine ⟨by simp [history], utterance_spares_own_turn .refereed 2 _ _ c
    (World.initial_fresh 1 .other) run fun finals text late member => ?_⟩
  simp only [history, List.mem_cons, Mark.batch.injEq, reduceCtorEq, List.not_mem_nil] at member
  simp_all

/-- While the window reaps its second task, a partial transcript and its final are posted and
delivered. The final is added to the words that open the turn; the partial transcript reaches the
monitor at the gate of that turn, and stops it. -/
theorem late_partial_stops_own_turn :
    ((engine .refereed).exec (runSession .refereed 2 (World.initial 1 .other))
      (RunSession.listeningRun .other ++ [.move (.asrResult "喂".toList true), .move .dispatch,
        .move .asrGet, .reply (.listen 5000) (.ok ()), .move (.asrResult "等等".toList false),
        .move (.asrResult "等等".toList true), .move .dispatchLossy, .move .dispatch,
        .reply .reapHangupWait (.error .cancelled)] ++ RunSession.gateRun ++
        [.move .partialMonitor])).map
      (fun c => (c.state.session.interruptionSignaled, c.state.session.inProcessingTurn,
        c.state.history.take 4)) =
      some (true, true, [.trigger true, .evaluated ⟨"等等".toList, 1⟩, .turn,
        .batch [⟨"喂".toList, 0⟩, ⟨"等等".toList, 2⟩] (.userFinal "喂 等等".toList)
          [⟨"等等".toList, 1⟩]]) := by
  decide +kernel

/-- In every run in which the two lanes are empty at the drain, nothing that was posted before the
drain is consumed by a window or evaluated by the monitor. -/
theorem greeting_era_discarded (cfg : RuntimeConfig) (fuel : Nat) (w : World)
    (acts : List (Action sig Move)) (c : Susp sig World Unit) (fresh : w.Fresh)
    (run : (engine cfg).exec (runSession cfg fuel w) acts = some c)
    (empty : ∀ posted finals partials, .drained posted finals partials ∈ c.state.history →
      finals = [] ∧ partials = [])
    (posted : Nat) (finals partials : List AsrResult)
    (drained : .drained posted finals partials ∈ c.state.history) :
    (∀ taken outcome late, .batch taken outcome late ∈ c.state.history →
        ∀ r ∈ taken, posted ≤ r.index) ∧
      ∀ r, .evaluated r ∈ c.state.history → posted ≤ r.index := by
  obtain ⟨hearing, -⟩ := Heard.of_run fresh run
  obtain ⟨rfl, rfl⟩ := empty posted finals partials drained
  obtain ⟨-, -, -, later⟩ := hearing.drained posted [] [] drained
  refine ⟨fun taken outcome late member r own => ?_, fun r member => ?_⟩
  · exact Nat.le_of_not_lt fun early => nomatch later _ member r own early
  · exact Nat.le_of_not_lt fun early => nomatch later _ member early

/-- What the caller says during the greeting is dropped by the drain. -/
theorem greeting_speech_discarded :
    ∃ c, (engine .minimal).exec (runSession .minimal 2 (World.initial 1 .other))
      (RunSession.greetingRun .other ++ [.move (.asrResult "喂喂".toList true), .move .dispatch,
        .move (.playEnd true), .reply .playback (.ok ())] ++ RunSession.greetedRun ++
        RunSession.spokenRun "好的".toList) = some c ∧
      .drained 1 [] [] ∈ c.state.history ∧
      ∀ taken outcome late, .batch taken outcome late ∈ c.state.history →
        ∀ r ∈ taken, 1 ≤ r.index := by
  refine exists_of_map (fun c => c.state.history)
    [.batch [⟨"好的".toList, 1⟩] (.userFinal "好的".toList) [], .posted ⟨"好的".toList, 1⟩, .listening
     false, .drained 1 [] [], .posted ⟨"喂喂".toList, 0⟩, .playback .greeting] (by decide +kernel) fun
       c run history => ?_
  have drained : .drained 1 [] [] ∈ c.state.history := by simp [history]
  have empty : ∀ posted finals partials, .drained posted finals partials ∈ c.state.history →
      finals = [] ∧ partials = [] := by
    intro posted finals partials member
    simp only [history, List.mem_cons, Mark.drained.injEq, reduceCtorEq, List.not_mem_nil] at member
    simp_all
  exact ⟨drained, (greeting_era_discarded .minimal 2 _ _ c (World.initial_fresh 1 .other)
    run empty 1 [] [] drained).1⟩

/-- A final of the greeting era is on its lane at the drain, and opens the first turn. -/
theorem greeting_speech_opens_turn :
    ((engine .refereed).exec (runSession .refereed 2 (World.initial 1 .other))
      (RunSession.greetingRun .other ++ [.move (.asrResult "喂喂".toList true),
        .move (.playEnd true), .reply .playback (.ok ())] ++ RunSession.greetedRun ++
        [.move .dispatch, .move .asrGet, .reply (.listen 5000) (.ok ()),
        .reply .reapHangupWait (.error .cancelled)] ++ RunSession.gateRun)).map
      (fun c => c.state.history) =
      some [.turn, .batch [⟨"喂喂".toList, 0⟩] (.userFinal "喂喂".toList) [], .listening false,
        .drained 1 [⟨"喂喂".toList, 0⟩] [], .posted ⟨"喂喂".toList, 0⟩, .playback .greeting] := by
  decide +kernel

end Guarantees
end IsalesEngine
