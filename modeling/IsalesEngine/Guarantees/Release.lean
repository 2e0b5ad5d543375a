import IsalesEngine.Engine.Frames

/-!
When the telephony leg of a call is released. Only the human handoff asks the
client to hang up; every other ending leaves the call registered, whether or
not the edge has reported its end. In the handoff itself the release also needs
the client's own teardown to run to its end.
-/
namespace IsalesEngine
open Asyncio Asyncio.Coro

/-- The edge knows that the call is finished, and neither the client nor the dispatcher has it. -/
structure Line.Released (l : Line) : Prop where
  told : l.terminalReported = true ∨ .cancel ∈ l.sent
  forgotten : l.inCalls = false
  deregistered : l.registered = false

/-- No hangup was attempted; a call that was dialled is known to the client. -/
structure Held (l : Line) (h : List Mark) : Prop where
  client : l.client = .rtc
  unattempted : .attemptHangup ∉ h
  known : .dial ∈ l.sent → l.inCalls = true ∧ l.registered = true

/-- A call that was not dialled yet. -/
structure Unsent (l : Line) (h : List Mark) : Prop where
  client : l.client = .rtc
  unattempted : .attemptHangup ∉ h
  undialed : .dial ∉ l.sent

theorem Unsent.held {l : Line} {h : List Mark} (unsent : Unsent l h) : Held l h :=
  ⟨unsent.client, unsent.unattempted, fun dialed => absurd dialed unsent.undialed⟩

/-- A call that was dialled and not hung up. -/
structure Up (l : Line) (h : List Mark) : Prop extends Held l h where
  dialed : .dial ∈ l.sent

/-- A call that was hung up. -/
structure Freed (l : Line) (h : List Mark) : Prop where
  attempted : .attemptHangup ∈ h
  released : l.Released

/-- A property of lines that a report of the edge keeps, and every mark but that of a hangup. -/
structure LineInvariant (J : Line → List Mark → Prop) : Prop where
  report : ∀ {l h}, J l h → J { l with terminalReported := true } h
  mark : ∀ {l h m}, J l h → m ≠ .attemptHangup → J l (m :: h)

namespace LineInvariant
variable {J : Line → List Mark → Prop} {cfg : RuntimeConfig}
  {allow : Op → Action sig Move → World → Bool}

section
variable (inv : LineInvariant J)
include inv

theorem marks {l : Line} {h h' : List Mark} (holds : J l h) (step : HistoryStep h h') : J l h' := by
  refine step.induct holds fun m h own holds => inv.mark holds ?_
  rintro rfl
  cases own

theorem stable : (allowing cfg allow).Stable fun w => J w.phone.line w.history := by
  refine Machine.Stable.restrict (Engine.stable_of ?_ ?_ ?_) allow
  · intro op m w w' holds moved
    have kept := inv.marks holds (Engine.callMove_history moved)
    obtain same | reported := Engine.callMove_line moved
    · rw [same]
      exact kept
    · rw [reported]
      exact inv.report kept
  · intro w holds
    exact inv.mark holds nofun
  · intro w w' holds frame
    have line : w'.phone.line = w.phone.line := by
      obtain same | same := frame.phone
      · rw [same]
      · rw [same]
        rfl
    rw [line]
    exact frame.noted holds (inv.mark holds nofun) (inv.mark holds nofun) (inv.mark holds nofun)

theorem waits {C : World → Prop} (drops : ∀ w : World, J w.phone.line w.history → C w) :
    Waits (allowing cfg allow) anything C (fun w => J w.phone.line w.history) :=
  .of_stable inv.stable (fun _ _ _ => trivial) drops

theorem line {C : World → Prop} (drops : ∀ w : World, J w.phone.line w.history → C w) :
    LineFrame (allowing cfg allow) anything C (fun w => J w.phone.line w.history) :=
  ⟨inv.waits drops, fun holds same => by simpa only [same] using holds⟩

theorem playback :
    PlaybackFrame (allowing cfg allow) anything (fun w => J w.phone.line w.history) := by
  refine ⟨inv.stable, fun _ _ _ => trivial, ?_⟩
  intro w w' step holds
  have line : w'.phone.line = w.phone.line := by
    rw [step.phone]
    rfl
  rw [line]
  obtain same | ⟨m, own, same⟩ := step.history
  · exact same ▸ holds
  · rw [same]
    refine inv.mark holds ?_
    rintro rfl
    cases own

theorem window {C : Line → List Mark → Prop} (drops : ∀ {l h}, J l h → C l h) :
    WindowFrame (allowing cfg allow) anything
      (fun w => C w.phone.line w.history) (fun w => J w.phone.line w.history) :=
  ⟨inv.waits fun _ => drops, fun h => inv.mark h nofun, fun h => inv.mark h nofun, id, id⟩

theorem cleanup :
    CleanupFrame (allowing cfg allow) anything (fun w => J w.phone.line w.history) := by
  refine ⟨inv.stable, fun _ _ _ => trivial, id, id, ?_⟩
  intro w e holds
  cases e with
  | manualHangupRequested | transferRequested => exact inv.mark (inv.mark holds nofun) nofun
  | _ => exact holds

end

theorem bookkeeping {w w' : World} (kept : Bookkeeping w w') (holds : J w.phone.line w.history) :
    J w'.phone.line w'.history := by
  rw [kept.frame]
  exact holds

end LineInvariant

theorem held_invariant : LineInvariant Held where
  report held := ⟨held.client, held.unattempted, held.known⟩
  mark held other :=
    ⟨held.client, List.not_mem_cons_of_ne_of_not_mem other.symm held.unattempted, held.known⟩

theorem unsent_invariant : LineInvariant Unsent where
  report unsent := ⟨unsent.client, unsent.unattempted, unsent.undialed⟩
  mark unsent other := ⟨unsent.client,
    List.not_mem_cons_of_ne_of_not_mem other.symm unsent.unattempted, unsent.undialed⟩

theorem up_invariant : LineInvariant Up where
  report up := ⟨held_invariant.report up.toHeld, up.dialed⟩
  mark up other := ⟨held_invariant.mark up.toHeld other, up.dialed⟩

theorem freed_invariant : LineInvariant Freed where
  report freed := ⟨freed.attempted, ⟨.inl rfl, freed.released.forgotten,
    freed.released.deregistered⟩⟩
  mark freed _ := ⟨List.mem_cons_of_mem _ freed.attempted, freed.released⟩

theorem ended_invariant : LineInvariant fun l h => Held l h ∨ Freed l h where
  report ended := ended.imp held_invariant.report freed_invariant.report
  mark ended other := ended.imp (held_invariant.mark · other) (freed_invariant.mark · other)

/-- The client's teardown runs to its end: the edge takes the cancel command or has reported the
end of the call before, and neither leaving the channel nor waiting for the inbound pump is
cancelled or fails in another way than by a timeout. -/
def teardownReturns : Op → Action sig Move → World → Bool
  | _, .reply (.sendToEdge .cancel) r, w => match r with
      | .ok _ => true
      | .error e => e = .error .edgeNotConnected && w.phone.terminalReported
  | _, .reply .leaveRtc r, _ => match r with
      | .error .cancelled => false
      | _ => true
  | _, .reply .awaitInboundPump r, _ => match r with
      | .ok _ => true
      | .error e => e = .error .timeout
  | _, _, _ => true

namespace Release

/-- The engine in runs whose teardown returns. -/
abbrev machine (cfg : RuntimeConfig) : Machine sig World := (engine cfg).restrict teardownReturns

variable {cfg : RuntimeConfig} {J : Line → List Mark → Prop} {w : World}

/-- A part of the teardown that returns and keeps the line as it is. -/
abbrev Returns (cfg : RuntimeConfig) (J : Line → List Mark → Prop) (x : Prog Unit) (w : World) :
    Prop :=
  x.wp (machine cfg) (fun _ _ => True)
    (outcomes (fun _ => False) (fun _ => False) fun _ w => J w.phone.line w.history) w

theorem suppressed_returns {x : Prog Unit}
    (kept : x.wp (machine cfg) anything (fun _ w => J w.phone.line w.history) w) :
    Returns cfg J (suppress isAny x) w := by
  refine wp.suppress kept fun _ w₁ holds => ⟨fun _ _ => rfl, ?_⟩
  exact holds

section
variable (inv : LineInvariant J)
include inv

theorem returns_wait (op : Op) (holds : J w.phone.line w.history) :
    (await op).wp (machine cfg) anything (fun _ w => J w.phone.line w.history) w :=
  Preserves.wait inv.stable (fun _ _ _ => trivial) op w holds

section
variable (holds : J w.phone.line w.history)
include holds

theorem stopOutboundPump_returns : Returns cfg J Telephony.stopOutboundPump w := by
  refine wp_read_bind.mpr ((wp_when _ _).mpr ?_)
  split
  · refine wp_update_bind.mpr ?_
    exact suppressed_returns (returns_wait inv .reapOutboundPump holds)
  · exact holds

theorem leaveRtc_returns : Returns cfg J (suppress isException (await .leaveRtc)) w := by
  refine wp.suppress
    (P := fun r (w : World) => r ≠ .error .cancelled ∧ J w.phone.line w.history) ?_ ?_
  · refine wp_wait.mpr ⟨trivial, ?_⟩
    intro w₁ w₂ r steps replied
    refine ⟨?_, inv.stable.reply (inv.stable.steps steps holds) replied⟩
    rintro rfl
    cases (Machine.restrict_reply_some replied).1
  · intro r w₁ ⟨uncancelled, kept⟩
    refine ⟨?_, kept⟩
    rintro e rfl
    cases e with
    | cancelled => exact absurd rfl uncancelled
    | error e => rfl

theorem inboundPump_returns : Returns cfg J (exceptError (await .awaitInboundPump) fun e =>
      if e = .timeout then suppress isAny (await .reapInboundPump) else raise (.error e)) w := by
  refine wp.exceptError (P := fun r (w : World) =>
    (∀ e : Exc Err, r = .error e → e = .error .timeout) ∧ J w.phone.line w.history) ?_ ?_ ?_ ?_
  · refine wp_wait.mpr ⟨trivial, ?_⟩
    intro w₁ w₂ r steps replied
    refine ⟨?_, inv.stable.reply (inv.stable.steps steps holds) replied⟩
    rintro e rfl
    exact of_decide_eq_true (Machine.restrict_reply_some replied).1
  · intro _ w₁ kept
    exact kept.2
  · intro w₁ kept
    cases kept.1 _ rfl
  · intro e w₁ kept
    obtain rfl := Exc.error.inj (kept.1 _ rfl)
    exact suppressed_returns (returns_wait inv .reapInboundPump kept.2)

theorem closeIterators_returns : Returns cfg J Telephony.closeIterators w := by
  refine wp_read_bind.mpr ((wp_when _ _).mpr ?_)
  split
  · refine wp_update_bind.mpr (wp_update_bind.mpr ?_)
    refine wp.seq (stopOutboundPump_returns inv holds) fun _ w₁ holds₁ => ?_
    refine wp_read_bind.mpr (wp.seq (L := fun _ w => J w.phone.line w.history) ?_ ?_)
    · refine (wp_when _ _).mpr ?_
      split
      · exact wp.seq (leaveRtc_returns inv holds₁) fun _ _ kept => kept
      · exact holds₁
    · intro _ w₂ holds₂
      exact inboundPump_returns inv holds₂
  · exact holds

end

end

/-- A hangup that was attempted while the client knows the call. -/
theorem ringing_invariant :
    LineInvariant fun l h => .attemptHangup ∈ h ∧ l.client = .rtc ∧ l.inCalls = true where
  report holds := holds
  mark holds _ := ⟨List.mem_cons_of_mem _ holds.1, holds.2⟩

/-- A hangup of which the edge knows. -/
theorem told_invariant : LineInvariant fun l h =>
    .attemptHangup ∈ h ∧ (l.terminalReported = true ∨ .cancel ∈ l.sent) where
  report holds := ⟨holds.1, .inl rfl⟩
  mark holds _ := ⟨List.mem_cons_of_mem _ holds.1, holds.2⟩

theorem sendCancel_returns (attempted : .attemptHangup ∈ w.history)
    (known : w.phone.client = .rtc ∧ w.phone.inCalls = true) :
    Returns cfg (fun l h => .attemptHangup ∈ h ∧ (l.terminalReported = true ∨ .cancel ∈ l.sent))
      (suppress (fun e => e = .error .edgeNotConnected) (Telephony.send .cancel)) w := by
  refine wp.suppress (P := fun r (w : World) =>
    (∀ e : Exc Err, r = .error e → e = .error .edgeNotConnected) ∧
    .attemptHangup ∈ w.history ∧ (w.phone.terminalReported = true ∨ .cancel ∈ w.phone.sent)) ?_ ?_
  · refine wp.bind (P := fun r (w : World) => .attemptHangup ∈ w.history ∧
      ∀ e : Exc Err, r = .error e →
        e = .error .edgeNotConnected ∧ w.phone.terminalReported = true)
      (wp_wait.mpr ⟨trivial, ?_⟩) (fun _ w₁ kept => ⟨nofun, kept.1, .inr (by simp)⟩) ?_
    · intro w₁ w₂ r steps replied
      have inv := ringing_invariant
      have kept := inv.stable.reply (inv.stable.steps steps ⟨attempted, known⟩) replied
      refine ⟨kept.1, ?_⟩
      rintro e rfl
      obtain ⟨allowed, resumed⟩ := Machine.restrict_reply_some replied
      obtain ⟨lost, reported⟩ := Bool.and_eq_true_iff.mp allowed
      refine ⟨of_decide_eq_true lost, ?_⟩
      obtain rfl | rfl := (Engine.plain_some resumed).resumed
      · exact reported
      · exact reported
    · intro e w₁ kept
      obtain ⟨lost, reported⟩ := kept.2 e rfl
      exact ⟨fun e' same => Except.error.inj same ▸ lost, kept.1, .inl reported⟩
  · intro r w₁ ⟨lost, kept⟩
    exact ⟨fun e same => decide_eq_true (lost e same), kept⟩

theorem attemptHangup_returns (up : Up w.phone.line w.history) :
    Returns cfg Freed Telephony.attemptHangup w := by
  have known := up.known up.dialed
  refine wp_update_bind.mpr (wp.exceptError (P := outcomes (fun _ => False) (fun _ => False)
    fun _ (w : World) => Freed w.phone.line w.history) ?_ (fun _ _ h => h) (fun _ h => h)
    (fun _ _ h => h.elim))
  refine wp_read_bind.mpr ?_
  have client : (w.note .attemptHangup).phone.client = .rtc := up.client
  rw [client]
  refine wp_read_bind.mpr ((wp_when _ _).mpr ?_)
  have active : (w.note .attemptHangup).phone.inCalls = true := known.1
  rw [if_pos active]
  refine wp.seq (sendCancel_returns (List.mem_cons_self ..) ⟨client, active⟩) ?_
  intro _ w₁ told
  refine wp_update_bind.mpr ?_
  refine wp.seq (closeIterators_returns told_invariant told) fun _ w₂ told₂ => ?_
  exact ⟨told₂.1, told₂.2, rfl, rfl⟩

/-- The assertions of a call whose line is held until a handoff hangs it up. -/
def verdicts : Verdicts where
  dialing w := Unsent w.phone.line w.history ∧ w.phone.inCalls = false
  dialed w := Up w.phone.line w.history
  greeting w := Up w.phone.line w.history
  live w := Up w.phone.line w.history
  loose w := Up w.phone.line w.history
  processing w := Up w.phone.line w.history
  gated w := Up w.phone.line w.history
  aborting w := Up w.phone.line w.history
  heard _ w := Up w.phone.line w.history
  finished w := Held w.phone.line w.history ∨ Freed w.phone.line w.history
  failed w := Held w.phone.line w.history
  dropped w := Held w.phone.line w.history ∨ Freed w.phone.line w.history

theorem held_wp {α : Type} {x : Prog α}
    (kept : Keeps (machine cfg) anything verdicts.dropped (fun w => J w.phone.line w.history) x)
    (holds : J w.phone.line w.history) (held : ∀ {l h}, J l h → Held l h) :
    x.wp (machine cfg) anything (verdicts.post fun _ w => J w.phone.line w.history) w :=
  kept.last holds (fun _ h => held h) fun _ _ h => h

theorem send_dial_wp (unsent : Unsent w.phone.line w.history)
    (known : w.phone.inCalls = true ∧ w.phone.registered = true) :
    (Telephony.send .dial).wp (machine cfg) anything
      (outcomes (fun w => Unsent w.phone.line w.history) (fun w => Unsent w.phone.line w.history)
        fun _ w => Up w.phone.line w.history) w := by
  have inv : LineInvariant fun l h => Unsent l h ∧ l.inCalls = true ∧ l.registered = true :=
    ⟨fun h => ⟨unsent_invariant.report h.1, h.2⟩,
      fun h other => ⟨unsent_invariant.mark h.1 other, h.2⟩⟩
  refine wp.bind (returns_wait inv (.sendToEdge .dial) ⟨unsent, known⟩) ?_ ?_
  · intro _ w₁ ⟨unsent₁, known₁⟩
    exact ⟨⟨unsent₁.client, unsent₁.unattempted, fun _ => known₁⟩, by simp [Phone.line]⟩
  · intro e w₁ ⟨unsent₁, _⟩
    cases e with
    | cancelled | error e => exact unsent₁

theorem rtcDial_wp (unsent : Unsent w.phone.line w.history) (idle : w.phone.inCalls = false) :
    Telephony.rtcDial.wp (machine cfg) anything
      (verdicts.post fun _ w => Up w.phone.line w.history) w := by
  have frame : LineFrame (machine cfg) anything verdicts.dropped
      (fun w => Unsent w.phone.line w.history) :=
    unsent_invariant.line fun _ h => .inl h.held
  have knownInv : LineInvariant fun l h => Unsent l h ∧ l.inCalls = true :=
    ⟨fun h => ⟨unsent_invariant.report h.1, h.2⟩,
      fun h other => ⟨unsent_invariant.mark h.1 other, h.2⟩⟩
  refine wp_read_bind.mpr ?_
  rw [idle]
  refine wp.seq (held_wp (Keeps.pure ()) unsent Unsent.held) fun _ w₀ unsent₀ => ?_
  refine wp.seq (held_wp (frame.wait (.ext .signForCall) rfl) unsent₀ Unsent.held) ?_
  intro _ w₁ unsent₁
  refine wp.seq (held_wp (frame.wait .joinRtc rfl) unsent₁ Unsent.held) fun _ w₂ unsent₂ => ?_
  refine wp_update_bind.mpr ?_
  refine wp.seq (held_wp (frame.wait (.ext .resolveEdge) rfl) unsent₂ Unsent.held) ?_
  intro _ w₃ unsent₃
  refine wp_update_bind.mpr ?_
  have known : Unsent { w₃.phone.line with inCalls := true } w₃.history ∧ true = true :=
    ⟨⟨unsent₃.client, unsent₃.unattempted, unsent₃.undialed⟩, rfl⟩
  refine wp.seq (held_wp (J := fun l h => Unsent l h ∧ l.inCalls = true)
    ((knownInv.waits fun _ h => .inl h.1.held).wait (.ext .registerCall) rfl) known
      fun h => h.1.held) ?_
  intro _ w₄ ⟨unsent₄, known₄⟩
  refine wp_update_bind.mpr ?_
  refine wp.exceptError (send_dial_wp ?_ ⟨known₄, rfl⟩) (fun _ _ up => up)
    (fun w₅ unsent₅ => .inl (Unsent.held unsent₅)) fun e w₅ unsent₅ => ?_
  · exact ⟨unsent₄.client, unsent₄.unattempted, unsent₄.undialed⟩
  have unwind : Keeps (machine cfg) anything verdicts.dropped
      (fun w => Unsent w.phone.line w.history) (when (e = .edgeNotConnected) do
        Telephony.putEvent (some .deviceError)
        Telephony.closeIterators
        Telephony.purgeCall) := by
    refine Keeps.when ((frame.putEvent _).bind fun _ => ?_)
    refine frame.closeIterators.bind fun _ => Keeps.update fun w holds => ?_
    exact ⟨holds.client, holds.unattempted, holds.undialed⟩
  exact wp.seq (held_wp unwind unsent₅ Unsent.held) fun _ _ unsent₆ => unsent₆.held

theorem up_waits : Waits (machine cfg) anything verdicts.dropped verdicts.live :=
  up_invariant.waits fun _ up => .inl up.toHeld

theorem dial_wp (unsent : Unsent w.phone.line w.history) (idle : w.phone.inCalls = false) :
    dialAndWaitConnected.wp (machine cfg) anything
      (verdicts.post fun _ w => Up w.phone.line w.history) w := by
  refine wp.seq (L := fun _ w => Up w.phone.line w.history) ?_ fun _ w₁ up => ?_
  · refine wp_read_bind.mpr ?_
    have client : w.phone.client = .rtc := unsent.client
    rw [client]
    exact rtcDial_wp unsent idle
  · exact held_wp up_waits.awaitAnswer up Up.toHeld

theorem up_plays (site : PlaySite) (text : Text) (interruptible : Bool) :
    Keeps (machine cfg) anything verdicts.dropped verdicts.live (playTts site text interruptible) :=
  (up_invariant.playback.playTts site text interruptible).keeps fun _ up => .inl up.toHeld

theorem up_playTts (site : PlaySite) (text : Text) (interruptible : Bool)
    (up : Up w.phone.line w.history) : (playTts site text interruptible).wp (machine cfg)
      anything (verdicts.post fun _ w => Up w.phone.line w.history) w :=
  held_wp (up_plays site text interruptible) up Up.toHeld

theorem up_rests : Rests (machine cfg) anything verdicts.dropped verdicts.live :=
  .of up_waits LineInvariant.bookkeeping

/-- Every ending but the handoff leaves the line as it is. -/
theorem finished_of_up {cause : Option HangupCause} (up : Up w.phone.line w.history) :
    Held w.phone.line (.recorded cause :: w.history) ∨
      Freed w.phone.line (.recorded cause :: w.history) :=
  .inl (held_invariant.mark up.toHeld nofun)

theorem attemptHangup_wp (up : Up w.phone.line w.history) :
    Telephony.attemptHangup.wp (machine cfg) anything
      (verdicts.post fun _ w => Freed w.phone.line w.history) w :=
  (attemptHangup_returns up).mono (outcomes_mono (fun _ h => False.elim h)
    (fun _ h => False.elim h) fun _ _ h => h)

theorem performHandoff_wp {type detail : String} {phrase : Text} (up : Up w.phone.line w.history) :
    (performHandoff type detail phrase).wp (machine cfg) anything
      (verdicts.post fun _ => verdicts.finished) w := by
  refine wp_update_bind.mpr (wp_update_bind.mpr ?_)
  refine wp.seq (held_wp (Keeps.when (up_plays _ _ _)) up Up.toHeld) ?_
  intro _ w₁ up₁
  refine wp_update_bind.mpr (wp_update_bind.mpr ?_)
  refine wp.seq (attemptHangup_wp ?_) ?_
  · exact up₁
  intro _ w₂ freed
  exact .inr (freed_invariant.mark freed nofun)

theorem up_window : WindowFrame (machine cfg) anything verdicts.dropped verdicts.live :=
  up_invariant.window (C := fun l h => Held l h ∨ Freed l h) fun h => .inl h.toHeld

theorem turnRule : TurnRule cfg (machine cfg) anything verdicts where
  live := up_rests
  loose := up_rests
  processing := up_rests
  aborting := up_rests
  exhausted _ := trivial
  stuck replied := nomatch (Machine.restrict_reply_some replied).2
  live_failed _ := Up.toHeld
  loose_failed _ := Up.toHeld
  gated_failed _ := Up.toHeld
  aborting_failed _ := Up.toHeld
  stopped up _ := .inl up.toHeld
  listen up := held_wp (up_window.awaitUserOrSilence cfg) up Up.toHeld
  heard up _ := up
  spoken up := up
  activation up := up_playTts _ _ _ up
  capped up := up_playTts _ _ _ up
  listenOnly up := up_playTts _ _ _ up
  reply := by
    intro i filler delay start fuel w up
    refine (held_wp ((up_invariant.playback.playStreaming i filler delay start fuel).keeps
      fun _ up => .inl up.toHeld) up Up.toHeld).imp ?_
    intro r w' kept
    unfold Verdicts.after
    split
    · exact kept
    · exact kept
  released up := up_invariant.mark up nofun
  settled up := up
  turn up := up_invariant.mark up nofun
  wrapUpReply up := up_invariant.mark up nofun
  wrapUpPlayed up := up_invariant.mark up nofun
  wrapUpCut up := up_invariant.mark up nofun
  round up := up
  forget up := up
  closing up := up
  enterGate up := up_invariant.mark up nofun
  gate := up_waits.wait .gate rfl
  leaveGate up := up
  dropGate dropped := dropped
  unsignaled up _ := up
  signaled up _ := up
  aborted up := up_invariant.mark up nofun
  handoff := performHandoff_wp
  hangupRoute up := by
    refine wp_update_bind.mpr ?_
    refine wp.seq (held_wp (Keeps.when (up_plays _ _ _)) up Up.toHeld) ?_
    intro _ w₁ up₁
    exact finished_of_up up₁
  complete up := by
    refine (up_rests.pickFrom _ _).seq up (fun _ => Up.toHeld) fun phrase w₁ up₁ => ?_
    exact wp.seq (up_playTts _ _ _ up₁) fun _ w₂ up₂ => finished_of_up up₂
  refereeHangup up := finished_of_up up
  remoteHangup up := finished_of_up up
  silenceHangup up := by
    refine wp.seq (held_wp (Keeps.when (up_plays _ _ _)) up Up.toHeld) ?_
    intro _ w₁ up₁
    exact finished_of_up up₁

theorem callRule : CallRule cfg (machine cfg) anything verdicts (fun _ => verdicts.finished) where
  toLoopRule := turnRule.loop
  begin unsent := unsent
  announce unsent := by
    have inv : LineInvariant fun l h => Unsent l h ∧ l.inCalls = false :=
      ⟨fun h => ⟨unsent_invariant.report h.1, h.2⟩,
        fun h other => ⟨unsent_invariant.mark h.1 other, h.2⟩⟩
    refine (returns_wait inv (.ext .publish) unsent).mono fun r w₁ kept => ?_
    cases r with
    | ok _ => exact kept
    | error e => exact .inl kept.1.held
  dispatching unsent := unsent
  dial unsent := dial_wp unsent.1 unsent.2
  noAnswer up := finished_of_up up
  connected up := up
  greeting := up_rests
  greeting_failed _ := Up.toHeld
  ambient up := up
  pumps up := up
  greet up := up_playTts _ _ _ up
  monitored up := up_invariant.mark up nofun
  attached up := up
  exception held := by
    refine wp_read_bind.mpr (wp.seq (L := fun _ w => Held w.phone.line w.history) ?_ ?_)
    · refine (wp_when _ _).mpr ?_
      split
      · exact held
      · exact held
    · intro _ w₁ held₁
      exact .inl (held_invariant.mark held₁ nofun)
  cleanupFinished ended := by
    refine (ended_invariant.cleanup.cleanup _ ended).mono fun r w' kept => ?_
    cases r with
    | ok _ | error e => exact kept
  cleanupDropped ended := by
    refine (ended_invariant.cleanup.cleanup _ ended).mono fun r w' kept => ?_
    cases r with
    | ok _ | error e => exact kept

end Release

namespace Guarantees

/-- In every run of `run_session` over the RTC client in which the call was dialled and the
client's teardown, if it is entered, returns: the telephony leg is released by the end if and only
if the run has asked the client to hang up, which only the handoff does. -/
theorem line_released_iff_hangup_attempted (cfg : RuntimeConfig) (fuel : Nat) (w : World)
    (acts : List (Action sig Move)) (c : Susp sig World Unit) (fresh : w.Fresh)
    (client : w.phone.client = .rtc)
    (run : ((engine cfg).restrict teardownReturns).exec (runSession cfg fuel w) acts = some c)
    (ended : ∃ r, c.result? = some r) (dialed : .dial ∈ c.state.phone.sent) :
    c.state.phone.line.Released ↔ .attemptHangup ∈ c.state.history := by
  obtain ⟨r, result⟩ := ended
  have dialing : Release.verdicts.dialing w := by
    refine ⟨⟨client, ?_, ?_⟩, ?_⟩
    · rw [fresh.history]
      exact nofun
    · rw [fresh.phone]
      exact nofun
    · rw [fresh.phone]
  have final := (Release.callRule.runSession_wp dialing).result run result
  cases final with
  | inl held =>
      refine ⟨fun released => ?_, fun attempted => absurd attempted held.unattempted⟩
      have known := (held.known dialed).1
      rw [released.forgotten] at known
      cases known
  | inr freed => exact ⟨fun _ => freed.attempted, fun _ => freed.released⟩

/-- A keyword of the caller asks for a human. -/
def handoffConfig : RuntimeConfig := { RuntimeConfig.minimal with
  transfer := { RuntimeConfig.minimal.transfer with
    keywordEnabled := true, keywords := ["人工".toList] } }

/-- The caller asks for a human; the call is marked and hung up. -/
def handoffRun : List (Action sig Move) :=
  RunSession.listeningRun .rtc ++ RunSession.spokenRun "转人工".toList ++
    [.reply (.ext .publish) (.ok ()), .reply (.sendToEdge .cancel) (.ok ()),
      .reply .reapOutboundPump (.error .cancelled), .reply .leaveRtc (.ok ()),
      .reply .awaitInboundPump (.ok ()), .move .asrPumpEnd, .move .evPump, .move .monitorEnd,
      .reply .stopPumps (.ok ()), .reply .closeBus (.ok ())]

theorem handoff_releases_line :
    ∃ c, ((engine handoffConfig).restrict teardownReturns).exec
      (runSession handoffConfig 2 (World.initial 1 .rtc)) handoffRun = some c ∧
      c.state.phone.line.Released := by
  refine exists_of_map (fun c =>
    (c.result?, c.state.phone.sent, decide (.attemptHangup ∈ c.state.history)))
      (some (.ok ()), [.dial, .cancel], true) (by decide) fun c run facts => ?_
  obtain ⟨result, facts⟩ := Prod.mk.inj facts
  obtain ⟨sent, attempted⟩ := Prod.mk.inj facts
  exact (line_released_iff_hangup_attempted handoffConfig 2 (World.initial 1 .rtc)
    handoffRun c (World.initial_fresh 1 .rtc) rfl run ⟨_, result⟩ (by simp [sent])).mpr
    (of_decide_eq_true attempted)

/-- After a remote hangup the call stays in the client's table and with the dispatcher; after a
cancel the edge is not even told. -/
theorem ended_call_keeps_line :
    ((engine .minimal).exec (runSession .minimal 2 (World.initial 1 .rtc))
      (RunSession.listeningRun .rtc ++ RunSession.hangupRun .rtc ++ RunSession.cleanupRun)).map
      (fun c => (c.result?, c.state.phone.sent, c.state.phone.terminalReported,
        c.state.phone.inCalls, c.state.phone.registered)) =
        some (some (.ok ()), [.dial], true, true, true) ∧
    ((engine .minimal).exec (runSession .minimal 2 (World.initial 1 .rtc))
      (RunSession.listeningRun .rtc ++ [.move .cancelAll, .reply (.listen 5000) (.error .cancelled),
        .move .evPump] ++ RunSession.cleanupRun)).map
      (fun c => (c.result?, c.state.phone.sent, c.state.phone.terminalReported,
        c.state.phone.inCalls, c.state.phone.registered)) =
        some (some (.error .cancelled), [.dial], false, true, true) := by
  refine ⟨?_, ?_⟩ <;> decide

end Guarantees
end IsalesEngine
