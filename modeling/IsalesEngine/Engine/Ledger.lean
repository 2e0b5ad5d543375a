import IsalesEngine.Engine.Inventory

/-!
The ledger of a call: the turn ids it has drawn, the interruptions it counts,
whether it is wrapping up, its trace rows, the transcript events that `main`
writes, and what the history says about the replies. Only `main` writes to it.
`Booked` asserts something of the ledger and that some streams belong to the
turn in progress; it survives every part of a call that leaves the ledger alone.
-/
namespace IsalesEngine
open Asyncio Asyncio.Coro

/-- The replies of a call as its history has them: how many interrupted ones stood when the turn
began, whether the turn has replied, whether it was interrupted, and whether the caller's turn has
begun after it. -/
structure Tally where
  older : Nat := 0
  replied : Bool := false
  cut : Bool := false
  callersTurn : Bool := false
  deriving DecidableEq, Repr

namespace Tally

/-- The turns that were interrupted since the last reply in full and the last cue. -/
def standing (t : Tally) : Nat :=
  if t.cut then t.older + 1 else if t.replied then 0 else t.older

def after (t : Tally) : Mark → Tally
  | .listening _ => { t with callersTurn := true }
  | .turn => { older := t.standing }
  | .playback .listenOnlyCue => {}
  | .released .. | .wrapUpReply | .playback .sentence => { t with replied := true }
  | .cut _ | .abort => { t with cut := true }
  | _ => t

end Tally

def tally : List Mark → Tally
  | [] => {}
  | m :: h => (tally h).after m

/-- A mark that says nothing about the replies. -/
def Mark.Untallied (m : Mark) : Prop := ∀ t : Tally, t.after m = t

theorem HistoryStep.tally {h h' : List Mark} (step : HistoryStep h h') :
    IsalesEngine.tally h' = IsalesEngine.tally h := by
  refine step.induct (P := fun h' => IsalesEngine.tally h' = IsalesEngine.tally h) rfl ?_
  intro m h own same
  cases m with
  | cancel | terminate | evaluated _ | trigger _ | posted _ | lost _ | finalizing => exact same
  | _ => cases own

def TranscriptEvent.byMain (e : TranscriptEvent) : Bool := !e.byOthers && !e.isStateWarning

namespace CallSession

/-- What `main` itself has written to the transcript, warnings apart. -/
def entries (s : CallSession) : List TranscriptEvent := s.events.filter TranscriptEvent.byMain

theorem entries_appendEvent (s : CallSession) (now : Nat) {e : TranscriptEvent}
    (own : e.byMain = true) : (s.appendEvent now e).entries = s.entries ++ [e] := by
  simp [entries, own]

theorem entries_transitionTo (s : CallSession) (now : Nat) (new : CallStatus) (reason : String) :
    (StateMachine.transitionTo s now new reason).entries = s.entries := by
  unfold StateMachine.transitionTo
  split_ifs
  · rfl
  · rfl
  · show (s.appendEvent now (.stateWarning reason s.state new)).entries = s.entries
    simp [entries, TranscriptEvent.byMain, TranscriptEvent.isStateWarning]

end CallSession

structure Ledger where
  drawn : Nat := 0
  interruptions : Nat := 0
  wrappingUp : Bool := false
  records : List TraceRecord := []
  events : List TranscriptEvent := []
  tally : Tally := {}

namespace Ledger

def mark (L : Ledger) (m : Mark) : Ledger := { L with tally := L.tally.after m }

def write (L : Ledger) (e : TranscriptEvent) : Ledger := { L with events := L.events ++ [e] }

def record (L : Ledger) (r : TraceRecord) : Ledger := { L with records := L.records ++ [r] }

def draw (L : Ledger) : Ledger := { L with drawn := L.drawn + 1 }

def interrupt (L : Ledger) : Ledger := { L with interruptions := L.interruptions + 1 }

end Ledger

namespace World
variable (w : World)

def ledger : Ledger where
  drawn := w.session.currentTurnId
  interruptions := w.session.consecutiveInterruptionCount
  wrappingUp := w.session.inWrapUp
  records := w.pipelineTraceRecords
  events := w.session.entries
  tally := tally w.history

/-- A call begins with an empty ledger. -/
theorem Fresh.ledger {w : World} (fresh : w.Fresh) :
    w.ledger = { records := w.pipelineTraceRecords } := by
  unfold World.ledger
  rw [fresh.session, fresh.history]
  rfl

/-- The turn each stream belongs to, and whether it re-voices a text. -/
def voices : List (Nat × Bool) := w.streams.map fun st => (st.turnId, st.isRestructure)

theorem ledger_append {e : TranscriptEvent} (own : e.byMain = true) :
    (w.append e).ledger = w.ledger.write e := by
  simp only [ledger, append, Ledger.write, CallSession.entries_appendEvent _ _ own]
  rfl

theorem ledger_note {m : Mark} (untallied : m.Untallied) : (w.note m).ledger = w.ledger := by
  simp only [ledger, note, tally, untallied (tally w.history)]

theorem ledger_transition (new : CallStatus) (reason : String) :
    (w.transition new reason).ledger = w.ledger := by
  unfold ledger transition
  rw [CallSession.entries_transitionTo]
  unfold StateMachine.transitionTo
  split_ifs
  · rfl
  · rfl
  · rfl

theorem voices_setStream {i : Nat} {st : Stream} (turnId : st.turnId = (w.stream i).turnId)
    (restructure : st.isRestructure = (w.stream i).isRestructure) :
    (w.setStream i st).voices = w.voices :=
  World.map_setStream (fun st => (st.turnId, st.isRestructure)) (by rw [turnId, restructure])

theorem stream_of_voice {w : World} {i : Nat} {voice : Nat × Bool}
    (here : w.voices[i]? = some voice) :
    (w.stream i).turnId = voice.1 ∧ (w.stream i).isRestructure = voice.2 := by
  simp only [voices, List.getElem?_map, Option.map_eq_some_iff] at here
  obtain ⟨st, found, rfl⟩ := here
  simp [stream, found]

theorem ledger_deliver (e : BusEvent) : (w.deliver .closeBus e).ledger = w.ledger := by
  cases e <;> rfl

/-- The stream of the reply in progress, and whether it has been played so far without a cut. -/
def speaking : Option (Nat × Bool) := w.pipe.map fun p => (p.stream, p.fullyPlayed)

end World

namespace Engine
variable {cfg : RuntimeConfig} {op : Op} {m : Move} {w w' : World}

section
variable (h : callMove cfg op w m = some w')
include h

theorem callMove_entries : w'.session.entries = w.session.entries := by
  obtain same | ⟨-, ts, e, grown, byOthers⟩ := callMove_transcript h
  · simp [CallSession.entries, CallSession.events, same]
  · simp [CallSession.entries, CallSession.events, grown, TranscriptEvent.byMain, byOthers]

theorem callMove_ledger : w'.ledger = w.ledger := by
  obtain ⟨drawn, interruptions, records⟩ := callMove_counts h
  have wrappingUp : w'.session.inWrapUp = w.session.inWrapUp :=
    congrArg WrapUp.active (callMove_mainOwned h).wrapUp
  simp only [World.ledger, drawn, interruptions, wrappingUp, records, callMove_entries h,
    (callMove_history h).tally]

theorem callMove_voices : w'.voices = w.voices := by
  obtain same | ⟨j, st, same, -, restructure, turnId⟩ := callMove_built h
  · simp [World.voices, same]
  · rw [World.voices, same]
    exact World.voices_setStream w turnId restructure

end

theorem ReplyFrame.ledger (frame : ReplyFrame w w') : w'.ledger = w.ledger := by
  have same : tally w'.history = tally w.history :=
    frame.noted (P := (tally · = tally w.history)) rfl rfl rfl rfl
  simp only [World.ledger, frame.session, frame.records, same]

theorem reply_ledger {allow : Op → Action sig Move → World → Bool} {r : Reply op.Res}
    (h : (allowing cfg allow).reply op r w = some w') : w'.ledger = w.ledger :=
  (reply_frame (Machine.restrict_reply_some (M := engine cfg) h).2).ledger

/-- Only `main` says which stream a reply is of and marks it as cut. -/
theorem speaking_stable (flag : Option (Nat × Bool) → Prop) :
    (engine cfg).Stable fun w => flag w.speaking := by
  refine stable_of ?_ ?_ ?_
  · intro op m w w' here moved
    have same : w'.speaking = w.speaking := by
      cases pipe : w.pipe with
      | none => simp [World.speaking, pipe, callMove_pipe_none moved pipe]
      | some p =>
          obtain ⟨p', pipe', stream, played, -⟩ := callMove_pipe moved pipe
          simp [World.speaking, pipe, pipe', stream, played]
    exact same ▸ here
  · intro w here
    exact here
  · intro w w' here frame
    obtain same | ⟨p, pipe, same⟩ := frame.pipe
    · simpa [World.speaking, same] using here
    · simpa [World.speaking, same, pipe] using here

end Engine

/-- The ledger is as `P` says, and the streams `own` belong to the turn drawn last. -/
structure Booked (P : Ledger → Prop) (own : List Nat) (revoices : Bool) (w : World) : Prop where
  ledger : P w.ledger
  voices : ∀ i ∈ own, w.voices[i]? = some (w.ledger.drawn, revoices)

namespace Booked
variable {cfg : RuntimeConfig} {allow : Op → Action sig Move → World → Bool}
  {A P Q : Ledger → Prop} {own : List Nat} {revoices : Bool} {w w' : World}

section Kept
variable (booked : Booked P own revoices w)
include booked

theorem aside (ledger : w'.ledger = w.ledger) (grown : w.voices <+: w'.voices) :
    Booked P own revoices w' := by
  refine ⟨ledger ▸ booked.ledger, fun i member => ?_⟩
  obtain ⟨more, same⟩ := grown
  have here := booked.voices i member
  rw [← same, List.getElem?_append_left (List.getElem?_eq_some_iff.mp here).1, here, ledger]

/-- An update that touches neither the ledger nor the streams. -/
theorem unchanged (ledger : w'.ledger = w.ledger) (voices : w'.voices = w.voices) :
    Booked P own revoices w' := booked.aside ledger (voices ▸ List.prefix_rfl)

/-- An update of the ledger that draws no turn id. -/
theorem turn (ledger : Q w'.ledger) (drawn : w'.ledger.drawn = w.ledger.drawn)
    (voices : w'.voices = w.voices) : Booked Q own revoices w' := by
  refine ⟨ledger, fun i member => ?_⟩
  rw [voices, drawn]
  exact booked.voices i member

theorem imp (weaker : P w.ledger → Q w.ledger) : Booked Q own revoices w :=
  ⟨weaker booked.ledger, booked.voices⟩

theorem mono {own' : List Nat} (fewer : own' ⊆ own) : Booked P own' revoices w :=
  ⟨booked.ledger, fun i member => booked.voices i (fewer member)⟩

/-- A stream is built for the turn. -/
theorem addStream {st : Stream} (turnId : st.turnId = w.ledger.drawn)
    (restructure : st.isRestructure = revoices) :
    Booked P (w.streams.length :: own) revoices (w.addStream st) := by
  refine ⟨booked.ledger, fun i member => ?_⟩
  obtain rfl | member := List.mem_cons.mp member
  · rw [← restructure]
    show ((w.streams ++ [st]).map _)[w.streams.length]? = some (w.ledger.drawn, _)
    simp [turnId]
  · have grown : w.voices <+: (w.addStream st).voices := by
      simp [World.voices]
    have kept : Booked P own revoices (w.addStream st) :=
      booked.aside rfl grown
    exact kept.voices i member

end Kept

theorem stable : (allowing cfg allow).Stable (Booked P own revoices) := by
  refine Machine.Stable.restrict (Engine.stable_of ?_ ?_ ?_) _
  · intro op m w w' booked moved
    exact booked.unchanged (Engine.callMove_ledger moved) (Engine.callMove_voices moved)
  · intro w booked
    exact booked.unchanged (w.ledger_note (m := .cancel) fun _ => rfl) rfl
  · intro w w' booked frame
    exact booked.unchanged frame.ledger (by rw [World.voices, frame.streams]; rfl)

theorem update {C : World → Prop} {I : Op → World → Prop} {f : World → World}
    (ledger : ∀ w, (f w).ledger = w.ledger) (voices : ∀ w, (f w).voices = w.voices) :
    Keeps (allowing cfg allow) I C (Booked P own revoices) (update f) :=
  Keeps.update fun w booked => booked.unchanged (ledger w) (voices w)

theorem transition {C : World → Prop} {I : Op → World → Prop} (new : CallStatus) (reason : String) :
    Keeps (allowing cfg allow) I C (Booked P own revoices) (transition new reason) :=
  update (fun w => w.ledger_transition new reason) fun _ => rfl

variable (sound : ∀ L, P L → A L)
include sound

theorem accounted (w : World) (booked : Booked P own revoices w) : A w.ledger :=
  sound _ booked.ledger

theorem waits : Waits (allowing cfg allow) (fun _ w => A w.ledger) (fun w => A w.ledger)
    (Booked P own revoices) := .of_stable stable (fun _ => accounted sound) (accounted sound)

theorem helps : Helps (allowing cfg allow) (fun _ w => A w.ledger) (fun w => A w.ledger)
    (Booked P own revoices) where
  toWaits := waits sound
  stream _ turnId restructure booked :=
    booked.unchanged rfl (World.voices_setStream _ turnId restructure)
  tasks booked := booked.unchanged rfl rfl

/-- A phrase is played: its mark takes `Q` to `P`. -/
theorem playTts_wp {site : PlaySite} {text : Text} {interruptible : Bool}
    (enter : ∀ L, Q L → P (L.mark (.playback site))) (booked : Booked Q own revoices w) :
    (playTts site text interruptible).wp (allowing cfg allow) (fun _ w => A w.ledger)
      (outcomes (fun w => A w.ledger) (Booked P own revoices) fun _ => Booked P own revoices)
      w := by
  have started : Booked P own revoices (w.startPlay site text interruptible) :=
    booked.turn (enter _ booked.ledger) rfl rfl
  refine wp.seq (playChunks_wp (R := fun _ => Booked P own revoices)
    (N := fun _ => Booked P own revoices) ?_ ?_ ?_ ?_ ?_) fun _ _ played => played
  · exact wp_wait_stable stable started (accounted sound)
  · intro w₁ played
    exact played.unchanged rfl rfl
  · intro w₁ played _
    exact played.unchanged rfl rfl
  · intro w₁ played _
    exact sound w₁.ledger played.ledger
  · intro e w₁ played
    exact played.unchanged rfl rfl

/-- A phrase whose playback the tally does not count. -/
theorem playTts {site : PlaySite} (untallied : (Mark.playback site).Untallied) (text : Text)
    (interruptible : Bool) :
    Keeps (allowing cfg allow) (fun _ w => A w.ledger) (fun w => A w.ledger)
      (Booked P own revoices) (playTts site text interruptible) := by
  have enter : ∀ L, P L → P (L.mark (.playback site)) := by
    intro L here
    rwa [Ledger.mark, untallied]
  exact fun w booked => playTts_wp sound enter booked

theorem window (listening : ∀ L signaled, P L → P (L.mark (.listening signaled))) :
    WindowFrame (allowing cfg allow) (fun _ w => A w.ledger) (fun w => A w.ledger)
      (Booked P own revoices) where
  toWaits := waits sound
  listening booked := booked.turn (listening _ _ booked.ledger) rfl rfl
  batch booked := booked.unchanged (World.ledger_note _ fun _ => rfl) rfl
  listen booked := booked.unchanged rfl rfl
  dropped := id

theorem cleanup :
    CleanupFrame (allowing cfg allow) (fun _ w => A w.ledger) (Booked P own revoices) where
  stable := stable
  assertion _ := accounted sound
  listen booked := booked.unchanged rfl rfl
  bus booked := booked.unchanged rfl rfl
  deliver booked := booked.unchanged (World.ledger_deliver _ _) (by cases ‹BusEvent› <;> rfl)

theorem phone : PhoneFrame (allowing cfg allow) (fun _ w => A w.ledger)
    (fun w => A w.ledger) (Booked P own revoices) :=
  ⟨waits sound, fun booked => booked.unchanged rfl rfl⟩

end Booked

end IsalesEngine
