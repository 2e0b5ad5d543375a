import IsalesEngine.Engine.Voicing
import IsalesEngine.Engine.CallLog

/-!
The engine keeps its ledger as the call log says: at every wait of a call the
ledger is one the log may have. An audit says which call is held against which
log, and what the allowed steps and the selected routes have to do with the
rules of the log. Here are the parts that a turn and the call around it share:
what leaves the ledger alone, the endings, and the event and the row of a reply.
-/
namespace IsalesEngine
open Asyncio Asyncio.Coro

/-- A call under audit: its configuration, the steps that are allowed, the rules its ledger is
held against, and where it starts. -/
structure Audit where
  cfg : RuntimeConfig
  allow : Op → Action sig Move → World → Bool
  rules : LedgerRules
  first : Phase
  start : Ledger

/-- The goal a reply is recorded with, and whether it begins the wrap-up phase. -/
def GatedSelection.goalAchieved (sel : GatedSelection) : Bool := decide (sel.routeId = "closing")

def GatedSelection.replyGoal (sel : GatedSelection) : String :=
  if sel.goalAchieved then sel.goalType else ""

def GatedSelection.wrapsUp (sel : GatedSelection) : Bool :=
  decide (sel.thenState = some "WRAPPING_UP")

namespace Audit
variable {α : Type} (a : Audit) {revoices : Bool}

abbrev machine : Machine sig World := (engine a.cfg).restrict a.allow

def Log (p : Phase) (L : Ledger) : Prop := CallLog a.rules a.first a.start p L

def Logged (L : Ledger) : Prop := ∃ p, a.Log p L

abbrev always (_ : Op) (w : World) : Prop := a.Logged w.ledger

abbrev At (p : Phase) (own : List Nat) : World → Prop := Booked (a.Log p) own p.revoices

/-- In phase `p`, with something more known of the ledger. -/
abbrev Given (p : Phase) (X : Ledger → Prop) (own : List Nat) : World → Prop :=
  Booked (fun L => a.Log p L ∧ X L) own p.revoices

abbrev post (K : α → World → Prop) : Reply α → World → Prop :=
  outcomes (fun w => a.Logged w.ledger) (fun w => a.Logged w.ledger) K

abbrev Ends (x : Prog α) (K : α → World → Prop) (w : World) : Prop :=
  x.wp a.machine a.always (a.post K) w

/-- The call remains in phase `p`. -/
abbrev Stays (p : Phase) (own : List Nat) (x : Prog α) : Prop :=
  Keeps a.machine a.always (fun w => a.Logged w.ledger) (a.At p own) x

/-- After a turn. -/
abbrev directed : Directive → World → Prop
  | .continue => a.At .idle []
  | .return => a.At .ended []

/-- What the allowed steps have to do with the rules. -/
structure Abides : Prop where
  start : a.first.Wraps a.start
  round : ∀ {w text detail}, a.allow (.ext .publish) (.reply (.ext .publish) (.ok ())) w = true →
    transferTrigger text w.session.dialogHistory.length false a.cfg.transfer =
      some ("round", detail) → a.rules.round w.ledger
  whole : ∀ {w i}, w.speaking = some (i, true) →
    ((w.stream i).isRestructure = true ∨ w.session.inWrapUp = true) →
    Voicing.Finishes a.allow w → a.rules.whole w.ledger

/-- What the selected route has to do with the rules. -/
structure Permits (sel : GatedSelection) : Prop where
  reply : sel.kind = .dialogue → sel.routeId ≠ "restructure" →
    a.rules.reply sel.goalAchieved sel.replyGoal sel.wrapsUp
  revoices : sel.kind = .dialogue → sel.routeId = "restructure" → a.rules.revoices

variable {a : Audit} {p p' : Phase} {own : List Nat} {w w' : World} {i : Nat}

theorem logged (L : Ledger) (log : a.Log p L) : a.Logged L := ⟨p, log⟩

theorem At.logged (w : World) (here : Booked (a.Log p) own revoices w) : a.Logged w.ledger :=
  ⟨p, here.ledger⟩

theorem Given.logged {X : Ledger → Prop} (w : World) (here : a.Given p X own w) :
    a.Logged w.ledger := ⟨p, here.ledger.1⟩

theorem At.enter (here : a.At p own w) (step : LedgerStep a.rules p w.ledger p' w'.ledger) :
    a.At p' [] w' := ⟨here.ledger.step step, nofun⟩

theorem At.goOn (here : a.At p own w) (step : LedgerStep a.rules p w.ledger p' w'.ledger)
    (drawn : w'.ledger.drawn = w.ledger.drawn) (voices : w'.voices = w.voices)
    (revoices : p'.revoices = p.revoices) : a.At p' own w' := by
  have next := here.turn (here.ledger.step step) drawn voices
  rwa [← revoices] at next

section Keeping

theorem helps : Helps a.machine a.always (fun w => a.Logged w.ledger) (a.At p own) :=
  Booked.helps logged

theorem Given.helps {X : Ledger → Prop} :
    Helps a.machine a.always (fun w => a.Logged w.ledger) (a.Given p X own) :=
  Booked.helps fun _ holds => ⟨p, holds.1⟩

theorem transition (new : CallStatus) (reason : String) :
    a.Stays p own (transition new reason) := Booked.transition new reason

theorem quiet {f : World → World} (ledger : ∀ w, (f w).ledger = w.ledger)
    (voices : ∀ w, (f w).voices = w.voices) :
    a.Stays p own (update f) := Booked.update ledger voices

theorem playTts {site : PlaySite} (untallied : (Mark.playback site).Untallied) (text : Text)
    (interruptible : Bool) : a.Stays p own (playTts site text interruptible) :=
  Booked.playTts logged untallied text interruptible

theorem spawnTasks_keeps (ts : List TurnTask) :
    a.Stays p own (spawnTasks ts) := quiet (fun _ => rfl) fun _ => rfl

end Keeping

section Endings

theorem append_keeps {e : TranscriptEvent} (own : e.byMain = true) (ending : e.isEnding = true) :
    a.Stays .ended [] (append e) :=
  Keeps.update fun w here => here.enter (by rw [w.ledger_append own]; exact .ending e ending)

theorem appendHangup_keeps (reason by' : String) : a.Stays .ended [] (appendHangup reason by') := by
  refine Keeps.update fun w here => here.enter ?_
  have same : ((w.append (.hangup reason by')).note (.recorded w.session.hangupCause)).ledger =
      w.ledger.write (.hangup reason by') :=
    (World.ledger_note _ fun _ => rfl).trans (w.ledger_append rfl)
  rw [same]
  exact .ending _ rfl

theorem setHangupCause_keeps (cause : HangupCause) :
    a.Stays p own (setHangupCause cause) := quiet (fun _ => rfl) fun _ => rfl

theorem performHandoff_wp {type detail : String} {phrase : Text} (here : a.At p [] w)
    (step : LedgerStep a.rules p w.ledger .ended
      (w.ledger.write (.transferInitiated type detail))) :
    a.Ends (performHandoff type detail phrase) (fun _ => a.At .ended []) w := by
  refine wp_update_bind.mpr (wp_update_bind.mpr ?_)
  have ended : a.At .ended [] ((w.transition .transferring
      (if type = "" then "transfer" else type)).append (.transferInitiated type detail)) := by
    refine here.enter ?_
    rw [World.ledger_append _ rfl, World.ledger_transition]
    exact step
  have rest : a.Stays .ended [] (do
      when (phrase ≠ []) (IsalesEngine.playTts .handoffPhrase phrase)
      modifySession fun s => { s with
        transferStatus := .markedForHandoff, transferReason := some type }
      append .transferMarked
      Telephony.attemptHangup
      IsalesEngine.transition .ended "marked_for_handoff"
      setHangupCause .markedForHandoff
      appendHangup "marked_for_handoff" "ai") := by
    refine (Keeps.when (playTts (fun _ => rfl) _ _)).bind fun _ => Keeps.bind ?_ fun _ => ?_
    · exact quiet (fun _ => rfl) fun _ => rfl
    refine (append_keeps rfl rfl).bind fun _ => Keeps.bind ?_ fun _ => ?_
    · refine (Booked.phone logged).attemptHangup fun {w} here => ?_
      exact here.unchanged (w.ledger_note fun _ => rfl) rfl
    · exact (transition _ _).bind fun _ => (setHangupCause_keeps _).bind fun _ =>
        appendHangup_keeps _ _
  exact rest.last ended At.logged fun _ _ h => h

end Endings

section Entries
variable {f : TraceRecord → TraceRecord} {userText : Text} {audio : Option Nat}

/-- The row of stream `i`, before the columns of its route are filled in. -/
def row (w : World) (i : Nat) (userText : Text) (audio : Option Nat) : TraceRecord where
  turnId := (w.stream i).turnId
  userInput := userText
  mainReplyText := (w.stream i).result.replyText
  firstAudioMs := audio
  error := (w.stream i).result.error

/-- `f` fills in the columns of a route, with `text` as the text to re-voice. -/
structure Fills (f : TraceRecord → TraceRecord) (text : Option Text) : Prop where
  turnId : ∀ t, (f t).turnId = t.turnId
  reply : ∀ t, (f t).mainReplyText = t.mainReplyText
  text : ∀ t, t.restructureText = none → (f t).restructureText = text

theorem row_turnId (voice : w.voices[i]? = some (w.ledger.drawn, revoices)) {text : Option Text}
    (fills : Fills f text) : (f (row w i userText audio)).turnId = w.ledger.drawn :=
  (fills.turnId _).trans (World.stream_of_voice voice).1

/-- The event of the reply of stream `i`. -/
def reply (w : World) (i roleConfigId : Nat) (goalAchieved : Bool) (goalType : String)
    (isWrapUp : Bool) : TranscriptEvent :=
  .aiReply (w.stream i).result.replyText (w.stream i).turnId
    (if roleConfigId = 0 then none else some roleConfigId) goalAchieved goalType isWrapUp

variable {roleConfigId : Nat} {goalAchieved : Bool} {goalType : String} {isWrapUp : Bool}

theorem answers (voice : w.voices[i]? = some (w.ledger.drawn, revoices)) {text : Option Text}
    (fills : Fills f text) : w.ledger.Answers (f (row w i userText audio))
      (reply w i roleConfigId goalAchieved goalType isWrapUp) goalAchieved goalType isWrapUp := by
  refine ⟨row_turnId voice fills, if roleConfigId = 0 then none else some roleConfigId, ?_⟩
  rw [fills.reply, reply, (World.stream_of_voice voice).1]
  rfl

variable {M : Machine sig World} {I : Op → World → Prop} {Q : Reply α → World → Prop} {x : Prog α}
  (next : ∀ w', w'.ledger = w.ledger.answer (f (row w i userText audio))
    (reply w i roleConfigId goalAchieved goalType isWrapUp) → x.wp M I Q w')
include next

/-- The event and the row of a reply are entered. -/
theorem replyThenTrace :
    (appendAiReply i roleConfigId goalAchieved goalType isWrapUp >>= fun _ =>
      addTrace i userText audio f >>= fun _ => x).wp M I Q w :=
  next _ (congrArg (fun L => L.record (f (row w i userText audio)))
    (w.ledger_append (e := reply w i roleConfigId goalAchieved goalType isWrapUp) rfl))

theorem traceThenReply :
    (addTrace i userText audio f >>= fun _ =>
      appendAiReply i roleConfigId goalAchieved goalType isWrapUp >>= fun _ => x).wp M I Q w :=
  next _ (World.ledger_append _ rfl)

end Entries

end Audit
end IsalesEngine
