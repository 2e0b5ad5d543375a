import IsalesEngine.Asyncio.Outcome
import IsalesEngine.Engine.Effects

/-!
Bookkeeping of `main` between two suspensions: counters, texts, streams, trace
rows and transcript events that neither begin a turn nor end the call. An
assertion that bookkeeping and waiting for providers keep survives every helper
of a turn that does nothing else.
-/
namespace IsalesEngine
open Asyncio Asyncio.Coro

variable {M : Machine sig World} {I : Op → World → Prop} {C K : World → Prop} {w : World}
  {f : CallSession → CallSession}

/-- What bookkeeping leaves alone in a session. -/
structure SessionKept (s s' : CallSession) : Prop where
  state : s.state = .inCall → s'.state = .inCall ∧ s'.stateHistory = s.stateHistory
  transcript : ∃ es, s'.fullTranscript = s.fullTranscript ++ es ∧ ∀ e ∈ es,
    e.2.isHangup = false ∧ e.2.isUserSpeech = false ∧
      (s.state = .inCall → e.2.isStateWarning = false)
  speaking : s'.currentSpeakingTask = s.currentSpeakingTask
  processing : s'.inProcessingTurn = s.inProcessingTurn
  signaled : s'.interruptionSignaled = s.interruptionSignaled
  remaining : s'.interruptRemainingText = s.interruptRemainingText
  wrapUp : s'.wrapUp = s.wrapUp

namespace SessionKept
variable {s s' : CallSession}

/-- An update of counters: everything else of the session is the same. -/
theorem of_eq (same : s' = { s with
      silenceActivationCount := s'.silenceActivationCount
      consecutiveInterruptionCount := s'.consecutiveInterruptionCount
      consecutiveRestructureCount := s'.consecutiveRestructureCount
      currentTurnId := s'.currentTurnId }) : SessionKept s s' := by
  rw [same]
  exact ⟨fun inCall => ⟨inCall, rfl⟩, ⟨[], by simp, nofun⟩, rfl, rfl, rfl, rfl, rfl⟩

theorem append (s : CallSession) (now : Nat) {e : TranscriptEvent} (hangup : e.isHangup = false)
    (user : e.isUserSpeech = false) (warning : e.isStateWarning = false) :
    SessionKept s (s.appendEvent now e) := by
  refine ⟨fun inCall => ⟨inCall, rfl⟩, ⟨[(now - s.callStartedAt, e)], rfl, ?_⟩, rfl, rfl, rfl,
    rfl, rfl⟩
  intro added member
  rw [List.mem_singleton.mp member]
  exact ⟨hangup, user, fun _ => warning⟩

theorem transition (s : CallSession) (now : Nat) (reason : String) :
    SessionKept s (StateMachine.transitionTo s now .inCall reason) := by
  by_cases same : CallStatus.inCall = s.state
  · rw [CallSession.transitionTo_self same]
    exact of_eq rfl
  · have elsewhere : s.state ≠ .inCall := fun h => same h.symm
    simp only [StateMachine.transitionTo, if_neg same]
    split
    · exact ⟨fun h => absurd h elsewhere, ⟨[], by simp, by simp⟩, rfl, rfl, rfl, rfl, rfl⟩
    · refine ⟨fun h => absurd h elsewhere, ⟨[_], rfl, ?_⟩, rfl, rfl, rfl, rfl, rfl⟩
      intro added member
      rw [List.mem_singleton.mp member]
      exact ⟨rfl, rfl, fun h => absurd h elsewhere⟩

theorem speeches (kept : SessionKept s s') : s'.userSpeeches = s.userSpeeches := by
  obtain ⟨es, grown, plain⟩ := kept.transcript
  simp only [CallSession.userSpeeches, CallSession.events, grown, List.map_append,
    List.filterMap_append, List.append_right_eq_self, List.filterMap_eq_nil_iff, List.mem_map]
  rintro e ⟨added, member, rfl⟩
  obtain ⟨ts, e⟩ := added
  cases e with
  | userSpeech text => cases (plain _ member).2.1
  | _ => rfl

end SessionKept

/-- An update of the session's counters and texts, the streams, the record of the turn's tasks and
the trace rows. -/
structure Bookkeeping (w w' : World) : Prop where
  session : SessionKept w.session w'.session
  frame : w' = { w with
    session := w'.session, streams := w'.streams, turnTasks := w'.turnTasks
    pipelineTraceRecords := w'.pipelineTraceRecords, shortReplyActive := w'.shortReplyActive
    journal := w'.journal }

/-- An assertion that survives waiting: at a reap in any case, elsewhere unless it is cancelled. -/
structure Waits (M : Machine sig World) (I : Op → World → Prop) (C K : World → Prop) : Prop where
  wait : ∀ op : Op, op.isPlain = true → Keeps M I C K (await op)
  reap : ∀ op : Op, op.isReap = true → Preserves M I K (await op)

/-- An assertion that other tasks and resumptions keep in any case. -/
theorem Waits.of_stable (stable : M.Stable K) (assertion : ∀ op w, K w → I op w)
    (drops : ∀ w, K w → C w) : Waits M I C K where
  wait op _ := (Preserves.wait stable assertion op).keeps drops
  reap op _ := Preserves.wait stable assertion op

theorem Waits.ext (waits : Waits M I C K) (call : Ext) : Keeps M I C K (ext call) :=
  waits.wait (.ext call) rfl

theorem Waits.pickFrom (waits : Waits M I C K) (options : List Text) (fallback : Text) :
    Keeps M I C K (pickFrom options fallback) := by
  unfold IsalesEngine.pickFrom
  split
  · exact Keeps.pure fallback
  · exact waits.wait (.choice options) rfl

theorem mem_insertCandidate {c d : Candidate} {candidates : List Candidate}
    (member : d ∈ insertCandidate c candidates) : d = c ∨ d ∈ candidates := by
  induction candidates with
  | nil => exact .inl (by simpa [insertCandidate] using member)
  | cons e es ih =>
      simp only [insertCandidate] at member
      split at member
      · exact (List.mem_cons.mp member).imp_right (List.mem_cons_of_mem _)
      · obtain rfl | member := List.mem_cons.mp member
        · exact .inr List.mem_cons_self
        · exact (ih member).imp_right (List.mem_cons_of_mem _)

/-- An assertion that survives the helpers of a turn: they update streams that are built and the
record of the turn's tasks, and wait. -/
structure Helps (M : Machine sig World) (I : Op → World → Prop) (C K : World → Prop) : Prop
    extends Waits M I C K where
  stream : ∀ {w i st}, st.slot = (w.stream i).slot → st.turnId = (w.stream i).turnId →
    st.isRestructure = (w.stream i).isRestructure → K w → K (w.setStream i st)
  tasks : ∀ {w ts}, K w → K { w with turnTasks := ts }

namespace Helps
variable (helps : Helps M I C K)
include helps

theorem dropTasks (ts : List TurnTask) : Keeps M I C K (dropTasks ts) :=
  Keeps.update fun _ => helps.tasks

theorem cancelEager (i : Nat) : Keeps M I C K (cancelEager i) := by
  refine (Keeps.read _).bind fun live => Keeps.when (Keeps.bind ?_ fun _ => ?_)
  · exact Keeps.update fun _ => helps.stream rfl rfl rfl
  · exact .suppressCancelled rfl (helps.reap _ rfl)

theorem cancelCandidates (keep : Option String) (candidates : List Candidate) :
    Keeps M I C K (cancelCandidates keep candidates) := by
  refine Keeps.forEach (fun c => ?_) candidates
  exact Keeps.when (helps.cancelEager c.stream)

theorem resolveTransferLlm (spawned : Bool) : Keeps M I C K (resolveTransferLlm spawned) := by
  cases spawned with
  | false => exact Keeps.pure none
  | true =>
      refine ((helps.wait .transferLlm rfl).exceptError fun _ => Keeps.pure none).bind ?_
      exact fun decision => (helps.dropTasks _).bind fun _ => Keeps.pure decision

theorem refereeVerdict (enabled : Bool) : Keeps M I C K (WrapUpTurn.refereeVerdict enabled) := by
  cases enabled with
  | false => exact Keeps.pure none
  | true =>
      refine (helps.dropTasks _).bind fun _ => Keeps.exceptError ?_ fun _ => ?_
      · exact (helps.wait .wrapUpReferee rfl).bind fun r => Keeps.pure (some r)
      · exact Keeps.pure none

end Helps

/-- Bookkeeping that gives no reply, counts no restructure and changes no stream that is there
already. -/
structure Preparation (w w' : World) : Prop extends Bookkeeping w w' where
  replies : w'.session.replies = w.session.replies
  restructures :
    w'.session.consecutiveRestructureCount = w.session.consecutiveRestructureCount
  slots : w.slots <+: w'.slots

/-- An assertion that survives the work of a turn before and after its reply. -/
structure Prepares (M : Machine sig World) (I : Op → World → Prop) (C K : World → Prop) : Prop
    extends Waits M I C K where
  step : ∀ {w w'}, Preparation w w' → K w → K w'

/-- An assertion that survives all bookkeeping of a turn. -/
structure Rests (M : Machine sig World) (I : Op → World → Prop) (C K : World → Prop) : Prop
    extends Prepares M I C K where
  bookkeeping : ∀ {w w'}, Bookkeeping w w' → K w → K w'

theorem Rests.of (waits : Waits M I C K) (bookkeeping : ∀ {w w'}, Bookkeeping w w' → K w → K w') :
    Rests M I C K := ⟨⟨waits, fun step => bookkeeping step.toBookkeeping⟩, bookkeeping⟩

/-- What an update of a stream leaves alone is the same of all of them. -/
theorem World.map_setStream {β : Type} {i : Nat} {st : Stream} (f : Stream → β)
    (same : f st = f (w.stream i)) : (w.setStream i st).streams.map f = w.streams.map f := by
  refine List.ext_getElem? fun j => ?_
  simp only [World.setStream, List.map_set, List.getElem?_set, List.length_map]
  split
  · rename_i here
    subst here
    split
    · rename_i bound
      simp [same, World.stream, bound]
    · rename_i bound
      simp [List.getElem?_eq_none (Nat.le_of_not_lt bound)]
  · rfl

theorem World.slots_setStream {i : Nat} {st : Stream} (same : st.slot = (w.stream i).slot) :
    (w.setStream i st).slots = w.slots := World.map_setStream Stream.slot same

theorem outOfFuel_wp {α : Type} {M : Machine sig World} {I : Op → World → Prop}
    {Q : Reply α → World → Prop} (stuck : ∀ r w w', M.reply .outOfFuel r w ≠ some w')
    (here : I .outOfFuel w) : (outOfFuel : Prog α).wp M I Q w := by
  refine wp.bind (P := fun _ _ => False) ?_ (fun _ _ h => h.elim) (fun _ _ h => h.elim)
  exact wp_wait.mpr ⟨here, fun _ _ r _ replied => stuck r _ _ replied⟩

namespace Prepares
variable (prepares : Prepares M I C K)
include prepares

theorem session (kept : ∀ s, SessionKept s (f s)) (replies : ∀ s, (f s).replies = s.replies)
    (restructures : ∀ s, (f s).consecutiveRestructureCount = s.consecutiveRestructureCount) :
    Keeps M I C K (modifySession f) :=
  Keeps.update fun w => prepares.step
    ⟨⟨kept w.session, rfl⟩, replies w.session, restructures w.session, List.prefix_rfl⟩

/-- An event other than a reply and those that begin a turn, end the call or flag a transition. -/
theorem appendOf {f : World → TranscriptEvent}
    (plain : ∀ w, (f w).isHangup = false ∧ (f w).isUserSpeech = false ∧
      (f w).isStateWarning = false) (silent : ∀ w, (f w).replyRole? = none) :
    Keeps M I C K (update fun w => w.append (f w)) := by
  refine Keeps.update fun w => prepares.step ⟨⟨?_, rfl⟩, ?_, rfl, List.prefix_rfl⟩
  · exact .append w.session w.clock (plain w).1 (plain w).2.1 (plain w).2.2
  · simp [World.append, silent w]

theorem transition (reason : String) : Keeps M I C K (transition .inCall reason) :=
  Keeps.update fun w => prepares.step ⟨⟨.transition w.session w.clock reason, rfl⟩,
    CallSession.replies_transitionTo _ _ _ _, CallSession.restructures_transitionTo _ _ _ _,
    List.prefix_rfl⟩

/-- Updates that touch neither the session nor what a stream was built with. -/
theorem other {f : World → World}
    (frame : ∀ w, f w = { w with
      streams := (f w).streams, turnTasks := (f w).turnTasks
      pipelineTraceRecords := (f w).pipelineTraceRecords
      shortReplyActive := (f w).shortReplyActive })
    (slots : ∀ w, w.slots <+: (f w).slots) : Keeps M I C K (update f) := by
  refine Keeps.update fun w => prepares.step ⟨⟨?_, ?_⟩, ?_, ?_, slots w⟩
  · rw [frame w]
    exact .of_eq rfl
  · rw [frame w]
  · rw [frame w]
  · rw [frame w]

theorem tasks {f : World → World}
    (frame : ∀ w, f w = { w with
      turnTasks := (f w).turnTasks, pipelineTraceRecords := (f w).pipelineTraceRecords
      shortReplyActive := (f w).shortReplyActive }) : Keeps M I C K (update f) := by
  refine prepares.other (fun w => ?_) fun w => ?_
  · rw [frame w]
  · rw [frame w]
    exact List.prefix_rfl

theorem helps : Helps M I C K where
  toWaits := prepares.toWaits
  stream slot _ _ holds := prepares.step ⟨⟨.of_eq rfl, rfl⟩, rfl, rfl,
    (World.slots_setStream slot).symm ▸ List.prefix_rfl⟩ holds
  tasks holds := prepares.step ⟨⟨.of_eq rfl, rfl⟩, rfl, rfl, List.prefix_rfl⟩ holds

theorem cancelCandidates (keep : Option String) (candidates : List Candidate) :
    Keeps M I C K (cancelCandidates keep candidates) :=
  prepares.helps.cancelCandidates keep candidates

theorem addTrace (i : Nat) (userText : Text) (firstAudioMs : Option Nat)
    (f : TraceRecord → TraceRecord) : Keeps M I C K (addTrace i userText firstAudioMs f) :=
  prepares.tasks fun _ => rfl

theorem addStream (st : Stream) : Keeps M I C K (addStream st) := by
  refine Keeps.act fun w => prepares.step ⟨⟨.of_eq rfl, rfl⟩, rfl, rfl, ?_⟩
  simp [World.slots]

theorem runPipelineStream (slot : Slot) (isRestructure eager : Bool) :
    Keeps M I C K (runPipelineStream slot isRestructure eager) := by
  refine (prepares.ext .buildStream).bind fun _ => Keeps.bind ?_ fun _ => ?_
  · exact prepares.session (fun _ => .of_eq rfl) (fun _ => rfl) fun _ => rfl
  · exact (Keeps.read _).bind fun _ => prepares.addStream _

theorem spawnPersonas (turnId : Nat) (personas : List PersonaSpec) (candidates : List Candidate) :
    Keeps M I C K (spawnPersonas turnId personas candidates) := by
  induction personas generalizing candidates with
  | nil => exact Keeps.pure candidates
  | cons persona personas ih =>
      refine (prepares.ext .buildStream).bind fun _ => ?_
      exact (prepares.addStream _).bind fun _ => ih _

theorem resolveTransferLlm (spawned : Bool) : Keeps M I C K (resolveTransferLlm spawned) :=
  prepares.helps.resolveTransferLlm spawned

theorem refereeVerdict (enabled : Bool) : Keeps M I C K (WrapUpTurn.refereeVerdict enabled) :=
  prepares.helps.refereeVerdict enabled

theorem chooseWinner (cfg : RuntimeConfig) (mainStream : Nat) (candidates : List Candidate)
    (sel : GatedSelection) :
    Keeps M I C K (GatedTurn.chooseWinner cfg mainStream candidates sel) := by
  unfold GatedTurn.chooseWinner
  split
  · exact (prepares.cancelCandidates _ _).bind fun _ => Keeps.pure _
  · refine (prepares.cancelCandidates _ _).bind fun _ => (prepares.ext .buildStream).bind ?_
    intro _
    exact (Keeps.read _).bind fun _ => (prepares.addStream _).bind fun _ => Keeps.pure _

theorem enterWrapUp (cfg : RuntimeConfig) (goalType : String)
    (enter : ∀ {w}, K w → K { w with session := { w.session with
      inWrapUp := true, wrapUpStartedAt := some w.clock } }) :
    Keeps M I C K (GatedTurn.enterWrapUp cfg goalType) := by
  refine (prepares.transition _).bind fun _ => Keeps.bind (Keeps.update fun _ => enter) fun _ => ?_
  refine Keeps.bind ?_ fun _ => ?_
  · exact prepares.appendOf (fun _ => ⟨rfl, rfl, rfl⟩) fun _ => rfl
  · exact prepares.appendOf (fun _ => ⟨rfl, rfl, rfl⟩) fun _ => rfl

end Prepares

namespace Rests
variable (rests : Rests M I C K)
include rests

theorem session (kept : ∀ s, SessionKept s (f s)) : Keeps M I C K (modifySession f) :=
  Keeps.update fun w => rests.bookkeeping ⟨kept w.session, rfl⟩

theorem record (e : Entry) (kept : ∀ s, SessionKept s (f s)) : Keeps M I C K (recordSession e f) :=
  Keeps.update fun w => rests.bookkeeping ⟨kept w.session, rfl⟩

/-- An event other than those that begin a turn, end the call or flag a transition. -/
theorem appendOf {f : World → TranscriptEvent}
    (plain : ∀ w, (f w).isHangup = false ∧ (f w).isUserSpeech = false ∧
      (f w).isStateWarning = false) : Keeps M I C K (update fun w => w.append (f w)) :=
  Keeps.update fun w => rests.bookkeeping
    ⟨.append w.session w.clock (plain w).1 (plain w).2.1 (plain w).2.2, rfl⟩

/-- Updates that do not touch the session. -/
theorem other {f : World → World}
    (frame : ∀ w, f w = { w with
      streams := (f w).streams, turnTasks := (f w).turnTasks
      pipelineTraceRecords := (f w).pipelineTraceRecords
      shortReplyActive := (f w).shortReplyActive }) : Keeps M I C K (update f) := by
  refine Keeps.update fun w => rests.bookkeeping ⟨?_, ?_⟩
  · rw [frame w]
    exact .of_eq rfl
  · rw [frame w]

theorem appendAiReply (i roleConfigId : Nat) (goalAchieved : Bool) (goalType : String)
    (isWrapUp : Bool) :
    Keeps M I C K (appendAiReply i roleConfigId goalAchieved goalType isWrapUp) :=
  rests.appendOf fun _ => ⟨rfl, rfl, rfl⟩

end Rests

end IsalesEngine
