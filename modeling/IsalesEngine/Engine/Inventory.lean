import IsalesEngine.Engine.Frames

/-!
Where the sentences of a streamed reply are. From the generator to the caller's
ear a sentence is in the eager buffer, in the producer's hands, in the job
queue, in the consumer's hands, or played; one that the producer holds when it
is cancelled is lost. The reply text is the concatenation of all of them, and
every section of the tasks involved moves sentences along or adds one at the
end.
-/
namespace IsalesEngine
open Asyncio

/-- The sentences played in full, oldest first. -/
def playedIn : List Mark → List Text
  | [] => []
  | .played job :: h => playedIn h ++ [job]
  | _ :: h => playedIn h

/-- The sentences the cancelled producer held, oldest first. -/
def lostIn : List Mark → List Text
  | [] => []
  | .lost job :: h => lostIn h ++ [job]
  | _ :: h => lostIn h

/-- The jobs that wait for the consumer: those in the queue, and the one the producer is blocked
with. -/
def Pipe.waiting (p : Pipe) : List Text :=
  p.jobs.filterMap id ++ match p.producer with
    | .putting job _ => [job]
    | _ => []

/-- The sentences of the eager buffer that the producer has not taken. -/
def Stream.unreplayed (st : Stream) : List Text :=
  match st.eager with
  | some e => e.buffer.drop e.replayedCount
  | none => []

/-- All sentences of a reply, in order; `taken` were taken out of the queue unplayed. -/
def inventory (st : Stream) (p : Pipe) (taken played lost : List Text) : List Text :=
  played ++ p.currentJob.toList ++ taken ++ p.waiting ++ lost ++ st.unreplayed

/-- The reply text is made of the sentences of the inventory. -/
structure Accounted (st : Stream) (p : Pipe) (taken played lost : List Text) : Prop where
  text : st.result.replyText = (inventory st p taken played lost).flatten
  sentences : ∀ s ∈ inventory st p taken played lost, s.Sentence
  whole : p.producer ≠ .cancelled → lost = []
  cursor : ∀ e, st.eager = some e → e.replayedCount ≤ e.buffer.length

namespace Accounted
variable {st st' : Stream} {p p' : Pipe} {taken taken' played played' lost lost' : List Text}

section
variable (accounted : Accounted st p taken played lost)
include accounted

/-- Sentences move along. -/
theorem moved (same : inventory st' p' taken' played' lost' = inventory st p taken played lost)
    (text : st'.result.replyText = st.result.replyText)
    (whole : p'.producer ≠ .cancelled → lost' = [])
    (cursor : ∀ e, st'.eager = some e → e.replayedCount ≤ e.buffer.length) :
    Accounted st' p' taken' played' lost' := by
  refine ⟨?_, ?_, whole, cursor⟩
  · rw [same, text]
    exact accounted.text
  · rw [same]
    exact accounted.sentences

/-- A sentence is added at the end. -/
theorem added {s : Text}
    (more : inventory st' p' taken' played' lost' = inventory st p taken played lost ++ [s])
    (text : st'.result.replyText = st.result.replyText ++ s) (sentence : s.Sentence)
    (whole : p'.producer ≠ .cancelled → lost' = [])
    (cursor : ∀ e, st'.eager = some e → e.replayedCount ≤ e.buffer.length) :
    Accounted st' p' taken' played' lost' := by
  refine ⟨?_, ?_, whole, cursor⟩
  · rw [more, text, accounted.text]
    simp
  · rw [more]
    simp only [List.forall_mem_append, List.forall_mem_singleton]
    exact ⟨accounted.sentences, sentence⟩

/-- A reply without text has no sentences. -/
theorem silent (silent : st.result.replyText.strip = []) :
    inventory st p taken played lost = [] := by
  have stripped : Text.strip st.result.replyText = st.result.replyText := by
    rw [accounted.text]
    exact Text.stripped_flatten accounted.sentences
  rw [stripped, accounted.text, List.flatten_eq_nil_iff] at silent
  refine List.eq_nil_iff_forall_not_mem.mpr fun s member => ?_
  exact (accounted.sentences s member).1 (silent s member)

end

end Accounted

section Pipe
variable {p : Pipe} {job : Text} {last : Bool}

theorem waiting_offer (pulling : p.producer = .pulling) :
    (p.offer job last).waiting = p.waiting ++ [job] := by
  unfold Pipe.offer
  split
  · cases last <;> simp [Pipe.waiting, pulling]
  · simp [Pipe.waiting, pulling]

theorem currentJob_offer : (p.offer job last).currentJob = p.currentJob :=
  (Engine.offer_kept p job last).2.2.1

theorem stream_offer : (p.offer job last).stream = p.stream := (Engine.offer_kept p job last).1

end Pipe

section Streams
variable {w w' : World} {i j : Nat} {st : Stream}

theorem stream_setStream (bound : i < w.streams.length) : (w.setStream i st).stream i = st := by
  simp [World.setStream, World.stream, bound]

theorem stream_setStream_of_ne (other : j ≠ i) : (w.setStream i st).stream j = w.stream j := by
  simp [World.setStream, World.stream, List.getD_eq_getElem?_getD, List.getElem?_set_ne other.symm]

theorem stream_setStream_cases (w : World) (i j : Nat) (st : Stream) :
    (w.setStream i st).stream j = w.stream j ∨ i = j ∧ (w.setStream i st).stream j = st := by
  by_cases same : j = i
  · subst same
    by_cases bound : j < w.streams.length
    · exact .inr ⟨rfl, stream_setStream bound⟩
    · exact .inl (by simp [World.setStream, World.stream, bound])
  · exact .inl (stream_setStream_of_ne same)

/-- What a write does to the stream it writes. -/
theorem stream_written {P : Nat → Stream → Prop}
    (written : w'.streams = w.streams ∨ ∃ j st, w'.streams = (w.setStream j st).streams ∧ P j st)
    (i : Nat) : w'.stream i = w.stream i ∨ P i (w'.stream i) := by
  obtain same | ⟨j, st, same, own⟩ := written
  · exact .inl (by simp [World.stream, same])
  · have here : w'.stream i = (w.setStream j st).stream i := by simp [World.stream, same]
    rw [here]
    obtain other | ⟨rfl, set⟩ := stream_setStream_cases w j i st
    · exact .inl other
    · rw [set]
      exact .inr own

theorem length_setStream : (w.setStream i st).streams.length = w.streams.length := List.length_set

end Streams

/-- The inventory of the reply that is being played, of stream `i`; `played` and `lost` are counted
from `before` on. -/
def Account (i : Nat) (taken before beforeLost : List Text) (w : World) : Prop :=
  i < w.streams.length ∧ ∃ p played lost, w.pipe = some p ∧ p.stream = i ∧
    playedIn w.history = before ++ played ∧ lostIn w.history = beforeLost ++ lost ∧
    Accounted (w.stream i) p taken played lost

namespace Account
variable {i : Nat} {taken before beforeLost : List Text} {w w' : World}

theorem congr (account : Account i taken before beforeLost w) (streams : w'.streams = w.streams)
    (pipe : w'.pipe = w.pipe) (played : playedIn w'.history = playedIn w.history)
    (lost : lostIn w'.history = lostIn w.history) : Account i taken before beforeLost w' := by
  unfold Account World.stream
  rw [streams, pipe, played, lost]
  exact account

/-- A section of the producer writes the stream and the pipe. -/
theorem write {st : Stream} {p : Pipe} {played lost : List Text} (bound : i < w.streams.length)
    (accounted : Accounted st p taken played lost) (streams : w'.streams = w.streams.set i st)
    (pipe : w'.pipe = some p) (own : p.stream = i)
    (playedHere : playedIn w'.history = before ++ played)
    (lostHere : lostIn w'.history = beforeLost ++ lost) : Account i taken before beforeLost w' := by
  have here : w'.stream i = st := by simp [World.stream, streams, bound]
  refine ⟨by simp [streams, bound], p, played, lost, pipe, own, playedHere, lostHere, ?_⟩
  rw [here]
  exact accounted

/-- Nothing is lost while the producer waits for the next sentence. -/
theorem pulling {p : Pipe} (account : Account i taken before beforeLost w)
    (pulls : w.pulling? = some p) : p.stream < w.streams.length ∧ p.stream = i ∧
      p.producer = .pulling ∧ ∃ played, playedIn w.history = before ++ played ∧
        lostIn w.history = beforeLost ++ [] ∧ Accounted (w.stream p.stream) p taken played [] := by
  obtain ⟨bound, p', played, lost, pipe, rfl, playedHere, lostHere, accounted⟩ := account
  obtain ⟨here, pulling⟩ := Engine.pulling_some pulls
  obtain rfl := Option.some.inj (pipe.symm.trans here)
  obtain rfl : lost = [] := accounted.whole (by simp [pulling])
  exact ⟨bound, rfl, pulling, played, playedHere, lostHere, accounted⟩

end Account

/-- A stream that falls back to a default reply picks a sentence: one with text, and with no
whitespace at its ends. -/
def defaultSpoken (_ : Op) (a : Action sig Move) (w : World) : Bool :=
  match a with
  | .move (.generatorEnd _ pick) => decide pick.Sentence ||
      w.pulling?.any fun p => (w.stream p.stream).result.replyText.strip ≠ []
  | _ => true

namespace Engine
variable {cfg : RuntimeConfig} {op : Op} {m : Move} {w w' : World} {i : Nat}
  {taken before beforeLost : List Text}

theorem nextReplay_next {st st' : Stream} {s : Text} (h : World.nextReplay? st = some (s, st')) :
    ∃ e rest, st.eager = some e ∧ e.buffer.drop e.replayedCount = s :: rest ∧
      st' = { st with eager := some { e with replayedCount := e.replayedCount + 1 } } := by
  unfold World.nextReplay? at h
  split at h
  · rename_i e eager
    split at h
    · rename_i s' rest dropped
      obtain ⟨rfl, rfl⟩ := by simpa using h
      exact ⟨e, rest, eager, dropped, rfl⟩
    · cases h
  · cases h

theorem nextReplay_some {st st' : Stream} {s : Text} (h : World.nextReplay? st = some (s, st')) :
    st.unreplayed = s :: st'.unreplayed ∧ st' = { st with eager := st'.eager } ∧
      ∀ e, st'.eager = some e → e.replayedCount ≤ e.buffer.length := by
  obtain ⟨e, rest, eager, dropped, rfl⟩ := nextReplay_next h
  have shorter : e.replayedCount < e.buffer.length := by
    rw [← List.drop_eq_nil_iff.not.trans Nat.not_le, dropped]
    exact List.cons_ne_nil _ _
  refine ⟨?_, rfl, ?_⟩
  · simp [Stream.unreplayed, eager, ← List.tail_drop, dropped]
  · rintro e' ⟨⟩
    exact shorter

section
variable (h : callMove cfg op w m = some w')
include h

/-- What a stream was created with is never changed. -/
theorem callMove_built : w'.streams = w.streams ∨ ∃ j st, w'.streams = (w.setStream j st).streams ∧
      st.slot = (w.stream j).slot ∧ st.isRestructure = (w.stream j).isRestructure ∧
        st.turnId = (w.stream j).turnId := by
  cases callMove_effect h with
  | eagerSentence _ _ _ | eagerEnd _ _ | produceSentence _ _ _ | generatorEnd _ _ _
  | defaultReply _ _ _ | generatorError _ _ => exact .inr ⟨_, _, rfl, rfl, rfl, rfl⟩
  | replaySentence _ next =>
      have same := (nextReplay_some next).2.1
      exact .inr ⟨_, _, rfl, by rw [same], by rw [same], by rw [same]⟩
  | _ => exact .inl rfl

theorem callMove_restructure (i : Nat) :
    (w'.stream i).isRestructure = (w.stream i).isRestructure := by
  obtain same | ⟨-, restructure, -⟩ := stream_written (callMove_built h) i
  · rw [same]
  · exact restructure

theorem callMove_slots : w'.slots = w.slots := by
  obtain same | ⟨j, st, same, slot, -⟩ := callMove_built h
  · simp [World.slots, same]
  · rw [World.slots, same]
    exact World.slots_setStream slot

end

/-- A reply without a sentence is replaced by a default one. -/
theorem generatorEnd_account {error : Option String} {pick : Text}
    (spoken : defaultSpoken op (.move (.generatorEnd error pick)) w = true)
    (account : Account i taken before beforeLost w)
    (effect : Effect cfg op w (.generatorEnd error pick) w') :
    Account i taken before beforeLost w' := by
  cases effect with
  | generatorEnd pulls text _ =>
      obtain ⟨bound, rfl, pulling, played, playedHere, lostHere, accounted⟩ :=
        account.pulling pulls
      refine .write bound ?_ rfl rfl rfl playedHere lostHere
      refine accounted.moved ?_ text (fun _ => rfl) accounted.cursor
      simp [inventory, Pipe.waiting, pulling, Stream.unreplayed]
  | @defaultReply _ _ p _ pulls silent _ =>
      obtain ⟨bound, rfl, pulling, played, playedHere, lostHere, accounted⟩ :=
        account.pulling pulls
      have empty := accounted.silent silent
      simp only [inventory, List.append_eq_nil_iff] at empty
      have only : ∀ st : Stream, st.unreplayed = [] →
          inventory st (p.offer pick true) taken played [] = [pick] := by
        intro st replayed
        simp [inventory, waiting_offer pulling, currentJob_offer, empty, replayed]
      refine .write bound ?_ rfl rfl stream_offer playedHere lostHere
      refine ⟨?_, ?_, fun _ => rfl, accounted.cursor⟩
      · rw [only]
        · simp
        · exact empty.2
      · rw [only]
        · simpa [defaultSpoken, pulls, silent] using spoken
        · exact empty.2

/-- What waits for the consumer when the producer is blocked with no job. -/
theorem waiting_idle {p : Pipe} (empty : ∀ job last, p.producer ≠ .putting job last) :
    p.waiting = p.jobs.filterMap id := by
  cases producer : p.producer with
  | putting job last => exact absurd producer (empty job last)
  | _ => simp [Pipe.waiting, producer]

section
variable (account : Account i taken before beforeLost w)
include account

/-- A generation writes its stream. -/
theorem setStream_account {j : Nat} {st : Stream}
    (kept : ∀ {p played lost}, Accounted (w.stream j) p taken played lost →
      Accounted st p taken played lost) : Account i taken before beforeLost (w.setStream j st) := by
  obtain ⟨bound, p, played, lost, pipe, own, playedHere, lostHere, accounted⟩ := account
  refine ⟨by rwa [length_setStream], p, played, lost, pipe, own, playedHere, lostHere, ?_⟩
  by_cases same : j = i
  · subst same
    rw [stream_setStream bound]
    exact kept accounted
  · rw [stream_setStream_of_ne (Ne.symm same)]
    exact accounted

theorem eagerSentence_account {j : Nat} {s : Text}
    (effect : Effect cfg op w (.eagerSentence j s) w') : Account i taken before beforeLost w' := by
  cases effect with
  | eagerSentence eager _ sentence =>
      refine setStream_account account fun accounted => ?_
      have cursor := accounted.cursor _ eager
      refine accounted.added (s := s) ?_ rfl sentence accounted.whole ?_
      · simp [inventory, Stream.unreplayed, eager, List.drop_append_of_le_length cursor]
      · rintro e' ⟨⟩
        simp
        omega

theorem eagerEnd_account {j : Nat} {error : Option String}
    (effect : Effect cfg op w (.eagerEnd j error) w') : Account i taken before beforeLost w' := by
  cases effect with
  | @eagerEnd _ _ e eager _ =>
      refine setStream_account account fun accounted => accounted.moved ?_ rfl accounted.whole ?_
      · simp [inventory, Stream.unreplayed, eager]
      · rintro e' ⟨⟩
        exact accounted.cursor e eager

theorem produceSentence_account {s : Text} (effect : Effect cfg op w (.produceSentence s) w') :
    Account i taken before beforeLost w' := by
  cases effect with
  | produceSentence pulls direct sentence =>
      obtain ⟨bound, rfl, pulling, played, playedHere, lostHere, accounted⟩ :=
        account.pulling pulls
      refine .write bound (accounted.added (s := s) ?_ rfl sentence (fun _ => rfl) ?_) rfl rfl
        stream_offer playedHere lostHere
      · simp [inventory, waiting_offer pulling, currentJob_offer, Stream.unreplayed, direct]
      · exact accounted.cursor

theorem replaySentence_account (effect : Effect cfg op w .replaySentence w') :
    Account i taken before beforeLost w' := by
  cases effect with
  | replaySentence pulls next =>
      obtain ⟨bound, rfl, pulling, played, playedHere, lostHere, accounted⟩ :=
        account.pulling pulls
      obtain ⟨head, same, cursor⟩ := nextReplay_some next
      refine .write bound (accounted.moved ?_ (by rw [same]) (fun _ => rfl) cursor) rfl rfl
        stream_offer playedHere lostHere
      simp [inventory, waiting_offer pulling, currentJob_offer, head]

theorem generatorError_account {message : String}
    (effect : Effect cfg op w (.generatorError message) w') :
    Account i taken before beforeLost w' := by
  cases effect with
  | generatorError pulls _ =>
      obtain ⟨bound, rfl, pulling, played, playedHere, lostHere, accounted⟩ :=
        account.pulling pulls
      refine .write bound ?_ rfl rfl rfl playedHere lostHere
      refine accounted.moved ?_ rfl (fun _ => rfl) accounted.cursor
      simp [inventory, Pipe.waiting, pulling, Stream.unreplayed]

theorem producerPut_account (effect : Effect cfg op w .producerPut w') :
    Account i taken before beforeLost w' := by
  obtain ⟨bound, p, played, lost, pipe, own, playedHere, lostHere, accounted⟩ := account
  cases effect with
  | @producerPutJob _ job last piped _ _ putting =>
      obtain rfl := Option.some.inj (pipe.symm.trans piped)
      have none : lost = [] := accounted.whole (by simp [putting])
      refine ⟨bound, _, played, lost, rfl, own, playedHere, lostHere, ?_⟩
      refine accounted.moved ?_ rfl (fun _ => none) accounted.cursor
      cases last <;> simp [inventory, Pipe.waiting, putting, World.stream]
  | producerPutSentinel piped _ _ ending =>
      obtain rfl := Option.some.inj (pipe.symm.trans piped)
      have none : lost = [] := accounted.whole (by simp [ending])
      refine ⟨bound, _, played, lost, rfl, own, playedHere, lostHere, ?_⟩
      refine accounted.moved ?_ rfl (fun _ => none) accounted.cursor
      simp [inventory, Pipe.waiting, ending, World.stream]

/-- What the cancelled producer holds is lost. -/
theorem producerEnd_account (effect : Effect cfg op w .producerEnd w') :
    Account i taken before beforeLost w' := by
  obtain ⟨bound, p, played, lost, pipe, own, playedHere, lostHere, accounted⟩ := account
  cases effect with
  | @producerDropsJob _ job _ piped _ putting =>
      obtain rfl := Option.some.inj (pipe.symm.trans piped)
      have none : lost = [] := accounted.whole (by simp [putting])
      refine ⟨bound, _, played, [job], rfl, own, playedHere, ?_, ?_⟩
      · simp [lostIn, lostHere, none]
      · refine accounted.moved ?_ rfl nofun accounted.cursor
        simp [inventory, Pipe.waiting, putting, none, World.stream]
  | producerEnd piped _ active empty =>
      obtain rfl := Option.some.inj (pipe.symm.trans piped)
      have none : lost = [] := accounted.whole fun cancelled => by
        simp [cancelled, Producer.isDone] at active
      refine ⟨bound, _, played, lost, rfl, own, playedHere, lostHere, ?_⟩
      refine accounted.moved ?_ rfl (fun _ => none) accounted.cursor
      simp [inventory, waiting_idle, empty, World.stream]

theorem firstAudio_account (effect : Effect cfg op w .firstAudio w') :
    Account i taken before beforeLost w' := by
  obtain ⟨bound, p, played, lost, pipe, own, playedHere, lostHere, accounted⟩ := account
  cases effect with
  | firstAudio piped _ _ _ _ =>
      obtain rfl := Option.some.inj (pipe.symm.trans piped)
      exact ⟨bound, _, played, lost, rfl, own, playedHere, lostHere,
        accounted.moved rfl rfl accounted.whole accounted.cursor⟩

end

theorem callMove_played (h : callMove cfg op w m = some w') :
    playedIn w'.history = playedIn w.history := by
  refine (callMove_history h).induct (P := fun h => playedIn h = playedIn w.history) rfl ?_
  intro m h own same
  cases m <;> first | exact same | cases own

theorem callMove_lost (h : callMove cfg op w m = some w') (other : m ≠ .producerEnd) :
    lostIn w'.history = lostIn w.history := by
  cases callMove_effect h with
  | producerDropsJob _ _ _ => exact absurd rfl other
  | cancelAll =>
      obtain same | cancelled := cancelMain_marks op w
      · exact congrArg lostIn same
      · exact (congrArg lostIn cancelled).trans rfl
  | deliverControl _ _ =>
      obtain ⟨-, same⟩ | ⟨-, ended⟩ := terminate_control op _
      · exact congrArg lostIn same
      · exact (congrArg lostIn ended).trans rfl
  | asrFinal _ _ =>
      dsimp only
      split
      · rfl
      · rfl
  | finalize stepped =>
      obtain same | noted := finalizeStep_marks stepped
      · exact congrArg lostIn same
      · exact (congrArg lostIn noted).trans rfl
  | _ => rfl

/-- Every section of another task keeps the account. -/
theorem callMove_account (spoken : defaultSpoken op (.move m) w = true)
    (account : Account i taken before beforeLost w) (h : callMove cfg op w m = some w') :
    Account i taken before beforeLost w' := by
  have effect := callMove_effect h
  cases m with
  | eagerSentence j s => exact eagerSentence_account account effect
  | eagerEnd j error => exact eagerEnd_account account effect
  | produceSentence s => exact produceSentence_account account effect
  | replaySentence => exact replaySentence_account account effect
  | generatorEnd error pick => exact generatorEnd_account spoken account effect
  | generatorError message => exact generatorError_account account effect
  | producerPut => exact producerPut_account account effect
  | producerEnd => exact producerEnd_account account effect
  | firstAudio => exact firstAudio_account account effect
  | _ =>
      -- the other sections write neither the streams nor the pipe
      have played := callMove_played h
      have lost := callMove_lost h (by simp)
      cases effect <;> exact account.congr rfl rfl played lost

end Engine
end IsalesEngine
