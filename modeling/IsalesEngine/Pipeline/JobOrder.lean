import Mathlib.Data.List.Basic
import Mathlib.Data.List.Range
import IsalesEngine.Pipeline.Moves

/-!
The jobs of a streamed playback, in order. Those the consumer has taken, those
queued and the one in the producer's hands are all the jobs there are, and their
texts are the sentences of the reply. So a job that is taken is the next one, the
sentinel comes behind the last one, and no more than three are ahead.
-/
namespace IsalesEngine.PlayStreaming

variable {τ χ : Type} {j : Nat}

/-- The job the producer has started and not put on the queue. -/
def Producer.held : Producer → List Nat
  | .putting j | .closing j => [j]
  | _ => []

def Producer.isActive : Producer → Bool
  | .pulling | .putting _ | .ending => true
  | _ => false

def Producer.isCancelled : Producer → Bool
  | .closing _ | .cancelled => true
  | _ => false

/-- The job in the consumer's hands. -/
def Consumer.current : Consumer → List Nat
  | .stoppingGate j | .stoppingFiller j | .playing j => [j]
  | .leaving current _ => current.toList
  | .getting | .returned => []

/-- A job was taken whose call has not begun, because the filler is being stopped. -/
def Consumer.preparing : Consumer → Nat
  | .stoppingGate _ | .stoppingFiller _ => 1
  | _ => 0

def Consumer.isLeaving : Consumer → Bool
  | .leaving _ _ | .returned => true
  | _ => false

def Consumer.isPlaying : Consumer → Bool
  | .playing _ => true
  | _ => false

/-- The `finally` block has seen the producer end. -/
def Consumer.pastProducer : Consumer → Bool
  | .leaving _ .current | .leaving _ .queue | .leaving _ .eager | .leaving _ .filler => true
  | .leaving _ .awaitFiller | .returned => true
  | _ => false

/-- It has closed the current job. -/
def Consumer.pastCurrent : Consumer → Bool
  | .leaving _ .queue | .leaving _ .eager | .leaving _ .filler => true
  | .leaving _ .awaitFiller | .returned => true
  | _ => false

/-- It has closed the queued jobs. -/
def Consumer.pastQueue : Consumer → Bool
  | .leaving _ .eager | .leaving _ .filler | .leaving _ .awaitFiller | .returned => true
  | _ => false

namespace State

/-- The jobs that are started and not taken. -/
def waiting (s : State τ χ) : List Nat := s.jobQ.filterMap id ++ s.producer.held

/-- How many sentences the consumer has reached: the last one is being played, or its call is about
to begin. -/
def reached (s : State τ χ) : Nat := s.calls.length + s.consumer.preparing

end State

variable {s s' : State τ χ}

/-- The jobs in order: `jobs` of them are started, `calls` have had their call. -/
structure Lined (jobs calls : Nat) (jobQ : List (Option Nat)) (producer : Producer)
    (consumer : Consumer) : Prop where
  line : consumer.isLeaving = false ∨ producer.isActive = true →
    List.range (calls + consumer.preparing) ++ (jobQ.filterMap id ++ producer.held) =
      List.range jobs
  ahead : jobs ≤ calls + consumer.preparing + 3
  bounded : jobQ.length ≤ jobQMaxsize
  sentinel : ∃ (js : List Nat) (tail : List (Option Nat)), jobQ = js.map some ++ tail ∧
    (tail = [] ∨ tail = [none] ∧ producer = .finished)
  current : consumer.isLeaving = false → ∀ j ∈ consumer.current,
    j + 1 = calls + consumer.preparing
  stopped : producer.isCancelled = true → consumer.isLeaving = true
  gone : consumer.pastProducer = true → producer = .finished ∨ producer = .cancelled
  released : consumer.pastCurrent = true → consumer.current = []
  emptied : consumer.pastQueue = true → jobQ = []

/-- The first of the remaining numbers is the next one. -/
theorem range_append_cons {n m : Nat} {rest : List Nat}
    (line : List.range n ++ j :: rest = List.range m) :
    j = n ∧ List.range (n + 1) ++ rest = List.range m := by
  have next : (List.range m)[n]? = some j := by
    rw [← line, List.getElem?_append_right (by simp)]
    simp
  obtain ⟨inside, value⟩ := List.getElem?_eq_some_iff.mp next
  rw [List.getElem_range] at value
  subst value
  refine ⟨rfl, ?_⟩
  rw [List.range_succ, List.append_assoc]
  exact line

theorem pastProducer_of_pastQueue {consumer : Consumer} (late : consumer.pastQueue = true) :
    consumer.pastProducer = true := by
  unfold Consumer.pastQueue at late
  split at late <;> first | rfl | contradiction

namespace Lined
variable {jobs calls : Nat} {jobQ : List (Option Nat)} {producer : Producer}
  {consumer : Consumer}

/-- Only a finished producer has put the sentinel. -/
theorem unfinished (lined : Lined jobs calls jobQ producer consumer)
    (more : producer ≠ .finished) : ∃ js : List Nat, jobQ = js.map some := by
  obtain ⟨js, tail, queue, rfl | ⟨-, finished⟩⟩ := lined.sentinel
  · exact ⟨js, by rw [queue, List.append_nil]⟩
  · exact absurd finished more

/-- A producer at work is not behind the `finally` block. -/
theorem early (lined : Lined jobs calls jobQ producer consumer) (works : producer.isActive = true) :
    consumer.pastProducer ≠ true := by
  intro late
  obtain rfl | rfl := lined.gone late <;> contradiction

/-- A started job: two are queued at most, so this is the third ahead. -/
theorem start (lined : Lined jobs calls jobQ .pulling consumer) :
    Lined (jobs + 1) calls jobQ (.putting jobs) consumer := by
  have line : List.range (calls + consumer.preparing) ++ (jobQ.filterMap id ++ []) =
    List.range jobs := lined.line (Or.inr rfl)
  rw [List.append_nil] at line
  have queued : (jobQ.filterMap id).length ≤ 2 :=
    Nat.le_trans (List.length_filterMap_le _ _) lined.bounded
  have count := congrArg List.length line
  rw [List.length_append, List.length_range, List.length_range] at count
  obtain ⟨js, queue⟩ := lined.unfinished nofun
  refine { lined with
    line := fun _ => ?_, ahead := by omega, sentinel := ?_, stopped := nofun
    gone := fun late => absurd late (lined.early rfl) }
  · rw [Producer.held, ← List.append_assoc, line, List.range_succ]
  · exact ⟨js, [], by rw [queue, List.append_nil], Or.inl rfl⟩

/-- The producer ends its loop. -/
theorem ending (lined : Lined jobs calls jobQ .pulling consumer) :
    Lined jobs calls jobQ .ending consumer := by
  obtain ⟨js, queue⟩ := lined.unfinished nofun
  refine { lined with
    line := fun _ => lined.line (Or.inr rfl), sentinel := ?_, stopped := nofun
    gone := fun late => absurd late (lined.early rfl) }
  exact ⟨js, [], by rw [queue, List.append_nil], Or.inl rfl⟩

theorem putJob (lined : Lined jobs calls jobQ (.putting j) consumer)
    (room : jobQ.length < jobQMaxsize) : Lined jobs calls (jobQ ++ [some j]) .pulling consumer := by
  have line := lined.line (Or.inr rfl)
  obtain ⟨js, queue⟩ := lined.unfinished nofun
  refine { lined with
    line := fun _ => ?_, bounded := ?_, sentinel := ?_, stopped := nofun
    gone := fun late => absurd late (lined.early rfl)
    emptied := fun late => absurd (pastProducer_of_pastQueue late) (lined.early rfl) }
  · rw [List.filterMap_append, List.append_assoc]
    exact line
  · rw [List.length_append]
    exact room
  · refine ⟨js ++ [j], [], ?_, Or.inl rfl⟩
    rw [queue, List.map_append, List.append_nil]
    rfl

theorem putSentinel (lined : Lined jobs calls jobQ .ending consumer)
    (room : jobQ.length < jobQMaxsize) : Lined jobs calls (jobQ ++ [none]) .finished consumer := by
  obtain ⟨js, queue⟩ := lined.unfinished nofun
  refine { lined with
    line := fun _ => ?_, bounded := ?_, sentinel := ?_, gone := fun _ => Or.inl rfl
    stopped := nofun
    emptied := fun late => absurd (pastProducer_of_pastQueue late) (lined.early rfl) }
  · rw [List.filterMap_append, List.append_assoc]
    exact lined.line (Or.inr rfl)
  · rw [List.length_append]
    exact room
  · exact ⟨js, [none], by rw [queue], Or.inr ⟨rfl, rfl⟩⟩

/-- The consumer takes a job: it is the next one. -/
theorem front (lined : Lined jobs calls (some j :: jobQ) producer .getting) :
    j = calls ∧ List.range (calls + 1) ++ (jobQ.filterMap id ++ producer.held) = List.range jobs :=
  range_append_cons (lined.line (Or.inl rfl))

theorem dropFront {item : Option Nat} (lined : Lined jobs calls (item :: jobQ) producer consumer) :
    jobQ.length ≤ jobQMaxsize ∧ ∃ (js : List Nat) (tail : List (Option Nat)),
      jobQ = js.map some ++ tail ∧ (tail = [] ∨ tail = [none] ∧ producer = .finished) := by
  refine ⟨Nat.le_of_succ_le lined.bounded, ?_⟩
  obtain ⟨js, tail, queue, ends⟩ := lined.sentinel
  cases js with
  | nil =>
      obtain rfl | ⟨rfl, -⟩ := ends
      · contradiction
      · exact ⟨[], [], (List.cons.inj queue).2, Or.inl rfl⟩
  | cons j js => exact ⟨js, tail, (List.cons.inj queue).2, ends⟩

theorem takeFirst (lined : Lined jobs calls (some j :: jobQ) producer .getting) :
    Lined jobs calls jobQ producer (.stoppingGate j) := by
  obtain ⟨rfl, line⟩ := lined.front
  obtain ⟨bounded, sentinel⟩ := lined.dropFront
  have ahead := lined.ahead
  refine { lined with
    line := fun _ => line, ahead := Nat.le_succ_of_le ahead, bounded, sentinel, current := ?_
    gone := nofun, released := nofun, emptied := nofun }
  intro _ i here
  exact congrArg (· + 1) (List.mem_singleton.mp here)

theorem stopFiller (lined : Lined jobs calls jobQ producer (.stoppingGate j)) :
    Lined jobs calls jobQ producer (.stoppingFiller j) :=
  ⟨lined.line, lined.ahead, lined.bounded, lined.sentinel, lined.current, lined.stopped, nofun,
    nofun, nofun⟩

/-- The call of the job begins. -/
theorem play (lined : Lined jobs calls jobQ producer (.stoppingFiller j)) :
    Lined jobs (calls + 1) jobQ producer (.playing j) :=
  ⟨lined.line, lined.ahead, lined.bounded, lined.sentinel, lined.current, lined.stopped, nofun,
    nofun, nofun⟩

theorem returns (lined : Lined jobs calls jobQ producer (.playing j)) :
    Lined jobs calls jobQ producer .getting :=
  ⟨lined.line, lined.ahead, lined.bounded, lined.sentinel, nofun, lined.stopped, nofun, nofun,
    nofun⟩

/-- The sentinel is the last item, and no job is left behind it. -/
theorem sentinelFront (lined : Lined jobs calls (none :: jobQ) producer .getting) :
    jobQ = [] ∧ producer = .finished ∧ calls = jobs := by
  obtain ⟨js, tail, queue, ends⟩ := lined.sentinel
  cases js with
  | cons j js => simp at queue
  | nil =>
      obtain rfl | ⟨rfl, rfl⟩ := ends
      · contradiction
      · obtain rfl := (List.cons.inj queue).2
        have line : List.range calls ++ [] = List.range jobs := lined.line (Or.inl rfl)
        have count := congrArg List.length line
        simp only [List.append_nil, List.length_range] at count
        exact ⟨rfl, rfl, count⟩

theorem sentinelLeaves (lined : Lined jobs calls (none :: jobQ) producer .getting) :
    Lined jobs calls jobQ producer (.leaving none .gate) := by
  obtain ⟨bounded, sentinel⟩ := lined.dropFront
  obtain ⟨-, rfl, -⟩ := lined.sentinelFront
  refine ⟨fun works => ?_, lined.ahead, bounded, sentinel, nofun, fun _ => rfl, nofun, nofun, nofun⟩
  obtain works | works := works <;> contradiction

/-- A cancelled producer has closed the job it held. -/
theorem close (lined : Lined jobs calls jobQ (.closing j) consumer) :
    Lined jobs calls jobQ .cancelled consumer := by
  have away := lined.stopped rfl
  obtain ⟨js, queue⟩ := lined.unfinished nofun
  refine { lined with
    line := fun works => ?_, sentinel := ⟨js, [], by rw [queue, List.append_nil], Or.inl rfl⟩
    gone := fun _ => Or.inr rfl }
  rw [away] at works
  obtain works | works := works <;> contradiction

/-- The consumer leaves its loop, or goes on with its `finally` block. -/
theorem leaving {consumer' : Consumer} (lined : Lined jobs calls jobQ producer consumer)
    (away : consumer'.isLeaving = true) (begun : consumer.preparing = 0)
    (gone : consumer'.pastProducer = true → producer = .finished ∨ producer = .cancelled)
    (released : consumer'.pastCurrent = true → consumer'.current = [])
    (emptied : consumer'.pastQueue = true → jobQ = []) :
    Lined jobs calls jobQ producer consumer' := by
  have same : consumer'.preparing = consumer.preparing := by
    rw [begun]
    cases consumer' <;> first | rfl | contradiction
  refine ⟨fun works => ?_, ?_, lined.bounded, lined.sentinel, ?_, fun _ => away, gone, released,
    emptied⟩
  · rw [away] at works
    rw [same]
    exact lined.line (Or.inr (works.resolve_left nofun))
  · rw [same]
    exact lined.ahead
  · rw [away]
    exact nofun

theorem cancel {c : Option Nat} (lined : Lined jobs calls jobQ producer (.leaving c .producer)) :
    Lined jobs calls jobQ producer.cancel (.leaving c .awaitProducer) := by
  have inactive : producer.cancel.isActive = false := by cases producer <;> rfl
  refine ⟨fun works => ?_, lined.ahead, lined.bounded, ?_, nofun, fun _ => rfl, nofun, nofun, nofun⟩
  · rw [inactive] at works
    obtain works | works := works <;> contradiction
  · obtain ⟨js, tail, queue, rfl | ⟨rfl, rfl⟩⟩ := lined.sentinel
    · exact ⟨js, [], queue, Or.inl rfl⟩
    · exact ⟨js, [none], queue, Or.inr ⟨rfl, rfl⟩⟩

/-- The producer is gone when the queue is emptied. -/
theorem drop {c : Option Nat} {item : Option Nat}
    (lined : Lined jobs calls (item :: jobQ) producer consumer)
    (here : consumer = .leaving c .queue) : Lined jobs calls jobQ producer consumer := by
  subst here
  obtain ⟨bounded, sentinel⟩ := lined.dropFront
  refine { lined with line := fun works => ?_, bounded, sentinel, emptied := nofun }
  obtain rfl | rfl := lined.gone rfl <;> obtain works | works := works <;> contradiction

/-- The job whose call is about to begin is the next one, and it is started. -/
theorem next (lined : Lined jobs calls jobQ producer (.stoppingFiller j)) :
    j = calls ∧ j < jobs := by
  have position := lined.current rfl j (List.mem_singleton.mpr rfl)
  have count := congrArg List.length (lined.line (Or.inl rfl))
  rw [List.length_append, List.length_range, List.length_range] at count
  simp only [Consumer.preparing] at position count
  omega

end Lined

def State.IsLined (s : State τ χ) : Prop :=
  Lined s.jobs.length s.calls.length s.jobQ s.producer s.consumer

theorem length_closeJob (s : State τ χ) (j : Nat) : (s.closeJob j).jobs.length = s.jobs.length :=
  List.length_modify _ _ _

theorem State.IsLined.move (lined : s.IsLined) (move : Move s s') : s'.IsLined := by
  unfold State.IsLined at lined ⊢
  cases move with
  | generates _ _ | flags _ _ | finishes _ | gateFires _ _ | fillerGoes => exact lined
  | synthesizes _ _ _ | synthesisEnds _ _ _ =>
      rw [List.length_set]
      exact lined
  | yields pulling _ =>
      rw [pulling] at lined
      simp only [State.start, List.length_append]
      exact lined.start
  | refuses _ pulling _ | exhausts pulling _ _ | fails _ pulling =>
      rw [pulling] at lined
      exact lined.ending
  | putsJob room putting =>
      rw [putting] at lined
      exact lined.putJob room
  | putsSentinel room ending =>
      rw [ending] at lined
      exact lined.putSentinel room
  | closesPending closing =>
      rw [closing] at lined
      rw [length_closeJob]
      exact lined.close
  | getsFirst getting front =>
      rw [getting, front] at lined
      exact lined.takeFirst
  | getsJob getting front _ =>
      rw [getting, front] at lined
      simp only [State.play, List.length_append]
      exact lined.takeFirst.stopFiller.play
  | getsSentinel getting front =>
      rw [getting, front] at lined
      exact lined.sentinelLeaves
  | stopsFiller stopping =>
      rw [stopping] at lined
      exact lined.stopFiller
  | fillerStops stopping _ =>
      rw [stopping] at lined
      simp only [State.play, List.length_append]
      exact lined.play
  | takesChunk _ _ calls _ _ | takesEnd _ _ calls _ _ _ =>
      rw [calls, List.length_append] at lined
      rw [List.length_append, List.length_set]
      exact lined
  | returns playing calls _ =>
      rw [playing, calls, List.length_append] at lined
      rw [List.length_append]
      exact lined.returns
  | raises _ playing calls _ =>
      rw [playing, calls, List.length_append] at lined
      rw [List.length_append]
      exact lined.leaving rfl rfl nofun nofun nofun
  | cleansGate here =>
      rw [here] at lined
      exact lined.leaving rfl rfl nofun nofun nofun
  | cancelsProducer here =>
      rw [here] at lined
      exact lined.cancel
  | producerGone here gone =>
      rw [here] at lined
      exact lined.leaving rfl rfl (fun _ => gone) nofun nofun
  | closesCurrent here =>
      rw [here] at lined
      rw [length_closeJob]
      exact lined.leaving rfl rfl (fun _ => lined.gone rfl) (fun _ => rfl) nofun
  | noCurrent here =>
      rw [here] at lined
      exact lined.leaving rfl rfl (fun _ => lined.gone rfl) (fun _ => rfl) nofun
  | closesQueued here front =>
      rw [front] at lined
      rw [length_closeJob]
      exact lined.drop here
  | dropsSentinel here front =>
      rw [front] at lined
      exact lined.drop here
  | queueEmpty here empty =>
      rw [here] at lined
      exact lined.leaving rfl rfl (fun _ => lined.gone rfl)
        (fun _ => lined.released rfl) (fun _ => empty)
  | cancelsEager here | cancelsFiller here =>
      rw [here] at lined
      exact lined.leaving rfl rfl (fun _ => lined.gone rfl)
        (fun _ => lined.released rfl) (fun _ => lined.emptied rfl)
  | leaves here _ =>
      rw [here] at lined
      exact lined.leaving rfl rfl (fun _ => lined.gone rfl) (fun _ => rfl)
        (fun _ => lined.emptied rfl)

/-- The sentences that were handed out have jobs, in order, unless one was refused. -/
structure Spoken (said reply : List τ) (replayed : Nat) (error : Option String)
    (producer : Producer) : Prop where
  initial : said <+: reply
  count : said.length ≤ replayed ∧ replayed ≤ reply.length
  steady : error = none ∨ producer = .pulling ∨ producer.held ≠ [] → said.length = replayed

def State.texts (s : State τ χ) : List τ := s.jobs.map Job.text

def State.IsSpoken (s : State τ χ) : Prop := Spoken s.texts s.reply s.replayed s.error s.producer

theorem close_text (job : Job τ χ) : job.close.text = job.text := by
  unfold Job.close
  split <;> rfl

theorem closeJob_texts (s : State τ χ) (j : Nat) : (s.closeJob j).texts = s.texts := by
  refine List.ext_getElem? fun i => ?_
  rw [State.texts, State.closeJob, State.texts, List.getElem?_map, List.getElem?_map,
    List.getElem?_modify]
  cases s.jobs[i]? with
  | none => rfl
  | some job =>
      by_cases here : j = i
      · simp [here, close_text]
      · simp [here]

namespace Spoken
variable {said said' reply : List τ} {replayed : Nat} {error : Option String} {producer : Producer}

theorem start {sentence : τ} (spoken : Spoken said reply replayed error .pulling)
    (next : reply[replayed]? = some sentence) :
    Spoken (said ++ [sentence]) reply (replayed + 1) error (.putting j) := by
  have count := spoken.steady (Or.inr (Or.inl rfl))
  subst count
  have inside : said.length < reply.length := (List.getElem?_eq_some_iff.mp next).1
  have initial : said ++ [sentence] <+: reply := by
    obtain ⟨rest, rfl⟩ := spoken.initial
    rw [List.getElem?_append_right (Nat.le_refl _), Nat.sub_self] at next
    cases rest with
    | nil => contradiction
    | cons head tail =>
        obtain rfl := Option.some.inj next
        exact ⟨tail, by rw [List.append_assoc]; rfl⟩
  refine ⟨initial, ⟨Nat.le_of_eq List.length_append, inside⟩, fun _ => List.length_append⟩

variable (spoken : Spoken said reply replayed error producer)
include spoken

theorem same (texts : said' = said) : Spoken said' reply replayed error producer := texts ▸ spoken

theorem generate (sentence : τ) : Spoken said (reply ++ [sentence]) replayed error producer := by
  refine ⟨spoken.initial.trans (List.prefix_append _ _), ⟨spoken.count.1, ?_⟩, spoken.steady⟩
  rw [List.length_append]
  exact Nat.le_add_right_of_le spoken.count.2

/-- The error is set, and the producer hands out nothing more. -/
theorem flagged {replayed' : Nat} {e : String} (more : replayed ≤ replayed')
    (bound : replayed' ≤ reply.length) :
    Spoken said reply replayed' (error <|> some e) .ending := by
  refine ⟨spoken.initial, ⟨Nat.le_trans spoken.count.1 more, bound⟩, fun steady => ?_⟩
  cases error <;> simp [Producer.held] at steady

theorem setError {e : Option String} (set : e ≠ none) : Spoken said reply replayed e producer :=
  { spoken with steady := fun steady => spoken.steady (Or.inr (steady.resolve_left set)) }

/-- The producer goes on with the job it has, or with nothing. -/
theorem goOn {producer' : Producer}
    (job : producer' = .pulling ∨ producer'.held ≠ [] → producer.held ≠ []) :
    Spoken said reply replayed error producer' := by
  refine { spoken with steady := fun steady => spoken.steady ?_ }
  obtain fine | works := steady
  · exact Or.inl fine
  · exact Or.inr (Or.inr (job works))

end Spoken

theorem flag_ne_none (s : State τ χ) (error : String) : (s.flag error).error ≠ none := by
  rw [State.flag]
  cases s.error <;> nofun

theorem held_cancel (producer : Producer) : producer.cancel.held = producer.held := by
  cases producer <;> rfl

theorem cancel_ne_pulling (producer : Producer) : producer.cancel ≠ .pulling := by
  cases producer <;> nofun

theorem State.IsSpoken.move (spoken : s.IsSpoken) (move : Move s s') : s'.IsSpoken := by
  unfold State.IsSpoken at spoken ⊢
  cases move with
  | generates sentence _ => exact spoken.generate sentence
  | flags _ _ => exact spoken.setError nofun
  | yields pulling next =>
      rw [pulling] at spoken
      exact (spoken.start next).same (List.map_append)
  | refuses _ _ more => exact spoken.flagged (Nat.le_succ _) more
  | fails _ _ => exact spoken.flagged (Nat.le_refl _) spoken.count.2
  | exhausts pulling _ _ =>
      exact { spoken with steady := fun _ => spoken.steady (Or.inr (Or.inl pulling)) }
  | putsJob _ putting => exact spoken.goOn fun _ => by rw [putting]; exact List.cons_ne_nil _ _
  | putsSentinel _ _ => exact spoken.goOn (by simp [Producer.held])
  | closesPending _ =>
      exact (spoken.goOn (by simp [Producer.held])).same (closeJob_texts s _)
  | synthesizes _ own _ | synthesisEnds _ own _ | takesChunk _ own _ _ _
  | takesEnd _ own _ _ _ _ => exact spoken.same (Asyncio.map_set_same own rfl)
  | closesCurrent _ | closesQueued _ _ => exact spoken.same (closeJob_texts s _)
  | cancelsProducer _ =>
      refine spoken.goOn fun works => ?_
      exact held_cancel s.producer ▸ works.resolve_left (cancel_ne_pulling s.producer)
  | raises error _ _ _ => exact spoken.setError (flag_ne_none s error)
  | _ => exact spoken

end IsalesEngine.PlayStreaming
