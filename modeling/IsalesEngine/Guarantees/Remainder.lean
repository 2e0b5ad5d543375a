import IsalesEngine.Engine.Inventory
import IsalesEngine.Engine.Quiet

/-!
What is left of a reply that a barge-in cuts. The `finally` block of
`_play_streaming` collects the sentence that was playing, the queued ones and
the rest of the eager buffer, and these are all of the reply that was not
played, unless the producer held a sentence it could not enqueue: that one is
closed with the producer and appears nowhere.
-/
namespace IsalesEngine
open Asyncio Asyncio.Coro

/-- Nothing of a reply has been played yet: all of its text is in the eager buffer. -/
structure Stream.Unplayed (st : Stream) : Prop where
  text : st.result.replyText = st.unreplayed.flatten
  sentences : ∀ s ∈ st.unreplayed, s.Sentence
  cursor : ∀ e, st.eager = some e → e.replayedCount ≤ e.buffer.length

namespace Remainder
variable {cfg : RuntimeConfig} {op : Op} {m : Move} {i : Nat} {w w' : World}
  {taken before beforeLost : List Text} {current : Option Text} {whole : Bool} {p : Pipe}
  {job : Text}

/-- The account of a reply, with what its consumer has written in the pipe. -/
structure Held (i : Nat) (taken before beforeLost : List Text) (current : Option Text)
    (whole : Bool) (w : World) : Prop where
  account : Account i taken before beforeLost w
  current : w.pipe.bind Pipe.currentJob = current
  whole : w.pipe.map Pipe.fullyPlayed = some whole
  original : (w.stream i).isRestructure = false

abbrev machine (cfg : RuntimeConfig) : Machine sig World := (engine cfg).restrict defaultSpoken

theorem Held.move (held : Held i taken before beforeLost current whole w)
    (spoken : defaultSpoken op (.move m) w = true) (h : Engine.callMove cfg op w m = some w') :
    Held i taken before beforeLost current whole w' := by
  obtain ⟨p, pipe, here⟩ := Option.map_eq_some_iff.mp held.whole
  obtain ⟨p', pipe', -, played, job, -⟩ := Engine.callMove_pipe h pipe
  refine ⟨Engine.callMove_account spoken held.account h, ?_, ?_, ?_⟩
  · rw [← held.current, pipe, pipe']
    exact job
  · rw [pipe', Option.map_some, played, here]
  · rw [Engine.callMove_restructure h i]
    exact held.original

theorem held_stableAt (own : op.isReap = true ∨ op = .closeSynth ∨ op = .playback) :
    (machine cfg).StableAt op (Held i taken before beforeLost current whole) := by
  refine Engine.stableAt_of own (fun _ _ _ held spoken moved => held.move spoken moved) ?_
  exact fun held => ⟨held.account, held.current, held.whole, held.original⟩

theorem held_reaps : Reaps (machine cfg) anything (Held i taken before beforeLost current whole) :=
  fun _ own => Preserves.waitAt (held_stableAt (.inl own)) fun _ _ => trivial

section
variable (held : Held i taken before beforeLost current whole w)
include held

/-- The consumer rewrites the pipe and moves sentences along. -/
theorem Held.repipe {taken' : List Text} (pipe : w.pipe = some p) (p' : Pipe)
    (own : p'.stream = p.stream) (producer : p'.producer = p.producer) (same : ∀ st played lost,
      inventory st p' taken' played lost = inventory st p taken played lost) :
    Held i taken' before beforeLost p'.currentJob p'.fullyPlayed { w with pipe := some p' } := by
  obtain ⟨bound, p₀, played, lost, pipe₀, here, playedHere, lostHere, accounted⟩ := held.account
  obtain rfl := Option.some.inj (pipe.symm.trans pipe₀)
  refine ⟨⟨bound, p', played, lost, rfl, own.trans here, playedHere, lostHere, ?_⟩, rfl, rfl,
    held.original⟩
  refine accounted.moved (same _ _ _) rfl ?_ accounted.cursor
  rw [producer]
  exact accounted.whole

theorem Held.currentJob (pipe : w.pipe = some p) : p.currentJob = current := by
  simpa [pipe] using held.current

theorem Held.fullyPlayed (pipe : w.pipe = some p) : p.fullyPlayed = whole := by
  simpa [pipe] using held.whole

end

section Consume

/-- The account while no sentence is being played. -/
abbrev Between (i : Nat) (before beforeLost : List Text) : World → Prop :=
  Held i [] before beforeLost none true

abbrev Holding (i : Nat) (before beforeLost : List Text) (job : Text) : World → Prop :=
  Held i [] before beforeLost (some job) true

/-- The account when the consumer has stopped. -/
def After (i : Nat) (before beforeLost : List Text) (w : World) : Prop :=
  ∃ current whole, Held i [] before beforeLost current whole w

theorem jobGet_wp (held : Between i before beforeLost w) :
    (await .jobGet).wp (machine cfg) anything (outcomes (fun _ => True) (After i before beforeLost)
      (Taken (Holding i before beforeLost) (After i before beforeLost))) w := by
  refine wp_wait.mpr ⟨trivial, fun w₁ w₂ r steps replied => ?_⟩
  have kept : ∀ m t t', Between i before beforeLost t → (machine cfg).move Op.jobGet m t = some t' →
      Between i before beforeLost t' :=
    fun m t t' held moved => by
      obtain ⟨spoken, moved⟩ := Machine.restrict_move_some moved
      exact held.move spoken (@Engine.callMove_of_move cfg .jobGet m t t' moved rfl).2
  have held₁ : Between i before beforeLost w₁ := steps.invariant kept held
  obtain ⟨job, p, rfl, pipe, -, jobs, rfl⟩ | ⟨rfl, -, rfl⟩ :=
    Engine.replyJob_some (Machine.restrict_reply_some replied).2
  · have idle := held₁.currentJob pipe
    have good := held₁.fullyPlayed pipe
    cases job with
    | none =>
        refine ⟨_, _, held₁.repipe pipe { p with jobs := p.jobs.tail } rfl rfl ?_⟩
        intro st played lost
        rw [inventory, inventory, Pipe.waiting, Pipe.waiting, jobs]
        rfl
    | some job =>
        show Holding i before beforeLost job _
        rw [Holding, ← good]
        refine held₁.repipe pipe { p with jobs := p.jobs.tail, currentJob := some job } rfl rfl
          fun st played lost => ?_
        rw [inventory, inventory, Pipe.waiting, Pipe.waiting, jobs, idle]
        simp
  · trivial

theorem Held.played {tasks : List TurnTask}
    (held : Holding i before beforeLost job w) : Between i before beforeLost
      { w.note (.played job) with
        turnTasks := tasks
        pipe := w.pipe.map fun p => { p with currentJob := none } } := by
  obtain ⟨bound, p, played, lost, pipe, here, playedHere, lostHere, accounted⟩ := held.account
  have job_eq := held.currentJob pipe
  refine ⟨⟨bound, { p with currentJob := none }, played ++ [job], lost, ?_, here, ?_, lostHere,
    ?_⟩, ?_, ?_, held.original⟩
  · simp [pipe]
  · simp [World.note, playedIn, playedHere]
  · refine accounted.moved ?_ rfl accounted.whole accounted.cursor
    simp [inventory, Pipe.waiting, World.stream, World.note, job_eq]
  · simp [pipe]
  · simp [pipe, held.fullyPlayed pipe]

theorem Held.cut (held : Holding i before beforeLost job w) :
    After i before beforeLost { w.note (.cut job) with
      pipe := w.pipe.map fun p => { p with fullyPlayed := false } } := by
  obtain ⟨p, pipe, -⟩ := Option.map_eq_some_iff.mp held.whole
  have noted : Holding i before beforeLost job (w.note (.cut job)) :=
    ⟨held.account, held.current, held.whole, held.original⟩
  rw [pipe]
  exact ⟨_, _, noted.repipe pipe { p with fullyPlayed := false } rfl rfl fun _ _ _ => rfl⟩

theorem Held.failed {error : Option String} (held : Holding i before beforeLost job w) :
    After i before beforeLost (w.setStream i { w.stream i with
      result := { (w.stream i).result with error := error } }) := by
  obtain ⟨bound, p, played, lost, pipe, here, playedHere, lostHere, accounted⟩ := held.account
  refine ⟨_, _, ⟨.write bound ?_ rfl pipe here playedHere lostHere, held.current, held.whole, ?_⟩⟩
  · exact accounted.moved rfl rfl accounted.whole accounted.cursor
  · rw [stream_setStream bound]
    exact held.original

theorem consumeRule (filler : Bool) :
    ConsumerRule (machine cfg) anything (fun _ => True) (After i before beforeLost) i filler
      (Between i before beforeLost) (Holding i before beforeLost) (After i before beforeLost) where
  exhausted _ := wp_wait.mpr ⟨trivial, fun _ _ _ _ replied =>
    nomatch (Machine.restrict_reply_some replied).2⟩
  get held := jobGet_wp held
  reapGate _ job := held_reaps.reapGate fun held =>
    ⟨held.account, held.current, held.whole, held.original⟩
  stop _ job := held_reaps.stop fun held =>
    ⟨held.account, held.current, held.whole, held.original⟩
  failed _ held := ⟨_, _, held⟩
  play {job w} held := by
    have wait : Preserves (machine cfg) anything (Holding i before beforeLost job)
        (await .playback) :=
      Preserves.waitAt (held_stableAt (.inr (.inr rfl))) fun _ _ => trivial
    have chunks : Preserves (machine cfg) anything (Holding i before beforeLost job)
        (playChunks .sentence job true) := playChunks_preserves wait
      (fun held => ⟨held.account, held.current, held.whole, held.original⟩)
      (fun held => ⟨held.account, held.current, held.whole, held.original⟩)
    refine PlayStreaming.playJob_wp (T := Holding i before beforeLost job)
      (S := Holding i before beforeLost job) (F := Holding i before beforeLost job)
      ((chunks w held).mono fun r w' held' => ?_) Held.played Held.cut Held.failed
    match r with
    | .ok true | .ok false => exact held'
    | .error .cancelled => trivial
    | .error (.error _) => exact held'

end Consume

section Finish

/-- The producer is over. -/
def Over (w : World) : Prop := ∃ p, w.pipe = some p ∧ p.producer.isDone = true

/-- The producer is over and its queue is empty. -/
def Drained (w : World) : Prop := ∃ p, w.pipe = some p ∧ p.producer.isDone = true ∧ p.jobs = []

theorem Drained.over' (drained : Drained w) : Over w := by
  obtain ⟨p, pipe, done, -⟩ := drained
  exact ⟨p, pipe, done⟩

theorem idle_producer (finished : Over w) : w.pulling? = none := by
  obtain ⟨p, pipe, done⟩ := finished
  have other : p.producer ≠ .pulling := by
    rintro pulling
    rw [pulling] at done
    cases done
  simp [World.pulling?, pipe, other]

theorem producer_over (h : Engine.callMove cfg op w m = some w') (pipe : w.pipe = some p)
    (done : p.producer.isDone = true) :
    ∃ p', w'.pipe = some p' ∧ p'.producer = p.producer ∧ p'.jobs = p.jobs := by
  have idle := idle_producer ⟨p, pipe, done⟩
  cases Engine.callMove_effect h with
  | produceSentence pulling _ _ | replaySentence pulling _ | generatorEnd pulling _ _
  | defaultReply pulling _ _ | generatorError pulling _ =>
      rw [idle] at pulling
      cases pulling
  | producerPutJob here _ _ active | producerPutSentinel here _ _ active
  | producerDropsJob here _ active =>
      obtain rfl := Option.some.inj (pipe.symm.trans here)
      rw [active] at done
      cases done
  | producerEnd here _ active _ =>
      obtain rfl := Option.some.inj (pipe.symm.trans here)
      rw [done] at active
      cases active
  | firstAudio here _ _ _ _ =>
      obtain rfl := Option.some.inj (pipe.symm.trans here)
      exact ⟨_, rfl, rfl, rfl⟩
  | _ => exact ⟨p, pipe, rfl, rfl⟩

theorem waiting_over (done : p.producer.isDone = true) : p.waiting = p.jobs.filterMap id := by
  refine Engine.waiting_idle fun job last putting => ?_
  rw [putting] at done
  cases done

theorem Over.move (finished : Over w) (h : Engine.callMove cfg op w m = some w') : Over w' := by
  obtain ⟨p, pipe, done⟩ := finished
  obtain ⟨p', pipe', same, -⟩ := producer_over h pipe done
  exact ⟨p', pipe', same ▸ done⟩

theorem Drained.move (drained : Drained w) (h : Engine.callMove cfg op w m = some w') :
    Drained w' := by
  obtain ⟨p, pipe, done, empty⟩ := drained
  obtain ⟨p', pipe', same, jobs⟩ := producer_over h pipe done
  exact ⟨p', pipe', same ▸ done, jobs.trans empty⟩

/-- The generation of a stream has ended. -/
def Silenced (st : Stream) : Prop := ∀ e, st.eager = some e → e.status ≠ .running

/-- Nobody adds to a reply whose producer and whose generation are over. -/
theorem reply_over (h : Engine.callMove cfg op w m = some w') (finished : Over w)
    (silenced : Silenced (w.stream i)) :
    (w'.stream i).result.replyText = (w.stream i).result.replyText ∧ Silenced (w'.stream i) := by
  have idle := idle_producer finished
  have written : w'.streams = w.streams ∨ ∃ j st, w'.streams = (w.setStream j st).streams ∧
      (Silenced (w.stream j) →
        st.result.replyText = (w.stream j).result.replyText ∧ Silenced st) := by
    cases Engine.callMove_effect h with
    | @eagerSentence j s e eager running _ =>
        exact .inr ⟨j, _, rfl, fun silenced => absurd running (silenced e eager)⟩
    | eagerEnd _ _ => exact .inr ⟨_, _, rfl, fun _ => ⟨rfl, by simp [Silenced]⟩⟩
    | produceSentence pulling _ _ | replaySentence pulling _ | generatorEnd pulling _ _
    | defaultReply pulling _ _ | generatorError pulling _ =>
        rw [idle] at pulling
        cases pulling
    | _ => exact .inl rfl
  obtain same | own := stream_written written i
  · rw [same]
    exact ⟨rfl, silenced⟩
  · exact own silenced

/-- The jobs of a reply are closed while its account stands. -/
theorem closeJob_keeps {P : World → Prop}
    (kept : ∀ {op m w w'}, P w → Engine.callMove cfg op w m = some w' → P w')
    (pending : ∀ {w b}, P w → P { w with cancelPending := b })
    (tasks : ∀ {w ts}, P w → P { w with turnTasks := ts }) (job : Text) :
    Keeps (machine cfg) anything (fun _ => True)
      (fun w => Held i taken before beforeLost current whole w ∧ P w) (closeJob job) := by
  have stable : ∀ {op : Op}, op.isReap = true ∨ op = .closeSynth ∨ op = .playback →
      (machine cfg).StableAt op fun w => Held i taken before beforeLost current whole w ∧ P w := by
    intro op own
    refine Engine.stableAt_of own (fun _ _ _ held spoken moved => ⟨held.1.move spoken moved,
      kept held.2 moved⟩) fun held => ⟨⟨?_, ?_, ?_, ?_⟩, pending held.2⟩
    · exact held.1.account
    · exact held.1.current
    · exact held.1.whole
    · exact held.1.original
  have close : Preserves (machine cfg) anything
      (fun w => Held i taken before beforeLost current whole w ∧ P w) (await .closeSynth) :=
    Preserves.waitAt (stable (.inr (.inl rfl))) fun _ _ => trivial
  refine Reaps.closeJob (fun _ own => Preserves.waitAt (stable (.inl own)) fun _ _ => trivial)
    (close.keeps fun _ _ => trivial) (fun held => ⟨⟨?_, ?_, ?_, ?_⟩, tasks held.2⟩) job
  · exact held.1.account
  · exact held.1.current
  · exact held.1.whole
  · exact held.1.original

theorem lost_over (h : Engine.callMove cfg op w m = some w') (finished : Over w) :
    lostIn w'.history = lostIn w.history := by
  refine Engine.callMove_lost h ?_
  rintro rfl
  obtain ⟨p, pipe, done⟩ := finished
  simp [Engine.callMove, World.producerEnd, pipe, done] at h

/-- A reply nobody adds to any more. -/
structure Settled (i : Nat) (text : Text) (played lost : List Text) (whole : Bool) (w : World) :
    Prop where
  finished : Over w
  silenced : Silenced (w.stream i)
  text : (w.stream i).result.replyText = text
  played : playedIn w.history = played
  lost : lostIn w.history = lost
  whole : w.pipe.map Pipe.fullyPlayed = some whole

variable {text : Text} {played lost : List Text}

theorem Settled.move (settled : Settled i text played lost whole w)
    (h : Engine.callMove cfg op w m = some w') : Settled i text played lost whole w' := by
  obtain ⟨same, silenced⟩ := reply_over h settled.finished settled.silenced
  refine ⟨settled.finished.move h, silenced, same.trans settled.text,
    (Engine.callMove_played h).trans settled.played,
    (lost_over h settled.finished).trans settled.lost, ?_⟩
  obtain ⟨p, pipe, here⟩ := Option.map_eq_some_iff.mp settled.whole
  obtain ⟨p', pipe', -, good, -⟩ := Engine.callMove_pipe h pipe
  rw [pipe', Option.map_some, good, here]

theorem settled_reaps : Reaps (machine cfg) anything (Settled i text played lost whole) := by
  intro op own
  refine Preserves.waitAt (Engine.stableAt_of (.inl own) ?_ ?_) fun _ _ => trivial
  · exact fun _ _ _ settled _ moved => settled.move moved
  · exact fun settled => ⟨settled.finished, settled.silenced, settled.text, settled.played,
      settled.lost, settled.whole⟩

theorem cancelEager_wp (bound : i < w.streams.length) (finished : Over w)
    (whole_eq : w.pipe.map Pipe.fullyPlayed = some whole) :
    (cancelEager i).wp (machine cfg) anything (outcomes (fun _ => True) (fun _ => True) fun _ =>
      Settled i (w.stream i).result.replyText (playedIn w.history) (lostIn w.history) whole) w := by
  refine wp_read_bind.mpr ((wp_when _ _).mpr ?_)
  split
  · refine wp_update_bind.mpr ((settled_reaps (.reapEager i) rfl).suppressAll (fun _ => rfl) ?_)
    refine ⟨finished, ?_, ?_, rfl, rfl, whole_eq⟩
    · rw [stream_setStream bound]
      intro e eager
      obtain ⟨e₀, -, rfl⟩ := Option.map_eq_some_iff.mp eager
      nofun
    · rw [stream_setStream bound]
  · rename_i ended
    refine ⟨finished, ?_, rfl, rfl, rfl, whole_eq⟩
    intro e eager running
    simp [eager, running] at ended

theorem cancelProducer_wp (held : Held i taken before beforeLost current whole w) :
    PlayStreaming.cancelProducer.wp (machine cfg) anything (outcomes (fun _ => True) (fun _ => True)
      fun _ w => Held i taken before beforeLost current whole w ∧ Over w) w := by
  obtain ⟨p, pipe, here⟩ := Option.map_eq_some_iff.mp held.whole
  have asked : Held i taken before beforeLost current whole
      { w with pipe := w.pipe.map fun p => { p with cancelRequested := true } } := by
    rw [pipe, ← held.currentJob pipe, ← here]
    exact held.repipe pipe { p with cancelRequested := true } rfl rfl fun _ _ _ => rfl
  refine wp_update_bind.mpr (wp_read_bind.mpr ((wp_when _ _).mpr ?_))
  split
  · refine wp.suppress (P := fun _ w => Held i taken before beforeLost current whole w ∧ Over w)
      (wp_wait.mpr ⟨trivial, fun w₁ w₂ r steps replied => ?_⟩)
      fun r w₂ post => ⟨fun _ _ => rfl, post⟩
    have stable : (machine cfg).StableAt Op.reapProducer
        (Held i taken before beforeLost current whole) := held_stableAt (.inl rfl)
    have held₁ := stable.steps steps asked
    obtain ⟨done, -, rfl⟩ := Engine.reap_some (Machine.restrict_reply_some replied).2
    obtain ⟨p₁, pipe₁, -⟩ := Option.map_eq_some_iff.mp held₁.whole
    refine ⟨⟨held₁.account, held₁.current, held₁.whole, held₁.original⟩, p₁, pipe₁, ?_⟩
    simpa [pipe₁] using done
  · rename_i done
    refine ⟨asked, { p with cancelRequested := true }, ?_, by simpa [pipe] using done⟩
    rw [pipe]
    rfl

/-- The captured text and what was played make up the reply, up to what was lost. -/
theorem captured_iff {st : Stream} (accounted : Accounted st p taken played lost)
    (empty : p.waiting = []) :
    st.result.replyText = played.flatten ++ Text.strip (p.currentJob.toList ++ taken ++
      [PlayStreaming.bufferRemainder st]).flatten ↔ lost = [] := by
  have tail : PlayStreaming.bufferRemainder st = st.unreplayed.flatten := by
    unfold PlayStreaming.bufferRemainder Stream.unreplayed
    cases st.eager <;> rfl
  have stripped : Text.strip (p.currentJob.toList ++ taken ++ st.unreplayed).flatten =
      (p.currentJob.toList ++ taken ++ st.unreplayed).flatten := by
    refine Text.stripped_flatten fun t member => accounted.sentences t ?_
    simp only [inventory, List.mem_append] at member ⊢
    tauto
  have joined : (p.currentJob.toList ++ taken ++ [st.unreplayed.flatten]).flatten =
      (p.currentJob.toList ++ taken ++ st.unreplayed).flatten := by simp
  rw [tail, joined, stripped, accounted.text, inventory, empty]
  constructor
  · intro same
    have short : lost.flatten.length = 0 := by
      have := congrArg List.length same
      simp only [List.flatten_append, List.append_nil, List.length_append] at this
      omega
    refine List.eq_nil_iff_forall_not_mem.mpr fun t member => ?_
    have spoken := (accounted.sentences t (by simp [inventory, member])).1
    exact spoken (List.flatten_eq_nil_iff.mp (List.length_eq_zero_iff.mp short) t member)
  · rintro rfl
    simp

/-- An empty remainder is recorded as none. -/
theorem remaining_getD (t : Text) : (if t = [] then none else some t).getD [] = t := by
  split
  · exact Eq.symm ‹t = []›
  · rfl

/-- An interrupted reply is what was played followed by the remainder, unless a sentence was
lost. -/
def Balanced (i : Nat) (before beforeLost : List Text) (w : World) : Prop :=
  ∃ played lost, playedIn w.history = before ++ played ∧ lostIn w.history = beforeLost ++ lost ∧
    ((w.stream i).result.replyText = played.flatten ++ w.session.interruptRemainingText.getD [] ↔
      lost = [])

theorem finish_wp (filler : Bool)
    (held : Held i [] before beforeLost current whole w) :
    (PlayStreaming.finish i filler).wp (machine cfg) anything (outcomes (fun _ => True)
      (fun _ => True) fun _ w => w.pipe.map Pipe.fullyPlayed = some whole ∧
        (whole = false → Balanced i before beforeLost w)) w := by
  have gate : Keeps (machine cfg) anything (fun _ => True)
      (Held i [] before beforeLost current whole) FillerManager.reapGate :=
    held_reaps.reapGate fun held =>
      ⟨held.account, held.current, held.whole, held.original⟩
  refine wp_read_bind.mpr (wp_read_bind.mpr ?_)
  refine (Keeps.when gate).seq held (fun _ _ => trivial) fun _ w₁ held₁ => ?_
  refine wp.seq (cancelProducer_wp held₁) fun _ w₂ held₂ => ?_
  have overKept : ∀ job, Keeps (machine cfg) anything (fun _ => True)
      (fun w => Held i [] before beforeLost current whole w ∧ Over w) (closeJob job) :=
    closeJob_keeps Over.move (fun finished => finished) fun finished => finished
  refine (Keeps.forEach overKept _).seq held₂ (fun _ _ => trivial) ?_
  rintro _ w₃ ⟨held₃, p, pipe, done⟩
  refine wp_act_bind.mpr ?_
  have drainedKept : ∀ job, Keeps (machine cfg) anything (fun _ => True) (fun w =>
      Held i (p.jobs.filterMap id) before beforeLost current whole w ∧ Drained w) (closeJob job) :=
    closeJob_keeps Drained.move (fun drained => drained) fun drained => drained
  simp only [pipe]
  refine (Keeps.forEach drainedKept _).seq ⟨?_, ?_⟩ (fun _ _ => trivial) ?_
  · rw [← held₃.currentJob pipe, ← held₃.fullyPlayed pipe]
    refine held₃.repipe pipe { p with jobs := [] } rfl rfl fun st played lost => ?_
    simp [inventory, waiting_over done, waiting_over (p := { p with jobs := [] }) done]
  · exact ⟨{ p with jobs := [] }, rfl, done, rfl⟩
  rintro _ w₄ ⟨held₄, drained⟩
  refine wp_read_bind.mpr ?_
  refine wp.seq (cancelEager_wp held₄.account.1 drained.over' held₄.whole) fun _ w₅ settled₅ => ?_
  have stop : Keeps (machine cfg) anything (fun _ => True) (Settled i (w₄.stream i).result.replyText
      (playedIn w₄.history) (lostIn w₄.history) whole) FillerManager.stop :=
    settled_reaps.stop fun settled => ⟨settled.finished, settled.silenced, settled.text,
      settled.played, settled.lost, settled.whole⟩
  refine (Keeps.when stop).seq settled₅ (fun _ _ => trivial) fun _ w₆ settled₆ => ?_
  obtain ⟨-, p₄, played, lost, pipe₄, -, playedHere, lostHere, accounted⟩ := held₄.account
  obtain ⟨p', pipe', done₄, empty⟩ := drained
  obtain rfl := Option.some.inj (pipe₄.symm.trans pipe')
  have balanced := captured_iff accounted (by rw [waiting_over done₄, empty]; rfl)
  rw [held₄.currentJob pipe₄, ← settled₆.text] at balanced
  refine (wp_when _ _).mpr ?_
  rw [held.original, held.current]
  split
  · refine ⟨settled₆.whole, fun _ => ⟨played, lost, settled₆.played.trans playedHere,
      settled₆.lost.trans lostHere, ?_⟩⟩
    rw [← balanced]
    simp only [remaining_getD]
    rfl
  · rename_i good
    refine ⟨settled₆.whole, ?_⟩
    rintro rfl
    obtain ⟨p₀, pipe₀, cut⟩ := Option.map_eq_some_iff.mp held.whole
    simp [pipe₀, cut] at good

end Finish

theorem playStreaming_wp (filler : Bool)
    (delay start fuel : Nat) (bound : i < w.streams.length) (unplayed : (w.stream i).Unplayed)
    (original : (w.stream i).isRestructure = false) :
    (playStreaming i filler delay start fuel).wp (machine cfg) anything (outcomes (fun _ => True)
      (fun _ => True) fun result w' => result.2 = false →
        Balanced i (playedIn w.history) (lostIn w.history) w') w := by
  have begun : ∀ {w' : World}, w'.streams = w.streams → w'.history = w.history →
      w'.pipe = some { stream := i, processingStart := start } →
      Between i (playedIn w.history) (lostIn w.history) w' := by
    intro w' streams history pipe
    have here : w'.stream i = w.stream i := by simp [World.stream, streams]
    refine ⟨⟨by rwa [streams], _, [], [], pipe, rfl, by simp [history], by simp [history], ?_⟩,
      by rw [pipe]; rfl, by rw [pipe]; rfl, by rw [here]; exact original⟩
    rw [here]
    refine ⟨?_, ?_, fun _ => rfl, unplayed.cursor⟩
    · simpa [inventory, Pipe.waiting] using unplayed.text
    · simpa [inventory, Pipe.waiting] using unplayed.sentences
  have beginning : (PlayStreaming.begin i filler delay start).wp (machine cfg) anything
      (outcomes (fun _ => True) (fun _ => True) fun _ =>
        Between i (playedIn w.history) (lostIn w.history)) w := by
    refine wp_update_bind.mpr ((wp_when _ _).mpr ?_)
    split
    · exact begun rfl rfl rfl
    · exact begun rfl rfl rfl
  refine wp.seq beginning fun _ w₁ held₁ => ?_
  refine wp.seq (L := fun _ w' => ∃ whole, w'.pipe.map Pipe.fullyPlayed = some whole ∧
    (whole = false → Balanced i (playedIn w.history) (lostIn w.history) w')) ?_ ?_
  · refine wp.andFinallyOk (J := After i (playedIn w.history) (lostIn w.history)) ?_ ?_
    · exact ((consumeRule filler).consume_wp fuel id held₁).mono
        (outcomes_mono (fun _ _ => trivial) (fun _ _ => trivial) fun _ _ after => after)
    · rintro w₂ ⟨current, whole, held₂⟩
      exact (finish_wp filler held₂).mono
        (outcomes_mono (fun _ _ => trivial) (fun _ _ => trivial) fun _ _ post => ⟨whole, post⟩)
  · rintro _ w₂ ⟨whole, good, balanced⟩ cut
    obtain ⟨p, pipe, rfl⟩ := Option.map_eq_some_iff.mp good
    exact balanced (by simpa [pipe] using cut)

/-- A reply is about to be played while the caller starts to talk. -/
def replying (st : Stream) : World :=
  { World.initial 1 .other with
    streams := [st]
    listen := { partialMonitor := .running, partials := [⟨"等等".toList, 0⟩] } }

/-- The first of two sentences is being played, and `more` are produced before it is cut. -/
def cutRun (more : List Text) : List (Action sig Move) :=
  [.move (.produceSentence "您好。".toList), .move (.produceSentence "我是小李。".toList),
    .reply .jobGet (.ok (some "您好。".toList))] ++
    more.map (fun s => .move (.produceSentence s)) ++
    [.move .partialMonitor, .move (.playEnd false), .reply .playback (.error .cancelled),
      .move .producerEnd, .reply .reapProducer (.error .cancelled)]

def closeRun : List (Action sig Move) := [.reply .reapSynth (.ok ()), .reply .closeSynth (.ok ())]

end Remainder

namespace Guarantees
open Remainder

/-- When a barge-in cuts a reply, its text is what was played in full followed by the remainder if
and only if the producer held no sentence when it was cancelled. -/
theorem interrupted_reply_accounted (cfg : RuntimeConfig) (i : Nat) (filler : Bool)
    (delay start fuel : Nat) (w : World) (acts : List (Action sig Move))
    (c : Susp sig World (Option Nat × Bool)) (firstAudioMs : Option Nat)
    (bound : i < w.streams.length)
    (unplayed : (w.stream i).Unplayed) (original : (w.stream i).isRestructure = false)
    (run : ((engine cfg).restrict defaultSpoken).exec
      (playStreaming i filler delay start fuel w) acts = some c)
    (cut : c.result? = some (.ok (firstAudioMs, false))) :
    ∃ played lost, playedIn c.state.history = playedIn w.history ++ played ∧
      lostIn c.state.history = lostIn w.history ++ lost ∧
      ((c.state.stream i).result.replyText =
        played.flatten ++ c.state.session.interruptRemainingText.getD [] ↔ lost = []) := by
  exact (playStreaming_wp filler delay start fuel bound unplayed original).result run cut rfl

theorem two_sentences_accounted :
    ∃ c, ((engine .minimal).restrict defaultSpoken).exec
      (playStreaming 0 false 0 0 2 (replying { turnId := 1 }))
      (cutRun [] ++ closeRun ++ closeRun) = some c ∧
      c.result? = some (.ok (none, false)) ∧
      ∃ played lost, playedIn c.state.history = [] ++ played ∧
        lostIn c.state.history = [] ++ lost ∧
        ((c.state.stream 0).result.replyText =
          played.flatten ++ c.state.session.interruptRemainingText.getD [] ↔ lost = []) := by
  refine exists_of_map Susp.result? (some (.ok (none, false))) (by decide +kernel)
    fun c run cut => ?_
  refine ⟨cut, interrupted_reply_accounted .minimal 0 false 0 0 2 _ _ c none ?_ ?_ rfl run cut⟩
  · decide
  · exact ⟨rfl, nofun, nofun⟩

/-- The producer holds a sentence that the full queue does not take: it is cancelled with it, and
the sentence is in the reply but neither played nor remaining. -/
theorem held_sentence_lost :
    ((engine .minimal).exec (playStreaming 0 false 0 0 2 (replying { turnId := 1 }))
      (cutRun ["您有空吗？".toList, "我稍等。".toList] ++ closeRun ++ closeRun ++ closeRun)).map
      (fun c => (decide (c.result? = some (.ok (none, false))),
        (c.state.stream 0).result.replyText, playedIn c.state.history,
        c.state.session.interruptRemainingText)) =
    some (true, "您好。我是小李。您有空吗？我稍等。".toList, [],
      some "您好。我是小李。您有空吗？".toList) := by
  decide +kernel

end Guarantees
end IsalesEngine
