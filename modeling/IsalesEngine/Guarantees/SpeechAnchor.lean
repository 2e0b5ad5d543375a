import IsalesEngine.Engine.UpkeptCall

/-!
The anchor of the caller's speech. The recognition pump clears it when it
receives a final, the partial monitor sets it with the first partial transcript
it evaluates after that. Partial transcripts reach the monitor over a lane of
their own, so one of an utterance that is over may come after its final; as long
as none is evaluated then, the anchor is the time at which a partial transcript
of the same utterance was first evaluated.
-/
namespace IsalesEngine
open Asyncio Asyncio.Coro

section Utterances
variable {speech speech' evaluated : List SpeechEntry} {r r' : AsrResult} {t n : Nat}

/-- No final was received between the two. -/
def SameUtterance (speech : List SpeechEntry) (r r' : AsrResult) : Prop :=
  ∀ i, .final i ∈ speech → (i < r.index ↔ i < r'.index)

/-- No final was received after it. -/
def Latest (speech : List SpeechEntry) (r : AsrResult) : Prop :=
  ∀ i, .final i ∈ speech → i < r.index

/-- A partial transcript of the utterance of `r` was first evaluated at `t`. -/
def FirstAt (speech : List SpeechEntry) (r : AsrResult) (t : Nat)
    (evaluated : List SpeechEntry) : Prop :=
  ∃ newer r' started older, evaluated = newer ++ .measured r' started t :: older ∧
    SameUtterance speech r r' ∧
    ∀ r'' started' now, .measured r'' started' now ∈ older → ¬ SameUtterance speech r r''

/-- Every partial transcript was measured from the first evaluation in its utterance. -/
def Anchored (speech : List SpeechEntry) : Prop :=
  ∀ newer r started now older, speech = newer ++ .measured r started now :: older →
    FirstAt speech r started (.measured r started now :: older)

theorem SameUtterance.refl : SameUtterance speech r r := fun _ _ => Iff.rfl

theorem Latest.same (latest : Latest speech r) (latest' : Latest speech r') :
    SameUtterance speech r r' := fun i member => iff_of_true (latest i member) (latest' i member)

theorem SameUtterance.trans_iff {r'' : AsrResult} (same : SameUtterance speech r r') :
    SameUtterance speech r r'' ↔ SameUtterance speech r' r'' :=
  forall₂_congr fun i member => by rw [same i member]

theorem FirstAt.congr (first : FirstAt speech r t evaluated)
    (same : ∀ r₁ started now, .measured r₁ started now ∈ evaluated →
      (SameUtterance speech' r' r₁ ↔ SameUtterance speech r r₁)) :
    FirstAt speech' r' t evaluated := by
  obtain ⟨newer, r₁, started, older, rfl, here, none⟩ := first
  refine ⟨newer, r₁, started, older, rfl, (same r₁ started t (by simp)).mpr here, ?_⟩
  intro r₂ started' now member
  rw [same r₂ started' now (by simp [member])]
  exact none r₂ started' now member

theorem FirstAt.cons (first : FirstAt speech r t evaluated) (e : SpeechEntry) :
    FirstAt speech r t (e :: evaluated) := by
  obtain ⟨newer, r', started, older, rfl, here⟩ := first
  exact ⟨e :: newer, r', started, older, rfl, here⟩

theorem sameUtterance_measured {started now : Nat} {r₁ : AsrResult} :
    SameUtterance (.measured r₁ started now :: speech) r r' ↔ SameUtterance speech r r' := by
  simp [SameUtterance]

theorem latest_measured {started now : Nat} {r₁ : AsrResult} :
    Latest (.measured r₁ started now :: speech) r ↔ Latest speech r := by
  simp [Latest]

/-- A final that comes after both does not part them. -/
theorem sameUtterance_final (after : r.index ≤ n) (after' : r'.index ≤ n) :
    SameUtterance (.final n :: speech) r r' ↔ SameUtterance speech r r' := by
  refine ⟨fun same i member => same i (.tail _ member), fun same i member => ?_⟩
  obtain new | old := List.mem_cons.mp member
  · obtain rfl := SpeechEntry.final.inj new
    exact iff_of_false (Nat.not_lt.mpr after) (Nat.not_lt.mpr after')
  · exact same i old

end Utterances

/-- The speech that was recognised so far, with the anchor and the number of results. -/
structure Anchoring (speech : List SpeechEntry) (anchor : Option Nat) (count : Nat) : Prop where
  finals : ∀ i, .final i ∈ speech → i < count
  partials : ∀ r started now, .measured r started now ∈ speech → r.index < count
  anchored : Anchored speech
  unset : anchor = none → ∀ r, Latest speech r →
    ∀ r' started now, .measured r' started now ∈ speech → ¬ SameUtterance speech r r'
  set : ∀ t, anchor = some t → ∀ r, Latest speech r → FirstAt speech r t speech

namespace Anchoring
variable {speech : List SpeechEntry} {anchor : Option Nat} {count count' : Nat} {r : AsrResult}

/-- Without evaluated partial transcripts there is nothing to show. -/
theorem start (finals : ∀ i, .final i ∈ speech → i < count)
    (none : ∀ r started now, .measured r started now ∉ speech) :
    Anchoring speech Option.none count where
  finals := finals
  partials r started now member := absurd member (none r started now)
  anchored newer r started now older split := absurd (by simp [split]) (none r started now)
  unset _ _ _ r started now member := absurd member (none r started now)
  set := nofun

section
variable (anchoring : Anchoring speech anchor count)
include anchoring

theorem mono (more : count ≤ count') : Anchoring speech anchor count' where
  finals i member := (anchoring.finals i member).trans_le more
  partials r started now member := (anchoring.partials r started now member).trans_le more
  anchored := anchoring.anchored
  unset := anchoring.unset
  set := anchoring.set

/-- The pump receives a final and clears the anchor. -/
theorem final : Anchoring (.final count :: speech) none (count + 1) where
  finals i member := by
    obtain new | old := List.mem_cons.mp member
    · obtain rfl := SpeechEntry.final.inj new
      exact Nat.lt_succ_self _
    · exact Nat.lt_succ_of_lt (anchoring.finals i old)
  partials r started now member := by
    obtain new | old := List.mem_cons.mp member
    · cases new
    · exact Nat.lt_succ_of_lt (anchoring.partials r started now old)
  anchored newer r started now older split := by
    cases newer with
    | nil => cases split
    | cons e newer =>
        obtain ⟨rfl, rest⟩ := List.cons.inj split
        refine (anchoring.anchored newer r started now older rest).congr fun r₁ s t member => ?_
        have before := anchoring.partials r started now (by simp [rest])
        have before₁ := anchoring.partials r₁ s t (rest ▸ List.mem_append_right newer member)
        exact sameUtterance_final (Nat.le_of_lt before) (Nat.le_of_lt before₁)
  unset _ r latest r' started now member same := by
    obtain new | old := List.mem_cons.mp member
    · cases new
    · have after := latest count (List.mem_cons_self ..)
      have before := anchoring.partials r' started now old
      exact absurd ((same count (List.mem_cons_self ..)).mp after) (Nat.not_lt.mpr before.le)
  set := nofun

/-- The monitor evaluates a partial transcript of the utterance that is being spoken. -/
theorem measure (latest : Latest speech r) (index : r.index < count) (now : Nat) :
    Anchoring (.measured r (anchor.getD now) now :: speech) (some (anchor.getD now)) count := by
  have first : FirstAt (.measured r (anchor.getD now) now :: speech) r (anchor.getD now)
      (.measured r (anchor.getD now) now :: speech) := by
    cases anchor with
    | none =>
        refine ⟨[], r, now, speech, rfl, .refl, fun r' started t member => ?_⟩
        rw [sameUtterance_measured]
        exact anchoring.unset rfl r latest r' started t member
    | some t =>
        refine ((anchoring.set t rfl r latest).congr fun _ _ _ _ => ?_).cons _
        exact sameUtterance_measured
  refine ⟨?_, ?_, ?_, nofun, ?_⟩
  · intro i member
    obtain new | old := List.mem_cons.mp member
    · cases new
    · exact anchoring.finals i old
  · intro r' started t member
    obtain new | old := List.mem_cons.mp member
    · obtain ⟨rfl, -, -⟩ := SpeechEntry.measured.inj new
      exact index
    · exact anchoring.partials r' started t old
  · intro newer r' started t older split
    cases newer with
    | nil =>
        obtain ⟨same, rfl⟩ := List.cons.inj split
        obtain ⟨rfl, rfl, rfl⟩ := SpeechEntry.measured.inj same
        exact first
    | cons e newer =>
        obtain ⟨rfl, rest⟩ := List.cons.inj split
        exact (anchoring.anchored newer r' started t older rest).congr fun _ _ _ _ =>
          sameUtterance_measured
  · intro t same r' latest'
    obtain rfl := Option.some.inj same
    refine first.congr fun r₁ started now' _ => ?_
    exact (Latest.same latest' (latest_measured.mpr latest)).trans_iff

end

end Anchoring

namespace Engine
variable {cfg : RuntimeConfig} {op : Op} {m : Move} {w w' : World}

/-- What a section of another task does to the anchor. -/
inductive AnchorStep (m : Move) (w w' : World) : Prop
  | kept (count : w.asrCount ≤ w'.asrCount) (speech : w'.speech = w.speech)
      (anchor : w'.session.currentUserSpeechStartedMs = w.session.currentUserSpeechStartedMs)
  | final (count : w'.asrCount = w.asrCount + 1)
      (speech : w'.speech = .final w.asrCount :: w.speech)
      (anchor : w'.session.currentUserSpeechStartedMs = none)
  | measured (r : AsrResult) (rest : List AsrResult) (move : m = .partialMonitor)
      (monitor : w.listen.partialMonitor = .running) (queued : w.listen.partials = r :: rest)
      (counts : w.partialCounts = true) (spoken : r.text.strip ≠ [])
      (count : w'.asrCount = w.asrCount)
      (speech : w'.speech = .measured r (w.session.currentUserSpeechStartedMs.getD w.clock) w.clock
        :: w.speech)
      (anchor : w'.session.currentUserSpeechStartedMs =
        some (w.session.currentUserSpeechStartedMs.getD w.clock))

section
variable (h : callMove cfg op w m = some w')
include h

theorem callMove_anchor : AnchorStep m w w' := by
  cases callMove_effect h with
  | asrFinal _ _ => exact .final rfl rfl rfl
  | asrPartial _ _ => exact .kept (Nat.le_succ _) rfl rfl
  | monitorMeasures running front counts said anchored _
  | monitorTriggers running front counts said anchored _ =>
      subst anchored
      exact .measured _ _ rfl running front counts said rfl rfl rfl
  | _ => exact .kept (Nat.le_refl _) rfl rfl

/-- The results on their way to the monitor have been counted. -/
theorem callMove_counted (counted : ∀ r ∈ partialsInTransit w.listen w.bus, r.index < w.asrCount) :
    ∀ r ∈ partialsInTransit w'.listen w'.bus, r.index < w'.asrCount := by
  cases callMove_effect h with
  | control _ _ | asrPumpEnd _ | evPumpHangup _ _ _ =>
      simpa only [partialsInTransit, lossy_post] using counted
  | deliverPartial lane => simpa [partialsInTransit, lane] using counted
  | asrFinal _ _ =>
      intro r member
      simp only [partialsInTransit, lossy_post] at member
      exact Nat.lt_succ_of_lt (counted r member)
  | asrPartial _ _ =>
      intro r member
      simp only [partialsInTransit, List.mem_append] at member counted
      obtain queued | posted := member
      · exact Nat.lt_succ_of_lt (counted r (.inl queued))
      · obtain old | rfl := mem_lossy_postPartial posted
        · exact Nat.lt_succ_of_lt (counted r (.inr old))
        · exact Nat.lt_succ_self _
  | monitorSkips _ front _ | monitorMeasures _ front _ _ _ _ | monitorTriggers _ front _ _ _ _ =>
      exact fun r member => counted r ((partialsInTransit_front front).2 r member)
  | _ => exact counted

theorem callMove_unwatched (absent : w.listen.partialMonitor = .absent) :
    w'.listen.partialMonitor = .absent := by
  cases callMove_effect h with
  | cancelAll =>
      change (if w.listen.monitorsAttached then w.listen.partialMonitor.cancel
        else w.listen.partialMonitor) = .absent
      rw [absent]
      exact ite_self _
  | monitorEnd cancelled => exact absurd (cancelled.symm.trans absent) (by simp)
  | _ => exact absent

end

end Engine

def SpeechEntry.before (index : Nat) : SpeechEntry → Bool
  | .final i => i < index
  | .measured .. => true

/-- The monitor evaluates a partial transcript only if no final was received after it. -/
def inTime (_ : Op) (a : Action sig Move) (w : World) : Bool :=
  match a, w.listen.partials with
  | .move .partialMonitor, r :: _ =>
      !w.partialCounts || decide (r.text.strip = []) || w.speech.all (·.before r.index)
  | _, _ => true

theorem latest_of_inTime {op : Op} {w : World} {r : AsrResult} {rest : List AsrResult}
    (allowed : inTime op (.move .partialMonitor) w = true) (queued : w.listen.partials = r :: rest)
    (counts : w.partialCounts = true) (spoken : r.text.strip ≠ []) : Latest w.speech r := by
  simp only [inTime, queued, counts, spoken, Bool.not_true, decide_false, Bool.false_or,
    List.all_eq_true] at allowed
  intro i member
  simpa [SpeechEntry.before] using allowed _ member

namespace World
variable {w w' : World} {op : Op} {cfg : RuntimeConfig}

/-- What was recognised so far, with the anchor, and what is on its way to the monitor. -/
structure Measures (w : World) : Prop where
  anchoring : Anchoring w.speech w.session.currentUserSpeechStartedMs w.asrCount
  counted : ∀ r ∈ partialsInTransit w.listen w.bus, r.index < w.asrCount

/-- Before the monitor starts, nothing is evaluated. -/
structure Unwatched (w : World) : Prop where
  measures : w.Measures
  absent : w.listen.partialMonitor = .absent
  none : ∀ r started now, .measured r started now ∉ w.speech

theorem Measures.moved {m : Move} (here : w.Measures) (allowed : inTime op (.move m) w = true)
    (h : Engine.callMove cfg op w m = some w') : w'.Measures := by
  refine ⟨?_, Engine.callMove_counted h here.counted⟩
  cases Engine.callMove_anchor h with
  | kept count speech anchor =>
      rw [speech, anchor]
      exact here.anchoring.mono count
  | final count speech anchor =>
      rw [speech, anchor, count]
      exact here.anchoring.final
  | measured r rest move monitor queued counts spoken count speech anchor =>
      subst move
      rw [speech, anchor, count]
      refine here.anchoring.measure (latest_of_inTime allowed queued counts spoken) ?_ w.clock
      exact here.counted r (by simp [partialsInTransit, queued])

theorem Unwatched.moved {m : Move} (here : w.Unwatched) (allowed : inTime op (.move m) w = true)
    (h : Engine.callMove cfg op w m = some w') : w'.Unwatched := by
  refine ⟨here.measures.moved allowed h, Engine.callMove_unwatched h here.absent, ?_⟩
  cases Engine.callMove_anchor h with
  | kept count speech anchor =>
      rw [speech]
      exact here.none
  | final count speech anchor =>
      rw [speech]
      simpa using here.none
  | measured r rest move monitor queued counts spoken count speech anchor =>
      rw [here.absent] at monitor
      cases monitor

/-- An assertion about recognised speech that the allowed sections of other tasks keep. -/
theorem stable_of_moved {J : World → Prop}
    (moved : ∀ {op m w w'}, J w → inTime op (.move m) w = true →
      Engine.callMove cfg op w m = some w' → J w')
    (same : ∀ {w w' : World}, J w → w'.session = w.session → w'.asrCount = w.asrCount →
      w'.listen = w.listen → w'.bus = w.bus → w'.speech = w.speech → J w') :
    ((engine cfg).restrict inTime).Stable J where
  move holds step := by
    obtain ⟨allowed, step⟩ := Machine.restrict_move_some step
    obtain called | rfl := Engine.move_cases step
    · exact moved holds allowed called
    · exact same holds rfl rfl rfl rfl rfl
  reply holds step := by
    have frame := Engine.reply_frame (Machine.restrict_reply_some step).2
    exact same holds frame.session frame.asrCount frame.listen frame.bus frame.speech

theorem Measures.same (here : w.Measures) (session : w'.session = w.session)
    (count : w'.asrCount = w.asrCount) (listen : w'.listen = w.listen) (bus : w'.bus = w.bus)
    (speech : w'.speech = w.speech) : w'.Measures := by
  obtain ⟨anchoring, counted⟩ := here
  exact ⟨by rwa [speech, session, count], by rwa [listen, bus, count]⟩

theorem Measures.aside {utters : PlaySite → Text → Prop} (aside : Aside utters w w')
    (here : w.Measures) : w'.Measures := by
  obtain ⟨anchoring, counted⟩ := here
  refine ⟨?_, ?_⟩
  · rwa [aside.speech, aside.anchor, aside.asrCount]
  · rwa [aside.partials, aside.asrCount]

theorem measures_upkeep (cfg : RuntimeConfig) :
    Upkeep ((engine cfg).restrict inTime) (fun _ _ => True) (fun _ => Measures) Measures where
  stable := stable_of_moved Measures.moved Measures.same
  assertion _ _ here := here
  aside := Measures.aside

theorem unwatched_upkeep (cfg : RuntimeConfig) :
    Upkeep ((engine cfg).restrict inTime) (fun _ _ => True) (fun _ => Measures) Unwatched where
  stable := by
    refine stable_of_moved Unwatched.moved fun here session count listen bus speech => ?_
    refine ⟨here.measures.same session count listen bus speech, ?_, ?_⟩
    · rw [listen]
      exact here.absent
    · rw [speech]
      exact here.none
  assertion _ _ here := here.measures
  aside aside here :=
    ⟨here.measures.aside aside, aside.unwatched here.absent, aside.speech ▸ here.none⟩

def measuringStages : Stages where
  before := Unwatched
  live := Measures
  window := Measures
  revoicing := Measures
  activating := Measures
  heard _ := Measures
  always := Measures

theorem measures_call (cfg : RuntimeConfig) :
    CallUpkeep cfg ((engine cfg).restrict inTime) (fun _ _ => True) measuringStages where
  speaks := Speaks.any cfg inTime
  before := unwatched_upkeep cfg
  live := measures_upkeep cfg
  window := measures_upkeep cfg
  revoicing := measures_upkeep cfg
  activating := measures_upkeep cfg
  always := measures_upkeep cfg
  below n := (Engine.below_stable n).restrict inTime
  monitored here := by
    refine ⟨.start here.measures.anchoring.finals here.none, fun r member => ?_⟩
    exact here.measures.counted r (List.mem_append_right _ member)
  opened here := ⟨here.anchoring, here.counted⟩
  closed _ here := ⟨here.anchoring, here.counted⟩
  remoteHangup := id
  noProgress := id
  userFinal := id
  silenceHangup := id
  activation {phrase w} here :=
    have aside : Aside (fun _ _ => True) w (w.transition .inCall "silence_threshold") :=
      .transition _ _
    ⟨(here.aside aside).anchoring, (here.aside aside).counted⟩
  activated here := ⟨here.anchoring, here.counted⟩
  revoice here _ _ _ := ⟨here.anchoring, here.counted⟩
  revoiced here := ⟨here.anchoring, here.counted⟩
  capped here := ⟨here.anchoring, here.counted⟩
  replied here := ⟨here.anchoring, here.counted⟩
  wrapUp here := ⟨here.anchoring, here.counted⟩

end World

namespace Guarantees

/-- If the monitor evaluates no partial transcript after a final that came later, then in every
state of a call each evaluation was measured from the time at which a partial transcript of the
same utterance was first evaluated. -/
theorem measured_from_utterance (cfg : RuntimeConfig) (fuel : Nat) (w : World)
    (acts : List (Action sig Move)) (c : Susp sig World Unit) (fresh : w.Fresh)
    (silent : w.speech = [])
    (run : ((engine cfg).restrict inTime).exec (runSession cfg fuel w) acts = some c) :
    Anchored c.state.speech := by
  have start : w.Unwatched := by
    refine ⟨⟨?_, ?_⟩, ?_, ?_⟩
    · rw [silent, fresh.session]
      exact .start nofun nofun
    · rw [fresh.listen, fresh.bus]
      nofun
    · rw [fresh.listen]
    · rw [silent]
      nofun
  exact ((World.measures_call cfg).reached start run).anchoring.anchored

/-- The monitor takes the next partial transcript. -/
def monitoredRun : List (Action sig Move) := [.move .dispatchLossy, .move .partialMonitor]

/-- A turn is at its gate. -/
def atGateRun : List (Action sig Move) :=
  RunSession.listeningRun .other ++ RunSession.spokenRun "好的".toList ++ RunSession.gateRun

theorem second_partial_measured :
    ∃ c, ((engine RuntimeConfig.refereed).restrict inTime).exec
        (runSession RuntimeConfig.refereed 4 (World.initial 1 .other))
        (atGateRun ++ [.move (.asrResult "等".toList false)] ++ monitoredRun ++
          [.move (.tick 300), .move (.asrResult "嗯".toList false)] ++ monitoredRun) = some c ∧
      c.state.speech = [.measured ⟨"嗯".toList, 2⟩ 0 300, .measured ⟨"等".toList, 1⟩ 0 0, .final 0] ∧
      Anchored c.state.speech := by
  refine exists_of_map (fun c => c.state.speech)
    [.measured ⟨"嗯".toList, 2⟩ 0 300, .measured ⟨"等".toList, 1⟩ 0 0, .final 0] (by decide +kernel)
      fun c run speech => ?_
  exact ⟨speech, measured_from_utterance RuntimeConfig.refereed 4 _ _ c
    (World.initial_fresh 1 .other) rfl run⟩

/-- The partial transcript of an utterance is evaluated after its final. The next utterance is then
measured from it. -/
theorem late_partial_sets_anchor :
    ((engine RuntimeConfig.refereed).exec
      (runSession RuntimeConfig.refereed 4 (World.initial 1 .other))
      (atGateRun ++ [.move (.asrResult "等".toList false), .move (.asrResult "等".toList true)] ++
        monitoredRun ++ [.move (.tick 3000), .move (.asrResult "嗯".toList false)] ++
        monitoredRun)).map (fun c => c.state.speech) =
      some [.measured ⟨"嗯".toList, 3⟩ 0 3000, .measured ⟨"等".toList, 1⟩ 0 0, .final 2, .final 0] ∧
    ¬ Anchored [.measured ⟨"嗯".toList, 3⟩ 0 3000, .measured ⟨"等".toList, 1⟩ 0 0, .final 2,
      .final 0] := by
  refine ⟨by decide +kernel, fun anchored => ?_⟩
  obtain ⟨newer, r, started, older, split, same, -⟩ := anchored [] _ _ _ _ rfl
  have member : .measured r started 0 ∈ newer ++ .measured r started 0 :: older := by simp
  rw [← split] at member
  obtain ⟨rfl, rfl⟩ : r = ⟨"等".toList, 1⟩ ∧ started = 0 := by simpa using member
  exact absurd ((same 2 (by simp)).mp (by decide)) (by decide)

end Guarantees
end IsalesEngine
