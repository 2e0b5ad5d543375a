import Mathlib.Data.List.Chain
import IsalesEngine.Engine.UpkeptCall
import IsalesEngine.Guarantees.RoundTrigger

/-!
The silence ladder of a call. A silent window outside the wrap-up phase makes
`main` play the next activation phrase until the maximum is reached, and then
ends the call. The journal has the windows and the transcript the activations;
the counter of the session ties one to the other, and is behind only while a
phrase is played.
-/
namespace IsalesEngine
open Asyncio Asyncio.Coro

/-- The phrase of the `k`-th activation. -/
def SilenceConfig.phraseAt (cfg : SilenceConfig) (k : Nat) : Text :=
  cfg.phrases.getD (min k (cfg.phrases.length - 1)) []

section Decision
variable {elapsedMs n : Nat} {cfg : SilenceConfig} {inWrapUp : Bool}

theorem evaluateSilence_activate {phrase : Text}
    (h : evaluateSilence elapsedMs n cfg inWrapUp = .activate phrase) :
    inWrapUp = false ∧ n < cfg.maxActivations.toNat ∧ phrase = cfg.phraseAt n := by
  unfold evaluateSilence at h
  split at h
  · split at h <;> cases h
  · rename_i outside
    have room : ∀ {x}, ¬ cfg.maxActivations ≤ (n : Int) → x → n < cfg.maxActivations.toNat ∧ x :=
      fun more holds => ⟨by omega, holds⟩
    refine ⟨by simpa using outside, ?_⟩
    split at h
    · cases h
    · split at h
      · cases h
      · rename_i more
        refine room more ?_
        split at h
        · rename_i none
          cases h
          simp [SilenceConfig.phraseAt, none]
        · cases h
          rfl

/-- Outside the wrap-up phase the call is ended at the top of the ladder only. -/
theorem evaluateSilence_hangup {phrase : Option Text}
    (h : evaluateSilence elapsedMs n cfg false = .hangup phrase) :
    cfg.maxActivations.toNat ≤ n := by
  unfold evaluateSilence at h
  grind

theorem evaluateSilence_wait (h : evaluateSilence elapsedMs n cfg false = .wait) :
    elapsedMs < cfg.thresholdMs := by
  unfold evaluateSilence at h
  grind

end Decision

def TranscriptEvent.activation? : TranscriptEvent → Option (Text × Nat)
  | .silenceActivation phrase index => some (phrase, index)
  | _ => none

namespace Entry

/-- The phrase of a window that closes with an activation. -/
def activation? : Entry → Option Text
  | .closed _ _ _ (.silenceActivation phrase) => some phrase
  | _ => none

def isClosed : Entry → Bool
  | .closed .. => true
  | _ => false

def hangsUp : Entry → Bool
  | .closed _ _ _ (.silenceHangup _) => true
  | _ => false

/-- A silence hangup outside the wrap-up phase. -/
def exhausts : Entry → Bool
  | .closed _ false _ (.silenceHangup _) => true
  | _ => false

/-- A window closes before anything else is entered, and nothing comes after a silence hangup. -/
def Follows (newer older : Entry) : Prop :=
  (older = .opened ↔ newer.isClosed = true) ∧ older.hangsUp = false

/-- A silent window outside the wrap-up phase that was long enough activated or hung up; one in that
phase did not activate. -/
def Settled (cfg : SilenceConfig) : Entry → Prop
  | .closed elapsedMs false [] o => cfg.thresholdMs ≤ elapsedMs → o ≠ .remoteHangup →
      (∃ phrase, o = .silenceActivation phrase) ∨ ∃ phrase, o = .silenceHangup phrase
  | .closed _ true _ (.silenceActivation _) => False
  | _ => True

end Entry

/-- The transcript has the first `n` activations, and none in the wrap-up phase. -/
structure Announced (cfg : SilenceConfig) (n : Nat) (inWrapUp : Bool)
    (ladder : List TranscriptEvent) : Prop where
  events : ladder.filterMap TranscriptEvent.activation? =
    (List.range n).map fun k => (cfg.phraseAt k, k)
  spared : ladder.Pairwise fun e e' => ¬(e.startsWrapUp = true ∧ e'.activation?.isSome = true)
  started : ∀ e ∈ ladder, e.startsWrapUp = true → inWrapUp = true

namespace Announced
variable {cfg : SilenceConfig} {n : Nat} {inWrapUp : Bool} {ladder : List TranscriptEvent}

theorem nil : Announced cfg 0 inWrapUp [] := ⟨rfl, .nil, nofun⟩

theorem activation (announced : Announced cfg n false ladder) :
    Announced cfg (n + 1) false (ladder ++ [.silenceActivation (cfg.phraseAt n) n]) where
  events := by
    rw [List.filterMap_append, announced.events]
    simp [TranscriptEvent.activation?, List.range_succ]
  spared := by
    refine List.pairwise_append.mpr ⟨announced.spared, List.pairwise_singleton _ _, ?_⟩
    intro e member _ _ ⟨starts, _⟩
    exact Bool.noConfusion (announced.started e member starts)
  started e member starts := by
    obtain old | new := List.mem_append.mp member
    · exact announced.started e old starts
    · rw [List.mem_singleton.mp new] at starts
      cases starts

theorem wrapUp (announced : Announced cfg n inWrapUp ladder) (maxRounds maxSeconds : Nat) :
    Announced cfg n true (ladder ++ [.wrapUpStarted maxRounds maxSeconds]) where
  events := by
    rw [List.filterMap_append, announced.events]
    exact List.append_nil _
  spared := by
    refine List.pairwise_append.mpr ⟨announced.spared, List.pairwise_singleton _ _, ?_⟩
    intro e _ e' member ⟨_, activates⟩
    rw [List.mem_singleton.mp member] at activates
    cases activates
  started _ _ _ := rfl

end Announced

/-- The windows of the call, of which `n` closed with an activation. -/
structure Asked (cfg : SilenceConfig) (n : Nat) (journal : List Entry) : Prop where
  phrases : (journal.filterMap Entry.activation?).reverse = (List.range n).map cfg.phraseAt
  atMost : n ≤ cfg.maxActivations.toNat
  orderly : journal.IsChain Entry.Follows
  settled : ∀ e ∈ journal, e.Settled cfg
  exhausted : ∀ e ∈ journal.head?, e.exhausts = true → n = cfg.maxActivations.toNat

/-- No window is open and no silence hangup was decided. -/
def Between (journal : List Entry) : Prop := ∀ e ∈ journal.head?, e ≠ .opened ∧ e.hangsUp = false

theorem Between.cons {e : Entry} {journal : List Entry} (closed : e ≠ .opened)
    (stays : e.hangsUp = false) : Between (e :: journal) := by
  intro e' member
  obtain rfl := Option.some.inj member
  exact ⟨closed, stays⟩

/-- A window is open. -/
def Listening (journal : List Entry) : Prop := ∃ older, journal = .opened :: older

namespace Asked
variable {cfg : SilenceConfig} {n : Nat} {journal : List Entry} {e : Entry}

theorem nil : Asked cfg 0 [] := ⟨rfl, Nat.zero_le _, .nil, nofun, nofun⟩

theorem follows_listening (listening : Listening journal) (closes : e.isClosed = true) :
    ∀ older ∈ journal.head?, e.Follows older := by
  obtain ⟨older, rfl⟩ := listening
  intro e' member
  obtain rfl : Entry.opened = e' := by simpa using member
  exact ⟨by simp [closes], rfl⟩

variable (asked : Asked cfg n journal)
include asked

/-- An entry is made that is not an activation. -/
theorem enter (follows : ∀ older ∈ journal.head?, e.Follows older) (settled : e.Settled cfg)
    (exhausted : e.exhausts = true → cfg.maxActivations.toNat ≤ n) (other : e.activation? = none) :
    Asked cfg n (e :: journal) where
  phrases := by rw [List.filterMap_cons_none other, asked.phrases]
  atMost := asked.atMost
  orderly := asked.orderly.cons follows
  settled := List.forall_mem_cons.mpr ⟨settled, asked.settled⟩
  exhausted e' member exhausts := by
    obtain rfl : e = e' := by simpa using member
    exact Nat.le_antisymm asked.atMost (exhausted exhausts)

theorem plain (between : Between journal) (other : e.isClosed = false) :
    Asked cfg n (e :: journal) := by
  have quiet : e.Settled cfg ∧ e.exhausts = false ∧ e.activation? = none := by
    cases e <;> first | exact ⟨trivial, rfl, rfl⟩ | cases other
  refine asked.enter (fun older member => ?_) quiet.1 (fun exhausts => ?_) quiet.2.2
  · obtain ⟨closed, stays⟩ := between older member
    exact ⟨by simp [closed, other], stays⟩
  · rw [quiet.2.1] at exhausts
    cases exhausts

/-- What comes right after an entry, if anything does. -/
theorem next {newer older : List Entry} (split : journal = newer ++ e :: older) :
    newer = [] ∨ ∃ newest e', newer = newest ++ [e'] ∧ e'.Follows e := by
  obtain rfl | ⟨newest, e', rfl⟩ := List.eq_nil_or_concat' newer
  · exact .inl rfl
  · have orderly := asked.orderly
    rw [split, List.append_assoc, List.singleton_append] at orderly
    have adjacent := (List.isChain_split.mp orderly).2
    exact .inr ⟨newest, e', rfl, (List.isChain_cons_cons.mp adjacent).1⟩

theorem last {newer older : List Entry} (split : journal = newer ++ e :: older)
    (hangsUp : e.hangsUp = true) : newer = [] := by
  obtain rfl | ⟨-, -, -, -, stays⟩ := asked.next split
  · rfl
  · rw [stays] at hangsUp
    cases hangsUp

section
variable (listening : Listening journal)
include listening

/-- A window closes with the next activation. -/
theorem activation (more : n < cfg.maxActivations.toNat) (elapsedMs : Nat) : Asked cfg (n + 1)
      (.closed elapsedMs false [] (.silenceActivation (cfg.phraseAt n)) :: journal) where
  phrases := by
    rw [List.filterMap_cons_some (f := Entry.activation?) rfl, List.reverse_cons, asked.phrases]
    simp [List.range_succ]
  atMost := more
  orderly := asked.orderly.cons (follows_listening listening rfl)
  settled := List.forall_mem_cons.mpr ⟨fun _ _ => .inl ⟨_, rfl⟩, asked.settled⟩
  exhausted e member exhausts := by
    obtain rfl := Option.some.inj member
    cases exhausts

/-- Of a window that closes otherwise, with finals or by a hangup of the callee. -/
theorem closed {elapsedMs : Nat} {inWrapUp : Bool} {finals : List AsrResult} {o : Outcome}
    (ended : finals ≠ [] ∨ o = .remoteHangup)
    (other : o = .remoteHangup ∨ o = .noProgress ∨ ∃ text, o = .userFinal text) :
    Asked cfg n (.closed elapsedMs inWrapUp finals o :: journal) := by
  refine asked.enter (follows_listening listening rfl) ?_ ?_ ?_
  · match inWrapUp, finals with
    | true, _ => obtain rfl | rfl | ⟨text, rfl⟩ := other <;> trivial
    | false, _ :: _ => trivial
    | false, [] => exact fun _ stays => absurd (ended.resolve_left (absurd rfl)) stays
  · intro exhausts
    obtain rfl | rfl | ⟨text, rfl⟩ := other <;> cases inWrapUp <;> cases exhausts
  · obtain rfl | rfl | ⟨text, rfl⟩ := other <;> rfl

/-- Of a silent window that does not activate. -/
theorem silent {elapsedMs : Nat} {inWrapUp : Bool} {decision : SilenceDecision}
    (decided : evaluateSilence elapsedMs n cfg inWrapUp = decision)
    (other : ∀ phrase, decision ≠ .activate phrase) :
    Asked cfg n (.closed elapsedMs inWrapUp [] decision.outcome :: journal) := by
  cases decision with
  | activate phrase => exact absurd rfl (other phrase)
  | wait =>
      refine asked.enter (follows_listening listening rfl) ?_ (fun exhausts => ?_) rfl
      · cases inWrapUp with
        | true => trivial
        | false =>
            intro long
            exact absurd (evaluateSilence_wait decided) (Nat.not_lt.mpr long)
      · cases inWrapUp <;> cases exhausts
  | hangup phrase =>
      refine asked.enter (follows_listening listening rfl) ?_ (fun exhausts => ?_) rfl
      · cases inWrapUp with
        | true => trivial
        | false => exact fun _ _ => .inr ⟨phrase, rfl⟩
      · cases inWrapUp with
        | true => cases exhausts
        | false => exact evaluateSilence_hangup decided

end

end Asked

namespace Counters
variable {cfg : SilenceConfig} {n : Nat} {t t' : Counters}

/-- Transcript and journal have the same activations, `ahead` more than were counted. -/
structure Rung (cfg : SilenceConfig) (ahead : Nat) (t : Counters) : Prop where
  announced : Announced cfg (t.activations + ahead) t.inWrapUp t.ladder
  asked : Asked cfg (t.activations + ahead) t.journal

/-- A window has closed with an activation that is not announced yet. -/
structure Due (cfg : SilenceConfig) (phrase : Text) (t : Counters) : Prop where
  announced : Announced cfg t.activations false t.ladder
  asked : Asked cfg (t.activations + 1) t.journal
  between : Between t.journal
  outside : t.inWrapUp = false
  phrase : phrase = cfg.phraseAt t.activations

/-- The ladder at any time. -/
def Climbed (cfg : SilenceConfig) (t : Counters) : Prop := ∃ ahead, t.Rung cfg ahead

def Resting (cfg : SilenceConfig) (ahead : Nat) (t : Counters) : Prop :=
  t.Rung cfg ahead ∧ Between t.journal

def Waiting (cfg : SilenceConfig) (t : Counters) : Prop := t.Rung cfg 0 ∧ Listening t.journal

def AfterWindow (cfg : SilenceConfig) : Outcome → Counters → Prop
  | .silenceActivation phrase => Due cfg phrase
  | .silenceHangup _ => Rung cfg 0
  | _ => Resting cfg 0

def ladderStages (cfg : SilenceConfig) : Stages where
  before w := w.counters.Resting cfg 0
  live w := w.counters.Resting cfg 0
  window w := w.counters.Waiting cfg
  revoicing w := w.counters.Resting cfg 0
  activating w := w.counters.Resting cfg 1
  heard o w := w.counters.AfterWindow cfg o
  always w := w.counters.Climbed cfg

namespace Resting
variable {ahead : Nat}

theorem climbed (resting : t.Resting cfg ahead) : t.Climbed cfg := ⟨ahead, resting.1⟩

/-- An entry between two windows. -/
theorem enter (resting : t.Resting cfg ahead) {e : Entry} (other : e.isClosed = false)
    (closed : e ≠ .opened) (restructures : Nat) :
    Resting cfg ahead { t with journal := e :: t.journal, restructures := restructures } := by
  refine ⟨⟨resting.1.announced, resting.1.asked.plain resting.2 other⟩, .cons closed ?_⟩
  cases e <;> first | rfl | cases other

end Resting

/-- What a window does to the ladder as it closes. -/
theorem Waiting.closed {config : RuntimeConfig} {w : World} {finals : List AsrResult} {o : Outcome}
    (waiting : w.counters.Waiting config.silence) (closes : Closes config w finals o) :
    (AwaitUser.closed finals o w).counters.AfterWindow config.silence o := by
  obtain ⟨⟨announced, asked⟩, listening⟩ := waiting
  cases closes with
  | hungUp =>
      exact ⟨⟨announced, asked.closed listening (.inr rfl) (.inl rfl)⟩, .cons nofun rfl⟩
  | heard first backlog =>
      have ended : ∀ {o}, o = .remoteHangup ∨ o = .noProgress ∨ (∃ text, o = .userFinal text) →
          Asked config.silence (w.counters.activations + 0) (.closed (AwaitUser.elapsedMs w)
            w.session.inWrapUp (first :: backlog) o :: w.counters.journal) :=
        asked.closed listening (.inl nofun)
      unfold AwaitUser.combine
      dsimp only
      split
      · exact ⟨⟨announced, ended (.inr (.inl rfl))⟩, .cons nofun rfl⟩
      · exact ⟨⟨announced, ended (.inr (.inr ⟨_, rfl⟩))⟩, .cons nofun rfl⟩
  | silent =>
      cases decided : evaluateSilence (AwaitUser.elapsedMs w) w.session.silenceActivationCount
          config.silence w.session.inWrapUp with
      | wait => exact ⟨⟨announced, asked.silent listening decided nofun⟩, .cons nofun rfl⟩
      | hangup phrase => exact ⟨announced, asked.silent listening decided nofun⟩
      | activate phrase =>
          obtain ⟨outside, more, rfl⟩ := evaluateSilence_activate decided
          have next := asked.activation listening more (AwaitUser.elapsedMs w)
          rw [← outside] at next
          exact ⟨outside ▸ announced, next, .cons nofun rfl, outside, rfl⟩

theorem Due.announce {w : World} {phrase : Text} (due : w.counters.Due cfg phrase) :
    (w.append (.silenceActivation phrase w.session.silenceActivationCount)).counters.Resting
      cfg 1 := by
  rw [World.counters_append w rfl, due.phrase]
  refine ⟨⟨?_, due.asked⟩, due.between⟩
  rw [due.outside]
  exact due.announced.activation

theorem climbs (cfg : RuntimeConfig) :
    CallUpkeep cfg (engine cfg) (fun _ _ => True) (ladderStages cfg.silence) where
  speaks := Speaks.any cfg fun _ _ _ => true
  before := .counters (P := Resting _ 0) fun _ => Resting.climbed
  live := .counters (P := Resting _ 0) fun _ => Resting.climbed
  window := .counters (P := Waiting _) (A := Climbed _) fun _ here => ⟨0, here.1⟩
  revoicing := .counters (P := Resting _ 0) fun _ => Resting.climbed
  activating := .counters (P := Resting _ 1) fun _ => Resting.climbed
  always := .counters (P := Climbed _) fun _ h => h
  below := Engine.below_stable
  monitored resting := resting
  opened resting := ⟨⟨resting.1.announced, resting.1.asked.plain resting.2 rfl⟩, _, rfl⟩
  closed closes waiting := waiting.closed closes
  remoteHangup resting := resting
  noProgress resting := resting
  userFinal resting := resting
  silenceHangup rung := ⟨0, rung⟩
  activation {phrase w} due := by
    have aside : Aside (fun _ _ => True) w (w.transition .inCall "silence_threshold") :=
      .transition _ _
    have due : (w.transition .inCall "silence_threshold").counters.Due cfg.silence phrase := by
      rw [aside.counters]
      exact due
    have counted := due.announce
    rwa [aside.activations] at counted
  activated resting := ⟨⟨resting.1.announced, resting.1.asked⟩, resting.2⟩
  revoice {w st} resting _ revoices _ := by
    change (w.addStream st).counters.Resting _ 0
    rw [World.counters_revoice w revoices]
    exact resting.enter (e := .revoicing) rfl nofun _
  revoiced resting := ⟨⟨resting.1.announced, resting.1.asked⟩, resting.2⟩
  capped resting := resting.enter (e := .capped) rfl nofun 0
  replied resting := resting.enter (e := .repliedInFull) rfl nofun 0
  wrapUp {w maxRounds maxSeconds} resting := by
    refine ⟨⟨?_, resting.1.asked⟩, resting.2⟩
    rw [World.counters_append _ rfl]
    exact resting.1.announced.wrapUp maxRounds maxSeconds

end Counters

namespace Guarantees

theorem activations_of_ladder (events : List TranscriptEvent) :
    (events.filter (·.ofLadder)).filterMap TranscriptEvent.activation? =
      events.filterMap TranscriptEvent.activation? := by
  rw [List.filterMap_filter]
  refine List.filterMap_congr fun e _ => ?_
  cases e <;> rfl

theorem spared_of_ladder {events : List TranscriptEvent}
    (spared : (events.filter (·.ofLadder)).Pairwise fun e e' =>
      ¬(e.startsWrapUp = true ∧ e'.activation?.isSome = true)) :
    events.Pairwise fun e e' => ¬(e.startsWrapUp = true ∧ e'.activation?.isSome = true) := by
  refine (List.pairwise_filter.mp spared).imp fun {e e'} apart both => apart ?_ ?_ both
  · cases e <;> first | rfl | cases both.1
  · cases e' <;> first | rfl | cases both.2

/-- In every state of a call: the activations of the transcript are the first phrases of the ladder,
numbered from zero, at most as many as the maximum and none in the wrap-up phase; they are those the
windows closed with; a silence hangup outside the wrap-up phase is the end, after the maximum of
activations; a silent window outside the phase that reached the threshold closed with an activation
or with that hangup; and every window closes before anything else of the call is entered. -/
theorem silence_ladder (cfg : RuntimeConfig) (fuel : Nat) (w : World)
    (acts : List (Action sig Move)) (c : Susp sig World Unit) (fresh : w.Fresh)
    (empty : w.journal = [])
    (run : (engine cfg).exec (runSession cfg fuel w) acts = some c) :
    let events := c.state.session.events
    let activations := events.filterMap TranscriptEvent.activation?
    let journal := c.state.journal
    let top := (max 0 cfg.silence.maxActivations).toNat
    activations = (List.range activations.length).map (fun k => (cfg.silence.phraseAt k, k)) ∧
    activations.length ≤ top ∧
    events.Pairwise (fun e e' => ¬(e.startsWrapUp = true ∧ e'.activation?.isSome = true)) ∧
    (∀ elapsedMs finals phrase,
      .closed elapsedMs true finals (.silenceActivation phrase) ∉ journal) ∧
    (journal.filterMap Entry.activation?).reverse = activations.map Prod.fst ∧
    (∀ newer older elapsedMs finals phrase,
      journal = newer ++ .closed elapsedMs false finals (.silenceHangup phrase) :: older →
      newer = [] ∧ activations.length = top) ∧
    (∀ newer older elapsedMs o, journal = newer ++ .closed elapsedMs false [] o :: older →
      cfg.silence.thresholdMs ≤ elapsedMs → o ≠ .remoteHangup →
      (∃ phrase, o = .silenceActivation phrase) ∨
        newer = [] ∧ ∃ phrase, o = .silenceHangup phrase) ∧
    (∀ newer older, journal = newer ++ .opened :: older → newer = [] ∨
      ∃ newest elapsedMs inWrapUp finals o,
        newer = newest ++ [.closed elapsedMs inWrapUp finals o]) := by
  intro events activations journal top
  have start : w.counters.Resting cfg.silence 0 := by
    rw [fresh.counters empty]
    exact ⟨⟨.nil, .nil⟩, nofun⟩
  obtain ⟨ahead, announced, asked⟩ := (Counters.climbs cfg).reached start run
  have climbed : activations = (List.range _).map fun k => (cfg.silence.phraseAt k, k) :=
    (activations_of_ladder events).symm.trans announced.events
  have count : activations.length = c.state.counters.activations + ahead := by
    simp [climbed]
  have maximum : top = cfg.silence.maxActivations.toNat := by
    omega
  refine ⟨?_, ?_, spared_of_ladder announced.spared, ?_, ?_, ?_, ?_, ?_⟩
  · rw [count]
    exact climbed
  · rw [count, maximum]
    exact asked.atMost
  · intro elapsedMs finals phrase member
    exact asked.settled _ member
  · rw [climbed, List.map_map]
    exact asked.phrases
  · intro newer older elapsedMs finals phrase split
    obtain rfl := asked.last split rfl
    refine ⟨rfl, ?_⟩
    rw [count, maximum]
    refine asked.exhausted (.closed elapsedMs false finals (.silenceHangup phrase)) ?_ rfl
    rw [show c.state.counters.journal = _ from split]
    rfl
  · intro newer older elapsedMs o split long stays
    have member : .closed elapsedMs false [] o ∈ c.state.counters.journal := by
      rw [show c.state.counters.journal = _ from split]
      simp
    obtain activation | ⟨phrase, rfl⟩ := asked.settled _ member long stays
    · exact .inl activation
    · exact .inr ⟨asked.last split rfl, phrase, rfl⟩
  · intro newer older split
    obtain rfl | ⟨newest, e', rfl, closes, -⟩ := asked.next split
    · exact .inl rfl
    · have closed := closes.mp rfl
      cases e' with
      | closed elapsedMs inWrapUp finals o => exact .inr ⟨newest, _, _, _, _, rfl⟩
      | _ => cases closed

/-- A listening window passes in silence. -/
def silentRun : List (Action sig Move) :=
  [.move (.tick 5000), .reply (.listen 5000) (.ok ()), .reply .reapAsrGet (.error .cancelled),
    .reply .reapHangupWait (.error .cancelled)]

theorem silent_call_climbs :
    ∃ c, (engine RuntimeConfig.minimal).exec
        (runSession RuntimeConfig.minimal 4 (World.initial 1 .other))
        (RunSession.listeningRun .other ++ silentRun ++
          [.move (.playEnd true), .reply .playback (.ok ())] ++ silentRun) = some c ∧
      c.state.journal.map Entry.hangsUp = [true, false, false, false] ∧
      (c.state.session.events.filterMap TranscriptEvent.activation?).length = 1 ∧
      c.state.session.events.filterMap TranscriptEvent.activation? = [("在吗".toList, 0)] := by
  refine exists_of_map (fun c =>
    (c.state.journal.map Entry.hangsUp,
     (c.state.session.events.filterMap TranscriptEvent.activation?).length))
       ([true, false, false, false], 1) (by decide +kernel) fun c run same => ?_
  obtain ⟨journal, one⟩ := Prod.mk.inj same
  have ladder := silence_ladder RuntimeConfig.minimal 4 _ _ c (World.initial_fresh 1 .other) rfl run
  refine ⟨journal, one, ?_⟩
  rw [ladder.1, one]
  rfl

end Guarantees
end IsalesEngine
