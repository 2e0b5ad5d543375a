import IsalesEngine.Guarantees.TurnRecords

/-!
The counter of continuous interruptions against the history. It is reset by a
reply of the gate that is played in full and by the listen-only cue, but not by
a re-voiced reply nor by a reply of the wrap-up phase. It counts the
interruptions since the last reply in full where those two end with nothing
counted.
-/
namespace IsalesEngine
open Asyncio Asyncio.Coro

/-- The steps with which the consumer of a reply ends without a cut. -/
def endsReply : Action sig Move → Bool
  | .reply .jobGet (.ok none) => true
  | .reply .playback (.error (.error _)) => true
  | _ => false

/-- The reply in progress has not been cut, and the engine does not reset the counter after it. -/
def World.keepsCount (w : World) : Bool :=
  w.speaking.any fun (i, uncut) => uncut && ((w.stream i).isRestructure || w.session.inWrapUp)

/-- No re-voiced reply and no reply of the wrap-up phase is played in full while an interruption is
counted. -/
def nothingCounted (_ : Op) (act : Action sig Move) (w : World) : Bool :=
  !(endsReply act && w.keepsCount && decide (0 < w.session.consecutiveInterruptionCount))

namespace Tally
variable {t : Tally}

theorem standing_cut (cut : t.cut = true) : t.standing = t.older + 1 := by
  rw [standing, if_pos cut]

theorem standing_replied (cut : t.cut = false) (replied : t.replied = true) : t.standing = 0 := by
  simp [standing, cut, replied]

theorem standing_silent (cut : t.cut = false) (replied : t.replied = false) :
    t.standing = t.older := by
  simp [standing, cut, replied]

theorem standing_fresh (cut : t.cut = false) (none : t.older = 0) : t.standing = 0 := by
  simp [standing, cut, none]

end Tally

namespace Ledger
variable (L : Ledger)

/-- The engine counts what the history says. -/
def Counted : Prop := L.interruptions = L.tally.standing

/-- A turn is in progress, and the counter stands where it stood when the turn began. -/
def InTurn : Prop := L.interruptions = L.tally.older ∧ L.tally.callersTurn = false

variable {L}

theorem InTurn.late (inTurn : L.InTurn) (callers : L.tally.callersTurn = true) : L.Counted := by
  rw [inTurn.2] at callers
  cases callers

theorem InTurn.interrupted (inTurn : L.InTurn) (cut : L.tally.cut = true) :
    L.interruptions + 1 = L.tally.standing := by
  rw [Tally.standing_cut cut, inTurn.1]

end Ledger

/-- What the counter has to do with the history in each phase. -/
def Phase.Counts (L : Ledger) : Phase → Prop
  | .idle | .heard | .closing => L.Counted
  | .cueing => L.tally = {}
  | .begun _ | .drawn _ | .recorded | .restructuring =>
      L.InTurn ∧ L.tally.cut = false ∧ L.tally.replied = false
  | .replying _ => L.InTurn ∧ L.tally.cut = false ∧ L.tally.replied = true
  | .revoicing => L.InTurn ∧ L.tally.cut = false
  | .replyCut _ | .revoiceCut => L.InTurn ∧ L.tally.cut = true
  | .ended | .broken => L.tally.callersTurn = true → L.Counted

theorem Phase.Counts.late {p : Phase} {L : Ledger} (counts : p.Counts L)
    (callers : L.tally.callersTurn = true) : L.Counted := by
  cases p with
  | idle | heard | closing => exact counts
  | cueing =>
      have empty : L.tally = {} := counts
      rw [empty] at callers
      cases callers
  | begun | drawn | recorded | restructuring | replying | revoicing | replyCut | revoiceCut =>
      exact counts.1.late callers
  | ended | broken => exact counts callers

theorem LedgerStep.counts {rules : LedgerRules} {p p' : Phase} {L L' : Ledger}
    (whole : ∀ L, rules.whole L → L.interruptions = 0) (step : LedgerStep rules p L p' L')
    (counts : p.Counts L) : p'.Counts L' := by
  cases step with
  | greeting | activation | listening | heard | judged | wrapUpGoesOn | ending | brokenOff =>
      exact counts
  | transfer | wrapUpEnds | ends => exact fun _ => counts
  | handoff | hangup => exact counts.1.late
  | breaks => exact counts.late
  | cue => rfl
  | cued =>
      have empty : L.tally = {} := counts
      show 0 = L.tally.standing
      rw [empty]
      rfl
  | turn => exact ⟨⟨counts, rfl⟩, rfl, rfl⟩
  | draw | record | restructure => exact counts
  | redraw => exact ⟨counts.1, counts.2.1⟩
  | abort => exact congrArg (· + 1) counts.1.1
  | unanswered =>
      obtain ⟨inTurn, cut, silent⟩ := counts
      exact inTurn.1.trans (Tally.standing_silent cut silent).symm
  | release | wrapUpReply | sentence => exact ⟨counts.1, counts.2.1, rfl⟩
  | resentence => exact counts
  | cut | recut => exact ⟨counts.1, rfl⟩
  | interrupted | reinterrupted => exact counts.1.interrupted counts.2
  | replied | wrapsUp => exact (Tally.standing_replied counts.2.1 counts.2.2).symm
  | closed _ _ _ _ allowed =>
      exact (whole L allowed).trans (Tally.standing_replied counts.2.1 counts.2.2).symm
  | revoiced _ _ _ allowed =>
      have none : L.tally.older = 0 := counts.1.1.symm.trans (whole L allowed)
      exact (whole L allowed).trans (Tally.standing_fresh counts.2 none).symm

/-- The audit of a call in which the replies that do not reset the counter find it at zero. -/
def Audit.ofCounter (cfg : RuntimeConfig) (start : Ledger) : Audit where
  cfg := cfg
  allow := nothingCounted
  rules := ⟨True, fun _ => True, fun L => L.interruptions = 0, fun _ _ _ => True, True⟩
  first := .idle
  start := start

theorem Audit.ofCounter_unbound (cfg : RuntimeConfig) (start : Ledger) :
    (Audit.ofCounter cfg start).Unbound where
  start := trivial
  round _ _ := trivial
  whole {w i} speaking late finishes := by
    have keeps : w.keepsCount = true := by
      simpa [World.keepsCount, speaking] using late
    have none : w.session.consecutiveInterruptionCount = 0 := by
      obtain allowed | ⟨e, allowed⟩ := finishes
      · simpa [ofCounter, nothingCounted, endsReply, keeps] using allowed
      · simpa [ofCounter, nothingCounted, endsReply, keeps] using allowed
    exact none
  goesOn := trivial
  permits _ := ⟨fun _ _ => trivial, fun _ _ => trivial⟩

namespace Guarantees

/-- In every run in which no re-voiced reply and no reply of the wrap-up phase is played in full
while an interruption is counted: whenever it is the caller's turn, the counter is the number of
interrupted turns since the last reply in full and the last cue. So the protection begins only
after the configured number of interruptions. -/
theorem interruption_count_exact (cfg : RuntimeConfig) (fuel : Nat) (w : World)
    (acts : List (Action sig Move)) (c : Susp sig World Unit) (fresh : w.Fresh)
    (run : ((engine cfg).restrict nothingCounted).exec (runSession cfg fuel w) acts = some c)
    (callers : (tally c.state.history).callersTurn = true) :
    c.state.session.consecutiveInterruptionCount = (tally c.state.history).standing ∧
      (decideProtection c.state.session cfg ≠ .none →
        cfg.maxContinuousInterruptions ≤ (tally c.state.history).standing) := by
  obtain ⟨p, log⟩ := Audit.runSession_logged (Audit.ofCounter_unbound cfg w.ledger) rfl rfl run
  have begins : Phase.idle.Counts w.ledger := by
    rw [fresh.ledger]
    rfl
  have counted : c.state.ledger.Counted := (log.invariant (J := fun p L => p.Counts L) begins
    (LedgerStep.counts fun _ none => none)).late callers
  refine ⟨counted, fun protects => ?_⟩
  have same : c.state.session.consecutiveInterruptionCount = (tally c.state.history).standing :=
    counted
  unfold decideProtection at protects
  split at protects
  · exact absurd rfl protects
  · omega

theorem cut_reply_counted :
    ∃ c, ((engine resumingConfig).restrict nothingCounted).exec
      (runSession resumingConfig 4 (World.initial 1 .other)) (RunSession.listeningRun .other ++
        RunSession.spokenRun "好的".toList ++ RunSession.gateRun ++ cutRunAt 0) = some c ∧
      (tally c.state.history).standing = 1 ∧
      c.state.session.consecutiveInterruptionCount = (tally c.state.history).standing := by
  refine exists_of_map (fun c =>
    ((tally c.state.history).callersTurn, (tally c.state.history).standing)) (true, 1)
      (by decide +kernel) fun c run facts => ?_
  obtain ⟨callers, one⟩ := Prod.mk.inj facts
  exact ⟨one, (interruption_count_exact resumingConfig 4 _ _ c
    (World.initial_fresh 1 .other) run callers).1⟩

/-- The first reply is cut, what is left of it is re-voiced in full, and the next reply is cut. One
turn has been interrupted since the last reply in full, two are counted, and the protection that
is to begin after two begins. -/
theorem revoiced_reply_not_reset :
    ((engine { resumingConfig with maxContinuousInterruptions := 2 }).exec
      (runSession { resumingConfig with maxContinuousInterruptions := 2 } 4
        (World.initial 1 .other)) (resumedRun ++ revoicedRun 1 ++
          RunSession.spokenRun "好".toList ++ RunSession.gateRun ++ cutRunAt 3)).map
      (fun c => ((tally c.state.history).callersTurn, (tally c.state.history).standing,
        c.state.session.consecutiveInterruptionCount,
        decideProtection c.state.session
          { resumingConfig with maxContinuousInterruptions := 2 })) =
    some (true, 1, 2, .shortReply) := by
  decide +kernel

end Guarantees
end IsalesEngine
