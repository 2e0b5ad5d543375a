import IsalesEngine.Engine.Speech

/-!
The account of recognised speech, read off the history. Every final that is
posted after the greeting's drain is consumed by one listening window, in posting
order; every partial transcript the monitor evaluates was posted after the last
window, or was on its way when it closed; and what was posted before the drain
is used only if it was on a lane then.
-/
namespace IsalesEngine

/-- The finals posted since the drain, oldest first, after those that were on the lane then. -/
def arrivals : List Mark → List AsrResult
  | [] => []
  | .drained _ finals _ :: _ => finals
  | .posted r :: h => arrivals h ++ [r]
  | _ :: h => arrivals h

/-- The finals that listening windows have consumed since the drain, oldest first. -/
def consumed : List Mark → List AsrResult
  | [] => []
  | .drained .. :: _ => []
  | .batch finals _ _ :: h => consumed h ++ finals
  | _ :: h => consumed h

/-- What the windows that closed with words of the caller amount to, oldest first. -/
def spoken : List Mark → List Text
  | [] => []
  | .batch _ (.userFinal text) _ :: h => spoken h ++ [text]
  | _ :: h => spoken h

/-- The last window that closed: its finals, its outcome, and the partial transcripts that had not
reached the monitor. -/
def lastBatch : List Mark → Option (List AsrResult × Outcome × List AsrResult)
  | [] => none
  | .batch finals outcome late :: _ => some (finals, outcome, late)
  | _ :: h => lastBatch h

/-- The stripped texts that are not empty, joined by spaces. -/
def saidBy (finals : List AsrResult) : Text :=
  Text.joinSpace ((finals.map fun r => r.text.strip).filter (· ≠ []))

/-- A partial transcript that the monitor evaluates was posted after every final of the last
window, or was on its way when that window closed. -/
def OwnUtterance (m : Mark) (older : List Mark) : Prop :=
  ∀ p finals outcome late, m = .evaluated p → lastBatch older = some (finals, outcome, late) →
    p ∈ late ∨ ∀ f ∈ finals, f.index < p.index

/-- A partial transcript that the monitor evaluates during a turn was posted after every final that
opened the turn. -/
def SparesOwnTurn (m : Mark) (older : List Mark) : Prop :=
  ∀ p finals text late, m = .evaluated p → lastBatch older = some (finals, .userFinal text, late) →
    ∀ f ∈ finals, f.index < p.index

/-- A result numbered before `posted` is used only if it was on a lane at the drain. -/
def Mark.Later (posted : Nat) (finals partials : List AsrResult) : Mark → Prop
  | .batch taken _ _ => ∀ r ∈ taken, r.index < posted → r ∈ finals
  | .evaluated r => r.index < posted → r ∈ partials
  | _ => True

/-- Where recognised speech stands, given the history, the number of results posted so far, and
the finals and partial transcripts that are on their way. -/
structure Hearing (h : List Mark) (count : Nat) (finals partials : List AsrResult) : Prop where
  flow : arrivals h = consumed h ++ finals
  said : ∀ taken text late, .batch taken (.userFinal text) late ∈ h → text = saidBy taken
  numbered : ∀ r ∈ finals, r.index < count
  taken : ∀ taken outcome late, .batch taken outcome late ∈ h → ∀ f ∈ taken, f.index < count
  fresh : ∀ taken outcome late, lastBatch h = some (taken, outcome, late) →
    ∀ p ∈ partials, p ∈ late ∨ ∀ f ∈ taken, f.index < p.index
  evaluated : EachMark OwnUtterance h
  drained : ∀ posted fs ps, .drained posted fs ps ∈ h → posted ≤ count ∧
    (∀ r ∈ finals, r.index < posted → r ∈ fs) ∧ (∀ r ∈ partials, r.index < posted → r ∈ ps) ∧
    ∀ m ∈ h, m.Later posted fs ps

namespace Hearing
variable {h h' : List Mark} {count : Nat} {finals partials : List AsrResult}

theorem lastBatch_mem {taken late : List AsrResult} {o : Outcome}
    (last : lastBatch h = some (taken, o, late)) : .batch taken o late ∈ h := by
  induction h with
  | nil => cases last
  | cons m h ih =>
      cases m with
      | batch =>
          obtain ⟨rfl, rfl, rfl⟩ := by simpa [lastBatch] using last
          exact List.mem_cons_self
      | _ => exact .tail _ (ih last)

section
variable (hearing : Hearing h count finals partials)
include hearing

/-- Marks that are not about speech. -/
theorem mark {m : Mark} (plain : m.isSpeech = false) : Hearing (m :: h) count finals partials := by
  obtain ⟨flow, said, numbered, taken, fresh, evaluated, drained⟩ := hearing
  have other : ∀ {m'}, m'.isSpeech = true → m' ∈ m :: h → m' ∈ h := by
    rintro m' speech member
    obtain rfl | member := List.mem_cons.mp member
    · rw [plain] at speech
      cases speech
    · exact member
  refine ⟨?_, fun _ _ _ member => said _ _ _ (other rfl member), numbered,
    fun _ _ _ member => taken _ _ _ (other rfl member), ?_, ⟨?_, evaluated⟩, ?_⟩
  · cases m <;> first | exact flow | cases plain
  · cases m <;> first | exact fresh | cases plain
  · rintro p fs o late rfl
    cases plain
  · intro posted fs ps member
    obtain ⟨bound, waiting, partials, later⟩ := drained _ _ _ (other rfl member)
    refine ⟨bound, waiting, partials, List.forall_mem_cons.mpr ⟨?_, later⟩⟩
    cases m <;> trivial

theorem unspoken (step : Unspoken h h') : Hearing h' count finals partials :=
  step.induct (P := fun h => Hearing h count finals partials) hearing
    fun _ _ plain hearing => hearing.mark plain

/-- Results move along; a partial transcript may be added or dropped. -/
theorem moved {count' : Nat} {partials' : List AsrResult} (more : count ≤ count')
    (kept : ∀ p ∈ partials', p ∈ partials ∨ count ≤ p.index) :
    Hearing h count' finals partials' := by
  refine ⟨hearing.flow, hearing.said, fun r member => ?_, fun _ _ _ member f own => ?_, ?_,
    hearing.evaluated, fun posted fs ps member => ?_⟩
  · exact Nat.lt_of_lt_of_le (hearing.numbered r member) more
  · exact Nat.lt_of_lt_of_le (hearing.taken _ _ _ member f own) more
  · intro taken o late last p member
    obtain old | new := kept p member
    · exact hearing.fresh _ _ _ last p old
    · exact .inr fun f own =>
        Nat.lt_of_lt_of_le (hearing.taken _ _ _ (lastBatch_mem last) f own) new
  · obtain ⟨bound, waiting, unheard, later⟩ := hearing.drained _ _ _ member
    refine ⟨Nat.le_trans bound more, waiting, fun p member early => ?_, later⟩
    obtain old | new := kept p member
    · exact unheard p old early
    · exact absurd early (Nat.not_lt.mpr (Nat.le_trans bound new))

theorem posted {r : AsrResult} (index : r.index = count) :
    Hearing (.posted r :: h) (count + 1) (finals ++ [r]) partials := by
  have later : Hearing h (count + 1) finals partials :=
    hearing.moved (Nat.le_succ count) fun p member => .inl member
  refine ⟨?_, fun _ _ _ member => later.said _ _ _ (by simpa using member), ?_,
    fun _ _ _ member => later.taken _ _ _ (by simpa using member), later.fresh,
    ⟨nofun, later.evaluated⟩, fun posted fs ps member => ?_⟩
  · simp only [arrivals, consumed, hearing.flow, List.append_assoc]
  · simp only [List.forall_mem_append, List.forall_mem_singleton, index]
    exact ⟨later.numbered, Nat.lt_succ_self count⟩
  · obtain ⟨bound, waiting, unheard, marks⟩ := hearing.drained posted fs ps (by simpa using member)
    refine ⟨Nat.le_succ_of_le bound, ?_, unheard, List.forall_mem_cons.mpr ⟨trivial, marks⟩⟩
    simp only [List.forall_mem_append, List.forall_mem_singleton, index]
    exact ⟨waiting, fun early => absurd early (Nat.not_lt.mpr bound)⟩

theorem evaluates {r : AsrResult} (waiting : r ∈ partials) :
    Hearing (.evaluated r :: h) count finals partials := by
  refine ⟨hearing.flow, fun _ _ _ member => hearing.said _ _ _ (by simpa using member),
    hearing.numbered, fun _ _ _ member => hearing.taken _ _ _ (by simpa using member),
    hearing.fresh, ⟨?_, hearing.evaluated⟩, fun posted fs ps member => ?_⟩
  · intro p taken o late same last
    cases same
    exact hearing.fresh _ _ _ last r waiting
  · obtain ⟨bound, queued, unheard, marks⟩ := hearing.drained posted fs ps (by simpa using member)
    exact ⟨bound, queued, unheard, List.forall_mem_cons.mpr ⟨unheard r waiting, marks⟩⟩

end

/-- A window closes with the oldest finals. -/
theorem batch {taken : List AsrResult} {outcome : Outcome}
    (hearing : Hearing h count (taken ++ finals) partials)
    (amounts : ∀ text, outcome = .userFinal text → text = saidBy taken) :
    Hearing (.batch taken outcome partials :: h) count finals partials := by
  refine ⟨?_, ?_, fun r member => hearing.numbered r (List.mem_append_right _ member), ?_, ?_,
    ⟨nofun, hearing.evaluated⟩, fun posted fs ps member => ?_⟩
  · simp only [arrivals, consumed, hearing.flow, List.append_assoc]
  · intro taken' text late member
    obtain same | member := List.mem_cons.mp member
    · cases same
      exact amounts text rfl
    · exact hearing.said _ _ _ member
  · intro taken' outcome' late member f own
    obtain same | member := List.mem_cons.mp member
    · cases same
      exact hearing.numbered f (List.mem_append_left _ own)
    · exact hearing.taken _ _ _ member f own
  · intro taken' outcome' late last p member
    obtain ⟨rfl, rfl, rfl⟩ := by simpa [lastBatch] using last
    exact .inl member
  · obtain ⟨bound, queued, unheard, marks⟩ := hearing.drained posted fs ps (by simpa using member)
    refine ⟨bound, fun r member => queued r (List.mem_append_right _ member), unheard, ?_⟩
    refine List.forall_mem_cons.mpr ⟨fun r member => ?_, marks⟩
    exact queued r (List.mem_append_left _ member)

/-- Nothing was consumed or evaluated yet. -/
def Unheard (h : List Mark) : Prop :=
  ∀ m ∈ h, ∀ posted finals partials, m.Later posted finals partials

theorem Unheard.mark {m : Mark} (unheard : Unheard h)
    (quiet : ∀ posted finals partials, m.Later posted finals partials) : Unheard (m :: h) :=
  List.forall_mem_cons.mpr ⟨quiet, unheard⟩

theorem Unheard.unspoken (unheard : Unheard h) (step : Unspoken h h') : Unheard h' := by
  refine step.induct unheard fun m h plain unheard => unheard.mark fun _ _ _ => ?_
  cases m <;> trivial

/-- The drain of the greeting era keeps what is on the two lanes. -/
theorem drain {lane lossy queued heard : List AsrResult}
    (hearing : Hearing h count (queued ++ lane) (heard ++ lossy)) (unheard : Unheard h) :
    Hearing (.drained count lane lossy :: h) count lane lossy := by
  have early : Hearing h count (queued ++ lane) lossy :=
    hearing.moved (Nat.le_refl count) fun p member => .inl (List.mem_append_right _ member)
  refine ⟨rfl, fun _ _ _ member => hearing.said _ _ _ (by simpa using member),
    fun r member => hearing.numbered r (List.mem_append_right _ member),
    fun _ _ _ member => hearing.taken _ _ _ (by simpa using member), early.fresh,
    ⟨nofun, hearing.evaluated⟩, fun posted fs ps member => ?_⟩
  obtain same | member := List.mem_cons.mp member
  · cases same
    refine ⟨Nat.le_refl _, fun r member _ => member, fun r member _ => member, ?_⟩
    exact List.forall_mem_cons.mpr ⟨trivial, fun m member => unheard m member _ _ _⟩
  · obtain ⟨bound, waiting, partials, marks⟩ := early.drained posted fs ps member
    exact ⟨bound, fun r member => waiting r (List.mem_append_right _ member), partials,
      List.forall_mem_cons.mpr ⟨trivial, marks⟩⟩

end Hearing

/-- The words of the caller in an outcome. -/
def Outcome.words : Outcome → List Text
  | .userFinal text => [text]
  | _ => []

theorem spoken_batch (h : List Mark) (taken late : List AsrResult) (o : Outcome) :
    spoken (.batch taken o late :: h) = spoken h ++ o.words := by
  cases o <;> simp [spoken, Outcome.words]

theorem spoken_unspoken {h h' : List Mark} (step : Unspoken h h') : spoken h' = spoken h := by
  refine step.induct (P := fun h' => spoken h' = spoken h) rfl fun m h' plain same => ?_
  cases m <;> first | exact same | cases plain

end IsalesEngine
