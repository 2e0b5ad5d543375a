import IsalesEngine.EventBus

/-!
Delivery on the lossless lane. The history of a lane whose deliveries never
overlap and are never broken off is the reports of the events in posting order,
each with the handlers of its snapshot called one after the other. `aclose`
breaks this: it takes events while the dispatcher awaits a handler, the
dispatcher takes one while `aclose` does, and the dispatcher is cancelled
within a delivery. These steps, and handlers whose exception escapes, are the
only ones that do.
-/
namespace IsalesEngine
open Asyncio

variable {ε τ η : Type}

def invocation (e : ε) (h : η) : List (DeliveryMark ε η) := [.called e h, .finished e h]

/-- What the history says of a delivered event and the handlers of its snapshot. -/
def report (entry : ε × List η) : List (DeliveryMark ε η) :=
  .began entry.1 entry.2 :: entry.2.flatMap (invocation entry.1)

namespace Delivery
variable {d : Delivery ε η} {h : η} {rest : List η}

/-- What it says of a delivery in progress. -/
def report (d : Delivery ε η) : List (DeliveryMark ε η) :=
  .began d.event (d.ran ++ d.awaited.toList ++ d.left) ::
    (d.ran.flatMap (invocation d.event) ++ d.awaited.toList.map (.called d.event))

section
variable (awaited : d.awaited = none)
include awaited

theorem report_over (left : d.left = []) : d.report = IsalesEngine.report (d.event, d.ran) := by
  simp [report, IsalesEngine.report, awaited, left]

theorem report_await (left : d.left = h :: rest) :
    { d with awaited := some h, left := rest }.report = d.report ++ [.called d.event h] := by
  simp [report, awaited, left]

theorem report_run (left : d.left = h :: rest) :
    { d with ran := d.ran ++ [h], left := rest }.report =
      d.report ++ [.called d.event h, .finished d.event h] := by
  simp [report, invocation, awaited, left]

end

theorem report_resume (awaited : d.awaited = some h) :
    { d with ran := d.ran ++ [h], awaited := none }.report = d.report ++ [.finished d.event h] := by
  simp [report, invocation, awaited]

end Delivery

namespace LaneState
variable {l : LaneState ε η} {w : Worker} {d d' : Delivery ε η} {marks : List (DeliveryMark ε η)}

def current (l : LaneState ε η) : Option (Delivery ε η) := l.dispatching.or l.closing

theorem current_eq (own : l.delivery w = some d) (alone : l.other w = none) :
    l.current = some d := by
  cases w with
  | dispatcher lane => simp only [current, show l.dispatching = some d from own, Option.some_or]
  | closer =>
      simp only [current, show l.dispatching = none from alone, Option.none_or]
      exact own

theorem current_deliver {x : Option (Delivery ε η)} (alone : l.other w = none) :
    (l.deliver x w).current = x := by
  cases w with
  | dispatcher lane =>
      show x.or l.closing = x
      rw [show l.closing = none from alone, Option.or_none]
  | closer =>
      show l.dispatching.or x = x
      rw [show l.dispatching = none from alone, Option.none_or]

/-- The deliveries of a lane follow one another, none was broken off, and the history reports the
events in posting order. -/
structure Orderly (l : LaneState ε η) : Prop where
  serialized : l.dispatching = none ∨ l.closing = none
  whole : l.broken = []
  reported : ∃ entries : List (ε × List η),
    l.journal = entries.flatMap report ++ l.current.elim [] Delivery.report ∧
    entries.map Prod.fst ++ l.current.toList.map Delivery.event ++ l.queue = l.posted

namespace Orderly

variable (orderly : l.Orderly)
include orderly

theorem alone (own : l.delivery w = some d) : l.other w = none := by
  cases w with
  | dispatcher lane =>
      obtain none | none := orderly.serialized
      · exact nomatch none.symm.trans own
      · exact none
  | closer =>
      obtain none | none := orderly.serialized
      · exact none
      · exact nomatch none.symm.trans own

theorem accept (e : ε) : (l.accept e).Orderly := by
  obtain ⟨serialized, whole, entries, journal, posted⟩ := orderly
  refine ⟨serialized, whole, entries, journal, ?_⟩
  show _ ++ (l.queue ++ [e]) = l.posted ++ [e]
  rw [← posted, List.append_assoc, List.append_assoc, List.append_assoc]
  rfl

theorem task {t : DispatcherTask} : { l with task := t }.Orderly :=
  ⟨orderly.serialized, orderly.whole, orderly.reported⟩

/-- A delivery may begin when no other is in progress. -/
theorem take {e : ε} {rest : List ε} {hs : List η} (free : l.delivery w = none)
    (alone : l.other w = none) (queue : l.queue = e :: rest) : (l.take w e rest hs).Orderly := by
  obtain ⟨serialized, whole, entries, journal, posted⟩ := orderly
  have none : l.current = none := by
    cases w with
    | dispatcher lane => exact Option.or_eq_none_iff.mpr ⟨free, alone⟩
    | closer => exact Option.or_eq_none_iff.mpr ⟨alone, free⟩
  have now : (l.take w e rest hs).current = some { event := e, left := hs } := by
    cases w <;> exact current_deliver (l := { l with queue := rest }) alone
  refine ⟨?_, ?_, entries, ?_, ?_⟩
  · cases w with
    | dispatcher lane => exact .inr alone
    | closer => exact .inl alone
  · cases w <;> exact whole
  · rw [now]
    have grown : (l.take w e rest hs).journal = l.journal ++ [.began e hs] := by cases w <;> rfl
    rw [grown, journal, none]
    simp [Delivery.report]
  · rw [now]
    have fields : (l.take w e rest hs).queue = rest ∧ (l.take w e rest hs).posted = l.posted := by
      cases w <;> exact ⟨rfl, rfl⟩
    rw [fields.1, fields.2, ← posted, none, queue]
    simp

section
variable (own : l.delivery w = some d)
include own

theorem progress (same : d'.event = d.event) (adds : d'.report = d.report ++ marks) :
    ((l.note marks).deliver (some d') w).Orderly := by
  have alone := orderly.alone own
  have before := current_eq own alone
  obtain ⟨serialized, whole, entries, journal, posted⟩ := orderly
  have now : ((l.note marks).deliver (some d') w).current = some d' := by
    cases w <;> exact current_deliver (l := l.note marks) alone
  refine ⟨?_, ?_, entries, ?_, ?_⟩
  · cases w with
    | dispatcher lane => exact .inr alone
    | closer => exact .inl alone
  · cases w <;> exact whole
  · have grown : ((l.note marks).deliver (some d') w).journal = l.journal ++ marks := by
      cases w <;> rfl
    rw [grown, now, journal, before]
    simp [adds]
  · have fields : ((l.note marks).deliver (some d') w).queue = l.queue ∧
        ((l.note marks).deliver (some d') w).posted = l.posted := by
      cases w <;> exact ⟨rfl, rfl⟩
    rw [fields.1, fields.2, ← posted, now, before]
    simp [same]

/-- A delivery all of whose handlers have run joins the reports. -/
theorem close (awaited : d.awaited = none) (left : d.left = []) : (l.close w d).Orderly := by
  have alone := orderly.alone own
  have before := current_eq own alone
  obtain ⟨serialized, whole, entries, journal, posted⟩ := orderly
  have now : (l.close w d).current = none := by
    cases w <;> exact current_deliver (l := l) alone
  refine ⟨?_, ?_, entries ++ [(d.event, d.ran)], ?_, ?_⟩
  · cases w with
    | dispatcher lane => exact .inr alone
    | closer => exact .inl alone
  · simp [LaneState.close, awaited, left, whole]
  · have same : (l.close w d).journal = l.journal := by cases w <;> rfl
    rw [same, now, journal, before]
    simp [Delivery.report_over awaited left]
  · have fields : (l.close w d).queue = l.queue ∧ (l.close w d).posted = l.posted := by
      cases w <;> exact ⟨rfl, rfl⟩
    rw [fields.1, fields.2, ← posted, now, before]
    simp

/-- The last handler may end with an exception that escapes. -/
theorem escape (same : d'.event = d.event) (adds : d'.report = d.report ++ marks)
    (awaited : d'.awaited = none) (left : d'.left = []) : ((l.note marks).close w d').Orderly := by
  have progress := orderly.progress own same adds
  have now : ((l.note marks).deliver (some d') w).delivery w = some d' := by cases w <;> rfl
  have closed := progress.close now awaited left
  cases w <;> exact closed

end

end Orderly

theorem left_of_close (whole : (l.close w d).broken = []) : d.left = [] := by
  cases left : d.left with
  | nil => rfl
  | cons h rest => simp [close, left] at whole

theorem cancel_eq (none : l.dispatching = none) :
    l.cancel = { l with task := if l.task = .alive then .ended else l.task } := by
  unfold cancel
  split
  · rw [none, Option.toList_none, List.append_nil]
  · rfl

end LaneState

/-- What the lossless lane's guarantees depend on. -/
structure LosslessView (ε η : Type) where
  lane : LaneState ε η
  phase : ClosePhase
  pending : Nat

def EventBus.view (s : EventBus ε τ η) : LosslessView ε η := ⟨s.lossless, s.phase, s.pending⟩

/-- The steps as the lossless lane sees them, each with the condition under which it is careful. -/
inductive LosslessStep (v : LosslessView ε η) : Bool → LosslessView ε η → Prop
  | aside : LosslessStep v true v
  | post (e : ε) (opened : v.phase = .opened) :
      LosslessStep v true { v with lane := v.lane.accept e }
  | start (absent : v.lane.task = .absent) :
      LosslessStep v true { v with lane.task := .alive }
  | take {e rest} (hs : List η) (alive : v.lane.task = .alive)
      (free : v.lane.dispatching = none) (queue : v.lane.queue = e :: rest) :
      LosslessStep v v.lane.closing.isNone
        { v with lane := v.lane.take (.dispatcher .lossless) e rest hs }
  | drain {n e rest} (hs : List η) (draining : v.phase = .draining)
      (free : v.lane.closing = none) (pending : v.pending = n + 1)
      (queue : v.lane.queue = e :: rest) :
      LosslessStep v v.lane.dispatching.isNone
        { v with lane := v.lane.take .closer e rest hs, pending := n }
  | progress {w d d' marks} (own : v.lane.delivery w = some d) (same : d'.event = d.event)
      (adds : d'.report = d.report ++ marks) :
      LosslessStep v true { v with lane := (v.lane.note marks).deliver (some d') w }
  | delivered {w d} (own : v.lane.delivery w = some d) (awaited : d.awaited = none)
      (left : d.left = []) : LosslessStep v true { v with lane := v.lane.close w d }
  | escapeDispatcher {d d' marks} (own : v.lane.dispatching = some d)
      (same : d'.event = d.event) (adds : d'.report = d.report ++ marks)
      (awaited : d'.awaited = none) :
      LosslessStep v (d'.left.isEmpty && (!v.phase.over || v.lane.queue.isEmpty))
        { v with lane := { (v.lane.note marks).close (.dispatcher .lossless) d' with
            task := .ended } }
  | escapeCloser {d d' marks} (own : v.lane.closing = some d)
      (same : d'.event = d.event) (adds : d'.report = d.report ++ marks)
      (awaited : d'.awaited = none) :
      LosslessStep v (d'.left.isEmpty && (v.lane.task == .alive || v.lane.queue.isEmpty))
        { v with lane := (v.lane.note marks).close .closer d', phase := .raised }
  | aclose (opened : v.phase = .opened) :
      LosslessStep v true { v with phase := .draining, pending := v.lane.queue.length }
  | cancelTasks (draining : v.phase = .draining) (free : v.lane.closing = none)
      (nothing : v.pending = 0 ∨ v.lane.queue = []) :
      LosslessStep v v.lane.dispatching.isNone
        { v with
          lane := v.lane.cancel
          phase := if v.lane.task = .absent then .returned else .gathering }
  | gathered (gathering : v.phase = .gathering) :
      LosslessStep v true { v with lane.task := .absent, phase := .returned }

namespace LosslessView
variable {v v' : LosslessView ε η} {ok : Bool}

/-- Deliveries are serialized and whole, somebody is left to deliver what is queued, and once
`aclose` has returned the history reports every event. -/
structure Faithful (v : LosslessView ε η) : Prop where
  orderly : v.lane.Orderly
  attended : v.phase.over = true → v.lane.queue = [] ∨ v.lane.task = .alive
  delivered : v.phase = .returned → ∃ entries : List (ε × List η),
    v.lane.journal = entries.flatMap report ∧ entries.map Prod.fst = v.lane.posted

/-- The invariant of careful runs. -/
structure Sound (v : LosslessView ε η) : Prop where
  orderly : v.lane.Orderly
  attended : v.phase.over = true → v.lane.queue = [] ∨ v.lane.task = .alive
  idle : v.lane.task ≠ .alive → v.lane.dispatching = none
  unclosing : v.phase ≠ .draining → v.lane.closing = none
  drained : v.phase = .draining → v.lane.queue.length ≤ v.pending
  cancelled : v.phase = .gathering → v.lane.task = .ended
  finished : v.phase = .returned → v.lane.queue = [] ∧ v.lane.dispatching = none

theorem Sound.faithful (sound : Sound v) : Faithful v := by
  refine ⟨sound.orderly, sound.attended, fun returned => ?_⟩
  obtain ⟨queue, dispatching⟩ := sound.finished returned
  have closing : v.lane.closing = none := sound.unclosing (by rw [returned]; decide)
  obtain ⟨entries, journal, posted⟩ := sound.orderly.reported
  have none : v.lane.current = none := Option.or_eq_none_iff.mpr ⟨dispatching, closing⟩
  exact ⟨entries, by simpa [none] using journal, by simpa [none, queue] using posted⟩

theorem Sound.step (sound : Sound v) (stepped : LosslessStep v ok v') (careful : ok = true) :
    Sound v' := by
  obtain ⟨orderly, attended, idle, unclosing, drained, cancelled, finished⟩ := sound
  cases stepped with
  | aside => exact ⟨orderly, attended, idle, unclosing, drained, cancelled, finished⟩
  | post e opened =>
      refine ⟨orderly.accept e, ?_, idle, unclosing, ?_, cancelled, ?_⟩ <;>
        simp [opened, ClosePhase.over]
  | start absent =>
      refine ⟨orderly.task, fun _ => .inr rfl, ?_, unclosing, drained, ?_, finished⟩
      · exact fun dead => absurd rfl dead
      · exact fun gathering => nomatch absent.symm.trans (cancelled gathering)
  | take hs alive free queue =>
      have alone : v.lane.closing = none := Option.isNone_iff_eq_none.mp careful
      refine ⟨orderly.take free alone queue, fun _ => .inr alive, ?_, unclosing, ?_, cancelled, ?_⟩
      · exact fun dead => absurd alive dead
      · intro draining
        have most := drained draining
        rw [queue, List.length_cons] at most
        exact Nat.le_of_succ_le most
      · exact fun returned => nomatch queue.symm.trans (finished returned).1
  | drain hs draining free pending queue =>
      have alone : v.lane.dispatching = none := Option.isNone_iff_eq_none.mp careful
      have most := drained draining
      rw [queue, List.length_cons, pending] at most
      refine ⟨orderly.take free alone queue, ?_, idle, ?_, ?_, cancelled, ?_⟩
      · simp [draining, ClosePhase.over]
      · exact fun other => absurd draining other
      · exact fun _ => Nat.le_of_succ_le_succ most
      · simp [draining]
  | @progress w d d' marks own same adds =>
      have orderly' := orderly.progress own same adds
      cases w with
      | dispatcher lane =>
          refine ⟨orderly', attended, ?_, unclosing, drained, cancelled, ?_⟩
          · exact fun dead => nomatch (idle dead).symm.trans own
          · exact fun returned => nomatch (finished returned).2.symm.trans own
      | closer =>
          refine ⟨orderly', attended, idle, ?_, drained, cancelled, finished⟩
          exact fun other => nomatch (unclosing other).symm.trans own
  | @delivered w d own awaited left =>
      have orderly' := orderly.close own awaited left
      cases w with
      | dispatcher lane =>
          refine ⟨orderly', attended, fun _ => rfl, unclosing, drained, cancelled, ?_⟩
          exact fun returned => ⟨(finished returned).1, rfl⟩
      | closer =>
          exact ⟨orderly', attended, idle, fun _ => rfl, drained, cancelled, finished⟩
  | escapeDispatcher own same adds awaited =>
      obtain ⟨left, attending⟩ := Bool.and_eq_true_iff.mp careful
      have orderly' := orderly.escape (w := .dispatcher .lossless) own same adds awaited
        (List.isEmpty_iff.mp left)
      refine ⟨orderly'.task, fun past => .inl ?_, fun _ => rfl, unclosing, drained,
        fun _ => rfl, fun returned => ⟨(finished returned).1, rfl⟩⟩
      rw [show v.phase.over = true from past] at attending
      exact List.isEmpty_iff.mp attending
  | escapeCloser own same adds awaited =>
      obtain ⟨left, attending⟩ := Bool.and_eq_true_iff.mp careful
      have orderly' := orderly.escape (w := .closer) own same adds awaited
        (List.isEmpty_iff.mp left)
      refine ⟨orderly', fun _ => ?_, idle, fun _ => rfl, nofun, nofun, nofun⟩
      obtain alive | empty := Bool.or_eq_true_iff.mp attending
      · exact .inr (eq_of_beq alive)
      · exact .inl (List.isEmpty_iff.mp empty)
  | aclose opened =>
      refine ⟨orderly, nofun, idle, ?_, fun _ => Nat.le_refl _, nofun, nofun⟩
      exact fun _ => unclosing (by rw [opened]; decide)
  | cancelTasks draining free nothing =>
      have none : v.lane.dispatching = none := Option.isNone_iff_eq_none.mp careful
      have empty : v.lane.queue = [] := by
        obtain zero | empty := nothing
        · exact List.length_eq_zero_iff.mp (Nat.le_zero.mp (zero ▸ drained draining))
        · exact empty
      rw [LaneState.cancel_eq none]
      refine ⟨orderly.task, fun _ => .inl empty, fun _ => none, fun _ => free, ?_, ?_, ?_⟩
      · dsimp only
        split <;> nofun
      · dsimp only
        cases task : v.lane.task <;> simp
      · exact fun _ => ⟨empty, none⟩
  | gathered gathering =>
      have ended := cancelled gathering
      have empty : v.lane.queue = [] := by
        obtain empty | alive := attended (by rw [gathering]; rfl)
        · exact empty
        · exact nomatch ended.symm.trans alive
      have none := idle (by rw [ended]; decide)
      refine ⟨orderly.task, fun _ => .inl empty, fun _ => none, ?_, nofun, nofun, ?_⟩
      · exact fun _ => unclosing (by rw [gathering]; decide)
      · exact fun _ => ⟨empty, none⟩

theorem Sound.careful_of_faithful (sound : Sound v) (stepped : LosslessStep v ok v')
    (faithful : Faithful v') : ok = true := by
  have serialized := faithful.orderly.serialized
  have whole := faithful.orderly.whole
  cases stepped with
  | take hs alive free queue =>
      obtain none | none := serialized
      · cases none
      · exact Option.isNone_iff_eq_none.mpr none
  | drain hs draining free pending queue =>
      obtain none | none := serialized
      · exact Option.isNone_iff_eq_none.mpr none
      · cases none
  | escapeDispatcher own same adds awaited =>
      have left := LaneState.left_of_close (w := .dispatcher .lossless) whole
      rw [left, List.isEmpty_nil, Bool.true_and]
      cases past : v.phase.over with
      | false => rfl
      | true =>
          obtain empty | alive := faithful.attended past
          · exact List.isEmpty_iff.mpr empty
          · cases alive
  | escapeCloser own same adds awaited =>
      have left := LaneState.left_of_close whole
      rw [left, List.isEmpty_nil, Bool.true_and, Bool.or_eq_true_iff]
      obtain empty | alive := faithful.attended rfl
      · exact .inr (List.isEmpty_iff.mpr empty)
      · exact .inl (beq_iff_eq.mpr alive)
  | cancelTasks draining free nothing =>
      cases delivery : v.lane.dispatching with
      | none => rfl
      | some d =>
          have alive : v.lane.task = .alive := by
            refine Classical.byContradiction fun dead => ?_
            exact nomatch (sound.idle dead).symm.trans delivery
          simp [LaneState.cancel, alive, delivery] at whole
  | _ => rfl

end LosslessView

namespace EventBus

/-- An exception may escape the last handler if the queue is empty or another task attends it. -/
def mayEscape (s : EventBus ε τ η) (left : List η) : Worker → Bool
  | .dispatcher .lossy => true
  | .dispatcher .lossless =>
      left.isEmpty && (!s.phase.over || s.lossless.queue.isEmpty)
  | .closer => left.isEmpty && (s.lossless.task == .alive || s.lossless.queue.isEmpty)

/-- No lossless event is taken and no dispatcher cancelled within another delivery, and no
exception escapes where a handler or an event would be left behind. -/
def careful (s : EventBus ε τ η) : BusStep ε τ η → Bool
  | .take .lossless => s.lossless.closing.isNone
  | .drain | .cancelTasks => s.lossless.dispatching.isNone
  | .call w (some .escaped) =>
      ((s.lane w.lane).delivery w).all fun d => s.mayEscape d.left.tail w
  | .resume w .escaped => ((s.lane w.lane).delivery w).all fun d => s.mayEscape d.left w
  | _ => true

variable {cfg : EventBusConfig ε τ} {s s' : EventBus ε τ η} {label : BusStep ε τ η}

theorem post_view [DecidableEq τ] (e : ε) : LosslessStep s.view true (s.post cfg e).view := by
  unfold post
  split
  · exact .aside
  · rename_i opened
    split
    · exact .post e (by simpa [view] using opened)
    · unfold postLossy
      split
      · dsimp only
        cases queue : s.lossy.queue <;> (dsimp only; split <;> exact .aside)
      · exact .aside

/-- A delivery goes on after a handler, or the task that delivers ends. -/
theorem ran_view {w : Worker} {d d' : Delivery ε η} {marks : List (DeliveryMark ε η)}
    (own : (s.lane w.lane).delivery w = some d)
    (adds : d'.report = d.report ++ marks) (same : d'.event = d.event)
    (awaited : d'.awaited = none) (result : HandlerResult) :
    LosslessStep s.view (if result = .escaped then s.mayEscape d'.left w else true)
      (s.ran w d' marks result).view := by
  cases w with
  | dispatcher lane =>
      cases lane with
      | lossless =>
          cases result with
          | escaped => exact .escapeDispatcher own same adds awaited
          | returned | raised => exact .progress (w := .dispatcher .lossless) own same adds
      | lossy => cases result <;> exact .aside
  | closer =>
      cases result with
      | escaped => exact .escapeCloser own same adds awaited
      | returned | raised => exact .progress (w := .closer) own same adds

theorem step_view [DecidableEq τ] [DecidableEq η] (h : s.step cfg label = some s') :
    LosslessStep s.view (s.careful label) s'.view := by
  cases label with
  | registerLane type lane | subscribe type handler | unsubscribe type handler =>
      cases h
      exact .aside
  | post e =>
      cases h
      exact post_view e
  | start =>
      cases h
      unfold start
      split
      · rename_i absent
        exact .start absent
      · exact .aside
  | take lane =>
      simp only [step] at h
      split at h
      · rename_i e rest queue
        obtain ⟨⟨alive, free, -⟩, rfl⟩ := of_guard h
        cases lane with
        | lossless => exact .take _ alive (Option.isNone_iff_eq_none.mp free) queue
        | lossy => exact .aside
      · cases h
  | call w result =>
      simp only [step] at h
      split at h
      · rename_i d own
        split at h
        · rename_i handler left next
          obtain ⟨⟨awaited, -⟩, rfl⟩ := of_guard h
          cases result with
          | none =>
              have adds := d.report_await awaited next
              cases w with
              | dispatcher lane =>
                  cases lane with
                  | lossless => exact .progress (w := .dispatcher .lossless) own rfl adds
                  | lossy => exact .aside
              | closer => exact .progress (w := .closer) own rfl adds
          | some result =>
              have effect := ran_view own (d.report_run awaited next) rfl awaited result
              cases result <;> simpa [careful, call, own, next] using effect
        · cases h
      · cases h
  | resume w result =>
      simp only [step] at h
      split at h
      · rename_i d own
        split at h
        · rename_i handler awaited
          obtain ⟨-, rfl⟩ := of_guard h
          have effect := ran_view own (d.report_resume awaited) rfl rfl result
          cases result <;> simpa [careful, resume, own] using effect
        · cases h
      · cases h
  | delivered w =>
      simp only [step] at h
      split at h
      · rename_i d own
        obtain ⟨⟨awaited, left, -⟩, rfl⟩ := of_guard h
        cases w with
        | dispatcher lane =>
            cases lane with
            | lossless => exact .delivered (w := .dispatcher .lossless) own awaited left
            | lossy => exact .aside
        | closer => exact .delivered (w := .closer) own awaited left
      · cases h
  | aclose =>
      obtain ⟨-, rfl⟩ := of_guard h
      unfold aclose
      split
      · exact .aside
      · rename_i opened
        exact .aclose (by simpa [view] using opened)
  | drain =>
      simp only [step] at h
      split at h
      · rename_i n e rest pending queue
        obtain ⟨⟨draining, free, -⟩, rfl⟩ := of_guard h
        exact .drain _ draining (Option.isNone_iff_eq_none.mp free) pending queue
      · cases h
  | cancelTasks =>
      obtain ⟨⟨draining, free, -, nothing⟩, rfl⟩ := of_guard h
      refine .cancelTasks draining (Option.isNone_iff_eq_none.mp free) ?_
      exact nothing.imp_right List.isEmpty_iff.mp
  | gathered =>
      obtain ⟨gathering, rfl⟩ := of_guard h
      exact .gathered gathering

end EventBus

namespace Guarantees
open EventBus

variable [DecidableEq τ] [DecidableEq η]

/-- In every run of a bus: all steps were careful exactly if in every state on the way the lossless
deliveries were serialized and whole, in posting order, and nothing was left behind when `aclose`
had returned. -/
theorem lossless_lane_faithful_iff (cfg : EventBusConfig ε τ) (steps : List (BusStep ε τ η))
    (s : EventBus ε τ η) (run : (system cfg).exec {} steps = some s) :
    ((system cfg).restrict careful).exec {} steps = some s ↔
      ∀ before t, before <+: steps → (system cfg).exec {} before = some t → t.view.Faithful := by
  have sound : (view ({} : EventBus ε τ η)).Sound :=
    ⟨⟨.inl rfl, rfl, [], rfl, rfl⟩, nofun, fun _ => rfl, fun _ => rfl, nofun, nofun, nofun⟩
  refine System.exec_restrict_iff (J := fun s => s.view.Sound) (P := fun s => s.view.Faithful)
    ?_ ?_ sound sound.faithful run
  · intro s label s' sound allowed stepped
    exact sound.step (step_view stepped) allowed
  · intro s label s' sound stepped
    have effect := step_view stepped
    exact ⟨fun allowed => (sound.step effect allowed).faithful, sound.careful_of_faithful effect⟩

/-- Two events and two handlers, one of which suspends and raises; `aclose` drains the second
event while the dispatcher waits for it. -/
def orderlyShutdown : List (BusStep Nat Unit String) :=
  [.subscribe () "log", .subscribe () "route", .start, .post 1,
    .take .lossless, .call (.dispatcher .lossless) (some .returned),
    .call (.dispatcher .lossless) none, .resume (.dispatcher .lossless) .raised,
    .delivered (.dispatcher .lossless), .post 2, .aclose, .drain,
    .call .closer (some .returned), .call .closer none, .resume .closer .returned,
    .delivered .closer, .cancelTasks, .gathered]

theorem orderly_shutdown_delivers :
    ∃ s, (system ⟨fun _ => (), 256⟩).exec {} orderlyShutdown = some s ∧
      ∃ entries : List (Nat × List String), s.lossless.journal = entries.flatMap report ∧
        entries.map Prod.fst = s.lossless.posted := by
  refine exists_of_map (fun s => s.phase) .returned (by decide) fun s run returned => ?_
  have careful := System.restrict_exec careful run (by decide)
  have faithful := (lossless_lane_faithful_iff ⟨fun _ => (), 256⟩ orderlyShutdown s run).mp
    careful _ s List.prefix_rfl run
  exact faithful.delivered returned

/-- The dispatcher awaits the handler of the first event when `aclose` begins. -/
def hastyShutdown : List (BusStep Nat Unit String) :=
  [.subscribe () "log", .start, .post 1, .post 2, .take .lossless,
    .call (.dispatcher .lossless) none, .aclose, .drain, .call .closer (some .returned),
    .delivered .closer, .cancelTasks, .gathered]

/-- The handler of the second event runs before that of the first has ended, which then never
ends: it is cancelled, and the report of its end is missing. -/
theorem hasty_shutdown_cuts_handler :
    ((system ⟨fun _ => (), 256⟩).exec {} hastyShutdown).map
      (fun s => (s.phase, s.lossless.posted, s.lossless.journal)) =
    some (.returned, [1, 2], [.began 1 ["log"], .called 1 "log", .began 2 ["log"],
      .called 2 "log", .finished 2 "log"]) := by
  decide

end Guarantees
end IsalesEngine
