import IsalesEngine.Engine.Frames

/-!
Recognised speech on its way to the run loop. A final crosses the lossless lane,
the queue of finals and the task of a listening window; a partial transcript
crosses the lossy lane and the monitor's queue. A section of another task moves
results along, adds one that was just posted, or hands one to the monitor.
-/
namespace IsalesEngine
open Asyncio

/-- The finals on their way to the run loop, oldest first. -/
def finalsInTransit (l : Listen) (b : Bus) : List AsrResult :=
  (AwaitUser.held l.window).toList ++ l.finals ++ laneFinals b

/-- The partial transcripts on their way to the monitor, oldest first. -/
def partialsInTransit (l : Listen) (b : Bus) : List AsrResult := l.partials ++ b.lossy

def Mark.isSpeech : Mark → Bool
  | .posted _ | .drained .. | .batch .. | .evaluated _ => true
  | _ => false

/-- The history has grown by marks that are not about recognised speech. -/
def Unspoken (h h' : List Mark) : Prop := ∃ ms, h' = ms ++ h ∧ ∀ m ∈ ms, m.isSpeech = false

namespace Unspoken
variable {h h' : List Mark}

theorem refl (h : List Mark) : Unspoken h h := ⟨[], rfl, nofun⟩

theorem of_eq (same : h' = h) : Unspoken h h' := same ▸ refl h

theorem mark {m : Mark} (step : Unspoken h h') (plain : m.isSpeech = false) :
    Unspoken h (m :: h') := by
  obtain ⟨ms, rfl, all⟩ := step
  exact ⟨m :: ms, rfl, List.forall_mem_cons.mpr ⟨plain, all⟩⟩

/-- A property of histories that each such mark keeps. -/
theorem induct {P : List Mark → Prop} (step : Unspoken h h') (holds : P h)
    (kept : ∀ m h, m.isSpeech = false → P h → P (m :: h)) : P h' := by
  obtain ⟨ms, rfl, all⟩ := step
  induction ms with
  | nil => exact holds
  | cons m ms ih =>
      obtain ⟨plain, rest⟩ := List.forall_mem_cons.mp all
      exact kept m _ plain (ih rest)

end Unspoken

/-- What a section does to recognised speech. -/
inductive SpeechStep (w w' : World) : Prop
  | moved (count : w.asrCount ≤ w'.asrCount)
      (finals : finalsInTransit w'.listen w'.bus = finalsInTransit w.listen w.bus)
      (partials : ∀ r ∈ partialsInTransit w'.listen w'.bus,
        r ∈ partialsInTransit w.listen w.bus ∨ w.asrCount ≤ r.index)
      (history : Unspoken w.history w'.history)
  | posted (r : AsrResult) (index : r.index = w.asrCount) (count : w'.asrCount = w.asrCount + 1)
      (finals : finalsInTransit w'.listen w'.bus = finalsInTransit w.listen w.bus ++ [r])
      (partials : partialsInTransit w'.listen w'.bus = partialsInTransit w.listen w.bus)
      (history : w'.history = .posted r :: w.history)
  | evaluated (r : AsrResult) (running : w.listen.partialMonitor = .running)
      (waiting : r ∈ partialsInTransit w.listen w.bus) (count : w'.asrCount = w.asrCount)
      (finals : finalsInTransit w'.listen w'.bus = finalsInTransit w.listen w.bus)
      (partials : ∀ r ∈ partialsInTransit w'.listen w'.bus, r ∈ partialsInTransit w.listen w.bus)
      (history : Unspoken (.evaluated r :: w.history) w'.history)

/-- A section that leaves the queues, the lanes and the count alone. -/
theorem SpeechStep.of_eq {w w' : World} (count : w'.asrCount = w.asrCount)
    (finals : finalsInTransit w'.listen w'.bus = finalsInTransit w.listen w.bus)
    (partials : partialsInTransit w'.listen w'.bus = partialsInTransit w.listen w.bus)
    (history : Unspoken w.history w'.history) : SpeechStep w w' :=
  .moved (Nat.le_of_eq count.symm) finals (fun _ member => .inl (partials ▸ member)) history

@[simp] theorem laneFinals_post (b : Bus) {e : BusEvent} (other : ∀ r, e ≠ .asrFinal r) :
    laneFinals (b.post e) = laneFinals b := by
  unfold Bus.post
  split
  · rfl
  · cases e with
    | asrFinal r => exact absurd rfl (other r)
    | _ => simp [laneFinals]

theorem lossy_post (b : Bus) (e : BusEvent) : (b.post e).lossy = b.lossy := by
  unfold Bus.post
  split <;> rfl

theorem laneFinals_postPartial (b : Bus) (r : AsrResult) :
    laneFinals (b.postPartial r) = laneFinals b := by
  unfold Bus.postPartial
  split
  · rfl
  · split <;> rfl

theorem mem_lossy_postPartial {b : Bus} {r r' : AsrResult} (member : r' ∈ (b.postPartial r).lossy) :
    r' ∈ b.lossy ∨ r' = r := by
  unfold Bus.postPartial at member
  split at member
  · exact .inl member
  · split at member
    · simpa using member
    · simp only [List.mem_append, List.mem_singleton] at member
      exact member.imp_left List.mem_of_mem_tail

/-- Events other than finals are posted on the lossless lane as well. -/
theorem SpeechStep.of_post {w w' : World} {e : BusEvent} (other : ∀ r, e ≠ .asrFinal r)
    (count : w'.asrCount = w.asrCount) (history : w'.history = w.history)
    (posted : w'.bus = w.bus.post e) (window : w'.listen.window = w.listen.window)
    (finals : w'.listen.finals = w.listen.finals)
    (partials : w'.listen.partials = w.listen.partials) : SpeechStep w w' := by
  refine .of_eq count ?_ ?_ (.of_eq history)
  · simp only [finalsInTransit, window, finals, posted, laneFinals_post _ other]
  · simp only [partialsInTransit, partials, posted, lossy_post]

namespace Engine
variable {cfg : RuntimeConfig} {op : Op} {m : Move} {w w' : World} {e : BusEvent}

section
variable (op : Op) {w₀ : World} (count : w.asrCount = w₀.asrCount)
  (finals : finalsInTransit w.listen w.bus = finalsInTransit w₀.listen w₀.bus)
  (partials : partialsInTransit w.listen w.bus = partialsInTransit w₀.listen w₀.bus)
  (history : Unspoken w₀.history w.history)
include count finals partials history

theorem cancelMain_speech : SpeechStep w₀ (w.cancelMain op) := by
  refine .of_eq count finals partials ?_
  unfold World.cancelMain
  dsimp only
  split
  · exact history
  · exact history.mark rfl

theorem terminate_speech : SpeechStep w₀ (w.terminate op) := by
  refine cancelMain_speech op count finals partials ?_
  dsimp only
  split
  · exact history
  · exact history.mark rfl

end

/-- An event that is no final leaves the lane. -/
theorem finalsInTransit_tail {rest : List BusEvent} (lane : w.bus.lossless = e :: rest)
    (other : ∀ r, e ≠ .asrFinal r) :
    finalsInTransit w.listen { w.bus with lossless := rest } = finalsInTransit w.listen w.bus := by
  cases e with
  | asrFinal r => exact absurd rfl (other r)
  | _ => simp [finalsInTransit, laneFinals, lane]

theorem control_ne_asrFinal (asks : e.isControl = true) (r : AsrResult) : e ≠ .asrFinal r := by
  rintro rfl
  cases asks

/-- The head of the lossless lane is delivered. -/
theorem deliver_speech (op : Op) {e : BusEvent} {rest : List BusEvent}
    (lane : w.bus.lossless = e :: rest) :
    SpeechStep w ({ w with bus := { w.bus with lossless := rest } }.deliver op e) := by
  cases e with
  | asrFinal r =>
      refine .of_eq rfl ?_ rfl (.refl _)
      simp [finalsInTransit, laneFinals, lane, World.deliver]
  | asrStreamEnded | hangupDetected =>
      exact .of_eq rfl (finalsInTransit_tail lane (by simp)) rfl (.refl _)
  | manualHangupRequested | transferRequested =>
      exact terminate_speech op rfl (finalsInTransit_tail lane (by simp)) rfl (.refl _)

theorem asrFinal_speech {text : Text} {speech : List SpeechEntry} :
    SpeechStep w { w with
      history := if w.bus.closed then w.history else .posted ⟨text, w.asrCount⟩ :: w.history
      bus := w.bus.post (.asrFinal ⟨text, w.asrCount⟩)
      asrCount := w.asrCount + 1
      session := { w.session with currentUserSpeechStartedMs := none }
      speech } := by
  cases closed : w.bus.closed with
  | true =>
      refine .moved (by simp) ?_ (fun r member => .inl ?_) (.of_eq (by simp))
      · simp [closed, finalsInTransit, Bus.post]
      · simpa [closed, partialsInTransit, Bus.post] using member
  | false =>
      refine .posted ⟨text, w.asrCount⟩ rfl (by simp) ?_ ?_ (by simp)
      · simp [closed, finalsInTransit, Bus.post, laneFinals]
      · simp [closed, partialsInTransit, Bus.post]

theorem asrPartial_speech (r : AsrResult) (new : w.asrCount ≤ r.index) :
    SpeechStep w { w with bus := w.bus.postPartial r, asrCount := w.asrCount + 1 } := by
  refine .moved (Nat.le_succ _) ?_ ?_ (.refl _)
  · simp only [finalsInTransit, laneFinals_postPartial]
  · intro r' member
    simp only [partialsInTransit, List.mem_append] at member ⊢
    obtain queued | posted := member
    · exact .inl (.inl queued)
    · obtain old | rfl := mem_lossy_postPartial posted
      · exact .inl (.inr old)
      · exact .inr new

/-- The partial that the monitor takes, and those it leaves. -/
theorem partialsInTransit_front {r : AsrResult} {rest : List AsrResult}
    (front : w.listen.partials = r :: rest) : r ∈ partialsInTransit w.listen w.bus ∧
      ∀ r' ∈ rest ++ w.bus.lossy, r' ∈ partialsInTransit w.listen w.bus := by
  simp only [partialsInTransit, front, List.cons_append]
  exact ⟨List.mem_cons_self, fun r' member => .tail r member⟩

/-- What a section of another task does to recognised speech. -/
theorem callMove_speech (h : callMove cfg op w m = some w') : SpeechStep w w' := by
  cases callMove_effect h with
  | control c asks => exact .of_post (control_ne_asrFinal asks) rfl rfl rfl rfl rfl rfl
  | cancelAll => exact cancelMain_speech op rfl rfl rfl (.refl _)
  | deliverFinal lane | deliverEnd lane | deliverHangup lane => exact deliver_speech op lane
  | deliverControl lane asks =>
      have finals := finalsInTransit_tail lane (control_ne_asrFinal asks)
      exact terminate_speech op rfl finals rfl (.refl _)
  | deliverPartial lane =>
      refine .of_eq rfl rfl ?_ (.refl _)
      simp [partialsInTransit, lane]
  | asrFinal _ _ => exact asrFinal_speech
  | asrPartial _ _ => exact asrPartial_speech _ (Nat.le_refl _)
  | asrPumpEnd _ | evPumpHangup _ _ _ => exact .of_post (by simp) rfl rfl rfl rfl rfl rfl
  | monitorSkips _ front _ =>
      have fewer := (partialsInTransit_front front).2
      exact .moved (Nat.le_refl _) rfl (fun r' member => .inl (fewer r' member)) (.refl _)
  | monitorMeasures running front _ _ _ _ =>
      obtain ⟨here, fewer⟩ := partialsInTransit_front front
      exact .evaluated _ running here rfl rfl fewer (.refl _)
  | monitorTriggers running front _ _ _ _ =>
      obtain ⟨here, fewer⟩ := partialsInTransit_front front
      exact .evaluated _ running here rfl rfl fewer ((Unspoken.refl _).mark rfl)
  | @asrGet win r rest window front waiting =>
      refine .of_eq rfl ?_ rfl (.refl _)
      obtain ⟨asrGet, hangupWait, started⟩ := win
      obtain rfl := waiting
      simp [finalsInTransit, window, front, AwaitUser.held]
  | @hangupWait win window _ _ =>
      obtain ⟨asrGet, hangupWait, started⟩ := win
      refine .of_eq rfl ?_ rfl (.refl _)
      cases asrGet <;> simp [finalsInTransit, window, AwaitUser.held]
  | producerDropsJob _ _ _ => exact .of_eq rfl rfl rfl ((Unspoken.refl _).mark rfl)
  | finalize stepped =>
      refine .of_eq rfl rfl rfl ?_
      obtain same | same := finalizeStep_marks stepped
      · exact .of_eq same
      · exact same ▸ (Unspoken.refl _).mark rfl
  | _ => exact .of_eq rfl rfl rfl (.refl _)

theorem ReplyFrame.unspoken (frame : ReplyFrame w w') : Unspoken w.history w'.history := by
  have none := Unspoken.refl w.history
  exact frame.noted none (none.mark rfl) (none.mark rfl) (none.mark rfl)

end Engine
end IsalesEngine
