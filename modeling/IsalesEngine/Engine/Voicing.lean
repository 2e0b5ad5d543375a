import IsalesEngine.Engine.Ledger

/-!
A streamed reply and the ledger. While a reply is in progress the assertion on
the ledger comes with the stream that speaks and whether it was cut, and the
rule of `_play_streaming` is a triple: before the reply, after a reply that was
played in full, and after one that was cut.
-/
namespace IsalesEngine
open Asyncio Asyncio.Coro

/-- A reply is in progress, and `flag` says of which stream and whether it was cut. -/
structure Voicing (P : Ledger → Prop) (own : List Nat) (revoices : Bool)
    (flag : Option (Nat × Bool) → Prop) (w : World) : Prop extends Booked P own revoices w where
  flag : flag w.speaking

namespace Voicing
variable {cfg : RuntimeConfig} {allow : Op → Action sig Move → World → Bool}
  {A P T R : Ledger → Prop} {own : List Nat} {revoices : Bool}
  {flag : Option (Nat × Bool) → Prop} {w w' : World} {i : Nat}

theorem unchanged (here : Voicing P own revoices flag w) (ledger : w'.ledger = w.ledger)
    (voices : w'.voices = w.voices) (speaking : w'.speaking = w.speaking) :
    Voicing P own revoices flag w' := ⟨here.toBooked.unchanged ledger voices, speaking ▸ here.flag⟩

theorem stable : (allowing cfg allow).Stable (Voicing P own revoices flag) where
  move here moved := ⟨Booked.stable.move here.toBooked moved,
    ((Engine.speaking_stable flag).restrict allow).move here.flag moved⟩
  reply here replied := ⟨Booked.stable.reply here.toBooked replied,
    ((Engine.speaking_stable flag).restrict allow).reply here.flag replied⟩

theorem speaking_map {f : Pipe → Pipe}
    (kept : ∀ p, (f p).fullyPlayed = p.fullyPlayed ∧ (f p).stream = p.stream) :
    World.speaking { w with pipe := w.pipe.map f } = w.speaking := by
  cases pipe : w.pipe with
  | none => simp [World.speaking, pipe]
  | some p => simp [World.speaking, pipe, kept p]

section
variable (sound : ∀ L, P L → A L)
include sound

/-- The `finally` block of a reply. -/
theorem finishFrame (filler : Bool) :
    FinishFrame (allowing cfg allow) (fun _ w => A w.ledger) (fun w => A w.ledger)
      (Voicing P own revoices flag) filler := by
  have waits : Waits (allowing cfg allow) (fun _ w => A w.ledger) (fun w => A w.ledger)
      (Voicing P own revoices flag) :=
    .of_stable stable (fun _ _ here => sound _ here.ledger) fun _ here => sound _ here.ledger
  have fills : ∀ {w : World} {f : Filler}, Voicing P own revoices flag w →
      Voicing P own revoices flag { w with filler := f } := fun here =>
    here.unchanged rfl rfl rfl
  exact {
    toWaits := waits
    stream := fun _ turnId restructure here =>
      here.unchanged rfl (World.voices_setStream _ turnId restructure) rfl
    tasks := fun here => here.unchanged rfl rfl rfl
    pipe := fun kept here => here.unchanged rfl rfl (speaking_map kept)
    capture := fun _ _ here => here.unchanged (World.ledger_note _ fun _ => rfl) rfl rfl
    reapGate := fun _ => waits.reapGate fills
    stop := fun _ => waits.stop fills }

/-- The steps with which a reply may end that was not cut: nothing is left to say, or a playback
has failed. -/
def Finishes (allow : Op → Action sig Move → World → Bool) (w : World) : Prop :=
  allow .jobGet (.reply .jobGet (.ok none)) w = true ∨
    ∃ e, allow .playback (.reply .playback (.error (.error e))) w = true

/-- A reply that is over: played in full, or cut. -/
def Ended (T R : Ledger → Prop) (own : List Nat) (revoices : Bool) (i : Nat) (w : World) : Prop :=
  Voicing T own revoices (· = some (i, true)) w ∨ Voicing R own revoices (· = some (i, false)) w

/-- The rule of one sentence. -/
theorem playJob_wp (sentence : ∀ L, P L → P (L.mark (.playback .sentence)))
    (cut : ∀ L job, P L → R (L.mark (.cut job)))
    (whole : ∀ {w}, Voicing P own revoices (· = some (i, true)) w → Finishes allow w →
      T w.ledger) {job : Text} (here : Voicing P own revoices (· = some (i, true)) w) :
    (PlayStreaming.playJob i job).wp (allowing cfg allow) (fun _ w => A w.ledger)
      (outcomes (fun w => A w.ledger) (fun w => A w.ledger) fun goOn => if goOn
        then Voicing P own revoices (· = some (i, true)) else Ended T R own revoices i) w := by
  have started : Voicing P own revoices (· = some (i, true)) (w.startPlay .sentence job true) :=
    ⟨here.toBooked.turn (sentence _ here.ledger) rfl rfl, here.flag⟩
  refine PlayStreaming.playJob_wp (F := Voicing T own revoices (· = some (i, true)))
    (T := Voicing P own revoices (· = some (i, true)))
    (S := Voicing P own revoices (· = some (i, true)))
    (playChunks_wp (R := outcomes (Voicing P own revoices (· = some (i, true)))
      (Voicing T own revoices (· = some (i, true)))
      fun _ => Voicing P own revoices (· = some (i, true))) ?_ ?_ ?_ ?_ ?_) ?_ ?_ ?_
  · refine wp_wait.mpr ⟨sound _ started.ledger, fun w₁ w₂ r steps replied => ?_⟩
    have before := stable.steps steps started
    have after := stable.reply before replied
    match r with
    | .ok _ | .error .cancelled => exact after
    | .error (.error e) =>
        refine ⟨after.toBooked.imp fun _ => ?_, after.flag⟩
        rw [Engine.reply_ledger replied]
        exact whole before (.inr ⟨e, (Machine.restrict_reply_some replied).1⟩)
  · intro w₁ playing
    exact playing.unchanged rfl rfl rfl
  · intro w₁ playing _
    exact playing.unchanged rfl rfl rfl
  · intro w₁ playing _
    exact sound w₁.ledger playing.ledger
  · intro e w₁ failed
    exact failed.unchanged rfl rfl rfl
  · intro w₁ playing
    refine playing.unchanged (World.ledger_note _ fun _ => rfl) rfl ?_
    exact speaking_map (w := w₁) fun _ => ⟨rfl, rfl⟩
  · intro w₁ playing
    refine .inr ⟨playing.toBooked.turn (cut _ _ playing.ledger) rfl rfl, ?_⟩
    obtain ⟨p, pipe, same⟩ := Option.map_eq_some_iff.mp playing.flag
    simp [World.speaking, pipe, (Prod.mk.inj same).1]
  · intro w₁ error failed
    exact .inl (failed.unchanged rfl (World.voices_setStream _ rfl rfl) rfl)

theorem consumeRule (sentence : ∀ L, P L → P (L.mark (.playback .sentence)))
    (cut : ∀ L job, P L → R (L.mark (.cut job)))
    (whole : ∀ {w}, Voicing P own revoices (· = some (i, true)) w → Finishes allow w →
      T w.ledger) (filler : Bool) :
    ConsumerRule (allowing cfg allow) (fun _ w => A w.ledger) (fun w => A w.ledger)
      (fun w => A w.ledger) i filler (Voicing P own revoices (· = some (i, true)))
      (fun _ => Voicing P own revoices (· = some (i, true))) (Ended T R own revoices i) where
  exhausted here := wp_wait.mpr ⟨sound _ here.ledger, fun _ _ _ _ replied =>
    nomatch (Machine.restrict_reply_some (M := engine cfg) replied).2⟩
  get := by
    intro w here
    refine wp_wait.mpr ⟨sound _ here.ledger, fun w₁ w₂ r steps replied => ?_⟩
    have before := stable.steps steps here
    have after := stable.reply before replied
    match r with
    | .ok none =>
        refine .inl ⟨after.toBooked.imp fun _ => ?_, after.flag⟩
        rw [Engine.reply_ledger replied]
        exact whole before (.inl (Machine.restrict_reply_some replied).1)
    | .ok (some job) => exact after.unchanged rfl rfl (speaking_map fun _ => ⟨rfl, rfl⟩)
    | .error .cancelled | .error (.error e) => exact sound _ after.ledger
  reapGate own _ := (finishFrame sound filler).reapGate own
  stop own _ := (finishFrame sound filler).stop own
  failed _ here := sound _ here.ledger
  play here := playJob_wp sound sentence cut whole here

end

theorem finish_wp (wholly : ∀ L, T L → A L) (partly : ∀ L, R L → A L) {filler : Bool}
    (ended : Ended T R own revoices i w) :
    (PlayStreaming.finish i filler).wp (allowing cfg allow) (fun _ w => A w.ledger)
      (finallyThen (.ok ()) (outcomes (fun w => A w.ledger) (fun w => A w.ledger)
        fun _ => Ended T R own revoices i)) w := by
  obtain whole | cut := ended
  · refine ((finishFrame wholly filler).finish i w whole).mono fun r w' kept => ?_
    match r with
    | .ok _ => exact .inl kept
    | .error .cancelled => exact kept
    | .error (.error _) => exact wholly _ kept.ledger
  · refine ((finishFrame partly filler).finish i w cut).mono fun r w' kept => ?_
    match r with
    | .ok _ => exact .inr kept
    | .error .cancelled => exact kept
    | .error (.error _) => exact partly _ kept.ledger

/-- The `finally` block when the reply ended with an exception or a cancel. -/
theorem unwind_wp {α : Type} {e : Exc Err} {Q : Reply α → World → Prop} {filler : Bool}
    (here : A w.ledger) (after : ∀ e w, A w.ledger → Q (.error e) w) :
    (PlayStreaming.finish i filler).wp (allowing cfg allow) (fun _ w => A w.ledger)
      (finallyThen (.error e) Q) w := by
  have kept : Keeps (allowing cfg allow) (fun _ w => A w.ledger) (fun w => A w.ledger)
      (Voicing A [] false fun _ => True) (PlayStreaming.finish i filler) :=
    (finishFrame (fun _ h => h) filler).finish i
  refine (kept w ⟨⟨here, nofun⟩, trivial⟩).mono fun r w' kept => ?_
  match r with
  | .ok _ => exact after e w' kept.ledger
  | .error .cancelled => exact after .cancelled w' kept
  | .error (.error e) => exact after (.error e) w' kept.ledger

/-- The rule of a streamed reply: it was played in full, or it was cut. -/
theorem playStreaming_wp (sound : ∀ L, P L → A L) (wholly : ∀ L, T L → A L)
    (partly : ∀ L, R L → A L) (sentence : ∀ L, P L → P (L.mark (.playback .sentence)))
    (cut : ∀ L job, P L → R (L.mark (.cut job)))
    (whole : ∀ {w}, Voicing P own revoices (· = some (i, true)) w → Finishes allow w →
      T w.ledger) {filler : Bool} {delay start fuel : Nat} (here : Booked P own revoices w) :
    (playStreaming i filler delay start fuel).wp (allowing cfg allow)
      (fun _ w => A w.ledger) (outcomes (fun w => A w.ledger) (fun w => A w.ledger)
        fun r => if r.2 then Booked T own revoices else Booked R own revoices) w := by
  have begins : (PlayStreaming.begin i filler delay start).wp (allowing cfg allow)
      (fun _ w => A w.ledger) (outcomes (fun w => A w.ledger) (fun w => A w.ledger)
        fun _ => Voicing P own revoices (· = some (i, true))) w := by
    refine wp_update_bind.mpr ?_
    cases filler with
    | true | false => exact ⟨here.unchanged rfl rfl, rfl⟩
  have accounted : ∀ (e : Exc Err) (w : World), A w.ledger →
      outcomes (fun w => A w.ledger) (fun w => A w.ledger)
        (fun (_ : Unit) => Ended T R own revoices i) (.error e : Reply Unit) w := by
    intro e w here
    cases e with
    | cancelled | error e => exact here
  refine wp.seq begins fun _ w₁ speaking => ?_
  refine wp.seq (L := fun _ => Ended T R own revoices i) ?_ fun _ w₂ ended => ?_
  · refine wp.andFinally ((consumeRule sound sentence cut whole filler).consume_wp fuel id speaking)
      fun r w₂ post => ?_
    match r with
    | .ok _ => exact finish_wp wholly partly post
    | .error .cancelled | .error (.error _) => exact unwind_wp post accounted
  · obtain whole | cut := ended
    · obtain ⟨p, pipe, same⟩ := Option.map_eq_some_iff.mp whole.flag
      have played : w₂.pipe.all Pipe.fullyPlayed = true := by simp [pipe, (Prod.mk.inj same).2]
      show (if w₂.pipe.all Pipe.fullyPlayed then Booked T own revoices
        else Booked R own revoices) { w₂ with pipe := none }
      rw [if_pos played]
      exact whole.toBooked.unchanged rfl rfl
    · obtain ⟨p, pipe, same⟩ := Option.map_eq_some_iff.mp cut.flag
      have played : ¬ w₂.pipe.all Pipe.fullyPlayed = true := by simp [pipe, (Prod.mk.inj same).2]
      show (if w₂.pipe.all Pipe.fullyPlayed then Booked T own revoices
        else Booked R own revoices) { w₂ with pipe := none }
      rw [if_neg played]
      exact cut.toBooked.unchanged rfl rfl

end Voicing
end IsalesEngine
