import Mathlib.Analysis.Real.Sqrt
import IsalesEngine.Asyncio.System
import IsalesEngine.Realtime.NoiseGate
import IsalesEngine.Sustained

/-!
What the noise gate mutes. The silence it has added up is the duration of a run of
frames at the end of what was heard; with `audioop` these are quiet frames, so a
frame is muted only after sustained quiet. Without it every frame counts as quiet,
the run is everything heard so far, and beyond the hangover all sound is muted.
-/
namespace IsalesEngine.Inbound
open Asyncio

variable {ρ : Type} {cfg : Settings ρ} {pcm : Pcm} {before : List Pcm}

/-- The root mean square of the samples. -/
noncomputable def trueRms (pcm : Pcm) : ℝ := √((sumSquares pcm : ℝ) / pcm.length)

def Quiet (cfg : Settings ρ) (pcm : Pcm) : Prop := trueRms pcm < cfg.gateRms

/-- The frames the loop takes. -/
def heard (cfg : Settings ρ) (frames : List PcmFrame) : List Pcm :=
  (frames.filter (accepts cfg)).map PcmFrame.pcm

def IsMono16k (frame : PcmFrame) : Prop := frame.sampleRate = targetRate ∧ frame.channels = 1

theorem frameMs_eq (pcm : Pcm) : frameMs pcm = pcm.length / 16 := by
  rw [frameMs, targetRate]
  push_cast
  ring

theorem frameMs_nonneg (pcm : Pcm) : 0 ≤ frameMs pcm := by
  rw [frameMs_eq]
  positivity

/-- Rounding the level down does not take it below a whole threshold it reaches. -/
theorem le_rms_iff (sound : pcm ≠ []) {threshold : Int} (positive : 0 < threshold) :
    threshold ≤ rms pcm ↔ (threshold : ℝ) ≤ trueRms pcm := by
  obtain ⟨level, rfl⟩ := Int.eq_ofNat_of_zero_le positive.le
  have samples : 0 < pcm.length := List.length_pos_iff.mpr sound
  have samples' : (0 : ℝ) < pcm.length := Nat.cast_pos.mpr samples
  have threshold' : (0 : ℝ) < ((level : Int) : ℝ) := Int.cast_pos.mpr positive
  rw [trueRms, Real.le_sqrt' threshold', le_div_iff₀ samples', rms, Int.ofNat_le, Nat.le_sqrt',
    Nat.le_div_iff_mul_le samples]
  norm_cast

/-- The level the gate sees tells quiet frames from others, if it is measured. -/
theorem finalRms_lt_iff (available : cfg.audioop.isSome = true) (sound : pcm ≠ [])
    (on : 0 < cfg.gateRms) : cfg.gateRms ≤ finalRms cfg pcm ↔ ¬ Quiet cfg pcm := by
  rw [finalRms, if_pos ⟨available, sound⟩, le_rms_iff sound on, Quiet, not_lt]

/-- A frame without samples is quiet. -/
theorem quiet_nil (on : 0 < cfg.gateRms) : Quiet cfg [] := by
  have none : trueRms [] = 0 := by simp [trueRms, sumSquares]
  rw [Quiet, none]
  exact_mod_cast on

/-- The silence the gate has added up behind some frames. -/
def silenceAfter (cfg : Settings ρ) (history : List Pcm) : ℚ :=
  history.foldl (fun silenceMs pcm => (gate cfg silenceMs pcm).2) 0

theorem silenceAfter_concat (cfg : Settings ρ) (before : List Pcm) (pcm : Pcm) :
    silenceAfter cfg (before ++ [pcm]) = (gate cfg (silenceAfter cfg before) pcm).2 := by
  rw [silenceAfter, List.foldl_append]
  rfl

theorem gate_off (off : cfg.gateRms ≤ 0) (silenceMs : ℚ) :
    gate cfg silenceMs pcm = (pcm, silenceMs) := by
  rw [gate, if_neg fun on => absurd on.1 (not_lt.mpr off)]

/-- A frame below the threshold prolongs the silence, and is muted beyond the hangover. -/
theorem gate_below (on : 0 < cfg.gateRms)
    (below : pcm ≠ [] → ¬ cfg.gateRms ≤ finalRms cfg pcm) (silenceMs : ℚ) : gate cfg silenceMs pcm =
      (if cfg.gateHangoverMs < silenceMs + frameMs pcm then digitalSilence pcm else pcm,
        silenceMs + frameMs pcm) := by
  by_cases empty : pcm = []
  · subst empty
    simp [gate, digitalSilence, frameMs_eq]
  · rw [gate, if_pos ⟨on, empty⟩, if_neg (below empty)]
    simp only
    split <;> rfl

/-- Without a level every frame is below it. -/
theorem gate_deaf (missing : cfg.audioop = none) (on : 0 < cfg.gateRms) (silenceMs : ℚ) :
    gate cfg silenceMs pcm =
      (if cfg.gateHangoverMs < silenceMs + frameMs pcm then digitalSilence pcm else pcm,
        silenceMs + frameMs pcm) :=
  gate_below on (fun _ => by simpa [finalRms, missing] using on) silenceMs

section
variable (available : cfg.audioop.isSome = true) (on : 0 < cfg.gateRms)
include available on

theorem gate_loud (loud : ¬ Quiet cfg pcm) (silenceMs : ℚ) : gate cfg silenceMs pcm = (pcm, 0) := by
  have sound : pcm ≠ [] := fun empty => loud (empty ▸ quiet_nil on)
  rw [gate, if_pos ⟨on, sound⟩, if_pos ((finalRms_lt_iff available sound on).mpr loud)]

/-- A quiet frame prolongs the silence, and is muted if that exceeds the hangover. -/
theorem gate_quiet (quiet : Quiet cfg pcm) (silenceMs : ℚ) : gate cfg silenceMs pcm =
      (if cfg.gateHangoverMs < silenceMs + frameMs pcm then digitalSilence pcm else pcm,
        silenceMs + frameMs pcm) := by
  refine gate_below on (fun sound => ?_) silenceMs
  rw [finalRms_lt_iff available sound on]
  exact not_not.mpr quiet

/-- With a level the silence is that of a quiet run. -/
theorem silenceAfter_quiet (history : List Pcm) :
    ∃ run, run <:+ history ∧ (∀ pcm ∈ run, Quiet cfg pcm) ∧
      silenceAfter cfg history = Sustained.total frameMs run := by
  induction history using List.reverseRecOn with
  | nil => exact ⟨[], List.suffix_rfl, nofun, rfl⟩
  | append_singleton before pcm ih =>
      obtain ⟨run, ends, quiet, silence⟩ := ih
      rw [silenceAfter_concat]
      by_cases soft : Quiet cfg pcm
      · refine ⟨run ++ [pcm], List.suffix_append_self_iff.mpr ends, ?_, ?_⟩
        · exact List.forall_mem_append.mpr ⟨quiet, by simpa using soft⟩
        · rw [gate_quiet available on soft, silence, Sustained.total_concat]
      · refine ⟨[], List.nil_suffix, nofun, ?_⟩
        rw [gate_loud available on soft]
        rfl

end

theorem silenceAfter_deaf (missing : cfg.audioop = none) (on : 0 < cfg.gateRms)
    (history : List Pcm) : silenceAfter cfg history = Sustained.total frameMs history := by
  induction history using List.reverseRecOn with
  | nil => rfl
  | append_singleton before pcm ih =>
      rw [silenceAfter_concat, gate_deaf missing on, ih, Sustained.total_concat]

/-- Behind `before`, recognition gets the frame, or silence after sustained quiet. -/
def Faithful (cfg : Settings ρ) (before : List Pcm) (pcm out : Pcm) : Prop :=
  out = pcm ∨ out = digitalSilence pcm ∧
    Sustained.Holds (Quiet cfg) frameMs cfg.gateHangoverMs (before ++ [pcm])

theorem faithful_of_available (available : cfg.audioop.isSome = true) (before : List Pcm)
    (pcm : Pcm) : Faithful cfg before pcm (gate cfg (silenceAfter cfg before) pcm).1 := by
  by_cases on : 0 < cfg.gateRms
  · by_cases quiet : Quiet cfg pcm
    · rw [gate_quiet available on quiet]
      by_cases long : cfg.gateHangoverMs < silenceAfter cfg before + frameMs pcm
      · rw [if_pos long]
        obtain ⟨run, ends, all, silence⟩ := silenceAfter_quiet available on before
        refine Or.inr ⟨rfl, run ++ [pcm], List.suffix_append_self_iff.mpr ends, by simp, ?_, ?_⟩
        · exact List.forall_mem_append.mpr ⟨all, by simpa using quiet⟩
        · rw [Sustained.total_concat, ← silence]
          exact long
      · rw [if_neg long]
        exact Or.inl rfl
    · rw [gate_loud available on quiet]
      exact Or.inl rfl
  · rw [gate_off (not_lt.mp on)]
    exact Or.inl rfl

/-- Without a level, a frame with sound gets through exactly if it comes early, and it should get
through exactly if a loud frame is recent. -/
theorem faithful_iff_of_missing (missing : cfg.audioop = none) (on : 0 < cfg.gateRms)
    (before : List Pcm) (pcm : Pcm) :
    Faithful cfg before pcm (gate cfg (silenceAfter cfg before) pcm).1 ↔ (pcm ≠ digitalSilence pcm →
        cfg.gateHangoverMs < Sustained.total frameMs (before ++ [pcm]) →
        ¬ Sustained.Recent (Quiet cfg) frameMs cfg.gateHangoverMs (before ++ [pcm])) := by
  rw [gate_deaf missing on, silenceAfter_deaf missing on, ← Sustained.total_concat]
  by_cases long : cfg.gateHangoverMs < Sustained.total frameMs (before ++ [pcm])
  · have sustained := Sustained.holds_iff_not_recent (p := Quiet cfg) frameMs_nonneg
      (List.append_ne_nil_of_right_ne_nil before (List.cons_ne_nil pcm [])) long
    rw [if_pos long]
    constructor
    · rintro (same | ⟨-, holds⟩) sound -
      · exact absurd same.symm sound
      · exact sustained.mp holds
    · intro early
      by_cases silent : pcm = digitalSilence pcm
      · exact Or.inl silent.symm
      · exact Or.inr ⟨rfl, sustained.mpr (early silent long)⟩
  · rw [if_neg long]
    exact iff_of_true (Or.inl rfl) fun _ beyond => absurd beyond long

/-- The inbound lanes as functions of what was heard. -/
structure Forked (cfg : Settings ρ) (frames : List PcmFrame) (s : Lanes ρ) : Prop where
  vad : s.vadQ = heard cfg frames
  silence : s.gateSilenceMs = silenceAfter cfg (heard cfg frames)
  length : s.inboundQ.length = (heard cfg frames).length
  asr : ∀ (k : Nat) (pcm : Pcm), (heard cfg frames)[k]? = some pcm →
    s.inboundQ[k]? = some (gate cfg (silenceAfter cfg ((heard cfg frames).take k)) pcm).1

theorem normalize_mono {frame : PcmFrame} (mono : IsMono16k frame) (state : Option ρ) :
    normalize cfg state frame = (frame.pcm, state) := by
  unfold normalize
  split
  · rfl
  · simp [mono.1, mono.2]

theorem heard_concat (cfg : Settings ρ) (frames : List PcmFrame) (frame : PcmFrame) :
    heard cfg (frames ++ [frame]) =
      if accepts cfg frame then heard cfg frames ++ [frame.pcm] else heard cfg frames := by
  rw [heard, List.filter_append, List.map_append]
  by_cases taken : accepts cfg frame = true
  · simp [taken, heard]
  · simp [taken, heard]

theorem Forked.receive {frames : List PcmFrame} {s : Lanes ρ} {frame : PcmFrame}
    (forked : Forked cfg frames s) (mono : IsMono16k frame) :
    Forked cfg (frames ++ [frame]) (receive cfg s frame) := by
  obtain ⟨vad, silence, length, asr⟩ := forked
  have history := heard_concat cfg frames frame
  by_cases taken : accepts cfg frame = true
  · rw [if_pos taken] at history
    simp only [Inbound.receive, if_pos taken, normalize_mono mono]
    refine ⟨?_, ?_, ?_, ?_⟩
    · rw [history, vad]
    · rw [history, silenceAfter_concat, silence]
    · rw [history, List.length_append, List.length_append, length]
      rfl
    · rw [history]
      intro k pcm here
      obtain earlier | ⟨rfl, rfl⟩ := getElem?_concat_iff.mp here
      · have inside : k < (heard cfg frames).length := (List.getElem?_eq_some_iff.mp earlier).1
        rw [List.take_append_of_le_length inside.le]
        exact getElem?_concat_iff.mpr (Or.inl (asr k pcm earlier))
      · rw [List.take_left, ← silence]
        exact getElem?_concat_iff.mpr (Or.inr ⟨length.symm, rfl⟩)
  · rw [if_neg taken] at history
    rw [Inbound.receive, if_neg taken]
    exact ⟨history ▸ vad, history ▸ silence, history ▸ length, history ▸ asr⟩

theorem forked_inboundLoop (cfg : Settings ρ) (frames : List PcmFrame)
    (mono : ∀ frame ∈ frames, IsMono16k frame) : Forked cfg frames (inboundLoop cfg frames) := by
  induction frames using List.reverseRecOn with
  | nil => exact ⟨rfl, rfl, rfl, nofun⟩
  | append_singleton frames frame ih =>
      obtain ⟨monos, mono⟩ := List.forall_mem_append.mp mono
      rw [inboundLoop, List.foldl_append]
      exact (ih monos).receive (mono frame (List.mem_singleton.mpr rfl))

/-- Each frame taken puts one item on each lane: itself for voice activity detection, and for
recognition itself, or silence of its length after sustained quiet. -/
structure MutesOnlySilence (cfg : Settings ρ) (frames : List PcmFrame) : Prop where
  vad : (inboundLoop cfg frames).vadQ = heard cfg frames
  length : (inboundLoop cfg frames).inboundQ.length = (heard cfg frames).length
  asr : ∀ (k : Nat) (pcm : Pcm), (heard cfg frames)[k]? = some pcm →
    ∃ out, (inboundLoop cfg frames).inboundQ[k]? = some out ∧
      (out = pcm ∨ out = digitalSilence pcm ∧ Sustained.Holds (Quiet cfg) frameMs
        cfg.gateHangoverMs ((heard cfg frames).take (k + 1)))

theorem mutesOnlySilence_iff (cfg : Settings ρ) (frames : List PcmFrame)
    (mono : ∀ frame ∈ frames, IsMono16k frame) :
    MutesOnlySilence cfg frames ↔ ∀ (k : Nat) (pcm : Pcm), (heard cfg frames)[k]? = some pcm →
      Faithful cfg ((heard cfg frames).take k) pcm
        (gate cfg (silenceAfter cfg ((heard cfg frames).take k)) pcm).1 := by
  obtain ⟨vad, _, length, asr⟩ := forked_inboundLoop cfg frames mono
  have upTo {k : Nat} {pcm : Pcm} (here : (heard cfg frames)[k]? = some pcm) :
      (heard cfg frames).take (k + 1) = (heard cfg frames).take k ++ [pcm] := by
    rw [List.take_add_one, here]
    rfl
  constructor
  · intro mutes k pcm here
    obtain ⟨out, lane, faithful⟩ := mutes.asr k pcm here
    obtain rfl := Option.some.inj ((asr k pcm here).symm.trans lane)
    rw [upTo here] at faithful
    exact faithful
  · intro faithful
    refine ⟨vad, length, fun k pcm here => ⟨_, asr k pcm here, ?_⟩⟩
    rw [upTo here]
    exact faithful k pcm here

end IsalesEngine.Inbound

namespace IsalesEngine.Guarantees
open Inbound

/-- For every sequence of frames and all settings, the gate mutes only sustained silence if and only
if `audioop` is available, or the gate is off, or no frame with sound in it that comes after more
than the hangover is loud or has a loud frame within the hangover before it. -/
theorem noise_gate_faithful_iff {ρ : Type} (cfg : Settings ρ) (frames : List PcmFrame)
    (mono : ∀ frame ∈ frames, IsMono16k frame) :
    MutesOnlySilence cfg frames ↔
      cfg.audioop.isSome = true ∨ cfg.gateRms ≤ 0 ∨
        ∀ (k : Nat) (pcm : Pcm), (heard cfg frames)[k]? = some pcm → pcm ≠ digitalSilence pcm →
          cfg.gateHangoverMs < Sustained.total frameMs ((heard cfg frames).take (k + 1)) →
          ¬ Sustained.Recent (Quiet cfg) frameMs cfg.gateHangoverMs
            ((heard cfg frames).take (k + 1)) := by
  rw [mutesOnlySilence_iff cfg frames mono]
  cases module : cfg.audioop with
  | some audioop =>
      have available : cfg.audioop.isSome = true := by rw [module]; rfl
      exact iff_of_true (fun k pcm _ => faithful_of_available available _ pcm) (Or.inl rfl)
  | none =>
      by_cases on : 0 < cfg.gateRms
      · simp only [Option.isSome_none, Bool.false_eq_true, not_le.mpr on, false_or]
        refine forall_congr' fun k => forall_congr' fun pcm => imp_congr_right fun here => ?_
        rw [faithful_iff_of_missing module on, List.take_add_one, here]
        rfl
      · have off : cfg.gateRms ≤ 0 := not_lt.mp on
        refine iff_of_true (fun k pcm _ => Or.inl ?_) (Or.inr (Or.inl off))
        rw [gate_off off]

/-- Speech, a pause of more than the hangover and speech again, with `audioop`: nothing is muted
wrongly. -/
theorem measured_speech_kept :
    let frame (n : Nat) (level : Int16) : PcmFrame := ⟨"", List.replicate n level, 16000, 1⟩
    MutesOnlySilence (⟨some ⟨id, fun _ _ _ pcm => (pcm, ())⟩, "edge", 1500, 300⟩ : Settings Unit)
      [frame 160 2000, frame 4800 100, frame 160 100, frame 160 2000] := by
  intro frame
  have mono (n : Nat) (level : Int16) : IsMono16k (frame n level) := ⟨rfl, rfl⟩
  exact (noise_gate_faithful_iff _ _ (by simp [mono])).mpr (Or.inl rfl)

theorem loud_replicate {ρ : Type} {cfg : Settings ρ} (threshold : cfg.gateRms = 1500) (n : Nat) :
    ¬ Quiet cfg (List.replicate (n + 1) 2000) := by
  have level : rms (List.replicate (n + 1) 2000) = 2000 := by
    have squares : sumSquares (List.replicate (n + 1) 2000) = (n + 1) * 2000 ^ 2 := by
      simp [sumSquares]
    rw [rms, squares, List.length_replicate, Nat.mul_div_cancel_left _ (Nat.succ_pos n),
      Nat.sqrt_eq']
  have sound : List.replicate (n + 1) (2000 : Int16) ≠ [] := by simp
  rw [Quiet, threshold, not_lt, ← le_rms_iff sound (by norm_num), level]
  norm_num

/-- The same speech without `audioop`, at the default settings, is muted. -/
theorem unmeasured_speech_muted :
    ¬ MutesOnlySilence (⟨none, "edge", 1500, 300⟩ : Settings Unit)
      [⟨"", List.replicate 4801 2000, 16000, 1⟩] := by
  rw [mutesOnlySilence_iff _ _ (List.forall_mem_singleton.mpr ⟨rfl, rfl⟩)]
  intro faithful
  have first := faithful 0 (List.replicate 4801 2000) rfl
  rw [List.take_zero, faithful_iff_of_missing rfl (by norm_num)] at first
  refine first ?_ ?_ ⟨_, [], List.suffix_rfl, loud_replicate rfl 4800, Or.inl rfl⟩
  · rw [digitalSilence, List.length_replicate]
    exact fun same => absurd (List.replicate_right_injective (by norm_num) same) (by decide)
  · rw [Sustained.total_concat, frameMs_eq, List.length_replicate]
    norm_num [Sustained.total]

end IsalesEngine.Guarantees
