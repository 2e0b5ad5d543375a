import Mathlib.Algebra.Ring.Nat
import Mathlib.Data.Rat.Defs
import Mathlib.Data.Nat.Sqrt

/-!
The inbound loop. Every frame from the edge is brought to one channel of sixteen
kilohertz and goes to two lanes: as it is to voice activity detection, and through
a noise gate to recognition. The gate adds up the time for which the level stayed
below its threshold and replaces frames by digital silence beyond a hangover. Level
and conversion come from `audioop`; without that module frames are not converted
and their level counts as zero. Sums of squares and durations are exact, as they
are in the floating point numbers of the source for frames up to a minute. The raw
dump and the log lines are left out.
-/
namespace IsalesEngine.Inbound

/-- The samples of a frame, of sixteen bits each; with several channels they are interleaved. -/
abbrev Pcm : Type := List Int16

/-- The conversions of the module `audioop`; `ρ` is the state that `ratecv` hands on. -/
structure Audioop (ρ : Type) where
  tomono : Pcm → Pcm
  ratecv : (inrate outrate : Nat) → Option ρ → Pcm → Pcm × ρ

structure PcmFrame where
  senderUid : String
  pcm : Pcm
  sampleRate : Nat
  channels : Nat
  deriving DecidableEq, Repr

/-- What the loop reads: the module if it can be imported, the edge's uid and the gate's settings,
of which a threshold of zero or less turns the gate off. -/
structure Settings (ρ : Type) where
  audioop : Option (Audioop ρ)
  edgeUid : String
  gateRms : Int := 1500
  gateHangoverMs : ℚ := 300

/-- The state of the loop, with everything it has put on the two lanes. -/
structure Lanes (ρ : Type) where
  ratecvState : Option ρ := none
  gateSilenceMs : ℚ := 0
  inboundQ : List Pcm := []
  vadQ : List Pcm := []

def targetRate : Nat := 16000

def sumSquares (pcm : Pcm) : Nat := (pcm.map fun sample => sample.toInt.natAbs ^ 2).sum

/-- `audioop.rms`. -/
def rms (pcm : Pcm) : Nat := (sumSquares pcm / pcm.length).sqrt

/-- Zeros in place of a frame. -/
def digitalSilence (pcm : Pcm) : Pcm := List.replicate pcm.length 0

/-- A frame's duration, two bytes a sample. -/
def frameMs (pcm : Pcm) : ℚ := ((2 * pcm.length : Nat) / 2 : ℚ) / ((targetRate : ℚ) / 1000)

variable {ρ : Type}

/-- Mixed frames have no uid; of the others only the edge's are taken. -/
def accepts (cfg : Settings ρ) (frame : PcmFrame) : Bool :=
  !(frame.senderUid != "" && frame.senderUid != cfg.edgeUid)

/-- One channel, and the target rate. -/
def normalize (cfg : Settings ρ) (state : Option ρ) (frame : PcmFrame) : Pcm × Option ρ :=
  match cfg.audioop with
  | none => (frame.pcm, state)
  | some audioop =>
      let pcm :=
        if 1 < frame.channels ∧ frame.pcm ≠ [] then audioop.tomono frame.pcm else frame.pcm
      if 0 < frame.sampleRate ∧ frame.sampleRate ≠ targetRate ∧ pcm ≠ [] then
        let (pcm, state) := audioop.ratecv frame.sampleRate targetRate state pcm
        (pcm, some state)
      else (pcm, state)

/-- The level the gate sees. -/
def finalRms (cfg : Settings ρ) (pcm : Pcm) : Nat :=
  if cfg.audioop.isSome ∧ pcm ≠ [] then rms pcm else 0

/-- What recognition gets of a frame, and the silence so far. -/
def gate (cfg : Settings ρ) (silenceMs : ℚ) (pcm : Pcm) : Pcm × ℚ :=
  if 0 < cfg.gateRms ∧ pcm ≠ [] then
    if cfg.gateRms ≤ finalRms cfg pcm then (pcm, 0)
    else
      let silenceMs := silenceMs + frameMs pcm
      if cfg.gateHangoverMs < silenceMs then (digitalSilence pcm, silenceMs) else (pcm, silenceMs)
  else (pcm, silenceMs)

/-- One round of the loop. -/
def receive (cfg : Settings ρ) (s : Lanes ρ) (frame : PcmFrame) : Lanes ρ :=
  if accepts cfg frame then
    let (pcm, ratecvState) := normalize cfg s.ratecvState frame
    let (asrPcm, gateSilenceMs) := gate cfg s.gateSilenceMs pcm
    { ratecvState, gateSilenceMs, inboundQ := s.inboundQ ++ [asrPcm], vadQ := s.vadQ ++ [pcm] }
  else s

/-- `_inbound_loop`, up to the terminators it leaves on both lanes at its end. -/
def inboundLoop (cfg : Settings ρ) (frames : List PcmFrame) : Lanes ρ :=
  frames.foldl (receive cfg) {}

end IsalesEngine.Inbound
