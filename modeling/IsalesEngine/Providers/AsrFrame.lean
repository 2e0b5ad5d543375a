import IsalesEngine.Binary.Struct
import IsalesEngine.Text

/-!
The binary frames of the recogniser: a header of nibbles, an optional signed
field, the size of the payload and the payload. What `struct.unpack` raises on a
field that is cut off is no `ValueError`. Slicing does not fail, so a header size
of zero and a payload that is too short go unnoticed. `gunzip` stands for the
decompression, which may fail.
-/
namespace IsalesEngine
open Binary

/-- The fields of a decoded frame. -/
structure AsrFrame where
  msgType : Nat
  flags : Nat
  serialization : Nat
  compression : Nat
  sequence : Option Int := none
  errorCode : Option Int := none
  payload : Bytes
  deriving DecidableEq, Repr

inductive FrameError where
  | valueError (message : Text)
  | structError
  deriving DecidableEq, Repr

namespace AsrFrame

def protoVersion : Nat := 0b0001
def headerSizeUnits : Nat := 0b0001
def msgFullServerResponse : Nat := 0b1001
def msgErrorResponse : Nat := 0b1111
def flagsPosSeq : Nat := 0b0001
def flagsNegSeqLastPacket : Nat := 0b0011
def compressionGzip : Nat := 0b0001

/-- An element of `bytes([...])`. -/
def byte (n : Nat) : Option Bytes := if n < 256 then some [UInt8.ofNat n] else none

def nibbles (high low : Nat) : Nat := high <<< 4 ||| low

def encodeFrame (msgType flags serialization compression : Nat) (payload : Bytes)
    (sequence : Option Int) : Option Bytes :=
  join (byte (nibbles protoVersion headerSizeUnits)) <| join (byte (nibbles msgType flags)) <|
    join (byte (nibbles serialization compression)) <| join (byte 0) <|
      join (sequence.elim (some []) packI32) <| join (packU32 payload.length) (some payload)

/-- What the first three bytes say. -/
structure Header where
  headerSizeBytes : Nat
  msgType : Nat
  flags : Nat
  serialization : Nat
  compression : Nat
  deriving DecidableEq, Repr

def header : Bytes → Option Header
  | b0 :: b1 :: b2 :: _ :: _ => some {
      headerSizeBytes := (b0.toNat &&& 0x0F) * 4
      msgType := b1.toNat >>> 4
      flags := b1.toNat &&& 0x0F
      serialization := b2.toNat >>> 4
      compression := b2.toNat &&& 0x0F }
  | _ => none

namespace Header

def isError (h : Header) : Bool := h.msgType = msgErrorResponse

def hasSequence (h : Header) : Bool :=
  !h.isError && [flagsPosSeq, flagsNegSeqLastPacket].contains h.flags

/-- Where the payload size stands. -/
def sizeAt (h : Header) : Nat :=
  if h.isError || h.hasSequence then h.headerSizeBytes + 4 else h.headerSizeBytes

end Header

/-- The slice of four bytes at `cursor`, as far as there are any. -/
def field (raw : Bytes) (cursor : Nat) : Bytes := (raw.drop cursor).take 4

/-- `struct.unpack`. -/
def unpacked {α : Type} : Option α → Except FrameError α
  | some a => .ok a
  | none => .error .structError

/-- A payload that cannot be decompressed is kept as it is. -/
def decompressed (gunzip : Bytes → Option Bytes) (compression : Nat) (payload : Bytes) : Bytes :=
  if compression = compressionGzip ∧ payload ≠ [] then (gunzip payload).getD payload else payload

/-- Error code, sequence and the position behind them. -/
def optionalField (raw : Bytes) (h : Header) :
    Except FrameError (Option Int × Option Int × Nat) :=
  let cursor := h.headerSizeBytes
  if h.isError then do
    let code ← unpacked (unpackI32 (field raw cursor))
    return (some code, none, cursor + 4)
  else if h.hasSequence then do
    let sequence ← unpacked (unpackI32 (field raw cursor))
    return (none, some sequence, cursor + 4)
  else return (none, none, cursor)

def decodeFrame (gunzip : Bytes → Option Bytes) (raw : Bytes) : Except FrameError AsrFrame :=
  match header raw with
  | none => .error (.valueError ("frame too short: ".toList ++
      (toString raw.length).toList ++ " bytes".toList))
  | some h => do
      let (errorCode, sequence, cursor) ← optionalField raw h
      let payloadSize ← unpacked (unpackU32 (field raw cursor))
      let payload := (raw.drop (cursor + 4)).take payloadSize
      return {
        msgType := h.msgType, flags := h.flags, serialization := h.serialization
        compression := h.compression, sequence, errorCode
        payload := decompressed gunzip h.compression payload }

/-- A decoded frame accounts for its header: the header is not shorter than four bytes, the fields
it declares are there and are the ones returned, and so is the whole payload unless compressed. -/
structure Accounts (raw : Bytes) (h : Header) (size : Nat) (frame : AsrFrame) : Prop where
  declared : header raw = some h
  headerSize : 4 ≤ h.headerSizeBytes
  fields : h.sizeAt + 4 ≤ raw.length
  sized : unpackU32 (field raw h.sizeAt) = some size
  types : frame.msgType = h.msgType ∧ frame.flags = h.flags ∧
    frame.serialization = h.serialization ∧ frame.compression = h.compression
  sequence : frame.sequence =
    if h.hasSequence then unpackI32 (field raw h.headerSizeBytes) else none
  errorCode : frame.errorCode = if h.isError then unpackI32 (field raw h.headerSizeBytes) else none
  payload : h.compression ≠ compressionGzip → frame.payload.length = size

/-- The bytes hold what the header announces, the payload included unless it is compressed. -/
def Complete (raw : Bytes) (h : Header) (size : Nat) : Prop :=
  header raw = some h ∧ 4 ≤ h.headerSizeBytes ∧ unpackU32 (field raw h.sizeAt) = some size ∧
    (h.compression ≠ compressionGzip → h.sizeAt + 4 + size ≤ raw.length)

/-- A frame is rejected as a bad frame, or it accounts for its header. -/
def Checked (gunzip : Bytes → Option Bytes) (raw : Bytes) : Prop :=
  (∃ message, decodeFrame gunzip raw = .error (.valueError message)) ∨
    ∃ h size frame, decodeFrame gunzip raw = .ok frame ∧ Accounts raw h size frame

variable {raw : Bytes} {cursor size : Nat}

theorem header_eq_none : header raw = none ↔ raw.length < 4 := by
  match raw with
  | [] | [_] | [_, _] | [_, _, _] | _ :: _ :: _ :: _ :: raw => simp [header]

theorem isSome_unpackU32_field :
    (unpackU32 (field raw cursor)).isSome = true ↔ cursor + 4 ≤ raw.length := by
  have length : (field raw cursor).length = min 4 (raw.length - cursor) := by
    simp [field]
  match here : field raw cursor with
  | [] | [_] | [_, _] | [_, _, _] | [_, _, _, _] =>
      rw [here] at length
      simp [unpackU32] at length ⊢
      omega
  | _ :: _ :: _ :: _ :: _ :: more =>
      rw [here] at length
      simp at length
      omega

theorem exists_unpackI32_field (there : cursor + 4 ≤ raw.length) :
    ∃ n, unpackI32 (field raw cursor) = some n := by
  obtain ⟨n, read⟩ := Option.isSome_iff_exists.mp (isSome_unpackU32_field.mpr there)
  exact ⟨_, by rw [unpackI32, read, Option.map_some]⟩

theorem unpackU32_field_eq_none (cut : raw.length < cursor + 4) :
    unpackU32 (field raw cursor) = none := by
  rw [← Option.not_isSome_iff_eq_none, isSome_unpackU32_field]
  omega

theorem unpackI32_field_eq_none (cut : raw.length < cursor + 4) :
    unpackI32 (field raw cursor) = none := by
  rw [unpackI32, unpackU32_field_eq_none cut, Option.map_none]

section Decoding
variable {gunzip : Bytes → Option Bytes} {raw : Bytes} {h : Header}

/-- The optional field that `h` announces, read. -/
def optionalValue (raw : Bytes) (h : Header) : Option Int × Option Int × Nat :=
  (if h.isError then unpackI32 (field raw h.headerSizeBytes) else none,
    if h.hasSequence then unpackI32 (field raw h.headerSizeBytes) else none, h.sizeAt)

theorem optionalField_ok (there : h.sizeAt ≤ raw.length) :
    optionalField raw h = .ok (optionalValue raw h) := by
  cases error : h.isError with
  | true =>
      have alone : h.hasSequence = false := by simp [Header.hasSequence, error]
      have after : h.sizeAt = h.headerSizeBytes + 4 := by simp [Header.sizeAt, error]
      obtain ⟨code, read⟩ := exists_unpackI32_field (after ▸ there)
      simp [optionalField, optionalValue, error, alone, after, read, unpacked]
  | false =>
      cases sequence : h.hasSequence with
      | true =>
          have after : h.sizeAt = h.headerSizeBytes + 4 := by simp [Header.sizeAt, sequence]
          obtain ⟨n, read⟩ := exists_unpackI32_field (after ▸ there)
          simp [optionalField, optionalValue, error, sequence, after, read, unpacked]
      | false =>
          have after : h.sizeAt = h.headerSizeBytes := by simp [Header.sizeAt, error, sequence]
          simp [optionalField, optionalValue, error, sequence, after]
          rfl

theorem optionalField_cut (cut : raw.length < h.sizeAt) :
    optionalField raw h = .error .structError ∨
      optionalField raw h = .ok (none, none, h.sizeAt) := by
  cases error : h.isError with
  | true =>
      have after : h.sizeAt = h.headerSizeBytes + 4 := by simp [Header.sizeAt, error]
      have read := unpackI32_field_eq_none (after ▸ cut)
      exact Or.inl (by simp [optionalField, error, read, unpacked])
  | false =>
      cases sequence : h.hasSequence with
      | true =>
          have after : h.sizeAt = h.headerSizeBytes + 4 := by simp [Header.sizeAt, sequence]
          have read := unpackI32_field_eq_none (after ▸ cut)
          exact Or.inl (by simp [optionalField, error, sequence, read, unpacked])
      | false =>
          have after : h.sizeAt = h.headerSizeBytes := by simp [Header.sizeAt, error, sequence]
          exact Or.inr (by simp [optionalField, error, sequence, after]; rfl)

/-- A frame is decoded when the field for the payload size is there. -/
theorem decodeFrame_ok (declared : header raw = some h)
    (sized : unpackU32 (field raw h.sizeAt) = some size) :
    decodeFrame gunzip raw = .ok {
      msgType := h.msgType, flags := h.flags, serialization := h.serialization
      compression := h.compression
      sequence := if h.hasSequence then unpackI32 (field raw h.headerSizeBytes) else none
      errorCode := if h.isError then unpackI32 (field raw h.headerSizeBytes) else none
      payload := decompressed gunzip h.compression ((raw.drop (h.sizeAt + 4)).take size) } := by
  have there : h.sizeAt + 4 ≤ raw.length := by
    rw [← isSome_unpackU32_field, sized]
    rfl
  simp only [decodeFrame, declared, optionalField_ok (Nat.le_of_add_right_le there)]
  simp only [optionalValue, bind, Except.bind, sized, unpacked]
  rfl

/-- Otherwise `struct.error` leaves the decoder. -/
theorem decodeFrame_cut (declared : header raw = some h) (cut : raw.length < h.sizeAt + 4) :
    decodeFrame gunzip raw = .error .structError := by
  have sized := unpackU32_field_eq_none cut
  by_cases there : h.sizeAt ≤ raw.length
  · simp only [decodeFrame, declared, optionalField_ok there]
    simp only [optionalValue, bind, Except.bind, sized, unpacked]
  · obtain failed | read := optionalField_cut (Nat.lt_of_not_le there)
    · simp only [decodeFrame, declared, failed, bind, Except.bind]
    · simp only [decodeFrame, declared, read, bind, Except.bind, sized, unpacked]

/-- Only bytes that are too short for a header are rejected as a bad frame. -/
theorem valueError_iff : (∃ message, decodeFrame gunzip raw = .error (.valueError message)) ↔
    raw.length < 4 := by
  rw [← header_eq_none]
  constructor
  · rintro ⟨message, failed⟩
    cases declared : header raw with
    | none => rfl
    | some h =>
        by_cases cut : raw.length < h.sizeAt + 4
        · rw [decodeFrame_cut declared cut] at failed
          cases failed
        · obtain ⟨size, sized⟩ := Option.isSome_iff_exists.mp
            (isSome_unpackU32_field.mpr (Nat.le_of_not_lt cut))
          rw [decodeFrame_ok declared sized] at failed
          cases failed
  · exact fun short => ⟨_, by rw [decodeFrame, short]⟩

theorem Accounts.complete {frame : AsrFrame} (decoded : decodeFrame gunzip raw = .ok frame)
    (accounts : Accounts raw h size frame) : Complete raw h size := by
  rw [decodeFrame_ok accounts.declared accounts.sized] at decoded
  obtain rfl := Except.ok.inj decoded
  refine ⟨accounts.declared, accounts.headerSize, accounts.sized, fun plain => ?_⟩
  have whole := accounts.payload plain
  simp only [decompressed, plain, false_and, if_false, List.length_take, List.length_drop] at whole
  have fields := accounts.fields
  omega

theorem Complete.accounts (gunzip : Bytes → Option Bytes) (complete : Complete raw h size) :
    ∃ frame, decodeFrame gunzip raw = .ok frame ∧ Accounts raw h size frame := by
  obtain ⟨declared, headerSize, sized, whole⟩ := complete
  have fields : h.sizeAt + 4 ≤ raw.length := by
    rw [← isSome_unpackU32_field, sized]
    rfl
  refine ⟨_, decodeFrame_ok declared sized, declared, headerSize, fields, sized,
    ⟨rfl, rfl, rfl, rfl⟩, rfl, rfl, fun plain => ?_⟩
  have enough := whole plain
  simp only [decompressed, plain, false_and, if_false, List.length_take, List.length_drop]
  omega

end Decoding

/-- The values for which frames are made: nibbles, no error frame and no compression, a sequence
number of 32 bits exactly if the flags announce one, and a payload whose size fits. -/
structure Encodable (f : AsrFrame) : Prop where
  nibbles : f.msgType < 16 ∧ f.flags < 16 ∧ f.serialization < 16 ∧ f.compression < 16
  notError : f.msgType ≠ msgErrorResponse
  plain : f.compression ≠ compressionGzip
  announced : f.sequence.isSome = [flagsPosSeq, flagsNegSeqLastPacket].contains f.flags
  sequence : ∀ n, f.sequence = some n → -0x80000000 ≤ n ∧ n < 0x80000000
  errorCode : f.errorCode = none
  payload : f.payload.length < 0x100000000

def encoded (f : AsrFrame) : Option Bytes :=
  encodeFrame f.msgType f.flags f.serialization f.compression f.payload f.sequence

theorem nibbles_spec : ∀ high < 16, ∀ low < 16, nibbles high low < 256 ∧
    nibbles high low >>> 4 = high ∧ nibbles high low &&& 0x0F = low := by decide

theorem byte_nibbles {high low : Nat} (bounds : high < 16 ∧ low < 16) :
    byte (nibbles high low) = some [UInt8.ofNat (nibbles high low)] :=
  if_pos (nibbles_spec high bounds.1 low bounds.2).1

theorem toNat_nibbles {high low : Nat} (bounds : high < 16 ∧ low < 16) :
    (UInt8.ofNat (nibbles high low)).toNat >>> 4 = high ∧
      (UInt8.ofNat (nibbles high low)).toNat &&& 0x0F = low := by
  obtain ⟨small, shifted, masked⟩ := nibbles_spec high bounds.1 low bounds.2
  rw [UInt8.toNat_ofNat', Nat.mod_eq_of_lt small]
  exact ⟨shifted, masked⟩

theorem field_append {front four back : Bytes} (before : front.length = cursor)
    (width : four.length = 4) : field (front ++ (four ++ back)) cursor = four := by
  rw [field, ← before, List.drop_left, ← width, List.take_left]

section Encoding
variable {f : AsrFrame}

def headBytes (f : AsrFrame) : Bytes :=
  [UInt8.ofNat (nibbles protoVersion headerSizeUnits), UInt8.ofNat (nibbles f.msgType f.flags),
    UInt8.ofNat (nibbles f.serialization f.compression), 0]

def headerOf (f : AsrFrame) : Header where
  headerSizeBytes := 4
  msgType := f.msgType
  flags := f.flags
  serialization := f.serialization
  compression := f.compression

section
variable (fits : f.Encodable)
include fits

theorem header_headBytes (rest : Bytes) : header (f.headBytes ++ rest) = some f.headerOf := by
  obtain ⟨msgType, flags, serialization, compression⟩ := fits.nibbles
  obtain ⟨shifted, masked⟩ := toNat_nibbles ⟨msgType, flags⟩
  obtain ⟨shifted', masked'⟩ := toNat_nibbles ⟨serialization, compression⟩
  simp only [headBytes, header, List.cons_append, shifted, masked, shifted', masked']
  rfl

theorem isError_headerOf : f.headerOf.isError = false := decide_eq_false fits.notError

theorem hasSequence_headerOf : f.headerOf.hasSequence = f.sequence.isSome := by
  rw [fits.announced, Header.hasSequence, isError_headerOf fits]
  rfl

theorem sizeAt_headerOf : f.headerOf.sizeAt = if f.sequence.isSome then 8 else 4 := by
  rw [Header.sizeAt, isError_headerOf fits, hasSequence_headerOf fits]
  rfl

/-- The bytes of an encoded frame, with the sequence number or nothing behind the header. -/
theorem exists_encoded : ∃ sequence,
    encoded f = some (f.headBytes ++ (sequence ++ (bigEndian f.payload.length ++ f.payload))) ∧
    (f.headBytes ++ sequence).length = f.headerOf.sizeAt ∧
    (f.sequence.isSome = true → sequence.length = 4 ∧ unpackI32 sequence = f.sequence) := by
  obtain ⟨msgType, flags, serialization, compression⟩ := fits.nibbles
  have size : packU32 f.payload.length = some (bigEndian f.payload.length) :=
    if_pos ⟨Int.natCast_nonneg _, by have := fits.payload; omega⟩
  rw [encoded, encodeFrame, byte_nibbles ⟨by decide, by decide⟩, byte_nibbles ⟨msgType, flags⟩,
    byte_nibbles ⟨serialization, compression⟩, size, sizeAt_headerOf fits]
  cases sequence : f.sequence with
  | none => exact ⟨[], rfl, rfl, nofun⟩
  | some n =>
      have packed : packI32 n = some (bigEndian (n % 0x100000000).toNat) :=
        if_pos (fits.sequence n sequence)
      refine ⟨bigEndian (n % 0x100000000).toNat, ?_, rfl, fun _ => ⟨rfl, unpackI32_pack packed⟩⟩
      rw [Option.elim_some, packed]
      rfl

end

/-- A frame that was encoded is decoded again, whatever follows it. -/
theorem decodeFrame_encoded (gunzip : Bytes → Option Bytes) (fits : f.Encodable) {bytes : Bytes}
    (made : encoded f = some bytes) (s : Bytes) : decodeFrame gunzip (bytes ++ s) = .ok f := by
  obtain ⟨sequence, coded, before, read⟩ := exists_encoded fits
  obtain rfl := Option.some.inj (made.symm.trans coded)
  simp only [List.append_assoc]
  have sized : unpackU32 (field (f.headBytes ++ (sequence ++ (bigEndian f.payload.length ++
      (f.payload ++ s)))) f.headerOf.sizeAt) = some f.payload.length := by
    rw [← List.append_assoc, field_append before (length_bigEndian _)]
    exact unpackU32_bigEndian fits.payload
  have payload : ((f.headBytes ++ (sequence ++ (bigEndian f.payload.length ++
      (f.payload ++ s)))).drop (f.headerOf.sizeAt + 4)).take f.payload.length = f.payload := by
    rw [← List.append_assoc, ← before, ← List.drop_drop, List.drop_left,
      ← length_bigEndian f.payload.length, List.drop_left, List.take_left]
  have number : (if f.sequence.isSome = true then unpackI32 (field (f.headBytes ++ (sequence ++
      (bigEndian f.payload.length ++ (f.payload ++ s)))) 4) else none) = f.sequence := by
    by_cases some : f.sequence.isSome = true
    · rw [if_pos some, field_append (show f.headBytes.length = 4 from rfl) (read some).1]
      exact (read some).2
    · rw [if_neg some]
      exact (Option.not_isSome_iff_eq_none.mp some).symm
  have plain : decompressed gunzip f.compression f.payload = f.payload :=
    if_neg fun packed => fits.plain packed.1
  rw [decodeFrame_ok (header_headBytes fits _) sized, isError_headerOf fits,
    hasSequence_headerOf fits, payload]
  simp only [headerOf, number, plain, Bool.false_eq_true, if_false]
  rw [← fits.errorCode]

end Encoding
end AsrFrame

namespace Guarantees
open AsrFrame

/-- Decoding ends with a `ValueError` or a frame that accounts for its header exactly for the inputs
that are shorter than a header or hold what their header announces. -/
theorem frame_accounted_iff (gunzip : Bytes → Option Bytes) (raw : Bytes) :
    Checked gunzip raw ↔ raw.length < 4 ∨ ∃ h size, Complete raw h size := by
  rw [Checked, valueError_iff]
  refine or_congr_right ⟨?_, ?_⟩
  · rintro ⟨h, size, frame, decoded, accounts⟩
    exact ⟨h, size, accounts.complete decoded⟩
  · rintro ⟨h, size, complete⟩
    obtain ⟨frame, decoded, accounts⟩ := Complete.accounts gunzip complete
    exact ⟨h, size, frame, decoded, accounts⟩

/-- A sequence number that is cut off raises `struct.error`; a header size of zero makes the header
itself the payload size; and a payload shorter than announced is returned as if whole. -/
theorem malformed_frames_slip :
    ¬ Checked (fun _ => none) [0x11, 0x91, 0x10, 0x00] ∧
    ¬ Checked (fun _ => none) [0x10, 0x90, 0x10, 0x00] ∧
    ¬ Checked (fun _ => none) [0x11, 0x90, 0x10, 0x00, 0, 0, 0, 9, 7] := by
  refine ⟨?_, ?_, ?_⟩
  · have failed : decodeFrame (fun _ => none) [0x11, 0x91, 0x10, 0x00] = .error .structError := by
      decide
    rintro (⟨message, other⟩ | ⟨_, _, frame, other, _⟩)
    · cases failed.symm.trans other
    · cases failed.symm.trans other
  · have decoded : decodeFrame (fun _ => none) [0x10, 0x90, 0x10, 0x00] = .ok {
        msgType := 9, flags := 0, serialization := 1, compression := 0, payload := [] } := by
      decide
    rintro (⟨message, other⟩ | ⟨h, _, _, _, accounts⟩)
    · cases decoded.symm.trans other
    · obtain rfl := Option.some.inj accounts.declared
      exact absurd accounts.headerSize (by decide)
  · have decoded : decodeFrame (fun _ => none) [0x11, 0x90, 0x10, 0x00, 0, 0, 0, 9, 7] = .ok {
        msgType := 9, flags := 0, serialization := 1, compression := 0, payload := [7] } := by
      decide
    rintro (⟨message, other⟩ | ⟨h, size, frame, other, accounts⟩)
    · cases decoded.symm.trans other
    · obtain rfl := Except.ok.inj (decoded.symm.trans other)
      obtain rfl := Option.some.inj accounts.declared
      have announced : 9 = size := Option.some.inj accounts.sized
      have whole := accounts.payload (by decide)
      simp only [List.length_singleton] at whole
      omega

/-- Frames round-trip whatever follows them, so encoding is injective and no encoded frame is the
beginning of another. -/
theorem frames_round_trip (gunzip : Bytes → Option Bytes) :
    (∀ f : AsrFrame, f.Encodable → ∃ bytes, encoded f = some bytes ∧
      ∀ s, decodeFrame gunzip (bytes ++ s) = .ok f) ∧
    (∀ f g : AsrFrame, f.Encodable → g.Encodable → encoded f = encoded g → f = g) ∧
    ∀ (f g : AsrFrame) (u v : Bytes), f.Encodable → g.Encodable → encoded f = some u →
      encoded g = some v → u <+: v → f = g ∧ u = v := by
  have apart : ∀ (f g : AsrFrame) (u v : Bytes), f.Encodable → g.Encodable →
      encoded f = some u → encoded g = some v → u <+: v → f = g ∧ u = v := by
    rintro f g u v fits fits' made made' ⟨s, rfl⟩
    have first := decodeFrame_encoded gunzip fits made s
    have second := decodeFrame_encoded gunzip fits' made' []
    rw [List.append_nil, first] at second
    obtain rfl := Except.ok.inj second
    exact ⟨rfl, Option.some.inj (made.symm.trans made')⟩
  refine ⟨fun f fits => ?_, fun f g fits fits' same => ?_, apart⟩
  · obtain ⟨_, made, _⟩ := exists_encoded fits
    exact ⟨_, made, decodeFrame_encoded gunzip fits made⟩
  · obtain ⟨_, made, _⟩ := exists_encoded fits
    exact (apart f g _ _ fits fits' made (same.symm.trans made) List.prefix_rfl).1

/-- The last packet of audio, with a negative sequence number and two bytes behind it. -/
theorem last_packet_decoded :
    let f : AsrFrame := ⟨2, 3, 0, 0, some (-5), none, [1, 2]⟩
    ∃ bytes, encoded f = some bytes ∧
      decodeFrame (fun _ => none) (bytes ++ [7, 8]) = .ok f := by
  intro f
  have fits : f.Encodable := ⟨by decide, by decide, by decide, by decide,
    fun n given => Option.some.inj given ▸ by decide, rfl, by decide⟩
  obtain ⟨bytes, made, decoded⟩ := (frames_round_trip fun _ => none).1 f fits
  exact ⟨bytes, made, decoded [7, 8]⟩

end Guarantees
end IsalesEngine
