import IsalesEngine.Binary.Struct

/-!
Arrays of 16-bit signed integers, as `array("h")` of Python holds them on a
little-endian machine. Reading them from bytes refuses an odd number of bytes, and
an element out of range is refused. Reading and writing are inverse to each other.
-/
namespace Binary.Int16Array

def decode (low high : UInt8) : Int16 := (UInt16.ofNat (low.toNat + 0x100 * high.toNat)).toInt16

def encode (v : Int16) : Bytes :=
  [UInt8.ofNat v.toUInt16.toNat, UInt8.ofNat (v.toUInt16.toNat / 0x100)]

def fromBytes : Bytes → Option (List Int16)
  | [] => some []
  | [_] => none
  | low :: high :: rest => (fromBytes rest).map (decode low high :: ·)

def toBytes (a : List Int16) : Bytes := a.flatMap encode

/-- The element for a number, which has to be in range. -/
def item (n : Int) : Option Int16 :=
  if -0x8000 ≤ n ∧ n ≤ 0x7fff then some (Int16.ofInt n) else none

theorem encode_decode (low high : UInt8) : encode (decode low high) = [low, high] := by
  have lows := low.toNat_lt
  have highs := high.toNat_lt
  have value : (decode low high).toUInt16.toNat = low.toNat + 0x100 * high.toNat := by
    simp only [decode, UInt16.toUInt16_toInt16, UInt16.toNat_ofNat']
    omega
  have first : UInt8.ofNat (low.toNat + 0x100 * high.toNat) = low := by
    apply UInt8.toNat_inj.mp
    rw [UInt8.toNat_ofNat']
    omega
  have second : UInt8.ofNat ((low.toNat + 0x100 * high.toNat) / 0x100) = high := by
    apply UInt8.toNat_inj.mp
    rw [UInt8.toNat_ofNat']
    omega
  rw [encode, value, first, second]

theorem decode_encode (v : Int16) :
    decode (UInt8.ofNat v.toUInt16.toNat) (UInt8.ofNat (v.toUInt16.toNat / 0x100)) = v := by
  have small := v.toUInt16.toNat_lt
  have value : UInt16.ofNat ((UInt8.ofNat v.toUInt16.toNat).toNat +
      0x100 * (UInt8.ofNat (v.toUInt16.toNat / 0x100)).toNat) = v.toUInt16 := by
    apply UInt16.toNat_inj.mp
    rw [UInt16.toNat_ofNat', UInt8.toNat_ofNat', UInt8.toNat_ofNat']
    omega
  rw [decode, value]
  exact Int16.toInt16_toUInt16 v

variable {bytes : Bytes} {a b : List Int16}

theorem fromBytes_toBytes (a : List Int16) : fromBytes (toBytes a) = some a := by
  induction a with
  | nil => rfl
  | cons v a ih =>
      change (fromBytes (toBytes a)).map (decode _ _ :: ·) = _
      rw [ih, decode_encode]
      rfl

theorem toBytes_injective : Function.Injective toBytes := by
  intro a b same
  have read := fromBytes_toBytes a
  rw [same, fromBytes_toBytes] at read
  exact (Option.some.inj read).symm

theorem length_toBytes (a : List Int16) : (toBytes a).length = 2 * a.length := by
  induction a with
  | nil => rfl
  | cons v a ih =>
      change (toBytes a).length + 2 = 2 * (a.length + 1)
      omega

theorem map_length_toBytes (arrays : List (List Int16)) :
    (arrays.map toBytes).map List.length = (arrays.map List.length).map (2 * ·) := by
  rw [List.map_map, List.map_map]
  apply List.map_congr_left
  intro a _
  exact length_toBytes a

theorem toBytes_append (a b : List Int16) : toBytes (a ++ b) = toBytes a ++ toBytes b :=
  List.flatMap_append

/-- Every even number of bytes is read. -/
theorem exists_toBytes (even : 2 ∣ bytes.length) : ∃ a, toBytes a = bytes := by
  induction bytes using fromBytes.induct with
  | case1 => exact ⟨[], rfl⟩
  | case2 byte =>
      rw [List.length_singleton] at even
      omega
  | case3 low high rest ih =>
      rw [List.length_cons, List.length_cons] at even
      obtain ⟨a, written⟩ := ih (by omega)
      refine ⟨decode low high :: a, ?_⟩
      rw [toBytes, List.flatMap_cons, encode_decode]
      exact congrArg (low :: high :: ·) written

theorem flatten_map_toBytes (arrays : List (List Int16)) :
    (arrays.map toBytes).flatten = toBytes arrays.flatten := by
  induction arrays with
  | nil => rfl
  | cons a arrays ih =>
      rw [List.map_cons, List.flatten_cons, ih, ← toBytes_append, List.flatten_cons]

theorem exists_map_toBytes {frames : List Bytes} (even : ∀ f ∈ frames, 2 ∣ f.length) :
    ∃ arrays : List (List Int16), arrays.map toBytes = frames := by
  induction frames with
  | nil => exact ⟨[], rfl⟩
  | cons f frames ih =>
      obtain ⟨a, first⟩ := exists_toBytes (even f List.mem_cons_self)
      obtain ⟨arrays, rest⟩ := ih fun f later => even f (List.mem_cons_of_mem _ later)
      exact ⟨a :: arrays, by rw [List.map_cons, first, rest]⟩

theorem item_of_range {n : Int} (low : -0x8000 ≤ n) (high : n ≤ 0x7fff) :
    item n = some (Int16.ofInt n) := if_pos ⟨low, high⟩

end Binary.Int16Array
