import IsalesEngine.Binary.SelfDelimiting

/-!
Numbers as bytes, in the big-endian formats `>I`, `>i` and `>?` of the `struct`
module. Packing refuses a number that is out of range, unpacking refuses a byte
string that is not four bytes long.
-/
namespace Binary

abbrev Bytes : Type := List UInt8

def bigEndian (n : Nat) : Bytes :=
  [UInt8.ofNat (n / 0x1000000), UInt8.ofNat (n / 0x10000), UInt8.ofNat (n / 0x100), UInt8.ofNat n]

def packU32 (n : Int) : Option Bytes :=
  if 0 ≤ n ∧ n < 0x100000000 then some (bigEndian n.toNat) else none

def packI32 (n : Int) : Option Bytes :=
  if -0x80000000 ≤ n ∧ n < 0x80000000 then some (bigEndian (n % 0x100000000).toNat) else none

def packBool (b : Bool) : Option Bytes := some [if b then 1 else 0]

def unpackU32 : Bytes → Option Nat
  | [a, b, c, d] => some (a.toNat * 0x1000000 + b.toNat * 0x10000 + c.toNat * 0x100 + d.toNat)
  | _ => none

def unpackI32 (bytes : Bytes) : Option Int :=
  (unpackU32 bytes).map fun n : Nat => if n < 0x80000000 then (n : Int) else n - 0x100000000

/-- A flag that says whether a value follows, and the value. -/
def packOptional {α : Type} (code : α → Option Bytes) : Option α → Option Bytes
  | some a => join (packBool true) (code a)
  | none => packBool false

theorem length_bigEndian (n : Nat) : (bigEndian n).length = 4 := rfl

theorem unpackU32_bigEndian {n : Nat} (small : n < 0x100000000) :
    unpackU32 (bigEndian n) = some n := by
  simp only [bigEndian, unpackU32, UInt8.toNat_ofNat', Option.some.injEq]
  omega

variable {n : Int} {bytes : Bytes}

theorem packU32_eq_some :
    packU32 n = some bytes ↔ 0 ≤ n ∧ n < 0x100000000 ∧ bytes = bigEndian n.toNat := by
  rw [packU32, Option.ite_none_right_eq_some, Option.some.injEq, and_assoc, eq_comm]

theorem packI32_eq_some : packI32 n = some bytes ↔
      -0x80000000 ≤ n ∧ n < 0x80000000 ∧ bytes = bigEndian (n % 0x100000000).toNat := by
  rw [packI32, Option.ite_none_right_eq_some, Option.some.injEq, and_assoc, eq_comm]

theorem isSome_packU32 : (packU32 n).isSome = true ↔ 0 ≤ n ∧ n < 0x100000000 := by
  unfold packU32
  split <;> simp_all

theorem unpackI32_pack (packed : packI32 n = some bytes) : unpackI32 bytes = some n := by
  obtain ⟨low, high, rfl⟩ := packI32_eq_some.mp packed
  rw [unpackI32, unpackU32_bigEndian (by omega), Option.map_some, Option.some.injEq]
  split <;> omega

theorem selfDelimiting_packU32 : SelfDelimiting packU32 := by
  refine fun m n => separated_of_length (fun u v first second => ?_) fun u first second => ?_
  · obtain ⟨_, _, rfl⟩ := packU32_eq_some.mp first
    obtain ⟨_, _, rfl⟩ := packU32_eq_some.mp second
    rfl
  · obtain ⟨low, high, rfl⟩ := packU32_eq_some.mp first
    obtain ⟨low', high', same⟩ := packU32_eq_some.mp second
    have unpacked := congrArg unpackU32 same
    rw [unpackU32_bigEndian (by omega), unpackU32_bigEndian (by omega), Option.some.injEq]
      at unpacked
    omega

theorem selfDelimiting_packBool : SelfDelimiting packBool := by
  refine fun a b => separated_of_length (fun u v first second => ?_) fun u first second => ?_
  · cases first
    cases second
    rfl
  · have same := Option.some.inj (first.trans second.symm)
    revert same
    cases a <;> cases b <;> decide

/-- A byte string headed by its length. -/
theorem selfDelimiting_lengthPrefixed {α : Type} {bytes : α → Bytes}
    (injective : Function.Injective bytes) :
    SelfDelimiting fun a => join (packU32 (bytes a).length) (some (bytes a)) := by
  have sized : SelfDelimiting fun n : Nat => packU32 n := fun m n =>
    (selfDelimiting_packU32 m n).imp rfl rfl Int.ofNat.inj
  refine sized.headed (fun a => (bytes a).length) fun a b same => ?_
  refine separated_of_length (fun u v first second => ?_) fun u first second => ?_
  · cases first
    cases second
    exact same
  · exact injective (Option.some.inj (first.trans second.symm))

theorem SelfDelimiting.optional {α : Type} {code : α → Option Bytes}
    (delimited : SelfDelimiting code) : SelfDelimiting (packOptional code) := by
  have split : packOptional code = fun o =>
      join (packBool o.isSome) (o.elim (some []) code) := by
    funext o
    cases o <;> simp [packOptional, join, packBool]
  rw [split]
  refine selfDelimiting_packBool.headed Option.isSome fun o p same => ?_
  cases o with
  | none =>
      obtain rfl : p = none := by simpa using same.symm
      exact separated_of_length (fun u v first second => by rw [Option.some.inj
        (first.symm.trans second)]) fun _ _ _ => rfl
  | some a =>
      obtain ⟨b, rfl⟩ := Option.isSome_iff_exists.mp same.symm
      exact (delimited a b).imp rfl rfl (congrArg some)

end Binary
