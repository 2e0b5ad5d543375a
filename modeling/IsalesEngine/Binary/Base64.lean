import Mathlib.Logic.Function.Basic
import IsalesEngine.Binary.Struct

/-!
Bytes as text in base64: three bytes become four characters of six bits each, and
a last group that is shorter is filled up with zero bits and the sign `=`. The
bytes can be read back.
-/
namespace Binary
namespace Base64

/-- The character of a number below 64. -/
def digit (n : Nat) : Char :=
  if n < 26 then Char.ofNat (n + 65)
  else if n < 52 then Char.ofNat (n + 71)
  else if n < 62 then Char.ofNat (n - 4)
  else if n = 62 then '+' else '/'

def value (c : Char) : Nat := (List.range 64).findIdx fun n => digit n = c

def encode : Bytes → List Char
  | a :: b :: c :: rest =>
      let n := a.toNat * 0x10000 + b.toNat * 0x100 + c.toNat
      digit (n / 0x40000) :: digit (n / 0x1000 % 64) :: digit (n / 64 % 64) :: digit (n % 64) ::
        encode rest
  | [a, b] =>
      let n := a.toNat * 0x100 + b.toNat
      [digit (n / 0x400), digit (n / 16 % 64), digit (n % 16 * 4), '=']
  | [a] => [digit (a.toNat / 4), digit (a.toNat % 4 * 16), '=', '=']
  | [] => []

def decode : List Char → Bytes
  | a :: b :: c :: d :: rest =>
      let first := UInt8.ofNat (value a * 4 + value b / 16)
      let second := UInt8.ofNat (value b * 16 + value c / 4)
      if c = '=' then [first]
      else if d = '=' then [first, second]
      else first :: second :: UInt8.ofNat (value c * 64 + value d) :: decode rest
  | _ => []

theorem value_digit : ∀ n < 64, value (digit n) = n := by
  decide +kernel

theorem digit_ne_fill : ∀ n < 64, digit n ≠ '=' := by
  decide +kernel

theorem ofNat_eq {x : UInt8} {n : Nat} (same : n % 256 = x.toNat) : UInt8.ofNat n = x := by
  rw [← UInt8.toNat_inj, UInt8.toNat_ofNat', same]

theorem decode_encode (xs : Bytes) : decode (encode xs) = xs := by
  fun_induction encode xs with
  | case1 a b c rest n ih =>
      have small : a.toNat < 256 ∧ b.toNat < 256 ∧ c.toNat < 256 :=
        ⟨a.toNat_lt, b.toNat_lt, c.toNat_lt⟩
      have sum : n = a.toNat * 0x10000 + b.toNat * 0x100 + c.toNat := rfl
      simp only [decode]
      rw [if_neg (digit_ne_fill _ (by omega)), if_neg (digit_ne_fill _ (by omega)), ih,
        value_digit _ (by omega), value_digit _ (by omega), value_digit _ (by omega),
        value_digit _ (by omega), ofNat_eq (x := a) (by omega), ofNat_eq (x := b) (by omega),
        ofNat_eq (x := c) (by omega)]
  | case2 a b n =>
      have small : a.toNat < 256 ∧ b.toNat < 256 := ⟨a.toNat_lt, b.toNat_lt⟩
      have sum : n = a.toNat * 0x100 + b.toNat := rfl
      simp only [decode]
      rw [if_neg (digit_ne_fill _ (by omega)), if_pos trivial, value_digit _ (by omega),
        value_digit _ (by omega), value_digit _ (by omega), ofNat_eq (x := a) (by omega),
        ofNat_eq (x := b) (by omega)]
  | case3 a =>
      have small := a.toNat_lt
      simp only [decode]
      rw [if_pos trivial, value_digit _ (by omega), value_digit _ (by omega),
        ofNat_eq (x := a) (by omega)]
  | case4 => rfl

theorem encode_injective : Function.Injective encode :=
  Function.LeftInverse.injective decode_encode

end Base64
end Binary
