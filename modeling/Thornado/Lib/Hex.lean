import Mathlib.Data.List.Basic

/-!
# Bytes in hexadecimal digits

`decode_encode`: the digits of some bytes are read back as these bytes.
-/

namespace Hex

/-- The digit of a number below 16, in lower case. -/
def digit (n : UInt8) : Char := Char.ofNat (if n < 10 then 48 + n.toNat else 87 + n.toNat)

/-- The number of a digit in either case. -/
def value (c : Char) : Option UInt8 :=
  if '0' ≤ c ∧ c ≤ '9' then some (c.toNat - 48).toUInt8
  else if 'a' ≤ c ∧ c ≤ 'f' then some (c.toNat - 87).toUInt8
  else if 'A' ≤ c ∧ c ≤ 'F' then some (c.toNat - 55).toUInt8
  else none

def encode (bytes : List UInt8) : List Char :=
  bytes.flatMap fun b => [digit (b / 16), digit (b % 16)]

def decode : List Char → Option (List UInt8)
  | [] => some []
  | [_] => none
  | high :: low :: cs => do
    let h ← value high
    let l ← value low
    let bytes ← decode cs
    return (16 * h + l) :: bytes

theorem value_digit (n : Fin 16) :
    value (digit (UInt8.ofNat n.val)) = some (UInt8.ofNat n.val) := by
  revert n
  decide

theorem value_digit_div (b : UInt8) : value (digit (b / 16)) = some (b / 16) := by
  have hb := b.toNat_lt
  have hdiv : b / 16 = UInt8.ofNat (b.toNat / 16) := by
    rw [← UInt8.toNat_inj, UInt8.toNat_div, UInt8.toNat_ofNat_of_lt' (by show _ < 256; omega)]
    rfl
  rw [hdiv]
  exact value_digit ⟨b.toNat / 16, by omega⟩

theorem value_digit_mod (b : UInt8) : value (digit (b % 16)) = some (b % 16) := by
  have hb := b.toNat_lt
  have hmod : b % 16 = UInt8.ofNat (b.toNat % 16) := by
    rw [← UInt8.toNat_inj, UInt8.toNat_mod, UInt8.toNat_ofNat_of_lt' (by show _ < 256; omega)]
    rfl
  rw [hmod]
  exact value_digit ⟨b.toNat % 16, by omega⟩

theorem high_low (b : UInt8) : 16 * (b / 16) + b % 16 = b := by
  have hb := b.toNat_lt
  rw [← UInt8.toNat_inj, UInt8.toNat_add, UInt8.toNat_mul, UInt8.toNat_div, UInt8.toNat_mod]
  show (16 * (b.toNat / 16) % 256 + b.toNat % 16) % 256 = b.toNat
  omega

/-- **Round trip**. -/
theorem decode_encode (bytes : List UInt8) : decode (encode bytes) = some bytes := by
  induction bytes with
  | nil => rfl
  | cons b bytes ih =>
    show decode (digit (b / 16) :: digit (b % 16) :: encode bytes) = some (b :: bytes)
    simp only [decode, value_digit_div, value_digit_mod, ih, high_low, Option.bind_eq_bind,
      Option.bind_some, Option.pure_def]

end Hex
