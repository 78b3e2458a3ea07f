import Mathlib
import Thornado.Lib.Hex
import Thornado.Rust.Serde
import Thornado.Rust.Int128

/-!
# Numbers and bytes as JSON texts

`nado_utils/serialize_utils.rs`: wide integers are written in decimals and bytes in hexadecimals,
both as strings. The hexadecimal parsers are those of `H256` and of `Bytes` (`HexParsers`).

* `parseUnsigned_toString`, `parseSigned_toString`: the parsers read what `to_string` writes.
* `u64Text`, `u128Text`, `bitsText`, `i128Text`, `bytes32`, `vecU8`: the functions as codecs.
-/

namespace Sdk

open Rust Rust.Json Rust.Serde

variable {F A : Type}

/-! ## Decimals -/

theorem parseDigits_toDigits (n : Nat) : parseDigits (Nat.toDigits 10 n) = some n := by
  have hne : Nat.toDigits 10 n ≠ [] := Nat.toDigits_ne_nil
  have hdigits : (Nat.toDigits 10 n).all Char.isDigit = true :=
    List.all_eq_true.2 fun _ hc => Nat.isDigit_of_mem_toDigits (by decide) (by decide) hc
  have hvalue : Nat.ofDigitChars 10 (Nat.toDigits 10 n) 0 = n := Nat.ofDigitChars_ten_toDigits
  cases hcs : Nat.toDigits 10 n with
  | nil => exact absurd hcs hne
  | cons c cs =>
    rw [hcs] at hdigits hvalue
    show (if (c :: cs).all Char.isDigit = true then _ else _) = _
    rw [if_pos hdigits]
    exact congrArg some hvalue

/-- The digits of a number do not start with a sign. -/
theorem toDigits_ne_sign (n : Nat) {c : Char} {cs : List Char} (h : Nat.toDigits 10 n = c :: cs) :
    c ≠ '+' ∧ c ≠ '-' := by
  have hdigit : c.isDigit := Nat.isDigit_of_mem_toDigits (by decide) (by decide)
    (h ▸ List.mem_cons_self : c ∈ Nat.toDigits 10 n)
  refine ⟨?_, ?_⟩
  · rintro rfl
    exact absurd hdigit (by decide)
  · rintro rfl
    exact absurd hdigit (by decide)

theorem parseUnsigned_toString {max n : Nat} (h : n ≤ max) :
    parseUnsigned max (toString n) = some n := by
  have hdigits := parseDigits_toDigits n
  unfold parseUnsigned
  rw [Nat.toString_eq_repr, Nat.toList_repr]
  split
  · rename_i cs hcs
    exact absurd rfl (toDigits_ne_sign n hcs).1
  · rw [hdigits, Option.filter_some, decide_eq_true h, if_pos rfl]

theorem toList_toString_int (i : Int) :
    (toString i).toList =
      if i < 0 then '-' :: Nat.toDigits 10 i.natAbs else Nat.toDigits 10 i.natAbs := by
  rw [Int.toString_eq_repr, Int.repr_eq_if]
  by_cases hneg : i < 0
  · have habs : (-i).toNat = i.natAbs := by omega
    rw [if_neg (by omega), if_pos hneg, String.toList_append, Nat.toList_repr, habs]
    rfl
  · have habs : i.toNat = i.natAbs := by omega
    rw [if_pos (by omega), if_neg hneg, Nat.toList_repr, habs]

theorem parseSigned_toString {i : Int} (h : InI128 i) : parseSigned 128 (toString i) = some i := by
  have hdigits := parseDigits_toDigits i.natAbs
  have hrange : (decide (-2 ^ (128 - 1) ≤ i) && decide (i < 2 ^ (128 - 1))) = true := by
    unfold InI128 i128Min i128Max at h
    simp only [Bool.and_eq_true, decide_eq_true_eq]
    omega
  unfold parseSigned
  by_cases hneg : i < 0
  · have hvalue : -((i.natAbs : Nat) : Int) = i := by omega
    rw [toList_toString_int, if_pos hneg]
    show Option.filter _ (Option.map (fun n : Int => -n)
      ((parseDigits (Nat.toDigits 10 i.natAbs)).bind fun n => some (n : Int))) = some i
    rw [hdigits]
    show Option.filter _ (some (-((i.natAbs : Nat) : Int))) = some i
    rw [hvalue, Option.filter_some, hrange, if_pos rfl]
  · have hvalue : ((i.natAbs : Nat) : Int) = i := by omega
    rw [toList_toString_int, if_neg hneg]
    split
    · rename_i cs hcs
      exact absurd rfl (toDigits_ne_sign _ hcs).2
    · rename_i cs hcs
      exact absurd rfl (toDigits_ne_sign _ hcs).1
    · rw [hdigits]
      show Option.filter _ (some ((i.natAbs : Nat) : Int)) = some i
      rw [hvalue, Option.filter_some, hrange, if_pos rfl]

/-! ## The codecs -/

/-- A value that is written as a text, and what a text that is none is answered with. -/
def text (write : A → String) (parse : String → Option A) (message : String) (Valid : A → Prop)
    (valid_of_parse : ∀ {s a}, parse s = some a → Valid a)
    (parse_write : ∀ {a}, Valid a → parse (write a) = some a) : Codec (Value F) DeError A where
  encode a := .string (write a)
  decode
    | .string s => okOr (parse s) (.custom message)
    | _ => .error .invalidType
  Valid := Valid
  valid_of_decode {j a} h := by
    cases j with
    | string s => exact valid_of_parse (okOr_eq_ok.1 h)
    | null => cases h
    | bool b => cases h
    | number n => cases h
    | array js => cases h
    | object entries => cases h
  decode_encode h := okOr_eq_ok.2 (parse_write h)

/-- `serialize_u64`, `deserialize_u64`. -/
def u64Text : Codec (Value F) DeError UInt64 :=
  text (fun v => toString v.toNat) (fun s => (parseUnsigned u64Max s).map UInt64.ofNat)
    "invalid u64 value" (fun _ => True) (fun _ => trivial) fun {v} _ => by
      have hle : v.toNat ≤ u64Max := Nat.le_sub_one_of_lt v.toNat_lt
      rw [parseUnsigned_toString hle, Option.map_some, UInt64.ofNat_toNat]

def u128Max : Nat := 2 ^ 128 - 1

theorem parseUnsigned_le {max n : Nat} {s : String} (h : parseUnsigned max s = some n) :
    n ≤ max :=
  of_decide_eq_true (Option.filter_eq_some_iff.1 h).2

/-- `serialize_u128`, `deserialize_u128`. -/
def u128Text : Codec (Value F) DeError Nat :=
  text (fun v => toString v) (parseUnsigned u128Max) "invalid u128 value" (· ≤ u128Max)
    parseUnsigned_le parseUnsigned_toString

/-- The same functions, for a value whose bits are read. -/
def bitsText : Codec (Value F) DeError (BitVec 128) :=
  text (fun v => toString v.toNat) (fun s => (parseUnsigned u128Max s).map (BitVec.ofNat 128))
    "invalid u128 value" (fun _ => True) (fun _ => trivial) fun {v} _ => by
      have hle : v.toNat ≤ u128Max := Nat.le_sub_one_of_lt v.isLt
      rw [parseUnsigned_toString hle, Option.map_some, BitVec.ofNat_toNat, BitVec.setWidth_eq]

theorem parseSigned_inI128 {i : Int} {s : String} (h : parseSigned 128 s = some i) : InI128 i := by
  have hrange := (Option.filter_eq_some_iff.1 h).2
  simp only [Bool.and_eq_true, decide_eq_true_eq] at hrange
  unfold InI128 i128Min i128Max
  omega

/-- `serialize_i128`, `deserialize_i128`. -/
def i128Text : Codec (Value F) DeError Int :=
  text (fun v => toString v) (parseSigned 128) "invalid i128 value" InI128 parseSigned_inI128
    parseSigned_toString

/-! ## Bytes -/

/-- The text of the `serialize` functions of bytes. -/
def hexText (bytes : List UInt8) : String := String.ofList ('0' :: 'x' :: Hex.encode bytes)

/-- How `H256` and `Bytes` are read: from a text (`from_str`) and from JSON (`Deserialize`). All
read the digits after `0x`. -/
structure HexParsers (F : Type) where
  h256FromStr : String → Option (Vector UInt8 32)
  bytesFromStr : String → Option (List UInt8)
  h256Deserialize : Value F → Except DeError (Vector UInt8 32)
  bytesDeserialize : Value F → Except DeError (List UInt8)
  h256FromStr_hexText : ∀ b : Vector UInt8 32, h256FromStr (hexText b.toList) = some b
  bytesFromStr_hexText : ∀ b : List UInt8, bytesFromStr (hexText b) = some b
  h256Deserialize_hexText : ∀ b : Vector UInt8 32,
    h256Deserialize (.string (hexText b.toList)) = .ok b
  bytesDeserialize_hexText : ∀ b : List UInt8, bytesDeserialize (.string (hexText b)) = .ok b

/-- Digits with or without the prefix. -/
def readHex (s : String) : Option (List UInt8) :=
  Hex.decode (if s.toList.take 2 = ['0', 'x'] then s.toList.drop 2 else s.toList)

def readHex32 (s : String) : Option (Vector UInt8 32) :=
  (readHex s).bind fun bytes =>
    if h : bytes.length = 32 then some ⟨bytes.toArray, by simp [h]⟩ else none

theorem readHex_hexText (b : List UInt8) : readHex (hexText b) = some b := by
  have hprefix : ('0' :: 'x' :: Hex.encode b).take 2 = ['0', 'x'] := rfl
  unfold readHex hexText
  rw [String.toList_ofList, if_pos hprefix]
  exact Hex.decode_encode b

theorem readHex32_hexText (b : Vector UInt8 32) : readHex32 (hexText b.toList) = some b := by
  unfold readHex32
  rw [readHex_hexText, Option.bind_some, dif_pos (by simp)]
  exact congrArg some (Vector.toArray_inj.1 Array.toArray_toList)

def fromJson {A : Type} (read : String → Option A) : Value F → Except DeError A
  | .string s => okOr (read s) .invalidValue
  | _ => .error .invalidType

/-- Parsers as the crates have them. -/
def hexParsers : HexParsers F where
  h256FromStr := readHex32
  bytesFromStr := readHex
  h256Deserialize := fromJson readHex32
  bytesDeserialize := fromJson readHex
  h256FromStr_hexText := readHex32_hexText
  bytesFromStr_hexText := readHex_hexText
  h256Deserialize_hexText b := okOr_eq_ok.2 (readHex32_hexText b)
  bytesDeserialize_hexText b := okOr_eq_ok.2 (readHex_hexText b)

section
variable (parsers : HexParsers F)

/-- `serialize_bytes32`, `deserialize_bytes32`. -/
def bytes32 : Codec (Value F) DeError (Vector UInt8 32) :=
  text (fun v => hexText v.toList) parsers.h256FromStr "invalid H256 value" (fun _ => True)
    (fun _ => trivial) fun {v} _ => parsers.h256FromStr_hexText v

/-- `serialize_vec_u8`, `deserialize_vec_u8`. -/
def vecU8 : Codec (Value F) DeError (List UInt8) :=
  text hexText parsers.bytesFromStr "invalid Bytes value" (fun _ => True) (fun _ => trivial)
    fun {v} _ => parsers.bytesFromStr_hexText v

/-- An `H256` of its own, or an item of `serialize_vec_bytes32`. -/
def h256 : Codec (Value F) DeError (Vector UInt8 32) where
  encode b := .string (hexText b.toList)
  decode := parsers.h256Deserialize
  Valid _ := True
  valid_of_decode _ := trivial
  decode_encode {b} _ := parsers.h256Deserialize_hexText b

def bytes : Codec (Value F) DeError (List UInt8) where
  encode b := .string (hexText b)
  decode := parsers.bytesDeserialize
  Valid _ := True
  valid_of_decode _ := trivial
  decode_encode {b} _ := parsers.bytesDeserialize_hexText b

theorem solid_bytes32 : Solid (bytes32 parsers) := fun _ => rfl

theorem solid_h256 : Solid (h256 parsers) := fun _ => rfl

end

end Sdk
