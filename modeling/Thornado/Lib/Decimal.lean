import Mathlib.Algebra.Order.Field.Rat
import Mathlib.Tactic.FieldSimp
import Mathlib.Tactic.Ring
import Thornado.Lib.Padding

/-!
# Decimal numerals

A numeral is a sign, the digits before the point and the digits after it. `read` gives the value
of a text, `none` if it is no numeral.

* `read_text`: the text of a numeral reads as its value.
* `fractionValue_dropZeros`: zeros at the end of the fraction do not count.
* `toDigits_head`: the digits of a number have no superfluous leading zero.
-/

namespace Decimal

/-! ## Digits -/

def Digits (cs : List Char) : Prop := ∀ c ∈ cs, c.isDigit

instance (cs : List Char) : Decidable (Digits cs) := inferInstanceAs (Decidable (∀ c ∈ cs, _))

def digitsValue (cs : List Char) : Nat := Nat.ofDigitChars 10 cs 0

/-- The value of the digits after a point. -/
def fractionValue (cs : List Char) : ℚ := digitsValue cs / 10 ^ cs.length

theorem digits_toDigits (n : Nat) : Digits (Nat.toDigits 10 n) := fun _ hc =>
  Nat.isDigit_of_mem_toDigits (by decide) (by decide) hc

theorem digits_dot {cs : List Char} (h : Digits cs) : '.' ∉ cs := fun hc => by
  have := h '.' hc
  simp at this

theorem digits_minus {cs : List Char} (h : Digits cs) : '-' ∉ cs := fun hc => by
  have := h '-' hc
  simp at this

/-- Only zero starts with a zero. -/
theorem toDigits_head (n : Nat) (h : (Nat.toDigits 10 n).head? = some '0') : n = 0 := by
  induction n using Nat.strongRecOn with
  | ind n ih =>
    by_cases hlt : n < 10
    · rw [Nat.toDigits_of_lt_base hlt] at h
      simpa using h
    · rw [Nat.toDigits_of_base_le (by decide) (by omega),
        List.head?_append_of_ne_nil _ Nat.toDigits_ne_nil] at h
      have := ih (n / 10) (by omega) h
      omega

/-- Leading zeros do not count. -/
theorem digitsValue_leftpad (width n : Nat) :
    digitsValue (List.leftpad width '0' (Nat.toDigits 10 n)) = n := by
  unfold digitsValue List.leftpad
  rw [Nat.ofDigitChars_append, Nat.ofDigitChars_replicate_zero, Nat.mul_zero,
    Nat.ofDigitChars_ten_toDigits]

theorem digits_leftpad {cs : List Char} (h : Digits cs) (width : Nat) :
    Digits (List.leftpad width '0' cs) := by
  intro c hc
  rcases List.mem_append.1 hc with hc | hc
  · rw [List.eq_of_mem_replicate hc]
    decide
  · exact h c hc

/-! ## Trailing zeros -/

/-- The digits without the zeros at their end. -/
abbrev dropZeros (cs : List Char) : List Char := Padding.stem '0' cs

theorem digits_dropZeros {cs : List Char} (h : Digits cs) : Digits (dropZeros cs) := fun c hc =>
  h c ((List.rdropWhile_prefix ..).subset hc)

theorem fractionValue_dropZeros (cs : List Char) :
    fractionValue (dropZeros cs) = fractionValue cs := by
  obtain ⟨k, hk⟩ := Padding.stem_append '0' cs
  have hvalue : digitsValue cs = 10 ^ k * digitsValue (dropZeros cs) := by
    conv_lhs => rw [hk]
    unfold digitsValue
    rw [Nat.ofDigitChars_append, Nat.ofDigitChars_replicate_zero]
  have hlen : cs.length = (dropZeros cs).length + k := by
    conv_lhs => rw [hk]
    rw [List.length_append, List.length_replicate]
  unfold fractionValue
  rw [hvalue, hlen, pow_add, Nat.cast_mul, Nat.cast_pow, Nat.cast_ofNat]
  field_simp

/-! ## Numerals -/

structure Numeral where
  negative : Bool
  whole : List Char
  fraction : List Char
  whole_digits : Digits whole
  whole_ne_nil : whole ≠ []
  fraction_digits : Digits fraction

namespace Numeral

def sign (n : Numeral) : List Char := if n.negative then ['-'] else []

/-- A numeral without a fraction has no point. -/
def text (n : Numeral) : List Char :=
  n.sign ++ n.whole ++ (if n.fraction = [] then [] else '.' :: n.fraction)

def value (n : Numeral) : ℚ :=
  (if n.negative then -1 else 1) * (digitsValue n.whole + fractionValue n.fraction)

/-- No superfluous zero, no zero at the end of the fraction, a sign only below zero. -/
structure Canonical (n : Numeral) : Prop where
  whole : n.whole.head? = some '0' → n.whole = ['0']
  fraction : n.fraction.getLast? ≠ some '0'
  negative : n.negative ↔ n.value < 0

end Numeral

/-! ## Reading -/

def readUnsigned (cs : List Char) : Option ℚ :=
  let whole := cs.takeWhile (· != '.')
  if Digits whole ∧ whole ≠ [] then
    match cs.dropWhile (· != '.') with
    | [] => some (digitsValue whole)
    | _ :: fraction =>
      if Digits fraction ∧ fraction ≠ [] then some (digitsValue whole + fractionValue fraction)
      else none
  else none

def read : List Char → Option ℚ
  | '-' :: cs => (readUnsigned cs).map (- ·)
  | cs => readUnsigned cs

theorem readUnsigned_text {whole fraction : List Char} (hw : Digits whole) (hne : whole ≠ [])
    (hf : Digits fraction) :
    readUnsigned (whole ++ (if fraction = [] then [] else '.' :: fraction)) =
      some (digitsValue whole + fractionValue fraction) := by
  have hpos : ∀ c ∈ whole, (c != '.') = true := fun c hc => by
    have hdot : c ≠ '.' := fun h => digits_dot hw (h ▸ hc)
    simpa using hdot
  unfold readUnsigned
  rw [List.takeWhile_append_of_pos hpos, List.dropWhile_append_of_pos hpos]
  by_cases hnil : fraction = []
  · subst hnil
    simp [hw, hne, fractionValue, digitsValue]
  · simp [hw, hne, hf, hnil]

theorem read_minus (cs : List Char) : read ('-' :: cs) = (readUnsigned cs).map (- ·) := rfl

theorem read_unsigned {cs : List Char} (h : cs.head? ≠ some '-') : read cs = readUnsigned cs := by
  unfold read
  split
  · exact absurd rfl h
  · rfl

theorem read_text (n : Numeral) : read n.text = some n.value := by
  have hread := readUnsigned_text n.whole_digits n.whole_ne_nil n.fraction_digits
  unfold Numeral.text Numeral.sign Numeral.value
  cases n.negative with
  | true =>
    rw [if_pos rfl, if_pos rfl, List.append_assoc, List.singleton_append, read_minus, hread,
      Option.map_some, neg_one_mul]
  | false =>
    have hhead : (n.whole ++ (if n.fraction = [] then [] else '.' :: n.fraction)).head? ≠
        some '-' := by
      rw [List.head?_append_of_ne_nil _ n.whole_ne_nil]
      exact fun h => digits_minus n.whole_digits (List.mem_of_mem_head? h)
    rw [if_neg Bool.false_ne_true, if_neg Bool.false_ne_true, List.append_assoc, List.nil_append,
      read_unsigned hhead, hread, one_mul]

/-- The numeral of an integer. -/
def intNumeral (i : Int) : Numeral where
  negative := i < 0
  whole := Nat.toDigits 10 i.natAbs
  fraction := []
  whole_digits := digits_toDigits _
  whole_ne_nil := Nat.toDigits_ne_nil
  fraction_digits := fun _ hc => nomatch hc

theorem intNumeral_text (i : Int) : (intNumeral i).text = (toString i).toList := by
  rw [Int.toString_eq_repr, Int.repr_eq_if]
  by_cases hneg : i < 0
  · have habs : (-i).toNat = i.natAbs := by omega
    rw [if_neg (by omega), String.toList_append, Nat.toList_repr, habs]
    simp [Numeral.text, Numeral.sign, intNumeral, hneg]
  · have habs : i.toNat = i.natAbs := by omega
    rw [if_pos (by omega), Nat.toList_repr, habs]
    simp [Numeral.text, Numeral.sign, intNumeral, hneg]

theorem intNumeral_value (i : Int) : (intNumeral i).value = i := by
  have hwhole : digitsValue (intNumeral i).whole = i.natAbs := Nat.ofDigitChars_ten_toDigits
  have hfraction : fractionValue (intNumeral i).fraction = 0 := by
    simp [intNumeral, fractionValue, digitsValue]
  unfold Numeral.value
  rw [hwhole, hfraction, add_zero, Nat.cast_natAbs]
  by_cases hneg : i < 0
  · simp [intNumeral, hneg, abs_of_neg hneg]
  · simp [intNumeral, hneg, abs_of_nonneg (not_lt.1 hneg)]

/-- The text of an integer reads as the integer. -/
theorem read_int (i : Int) : read (toString i).toList = some (i : ℚ) := by
  rw [← intNumeral_text, read_text, intNumeral_value]

end Decimal
