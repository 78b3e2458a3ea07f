import Mathlib.Tactic.Positivity
import Thornado.Lib.Decimal
import Thornado.Rust.Int128

/-!
# Amounts with 18 decimals as text

`x18_to_decimal_string` of `gateway/portfolio/src/main.rs`.

* `x18ToDecimalString_exact`: the text is canonical, reads as the amount, and tells two amounts
  apart.
-/

namespace Portfolio

open Rust Decimal

def x18ToDecimalString (value : Int) : String :=
  let sign := if value < 0 then "-" else ""
  let abs := value.natAbs
  let intPart := abs / 10 ^ 18
  let fracPart := abs % 10 ^ 18
  if fracPart = 0 then sign ++ toString intPart
  else
    -- `format!("{frac_part:018}")`, then `pop` while the text ends with a zero
    let frac := (List.leftpad 18 '0' (Nat.toDigits 10 fracPart)).rdropWhile (· = '0')
    sign ++ toString intPart ++ "." ++ String.ofList frac

/-! ## The numeral -/

def paddedFraction (value : Int) : List Char :=
  List.leftpad 18 '0' (Nat.toDigits 10 (value.natAbs % 10 ^ 18))

def x18Numeral (value : Int) : Numeral where
  negative := value < 0
  whole := Nat.toDigits 10 (value.natAbs / 10 ^ 18)
  fraction := dropZeros (paddedFraction value)
  whole_digits := digits_toDigits _
  whole_ne_nil := Nat.toDigits_ne_nil
  fraction_digits := digits_dropZeros (digits_leftpad (digits_toDigits _) 18)

theorem paddedFraction_length (value : Int) : (paddedFraction value).length = 18 := by
  have hlt : value.natAbs % 10 ^ 18 < 10 ^ 18 := Nat.mod_lt _ (by decide)
  have hlen := (Nat.length_toDigits_le_iff (b := 10) (by decide) (k := 18) (by decide)).2 hlt
  unfold paddedFraction
  rw [List.length_leftpad]
  omega

theorem fractionValue_x18 (value : Int) :
    fractionValue (dropZeros (paddedFraction value)) =
      ((value.natAbs % 10 ^ 18 : Nat) : ℚ) / 10 ^ 18 := by
  rw [fractionValue_dropZeros, fractionValue, paddedFraction_length, paddedFraction,
    digitsValue_leftpad]

theorem x18Numeral_value (value : Int) : (x18Numeral value).value = (value : ℚ) / 10 ^ 18 := by
  have hsplit : ((value.natAbs / 10 ^ 18 : Nat) : ℚ) +
      ((value.natAbs % 10 ^ 18 : Nat) : ℚ) / 10 ^ 18 = (value.natAbs : ℚ) / 10 ^ 18 := by
    have hnat : (value.natAbs : ℚ) = 10 ^ 18 * (value.natAbs / 10 ^ 18 : Nat) +
        (value.natAbs % 10 ^ 18 : Nat) := by
      exact_mod_cast (Nat.div_add_mod value.natAbs (10 ^ 18)).symm
    rw [hnat]
    field_simp
  have hwhole : digitsValue (x18Numeral value).whole = value.natAbs / 10 ^ 18 :=
    Nat.ofDigitChars_ten_toDigits
  have habs : (if value < 0 then -1 else 1 : ℚ) * (value.natAbs : ℚ) = value := by
    split
    · rw [neg_one_mul, Nat.cast_natAbs, abs_of_neg ‹_›, Int.cast_neg, neg_neg]
    · rw [one_mul, Nat.cast_natAbs, abs_of_nonneg (by omega)]
  have hfraction : fractionValue (x18Numeral value).fraction = _ := fractionValue_x18 value
  unfold Numeral.value
  rw [hwhole, hfraction, hsplit, ← mul_div_assoc]
  simp only [x18Numeral, decide_eq_true_eq, habs]

theorem x18_fraction_ne_nil {value : Int} (h : value.natAbs % 10 ^ 18 ≠ 0) :
    dropZeros (paddedFraction value) ≠ [] := by
  intro hnil
  have hvalue := fractionValue_x18 value
  rw [hnil, eq_comm, fractionValue, List.length_nil, pow_zero, div_one] at hvalue
  have hzero : ((value.natAbs % 10 ^ 18 : Nat) : ℚ) = 0 := by
    simpa [digitsValue] using hvalue
  exact h (Nat.cast_eq_zero.1 hzero)

theorem x18ToDecimalString_text (value : Int) :
    (x18ToDecimalString value).toList = (x18Numeral value).text := by
  have hsign : (if value < 0 then "-" else "" : String).toList = (x18Numeral value).sign := by
    by_cases hneg : value < 0
    · simp [Numeral.sign, x18Numeral, hneg]
    · simp [Numeral.sign, x18Numeral, hneg]
  have hwhole : (toString (value.natAbs / 10 ^ 18)).toList = (x18Numeral value).whole := by
    rw [Nat.toString_eq_repr, Nat.toList_repr]
    rfl
  unfold x18ToDecimalString Numeral.text
  simp only
  split
  · rename_i hzero
    -- eighteen zeros are padded and dropped again
    have hnil : (x18Numeral value).fraction = [] := by
      show dropZeros (paddedFraction value) = []
      rw [paddedFraction, hzero]
      decide
    rw [String.toList_append, hsign, hwhole, if_pos hnil, List.append_nil]
  · rename_i hne
    have hfrac : (x18Numeral value).fraction ≠ [] := x18_fraction_ne_nil hne
    have hdot : ".".toList = ['.'] := rfl
    have htext : (x18Numeral value).fraction =
        (List.leftpad 18 '0' (Nat.toDigits 10 (value.natAbs % 10 ^ 18))).rdropWhile (· = '0') := rfl
    rw [if_neg hfrac, htext, String.toList_append, String.toList_append, String.toList_append,
      hsign, hwhole, hdot, String.toList_ofList, List.append_assoc, List.singleton_append]

theorem x18Numeral_canonical (value : Int) : (x18Numeral value).Canonical := by
  refine ⟨fun hhead => ?_, Padding.stem_getLast '0' _, ?_⟩
  · have hzero := toDigits_head _ hhead
    show Nat.toDigits 10 (value.natAbs / 10 ^ 18) = ['0']
    rw [hzero, Nat.toDigits_zero]
  · rw [x18Numeral_value, div_lt_iff₀ (by positivity), zero_mul]
    simp [x18Numeral]

theorem read_x18ToDecimalString (value : Int) :
    read (x18ToDecimalString value).toList = some ((value : ℚ) / 10 ^ 18) := by
  rw [x18ToDecimalString_text, read_text, x18Numeral_value]

theorem x18ToDecimalString_injective : Function.Injective x18ToDecimalString := by
  intro value other h
  have heq := read_x18ToDecimalString value
  rw [h, read_x18ToDecimalString, Option.some.injEq] at heq
  have hcast := (div_left_inj' (by positivity)).1 heq
  exact (Rat.intCast_injective hcast).symm

/-- **The text of an amount is exact**: it reads as the amount, in canonical form, and different
amounts have different texts. -/
theorem x18ToDecimalString_exact (value : Int) :
    read (x18ToDecimalString value).toList = some ((value : ℚ) / 10 ^ 18) ∧
      (∃ n : Numeral, (x18ToDecimalString value).toList = n.text ∧ n.Canonical ∧
        (n.negative ↔ value < 0)) ∧
      ∀ other, x18ToDecimalString other = x18ToDecimalString value ↔ other = value :=
  ⟨read_x18ToDecimalString value,
    ⟨_, x18ToDecimalString_text value, x18Numeral_canonical value, decide_eq_true_iff⟩,
    fun _ => x18ToDecimalString_injective.eq_iff⟩

end Portfolio
