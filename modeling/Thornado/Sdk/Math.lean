import Mathlib
import Thornado.Lib.FixedPoint
import Thornado.Lib.Grid
import Thornado.Rust.Int128

/-!
# Fixed point arithmetic of the SDK

`nado_utils/math.rs` and the fees of `builders/utils/fee_calculator.rs`, as a release build computes
them: a `u128` is a natural number modulo `2 ^ 128`, an `i128` an integer in range.

* `x18_arithmetic_exact`: products and quotients are exact, cut off, when they can be represented;
  `mulX18_eq`, `divX18_eq`: else they wrap.
* `calcFee_exact`: the fee of an amount, by what is kept of it.
-/

namespace Sdk

open Rust

def oneX18 : Int := 10 ^ 18

def oneX6 : Int := 10 ^ 6

def oneX12 : Int := 10 ^ 12

def uone : Nat := 10 ^ 18

/-! ## Words -/

/-- What a `u128` operation wraps to. -/
def wrapU128 (n : Nat) : Nat := n % 2 ^ 128

/-- `as u128` -/
def asU128 (v : Int) : Nat := (v % 2 ^ 128).toNat

/-- `as i128` -/
def asI128 (n : Nat) : Int := wrapI128 n

theorem wrapU128_of_lt {n : Nat} (h : n < 2 ^ 128) : wrapU128 n = n := Nat.mod_eq_of_lt h

theorem wrapU128_add_left (m n : Nat) : wrapU128 (wrapU128 m + n) = wrapU128 (m + n) :=
  Nat.mod_add_mod ..

theorem wrapU128_modEq (n : Nat) : wrapU128 n ≡ n [MOD 2 ^ 128] := Nat.mod_modEq ..

theorem asI128_wrapU128 (n : Nat) : asI128 (wrapU128 n) = wrapI128 n := by
  unfold asI128 wrapU128 wrapI128
  rw [Int.natCast_mod]
  exact Int.emod_bmod ..

theorem wrapI128_mul_left (v w : Int) : wrapI128 (wrapI128 v * w) = wrapI128 (v * w) :=
  Int.bmod_mul_bmod

/-! ## Signs -/

def signedToUnsigned (x y : Int) : Nat × Nat × Int :=
  if x ≥ 0 ∧ y ≥ 0 then (asU128 x, asU128 y, 1)
  else if x ≥ 0 ∧ y < 0 then (asU128 x, asU128 (wrapI128 (-y)), -1)
  else if x < 0 ∧ y ≥ 0 then (asU128 (wrapI128 (-x)), asU128 y, -1)
  else (asU128 (wrapI128 (-x)), asU128 (wrapI128 (-y)), 1)

theorem asU128_nonneg {v : Int} (h : InI128 v) (hv : 0 ≤ v) : asU128 v = v.natAbs := by
  unfold InI128 i128Min i128Max at h
  unfold asU128
  omega

/-- The magnitude is right for the least value as well, which has no opposite. -/
theorem asU128_neg {v : Int} (h : InI128 v) (hv : v < 0) :
    asU128 (wrapI128 (-v)) = v.natAbs := by
  unfold InI128 i128Min i128Max at h
  unfold asU128
  have hmod : wrapI128 (-v) % 2 ^ 128 = -v % 2 ^ 128 := Int.bmod_emod ..
  rw [hmod]
  omega

theorem signedToUnsigned_eq {x y : Int} (hx : InI128 x) (hy : InI128 y) :
    ∃ u v : Int, IsUnit u ∧ IsUnit v ∧ x = u * x.natAbs ∧ y = v * y.natAbs ∧
      signedToUnsigned x y = (x.natAbs, y.natAbs, u * v) := by
  unfold signedToUnsigned
  rcases Int.lt_or_le x 0 with hxs | hxs <;> rcases Int.lt_or_le y 0 with hys | hys
  · refine ⟨-1, -1, isUnit_one.neg, isUnit_one.neg, by omega, by omega, ?_⟩
    rw [if_neg (by omega), if_neg (by omega), if_neg (by omega), asU128_neg hx hxs,
      asU128_neg hy hys]
    rfl
  · refine ⟨-1, 1, isUnit_one.neg, isUnit_one, by omega, by omega, ?_⟩
    rw [if_neg (by omega), if_neg (by omega), if_pos (by omega), asU128_neg hx hxs,
      asU128_nonneg hy hys]
    rfl
  · refine ⟨1, -1, isUnit_one, isUnit_one.neg, by omega, by omega, ?_⟩
    rw [if_neg (by omega), if_pos (by omega), asU128_nonneg hx hxs, asU128_neg hy hys]
    rfl
  · refine ⟨1, 1, isUnit_one, isUnit_one, by omega, by omega, ?_⟩
    rw [if_pos (by omega), asU128_nonneg hx hxs, asU128_nonneg hy hys]
    rfl

/-! ## Products -/

/-- The branches of `mul_x18`: `x` is the smaller operand. -/
def mulUnsigned (x y : Nat) : Nat :=
  if y < uone then wrapU128 (x * y) / uone
  else if x < uone then
    wrapU128 (wrapU128 (x * (y / uone)) + wrapU128 (x * (y % uone)) / uone)
  else
    let a := x / uone
    let b := x % uone
    let c := y / uone
    let d := y % uone
    wrapU128 (wrapU128 (wrapU128 (wrapU128 (wrapU128 (a * c) * uone) + wrapU128 (a * d)) +
      wrapU128 (b * c)) + wrapU128 (b * d) / uone)

/-- `mul_x18` in a release build: its products, sums and changes of sign wrap, at which a build with
overflow checks panics (`-i128::MIN` is one of them). -/
def mulX18 (x y : Int) : Int :=
  let (x, y, sign) := signedToUnsigned x y
  let (x, y) := if x > y then (y, x) else (x, y)
  wrapI128 (asI128 (mulUnsigned x y) * sign)

theorem mulUnsigned_eq {x y : Nat} (hxy : x ≤ y) :
    mulUnsigned x y = wrapU128 (x * y / uone) := by
  have hu : 0 < uone := by decide
  have hu128 : uone * uone < 2 ^ 128 := by decide
  have hsmall {m n : Nat} (hm : m < uone) (hn : n < uone) : m * n < 2 ^ 128 :=
    Nat.lt_trans (Nat.mul_lt_mul'' hm hn) hu128
  unfold mulUnsigned
  split
  · rename_i hy
    have hlt := hsmall (Nat.lt_of_le_of_lt hxy hy) hy
    rw [wrapU128_of_lt hlt, wrapU128_of_lt (Nat.lt_of_le_of_lt (Nat.div_le_self ..) hlt)]
  · split
    · rename_i hx
      rw [wrapU128_of_lt (hsmall hx (Nat.mod_lt y hu)), wrapU128_add_left,
        ← FixedPoint.mul_div_split hu]
    · rw [FixedPoint.mul_div_split_both hu x y]
      dsimp only
      rw [wrapU128_of_lt (hsmall (Nat.mod_lt x hu) (Nat.mod_lt y hu))]
      have hac := (wrapU128_modEq _).trans ((wrapU128_modEq (x / uone * (y / uone))).mul_right uone)
      have had := (wrapU128_modEq _).trans (hac.add (wrapU128_modEq (x / uone * (y % uone))))
      have hbc := (wrapU128_modEq _).trans (had.add (wrapU128_modEq (x % uone * (y / uone))))
      exact hbc.add_right _

/-- **Multiplication**: the exact product, cut off, as far as it can be represented. -/
theorem mulX18_eq {x y : Int} (hx : InI128 x) (hy : InI128 y) :
    mulX18 x y = wrapI128 ((x * y).tdiv oneX18) := by
  obtain ⟨u, v, hu, hv, hxu, hyv, heq⟩ := signedToUnsigned_eq hx hy
  have hprod : mulUnsigned (if x.natAbs > y.natAbs then (y.natAbs, x.natAbs)
      else (x.natAbs, y.natAbs)).1 (if x.natAbs > y.natAbs then (y.natAbs, x.natAbs)
      else (x.natAbs, y.natAbs)).2 = wrapU128 (x.natAbs * y.natAbs / uone) := by
    split
    · rw [mulUnsigned_eq (by omega), Nat.mul_comm]
    · rw [mulUnsigned_eq (by omega)]
  have hexact : (x * y).tdiv oneX18 = u * v * ((x.natAbs * y.natAbs / uone : Nat) : Int) := by
    have hscale : oneX18 = 1 * (uone : Int) := by decide
    have hxy : x * y = u * v * ((x.natAbs * y.natAbs : Nat) : Int) := by
      rw [Int.natCast_mul]
      calc x * y = (u * x.natAbs) * (v * y.natAbs) := by rw [← hxu, ← hyv]
        _ = u * v * (x.natAbs * y.natAbs) := by ring
    rw [hxy, hscale, FixedPoint.unit_mul_tdiv_unit_mul (hu.mul hv) isUnit_one, Int.mul_one]
  unfold mulX18
  rw [heq]
  dsimp only
  rw [hprod, asI128_wrapU128, wrapI128_mul_left, hexact, Int.mul_comm]

/-! ## Quotients -/

def divUnsigned (x y : Nat) : Nat :=
  let (ret, x) := if x ≥ y then (wrapU128 (x / y * uone), x % y) else (0, x)
  if x ≤ uone then wrapU128 (ret + wrapU128 (x * uone) / y)
  else
    -- in 256 bits
    wrapU128 (ret + wrapU128 (x * uone / y))

/-- `div_x18` in a release build, which wraps likewise; `none` is the division by zero. -/
def divX18 (x y : Int) : Option Int :=
  let (x, y, sign) := signedToUnsigned x y
  if y = 0 then none else some (wrapI128 (asI128 (divUnsigned x y) * sign))

theorem divUnsigned_eq {x y : Nat} (hy : 0 < y) : divUnsigned x y = wrapU128 (x * uone / y) := by
  have hstart : ∃ ret, ret ≡ x / y * uone [MOD 2 ^ 128] ∧
      (if x ≥ y then (wrapU128 (x / y * uone), x % y) else (0, x)) = (ret, x % y) := by
    split
    · exact ⟨_, wrapU128_modEq _, rfl⟩
    · rename_i hlt
      refine ⟨0, ?_, by rw [Nat.mod_eq_of_lt (by omega)]⟩
      rw [Nat.div_eq_of_lt (by omega), Nat.zero_mul]
  obtain ⟨ret, hret, heq⟩ := hstart
  rw [FixedPoint.mul_scale_div_split hy]
  unfold divUnsigned
  rw [heq]
  dsimp only
  split
  · rename_i hle
    have hsquare : uone * uone < 2 ^ 128 := by decide
    rw [wrapU128_of_lt (Nat.lt_of_le_of_lt (Nat.mul_le_mul_right _ hle) hsquare)]
    exact hret.add_right _
  · exact hret.add (wrapU128_modEq _)

/-- **Division**: the exact quotient, cut off, as far as it can be represented. -/
theorem divX18_eq {x y : Int} (hx : InI128 x) (hy : InI128 y) (hne : y ≠ 0) :
    divX18 x y = some (wrapI128 ((x * oneX18).tdiv y)) := by
  obtain ⟨u, v, hu, hv, hxu, hyv, heq⟩ := signedToUnsigned_eq hx hy
  have hpos : 0 < y.natAbs := Int.natAbs_pos.2 hne
  have hexact : (x * oneX18).tdiv y = u * v * ((x.natAbs * uone / y.natAbs : Nat) : Int) := by
    have hscaled : x * oneX18 = u * ((x.natAbs * uone : Nat) : Int) := by
      rw [Int.natCast_mul, ← Int.mul_assoc, ← hxu]
      rfl
    calc (x * oneX18).tdiv y
        = (u * ((x.natAbs * uone : Nat) : Int)).tdiv (v * y.natAbs) := by rw [hscaled, ← hyv]
      _ = _ := FixedPoint.unit_mul_tdiv_unit_mul hu hv _ _
  unfold divX18
  rw [heq]
  dsimp only
  rw [if_neg (by omega), divUnsigned_eq hpos, asI128_wrapU128, wrapI128_mul_left, hexact,
    Int.mul_comm]

/-- **Fixed point arithmetic**: a product and a quotient are the exact ones, cut off towards zero,
exactly when these can be represented. -/
theorem x18_arithmetic_exact {x y : Int} (hx : InI128 x) (hy : InI128 y) :
    (mulX18 x y = (x * y).tdiv oneX18 ↔ InI128 ((x * y).tdiv oneX18)) ∧
      (y ≠ 0 → (divX18 x y = some ((x * oneX18).tdiv y) ↔ InI128 ((x * oneX18).tdiv y))) ∧
      divX18 x 0 = none := by
  refine ⟨?_, fun hne => ?_, ?_⟩
  · rw [mulX18_eq hx hy]
    exact wrapI128_eq_iff
  · rw [divX18_eq hx hy hne, Option.some_inj]
    exact wrapI128_eq_iff
  · obtain ⟨u, v, -, -, -, -, heq⟩ := signedToUnsigned_eq hx inI128_zero
    unfold divX18
    rw [heq]
    rfl

theorem x18_arithmetic_exact_half :
    mulX18 (3 * oneX18) (-oneX18 / 2) = -(3 * oneX18 / 2) ∧
      divX18 (-oneX18) (3 * oneX18) = some (-333333333333333333) :=
  ⟨(x18_arithmetic_exact (by decide) (by decide)).1.2 (by decide),
    ((x18_arithmetic_exact (by decide) (by decide)).2.1 (by decide)).2 (by decide)⟩

/-! ## Fees -/

/-- The part of an engine's answer that the calculator reads. -/
structure FeeRates where
  takerFeeRatesX18 : List Int
  makerFeeRatesX18 : List Int
  takerSequencerFee : Int

def FeeRates.rate (rates : FeeRates) (taker : Bool) (productId : UInt32) : Option Int :=
  (if taker then rates.takerFeeRatesX18 else rates.makerFeeRatesX18)[productId.toNat]?

def getKeepRate (rates : FeeRates) (productId : UInt32) (taker : Bool) : Option Int :=
  (rates.rate taker productId).map fun rate => wrapI128 (oneX18 - rate)

def newAmount (amount keepRate : Int) : Option Int :=
  if amount < 0 then divX18 amount keepRate else some (mulX18 amount keepRate)

/-- `calc_fee_inner` on the rates; `none` is a panic. -/
def calcFee (rates : FeeRates) (productId : UInt32) (amount : Int)
    (taker includeSequencerFee : Bool) : Option Int := do
  let keepRate ← getKeepRate rates productId taker
  let newAmt ← newAmount amount keepRate
  let newAmt :=
    if taker && includeSequencerFee then saturatingSubI128 newAmt rates.takerSequencerFee
    else newAmt
  return saturatingSubI128 amount newAmt

/-- What is kept of an amount: the greatest number within the keep rate of a positive one; of a
negative one, the negation of the greatest number of which the keep rate takes at most `-amount`. -/
structure Kept (amount rate kept : Int) : Prop where
  positive : 0 ≤ amount → IsGreatest {n | n * oneX18 ≤ amount * (oneX18 - rate)} kept
  negative : amount < 0 → IsGreatest {n | n * (oneX18 - rate) ≤ -amount * oneX18} (-kept)

theorem kept_exact {amount rate : Int} (hrate : rate < oneX18) :
    Kept amount rate
      (if amount < 0 then (amount * oneX18).tdiv (oneX18 - rate)
        else (amount * (oneX18 - rate)).tdiv oneX18) := by
  have hkeep : 0 < oneX18 - rate := by omega
  have hone : 0 < oneX18 := by decide
  refine ⟨fun h => ?_, fun h => ?_⟩
  · rw [if_neg (by omega), Int.tdiv_eq_ediv_of_nonneg (Int.mul_nonneg h (Int.le_of_lt hkeep))]
    exact Grid.isGreatest_ediv hone
  · have hpos : 0 ≤ -amount * oneX18 := Int.mul_nonneg (by omega) (Int.le_of_lt hone)
    rw [if_pos h, ← Int.neg_tdiv, ← Int.neg_mul, Int.tdiv_eq_ediv_of_nonneg hpos]
    exact Grid.isGreatest_ediv hkeep

theorem Kept.nonneg {amount rate kept : Int} (h : Kept amount rate kept) (hamount : 0 ≤ amount)
    (hlt : rate < oneX18) : 0 ≤ kept := by
  refine (h.positive hamount).2 ?_
  show 0 * oneX18 ≤ amount * (oneX18 - rate)
  rw [Int.zero_mul]
  exact Int.mul_nonneg hamount (by omega)

/-- A rate takes something away. -/
theorem Kept.le {amount rate kept : Int} (h : Kept amount rate kept) (hrate : 0 ≤ rate) :
    kept ≤ amount := by
  have hone : 0 < oneX18 := by decide
  rcases Int.lt_or_le amount 0 with hneg | hpos
  · have hmem : -amount * (oneX18 - rate) ≤ -amount * oneX18 :=
      Int.mul_le_mul_of_nonneg_left (by omega) (by omega)
    have hle := (h.negative hneg).2 hmem
    omega
  · have hmem : kept * oneX18 ≤ amount * (oneX18 - rate) := (h.positive hpos).1
    have hle : amount * (oneX18 - rate) ≤ amount * oneX18 :=
      Int.mul_le_mul_of_nonneg_left (by omega) hpos
    exact Int.le_of_mul_le_mul_right (Int.le_trans hmem hle) hone

/-- **The fee** of an amount is what is not kept of it, with the sequencer's fee for a taker. -/
theorem calcFee_exact {rates : FeeRates} {productId : UInt32} {amount rate : Int} {taker : Bool}
    (hrate : rates.rate taker productId = some rate) (hnonneg : 0 ≤ rate) (hlt : rate < oneX18)
    (hamount : InI128 amount)
    (hgross : amount < 0 → i128Min ≤ (amount * oneX18).tdiv (oneX18 - rate)) :
    ∃ kept, Kept amount rate kept ∧ kept ≤ amount ∧ ∀ includeSequencerFee,
      calcFee rates productId amount taker includeSequencerFee =
        some (saturatingSubI128 amount
          (if taker && includeSequencerFee then saturatingSubI128 kept rates.takerSequencerFee
            else kept)) := by
  have hkept := @kept_exact amount rate hlt
  have hle := hkept.le hnonneg
  have hkeep : InI128 (oneX18 - rate) := by
    unfold InI128 i128Min i128Max oneX18 at *
    omega
  have hamount' := hamount
  refine ⟨_, hkept, hle, fun includeSequencerFee => ?_⟩
  unfold InI128 at hamount'
  have hnew : newAmount amount (oneX18 - rate) =
      some (if amount < 0 then (amount * oneX18).tdiv (oneX18 - rate)
        else (amount * (oneX18 - rate)).tdiv oneX18) := by
    unfold newAmount
    split
    · rename_i hneg
      rw [if_pos hneg] at hle
      rw [divX18_eq hamount hkeep (by omega),
        wrapI128_of_inI128 ⟨hgross hneg, Int.le_trans hle hamount'.2⟩]
    · rename_i hpos
      have hzero := hkept.nonneg (by omega) hlt
      rw [if_neg hpos] at hle hzero
      have hmin : i128Min ≤ 0 := by decide
      rw [mulX18_eq hamount hkeep,
        wrapI128_of_inI128 ⟨Int.le_trans hmin hzero, Int.le_trans hle hamount'.2⟩]
  unfold calcFee getKeepRate
  rw [hrate, Option.map_some, wrapI128_of_inI128 hkeep, Option.bind_eq_bind, Option.bind_some, hnew]
  rfl

/-- A taker's sale at 0.02 percent, with a sequencer's fee. -/
theorem calcFee_exact_sale :
    ∃ kept, Kept (-oneX18) 200000000000000 kept ∧
      calcFee ⟨[200000000000000], [0], 1000⟩ 0 (-oneX18) true true =
        some (saturatingSubI128 (-oneX18) (saturatingSubI128 kept 1000)) := by
  obtain ⟨kept, hkept, -, hfee⟩ :=
    @calcFee_exact ⟨[200000000000000], [0], 1000⟩ 0 (-oneX18) 200000000000000 true rfl (by decide)
      (by decide) (by decide) (fun _ => by decide)
  exact ⟨kept, hkept, hfee true⟩

end Sdk
