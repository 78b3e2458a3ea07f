import Mathlib
import Thornado.Sdk.PlaceOrder

/-!
# The price of an order

`Order::order_price` (`nado_utils/eip712_structs.rs`): the limit, for a TWAP no worse than the
oracle price with the slippage.

* `orderPrice_built`: the price by the settings of the builder.
-/

namespace Sdk

open Rust

open Execution (Order)

def orderPrice (o : Order) (oraclePrice : Int) : Int :=
  if isTwap o then
    -- at most 2^32 * 10^12: no step before `mul_x18` can overflow
    let slippage := (((twapSlippageX6 o).getD 0).toNat * oneX18).tdiv oneX6
    let twapPrice :=
      if 0 < o.amount then mulX18 oraclePrice (oneX18 + slippage)
      else mulX18 oraclePrice (oneX18 - slippage)
    if 0 < o.amount then min o.priceX18 twapPrice else max o.priceX18 twapPrice
  else o.priceX18

/-- The oracle price with a slippage for or against it. -/
def slippedPrice (oraclePrice slippageX6 : Int) : Int :=
  wrapI128 ((oraclePrice * (oneX6 + slippageX6)).tdiv oneX6)

theorem slipped_eq {oraclePrice slippageX6 : Int} (horacle : InI128 oraclePrice)
    (hlow : -2 ^ 32 < slippageX6) (hhigh : slippageX6 < 2 ^ 32) :
    mulX18 oraclePrice (oneX18 + slippageX6 * oneX12) = slippedPrice oraclePrice slippageX6 := by
  have hfactor : InI128 (oneX18 + slippageX6 * oneX12) := by
    unfold InI128 i128Min i128Max oneX18 oneX12
    omega
  have hscale : oneX18 + slippageX6 * oneX12 = (oneX6 + slippageX6) * oneX12 := by
    rw [Int.add_mul]
    rfl
  have hone : oneX18 = oneX6 * oneX12 := by decide
  unfold slippedPrice
  rw [mulX18_eq horacle hfactor, hscale, ← Int.mul_assoc]
  conv_lhs => rw [hone, Int.mul_tdiv_mul_of_pos_left _ _ (by decide : 0 < oneX12)]

/-- **The price of a built order**: the limit, and for a TWAP no worse than the oracle price with
the slippage that was set. -/
theorem orderPrice_built {s : Surroundings} {b : PlaceOrderBuilder} {o : Order}
    (h : order s b = .ok o) (hopen : b.appendix = none) (hfits : Fits s b) {oraclePrice : Int}
    (horacle : InI128 oraclePrice) :
    ((∀ interval amounts, b.triggerCriteria ≠ some (.timeTrigger interval amounts)) →
      orderPrice o oraclePrice = o.priceX18) ∧
    ∀ interval amounts, b.triggerCriteria = some (.timeTrigger interval amounts) →
      ∃ slippageX6 : UInt32, b.slippageX6 = some slippageX6 ∧ orderPrice o oraclePrice =
        if 0 < o.amount then min o.priceX18 (slippedPrice oraclePrice slippageX6.toNat)
        else max o.priceX18 (slippedPrice oraclePrice (-slippageX6.toNat)) := by
  refine ⟨fun hnone => ?_, fun interval amounts htrigger => ?_⟩
  · have htwap : ¬ isTwap o = true := fun htwap => by
      obtain ⟨interval, amounts, htrigger⟩ := (isTwap_iff h hopen).1 htwap
      exact hnone interval amounts htrigger
    unfold orderPrice
    rw [if_neg htwap]
  · obtain ⟨-, times, slippageX6, -, hslippage⟩ := twap_settings h htrigger
    have htwap := (isTwap_iff h hopen).2 ⟨interval, amounts, htrigger⟩
    have hread := (twap_read h hopen hfits htwap).2
    have hlt := slippageX6.toNat_lt
    have hunit : ((slippageX6.toNat : Int) * oneX18).tdiv oneX6 = slippageX6.toNat * oneX12 :=
      margin_unit _
    have hbuy := slipped_eq horacle (by omega : -2 ^ 32 < (slippageX6.toNat : Int)) (by omega)
    have hsell := slipped_eq horacle (by omega : -2 ^ 32 < -(slippageX6.toNat : Int)) (by omega)
    rw [Int.neg_mul, ← Int.sub_eq_add_neg] at hsell
    refine ⟨slippageX6, hslippage, ?_⟩
    unfold orderPrice
    rw [if_pos htwap, hread, hslippage]
    dsimp only [Option.getD_some]
    rw [hunit, hbuy, hsell]
    split
    · rfl
    · rfl

theorem orderPrice_built_twap :
    ∃ o, order desk twapBuilder = .ok o ∧
      orderPrice o (2900 * oneX18) = 2914500000000000000000 := by
  obtain ⟨slippageX6, hslippage, hprice⟩ := (@orderPrice_built desk twapBuilder _ rfl rfl
    ⟨by decide, by decide, fun h => (nomatch h), fun _ => by decide⟩ (2900 * oneX18)
    (by decide)).2 _ _ rfl
  cases hslippage
  exact ⟨_, rfl, hprice.trans (by decide)⟩

end Sdk
