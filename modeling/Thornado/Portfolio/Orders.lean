import Mathlib.Data.List.AList
import Thornado.Execution.Gateway
import Thornado.Lib.Listing
import Thornado.Portfolio.X18

/-!
# Open orders

`map_orders` of `gateway/portfolio/src/main.rs`. A panic is `none`; `overflowChecks` says whether
the build has overflow checks.

* `mapOrders_exact_iff`: when the rows are exactly the open orders.
-/

namespace Portfolio

open Rust

/-- `indexer::Order`, without the fields that `map_orders` does not read. -/
structure Order where
  digest : Execution.Bytes32
  productId : Int32
  amount : I128
  priceX18 : I128
  closedAmount : I128
  lastFillTimestamp : UInt64

structure OrderRow where
  id : String
  productId : UInt32
  market : String
  side : String
  price : String
  size : String
  status : String
  createdAt : Nat
  deriving DecidableEq

/-- `HashMap<u32, String>` -/
abbrev Symbols := AList fun _ : UInt32 => String

def hexDigest (digest : Execution.Bytes32) : String := "0x" ++ Execution.hexEncode digest.toList

def marketOf (symbols : Symbols) (productId : UInt32) : String :=
  (symbols.lookup productId).getD ("Perp #" ++ toString productId)

def openAmount (overflowChecks : Bool) (order : Order) : Option Int := do
  let total ← absI128 overflowChecks order.amount
  let closed ← absI128 overflowChecks order.closedAmount
  return saturatingSubI128 total closed

/-- The row of an order whose product id is not negative. -/
def orderRow (symbols : Symbols) (order : Order) (size : Int) : OrderRow :=
  let productId := order.productId.toInt.toNat.toUInt32
  { id := hexDigest order.digest
    productId := productId
    market := marketOf symbols productId
    side := if order.amount.val ≥ 0 then "LONG" else "SHORT"
    price := x18ToDecimalString order.priceX18
    size := x18ToDecimalString size
    status := "OPEN"
    createdAt := saturatingMulU64 order.lastFillTimestamp.toNat 1000 }

/-- The body of the loop: the row pushed for an order, if one is. -/
def mapOrder (overflowChecks : Bool) (symbols : Symbols) (order : Order) :
    Option (Option OrderRow) := do
  let size ← openAmount overflowChecks order
  if size = 0 then return none
  if order.productId < 0 then return none
  return some (orderRow symbols order size)

def mapOrders (overflowChecks : Bool) (response : Option (List Order)) (symbols : Symbols) :
    Option (List OrderRow) :=
  match response with
  | none => some []
  | some orders => do
    let rows ← orders.mapM (mapOrder overflowChecks symbols)
    return rows.reduceOption

/-! ## Open orders -/

/-- What is left to be filled. -/
def Order.remaining (order : Order) : Int := |order.amount.val| - |order.closedAmount.val|

/-- The row of an open order: the exact remaining quantity, the side by the sign of the amount. -/
def openOrder (symbols : Symbols) (order : Order) : Option OrderRow :=
  if 0 ≤ order.productId ∧ 0 < order.remaining then
    some { orderRow symbols order order.remaining with
      side := if 0 < order.amount.val then "LONG" else "SHORT" }
  else none

/-- An order that the arithmetic of `map_orders` handles. -/
def Order.Handled (overflowChecks : Bool) (order : Order) : Prop :=
  (overflowChecks → order.amount.val ≠ i128Min ∧ order.closedAmount.val ≠ i128Min) ∧
    (0 ≤ order.productId → |order.closedAmount.val| ≤ |order.amount.val| ∧
      (order.amount.val = i128Min → order.closedAmount.val = i128Min))

/-! ## The open amount -/

theorem openAmount_of_ne {overflowChecks : Bool} {order : Order}
    (ha : order.amount.val ≠ i128Min) (hc : order.closedAmount.val ≠ i128Min) :
    openAmount overflowChecks order = some order.remaining := by
  obtain ⟨hlow, hhigh⟩ := order.amount.property
  obtain ⟨hlow', hhigh'⟩ := order.closedAmount.property
  unfold openAmount
  rw [absI128_eq_some_iff.2 ha, absI128_eq_some_iff.2 hc]
  refine congrArg some ?_
  have ha' : |order.amount.val| ≤ i128Max :=
    abs_le.2 ⟨by unfold i128Min at hlow ha; unfold i128Max; omega, hhigh⟩
  have hc' : |order.closedAmount.val| ≤ i128Max :=
    abs_le.2 ⟨by unfold i128Min at hlow' hc; unfold i128Max; omega, hhigh'⟩
  have hpos := abs_nonneg order.amount.val
  have hpos' := abs_nonneg order.closedAmount.val
  unfold saturatingSubI128 saturateI128 Order.remaining i128Min
  unfold i128Max at ha' hc' ⊢
  omega

/-- What the two steps compute: the remaining quantity unless the least `i128` is involved. -/
theorem openAmount_cases (overflowChecks : Bool) (order : Order) :
    (openAmount overflowChecks order = some order.remaining ∧
      (order.amount.val = i128Min ↔ order.closedAmount.val = i128Min) ∧
      (overflowChecks → order.amount.val ≠ i128Min)) ∨
    (openAmount overflowChecks order = none ∧ overflowChecks ∧
      (order.amount.val = i128Min ∨ order.closedAmount.val = i128Min)) ∨
    (openAmount overflowChecks order = some i128Min ∧ overflowChecks = false ∧
      order.amount.val = i128Min ∧ order.closedAmount.val ≠ i128Min) ∨
    (openAmount overflowChecks order = some i128Max ∧ overflowChecks = false ∧
      order.amount.val ≠ i128Min ∧ order.closedAmount.val = i128Min) := by
  unfold openAmount
  by_cases ha : order.amount.val = i128Min
  · rw [ha]
    cases overflowChecks with
    | true => exact .inr (.inl ⟨rfl, rfl, .inl rfl⟩)
    | false =>
      rw [absI128_least]
      by_cases hc : order.closedAmount.val = i128Min
      · refine .inl ⟨?_, iff_of_true rfl hc, fun h => nomatch h⟩
        rw [Order.remaining, ha, hc, sub_self]
        rfl
      · refine .inr (.inr (.inl ⟨?_, rfl, rfl, hc⟩))
        rw [absI128_eq_some_iff.2 hc]
        exact congrArg some (saturatingSubI128_least (abs_nonneg _))
  · by_cases hc : order.closedAmount.val = i128Min
    · rw [absI128_eq_some_iff.2 ha, hc]
      cases overflowChecks with
      | true => exact .inr (.inl ⟨rfl, rfl, .inr rfl⟩)
      | false =>
        refine .inr (.inr (.inr ⟨?_, rfl, ha, rfl⟩))
        exact congrArg some (saturatingSubI128_of_least (abs_nonneg _))
    · exact .inl ⟨openAmount_of_ne ha hc, iff_of_false ha hc, fun _ => ha⟩

/-! ## The rows -/

theorem mapOrder_eq {overflowChecks : Bool} {order : Order} {size : Int} (symbols : Symbols)
    (h : openAmount overflowChecks order = some size) :
    mapOrder overflowChecks symbols order =
      some (if 0 ≤ order.productId ∧ size ≠ 0 then some (orderRow symbols order size)
        else none) := by
  simp only [mapOrder, h, Option.bind_eq_bind, Option.bind_some]
  by_cases hzero : size = 0
  · rw [if_pos hzero, if_neg fun hand => hand.2 hzero]
    rfl
  by_cases hneg : order.productId < 0
  · rw [if_neg hzero, if_pos hneg, if_neg fun hand => Int32.not_le.2 hneg hand.1]
    rfl
  · rw [if_neg hzero, if_neg hneg, if_pos ⟨Int32.not_lt.1 hneg, hzero⟩]
    rfl

/-- An order of amount zero has nothing left, so the two ways to take the side agree. -/
theorem openOrder_eq (symbols : Symbols) (order : Order) :
    openOrder symbols order =
      if 0 ≤ order.productId ∧ 0 < order.remaining then
        some (orderRow symbols order order.remaining)
      else none := by
  unfold openOrder
  split
  · rename_i hopen
    have hne : order.amount.val ≠ 0 := by
      intro hzero
      have hpos := hopen.2
      have := abs_nonneg order.closedAmount.val
      rw [Order.remaining, hzero, abs_zero] at hpos
      omega
    have hside : (if 0 < order.amount.val then "LONG" else "SHORT") =
        (orderRow symbols order order.remaining).side :=
      if_congr (by omega) rfl rfl
    rw [hside]
  · rfl

theorem remaining_of_least {order : Order} (ha : order.amount.val ≠ i128Min)
    (hc : order.closedAmount.val = i128Min) : order.remaining < 0 := by
  obtain ⟨hlow, hhigh⟩ := order.amount.property
  have habs : |order.amount.val| ≤ i128Max :=
    abs_le.2 ⟨by unfold i128Min at hlow ha; unfold i128Max; omega, hhigh⟩
  have hleast : |i128Min| = 2 ^ 127 := by decide
  rw [Order.remaining, hc, hleast]
  unfold i128Max at habs
  omega

/-- No row for an order without a product, whatever is computed for it. -/
theorem mapOrder_of_neg {overflowChecks : Bool} {symbols : Symbols} {order : Order}
    (hid : ¬ 0 ≤ order.productId) :
    mapOrder overflowChecks symbols order = some none ↔
      (openAmount overflowChecks order).isSome := by
  cases hopen : openAmount overflowChecks order with
  | none => simp [mapOrder, hopen]
  | some size => simp [mapOrder_eq symbols hopen, hid]

theorem openAmount_isSome (overflowChecks : Bool) (order : Order) :
    (openAmount overflowChecks order).isSome ↔
      (overflowChecks → order.amount.val ≠ i128Min ∧ order.closedAmount.val ≠ i128Min) := by
  obtain ⟨hopen, hboth, hno⟩ | ⟨hopen, hchecks, hmin⟩ | ⟨hopen, hoff, -, -⟩ | ⟨hopen, hoff, -, -⟩ :=
    openAmount_cases overflowChecks order
  · rw [hopen]
    exact iff_of_true rfl fun h => ⟨hno h, fun hc => hno h (hboth.2 hc)⟩
  · rw [hopen]
    exact iff_of_false (fun h => nomatch h) fun h => hmin.elim (h hchecks).1 (h hchecks).2
  · rw [hopen, hoff]
    exact iff_of_true rfl fun h => nomatch h
  · rw [hopen, hoff]
    exact iff_of_true rfl fun h => nomatch h

theorem mapOrder_exact_iff (overflowChecks : Bool) (symbols : Symbols) (order : Order) :
    mapOrder overflowChecks symbols order = some (openOrder symbols order) ↔
      order.Handled overflowChecks := by
  have hle : 0 ≤ order.remaining ↔ |order.closedAmount.val| ≤ |order.amount.val| := sub_nonneg
  have hsome := openAmount_isSome overflowChecks order
  unfold Order.Handled
  rw [openOrder_eq, ← hle, ← hsome]
  by_cases hid : 0 ≤ order.productId
  · simp only [hid, true_and, true_implies]
    obtain ⟨hopen, hboth, hno⟩ | ⟨hopen, hchecks, hmin⟩ | ⟨hopen, -, ha, hc⟩ | ⟨hopen, -, ha, hc⟩ :=
      openAmount_cases overflowChecks order
    · rw [mapOrder_eq symbols hopen, hopen]
      simp only [hid, true_and, Option.isSome_some, Option.some.injEq]
      rcases lt_trichotomy order.remaining 0 with hneg | hzero | hpos
      · -- an over-closed order has a row
        rw [if_pos (by omega), if_neg (by omega)]
        exact iff_of_false (fun h => nomatch h) fun h => by omega
      · rw [if_neg (by omega), if_neg (by omega)]
        exact iff_of_true rfl ⟨by omega, hboth.1⟩
      · rw [if_pos (by omega), if_pos hpos]
        exact iff_of_true rfl ⟨by omega, hboth.1⟩
    · rw [hopen]
      refine iff_of_false (fun h => ?_) fun h => nomatch h.1
      simp [mapOrder, hopen] at h
    · -- the row has the least size
      rw [mapOrder_eq symbols hopen, if_pos ⟨hid, by decide⟩]
      refine iff_of_false (fun h => ?_) fun h => hc (h.2.2 ha)
      split at h
      · have hsize : x18ToDecimalString i128Min = x18ToDecimalString order.remaining :=
          congrArg OrderRow.size (Option.some.inj (Option.some.inj h))
        have hleast := x18ToDecimalString_injective hsize
        unfold i128Min at hleast
        omega
      · cases h
    · -- there is a row, of the greatest size
      have hneg := remaining_of_least ha hc
      rw [mapOrder_eq symbols hopen, if_pos ⟨hid, by decide⟩, if_neg (by omega)]
      exact iff_of_false (fun h => nomatch h) fun h => by omega
  · rw [if_neg (fun h => hid h.1), mapOrder_of_neg hid]
    exact (and_iff_left fun h => absurd h hid).symm

/-- Where an open order has a row, `map_orders` pushes one, if it does not panic. -/
theorem mapOrder_isSome {overflowChecks : Bool} {symbols : Symbols} {order : Order}
    {row : Option OrderRow} (h : mapOrder overflowChecks symbols order = some row)
    (hopen : (openOrder symbols order).isSome) : row.isSome := by
  have hpos : 0 ≤ order.productId ∧ 0 < order.remaining := by
    unfold openOrder at hopen
    split at hopen
    · assumption
    · cases hopen
  obtain ⟨size, hsize, hne⟩ : ∃ size, openAmount overflowChecks order = some size ∧ size ≠ 0 := by
    obtain ⟨hsize, -⟩ | ⟨hnone, -⟩ | ⟨hsize, -⟩ | ⟨hsize, -⟩ :=
      openAmount_cases overflowChecks order
    · exact ⟨_, hsize, by omega⟩
    · simp [mapOrder, hnone] at h
    · exact ⟨_, hsize, by decide⟩
    · exact ⟨_, hsize, by decide⟩
  rw [mapOrder_eq symbols hsize, if_pos ⟨hpos.1, hne⟩] at h
  cases h
  rfl

/-- **When `map_orders` is exact**: it lists the open orders with their remaining quantities
exactly if every order is one its arithmetic handles. -/
theorem mapOrders_exact_iff (overflowChecks : Bool) (orders : List Order) (symbols : Symbols) :
    mapOrders overflowChecks (some orders) symbols =
        some (orders.filterMap (openOrder symbols)) ↔
      ∀ order ∈ orders, order.Handled overflowChecks := by
  have hmap : mapOrders overflowChecks (some orders) symbols =
      (orders.mapM (mapOrder overflowChecks symbols)).map List.reduceOption :=
    (Option.map_eq_bind ..).symm
  rw [hmap, Listing.mapM_reduceOption_iff fun _ _ _ => mapOrder_isSome]
  exact forall₂_congr fun order _ => mapOrder_exact_iff overflowChecks symbols order

/-- An order of which more was closed than it was for. -/
def overClosed : Order where
  digest := Vector.replicate 32 0
  productId := 2
  amount := ⟨10 ^ 18, inI128_one_x18⟩
  priceX18 := ⟨0, inI128_zero⟩
  closedAmount := ⟨2 * 10 ^ 18, by decide⟩
  lastFillTimestamp := 0

theorem mapOrders_over_closed :
    (mapOrders false (some [overClosed]) ∅).map (·.map OrderRow.size) = some ["-1"] ∧
      ¬ ∀ overflowChecks orders symbols, mapOrders overflowChecks (some orders) symbols =
        some (orders.filterMap (openOrder symbols)) := by
  have hrow : (mapOrders false (some [overClosed]) ∅).map (·.map OrderRow.size) = some ["-1"] := by
    decide +kernel
  refine ⟨hrow, fun h => ?_⟩
  have hnone : openOrder ∅ overClosed = none := by decide +kernel
  rw [h, List.filterMap_cons, hnone] at hrow
  cases hrow

end Portfolio
