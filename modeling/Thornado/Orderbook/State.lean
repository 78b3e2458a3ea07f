import Thornado.Lib.KeyedFold
import Thornado.Rust.Prelude

/-!
# The order book state

`gateway/orderbook/src/orderbook_state.rs`. A side of the book is a map from price to size, both
with 18 decimals; the totals of a depth view are sums of `i128` as a release build computes them.
-/

namespace Orderbook

open Rust Std

variable {F : Type}

structure PriceLevel where
  priceX18 : Int
  sizeX18 : Int
  deriving DecidableEq

structure LevelDelta where
  priceX18 : Int
  sizeX18 : Int
  deriving DecidableEq

structure BookDelta where
  lastMaxTimestamp : Nat
  minTimestamp : Nat
  maxTimestamp : Nat
  bids : List LevelDelta
  asks : List LevelDelta
  deriving DecidableEq

inductive ApplyOutcome where
  | applied
  | stale
  | gap (currentTs eventLastMaxTs : Nat)
  deriving DecidableEq

abbrev Levels := ExtTreeMap Int Int

structure OrderBookState where
  bids : Levels := ∅
  asks : Levels := ∅
  lastTs : Nat := 0

namespace OrderBookState

def loadLevel (target : Levels) (level : PriceLevel) : Levels :=
  if level.sizeX18 > 0 then target.insert level.priceX18 level.sizeX18 else target

def loadSide (target : Levels) (levels : List PriceLevel) : Levels :=
  levels.foldl loadLevel target

def applyLevel (target : Levels) (level : LevelDelta) : Levels :=
  if level.sizeX18 = 0 then target.erase level.priceX18
  else if level.sizeX18 > 0 then target.insert level.priceX18 level.sizeX18
  else target

def applySideDelta (target : Levels) (levels : List LevelDelta) : Levels :=
  levels.foldl applyLevel target

def resetFromSnapshot (bids asks : List PriceLevel) (ts : Nat) : OrderBookState where
  bids := loadSide ∅ bids
  asks := loadSide ∅ asks
  lastTs := ts

def applyDelta (state : OrderBookState) (delta : BookDelta) : ApplyOutcome × OrderBookState :=
  if delta.maxTimestamp ≤ state.lastTs then (.stale, state)
  else if delta.lastMaxTimestamp > state.lastTs then
    (.gap state.lastTs delta.lastMaxTimestamp, state)
  else
    (.applied,
      { bids := applySideDelta state.bids delta.bids
        asks := applySideDelta state.asks delta.asks
        lastTs := delta.maxTimestamp })

end OrderBookState

/-! ## Depth views -/

structure PriceLevelView (F : Type) where
  priceX18 : String
  sizeX18 : String
  totalX18 : String
  price : F
  size : F
  total : F

structure DepthView (F : Type) where
  bids : List (PriceLevelView F)
  asks : List (PriceLevelView F)

section
variable [F64 F]

def x18ToF64 (valueX18 : Int) : F := F64.div (F64.ofInt valueX18) (F64.ofInt (10 ^ 18))

def levelView (priceX18 sizeX18 totalX18 : Int) : PriceLevelView F where
  priceX18 := toString priceX18
  sizeX18 := toString sizeX18
  totalX18 := toString totalX18
  price := x18ToF64 priceX18
  size := x18ToF64 sizeX18
  total := x18ToF64 totalX18

/-- The views of levels in display order, each with the total so far. -/
def levelViews (total : Int) : List (Int × Int) → List (PriceLevelView F)
  | [] => []
  | (priceX18, sizeX18) :: levels =>
    let total := wrapI128 (total + sizeX18)
    levelView priceX18 sizeX18 total :: levelViews total levels

/-- The best levels of a side of asks: the lowest prices. -/
def bestAsks (asks : Levels) (depth : Nat) : List (Int × Int) := asks.toList.take depth

/-- The best levels of a side of bids: the highest prices. -/
def bestBids (bids : Levels) (depth : Nat) : List (Int × Int) := bids.toList.reverse.take depth

def OrderBookState.depthView (state : OrderBookState) (depth : Nat) : DepthView F where
  bids := levelViews 0 (bestBids state.bids depth)
  asks := levelViews 0 (bestAsks state.asks depth)

end

/-! ## What an update does at one price -/

/-- A size as an entry of a side: none if there is nothing left. -/
def entry (size : Int) : Option Int := if size = 0 then none else some size

/-- The size at a price. -/
def sizeAt (side : Levels) (price : Int) : Option Int := side[price]?

theorem sizeAt_insert (side : Levels) (price size q : Int) :
    sizeAt (side.insert price size) q = if price = q then some size else sizeAt side q := by
  unfold sizeAt
  rw [ExtTreeMap.getElem?_insert]
  simp only [Std.compare_eq_iff_eq]

theorem sizeAt_erase (side : Levels) (price q : Int) :
    sizeAt (side.erase price) q = if price = q then none else sizeAt side q := by
  unfold sizeAt
  rw [ExtTreeMap.getElem?_erase]
  simp only [Std.compare_eq_iff_eq]

theorem loadLevel_local :
    KeyedFold.Local sizeAt PriceLevel.priceX18 OrderBookState.loadLevel := by
  intro target level price hne
  unfold OrderBookState.loadLevel
  split
  · rw [sizeAt_insert, if_neg hne]
  · rfl

theorem applyLevel_local :
    KeyedFold.Local sizeAt LevelDelta.priceX18 OrderBookState.applyLevel := by
  intro target level price hne
  unfold OrderBookState.applyLevel
  split
  · rw [sizeAt_erase, if_neg hne]
  · split
    · rw [sizeAt_insert, if_neg hne]
    · rfl

theorem applyLevel_self (target : Levels) {level : LevelDelta} (h : 0 ≤ level.sizeX18) :
    sizeAt (OrderBookState.applyLevel target level) level.priceX18 = entry level.sizeX18 := by
  unfold OrderBookState.applyLevel entry
  split
  · rw [sizeAt_erase, if_pos rfl]
  · rw [if_pos (by omega), sizeAt_insert, if_pos rfl]

theorem loadSide_other {levels : List PriceLevel} {target : Levels} {price : Int}
    (h : ∀ l ∈ levels, l.priceX18 ≠ price) :
    sizeAt (OrderBookState.loadSide target levels) price = sizeAt target price :=
  loadLevel_local.foldl_other levels target h

/-- A price the snapshot lists, always with the same positive size. -/
theorem loadSide_listed {levels : List PriceLevel} {target : Levels} {price size : Int}
    (hsize : 0 < size) (hex : ∃ l ∈ levels, l.priceX18 = price)
    (hall : ∀ l ∈ levels, l.priceX18 = price → l.sizeX18 = size) :
    sizeAt (OrderBookState.loadSide target levels) price = some size := by
  refine loadLevel_local.foldl_listed levels target hex fun l hl hp c => ?_
  unfold OrderBookState.loadLevel
  rw [hall l hl hp, if_pos (by omega), sizeAt_insert, if_pos hp]

theorem applySideDelta_other {levels : List LevelDelta} {target : Levels} {price : Int}
    (h : ∀ l ∈ levels, l.priceX18 ≠ price) :
    sizeAt (OrderBookState.applySideDelta target levels) price = sizeAt target price :=
  applyLevel_local.foldl_other levels target h

/-- A price the delta lists, always with the same size. -/
theorem applySideDelta_listed {levels : List LevelDelta} {target : Levels} {price size : Int}
    (hsize : 0 ≤ size) (hex : ∃ l ∈ levels, l.priceX18 = price)
    (hall : ∀ l ∈ levels, l.priceX18 = price → l.sizeX18 = size) :
    sizeAt (OrderBookState.applySideDelta target levels) price = entry size := by
  refine applyLevel_local.foldl_listed levels target hex fun l hl hp c => ?_
  have hs := hall l hl hp
  rw [← hs, ← hp]
  exact applyLevel_self c (by omega)

/-- **The three answers to a delta**, each with what it does to the state. -/
theorem applyDelta_cases (state : OrderBookState) (delta : BookDelta) :
    (state.applyDelta delta = (.stale, state) ∧ delta.maxTimestamp ≤ state.lastTs) ∨
    (state.applyDelta delta = (.gap state.lastTs delta.lastMaxTimestamp, state) ∧
      state.lastTs < delta.maxTimestamp ∧ state.lastTs < delta.lastMaxTimestamp) ∨
    ((state.applyDelta delta).1 = .applied ∧
      (state.applyDelta delta).2.lastTs = delta.maxTimestamp ∧
      state.lastTs < delta.maxTimestamp ∧ delta.lastMaxTimestamp ≤ state.lastTs) := by
  unfold OrderBookState.applyDelta
  split
  · exact .inl ⟨rfl, ‹_›⟩
  · split
    · exact .inr (.inl ⟨rfl, by omega, by omega⟩)
    · exact .inr (.inr ⟨rfl, rfl, by omega, by omega⟩)

end Orderbook
