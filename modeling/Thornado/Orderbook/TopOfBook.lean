import Mathlib
import Thornado.Lib.Ranked
import Thornado.Orderbook.Upstream

/-!
# The displayed levels

A session loads the best `depth` levels of each side and shows the best `depth` levels of what it
has. A level the snapshot cut off is not in the local book until a delta lists it, also when the
levels in front of it are taken.

* `top_of_book_iff`: the display is the true book's exactly as long as no such level is among the
  best `depth` of the true book.
-/

namespace Orderbook

open Rust Rust.Json Std Transition

variable {F : Type}

/-! ## What is shown -/

/-- The price and the size of a level as they are shown. -/
def label (level : Int × Int) : String × String := (toString level.1, toString level.2)

def shown (views : List (PriceLevelView F)) : List (String × String) :=
  views.map fun view => (view.priceX18, view.sizeX18)

theorem label_injective : Function.Injective label := by
  intro a b h
  have hprice : toString a.1 = toString b.1 := congrArg Prod.fst h
  have hsize : toString a.2 = toString b.2 := congrArg Prod.snd h
  exact Prod.ext (Int.repr_injective hprice) (Int.repr_injective hsize)

theorem shown_levelViews [F64 F] : ∀ (levels : List (Int × Int)) (total : Int),
    shown (levelViews total levels : List (PriceLevelView F)) = levels.map label
  | [], _ => rfl
  | level :: levels, total => by
    unfold levelViews
    have ih : shown (levelViews (wrapI128 (total + level.2)) levels : List (PriceLevelView F)) =
        levels.map label := shown_levelViews levels _
    rw [List.map_cons, ← ih]
    rfl

/-- The best levels of a side. -/
def best (book : Side → Levels) (depth : Nat) : Side → List (Int × Int)
  | .bid => bestBids (book .bid) depth
  | .ask => bestAsks (book .ask) depth

def DepthView.side (view : DepthView F) : Side → List (PriceLevelView F)
  | .bid => view.bids
  | .ask => view.asks

theorem shown_depthView [F64 F] (state : OrderBookState) (depth : Nat) (side : Side) :
    shown ((state.depthView depth : DepthView F).side side) =
      (best state.side depth side).map label := by
  cases side with
  | bid => exact shown_levelViews _ 0
  | ask => exact shown_levelViews _ 0

theorem mem_of_mem_best {book : Side → Levels} {depth : Nat} {side : Side} {level : Int × Int}
    (h : level ∈ best book depth side) : sizeAt (book side) level.1 = some level.2 := by
  unfold sizeAt
  rw [← ExtTreeMap.mem_toList_iff_getElem?_eq_some]
  cases side with
  | bid => exact List.mem_reverse.1 (List.mem_of_mem_take h)
  | ask => exact List.mem_of_mem_take h

/-- The best levels of a book that lacks some levels of another one. -/
theorem best_eq_iff {book full : Side → Levels} {depth : Nat} {side : Side}
    (h : ∀ price size,
      sizeAt (book side) price = some size → sizeAt (full side) price = some size) :
    best book depth side = best full depth side ↔
      ∀ level ∈ best full depth side, sizeAt (book side) level.1 = some level.2 := by
  have hsub : (book side).toList.Sublist (full side).toList := Ranked.toList_sublist h
  have hn := Ranked.toList_nodup (full side)
  have hmem : ∀ level : Int × Int, level ∈ (book side).toList ↔
      sizeAt (book side) level.1 = some level.2 := fun _ =>
    ExtTreeMap.mem_toList_iff_getElem?_eq_some
  simp only [← hmem]
  cases side with
  | bid =>
    have hrev := Ranked.take_eq_iff hsub.reverse (List.nodup_reverse.2 hn) depth
    simp only [List.mem_reverse] at hrev
    exact hrev
  | ask => exact Ranked.take_eq_iff hsub hn depth

/-! ## Truncated snapshots -/

/-- The snapshot is the best `depth` levels of each side of the true book at its timestamp. -/
def Upstream.Truncates (u : Upstream) (depth : Nat) (snapshot : MarketLiquidity) : Prop :=
  ∀ side, snapshot.levels side =
    (best (u.bookAt snapshot.timestamp) depth side).map fun level => ⟨level.1, level.2⟩

theorem Upstream.Truncates.reflects {u : Upstream} {depth : Nat} {snapshot : MarketLiquidity}
    (h : u.Truncates depth snapshot) : u.Reflects snapshot := by
  intro side l hl
  rw [h side] at hl
  obtain ⟨level, hlevel, rfl⟩ := List.mem_map.1 hl
  exact mem_of_mem_best hlevel

/-- The display shows the best `depth` levels of each side of the true book at the local time. -/
def ShowsBest [F64 F] (u : Upstream) (m : Market F) : Prop :=
  ∀ side, shown ((m.state.depthView m.depth : DepthView F).side side) =
    (best (u.bookAt m.state.lastTs) m.depth side).map label

/-- None of the best `depth` levels of the true book was cut off by the snapshot and has not been
listed by an applied delta since. -/
def NoneCutOff (u : Upstream) (snapshot : MarketLiquidity) (s : Session F) : Prop :=
  ∀ side, ∀ level ∈ best (u.bookAt s.market.state.lastTs) s.market.depth side,
    Known snapshot s.applied (side, level.1)

section
variable [UnicodeCase] [F64 F]

/-- **When the display is complete**, in every run of a session from a truncated snapshot: exactly
when no level that the snapshot cut off has moved into the window. -/
theorem top_of_book_iff {json : SerdeJson F} {u : Upstream} {m : Market F}
    {snapshot : MarketLiquidity} (hsnap : u.Truncates m.depth snapshot) {s : Session F}
    (h : Reach (Session.step json) (Delivers json u) (· = Session.start m snapshot) s) :
    ShowsBest u s.market ↔ NoneCutOff u snapshot s := by
  have hagrees := (Tracks.of_reach hsnap.reflects h).agrees
  have hsub : ∀ side price size, sizeAt (s.market.state.side side) price = some size →
      sizeAt (u.bookAt s.market.state.lastTs side) price = some size := fun side price size hs =>
    hagrees.sound (k := (side, price)) hs
  unfold ShowsBest NoneCutOff
  refine forall_congr' fun side => ?_
  rw [shown_depthView, (List.map_injective_iff.2 label_injective).eq_iff, best_eq_iff (hsub side)]
  refine forall_congr' fun level => imp_congr_right fun hlevel => ?_
  have htrue : levelsOf (u.bookAt s.market.state.lastTs) (side, level.1) = some level.2 :=
    mem_of_mem_best hlevel
  constructor
  · -- a level the session holds is one it has seen
    intro hlocal
    by_contra hnot
    have hnone := hagrees.elsewhere (side, level.1) hnot
    rw [show levelsOf s.market.state.side (side, level.1) = some level.2 from hlocal] at hnone
    cases hnone
  · intro hknown
    have hlocal := hagrees.at_known (side, level.1) hknown
    rw [htrue] at hlocal
    exact hlocal

end

/-! ## A level behind the snapshot -/

section
attribute [local instance] asciiCase

theorem sweepSnapshot_truncates : sweep.Truncates sweepMarket.depth (sweepSnapshot 2) := by
  intro side
  cases side with
  | bid => decide
  | ask => decide

theorem top_of_book_sweep : ∃ s, sweepRun = some s ∧
    (ShowsBest sweep s.market ↔ NoneCutOff sweep (sweepSnapshot 2) s) := by
  have hrun : sweepRun.isSome := by decide +kernel
  obtain ⟨s, hs⟩ := Option.isSome_iff_exists.1 hrun
  have hstart : Reach (Session.step sweepJson) (Delivers sweepJson sweep)
      (· = Session.start sweepMarket (sweepSnapshot 2))
      (Session.start sweepMarket (sweepSnapshot 2)) := .start rfl
  exact ⟨s, hs, top_of_book_iff sweepSnapshot_truncates (hstart.of_run hs)⟩

/-- The best ask is taken: the display shows no ask, the true book has one at 101. -/
theorem top_of_book_incomplete : ¬ ∀ s, Reach (Session.step sweepJson) (Delivers sweepJson sweep)
    (· = Session.start sweepMarket (sweepSnapshot 2)) s → ShowsBest sweep s.market := by
  intro h
  have hrun : sweepRun.map (fun s => ((s.market.state.asks.toList, s.market.state.lastTs),
      s.market.depth)) = some (([], 3), 1) := by decide +kernel
  obtain ⟨s, hs, heq⟩ := Option.map_eq_some_iff.1 hrun
  simp only [Prod.mk.injEq] at heq
  obtain ⟨⟨hasks, hts⟩, hdepth⟩ := heq
  have hstart : Reach (Session.step sweepJson) (Delivers sweepJson sweep)
      (· = Session.start sweepMarket (sweepSnapshot 2))
      (Session.start sweepMarket (sweepSnapshot 2)) := .start rfl
  have hbest := h s (hstart.of_run hs) .ask
  rw [shown_depthView, hts, hdepth] at hbest
  have hlocal : best s.market.state.side 1 .ask = [] := by
    show s.market.state.asks.toList.take 1 = []
    rw [hasks]
    rfl
  have htrue : best (sweep.bookAt 3) 1 .ask = [(101, 7)] := by decide
  rw [hlocal, htrue] at hbest
  cases hbest

end

end Orderbook
