import Thornado.Lib.RunningTotal
import Thornado.Rust.Int128
import Thornado.Orderbook.TopOfBook

/-!
# The depth view of a reachable book

The books that `reset_from_snapshot` and `apply_delta` can build, and what `depth_view` makes of
them. A book is the writes since the last snapshot, the last one at each price (`Records.exec`).

* `afterOps_depth`: every stored size is positive; the view lists the best levels, each once, with
  the exact running total as long as it fits `i128`.
* `totalsExact_iff`: when every running total fits.
-/

namespace Orderbook

open Rust Rust.Json Std RunningTotal

variable {F : Type}

/-! ## Books -/

inductive BookOp where
  | resetFromSnapshot (bids asks : List PriceLevel) (ts : Nat)
  | applyDelta (delta : BookDelta)

def BookOp.exec (state : OrderBookState) : BookOp → OrderBookState
  | .resetFromSnapshot bids asks ts => .resetFromSnapshot bids asks ts
  | .applyDelta delta => (state.applyDelta delta).2

/-- The book after a sequence of calls. -/
def afterOps (ops : List BookOp) : OrderBookState := ops.foldl BookOp.exec {}

def PriceLevel.toDelta (level : PriceLevel) : LevelDelta := ⟨level.priceX18, level.sizeX18⟩

/-- The writes to the book since the last snapshot: the positive sizes of the snapshot, then the
sizes of the applied deltas, without the negative ones. -/
structure Written where
  writes : Side → List LevelDelta := fun _ => []
  lastTs : Nat := 0

def Written.step (w : Written) : BookOp → Written
  | .resetFromSnapshot bids asks ts =>
    { writes := fun side =>
        (((⟨bids, asks, ts⟩ : MarketLiquidity).levels side).filter
          fun level => 0 < level.sizeX18).map PriceLevel.toDelta
      lastTs := ts }
  | .applyDelta delta =>
    if w.lastTs < delta.maxTimestamp ∧ delta.lastMaxTimestamp ≤ w.lastTs then
      { writes := fun side =>
          w.writes side ++ (delta.levels side).filter fun level => 0 ≤ level.sizeX18
        lastTs := delta.maxTimestamp }
    else w

def written (ops : List BookOp) : Written := ops.foldl Written.step {}

/-- The last size written at a price, `0` if there is none. -/
def lastSize (writes : List LevelDelta) (price : Int) : Int :=
  ((writes.filter (·.priceX18 = price)).getLast?.map LevelDelta.sizeX18).getD 0

/-- The size that stands on a side: the last one of every price. -/
def standing (writes : List LevelDelta) : Int :=
  ∑ price ∈ (writes.map LevelDelta.priceX18).toFinset, lastSize writes price

/-! ## A book is what was written -/

structure Records (w : Written) (state : OrderBookState) : Prop where
  lastTs : state.lastTs = w.lastTs
  side : ∀ side, state.side side = OrderBookState.applySideDelta ∅ (w.writes side)
  nonneg : ∀ side, ∀ l ∈ w.writes side, 0 ≤ l.sizeX18

theorem loadLevel_eq (target : Levels) (level : PriceLevel) :
    OrderBookState.loadLevel target level =
      if 0 < level.sizeX18 then OrderBookState.applyLevel target level.toDelta else target := by
  unfold OrderBookState.loadLevel OrderBookState.applyLevel
  split
  · show _ = if level.sizeX18 = 0 then _ else if level.sizeX18 > 0 then _ else _
    rw [if_neg (by omega), if_pos (by omega)]
    rfl
  · rfl

theorem loadSide_eq (target : Levels) (levels : List PriceLevel) :
    OrderBookState.loadSide target levels = OrderBookState.applySideDelta target
      ((levels.filter fun level => 0 < level.sizeX18).map PriceLevel.toDelta) := by
  unfold OrderBookState.loadSide OrderBookState.applySideDelta
  rw [List.foldl_map, List.foldl_filter]
  refine List.foldl_ext _ _ _ fun target level _ => ?_
  simp only [decide_eq_true_eq]
  exact loadLevel_eq target level

theorem applySideDelta_nonneg (target : Levels) (levels : List LevelDelta) :
    OrderBookState.applySideDelta target levels = OrderBookState.applySideDelta target
      (levels.filter fun level => 0 ≤ level.sizeX18) := by
  unfold OrderBookState.applySideDelta
  rw [List.foldl_filter]
  refine List.foldl_ext _ _ _ fun target level _ => ?_
  simp only [OrderBookState.applyLevel, decide_eq_true_eq]
  split
  · rw [if_pos (by omega)]
  · split
    · rw [if_pos (by omega)]
    · rw [if_neg (by omega)]

theorem Records.exec {w : Written} {state : OrderBookState} (h : Records w state) (op : BookOp) :
    Records (w.step op) (op.exec state) := by
  cases op with
  | resetFromSnapshot bids asks ts =>
    refine ⟨rfl, fun side => ?_, fun side l hl => ?_⟩
    · cases side with
      | bid => exact loadSide_eq ∅ bids
      | ask => exact loadSide_eq ∅ asks
    · obtain ⟨level, hlevel, rfl⟩ := List.mem_map.1 hl
      have hpos := (List.mem_filter.1 hlevel).2
      show 0 ≤ level.sizeX18
      simp only [decide_eq_true_eq] at hpos
      omega
  | applyDelta delta =>
    have hts := h.lastTs
    simp only [BookOp.exec, Written.step, OrderBookState.applyDelta]
    by_cases hstale : delta.maxTimestamp ≤ state.lastTs
    · rw [if_pos hstale, if_neg (by omega)]
      exact h
    by_cases hgap : delta.lastMaxTimestamp > state.lastTs
    · rw [if_neg hstale, if_pos hgap, if_neg (by omega)]
      exact h
    rw [if_neg hstale, if_neg hgap, if_pos (by omega)]
    refine ⟨rfl, fun side => ?_, fun side l hl => ?_⟩
    · have happ : ∀ levels, OrderBookState.applySideDelta (state.side side) levels =
          OrderBookState.applySideDelta ∅
            (w.writes side ++ levels.filter fun level => 0 ≤ level.sizeX18) := by
        intro levels
        rw [applySideDelta_nonneg, h.side side]
        exact (List.foldl_append ..).symm
      cases side with
      | bid => exact happ delta.bids
      | ask => exact happ delta.asks
    · rcases List.mem_append.1 hl with hl | hl
      · exact h.nonneg side l hl
      · simpa using (List.mem_filter.1 hl).2

/-- **Every book is what was written to it.** -/
theorem records_afterOps (ops : List BookOp) : Records (written ops) (afterOps ops) := by
  have key : ∀ (ops : List BookOp) (w : Written) (state : OrderBookState), Records w state →
      Records (ops.foldl Written.step w) (ops.foldl BookOp.exec state) := by
    intro ops
    induction ops with
    | nil => intro w state h; exact h
    | cons op ops ih => intro w state h; exact ih _ _ (h.exec op)
  refine key ops {} {} ⟨rfl, fun side => ?_, fun _ l hl => absurd hl List.not_mem_nil⟩
  cases side with
  | bid => rfl
  | ask => rfl

namespace Records

variable {w : Written} {state : OrderBookState}

theorem sizeAt_side (h : Records w state) (side : Side) (price : Int) :
    sizeAt (state.side side) price = entry (lastSize (w.writes side) price) := by
  have hat : ∀ (target : Levels) (l : LevelDelta), l.priceX18 = price →
      sizeAt (OrderBookState.applyLevel target l) price =
        if 0 ≤ l.sizeX18 then entry l.sizeX18 else sizeAt target price := by
    intro target l hl
    subst hl
    split
    · exact applyLevel_self target ‹_›
    · unfold OrderBookState.applyLevel
      rw [if_neg (by omega), if_neg (by omega)]
  have hfold := applyLevel_local.foldl_at
    (u := fun size l => if 0 ≤ l.sizeX18 then entry l.sizeX18 else size) hat (w.writes side) ∅
  have hkeep : ∀ (ws : List LevelDelta) (size : Option Int), (∀ l ∈ ws, 0 ≤ l.sizeX18) →
      ws.foldl (fun size l => if 0 ≤ l.sizeX18 then entry l.sizeX18 else size) size =
        ws.foldl (fun _ l => entry l.sizeX18) size := fun ws size hws =>
    List.foldl_ext _ _ _ fun _ l hl => if_pos (hws l hl)
  rw [h.side side]
  refine hfold.trans ?_
  rw [hkeep _ _ fun l hl => h.nonneg side l (List.mem_of_mem_filter hl), KeyedFold.foldl_last]
  unfold lastSize
  cases ((w.writes side).filter (·.priceX18 = price)).getLast? with
  | none => rfl
  | some l => rfl

theorem lastSize_nonneg (h : Records w state) (side : Side) (price : Int) :
    0 ≤ lastSize (w.writes side) price := by
  unfold lastSize
  cases hlast : ((w.writes side).filter (·.priceX18 = price)).getLast? with
  | none => exact Int.le_refl 0
  | some l =>
    exact h.nonneg side l (List.mem_of_mem_filter (List.mem_of_getLast? hlast))

/-- What is stored: the last sizes that are not zero. -/
theorem sizeAt_eq_some (h : Records w state) {side : Side} {price size : Int} :
    sizeAt (state.side side) price = some size ↔
      lastSize (w.writes side) price = size ∧ size ≠ 0 := by
  rw [h.sizeAt_side, entry]
  split
  · rename_i hz
    refine iff_of_false (fun h => nomatch h) fun hsize => hsize.2 (hsize.1 ▸ hz)
  · rename_i hz
    rw [Option.some.injEq]
    exact (and_iff_left_of_imp fun hsize => hsize ▸ hz).symm

theorem size_pos (h : Records w state) {side : Side} {price size : Int}
    (hs : sizeAt (state.side side) price = some size) : 0 < size := by
  obtain ⟨rfl, hne⟩ := h.sizeAt_eq_some.1 hs
  have := h.lastSize_nonneg side price
  omega

/-- **The sizes of a side sum up to what stands.** -/
theorem sum_sizes (h : Records w state) (side : Side) :
    ((state.side side).toList.map Prod.snd).sum = standing (w.writes side) := by
  refine RunningTotal.sum_entries ?_ (fun price size => ?_) fun price hne => ?_
  · rw [ExtTreeMap.map_fst_toList_eq_keys]
    exact ExtTreeMap.nodup_keys
  · rw [ExtTreeMap.mem_toList_iff_getElem?_eq_some]
    exact h.sizeAt_eq_some
  · by_contra hno
    have hfilter : (w.writes side).filter (·.priceX18 = price) = [] := by
      refine List.filter_eq_nil_iff.2 fun l hl hp => hno (List.mem_toFinset.2 ?_)
      exact List.mem_map.2 ⟨l, hl, by simpa using hp⟩
    unfold lastSize at hne
    rw [hfilter] at hne
    exact hne rfl

end Records

/-! ## The view -/

/-- A price nearer to the other side of the book. -/
def Side.Better : Side → Int → Int → Prop
  | .bid, price, other => other < price
  | .ask, price, other => price < other

/-- All levels of a side, best first. -/
def ranking (book : Side → Levels) : Side → List (Int × Int)
  | .bid => (book .bid).toList.reverse
  | .ask => (book .ask).toList

theorem best_eq_take (book : Side → Levels) (depth : Nat) (side : Side) :
    best book depth side = (ranking book side).take depth := by
  cases side with
  | bid => rfl
  | ask => rfl

theorem mem_ranking {book : Side → Levels} {side : Side} {level : Int × Int} :
    level ∈ ranking book side ↔ sizeAt (book side) level.1 = some level.2 := by
  unfold sizeAt
  rw [← ExtTreeMap.mem_toList_iff_getElem?_eq_some]
  cases side with
  | bid => exact List.mem_reverse
  | ask => exact Iff.rfl

theorem ranking_length (book : Side → Levels) (side : Side) :
    (ranking book side).length = (book side).size := by
  cases side with
  | bid => exact (List.length_reverse ..).trans ExtTreeMap.length_toList
  | ask => exact ExtTreeMap.length_toList

theorem ranking_pairwise (book : Side → Levels) (side : Side) :
    (ranking book side).Pairwise fun a b => side.Better a.1 b.1 := by
  have hsorted : (book side).toList.Pairwise fun a b => a.1 < b.1 :=
    (Ranked.toList_pairwise (book side)).imp fun h => compare_lt_iff_lt.1 h
  cases side with
  | bid => exact List.pairwise_reverse.2 hsorted
  | ask => exact hsorted

theorem Side.Better.ne {side : Side} {price other : Int} (h : side.Better price other) :
    price ≠ other := by
  cases side with
  | bid => exact Ne.symm (Int.ne_of_lt h)
  | ask => exact Int.ne_of_lt h

/-- The exact sum of the sizes up to the level at `i`. -/
def totalAt (levels : List (Int × Int)) (i : Nat) : Int :=
  ((levels.take (i + 1)).map Prod.snd).sum

/-- The levels are the best ones of a side, best first, and the views show them: each price and
size and the total so far, written out and as a number of whole units. -/
structure ShowsLevels [F64 F] (state : OrderBookState) (side : Side) (depth : Nat)
    (levels : List (Int × Int)) (views : List (PriceLevelView F)) : Prop where
  count : levels.length = min depth (state.side side).size
  stored : ∀ l ∈ levels, sizeAt (state.side side) l.1 = some l.2
  best : ∀ price size, sizeAt (state.side side) price = some size →
    (price, size) ∈ levels ∨ ∀ l ∈ levels, side.Better l.1 price
  sorted : levels.Pairwise fun a b => side.Better a.1 b.1
  once : (levels.map Prod.fst).Nodup
  length : views.length = levels.length
  view : ∀ i, ∀ hi : i < levels.length, InI128 (totalAt levels i) →
    views[i]? = some
      { priceX18 := toString levels[i].1
        sizeX18 := toString levels[i].2
        totalX18 := toString (totalAt levels i)
        price := F64.div (F64.ofInt levels[i].1) (F64.ofInt (10 ^ 18))
        size := F64.div (F64.ofInt levels[i].2) (F64.ofInt (10 ^ 18))
        total := F64.div (F64.ofInt (totalAt levels i)) (F64.ofInt (10 ^ 18)) }
  increasing : ∀ i j, i < j → j < levels.length → totalAt levels i < totalAt levels j

section
variable [F64 F]

/-- The views with wrapped totals, from the exact ones. -/
theorem levelViews_eq : ∀ (levels : List (Int × Int)) (total : Int),
    (levelViews (wrapI128 total) levels : List (PriceLevelView F)) =
      List.zipWith (fun level total => levelView level.1 level.2 (wrapI128 total)) levels
        (totals Prod.snd total levels)
  | [], _ => rfl
  | level :: levels, total => by
    have ih := levelViews_eq levels (total + level.2)
    simp only [levelViews, totals, wrapI128_wrapI128_add, List.zipWith_cons_cons, ih]

theorem depthView_side (state : OrderBookState) (depth : Nat) (side : Side) :
    (state.depthView depth : DepthView F).side side =
      List.zipWith (fun level total => levelView level.1 level.2 (wrapI128 total))
        (best state.side depth side) (totals Prod.snd 0 (best state.side depth side)) := by
  rw [← levelViews_eq, wrapI128_of_inI128 (by decide)]
  cases side with
  | bid => rfl
  | ask => rfl

theorem totals_best_getElem? {levels : List (Int × Int)} {i : Nat} (hi : i < levels.length) :
    (totals Prod.snd 0 levels)[i]? = some (totalAt levels i) := by
  rw [totals_getElem? Prod.snd levels 0 i hi, zero_add]
  rfl

theorem depthView_shows {state : OrderBookState}
    (hpos : ∀ side price size, sizeAt (state.side side) price = some size → 0 < size)
    (depth : Nat) (side : Side) :
    ShowsLevels state side depth (best state.side depth side)
      ((state.depthView depth : DepthView F).side side) := by
  have hsorted := (ranking_pairwise state.side side).sublist (List.take_sublist depth _)
  rw [← best_eq_take] at hsorted
  refine ⟨?_, fun l hl => mem_of_mem_best hl, fun price size hs => ?_, hsorted, ?_, ?_,
    fun i hi hfits => ?_, fun i j hij hj => ?_⟩
  · rw [best_eq_take, List.length_take, ranking_length]
  · have hmem : (price, size) ∈ ranking state.side side := mem_ranking.2 hs
    have hall := ranking_pairwise state.side side
    rw [best_eq_take]
    rw [← List.take_append_drop depth (ranking state.side side)] at hmem hall
    rcases List.mem_append.1 hmem with hin | hout
    · exact .inl hin
    · exact .inr fun l hl => (List.pairwise_append.1 hall).2.2 l hl _ hout
  · exact List.pairwise_map.2 (hsorted.imp fun h => h.ne)
  · simp [depthView_side]
  · rw [depthView_side, List.getElem?_zipWith, totals_best_getElem? hi, List.getElem?_eq_getElem hi]
    simp only [wrapI128_of_inI128 hfits, levelView, x18ToF64]
  · have hsizes : ∀ l ∈ best state.side depth side, 0 < l.2 := fun l hl =>
      hpos side l.1 l.2 (mem_of_mem_best hl)
    have hlt := List.pairwise_iff_getElem.1 (totals_pairwise (t := 0) hsizes)
    have hi : i < (best state.side depth side).length := Nat.lt_trans hij hj
    have hget : ∀ k (hk : k < (totals Prod.snd 0 (best state.side depth side)).length),
        (totals Prod.snd 0 (best state.side depth side))[k] =
          totalAt (best state.side depth side) k := fun k hk => by
      rw [totals_length] at hk
      exact Option.some.inj ((List.getElem?_eq_getElem _).symm.trans (totals_best_getElem? hk))
    have := hlt i j (by simpa using hi) (by simpa using hj) hij
    rwa [hget, hget] at this

/-- **Every reachable book is well formed**, and so is its view at every depth. -/
theorem afterOps_depth (ops : List BookOp) (depth : Nat) (side : Side) :
    (∀ price size, sizeAt ((afterOps ops).side side) price = some size → 0 < size) ∧
      ShowsLevels (afterOps ops) side depth (best (afterOps ops).side depth side)
        (((afterOps ops).depthView depth : DepthView F).side side) := by
  have hrec := records_afterOps ops
  exact ⟨fun _ _ => hrec.size_pos, depthView_shows (fun _ _ _ => hrec.size_pos) depth side⟩

/-! ## When the totals fit -/

/-- No addition of the running totals leaves `i128`, and the totals shown are the exact ones. -/
def TotalsExact (F : Type) [F64 F] (state : OrderBookState) (depth : Nat) (side : Side) : Prop :=
  (∀ total ∈ totals Prod.snd 0 (best state.side depth side), InI128 total) ∧
    ((state.depthView depth : DepthView F).side side).map PriceLevelView.totalX18 =
      (totals Prod.snd 0 (best state.side depth side)).map toString

theorem shown_totals {state : OrderBookState} {depth : Nat} {side : Side}
    (h : ∀ total ∈ totals Prod.snd 0 (best state.side depth side), InI128 total) :
    TotalsExact F state depth side := by
  refine ⟨h, ?_⟩
  rw [depthView_side, List.map_zipWith]
  have key : ∀ (levels : List (Int × Int)) (sums : List Int), sums.length = levels.length →
      (∀ total ∈ sums, InI128 total) →
        List.zipWith (fun _ total => toString (wrapI128 total)) levels sums =
          sums.map toString := by
    intro levels sums
    induction sums generalizing levels with
    | nil => intro _ _; simp
    | cons total sums ih =>
      intro hlen hfits
      cases levels with
      | nil => simp at hlen
      | cons level levels =>
        have hrest := ih levels (by simpa using hlen)
          fun t ht => hfits t (List.mem_cons_of_mem _ ht)
        rw [List.zipWith_cons_cons, List.map_cons, hrest,
          wrapI128_of_inI128 (hfits total List.mem_cons_self)]
  exact key _ _ (totals_length ..) h

/-- The whole side is seen at some depth, and no depth shows more. -/
theorem best_totals_iff {state : OrderBookState}
    (hpos : ∀ side price size, sizeAt (state.side side) price = some size → 0 < size)
    (side : Side) :
    (∀ depth, ∀ total ∈ totals Prod.snd 0 (best state.side depth side), InI128 total) ↔
      ((state.side side).toList.map Prod.snd).sum ≤ i128Max := by
  have hsizes : ∀ l ∈ ranking state.side side, 0 < l.2 := fun l hl =>
    hpos side l.1 l.2 (mem_ranking.1 hl)
  have hsum : ((ranking state.side side).map Prod.snd).sum =
      ((state.side side).toList.map Prod.snd).sum := by
    cases side with
    | bid => exact ((List.reverse_perm _).map _).sum_eq
    | ask => rfl
  have hall := totals_le_iff (t := 0) hsizes (show (0 : Int) ≤ i128Max by decide)
  rw [zero_add, hsum] at hall
  rw [← hall]
  refine ⟨fun h total ht => ?_, fun h depth total ht => ?_⟩
  · have hdeep :
        best state.side (ranking state.side side).length side = ranking state.side side := by
      rw [best_eq_take, List.take_length]
    exact (h _ total (by rwa [hdeep])).2
  · rw [best_eq_take, totals_take] at ht
    have hin := List.mem_of_mem_take ht
    have hpos := lt_totals hsizes total hin
    exact ⟨by unfold i128Min; omega, h total hin⟩

/-- The totals of a side of a reachable book fit exactly if what stands on it does. -/
theorem afterOps_totals_iff (ops : List BookOp) (side : Side) :
    (∀ depth, ∀ total ∈ totals Prod.snd 0 (best (afterOps ops).side depth side), InI128 total) ↔
      standing ((written ops).writes side) ≤ i128Max := by
  have hrec := records_afterOps ops
  rw [← hrec.sum_sizes]
  exact best_totals_iff (fun _ _ _ => hrec.size_pos) side

/-- **When every running total fits**, at every depth: when what stands on each side does. -/
theorem totalsExact_iff (ops : List BookOp) :
    (∀ depth side, TotalsExact F (afterOps ops) depth side) ↔
      ∀ side, standing ((written ops).writes side) ≤ i128Max := by
  refine ⟨fun h side => ?_, fun h depth side => ?_⟩
  · exact (afterOps_totals_iff ops side).1 fun depth => (h depth side).1
  · exact shown_totals ((afterOps_totals_iff ops side).2 (h side) depth)

end

/-- The calls the gateway can make: the levels of a snapshot are pairs of `i128`, a delta comes from
the parser. -/
def BookOp.Accepted (F : Type) [UnicodeCase] : BookOp → Prop
  | .resetFromSnapshot bids asks _ =>
    ∀ level ∈ bids ++ asks, InI128 level.priceX18 ∧ InI128 level.sizeX18
  | .applyDelta delta =>
    ∃ (payload : Value F) (productId : UInt32),
      parseBookDepthDelta payload productId = .ok (some delta)

section
attribute [local instance] asciiCase

/-- A message with two bids of the greatest size. -/
def greatestSizes : Value Rat := .object
  [("type", .string "book_depth"), ("product_id", .number (.posInt 2)),
    ("last_max_timestamp", .string "0"), ("min_timestamp", .string "1"),
    ("max_timestamp", .string "1"),
    ("bids", .array
      [.array [.string "1", .string "170141183460469231731687303715884105727"],
        .array [.string "2", .string "170141183460469231731687303715884105727"]]),
    ("asks", .array [])]

def greatestDelta : BookDelta where
  lastMaxTimestamp := 0
  minTimestamp := 1
  maxTimestamp := 1
  bids := [⟨1, i128Max⟩, ⟨2, i128Max⟩]
  asks := []

theorem totalsExact_greatest_sizes :
    parseBookDepthDelta greatestSizes 2 = .ok (some greatestDelta) ∧
      ¬ ∀ ops : List BookOp, (∀ op ∈ ops, op.Accepted Rat) →
        ∀ depth side, TotalsExact Rat (afterOps ops) depth side := by
  have hparse : parseBookDepthDelta greatestSizes 2 = .ok (some greatestDelta) := by
    decide +kernel
  refine ⟨hparse, fun h => ?_⟩
  have hall := h [.resetFromSnapshot [] [] 0, .applyDelta greatestDelta] (by
    intro op hop
    rcases List.mem_cons.1 hop with rfl | hop
    · exact fun level hl => nomatch hl
    · cases List.mem_singleton.1 hop
      exact ⟨greatestSizes, 2, hparse⟩)
  have hstand := (afterOps_totals_iff _ .bid).1 fun depth => (hall depth .bid).1
  exact absurd hstand (by decide)

end

end Orderbook
