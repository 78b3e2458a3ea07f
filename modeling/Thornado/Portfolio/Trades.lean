import Thornado.Portfolio.Positions

/-!
# Trades and their side

`map_trades` of `gateway/portfolio/src/main.rs`, and `adaptTrades` of
`client/src/lib/portfolioAdapters.js` for the events it sends. `bignumber.js` and the conversions
of the language are parameters (`Js`), with what they document about integers (`Js.Documented`).

* `trade_side_iff`: when the side shown is the direction of the change of the position.
-/

namespace Portfolio

open Rust Rust.Json

variable {F : Type}

/-! ## The gateway -/

/-- `indexer::Balance` -/
inductive IndexerBalance where
  | spot (productId : UInt32) (amount : I128)
  | perp (productId : UInt32) (amount : I128)
  | pending

structure MatchBalances where
  base : IndexerBalance
  quote : Option IndexerBalance

/-- `indexer::Match`, without the fields that `map_trades` does not read. -/
structure Match where
  digest : Execution.Bytes32
  orderAmount : I128
  baseFilled : I128
  quoteFilled : I128
  fee : I128
  realizedPnl : I128
  preBalance : MatchBalances
  postBalance : MatchBalances
  submissionIdx : UInt64

structure Tx where
  submissionIdx : UInt64
  timestamp : UInt64

structure MatchesResponse where
  matches_ : List Match
  txs : List Tx

def indexerBalanceAmount : IndexerBalance → Option Int
  | .spot _ amount => some amount
  | .perp _ amount => some amount
  | .pending => none

def indexerBalanceProductId : IndexerBalance → Option UInt32
  | .spot productId _ => some productId
  | .perp productId _ => some productId
  | .pending => none

def MatchBalances.baseAmount (balances : MatchBalances) : Int :=
  (indexerBalanceAmount balances.base).getD 0

def MatchBalances.quoteAmount (balances : MatchBalances) : Int :=
  (balances.quote.bind indexerBalanceAmount).getD 0

/-- `ts_by_submission` -/
def MatchesResponse.tsBySubmission (response : MatchesResponse) : AList fun _ : UInt64 => Nat :=
  response.txs.foldl (fun ts tx =>
    ts.insert tx.submissionIdx (saturatingMulU64 tx.timestamp.toNat 1000)) ∅

def amountText (v : Int) : Value F := .string (toString v)

def tradeEvent (response : MatchesResponse) (m : Match) : Value F :=
  let productId := ((indexerBalanceProductId m.preBalance.base).or
    (indexerBalanceProductId m.postBalance.base)).getD 0
  let balances := fun b : MatchBalances => Value.object
    [("base", .object [("amount", amountText b.baseAmount)]),
      ("quote", .object [("amount", amountText b.quoteAmount)])]
  .object
    [("productId", .number (.posInt productId.toUInt64)),
      ("submissionIndex", .number (.posInt m.submissionIdx)),
      ("baseFilled", amountText m.baseFilled),
      ("quoteFilled", amountText m.quoteFilled),
      ("totalFee", amountText m.fee),
      ("realizedPnl", amountText m.realizedPnl),
      ("timestamp", .number (.posInt
        ((response.tsBySubmission.lookup m.submissionIdx).getD 0).toUInt64)),
      ("digest", .string (hexDigest m.digest)),
      ("order", .object [("amount", amountText m.orderAmount)]),
      ("preBalances", balances m.preBalance),
      ("postBalances", balances m.postBalance)]

def mapTrades (response : Option MatchesResponse) : Value F :=
  match response with
  | none => .object [("events", .array [])]
  | some response => .object [("events", .array (response.matches_.map (tradeEvent response)))]

/-! ## The client -/

/-- What the client takes from its language and from `bignumber.js`. -/
structure Js (F : Type) where
  /-- `v.toString()` of an object, else `String(v)` -/
  text : Value F → String
  trim : String → String
  /-- `Number(s)` -/
  number : String → F
  Num : Type
  /-- `new BigNumber(s)` -/
  bigNumber : String → Num
  isNaN : Num → Bool
  isFinite : Num → Bool
  isZero : Num → Bool
  isPositive : Num → Bool
  isNegative : Num → Bool
  minus : Num → Num → Num
  abs : Num → Num
  dividedBy : Num → Num → Num
  toNumber : Num → F

namespace Js

/-- What is documented about integers: they are read and subtracted exactly, zero has the sign `+`
and is positive. -/
structure Documented (js : Js F) : Prop where
  text_string : ∀ s, js.text (.string s) = s
  isNaN : ∀ i : Int, js.isNaN (js.bigNumber (toString i)) = false
  minus : ∀ i j : Int, js.minus (js.bigNumber (toString i)) (js.bigNumber (toString j)) =
    js.bigNumber (toString (i - j))
  isZero : ∀ i : Int, js.isZero (js.bigNumber (toString i)) = decide (i = 0)
  isPositive : ∀ i : Int, js.isPositive (js.bigNumber (toString i)) = decide (0 ≤ i)
  isNegative : ∀ i : Int, js.isNegative (js.bigNumber (toString i)) = decide (i < 0)

variable (js : Js F)

def toBigNumberish (v : Option (Value F)) : Option js.Num :=
  match v with
  | none => none
  | some .null => none
  | some v =>
    let b := js.bigNumber (js.text v)
    if js.isNaN b then none else some b

def fromX18Num (b : Option js.Num) : Option F := do
  let d := js.dividedBy (← b) (js.bigNumber "1000000000000000000")
  if js.isFinite d then some (js.toNumber d) else none

def sideFromMatchEvent (row : Value F) : String :=
  let fromOrder := match js.toBigNumberish (getPath row ["order", "amount"]) with
    | some orderAmt =>
      if js.isZero orderAmt then "—" else if js.isPositive orderAmt then "LONG" else "SHORT"
    | none => "—"
  match js.toBigNumberish (getPath row ["preBalances", "base", "amount"]),
    js.toBigNumberish (getPath row ["postBalances", "base", "amount"]) with
  | some preBn, some postBn =>
    let d := js.minus postBn preBn
    if js.isPositive d then "LONG" else if js.isNegative d then "SHORT" else fromOrder
  | _, _ => fromOrder

/-- The text without `-PERP` at its end, in either case. -/
def dropPerp (s : String) : String :=
  let cs := s.toList
  if (cs.drop (cs.length - 5)).map Char.toUpper = "-PERP".toList then
    String.ofList (cs.take (cs.length - 5))
  else s

def normalizePerpMarketLabel (market : String) : String :=
  let s := js.trim market
  if s = "" then s
  else
    let label := js.trim (dropPerp s)
    if label = "" then s else label

end Js

structure TradeRow (F : Type) where
  id : String
  market : String
  side : String
  price : Option F
  size : Option F
  fee : Option F
  realizedPnl : Option F
  time : Option F

/-- A value that is neither `undefined` nor `null`. -/
def present : Option (Value F) → Option (Value F)
  | some .null => none
  | v => v

section
variable [F64 F] (js : Js F)

def adaptIndexerMatchRow (symbolsByProductId : String → Option String) (row : Value F)
    (idx : Nat) : TradeRow F :=
  let pid := (present (row.get "productId")).or (present (row.get "product_id"))
  let sym := match pid with
    | some pid => ((symbolsByProductId (js.text pid)).filter (· ≠ "")).getD
        ("Product " ++ js.text pid)
    | none => "Market " ++ toString (idx + 1)
  let q := js.toBigNumberish (row.get "quoteFilled")
  let b := js.toBigNumberish (row.get "baseFilled")
  let price := do
    let q ← q
    let b ← b
    if js.isZero b then none
    let n := js.toNumber (js.dividedBy (js.abs q) (js.abs b))
    if F64.isFinite n then some n else none
  let time := do
    let ts ← present (row.get "timestamp")
    let n := js.number (js.text ts)
    if F64.isFinite n then
      if F64.gt (F64.ofInt (10 ^ 12)) n then some (F64.mul n (F64.ofInt 1000)) else some n
    else none
  let idBase := (present (row.get "digest")).or (row.get "submissionIndex")
  { id := ((present idBase).map js.text).getD "trade" ++ "-" ++ toString idx
    market := js.normalizePerpMarketLabel sym
    side := js.sideFromMatchEvent row
    price := price
    size := js.fromX18Num (b.map js.abs)
    fee := js.fromX18Num (js.toBigNumberish (row.get "totalFee"))
    realizedPnl := js.fromX18Num (js.toBigNumberish (row.get "realizedPnl"))
    time := time }

def isIndexerMatchEvent (row : Value F) : Bool :=
  (present (row.get "submissionIndex")).isSome && (present (row.get "baseFilled")).isSome &&
    (present (row.get "postBalances")).isSome && (present (row.get "preBalances")).isSome

/-- `otherRows` and `otherRow` stand for the payloads and rows of other sources. -/
def adaptTrades (otherRows : Value F → List (Value F)) (otherRow : Value F → Nat → TradeRow F)
    (symbolsByProductId : String → Option String) (payload : Value F) : List (TradeRow F) :=
  let rows := match payload.asArray with
    | some rows => rows
    | none => ((payload.get "events").bind Value.asArray).getD (otherRows payload)
  rows.mapIdx fun idx row =>
    if isIndexerMatchEvent row then adaptIndexerMatchRow js symbolsByProductId row idx
    else otherRow row idx

end

/-! ## The side -/

/-- The direction of the change of the base position; without one that of the order. -/
def Match.direction (m : Match) : String :=
  let pre := m.preBalance.baseAmount
  let post := m.postBalance.baseAmount
  if pre < post then "LONG" else if post < pre then "SHORT"
  else if 0 < m.orderAmount.val then "LONG" else if m.orderAmount.val < 0 then "SHORT" else "—"

theorem toBigNumberish_amount {js : Js F} (h : js.Documented) (v : Int) :
    js.toBigNumberish (some (amountText v)) = some (js.bigNumber (toString v)) := by
  unfold Js.toBigNumberish amountText
  simp only [h.text_string, h.isNaN, Bool.false_eq_true, if_false]

/-- The client never gets to the order: a difference of zero is positive. -/
theorem sideFromMatchEvent_tradeEvent {js : Js F} (h : js.Documented) (response : MatchesResponse)
    (m : Match) :
    js.sideFromMatchEvent (tradeEvent response m) =
      if m.preBalance.baseAmount ≤ m.postBalance.baseAmount then "LONG" else "SHORT" := by
  have hpre : getPath (tradeEvent (F := F) response m) ["preBalances", "base", "amount"] =
      some (amountText m.preBalance.baseAmount) := rfl
  have hpost : getPath (tradeEvent (F := F) response m) ["postBalances", "base", "amount"] =
      some (amountText m.postBalance.baseAmount) := rfl
  unfold Js.sideFromMatchEvent
  simp only [hpre, hpost, toBigNumberish_amount h, h.minus, h.isPositive, h.isNegative,
    decide_eq_true_eq]
  split
  · rw [if_pos (by omega)]
  · rw [if_pos (by omega), if_neg (by omega)]

theorem side_eq_direction_iff (m : Match) :
    (if m.preBalance.baseAmount ≤ m.postBalance.baseAmount then "LONG" else "SHORT") =
        m.direction ↔
      m.preBalance.baseAmount ≠ m.postBalance.baseAmount ∨ 0 < m.orderAmount.val := by
  unfold Match.direction
  rcases Int.lt_trichotomy m.preBalance.baseAmount m.postBalance.baseAmount with hlt | heq | hgt
  · simp [hlt, hlt.le, hlt.ne]
  · by_cases hpos : 0 < m.orderAmount.val
    · simp [heq, hpos]
    · by_cases hneg : m.orderAmount.val < 0
      · simp [heq, hpos, hneg]
      · simp [heq, hpos, hneg]
  · simp [hgt, hgt.ne', Int.not_le.2 hgt, Int.not_lt.2 hgt.le]

section
variable [F64 F]

/-- The rows of the gateway's events, one for each match in its order. -/
theorem adaptTrades_sides {js : Js F} (h : js.Documented) (otherRows : Value F → List (Value F))
    (otherRow : Value F → Nat → TradeRow F) (symbolsByProductId : String → Option String)
    (response : MatchesResponse) :
    (adaptTrades js otherRows otherRow symbolsByProductId (mapTrades (some response))).map
        TradeRow.side =
      response.matches_.map fun m =>
        if m.preBalance.baseAmount ≤ m.postBalance.baseAmount then "LONG" else "SHORT" := by
  have hrow : ∀ m : Match, isIndexerMatchEvent (tradeEvent (F := F) response m) = true :=
    fun _ => rfl
  show ((response.matches_.map (tradeEvent response)).mapIdx _).map TradeRow.side = _
  refine List.ext_getElem? fun i => ?_
  simp only [List.getElem?_map, List.getElem?_mapIdx]
  cases response.matches_[i]? with
  | none => rfl
  | some m =>
    simp only [Option.map_some, hrow, if_true]
    exact congrArg some (sideFromMatchEvent_tradeEvent h response m)

/-- **When the side is the direction of the change**, for every list of matches: exactly if no
match leaves the position as it was while its order is not a buy. -/
theorem trade_side_iff {js : Js F} (h : js.Documented) (otherRows : Value F → List (Value F))
    (otherRow : Value F → Nat → TradeRow F) (symbolsByProductId : String → Option String)
    (response : MatchesResponse) :
    (adaptTrades js otherRows otherRow symbolsByProductId (mapTrades (some response))).map
        TradeRow.side = response.matches_.map Match.direction ↔
      ∀ m ∈ response.matches_,
        m.preBalance.baseAmount ≠ m.postBalance.baseAmount ∨ 0 < m.orderAmount.val := by
  rw [adaptTrades_sides h, List.map_inj_left]
  exact forall₂_congr fun m _ => side_eq_direction_iff m

end

/-! ## A fill without balances -/

/-- The parameters in exact arithmetic; of the values only strings have a text. -/
def exactJs : Js ℚ where
  text v := v.asStr.getD ""
  trim := trim
  number s := (Decimal.read s.toList).getD 0
  Num := Option ℚ
  bigNumber s := Decimal.read s.toList
  isNaN b := b.isNone
  isFinite b := b.isSome
  isZero b := b.any (· = 0)
  isPositive b := b.any (0 ≤ ·)
  isNegative b := b.any (· < 0)
  minus a b := do return (← a) - (← b)
  abs b := b.map abs
  dividedBy a b := do return (← a) / (← b)
  toNumber b := b.getD 0

theorem exactJs_bigNumber (i : Int) : exactJs.bigNumber (toString i) = some (i : ℚ) :=
  Decimal.read_int i

theorem exactJs_documented : exactJs.Documented where
  text_string _ := rfl
  isNaN i := by rw [exactJs_bigNumber]; rfl
  minus i j := by
    rw [exactJs_bigNumber, exactJs_bigNumber, exactJs_bigNumber, Int.cast_sub]
    rfl
  isZero i := by rw [exactJs_bigNumber]; simp [exactJs]
  isPositive i := by rw [exactJs_bigNumber]; simp [exactJs]
  isNegative i := by rw [exactJs_bigNumber]; simp [exactJs]

/-- A fill of an order for `amount`, its balances still pending. -/
def pendingFill (amount : I128) : MatchesResponse where
  matches_ := [{ digest := Vector.replicate 32 0, orderAmount := amount, baseFilled := amount
                 quoteFilled := ⟨0, inI128_zero⟩, fee := ⟨0, inI128_zero⟩
                 realizedPnl := ⟨0, inI128_zero⟩, preBalance := ⟨.pending, none⟩
                 postBalance := ⟨.pending, none⟩, submissionIdx := 1 }]
  txs := []

/-- The fill of a buy is shown as one. -/
theorem trade_side_pending_buy :
    (adaptTrades exactJs (fun _ => []) (fun _ _ => ⟨"", "", "—", none, none, none, none, none⟩)
        (fun _ => none) (mapTrades (some (pendingFill ⟨5, by decide⟩)))).map TradeRow.side =
      ["LONG"] :=
  (trade_side_iff exactJs_documented _ _ _ _).2 fun m hm => by
    rw [List.mem_singleton.1 hm]
    exact .inr (by decide)

/-- The fill of a sale is shown as a buy. -/
theorem trade_side_pending_sale :
    (adaptTrades exactJs (fun _ => []) (fun _ _ => ⟨"", "", "—", none, none, none, none, none⟩)
        (fun _ => none) (mapTrades (some (pendingFill ⟨-5, by decide⟩)))).map TradeRow.side =
        ["LONG"] ∧
      (pendingFill ⟨-5, by decide⟩).matches_.map Match.direction = ["SHORT"] ∧
      ¬ ∀ js : Js ℚ, js.Documented → ∀ otherRows otherRow symbolsByProductId response,
        (adaptTrades js otherRows otherRow symbolsByProductId (mapTrades (some response))).map
          TradeRow.side = response.matches_.map Match.direction := by
  have hside : (adaptTrades exactJs (fun _ => [])
      (fun _ _ => ⟨"", "", "—", none, none, none, none, none⟩) (fun _ => none)
      (mapTrades (some (pendingFill ⟨-5, by decide⟩)))).map TradeRow.side = ["LONG"] := by
    rw [adaptTrades_sides exactJs_documented]
    rfl
  refine ⟨hside, rfl, fun h => ?_⟩
  have := h exactJs exactJs_documented (fun _ => [])
    (fun _ _ => ⟨"", "", "—", none, none, none, none, none⟩) (fun _ => none)
    (pendingFill ⟨-5, by decide⟩)
  rw [hside] at this
  exact absurd this (by decide)

end Portfolio
