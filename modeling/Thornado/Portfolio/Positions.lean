import Mathlib.Tactic.FieldSimp
import Mathlib.Tactic.Positivity
import Thornado.Lib.Listing
import Thornado.Portfolio.Orders
import Thornado.Rust.JsonFloat

/-!
# Positions and their profit

`map_positions` and `map_pnl` of `gateway/portfolio/src/main.rs`, and the profit of a position as
`client/src/lib/portfolioAdapters.js` defines it (in exact arithmetic, `null` being `none`). The
gateway reports the quote balance as the profit and leaves out the value of the position itself.

* `pnl_agrees_iff`: when the gateway reports the client's profit.
-/

namespace Portfolio

open Rust Rust.Json

/-! ## The gateway -/

structure PerpProduct where
  productId : UInt32
  oraclePriceX18 : I128

structure PerpBalance where
  productId : UInt32
  amount : I128
  vQuoteBalance : I128

/-- `SubaccountInfoResponse`, without the fields that `map_positions` does not read. -/
structure SubaccountInfo where
  perpBalances : List PerpBalance
  perpProducts : List PerpProduct

/-- `perp_by_id` -/
def SubaccountInfo.perpById (info : SubaccountInfo) : AList fun _ : UInt32 => PerpProduct :=
  info.perpProducts.foldl (fun byId product => byId.insert product.productId product) ∅

section
variable {F : Type} [F64Arith F]

def x18ToF64 (value : Int) : F := F64.div (F64.ofInt value) (F64.ofInt (10 ^ 18))

/-- The row of a position with the given size and profit. -/
def positionRow (symbols : Symbols) (idx : Nat) (balance : PerpBalance) (product : PerpProduct)
    (size pnl : F) : Value F :=
  let mark : F := x18ToF64 product.oraclePriceX18
  let implied : F :=
    F64Arith.neg (F64.div (F64.ofInt balance.vQuoteBalance) (F64.ofInt balance.amount))
  .object
    [("id", .string ("pos-" ++ toString balance.productId ++ "-" ++ toString idx)),
      ("productId", .number (.posInt balance.productId.toUInt64)),
      ("market", .string (marketOf symbols balance.productId)),
      ("side", .string (if balance.amount.val > 0 then "LONG" else "SHORT")),
      ("size", .ofF64 size),
      ("entry", .ofF64 implied),
      ("mark", .ofF64 mark),
      ("pnl", .ofF64 pnl),
      ("notional", .ofF64 (F64.mul size mark)),
      ("isolated", .bool false)]

/-- The body of the loop; `none` is a panic. -/
def mapPosition (overflowChecks : Bool) (info : SubaccountInfo) (symbols : Symbols)
    (entry : PerpBalance × Nat) : Option (Option (Value F)) :=
  match info.perpById.lookup entry.1.productId with
  | none => some none
  | some product =>
    if entry.1.amount.val = 0 then some none
    else do
      let size ← absI128 overflowChecks entry.1.amount
      return some (positionRow symbols entry.2 entry.1 product (x18ToF64 size)
        (x18ToF64 entry.1.vQuoteBalance))

def mapPositions (overflowChecks : Bool) (info : SubaccountInfo) (symbols : Symbols) :
    Option (Value F) := do
  let rows ← info.perpBalances.zipIdx.mapM (mapPosition overflowChecks info symbols)
  return .array rows.reduceOption

/-- A path of keys into a value. -/
def getPath (value : Value F) (path : List String) : Option (Value F) :=
  path.foldl (fun value? key => value?.bind (·.get key)) (some value)

def parseAmount (value : Option (Value F)) : Option F := (value.bind Value.asStr).bind F64.parse

def mapPnl (summary positions trades : Value F) : Value F :=
  let unrealized := ((positions.asArray).map fun rows =>
    f64Sum (rows.filterMap fun row => (row.get "pnl").bind Value.asF64)).getD (F64.ofInt 0)
  let realized := (((trades.get "events").bind Value.asArray).map fun rows =>
    f64Sum (rows.filterMap fun row => (parseAmount (row.get "realizedPnl")).map
      fun v => F64.div v (F64.ofInt (10 ^ 18)))).getD (F64.ofInt 0)
  let equity := ((parseAmount (getPath summary ["health", "unweighted", "assets"])).bind
    fun assets => (parseAmount (getPath summary ["health", "unweighted", "liabilities"])).map
      fun liabilities => F64.div (F64Arith.sub assets liabilities) (F64.ofInt (10 ^ 18))).getD
        (F64.ofInt 0)
  .object [("equity", .ofF64 equity), ("unrealizedPnl", .ofF64 unrealized),
    ("realizedPnl", .ofF64 realized)]

end

/-! ## The client -/

/-- `fromX18`, of a number. -/
def fromX18 (bn : Option ℚ) : Option ℚ := bn.map (· / 10 ^ 18)

def perpPnlUsdFromAmountMarkAndQuote (amountRaw markPrice quoteRaw : Option ℚ) : Option ℚ := do
  let amount ← fromX18 amountRaw
  let quote ← fromX18 quoteRaw
  let mark ← markPrice
  return amount * mark + quote

/-- The profit the client shows for a position of the response, if it is not empty. -/
def clientPnl (info : SubaccountInfo) (balance : PerpBalance) : Option (Nat × ℚ) := do
  let product ← info.perpById.lookup balance.productId
  if balance.amount.val = 0 then none
  let pnl ← perpPnlUsdFromAmountMarkAndQuote (some balance.amount)
    (some (product.oraclePriceX18 / 10 ^ 18)) (some balance.vQuoteBalance)
  return (balance.productId.toNat, pnl)

/-! ## Agreement -/

/-- The product and the profit of a row. -/
def reported (row : Value ℚ) : Option (Nat × ℚ) := do
  let productId ← (row.get "productId").bind Value.asU64
  let pnl ← (row.get "pnl").bind Value.asF64
  return (productId, pnl)

/-- Row by row the gateway reports the client's profits, and in total their sum. -/
def PnlAgrees (overflowChecks : Bool) (info : SubaccountInfo) (symbols : Symbols) : Prop :=
  ∃ rows, mapPositions overflowChecks info symbols = some (.array rows) ∧
    rows.map reported = (info.perpBalances.filterMap (clientPnl info)).map some ∧
    ∀ summary trades : Value ℚ,
      ((mapPnl summary (.array rows) trades).get "unrealizedPnl").bind Value.asF64 =
        some ((info.perpBalances.filterMap (clientPnl info)).map Prod.snd).sum

theorem asF64_ofF64 (f : ℚ) : (Value.ofF64 f).asF64 = some f := rfl

theorem reported_positionRow (symbols : Symbols) (idx : Nat) (balance : PerpBalance)
    (product : PerpProduct) (size pnl : ℚ) :
    reported (positionRow symbols idx balance product size pnl) =
      some (balance.productId.toNat, pnl) := by
  have hid : (positionRow symbols idx balance product size pnl).get "productId" =
      some (.number (.posInt balance.productId.toUInt64)) := rfl
  have hpnl : (positionRow symbols idx balance product size pnl).get "pnl" =
      some (.ofF64 pnl) := rfl
  unfold reported
  rw [hid, hpnl]
  simp [Value.asU64, asF64_ofF64]

/-- The two definitions of a profit differ by the value of the position. -/
theorem clientPnl_eq (info : SubaccountInfo) {balance : PerpBalance} {product : PerpProduct}
    (hp : info.perpById.lookup balance.productId = some product) (hne : balance.amount.val ≠ 0) :
    clientPnl info balance = some (balance.productId.toNat,
      (balance.amount.val * product.oraclePriceX18.val : ℚ) / 10 ^ 36 +
        balance.vQuoteBalance.val / 10 ^ 18) := by
  unfold clientPnl
  simp only [hp, Option.bind_eq_bind, Option.bind_some, if_neg hne,
    perpPnlUsdFromAmountMarkAndQuote, fromX18, Option.map_some, Option.pure_def, Option.some.injEq,
    Prod.mk.injEq, true_and]
  ring

theorem x18ToF64_rat (v : Int) : (x18ToF64 v : ℚ) = v / 10 ^ 18 := by
  show (v : ℚ) / ((10 ^ 18 : Int) : ℚ) = v / 10 ^ 18
  norm_num

theorem mapPosition_agrees_iff (overflowChecks : Bool) (info : SubaccountInfo) (symbols : Symbols)
    (entry : PerpBalance × Nat) :
    (mapPosition overflowChecks info symbols entry).map (Option.map reported) =
        some ((clientPnl info entry.1).map some) ↔
      ∀ product ∈ info.perpById.lookup entry.1.productId, entry.1.amount.val ≠ 0 →
        product.oraclePriceX18.val = 0 ∧ (overflowChecks → entry.1.amount.val ≠ i128Min) := by
  cases hp : info.perpById.lookup entry.1.productId with
  | none => simp [mapPosition, clientPnl, hp]
  | some product =>
    by_cases hzero : entry.1.amount.val = 0
    · simp [mapPosition, clientPnl, hp, hzero]
    simp only [Option.mem_def, Option.some.injEq, forall_eq', ne_eq, hzero, not_false_eq_true,
      true_implies, mapPosition, hp, if_neg, clientPnl_eq info hp hzero]
    cases habs : absI128 overflowChecks entry.1.amount with
    | none =>
      refine iff_of_false (fun h => nomatch h) fun h => ?_
      have := absI128_isSome.2 h.2
      rw [habs] at this
      cases this
    | some size =>
      have hno := absI128_isSome.1 (habs ▸ rfl : (absI128 overflowChecks entry.1.amount).isSome)
      rw [and_iff_left hno]
      simp only [Option.bind_eq_bind, Option.bind_some, Option.pure_def, Option.map_some,
        reported_positionRow, Option.some.injEq, Prod.mk.injEq, true_and, x18ToF64_rat]
      rw [eq_comm, add_eq_right]
      simp [hzero]

/-- A row the gateway pushes where the client shows a position. -/
theorem mapPosition_isSome {overflowChecks : Bool} {info : SubaccountInfo} {symbols : Symbols}
    {entry : PerpBalance × Nat} {row : Option (Option (Nat × ℚ))}
    (h : (mapPosition overflowChecks info symbols entry).map (Option.map reported) = some row)
    (hclient : ((clientPnl info entry.1).map some).isSome) : row.isSome := by
  unfold mapPosition at h
  unfold clientPnl at hclient
  cases hp : info.perpById.lookup entry.1.productId with
  | none => simp [hp] at hclient
  | some product =>
    by_cases hzero : entry.1.amount.val = 0
    · simp [hp, hzero] at hclient
    · simp only [hp, if_neg hzero] at h
      cases habs : absI128 overflowChecks entry.1.amount with
      | none => simp [habs] at h
      | some size =>
        simp only [habs, Option.bind_eq_bind, Option.bind_some, Option.pure_def, Option.map_some,
          Option.some.injEq] at h
        rw [← h]
        rfl

theorem unrealized_mapPnl (summary trades : Value ℚ) {rows : List (Value ℚ)}
    {pnls : List (Nat × ℚ)} (h : rows.map reported = pnls.map some) :
    ((mapPnl summary (.array rows) trades).get "unrealizedPnl").bind Value.asF64 =
      some (pnls.map Prod.snd).sum := by
  have hrow : ∀ row ∈ rows, (row.get "pnl").bind Value.asF64 = (reported row).map Prod.snd := by
    intro row hrow
    have hsome : reported row ∈ pnls.map some := h ▸ List.mem_map_of_mem hrow
    obtain ⟨⟨id, pnl⟩, -, hrep⟩ := List.mem_map.1 hsome
    rw [← hrep]
    obtain ⟨id', -, hpnl⟩ := Option.bind_eq_some_iff.1 hrep.symm
    obtain ⟨pnl', hget, hpair⟩ := Option.bind_eq_some_iff.1 hpnl
    cases hpair
    exact hget
  have hread := calc
    rows.filterMap (fun row => (row.get "pnl").bind Value.asF64)
      = rows.filterMap (Option.map Prod.snd ∘ reported) := List.filterMap_congr hrow
    _ = (rows.map reported).filterMap (Option.map Prod.snd) := List.filterMap_map.symm
    _ = pnls.map Prod.snd := by
      rw [h, List.filterMap_map]
      exact congrFun List.filterMap_eq_map pnls
  have hget : (mapPnl summary (.array rows) trades).get "unrealizedPnl" =
      some (.ofF64 (f64Sum (rows.filterMap fun row => (row.get "pnl").bind Value.asF64))) := rfl
  rw [hget, hread, f64Sum_rat]
  rfl

theorem mapPositions_eq (overflowChecks : Bool) (info : SubaccountInfo) (symbols : Symbols) :
    mapPositions overflowChecks info symbols =
      ((info.perpBalances.zipIdx.mapM (mapPosition (F := ℚ) overflowChecks info symbols)).map
        List.reduceOption).map Value.array := by
  unfold mapPositions
  cases info.perpBalances.zipIdx.mapM (mapPosition (F := ℚ) overflowChecks info symbols) with
  | none => rfl
  | some bs => rfl

/-- The rows agree with the client exactly if every one does. -/
theorem rows_agree_iff (overflowChecks : Bool) (info : SubaccountInfo) (symbols : Symbols) :
    (∃ rows, mapPositions overflowChecks info symbols = some (.array rows) ∧
        rows.map reported = (info.perpBalances.filterMap (clientPnl info)).map some) ↔
      ∀ entry ∈ info.perpBalances.zipIdx,
        (mapPosition overflowChecks info symbols entry).map (Option.map reported) =
          some ((clientPnl info entry.1).map some) := by
  have hlist : (info.perpBalances.filterMap (clientPnl info)).map some =
      info.perpBalances.zipIdx.filterMap fun entry => (clientPnl info entry.1).map some := by
    conv_lhs => rw [← List.zipIdx_map_fst 0 info.perpBalances]
    rw [List.filterMap_map, List.map_filterMap]
    rfl
  rw [← Listing.mapM_reduceOption_iff fun _ _ _ => mapPosition_isSome,
    ← Listing.mapM_reduceOption_map, ← hlist, mapPositions_eq]
  constructor
  · rintro ⟨rows, hrows, hrep⟩
    obtain ⟨bs, hbs, harr⟩ := Option.map_eq_some_iff.1 hrows
    cases harr
    obtain ⟨bs', hbs', rfl⟩ := Option.map_eq_some_iff.1 hbs
    rw [hbs', Option.map_some, hrep]
  · intro h
    obtain ⟨bs, hbs, hrep⟩ := Option.map_eq_some_iff.1 h
    exact ⟨bs.reduceOption, by rw [hbs]; rfl, hrep⟩

/-- **When gateway and client agree on the profit**: the oracle price of every position has to be
zero. -/
theorem pnl_agrees_iff (overflowChecks : Bool) (info : SubaccountInfo) (symbols : Symbols) :
    PnlAgrees overflowChecks info symbols ↔
      ∀ balance ∈ info.perpBalances, ∀ product ∈ info.perpById.lookup balance.productId,
        balance.amount.val ≠ 0 →
          product.oraclePriceX18.val = 0 ∧ (overflowChecks → balance.amount.val ≠ i128Min) := by
  have hrows := rows_agree_iff overflowChecks info symbols
  simp only [mapPosition_agrees_iff] at hrows
  constructor
  · rintro ⟨rows, hmap, hrep, -⟩ balance hb
    obtain ⟨i, hi⟩ := List.mem_iff_getElem?.1 hb
    exact hrows.1 ⟨rows, hmap, hrep⟩ (balance, i) (List.mk_mem_zipIdx_iff_getElem?.2 hi)
  · intro h
    obtain ⟨rows, hmap, hrep⟩ := hrows.2 fun entry he => h entry.1 (List.fst_mem_of_mem_zipIdx he)
    exact ⟨rows, hmap, hrep, fun summary trades => unrealized_mapPnl summary trades hrep⟩

/-- A long position bought at 2 while the oracle says 3. -/
def longBalance : PerpBalance where
  productId := 2
  amount := ⟨10 ^ 18, inI128_one_x18⟩
  vQuoteBalance := ⟨-2 * 10 ^ 18, by decide⟩

def longPosition : SubaccountInfo where
  perpBalances := [longBalance]
  perpProducts := [{ productId := 2, oraclePriceX18 := ⟨3 * 10 ^ 18, by decide⟩ }]

/-- The gateway reports a loss of 2 for it, the client a profit of 1. -/
theorem pnl_agrees_long_position :
    (∃ rows, mapPositions false longPosition ∅ = some (.array rows) ∧
        rows.map reported = [some (2, -2)]) ∧
      clientPnl longPosition longBalance = some (2, 1) ∧
      ¬ ∀ overflowChecks info symbols, PnlAgrees overflowChecks info symbols := by
  have hproduct : longPosition.perpById.lookup longBalance.productId =
      some { productId := 2, oraclePriceX18 := ⟨3 * 10 ^ 18, by decide⟩ } := rfl
  have hclient : clientPnl longPosition longBalance = some (2, 1) := by
    rw [clientPnl_eq longPosition hproduct (by decide)]
    norm_num [longBalance]
    rfl
  have hserver : ∃ rows, mapPositions false longPosition ∅ = some (.array rows) ∧
      rows.map reported = [some (2, -2)] := by
    refine ⟨[_], rfl, ?_⟩
    rw [List.map_singleton, reported_positionRow, x18ToF64_rat]
    norm_num [longBalance]
    rfl
  refine ⟨hserver, hclient, fun h => ?_⟩
  obtain ⟨rows, hmap, hrep⟩ := hserver
  obtain ⟨rows', hmap', hrep', -⟩ := h false longPosition ∅
  have hsame : rows' = rows := by
    rw [hmap, Option.some.injEq, Value.array.injEq] at hmap'
    exact hmap'.symm
  have hone : longPosition.perpBalances.filterMap (clientPnl longPosition) = [(2, 1)] := by
    show [longBalance].filterMap (clientPnl longPosition) = [(2, 1)]
    rw [List.filterMap_cons, hclient, List.filterMap_nil]
  rw [hsame, hrep, hone] at hrep'
  have hpnl : (-2 : ℚ) = 1 := by simpa using hrep'
  exact absurd hpnl (by decide)

end Portfolio
