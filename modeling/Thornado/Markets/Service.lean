import Thornado.Markets.Rows

/-!
# The markets service

The rest of `gateway/markets/src/service.rs`: the three refreshes, each replacing one of the
source maps from an upstream response, and `rebuild_and_publish`, which replaces the rows and
builds the message that tells the clients. A response is the list of the payload's values in the
order `into_values` yields them, an order the code does not control.

* `rebuildAndPublish_cases`: a rebuild changes nothing, or counts up and replaces the rows.
* `buildMarketRows_keyed`: every row is filed under its own symbol.
-/

namespace Markets

open Rust Std

variable {F : Type}

/-! ## Upstream payloads -/

structure SymbolData where
  productId : UInt32
  symbol : String
  productType : String
  deriving DecidableEq

structure TickerData (F : Type) where
  productId : UInt32
  tickerId : String
  baseCurrency : String
  quoteCurrency : String
  lastPrice : F
  baseVolume : F
  quoteVolume : F
  priceChangePercent24h : F
  deriving DecidableEq

structure ContractData (F : Type) where
  productId : UInt32
  tickerId : String
  baseCurrency : String
  quoteCurrency : String
  productType : String
  fundingRate : F
  markPrice : F
  indexPrice : F
  openInterest : F
  openInterestUsd : F
  deriving DecidableEq

/-! ## The refreshes -/

section
variable [UnicodeCase]

def symbolMeta (now : Nat) (symbol : String) (data : SymbolData) : SymbolMeta :=
  let pair := splitBaseQuote symbol
  { productId := data.productId, symbol := symbol,
    marketType := normalizeMarketType data.productType,
    base := pair.1, quote := pair.2, updatedAt := now }

def tickerMeta (now : Nat) (tickerId : String) (data : TickerData F) : TickerMeta F :=
  let pair := sanitizePairFields data.baseCurrency data.quoteCurrency tickerId
  { productId := data.productId, tickerId := tickerId, base := pair.1, quote := pair.2,
    lastPrice := data.lastPrice, baseVolume := data.baseVolume, quoteVolume := data.quoteVolume,
    change24h := data.priceChangePercent24h, updatedAt := now }

def contractMeta (now : Nat) (tickerId : String) (data : ContractData F) : ContractMeta F :=
  let pair := sanitizePairFields data.baseCurrency data.quoteCurrency tickerId
  { productId := data.productId, tickerId := tickerId, base := pair.1, quote := pair.2,
    marketType := normalizeMarketType data.productType, fundingRate := data.fundingRate,
    markPrice := data.markPrice, indexPrice := data.indexPrice, openInterest := data.openInterest,
    openInterestUsd := data.openInterestUsd, updatedAt := now }

/-- The map a refresh collects: the entries whose normalised name is not empty, by product. -/
def collect {D M : Type} (name : D → String) (productId : D → UInt32) (mk : String → D → M)
    (payload : List D) : AList (fun _ : UInt32 => M) :=
  payload.foldl (fun next data =>
    let key := normalizeSymbol (name data)
    if key = "" then next else next.insert (productId data) (mk key data)) ∅

def refreshSymbols (response : Except String (List SymbolData)) (now : Nat)
    (state : ServiceState F) : Except String (ServiceState F) := do
  let symbols ← response.mapError ("failed to query symbols from Nado: " ++ ·)
  let next := collect SymbolData.symbol SymbolData.productId (symbolMeta now) symbols
  if next.entries.isEmpty then throw "no symbols returned from Nado"
  return { state with symbols := next }

def refreshTickers (response : Except String (List (TickerData F))) (now : Nat)
    (state : ServiceState F) : Except String (ServiceState F) := do
  let tickers ← response.mapError ("failed to query tickers from Nado: " ++ ·)
  if tickers.isEmpty then throw "empty tickers payload"
  let next := collect TickerData.tickerId TickerData.productId (tickerMeta now) tickers
  if next.entries.isEmpty then throw "tickers payload had no valid rows"
  return { state with tickers := next }

/-- Unlike the other two, this refresh accepts an empty payload. -/
def refreshContracts (response : Except String (List (ContractData F))) (now : Nat)
    (state : ServiceState F) : Except String (ServiceState F) := do
  let contracts ← response.mapError ("failed to query contracts from Nado: " ++ ·)
  let next := collect ContractData.tickerId ContractData.productId (contractMeta now) contracts
  return { state with contracts := next }

end

/-! ## Rebuilding the rows -/

structure Config (F : Type) where
  staleAfterMs : Nat
  fundingIntervalHours : F

inductive ServerMessage (F : Type) where
  | snapshot (seq sourceTs : Nat) (markets : List (MarketRow F))
  | delta (seq sourceTs : Nat) (updated : List (MarketRow F)) (removed : List String)
  | status (status detail : String) (sourceTs : Nat)

/-- The sequence number of a message about rows. -/
def ServerMessage.seq? : ServerMessage F → Option Nat
  | .snapshot seq _ _ => some seq
  | .delta seq _ _ _ => some seq
  | .status _ _ _ => none

/-- `SnapshotResponse.markets`: the rows in the order of their symbols. -/
def marketsOf (rows : Rows F) : List (MarketRow F) := rows.toList.map (·.2)

/-- The message for a replacement of the rows that gets number `seq`. -/
def replacementMessage (seq now : Nat) (next : Rows F) (updated : List (MarketRow F))
    (removed : List String) : ServerMessage F :=
  if seq = 1 then .snapshot seq now (marketsOf next) else .delta seq now updated removed

section
variable [F64 F]

/-- The locked part of `rebuild_and_publish`: the new state and the message to send after the
lock is released, if there is one. -/
def rebuildAndPublish (config : Config F) (now : Nat) (state : ServiceState F) :
    ServiceState F × Option (ServerMessage F) :=
  let nextMarkets := buildMarketRows state now config.staleAfterMs config.fundingIntervalHours
  let (updated, removed) := diffMarketRows state.markets nextMarkets
  if updated.isEmpty && removed.isEmpty then (state, none)
  else
    let seq := saturatingAdd state.seq 1
    ({ state with seq := seq, sourceTs := now, markets := nextMarkets },
      some (replacementMessage seq now nextMarkets updated removed))

/-- A rebuild that replaces the rows. -/
structure Replaces (config : Config F) (now : Nat) (state state' : ServiceState F)
    (message : ServerMessage F) : Prop where
  markets : state'.markets =
    buildMarketRows state now config.staleAfterMs config.fundingIntervalHours
  seq : state'.seq = saturatingAdd state.seq 1
  message : message = replacementMessage state'.seq now state'.markets
    (diffMarketRows state.markets state'.markets).1
    (diffMarketRows state.markets state'.markets).2

/-- **What a rebuild does.** -/
theorem rebuildAndPublish_cases (config : Config F) (now : Nat) (state : ServiceState F) :
    rebuildAndPublish config now state = (state, none) ∨
      ∃ state' message, rebuildAndPublish config now state = (state', some message) ∧
        Replaces config now state state' message := by
  unfold rebuildAndPublish
  simp only
  split
  · exact .inl rfl
  · exact .inr ⟨_, _, rfl, rfl, rfl, rfl⟩

end

/-! ## Rows are filed under their symbol -/

/-- Every row's key is its symbol. -/
def Keyed (rows : Rows F) : Prop :=
  ∀ (key : String) (row : MarketRow F), rows[key]? = some row → row.symbol = key

theorem Keyed.empty : Keyed (∅ : Rows F) := by
  intro key row h
  simp at h

theorem Keyed.insert {rows : Rows F} (h : Keyed rows) {key : String} {row : MarketRow F}
    (hrow : row.symbol = key) : Keyed (rows.insert key row) := by
  intro k r hr
  rw [ExtTreeMap.getElem?_insert] at hr
  split at hr
  · rename_i hk
    cases hr
    rw [hrow]
    exact Std.compare_eq_iff_eq.1 hk
  · exact h k r hr

/-- The row a ticker or a contract updates, or the one it starts, has the symbol of its key. -/
theorem Keyed.getD_symbol {rows : Rows F} (h : Keyed rows) {key : String} {start : MarketRow F}
    (hs : start.symbol = key) : (rows[key]?.getD start).symbol = key := by
  cases hk : rows[key]? with
  | none => exact hs
  | some row => exact h key row hk

/-- A row of keyed rows is the one its symbol finds. -/
theorem Keyed.mem_marketsOf {rows : Rows F} (h : Keyed rows) {row : MarketRow F} :
    row ∈ marketsOf rows ↔ rows[row.symbol]? = some row := by
  unfold marketsOf
  rw [List.mem_map]
  constructor
  · rintro ⟨⟨key, row⟩, hmem, rfl⟩
    have hget := ExtTreeMap.mem_toList_iff_getElem?_eq_some.1 hmem
    rw [h key row hget]
    exact hget
  · intro hget
    exact ⟨(row.symbol, row), ExtTreeMap.mem_toList_iff_getElem?_eq_some.2 hget, rfl⟩

theorem marketsOf_nodup {rows : Rows F} (h : Keyed rows) : (marketsOf rows).Nodup := by
  unfold marketsOf
  rw [List.nodup_iff_pairwise_ne, List.pairwise_map]
  refine ExtTreeMap.distinct_keys_toList.imp_of_mem fun {a b} ha hb hne heq => hne ?_
  have hka := h _ _ (ExtTreeMap.mem_toList_iff_getElem?_eq_some.1 ha)
  have hkb := h _ _ (ExtTreeMap.mem_toList_iff_getElem?_eq_some.1 hb)
  rw [← hka, ← hkb, heq]
  exact Std.compare_eq_iff_eq.2 rfl

theorem foldl_keyed {A : Type} {f : Rows F → A → Rows F}
    (hf : ∀ out a, Keyed out → Keyed (f out a)) :
    ∀ (as : List A) {out : Rows F}, Keyed out → Keyed (as.foldl f out)
  | [], _, h => h
  | a :: as, out, h => by
    rw [List.foldl_cons]
    exact foldl_keyed hf as (hf out a h)

theorem insertSymbol_keyed {out : Rows F} (h : Keyed out) (m : SymbolMeta) :
    Keyed (insertSymbol out m) := by
  unfold insertSymbol
  exact h.insert rfl

section
variable [F64 F]

theorem insertTicker_keyed (state : ServiceState F) {out : Rows F} (h : Keyed out)
    (t : TickerMeta F) : Keyed (insertTicker state out t) := by
  unfold insertTicker
  exact h.insert (h.getD_symbol rfl)

theorem insertContract_keyed (state : ServiceState F) (hours : F) {out : Rows F} (h : Keyed out)
    (c : ContractMeta F) : Keyed (insertContract state hours out c) := by
  unfold insertContract
  exact h.insert (h.getD_symbol rfl)

theorem buildMarketRows_keyed (state : ServiceState F) (now staleAfterMs : Nat) (hours : F) :
    Keyed (buildMarketRows state now staleAfterMs hours) := by
  have h1 : Keyed ((values state.symbols).foldl insertSymbol (∅ : Rows F)) :=
    foldl_keyed (fun out m h => insertSymbol_keyed h m) _ Keyed.empty
  have h2 := foldl_keyed (fun out t h => insertTicker_keyed state h t) (values state.tickers) h1
  have h3 := foldl_keyed (fun out c h => insertContract_keyed state hours h c)
    (values state.contracts) h2
  intro key row hrow
  unfold buildMarketRows at hrow
  rw [ExtTreeMap.getElem?_map] at hrow
  obtain ⟨row0, h0, rfl⟩ := Option.map_eq_some_iff.1 hrow
  exact h3 key row0 h0

end

end Markets
