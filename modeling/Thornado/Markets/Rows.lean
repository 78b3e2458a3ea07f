import Thornado.Rust.Prelude

/-!
# Market rows

`build_market_rows`, `diff_market_rows` and the helpers of `gateway/markets/src/service.rs`, over
an arbitrary type of floats. A source's `HashMap` is an `AList`: its entries in the order the
map's iterator yields them, an order the code does not control.
-/

namespace Markets

open Rust Std

variable {F : Type}

/-! ## The data model -/

structure SymbolMeta where
  productId : UInt32
  symbol : String
  marketType : String
  base : String
  quote : String
  updatedAt : Nat
  deriving DecidableEq

structure TickerMeta (F : Type) where
  productId : UInt32
  tickerId : String
  base : String
  quote : String
  lastPrice : F
  baseVolume : F
  quoteVolume : F
  change24h : F
  updatedAt : Nat
  deriving DecidableEq

structure ContractMeta (F : Type) where
  productId : UInt32
  tickerId : String
  base : String
  quote : String
  marketType : String
  fundingRate : F
  markPrice : F
  indexPrice : F
  openInterest : F
  openInterestUsd : F
  updatedAt : Nat
  deriving DecidableEq

structure MarketRow (F : Type) where
  symbol : String
  tickerId : String
  productId : UInt32
  marketType : String
  base : String
  quote : String
  price : Option F
  change24h : Option F
  volume24h : Option F
  annFunding : Option F
  fundingRate : Option F
  markPrice : Option F
  indexPrice : Option F
  openInterest : Option F
  openInterestUsd : Option F
  updatedAt : Nat
  stale : Bool
  deriving BEq, DecidableEq

abbrev Rows (F : Type) := ExtTreeMap String (MarketRow F)

structure ServiceState (F : Type) where
  seq : Nat := 0
  sourceTs : Nat := 0
  symbols : AList (fun _ : UInt32 => SymbolMeta) := ∅
  tickers : AList (fun _ : UInt32 => TickerMeta F) := ∅
  contracts : AList (fun _ : UInt32 => ContractMeta F) := ∅
  markets : Rows F := ∅

/-- The values of a hash map in its iteration order. -/
def values {K V : Type} (m : AList fun _ : K => V) : List V := m.entries.map (·.2)

/-! ## Symbols -/

section
variable [UnicodeCase]

def normalizeSymbol (symbol : String) : String := UnicodeCase.toUppercase (trim symbol)

def normalizeMarketType (value : String) : String :=
  let normalized := UnicodeCase.toLowercase (trim value)
  if normalized = "" then "unknown" else normalized

def splitBaseQuote (symbol : String) : String × String :=
  let normalized := normalizeSymbol symbol
  if normalized = "" then ("", "")
  else
    match splitOnce normalized '/' with
    | some (base, quote) => (base, quote)
    | none =>
      match splitOnce normalized '_' with
      | some (left, right) =>
        match splitOnce left '-' with
        | some (base, _) => (base, right)
        | none => (left, right)
      | none =>
        let parts := (split normalized '-').filter (· ≠ "")
        if parts.length ≥ 2 then (parts.head?.getD "", parts.getLast?.getD "")
        else (normalized, "")

def sanitizePairFields (base quote symbolFallback : String) : String × String :=
  let cleanBase := normalizeSymbol base
  let cleanQuote := normalizeSymbol quote
  if cleanBase ≠ "" ∧ cleanQuote ≠ "" then (cleanBase, cleanQuote)
  else splitBaseQuote symbolFallback

end

/-! ## Numbers -/

section
variable [F64 F]

def finiteOption (value : F) : Option F := if F64.isFinite value then some value else none

def preferredVolume (baseVolume quoteVolume : F) : Option F :=
  match finiteOption baseVolume, finiteOption quoteVolume with
  | none, some quote => some quote
  | some base, none => some base
  | some base, some quote =>
    if F64.gt quote (F64.ofInt 0) then some quote
    else if F64.gt base (F64.ofInt 0) then some base
    else none
  | none, none => none

def annualizeFundingRate (rate fundingIntervalHours : F) : F :=
  let normalized :=
    if F64.gt (F64.abs rate) (F64.ofInt 1) then F64.div rate (F64.ofInt 100) else rate
  let periodsPerDay := F64.max (F64.div (F64.ofInt 24) fundingIntervalHours) (F64.ofInt 1)
  F64.mul (F64.mul (F64.mul normalized periodsPerDay) (F64.ofInt 365)) (F64.ofInt 100)

end

/-! ## Building the rows -/

def symbolRow (m : SymbolMeta) : MarketRow F where
  symbol := m.symbol
  tickerId := m.symbol
  productId := m.productId
  marketType := m.marketType
  base := m.base
  quote := m.quote
  price := none
  change24h := none
  volume24h := none
  annFunding := none
  fundingRate := none
  markPrice := none
  indexPrice := none
  openInterest := none
  openInterestUsd := none
  updatedAt := m.updatedAt
  stale := false

/-- The row a ticker starts when its symbol has none yet. -/
def tickerRow (symbolKey : String) (t : TickerMeta F) : MarketRow F :=
  { (symbolRow ⟨t.productId, symbolKey, "unknown", t.base, t.quote, t.updatedAt⟩ : MarketRow F) with
    tickerId := t.tickerId }

/-- The row a contract starts when its symbol has none yet. -/
def contractRow (symbolKey : String) (c : ContractMeta F) : MarketRow F :=
  { (symbolRow ⟨c.productId, symbolKey, c.marketType, c.base, c.quote, c.updatedAt⟩ :
      MarketRow F) with
    tickerId := c.tickerId }

section
variable [F64 F]

def applyTicker (t : TickerMeta F) (row : MarketRow F) : MarketRow F :=
  { row with
    productId := t.productId
    tickerId := t.tickerId
    base := if row.base = "" then t.base else row.base
    quote := if row.quote = "" then t.quote else row.quote
    price := finiteOption t.lastPrice
    change24h := finiteOption t.change24h
    volume24h := preferredVolume t.baseVolume t.quoteVolume
    updatedAt := max row.updatedAt t.updatedAt }

def applyContract (fundingIntervalHours : F) (c : ContractMeta F) (row : MarketRow F) :
    MarketRow F :=
  { row with
    productId := c.productId
    tickerId := c.tickerId
    marketType :=
      if row.marketType = "unknown" ∨ row.marketType = "" then c.marketType else row.marketType
    base := if row.base = "" then c.base else row.base
    quote := if row.quote = "" then c.quote else row.quote
    fundingRate := finiteOption c.fundingRate
    annFunding := (finiteOption c.fundingRate).map (annualizeFundingRate · fundingIntervalHours)
    markPrice := finiteOption c.markPrice
    indexPrice := finiteOption c.indexPrice
    openInterest := finiteOption c.openInterest
    openInterestUsd := finiteOption c.openInterestUsd
    updatedAt := max row.updatedAt c.updatedAt }

/-- The last pass over a row: defaults and staleness. -/
def finishRow (now staleAfterMs : Nat) (row : MarketRow F) : MarketRow F :=
  let tickerId := if row.tickerId = "" then row.symbol else row.tickerId
  let updatedAt := if row.updatedAt = 0 then now else row.updatedAt
  { row with
    tickerId := tickerId
    updatedAt := updatedAt
    stale := decide (now - updatedAt > staleAfterMs) }

/-- The symbol a ticker or contract is filed under: its product's, else its own id. -/
def symbolKey (state : ServiceState F) (productId : UInt32) (tickerId : String) : String :=
  ((state.symbols.lookup productId).map (·.symbol)).getD tickerId

def insertSymbol (out : Rows F) (m : SymbolMeta) : Rows F := out.insert m.symbol (symbolRow m)

def insertTicker (state : ServiceState F) (out : Rows F) (t : TickerMeta F) : Rows F :=
  let key := symbolKey state t.productId t.tickerId
  out.insert key (applyTicker t (out[key]?.getD (tickerRow key t)))

def insertContract (state : ServiceState F) (fundingIntervalHours : F) (out : Rows F)
    (c : ContractMeta F) : Rows F :=
  let key := symbolKey state c.productId c.tickerId
  out.insert key (applyContract fundingIntervalHours c (out[key]?.getD (contractRow key c)))

def buildMarketRows (state : ServiceState F) (now staleAfterMs : Nat) (fundingIntervalHours : F) :
    Rows F :=
  let out := (values state.symbols).foldl insertSymbol ∅
  let out := (values state.tickers).foldl (insertTicker state) out
  let out := (values state.contracts).foldl (insertContract state fundingIntervalHours) out
  out.map fun _ row => finishRow now staleAfterMs row

/-- The rows of `new` that are not (by `PartialEq`) in `old`, and the symbols only `old` has. -/
def diffMarketRows (old new : Rows F) : List (MarketRow F) × List String :=
  let updated := new.toList.filterMap fun (symbol, nextRow) =>
    match old[symbol]? with
    | some prevRow => if prevRow == nextRow then none else some nextRow
    | none => some nextRow
  let removed := old.keys.filter fun symbol => !new.contains symbol
  (updated, removed)

end

end Markets
