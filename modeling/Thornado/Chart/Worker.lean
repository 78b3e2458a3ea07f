import Thornado.Chart.Series
import Thornado.Rust.Json
import Thornado.Rust.Sort

/-!
# The worker of a series

The reading side of `gateway/chart/src/market.rs`: `parse_latest_candlestick`, `fetch_archive`,
and the three things that write the store and the cache: `bootstrap`, `backfill_from_archive` and
a row of the stream. What comes from outside (an upstream text, the archive's response, whether a
transaction commits, the clock) is an argument.
-/

namespace Chart

open Rust Rust.Json

variable {F : Type}

/-- A `SeriesHandle`'s constants, within the bounds `Config::from_env` clamps them to. -/
structure Series where
  symbol : String
  productId : UInt32
  granularity : UInt32
  historyLimit : Nat
  cacheCapacity : Nat
  historyLimit_ge : 50 ≤ historyLimit
  historyLimit_le : historyLimit ≤ 2000
  cacheCapacity_ge : historyLimit ≤ cacheCapacity
  cacheCapacity_le : cacheCapacity ≤ 10000
  deriving DecidableEq

/-! ## Candles of the stream -/

def normalizeTimestampToSec (value : Int) : Int :=
  if value > 9999999999999999 then value / 1000000000
  else if value > 9999999999999 then value / 1000000
  else if value > 9999999999 then value / 1000
  else value

def valueToStringNumber (value : Option (Value F)) : Option String :=
  value.bind fun value =>
    value.asStr.or ((value.asI64.map toString).or (value.asU64.map toString))

def parseLatestCandlestick (payload : Value F) (symbol : String)
    (expectedProductId expectedGranularity : UInt32) (nowMillis : Nat) :
    Except String (Option CandleRow) := do
  let some object := payload.asObject | return none
  let eventType := toAsciiLowercase (((object.lookup "type").bind Value.asStr).getD "")
  if eventType ≠ "latest_candlestick" then return none
  let productId ← okOr ((object.lookup "product_id").bind valueToU32)
    "latest_candlestick missing product_id"
  if productId ≠ expectedProductId.toNat then return none
  let granularity ← okOr ((object.lookup "granularity").bind valueToU32)
    "latest_candlestick missing granularity"
  if granularity ≠ expectedGranularity.toNat then return none
  let rawTimestamp ← okOr ((object.lookup "timestamp").bind valueToI64)
    "latest_candlestick missing timestamp"
  let openX18 ← okOr (valueToStringNumber (object.lookup "open_x18"))
    "latest_candlestick missing open_x18"
  let highX18 ← okOr (valueToStringNumber (object.lookup "high_x18"))
    "latest_candlestick missing high_x18"
  let lowX18 ← okOr (valueToStringNumber (object.lookup "low_x18"))
    "latest_candlestick missing low_x18"
  let closeX18 ← okOr (valueToStringNumber (object.lookup "close_x18"))
    "latest_candlestick missing close_x18"
  let volumeX18 ← okOr (valueToStringNumber (object.lookup "volume"))
    "latest_candlestick missing volume"
  let submissionIdx := ((object.lookup "submission_idx").bind valueToI64).getD nowMillis
  let sourceTs := ((object.lookup "source_ts").bind valueToI64).getD rawTimestamp
  return some
    { productId := UInt32.ofNat productId, symbol := symbol
      granularity := UInt32.ofNat granularity
      bucketStartSec := normalizeTimestampToSec rawTimestamp
      openX18 := openX18, highX18 := highX18, lowX18 := lowX18, closeX18 := closeX18
      volumeX18 := volumeX18, submissionIdx := submissionIdx, sourceTs := sourceTs }

/-- The row an upstream text carries: `none` if it is for something else. -/
def readCandlestick (json : SerdeJson F) (series : Series) (text : String) (nowMillis : Nat) :
    Except String (Option CandleRow) :=
  match json.fromStr text with
  | .error err => throw ("failed parsing upstream payload: " ++ err)
  | .ok value =>
    match value.get "error" with
    | some error => throw ("upstream returned error: " ++ json.display error)
    | none =>
      parseLatestCandlestick ((value.get "event").getD value) series.symbol series.productId
        series.granularity nowMillis

/-! ## Candles of the archive -/

/-- An item of the archive's response. -/
structure Candlestick where
  submissionIdx : Int
  timestamp : Int
  openX18 : Int
  highX18 : Int
  lowX18 : Int
  closeX18 : Int
  volume : Int
  deriving DecidableEq

def archiveRow (series : Series) (item : Candlestick) : CandleRow where
  productId := series.productId
  symbol := series.symbol
  granularity := series.granularity
  bucketStartSec := normalizeTimestampToSec item.timestamp
  openX18 := toString item.openX18
  highX18 := toString item.highX18
  lowX18 := toString item.lowX18
  closeX18 := toString item.closeX18
  volumeX18 := toString item.volume
  submissionIdx := item.submissionIdx
  sourceTs := item.timestamp

def fetchArchive (series : Series) (response : Except String (List Candlestick)) :
    Except String (List CandleRow) := do
  let candlesticks ← response.mapError ("failed querying archive candlesticks: " ++ ·)
  let rows := sortByKey CandleRow.bucketStartSec (candlesticks.map (archiveRow series))
  return dedupByKey CandleRow.bucketStartSec rows

/-! ## Store and cache -/

/-- The store and the handle of one series. `ready`: its bootstrap succeeded, the worker runs. -/
structure SeriesSys where
  table : Table
  cache : List CandleRow := []
  ready : Bool := false

/-- `load_recent` with the constants of the series. -/
def Series.load (series : Series) (table : Table) (limit : Nat) : List CandleRow :=
  table.loadRecent series.symbol series.productId series.granularity limit

/-- Load the newest rows and make them the cache. -/
def Series.reload (series : Series) (s : SeriesSys) (table : Table) : SeriesSys :=
  { s with
    table := table
    cache := replaceAll (series.load table series.historyLimit) series.cacheCapacity }

section
variable (series : Series) (s : SeriesSys)

/-- `bootstrap`. A failed `upsert_many` leaves the table as it was. -/
def Series.bootstrap (response : Except String (List Candlestick)) (commit : Except String Unit) :
    Except String SeriesSys :=
  if (series.load s.table series.historyLimit).length < series.historyLimit then do
    let fetched ← fetchArchive series response
    if fetched.isEmpty then return series.reload s s.table
    commit
    return series.reload s (s.table.upsertMany fetched)
  else return series.reload s s.table

def Series.backfillFromArchive (response : Except String (List Candlestick))
    (commit : Except String Unit) : Except String SeriesSys := do
  let fetched ← fetchArchive series response
  if fetched.isEmpty then return s
  commit
  return series.reload s (s.table.upsertMany fetched)

/-- A row of the stream: `upsert_candle`, then `apply_row`; also whether the cache changed. -/
def Series.storeRow (row : CandleRow) (commit : Except String Unit) :
    Except String (SeriesSys × Bool) := do
  commit
  let applied := applyRow s.cache row series.cacheCapacity
  return ({ s with table := s.table.upsertMany [row], cache := applied.1 }, applied.2)

/-- An upstream text, up to the emission of the update: the row of the update, if there is one. -/
def Series.handleText (json : SerdeJson F) (text : String) (nowMillis : Nat)
    (commit : Except String Unit) : Except String (SeriesSys × Option CandleRow) := do
  match ← readCandlestick json series text nowMillis with
  | none => return (s, none)
  | some row =>
    let (s', changed) ← series.storeRow s row commit
    return (s', if changed then some row else none)

end

end Chart
