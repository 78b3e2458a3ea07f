import Thornado.Orderbook.State
import Thornado.Rust.Json

/-!
# Upstream messages and the session of a market

`parse_book_depth_delta` and its helpers, `handle_upstream_json_text` and the session of
`gateway/orderbook/src/market.rs`. What `emit` sends to the subscribers is logged in `emitted`.

* `handle_cases`: a message leaves the market alone, or its delta was applied.
-/

namespace Orderbook

open Rust Rust.Json Std

variable {F : Type}

/-! ## Parsing a delta -/

def parseLevel (level : Value F) : Except String LevelDelta :=
  match level.asArray with
  | none => throw "expected [price,size] level"
  | some [price, size] => do
    let priceX18 ← okOr (valueToI128 price) "invalid level price"
    let sizeX18 ← okOr (valueToI128 size) "invalid level size"
    return { priceX18 := priceX18, sizeX18 := sizeX18 }
  | some _ => throw "expected exactly 2 level items"

def parseLevels (raw : Option (Value F)) : Except String (List LevelDelta) :=
  match raw with
  | none => return []
  | some raw =>
    match raw.asArray with
    | none => throw "expected levels array"
    | some levels => levels.mapM parseLevel

section
variable [UnicodeCase]

def parseBookDepthDelta (payload : Value F) (expectedProductId : UInt32) :
    Except String (Option BookDelta) := do
  let some obj := payload.asObject | return none
  let eventType := UnicodeCase.toLowercase (((obj.lookup "type").bind Value.asStr).getD "")
  if eventType ≠ "book_depth" then return none
  let productId ← okOr ((obj.lookup "product_id").bind valueToU32) "book_depth missing product_id"
  if productId ≠ expectedProductId.toNat then return none
  let lastMaxTimestamp ← okOr ((obj.lookup "last_max_timestamp").bind valueToU64)
    "book_depth missing last_max_timestamp"
  let minTimestamp ← okOr ((obj.lookup "min_timestamp").bind valueToU64)
    "book_depth missing min_timestamp"
  let maxTimestamp ← okOr ((obj.lookup "max_timestamp").bind valueToU64)
    "book_depth missing max_timestamp"
  let bids ← parseLevels (obj.lookup "bids")
  let asks ← parseLevels (obj.lookup "asks")
  return some { lastMaxTimestamp := lastMaxTimestamp, minTimestamp := minTimestamp,
                maxTimestamp := maxTimestamp, bids := bids, asks := asks }

/-- The delta of an upstream text: `none` if the text is not JSON, or not for this market. -/
def readDelta (json : SerdeJson F) (productId : UInt32) (text : String) :
    Except String (Option BookDelta) :=
  match json.fromStr text with
  | .error _ => return none
  | .ok value =>
    let payload := (value.get "event").getD value
    match (value.get "error").or (payload.get "error") with
    | some error => throw ("upstream returned subscription error: " ++ json.display error)
    | none => parseBookDepthDelta payload productId

end

/-! ## The market -/

inductive ServerMessage (F : Type) where
  | snapshot (symbol : String) (productId : UInt32) (seq sourceTs : Nat) (depth : DepthView F)
  | update (symbol : String) (productId : UInt32) (seq sourceTs minTs maxTs : Nat)
      (depth : DepthView F)

structure Market (F : Type) where
  symbol : String
  productId : UInt32
  depth : Nat
  state : OrderBookState := {}
  seq : Nat := 1
  emitted : List (ServerMessage F) := []

/-- The answer of `get_market_liquidity`. -/
structure MarketLiquidity where
  bids : List PriceLevel
  asks : List PriceLevel
  timestamp : Nat

/-- `AtomicU64::fetch_add` of one. -/
def nextSeq (seq : Nat) : Nat := (seq + 1) % 2 ^ 64

section
variable [F64 F]

/-- The start of a session: load the REST snapshot and emit it. -/
def loadSnapshot (m : Market F) (snapshot : MarketLiquidity) : Market F :=
  let state := OrderBookState.resetFromSnapshot snapshot.bids snapshot.asks snapshot.timestamp
  { m with
    state := state
    seq := nextSeq m.seq
    emitted := m.emitted ++
      [.snapshot m.symbol m.productId m.seq snapshot.timestamp (state.depthView m.depth)] }

def gapError (symbol : String) (currentTs eventLastMaxTs : Nat) : String :=
  "book_depth gap for " ++ symbol ++ ": local_ts=" ++ toString currentTs ++
    " event_last_max_ts=" ++ toString eventLastMaxTs

/-- The market with the state after an applied delta; the update is emitted. -/
def Market.update (m : Market F) (delta : BookDelta) (state : OrderBookState) : Market F :=
  { m with
    state := state
    seq := nextSeq m.seq
    emitted := m.emitted ++
      [.update m.symbol m.productId m.seq state.lastTs delta.minTimestamp delta.maxTimestamp
        (state.depthView m.depth)] }

def handleDelta (m : Market F) (delta : BookDelta) : Except String Unit × Market F :=
  match m.state.applyDelta delta with
  | (.applied, state) => (.ok (), m.update delta state)
  | (.stale, state) => (.ok (), { m with state := state })
  | (.gap currentTs eventLastMaxTs, state) =>
    (.error (gapError m.symbol currentTs eventLastMaxTs), { m with state := state })

/-- What a delta does to the market, by the answer it gets. -/
theorem handleDelta_cases (m : Market F) (delta : BookDelta) :
    (handleDelta m delta = (.ok (), m) ∧ (m.state.applyDelta delta).1 = .stale) ∨
    (∃ currentTs eventLastMaxTs,
      handleDelta m delta = (.error (gapError m.symbol currentTs eventLastMaxTs), m) ∧
      (m.state.applyDelta delta).1 = .gap currentTs eventLastMaxTs) ∨
    (handleDelta m delta = (.ok (), m.update delta (m.state.applyDelta delta).2) ∧
      (m.state.applyDelta delta).1 = .applied) := by
  unfold handleDelta
  obtain ⟨happ, -⟩ | ⟨happ, -⟩ | ⟨happ, -⟩ := applyDelta_cases m.state delta
  · rw [happ]
    exact .inl ⟨rfl, rfl⟩
  · rw [happ]
    exact .inr (.inl ⟨_, _, rfl, rfl⟩)
  · cases hres : m.state.applyDelta delta with
    | mk outcome state =>
      rw [hres] at happ
      cases happ
      exact .inr (.inr ⟨rfl, rfl⟩)

variable [UnicodeCase]

def handleUpstreamJsonText (json : SerdeJson F) (m : Market F) (text : String) :
    Except String Unit × Market F :=
  match readDelta json m.productId text with
  | .error err => (.error err, m)
  | .ok none => (.ok (), m)
  | .ok (some delta) => handleDelta m delta

/-- **A message leaves the whole market as it is, unless its delta is applied.** -/
theorem handle_cases (json : SerdeJson F) (m : Market F) (text : String) :
    (handleUpstreamJsonText json m text).2 = m ∨
      ∃ delta, readDelta json m.productId text = .ok (some delta) ∧
        (m.state.applyDelta delta).1 = .applied ∧
        (handleUpstreamJsonText json m text).2 = m.update delta (m.state.applyDelta delta).2 := by
  unfold handleUpstreamJsonText
  cases hread : readDelta json m.productId text with
  | error err => exact .inl rfl
  | ok delta? =>
    cases delta? with
    | none => exact .inl rfl
    | some delta =>
      obtain ⟨hres, -⟩ | ⟨_, _, hres, -⟩ | ⟨hres, happ⟩ := handleDelta_cases m delta
      · simp only [hres]
        exact .inl trivial
      · simp only [hres]
        exact .inl trivial
      · exact .inr ⟨delta, rfl, happ, by simp only [hres]⟩

/-! ## Sessions -/

/-- A session with the upstream: the texts come in one by one, until one is answered by an error.
`received` and `applied` are the history of the deltas; no step reads them. -/
structure Session (F : Type) where
  market : Market F
  closed : Bool := false
  received : List BookDelta := []
  applied : List BookDelta := []

def Session.start (m : Market F) (snapshot : MarketLiquidity) : Session F where
  market := loadSnapshot m snapshot

/-- The delta the text carries, if it is one. -/
def deltaOf (json : SerdeJson F) (productId : UInt32) (text : String) : List BookDelta :=
  match readDelta json productId text with
  | .ok (some delta) => [delta]
  | _ => []

def Session.step (json : SerdeJson F) (s : Session F) (text : String) : Option (Session F) :=
  if s.closed then none
  else
    let (result, market) := handleUpstreamJsonText json s.market text
    let deltas := deltaOf json s.market.productId text
    some
      { market := market
        closed := match result with
          | .ok _ => false
          | .error _ => true
        received := s.received ++ deltas
        applied := s.applied ++
          deltas.filter fun delta => (s.market.state.applyDelta delta).1 = .applied }

/-- What a step of a session is: the market and the applied deltas stay, or a delta is applied. -/
theorem Session.step_cases {json : SerdeJson F} {s s' : Session F} {text : String}
    (h : s.step json text = some s') :
    s'.received = s.received ++ deltaOf json s.market.productId text ∧
    ((s'.market = s.market ∧ s'.applied = s.applied) ∨
      ∃ delta, readDelta json s.market.productId text = .ok (some delta) ∧
        (s.market.state.applyDelta delta).1 = .applied ∧
        s'.market = s.market.update delta (s.market.state.applyDelta delta).2 ∧
        s'.applied = s.applied ++ [delta]) := by
  simp only [Session.step, handleUpstreamJsonText, deltaOf] at h ⊢
  split at h
  · cases h
  · cases hread : readDelta json s.market.productId text with
    | error err =>
      simp only [hread, List.filter_nil, List.append_nil] at h ⊢
      cases h
      exact ⟨rfl, .inl ⟨rfl, rfl⟩⟩
    | ok delta? =>
      cases delta? with
      | none =>
        simp only [hread, List.filter_nil, List.append_nil] at h ⊢
        cases h
        exact ⟨rfl, .inl ⟨rfl, rfl⟩⟩
      | some delta =>
        simp only [hread, List.filter_cons, List.filter_nil] at h ⊢
        obtain ⟨hres, happ⟩ | ⟨_, _, hres, happ⟩ | ⟨hres, happ⟩ := handleDelta_cases s.market delta
        · simp only [hres, happ, reduceCtorEq, decide_false, Bool.false_eq_true, if_false,
            List.append_nil] at h
          cases h
          exact ⟨rfl, .inl ⟨rfl, rfl⟩⟩
        · simp only [hres, happ, reduceCtorEq, decide_false, Bool.false_eq_true, if_false,
            List.append_nil] at h
          cases h
          exact ⟨rfl, .inl ⟨rfl, rfl⟩⟩
        · simp only [hres, happ, decide_true, if_true] at h
          cases h
          exact ⟨rfl, .inr ⟨delta, rfl, happ, rfl, rfl⟩⟩

end

end Orderbook
