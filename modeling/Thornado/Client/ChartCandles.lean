import Mathlib.Data.Rat.Floor
import Thornado.Lib.KeyedMap
import Thornado.Lib.Transition

/-!
# The candles of the client's chart

`useChartCandles` of `client/src/pages/Terminal.jsx`, for the life of one subscription: the state
and what each callback does to it. A finite number is its rational value: the code compares and
truncates numbers, and takes their maximum and minimum. The string functions of the language are
parameters (`JsText`).

* `lookup_mergeMap_last`, `lookup_mergeMap_other`: what a merge shows for a bucket.
* `mem_mergeChartCandles`: the merged candles of the newest buckets are displayed.
-/

namespace Client

/-- What the client uses to read a number from a text. -/
structure JsText where
  trim : String → String
  /-- `Number(s)`, where it is finite -/
  number : String → Option ℚ

/-- A value of the language; `none` is a number that is not finite. -/
inductive JsValue where
  | undefined
  | null
  | boolean (b : Bool)
  | number (n : Option ℚ)
  | string (s : String)
  /-- an object, with `Number(value)` -/
  | object (n : Option ℚ)
  deriving DecidableEq

/-- `value ?? other` -/
def JsValue.orElse : JsValue → JsValue → JsValue
  | .undefined, other => other
  | .null, other => other
  | value, _ => value

/-- `Math.trunc` -/
def trunc (n : ℚ) : Int := n.num.tdiv n.den

def toFiniteOrNull (js : JsText) : JsValue → Option ℚ
  | .number n => n
  | .string value =>
    let cleaned := (js.trim value).toList.filter (· ≠ ',')
    if cleaned = [] then none
    else
      let numericText := if cleaned.getLast? = some '%' then cleaned.dropLast else cleaned
      js.number (String.ofList numericText)
  | .undefined => none
  | .null => some 0
  | .boolean b => some (if b then 1 else 0)
  | .object n => n

/-! ## Candles -/

/-- A candle of a message. The client does not read `submissionIdx`: it says how recent the
candle is. -/
structure RawCandle where
  bucketStart : JsValue
  timestamp : JsValue
  open_ : JsValue
  high : JsValue
  low : JsValue
  close : JsValue
  volume : JsValue
  submissionIdx : Int
  deriving DecidableEq

/-- A candle of the chart. -/
structure Candle where
  bucketStart : Int
  open_ : ℚ
  high : ℚ
  low : ℚ
  close : ℚ
  volume : ℚ
  le_high : max open_ close ≤ high
  low_le : low ≤ min open_ close
  volume_nonneg : 0 ≤ volume
  deriving DecidableEq

/-- `raw` is `none` if it is not an object. -/
def normalizeChartCandle (js : JsText) (raw : Option RawCandle) : Option Candle := do
  let raw ← raw
  let bucketStart ← toFiniteOrNull js
    ((raw.bucketStart.orElse raw.timestamp).orElse (.number (some 0)))
  if bucketStart ≤ 0 then none
  else
    let open_ ← toFiniteOrNull js raw.open_
    let close ← toFiniteOrNull js raw.close
    let parsedHigh := toFiniteOrNull js raw.high
    let parsedLow := toFiniteOrNull js raw.low
    let parsedVolume := toFiniteOrNull js raw.volume
    some {
      bucketStart := trunc bucketStart
      open_ := open_
      high := max (parsedHigh.getD open_) (max open_ close)
      low := min (parsedLow.getD close) (min open_ close)
      close := close
      volume := max 0 (parsedVolume.getD 0)
      le_high := le_max_right ..
      low_le := min_le_right ..
      volume_nonneg := le_max_left .. }

/-- All the fields of `incoming` are finite numbers, so every `??` on them ends there. -/
def mergeChartCandleRecord (previous : Option Candle) (incoming : Candle) : Option Candle :=
  if incoming.bucketStart ≤ 0 then previous
  else
    let high := max incoming.high (max incoming.open_ incoming.close)
    let low := min incoming.low (min incoming.open_ incoming.close)
    some {
      bucketStart := incoming.bucketStart
      open_ := incoming.open_
      high := previous.elim high fun prev => max prev.high high
      low := previous.elim low fun prev => min prev.low low
      close := incoming.close
      volume := max 0 incoming.volume
      le_high := by
        cases previous with
        | none => exact le_max_right ..
        | some prev => exact le_trans (le_max_right ..) (le_max_right ..)
      low_le := by
        cases previous with
        | none => exact min_le_right ..
        | some prev => exact le_trans (min_le_right ..) (min_le_right ..)
      volume_nonneg := le_max_left .. }

/-- The `Map` of a merge. -/
abbrev CandleMap := AList fun _ : Int => Candle

def setCandle (map : CandleMap) (candle : Candle) : CandleMap :=
  map.insert candle.bucketStart candle

def mergeCandle (map : CandleMap) (candle : Candle) : CandleMap :=
  let prev := map.lookup candle.bucketStart
  map.insert candle.bucketStart ((mergeChartCandleRecord prev candle).getD candle)

def maxSize : Nat := 600

def mergeMap (current incoming : List Candle) : CandleMap :=
  incoming.foldl mergeCandle (current.foldl setCandle ∅)

def mergeChartCandles (current incoming : List Candle) : List Candle :=
  let merged := KeyedMap.values Candle.bucketStart (mergeMap current incoming)
  if merged.length > maxSize then merged.drop (merged.length - maxSize) else merged

/-! ## The hook -/

structure ChartState where
  candles : List Candle
  status : String
  detail : String

/-- A parsed message of the socket. A text is `none` if it is falsy. -/
inductive Message where
  | snapshot (candles : List (Option RawCandle))
  | update (candle : Option RawCandle)
  | status (status detail : Option String)
  | error (message : Option String)
  /-- no JSON, or none of the above -/
  | other
  deriving DecidableEq

inductive Event where
  /-- the response to the request of `loadSnapshot`; `none` if it lists no candles -/
  | httpResponse (candles : Option (List (Option RawCandle)))
  | open_
  | message (msg : Message)
  | error
  | close
  deriving DecidableEq

structure Hook where
  chart : ChartState
  reconnectAttempt : Nat

/-- After the synchronous part of `loadSnapshot`. -/
def Hook.start : Hook := ⟨⟨[], "loading", ""⟩, 0⟩

/-- `candles.map(normalizeChartCandle).filter(Boolean)` -/
def normalizeAll (js : JsText) (candles : List (Option RawCandle)) : List Candle :=
  candles.filterMap (normalizeChartCandle js)

def onMessage (js : JsText) (prev : ChartState) : Message → ChartState
  | .snapshot candles =>
    { candles := mergeChartCandles [] (normalizeAll js candles)
      status := "connected"
      detail := "" }
  | .update candle =>
    match normalizeChartCandle js candle with
    | none => prev
    | some next =>
      { candles := mergeChartCandles prev.candles [next]
        status := "connected"
        detail := "" }
  | .status status detail =>
    { prev with status := status.getD prev.status, detail := detail.getD "" }
  | .error message =>
    { prev with status := "error", detail := message.getD "chart gateway error" }
  | .other => prev

def onHttpResponse (js : JsText) (prev : ChartState) (candles : List (Option RawCandle)) :
    ChartState where
  candles := mergeChartCandles [] (normalizeAll js candles)
  status := if prev.status = "connected" then "connected" else "loading"
  detail := ""

def backoffMs (reconnectAttempt : Nat) : Nat := min (1000 * 2 ^ (reconnectAttempt - 1)) 8000

def onEvent (js : JsText) (hook : Hook) : Event → Hook
  | .httpResponse none => hook
  | .httpResponse (some candles) => { hook with chart := onHttpResponse js hook.chart candles }
  | .open_ => ⟨{ hook.chart with status := "connected", detail := "" }, 0⟩
  | .message msg => { hook with chart := onMessage js hook.chart msg }
  | .error =>
    let detail := if hook.chart.detail = "" then "chart websocket error" else hook.chart.detail
    { hook with chart := { hook.chart with status := "error", detail := detail } }
  | .close =>
    let reconnectAttempt := hook.reconnectAttempt + 1
    -- the division is exact: `Math.round` has nothing to round
    let seconds := max 1 (backoffMs reconnectAttempt / 1000)
    let detail := "reconnect in " ++ toString seconds ++ "s"
    ⟨{ hook.chart with status := "reconnecting", detail := detail }, reconnectAttempt⟩

/-- The hook after the events of a subscription. -/
def afterEvents (js : JsText) (events : List Event) : Hook := events.foldl (onEvent js) Hook.start

/-- The displayed candles. -/
def displayed (js : JsText) (events : List Event) : List Candle :=
  (afterEvents js events).chart.candles

/-! ## Merging -/

/-- The candle has the open, the close and the volume of `next`. -/
structure Candle.Shows (c next : Candle) : Prop where
  bucketStart : c.bucketStart = next.bucketStart
  open_ : c.open_ = next.open_
  close : c.close = next.close
  volume : c.volume = next.volume

theorem mergeRecord_bucketStart {previous : Option Candle} {next : Candle}
    (h : ∀ prev, previous = some prev → prev.bucketStart = next.bucketStart) :
    ((mergeChartCandleRecord previous next).getD next).bucketStart = next.bucketStart := by
  unfold mergeChartCandleRecord
  split
  · cases previous with
    | none => rfl
    | some prev => exact h prev rfl
  · rfl

theorem mergeRecord_shows (previous : Option Candle) {next : Candle}
    (h : 0 < next.bucketStart) :
    ((mergeChartCandleRecord previous next).getD next).Shows next := by
  unfold mergeChartCandleRecord
  rw [if_neg (by omega)]
  exact ⟨rfl, rfl, rfl, max_eq_right next.volume_nonneg⟩

theorem keyed_foldl {step : CandleMap → Candle → CandleMap}
    (hstep : ∀ map c, KeyedMap.Keyed Candle.bucketStart map →
      KeyedMap.Keyed Candle.bucketStart (step map c)) :
    ∀ (cs : List Candle) {map : CandleMap}, KeyedMap.Keyed Candle.bucketStart map →
      KeyedMap.Keyed Candle.bucketStart (cs.foldl step map)
  | [], _, h => h
  | c :: cs, _, h => keyed_foldl hstep cs (hstep _ c h)

theorem keyed_mergeMap (current incoming : List Candle) :
    KeyedMap.Keyed Candle.bucketStart (mergeMap current incoming) := by
  refine keyed_foldl (fun map c h => ?_) incoming (keyed_foldl (fun map c h => ?_) current
    KeyedMap.keyed_empty)
  · exact h.insert (mergeRecord_bucketStart fun prev hprev => h _ _ hprev)
  · exact h.insert rfl

theorem local_setCandle :
    KeyedFold.Local (fun (map : CandleMap) b => map.lookup b) Candle.bucketStart setCandle :=
  KeyedMap.local_insert Candle.bucketStart fun _ c => c

/-- What is merged into a bucket. -/
theorem lookup_mergeMap (current incoming : List Candle) (b : Int) :
    (mergeMap current incoming).lookup b =
      (incoming.filter (·.bucketStart = b)).foldl
        (fun prev c => some ((mergeChartCandleRecord prev c).getD c))
        ((current.foldl setCandle ∅).lookup b) := by
  refine (KeyedMap.local_insert Candle.bucketStart _).foldl_at (fun map c hc => ?_) incoming _
  subst hc
  exact AList.lookup_insert ..

/-- The last candle of a bucket is shown. -/
theorem lookup_mergeMap_last (current : List Candle) {incoming : List Candle} {b : Int}
    {next : Candle} (hb : 0 < b)
    (h : (incoming.filter (·.bucketStart = b)).getLast? = some next) :
    ∃ c, (mergeMap current incoming).lookup b = some c ∧ c.Shows next := by
  obtain ⟨pre, hpre⟩ := List.getLast?_eq_some_iff.1 h
  have hnext : next.bucketStart = b := by
    have hmem : next ∈ incoming.filter (·.bucketStart = b) := by simp [hpre]
    simpa using (List.mem_filter.1 hmem).2
  rw [lookup_mergeMap, hpre, List.foldl_append]
  exact ⟨_, rfl, mergeRecord_shows _ (by omega)⟩

/-- A bucket that has no incoming candle keeps its own. -/
theorem lookup_mergeMap_other {current incoming : List Candle} {c : Candle}
    (hs : Versioned.Sorted Candle.bucketStart current) (hc : c ∈ current)
    (h : ∀ next ∈ incoming, next.bucketStart ≠ c.bucketStart) :
    (mergeMap current incoming).lookup c.bucketStart = some c := by
  have hnone : incoming.filter (·.bucketStart = c.bucketStart) = [] := by
    simpa [List.filter_eq_nil_iff] using h
  rw [lookup_mergeMap, hnone, List.foldl_nil]
  refine local_setCandle.foldl_listed current ∅ ⟨c, hc, rfl⟩ fun c' hc' hkey map => ?_
  rw [hs.key_unique hc' hc hkey]
  exact AList.lookup_insert ..

theorem bucket_of_lookup {current incoming : List Candle} {b : Int} {c : Candle}
    (h : (mergeMap current incoming).lookup b = some c) :
    (∃ c' ∈ current, c'.bucketStart = b) ∨ ∃ c' ∈ incoming, c'.bucketStart = b := by
  by_contra hnot
  rw [not_or] at hnot
  have hnone : incoming.filter (·.bucketStart = b) = [] := by
    simpa [List.filter_eq_nil_iff] using hnot.2
  rw [lookup_mergeMap, hnone, List.foldl_nil] at h
  have hempty : (current.foldl setCandle ∅).lookup b = (∅ : CandleMap).lookup b :=
    local_setCandle.foldl_other current ∅ fun c' hc' hkey => hnot.1 ⟨c', hc', hkey⟩
  rw [hempty] at h
  simp at h

theorem mergeChartCandles_eq (current incoming : List Candle) :
    mergeChartCandles current incoming =
      (KeyedMap.values Candle.bucketStart (mergeMap current incoming)).drop
        ((KeyedMap.values Candle.bucketStart (mergeMap current incoming)).length - maxSize) := by
  unfold mergeChartCandles
  simp only
  split
  · rfl
  · rw [Nat.sub_eq_zero_of_le (by omega), List.drop_zero]

theorem mergeChartCandles_sorted (current incoming : List Candle) :
    Versioned.Sorted Candle.bucketStart (mergeChartCandles current incoming) := by
  rw [mergeChartCandles_eq]
  exact List.Pairwise.drop (KeyedMap.values_sorted (keyed_mergeMap current incoming))

/-- A merged candle is displayed if its bucket is among the newest. -/
theorem mem_mergeChartCandles {current incoming : List Candle} {keys : List Int} {c : Candle}
    (hcurrent : ∀ c' ∈ current, c'.bucketStart ∈ keys)
    (hincoming : ∀ c' ∈ incoming, c'.bucketStart ∈ keys)
    (hc : (mergeMap current incoming).lookup c.bucketStart = some c)
    (hnew : KeyedMap.Newest maxSize keys c.bucketStart) :
    c ∈ mergeChartCandles current incoming := by
  have hkeyed := keyed_mergeMap current incoming
  rw [mergeChartCandles_eq]
  refine KeyedMap.mem_drop_of_newest (KeyedMap.values_sorted hkeyed) (fun c' hc' => ?_)
    ((KeyedMap.mem_values hkeyed).2 hc) hnew
  obtain ⟨c'', hmem, hkey⟩ | ⟨c'', hmem, hkey⟩ :=
    bucket_of_lookup ((KeyedMap.mem_values hkeyed).1 hc')
  · exact hkey ▸ hcurrent c'' hmem
  · exact hkey ▸ hincoming c'' hmem

theorem bucket_of_mem_mergeChartCandles {current incoming : List Candle} {c : Candle}
    (h : c ∈ mergeChartCandles current incoming) :
    (∃ c' ∈ current, c'.bucketStart = c.bucketStart) ∨
      ∃ c' ∈ incoming, c'.bucketStart = c.bucketStart := by
  rw [mergeChartCandles_eq] at h
  exact bucket_of_lookup
    ((KeyedMap.mem_values (keyed_mergeMap current incoming)).1 (List.mem_of_mem_drop h))

end Client
