import Thornado.Chart.SeriesRun

/-!
# Subscribers of a series

`subscribe`, `unsubscribe` and `emit` of a `SeriesHandle` next to its worker, as one machine. A
subscriber joins in two steps (its sender is registered, then the snapshot is taken under the read
lock) and an accepted row is announced in two (it gets a number, then it is sent), so that the
calls interleave as they do in the program.

The client side is what a chart does with the messages: start from the snapshot, then replace or
insert the candle of every update (`clientView`).
-/

namespace Chart

open Rust Rust.Json Transition

/-- The messages of a series (`ServerMessage`; errors and pongs answer a single client). -/
inductive ServerMessage (F : Type) where
  | snapshot (symbol : String) (productId granularity : UInt32) (seq : Nat)
      (candles : List (CandleView F))
  | update (symbol : String) (productId granularity : UInt32) (seq : Nat) (candle : CandleView F)
  | status (symbol : String) (productId granularity : UInt32) (status detail : String)

structure Subscriber (F : Type) where
  id : Nat
  /-- The snapshot message, once it is taken. -/
  snapshot : Option (ServerMessage F) := none
  /-- What was sent on its channel. -/
  queue : List (ServerMessage F) := []
  /-- The receiver was dropped. -/
  closed : Bool := false

/-- Where the worker is between a row of the stream and its announcement. -/
inductive Phase where
  | idle
  | applied (row : CandleRow)
  | numbered (row : CandleRow) (seq : Nat)
  deriving DecidableEq

structure Hub (F : Type) where
  sys : SeriesSys
  phase : Phase := .idle
  seq : Nat := 1
  nextSubscriberId : Nat := 1
  subscribers : List (Subscriber F) := []

inductive HubAct where
  | bootstrap (response : Except String (List Candlestick)) (commit : Except String Unit)
  | text (message : String) (nowMillis : Nat) (commit : Except String Unit)
  /-- The update of the accepted row takes its number. -/
  | number
  | emitUpdate
  | emitStatus (status detail : String)
  | backfill (response : Except String (List Candlestick)) (commit : Except String Unit)
  | others (rows : List CandleRow)
  | register
  /-- The snapshot of a registered subscriber, with the limit of its query. -/
  | takeSnapshot (id : Nat) (limit : Option Nat)
  | unsubscribe (id : Nat)
  /-- The client's connection drops its receiver. -/
  | close (id : Nat)

variable {F : Type}

/-! ## The client -/

/-- What a message makes of the candles a client shows. -/
def clientApply (view : Nat → Option (CandleView F)) :
    ServerMessage F → Nat → Option (CandleView F)
  | .snapshot _ _ _ _ candles =>
    candles.foldl (fun view candle => Function.update view candle.bucketStart (some candle))
      fun _ => none
  | .update _ _ _ _ candle => Function.update view candle.bucketStart (some candle)
  | .status .. => view

/-- The candles after these messages. -/
def clientView (messages : List (ServerMessage F)) : Nat → Option (CandleView F) :=
  messages.foldl clientApply fun _ => none

/-- The oldest bucket of the window a snapshot message serves; a client that is told to wait for
the first candles is served all of them. -/
def ServerMessage.windowStart : ServerMessage F → Nat
  | .snapshot _ _ _ _ (candle :: _) => candle.bucketStart
  | _ => 0

/-! ## The machine -/

section
variable (json : SerdeJson F) (series : Series)

/-- The limit `ws_candles` passes on. -/
def Series.snapshotLimit (limit : Option Nat) : Nat :=
  max 1 (min (limit.getD 300) (max series.historyLimit 1))

def Hub.nextSeq (h : Hub F) : Nat := (h.seq + 1) % 2 ^ 64

/-- `emit`: closed receivers are removed. -/
def Hub.emit (h : Hub F) (message : ServerMessage F) : Hub F :=
  { h with
    subscribers := (h.subscribers.filter fun c => !c.closed).map fun c =>
      { c with queue := c.queue ++ [message] } }

variable [F64 F]

def Series.update (row : CandleRow) (seq : Nat) : ServerMessage F :=
  .update series.symbol series.productId series.granularity seq (candleToView row)

/-- The snapshot half of `subscribe`: the message and the counter after it. -/
def Series.snapshotMessage (h : Hub F) (limit : Nat) : ServerMessage F × Nat :=
  match snapshotViews h.sys.cache limit with
  | [] => (.status series.symbol series.productId series.granularity "warming_up"
      "waiting for first candle updates", h.seq)
  | candle :: candles => (.snapshot series.symbol series.productId series.granularity h.seq
      (candle :: candles), h.nextSeq)

/-- A step; the worker handles a text, or runs its backfill, when nothing is left to announce. -/
def hubStep (h : Hub F) : HubAct → Option (Hub F)
  | .bootstrap response commit =>
    if h.sys.ready then none
    else match h.phase with
    | .idle =>
      (seriesStep json series h.sys (.bootstrap response commit)).map fun sys =>
        { h with sys := sys }
    | _ => none
  | .text message nowMillis commit =>
    if h.sys.ready then
      match h.phase with
      | .idle =>
        match series.handleText h.sys json message nowMillis commit with
        | .ok (sys, none) => some { h with sys := sys }
        | .ok (sys, some row) => some { h with sys := sys, phase := .applied row }
        | .error _ => some h
      | _ => none
    else none
  | .number =>
    match h.phase with
    | .applied row => some { h with phase := .numbered row h.seq, seq := h.nextSeq }
    | _ => none
  | .emitUpdate =>
    match h.phase with
    | .numbered row seq => some { h.emit (series.update row seq) with phase := .idle }
    | _ => none
  | .emitStatus status detail =>
    match h.phase with
    | .idle =>
      some (h.emit (.status series.symbol series.productId series.granularity status detail))
    | _ => none
  | .backfill response commit =>
    match h.phase with
    | .idle =>
      (seriesStep json series h.sys (.backfill response commit)).map fun sys =>
        { h with sys := sys }
    | _ => none
  | .others rows =>
    (seriesStep json series h.sys (.others rows)).map fun sys => { h with sys := sys }
  | .register =>
    some { h with
      nextSubscriberId := (h.nextSubscriberId + 1) % 2 ^ 64
      subscribers := (h.subscribers.filter fun c => c.id ≠ h.nextSubscriberId) ++
        [{ id := h.nextSubscriberId }] }
  | .takeSnapshot id limit =>
    let message := series.snapshotMessage h (series.snapshotLimit limit)
    some { h with
      seq := message.2
      subscribers := h.subscribers.map fun c =>
        if c.id = id ∧ c.snapshot.isNone then { c with snapshot := some message.1 } else c }
  | .unsubscribe id => some { h with subscribers := h.subscribers.filter fun c => c.id ≠ id }
  | .close id =>
    some { h with
      subscribers := h.subscribers.map fun c => if c.id = id then { c with closed := true } else c }

end

/-! ## What the program is to keep -/

/-- The server's cached candle of a bucket start. -/
def cachedView [F64 F] (cache : List CandleRow) (bucketStart : Nat) : Option (CandleView F) :=
  (cache.find? fun row => (max row.bucketStartSec 0).toNat = bucketStart).map candleToView

/-- The bucket is not older than the cache. -/
def Reaches (cache : List CandleRow) (bucketStart : Nat) : Prop :=
  ∀ first ∈ cache.head?, first.bucketStartSec ≤ bucketStart

/-- Once every update is sent, an open subscriber that consumed its messages shows the cached
candles: on every bucket of its window, as far back as the cache goes. -/
def Converged [F64 F] (h : Hub F) : Prop :=
  h.phase = .idle → ∀ c ∈ h.subscribers, c.closed = false → ∀ message ∈ c.snapshot,
    ∀ bucketStart, message.windowStart ≤ bucketStart → Reaches h.sys.cache bucketStart →
      clientView (message :: c.queue) bucketStart = cachedView h.sys.cache bucketStart

end Chart
