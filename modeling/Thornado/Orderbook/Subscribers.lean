import Mathlib.Data.List.Induction
import Thornado.Lib.Transition
import Thornado.Orderbook.Market

/-!
# Subscribers of a market

`subscribe`, `unsubscribe` and `emit` of a `MarketHandle` next to its worker, as one machine. A
subscriber joins in two steps (its sender is registered, then its first message is made under the
read lock), and a change of the book is announced in three (the state is written, the message gets
its number, then it is sent), so that the calls interleave as they do in the program.

* `Moves`: what a step can do, with the guards it has checked.
* `text_market`, `load_market`: with nothing in between, the worker's steps are those of `Market`.
-/

namespace Orderbook

open Rust Rust.Json Transition

/-- What a client is sent. The version of a book is the number of changes of the state before it;
no step reads it. -/
inductive Delivery (F : Type) where
  | book (message : ServerMessage F) (version : Nat)
  | status (symbol : String) (productId : UInt32) (status detail : String)

structure Subscriber (F : Type) where
  id : Nat
  /-- The version of the state when its sender was registered; no step reads it. -/
  joined : Nat
  /-- The message `handle_ws_client` sends first, once it is made. -/
  snapshot : Option (Delivery F) := none
  /-- What was sent on its channel. -/
  queue : List (Delivery F) := []
  /-- The receiver was dropped. -/
  closed : Bool := false

/-- Where the worker is between a change of the state and its announcement. -/
inductive Phase (F : Type) where
  | idle
  | reset (sourceTs : Nat)
  | applied (sourceTs minTs maxTs : Nat) (depth : DepthView F)
  | numbered (message : ServerMessage F)

structure Hub (F : Type) where
  market : Market F
  /-- The session has its snapshot and has not failed. -/
  live : Bool := false
  phase : Phase F := .idle
  nextSubscriberId : Nat := 1
  subscribers : List (Subscriber F) := []
  /-- The states before the current one; no step reads them. -/
  past : List OrderBookState := []

inductive HubAct where
  | emitStatus (status detail : String)
  /-- A session gets its snapshot. -/
  | load (snapshot : MarketLiquidity)
  | text (message : String)
  /-- The message of the change takes its number. -/
  | number
  | emit
  /-- The session ends between two messages. -/
  | fail
  | register
  /-- The first message of a registered subscriber. -/
  | takeSnapshot (id : Nat)
  | unsubscribe (id : Nat)
  /-- The client's connection drops its receiver. -/
  | close (id : Nat)

variable {F : Type}

def OrderBookState.isEmpty (state : OrderBookState) : Bool :=
  state.bids.isEmpty && state.asks.isEmpty

def ServerMessage.seq : ServerMessage F → Nat
  | .snapshot _ _ seq _ _ => seq
  | .update _ _ seq _ _ _ _ => seq

def ServerMessage.depth : ServerMessage F → DepthView F
  | .snapshot _ _ _ _ depth => depth
  | .update _ _ _ _ _ _ depth => depth

/-! ## The client -/

/-- The messages in the order the client gets them. -/
def Subscriber.received (c : Subscriber F) : List (Delivery F) := c.snapshot.toList ++ c.queue

/-- The terminal replaces its book by that of the message. -/
def clientApply (shown : Option (DepthView F)) : Delivery F → Option (DepthView F)
  | .book message _ => some message.depth
  | .status .. => shown

/-- Before its first message is made, a client has what waits in its queue. -/
theorem received_waiting {c : Subscriber F} (hnone : c.snapshot = none) : c.received = c.queue := by
  unfold Subscriber.received
  rw [hnone]
  rfl

theorem received_first {c : Subscriber F} (hnone : c.snapshot = none) (first : Delivery F) :
    ({ c with snapshot := some first } : Subscriber F).received = first :: c.received := by
  rw [received_waiting hnone]
  rfl

theorem received_append (c : Subscriber F) (message : Delivery F) :
    ({ c with queue := c.queue ++ [message] } : Subscriber F).received = c.received ++ [message] :=
  (List.append_assoc ..).symm

/-- The book after these messages. -/
def clientBook (messages : List (Delivery F)) : Option (DepthView F) :=
  messages.foldl clientApply none

theorem clientBook_append (messages later : List (Delivery F)) :
    clientBook (messages ++ later) = (clientBook later).or (clientBook messages) := by
  unfold clientBook
  rw [List.foldl_append]
  induction later using List.reverseRecOn with
  | nil => rfl
  | append_singleton later last ih =>
    rw [List.foldl_append, List.foldl_append, ih]
    cases last with
    | book message version => rfl
    | status => rfl

/-! ## The machine -/

/-- `emit`: closed receivers are removed. -/
def Hub.emit (h : Hub F) (message : Delivery F) : Hub F :=
  { h with
    subscribers := (h.subscribers.filter fun c => !c.closed).map fun c =>
      { c with queue := c.queue ++ [message] } }

/-- The first message of a subscriber that has none yet. -/
def Hub.give (h : Hub F) (id : Nat) (message : Delivery F) : Hub F :=
  { h with
    subscribers := h.subscribers.map fun c =>
      if c.id = id ∧ c.snapshot.isNone then { c with snapshot := some message } else c }

/-- The state is replaced under the write lock. -/
def Hub.write (h : Hub F) (state : OrderBookState) (phase : Phase F) : Hub F :=
  { h with
    market := { h.market with state := state }
    phase := phase
    past := h.past ++ [h.market.state] }

section
variable [F64 F]

def Hub.depthView (h : Hub F) : DepthView F := h.market.state.depthView h.market.depth

/-- `snapshot_message`, with the number it would get. -/
def Hub.snapshotMessage (h : Hub F) : Option (ServerMessage F) :=
  if h.market.state.isEmpty then none
  else some (.snapshot h.market.symbol h.market.productId h.market.seq h.market.state.lastTs
    h.depthView)

/-- The message of a change that has no number yet, with the one it would get; that of a reset
reads the state again (`emit_snapshot`). -/
def Hub.due (h : Hub F) : Option (ServerMessage F) :=
  match h.phase with
  | .reset sourceTs =>
    some (.snapshot h.market.symbol h.market.productId h.market.seq sourceTs h.depthView)
  | .applied sourceTs minTs maxTs depth =>
    some (.update h.market.symbol h.market.productId h.market.seq sourceTs minTs maxTs depth)
  | _ => none

variable [UnicodeCase] (json : SerdeJson F)

/-- A step; the worker reads a text, or starts a session, when nothing is left to announce. -/
def hubStep (h : Hub F) : HubAct → Option (Hub F)
  | .emitStatus status detail =>
    match h.live, h.phase with
    | false, .idle => some (h.emit (.status h.market.symbol h.market.productId status detail))
    | _, _ => none
  | .load snapshot =>
    match h.live, h.phase with
    | false, .idle =>
      let state := OrderBookState.resetFromSnapshot snapshot.bids snapshot.asks snapshot.timestamp
      some { h.write state (.reset snapshot.timestamp) with live := true }
    | _, _ => none
  | .text message =>
    match h.live, h.phase with
    | true, .idle =>
      match readDelta json h.market.productId message with
      | .error _ => some { h with live := false }
      | .ok none => some h
      | .ok (some delta) =>
        match h.market.state.applyDelta delta with
        | (.applied, state) =>
          some (h.write state (.applied state.lastTs delta.minTimestamp delta.maxTimestamp
            (state.depthView h.market.depth)))
        | (.stale, state) => some { h with market := { h.market with state := state } }
        | (.gap .., state) =>
          some { h with market := { h.market with state := state }, live := false }
    | _, _ => none
  | .number =>
    h.due.map fun message =>
      { h with market := { h.market with seq := nextSeq h.market.seq }, phase := .numbered message }
  | .emit =>
    match h.phase with
    | .numbered message =>
      some { h.emit (.book message h.past.length) with
        market := { h.market with emitted := h.market.emitted ++ [message] }
        phase := .idle }
    | _ => none
  | .fail =>
    match h.live, h.phase with
    | true, .idle => some { h with live := false }
    | _, _ => none
  | .register =>
    some { h with
      nextSubscriberId := (h.nextSubscriberId + 1) % 2 ^ 64
      subscribers := (h.subscribers.filter fun c => c.id ≠ h.nextSubscriberId) ++
        [{ id := h.nextSubscriberId, joined := h.past.length }] }
  | .takeSnapshot id =>
    match h.snapshotMessage with
    | none => some (h.give id (.status h.market.symbol h.market.productId "warming_up"
        "waiting for first snapshot"))
    | some message =>
      some { h.give id (.book message h.past.length) with
        market := { h.market with seq := nextSeq h.market.seq } }
  | .unsubscribe id => some { h with subscribers := h.subscribers.filter fun c => c.id ≠ id }
  | .close id =>
    some { h with
      subscribers := h.subscribers.map fun c => if c.id = id then { c with closed := true } else c }

end

/-- A new handle. -/
def HubStart (h : Hub F) : Prop :=
  ∃ symbol productId depth,
    h = { market := { symbol := symbol, productId := productId, depth := depth } }

theorem snapshotMessage_eq_none [F64 F] {h : Hub F} :
    h.snapshotMessage = none ↔ h.market.state.isEmpty = true := by
  unfold Hub.snapshotMessage
  split
  · rename_i hempty
    exact iff_of_true rfl hempty
  · rename_i hfull
    exact iff_of_false (fun hnone => nomatch hnone) hfull

theorem snapshotMessage_eq_some [F64 F] {h : Hub F} {message : ServerMessage F} :
    h.snapshotMessage = some message ↔ h.market.state.isEmpty = false ∧
      message = .snapshot h.market.symbol h.market.productId h.market.seq h.market.state.lastTs
        h.depthView := by
  unfold Hub.snapshotMessage
  split
  · rename_i hempty
    simp [hempty]
  · rename_i hfull
    simp [hfull, eq_comm]

/-! ## What a step can do -/

section
variable [F64 F]

/-- What the steps make of a hub. -/
inductive Moves (h : Hub F) : HubAct → Hub F → Prop
  /-- The session goes on, or ends. -/
  | rest {a : HubAct} (live : Bool) : Moves h a { h with live := live }
  | reset {a : HubAct} (state : OrderBookState) (sourceTs : Nat) (live : Bool) :
      h.phase = .idle → Moves h a { h.write state (.reset sourceTs) with live := live }
  | apply {a : HubAct} (state : OrderBookState) (sourceTs minTs maxTs : Nat) :
      h.phase = .idle →
      Moves h a (h.write state (.applied sourceTs minTs maxTs (state.depthView h.market.depth)))
  | number (message : ServerMessage F) : h.due = some message →
      Moves h .number
        { h with
          market := { h.market with seq := nextSeq h.market.seq }
          phase := .numbered message }
  | emit (message : ServerMessage F) : h.phase = .numbered message →
      Moves h .emit
        { h.emit (.book message h.past.length) with
          market := { h.market with emitted := h.market.emitted ++ [message] }
          phase := .idle }
  | status {a : HubAct} (symbol : String) (productId : UInt32) (status detail : String) :
      h.phase = .idle → Moves h a (h.emit (.status symbol productId status detail))
  | register (next : Nat) :
      Moves h .register
        { h with
          nextSubscriberId := next
          subscribers := (h.subscribers.filter fun c => c.id ≠ h.nextSubscriberId) ++
            [{ id := h.nextSubscriberId, joined := h.past.length }] }
  | warmUp (id : Nat) (symbol : String) (productId : UInt32) (status detail : String) :
      h.market.state.isEmpty = true →
      Moves h (.takeSnapshot id) (h.give id (.status symbol productId status detail))
  | snapshot (id : Nat) (message : ServerMessage F) : h.market.state.isEmpty = false →
      h.snapshotMessage = some message →
      Moves h (.takeSnapshot id)
        { h.give id (.book message h.past.length) with
          market := { h.market with seq := nextSeq h.market.seq } }
  | leave {a : HubAct} (subscribers : List (Subscriber F)) :
      (∀ c ∈ subscribers, c.closed = false → c ∈ h.subscribers) →
      Moves h a { h with subscribers := subscribers }

variable [UnicodeCase]

section
variable {json : SerdeJson F} {h h' : Hub F}

theorem emitStatus_moves {status detail : String}
    (hstep : hubStep json h (.emitStatus status detail) = some h') :
    Moves h (.emitStatus status detail) h' := by
  simp only [hubStep] at hstep
  split at hstep
  · rename_i hidle
    cases hstep
    exact .status _ _ _ _ hidle
  · cases hstep

theorem load_moves {snapshot : MarketLiquidity}
    (hstep : hubStep json h (.load snapshot) = some h') :
    Moves h (.load snapshot) h' := by
  simp only [hubStep] at hstep
  split at hstep
  · rename_i hidle
    cases hstep
    exact .reset _ _ true hidle
  · cases hstep

/-- A text applies the delta it holds, leaves the book as it was, or ends the session. -/
theorem text_moves {message : String} (hstep : hubStep json h (.text message) = some h') :
    Moves h (.text message) h' := by
  simp only [hubStep] at hstep
  split at hstep
  · rename_i hidle
    split at hstep
    · cases hstep
      exact .rest false
    · cases hstep
      exact .rest h.live
    · rename_i delta hread
      obtain ⟨hres, -⟩ | ⟨hres, -⟩ | ⟨happ, -⟩ := applyDelta_cases h.market.state delta
      · rw [hres] at hstep
        cases hstep
        exact .rest h.live
      · rw [hres] at hstep
        cases hstep
        exact .rest false
      · cases hres : h.market.state.applyDelta delta with
        | mk outcome state =>
          rw [hres] at hstep happ
          cases happ
          cases hstep
          exact .apply state _ _ _ hidle
  · cases hstep

theorem emit_moves (hstep : hubStep json h .emit = some h') : Moves h .emit h' := by
  simp only [hubStep] at hstep
  split at hstep
  · rename_i message hnumbered
    cases hstep
    exact .emit message hnumbered
  · cases hstep

theorem fail_moves (hstep : hubStep json h .fail = some h') : Moves h .fail h' := by
  simp only [hubStep] at hstep
  split at hstep
  · cases hstep
    exact .rest false
  · cases hstep

/-- A subscriber is given the book's snapshot, or told that there is none yet. -/
theorem takeSnapshot_moves {id : Nat} (hstep : hubStep json h (.takeSnapshot id) = some h') :
    Moves h (.takeSnapshot id) h' := by
  simp only [hubStep] at hstep
  cases hmessage : h.snapshotMessage with
  | none =>
    rw [hmessage] at hstep
    cases hstep
    exact .warmUp id _ _ _ _ (snapshotMessage_eq_none.1 hmessage)
  | some message =>
    rw [hmessage] at hstep
    cases hstep
    exact .snapshot id message (snapshotMessage_eq_some.1 hmessage).1 hmessage

/-- Closing a subscriber leaves the open ones as they were. -/
theorem close_moves {id : Nat} (hstep : hubStep json h (.close id) = some h') :
    Moves h (.close id) h' := by
  cases hstep
  refine .leave _ fun c' hc' hopen => ?_
  obtain ⟨c, hc, rfl⟩ := List.mem_map.1 hc'
  split at hopen
  · cases hopen
  · rename_i hother
    rw [if_neg hother]
    exact hc

/-- Every step is such a move. -/
theorem hubStep_moves {a : HubAct} (hstep : hubStep json h a = some h') : Moves h a h' := by
  cases a with
  | emitStatus status detail => exact emitStatus_moves hstep
  | load snapshot => exact load_moves hstep
  | text message => exact text_moves hstep
  | number =>
    simp only [hubStep] at hstep
    obtain ⟨message, hdue, rfl⟩ := Option.map_eq_some_iff.1 hstep
    exact .number message hdue
  | emit => exact emit_moves hstep
  | fail => exact fail_moves hstep
  | register =>
    cases hstep
    exact .register _
  | takeSnapshot id => exact takeSnapshot_moves hstep
  | unsubscribe id =>
    cases hstep
    exact .leave _ fun c hc _ => (List.mem_filter.1 hc).1
  | close id => exact close_moves hstep

end

end

/-! ## The worker alone -/

section
variable [F64 F] [UnicodeCase] {json : SerdeJson F} {h : Hub F}

/-- A session that starts with nothing in between loads its snapshot as `loadSnapshot` does. -/
theorem load_market (hlive : h.live = false) (hidle : h.phase = .idle)
    (snapshot : MarketLiquidity) :
    ∃ h', run (hubStep json) anyStep h [.load snapshot, .number, .emit] = some h' ∧
      h'.phase = .idle ∧ h'.live = true ∧ h'.market = loadSnapshot h.market snapshot := by
  simp only [run, hubStep, hlive, hidle, if_true, Option.bind_some]
  exact ⟨_, rfl, rfl, rfl, rfl⟩

/-- A text with nothing in between is handled as by `handleUpstreamJsonText`, and announced if its
delta was applied; an error ends the session. -/
theorem text_market (hlive : h.live = true) (hidle : h.phase = .idle) (message : String) :
    ∃ h', h'.phase = .idle ∧ h'.market = (handleUpstreamJsonText json h.market message).2 ∧
      h'.live = (handleUpstreamJsonText json h.market message).1.isOk ∧
      (run (hubStep json) anyStep h [.text message] = some h' ∨
        run (hubStep json) anyStep h [.text message, .number, .emit] = some h') := by
  obtain ⟨market, live, phase, next, subscribers, past⟩ := h
  cases hlive
  cases hidle
  simp only [run, hubStep, handleUpstreamJsonText, if_true]
  cases readDelta json market.productId message with
  | error err => exact ⟨_, rfl, rfl, rfl, .inl rfl⟩
  | ok delta? =>
    cases delta? with
    | none => exact ⟨_, rfl, rfl, rfl, .inl rfl⟩
    | some delta =>
      simp only [handleDelta]
      cases market.state.applyDelta delta with
      | mk outcome state =>
        cases outcome with
        | applied => exact ⟨_, rfl, rfl, rfl, .inr rfl⟩
        | stale => exact ⟨_, rfl, rfl, rfl, .inl rfl⟩
        | gap => exact ⟨_, rfl, rfl, rfl, .inl rfl⟩

end

/-! ## Who gets a message -/

section
variable {h : Hub F} {message : Delivery F} {c' : Subscriber F}

theorem mem_emit (hc : c' ∈ (h.emit message).subscribers) :
    ∃ c ∈ h.subscribers, c.closed = false ∧ c' = { c with queue := c.queue ++ [message] } := by
  unfold Hub.emit at hc
  obtain ⟨c, hsent, rfl⟩ := List.mem_map.1 hc
  obtain ⟨hmem, hopen⟩ := List.mem_filter.1 hsent
  exact ⟨c, hmem, by simpa using hopen, rfl⟩

theorem mem_give {id : Nat} (hc : c' ∈ (h.give id message).subscribers) :
    c' ∈ h.subscribers ∨ ∃ c ∈ h.subscribers, c.id = id ∧ c.snapshot = none ∧
      c' = { c with snapshot := some message } := by
  unfold Hub.give at hc
  obtain ⟨c, hmem, rfl⟩ := List.mem_map.1 hc
  split
  · rename_i hnone
    exact .inr ⟨c, hmem, hnone.1, Option.isNone_iff_eq_none.1 hnone.2, rfl⟩
  · exact .inl hmem

theorem mem_give_of {c : Subscriber F} {id : Nat} (hc : c ∈ h.subscribers) (hid : c.id = id)
    (hnone : c.snapshot.isNone) :
    { c with snapshot := some message } ∈ (h.give id message).subscribers := by
  unfold Hub.give
  refine List.mem_map.2 ⟨c, hc, ?_⟩
  rw [if_pos ⟨hid, hnone⟩]

end

end Orderbook
