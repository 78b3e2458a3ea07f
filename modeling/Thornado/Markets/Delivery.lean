import Mathlib
import Thornado.Lib.Broadcast
import Thornado.Markets.Convergence

/-!
# The clients' connections

`handle_ws_client` (`gateway/markets/src/main.rs`) next to the pollers. A connection subscribes to
the channel, sends a snapshot of the rows, and then what it receives; when it has fallen behind the
channel it says so and sends another snapshot. It also answers its client's own messages.

* `Serves`: what a client shows lies between the messages its connection has received and the last
  snapshot it was sent.
* `clients_converge`: a client whose connection has received everything shows the service's rows,
  whatever the connection lost on the way.
-/

namespace Markets

open Rust Std Transition Broadcast

variable {F : Type}

/-! ## Connections -/

/-- What a connection writes to its socket. The answers to a client's own messages are sent to no
one else. -/
inductive Frame (F : Type) where
  | json (message : ServerMessage F)
  | error (message : String)
  | pong (ts : Nat)
  | control (payload : List UInt8)

inductive ClientMessage where
  | ping (ts : Option Nat)

/-- What a connection reads from its socket. -/
inductive Incoming where
  /-- With what `serde_json` reads of the text. -/
  | text (message : Option ClientMessage)
  | ping (payload : List UInt8)
  | close
  | other
  | failed
  | ended

/-- Where `handle_ws_client` is. -/
inductive Handler (F : Type) where
  /-- Before `service.snapshot()`. -/
  | querying
  /-- After `lagged` a snapshot follows. -/
  | sending (frame : Frame F) (lagged : Bool)
  | reading
  | gone

def Handler.isReading : Handler F → Bool
  | .reading => true
  | _ => false

theorem Handler.eq_reading {handler : Handler F} (h : handler.isReading = true) :
    handler = .reading := by
  cases handler with
  | reading => rfl
  | querying | sending _ _ | gone => cases h

structure Connection (F : Type) where
  /-- Where its receiver is on the channel. -/
  next : Nat
  handler : Handler F := .querying
  /-- What its client was sent. -/
  received : List (Frame F) := []

inductive ConnectionAct where
  | snapshot
  | recv (now : Nat)
  | incoming (message : Incoming) (now : Nat)
  | sent (ok : Bool)

def snapshotMessage (state : ServiceState F) : ServerMessage F :=
  .snapshot state.seq state.sourceTs (marketsOf state.markets)

def laggedMessage (skipped now : Nat) : ServerMessage F :=
  .status "lagged" ("skipped " ++ toString skipped ++ " market updates") now

def forward (now : Nat) : Received (ServerMessage F) → Handler F
  | .message m => .sending (.json m) false
  | .lagged skipped => .sending (.json (laggedMessage skipped now)) true

def onIncoming (now : Nat) : Incoming → Handler F
  | .text (some (.ping ts)) => .sending (.pong (ts.getD now)) false
  | .text none => .sending (.error "unsupported websocket command") false
  | .ping payload => .sending (.control payload) false
  | .close => .gone
  | .other => .reading
  | .failed => .gone
  | .ended => .gone

/-- One step of a connection; the service's channel keeps 2048 messages. -/
def handle (capacity : Nat) (s : Sys F) (c : Connection F) :
    ConnectionAct → Option (Connection F)
  | .snapshot =>
    match c.handler with
    | .querying => some { c with handler := .sending (.json (snapshotMessage s.state)) false }
    | _ => none
  | .recv now =>
    match c.handler with
    | .reading => (recv capacity s.channel c.next).map fun (got, next) =>
        { c with next := next, handler := forward now got }
    | _ => none
  | .incoming message now =>
    match c.handler with
    | .reading => some { c with handler := onIncoming now message }
    | _ => none
  | .sent ok =>
    match c.handler with
    | .sending frame lagged => some <|
        if ok then
          { c with
            handler := if lagged then .querying else .reading
            received := c.received ++ [frame] }
        else { c with handler := .gone }
    | _ => none

/-! ## The service and its connections -/

structure Server (F : Type) where
  sys : Sys F := {}
  connections : List (Connection F) := []

inductive ServerAct (F : Type) where
  | poller (a : Act F)
  | connect
  | connection (i : Nat) (a : ConnectionAct)

section
variable [UnicodeCase] [F64 F]

def serverStep (capacity : Nat) (config : Config F) (s : Server F) :
    ServerAct F → Option (Server F)
  | .poller a => (step config s.sys a).map fun sys => { s with sys := sys }
  | .connect => some { s with connections := s.connections ++ [{ next := s.sys.channel.length }] }
  | .connection i a => (s.connections[i]?).bind fun c =>
      (handle capacity s.sys c a).map fun c => { s with connections := s.connections.set i c }

end

/-- The condition on the pollers' steps (`OldestFirst`); there is none on the connections'. -/
def FeedInOrder (s : Server F) : ServerAct F → Prop
  | .poller a => OldestFirst s.sys a
  | .connect => True
  | .connection _ _ => True

instance (s : Server F) : (a : ServerAct F) → Decidable (FeedInOrder s a)
  | .poller a => inferInstanceAs (Decidable (OldestFirst s.sys a))
  | .connect => isTrue trivial
  | .connection _ _ => isTrue trivial

/-! ## What a client shows -/

def clientFrame (client : Rows F) : Frame F → Rows F
  | .json message => clientApply client message
  | .error _ => client
  | .pong _ => client
  | .control _ => client

/-- The rows its client shows. -/
def Connection.rows (c : Connection F) : Rows F := c.received.foldl clientFrame ∅

theorem Connection.rows_append {c d : Connection F} {frame : Frame F}
    (h : d.received = c.received ++ [frame]) : d.rows = clientFrame c.rows frame := by
  unfold Connection.rows
  rw [h, List.foldl_append, List.foldl_cons, List.foldl_nil]

/-- The rows its client shows once a message that is being sent has arrived; none where a snapshot
is to follow. -/
def Connection.rows? (c : Connection F) : Option (Rows F) :=
  match c.handler with
  | .reading => some c.rows
  | .sending frame false => some (clientFrame c.rows frame)
  | _ => none

/-- The messages about rows among the first `n` on the channel. -/
def Sys.passed (s : Sys F) (n : Nat) : Nat := (s.channel.take n).countP (·.seq?.isSome)

theorem Sys.passed_append {s s' : Sys F} {ms : List (ServerMessage F)}
    (h : s'.channel = s.channel ++ ms) {n : Nat} (hn : n ≤ s.channel.length) :
    s'.passed n = s.passed n := by
  unfold Sys.passed
  rw [h, List.take_append_of_le_length hn]

section
variable {s : Sys F} {n m : Nat} {message : ServerMessage F}

theorem Queue.passed_all (h : Queue s m) : s.passed s.channel.length = m := by
  unfold Sys.passed
  rw [List.take_length, List.countP_eq_length_filter]
  show s.feed.length = m
  rw [h.feed, List.length_take, List.length_map]
  exact Nat.min_eq_left h.sent_le

theorem Queue.passed_le (h : Queue s m) : s.passed n ≤ s.published.length := by
  have hle : (s.channel.take n).countP (·.seq?.isSome) ≤ s.channel.countP (·.seq?.isSome) :=
    (List.take_sublist n _).countP_le
  have hall := h.passed_all
  unfold Sys.passed at hall
  rw [List.take_length] at hall
  exact (hall ▸ hle).trans h.sent_le

/-- In a feed in order the next message about rows is that of the next replacement. -/
theorem Queue.next_published (h : Queue s m) (hget : s.channel[n]? = some message)
    (hseq : message.seq?.isSome) :
    ∃ pub, s.published[s.passed n]? = some pub ∧ pub.message = message := by
  have hfeed : s.feed[s.passed n]? = some message := getElem?_filter_countP hget hseq
  rw [h.feed, List.getElem?_take] at hfeed
  split at hfeed
  · rw [List.getElem?_map] at hfeed
    exact Option.map_eq_some_iff.1 hfeed
  · cases hfeed

/-- When no poller holds a message, all have been sent. -/
theorem Queue.sent_all (h : Queue s m) (hidle : ∀ p seq, ¬ Holds s p seq) :
    m = s.published.length := by
  rcases Nat.lt_or_ge m s.published.length with hlt | hge
  · obtain ⟨p, hp⟩ := h.holder m (Nat.le_refl m) hlt
    exact absurd hp (hidle p (m + 1))
  · exact Nat.le_antisymm h.sent_le hge

end

/-! ## What every step keeps -/

/-- At each symbol the client has the row of the replacement its connection has come to, or that of
a later one. -/
def Shown (s : Sys F) (n : Nat) (rows : Rows F) [BEq F] : Prop :=
  ∃ j, s.passed n ≤ j ∧ j ≤ s.published.length ∧
    Replica.Between Same clientRead (fun i => clientRead (s.rowsAt i)) (s.passed n) j rows

structure Serves (s : Sys F) (c : Connection F) [BEq F] : Prop where
  next_le : c.next ≤ s.channel.length
  shown : ∀ rows ∈ c.rows?, Shown s c.next rows

section
variable [F64 F]

/-- The service's step: the channel and the replacements only grow. -/
structure Grows (s s' : Sys F) : Prop where
  channel : ∃ ms, s'.channel = s.channel ++ ms
  published : s.published.length ≤ s'.published.length
  rowsAt : ∀ i, i ≤ s.published.length → s'.rowsAt i = s.rowsAt i

theorem Serves.grow {s s' : Sys F} {c : Connection F} (h : Serves s c) (hg : Grows s s') :
    Serves s' c := by
  obtain ⟨ms, hms⟩ := hg.channel
  refine ⟨?_, fun rows hrows => ?_⟩
  · rw [hms, List.length_append]
    exact Nat.le_add_right_of_le h.next_le
  · obtain ⟨j, hij, hj, hb⟩ := h.shown rows hrows
    have hpassed := Sys.passed_append hms h.next_le
    refine ⟨j, by rw [hpassed]; exact hij, hj.trans hg.published, ?_⟩
    intro symbol
    show Same _ (clientRead (s'.rowsAt _) symbol) ∨ Same _ (clientRead (s'.rowsAt j) symbol)
    rw [hpassed, hg.rowsAt _ (hij.trans hj), hg.rowsAt j hj]
    exact hb symbol

variable [UnicodeCase]

theorem grows_of_step {config : Config F} {s s' : Sys F} {a : Act F}
    (hs : step config s a = some s') : Grows s s' := by
  have same : ∀ t : Sys F, t.published = s.published → ∀ i, i ≤ s.published.length →
      t.rowsAt i = s.rowsAt i := fun t ht i _ => by
    unfold Sys.rowsAt
    rw [ht]
  cases Step.of_step hs with
  | refreshed hp hseq hm => exact ⟨⟨[], (List.append_nil _).symm⟩, Nat.le_refl _, same _ rfl⟩
  | failed hp => exact ⟨⟨_, rfl⟩, Nat.le_refl _, same _ rfl⟩
  | unchanged hp => exact ⟨⟨[], (List.append_nil _).symm⟩, Nat.le_refl _, same _ rfl⟩
  | replaced hp hrep =>
    refine ⟨⟨[], (List.append_nil _).symm⟩, ?_, fun i hi => Sys.rowsAt_append rfl hi⟩
    rw [Sys.setPhase_published, List.length_append]
    exact Nat.le_add_right ..
  | sent hp => exact ⟨⟨_, rfl⟩, Nat.le_refl _, same _ rfl⟩

end

section
variable [F64 F] [EquivBEq F] {s : Sys F} {c c' : Connection F} {m : Nat}

theorem shown_snapshot (hist : History s) (hq : Queue s m) (n : Nat) (client : Rows F) :
    Shown s n (clientApply client (snapshotMessage s.state)) := by
  refine ⟨s.published.length, hq.passed_le, Nat.le_refl _, fun symbol => .inr ?_⟩
  show Same (upsertRows ∅ (marketsOf s.state.markets))[symbol]? _
  rw [hist.current, upsertRows_marketsOf (hist.keyed _ (Nat.le_refl _))]
  exact Same.equivalence.refl _

/-- The next message of the channel takes the client one on. -/
theorem shown_message (hist : History s) (hq : Queue s m) {n : Nat} {message : ServerMessage F}
    (hget : s.channel[n]? = some message) {rows : Rows F} (h : Shown s n rows) :
    Shown s (n + 1) (clientApply rows message) := by
  obtain ⟨j, hij, hj, hb⟩ := h
  have hcount : s.passed (n + 1) = s.passed n + if message.seq?.isSome then 1 else 0 :=
    countP_take_add_one hget
  cases hseq : message.seq? with
  | none =>
    rw [hseq] at hcount
    have hstatus : clientApply rows message = rows := by
      cases message with
      | snapshot _ _ _ => cases hseq
      | delta _ _ _ _ => cases hseq
      | status _ _ _ => rfl
    unfold Shown
    rw [hstatus, show s.passed (n + 1) = s.passed n from hcount]
    exact ⟨j, hij, hj, hb⟩
  | some seq =>
    rw [hseq] at hcount
    obtain ⟨pub, hpub, rfl⟩ := hq.next_published hget (by rw [hseq]; rfl)
    have hlt := (List.getElem?_eq_some_iff.1 hpub).1
    unfold Shown
    rw [show s.passed (n + 1) = s.passed n + 1 from hcount]
    exact ⟨max j (s.passed n + 1), Nat.le_max_right .., Nat.max_le.2 ⟨hj, hlt⟩,
      Replica.Carries.between Same.equivalence (hist.carries _ pub hpub) hij hb⟩

theorem Serves.handle (h : Serves s c) (hist : History s) (hq : Queue s m) {capacity : Nat}
    {a : ConnectionAct} (hs : Markets.handle capacity s c a = some c') : Serves s c' := by
  obtain ⟨next, handler, received⟩ := c
  cases a with
  | snapshot =>
    cases handler with
    | querying =>
      cases hs
      refine ⟨h.next_le, fun rows hrows => ?_⟩
      cases hrows
      exact shown_snapshot hist hq next (Connection.rows ⟨next, .querying, received⟩)
    | sending _ _ | reading | gone => cases hs
  | recv now =>
    cases handler with
    | reading =>
      obtain ⟨⟨got, next'⟩, hgot, hs⟩ := Option.map_eq_some_iff.1 hs
      cases hs
      obtain ⟨skipped, rfl, hle⟩ | ⟨message, rfl, hget, rfl⟩ := recv_cases hgot
      · exact ⟨hle, fun rows hrows => nomatch hrows⟩
      · refine ⟨(List.getElem?_eq_some_iff.1 hget).1, fun rows hrows => ?_⟩
        cases hrows
        exact shown_message hist hq hget (h.shown _ rfl)
    | querying | sending _ _ | gone => cases hs
  | incoming message now =>
    cases handler with
    | reading =>
      cases hs
      refine ⟨h.next_le, fun rows hrows => ?_⟩
      -- an answer leaves the rows as they are
      suffices rows = Connection.rows ⟨next, .reading, received⟩ from this ▸ h.shown _ rfl
      cases message with
      | text message =>
        cases message with
        | none => exact (Option.some.inj hrows).symm
        | some message => cases message; exact (Option.some.inj hrows).symm
      | ping payload => exact (Option.some.inj hrows).symm
      | other => exact (Option.some.inj hrows).symm
      | close | failed | ended => cases hrows
    | querying | sending _ _ | gone => cases hs
  | sent ok =>
    cases handler with
    | sending frame lagged =>
      cases hs
      cases ok with
      | false => exact ⟨h.next_le, fun rows hrows => nomatch hrows⟩
      | true =>
        refine ⟨h.next_le, fun rows hrows => ?_⟩
        cases lagged with
        | true => cases hrows
        | false =>
          cases hrows
          rw [Connection.rows_append (c := ⟨next, .sending frame false, received⟩) rfl]
          exact h.shown _ rfl
    | querying | reading | gone => cases hs

end

/-! ## Convergence -/

section
variable [F64 F] [EquivBEq F] [UnicodeCase]

/-- What every step of a run whose feed is in order keeps. -/
structure ServerInv (s : Server F) : Prop where
  queue : ∃ m, Queue s.sys m
  history : History s.sys
  serves : ∀ c ∈ s.connections, Serves s.sys c

theorem ServerInv.step {capacity : Nat} {config : Config F} {s s' : Server F} {a : ServerAct F}
    (h : ServerInv s) (hok : FeedInOrder s a) (hs : serverStep capacity config s a = some s') :
    ServerInv s' := by
  cases a with
  | poller a =>
    obtain ⟨sys, hstep, hs⟩ := Option.map_eq_some_iff.1 hs
    cases hs
    exact ⟨Queue.step h.queue hok hstep, h.history.step hstep,
      fun c hc => (h.serves c hc).grow (grows_of_step hstep)⟩
  | connect =>
    cases hs
    refine ⟨h.queue, h.history, fun c hc => ?_⟩
    rcases List.mem_append.1 hc with hc | hc
    · exact h.serves c hc
    · cases List.mem_singleton.1 hc
      exact ⟨Nat.le_refl _, fun rows hrows => nomatch hrows⟩
  | connection i a =>
    obtain ⟨c, hget, hs⟩ := Option.bind_eq_some_iff.1 hs
    obtain ⟨c', hc', hs⟩ := Option.map_eq_some_iff.1 hs
    cases hs
    obtain ⟨m, hq⟩ := h.queue
    refine ⟨h.queue, h.history, fun d hd => ?_⟩
    rcases List.mem_or_eq_of_mem_set hd with hd | rfl
    · exact h.serves d hd
    · exact (h.serves c (List.mem_of_getElem? hget)).handle h.history hq hc'

/-- **The clients converge**: in every run whose feed is in order, whatever a connection has lost
and whenever it takes its snapshots, its client shows at each symbol the row of the replacement the
connection has come to or that of a later one; and the service's row once the connection has
received everything and no poller holds a message. -/
theorem clients_converge {capacity : Nat} {config : Config F} {s : Server F}
    (h : Reach (serverStep capacity config) FeedInOrder (· = {}) s) {c : Connection F}
    (hc : c ∈ s.connections) (hreading : c.handler = .reading) :
    (∀ symbol : String, ∃ i, s.sys.passed c.next ≤ i ∧ i ≤ s.sys.published.length ∧
      Same c.rows[symbol]? (s.sys.rowsAt i)[symbol]?) ∧
    (c.next = s.sys.channel.length → (∀ p seq, ¬ Holds s.sys p seq) →
      ∀ symbol : String, Same c.rows[symbol]? s.sys.state.markets[symbol]?) := by
  have hinv : ServerInv s := by
    refine Reach.inv (P := ServerInv) ?_ (fun _ _ _ => ServerInv.step) h
    rintro s rfl
    exact ⟨⟨0, Queue.start⟩, History.start, fun c hc => nomatch hc⟩
  have hrows : c.rows ∈ c.rows? := by
    unfold Connection.rows?
    rw [hreading]
    rfl
  obtain ⟨j, hij, hj, hb⟩ := (hinv.serves c hc).shown _ hrows
  have hall : ∀ symbol : String, ∃ i, s.sys.passed c.next ≤ i ∧ i ≤ s.sys.published.length ∧
      Same c.rows[symbol]? (s.sys.rowsAt i)[symbol]? := by
    intro symbol
    rcases hb symbol with hs | hs
    · exact ⟨_, Nat.le_refl _, hij.trans hj, hs⟩
    · exact ⟨j, hij, hj, hs⟩
  refine ⟨hall, fun hnext hidle symbol => ?_⟩
  obtain ⟨m, hq⟩ := hinv.queue
  obtain ⟨i, hi, hi', hs⟩ := hall symbol
  rw [hnext, hq.passed_all, hq.sent_all hidle] at hi
  obtain rfl : i = s.sys.published.length := Nat.le_antisymm hi' hi
  rw [hinv.history.current]
  exact hs

end

section
attribute [local instance] asciiCase

/-- Both messages of `twoPollers` are sent before the connection receives one: on a channel of one
message it has lost the first, and sends another snapshot before it receives the second. -/
def fallenBehind : List (ServerAct Rat) :=
  [.connect, .connection 0 .snapshot, .connection 0 (.sent true)] ++
    (twoPollers [.symbols, .tickers]).map .poller ++
    [.connection 0 (.recv 3), .connection 0 (.sent true), .connection 0 .snapshot,
      .connection 0 (.sent true), .connection 0 (.recv 4), .connection 0 (.sent true)]

theorem clients_converge_fallenBehind :
    ∃ s c, run (serverStep 1 twoPollersConfig) FeedInOrder {} fallenBehind = some s ∧
      c ∈ s.connections ∧ c.received.length = 4 ∧
      ∀ symbol : String, Same c.rows[symbol]? s.sys.state.markets[symbol]? := by
  have hrun : (run (serverStep 1 twoPollersConfig) FeedInOrder {} fallenBehind).map (fun s =>
      (s.connections.map fun c => (c.next, c.received.length, c.handler.isReading),
        s.sys.channel.length,
        [Poller.symbols, .tickers, .contracts].map fun p => (s.sys.phase p).seq?)) =
      some ([(2, 4, true)], 2, [none, none, none]) := by decide
  obtain ⟨s, hs, heq⟩ := Option.map_eq_some_iff.1 hrun
  obtain ⟨hclients, heq⟩ := Prod.mk.inj heq
  obtain ⟨hlength, hphases⟩ := Prod.mk.inj heq
  obtain ⟨c, hc, heq⟩ := List.map_eq_singleton_iff.1 hclients
  obtain ⟨hnext, heq⟩ := Prod.mk.inj heq
  obtain ⟨hreceived, hreading⟩ := Prod.mk.inj heq
  have hmem : c ∈ s.connections := hc ▸ List.mem_singleton_self c
  refine ⟨s, c, hs, hmem, hreceived, ?_⟩
  refine (clients_converge (Reach.of_run (.start rfl) hs) hmem (Handler.eq_reading hreading)).2
    (hnext.trans hlength.symm) fun p seq hp => ?_
  rw [holds_iff] at hp
  simp only [List.map_cons, List.map_nil, List.cons.injEq, and_true] at hphases
  obtain ⟨hsymbols, htickers, hcontracts⟩ := hphases
  cases p with
  | symbols => rw [hsymbols] at hp; cases hp
  | tickers => rw [htickers] at hp; cases hp
  | contracts => rw [hcontracts] at hp; cases hp

end

end Markets
