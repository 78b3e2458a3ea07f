import Mathlib
import Thornado.Lib.Concat
import Thornado.Lib.Transition
import Thornado.Portfolio.Session

/-!
# The portfolio stream

`handle_ws_client` and `send_update` (`gateway/portfolio/src/main.rs`). A connection sends a first
snapshot of its owner's portfolio, or an error and no more; then an update with each poll and with
an upstream event, unless one came a moment ago. What the upstream services answer to a fetch is an
input of the step that ends it.

* `Streamed`: what a connection has sent, and what it is about to send. `Timed`: the times in it.
* `stream_sound`: the one holds of every connection in every run, the other in the runs in which
  the system clock does not go back; and the count of the active clients is that of the connections
  that have not returned.
-/

namespace Portfolio

open Rust Transition

open Execution (H160 hexAddress hexSubaccount)

variable {B : Type}

/-! ## Messages -/

/-- The payload, as far as it tells whose it is. -/
structure PortfolioPayload (B : Type) where
  ownerAddress : String
  subaccountName : String
  subaccount : String
  body : B
  deriving DecidableEq

inductive ServerMessage (B : Type) where
  | snapshot (seq asOfMs : Nat) (cause : String) (portfolio : PortfolioPayload B)
  | update (seq asOfMs : Nat) (cause : String) (portfolio : PortfolioPayload B)
  | status (status detail : String) (asOfMs : Nat)
  | error (message : String)
  | pong (ts : Nat)

/-- What a connection writes to its socket. -/
inductive Frame (B : Type) where
  | json (message : ServerMessage B)
  | control (payload : List UInt8)

inductive ClientMessage where
  | ping (ts : Option Nat)

/-- What a connection reads from its socket. -/
inductive Incoming where
  /-- With what `serde_json` reads of the text. -/
  | text (message : Option ClientMessage)
  | ping (payload : List UInt8)
  | close
  | other
  | failed
  | ended

inductive UpstreamSignal where
  | event
  | disconnected (detail : String)

def formatError : ApiError → String
  | .badRequest message => message
  | .unauthorized message => message
  | .upstream message => message
  | .internal message => message

/-- `fetch_portfolio_payload`, with what it makes of the upstream services' answers. -/
def fetchPortfolioPayload (owner : H160) (subaccountName : String)
    (answers : Except ApiError B) : Except ApiError (PortfolioPayload B) :=
  answers.map fun body =>
    ⟨hexAddress owner, subaccountName, hexSubaccount (Execution.subaccount owner subaccountName),
      body⟩

/-! ## A connection -/

/-- What follows a send that does not fail. -/
inductive Next where
  /-- The first snapshot: the loop is entered. -/
  | enter
  | loop
  | leave

inductive Handler (B : Type) where
  /-- In the first fetch. -/
  | opening
  | sending (frame : Frame B) (next : Next)
  /-- In `select!`. -/
  | waiting
  /-- In the fetch of `send_update`. -/
  | refreshing (cause : String)
  | gone

structure Connection (B : Type) where
  owner : H160
  subaccountName : String
  handler : Handler B := .opening
  seq : Nat := 1
  lastEventRefresh : Int := 0
  /-- What was sent. -/
  received : List (Frame B) := []
  /-- When events caused a refresh; no step reads it. -/
  refreshes : List Int := []

inductive ConnectionAct (B : Type) where
  /-- A fetch ends. -/
  | fetched (answers : Except ApiError B)
  | sent (ok : Bool)
  | poll
  | upstream (signal : Option UpstreamSignal)
  | incoming (message : Incoming)

/-- The first message. -/
def greeting (seq asOfMs : Nat) : Except ApiError (PortfolioPayload B) → Handler B
  | .ok portfolio => .sending (.json (.snapshot seq asOfMs "initial" portfolio)) .enter
  | .error err => .sending (.json (.error (formatError err))) .leave

def sendUpdate (seq asOfMs : Nat) (cause : String) :
    Except ApiError (PortfolioPayload B) → Handler B
  | .ok portfolio => .sending (.json (.update seq asOfMs cause portfolio)) .loop
  | .error err => .sending (.json (.status "refresh_failed" (formatError err) asOfMs)) .loop

def degraded (asOfMs : Nat) : Option String → ServerMessage B
  | some detail => .status "degraded"
      ("upstream subscription disconnected (" ++ detail ++ "); polling fallback active") asOfMs
  | none => .status "degraded" "upstream subscription disconnected; polling fallback active" asOfMs

def onIncoming (now : Nat) : Incoming → Handler B
  | .text (some (.ping ts)) => .sending (.json (.pong (ts.getD now))) .loop
  | .text none => .sending (.json (.error "unsupported websocket command")) .loop
  | .ping payload => .sending (.control payload) .loop
  | .close => .gone
  | .other => .waiting
  | .failed => .gone
  | .ended => .gone

def onUpstream (debounceMs : Nat) (wall : Nat) (uptime : Int) (c : Connection B) :
    Option UpstreamSignal → Connection B
  | some .event =>
    if uptime - c.lastEventRefresh < debounceMs then c
    else
      { c with
        lastEventRefresh := uptime
        seq := saturatingAdd c.seq 1
        handler := .refreshing "event"
        refreshes := c.refreshes ++ [uptime] }
  | some (.disconnected detail) =>
    { c with handler := .sending (.json (degraded wall (some detail))) .loop }
  -- the channel put in its place has no sender either
  | none => { c with handler := .sending (.json (degraded wall none)) .loop }

def onSent (debounceMs : Nat) (uptime : Int) (c : Connection B) (frame : Frame B) :
    Next → Connection B
  | .enter =>
    { c with
      handler := .waiting
      received := c.received ++ [frame]
      lastEventRefresh := uptime - debounceMs }
  | .loop => { c with handler := .waiting, received := c.received ++ [frame] }
  | .leave => { c with handler := .gone, received := c.received ++ [frame] }

/-- One step of a connection at a time (`SystemTime`) and an instant (`Instant`). -/
def handle (debounceMs : Nat) (wall : Nat) (uptime : Int) (c : Connection B) :
    ConnectionAct B → Option (Connection B)
  | .fetched answers =>
    match c.handler with
    | .opening => some { c with
        handler := greeting c.seq wall
          (fetchPortfolioPayload c.owner c.subaccountName answers) }
    | .refreshing cause => some { c with
        handler := sendUpdate c.seq wall cause
          (fetchPortfolioPayload c.owner c.subaccountName answers) }
    | _ => none
  | .sent ok =>
    match c.handler with
    | .sending frame next =>
      some (if ok then onSent debounceMs uptime c frame next else { c with handler := .gone })
    | _ => none
  | .poll =>
    match c.handler with
    | .waiting => some { c with handler := .refreshing "poll", seq := saturatingAdd c.seq 1 }
    | _ => none
  | .upstream signal =>
    match c.handler with
    | .waiting => some (onUpstream debounceMs wall uptime c signal)
    | _ => none
  | .incoming message =>
    match c.handler with
    | .waiting => some { c with handler := onIncoming wall message }
    | _ => none

/-! ## The gateway -/

structure Gateway (B : Type) where
  wall : Nat
  uptime : Int
  activeWsClients : UInt64 := 0
  connections : List (Connection B) := []

inductive GatewayAct (B : Type) where
  /-- Time passes; the system clock shows what it is set to, which may be an earlier time. -/
  | elapse (wall uptime : Nat)
  | connect (owner : H160) (subaccountName : String)
  | connection (i : Nat) (a : ConnectionAct B)

def Handler.isGone : Handler B → Bool
  | .gone => true
  | _ => false

/-- Every way out of `handle_ws_client` takes the client off the count. -/
def Gateway.setConnection (s : Gateway B) (i : Nat) (c : Connection B) : Gateway B :=
  { s with
    activeWsClients := if c.handler.isGone then s.activeWsClients - 1 else s.activeWsClients
    connections := s.connections.set i c }

def gatewayStep (debounceMs : Nat) (s : Gateway B) : GatewayAct B → Option (Gateway B)
  | .elapse wall uptime => some { s with wall := wall, uptime := s.uptime + uptime }
  | .connect owner subaccountName => some { s with
      activeWsClients := s.activeWsClients + 1
      connections := s.connections ++ [{ owner, subaccountName }] }
  | .connection i a => (s.connections[i]?).bind fun c =>
      (handle debounceMs s.wall s.uptime c a).map fun c => s.setConnection i c

def Gateway.Start (s : Gateway B) : Prop := ∃ wall uptime, s = { wall, uptime }

/-- The condition on the system clock: it does not go back. -/
def Forward (s : Gateway B) : GatewayAct B → Prop
  | .elapse wall _ => s.wall ≤ wall
  | _ => True

instance (s : Gateway B) : (a : GatewayAct B) → Decidable (Forward s a)
  | .elapse wall _ => inferInstanceAs (Decidable (s.wall ≤ wall))
  | .connect _ _ | .connection _ _ => isTrue trivial

/-! ## What a step does -/

def PortfolioPayload.Own (portfolio : PortfolioPayload B) (owner : H160)
    (subaccountName : String) : Prop :=
  portfolio.ownerAddress = hexAddress owner ∧ portfolio.subaccountName = subaccountName ∧
    portfolio.subaccount = hexSubaccount (Execution.subaccount owner subaccountName)

theorem fetchPortfolioPayload_own {owner : H160} {subaccountName : String}
    {answers : Except ApiError B} {portfolio : PortfolioPayload B}
    (h : fetchPortfolioPayload owner subaccountName answers = .ok portfolio) :
    portfolio.Own owner subaccountName := by
  unfold fetchPortfolioPayload at h
  cases answers with
  | error err => cases h
  | ok body =>
    cases h
    exact ⟨rfl, rfl, rfl⟩

/-- The number of a message with a portfolio. -/
def Frame.seq? : Frame B → Option Nat
  | .json (.snapshot seq _ _ _) => some seq
  | .json (.update seq _ _ _) => some seq
  | _ => none

def Frame.asOfMs? : Frame B → Option Nat
  | .json (.snapshot _ asOfMs _ _) => some asOfMs
  | .json (.update _ asOfMs _ _) => some asOfMs
  | .json (.status _ _ asOfMs) => some asOfMs
  | _ => none

def Frame.portfolio? : Frame B → Option (PortfolioPayload B)
  | .json (.snapshot _ _ _ portfolio) => some portfolio
  | .json (.update _ _ _ portfolio) => some portfolio
  | _ => none

def Frame.isSnapshot : Frame B → Bool
  | .json (.snapshot _ _ _ _) => true
  | _ => false

/-- What a connection sends first, and what it does then. -/
inductive First (c : Connection B) (wall : Nat) : Frame B → Next → Prop
  | snapshot {portfolio : PortfolioPayload B} : portfolio.Own c.owner c.subaccountName →
      First c wall (.json (.snapshot c.seq wall "initial" portfolio)) .enter
  | error {message : String} : First c wall (.json (.error message)) .leave

/-- What a connection sends later; a number only after a refresh. -/
structure Later (c : Connection B) (wall : Nat) (frame : Frame B) : Prop where
  no_snapshot : frame.isSnapshot = false
  number : ∀ seq ∈ frame.seq?, seq = c.seq ∧ ∃ cause, c.handler = .refreshing cause
  now : ∀ asOfMs ∈ frame.asOfMs?, asOfMs = wall
  own : ∀ portfolio ∈ frame.portfolio?, portfolio.Own c.owner c.subaccountName

inductive Step (debounceMs : Nat) (wall : Nat) (uptime : Int) (c : Connection B) :
    Connection B → Prop
  | opens {frame : Frame B} {next : Next} : c.handler = .opening → First c wall frame next →
      Step debounceMs wall uptime c { c with handler := .sending frame next }
  | writes {frame : Frame B} : c.handler = .waiting ∨ (∃ cause, c.handler = .refreshing cause) →
      Later c wall frame → Step debounceMs wall uptime c { c with handler := .sending frame .loop }
  | sent {frame : Frame B} {next : Next} : c.handler = .sending frame next →
      Step debounceMs wall uptime c (onSent debounceMs uptime c frame next)
  | polls : c.handler = .waiting → Step debounceMs wall uptime c
      { c with handler := .refreshing "poll", seq := saturatingAdd c.seq 1 }
  | refreshes : c.handler = .waiting → c.lastEventRefresh + debounceMs ≤ uptime →
      Step debounceMs wall uptime c { c with
        lastEventRefresh := uptime
        seq := saturatingAdd c.seq 1
        handler := .refreshing "event"
        refreshes := c.refreshes ++ [uptime] }
  | stays : c.handler = .waiting → Step debounceMs wall uptime c c
  | leaves : Step debounceMs wall uptime c { c with handler := .gone }

section
variable {debounceMs wall : Nat} {uptime : Int} {c c' : Connection B}

theorem later_of_silent {frame : Frame B} (hs : frame.isSnapshot = false)
    (hseq : frame.seq? = none) (hp : frame.portfolio? = none)
    (hnow : ∀ asOfMs ∈ frame.asOfMs?, asOfMs = wall) : Later c wall frame where
  no_snapshot := hs
  number seq h := by rw [hseq] at h; cases h
  now := hnow
  own portfolio h := by rw [hp] at h; cases h

theorem later_degraded (detail : Option String) :
    Later c wall (.json (degraded (B := B) wall detail)) := by
  cases detail with
  | none => exact later_of_silent rfl rfl rfl fun _ h => (Option.some.inj h).symm
  | some detail => exact later_of_silent rfl rfl rfl fun _ h => (Option.some.inj h).symm

theorem step_fetched {answers : Except ApiError B}
    (h : handle debounceMs wall uptime c (.fetched answers) = some c') :
    Step debounceMs wall uptime c c' := by
  dsimp only [handle] at h
  split at h
  · rename_i hopening
    cases h
    cases hfetch : fetchPortfolioPayload c.owner c.subaccountName answers with
    | ok portfolio => exact .opens hopening (.snapshot (fetchPortfolioPayload_own hfetch))
    | error err => exact .opens hopening .error
  · rename_i cause hrefreshing
    cases h
    cases hfetch : fetchPortfolioPayload c.owner c.subaccountName answers with
    | ok portfolio =>
      refine .writes (.inr ⟨cause, hrefreshing⟩)
        ⟨rfl, fun seq h => ?_, fun _ h => ?_, fun p h => ?_⟩
      · exact ⟨(Option.some.inj h).symm, cause, hrefreshing⟩
      · exact (Option.some.inj h).symm
      · cases h
        exact fetchPortfolioPayload_own hfetch
    | error err =>
      exact .writes (.inr ⟨cause, hrefreshing⟩)
        (later_of_silent rfl rfl rfl fun _ h => (Option.some.inj h).symm)
  · cases h

theorem step_upstream {signal : Option UpstreamSignal} (hwaiting : c.handler = .waiting) :
    Step debounceMs wall uptime c (onUpstream debounceMs wall uptime c signal) := by
  cases signal with
  | none => exact .writes (.inl hwaiting) (later_degraded none)
  | some signal =>
    cases signal with
    | disconnected detail => exact .writes (.inl hwaiting) (later_degraded (some detail))
    | event =>
      dsimp only [onUpstream]
      split
      · exact .stays hwaiting
      · exact .refreshes hwaiting (by omega)

theorem step_incoming {message : Incoming} (hwaiting : c.handler = .waiting) :
    Step debounceMs wall uptime c { c with handler := onIncoming wall message } := by
  have silent : ∀ frame : Frame B, frame.isSnapshot = false → frame.seq? = none →
      frame.portfolio? = none → frame.asOfMs? = none →
      Step debounceMs wall uptime c { c with handler := .sending frame .loop } :=
    fun frame hs hseq hp hnow => .writes (.inl hwaiting)
      (later_of_silent hs hseq hp fun _ h => by rw [hnow] at h; cases h)
  cases message with
  | text message =>
    cases message with
    | none => exact silent _ rfl rfl rfl rfl
    | some message =>
      cases message
      exact silent _ rfl rfl rfl rfl
  | ping payload => exact silent _ rfl rfl rfl rfl
  | other =>
    rw [show ({ c with handler := onIncoming wall .other } : Connection B) = c by
      obtain ⟨⟩ := c; cases hwaiting; rfl]
    exact .stays hwaiting
  | close | failed | ended => exact .leaves

theorem Step.of_handle {a : ConnectionAct B} (h : handle debounceMs wall uptime c a = some c') :
    Step debounceMs wall uptime c c' := by
  cases a with
  | fetched answers => exact step_fetched h
  | sent ok =>
    dsimp only [handle] at h
    split at h
    · rename_i frame next hsending
      cases h
      cases ok with
      | true => exact .sent hsending
      | false => exact .leaves
    · cases h
  | poll =>
    dsimp only [handle] at h
    split at h
    · rename_i hwaiting
      cases h
      exact .polls hwaiting
    · cases h
  | upstream signal =>
    dsimp only [handle] at h
    split at h
    · rename_i hwaiting
      cases h
      exact step_upstream hwaiting
    · cases h
  | incoming message =>
    dsimp only [handle] at h
    split at h
    · rename_i hwaiting
      cases h
      exact step_incoming hwaiting
    · cases h

end

/-! ## What a connection sends -/

/-- What was sent and what is being sent. -/
def Connection.written (c : Connection B) : List (Frame B) :=
  match c.handler with
  | .sending frame _ => c.received ++ [frame]
  | _ => c.received

def Frame.IsGreeting (frame : Frame B) : Prop :=
  ∃ asOfMs portfolio, frame = .json (.snapshot 1 asOfMs "initial" portfolio)

def Frame.IsError (frame : Frame B) : Prop := ∃ message, frame = .json (.error message)

def Debounced (debounceMs : Nat) (refreshes : List Int) : Prop :=
  refreshes.Pairwise fun a b : Int => a + debounceMs ≤ b

/-- What a connection sends: the first snapshot or nothing but an error; then no snapshot; numbers
that count up to the maximum; and only its own owner's portfolio. -/
structure Streamed (debounceMs : Nat) (c : Connection B) : Prop where
  first : ∀ frame ∈ c.written.head?,
    frame.IsGreeting ∨ (frame.IsError ∧ c.written.tail = [])
  later : ∀ frame ∈ c.written.tail, frame.isSnapshot = false
  numbered : (c.written.filterMap Frame.seq?).Pairwise fun a b => a < b ∨ b = u64Max
  own : ∀ frame ∈ c.written, ∀ portfolio ∈ frame.portfolio?,
    portfolio.Own c.owner c.subaccountName
  debounced : Debounced debounceMs c.refreshes

/-- The times in what a connection sends do not go back, and none is from the future. -/
structure Timed (wall : Nat) (c : Connection B) : Prop where
  ordered : (c.written.filterMap Frame.asOfMs?).Pairwise (· ≤ ·)
  past : ∀ asOfMs ∈ c.written.filterMap Frame.asOfMs?, asOfMs ≤ wall

/-- What the next message may assume, by where the handler is. -/
def Ready (c : Connection B) : Prop :=
  match c.handler with
  | .opening => c.received = [] ∧ c.seq = 1 ∧ c.refreshes = []
  | .sending frame .enter => c.received = [] ∧ frame.IsGreeting ∧ c.refreshes = []
  | .sending frame .leave => c.received = [] ∧ frame.IsError
  | .sending _ .loop => ∃ frame ∈ c.received.head?, frame.IsGreeting
  | .waiting => ∃ frame ∈ c.received.head?, frame.IsGreeting
  | .refreshing _ => (∃ frame ∈ c.received.head?, frame.IsGreeting) ∧
      ∀ seq ∈ c.received.filterMap Frame.seq?, seq < c.seq ∨ c.seq = u64Max
  | .gone => True

structure Inv (debounceMs : Nat) (c : Connection B) : Prop where
  streamed : Streamed debounceMs c
  ready : Ready c
  counted : ∀ seq ∈ c.written.filterMap Frame.seq?, seq ≤ c.seq
  bounded : c.seq ≤ u64Max
  refreshed : ∀ instant ∈ c.refreshes, instant ≤ c.lastEventRefresh

section
variable {debounceMs wall : Nat} {uptime : Int} {c c' d : Connection B} {frame : Frame B}

/-- A step after which less is written. -/
theorem Streamed.shorten (h : Streamed debounceMs c) (hw : d.written <+: c.written)
    (ho : d.owner = c.owner) (hn : d.subaccountName = c.subaccountName)
    (hr : Debounced debounceMs d.refreshes) : Streamed debounceMs d := by
  have htail : d.written.tail.Sublist c.written.tail := hw.sublist.tail
  refine ⟨fun frame hf => ?_, fun frame hf => h.later frame (htail.subset hf),
    h.numbered.sublist (hw.sublist.filterMap _), fun frame hf => ?_, hr⟩
  · obtain ⟨rest, hrest⟩ := hw
    have hhead : frame ∈ c.written.head? := by
      rw [← hrest, List.head?_append, Option.mem_def.1 hf]
      rfl
    rcases h.first frame hhead with hgreet | ⟨herror, hnil⟩
    · exact .inl hgreet
    · exact .inr ⟨herror, List.sublist_nil.1 (hnil ▸ htail)⟩
  · rw [ho, hn]
    exact h.own frame (hw.subset hf)

theorem Streamed.opens (h : Streamed debounceMs c) (hc : c.received = []) (hseq : c.seq = 1)
    {next : Next} (hfirst : First c wall frame next) :
    Streamed debounceMs { c with handler := .sending frame next } := by
  have hw : ({ c with handler := .sending frame next } : Connection B).written = [frame] := by
    show c.received ++ [frame] = [frame]
    rw [hc, List.nil_append]
  refine ⟨?_, ?_, ?_, ?_, h.debounced⟩
  all_goals rw [hw]
  · rintro _ ⟨⟩
    cases hfirst with
    | snapshot hown => exact .inl ⟨_, _, by rw [hseq]⟩
    | error => exact .inr ⟨⟨_, rfl⟩, rfl⟩
  · exact fun frame hf => nomatch hf
  · cases hfirst with
    | snapshot hown => exact List.pairwise_singleton _ _
    | error => exact List.Pairwise.nil
  · intro frame hf portfolio hp
    cases List.mem_singleton.1 hf
    cases hfirst with
    | snapshot hown =>
      cases hp
      exact hown
    | error => cases hp

/-- A step that sends another message. -/
theorem Streamed.writes (h : Streamed debounceMs c) (hc : c.written = c.received)
    (hgreeted : ∃ frame ∈ c.received.head?, frame.IsGreeting) (hlater : Later c wall frame)
    (hnum : (∃ cause, c.handler = .refreshing cause) →
      ∀ seq ∈ c.received.filterMap Frame.seq?, seq < c.seq ∨ c.seq = u64Max) :
    Streamed debounceMs { c with handler := .sending frame .loop } := by
  obtain ⟨greeting, hhead, hgreeting⟩ := hgreeted
  have hw : ({ c with handler := .sending frame .loop } : Connection B).written =
      c.received ++ [frame] := rfl
  obtain ⟨rest, hrest⟩ := List.head?_eq_some_iff.1 hhead
  obtain ⟨-, hno_snapshot, hnumbered, hown, hdebounced⟩ := h
  rw [hc] at hno_snapshot hnumbered hown
  refine ⟨?_, ?_, ?_, ?_, hdebounced⟩
  all_goals rw [hw]
  · intro f hf
    rw [hrest] at hf
    cases hf
    exact .inl hgreeting
  · intro f hf
    rw [hrest] at hf hno_snapshot
    rcases List.mem_append.1 hf with hf | hf
    · exact hno_snapshot f hf
    · cases List.mem_singleton.1 hf
      exact hlater.no_snapshot
  · rw [Concat.filterMap]
    refine Concat.pairwise hnumbered fun seq hseq n hn => ?_
    obtain ⟨rfl, hrefreshing⟩ := hlater.number seq hseq
    exact hnum hrefreshing n hn
  · intro f hf
    rcases List.mem_append.1 hf with hf | hf
    · exact hown f hf
    · cases List.mem_singleton.1 hf
      exact hlater.own

theorem received_prefix_written (c : Connection B) : c.received <+: c.written := by
  unfold Connection.written
  split
  · exact List.prefix_append _ _
  · exact List.prefix_refl _

theorem Inv.start {owner : H160} {subaccountName : String} :
    Inv debounceMs ({ owner, subaccountName } : Connection B) where
  streamed := by
    refine ⟨?_, ?_, List.Pairwise.nil, ?_, List.Pairwise.nil⟩
    · exact fun _ h => nomatch h
    · exact fun _ h => nomatch h
    · exact fun _ h => nomatch h
  ready := ⟨rfl, rfl, rfl⟩
  counted _ h := nomatch h
  bounded := (by decide : 1 ≤ u64Max)
  refreshed _ h := nomatch h

theorem saturatingAdd_bounds {seq : Nat} (hmax : seq ≤ u64Max) :
    seq ≤ saturatingAdd seq 1 ∧ saturatingAdd seq 1 ≤ u64Max ∧
      ∀ n ≤ seq, n < saturatingAdd seq 1 ∨ saturatingAdd seq 1 = u64Max := by
  unfold saturatingAdd
  refine ⟨by omega, by omega, fun n hn => by omega⟩

theorem Inv.opens (h : Inv debounceMs c) (hopening : c.handler = .opening) {next : Next}
    (hfirst : First c wall frame next) :
    Inv debounceMs { c with handler := .sending frame next } := by
  have hready := h.ready
  unfold Ready at hready
  rw [hopening] at hready
  obtain ⟨hreceived, hseq, hrefreshes⟩ := hready
  refine ⟨h.streamed.opens hreceived hseq hfirst, ?_, fun seq hmem => ?_, h.bounded, h.refreshed⟩
  · cases hfirst with
    | snapshot hown => exact ⟨hreceived, ⟨_, _, by rw [hseq]⟩, hrefreshes⟩
    | error => exact ⟨hreceived, _, rfl⟩
  · have hw : ({ c with handler := .sending frame next } : Connection B).written = [frame] := by
      show c.received ++ [frame] = [frame]
      rw [hreceived, List.nil_append]
    rw [hw] at hmem
    cases hfirst with
    | snapshot hown => exact Nat.le_of_eq (List.mem_singleton.1 hmem)
    | error => cases hmem

theorem Inv.writes (h : Inv debounceMs c)
    (hidle : c.handler = .waiting ∨ ∃ cause, c.handler = .refreshing cause)
    (hlater : Later c wall frame) :
    Inv debounceMs { c with handler := .sending frame .loop } := by
  have hready := h.ready
  unfold Ready at hready
  have hwritten : c.written = c.received := by
    unfold Connection.written
    rcases hidle with hidle | ⟨cause, hidle⟩ <;> rw [hidle]
  have hgreeted : ∃ frame ∈ c.received.head?, frame.IsGreeting := by
    rcases hidle with hidle | ⟨cause, hidle⟩
    · rw [hidle] at hready
      exact hready
    · rw [hidle] at hready
      exact hready.1
  refine ⟨h.streamed.writes hwritten hgreeted hlater ?_, hgreeted, fun seq hmem => ?_, h.bounded,
    h.refreshed⟩
  · rintro ⟨cause, hrefreshing⟩
    rw [hrefreshing] at hready
    exact hready.2
  · have hmem : seq ∈ (c.received ++ [frame]).filterMap Frame.seq? := hmem
    rw [Concat.filterMap] at hmem
    rcases List.mem_append.1 hmem with hmem | hmem
    · exact h.counted seq (hwritten ▸ hmem)
    · exact Nat.le_of_eq (hlater.number seq (Option.mem_toList.1 hmem)).1

theorem Inv.sent (h : Inv debounceMs c) {next : Next}
    (hsending : c.handler = .sending frame next) :
    Inv debounceMs (onSent debounceMs uptime c frame next) := by
  have hready := h.ready
  unfold Ready at hready
  rw [hsending] at hready
  have hwritten : c.written = c.received ++ [frame] := by
    unfold Connection.written
    rw [hsending]
  have hsame : ∀ d : Connection B, d.written = c.written → d.owner = c.owner →
      d.subaccountName = c.subaccountName → d.refreshes = c.refreshes →
      Streamed debounceMs d := fun d hw ho hn hr =>
    h.streamed.shorten (hw ▸ List.prefix_refl _) ho hn (hr ▸ h.streamed.debounced)
  cases next with
  | enter =>
    obtain ⟨hreceived, hgreeting, hrefreshes⟩ := hready
    refine ⟨hsame _ hwritten.symm rfl rfl rfl, ⟨frame, ?_, hgreeting⟩, ?_, h.bounded, ?_⟩
    · show frame ∈ (c.received ++ [frame]).head?
      rw [hreceived]
      rfl
    · exact fun seq hmem => h.counted seq (hwritten ▸ hmem)
    · intro instant hmem
      have hmem : instant ∈ c.refreshes := hmem
      rw [hrefreshes] at hmem
      cases hmem
  | loop =>
    obtain ⟨greeting, hhead, hgreeting⟩ := hready
    exact ⟨hsame _ hwritten.symm rfl rfl rfl, ⟨greeting, Concat.head? hhead, hgreeting⟩,
      fun seq hmem => h.counted seq (hwritten ▸ hmem), h.bounded, h.refreshed⟩
  | leave =>
    exact ⟨hsame _ hwritten.symm rfl rfl rfl, trivial,
      fun seq hmem => h.counted seq (hwritten ▸ hmem), h.bounded, h.refreshed⟩

theorem Inv.step (h : Inv debounceMs c) (hs : Step debounceMs wall uptime c c') :
    Inv debounceMs c' := by
  have hready := h.ready
  unfold Ready at hready
  have hwaiting : c.handler = .waiting → c.written = c.received := fun hw => by
    unfold Connection.written
    rw [hw]
  obtain ⟨hle, hmax, hless⟩ := saturatingAdd_bounds h.bounded
  cases hs with
  | opens hopening hfirst => exact h.opens hopening hfirst
  | writes hidle hlater => exact h.writes hidle hlater
  | sent hsending => exact h.sent hsending
  | stays _ => exact h
  | polls hw =>
    have heq := hwaiting hw
    rw [hw] at hready
    refine ⟨h.streamed.shorten (heq ▸ List.prefix_refl _) rfl rfl h.streamed.debounced,
      ⟨hready, fun seq hmem => ?_⟩, fun seq hmem => ?_, hmax, h.refreshed⟩
    · exact hless seq (h.counted seq (heq ▸ hmem))
    · exact (h.counted seq (heq ▸ hmem)).trans hle
  | refreshes hw hlate =>
    have heq := hwaiting hw
    rw [hw] at hready
    refine ⟨h.streamed.shorten (heq ▸ List.prefix_refl _) rfl rfl ?_,
      ⟨hready, fun seq hmem => ?_⟩, fun seq hmem => ?_, hmax, fun instant hmem => ?_⟩
    · refine List.pairwise_append.2 ⟨h.streamed.debounced, List.pairwise_singleton _ _, ?_⟩
      intro instant hmem b hb
      cases List.mem_singleton.1 hb
      have hlast := h.refreshed instant hmem
      omega
    · exact hless seq (h.counted seq (heq ▸ hmem))
    · exact (h.counted seq (heq ▸ hmem)).trans hle
    · rcases List.mem_append.1 hmem with hmem | hmem
      · have hlast := h.refreshed instant hmem
        show instant ≤ uptime
        omega
      · exact Int.le_of_eq (List.mem_singleton.1 hmem)
  | leaves =>
    have hprefix := received_prefix_written c
    refine ⟨h.streamed.shorten hprefix rfl rfl h.streamed.debounced, trivial, fun seq hmem => ?_,
      h.bounded, h.refreshed⟩
    exact h.counted seq ((List.Sublist.filterMap _ (List.IsPrefix.sublist hprefix)).subset hmem)

end

/-! ## Every run -/

def Gateway.live (s : Gateway B) : Nat := s.connections.countP fun c => !c.handler.isGone

structure Counted (debounceMs : Nat) (s : Gateway B) : Prop where
  active : s.activeWsClients = UInt64.ofNat s.live
  inv : ∀ c ∈ s.connections, Inv debounceMs c

section
variable {debounceMs : Nat} {s s' : Gateway B}

theorem handle_isGone {wall : Nat} {uptime : Int} {c c' : Connection B} {a : ConnectionAct B}
    (h : handle debounceMs wall uptime c a = some c') : c.handler.isGone = false := by
  cases hc : c.handler with
  | gone => cases a <;> simp [handle, hc] at h
  | opening | sending _ _ | waiting | refreshing _ => rfl

theorem setConnection_active {i : Nat} {c c' : Connection B} (hget : s.connections[i]? = some c)
    (hc : c.handler.isGone = false) (h : s.activeWsClients = UInt64.ofNat s.live) :
    (s.setConnection i c').activeWsClients = UInt64.ofNat (s.setConnection i c').live := by
  obtain ⟨hi, rfl⟩ := List.getElem?_eq_some_iff.1 hget
  have hpos : 0 < s.live :=
    List.countP_pos_iff.2 ⟨s.connections[i], List.getElem_mem hi, by rw [hc]; rfl⟩
  have hlive : (s.setConnection i c').live =
      s.live - 1 + if c'.handler.isGone then 0 else 1 := by
    show (s.connections.set i c').countP _ = _
    rw [List.countP_set hi, hc]
    unfold Gateway.live
    cases c'.handler.isGone <;> rfl
  rw [hlive]
  show (if c'.handler.isGone then s.activeWsClients - 1 else s.activeWsClients) = _
  rw [h]
  cases c'.handler.isGone with
  | false =>
    rw [if_neg Bool.false_ne_true, if_neg Bool.false_ne_true, Nat.sub_add_cancel hpos]
  | true =>
    rw [if_pos rfl, if_pos rfl, Nat.add_zero]
    obtain ⟨n, hn⟩ := Nat.exists_eq_add_of_lt hpos
    rw [hn, Nat.zero_add, Nat.add_sub_cancel, UInt64.ofNat_add]
    exact UInt64.add_sub_cancel _ _

theorem Counted.step {a : GatewayAct B} (h : Counted debounceMs s)
    (hs : gatewayStep debounceMs s a = some s') : Counted debounceMs s' := by
  cases a with
  | elapse wall uptime =>
    cases hs
    exact ⟨h.active, h.inv⟩
  | connect owner subaccountName =>
    cases hs
    refine ⟨?_, fun c hc => ?_⟩
    · show s.activeWsClients + 1 = UInt64.ofNat _
      rw [h.active]
      unfold Gateway.live
      rw [List.countP_append, UInt64.ofNat_add]
      rfl
    · rcases List.mem_append.1 hc with hc | hc
      · exact h.inv c hc
      · cases List.mem_singleton.1 hc
        exact Inv.start
  | connection i a =>
    obtain ⟨c, hget, hs⟩ := Option.bind_eq_some_iff.1 hs
    obtain ⟨c', hc', hs⟩ := Option.map_eq_some_iff.1 hs
    cases hs
    refine ⟨setConnection_active hget (handle_isGone hc') h.active, fun d hd => ?_⟩
    rcases List.mem_or_eq_of_mem_set hd with hd | rfl
    · exact h.inv d hd
    · exact (h.inv c (List.mem_of_getElem? hget)).step (Step.of_handle hc')

/-- What a step leaves to those who read the connection. -/
structure Follows (wall : Nat) (c c' : Connection B) : Prop where
  owner : c'.owner = c.owner
  subaccountName : c'.subaccountName = c.subaccountName
  received : c.received <+: c'.received
  written : c'.written <+: c.written ∨
    ∃ frame, c'.written = c.written ++ [frame] ∧ ∀ asOfMs ∈ frame.asOfMs?, asOfMs = wall

theorem Follows.refl (wall : Nat) (c : Connection B) : Follows wall c c :=
  ⟨rfl, rfl, List.prefix_refl _, .inl (List.prefix_refl _)⟩

theorem Step.follows {wall : Nat} {uptime : Int} {c c' : Connection B}
    (h : Step debounceMs wall uptime c c') : Follows wall c c' := by
  have written_of : ∀ handler, c.handler = handler → (∀ frame next, handler ≠ .sending frame next) →
      c.written = c.received := by
    rintro handler rfl hne
    unfold Connection.written
    split
    · rename_i frame next heq
      exact absurd heq (hne frame next)
    · rfl
  cases h with
  | @opens frame next hopening hfirst =>
    refine ⟨rfl, rfl, List.prefix_refl _, .inr ⟨frame, ?_, ?_⟩⟩
    · rw [written_of _ hopening fun _ _ h => nomatch h]
      rfl
    · cases hfirst with
      | snapshot hown => exact fun _ h => (Option.some.inj h).symm
      | error => exact fun _ h => nomatch h
  | @writes frame hidle hlater =>
    refine ⟨rfl, rfl, List.prefix_refl _, .inr ⟨frame, ?_, hlater.now⟩⟩
    rcases hidle with hidle | ⟨cause, hidle⟩
    · rw [written_of _ hidle fun _ _ h => nomatch h]
      rfl
    · rw [written_of _ hidle fun _ _ h => nomatch h]
      rfl
  | @sent frame next hsending =>
    have hwritten : c.written = c.received ++ [frame] := by
      unfold Connection.written
      rw [hsending]
    cases next with
    | enter =>
      exact ⟨rfl, rfl, List.prefix_append _ _, .inl (hwritten ▸ List.prefix_refl _)⟩
    | loop =>
      exact ⟨rfl, rfl, List.prefix_append _ _, .inl (hwritten ▸ List.prefix_refl _)⟩
    | leave =>
      exact ⟨rfl, rfl, List.prefix_append _ _, .inl (hwritten ▸ List.prefix_refl _)⟩
  | stays _ => exact Follows.refl wall c
  | polls hw => exact ⟨rfl, rfl, List.prefix_refl _, .inl (received_prefix_written c)⟩
  | refreshes hw _ => exact ⟨rfl, rfl, List.prefix_refl _, .inl (received_prefix_written c)⟩
  | leaves => exact ⟨rfl, rfl, List.prefix_refl _, .inl (received_prefix_written c)⟩

theorem gatewayStep_follows {a : GatewayAct B} (hs : gatewayStep debounceMs s a = some s') {i : Nat}
    {c : Connection B} (hc : s.connections[i]? = some c) :
    ∃ c', s'.connections[i]? = some c' ∧ Follows s.wall c c' := by
  cases a with
  | elapse wall uptime =>
    cases hs
    exact ⟨c, hc, Follows.refl _ c⟩
  | connect owner subaccountName =>
    cases hs
    refine ⟨c, ?_, Follows.refl _ c⟩
    show (s.connections ++ _)[i]? = some c
    rw [List.getElem?_append_left (List.getElem?_eq_some_iff.1 hc).1]
    exact hc
  | connection j a =>
    obtain ⟨d, hget, hs⟩ := Option.bind_eq_some_iff.1 hs
    obtain ⟨d', hd', hs⟩ := Option.map_eq_some_iff.1 hs
    cases hs
    rcases eq_or_ne j i with rfl | hne
    · rw [hget] at hc
      cases hc
      refine ⟨d', ?_, (Step.of_handle hd').follows⟩
      show (s.connections.set j d')[j]? = some d'
      rw [List.getElem?_set_self (List.getElem?_eq_some_iff.1 hget).1]
    · refine ⟨c, ?_, Follows.refl _ c⟩
      show (s.connections.set j d')[i]? = some c
      rw [List.getElem?_set_ne hne]
      exact hc

theorem Reach.counted (h : Reach (gatewayStep debounceMs) anyStep Gateway.Start s) :
    Counted debounceMs s := by
  refine Reach.inv (P := Counted debounceMs) ?_ (fun _ _ _ hp _ hs => hp.step hs) h
  rintro s ⟨wall, uptime, rfl⟩
  exact ⟨rfl, fun c hc => nomatch hc⟩

/-! ## The times -/

theorem Timed.mono {wall wall' : Nat} {c : Connection B} (h : Timed wall c)
    (hle : wall ≤ wall') : Timed wall' c :=
  ⟨h.ordered, fun asOfMs hmem => (h.past asOfMs hmem).trans hle⟩

theorem Timed.follows {wall : Nat} {c c' : Connection B} (h : Timed wall c)
    (hf : Follows wall c c') : Timed wall c' := by
  rcases hf.written with hshort | ⟨frame, hlong, hnow⟩
  · have hsub := hshort.sublist.filterMap Frame.asOfMs?
    exact ⟨h.ordered.sublist hsub, fun asOfMs hmem => h.past asOfMs (hsub.subset hmem)⟩
  · refine ⟨?_, fun asOfMs hmem => ?_⟩
    · rw [hlong, Concat.filterMap]
      refine Concat.pairwise h.ordered fun asOfMs hasOf t ht => ?_
      rw [hnow asOfMs hasOf]
      exact h.past t ht
    · rw [hlong, Concat.filterMap] at hmem
      rcases List.mem_append.1 hmem with hmem | hmem
      · exact h.past asOfMs hmem
      · exact Nat.le_of_eq (hnow asOfMs (Option.mem_toList.1 hmem))

/-- What every connection has sent is no later than now. -/
def OnTime (s : Gateway B) : Prop := ∀ c ∈ s.connections, Timed s.wall c

theorem Forward.le {a : GatewayAct B} (hok : Forward s a)
    (hs : gatewayStep debounceMs s a = some s') : s.wall ≤ s'.wall := by
  cases a with
  | elapse wall uptime =>
    cases hs
    exact hok
  | connect owner subaccountName =>
    cases hs
    exact Nat.le_refl _
  | connection i a =>
    obtain ⟨c, -, hs⟩ := Option.bind_eq_some_iff.1 hs
    obtain ⟨c', -, rfl⟩ := Option.map_eq_some_iff.1 hs
    exact Nat.le_refl _

theorem OnTime.step {a : GatewayAct B} (h : OnTime s) (hok : Forward s a)
    (hs : gatewayStep debounceMs s a = some s') : OnTime s' := by
  cases a with
  | elapse wall uptime =>
    cases hs
    exact fun c hc => (h c hc).mono hok
  | connect owner subaccountName =>
    cases hs
    intro c hc
    rcases List.mem_append.1 hc with hc | hc
    · exact h c hc
    · cases List.mem_singleton.1 hc
      exact ⟨List.Pairwise.nil, fun _ h => nomatch h⟩
  | connection i a =>
    obtain ⟨c, hget, hs⟩ := Option.bind_eq_some_iff.1 hs
    obtain ⟨c', hc', hs⟩ := Option.map_eq_some_iff.1 hs
    cases hs
    intro d hd
    rcases List.mem_or_eq_of_mem_set hd with hd | rfl
    · exact h d hd
    · exact (h c (List.mem_of_getElem? hget)).follows (Step.of_handle hc').follows

theorem Reach.onTime (h : Reach (gatewayStep debounceMs) Forward Gateway.Start s) : OnTime s := by
  refine Reach.inv (P := OnTime) ?_ (fun _ _ _ hp hok hs => hp.step hok hs) h
  rintro s ⟨wall, uptime, rfl⟩
  exact fun c hc => nomatch hc

end

section

def trader : H160 := ⟨#[1, 1, 1, 1, 1, 1, 1, 1, 1, 1, 1, 1, 1, 1, 1, 1, 1, 1, 1, 1], rfl⟩

/-- Two events, the second before the debounce time is over, and a client that leaves. -/
def tradingDay : List (GatewayAct Unit) :=
  [.connect trader "default", .connect trader "desk",
    .connection 0 (.fetched (.ok ())), .connection 0 (.sent true),
    .connection 1 (.fetched (.error (.upstream "no summary"))), .connection 1 (.sent true),
    .elapse 100 100, .connection 0 (.upstream (some .event)),
    .connection 0 (.fetched (.ok ())), .connection 0 (.sent true),
    .elapse 700 600, .connection 0 (.upstream (some .event))]

end

end Portfolio
