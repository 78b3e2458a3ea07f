import Mathlib
import Thornado.Portfolio.Stream

/-!
# The page's portfolio

`usePortfolioData` (`client/src/hooks/usePortfolioData.js`) as the terminal uses it, next to the
portfolio gateway. The page selects a wallet; its session and the snapshots are queries with a
cache; the stream belongs to an effect, which runs again after a render in which what it depends on
has changed. The requests carry the browser's cookie, which other pages change as well.

* `Moves`: what a step can do. `Moves.of_step`: the steps are of these kinds.
-/

namespace Client.PortfolioData

open Transition

open Execution (H160)
open Portfolio (ApiError Connection Frame Gateway GatewayAct PortfolioPayload ServerMessage
  fetchPortfolioPayload gatewayStep)

variable {B : Type}

/-! ## Envelopes -/

/-- Times are below `2 ^ 53`, so that a JavaScript number has them exactly. -/
structure Envelope (B : Type) where
  asOfMs : Nat
  cause : String
  portfolio : PortfolioPayload B

/-- `normalizeEnvelope` of a snapshot or an update. -/
def normalizeEnvelope : Frame B → Option (Envelope B)
  | .json (.snapshot _ asOfMs cause portfolio) => some ⟨asOfMs, cause, portfolio⟩
  | .json (.update _ asOfMs cause portfolio) => some ⟨asOfMs, cause, portfolio⟩
  | _ => none

def pickLatestEnvelope (prev : Option (Envelope B)) (next : Envelope B) : Envelope B :=
  match prev with
  | none => next
  | some prev => if prev.asOfMs ≤ next.asOfMs then next else prev

/-! ## The page -/

/-- What the hook is given, apart from the session. -/
structure Selection where
  wallet : Option H160
  onWrongChain : Bool
  chainEnv : String
  subaccountName : Option String
  deriving DecidableEq

/-- What the effect of the stream depends on. -/
structure Deps where
  shouldLoad : Bool
  subaccountName : String
  owner : Option H160
  deriving DecidableEq

/-- The key of a snapshot's query. -/
structure QueryKey where
  owner : Option H160
  chainEnv : String
  subaccountName : String
  deriving DecidableEq

/-- A request for a snapshot: whose it is by the cookie it was sent with, and when the gateway began
to answer. -/
structure Request where
  owner : H160
  subaccountName : String
  asOfMs : Option Nat := none

structure Query (B : Type) where
  data : Option (Envelope B) := none
  request : Option Request := none

inductive Socket where
  | idle
  | connecting
  /-- To a connection of the gateway, of which so many messages were handled. -/
  | connected (i : Nat) (handled : Nat)
  /-- Until a timer connects again. -/
  | waiting (delay : Nat)

structure Page (B : Type) where
  gateway : Gateway B
  /-- Whose login the cookie's token is, while it is valid. -/
  cookie : Option H160 := none
  selection : Selection
  session : Option H160 := none
  /-- What the session requests on their way will answer. -/
  sessionRequests : List (Option H160) := []
  queries : QueryKey → Query B := fun _ => {}
  /-- What the effect last ran with. -/
  deps : Option Deps := none
  socket : Socket := .idle
  reconnectAttempt : Nat := 0
  liveEnvelope : Option (Envelope B) := none
  wsStatus : String := "idle"
  wsRuntimeError : Option String := none

inductive PageAct (B : Type) where
  | gateway (a : GatewayAct B)
  /-- A login, a logout or an expiry, in whatever page. -/
  | setCookie (cookie : Option H160)
  | select (selection : Selection)
  | sessionRequest
  | sessionResponse (i : Nat)
  | runEffect
  | handshake
  | message
  | close
  | timer
  | snapshotRequest
  /-- The gateway begins to answer. -/
  | snapshotServed (key : QueryKey)
  | snapshotResponse (key : QueryKey) (answers : Except ApiError B)
  | snapshotFailed (key : QueryKey)

def wsReconnectBaseMs : Nat := 1000

def wsReconnectMaxMs : Nat := 10000

section
variable (trim : String → String)

def normalizeSubaccountName (name : Option String) : String :=
  let value := trim (name.getD "default")
  if value = "" then "default" else value

/-- `canQueryPortfolio`: addresses are compared in lower case. -/
def canQueryPortfolio (selection : Selection) (session : Option H160) : Bool :=
  selection.wallet.isSome && !selection.onWrongChain && decide (session = selection.wallet)

def Page.currentDeps (s : Page B) : Deps where
  shouldLoad := canQueryPortfolio s.selection s.session
  subaccountName := normalizeSubaccountName trim s.selection.subaccountName
  owner := s.selection.wallet

def Page.key (s : Page B) : QueryKey where
  owner := s.selection.wallet
  chainEnv := s.selection.chainEnv
  subaccountName := normalizeSubaccountName trim s.selection.subaccountName

/-- The effects of the last render have run. -/
def Page.Settled (s : Page B) : Prop := s.deps = some (s.currentDeps trim)

/-- `activeEnvelope` -/
def Page.activeEnvelope (s : Page B) : Option (Envelope B) :=
  match (s.queries (s.key trim)).data, s.liveEnvelope with
  | none, live => live
  | some snapshot, none => some snapshot
  | some snapshot, some live => some (if snapshot.asOfMs ≤ live.asOfMs then live else snapshot)

end

/-! ## Events -/

def Page.connect (s : Page B) : Page B :=
  { s with
    wsStatus := if 0 < s.reconnectAttempt then "reconnecting" else "connecting"
    socket := .connecting }

/-- `ws.onclose` -/
def Page.onClose (s : Page B) : Page B :=
  { s with
    wsStatus := "disconnected"
    reconnectAttempt := s.reconnectAttempt + 1
    socket := .waiting (min wsReconnectMaxMs (wsReconnectBaseMs * (s.reconnectAttempt + 1))) }

/-- The cleanup of the effect and the effect. -/
def Page.runEffect (s : Page B) (deps : Deps) : Page B :=
  let fresh := { s with
    deps := some deps
    socket := .idle
    reconnectAttempt := 0
    liveEnvelope := none
    wsStatus := "idle"
    wsRuntimeError := none }
  if deps.shouldLoad then fresh.connect else fresh

/-- The messages without a portfolio. The gateway's texts begin and end with no blank, and those of
the statuses have no capital. -/
def Page.onNotice (s : Page B) : Frame B → Page B
  | .json (.error message) => { s with
      wsRuntimeError := some (if message = "" then "Portfolio websocket error" else message) }
  | .json (.status status _ _) => { s with wsStatus := status }
  | _ => s

/-- `ws.onmessage` -/
def Page.onMessage (s : Page B) (frame : Frame B) : Page B :=
  match normalizeEnvelope frame with
  | some envelope =>
    { s with
      liveEnvelope := some (pickLatestEnvelope s.liveEnvelope envelope)
      wsRuntimeError := none }
  | none => s.onNotice frame

section
variable (trim : String → String) (debounceMs : Nat) (defaultSubaccountName : String)

/-- What the gateway serves for the cookie and a name: whose portfolio, if any. -/
def admitSession (cookie : Option H160) (subaccountName : String) : Option (H160 × String) :=
  match cookie, Portfolio.subaccountNameFromQuery (some subaccountName) defaultSubaccountName with
  | some owner, .ok name => some (owner, name)
  | _, _ => none

def Page.setQuery (s : Page B) (key : QueryKey) (query : Query B) : Page B :=
  { s with queries := Function.update s.queries key query }

/-- The handshake of the effect's socket. -/
def Page.handshake (s : Page B) (deps : Deps) : Option (Page B) :=
  match admitSession defaultSubaccountName s.cookie deps.subaccountName with
  | some (owner, name) =>
    (gatewayStep debounceMs s.gateway (.connect owner name)).map fun gateway =>
      { s with
        gateway := gateway
        socket := .connected s.gateway.connections.length 0
        reconnectAttempt := 0
        wsRuntimeError := none
        wsStatus := "connected" }
  | none => some s.onClose

/-- The next message of the socket. -/
def Page.arriving (s : Page B) : Option (Frame B) :=
  match s.socket with
  | .connected i handled => (s.gateway.connections[i]?).bind fun c => c.received[handled]?
  | _ => none

def Socket.handled : Socket → Socket
  | .connected i handled => .connected i (handled + 1)
  | socket => socket

def Page.message (s : Page B) : Option (Page B) :=
  s.arriving.map fun frame => { s.onMessage frame with socket := s.socket.handled }

def Page.snapshotRequest (s : Page B) (key : QueryKey) : Page B :=
  let admitted := admitSession defaultSubaccountName s.cookie key.subaccountName
  let request := admitted.map fun session => { owner := session.1, subaccountName := session.2 }
  s.setQuery key { s.queries key with request := request }

def Page.snapshotServed (s : Page B) (key : QueryKey) : Option (Page B) :=
  match (s.queries key).request with
  | some ⟨owner, name, none⟩ =>
    some (s.setQuery key { s.queries key with request := some ⟨owner, name, s.gateway.wall⟩ })
  | _ => none

def Page.snapshotResponse (s : Page B) (key : QueryKey) (answers : Except ApiError B) :
    Option (Page B) :=
  match (s.queries key).request with
  | some ⟨owner, name, some asOfMs⟩ =>
    match fetchPortfolioPayload owner name answers with
    | .ok portfolio => some (s.setQuery key { data := some ⟨asOfMs, "snapshot", portfolio⟩ })
    | .error _ => some (s.setQuery key { s.queries key with request := none })
  | _ => none

def pageStep (s : Page B) : PageAct B → Option (Page B)
  | .gateway a => (gatewayStep debounceMs s.gateway a).map fun gateway =>
      { s with gateway := gateway }
  | .setCookie cookie => some { s with cookie := cookie }
  | .select selection => some { s with selection := selection }
  | .sessionRequest => some { s with sessionRequests := s.sessionRequests ++ [s.cookie] }
  | .sessionResponse i => (s.sessionRequests[i]?).map fun session =>
      { s with session := session, sessionRequests := s.sessionRequests.eraseIdx i }
  | .runEffect =>
    if s.deps = some (s.currentDeps trim) then none else some (s.runEffect (s.currentDeps trim))
  | .handshake =>
    match s.socket, s.deps with
    | .connecting, some deps => s.handshake debounceMs defaultSubaccountName deps
    | _, _ => none
  | .message => s.message
  | .close =>
    match s.socket with
    | .connecting => some s.onClose
    | .connected _ _ => some s.onClose
    | _ => none
  | .timer =>
    match s.socket with
    | .waiting _ => some s.connect
    | _ => none
  | .snapshotRequest =>
    if canQueryPortfolio s.selection s.session then
      some (s.snapshotRequest defaultSubaccountName (s.key trim))
    else none
  | .snapshotServed key => s.snapshotServed key
  | .snapshotResponse key answers => s.snapshotResponse key answers
  | .snapshotFailed key => some (s.setQuery key { s.queries key with request := none })

end

def Page.Start (s : Page B) : Prop :=
  ∃ wall uptime cookie selection,
    s = { gateway := { wall, uptime }, cookie := cookie, selection := selection }

/-- The condition on the requests: the cookie is a login of the wallet they are for. -/
def OwnCookie (s : Page B) : PageAct B → Prop
  | .handshake => ∀ deps ∈ s.deps, s.cookie = deps.owner
  | .snapshotRequest => s.cookie = s.selection.wallet
  | _ => True

instance (s : Page B) : (a : PageAct B) → Decidable (OwnCookie s a)
  | .handshake => inferInstanceAs (Decidable (∀ deps ∈ s.deps, s.cookie = deps.owner))
  | .snapshotRequest => inferInstanceAs (Decidable (s.cookie = s.selection.wallet))
  | .gateway _ | .setCookie _ | .select _ | .sessionRequest | .sessionResponse _ | .runEffect
  | .message | .close | .timer | .snapshotServed _ | .snapshotResponse _ _
  | .snapshotFailed _ => isTrue trivial

/-- The condition on the gateway's system clock: it does not go back. -/
def ForwardClock (s : Page B) : PageAct B → Prop
  | .gateway a => Portfolio.Forward s.gateway a
  | _ => True

instance (s : Page B) : (a : PageAct B) → Decidable (ForwardClock s a)
  | .gateway a => inferInstanceAs (Decidable (Portfolio.Forward s.gateway a))
  | .setCookie _ | .select _ | .sessionRequest | .sessionResponse _ | .runEffect | .handshake
  | .message | .close | .timer | .snapshotRequest | .snapshotServed _ | .snapshotResponse _ _
  | .snapshotFailed _ => isTrue trivial

/-! ## What a step does -/

/-- What becomes of a query. -/
inductive Asks (trim : String → String) (defaultSubaccountName : String) (s : Page B) :
    PageAct B → QueryKey → Query B → Prop
  | requested : Asks trim defaultSubaccountName s .snapshotRequest (s.key trim)
      { s.queries (s.key trim) with
        request := (admitSession defaultSubaccountName s.cookie (s.key trim).subaccountName).map
          fun admitted => { owner := admitted.1, subaccountName := admitted.2 } }
  | served {key : QueryKey} {owner : H160} {name : String} :
      (s.queries key).request = some ⟨owner, name, none⟩ →
      Asks trim defaultSubaccountName s (.snapshotServed key) key
        { s.queries key with request := some ⟨owner, name, s.gateway.wall⟩ }
  | answered {key : QueryKey} {answers : Except ApiError B} {owner : H160} {name : String}
      {asOfMs : Nat} {portfolio : PortfolioPayload B} :
      (s.queries key).request = some ⟨owner, name, some asOfMs⟩ → portfolio.Own owner name →
      Asks trim defaultSubaccountName s (.snapshotResponse key answers) key
        { data := some ⟨asOfMs, "snapshot", portfolio⟩ }
  | dropped {a : PageAct B} {key : QueryKey} :
      Asks trim defaultSubaccountName s a key { s.queries key with request := none }

/-- What is live after a message. -/
def nextEnvelope (live : Option (Envelope B)) (frame : Frame B) : Option (Envelope B) :=
  match normalizeEnvelope frame with
  | some e => some (pickLatestEnvelope live e)
  | none => live

inductive Moves (trim : String → String) (debounceMs : Nat) (defaultSubaccountName : String)
    (s : Page B) : PageAct B → Page B → Prop
  | gateway {a : GatewayAct B} {gateway : Gateway B} :
      gatewayStep debounceMs s.gateway a = some gateway →
      Moves trim debounceMs defaultSubaccountName s (.gateway a) { s with gateway := gateway }
  /-- Neither the gateway nor what was received changes, and no socket is connected. -/
  | quiet {a : PageAct B} {s' : Page B} : s'.gateway = s.gateway → s'.queries = s.queries →
      s'.liveEnvelope = s.liveEnvelope → s'.deps = s.deps →
      (s'.socket = s.socket ∨ ∀ i handled, s'.socket ≠ .connected i handled) →
      Moves trim debounceMs defaultSubaccountName s a s'
  | effect {s' : Page B} : s.deps ≠ some (s.currentDeps trim) →
      s'.gateway = s.gateway → s'.queries = s.queries → s'.liveEnvelope = none →
      s'.deps = some (s.currentDeps trim) →
      (∀ i handled, s'.socket ≠ .connected i handled) →
      Moves trim debounceMs defaultSubaccountName s .runEffect s'
  | connected {deps : Deps} {owner : H160} {name : String} {gateway : Gateway B} {s' : Page B} :
      s.deps = some deps →
      admitSession defaultSubaccountName s.cookie deps.subaccountName = some (owner, name) →
      gatewayStep debounceMs s.gateway (.connect owner name) = some gateway →
      s'.gateway = gateway → s'.queries = s.queries → s'.liveEnvelope = s.liveEnvelope →
      s'.deps = s.deps → s'.socket = .connected s.gateway.connections.length 0 →
      Moves trim debounceMs defaultSubaccountName s .handshake s'
  | handled {i n : Nat} {c : Connection B} {frame : Frame B} {s' : Page B} :
      s.socket = .connected i n → s.gateway.connections[i]? = some c →
      c.received[n]? = some frame → s'.gateway = s.gateway → s'.queries = s.queries →
      s'.deps = s.deps → s'.socket = .connected i (n + 1) →
      s'.liveEnvelope = nextEnvelope s.liveEnvelope frame →
      Moves trim debounceMs defaultSubaccountName s .message s'
  | query {a : PageAct B} {key : QueryKey} {query : Query B} :
      Asks trim defaultSubaccountName s a key query →
      Moves trim debounceMs defaultSubaccountName s a (s.setQuery key query)

section
variable {trim : String → String} {debounceMs : Nat} {defaultSubaccountName : String}
  {s s' : Page B}

theorem arriving_cases {frame : Frame B} (h : s.arriving = some frame) :
    ∃ i n c, s.socket = .connected i n ∧ s.gateway.connections[i]? = some c ∧
      c.received[n]? = some frame := by
  unfold Page.arriving at h
  split at h
  · rename_i i n hsocket
    obtain ⟨c, hc, hframe⟩ := Option.bind_eq_some_iff.1 h
    exact ⟨i, n, c, hsocket, hc, hframe⟩
  · cases h

theorem onNotice_same (s : Page B) (frame : Frame B) :
    (s.onNotice frame).gateway = s.gateway ∧ (s.onNotice frame).queries = s.queries ∧
      (s.onNotice frame).deps = s.deps ∧ (s.onNotice frame).liveEnvelope = s.liveEnvelope := by
  unfold Page.onNotice
  split
  · exact ⟨rfl, rfl, rfl, rfl⟩
  · exact ⟨rfl, rfl, rfl, rfl⟩
  · exact ⟨rfl, rfl, rfl, rfl⟩

theorem moves_message (hs : s.message = some s') :
    Moves trim debounceMs defaultSubaccountName s .message s' := by
  obtain ⟨frame, harriving, hs⟩ := Option.map_eq_some_iff.1 hs
  obtain ⟨i, n, c, hsocket, hc, hframe⟩ := arriving_cases harriving
  cases hs
  have hnext : s.socket.handled = .connected i (n + 1) := by
    rw [hsocket]
    rfl
  cases he : normalizeEnvelope frame with
  | some e =>
    have hmessage : s.onMessage frame = { s with
        liveEnvelope := some (pickLatestEnvelope s.liveEnvelope e)
        wsRuntimeError := none } := by
      unfold Page.onMessage
      rw [he]
    rw [hmessage]
    exact .handled hsocket hc hframe rfl rfl rfl hnext (by rw [nextEnvelope, he])
  | none =>
    have hmessage : s.onMessage frame = s.onNotice frame := by
      unfold Page.onMessage
      rw [he]
    rw [hmessage]
    obtain ⟨hgateway, hqueries, hdeps, hlive⟩ := onNotice_same s frame
    exact .handled hsocket hc hframe hgateway hqueries hdeps hnext
      (by rw [nextEnvelope, he]; exact hlive)

theorem moves_effect (h : s.deps ≠ some (s.currentDeps trim)) :
    Moves trim debounceMs defaultSubaccountName s .runEffect
      (s.runEffect (s.currentDeps trim)) := by
  unfold Page.runEffect
  dsimp only
  split
  · exact .effect h rfl rfl rfl rfl fun _ _ hs => nomatch hs
  · exact .effect h rfl rfl rfl rfl fun _ _ hs => nomatch hs

theorem moves_close {a : PageAct B} : Moves trim debounceMs defaultSubaccountName s a s.onClose :=
  .quiet rfl rfl rfl rfl (.inr fun _ _ hs => nomatch hs)

theorem moves_handshake {deps : Deps} (hdeps : s.deps = some deps)
    (hs : s.handshake debounceMs defaultSubaccountName deps = some s') :
    Moves trim debounceMs defaultSubaccountName s .handshake s' := by
  unfold Page.handshake at hs
  split at hs
  · rename_i owner name hadmit
    obtain ⟨gateway, hgateway, hs⟩ := Option.map_eq_some_iff.1 hs
    cases hs
    exact .connected hdeps hadmit hgateway rfl rfl rfl rfl rfl
  · cases hs
    exact moves_close

theorem Moves.of_step {a : PageAct B}
    (hs : pageStep trim debounceMs defaultSubaccountName s a = some s') :
    Moves trim debounceMs defaultSubaccountName s a s' := by
  cases a with
  | gateway a =>
    obtain ⟨gateway, hgateway, hs⟩ := Option.map_eq_some_iff.1 hs
    cases hs
    exact .gateway hgateway
  | setCookie cookie => cases hs; exact .quiet rfl rfl rfl rfl (.inl rfl)
  | select selection => cases hs; exact .quiet rfl rfl rfl rfl (.inl rfl)
  | sessionRequest => cases hs; exact .quiet rfl rfl rfl rfl (.inl rfl)
  | sessionResponse i =>
    obtain ⟨session, -, hs⟩ := Option.map_eq_some_iff.1 hs
    cases hs
    exact .quiet rfl rfl rfl rfl (.inl rfl)
  | runEffect =>
    dsimp only [pageStep] at hs
    split at hs
    · cases hs
    · rename_i hne
      cases hs
      exact moves_effect hne
  | handshake =>
    dsimp only [pageStep] at hs
    split at hs
    · rename_i deps _ hdeps
      exact moves_handshake hdeps hs
    · cases hs
  | message => exact moves_message hs
  | close =>
    dsimp only [pageStep] at hs
    split at hs
    · cases hs; exact moves_close
    · cases hs; exact moves_close
    · cases hs
  | timer =>
    dsimp only [pageStep] at hs
    split at hs
    · cases hs; exact .quiet rfl rfl rfl rfl (.inr fun _ _ hs => nomatch hs)
    · cases hs
  | snapshotRequest =>
    dsimp only [pageStep] at hs
    split at hs
    · cases hs; exact .query .requested
    · cases hs
  | snapshotServed key =>
    dsimp only [pageStep, Page.snapshotServed] at hs
    split at hs
    · rename_i owner name hrequest
      cases hs
      exact .query (.served hrequest)
    · cases hs
  | snapshotResponse key answers =>
    dsimp only [pageStep, Page.snapshotResponse] at hs
    split at hs
    · rename_i owner name asOfMs hrequest
      split at hs
      · rename_i portfolio hfetch
        cases hs
        exact .query (.answered hrequest (Portfolio.fetchPortfolioPayload_own hfetch))
      · cases hs
        exact .query .dropped
    · cases hs
  | snapshotFailed key => cases hs; exact .query .dropped

theorem Moves.deps {a : PageAct B} (h : Moves trim debounceMs defaultSubaccountName s a s')
    (ha : a ≠ .runEffect) : s'.deps = s.deps := by
  cases h with
  | gateway _ => rfl
  | quiet _ _ _ hdeps _ => exact hdeps
  | effect _ _ _ _ _ _ => exact absurd rfl ha
  | connected _ _ _ _ _ _ hdeps _ => exact hdeps
  | handled _ _ _ _ _ hdeps _ _ => exact hdeps
  | query _ => rfl

theorem Moves.counted {a : PageAct B} (h : Moves trim debounceMs defaultSubaccountName s a s')
    (hc : Portfolio.Counted debounceMs s.gateway) :
    Portfolio.Counted debounceMs s'.gateway := by
  cases h with
  | gateway hs => exact hc.step hs
  | quiet hg _ _ _ _ => exact hg ▸ hc
  | effect _ hg _ _ _ _ => exact hg ▸ hc
  | connected _ _ hs hg _ _ _ _ => exact hg ▸ hc.step hs
  | handled _ _ _ hg _ _ _ _ => exact hg ▸ hc
  | query _ => exact hc

end

end Client.PortfolioData
