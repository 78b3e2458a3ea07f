import Thornado.Orderbook.Subscribers
import Thornado.Orderbook.Upstream

/-!
# What subscribers of a market are told

Every change of the book is followed by its message, also that of a session's first snapshot and
of a delta that came in before it; nothing that can fail stands in between.

* `subscribers_caught_up`: whenever the worker is idle, a client that has consumed its messages
  shows the book, whatever it missed while it was joining.
-/

namespace Orderbook

open Rust Rust.Json Transition

variable {F : Type}

section
variable [F64 F]

/-- The message shows the state of the version. -/
def Hub.Shows (h : Hub F) (message : ServerMessage F) (version : Nat) : Prop :=
  ∃ state, (h.past ++ [h.market.state])[version]? = some state ∧
    message.depth = state.depthView h.market.depth

/-- What a client has that consumed its messages. -/
structure CaughtUp (h : Hub F) (c : Subscriber F) : Prop where
  current : clientBook c.received = some h.depthView ∨
    clientBook c.received = none ∧ h.market.state.isEmpty = true
  /-- A change since it was registered was announced to it. -/
  announced : ∀ version, c.joined < version → version ≤ h.past.length →
    ∃ message, .book message version ∈ c.queue

/-! ## The invariant -/

/-- The depth that is to be sent, once it is read from the state. -/
def Phase.depth : Phase F → Option (DepthView F)
  | .applied _ _ _ depth => some depth
  | .numbered message => some message.depth
  | _ => none

structure Told (h : Hub F) (c : Subscriber F) : Prop where
  shows : ∀ message version, .book message version ∈ c.received → h.Shows message version
  announced : ∀ version, c.joined < version → version ≤ h.past.length →
    (∃ message, .book message version ∈ c.queue) ∨ version = h.past.length ∧ h.phase ≠ .idle
  current : h.phase = .idle → ∀ depth, clientBook c.received = some depth → depth = h.depthView
  /-- A client that was told to wait, and was sent no book since. -/
  empty : h.phase = .idle → c.snapshot.isSome → clientBook c.received = none →
    h.market.state.isEmpty = true

structure HubInv (h : Hub F) : Prop where
  pending : ∀ depth ∈ h.phase.depth, depth = h.depthView
  told : ∀ c ∈ h.subscribers, c.closed = false → Told h c

section
variable {h h' : Hub F} {c : Subscriber F}

theorem shows_now {message : ServerMessage F} (hdepth : message.depth = h.depthView) :
    h.Shows message h.past.length :=
  ⟨h.market.state, by rw [List.getElem?_concat_length], hdepth⟩

/-- A version that was shown is never rewritten. -/
theorem Hub.Shows.write {message : ServerMessage F} {version : Nat} (hs : h.Shows message version)
    (state : OrderBookState) (phase : Phase F) : (h.write state phase).Shows message version := by
  obtain ⟨old, hold, hdepth⟩ := hs
  refine ⟨old, ?_, hdepth⟩
  show (h.past ++ [h.market.state] ++ [state])[version]? = some old
  rw [List.getElem?_append_left (List.getElem?_eq_some_iff.1 hold).1]
  exact hold

theorem HubInv.due_depth (hinv : HubInv h) {message : ServerMessage F}
    (hdue : h.due = some message) : message.depth = h.depthView := by
  unfold Hub.due at hdue
  split at hdue
  · cases hdue
    rfl
  · rename_i hphase
    cases hdue
    refine hinv.pending _ ?_
    rw [hphase]
    rfl
  · cases hdue

/-- Steps that change neither the book nor what the client has. -/
theorem Told.frame (ht : Told h c) (hpast : h'.past = h.past)
    (hstate : h'.market.state = h.market.state) (hdepth : h'.market.depth = h.market.depth)
    (hphase : h'.phase = .idle → h.phase = .idle) : Told h' c := by
  have hview : h'.depthView = h.depthView := by
    unfold Hub.depthView
    rw [hstate, hdepth]
  refine ⟨fun message version hmem => ?_, fun version hjoined hle => ?_, fun hidle => ?_,
    fun hidle => ?_⟩
  · have hs := ht.shows message version hmem
    unfold Hub.Shows at hs ⊢
    rw [hpast, hstate, hdepth]
    exact hs
  · rw [hpast] at hle ⊢
    exact (ht.announced version hjoined hle).imp_right fun hnow => ⟨hnow.1, mt hphase hnow.2⟩
  · rw [hview]
    exact ht.current (hphase hidle)
  · rw [hstate]
    exact ht.empty (hphase hidle)

/-- A change of the book, while nothing is pending. -/
theorem Told.write (ht : Told h c) (hidle : h.phase = .idle) {state : OrderBookState}
    {phase : Phase F} (hbusy : phase ≠ .idle) : Told (h.write state phase) c := by
  refine ⟨fun message version hmem => (ht.shows message version hmem).write state phase,
    fun version hjoined hle => ?_, fun hnow => absurd hnow hbusy, fun hnow => absurd hnow hbusy⟩
  have hlen : (h.write state phase).past.length = h.past.length + 1 := List.length_append
  rw [hlen] at hle ⊢
  by_cases hnew : version = h.past.length + 1
  · exact .inr ⟨hnew, hbusy⟩
  · exact .inl ((ht.announced version hjoined (by omega)).resolve_right fun hnow => hnow.2 hidle)

/-- The message of the last change is sent. -/
theorem Told.emit (ht : Told h c) {message : ServerMessage F}
    (hdepth : message.depth = h.depthView) (phase : Phase F) :
    Told { h with phase := phase }
      { c with queue := c.queue ++ [.book message h.past.length] } := by
  have hreceived := received_append c (.book message h.past.length)
  have hbook : clientBook (c.received ++ [.book message h.past.length]) = some message.depth := by
    rw [clientBook_append]
    rfl
  refine ⟨fun m version hmem => ?_, fun version hjoined hle => ?_, fun _ depth hshown => ?_,
    fun _ _ hnone => ?_⟩
  · rw [hreceived] at hmem
    rcases List.mem_append.1 hmem with hold | hnew
    · exact ht.shows m version hold
    · cases List.mem_singleton.1 hnew
      exact shows_now hdepth
  · left
    rcases ht.announced version hjoined hle with ⟨m, hm⟩ | ⟨rfl, -⟩
    · exact ⟨m, List.mem_append_left _ hm⟩
    · exact ⟨message, List.mem_append_right _ (List.mem_singleton.2 rfl)⟩
  · rw [hreceived, hbook] at hshown
    cases hshown
    exact hdepth
  · rw [hreceived, hbook] at hnone
    cases hnone

/-- A status leaves the client's book alone. -/
theorem Told.emitStatus (ht : Told h c) (symbol : String) (productId : UInt32)
    (status detail : String) :
    Told h { c with queue := c.queue ++ [.status symbol productId status detail] } := by
  have hreceived := received_append c (.status symbol productId status detail)
  have hbook : clientBook (c.received ++ [.status symbol productId status detail]) =
      clientBook c.received := by
    rw [clientBook_append]
    rfl
  refine ⟨fun message version hmem => ?_, fun version hjoined hle => ?_, ?_, ?_⟩
  · rw [hreceived] at hmem
    rcases List.mem_append.1 hmem with hold | hnew
    · exact ht.shows message version hold
    · cases List.mem_singleton.1 hnew
  · exact (ht.announced version hjoined hle).imp_left fun ⟨m, hm⟩ =>
      ⟨m, List.mem_append_left _ hm⟩
  · rw [hreceived, hbook]
    exact ht.current
  · rw [hreceived, hbook]
    exact ht.empty

theorem Told.register (h : Hub F) (id : Nat) : Told h { id := id, joined := h.past.length } := by
  refine ⟨fun message version hmem => (nomatch hmem), fun version hjoined hle => ?_,
    fun _ depth hshown => (nomatch hshown), fun _ hsome => (nomatch hsome)⟩
  exact absurd hle (Nat.not_le.2 hjoined)

/-- The book a client gets first; what it was sent since it was registered comes after it. -/
theorem Told.takeSnapshot (ht : Told h c) (hnone : c.snapshot = none) {message : ServerMessage F}
    (hdepth : message.depth = h.depthView) :
    Told h { c with snapshot := some (.book message h.past.length) } := by
  have hreceived := received_first hnone (.book message h.past.length)
  have hbook : clientBook (.book message h.past.length :: c.received) =
      (clientBook c.received).or (some message.depth) :=
    clientBook_append [.book message h.past.length] c.received
  refine ⟨fun m version hmem => ?_, ht.announced, fun hidle depth hshown => ?_,
    fun _ _ hempty => ?_⟩
  · rw [hreceived] at hmem
    rcases List.mem_cons.1 hmem with hnew | hold
    · cases hnew
      exact shows_now hdepth
    · exact ht.shows m version hold
  · rw [hreceived, hbook] at hshown
    cases hold : clientBook c.received with
    | none =>
      rw [hold] at hshown
      cases hshown
      exact hdepth
    | some shown =>
      rw [hold] at hshown
      cases hshown
      exact ht.current hidle _ hold
  · rw [hreceived, hbook] at hempty
    cases hold : clientBook c.received with
    | none =>
      rw [hold] at hempty
      cases hempty
    | some shown =>
      rw [hold] at hempty
      cases hempty

/-- A client that is told to wait. -/
theorem Told.warmUp (ht : Told h c) (hnone : c.snapshot = none)
    (hempty : h.market.state.isEmpty = true) (symbol : String) (productId : UInt32)
    (status detail : String) :
    Told h { c with snapshot := some (.status symbol productId status detail) } := by
  have hreceived := received_first hnone (.status symbol productId status detail)
  refine ⟨fun message version hmem => ?_, ht.announced, ?_, fun _ _ _ => hempty⟩
  · rw [hreceived] at hmem
    rcases List.mem_cons.1 hmem with hnew | hold
    · cases hnew
    · exact ht.shows message version hold
  · rw [hreceived]
    exact ht.current

/-! ## The steps -/

theorem HubInv.step {a : HubAct} (hinv : HubInv h) (hstep : Moves h a h') : HubInv h' := by
  cases hstep with
  | rest live =>
    exact ⟨hinv.pending, fun c hc hopen => (hinv.told c hc hopen).frame rfl rfl rfl id⟩
  | reset state sourceTs live hidle =>
    refine ⟨fun depth hdepth => (nomatch hdepth), fun c hc hopen => ?_⟩
    have hwritten : Told (h.write state (.reset sourceTs)) c :=
      (hinv.told c hc hopen).write hidle fun hnow => (nomatch hnow)
    exact hwritten.frame rfl rfl rfl id
  | apply state sourceTs minTs maxTs hidle =>
    refine ⟨fun depth hdepth => ?_, fun c hc hopen => ?_⟩
    · cases hdepth
      rfl
    · exact (hinv.told c hc hopen).write hidle fun hnow => (nomatch hnow)
  | number message hdue =>
    refine ⟨fun depth hdepth => ?_, fun c hc hopen => ?_⟩
    · cases hdepth
      exact hinv.due_depth hdue
    · exact (hinv.told c hc hopen).frame rfl rfl rfl fun hnow => (nomatch hnow)
  | emit message hnumbered =>
    refine ⟨fun depth hdepth => (nomatch hdepth), fun c' hc' _ => ?_⟩
    obtain ⟨c, hc, hopen, rfl⟩ := mem_emit hc'
    have hdepth : message.depth = h.depthView := by
      refine hinv.pending _ ?_
      rw [hnumbered]
      rfl
    exact ((hinv.told c hc hopen).emit hdepth .idle).frame rfl rfl rfl id
  | status symbol productId status detail hidle =>
    refine ⟨hinv.pending, fun c' hc' _ => ?_⟩
    obtain ⟨c, hc, hopen, rfl⟩ := mem_emit hc'
    exact ((hinv.told c hc hopen).emitStatus ..).frame rfl rfl rfl id
  | register next =>
    refine ⟨hinv.pending, fun c hc hopen => ?_⟩
    rcases List.mem_append.1 hc with hold | hnew
    · exact (hinv.told c (List.mem_filter.1 hold).1 hopen).frame rfl rfl rfl id
    · rw [List.mem_singleton.1 hnew]
      exact (Told.register h _).frame rfl rfl rfl id
  | warmUp id symbol productId status detail hempty =>
    refine ⟨hinv.pending, fun c' hc' hopen => ?_⟩
    rcases mem_give hc' with hc | ⟨c, hc, -, hnone, rfl⟩
    · exact (hinv.told c' hc hopen).frame rfl rfl rfl fun hnow => hnow
    · exact ((hinv.told c hc hopen).warmUp hnone hempty ..).frame rfl rfl rfl fun hnow => hnow
  | snapshot id message hfull hmessage =>
    obtain ⟨-, rfl⟩ := snapshotMessage_eq_some.1 hmessage
    refine ⟨hinv.pending, fun c' hc' hopen => ?_⟩
    rcases mem_give hc' with hc | ⟨c, hc, -, hnone, rfl⟩
    · exact (hinv.told c' hc hopen).frame rfl rfl rfl fun hnow => hnow
    · exact ((hinv.told c hc hopen).takeSnapshot hnone rfl).frame rfl rfl rfl fun hnow => hnow
  | leave subscribers hsub =>
    exact ⟨hinv.pending, fun c hc hopen =>
      (hinv.told c (hsub c hc hopen) hopen).frame rfl rfl rfl id⟩

end

variable [UnicodeCase] {json : SerdeJson F}

/-- **Subscribers are caught up** whenever the worker is between two steps, in every run; what they
were sent are books the market has had, at any time. -/
theorem subscribers_caught_up {h : Hub F} (hr : Reach (hubStep json) anyStep HubStart h)
    {c : Subscriber F} (hc : c ∈ h.subscribers) (hopen : c.closed = false) :
    (∀ message version, .book message version ∈ c.received → h.Shows message version) ∧
      (h.phase = .idle → c.snapshot.isSome → CaughtUp h c) := by
  have hinv : HubInv h := by
    refine hr.inv (fun h₀ h0 => ?_) fun _ _ _ hinv _ hstep => hinv.step (hubStep_moves hstep)
    obtain ⟨symbol, productId, depth, rfl⟩ := h0
    exact ⟨fun depth hdepth => (nomatch hdepth), fun c hc => (nomatch hc)⟩
  have ht := hinv.told c hc hopen
  refine ⟨ht.shows, fun hidle hsome => ⟨?_, fun version hjoined hle => ?_⟩⟩
  · cases hbook : clientBook c.received with
    | none => exact .inr ⟨rfl, ht.empty hidle hsome hbook⟩
    | some shown =>
      rw [ht.current hidle shown hbook]
      exact .inl rfl
  · exact (ht.announced version hjoined hle).resolve_right fun hnow => hnow.2 hidle

end

/-! ## A client that joins before the first snapshot, and one that joins late -/

section
attribute [local instance] asciiCase

def lobby : Hub Rat where
  market := sweepMarket

theorem lobby_start : HubStart lobby := ⟨_, _, _, rfl⟩

/-- Client 1 is told to wait; client 2 is registered before the sweep is announced and makes its
first message after it. Then a session fails, and the next one starts from a new snapshot. -/
def lobbyActs : List HubAct :=
  [.emitStatus "connecting" "connecting to nado", .register, .takeSnapshot 1,
    .load (sweepSnapshot 2), .number, .emit, .text sweepText, .register, .number, .emit,
    .takeSnapshot 2, .fail, .emitStatus "reconnecting" "upstream websocket closed: None",
    .load (sweepSnapshot 4), .number, .emit]

/-- Whether the worker is idle, and each client's number of queued messages, whether it left, and
whether it has its first message. -/
def lobbyView (h : Hub Rat) : Bool × List (Nat × Bool × Bool) :=
  (match h.phase with
    | .idle => true
    | _ => false,
    h.subscribers.map fun c => (c.queue.length, c.closed, c.snapshot.isSome))

theorem subscribers_caught_up_lobby : ∃ h,
    run (hubStep sweepJson) anyStep lobby lobbyActs = some h ∧
    lobbyView h = (true, [(4, false, true), (3, false, true)]) ∧
    ∀ c ∈ h.subscribers, CaughtUp h c := by
  have hrun : (run (hubStep sweepJson) anyStep lobby lobbyActs).map lobbyView =
      some (true, [(4, false, true), (3, false, true)]) := by
    decide +kernel
  obtain ⟨h, hh, hview⟩ := Option.map_eq_some_iff.1 hrun
  refine ⟨h, hh, hview, fun c hc => ?_⟩
  obtain ⟨hphase, hclients⟩ := Prod.mk.inj hview
  have hidle : h.phase = .idle := by
    split at hphase
    · assumption
    · cases hphase
  have hmem : (c.queue.length, c.closed, c.snapshot.isSome) ∈
      [(4, false, true), (3, false, true)] := by
    rw [← hclients]
    exact List.mem_map_of_mem hc
  have hclient : c.closed = false ∧ c.snapshot.isSome = true := by
    simp only [List.mem_cons, List.not_mem_nil, or_false, Prod.mk.injEq] at hmem
    obtain h | h := hmem
    · exact h.2
    · exact h.2
  have hr : Reach (hubStep sweepJson) anyStep HubStart h :=
    Reach.of_run (.start lobby_start) hh
  exact (subscribers_caught_up hr hc hclient.1).2 hidle hclient.2

end

end Orderbook
