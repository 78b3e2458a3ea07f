import Thornado.Orderbook.Announce

/-!
# The order of what a client is sent

A client is registered before its first message is made, so that it misses nothing; what is
announced in between waits in its queue, and comes after a message that has a later number.

* `delivered_in_order`: the runs in which every first message is made in time.
* `snapshot_in_order_iff`: a first message that is made later is out of order.
* `snapshot_overtakes`: a run in which the client's book goes back to an older one.
-/

namespace Orderbook

open Rust Rust.Json Transition

variable {F : Type}

/-- Of two books the second one has the greater number, and is not older. -/
def Delivery.Before : Delivery F → Delivery F → Prop
  | .book message version, .book message' version' =>
    message.seq < message'.seq ∧ version ≤ version'
  | _, _ => True

/-- Every client gets its messages in order. -/
def Ordered (h : Hub F) : Prop :=
  ∀ c ∈ h.subscribers, c.closed = false → c.received.Pairwise Delivery.Before

def Delivery.isBook : Delivery F → Bool
  | .book .. => true
  | .status .. => false

/-- The message that has a number and is still to be sent. -/
def Hub.unsent (h : Hub F) : List (Delivery F) :=
  match h.phase with
  | .numbered message => [.book message h.past.length]
  | _ => []

/-- A client's first message is made while no numbered message waits for it, neither in its queue
nor with the worker. (Besides: the counter does not wrap around.) -/
def InTime (h : Hub F) : HubAct → Prop
  | .number => h.market.seq + 1 < 2 ^ 64
  | .takeSnapshot id => h.market.state.isEmpty = false →
    h.market.seq + 1 < 2 ^ 64 ∧
      ∀ c ∈ h.subscribers, c.id = id → c.closed = false → c.snapshot.isNone →
        ∀ message ∈ c.queue ++ h.unsent, message.isBook = false
  | _ => True

/-! ## Messages in order -/

/-- These messages are in order, have numbers below `seq`, and show versions up to `last`. -/
structure InOrder (seq last : Nat) (messages : List (Delivery F)) : Prop where
  ordered : messages.Pairwise Delivery.Before
  below : ∀ message version, .book message version ∈ messages →
    message.seq < seq ∧ version ≤ last

namespace InOrder

variable {seq last : Nat} {messages : List (Delivery F)}

theorem nil : InOrder seq last ([] : List (Delivery F)) :=
  ⟨.nil, fun _ _ hmem => nomatch hmem⟩

theorem mono (ho : InOrder seq last messages) {seq' last' : Nat} (hseq : seq ≤ seq')
    (hlast : last ≤ last') : InOrder seq' last' messages :=
  ⟨ho.ordered, fun message version hmem => by
    obtain ⟨hs, hv⟩ := ho.below message version hmem
    exact ⟨by omega, by omega⟩⟩

/-- The next number goes to a message at the end. -/
theorem append_book (ho : InOrder seq last messages) {message : ServerMessage F}
    (hseq : message.seq = seq) : InOrder (seq + 1) last (messages ++ [.book message last]) := by
  refine ⟨List.pairwise_append.2 ⟨ho.ordered, List.pairwise_singleton .., fun m hm m' hm' => ?_⟩,
    fun m version hmem => ?_⟩
  · cases List.mem_singleton.1 hm'
    cases m with
    | status => trivial
    | book m version =>
      obtain ⟨hs, hv⟩ := ho.below m version hm
      exact ⟨by omega, hv⟩
  · rcases List.mem_append.1 hmem with hold | hnew
    · obtain ⟨hs, hv⟩ := ho.below m version hold
      exact ⟨by omega, hv⟩
    · cases List.mem_singleton.1 hnew
      exact ⟨by omega, Nat.le_refl _⟩

/-- At the front the next number is in order only if no other message has one. -/
theorem cons_book_iff (ho : InOrder seq last messages) {message : ServerMessage F}
    (hseq : message.seq = seq) :
    (.book message last :: messages).Pairwise Delivery.Before ↔
      ∀ m ∈ messages, m.isBook = false := by
  rw [List.pairwise_cons]
  constructor
  · intro ⟨hfirst, _⟩ m hm
    cases m with
    | status => rfl
    | book m version =>
      have hnumber := (hfirst _ hm).1
      have hbelow := (ho.below m version hm).1
      omega
  · intro hnone
    refine ⟨fun m hm => ?_, ho.ordered⟩
    cases m with
    | status => trivial
    | book => exact nomatch hnone _ hm

theorem cons_book (ho : InOrder seq last messages) {message : ServerMessage F}
    (hseq : message.seq = seq) (hnone : ∀ m ∈ messages, m.isBook = false) :
    InOrder (seq + 1) last (.book message last :: messages) := by
  refine ⟨(ho.cons_book_iff hseq).2 hnone, fun m version hmem => ?_⟩
  rcases List.mem_cons.1 hmem with hnew | hold
  · cases hnew
    exact ⟨by omega, Nat.le_refl _⟩
  · exact nomatch hnone _ hold

/-- A status may come anywhere. -/
theorem insert_status (earlier : List (Delivery F)) {later : List (Delivery F)}
    (ho : InOrder seq last (earlier ++ later)) {status : Delivery F}
    (hstatus : status.isBook = false) : InOrder seq last (earlier ++ status :: later) := by
  cases status with
  | book => cases hstatus
  | status symbol productId status detail =>
    obtain ⟨hearlier, hlater, hboth⟩ := List.pairwise_append.1 ho.ordered
    refine ⟨List.pairwise_append.2 ⟨hearlier, List.pairwise_cons.2 ⟨fun _ _ => trivial, hlater⟩,
      fun m hm m' hm' => ?_⟩, fun m version hmem => ho.below m version ?_⟩
    · rcases List.mem_cons.1 hm' with rfl | hold
      · cases m with
        | book => trivial
        | status => trivial
      · exact hboth m hm m' hold
    · rcases List.mem_append.1 hmem with hold | hnew
      · exact List.mem_append_left _ hold
      · rcases List.mem_cons.1 hnew with hstatus | hold
        · cases hstatus
        · exact List.mem_append_right _ hold

end InOrder

/-! ## The steps -/

structure OrderInv (h : Hub F) : Prop where
  /-- Of a client that joins now. -/
  joining : InOrder h.market.seq h.past.length h.unsent
  clients : ∀ c ∈ h.subscribers, c.closed = false →
    InOrder h.market.seq h.past.length (c.received ++ h.unsent)

theorem nextSeq_eq {seq : Nat} (h : seq + 1 < 2 ^ 64) : nextSeq seq = seq + 1 :=
  Nat.mod_eq_of_lt h

section
variable {h h' : Hub F}

theorem unsent_idle (hidle : h.phase = .idle) : h.unsent = [] := by
  unfold Hub.unsent
  rw [hidle]

/-- A step that sends nothing. -/
theorem OrderInv.frame (hinv : OrderInv h) (hunsent : h'.unsent = h.unsent)
    (hseq : h.market.seq ≤ h'.market.seq) (hpast : h.past.length ≤ h'.past.length)
    (hclients : ∀ c ∈ h'.subscribers, c.closed = false → c ∈ h.subscribers) : OrderInv h' := by
  refine ⟨?_, fun c hc hopen => ?_⟩
  · rw [hunsent]
    exact hinv.joining.mono hseq hpast
  · rw [hunsent]
    exact (hinv.clients c (hclients c hc hopen) hopen).mono hseq hpast

variable [F64 F]

theorem unsent_due {message : ServerMessage F} (hdue : h.due = some message) :
    h.unsent = [] ∧ message.seq = h.market.seq := by
  unfold Hub.due at hdue
  unfold Hub.unsent
  split at hdue
  · rename_i hphase
    rw [hphase]
    cases hdue
    exact ⟨rfl, rfl⟩
  · rename_i hphase
    rw [hphase]
    cases hdue
    exact ⟨rfl, rfl⟩
  · cases hdue

theorem OrderInv.step {a : HubAct} (hinv : OrderInv h) (hok : InTime h a) (hstep : Moves h a h') :
    OrderInv h' := by
  cases hstep with
  | rest live => exact hinv.frame rfl (Nat.le_refl _) (Nat.le_refl _) fun _ hc _ => hc
  | reset state sourceTs live hidle =>
    refine hinv.frame (unsent_idle hidle).symm (Nat.le_refl _) ?_ fun _ hc _ => hc
    exact (List.sublist_append_left ..).length_le
  | apply state sourceTs minTs maxTs hidle =>
    refine hinv.frame (unsent_idle hidle).symm (Nat.le_refl _) ?_ fun _ hc _ => hc
    exact (List.sublist_append_left ..).length_le
  | number message hdue =>
    obtain ⟨hunsent, hseq⟩ := unsent_due hdue
    obtain ⟨hjoining, hclients⟩ := hinv
    simp only [hunsent, List.append_nil] at hjoining hclients
    rw [nextSeq_eq hok]
    exact ⟨hjoining.append_book hseq, fun c hc hopen => (hclients c hc hopen).append_book hseq⟩
  | emit message hnumbered =>
    have hunsent : h.unsent = [.book message h.past.length] := by
      unfold Hub.unsent
      rw [hnumbered]
    refine ⟨.nil, fun c' hc' _ => ?_⟩
    obtain ⟨c, hc, hopen, rfl⟩ := mem_emit hc'
    have ho := hinv.clients c hc hopen
    rw [hunsent] at ho
    rw [received_append, unsent_idle rfl, List.append_nil]
    exact ho
  | status symbol productId status detail hidle =>
    refine ⟨hinv.joining, fun c' hc' _ => ?_⟩
    obtain ⟨c, hc, hopen, rfl⟩ := mem_emit hc'
    rw [received_append, List.append_assoc]
    exact (hinv.clients c hc hopen).insert_status c.received rfl
  | register next =>
    refine ⟨hinv.joining, fun c hc hopen => ?_⟩
    rcases List.mem_append.1 hc with hold | hnew
    · exact hinv.clients c (List.mem_filter.1 hold).1 hopen
    · rw [List.mem_singleton.1 hnew]
      exact hinv.joining
  | warmUp id symbol productId status detail hempty =>
    refine ⟨hinv.joining, fun c' hc' hopen => ?_⟩
    rcases mem_give hc' with hc | ⟨c, hc, -, hnone, rfl⟩
    · exact hinv.clients c' hc hopen
    · rw [received_first hnone]
      exact (hinv.clients c hc hopen).insert_status [] rfl
  | snapshot id message hfull hmessage =>
    obtain ⟨hroom, htime⟩ := hok hfull
    obtain ⟨-, rfl⟩ := snapshotMessage_eq_some.1 hmessage
    have hnext : nextSeq h.market.seq = h.market.seq + 1 := nextSeq_eq hroom
    have hle : h.market.seq ≤ nextSeq h.market.seq := by omega
    refine ⟨hinv.joining.mono hle (Nat.le_refl _), fun c' hc' hopen => ?_⟩
    rw [hnext]
    rcases mem_give hc' with hc | ⟨c, hc, rfl, hnone, rfl⟩
    · exact (hinv.clients c' hc hopen).mono (Nat.le_succ _) (Nat.le_refl _)
    · have hfree := htime c hc rfl hopen (Option.isNone_iff_eq_none.2 hnone)
      rw [← received_waiting hnone] at hfree
      rw [received_first hnone]
      exact (hinv.clients c hc hopen).cons_book rfl hfree
  | leave subscribers hsub => exact hinv.frame rfl (Nat.le_refl _) (Nat.le_refl _) hsub

variable [UnicodeCase] {json : SerdeJson F}

/-- **A first message made too late is out of order**: with what is queued, and with the message
that the worker is about to send. -/
theorem snapshot_in_order_iff (hinv : OrderInv h) {id : Nat}
    (hstep : hubStep json h (.takeSnapshot id) = some h')
    (hroom : h.market.seq + 1 < 2 ^ 64) :
    (∀ c ∈ h'.subscribers, c.closed = false →
      (c.received ++ h'.unsent).Pairwise Delivery.Before) ↔ InTime h (.takeSnapshot id) := by
  constructor
  · intro hordered hfull
    refine ⟨hroom, fun c hc hid hopen hnone => ?_⟩
    have hmessage := snapshotMessage_eq_some.2 ⟨hfull, rfl⟩
    simp only [hubStep, hmessage] at hstep
    cases hstep
    have hwaiting := received_waiting (Option.isNone_iff_eq_none.1 hnone)
    have hfirst := hordered _ (mem_give_of hc hid hnone) hopen
    rw [received_first (Option.isNone_iff_eq_none.1 hnone)] at hfirst
    rw [← hwaiting]
    exact ((hinv.clients c hc hopen).cons_book_iff rfl).1 hfirst
  · intro hok c hc hopen
    exact ((hinv.step hok (hubStep_moves hstep)).clients c hc hopen).ordered

/-- **Messages are delivered in order** in every run in which each client's first message is made
in time. -/
theorem delivered_in_order (hr : Reach (hubStep json) InTime HubStart h) : Ordered h := by
  have hinv : OrderInv h := by
    refine hr.inv (fun h₀ h0 => ?_) fun _ _ _ hinv hok hstep => hinv.step hok (hubStep_moves hstep)
    obtain ⟨symbol, productId, depth, rfl⟩ := h0
    exact ⟨.nil, fun c hc => (nomatch hc)⟩
  exact fun c hc hopen => (hinv.clients c hc hopen).ordered.sublist (List.sublist_append_left ..)

end

/-! ## A client that joins while deltas come in -/

section
attribute [local instance] asciiCase

/-- A second ask, at 101. -/
def askText : String :=
  "\x7b\"type\":\"book_depth\",\"product_id\":2,\"last_max_timestamp\":\"2\"," ++
    "\"min_timestamp\":\"3\",\"max_timestamp\":\"3\",\"bids\":[],\"asks\":[[\"101\",\"7\"]]\x7d"

def askValue : Value Rat :=
  .object [("type", .string "book_depth"), ("product_id", .number (.posInt 2)),
    ("last_max_timestamp", .string "2"), ("min_timestamp", .string "3"),
    ("max_timestamp", .string "3"), ("bids", .array []),
    ("asks", .array [.array [.string "101", .string "7"]])]

def askJson : SerdeJson Rat where
  fromStr text := if text = askText then .ok askValue else .error "expected value"
  display _ := ""

/-- A session starts and gets the delta. A client is registered before it, and makes its first
message after so many steps of the worker. -/
def joinActs (steps : Nat) : List HubAct :=
  let worker : List HubAct :=
    [.load (sweepSnapshot 2), .number, .emit, .text askText, .number, .emit]
  .register :: (worker.take steps ++ .takeSnapshot 1 :: worker.drop steps)

/-- The numbers and the versions the first client receives. -/
def stamps (h : Hub Rat) : List (List (Nat × Nat)) :=
  h.subscribers.map fun c => c.received.filterMap fun
    | .book message version => some (message.seq, version)
    | .status .. => none

instance (h : Hub F) (a : HubAct) : Decidable (InTime h a) := by
  unfold InTime
  split
  all_goals infer_instance

/-- The first message is made between the reset and its announcement. -/
theorem delivered_in_order_join : ∃ h,
    run (hubStep askJson) InTime lobby (joinActs 1) = some h ∧
    stamps h = [[(1, 1), (2, 1), (3, 2)]] ∧ Ordered h := by
  have hrun : (run (hubStep askJson) InTime lobby (joinActs 1)).map stamps =
      some [[(1, 1), (2, 1), (3, 2)]] := by
    decide +kernel
  obtain ⟨h, hh, hstamps⟩ := Option.map_eq_some_iff.1 hrun
  exact ⟨h, hh, hstamps, delivered_in_order (Reach.of_run (.start lobby_start) hh)⟩

instance : (m m' : Delivery F) → Decidable (m.Before m')
  | .book .., .book .. => inferInstanceAs (Decidable (_ ∧ _))
  | .status .., _ => isTrue trivial
  | .book .., .status .. => isTrue trivial

instance (h : Hub F) : Decidable (Ordered h) := by
  unfold Ordered
  infer_instance

/-- **A late first message overtakes two announcements**: the client shows the second book, then
the first one, then the second one again. -/
theorem snapshot_overtakes :
    ¬ ∀ h, Reach (hubStep askJson) anyStep HubStart h → Ordered h := by
  intro hordered
  have hrun : (run (hubStep askJson) anyStep lobby (joinActs 6)).map (fun h =>
      (stamps h, decide (Ordered h))) = some ([[(3, 2), (1, 1), (2, 2)]], false) := by
    decide +kernel
  obtain ⟨h, hh, hseen⟩ := Option.map_eq_some_iff.1 hrun
  have hlate : ¬ Ordered h := of_decide_eq_false (Prod.mk.inj hseen).2
  exact hlate (hordered h (Reach.of_run (.start lobby_start) hh))

end

end Orderbook
