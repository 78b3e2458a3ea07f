import Thornado.Lib.Concat
import Thornado.Lib.Gate
import Thornado.Lib.Transition
import Thornado.Markets.Service

/-!
# The pollers and the broadcast channel

The three pollers of the markets service run side by side. A round of one of them has steps that
other pollers' steps may come between: replacing its source map (under the write lock), rebuilding
the rows and taking a sequence number (under the write lock again), and sending the message (with
no lock held). `bootstrap` makes the same refreshes one after the other before the pollers start.

* `Start`: where the pollers start.
* `feed_in_order`: the feed is in sequence order as long as every poller that sends holds the
  oldest message not sent yet, and a send out of that order puts the feed out of order.
* `feed_out_of_order`: nothing in the service makes them send in that order.
-/

namespace Markets

open Rust Std Transition

variable {F : Type}

/-! ## The system -/

inductive Poller where
  | symbols
  | tickers
  | contracts
  deriving DecidableEq

def Poller.name : Poller → String
  | .symbols => "symbols"
  | .tickers => "tickers"
  | .contracts => "contracts"

/-- What an upstream query answers to the poller that asked. -/
inductive Response (F : Type) where
  | symbols (response : Except String (List SymbolData))
  | tickers (response : Except String (List (TickerData F)))
  | contracts (response : Except String (List (ContractData F)))

def Response.poller : Response F → Poller
  | .symbols _ => .symbols
  | .tickers _ => .tickers
  | .contracts _ => .contracts

/-- Where a poller is in its round. -/
inductive Phase (F : Type) where
  | idle
  | refreshed
  | sending (message : ServerMessage F)

/-- A replacement of the rows, with the message built for it. -/
structure Publication (F : Type) where
  message : ServerMessage F
  rows : Rows F

/-- The service, its pollers and its channel (every message sent, oldest first). `published` is
the history of the replacements of the rows; no step reads it. -/
structure Sys (F : Type) where
  state : ServiceState F := {}
  phase : Poller → Phase F := fun _ => .idle
  channel : List (ServerMessage F) := []
  published : List (Publication F) := []

def Sys.setPhase (s : Sys F) (p : Poller) (phase : Phase F) : Sys F :=
  { s with phase := Function.update s.phase p phase }

inductive Act (F : Type) where
  | refresh (response : Response F) (now statusNow : Nat)
  | rebuild (p : Poller) (now : Nat)
  | send (p : Poller)

section
variable [UnicodeCase]

def refresh (response : Response F) (now : Nat) (state : ServiceState F) :
    Except String (ServiceState F) :=
  match response with
  | .symbols response => refreshSymbols response now state
  | .tickers response => refreshTickers response now state
  | .contracts response => refreshContracts response now state

/-- `emit_status` after a failed refresh. -/
def degraded (p : Poller) (err : String) (statusNow : Nat) : ServerMessage F :=
  .status "degraded" (p.name ++ " refresh failed: " ++ err) statusNow

variable [F64 F]

/-- One step of one poller. -/
def step (config : Config F) (s : Sys F) : Act F → Option (Sys F)
  | .refresh response now statusNow =>
    match s.phase response.poller with
    | .idle =>
      match refresh response now s.state with
      | .ok state => some ({ s with state := state }.setPhase response.poller .refreshed)
      | .error err =>
        some { s with channel := s.channel ++ [degraded response.poller err statusNow] }
    | _ => none
  | .rebuild p now =>
    match s.phase p with
    | .refreshed =>
      match rebuildAndPublish config now s.state with
      | (state, none) => some ({ s with state := state }.setPhase p .idle)
      | (state, some message) =>
        some ({ s with
          state := state
          published := s.published ++ [Publication.mk message state.markets] }.setPhase p
            (.sending message))
    | _ => none
  | .send p =>
    match s.phase p with
    | .sending message => some ({ s with channel := s.channel ++ [message] }.setPhase p .idle)
    | _ => none

/-- A refresh of `bootstrap` with the rebuild after it: nothing comes in between. -/
def refreshAndPublish (config : Config F) (response : Response F) (now rebuildNow : Nat)
    (s : Sys F) : Except String (Sys F) := do
  let state ← refresh response now s.state
  match rebuildAndPublish config rebuildNow state with
  | (state, none) => return { s with state := state }
  | (state, some message) =>
    return { s with
      state := state
      channel := s.channel ++ [message]
      published := s.published ++ [Publication.mk message state.markets] }

/-- A refresh that `bootstrap` does without if it fails. -/
def tryRefresh (config : Config F) (response : Response F) (now rebuildNow : Nat) (s : Sys F) :
    Sys F :=
  match refreshAndPublish config response now rebuildNow s with
  | .ok s => s
  | .error err => { s with channel := s.channel ++
      [.status "degraded" (response.poller.name ++ " bootstrap failed: " ++ err) rebuildNow] }

/-- `bootstrap`, with the answers of the exchange and the readings of the clock. -/
def bootstrap (config : Config F) (symbols : Except String (List SymbolData))
    (tickers : Except String (List (TickerData F)))
    (contracts : Except String (List (ContractData F))) (clock : Nat → Nat) :
    Except String (Sys F) := do
  let s ← refreshAndPublish config (.symbols symbols) (clock 0) (clock 1) {}
  let s := tryRefresh config (.tickers tickers) (clock 2) (clock 3) s
  return tryRefresh config (.contracts contracts) (clock 4) (clock 5) s

/-- The service when its pollers are spawned. -/
def Booted (config : Config F) (s : Sys F) : Prop :=
  ∃ symbols tickers contracts clock, bootstrap config symbols tickers contracts clock = .ok s

/-- Where the pollers start: after `bootstrap`, or on the empty service. -/
def Start (config : Config F) (s : Sys F) : Prop := s = {} ∨ Booted config s

end

@[simp] theorem Sys.setPhase_state (s : Sys F) (p : Poller) (ph : Phase F) :
    (s.setPhase p ph).state = s.state := rfl

@[simp] theorem Sys.setPhase_published (s : Sys F) (p : Poller) (ph : Phase F) :
    (s.setPhase p ph).published = s.published := rfl

@[simp] theorem Sys.setPhase_self (s : Sys F) (p : Poller) (ph : Phase F) :
    (s.setPhase p ph).phase p = ph := Function.update_self ..

theorem Sys.setPhase_other (s : Sys F) {p q : Poller} (h : q ≠ p) (ph : Phase F) :
    (s.setPhase p ph).phase q = s.phase q := Function.update_of_ne h ..

/-! ## What a step does -/

section
variable [UnicodeCase]

/-- What a refresh that succeeds does to the sources. -/
theorem refresh_cases {response : Response F} {now : Nat} {state state' : ServiceState F}
    (h : refresh response now state = .ok state') :
    (∃ payload, state' = { state with
      symbols := collect SymbolData.symbol SymbolData.productId (symbolMeta now) payload }) ∨
    (∃ payload, state' = { state with
      tickers := collect TickerData.tickerId TickerData.productId (tickerMeta now) payload }) ∨
    ∃ payload, state' = { state with
      contracts :=
        collect ContractData.tickerId ContractData.productId (contractMeta now) payload } := by
  cases response with
  | symbols response =>
    simp only [refresh, refreshSymbols] at h
    cases response with
    | error _ => cases h
    | ok symbols =>
      simp only [Except.mapError, bind, Except.bind] at h
      split at h
      · cases h
      · cases h
        exact .inl ⟨symbols, rfl⟩
  | tickers response =>
    simp only [refresh, refreshTickers] at h
    cases response with
    | error _ => cases h
    | ok tickers =>
      simp only [Except.mapError, bind, Except.bind] at h
      split at h
      · cases h
      · split at h
        · cases h
        · cases h
          exact .inr (.inl ⟨tickers, rfl⟩)
  | contracts response =>
    simp only [refresh, refreshContracts] at h
    cases response with
    | error _ => cases h
    | ok contracts =>
      cases h
      exact .inr (.inr ⟨contracts, rfl⟩)

/-- A refresh writes one source map, and neither the rows nor the counter. -/
theorem refresh_frame {response : Response F} {now : Nat} {state state' : ServiceState F}
    (h : refresh response now state = .ok state') :
    state'.seq = state.seq ∧ state'.markets = state.markets := by
  rcases refresh_cases h with ⟨_, rfl⟩ | ⟨_, rfl⟩ | ⟨_, rfl⟩ <;> exact ⟨rfl, rfl⟩

variable [F64 F]

/-- The five things a step can be. -/
inductive Step (config : Config F) (s : Sys F) : Act F → Sys F → Prop
  | refreshed {response : Response F} {now statusNow : Nat} {state : ServiceState F} :
      s.phase response.poller = .idle → state.seq = s.state.seq →
      state.markets = s.state.markets →
      Step config s (.refresh response now statusNow)
        ({ s with state := state }.setPhase response.poller .refreshed)
  | failed {response : Response F} {now statusNow : Nat} {err : String} :
      s.phase response.poller = .idle →
      Step config s (.refresh response now statusNow)
        { s with channel := s.channel ++ [degraded response.poller err statusNow] }
  | unchanged {p : Poller} {now : Nat} :
      s.phase p = .refreshed →
      Step config s (.rebuild p now) (s.setPhase p .idle)
  | replaced {p : Poller} {now : Nat} {state : ServiceState F} {message : ServerMessage F} :
      s.phase p = .refreshed → Replaces config now s.state state message →
      Step config s (.rebuild p now)
        ({ s with state := state,
                  published := s.published ++ [Publication.mk message state.markets] }.setPhase p
          (.sending message))
  | sent {p : Poller} {message : ServerMessage F} :
      s.phase p = .sending message →
      Step config s (.send p) ({ s with channel := s.channel ++ [message] }.setPhase p .idle)

theorem Step.of_step {config : Config F} {s s' : Sys F} {a : Act F}
    (h : step config s a = some s') : Step config s a s' := by
  cases a with
  | refresh response now statusNow =>
    simp only [step] at h
    split at h
    · rename_i hp
      split at h
      · rename_i state hr
        cases h
        obtain ⟨hseq, hm⟩ := refresh_frame hr
        exact .refreshed hp hseq hm
      · cases h
        exact .failed hp
    · cases h
  | rebuild p now =>
    simp only [step] at h
    split at h
    · rename_i hp
      obtain hr | ⟨state, message, hr, hrep⟩ := rebuildAndPublish_cases config now s.state
      · rw [hr] at h
        cases h
        exact .unchanged hp
      · rw [hr] at h
        cases h
        exact .replaced hp hrep
    · cases h
  | send p =>
    simp only [step] at h
    split at h
    · rename_i message hp
      cases h
      exact .sent hp
    · cases h

end

/-! ## The numbering of the publications -/

theorem replacementMessage_seq (seq now : Nat) (next : Rows F) (updated : List (MarketRow F))
    (removed : List String) :
    (replacementMessage seq now next updated removed).seq? = some seq := by
  unfold replacementMessage
  split
  · rfl
  · rfl

/-- The messages about rows that were sent, oldest first. -/
def Sys.feed (s : Sys F) : List (ServerMessage F) := s.channel.filter (·.seq?.isSome)

/-- **The published law**: the numbers of the feed are 1, 2, …, and its messages are those of the
first replacements of the rows, in the order of the replacements. -/
structure InOrder (s : Sys F) : Prop where
  numbered : ∃ n, s.feed.map ServerMessage.seq? = (List.range' 1 n).map some
  replaced : s.feed <+: s.published.map Publication.message

/-- The number of the message a poller holds. -/
def Phase.seq? : Phase F → Option Nat
  | .sending message => message.seq?
  | .idle | .refreshed => none

/-- The poller holds a message of this number. -/
def Holds (s : Sys F) (p : Poller) (seq : Nat) : Prop :=
  ∃ message, s.phase p = .sending message ∧ message.seq? = some seq

theorem holds_iff {s : Sys F} {p : Poller} {seq : Nat} :
    Holds s p seq ↔ (s.phase p).seq? = some seq := by
  constructor
  · rintro ⟨m, hm, hseq⟩
    rw [hm]
    exact hseq
  · intro h
    unfold Holds
    cases hp : s.phase p with
    | idle => rw [hp] at h; cases h
    | refreshed => rw [hp] at h; cases h
    | sending m => rw [hp] at h; exact ⟨m, rfl, h⟩

/-- The condition on a step: what is sent is the oldest message held, and the counter is not at
its maximum when the rows are rebuilt. -/
def OldestFirst (s : Sys F) : Act F → Prop
  | .refresh _ _ _ => True
  | .rebuild _ _ => s.state.seq < u64Max
  | .send p => ∀ q seq seq', Holds s p seq → Holds s q seq' → seq ≤ seq'

instance (s : Sys F) : (a : Act F) → Decidable (OldestFirst s a)
  | .refresh _ _ _ => isTrue trivial
  | .rebuild _ _ => inferInstanceAs (Decidable (s.state.seq < u64Max))
  | .send p => decidable_of_iff (∀ q ∈ [Poller.symbols, .tickers, .contracts],
      ∀ seq ∈ (s.phase p).seq?, ∀ seq' ∈ (s.phase q).seq?, seq ≤ seq') <| by
    refine ⟨fun h q a b ha hb => h q ?_ a (holds_iff.1 ha) b (holds_iff.1 hb),
      fun h q _ a ha b hb => h q a b (holds_iff.2 ha) (holds_iff.2 hb)⟩
    cases q with
    | symbols => simp
    | tickers => simp
    | contracts => simp

/-- What every step meeting `OldestFirst` keeps: publication `i` has number `i + 1`, the feed is
the first `sent` of them, and each of the others is held by exactly one poller. -/
structure Queue (s : Sys F) (sent : Nat) : Prop where
  counter : s.state.seq = s.published.length
  number : ∀ i pub, s.published[i]? = some pub → pub.message.seq? = some (i + 1)
  feed : s.feed = (s.published.map Publication.message).take sent
  sent_le : sent ≤ s.published.length
  held : ∀ p message, s.phase p = .sending message →
    ∃ i, sent ≤ i ∧ (s.published.map Publication.message)[i]? = some message
  holder : ∀ i, sent ≤ i → i < s.published.length → ∃ p, Holds s p (i + 1)
  one_holder : ∀ p q seq, Holds s p seq → Holds s q seq → p = q

theorem Holds.seq_unique {s : Sys F} {p : Poller} {a b : Nat} (ha : Holds s p a)
    (hb : Holds s p b) : a = b := by
  obtain ⟨m, hm, ha⟩ := ha
  obtain ⟨m', hm', hb⟩ := hb
  rw [hm] at hm'
  cases hm'
  rw [ha] at hb
  exact Option.some.inj hb

namespace Queue

variable {s s' : Sys F} {n : Nat}

theorem start : Queue ({} : Sys F) 0 where
  counter := rfl
  number i pub h := by simp at h
  feed := rfl
  sent_le := Nat.le_refl 0
  held p message h := nomatch h
  holder i _ h := absurd h (Nat.not_lt_zero i)
  one_holder p q seq h _ := by
    obtain ⟨m, hm, -⟩ := h
    cases hm

/-- A held message is one of the publications not sent yet. -/
theorem held_number (h : Queue s n) {p : Poller} {seq : Nat} (hp : Holds s p seq) :
    n < seq ∧ seq ≤ s.published.length := by
  obtain ⟨m, hm, hseq⟩ := hp
  obtain ⟨i, hi, hget⟩ := h.held p m hm
  rw [List.getElem?_map] at hget
  obtain ⟨pub, hpub, rfl⟩ := Option.map_eq_some_iff.1 hget
  rw [h.number i pub hpub] at hseq
  have hlt := (List.getElem?_eq_some_iff.1 hpub).1
  cases hseq
  omega

/-- The feed's numbers are 1 to `n`. -/
theorem inOrder (h : Queue s n) : InOrder s := by
  refine ⟨⟨n, ?_⟩, ?_⟩
  · refine List.ext_getElem? fun i => ?_
    rw [h.feed, List.map_take, List.map_map, List.getElem?_take, List.getElem?_map,
      List.getElem?_map]
    split
    · rename_i hi
      have hlt : i < s.published.length := Nat.lt_of_lt_of_le hi h.sent_le
      have hget := List.getElem?_eq_getElem hlt
      rw [hget, List.getElem?_range' hi, Option.map_some, Option.map_some, Function.comp_apply,
        h.number i _ hget]
      simp only [Option.some.injEq]
      omega
    · rename_i hi
      rw [List.getElem?_eq_none (by rw [List.length_range']; omega)]
      rfl
  · rw [h.feed]
    exact List.take_prefix n _

/-- A step that touches none of the rows, the feed and the messages held keeps the queue. -/
theorem frame (h : Queue s n) (hc : s'.state.seq = s.state.seq)
    (hp : s'.published = s.published) (hf : s'.feed = s.feed)
    (hs : ∀ q m, s'.phase q = .sending m ↔ s.phase q = .sending m) : Queue s' n := by
  have hh : ∀ q seq, Holds s' q seq ↔ Holds s q seq := fun q seq => by
    unfold Holds
    simp only [hs]
  constructor
  · rw [hc, hp]
    exact h.counter
  · rw [hp]
    exact h.number
  · rw [hf, hp]
    exact h.feed
  · rw [hp]
    exact h.sent_le
  · intro q m hm
    rw [hp]
    exact h.held q m ((hs q m).1 hm)
  · intro i hi hlt
    rw [hp] at hlt
    obtain ⟨q, hq⟩ := h.holder i hi hlt
    exact ⟨q, (hh q _).2 hq⟩
  · intro q r seq hq hr
    exact h.one_holder q r seq ((hh q seq).1 hq) ((hh r seq).1 hr)

end Queue

/-- A poller that holds no message and takes none up. -/
theorem sending_setPhase {s : Sys F} {p : Poller} {phase : Phase F}
    (h0 : ∀ m, s.phase p ≠ .sending m) (h1 : ∀ m, phase ≠ .sending m) (q : Poller)
    (m : ServerMessage F) : (s.setPhase p phase).phase q = .sending m ↔ s.phase q = .sending m := by
  rcases eq_or_ne q p with rfl | hq
  · rw [Sys.setPhase_self]
    exact ⟨fun h => absurd h (h1 m), fun h => absurd h (h0 m)⟩
  · rw [Sys.setPhase_other s hq]

theorem Sys.feed_append {s : Sys F} {message : ServerMessage F} {seq : Nat}
    (h : message.seq? = some seq) :
    Sys.feed { s with channel := s.channel ++ [message] } = s.feed ++ [message] := by
  unfold Sys.feed
  rw [List.filter_append, List.filter_cons_of_pos (by rw [h]; rfl), List.filter_nil]

theorem Sys.feed_append_status {s : Sys F} {message : ServerMessage F} (h : message.seq? = none) :
    Sys.feed { s with channel := s.channel ++ [message] } = s.feed := by
  unfold Sys.feed
  rw [List.filter_append, List.filter_cons_of_neg (by rw [h]; exact Bool.false_ne_true),
    List.filter_nil, List.append_nil]

namespace Queue

variable {s : Sys F} {n : Nat}

/-- A replacement of the rows adds its message at the end of the queue. -/
theorem replace (h : Queue s n) {p : Poller} {message : ServerMessage F} {state : ServiceState F}
    (hp : s.phase p = .refreshed) (hseq : state.seq = s.state.seq + 1)
    (hm : message.seq? = some state.seq) :
    Queue ({ s with state := state,
                    published := s.published ++ [Publication.mk message state.markets] }.setPhase p
      (.sending message)) n := by
  have hnone : ∀ seq, ¬ Holds s p seq := fun seq ⟨m, hs, _⟩ => by
    rw [hp] at hs
    cases hs
  rw [hseq, h.counter] at hm
  have hlen : (s.published ++ [Publication.mk message state.markets]).length =
      s.published.length + 1 := List.length_append
  have hle := h.sent_le
  constructor
  · simp only [Sys.setPhase_state, Sys.setPhase_published]
    rw [hlen, hseq, h.counter]
  · intro i pub hpub
    simp only [Sys.setPhase_published] at hpub
    rcases Concat.getElem?_cases hpub with ⟨hold, -⟩ | ⟨rfl, rfl⟩
    · exact h.number i pub hold
    · exact hm
  · simp only [Sys.setPhase_published]
    rw [List.map_append, List.take_append_of_le_length (by rw [List.length_map]; exact hle)]
    exact h.feed
  · simp only [Sys.setPhase_published]
    omega
  · intro q m hq
    simp only [Sys.setPhase_published]
    rcases eq_or_ne q p with rfl | hqp
    · rw [Sys.setPhase_self] at hq
      cases hq
      refine ⟨s.published.length, hle, ?_⟩
      rw [List.getElem?_map, List.getElem?_concat_length]
      rfl
    · rw [Sys.setPhase_other _ hqp] at hq
      obtain ⟨i, hi, hget⟩ := h.held q m hq
      refine ⟨i, hi, ?_⟩
      have hlt := (List.getElem?_eq_some_iff.1 hget).1
      rw [List.map_append, List.getElem?_append_left hlt]
      exact hget
  · intro i hi hlt
    simp only [Sys.setPhase_published] at hlt
    rw [hlen] at hlt
    rcases Nat.lt_or_ge i s.published.length with hi' | hi'
    · obtain ⟨q, m, hq, hmq⟩ := h.holder i hi hi'
      have hqp : q ≠ p := by
        rintro rfl
        exact hnone _ ⟨m, hq, hmq⟩
      exact ⟨q, m, by rw [Sys.setPhase_other _ hqp]; exact hq, hmq⟩
    · obtain rfl : i = s.published.length := by omega
      exact ⟨p, message, Sys.setPhase_self .., hm⟩
  · -- the new number is larger than every number held before
    have key : ∀ q seq, Holds ({ s with
        state := state,
        published := s.published ++ [Publication.mk message state.markets] }.setPhase p
          (.sending message)) q seq →
        (q = p ∧ seq = s.published.length + 1) ∨ (q ≠ p ∧ Holds s q seq) := by
      rintro q seq ⟨m, hq, hmq⟩
      rcases eq_or_ne q p with rfl | hqp
      · rw [Sys.setPhase_self] at hq
        cases hq
        rw [hm] at hmq
        exact .inl ⟨rfl, (Option.some.inj hmq).symm⟩
      · rw [Sys.setPhase_other _ hqp] at hq
        exact .inr ⟨hqp, m, hq, hmq⟩
    intro q r seq hq hr
    rcases key q seq hq with ⟨hqp, hseq⟩ | ⟨_, hqs⟩
    · rcases key r seq hr with ⟨hrp, _⟩ | ⟨_, hrs⟩
      · rw [hqp, hrp]
      · have := (h.held_number hrs).2
        omega
    · rcases key r seq hr with ⟨_, hseq⟩ | ⟨_, hrs⟩
      · have := (h.held_number hqs).2
        omega
      · exact h.one_holder q r seq hqs hrs

/-- Sending the oldest message held takes the head of the queue. -/
theorem send (h : Queue s n) {p : Poller} {message : ServerMessage F}
    (hp : s.phase p = .sending message) (hold : OldestFirst s (.send p)) :
    Queue ({ s with channel := s.channel ++ [message] }.setPhase p .idle) (n + 1) := by
  obtain ⟨i, hi, hget⟩ := h.held p message hp
  have hlt : i < s.published.length := by
    have := (List.getElem?_eq_some_iff.1 hget).1
    rwa [List.length_map] at this
  have hnum : message.seq? = some (i + 1) := by
    rw [List.getElem?_map] at hget
    obtain ⟨pub, hpub, rfl⟩ := Option.map_eq_some_iff.1 hget
    exact h.number i pub hpub
  have hpi : Holds s p (i + 1) := ⟨message, hp, hnum⟩
  -- the next publication to send is held by someone, so the oldest message held is that one
  obtain ⟨q, hq⟩ := h.holder n (Nat.le_refl n) (Nat.lt_of_le_of_lt hi hlt)
  have hle : i + 1 ≤ n + 1 := hold q (i + 1) (n + 1) hpi hq
  obtain rfl : i = n := by omega
  have hother : ∀ r m, ({ s with channel := s.channel ++ [message] }.setPhase p .idle).phase r =
      .sending m → r ≠ p ∧ s.phase r = .sending m := by
    intro r m hr
    rcases eq_or_ne r p with rfl | hrp
    · rw [Sys.setPhase_self] at hr
      cases hr
    · rw [Sys.setPhase_other _ hrp] at hr
      exact ⟨hrp, hr⟩
  constructor
  · exact h.counter
  · exact h.number
  · have hf : ({ s with channel := s.channel ++ [message] }.setPhase p .idle).feed =
        s.feed ++ [message] := Sys.feed_append hnum
    rw [hf, h.feed, Sys.setPhase_published, List.take_add_one, hget]
    rfl
  · exact hlt
  · intro r m hr
    obtain ⟨hrp, hr⟩ := hother r m hr
    obtain ⟨j, hj, hgetj⟩ := h.held r m hr
    have hne : j ≠ i := by
      rintro rfl
      rw [hget] at hgetj
      cases hgetj
      exact hrp (h.one_holder r p _ ⟨message, hr, hnum⟩ hpi)
    exact ⟨j, by omega, hgetj⟩
  · intro j hj hjlt
    obtain ⟨r, m, hr, hmr⟩ := h.holder j (by omega) hjlt
    have hrp : r ≠ p := by
      rintro rfl
      have := Holds.seq_unique ⟨m, hr, hmr⟩ hpi
      omega
    exact ⟨r, m, by rw [Sys.setPhase_other _ hrp]; exact hr, hmr⟩
  · rintro r r' seq ⟨m, hr, hmr⟩ ⟨m', hr', hmr'⟩
    exact h.one_holder r r' seq ⟨m, (hother r m hr).2, hmr⟩ ⟨m', (hother r' m' hr').2, hmr'⟩

/-- In a feed in order, what was sent last is the oldest message held when it was sent. -/
theorem oldest_of_inOrder (h : Queue s n) {p : Poller}
    {message : ServerMessage F} (hp : s.phase p = .sending message)
    (hord : InOrder ({ s with channel := s.channel ++ [message] }.setPhase p .idle)) :
    OldestFirst s (.send p) := by
  intro q seq seq' ⟨m, hm, hseq⟩ hq
  rw [hp] at hm
  cases hm
  obtain ⟨k, hk⟩ := hord.numbered
  have hf : ({ s with channel := s.channel ++ [message] }.setPhase p .idle).feed =
      s.feed ++ [message] := Sys.feed_append hseq
  have hflen : s.feed.length = n := by
    rw [h.feed, List.length_take, List.length_map]
    exact Nat.min_eq_left h.sent_le
  have hklen := congrArg List.length hk
  rw [hf, List.length_map, List.length_map, List.length_range', List.length_append, hflen,
    List.length_singleton] at hklen
  -- the last number of the feed is `n + 1`
  have hlast := congrArg (·[n]?) hk
  simp only [hf, List.map_append, List.getElem?_map] at hlast
  rw [List.getElem?_append_right (by rw [List.length_map, hflen]), List.length_map, hflen,
    Nat.sub_self, List.getElem?_range' (by omega)] at hlast
  simp only [List.map_cons, List.getElem?_cons_zero, hseq, Option.map_some,
    Option.some.injEq] at hlast
  have := (h.held_number hq).1
  omega

variable [UnicodeCase] [F64 F]

/-- The step lemma. -/
theorem step {config : Config F} {s s' : Sys F} {a : Act F} (h : ∃ n, Queue s n)
    (hok : OldestFirst s a) (hs : Markets.step config s a = some s') : ∃ n, Queue s' n := by
  obtain ⟨n, h⟩ := h
  cases Step.of_step hs with
  | refreshed hp hseq hm =>
    refine ⟨n, h.frame hseq rfl rfl (sending_setPhase (fun m hm => ?_) (fun m hm => ?_))⟩
    · rw [hp] at hm
      cases hm
    · cases hm
  | failed hp =>
    exact ⟨n, h.frame rfl rfl (Sys.feed_append_status rfl) fun q m => Iff.rfl⟩
  | unchanged hp =>
    refine ⟨n, h.frame rfl rfl rfl (sending_setPhase (fun m hm => ?_) (fun m hm => ?_))⟩
    · rw [hp] at hm
      cases hm
    · cases hm
  | replaced hp hrep =>
    have hlt : s.state.seq < u64Max := hok
    have hseq := hrep.seq
    unfold saturatingAdd at hseq
    refine ⟨n, h.replace hp (by omega) ?_⟩
    rw [hrep.message]
    exact replacementMessage_seq ..
  | sent hp =>
    exact ⟨n + 1, h.send hp hok⟩

end Queue

/-! ## The queue after bootstrap -/

/-- A queue whose pollers have not started. -/
structure Calm (s : Sys F) : Prop where
  queue : ∃ n, Queue s n
  idle : ∀ p, s.phase p = .idle

theorem Calm.start : Calm ({} : Sys F) := ⟨⟨0, Queue.start⟩, fun _ => rfl⟩

section
variable [UnicodeCase] [F64 F] {config : Config F} {s s' : Sys F}

/-- A refresh of `bootstrap` is a round of its poller while the others are idle. -/
theorem Calm.refreshAndPublish (h : Calm s) (hmax : s.state.seq < u64Max) {response : Response F}
    {now rebuildNow : Nat}
    (hs : refreshAndPublish config response now rebuildNow s = .ok s') :
    Calm s' ∧ s'.state.seq ≤ s.state.seq + 1 := by
  obtain ⟨n, hq⟩ := h.queue
  obtain ⟨state, hrefresh, hs⟩ := Gate.bind_ok hs
  obtain ⟨hseq, -⟩ := refresh_frame hrefresh
  obtain hr | ⟨state', message, hr, hrep⟩ := rebuildAndPublish_cases config rebuildNow state
  · rw [hr] at hs
    cases hs
    exact ⟨⟨⟨n, hq.frame hseq rfl rfl fun _ _ => Iff.rfl⟩, h.idle⟩,
      hseq.le.trans (Nat.le_succ _)⟩
  · rw [hr] at hs
    cases hs
    have hnext : state'.seq = state.seq + 1 := by
      rw [hrep.seq]
      unfold saturatingAdd
      omega
    have hnumber : message.seq? = some state'.seq := by
      rw [hrep.message]
      exact replacementMessage_seq ..
    refine ⟨⟨⟨n + 1, ?_⟩, h.idle⟩, by rw [← hseq]; exact hnext.le⟩
    -- the round of the poller that would have made this refresh
    let p := response.poller
    have hrefreshed : Queue ({ s with state := state }.setPhase p .refreshed) n := by
      refine hq.frame hseq rfl rfl (sending_setPhase (fun m hm => ?_) fun m hm => nomatch hm)
      cases (h.idle p).symm.trans hm
    have hreplaced := hrefreshed.replace (Sys.setPhase_self ..) hnext hnumber
    have hsent := hreplaced.send (Sys.setPhase_self ..) fun q a b ha hb => by
      rcases eq_or_ne q p with rfl | hqp
      · exact (ha.seq_unique hb).le
      · obtain ⟨m, hm, -⟩ := hb
        rw [Sys.setPhase_other _ hqp] at hm
        cases (h.idle q).symm.trans ((Sys.setPhase_other _ hqp _).symm.trans hm)
    have hphase : Function.update (Function.update (Function.update s.phase p .refreshed) p
        (.sending message)) p .idle = s.phase := by
      rw [Function.update_idem, Function.update_idem, ← h.idle p, Function.update_eq_self]
    have hsame := hsent
    unfold Sys.setPhase at hsame
    dsimp only at hsame
    rw [hphase] at hsame
    exact hsame

variable (config) in
theorem Calm.tryRefresh (h : Calm s) (hmax : s.state.seq < u64Max) (response : Response F)
    (now rebuildNow : Nat) : Calm (tryRefresh config response now rebuildNow s) ∧
      (tryRefresh config response now rebuildNow s).state.seq ≤ s.state.seq + 1 := by
  unfold Markets.tryRefresh
  split
  · rename_i hs
    exact h.refreshAndPublish hmax hs
  · obtain ⟨n, hq⟩ := h.queue
    exact ⟨⟨⟨n, hq.frame rfl rfl (Sys.feed_append_status rfl) fun _ _ => Iff.rfl⟩, h.idle⟩,
      Nat.le_succ _⟩

theorem Start.queue (h : Start config s) : ∃ n, Queue s n := by
  obtain rfl | ⟨symbols, tickers, contracts, clock, hs⟩ := h
  · exact ⟨0, Queue.start⟩
  · obtain ⟨s₁, h₁, hs⟩ := Gate.bind_ok hs
    obtain ⟨hcalm₁, hseq₁⟩ := Calm.start.refreshAndPublish (Nat.zero_lt_succ _) h₁
    have hseq₁ : s₁.state.seq ≤ 1 := hseq₁
    have hmax : 2 < u64Max := by decide
    obtain ⟨hcalm₂, hseq₂⟩ := hcalm₁.tryRefresh config (by omega) (.tickers tickers) (clock 2)
      (clock 3)
    obtain ⟨hcalm₃, -⟩ := hcalm₂.tryRefresh config (by omega) (.contracts contracts) (clock 4)
      (clock 5)
    cases hs
    exact hcalm₃.queue

end

/-! ## The order of the feed -/

section
variable [UnicodeCase] [F64 F]

theorem Reach.queue {config : Config F} {s : Sys F}
    (h : Reach (step config) OldestFirst (Start config) s) : ∃ n, Queue s n :=
  Reach.inv (P := fun s => ∃ n, Queue s n) (fun _ => Start.queue) (fun _ _ _ => Queue.step) h

/-- **When the feed is in sequence order**: in every run in which a poller sends only while no
other holds an older message (and the counter stays below its maximum), with what `bootstrap` sent
before; and at the first send that breaks this the feed goes out of order. -/
theorem feed_in_order {config : Config F} {s : Sys F}
    (h : Reach (step config) OldestFirst (Start config) s) :
    InOrder s ∧ ∀ p s', step config s (.send p) = some s' →
      (InOrder s' ↔ OldestFirst s (.send p)) := by
  obtain ⟨n, hq⟩ := Reach.queue h
  refine ⟨hq.inOrder, fun p s' hs => ⟨fun hord => ?_, fun hok => ?_⟩⟩
  · cases Step.of_step hs with
    | sent hp => exact hq.oldest_of_inOrder hp hord
  · obtain ⟨m, hq'⟩ := Queue.step ⟨n, hq⟩ hok hs
    exact hq'.inOrder

end

/-! ## Two pollers, in and out of order -/

section
attribute [local instance] asciiCase

def twoPollersConfig : Config Rat := ⟨15000, 8⟩

/-- The symbols poller replaces the rows, then the tickers poller; `sends` is the order in which
they send. -/
def twoPollers (sends : List Poller) : List (Act Rat) :=
  [.refresh (.symbols (.ok [⟨2, "BTC-PERP", "perp"⟩])) 1 1, .rebuild .symbols 1,
    .refresh (.tickers (.ok [⟨2, "BTC-PERP", "BTC", "USDC", 65000, 10, 20, 1⟩])) 2 2,
    .rebuild .tickers 2] ++ sends.map .send

def bitcoin (price : Rat) : TickerData Rat := ⟨2, "BTC-PERP", "BTC", "USDC", price, 10, 20, 1⟩

/-- `bootstrap` finds one market, with a price: it publishes the snapshot and a delta. -/
def oneMarket : Except String (Sys Rat) :=
  bootstrap twoPollersConfig (.ok [⟨2, "BTC-PERP", "perp"⟩]) (.ok [bitcoin 65000]) (.ok []) id

/-- The tickers poller replaces the rows for a new price, then the symbols poller for a new market;
`sends` is the order in which they send. -/
def twoDeltas (sends : List Poller) : List (Act Rat) :=
  [.refresh (.tickers (.ok [bitcoin 65100])) 10 10, .rebuild .tickers 10,
    .refresh (.symbols (.ok [⟨2, "BTC-PERP", "perp"⟩, ⟨4, "ETH-PERP", "perp"⟩])) 11 11,
    .rebuild .symbols 11] ++ sends.map .send

theorem booted_oneMarket {s : Sys Rat} (h : oneMarket = .ok s) : Booted twoPollersConfig s :=
  ⟨_, _, _, _, h⟩

theorem feed_in_order_twoDeltas :
    ∃ s₀ s, oneMarket = .ok s₀ ∧
      run (step twoPollersConfig) OldestFirst s₀ (twoDeltas [.tickers, .symbols]) = some s ∧
      s.feed.map ServerMessage.seq? = [some 1, some 2, some 3, some 4] ∧ InOrder s := by
  have hrun : (oneMarket.toOption.bind fun s₀ =>
      run (step twoPollersConfig) OldestFirst s₀ (twoDeltas [.tickers, .symbols])).map
        (fun s => s.feed.map ServerMessage.seq?) =
      some [some 1, some 2, some 3, some 4] := by decide
  obtain ⟨s, hs, hfeed⟩ := Option.map_eq_some_iff.1 hrun
  obtain ⟨s₀, h₀, hs⟩ := Option.bind_eq_some_iff.1 hs
  have hboot := Gate.toOption_eq_some.1 h₀
  exact ⟨s₀, s, hboot, hs, hfeed,
    (feed_in_order (Reach.of_run (.start (.inr (booted_oneMarket hboot))) hs)).1⟩

/-- After `bootstrap`, the symbols poller sends number 4 before the tickers poller sends 3. -/
theorem feed_out_of_order :
    ¬ ∀ s, Reach (step twoPollersConfig) anyStep (Booted twoPollersConfig) s → InOrder s := by
  intro h
  have hrun : (oneMarket.toOption.bind fun s₀ =>
      run (step twoPollersConfig) anyStep s₀ (twoDeltas [.symbols, .tickers])).map
        (fun s => s.feed.map ServerMessage.seq?) =
      some [some 1, some 2, some 4, some 3] := by decide
  obtain ⟨s, hs, hfeed⟩ := Option.map_eq_some_iff.1 hrun
  obtain ⟨s₀, h₀, hs⟩ := Option.bind_eq_some_iff.1 hs
  have hboot := booted_oneMarket (Gate.toOption_eq_some.1 h₀)
  obtain ⟨n, hn⟩ := (h s (Reach.of_run (.start hboot) hs)).numbered
  rw [hfeed] at hn
  have hlength := congrArg List.length hn
  rw [List.length_map, List.length_range'] at hlength
  obtain rfl : n = 4 := hlength.symm
  revert hn
  decide

end

end Markets
