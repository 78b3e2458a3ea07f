import Thornado.Lib.Timeline
import Thornado.Lib.Transition
import Thornado.Orderbook.Market

/-!
# The upstream book and its replica

The exchange's book, the batches it publishes about it, and the snapshots it answers with; then
what a session makes of them. A session may get the batches repeated, out of order, or not at all.

* `Tracks.step`: every message keeps the replica true at the prices it has seen.
* `replica_sound`: agreement after each applied delta, a gap answered as a gap, nothing else moves.
-/

namespace Orderbook

open Rust Rust.Json Std Transition

variable {F : Type}

/-! ## The true book -/

inductive Side where
  | bid
  | ask
  deriving DecidableEq

def OrderBookState.side (state : OrderBookState) : Side → Levels
  | .bid => state.bids
  | .ask => state.asks

def BookDelta.levels (delta : BookDelta) : Side → List LevelDelta
  | .bid => delta.bids
  | .ask => delta.asks

def MarketLiquidity.levels (snapshot : MarketLiquidity) : Side → List PriceLevel
  | .bid => snapshot.bids
  | .ask => snapshot.asks

/-- A change of the true book: the size now offered at a price. -/
structure BookEvent where
  ts : Nat
  side : Side
  price : Int
  size : Int

def changeLevel (levels : Levels) (price size : Int) : Levels :=
  if size = 0 then levels.erase price else levels.insert price size

def applyEvent (book : Side → Levels) (e : BookEvent) : Side → Levels :=
  Function.update book e.side (changeLevel (book e.side) e.price e.size)

def bookAfter (initial : Side → Levels) (events : List BookEvent) (t : Nat) : Side → Levels :=
  (events.filter fun e => e.ts ≤ t).foldl applyEvent initial

/-- An upstream run: a book that events change at increasing times, and the contiguous batches
published about it, each with the size after the batch of every level the batch changed. -/
structure Upstream where
  initial : Side → Levels
  events : List BookEvent
  batches : List BookDelta
  initial_pos : ∀ side price size, sizeAt (initial side) price = some size → 0 < size
  size_nonneg : ∀ e ∈ events, 0 ≤ e.size
  increasing : events.Pairwise fun e e' => e.ts < e'.ts
  contiguous : Timeline.Contiguous BookDelta.lastMaxTimestamp BookDelta.maxTimestamp batches
  absolute : ∀ b ∈ batches, ∀ side, ∀ l ∈ b.levels side,
    l.sizeX18 = (sizeAt (bookAfter initial events b.maxTimestamp side) l.priceX18).getD 0
  complete : ∀ b ∈ batches, ∀ e ∈ events, b.lastMaxTimestamp < e.ts → e.ts ≤ b.maxTimestamp →
    ∃ l ∈ b.levels e.side, l.priceX18 = e.price

namespace Upstream

/-- The true book at a time. -/
def bookAt (u : Upstream) (t : Nat) : Side → Levels := bookAfter u.initial u.events t

/-- The snapshot's levels are levels of the true book at its timestamp. -/
def Reflects (u : Upstream) (snapshot : MarketLiquidity) : Prop :=
  ∀ side, ∀ l ∈ snapshot.levels side,
    sizeAt (u.bookAt snapshot.timestamp side) l.priceX18 = some l.sizeX18

end Upstream

/-! ## The book as a timeline -/

/-- A book as one keyed state. -/
def levelsOf (book : Side → Levels) (k : Side × Int) : Option Int := sizeAt (book k.1) k.2

def BookEvent.toWrite (e : BookEvent) : Timeline.Write (Side × Int) Int where
  ts := e.ts
  key := (e.side, e.price)
  value := entry e.size

theorem sizeAt_changeLevel (levels : Levels) (price size q : Int) :
    sizeAt (changeLevel levels price size) q =
      if price = q then entry size else sizeAt levels q := by
  unfold changeLevel entry
  split
  · rw [sizeAt_erase]
  · rw [sizeAt_insert]

theorem levelsOf_applyEvent (book : Side → Levels) (e : BookEvent) :
    levelsOf (applyEvent book e) = Timeline.write (levelsOf book) e.toWrite := by
  funext ⟨side, price⟩
  unfold levelsOf applyEvent Timeline.write BookEvent.toWrite
  by_cases hs : side = e.side
  · subst hs
    rw [Function.update_self, sizeAt_changeLevel]
    by_cases hp : e.price = price
    · subst hp
      rw [if_pos rfl, Function.update_self]
    · rw [if_neg hp, Function.update_of_ne (fun h => hp (congrArg Prod.snd h).symm)]
  · rw [Function.update_of_ne hs, Function.update_of_ne (fun h => hs (congrArg Prod.fst h))]

theorem levelsOf_bookAfter (initial : Side → Levels) (events : List BookEvent) (t : Nat) :
    levelsOf (bookAfter initial events t) =
      Timeline.stateAt (levelsOf initial) (events.map BookEvent.toWrite) t := by
  induction events generalizing initial with
  | nil => rfl
  | cons e events ih =>
    rw [List.map_cons]
    by_cases h : e.ts ≤ t
    · rw [Timeline.stateAt_cons_le h, ← levelsOf_applyEvent, ← ih]
      unfold bookAfter
      rw [List.filter_cons_of_pos (by simpa using h), List.foldl_cons]
    · rw [Timeline.stateAt_cons_lt (Nat.lt_of_not_le h), ← ih]
      unfold bookAfter
      rw [List.filter_cons_of_neg (by simpa using h)]

theorem entry_pos {size : Int} (h : 0 ≤ size) {v : Int} (hv : entry size = some v) : 0 < v := by
  unfold entry at hv
  split at hv
  · cases hv
  · cases hv
    omega

/-- The sizes of a book that events change stay positive. -/
theorem bookAfter_pos {initial : Side → Levels}
    (hi : ∀ side price size, sizeAt (initial side) price = some size → 0 < size)
    {events : List BookEvent} (he : ∀ e ∈ events, 0 ≤ e.size) {t : Nat} {k : Side × Int}
    {size : Int}
    (h : levelsOf (bookAfter initial events t) k = some size) : 0 < size := by
  induction events generalizing initial with
  | nil => exact hi k.1 k.2 size h
  | cons e events ih =>
    have hrest : ∀ e' ∈ events, 0 ≤ e'.size := fun e' he' => he e' (List.mem_cons_of_mem e he')
    by_cases ht : e.ts ≤ t
    · unfold bookAfter at h
      rw [List.filter_cons_of_pos (by simpa using ht), List.foldl_cons] at h
      refine ih (fun side price v hv => ?_) hrest h
      have hk : levelsOf (applyEvent initial e) (side, price) = some v := hv
      rw [levelsOf_applyEvent] at hk
      by_cases hkey : (side, price) = (e.side, e.price)
      · rw [hkey] at hk
        exact entry_pos (he e List.mem_cons_self)
          (by simpa [Timeline.write, BookEvent.toWrite] using hk)
      · have hne : (side, price) ≠ e.toWrite.key := hkey
        rw [Timeline.write, Function.update_of_ne hne] at hk
        exact hi side price v hk
    · unfold bookAfter at h
      rw [List.filter_cons_of_neg (by simpa using ht)] at h
      exact ih hi hrest h

namespace Upstream

variable (u : Upstream)

def writes : List (Timeline.Write (Side × Int) Int) := u.events.map BookEvent.toWrite

theorem levelsOf_bookAt (t : Nat) :
    levelsOf (u.bookAt t) = Timeline.stateAt (levelsOf u.initial) u.writes t :=
  levelsOf_bookAfter u.initial u.events t

theorem writes_increasing : u.writes.Pairwise fun w w' => w.ts < w'.ts :=
  List.pairwise_map.2 u.increasing

theorem bookAt_pos {t : Nat} {k : Side × Int} {size : Int}
    (h : levelsOf (u.bookAt t) k = some size) : 0 < size :=
  bookAfter_pos u.initial_pos u.size_nonneg h

variable {u}

/-- A listed size is the true book's entry. -/
theorem entry_listed {b : BookDelta} (hb : b ∈ u.batches) {side : Side} {l : LevelDelta}
    (hl : l ∈ b.levels side) :
    0 ≤ l.sizeX18 ∧ entry l.sizeX18 = levelsOf (u.bookAt b.maxTimestamp) (side, l.priceX18) := by
  have habs := u.absolute b hb side l hl
  have hbook : sizeAt (bookAfter u.initial u.events b.maxTimestamp side) l.priceX18 =
      levelsOf (u.bookAt b.maxTimestamp) (side, l.priceX18) := rfl
  rw [hbook] at habs
  cases hv : levelsOf (u.bookAt b.maxTimestamp) (side, l.priceX18) with
  | none =>
    rw [hv] at habs
    rw [habs]
    exact ⟨Int.le_refl 0, rfl⟩
  | some v =>
    have hpos := u.bookAt_pos hv
    rw [hv] at habs
    rw [habs]
    refine ⟨Int.le_of_lt hpos, ?_⟩
    unfold entry
    rw [Option.getD_some, if_neg (by omega)]

end Upstream

/-! ## The replica along a session -/

/-- The prices the session has seen: in its snapshot, or in a delta it applied. -/
def Known (snapshot : MarketLiquidity) (applied : List BookDelta) (k : Side × Int) : Prop :=
  (∃ l ∈ snapshot.levels k.1, l.priceX18 = k.2) ∨
    ∃ d ∈ applied, ∃ l ∈ d.levels k.1, l.priceX18 = k.2

/-- **Agreement**: the true size at every price seen, and no level at any other price. -/
def BookAgrees (u : Upstream) (t : Nat) (known : Side × Int → Prop) (state : OrderBookState) :
    Prop :=
  Timeline.Agrees (levelsOf (u.bookAt t)) known (levelsOf state.side)

theorem loadSide_side (snapshot : MarketLiquidity) (side : Side) :
    (OrderBookState.resetFromSnapshot snapshot.bids snapshot.asks snapshot.timestamp).side side =
      OrderBookState.loadSide ∅ (snapshot.levels side) := by
  cases side with
  | bid => rfl
  | ask => rfl

theorem BookAgrees.reset {u : Upstream} {snapshot : MarketLiquidity} (h : u.Reflects snapshot) :
    BookAgrees u snapshot.timestamp (Known snapshot [])
      (OrderBookState.resetFromSnapshot snapshot.bids snapshot.asks snapshot.timestamp) := by
  refine ⟨fun ⟨side, price⟩ hk => ?_, fun ⟨side, price⟩ hk => ?_⟩
  · obtain ⟨l, hl, hp⟩ | ⟨d, hd, _⟩ := hk
    · simp only at hp
      subst hp
      have htrue := h side l hl
      unfold levelsOf
      rw [loadSide_side, htrue]
      have hpos : 0 < l.sizeX18 := u.bookAt_pos (k := (side, l.priceX18)) htrue
      refine loadSide_listed hpos ⟨l, hl, rfl⟩ fun l' hl' hp => ?_
      have htrue' := h side l' hl'
      rw [hp, htrue] at htrue'
      exact (Option.some.inj htrue').symm
    · cases hd
  · unfold levelsOf
    rw [loadSide_side, loadSide_other fun l hl hp => hk (.inl ⟨l, hl, hp⟩)]
    rfl

theorem applyDelta_side {state : OrderBookState} {delta : BookDelta}
    (h : (state.applyDelta delta).1 = .applied) (side : Side) :
    (state.applyDelta delta).2.side side =
      OrderBookState.applySideDelta (state.side side) (delta.levels side) := by
  unfold OrderBookState.applyDelta at h ⊢
  split at h
  · cases h
  · split at h
    · cases h
    · rename_i h1 h2
      rw [if_neg h1, if_neg h2]
      cases side with
      | bid => rfl
      | ask => rfl

/-- An applied batch takes the replica from its own time to the batch's. -/
theorem BookAgrees.apply {u : Upstream} {known : Side × Int → Prop} {state : OrderBookState}
    (h : BookAgrees u state.lastTs known state) {delta : BookDelta} (hd : delta ∈ u.batches)
    (happ : (state.applyDelta delta).1 = .applied) (hlo : delta.lastMaxTimestamp ≤ state.lastTs)
    (hhi : state.lastTs < delta.maxTimestamp) :
    BookAgrees u delta.maxTimestamp
      (fun k => known k ∨ ∃ l ∈ delta.levels k.1, l.priceX18 = k.2)
      (state.applyDelta delta).2 := by
  unfold BookAgrees at h ⊢
  rw [u.levelsOf_bookAt] at h ⊢
  refine h.advance u.writes_increasing hlo (Nat.le_of_lt hhi) (fun w hw hlt hle => ?_)
    (fun ⟨side, price⟩ hl => ?_) fun ⟨side, price⟩ hl => ?_
  · obtain ⟨e, he, rfl⟩ := List.mem_map.1 hw
    exact u.complete delta hd e he hlt hle
  · obtain ⟨l, hl, hp⟩ := hl
    simp only at hp
    subst hp
    obtain ⟨hpos, hentry⟩ := Upstream.entry_listed hd hl
    rw [← u.levelsOf_bookAt, ← hentry]
    unfold levelsOf
    rw [applyDelta_side happ]
    refine applySideDelta_listed hpos ⟨l, hl, rfl⟩ fun l' hl' hp => ?_
    -- two listings of one price carry the same true size
    have h1 := u.absolute delta hd side l hl
    have h2 := u.absolute delta hd side l' hl'
    rw [hp, ← h1] at h2
    exact h2
  · unfold levelsOf
    rw [applyDelta_side happ]
    exact applySideDelta_other fun l hl' hp => hl ⟨l, hl', hp⟩

section
variable [UnicodeCase]

/-- The guard on a delivery: a text that carries a delta carries one of the upstream's batches. -/
def Delivers (json : SerdeJson F) (u : Upstream) (s : Session F) (text : String) : Prop :=
  ∀ delta ∈ deltaOf json s.market.productId text, delta ∈ u.batches

instance (json : SerdeJson F) (u : Upstream) (s : Session F) (text : String) :
    Decidable (Delivers json u s text) :=
  inferInstanceAs (Decidable (∀ delta ∈ deltaOf json s.market.productId text, delta ∈ u.batches))

end

/-- What every message keeps. -/
structure Tracks (u : Upstream) (snapshot : MarketLiquidity) (s : Session F) : Prop where
  agrees : BookAgrees u s.market.state.lastTs (Known snapshot s.applied) s.market.state
  lastTs : s.market.state.lastTs =
    (s.applied.getLast?.map BookDelta.maxTimestamp).getD snapshot.timestamp
  applied_le : ∀ d ∈ s.applied, d.maxTimestamp ≤ s.market.state.lastTs
  behind : ∀ b ∈ u.batches, snapshot.timestamp < b.maxTimestamp → b ∉ s.received →
    s.market.state.lastTs < b.maxTimestamp

namespace Tracks

variable {u : Upstream} {snapshot : MarketLiquidity} {s s' : Session F} [F64 F]

theorem start (m : Market F) (h : u.Reflects snapshot) :
    Tracks u snapshot (Session.start m snapshot) where
  agrees := BookAgrees.reset h
  lastTs := rfl
  applied_le _ hd := nomatch hd
  behind _ _ hT _ := hT

variable [UnicodeCase]

/-- The step lemma. -/
theorem step {json : SerdeJson F} {text : String} (h : Tracks u snapshot s)
    (hok : Delivers json u s text) (hs : s.step json text = some s') : Tracks u snapshot s' := by
  obtain ⟨hrec, ⟨hm, ha⟩ | ⟨delta, hread, happ, hm, ha⟩⟩ := Session.step_cases hs
  · refine ⟨?_, ?_, ?_, fun b hb hT hnot => ?_⟩
    · rw [hm, ha]
      exact h.agrees
    · rw [hm, ha]
      exact h.lastTs
    · rw [hm, ha]
      exact h.applied_le
    · rw [hm]
      rw [hrec] at hnot
      exact h.behind b hb hT fun hmem => hnot (List.mem_append_left _ hmem)
  · have hdelta : deltaOf json s.market.productId text = [delta] := by
      unfold deltaOf
      rw [hread]
    have hd : delta ∈ u.batches := hok delta (by rw [hdelta]; exact List.mem_singleton_self _)
    obtain ⟨hout, -⟩ | ⟨hout, -⟩ | ⟨-, hlast, hhi, hlo⟩ := applyDelta_cases s.market.state delta
    · rw [hout] at happ
      cases happ
    · rw [hout] at happ
      cases happ
    · have hstate : s'.market.state = (s.market.state.applyDelta delta).2 := by
        rw [hm]
        rfl
      refine ⟨?_, ?_, fun d hd' => ?_, fun b hb hT hnot => ?_⟩
      · rw [hstate, hlast, ha]
        have hknown : Known snapshot (s.applied ++ [delta]) = fun k =>
            Known snapshot s.applied k ∨ ∃ l ∈ delta.levels k.1, l.priceX18 = k.2 := by
          funext k
          simp only [Known, List.mem_append, List.mem_singleton, or_and_right, exists_or,
            exists_eq_left, or_assoc]
        rw [hknown]
        exact h.agrees.apply hd happ hlo hhi
      · rw [hstate, hlast, ha, List.getLast?_concat]
        rfl
      · rw [hstate, hlast]
        rw [ha] at hd'
        rcases List.mem_append.1 hd' with hold | hnew
        · exact Nat.le_of_lt (Nat.lt_of_le_of_lt (h.applied_le d hold) hhi)
        · rw [List.mem_singleton.1 hnew]
      · rw [hrec, hdelta] at hnot
        have hbehind := h.behind b hb hT fun hmem => hnot (List.mem_append_left _ hmem)
        rw [hstate, hlast]
        -- a batch applied while `b` is missing ends before `b` begins
        rcases Timeline.contiguous_cases u.contiguous hb hd with rfl | hle | hle
        · exact absurd (List.mem_append_right _ (List.mem_singleton_self _)) hnot
        · omega
        · have := u.contiguous.nonempty b hb
          omega

theorem of_reach {json : SerdeJson F} {m : Market F} (hsnap : u.Reflects snapshot)
    (h : Reach (Session.step json) (Delivers json u) (· = Session.start m snapshot) s) :
    Tracks u snapshot s := by
  refine Reach.inv (P := Tracks u snapshot) ?_ (fun _ _ _ => step) h
  rintro s rfl
  exact start m hsnap

end Tracks

/-! ## Soundness -/

section
variable [UnicodeCase] [F64 F]

/-- **The replica is sound**, in every run of a session: after each applied delta the local book
agrees with the true one at the delta's time and holds nothing that the true one lacks; once a
batch newer than the snapshot is missing, every later batch is answered by a gap; and a text whose
delta is not applied leaves the whole market as it is. -/
theorem replica_sound {json : SerdeJson F} {u : Upstream} {m : Market F}
    {snapshot : MarketLiquidity} (hsnap : u.Reflects snapshot) {s : Session F}
    (h : Reach (Session.step json) (Delivers json u) (· = Session.start m snapshot) s) :
    (∀ d, s.applied.getLast? = some d →
      BookAgrees u d.maxTimestamp (Known snapshot s.applied) s.market.state ∧
      ∀ k size, levelsOf s.market.state.side k = some size →
        levelsOf (u.bookAt d.maxTimestamp) k = some size) ∧
    (∀ b ∈ u.batches, snapshot.timestamp < b.maxTimestamp → b ∉ s.received →
      (∀ d ∈ s.applied, d.maxTimestamp < b.maxTimestamp) ∧
      ∀ d ∈ u.batches, b.maxTimestamp < d.maxTimestamp →
        (s.market.state.applyDelta d).1 = .gap s.market.state.lastTs d.lastMaxTimestamp) ∧
    ∀ text, (∀ delta ∈ deltaOf json s.market.productId text,
        (s.market.state.applyDelta delta).1 ≠ .applied) →
      (handleUpstreamJsonText json s.market text).2 = s.market := by
  have htracks := Tracks.of_reach hsnap h
  refine ⟨fun d hd => ?_, fun b hb hT hnot => ?_, fun text htext => ?_⟩
  · have hlast : s.market.state.lastTs = d.maxTimestamp := by
      rw [htracks.lastTs, hd]
      rfl
    have hagrees := htracks.agrees
    rw [hlast] at hagrees
    exact ⟨hagrees, fun k size hk => Timeline.Agrees.sound hagrees hk⟩
  · have hbehind := htracks.behind b hb hT hnot
    refine ⟨fun d hd => Nat.lt_of_le_of_lt (htracks.applied_le d hd) hbehind, fun d hd hlt => ?_⟩
    have hgap : s.market.state.lastTs < d.lastMaxTimestamp := by
      rcases Timeline.contiguous_cases u.contiguous hb hd with rfl | hle | hle
      · omega
      · omega
      · have := u.contiguous.nonempty b hb
        omega
    unfold OrderBookState.applyDelta
    rw [if_neg (by omega), if_pos hgap]
  · obtain hsame | ⟨delta, hread, happ, -⟩ := handle_cases json s.market text
    · exact hsame
    · refine absurd happ (htext delta ?_)
      unfold deltaOf
      rw [hread]
      exact List.mem_singleton_self _

end

/-! ## A sweep -/

section
attribute [local instance] asciiCase

/-- Asks at 100 and 101, then the ask at 100 is taken. -/
def sweepEvents : List BookEvent := [⟨1, .ask, 100, 5⟩, ⟨2, .ask, 101, 7⟩, ⟨3, .ask, 100, 0⟩]

def sweepBatches : List BookDelta :=
  [⟨0, 1, 2, [], [⟨100, 5⟩, ⟨101, 7⟩]⟩, ⟨2, 3, 3, [], [⟨100, 0⟩]⟩]

def sweep : Upstream where
  initial _ := ∅
  events := sweepEvents
  batches := sweepBatches
  initial_pos _ _ _ h := nomatch h
  size_nonneg := by decide
  increasing := by decide
  contiguous := ⟨by decide, by decide⟩
  absolute b hb side l hl := by
    revert l b
    cases side with
    | bid => decide
    | ask => decide
  complete := by decide

def sweepMarket : Market Rat where
  symbol := "BTC-PERP"
  productId := 2
  depth := 1

/-- A snapshot of depth 1, taken inside the first batch or at its end. -/
def sweepSnapshot (ts : Nat) : MarketLiquidity := ⟨[], [⟨100, 5⟩], ts⟩

/-- The second batch as the upstream sends it. -/
def sweepText : String :=
  "\x7b\"type\":\"book_depth\",\"product_id\":2,\"last_max_timestamp\":\"2\"," ++
    "\"min_timestamp\":\"3\",\"max_timestamp\":\"3\",\"bids\":[],\"asks\":[[\"100\",\"0\"]]\x7d"

def sweepValue : Value Rat :=
  .object [("type", .string "book_depth"), ("product_id", .number (.posInt 2)),
    ("last_max_timestamp", .string "2"), ("min_timestamp", .string "3"),
    ("max_timestamp", .string "3"), ("bids", .array []),
    ("asks", .array [.array [.string "100", .string "0"]])]

def sweepJson : SerdeJson Rat where
  fromStr text := if text = sweepText then .ok sweepValue else .error "expected value"
  display _ := ""

/-- The session that gets the second batch after a snapshot at time 2. -/
def sweepRun : Option (Session Rat) :=
  run (Session.step sweepJson) (Delivers sweepJson sweep)
    (Session.start sweepMarket (sweepSnapshot 2)) [sweepText]

theorem sweepSnapshot_reflects : sweep.Reflects (sweepSnapshot 2) := by
  intro side l hl
  revert l
  cases side with
  | bid => decide
  | ask => decide

theorem replica_sound_sweep : ∃ s, sweepRun = some s ∧
    BookAgrees sweep 3 (Known (sweepSnapshot 2) s.applied) s.market.state := by
  have hrun : sweepRun.map (fun s => s.applied.getLast?) =
      some (some ⟨2, 3, 3, [], [⟨100, 0⟩]⟩) := by
    decide +kernel
  obtain ⟨s, hs, hlast⟩ := Option.map_eq_some_iff.1 hrun
  have hstart : Reach (Session.step sweepJson) (Delivers sweepJson sweep)
      (· = Session.start sweepMarket (sweepSnapshot 2))
      (Session.start sweepMarket (sweepSnapshot 2)) := .start rfl
  exact ⟨s, hs, ((replica_sound sweepSnapshot_reflects (hstart.of_run hs)).1 _ hlast).1⟩

end

end Orderbook
