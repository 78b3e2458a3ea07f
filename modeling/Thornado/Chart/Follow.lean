import Thornado.Chart.CacheSync
import Thornado.Chart.Subscribers
import Thornado.Lib.Replica

/-!
# Following the cache

`Follows`: what a subscriber has been sent agrees with the cache, bucket by bucket. Its snapshot
and the updates before it may overlap, so an update either repeats a candle or brings a newer one.

* `Follows.store`: an accepted row of the stream, with its update.
* `Follows.reload`: a load, which sends nothing, if it changes no candle that the subscriber was
  served (`KeepsServed`).
-/

namespace Chart

open Rust Rust.Json Transition

variable {F : Type} {series : Series}

/-! ## Messages at a bucket start -/

/-- Replacing or inserting a candle touches its bucket start only. -/
theorem insertCandle_local : KeyedFold.Local
    (fun (view : Nat → Option (CandleView F)) (k : Nat) => view k) CandleView.bucketStart
    fun view candle => Function.update view candle.bucketStart (some candle) :=
  fun _ _ _ h => Function.update_of_ne (Ne.symm h) ..

/-- The messages leave what a client shows at the bucket start. -/
abbrev Silent (messages : List (ServerMessage F)) (bucketStart : Nat) : Prop :=
  Replica.Leaves (List.foldl clientApply) (fun view k => view k) messages bucketStart

/-- The messages make every client show the candle at the bucket start. -/
abbrev Tells (messages : List (ServerMessage F)) (bucketStart : Nat)
    (candle : Option (CandleView F)) : Prop :=
  Replica.Sets Eq (List.foldl clientApply) (fun view k => view k) messages bucketStart candle

/-- The message can change what is shown at the bucket start. -/
def ServerMessage.Touches (k : Nat) : ServerMessage F → Prop
  | .snapshot .. => True
  | .update _ _ _ _ candle => candle.bucketStart = k
  | .status .. => False

theorem silent_of_not_touches {messages : List (ServerMessage F)} {k : Nat}
    (h : ¬ ∃ message ∈ messages, message.Touches k) : Silent messages k := by
  refine Replica.leaves_of_forall fun message hmem => ?_
  have hnot : ¬ message.Touches k := fun ht => h ⟨message, hmem, ht⟩
  cases message with
  | snapshot => exact absurd trivial hnot
  | update symbol productId granularity seq candle =>
    exact fun _ => Function.update_of_ne (Ne.symm hnot) ..
  | status => exact fun _ => rfl

variable [F64 F]

theorem update_silent {row : CandleRow} {seq k : Nat} (h : (max row.bucketStartSec 0).toNat ≠ k) :
    Replica.Leaves clientApply (fun view k => view k)
      (series.update row seq : ServerMessage F) k :=
  fun _ => Function.update_of_ne (Ne.symm h) ..

theorem update_tells (row : CandleRow) (seq : Nat) :
    Replica.Sets Eq clientApply (fun view k => view k) (series.update row seq : ServerMessage F)
      (max row.bucketStartSec 0).toNat (some (candleToView row)) :=
  fun _ => Function.update_self ..

/-! ## The cache at a bucket start -/

/-- No row before 1970. -/
def Nonneg (rows : List CandleRow) : Prop := ∀ row ∈ rows, 0 ≤ row.bucketStartSec

theorem bucketStart_iff {row : CandleRow} (h : 0 ≤ row.bucketStartSec) {k : Nat} :
    (max row.bucketStartSec 0).toNat = k ↔ row.bucketStartSec = k := by
  omega

theorem cachedView_none {cache : List CandleRow} (hn : Nonneg cache) {k : Nat}
    (h : ∀ row ∈ cache, row.bucketStartSec ≠ k) :
    (cachedView cache k : Option (CandleView F)) = none := by
  unfold cachedView
  rw [List.find?_eq_none.2 fun row hrow hk => ?_]
  · rfl
  · exact h row hrow ((bucketStart_iff (hn row hrow)).1 (of_decide_eq_true hk))

theorem cachedView_some {cache : List CandleRow} (hs : Ascending cache) (hn : Nonneg cache)
    {k : Nat}
    {row : CandleRow} (hrow : row ∈ cache) (hk : row.bucketStartSec = k) :
    (cachedView cache k : Option (CandleView F)) = some (candleToView row) := by
  unfold cachedView
  cases hfind : cache.find? fun row => (max row.bucketStartSec 0).toNat = k with
  | none =>
    have hnot := List.find?_eq_none.1 hfind row hrow
    exact absurd (decide_eq_true ((bucketStart_iff (hn row hrow)).2 hk)) hnot
  | some found =>
    have hmem := List.mem_of_find?_eq_some hfind
    have hdec := List.find?_some hfind
    have hfk := (bucketStart_iff (hn found hmem)).1 (of_decide_eq_true hdec)
    rw [hs.key_unique hmem hrow (hfk.trans hk.symm), Option.map_some]

/-! ## The snapshot at a bucket start -/

/-- The candles of sorted rows, one by one, are their candles at each bucket start. -/
theorem insertCandles {rows : List CandleRow} (hs : Ascending rows) (hn : Nonneg rows) (k : Nat) :
    (rows.map candleToView).foldl (fun view (candle : CandleView F) =>
        Function.update view candle.bucketStart (some candle)) (fun _ => none) k =
      cachedView rows k := by
  by_cases h : ∃ row ∈ rows, row.bucketStartSec = k
  · obtain ⟨row, hrow, hk⟩ := h
    rw [cachedView_some hs hn hrow hk]
    refine insertCandle_local.foldl_listed (rows.map candleToView) (fun _ => none) ?_ ?_
    · exact ⟨candleToView row, List.mem_map_of_mem hrow, (bucketStart_iff (hn row hrow)).2 hk⟩
    · intro candle hcandle hck view
      obtain ⟨row', hrow', rfl⟩ := List.mem_map.1 hcandle
      have hk' := (bucketStart_iff (hn row' hrow')).1 hck
      obtain rfl := hs.key_unique hrow' hrow (hk'.trans hk.symm)
      subst hck
      exact Function.update_self ..
  · rw [cachedView_none hn fun row hrow hk => h ⟨row, hrow, hk⟩]
    refine insertCandle_local.foldl_other (rows.map candleToView) (fun _ => none) ?_
    intro candle hcandle hck
    obtain ⟨row, hrow, rfl⟩ := List.mem_map.1 hcandle
    exact h ⟨row, hrow, (bucketStart_iff (hn row hrow)).1 hck⟩

theorem snapshotViews_eq (cache : List CandleRow) (limit : Nat) :
    (snapshotViews cache limit : List (CandleView F)) = (newest limit cache).map candleToView := by
  unfold snapshotViews newest
  rw [← List.map_reverse, List.take_reverse, List.reverse_reverse]

theorem reaches_of_mem {cache : List CandleRow} (hs : Ascending cache) {row : CandleRow}
    (hrow : row ∈ cache) {k : Nat} (hk : row.bucketStartSec = k) : Reaches cache k :=
  fun _ hfirst => hk ▸ hs.head_le hfirst hrow

/-- A snapshot message shows the newest cached candles. -/
theorem clientView_snapshotMessage {h : Hub F} {limit : Nat} (hs : Ascending h.sys.cache)
    (hn : Nonneg h.sys.cache) (k : Nat) :
    clientView [(series.snapshotMessage h limit).1] k =
      cachedView (newest limit h.sys.cache) k := by
  have hs' : Ascending (newest limit h.sys.cache) := hs.sublist (newest_suffix ..).sublist
  have hn' : Nonneg (newest limit h.sys.cache) := fun row hrow =>
    hn row ((newest_suffix ..).subset hrow)
  rw [← insertCandles hs' hn', ← snapshotViews_eq]
  unfold Series.snapshotMessage
  cases (snapshotViews h.sys.cache limit : List (CandleView F)) with
  | nil => rfl
  | cons candle candles => rfl

/-- Of the window of a snapshot message, all cached candles are in the snapshot. -/
theorem cachedView_window {h : Hub F} {limit : Nat} (hpos : 0 < limit) (hs : Ascending h.sys.cache)
    (hn : Nonneg h.sys.cache) {k : Nat}
    (hk : (series.snapshotMessage h limit).1.windowStart ≤ k) :
    (cachedView (newest limit h.sys.cache) k : Option (CandleView F)) =
      cachedView h.sys.cache k := by
  have hsub := newest_suffix limit h.sys.cache
  have hs' : Ascending (newest limit h.sys.cache) := hs.sublist hsub.sublist
  have hn' : Nonneg (newest limit h.sys.cache) := fun row hrow => hn row (hsub.subset hrow)
  by_cases hrow : ∃ row ∈ h.sys.cache, row.bucketStartSec = k
  · obtain ⟨row, hrow, hrk⟩ := hrow
    have hmem : row ∈ newest limit h.sys.cache := by
      refine Versioned.mem_of_suffix hs hsub (newest_eq_nil hpos) hrow fun first hfirst => ?_
      have hstart : (series.snapshotMessage h limit).1.windowStart =
          (max first.bucketStartSec 0).toNat := by
        unfold Series.snapshotMessage
        rw [snapshotViews_eq]
        obtain ⟨rest, hrest⟩ := List.head?_eq_some_iff.1 hfirst
        rw [hrest]
        rfl
      rw [hstart] at hk
      omega
    rw [cachedView_some hs hn hrow hrk, cachedView_some hs' hn' hmem hrk]
  · rw [cachedView_none hn fun row hr hrk => hrow ⟨row, hr, hrk⟩,
      cachedView_none hn' fun row hr hrk => hrow ⟨row, hsub.subset hr, hrk⟩]

/-! ## Following the cache -/

/-- A subscriber with this snapshot that is sent these messages follows the cache: at every bucket
start of its window, as far as the cache reaches back, the messages tell it the cached candle, or
they say nothing and its snapshot has it. -/
structure Follows (series : Series) (s : SeriesSys) (snapshot : Option (ServerMessage F))
    (messages : List (ServerMessage F)) : Prop where
  unstored : ∀ k : Nat, (∀ row ∈ series.stored s.table, row.bucketStartSec ≠ k) →
    Silent messages k ∧ ∀ message ∈ snapshot, clientView [message] k = none
  shows : ∀ k : Nat, Reaches s.cache k → (∀ message ∈ snapshot, message.windowStart ≤ k) →
    (Silent messages k ∧ ∀ message ∈ snapshot, clientView [message] k = cachedView s.cache k) ∨
      Tells messages k (cachedView s.cache k)

section
variable {s : SeriesSys} {snapshot : Option (ServerMessage F)} {messages : List (ServerMessage F)}

theorem Follows.nothing : Follows series s none ([] : List (ServerMessage F)) :=
  ⟨fun _ _ => ⟨Replica.leaves_nil, fun _ h => nomatch h⟩,
    fun _ _ _ => .inl ⟨Replica.leaves_nil, fun _ h => nomatch h⟩⟩

theorem Follows.clientView_eq {message : ServerMessage F}
    (h : Follows series s (some message) messages) {k : Nat} (hk : message.windowStart ≤ k)
    (hreach : Reaches s.cache k) : clientView (message :: messages) k = cachedView s.cache k := by
  have hwindow : ∀ m ∈ some message, m.windowStart ≤ k := fun m hm => Option.some.inj hm ▸ hk
  rcases h.shows k hreach hwindow with ⟨hsilent, hsnap⟩ | htells
  · exact (hsilent _).trans (hsnap message rfl)
  · exact htells _

/-- Messages that do the same. -/
theorem Follows.congr {messages' : List (ServerMessage F)} (h : Follows series s snapshot messages)
    (hsame : ∀ view, messages'.foldl clientApply view = messages.foldl clientApply view) :
    Follows series s snapshot messages' := by
  have hsilent : ∀ k, Silent messages k → Silent messages' k := fun k hm view => by
    simp only [hsame]
    exact hm view
  refine ⟨fun k hk => ⟨hsilent k (h.unstored k hk).1, (h.unstored k hk).2⟩, fun k hreach hw => ?_⟩
  rcases h.shows k hreach hw with ⟨hm, hsnap⟩ | htells
  · exact .inl ⟨hsilent k hm, hsnap⟩
  · exact .inr fun view => by
      simp only [hsame]
      exact htells view

theorem Follows.status (h : Follows series s snapshot messages) {symbol status detail : String}
    {productId granularity : UInt32} :
    Follows series s snapshot (messages ++ [.status symbol productId granularity status detail]) :=
  h.congr fun view => by
    rw [List.foldl_append]
    rfl

/-- The store may get rows that the cache does not show. -/
theorem Follows.frame (h : Follows series s snapshot messages) {s' : SeriesSys}
    (hcache : s'.cache = s.cache)
    (hkeys : ∀ row ∈ series.stored s.table,
      ∃ row' ∈ series.stored s'.table, row'.bucketStartSec = row.bucketStartSec) :
    Follows series s' snapshot messages := by
  refine ⟨fun k hk => h.unstored k fun row hrow hrk => ?_, ?_⟩
  · obtain ⟨row', hrow', hb⟩ := hkeys row hrow
    exact hk row' hrow' (hb.trans hrk)
  · rw [hcache]
    exact h.shows

/-- Taking the snapshot: what was queued before repeats it. -/
theorem Follows.takeSnapshot {h : Hub F} (hf : Follows series h.sys none messages)
    (hsync : Synced series h.sys) (hn : Nonneg (series.stored h.sys.table)) {limit : Nat}
    (hpos : 0 < limit) :
    Follows series h.sys (some (series.snapshotMessage h limit).1) messages := by
  have hs : Ascending h.sys.cache := (stored_ascending _).sublist hsync.suffix.sublist
  have hnc : Nonneg h.sys.cache := fun row hrow => hn row (hsync.suffix.subset hrow)
  have hnew := newest_suffix limit h.sys.cache
  refine ⟨fun k hk => ⟨(hf.unstored k hk).1, fun m hm => ?_⟩, fun k hreach hw => ?_⟩
  · cases hm
    rw [clientView_snapshotMessage hs hnc]
    exact cachedView_none (fun row hrow => hnc row (hnew.subset hrow)) fun row hrow =>
      hk row (hsync.suffix.subset (hnew.subset hrow))
  · rcases hf.shows k hreach (fun _ hm => nomatch hm) with ⟨hsilent, -⟩ | htells
    · refine .inl ⟨hsilent, fun m hm => ?_⟩
      cases hm
      rw [clientView_snapshotMessage hs hnc, cachedView_window hpos hs hnc (hw _ rfl)]
    · exact .inr htells

end

/-! ## A row of the stream -/

/-- The rows after an accepted row, before the oldest are dropped. -/
theorem applyRow_accepted {cache : List CandleRow} (hs : Ascending cache) {row : CandleRow}
    {cacheCapacity : Nat} (hpos : 0 < cacheCapacity)
    (happ : (applyRow cache row cacheCapacity).2 = true) :
    row ∈ upserted row cache ∧ InReach row cache ∧
      (applyRow cache row cacheCapacity).1 <:+ upserted row cache ∧
      (applyRow cache row cacheCapacity).1 ≠ [] := by
  obtain ⟨hno, -⟩ | ⟨hno, -⟩ | ⟨n, hn, hyes, hin, hout⟩ := applyRow_cases hs row cacheCapacity
  · rw [hno] at happ
    cases happ
  · rw [hno] at happ
    cases happ
  · have hmem : row ∈ upserted row cache := (Versioned.mem_upsert hs).2 (.inr ⟨rfl, hout⟩)
    rw [hyes]
    refine ⟨hmem, hin, newest_suffix n _, fun hnil => ?_⟩
    rw [newest_eq_nil (by omega) hnil] at hmem
    cases hmem

/-- An accepted row does not make the cache reach further back. -/
theorem reaches_of_applyRow {cache : List CandleRow} (hs : Ascending cache) {row : CandleRow}
    {cacheCapacity : Nat} (hpos : 0 < cacheCapacity)
    (happ : (applyRow cache row cacheCapacity).2 = true) {k : Nat}
    (hreach : Reaches (applyRow cache row cacheCapacity).1 k) : Reaches cache k := by
  obtain ⟨-, hin, -, hne⟩ := applyRow_accepted hs hpos happ
  obtain ⟨e, rest, hrest⟩ := List.exists_cons_of_ne_nil hne
  have hhead : e ∈ (applyRow cache row cacheCapacity).1.head? := by
    rw [hrest]
    rfl
  have hek := hreach e hhead
  intro first hfirst
  rcases mem_applyRow hs (List.mem_of_mem_head? hhead) with he | rfl
  · have := hs.head_le hfirst he
    omega
  · have := hin first hfirst
    omega

/-- What an accepted row changes in the cached candles. -/
theorem cachedView_applyRow {cache : List CandleRow} (hs : Ascending cache) (hn : Nonneg cache)
    {row : CandleRow} (hrow : 0 ≤ row.bucketStartSec) {cacheCapacity : Nat}
    (hpos : 0 < cacheCapacity)
    (happ : (applyRow cache row cacheCapacity).2 = true) {k : Nat}
    (hreach : Reaches (applyRow cache row cacheCapacity).1 k) :
    (row.bucketStartSec = k →
      (cachedView (applyRow cache row cacheCapacity).1 k : Option (CandleView F)) =
        some (candleToView row)) ∧
    (row.bucketStartSec ≠ k →
      (cachedView (applyRow cache row cacheCapacity).1 k : Option (CandleView F)) =
        cachedView cache k) := by
  obtain ⟨hmem, -, hsuffix, hne⟩ := applyRow_accepted hs hpos happ
  have hs' := applyRow_ascending hs row cacheCapacity
  have hn' : Nonneg (applyRow cache row cacheCapacity).1 := fun e he => by
    rcases mem_applyRow hs he with he | rfl
    · exact hn e he
    · exact hrow
  have hcached : ∀ e ∈ upserted row cache, e.bucketStartSec = k →
      e ∈ (applyRow cache row cacheCapacity).1 := fun e he hek =>
    Versioned.mem_of_suffix hs.upsert hsuffix (fun hnil => absurd hnil hne) he (hek ▸ hreach)
  refine ⟨fun hk => cachedView_some hs' hn' (hcached row hmem hk) hk, fun hk => ?_⟩
  by_cases hex : ∃ e ∈ cache, e.bucketStartSec = k
  · obtain ⟨e, he, hek⟩ := hex
    have hup : e ∈ upserted row cache := (Versioned.mem_upsert hs).2 (.inl ⟨he, .inl fun h =>
      hk (h.symm.trans hek)⟩)
    rw [cachedView_some hs hn he hek, cachedView_some hs' hn' (hcached e hup hek) hek]
  · rw [cachedView_none hn fun e he hek => hex ⟨e, he, hek⟩, cachedView_none hn' fun e he hek => ?_]
    rcases mem_applyRow hs he with he | rfl
    · exact hex ⟨e, he, hek⟩
    · exact hk hek

theorem Follows.store {s : SeriesSys} {snapshot : Option (ServerMessage F)}
    {messages : List (ServerMessage F)} (h : Follows series s snapshot messages)
    (hsync : Synced series s) (hn : Nonneg (series.stored s.table)) {row : CandleRow}
    (howns : series.Owns row) (hrow : 0 ≤ row.bucketStartSec)
    (happ : (applyRow s.cache row series.cacheCapacity).2 = true) (seq : Nat) :
    Follows series { s with
      table := s.table.upsertMany [row]
      cache := (applyRow s.cache row series.cacheCapacity).1 } snapshot
        (messages ++ [series.update row seq]) := by
  have hs : Ascending s.cache := (stored_ascending _).sublist hsync.suffix.sublist
  have hnc : Nonneg s.cache := fun row hrow => hn row (hsync.suffix.subset hrow)
  have hpos : 0 < series.cacheCapacity := by
    have hlimit := series.historyLimit_ge
    have hcapacity := series.cacheCapacity_ge
    omega
  have hstart : (max row.bucketStartSec 0).toNat = row.bucketStartSec.toNat := by omega
  refine ⟨fun k hk => ?_, fun k hreach hw => ?_⟩
  · have hne : row.bucketStartSec ≠ k := by
      have hself : ((s.table.upsertMany [row]).findKey (series.key row.bucketStartSec)).isSome :=
        howns.primaryKey ▸ upsert_isSome_self s.table row
      obtain ⟨row', hrow', hb⟩ := stored_bucket_iff.2 hself
      exact fun hb' => hk row' hrow' (hb.trans hb')
    obtain ⟨hsilent, hsnap⟩ := h.unstored k fun e he hek => by
      obtain ⟨e', he', hb⟩ := stored_upsertMany_bucket [row] he
      exact hk e' he' (hb.trans hek)
    exact ⟨hsilent.concat (update_silent (by omega)), hsnap⟩
  · obtain ⟨hself, hother⟩ := @cachedView_applyRow F _ _ hs hnc _ hrow _ hpos happ k hreach
    by_cases hk : row.bucketStartSec = k
    · refine .inr ?_
      rw [hself hk]
      obtain rfl : (max row.bucketStartSec 0).toNat = k := by omega
      exact (update_tells row seq).concat
    · have hreach' := reaches_of_applyRow hs hpos happ hreach
      rw [hother hk]
      have hupdate := @update_silent F series _ row seq k (by omega)
      rcases h.shows k hreach' hw with ⟨hsilent, hsnap⟩ | htells
      · exact .inl ⟨hsilent.concat hupdate, hsnap⟩
      · exact .inr (htells.concat_leaves hupdate)

/-! ## A load -/

/-- The subscriber was served the bucket start: it is in the window of its snapshot or, before
there is one, in the updates queued for it. -/
def Subscriber.Serves (c : Subscriber F) (k : Nat) : Prop :=
  match c.snapshot with
  | some message => message.windowStart ≤ k
  | none => ∃ message ∈ c.queue, message.Touches k

/-- The row is older than all of a full load. -/
def BelowLoad (series : Series) (table : Table) (row : CandleRow) : Prop :=
  (series.load table series.historyLimit).length = series.historyLimit ∧
    ∀ e ∈ series.load table series.historyLimit, row.bucketStartSec < e.bucketStartSec

/-- Storing the rows and loading changes no candle that the subscriber was served: each of the rows
is too old to be loaded, or the store has it already, or a greater version of it; and the cache
lacks no row that is loaded. -/
def KeepsServed (series : Series) (s : SeriesSys) (rows : List CandleRow) (c : Subscriber F) :
    Prop :=
  (∀ row ∈ rows, c.Serves row.bucketStartSec.toNat → BelowLoad series s.table row ∨
    ∃ stored ∈ s.table.findKey row.primaryKey,
      row.submissionIdx < stored.submissionIdx ∨ stored = row) ∧
  ∀ row ∈ series.load s.table series.historyLimit, c.Serves row.bucketStartSec.toNat →
    row ∈ s.cache

/-- A row older than a full load stays out of every later one. -/
theorem BelowLoad.not_mem_load {table : Table} {row : CandleRow} (h : BelowLoad series table row)
    (rows : List CandleRow) {e : CandleRow} (hb : e.bucketStartSec = row.bucketStartSec) :
    e ∉ newest series.historyLimit (series.stored (table.upsertMany rows)) := by
  obtain ⟨hfull, hold⟩ := h
  refine Versioned.not_mem_newest (stored_ascending _) (load_ascending table series.historyLimit)
    (Nat.le_of_eq hfull.symm) fun a ha => ⟨?_, ?_⟩
  · rw [hb]
    exact hold a ha
  · exact stored_upsertMany_bucket rows (mem_load ha)

theorem Follows.reload {s : SeriesSys} {c : Subscriber F}
    (h : Follows series s c.snapshot c.queue) (hsync : Synced series s)
    (hn : Nonneg (series.stored s.table)) {rows : List CandleRow}
    (howns : ∀ row ∈ rows, series.Owns row) (hrows : Nonneg rows)
    (hkeeps : KeepsServed series s rows c) (ready : Bool) :
    Follows series { series.reload s (s.table.upsertMany rows) with ready := ready } c.snapshot
      c.queue := by
  have howned := owned_upsertMany howns hsync.owned
  have hsync' := @synced_reload series s _ howned true
  have hs : Ascending s.cache := (stored_ascending _).sublist hsync.suffix.sublist
  have hnc : Nonneg s.cache := fun row hrow => hn row (hsync.suffix.subset hrow)
  have hs' : Ascending (series.reload s (s.table.upsertMany rows)).cache :=
    (stored_ascending _).sublist hsync'.suffix.sublist
  refine ⟨fun k hk => h.unstored k fun row hrow hrk => ?_, fun k hreach hw => ?_⟩
  · obtain ⟨row', hrow', hb⟩ := stored_upsertMany_bucket rows hrow
    exact hk row' hrow' (hb.trans hrk)
  have hnc' : Nonneg (series.reload s (s.table.upsertMany rows)).cache := fun row hrow => by
    rcases mem_stored_upsertMany (hsync'.suffix.subset hrow) with hold | hnew
    · exact hn row hold
    · exact hrows row hnew
  by_cases hrow : ∃ row ∈ series.stored (s.table.upsertMany rows), row.bucketStartSec = k
  · obtain ⟨row, hrow, hrk⟩ := hrow
    have hmem : row ∈ (series.reload s (s.table.upsertMany rows)).cache := by
      refine Versioned.mem_of_suffix (stored_ascending _) hsync'.suffix (hsync'.bare rfl) hrow ?_
      rw [hrk]
      exact hreach
    simp only
    rw [cachedView_some hs' hnc' hmem hrk]
    by_cases hserves : c.Serves k
    · -- the stored row is as it was, and it was loaded
      have hload' := (reload_suffix s (s.table.upsertMany rows)).subset hmem
      rw [load_owned howned] at hload'
      have hfind : (s.table.upsertMany rows).findKey (series.key k) =
          s.table.findKey (series.key k) := upsertMany_stable fun r hr hkey => by
        have hrb : r.bucketStartSec = k := congrArg (·.2.2) hkey
        rw [← hkey]
        rcases hkeeps.1 r hr (by rw [hrb]; exact hserves) with hbelow | hstable
        · exact absurd hload' (hbelow.not_mem_load rows (hrk.trans hrb.symm))
        · exact hstable
      have hold : row ∈ series.stored s.table := by
        rw [mem_stored, hrk] at hrow ⊢
        rw [← hfind]
        exact hrow
      have hload : row ∈ series.load s.table series.historyLimit := by
        rw [load_owned hsync.owned]
        exact Versioned.mem_newest_of_key (stored_ascending _) (stored_ascending _)
          (fun e he => stored_upsertMany_bucket rows he) hold hload' rfl
      have hcached : row ∈ s.cache := hkeeps.2 row hload (by rw [hrk]; exact hserves)
      have hshows := h.shows k (reaches_of_mem hs hcached hrk) hw
      rw [cachedView_some hs hnc hcached hrk] at hshows
      exact hshows
    · unfold Subscriber.Serves at hserves
      cases hsnap : c.snapshot with
      | some message =>
        rw [hsnap] at hserves
        exact absurd (hw message hsnap) hserves
      | none =>
        rw [hsnap] at hserves
        exact .inl ⟨silent_of_not_touches hserves, fun _ hm => nomatch hm⟩
  · -- nothing was ever stored at the bucket
    have hnone : ∀ row ∈ (series.reload s (s.table.upsertMany rows)).cache,
        row.bucketStartSec ≠ k := fun row hmem hrk =>
      hrow ⟨row, hsync'.suffix.subset hmem, hrk⟩
    obtain ⟨hsilent, hsnap⟩ := h.unstored k fun row hmem hrk => by
      obtain ⟨row', hmem', hb⟩ := stored_upsertMany_bucket rows hmem
      exact hrow ⟨row', hmem', hb.trans hrk⟩
    simp only
    rw [cachedView_none hnc' hnone]
    exact .inl ⟨hsilent, hsnap⟩

end Chart
