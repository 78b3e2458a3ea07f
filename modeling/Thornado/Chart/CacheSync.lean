import Thornado.Chart.SeriesRun

/-!
# The cache against the store

For a series that is the only writer of the rows of its product and granularity, the cache is the
newest rows of the store (`cache_newest`). The invariant `Synced` says it as a suffix; the version
rule of `apply_row` and that of the SQL upsert are one rule (`Versioned.upsert`), made in the
suffix or in the whole table.
-/

namespace Chart

open Rust Rust.Json Transition

variable {F : Type}

/-- The other writers stay off the product and granularity of the series. -/
def SoleWriter (series : Series) (_ : SeriesSys) : SeriesAct → Prop
  | .others rows =>
    ∀ row ∈ rows, ¬ (row.productId = series.productId ∧ row.granularity = series.granularity)
  | _ => True

instance (series : Series) (s : SeriesSys) (a : SeriesAct) : Decidable (SoleWriter series s a) := by
  unfold SoleWriter
  split
  · infer_instance
  · infer_instance

section
variable (series : Series)

/-- A new handle, over a table whose rows of the product and granularity the series wrote. -/
structure Fresh (s : SeriesSys) : Prop where
  cache : s.cache = []
  ready : s.ready = false
  owned : s.table.Owned series.symbol series.productId series.granularity

/-- The cache is a suffix of the stored rows, and of a worker that runs it is empty only if there
are none. -/
structure Synced (s : SeriesSys) : Prop where
  owned : s.table.Owned series.symbol series.productId series.granularity
  suffix : s.cache <:+ series.stored s.table
  bare : s.ready = true → s.cache = [] → series.stored s.table = []

end

variable {series : Series}

/-! ## Rows of the series -/

theorem Series.Owns.stored_upsert {row : CandleRow} (h : series.Owns row) (table : Table) :
    series.stored (table.upsert row) = upserted row (series.stored table) := by
  unfold Series.stored
  rw [← h.productId, ← h.granularity]
  exact storedRows_upsert table row

theorem owned_upsertMany {rows : List CandleRow} (h : ∀ row ∈ rows, series.Owns row) {table : Table}
    (ho : table.Owned series.symbol series.productId series.granularity) :
    (table.upsertMany rows).Owned series.symbol series.productId series.granularity := by
  intro row hrow
  rcases mem_stored_upsertMany hrow with hold | hnew
  · exact ho row hold
  · exact (h row hnew).symbol

/-- The rows of other writers do not show. -/
theorem stored_others {rows : List CandleRow}
    (h : ∀ row ∈ rows, ¬ (row.productId = series.productId ∧ row.granularity = series.granularity))
    (table : Table) : series.stored (table.upsertMany rows) = series.stored table := by
  unfold Table.upsertMany
  induction rows generalizing table with
  | nil => rfl
  | cons row rows ih =>
    rw [List.foldl_cons, ih fun r hr => h r (List.mem_cons_of_mem row hr)]
    exact storedRows_upsert_other table (h row List.mem_cons_self)

theorem newest_eq_nil {A : Type} {n : Nat} {rows : List A} (hn : 0 < n) (h : newest n rows = []) :
    rows = [] := by
  unfold newest at h
  have hlen := List.drop_eq_nil_iff.1 h
  exact List.eq_nil_of_length_eq_zero (by omega)

/-! ## The steps -/

theorem load_owned {table : Table}
    (ho : table.Owned series.symbol series.productId series.granularity) (limit : Nat) :
    series.load table limit = newest limit (series.stored table) :=
  ho.loadRecent limit

/-- A load makes the cache the newest rows, whatever it was. -/
theorem synced_reload {s : SeriesSys} {table : Table}
    (ho : table.Owned series.symbol series.productId series.granularity) (ready : Bool) :
    Synced series { series.reload s table with ready := ready } := by
  have hcache : (series.reload s table).cache =
      newest (min series.cacheCapacity series.historyLimit) (series.stored table) := by
    unfold Series.reload
    simp only
    rw [replaceAll_eq, load_owned ho, newest_newest]
  refine ⟨ho, ?_, fun _ hnil => ?_⟩
  · simp only
    rw [hcache]
    exact newest_suffix ..
  · simp only at hnil
    rw [hcache] at hnil
    have hlimit := series.historyLimit_ge
    have hcapacity := series.cacheCapacity_ge
    exact newest_eq_nil (by omega) hnil

/-- **A row of the stream** is upserted in the store and, unless it is older than the whole cache,
in the cache. -/
theorem Synced.store {s : SeriesSys} (h : Synced series s) (hready : s.ready = true)
    {row : CandleRow} (howns : series.Owns row) :
    Synced series { s with
      table := s.table.upsertMany [row]
      cache := (applyRow s.cache row series.cacheCapacity).1 } := by
  have hrows : Ascending (series.stored s.table) := stored_ascending s.table
  have hcache : Ascending s.cache := List.Pairwise.sublist h.suffix.sublist hrows
  have hstored : series.stored (s.table.upsertMany [row]) = upserted row (series.stored s.table) :=
    howns.stored_upsert s.table
  have howned := owned_upsertMany (fun r hr => List.mem_singleton.1 hr ▸ howns) h.owned
  obtain ⟨happ, hne, hold⟩ | ⟨happ, -, hout⟩ | ⟨n, hn, happ, hreach, hout⟩ :=
    applyRow_cases hcache row series.cacheCapacity
  · -- older than the cache
    rw [happ]
    refine ⟨howned, ?_, fun _ hnil => absurd hnil hne⟩
    rw [hstored]
    exact Versioned.suffix_upsert_of_older h.suffix hne hold
  · -- refused by the cache, and by the store
    rw [happ]
    obtain ⟨e, he, hk, hv⟩ := hout
    have hsame : upserted row (series.stored s.table) = series.stored s.table :=
      Versioned.upsert_outdated hrows ⟨e, h.suffix.subset he, hk, hv⟩
    rw [hsame] at hstored
    refine ⟨howned, ?_, ?_⟩
    · rw [hstored]
      exact h.suffix
    · rw [hstored]
      exact h.bare
  · rw [happ]
    refine ⟨howned, ?_, fun _ hnil => ?_⟩
    · rw [hstored]
      have hsuffix : upserted row s.cache <:+ upserted row (series.stored s.table) :=
        Versioned.upsert_suffix hrows h.suffix hreach (h.bare hready)
      exact (newest_suffix n _).trans hsuffix
    · have hlimit := series.historyLimit_ge
      have hcapacity := series.cacheCapacity_ge
      have hmem : row ∈ upserted row s.cache := (Versioned.mem_upsert hcache).2 (.inr ⟨rfl, hout⟩)
      rw [newest_eq_nil (by omega) hnil] at hmem
      cases hmem

theorem Synced.step {json : SerdeJson F} {s s' : SeriesSys} {a : SeriesAct}
    (h : Synced series s) (hok : SoleWriter series s a)
    (hstep : seriesStep json series s a = some s') : Synced series s' := by
  obtain ⟨rows, rfl, rfl⟩ | heff := seriesStep_cases hstep
  · have hstored := stored_others hok s.table
    refine ⟨?_, ?_, ?_⟩
    · intro row hrow
      change row ∈ series.stored _ at hrow
      rw [hstored] at hrow
      exact h.owned row hrow
    · rw [hstored]
      exact h.suffix
    · rw [hstored]
      exact h.bare
  · generalize a.rows json series = rows at heff
    cases heff with
    | idle => exact h
    | reload hwritten howns =>
      refine synced_reload (owned_upsertMany ?_ h.owned) true
      rcases hwritten with rfl | rfl
      · exact fun _ hrow => nomatch hrow
      · exact howns
    | store howns hready => exact h.store hready howns
    | restart => exact ⟨h.owned, List.nil_suffix, fun hready => nomatch hready⟩

theorem Reach.synced {json : SerdeJson F} {s : SeriesSys}
    (h : Reach (seriesStep json series) (SoleWriter series) (Fresh series) s) :
    Synced series s := by
  refine h.inv (fun s hs => ?_) fun s a s' hsync hok hstep => hsync.step hok hstep
  refine ⟨hs.owned, ?_, fun hready => ?_⟩
  · rw [hs.cache]
    exact List.nil_suffix
  · rw [hs.ready] at hready
    cases hready

/-! ## The cache -/

/-- **The cache is the newest stored rows.** In every run of a series that is the only writer of
its rows, the cache is what `load_recent` returns for as many rows as it holds, oldest first. -/
theorem cache_newest {json : SerdeJson F} {s : SeriesSys}
    (h : Reach (seriesStep json series) (SoleWriter series) (Fresh series) s) :
    s.cache = series.load s.table s.cache.length ∧ Ascending s.cache := by
  obtain ⟨howned, hsuffix, -⟩ := Reach.synced h
  refine ⟨?_, List.Pairwise.sublist hsuffix.sublist (stored_ascending s.table)⟩
  rw [load_owned howned]
  exact (newest_length_of_suffix hsuffix).symm

/-! ## A late candle -/

def btcPerp : Series where
  symbol := "BTC-PERP"
  productId := 2
  granularity := 60
  historyLimit := 50
  cacheCapacity := 50
  historyLimit_ge := by decide
  historyLimit_le := by decide
  cacheCapacity_ge := by decide
  cacheCapacity_le := by decide

/-- A candle of `btcPerp` as the upstream sends it, with the same price throughout; the version is
left out if it is empty. -/
def candleText (timestamp priceX18 submissionIdx : String) : String :=
  "\x7b\"type\":\"latest_candlestick\",\"product_id\":2,\"granularity\":60," ++
    "\"timestamp\":\"" ++ timestamp ++ "\",\"open_x18\":\"" ++ priceX18 ++
    "\",\"high_x18\":\"" ++ priceX18 ++ "\",\"low_x18\":\"" ++ priceX18 ++
    "\",\"close_x18\":\"" ++ priceX18 ++ "\",\"volume\":\"1\"" ++
    (if submissionIdx = "" then "" else ",\"submission_idx\":\"" ++ submissionIdx ++ "\"") ++ "\x7d"

def candleValue (timestamp priceX18 submissionIdx : String) : Value Rat :=
  .object ([("type", .string "latest_candlestick"), ("product_id", .number (.posInt 2)),
    ("granularity", .number (.posInt 60)), ("timestamp", .string timestamp),
    ("open_x18", .string priceX18), ("high_x18", .string priceX18), ("low_x18", .string priceX18),
    ("close_x18", .string priceX18), ("volume", .string "1")] ++
      if submissionIdx = "" then [] else [("submission_idx", .string submissionIdx)])

/-- A parser of these candles. -/
def candleJson (candles : List (String × String × String)) : SerdeJson Rat where
  fromStr text :=
    match candles.find? fun (t, p, i) => text = candleText t p i with
    | some (t, p, i) => .ok (candleValue t p i)
    | none => .error "expected value"
  display _ := ""

/-- A candle of the archive with the same price throughout. -/
def archiveCandle (submissionIdx timestamp priceX18 : Int) : Candlestick :=
  ⟨submissionIdx, timestamp, priceX18, priceX18, priceX18, priceX18, 1⟩

def lateJson : SerdeJson Rat :=
  candleJson [("120", "7", "5"), ("60", "8", "9"), ("120", "6", "3")]

/-- The candle of 60 arrives after that of 120, then 120 again with an old version; a backfill
fails to commit. -/
def lateActs : List SeriesAct :=
  [.bootstrap (.ok []) (.ok ()),
    .text (candleText "120" "7" "5") 0 (.ok ()),
    .text (candleText "60" "8" "9") 0 (.ok ()),
    .text (candleText "120" "6" "3") 0 (.ok ()),
    .backfill (.ok [archiveCandle 4 180 9]) (.error "connection reset"),
    .others [archiveRow { btcPerp with productId := 7 } (archiveCandle 1 240 5)]]

theorem cache_newest_late : ∃ s,
    run (seriesStep lateJson btcPerp) (SoleWriter btcPerp) ⟨.empty, [], false⟩ lateActs = some s ∧
    (s.cache.map (·.bucketStartSec), (btcPerp.stored s.table).map (·.bucketStartSec)) =
      ([120], [60, 120]) ∧
    s.cache = btcPerp.load s.table s.cache.length ∧ Ascending s.cache := by
  have hrun : (run (seriesStep lateJson btcPerp) (SoleWriter btcPerp) ⟨.empty, [], false⟩
      lateActs).map (fun s => (s.cache.map (·.bucketStartSec),
        (btcPerp.stored s.table).map (·.bucketStartSec))) = some ([120], [60, 120]) := by
    decide +kernel
  obtain ⟨s, hs, hrows⟩ := Option.map_eq_some_iff.1 hrun
  have hfresh : Fresh btcPerp ⟨.empty, [], false⟩ :=
    ⟨rfl, rfl, fun row hrow => nomatch Table.mem_storedRows.1 hrow⟩
  exact ⟨s, hs, hrows, cache_newest (Reach.of_run (.start hfresh) hs)⟩

end Chart
