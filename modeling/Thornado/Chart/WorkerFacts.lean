import Thornado.Chart.Worker
import Thornado.Lib.Gate

/-!
# What the worker's calls do

The rows a series reads, and for each call that can change its store and cache, all that it can
have done when it returns.

* `normalizeTimestampToSec_sound`: the second of a timestamp in any unit.
* `fetchArchive_ascending`, `mem_fetchArchive`, `fetchArchive_bucket`: the fetched rows.
* `bootstrap_cases`, `backfill_cases`, `handleText_cases`: the calls.
-/

namespace Chart

open Rust Rust.Json
open Gate (bind_ok)

variable {F : Type}

/-- The row is one the series writes. -/
structure Series.Owns (series : Series) (row : CandleRow) : Prop where
  productId : row.productId = series.productId
  granularity : row.granularity = series.granularity
  symbol : row.symbol = series.symbol

section
variable (series : Series)

/-- The key of a bucket of the series. -/
def Series.key (bucket : Int) : UInt32 × UInt32 × Int :=
  (series.productId, series.granularity, bucket)

/-- The rows the table holds for the series. -/
def Series.stored (table : Table) : List CandleRow :=
  table.storedRows series.productId series.granularity

end

section
variable {series : Series}

theorem Series.Owns.primaryKey {row : CandleRow} (h : series.Owns row) :
    row.primaryKey = series.key row.bucketStartSec := by
  unfold CandleRow.primaryKey Series.key
  rw [h.productId, h.granularity]

theorem mem_stored {table : Table} {row : CandleRow} :
    row ∈ series.stored table ↔ table.findKey (series.key row.bucketStartSec) = some row :=
  Table.mem_storedRows

/-- The series has a row of the bucket. -/
theorem stored_bucket_iff {table : Table} {bucket : Int} :
    (∃ row ∈ series.stored table, row.bucketStartSec = bucket) ↔
      (table.findKey (series.key bucket)).isSome := by
  constructor
  · rintro ⟨row, hrow, rfl⟩
    rw [mem_stored.1 hrow]
    rfl
  · intro h
    obtain ⟨row, hrow⟩ := Option.isSome_iff_exists.1 h
    have hb : row.bucketStartSec = bucket := (table.keyed _ _ _ _ hrow).2.2
    exact ⟨row, mem_stored.2 (hb.symm ▸ hrow), hb⟩

/-- Upserts remove no bucket. -/
theorem stored_upsertMany_bucket (rows : List CandleRow) {table : Table} {row : CandleRow}
    (h : row ∈ series.stored table) :
    ∃ row' ∈ series.stored (table.upsertMany rows), row'.bucketStartSec = row.bucketStartSec := by
  rw [stored_bucket_iff]
  exact upsertMany_isSome rows (stored_bucket_iff.1 ⟨row, h, rfl⟩)

theorem mem_stored_upsertMany {rows : List CandleRow} {table : Table} {row : CandleRow}
    (h : row ∈ series.stored (table.upsertMany rows)) : row ∈ series.stored table ∨ row ∈ rows := by
  rcases findKey_upsertMany rows (mem_stored.1 h) with h | h
  · exact .inl (mem_stored.2 h)
  · exact .inr h

theorem stored_ascending (table : Table) : Ascending (series.stored table) :=
  table.storedRows_ascending ..

/-- Loaded rows are stored rows. -/
theorem mem_load {table : Table} {limit : Nat} {row : CandleRow}
    (h : row ∈ series.load table limit) : row ∈ series.stored table := by
  unfold Series.load at h
  rw [loadRecent_eq] at h
  exact (List.mem_filter.1 ((newest_suffix ..).subset h)).1

theorem load_ascending (table : Table) (limit : Nat) : Ascending (series.load table limit) := by
  unfold Series.load
  rw [loadRecent_eq]
  exact ((stored_ascending table).sublist List.filter_sublist).sublist (newest_suffix ..).sublist

/-- The cache is the newest rows that were loaded. -/
theorem reload_suffix (s : SeriesSys) (table : Table) :
    (series.reload s table).cache <:+ series.load table series.historyLimit := by
  unfold Series.reload
  simp only
  rw [replaceAll_eq]
  exact newest_suffix ..

end

/-! ## Timestamps -/

/-- The units a timestamp may be in. -/
inductive TimeUnit where
  | seconds
  | milliseconds
  | microseconds
  | nanoseconds

def TimeUnit.perSecond : TimeUnit → Int
  | .seconds => 1
  | .milliseconds => 1000
  | .microseconds => 1000000
  | .nanoseconds => 1000000000

/-- The value is an `i64`. -/
def InI64 (v : Int) : Prop := -2 ^ 63 ≤ v ∧ v < 2 ^ 63

/-- Each unit's encodings of these seconds fill one band. -/
theorem normalizeTimestampToSec_encoded (unit : TimeUnit) {t remainder : Int}
    (hlow : 10 ^ 7 ≤ t) (hhigh : t ≤ 9999999999) (h0 : 0 ≤ remainder)
    (hrem : remainder < unit.perSecond) :
    normalizeTimestampToSec (t * unit.perSecond + remainder) = t := by
  cases unit with
  | seconds =>
    have hrem : remainder < 1 := hrem
    show normalizeTimestampToSec (t * 1 + remainder) = t
    unfold normalizeTimestampToSec
    rw [if_neg (by omega), if_neg (by omega), if_neg (by omega)]
    omega
  | milliseconds =>
    have hrem : remainder < 1000 := hrem
    show normalizeTimestampToSec (t * 1000 + remainder) = t
    unfold normalizeTimestampToSec
    rw [if_neg (by omega), if_neg (by omega), if_pos (by omega)]
    omega
  | microseconds =>
    have hrem : remainder < 1000000 := hrem
    show normalizeTimestampToSec (t * 1000000 + remainder) = t
    unfold normalizeTimestampToSec
    rw [if_neg (by omega), if_pos (by omega)]
    omega
  | nanoseconds =>
    have hrem : remainder < 1000000000 := hrem
    show normalizeTimestampToSec (t * 1000000000 + remainder) = t
    unfold normalizeTimestampToSec
    rw [if_pos (by omega)]
    omega

theorem normalizeTimestampToSec_le {v : Int} (h : InI64 v) :
    normalizeTimestampToSec v ≤ 9999999999 := by
  have hmax := h.2
  unfold normalizeTimestampToSec
  split
  · omega
  · split
    · omega
    · split <;> omega

/-- Seconds stay. -/
theorem normalizeTimestampToSec_of_le {v : Int} (h : v ≤ 9999999999) :
    normalizeTimestampToSec v = v := by
  unfold normalizeTimestampToSec
  rw [if_neg (by omega), if_neg (by omega), if_neg (by omega)]

/-- The second comes back from every unit, and stays. -/
theorem normalizeTimestampToSec_sound :
    (∀ (unit : TimeUnit) (t remainder : Int), 10 ^ 7 ≤ t → t ≤ 9999999999 → 0 ≤ remainder →
      remainder < unit.perSecond → InI64 (t * unit.perSecond + remainder) →
        normalizeTimestampToSec (t * unit.perSecond + remainder) = t) ∧
    ∀ v, InI64 v →
      normalizeTimestampToSec (normalizeTimestampToSec v) = normalizeTimestampToSec v :=
  ⟨fun unit _ _ hlow hhigh h0 hrem _ =>
      normalizeTimestampToSec_encoded unit hlow hhigh h0 hrem,
    fun _ h => normalizeTimestampToSec_of_le (normalizeTimestampToSec_le h)⟩

theorem normalizeTimestampToSec_sound_nanoseconds :
    normalizeTimestampToSec (1700000000 * 1000000000 + 999999999) = 1700000000 ∧
      normalizeTimestampToSec (normalizeTimestampToSec (2 ^ 63 - 1)) =
        normalizeTimestampToSec (2 ^ 63 - 1) :=
  ⟨normalizeTimestampToSec_sound.1 .nanoseconds 1700000000 999999999 (by decide) (by decide)
      (by decide) (by decide) ⟨by decide, by decide⟩,
    normalizeTimestampToSec_sound.2 (2 ^ 63 - 1) ⟨by decide, by decide⟩⟩

/-! ## Rows of the stream -/

theorem parseLatestCandlestick_row {payload : Value F} {series : Series} {nowMillis : Nat}
    {row : CandleRow}
    (h : parseLatestCandlestick payload series.symbol series.productId series.granularity
      nowMillis = .ok (some row)) :
    series.Owns row ∧ ∃ rawTimestamp,
      (payload.get "timestamp").bind valueToI64 = some rawTimestamp ∧
      row.bucketStartSec = normalizeTimestampToSec rawTimestamp := by
  unfold parseLatestCandlestick at h
  split at h
  · rename_i object hobject
    simp only at h
    split at h
    · cases h
    · obtain ⟨productId, -, h⟩ := bind_ok h
      split at h
      · cases h
      · rename_i hproduct
        obtain ⟨granularity, -, h⟩ := bind_ok h
        split at h
        · cases h
        · rename_i hgranularity
          obtain ⟨rawTimestamp, hraw, h⟩ := bind_ok h
          obtain ⟨_, -, h⟩ := bind_ok h
          obtain ⟨_, -, h⟩ := bind_ok h
          obtain ⟨_, -, h⟩ := bind_ok h
          obtain ⟨_, -, h⟩ := bind_ok h
          obtain ⟨_, -, h⟩ := bind_ok h
          cases h
          refine ⟨?_, rawTimestamp, ?_, rfl⟩
          · rw [Decidable.not_not.1 hproduct, Decidable.not_not.1 hgranularity]
            exact ⟨UInt32.ofNat_toNat, UInt32.ofNat_toNat, rfl⟩
          · unfold Value.get
            rw [hobject]
            exact okOr_eq_ok.1 hraw
  · cases h

theorem parseLatestCandlestick_owns {payload : Value F} {series : Series} {nowMillis : Nat}
    {row : CandleRow}
    (h : parseLatestCandlestick payload series.symbol series.productId series.granularity
      nowMillis = .ok (some row)) : series.Owns row :=
  (parseLatestCandlestick_row h).1

/-- A row is filed under the second of its message's timestamp, whatever its unit. -/
theorem parseLatestCandlestick_bucket {payload : Value F} {series : Series} {nowMillis : Nat}
    {row : CandleRow}
    (h : parseLatestCandlestick payload series.symbol series.productId series.granularity
      nowMillis = .ok (some row)) (unit : TimeUnit) {t remainder : Int} (hlow : 10 ^ 7 ≤ t)
    (hhigh : t ≤ 9999999999) (h0 : 0 ≤ remainder) (hrem : remainder < unit.perSecond)
    (hts : (payload.get "timestamp").bind valueToI64 = some (t * unit.perSecond + remainder)) :
    row.bucketStartSec = t := by
  obtain ⟨-, rawTimestamp, hraw, hbucket⟩ := parseLatestCandlestick_row h
  rw [hts] at hraw
  cases hraw
  rw [hbucket]
  exact normalizeTimestampToSec_encoded unit hlow hhigh h0 hrem

theorem readCandlestick_owns {json : SerdeJson F} {series : Series} {text : String}
    {nowMillis : Nat} {row : CandleRow}
    (h : readCandlestick json series text nowMillis = .ok (some row)) : series.Owns row := by
  unfold readCandlestick at h
  split at h
  · cases h
  · split at h
    · cases h
    · exact parseLatestCandlestick_owns h

/-! ## Rows of the archive -/

/-- The fetched rows are rows of the response. -/
theorem mem_fetchArchive {series : Series} {candlesticks : List Candlestick}
    {fetched : List CandleRow} (h : fetchArchive series (.ok candlesticks) = .ok fetched)
    {row : CandleRow} (hrow : row ∈ fetched) :
    ∃ item ∈ candlesticks, row = archiveRow series item := by
  cases h
  have hmem := (dedupByKey_sublist _).subset hrow
  rw [mem_sortByKey, List.mem_map] at hmem
  obtain ⟨item, hitem, rfl⟩ := hmem
  exact ⟨item, hitem, rfl⟩

/-- Every bucket of the response has a fetched row. -/
theorem fetchArchive_bucket {series : Series} {candlesticks : List Candlestick}
    {fetched : List CandleRow} (h : fetchArchive series (.ok candlesticks) = .ok fetched)
    {item : Candlestick} (hitem : item ∈ candlesticks) :
    ∃ row ∈ fetched, row.bucketStartSec = normalizeTimestampToSec item.timestamp := by
  cases h
  have hrow : archiveRow series item ∈
      sortByKey CandleRow.bucketStartSec (candlesticks.map (archiveRow series)) :=
    mem_sortByKey.2 (List.mem_map_of_mem hitem)
  exact exists_mem_dedupByKey hrow

theorem fetchArchive_ascending {series : Series} {response : Except String (List Candlestick)}
    {fetched : List CandleRow} (h : fetchArchive series response = .ok fetched) :
    Ascending fetched := by
  unfold fetchArchive at h
  obtain ⟨candlesticks, -, h⟩ := bind_ok h
  cases h
  exact dedupByKey_sorted (sortByKey_sorted _)

theorem fetchArchive_owns {series : Series} {response : Except String (List Candlestick)}
    {fetched : List CandleRow} (h : fetchArchive series response = .ok fetched) :
    ∀ row ∈ fetched, series.Owns row := by
  intro row hrow
  cases response with
  | error err => cases h
  | ok candlesticks =>
    obtain ⟨item, -, rfl⟩ := mem_fetchArchive h hrow
    exact ⟨rfl, rfl, rfl⟩

theorem fetchArchive_getD_owns {series : Series} {response : Except String (List Candlestick)} :
    ∀ row ∈ (fetchArchive series response).toOption.getD [], series.Owns row := by
  intro row hrow
  cases hfetch : fetchArchive series response with
  | error err =>
    rw [hfetch] at hrow
    cases hrow
  | ok fetched =>
    rw [hfetch] at hrow
    exact fetchArchive_owns hfetch row hrow

/-! ## What the calls do -/

section
variable {series : Series} {s s' : SeriesSys}

/-- **`bootstrap`** loads, after the fetched rows were stored if any had to be fetched. -/
theorem bootstrap_cases {response : Except String (List Candlestick)} {commit : Except String Unit}
    (h : series.bootstrap s response commit = .ok s') :
    ∃ rows, (rows = [] ∨ fetchArchive series response = .ok rows) ∧
      s' = series.reload s (s.table.upsertMany rows) := by
  unfold Series.bootstrap at h
  split at h
  · obtain ⟨fetched, hfetched, h⟩ := bind_ok h
    split at h
    · cases h
      exact ⟨[], .inl rfl, rfl⟩
    · obtain ⟨-, -, h⟩ := bind_ok h
      cases h
      exact ⟨fetched, .inr hfetched, rfl⟩
  · cases h
    exact ⟨[], .inl rfl, rfl⟩

/-- **`backfill_from_archive`** stores what it fetched and loads; with nothing fetched it does
neither. -/
theorem backfill_cases {response : Except String (List Candlestick)} {commit : Except String Unit}
    (h : series.backfillFromArchive s response commit = .ok s') :
    ∃ rows, fetchArchive series response = .ok rows ∧
      ((rows = [] ∧ s' = s) ∨
        (rows ≠ [] ∧ commit = .ok () ∧ s' = series.reload s (s.table.upsertMany rows))) := by
  unfold Series.backfillFromArchive at h
  obtain ⟨fetched, hfetched, h⟩ := bind_ok h
  refine ⟨fetched, hfetched, ?_⟩
  split at h
  · rename_i hempty
    cases h
    exact .inl ⟨List.isEmpty_iff.1 hempty, rfl⟩
  · rename_i hempty
    obtain ⟨⟨⟩, hcommit, h⟩ := bind_ok h
    cases h
    exact .inr ⟨fun h => hempty (List.isEmpty_iff.2 h), hcommit, rfl⟩

/-- **An upstream text** is not for this series, or its row is stored and applied. -/
theorem handleText_cases {json : SerdeJson F} {text : String} {nowMillis : Nat}
    {commit : Except String Unit} {update : Option CandleRow}
    (h : series.handleText s json text nowMillis commit = .ok (s', update)) :
    (s' = s ∧ update = none) ∨
    ∃ row, readCandlestick json series text nowMillis = .ok (some row) ∧
      s' = { s with
        table := s.table.upsertMany [row]
        cache := (applyRow s.cache row series.cacheCapacity).1 } ∧
      update = if (applyRow s.cache row series.cacheCapacity).2 then some row else none := by
  unfold Series.handleText at h
  obtain ⟨row?, hread, h⟩ := bind_ok h
  cases row? with
  | none =>
    cases h
    exact .inl ⟨rfl, rfl⟩
  | some row =>
    obtain ⟨⟨s₁, changed⟩, hstore, h⟩ := bind_ok h
    unfold Series.storeRow at hstore
    obtain ⟨-, -, hstore⟩ := bind_ok hstore
    cases hstore
    cases h
    exact .inr ⟨row, hread, rfl, rfl⟩

end

end Chart
