import Thornado.Chart.CacheSync

/-!
# What a backfill repairs

A backfill stores the archive's candle of a bucket unless the stored row has a greater version.
`backfill_repairs_iff` says when the stored and the cached row then have the archive's values, and
keep them while nothing else is written at the bucket; `backfill_keeps_partial` is a run in which
they do not, because a stream row without a version was given the clock's.
-/

namespace Chart

open Rust Rust.Json Transition

variable {F : Type}

/-- Open, high, low, close and volume. -/
def CandleRow.ohlcv (row : CandleRow) : String × String × String × String × String :=
  (row.openX18, row.highX18, row.lowX18, row.closeX18, row.volumeX18)

def Candlestick.ohlcv (item : Candlestick) : String × String × String × String × String :=
  (toString item.openX18, toString item.highX18, toString item.lowX18, toString item.closeX18,
    toString item.volume)

/-- The step stores no row at the bucket. -/
def Leaves (json : SerdeJson F) (series : Series) (bucket : Int) (_ : SeriesSys)
    (a : SeriesAct) : Prop :=
  ∀ row ∈ a.rows json series, row.primaryKey ≠ series.key bucket

instance (json : SerdeJson F) (series : Series) (bucket : Int) (s : SeriesSys) (a : SeriesAct) :
    Decidable (Leaves json series bucket s a) :=
  inferInstanceAs (Decidable (∀ row ∈ a.rows json series, row.primaryKey ≠ series.key bucket))

/-- The stored row and every cached row of the bucket have these values. -/
def ShowsAt (series : Series) (bucket : Int) (s : SeriesSys)
    (values : String × String × String × String × String) : Prop :=
  (∃ row, s.table.findKey (series.key bucket) = some row ∧ row.ohlcv = values) ∧
    ∀ row ∈ s.cache, row.bucketStartSec = bucket → row.ohlcv = values

variable {series : Series}

/-! ## Storing the fetched rows -/

/-- Of ascending rows of the series one has the bucket, and its upsert decides what is stored. -/
theorem find_upsertMany_ascending {rows : List CandleRow} (howns : ∀ row ∈ rows, series.Owns row)
    (hasc : Ascending rows) {row : CandleRow} (hrow : row ∈ rows) (table : Table) :
    (table.upsertMany rows).findKey row.primaryKey = (table.upsert row).findKey row.primaryKey := by
  obtain ⟨pre, post, rfl⟩ := List.append_of_mem hrow
  obtain ⟨-, hpost, hpre⟩ := List.pairwise_append.1 hasc
  have hne : ∀ r ∈ pre ++ row :: post, r.bucketStartSec ≠ row.bucketStartSec →
      r.primaryKey ≠ row.primaryKey := fun r _ hb hk => hb (congrArg (·.2.2) hk)
  have hbefore : (pre.foldl Table.upsert table).findKey row.primaryKey =
      table.findKey row.primaryKey :=
    upsert_local.foldl_other pre table fun r hr =>
      hne r (List.mem_append_left _ hr) (Int.ne_of_lt (hpre r hr row List.mem_cons_self))
  unfold Table.upsertMany
  rw [List.foldl_append, List.foldl_cons, upsert_local.foldl_other post _ fun r hr => ?_,
    find_upsert_self, find_upsert_self, hbefore]
  exact hne r (List.mem_append_right _ (List.mem_cons_of_mem row hr))
    (Int.ne_of_gt ((List.pairwise_cons.1 hpost).1 r hr))

/-- A bucket that the response has once is fetched as that item. -/
theorem mem_fetched_of_once {candlesticks : List Candlestick} {fetched : List CandleRow}
    (hfetch : fetchArchive series (.ok candlesticks) = .ok fetched) {item : Candlestick}
    {bucket : Int}
    (honce : candlesticks.filter (normalizeTimestampToSec ·.timestamp = bucket) = [item]) :
    archiveRow series item ∈ fetched ∧ normalizeTimestampToSec item.timestamp = bucket := by
  have hmem : item ∈ candlesticks.filter (normalizeTimestampToSec ·.timestamp = bucket) := by
    rw [honce]
    exact List.mem_singleton_self item
  obtain ⟨hitem, hbucket⟩ := List.mem_filter.1 hmem
  have hbucket := of_decide_eq_true hbucket
  obtain ⟨row, hrow, hrb⟩ := fetchArchive_bucket hfetch hitem
  obtain ⟨item', hitem', rfl⟩ := mem_fetchArchive hfetch hrow
  have hmem' : item' ∈ candlesticks.filter (normalizeTimestampToSec ·.timestamp = bucket) :=
    List.mem_filter.2 ⟨hitem', decide_eq_true (hrb.trans hbucket)⟩
  rw [honce, List.mem_singleton] at hmem'
  exact ⟨hmem' ▸ hrow, hbucket⟩

/-! ## The bucket after the backfill -/

/-- The cache has no other row of the bucket than the stored one. -/
structure AgreesAt (series : Series) (bucket : Int) (stored : Option CandleRow) (s : SeriesSys) :
    Prop where
  find_eq : s.table.findKey (series.key bucket) = stored
  ascending : Ascending s.cache
  cached : ∀ row ∈ s.cache, row.bucketStartSec = bucket → stored = some row

theorem agreesAt_reload {bucket : Int} {s : SeriesSys} (table : Table) (ready : Bool) :
    AgreesAt series bucket (table.findKey (series.key bucket))
      { series.reload s table with ready := ready } := by
  have hcache := @reload_suffix series s table
  refine ⟨rfl, (load_ascending ..).sublist hcache.sublist, fun row hrow hb => ?_⟩
  rw [← hb]
  exact mem_stored.1 (mem_load (hcache.subset hrow))

/-- While nothing is written at the bucket, its stored row stays and stays the only one cached. -/
theorem AgreesAt.step {json : SerdeJson F} {bucket : Int} {stored : Option CandleRow}
    {s s' : SeriesSys} {a : SeriesAct} (h : AgreesAt series bucket stored s)
    (hok : Leaves json series bucket s a) (hstep : seriesStep json series s a = some s') :
    AgreesAt series bucket stored s' := by
  have hfind := find_seriesStep hstep hok
  rw [h.find_eq] at hfind
  unfold Leaves at hok
  obtain ⟨rows, rfl, rfl⟩ | heff := seriesStep_cases hstep
  · exact ⟨hfind, h.ascending, h.cached⟩
  · generalize a.rows json series = rows at heff hok
    cases heff with
    | idle => exact h
    | reload hwritten howns =>
      rw [← hfind]
      exact agreesAt_reload ..
    | @store row howns hready =>
      have hne : row.bucketStartSec ≠ bucket := fun hb =>
        hok row (List.mem_singleton_self row) (hb ▸ howns.primaryKey)
      refine ⟨hfind, applyRow_ascending h.ascending .., fun r hr hb => ?_⟩
      rcases mem_applyRow h.ascending hr with hr | rfl
      · exact h.cached r hr hb
      · exact absurd hb hne
    | restart => exact ⟨hfind, List.Pairwise.nil, fun _ hrow => nomatch hrow⟩

/-- The cache shows nothing else than the stored row. -/
theorem AgreesAt.shows_iff {bucket : Int} {stored : Option CandleRow} {s : SeriesSys}
    (h : AgreesAt series bucket stored s) {values : String × String × String × String × String} :
    ShowsAt series bucket s values ↔ ∃ row, stored = some row ∧ row.ohlcv = values := by
  unfold ShowsAt
  rw [h.find_eq]
  constructor
  · exact fun hshows => hshows.1
  · rintro ⟨row, rfl, hvalues⟩
    refine ⟨⟨row, rfl, hvalues⟩, fun r hr hb => ?_⟩
    cases h.cached r hr hb
    exact hvalues

/-- What a committed backfill leaves at a bucket that its response has once. -/
theorem agreesAt_backfill {json : SerdeJson F} {s s₁ : SeriesSys} {candlesticks : List Candlestick}
    {item : Candlestick} {bucket : Int}
    (honce : candlesticks.filter (normalizeTimestampToSec ·.timestamp = bucket) = [item])
    (hstep : seriesStep json series s (.backfill (.ok candlesticks) (.ok ())) = some s₁) :
    AgreesAt series bucket
      (match s.table.findKey (series.key bucket) with
        | none => some (archiveRow series item)
        | some stored =>
          if stored.submissionIdx ≤ item.submissionIdx then some (archiveRow series item)
          else some stored) s₁ := by
  obtain ⟨fetched, hfetch⟩ : ∃ fetched, fetchArchive series (.ok candlesticks) = .ok fetched :=
    ⟨_, rfl⟩
  obtain ⟨hmem, hbucket⟩ := mem_fetched_of_once hfetch honce
  have howns : series.Owns (archiveRow series item) := ⟨rfl, rfl, rfl⟩
  have hkey : (archiveRow series item).primaryKey = series.key bucket := by
    rw [howns.primaryKey, ← hbucket]
    rfl
  have hstored := find_upsertMany_ascending (fetchArchive_owns hfetch)
    (fetchArchive_ascending hfetch) hmem s.table
  rw [find_upsert_self, hkey] at hstored
  have hs₁ : s₁ = series.reload s (s.table.upsertMany fetched) := by
    simp only [seriesStep] at hstep
    split at hstep
    · have hcall : series.backfillFromArchive s (.ok candlesticks) (.ok ()) =
          .ok (series.reload s (s.table.upsertMany fetched)) := by
        unfold Series.backfillFromArchive
        rw [hfetch]
        have hne : fetched.isEmpty = false := by
          cases fetched with
          | nil => cases hmem
          | cons row rows => rfl
        simp only [bind, Except.bind, hne]
        rfl
      rw [hcall] at hstep
      cases hstep
      rfl
    · cases hstep
  have hagrees := @agreesAt_reload series bucket s (s.table.upsertMany fetched) s.ready
  rw [hstored] at hagrees
  rw [hs₁]
  exact hagrees

/-- **When a backfill repairs a bucket.** After a committed backfill whose response has the bucket
once, and as long as nothing else is stored at the bucket, the stored and the cached row have the
archive's values if and only if the row stored before had no greater version, or those values. -/
theorem backfill_repairs_iff {json : SerdeJson F} {s s₁ s₂ : SeriesSys}
    {candlesticks : List Candlestick} {item : Candlestick} {bucket : Int}
    (honce : candlesticks.filter (normalizeTimestampToSec ·.timestamp = bucket) = [item])
    (hstep : seriesStep json series s (.backfill (.ok candlesticks) (.ok ())) = some s₁)
    (hafter : Reach (seriesStep json series) (Leaves json series bucket) (· = s₁) s₂) :
    ShowsAt series bucket s₂ item.ohlcv ↔
      ∀ stored, s.table.findKey (series.key bucket) = some stored →
        stored.submissionIdx ≤ item.submissionIdx ∨ stored.ohlcv = item.ohlcv := by
  have hbackfill := agreesAt_backfill honce hstep
  have hagrees := hafter.inv (fun _ hs => hs ▸ hbackfill) fun _ _ _ h hok hst => h.step hok hst
  rw [hagrees.shows_iff]
  cases hfind : s.table.findKey (series.key bucket) with
  | none => exact ⟨fun _ _ h => (nomatch h), fun _ => ⟨_, rfl, rfl⟩⟩
  | some stored =>
    simp only [Option.some.injEq, forall_eq']
    split
    · rename_i hle
      exact ⟨fun _ => .inl hle, fun _ => ⟨_, rfl, rfl⟩⟩
    · rename_i hnle
      rw [or_iff_right hnle]
      constructor
      · rintro ⟨row, hrow, hvalues⟩
        cases hrow
        exact hvalues
      · exact fun hvalues => ⟨stored, rfl, hvalues⟩

/-! ## A candle cut off by an outage -/

def partialJson : SerdeJson Rat := candleJson [("60", "7", "3"), ("60", "7", ""), ("120", "8", "9")]

/-- The worker up to the outage: the candle of 60 with this version, received at 1700000000000. -/
def untilOutage (submissionIdx : String) : List SeriesAct :=
  [.bootstrap (.ok []) (.ok ()), .text (candleText "60" "7" submissionIdx) 1700000000000 (.ok ())]

/-- The archive's candle of 60. -/
def archived : Candlestick := archiveCandle 4 60 9

/-- The backfill of the reconnect. -/
def reconnect : SeriesAct := .backfill (.ok [archived]) (.ok ())

theorem backfill_repairs_outage : ∃ s s₁ s₂,
    run (seriesStep partialJson btcPerp) anyStep ⟨.empty, [], false⟩ (untilOutage "3") = some s ∧
    seriesStep partialJson btcPerp s reconnect = some s₁ ∧
    run (seriesStep partialJson btcPerp) (Leaves partialJson btcPerp 60) s₁
      [.text (candleText "120" "8" "9") 1700000060000 (.ok ())] = some s₂ ∧
    ShowsAt btcPerp 60 s₂ archived.ohlcv := by
  have hrun : ((run (seriesStep partialJson btcPerp) anyStep ⟨.empty, [], false⟩
      (untilOutage "3")).bind fun s => (seriesStep partialJson btcPerp s reconnect).bind fun s₁ =>
        (run (seriesStep partialJson btcPerp) (Leaves partialJson btcPerp 60) s₁
          [.text (candleText "120" "8" "9") 1700000060000 (.ok ())]).map fun _ =>
            (s.table.findKey (btcPerp.key 60)).map (·.submissionIdx)) = some (some 3) := by
    decide +kernel
  obtain ⟨s, hs, hrun⟩ := Option.bind_eq_some_iff.1 hrun
  obtain ⟨s₁, hs₁, hrun⟩ := Option.bind_eq_some_iff.1 hrun
  obtain ⟨s₂, hs₂, hstored⟩ := Option.map_eq_some_iff.1 hrun
  have hstart :
      Reach (seriesStep partialJson btcPerp) (Leaves partialJson btcPerp 60) (· = s₁) s₁ :=
    .start rfl
  have hafter := hstart.of_run hs₂
  refine ⟨s, s₁, s₂, hs, hs₁, hs₂, (backfill_repairs_iff (by decide) hs₁ hafter).2 ?_⟩
  intro stored hfind
  rw [hfind, Option.map_some, Option.some.injEq] at hstored
  rw [hstored]
  exact .inl (by decide)

/-- **A stale candle stays.** The stream row has no version and gets the clock's. -/
theorem backfill_keeps_partial : ∃ s,
    run (seriesStep partialJson btcPerp) anyStep ⟨.empty, [], false⟩
      (untilOutage "" ++ [reconnect]) = some s ∧
    ¬ ShowsAt btcPerp 60 s archived.ohlcv := by
  have hrun : (run (seriesStep partialJson btcPerp) anyStep ⟨.empty, [], false⟩
      (untilOutage "" ++ [reconnect])).map
        (fun s => (s.table.findKey (btcPerp.key 60)).map (·.ohlcv)) =
      some (some ("7", "7", "7", "7", "1")) := by
    decide +kernel
  obtain ⟨s, hs, hstored⟩ := Option.map_eq_some_iff.1 hrun
  refine ⟨s, hs, fun hshows => ?_⟩
  obtain ⟨row, hrow, hvalues⟩ := hshows.1
  rw [hrow, Option.map_some, Option.some.injEq, hvalues] at hstored
  exact absurd hstored (by decide)

end Chart
