import Thornado.Chart.WorkerFacts
import Thornado.Lib.Transition

/-!
# The runs of a series

A machine for one series over the shared table: the calls of its worker, each with any outcome, the
rows other writers of the table commit, and restarts of the process. `run_stream_once` and
`backfill_from_archive` are run by the worker only, which `ensure_series` spawns after a successful
`bootstrap`.

* `seriesStep_cases`: what a step can do (`Effect`).
* `find_seriesStep`: a step leaves a key alone that none of its rows has.
-/

namespace Chart

open Rust Rust.Json Transition
open Gate (bind_ok)

variable {F : Type}

inductive SeriesAct where
  | bootstrap (response : Except String (List Candlestick)) (commit : Except String Unit)
  /-- A text of the upstream subscription. -/
  | text (message : String) (nowMillis : Nat) (commit : Except String Unit)
  /-- `backfill_from_archive`, before every connection. -/
  | backfill (response : Except String (List Candlestick)) (commit : Except String Unit)
  | restart
  /-- A committed `upsert_many` of another writer. -/
  | others (rows : List CandleRow)

section
variable (json : SerdeJson F) (series : Series)

def seriesStep (s : SeriesSys) : SeriesAct → Option SeriesSys
  | .bootstrap response commit =>
    match series.bootstrap s response commit with
    | .ok s' => some { s' with ready := true }
    | .error _ => some s
  | .text text nowMillis commit =>
    if s.ready then
      match series.handleText s json text nowMillis commit with
      | .ok (s', _) => some s'
      | .error _ => some s
    else none
  | .backfill response commit =>
    if s.ready then
      match series.backfillFromArchive s response commit with
      | .ok s' => some s'
      | .error _ => some s
    else none
  | .restart => some { s with cache := [], ready := false }
  | .others rows => some { s with table := s.table.upsertMany rows }

/-- The rows a step stores if it commits. -/
def SeriesAct.rows : SeriesAct → List CandleRow
  | .bootstrap response _ | .backfill response _ => (fetchArchive series response).toOption.getD []
  | .text message nowMillis _ =>
    (readCandlestick json series message nowMillis).toOption.join.toList
  | .restart => []
  | .others rows => rows

end

/-- What a step with these rows can do. -/
inductive Effect (series : Series) (s : SeriesSys) : List CandleRow → SeriesSys → Prop
  | idle {rows : List CandleRow} : Effect series s rows s
  | reload {rows written : List CandleRow} (hwritten : written = [] ∨ written = rows)
      (howns : ∀ row ∈ rows, series.Owns row) :
      Effect series s rows
        { series.reload s (s.table.upsertMany written) with ready := true }
  | store {row : CandleRow} (howns : series.Owns row) (hready : s.ready = true) :
      Effect series s [row]
        { s with
          table := s.table.upsertMany [row]
          cache := (applyRow s.cache row series.cacheCapacity).1 }
  | restart : Effect series s [] { s with cache := [], ready := false }

section
variable {json : SerdeJson F} {series : Series} {s s' : SeriesSys}

theorem bootstrap_effect {response : Except String (List Candlestick)} {commit : Except String Unit}
    (h : seriesStep json series s (.bootstrap response commit) = some s') :
    Effect series s ((SeriesAct.bootstrap response commit).rows json series) s' := by
  simp only [seriesStep] at h
  cases hcall : series.bootstrap s response commit with
  | error err =>
    rw [hcall] at h
    cases h
    exact .idle
  | ok s₁ =>
    rw [hcall] at h
    cases h
    obtain ⟨rows, hrows, rfl⟩ := bootstrap_cases hcall
    have hwritten : rows = [] ∨
        rows = (SeriesAct.bootstrap response commit).rows json series := by
      rcases hrows with rfl | hrows
      · exact .inl rfl
      · simp only [SeriesAct.rows, hrows]
        exact .inr rfl
    exact .reload hwritten fetchArchive_getD_owns

theorem text_effect {text : String} {nowMillis : Nat} {commit : Except String Unit}
    (h : seriesStep json series s (.text text nowMillis commit) = some s') :
    Effect series s ((SeriesAct.text text nowMillis commit).rows json series) s' := by
  simp only [seriesStep] at h
  split at h
  · rename_i hready
    cases hcall : series.handleText s json text nowMillis commit with
    | error err =>
      rw [hcall] at h
      cases h
      exact .idle
    | ok res =>
      obtain ⟨s₁, update⟩ := res
      rw [hcall] at h
      cases h
      obtain ⟨rfl, -⟩ | ⟨row, hread, rfl, -⟩ := handleText_cases hcall
      · exact .idle
      · simp only [SeriesAct.rows, hread]
        exact .store (readCandlestick_owns hread) hready
  · cases h

theorem backfill_effect {response : Except String (List Candlestick)} {commit : Except String Unit}
    (h : seriesStep json series s (.backfill response commit) = some s') :
    Effect series s ((SeriesAct.backfill response commit).rows json series) s' := by
  simp only [seriesStep] at h
  split at h
  · rename_i hready
    cases hcall : series.backfillFromArchive s response commit with
    | error err =>
      rw [hcall] at h
      cases h
      exact .idle
    | ok s₁ =>
      rw [hcall] at h
      cases h
      obtain ⟨rows, hrows, ⟨-, rfl⟩ | ⟨-, -, rfl⟩⟩ := backfill_cases hcall
      · exact .idle
      · have hwritten : rows = (SeriesAct.backfill response commit).rows json series := by
          simp only [SeriesAct.rows, hrows]
          rfl
        have heff := Effect.reload (s := s) (.inr hwritten) fetchArchive_getD_owns
        have hsame : { series.reload s (s.table.upsertMany rows) with ready := true } =
            series.reload s (s.table.upsertMany rows) := by
          unfold Series.reload
          rw [← hready]
        rw [hsame] at heff
        exact heff
  · cases h

/-- **What a step can do**, the rows of other writers apart. -/
theorem seriesStep_cases {a : SeriesAct} (h : seriesStep json series s a = some s') :
    (∃ rows, a = .others rows ∧ s' = { s with table := s.table.upsertMany rows }) ∨
      Effect series s (a.rows json series) s' := by
  cases a with
  | bootstrap response commit => exact .inr (bootstrap_effect h)
  | text text nowMillis commit => exact .inr (text_effect h)
  | backfill response commit => exact .inr (backfill_effect h)
  | restart =>
    cases h
    exact .inr .restart
  | others rows =>
    cases h
    exact .inl ⟨rows, rfl, rfl⟩

end

/-- The table after a step of the series itself. -/
theorem Effect.table {series : Series} {s s' : SeriesSys} {rows : List CandleRow}
    (h : Effect series s rows s') :
    ∃ written, (∀ row ∈ written, series.Owns row) ∧ s'.table = s.table.upsertMany written := by
  cases h with
  | idle => exact ⟨[], fun _ hrow => (nomatch hrow), rfl⟩
  | @reload rows written hwritten howns =>
    refine ⟨written, ?_, rfl⟩
    rcases hwritten with rfl | rfl
    · exact fun _ hrow => nomatch hrow
    · exact howns
  | @store row howns hready =>
    exact ⟨[row], fun r hr => List.mem_singleton.1 hr ▸ howns, rfl⟩
  | restart => exact ⟨[], fun _ hrow => (nomatch hrow), rfl⟩

/-- A step leaves a key alone that none of its rows has. -/
theorem find_seriesStep {json : SerdeJson F} {series : Series} {s s' : SeriesSys} {a : SeriesAct}
    (h : seriesStep json series s a = some s') {key : UInt32 × UInt32 × Int}
    (hkey : ∀ row ∈ a.rows json series, row.primaryKey ≠ key) :
    s'.table.findKey key = s.table.findKey key := by
  obtain ⟨rows, rfl, rfl⟩ | heff := seriesStep_cases h
  · exact upsert_local.foldl_other rows s.table hkey
  · generalize a.rows json series = rows at heff hkey
    cases heff with
    | idle => rfl
    | reload hwritten _ =>
      rcases hwritten with rfl | rfl
      · rfl
      · exact upsert_local.foldl_other _ s.table hkey
    | store _ _ => exact upsert_local.foldl_other _ s.table hkey
    | restart => rfl

end Chart
