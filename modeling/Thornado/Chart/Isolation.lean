import Thornado.Chart.CacheSync
import Thornado.Symbols.Directory

/-!
# Two series over one table

The primary key of the table has no symbol, `load_recent` filters by it, and `ensure_series` makes
a series for every name the symbol directory knows. Two series under different names keep each
other's history if and only if their keys differ in the product or the granularity
(`isolated_iff`); an alias and the name it is short for do not (`alias_hides_history`).
-/

namespace Chart

open Rust Rust.Json Symbols Transition

variable {F : Type}

/-! ## The supervisor -/

/-- A `Supervisor`'s configuration and symbol directory. -/
structure Supervisor where
  historyLimit : Nat
  cacheCapacity : Nat
  historyLimit_ge : 50 ≤ historyLimit
  historyLimit_le : historyLimit ≤ 2000
  cacheCapacity_ge : historyLimit ≤ cacheCapacity
  cacheCapacity_le : cacheCapacity ≤ 10000
  supportedGranularities : List UInt32
  directory : SymbolDirectory

/-- The handle `ensure_series` creates if none is registered under the name and granularity. -/
def Supervisor.newSeries [UnicodeCase] (supervisor : Supervisor) (symbol : String)
    (granularity : UInt32) : Except String Series :=
  if granularity ∉ supervisor.supportedGranularities then
    throw ("unsupported granularity '" ++ toString granularity ++ "'")
  else
    match supervisor.directory.lookup.lookup (normalizeSymbol symbol) with
    | none => throw ("unknown symbol '" ++ symbol ++ "'")
    | some productId =>
      return { supervisor with
        symbol := normalizeSymbol symbol, productId := productId, granularity := granularity }

theorem newSeries_ok [UnicodeCase] {supervisor : Supervisor} {symbol : String}
    {granularity : UInt32} {series : Series}
    (h : supervisor.newSeries symbol granularity = .ok series) :
    series.symbol = normalizeSymbol symbol ∧ series.granularity = granularity ∧
      supervisor.directory.lookup.lookup (normalizeSymbol symbol) = some series.productId := by
  unfold Supervisor.newSeries at h
  split at h
  · cases h
  · split at h
    · cases h
    · rename_i hlookup
      cases h
      exact ⟨rfl, rfl, hlookup⟩

/-! ## Two workers -/

inductive Twin where
  | first
  | second
  deriving DecidableEq

/-- One table, and the cache and state of each of two handles. -/
structure PairSys where
  table : Table
  cache : Twin → List CandleRow := fun _ => []
  ready : Twin → Bool := fun _ => false

def PairSys.sys (s : PairSys) (w : Twin) : SeriesSys := ⟨s.table, s.cache w, s.ready w⟩

def PairSys.put (s : PairSys) (w : Twin) (sys : SeriesSys) : PairSys where
  table := sys.table
  cache := Function.update s.cache w sys.cache
  ready := Function.update s.ready w sys.ready

/-- The step is one of the series itself. -/
def SeriesAct.isOwn : SeriesAct → Bool
  | .others _ => false
  | _ => true

/-- A step of one of the workers. -/
def pairStep (json : SerdeJson F) (series : Twin → Series) (s : PairSys) (a : Twin × SeriesAct) :
    Option PairSys :=
  if a.2.isOwn then (seriesStep json (series a.1) (s.sys a.1) a.2).map (s.put a.1) else none

/-- Both handles are new; the table is whatever earlier processes left. -/
structure PairStart (s : PairSys) : Prop where
  cache : ∀ w, s.cache w = []
  ready : ∀ w, s.ready w = false

/-- The history of the series has the bucket: a long enough `load_recent` returns a row of it. -/
def Series.HasBucket (series : Series) (table : Table) (bucket : Int) : Prop :=
  ∃ limit, ∃ row ∈ series.load table limit, row.bucketStartSec = bucket

/-- Whatever bucket one of the histories has at some time of a run, it has from then on. -/
def Isolated (json : SerdeJson F) (series : Twin → Series) : Prop :=
  ∀ s s', Reach (pairStep json series) anyStep PairStart s →
    Reach (pairStep json series) anyStep (· = s) s' →
      ∀ w bucket, (series w).HasBucket s.table bucket → (series w).HasBucket s'.table bucket

/-! ## The history at a bucket -/

variable {series : Series}

theorem hasBucket_iff {table : Table} {bucket : Int} :
    series.HasBucket table bucket ↔
      ∃ row, table.findKey (series.key bucket) = some row ∧ row.symbol = series.symbol := by
  unfold Series.HasBucket Series.load
  simp only [loadRecent_eq]
  constructor
  · rintro ⟨limit, row, hrow, rfl⟩
    obtain ⟨hstored, hsymbol⟩ := List.mem_filter.1 ((newest_suffix ..).subset hrow)
    exact ⟨row, mem_stored.1 hstored, of_decide_eq_true hsymbol⟩
  · rintro ⟨row, hfind, hsymbol⟩
    have hb : row.bucketStartSec = bucket := (table.keyed _ _ _ _ hfind).2.2
    have hstored : row ∈ series.stored table := mem_stored.2 (hb.symm ▸ hfind)
    refine ⟨(series.stored table).length, row, ?_, hb⟩
    rw [newest_of_length_le]
    · exact List.mem_filter.2 ⟨hstored, decide_eq_true hsymbol⟩
    · exact List.length_filter_le ..

/-- The rows of the series keep its own history. -/
theorem hasBucket_own {written : List CandleRow} (howns : ∀ row ∈ written, series.Owns row)
    {table : Table} {bucket : Int} (h : series.HasBucket table bucket) :
    series.HasBucket (table.upsertMany written) bucket := by
  rw [hasBucket_iff] at h ⊢
  obtain ⟨row, hfind, hsymbol⟩ := h
  have hsome : ((table.upsertMany written).findKey (series.key bucket)).isSome :=
    upsertMany_isSome written (by rw [hfind]; rfl)
  obtain ⟨row', hfind'⟩ := Option.isSome_iff_exists.1 hsome
  refine ⟨row', hfind', ?_⟩
  rcases findKey_upsertMany written hfind' with hold | hnew
  · rw [hfind] at hold
    cases hold
    exact hsymbol
  · exact (howns row' hnew).symbol

/-- The rows of a series of another product or granularity do not touch it. -/
theorem hasBucket_other {other : Series} {written : List CandleRow}
    (howns : ∀ row ∈ written, other.Owns row)
    (hne : ¬ (other.productId = series.productId ∧ other.granularity = series.granularity))
    {table : Table} {bucket : Int} (h : series.HasBucket table bucket) :
    series.HasBucket (table.upsertMany written) bucket := by
  rw [hasBucket_iff] at h ⊢
  have hfind : (table.upsertMany written).findKey (series.key bucket) =
      table.findKey (series.key bucket) :=
    upsert_local.foldl_other written table fun row hrow hkey => hne <| by
      rw [(howns row hrow).primaryKey] at hkey
      exact ⟨congrArg (·.1) hkey, congrArg (·.2.1) hkey⟩
  rw [hfind]
  exact h

/-! ## Isolation -/

theorem pairStep_table {json : SerdeJson F} {series : Twin → Series} {s s' : PairSys}
    {w : Twin} {a : SeriesAct} (h : pairStep json series s (w, a) = some s') :
    ∃ written, (∀ row ∈ written, (series w).Owns row) ∧
      s'.table = s.table.upsertMany written := by
  unfold pairStep at h
  split at h
  · rename_i hown
    obtain ⟨sys, hsys, rfl⟩ := Option.map_eq_some_iff.1 h
    obtain ⟨rows, hothers, -⟩ | heff := seriesStep_cases hsys
    · rw [hothers] at hown
      cases hown
    · exact heff.table
  · cases h

theorem isolated_of_ne {json : SerdeJson F} {series : Twin → Series}
    (hne : ¬ ((series .first).productId = (series .second).productId ∧
      (series .first).granularity = (series .second).granularity)) : Isolated json series := by
  intro s s' _ hreach w bucket h
  refine hreach.inv (fun _ hs => hs ▸ h) fun t a t' ht _ hstep => ?_
  obtain ⟨v, a⟩ := a
  obtain ⟨written, howns, htable⟩ := pairStep_table hstep
  rw [htable]
  by_cases hv : v = w
  · subst hv
    exact hasBucket_own howns ht
  · refine hasBucket_other howns (fun hsame => hne ?_) ht
    cases v with
    | first =>
      cases w with
      | first => exact absurd rfl hv
      | second => exact hsame
    | second =>
      cases w with
      | first => exact ⟨hsame.1.symm, hsame.2.symm⟩
      | second => exact absurd rfl hv

/-- A candle of the archive. -/
def firstCandle : Candlestick := ⟨1, 60, 1, 1, 1, 1, 1⟩

/-- A series without history fetches it. -/
theorem pairStep_bootstrap (json : SerdeJson F) {series : Twin → Series} {s : PairSys} {w : Twin}
    (h : (series w).load s.table (series w).historyLimit = []) :
    ∃ s', pairStep json series s (w, .bootstrap (.ok [firstCandle]) (.ok ())) = some s' ∧
      s'.table = s.table.upsert (archiveRow (series w) firstCandle) := by
  have hcall : (series w).bootstrap (s.sys w) (.ok [firstCandle]) (.ok ()) =
      .ok ((series w).reload (s.sys w)
        (s.table.upsert (archiveRow (series w) firstCandle))) := by
    have hlimit := (series w).historyLimit_ge
    have hload : (series w).load (s.sys w).table (series w).historyLimit = [] := h
    unfold Series.bootstrap
    rw [hload, List.length_nil, if_pos (by omega)]
    rfl
  unfold pairStep seriesStep
  simp only [SeriesAct.isOwn, ↓reduceIte, hcall, Option.map_some]
  exact ⟨_, rfl, rfl⟩

/-- Two series of one product and granularity overwrite each other's rows. -/
theorem not_isolated_of_eq (json : SerdeJson F) {series : Twin → Series}
    (hsymbol : (series .first).symbol ≠ (series .second).symbol)
    (hproduct : (series .first).productId = (series .second).productId)
    (hgranularity : (series .first).granularity = (series .second).granularity) :
    ¬ Isolated json series := by
  intro hisolated
  -- the first bootstraps, then the second from the same archive
  have hnone : ∀ key, Table.empty.findKey key = none := fun _ => rfl
  obtain ⟨s₁, hstep₁, htable₁⟩ := @pairStep_bootstrap F json series { table := .empty } .first
    (List.eq_nil_iff_forall_not_mem.2 fun _ hrow => nomatch mem_stored.1 (mem_load hrow))
  have hload : (series .second).load s₁.table (series .second).historyLimit = [] := by
    refine List.eq_nil_iff_forall_not_mem.2 fun row hrow => ?_
    obtain ⟨row', hfind, hrow'⟩ := hasBucket_iff.1 ⟨_, row, hrow, rfl⟩
    rw [htable₁] at hfind
    have hfind' : (Table.empty.upsertMany [archiveRow (series .first) firstCandle]).findKey
        ((series .second).key row.bucketStartSec) = some row' := hfind
    rcases findKey_upsertMany _ hfind' with hold | hnew
    · rw [hnone] at hold
      cases hold
    · rw [List.mem_singleton.1 hnew] at hrow'
      exact hsymbol hrow'
  obtain ⟨s₂, hstep₂, htable₂⟩ := pairStep_bootstrap json hload
  have hfind₁ : s₁.table.findKey ((series .first).key 60) =
      some (archiveRow (series .first) firstCandle) := by
    rw [htable₁]
    exact find_upsert_self .empty (archiveRow (series .first) firstCandle)
  have hfind₂ : s₂.table.findKey ((series .first).key 60) =
      some (archiveRow (series .second) firstCandle) := by
    have hkey : (series .first).key 60 = (archiveRow (series .second) firstCandle).primaryKey := by
      unfold Series.key
      rw [hproduct, hgranularity]
      rfl
    rw [hkey] at hfind₁ ⊢
    rw [htable₂, find_upsert_self, hfind₁]
    rfl
  have hstart : Reach (pairStep json series) anyStep PairStart { table := .empty } :=
    .start ⟨fun _ => rfl, fun _ => rfl⟩
  have hrun : Reach (pairStep json series) anyStep (· = s₁) s₂ :=
    .next (.start rfl) trivial hstep₂
  have hhas := hisolated s₁ s₂ (.next hstart trivial hstep₁) hrun .first 60
    (hasBucket_iff.2 ⟨_, hfind₁, rfl⟩)
  obtain ⟨row, hfind, hrow⟩ := hasBucket_iff.1 hhas
  rw [hfind₂] at hfind
  cases hfind
  exact hsymbol hrow.symm

/-- **Which series are isolated.** Two handles that `ensure_series` creates under different names
keep each other's history, in every run of their workers, if and only if the names are of different
products or the granularities differ. -/
theorem isolated_iff [UnicodeCase] (json : SerdeJson F) {supervisor : Supervisor}
    {name : Twin → String} {granularity : Twin → UInt32} {series : Twin → Series}
    (hseries : ∀ w, supervisor.newSeries (name w) (granularity w) = .ok (series w))
    (hname : normalizeSymbol (name .first) ≠ normalizeSymbol (name .second)) :
    Isolated json series ↔
      supervisor.directory.lookup.lookup (normalizeSymbol (name .first)) ≠
          supervisor.directory.lookup.lookup (normalizeSymbol (name .second)) ∨
        granularity .first ≠ granularity .second := by
  obtain ⟨hsymbol, hgranularity, hlookup⟩ := newSeries_ok (hseries .first)
  obtain ⟨hsymbol', hgranularity', hlookup'⟩ := newSeries_ok (hseries .second)
  rw [hlookup, hlookup', ← hgranularity, ← hgranularity', Ne, Option.some.injEq]
  constructor
  · intro hisolated
    by_cases hproduct : (series .first).productId = (series .second).productId
    · refine .inr fun hsame => not_isolated_of_eq json ?_ hproduct hsame hisolated
      rw [hsymbol, hsymbol']
      exact hname
    · exact .inl hproduct
  · rintro (hproduct | hne)
    · exact isolated_of_ne fun h => hproduct h.1
    · exact isolated_of_ne fun h => hne h.2

/-! ## Two names of one product -/

section
attribute [local instance] asciiCase

def perpSymbols : List SymbolsResponseData := [⟨2, "BTC-PERP_USDC"⟩, ⟨4, "ETH-PERP_USDC"⟩]

/-- The supervisor over the directory of these symbols. -/
def perpSupervisor : Supervisor :=
  { btcPerp with
    supportedGranularities := [60]
    directory := ((loadSymbolDirectory (.ok perpSymbols)).toOption).getD {} }

theorem perpSupervisor_directory :
    loadSymbolDirectory (.ok perpSymbols) = .ok perpSupervisor.directory := by
  have hok : (loadSymbolDirectory (.ok perpSymbols)).toOption.isSome := by decide +kernel
  unfold perpSupervisor
  cases hload : loadSymbolDirectory (.ok perpSymbols) with
  | error err =>
    rw [hload] at hok
    cases hok
  | ok directory => rfl

/-- A handle of that supervisor. -/
def perpSeries (symbol : String) (productId : UInt32) : Series :=
  { btcPerp with symbol := symbol, productId := productId }

theorem isolated_perps : ∃ series : Twin → Series,
    (∀ w, perpSupervisor.newSeries (if w = .first then "btc-perp" else "eth-perp") 60 =
      .ok (series w)) ∧ Isolated (candleJson []) series := by
  have hseries : ∀ w : Twin,
      perpSupervisor.newSeries (if w = .first then "btc-perp" else "eth-perp") 60 =
        .ok (if w = .first then perpSeries "BTC-PERP" 2 else perpSeries "ETH-PERP" 4) := by
    intro w
    cases w with
    | first => decide +kernel
    | second => decide +kernel
  refine ⟨_, hseries, (isolated_iff (candleJson []) hseries ?_).2 (.inl ?_)⟩
  · decide +kernel
  · decide +kernel

/-- The canonical name and its alias. -/
def twinNames : Twin → String
  | .first => "BTC-PERP_USDC"
  | .second => "BTC-PERP"

def twinSeries (w : Twin) : Series := perpSeries (twinNames w) 2

/-- Each bootstraps from the archive. -/
def twinBootstrap (w : Twin) : Twin × SeriesAct :=
  (w, .bootstrap (.ok [archiveCandle 4 60 9]) (.ok ()))

/-- **An alias hides the history** of the name it is short for. -/
theorem alias_hides_history :
    loadSymbolDirectory (.ok perpSymbols) = .ok perpSupervisor.directory ∧
    (∀ w, perpSupervisor.newSeries (twinNames w) 60 = .ok (twinSeries w)) ∧
    ¬ Isolated (candleJson []) twinSeries := by
  refine ⟨perpSupervisor_directory, fun w => ?_, fun hisolated => ?_⟩
  · cases w with
    | first => decide +kernel
    | second => decide +kernel
  · have hrun : ((run (pairStep (candleJson []) twinSeries) anyStep { table := .empty }
        [twinBootstrap .first]).bind fun s =>
          (run (pairStep (candleJson []) twinSeries) anyStep s [twinBootstrap .second]).map
            fun s' => ((s.table.findKey (btcPerp.key 60)).map (·.symbol),
              (s'.table.findKey (btcPerp.key 60)).map (·.symbol))) =
        some (some "BTC-PERP_USDC", some "BTC-PERP") := by
      decide +kernel
    obtain ⟨s, hs, hrun⟩ := Option.bind_eq_some_iff.1 hrun
    obtain ⟨s', hs', hsymbols⟩ := Option.map_eq_some_iff.1 hrun
    obtain ⟨hbefore, hafter⟩ := Prod.mk.inj hsymbols
    obtain ⟨row, hrow, hsymbol⟩ := Option.map_eq_some_iff.1 hbefore
    have hstart :
        Reach (pairStep (candleJson []) twinSeries) anyStep PairStart { table := .empty } :=
      .start ⟨fun _ => rfl, fun _ => rfl⟩
    have hagain : Reach (pairStep (candleJson []) twinSeries) anyStep (· = s) s := .start rfl
    have hhas := hisolated s s' (hstart.of_run hs) (hagain.of_run hs') .first 60
      (hasBucket_iff.2 ⟨row, hrow, hsymbol⟩)
    obtain ⟨row', hrow', hsymbol'⟩ := hasBucket_iff.1 hhas
    have hlast := Option.map_eq_some_iff.1 hafter
    obtain ⟨row'', hrow'', hsymbol''⟩ := hlast
    rw [show (twinSeries .first).key 60 = btcPerp.key 60 from rfl, hrow''] at hrow'
    cases hrow'
    rw [hsymbol''] at hsymbol'
    exact absurd hsymbol' (by decide)

end

end Chart
