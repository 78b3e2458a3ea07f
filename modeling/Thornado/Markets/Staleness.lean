import Thornado.Markets.Convergence
import Thornado.Markets.Sources

/-!
# Stale rows

The flag `stale` of a row is written when the rows are rebuilt, and a snapshot is served later, with
the flags as they are. Nothing rebuilds the rows while no refresh succeeds. Here the pollers run
against a clock; the times that a refresh and a rebuild read are the clock's, or earlier ones.

* `staleness_iff`: when the flags of the snapshot served at a time are right.
* `stale_rows_served_fresh`: while every refresh fails they do not change.
-/

namespace Markets

open Rust Std Transition

variable {F : Type}

/-! ## The pollers and the clock -/

/-- The pollers, with the clock. `rebuilt` and `basis` say when the rows were last rebuilt, and from
which sources; no step reads them. -/
structure Timed (F : Type) where
  clock : Nat
  sys : Sys F := {}
  rebuilt : Nat := 0
  basis : ServiceState F := {}

inductive TimedAct (F : Type) where
  | tick (now : Nat)
  | poll (a : Act F)

/-- The times that a step of a poller reads. -/
def OnTime (s : Timed F) : Act F → Prop
  | .refresh _ now statusNow => now ≤ s.clock ∧ statusNow = s.clock
  | .rebuild _ now => now = s.clock
  | .send _ => True

instance (s : Timed F) : (a : Act F) → Decidable (OnTime s a)
  | .refresh _ now statusNow => inferInstanceAs (Decidable (now ≤ s.clock ∧ statusNow = s.clock))
  | .rebuild _ now => inferInstanceAs (Decidable (now = s.clock))
  | .send _ => inferInstanceAs (Decidable True)

section
variable [UnicodeCase] [F64 F] (config : Config F)

def timedStep (s : Timed F) : TimedAct F → Option (Timed F)
  | .tick now => if s.clock ≤ now then some { s with clock := now } else none
  | .poll a =>
    if OnTime s a then
      (step config s.sys a).map fun sys =>
        match a with
        | .rebuild _ now => { s with sys, rebuilt := now, basis := s.sys.state }
        | _ => { s with sys }
    else none

end

/-- Nothing has been refreshed. -/
def Timed.Start (s : Timed F) : Prop := ∃ clock, s = { clock }

/-! ## The flags -/

/-- The last time a source of the symbol's row was refreshed, of those in the state. -/
def refreshedAt (state : ServiceState F) (key : String) : Nat :=
  ((symbolsAt state key).map (·.updatedAt) ++ ((tickersAt state key).map (·.updatedAt) ++
    (contractsAt state key).map (·.updatedAt))).foldl max 0

/-- The same, also counting a refresh whose rebuild is still to come. -/
def Timed.lastRefreshed (s : Timed F) (key : String) : Nat :=
  max (refreshedAt s.basis key) (refreshedAt s.sys.state key)

/-- **The flags are right**: at time `t` a row is marked stale if and only if its last refresh is
longer ago than the threshold. -/
def Truthful (config : Config F) (s : Timed F) (t : Nat) : Prop :=
  ∀ (key : String) (row : MarketRow F), s.sys.state.markets[key]? = some row →
    (row.stale = true ↔ t - s.lastRefreshed key > config.staleAfterMs)

/-- The row of the symbol had expired when the rows were last rebuilt. A time that is zero counts as
none. -/
def Timed.ExpiredThen (config : Config F) (s : Timed F) (key : String) : Prop :=
  refreshedAt s.basis key ≠ 0 ∧ s.rebuilt - refreshedAt s.basis key > config.staleAfterMs

/-- The rows that have expired at time `t` are those that had when the rows were last rebuilt. -/
structure CaughtUp (config : Config F) (s : Timed F) (t : Nat) : Prop where
  expired : ∀ key, Listed s.basis key → s.ExpiredThen config key →
    t > s.lastRefreshed key + config.staleAfterMs
  fresh : ∀ key, Listed s.basis key → ¬ s.ExpiredThen config key →
    t ≤ s.lastRefreshed key + config.staleAfterMs

/-- The same source maps. -/
structure SameSources (state state' : ServiceState F) : Prop where
  symbols : state.symbols = state'.symbols
  tickers : state.tickers = state'.tickers
  contracts : state.contracts = state'.contracts

theorem SameSources.refreshedAt {state state' : ServiceState F} (h : SameSources state state')
    (key : String) : refreshedAt state key = refreshedAt state' key := by
  unfold Markets.refreshedAt symbolsAt tickersAt contractsAt symbolKey
  rw [h.symbols, h.tickers, h.contracts]

/-! ## The times of the rows -/

theorem lastOf_eq_max {xs : List Nat} (hall : ∀ x ∈ xs, ∀ y ∈ xs, x = y) :
    lastOf 0 xs = xs.foldl max 0 := by
  induction xs using List.reverseRecOn with
  | nil => rfl
  | append_singleton xs x ih =>
    rw [lastOf_append, List.foldl_concat, ← ih fun a ha b hb =>
      hall a (List.mem_append_left _ ha) b (List.mem_append_left _ hb)]
    by_cases hnil : xs = []
    · rw [hnil, lastOf_nil, Nat.zero_max]
    · have heq : lastOf 0 xs = x :=
        hall _ (List.mem_append_left _ (lastOf_mem 0 hnil)) x (by simp)
      rw [heq, Nat.max_self]

/-- What the flag of a row depends on. -/
def MarketRow.times (row : MarketRow F) : Nat × Bool := (row.updatedAt, row.stale)

/-- The times of the rows that a rebuild at `now` makes of these sources. -/
def timesAt (state : ServiceState F) (now staleAfterMs : Nat) (key : String) :
    Option (Nat × Bool) :=
  if Listed state key then
    let updatedAt := if refreshedAt state key = 0 then now else refreshedAt state key
    some (updatedAt, decide (now - updatedAt > staleAfterMs))
  else none

section
variable [F64 F]

/-- Rows without a difference have the same times. -/
theorem times_of_no_diff {old new : Rows F} (hnew : Keyed new)
    (hupdated : (diffMarketRows old new).1 = []) (hremoved : (diffMarketRows old new).2 = [])
    (key : String) : (old[key]?).map MarketRow.times = (new[key]?).map MarketRow.times := by
  cases hn : new[key]? with
  | none =>
    cases ho : old[key]? with
    | none => rfl
    | some row =>
      -- a symbol that only the old rows have is removed
      have hmem : key ∈ (diffMarketRows old new).2 := mem_diff_removed.2
        ⟨ExtTreeMap.mem_iff_isSome_getElem?.2 (by rw [ho]; rfl), fun hmem => by
          rw [ExtTreeMap.mem_iff_isSome_getElem?, hn] at hmem
          cases hmem⟩
      rw [hremoved] at hmem
      cases hmem
  | some row =>
    obtain rfl := hnew key row hn
    have hsame : ∃ prev, old[row.symbol]? = some prev ∧ (prev == row) = true := by
      by_contra hnone
      have hmem : row ∈ (diffMarketRows old new).1 := (mem_diff_updated hnew).2
        ⟨hn, fun prev hprev => Bool.eq_false_iff.2 fun heq => hnone ⟨prev, hprev, heq⟩⟩
      rw [hupdated] at hmem
      cases hmem
    obtain ⟨prev, hprev, heq⟩ := hsame
    have hexact := ((MarketRow.beq_iff prev row).1 heq).1
    simp only [MarketRow.exact, Prod.mk.injEq] at hexact
    obtain ⟨-, -, -, -, -, -, htime, hstale⟩ := hexact
    rw [hprev, Option.map_some, Option.map_some, MarketRow.times, MarketRow.times, htime, hstale]

end

/-! ## The times of the rows at the last rebuild -/

section
variable [UnicodeCase]

theorem Collected.same {state state' : ServiceState F} (h : Collected state)
    (hsame : SameSources state' state) : Collected state' := by
  obtain ⟨hsymbols, htickers, hcontracts⟩ := h
  rw [← hsame.symbols] at hsymbols
  rw [← hsame.tickers] at htickers
  rw [← hsame.contracts] at hcontracts
  exact ⟨hsymbols, htickers, hcontracts⟩

/-- The rows have the times of the last rebuild, and the sources have not changed since, unless a
poller is about to rebuild. -/
structure Flagged (config : Config F) (s : Timed F) : Prop where
  sources : Collected s.sys.state
  rows : ∀ key : String, (s.sys.state.markets[key]?).map MarketRow.times =
    timesAt s.basis s.rebuilt config.staleAfterMs key
  settled : (∃ p, s.sys.phase p = .refreshed) ∨ SameSources s.sys.state s.basis

variable {config : Config F} {s : Timed F}

theorem Flagged.start (h : s.Start) : Flagged config s := by
  obtain ⟨clock, rfl⟩ := h
  refine ⟨Collected.start, fun key => ?_, .inr ⟨rfl, rfl, rfl⟩⟩
  have hnone : ¬ Listed ({} : ServiceState F) key := by
    simp [Listed, symbolsAt, tickersAt, contractsAt, values]
  unfold timesAt
  rw [if_neg hnone, ExtTreeMap.getElem?_empty]
  rfl

/-- The flag of a row says whether it had expired when the rows were last rebuilt. -/
theorem Flagged.stale_iff (h : Flagged config s) {key : String} {row : MarketRow F}
    (hrow : s.sys.state.markets[key]? = some row) :
    Listed s.basis key ∧ (row.stale = true ↔ s.ExpiredThen config key) := by
  have htimes := h.rows key
  rw [hrow] at htimes
  unfold timesAt at htimes
  split at htimes
  · rename_i hlisted
    refine ⟨hlisted, ?_⟩
    simp only [Option.map_some, MarketRow.times, Option.some.injEq, Prod.mk.injEq] at htimes
    rw [htimes.2, decide_eq_true_iff]
    unfold Timed.ExpiredThen
    split
    · rename_i hzero
      simp [hzero]
    · rename_i hpos
      exact ⟨fun hexp => ⟨hpos, hexp⟩, fun hexp => hexp.2⟩
  · cases htimes

/-- Every symbol that the last rebuild found has a row. -/
theorem Flagged.exists_row (h : Flagged config s) {key : String} (hlisted : Listed s.basis key) :
    ∃ row, s.sys.state.markets[key]? = some row := by
  have htimes := h.rows key
  unfold timesAt at htimes
  rw [if_pos hlisted] at htimes
  obtain ⟨row, hrow, -⟩ := Option.map_eq_some_iff.1 htimes
  exact ⟨row, hrow⟩

end

/-! ## What the steps keep -/

section
variable [UnicodeCase] [F64 F]

theorem Collected.updatedAt {state : ServiceState F} (h : Collected state) (hours : F)
    (key : String) : (joinedRow state hours key).updatedAt = refreshedAt state key := by
  have hsymbols : ∀ x ∈ (symbolsAt state key).map (·.updatedAt),
      ∀ y ∈ (symbolsAt state key).map (·.updatedAt), x = y := by
    intro x hx y hy
    obtain ⟨m, hm, rfl⟩ := List.mem_map.1 hx
    obtain ⟨m', hm', rfl⟩ := List.mem_map.1 hy
    exact (h.symbols_agree hm hm').2.2.2
  rw [joinedRow_eq]
  simp only [rowOf, refreshedAt, List.foldl_append]
  rw [lastOf_eq_max hsymbols]

theorem Collected.times {state : ServiceState F} (h : Collected state) (now staleAfterMs : Nat)
    (hours : F) (key : String) :
    ((buildMarketRows state now staleAfterMs hours)[key]?).map MarketRow.times =
      timesAt state now staleAfterMs key := by
  unfold timesAt
  rw [buildMarketRows_get]
  split
  · simp only [Option.map_some, MarketRow.times, finishRow, h.updatedAt]
  · rfl

/-- A rebuild leaves the sources as they are, and rows with the times that it found. -/
theorem rebuildAndPublish_times (config : Config F) (now : Nat) {state : ServiceState F}
    (hcollected : Collected state) :
    let state' := (rebuildAndPublish config now state).1
    SameSources state' state ∧ ∀ key : String, (state'.markets[key]?).map MarketRow.times =
      timesAt state now config.staleAfterMs key := by
  have hnew := buildMarketRows_keyed state now config.staleAfterMs config.fundingIntervalHours
  unfold rebuildAndPublish
  simp only
  split
  · rename_i hempty
    rw [Bool.and_eq_true, List.isEmpty_iff, List.isEmpty_iff] at hempty
    refine ⟨⟨rfl, rfl, rfl⟩, fun key => ?_⟩
    rw [times_of_no_diff hnew hempty.1 hempty.2, hcollected.times]
  · exact ⟨⟨rfl, rfl, rfl⟩, fun key => hcollected.times ..⟩

variable {config : Config F} {s s' : Timed F}

/-- A refresh, whether it succeeds or not. -/
theorem Flagged.refresh (h : Flagged config s) {response : Response F} {now statusNow : Nat}
    {sys : Sys F} (hs : step config s.sys (.refresh response now statusNow) = some sys) :
    Flagged config { s with sys } := by
  simp only [step] at hs
  split at hs
  · split at hs
    · rename_i state hrefresh
      cases hs
      refine ⟨h.sources.refresh hrefresh, fun key => ?_, .inl ⟨response.poller, by simp⟩⟩
      rw [← h.rows key, Sys.setPhase_state, (refresh_frame hrefresh).2]
    · cases hs
      exact ⟨h.sources, h.rows, h.settled⟩
  · cases hs

theorem Flagged.rebuild (h : Flagged config s) {p : Poller} {now : Nat} {sys : Sys F}
    (hs : step config s.sys (.rebuild p now) = some sys) :
    Flagged config { s with sys, rebuilt := now, basis := s.sys.state } := by
  have hstate : sys.state = (rebuildAndPublish config now s.sys.state).1 := by
    simp only [step] at hs
    split at hs
    · obtain hr | ⟨state, message, hr, -⟩ := rebuildAndPublish_cases config now s.sys.state
      · rw [hr] at hs ⊢
        cases hs
        rfl
      · rw [hr] at hs ⊢
        cases hs
        rfl
    · cases hs
  obtain ⟨hsame, htimes⟩ := rebuildAndPublish_times config now h.sources
  rw [← hstate] at hsame htimes
  exact ⟨h.sources.same hsame, htimes, .inr hsame⟩

theorem Flagged.send (h : Flagged config s) {p : Poller} {sys : Sys F}
    (hs : step config s.sys (.send p) = some sys) : Flagged config { s with sys } := by
  cases Step.of_step hs with
  | sent hp =>
    refine ⟨h.sources, h.rows, h.settled.imp_left ?_⟩
    rintro ⟨q, hq⟩
    refine ⟨q, ?_⟩
    rw [Sys.setPhase_other]
    · exact hq
    · rintro rfl
      rw [hp] at hq
      cases hq

theorem Flagged.step {a : TimedAct F} (h : Flagged config s)
    (hs : timedStep config s a = some s') : Flagged config s' := by
  cases a with
  | tick now =>
    simp only [timedStep] at hs
    split at hs
    · cases hs
      exact ⟨h.sources, h.rows, h.settled⟩
    · cases hs
  | poll a =>
    simp only [timedStep] at hs
    split at hs
    · obtain ⟨sys, hsys, rfl⟩ := Option.map_eq_some_iff.1 hs
      cases a with
      | refresh response now statusNow => exact h.refresh hsys
      | rebuild p now => exact h.rebuild hsys
      | send p => exact h.send hsys
    · cases hs

/-! ## The served flags -/

/-- **When the served flags are right**: at time `t` they are if and only if the rows that have
expired by then are those that had when the rows were last rebuilt. And unless a poller is about to
rebuild, the time of a row is that of its last refresh. -/
theorem staleness_iff (h : Reach (timedStep config) anyStep Timed.Start s) (t : Nat) :
    (Truthful config s t ↔ CaughtUp config s t) ∧
    ((∀ p, s.sys.phase p ≠ .refreshed) → ∀ (key : String) (row : MarketRow F),
      s.sys.state.markets[key]? = some row →
        row.updatedAt = s.lastRefreshed key ∨ s.lastRefreshed key = 0) := by
  have hflagged : Flagged config s :=
    h.inv (fun _ => Flagged.start) fun _ _ _ hflagged _ hs => hflagged.step hs
  refine ⟨⟨fun htrue => ⟨fun key hlisted hexp => ?_, fun key hlisted hexp => ?_⟩,
    fun hcaught key row hrow => ?_⟩, fun hsettled key row hrow => ?_⟩
  · obtain ⟨row, hrow⟩ := hflagged.exists_row hlisted
    have hstale := (htrue key row hrow).1 ((hflagged.stale_iff hrow).2.2 hexp)
    omega
  · obtain ⟨row, hrow⟩ := hflagged.exists_row hlisted
    by_contra hlate
    refine hexp ((hflagged.stale_iff hrow).2.1 ((htrue key row hrow).2 ?_))
    omega
  · obtain ⟨hlisted, hstale⟩ := hflagged.stale_iff hrow
    rw [hstale]
    constructor
    · intro hexp
      have hlate := hcaught.expired key hlisted hexp
      omega
    · intro hlate
      by_contra hexp
      have hearly := hcaught.fresh key hlisted hexp
      omega
  · have hsame := hflagged.settled.resolve_left fun ⟨p, hp⟩ => hsettled p hp
    have htimes := hflagged.rows key
    rw [hrow] at htimes
    unfold timesAt at htimes
    unfold Timed.lastRefreshed
    rw [hsame.refreshedAt, Nat.max_self]
    rw [if_pos (hflagged.stale_iff hrow).1] at htimes
    simp only [Option.map_some, MarketRow.times, Option.some.injEq, Prod.mk.injEq] at htimes
    rw [htimes.1]
    split
    · rename_i hzero
      exact .inr hzero
    · exact .inl rfl

end

/-! ## Refreshes that fail -/

section
attribute [local instance] asciiCase

def staleConfig : Config Rat := ⟨20000, 1⟩

/-- The symbols are refreshed once; from then on the upstream does not answer. -/
def outage : List (TimedAct Rat) :=
  [.poll (.refresh (.symbols (.ok [⟨2, "BTC-PERP", "perp"⟩])) 1000 1000),
    .poll (.rebuild .symbols 1000), .poll (.send .symbols), .tick 2000,
    .poll (.refresh (.tickers (.error "timeout")) 2000 2000), .tick 30000,
    .poll (.refresh (.symbols (.error "timeout")) 30000 30000)]

/-- At the threshold the rows are still as the last rebuild left them. -/
theorem staleness_iff_outage :
    ∃ s, run (timedStep staleConfig) anyStep { clock := 1000 } (outage.take 4) = some s ∧
      Truthful staleConfig s 21000 := by
  have hrun : (run (timedStep staleConfig) anyStep { clock := 1000 } (outage.take 4)).map
      (fun s => (values s.basis.symbols, values s.basis.tickers, values s.basis.contracts,
        [s.lastRefreshed "BTC-PERP", s.rebuilt, refreshedAt s.basis "BTC-PERP"])) =
      some ([⟨2, "BTC-PERP", "perp", "BTC", "PERP", 1000⟩], [], [], [1000, 1000, 1000]) := by decide
  obtain ⟨s, hs, hvalues⟩ := Option.map_eq_some_iff.1 hrun
  simp only [Prod.mk.injEq, List.cons.injEq, and_true] at hvalues
  obtain ⟨hsymbols, htickers, hcontracts, hlast, hrebuilt, hbasis⟩ := hvalues
  have hkey : ∀ key, Listed s.basis key → key = "BTC-PERP" := by
    intro key hlisted
    by_contra hne
    simp [Listed, symbolsAt, tickersAt, contractsAt, hsymbols, htickers, hcontracts,
      Ne.symm hne] at hlisted
  refine ⟨s, hs, (staleness_iff (Reach.of_run (.start ⟨1000, rfl⟩) hs) 21000).1.2 ⟨?_, ?_⟩⟩
  · rintro key hlisted ⟨-, hexp⟩
    obtain rfl := hkey key hlisted
    rw [hrebuilt, hbasis] at hexp
    cases hexp
  · intro key hlisted _
    obtain rfl := hkey key hlisted
    rw [hlast]
    decide

/-- Long after the threshold the row is not marked. -/
theorem stale_rows_served_fresh : ¬ ∀ s : Timed Rat,
    Reach (timedStep staleConfig) anyStep Timed.Start s → ∀ t, s.clock ≤ t →
      Truthful staleConfig s t := by
  intro h
  have hrun : (run (timedStep staleConfig) anyStep { clock := 1000 } outage).map
      (fun s => (s.clock, s.lastRefreshed "BTC-PERP",
        s.sys.state.markets["BTC-PERP"]?.map MarketRow.times)) =
      some (30000, 1000, some (1000, false)) := by decide
  obtain ⟨s, hs, hvalues⟩ := Option.map_eq_some_iff.1 hrun
  simp only [Prod.mk.injEq] at hvalues
  obtain ⟨hclock, hlast, hrow⟩ := hvalues
  obtain ⟨row, hrow, htimes⟩ := Option.map_eq_some_iff.1 hrow
  have hstale : row.stale = false := congrArg Prod.snd htimes
  have htrue := h s (Reach.of_run (.start ⟨1000, rfl⟩) hs) 30000 (Nat.le_of_eq hclock) _ row hrow
  rw [hlast, hstale] at htrue
  exact absurd (htrue.2 (by decide)) Bool.false_ne_true

end

end Markets
