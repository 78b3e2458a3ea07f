import Thornado.Chart.EnsureSeries
import Thornado.Orderbook.EnsureMarket

/-!
# The workers of the market gateways

The order book gateway runs one worker for each symbol that was asked for, the chart gateway one
for each symbol and granularity; requests in any spelling of a name share it (`one_worker`).
-/

namespace Workers

open Rust Symbols Transition

abbrev MarketRegistry (F : Type) := Registry.Sys String String (Orderbook.Market F) String

/-- **At most one worker for each key**, of either gateway, in every run of concurrent calls, and
every call answered while it runs gets the handle that it feeds. -/
theorem one_worker [UnicodeCase] {F : Type} {markets : Orderbook.Supervisor}
    {charts : Chart.Supervisor} {s : MarketRegistry F} {s' : Chart.SeriesRegistry}
    (h : Reach (Registry.step (Orderbook.ensureMarket F markets)) anyStep (· = {}) s)
    (h' : Reach (Registry.step (Chart.ensureSeries charts)) anyStep (· = {}) s') :
    Registry.OneWorker (Orderbook.ensureMarket F markets) s ∧
      Registry.OneWorker (Chart.ensureSeries charts) s' :=
  ⟨Registry.oneWorker h, Registry.oneWorker h'⟩

/-! ## Two spellings of a symbol -/

section
attribute [local instance] asciiCase

def perpMarkets : Orderbook.Supervisor where
  depth := 20
  directory := Chart.perpSupervisor.directory

/-- Two calls that both look before either inserts. -/
def twoSpellings : List (Registry.Act String String) :=
  [.call "btc-perp", .call " BTC-PERP", .look 0, .look 1, .insert 1, .insert 0, .spawn 1]

theorem one_worker_twoSpellings : ∃ (s : MarketRegistry Rat) (s' : Chart.SeriesRegistry),
    run (Registry.step (Orderbook.ensureMarket Rat perpMarkets)) anyStep {} twoSpellings = some s ∧
    run (Registry.step (Chart.ensureSeries Chart.perpSupervisor)) anyStep {}
      Chart.secondAttempt = some s' ∧
    (s.workers, s.calls.map (·.stage.returned)) = ([0], [some 0, some 0]) ∧ s'.workers = [1] ∧
    Registry.OneWorker (Orderbook.ensureMarket Rat perpMarkets) s ∧
    Registry.OneWorker (Chart.ensureSeries Chart.perpSupervisor) s' := by
  have hrun : (run (Registry.step (Orderbook.ensureMarket Rat perpMarkets)) anyStep {}
      twoSpellings).map (fun s => (s.workers, s.calls.map (·.stage.returned))) =
        some ([0], [some 0, some 0]) := by
    decide +kernel
  have hrun' : (run (Registry.step (Chart.ensureSeries Chart.perpSupervisor)) anyStep {}
      Chart.secondAttempt).map (·.workers) = some [1] := by
    decide +kernel
  obtain ⟨s, hs, hcalls⟩ := Option.map_eq_some_iff.1 hrun
  obtain ⟨s', hs', hworkers⟩ := Option.map_eq_some_iff.1 hrun'
  exact ⟨s, s', hs, hs', hcalls, hworkers,
    one_worker (Reach.of_run (.start rfl) hs) (Reach.of_run (.start rfl) hs')⟩

end

end Workers
