import Thornado.Chart.Isolation
import Thornado.Lib.Orphans

/-!
# The registry of series

`ensure_series` of `gateway/chart/src/market.rs`. It registers a new handle before it bootstraps
it, so that another call may return the handle while its bootstrap can still fail. An HTTP handler
whose client disconnects is dropped where it waits, and the call in it.

* `ensureSeries_no_orphan`: no call keeps a dead handle, as long as no bootstrap fails or is dropped
  after another call returned its handle, and no call finds a handle whose bootstrap is over so.
* `ensureSeries_orphan`, `ensureSeries_orphan_dropped`: runs in which a call keeps one.
-/

namespace Chart

open Rust Symbols Transition

structure SeriesKey where
  symbol : String
  granularity : UInt32
  deriving DecidableEq

/-- `ensure_series`, asked with a symbol and a granularity; its `bootstrap` may end in any way. -/
def ensureSeries [UnicodeCase] (supervisor : Supervisor) :
    Registry.Service (String × UInt32) SeriesKey Series String where
  key request := ⟨normalizeSymbol request.1, request.2⟩
  precheck request := (supervisor.newSeries request.1 request.2).map fun _ => ()
  make request := supervisor.newSeries request.1 request.2
  boots := true
  guarded := true

abbrev SeriesRegistry := Registry.Sys (String × UInt32) SeriesKey Series String

/-- **No orphans.** In every run of concurrent calls whose bootstraps fail or are dropped only while
no other call has the handle, a returned handle is registered and fed from then on; a failed call
takes out its own entry and nothing else. And the first step against the condition makes an
orphan, or leaves the entry of a failed bootstrap behind. -/
theorem ensureSeries_no_orphan [UnicodeCase] {supervisor : Supervisor} {s : SeriesRegistry}
    (h : Reach (Registry.step (ensureSeries supervisor))
      (Registry.Careful (ensureSeries supervisor))
      (· = {}) s) :
    Registry.NoOrphans (ensureSeries supervisor) s ∧
    (∀ (i : Nat) c s', s.calls[i]? = some c →
      Registry.step (ensureSeries supervisor) s (.withdraw i) = some s' →
      s.entries.lookup ((ensureSeries supervisor).key c.request) = c.stage.holds ∧
        s'.entries = s.entries.erase ((ensureSeries supervisor).key c.request)) ∧
    ∀ a s', Registry.step (ensureSeries supervisor) s a = some s' →
      (Registry.NoOrphans (ensureSeries supervisor) s' ↔
        Registry.Careful (ensureSeries supervisor) s a) := by
  have hinv := (Registry.keptOf h).2
  refine ⟨Registry.noOrphans h, fun i c s' hi hs => hinv.withdraws hi hs, fun a s' hs => ⟨?_, ?_⟩⟩
  · exact Registry.careful_of_noOrphans hinv hs
  · exact fun hok => Registry.noOrphans (h.next hok hs)

/-! ## Concurrent callers -/

section
attribute [local instance] asciiCase

/-- Calls for BTC-PERP, the first of which cannot bootstrap. -/
def secondAttempt : List (Registry.Act (String × UInt32) String) :=
  [.call ("btc-perp", 60), .look 0, .insert 0, .boot 0 (.error "connection refused"), .withdraw 0,
    .call ("BTC-PERP", 60), .look 1, .insert 1, .call (" btc-perp", 60), .look 2, .boot 1 (.ok ()),
    .spawn 1]

theorem ensureSeries_no_orphan_secondAttempt : ∃ s : SeriesRegistry,
    Transition.run (Registry.step (ensureSeries perpSupervisor))
      (Registry.Careful (ensureSeries perpSupervisor)) {} secondAttempt = some s ∧
    s.calls.map (·.stage.returned) = [none, some 1, some 1] ∧
    Registry.NoOrphans (ensureSeries perpSupervisor) s := by
  have hrun : (Transition.run (Registry.step (ensureSeries perpSupervisor))
      (Registry.Careful (ensureSeries perpSupervisor)) {} secondAttempt).map
        (fun s => s.calls.map (·.stage.returned)) = some [none, some 1, some 1] := by
    decide +kernel
  obtain ⟨s, hs, hcalls⟩ := Option.map_eq_some_iff.1 hrun
  exact ⟨s, hs, hcalls, (ensureSeries_no_orphan (Reach.of_run (.start rfl) hs)).1⟩

/-- **An orphan.** The second caller finds the series while the first bootstraps it in vain. -/
theorem ensureSeries_orphan : ∃ s : SeriesRegistry,
    Transition.run (Registry.step (ensureSeries perpSupervisor)) anyStep {}
      [.call ("BTC-PERP", 60), .look 0, .insert 0, .call ("BTC-PERP", 60), .look 1,
        .boot 0 (.error "connection refused"), .withdraw 0] = some s ∧
    ¬ Registry.NoOrphans (ensureSeries perpSupervisor) s := by
  have hrun : (Transition.run (Registry.step (ensureSeries perpSupervisor)) anyStep {}
      [.call ("BTC-PERP", 60), .look 0, .insert 0, .call ("BTC-PERP", 60), .look 1,
        .boot 0 (.error "connection refused"), .withdraw 0]).map
        (fun s => (s.calls.map (·.stage.returned), s.entries.keys)) =
      some ([none, some 0], []) := by
    decide +kernel
  obtain ⟨s, hs, hcalls⟩ := Option.map_eq_some_iff.1 hrun
  obtain ⟨hreturned, hkeys⟩ := Prod.mk.inj hcalls
  refine ⟨s, hs, fun horphans => ?_⟩
  obtain ⟨c, hc, hstage⟩ : ∃ c ∈ s.calls, c.stage.returned = some 0 := by
    have hmem : some 0 ∈ s.calls.map (·.stage.returned) := by
      rw [hreturned]
      decide
    exact List.mem_map.1 hmem
  have hreg := horphans.registered c hc 0 hstage
  have hkey := AList.lookup_isSome.1 (by rw [hreg]; rfl)
  rw [AList.mem_keys, hkeys] at hkey
  cases hkey

/-- **An orphan without a failure.** The client of the first call disconnects during its bootstrap:
the entry stays, and the second caller gets a series without a worker. -/
theorem ensureSeries_orphan_dropped : ∃ s : SeriesRegistry,
    Transition.run (Registry.step (ensureSeries perpSupervisor)) anyStep {}
      [.call ("BTC-PERP", 60), .look 0, .insert 0, .drop 0, .call ("BTC-PERP", 60), .look 1] =
        some s ∧
    ¬ Registry.NoOrphans (ensureSeries perpSupervisor) s := by
  have hrun : (Transition.run (Registry.step (ensureSeries perpSupervisor)) anyStep {}
      [.call ("BTC-PERP", 60), .look 0, .insert 0, .drop 0, .call ("BTC-PERP", 60), .look 1]).map
        (fun s => (s.calls.map fun c => (c.stage.returned, c.stage.broken), s.workers)) =
      some ([(none, some 0), (some 0, none)], []) := by
    decide +kernel
  obtain ⟨s, hs, hend⟩ := Option.map_eq_some_iff.1 hrun
  obtain ⟨hcalls, hworkers⟩ := Prod.mk.inj hend
  refine ⟨s, hs, fun horphans => ?_⟩
  obtain ⟨c, hc, hstage⟩ : ∃ c ∈ s.calls, (c.stage.returned, c.stage.broken) = (some 0, none) := by
    refine List.mem_map.1 ?_
    rw [hcalls]
    decide
  rcases horphans.fed c hc 0 (Prod.mk.inj hstage).1 with hworker | ⟨d, hd, hstarting⟩
  · rw [hworkers] at hworker
    cases hworker
  · have hmem := List.mem_map_of_mem (f := fun c => (c.stage.returned, c.stage.broken)) hd
    rw [hcalls] at hmem
    rcases hstarting with hstarting | hstarting
    · simp [hstarting, Registry.Stage.returned, Registry.Stage.broken] at hmem
    · simp [hstarting, Registry.Stage.returned, Registry.Stage.broken] at hmem

end

end Chart
