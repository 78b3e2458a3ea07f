import Mathlib.Data.Int.ConditionallyCompleteOrder
import Thornado.Client.ChartCandles

/-!
# Runs of the chart

What the events of a subscription do to the candles, in any order: the response to the HTTP
request and a snapshot replace all of them, an update merges one.

* `displayed_sorted`: the displayed candles are sorted without duplicates, in every run.
* `reach_current`: the runs in which the displayed candles never regress.
* `not_current_of_missing`: where a replacement removes a candle.
-/

namespace Client

/-! ## What the events deliver -/

/-- A candle of a message and what the client reads from it. -/
abbrev Reading := RawCandle × Candle

def reading (js : JsText) (candle : Option RawCandle) : Option Reading :=
  candle.bind fun raw => (normalizeChartCandle js (some raw)).map (raw, ·)

def readings (js : JsText) (candles : List (Option RawCandle)) : List Reading :=
  candles.filterMap (reading js)

/-- What an event does to the candles: it replaces all of them, it merges one, or none. -/
inductive Effect where
  | replace (rs : List Reading)
  | merge (r : Reading)
  | keep

def effect (js : JsText) : Event → Effect
  | .httpResponse (some candles) => .replace (readings js candles)
  | .message (.snapshot candles) => .replace (readings js candles)
  | .message (.update candle) => (reading js candle).elim .keep .merge
  | _ => .keep

def Effect.candles (prev : List Candle) : Effect → List Candle
  | .replace rs => mergeChartCandles [] (rs.map (·.2))
  | .merge r => mergeChartCandles prev [r.2]
  | .keep => prev

def Effect.received : Effect → List Reading
  | .replace rs => rs
  | .merge r => [r]
  | .keep => []

def Effect.updates : Effect → List Reading
  | .merge r => [r]
  | _ => []

/-- All the candles received. -/
def received (js : JsText) (events : List Event) : List Reading :=
  events.flatMap fun e => (effect js e).received

/-- The candles of the updates received. -/
def updates (js : JsText) (events : List Event) : List Reading :=
  events.flatMap fun e => (effect js e).updates

def buckets (rs : List Reading) : List Int := rs.map (·.2.bucketStart)

theorem reading_snd (js : JsText) (candle : Option RawCandle) :
    (reading js candle).map (·.2) = normalizeChartCandle js candle := by
  cases candle with
  | none => rfl
  | some raw =>
    show ((normalizeChartCandle js (some raw)).map (raw, ·)).map (·.2) = _
    cases normalizeChartCandle js (some raw) with
    | none => rfl
    | some c => rfl

theorem readings_snd (js : JsText) (candles : List (Option RawCandle)) :
    (readings js candles).map (·.2) = normalizeAll js candles := by
  unfold readings normalizeAll
  rw [List.map_filterMap]
  exact List.filterMap_congr fun candle _ => reading_snd js candle

theorem onEvent_candles (js : JsText) (hook : Hook) (e : Event) :
    (onEvent js hook e).chart.candles = (effect js e).candles hook.chart.candles := by
  cases e with
  | httpResponse candles =>
    cases candles with
    | none => rfl
    | some candles =>
      show mergeChartCandles [] (normalizeAll js candles) = _
      rw [← readings_snd]
      rfl
  | message msg =>
    cases msg with
    | snapshot candles =>
      show mergeChartCandles [] (normalizeAll js candles) = _
      rw [← readings_snd]
      rfl
    | update candle =>
      have hsnd := reading_snd js candle
      show (onMessage js hook.chart (.update candle)).candles =
        ((reading js candle).elim Effect.keep .merge).candles _
      unfold onMessage
      cases hr : reading js candle with
      | none =>
        rw [hr] at hsnd
        simp only [← hsnd, Option.map_none]
        rfl
      | some r =>
        rw [hr] at hsnd
        simp only [← hsnd, Option.map_some]
        rfl
    | status status detail => rfl
    | error message => rfl
    | other => rfl
  | open_ => rfl
  | error => rfl
  | close => rfl

theorem displayed_append (js : JsText) (events : List Event) (e : Event) :
    displayed js (events ++ [e]) = (effect js e).candles (displayed js events) := by
  unfold displayed afterEvents
  rw [List.foldl_append]
  exact onEvent_candles ..

theorem received_append (js : JsText) (events : List Event) (e : Event) :
    received js (events ++ [e]) = received js events ++ (effect js e).received := by
  simp [received]

theorem updates_append (js : JsText) (events : List Event) (e : Event) :
    updates js (events ++ [e]) = updates js events ++ (effect js e).updates := by
  simp [updates]

theorem updates_subset (js : JsText) (events : List Event) :
    updates js events ⊆ received js events := by
  intro r hr
  obtain ⟨e, he, hr⟩ := List.mem_flatMap.1 hr
  refine List.mem_flatMap.2 ⟨e, he, ?_⟩
  cases heff : effect js e with
  | merge r' => simpa [heff, Effect.updates, Effect.received] using hr
  | replace rs => simp [heff, Effect.updates] at hr
  | keep => simp [heff, Effect.updates] at hr

/-! ## Runs -/

/-- One more event, at any time. -/
def deliver (events : List Event) (e : Event) : Option (List Event) := some (events ++ [e])

variable {V : Type} [Preorder V] (js : JsText) (recency : RawCandle → V)

/-- The reading is at least as recent as every update received for the bucket. -/
def AsRecent (events : List Event) (b : Int) (r : Reading) : Prop :=
  ∀ u ∈ updates js events, u.2.bucketStart = b → recency u.1 ≤ recency r.1

/-- The last reading of the bucket, the one that is displayed. -/
def lastOf (b : Int) (rs : List Reading) : Option Reading :=
  (rs.filter (·.2.bucketStart = b)).getLast?

/-- What replaces the candles lists every bucket among the newest that was updated, at least as
recent as its updates; an update is at least as recent as the ones before it, and its time does
not truncate to zero. -/
def FreshEffect (events : List Event) : Effect → Prop
  | .replace rs => ∀ u ∈ updates js events,
      KeyedMap.Newest maxSize (buckets (received js events ++ rs)) u.2.bucketStart →
        ∃ r ∈ lastOf u.2.bucketStart rs, AsRecent js recency events u.2.bucketStart r
  | .merge r => KeyedMap.Newest maxSize (buckets (received js events ++ [r])) r.2.bucketStart →
      0 < r.2.bucketStart ∧ AsRecent js recency events r.2.bucketStart r
  | .keep => True

/-- The condition on a step. -/
def Fresh (events : List Event) (e : Event) : Prop := FreshEffect js recency events (effect js e)

/-- The bucket shows data at least as recent as its updates. -/
def UpToDate (events : List Event) (b : Int) : Prop :=
  ∃ c ∈ displayed js events, c.bucketStart = b ∧
    ∃ r ∈ received js events, c.Shows r.2 ∧ AsRecent js recency events b r

/-- The displayed candles are sorted without duplicates, and every bucket among the newest that
was updated is up to date. -/
structure Current (events : List Event) : Prop where
  ascending : (displayed js events).Pairwise (·.bucketStart < ·.bucketStart)
  updated : ∀ u ∈ updates js events,
    KeyedMap.Newest maxSize (buckets (received js events)) u.2.bucketStart →
      UpToDate js recency events u.2.bucketStart

variable {js recency}

/-! ## In every run -/

theorem displayed_sorted (js : JsText) (events : List Event) :
    Versioned.Sorted Candle.bucketStart (displayed js events) := by
  induction events using List.reverseRecOn with
  | nil => exact List.Pairwise.nil
  | append_singleton events e ih =>
    rw [displayed_append]
    cases effect js e with
    | replace rs => exact mergeChartCandles_sorted ..
    | merge r => exact mergeChartCandles_sorted ..
    | keep => exact ih

theorem mem_buckets_append {rs rs' : List Reading} {b : Int} :
    b ∈ buckets (rs ++ rs') ↔ b ∈ buckets rs ∨ b ∈ buckets rs' := by
  simp [buckets]

theorem mem_buckets_iff {rs : List Reading} {b : Int} :
    b ∈ buckets rs ↔ ∃ c ∈ rs.map (·.2), c.bucketStart = b := by
  constructor
  · intro h
    obtain ⟨r, hr, hb⟩ := List.mem_map.1 h
    exact ⟨r.2, List.mem_map_of_mem hr, hb⟩
  · rintro ⟨c, hc, rfl⟩
    obtain ⟨r, hr, rfl⟩ := List.mem_map.1 hc
    exact List.mem_map_of_mem hr

/-- Only received buckets are displayed. -/
theorem bucket_received {events : List Event} {c : Candle} (h : c ∈ displayed js events) :
    c.bucketStart ∈ buckets (received js events) := by
  induction events using List.reverseRecOn generalizing c with
  | nil => cases h
  | append_singleton events e ih =>
    rw [displayed_append] at h
    rw [received_append, mem_buckets_append]
    cases he : effect js e with
    | replace rs =>
      rw [he] at h
      obtain ⟨_, hmem, -⟩ | hmem := bucket_of_mem_mergeChartCandles h
      · cases hmem
      · exact .inr (mem_buckets_iff.2 hmem)
    | merge r =>
      rw [he] at h
      obtain ⟨c', hmem, hkey⟩ | hmem := bucket_of_mem_mergeChartCandles h
      · rw [← hkey]
        exact .inl (ih hmem)
      · exact .inr (mem_buckets_iff.2 hmem)
    | keep =>
      rw [he] at h
      exact .inl (ih h)

theorem bucket_of_update {events : List Event} {u : Reading} (h : u ∈ updates js events) :
    u.2.bucketStart ∈ buckets (received js events) :=
  List.mem_map_of_mem (updates_subset js events h)

/-- A bucket among the newest was among the newest before. -/
theorem newest_before {events : List Event} {rs : List Reading} {u : Reading}
    (hu : u ∈ updates js events)
    (h : KeyedMap.Newest maxSize (buckets (received js events ++ rs)) u.2.bucketStart) :
    KeyedMap.Newest maxSize (buckets (received js events)) u.2.bucketStart :=
  h.mono (by simp [buckets]) (bucket_of_update hu)

/-! ## Fresh runs -/

/-- What the steps keep. -/
structure Kept (js : JsText) (recency : RawCandle → V) (events : List Event) : Prop where
  updated : ∀ u ∈ updates js events,
    KeyedMap.Newest maxSize (buckets (received js events)) u.2.bucketStart →
      UpToDate js recency events u.2.bucketStart
  positive : ∀ u ∈ updates js events,
    KeyedMap.Newest maxSize (buckets (received js events)) u.2.bucketStart → 0 < u.2.bucketStart

/-- The last reading of a bucket is displayed. -/
theorem exists_shows_of_lastOf {current : List Candle} {rs : List Reading} {keys : List Int}
    {b : Int} {r : Reading} (hcurrent : ∀ c ∈ current, c.bucketStart ∈ keys)
    (hrs : ∀ c ∈ rs.map (·.2), c.bucketStart ∈ keys) (hb : 0 < b) (hr : r ∈ lastOf b rs)
    (hnew : KeyedMap.Newest maxSize keys b) :
    ∃ c ∈ mergeChartCandles current (rs.map (·.2)), c.bucketStart = b ∧ c.Shows r.2 := by
  have hlast : ((rs.map (·.2)).filter (·.bucketStart = b)).getLast? = some r.2 := by
    unfold lastOf at hr
    rw [List.filter_map, List.getLast?_map]
    exact congrArg (Option.map (·.2)) hr
  obtain ⟨c, hc, hshows⟩ := lookup_mergeMap_last current hb hlast
  have hcb : c.bucketStart = b := keyed_mergeMap _ _ _ _ hc
  subst hcb
  exact ⟨c, mem_mergeChartCandles hcurrent hrs hc hnew, rfl, hshows⟩

theorem kept_start : Kept js recency [] where
  updated _ h := by cases h
  positive _ h := by cases h

/-- Replacing all the candles. -/
theorem Kept.replace {events : List Event} {e : Event} {rs : List Reading}
    (h : Kept js recency events) (he : effect js e = .replace rs)
    (hok : Fresh js recency events e) : Kept js recency (events ++ [e]) := by
  have hd : displayed js (events ++ [e]) = mergeChartCandles [] (rs.map (·.2)) := by
    simp [displayed_append, he, Effect.candles]
  have hrec : received js (events ++ [e]) = received js events ++ rs := by
    simp [received_append, he, Effect.received]
  have hupd : updates js (events ++ [e]) = updates js events := by
    simp [updates_append, he, Effect.updates]
  have hpos : ∀ u ∈ updates js events,
      KeyedMap.Newest maxSize (buckets (received js events ++ rs)) u.2.bucketStart →
        0 < u.2.bucketStart := fun u hu hnew => h.positive u hu (newest_before hu hnew)
  unfold Fresh at hok
  rw [he] at hok
  refine ⟨fun u hu hnew => ?_, fun u hu hnew => ?_⟩
  · rw [hupd] at hu
    rw [hrec] at hnew
    obtain ⟨r, hlast, hrecent⟩ := hok u hu hnew
    obtain ⟨c, hc, hcb, hshows⟩ := exists_shows_of_lastOf (List.forall_mem_nil _)
      (fun c hc => mem_buckets_append.2 (.inr (mem_buckets_iff.2 ⟨c, hc, rfl⟩)))
      (hpos u hu hnew) hlast hnew
    have hr : r ∈ rs := (List.mem_filter.1 (List.mem_of_getLast? hlast)).1
    unfold UpToDate AsRecent
    rw [hd, hrec, hupd]
    exact ⟨c, hc, hcb, r, List.mem_append_right _ hr, hshows, hrecent⟩
  · rw [hupd] at hu
    rw [hrec] at hnew
    exact hpos u hu hnew

/-- Merging one candle. -/
theorem Kept.merge {events : List Event} {e : Event} {r : Reading}
    (h : Kept js recency events) (he : effect js e = .merge r)
    (hok : Fresh js recency events e) : Kept js recency (events ++ [e]) := by
  have hd : displayed js (events ++ [e]) = mergeChartCandles (displayed js events) [r.2] := by
    simp [displayed_append, he, Effect.candles]
  have hrec : received js (events ++ [e]) = received js events ++ [r] := by
    simp [received_append, he, Effect.received]
  have hupd : updates js (events ++ [e]) = updates js events ++ [r] := by
    simp [updates_append, he, Effect.updates]
  have hknown : ∀ c ∈ displayed js events,
      c.bucketStart ∈ buckets (received js events ++ [r]) := fun c hc =>
    mem_buckets_append.2 (.inl (bucket_received hc))
  unfold Fresh at hok
  rw [he] at hok
  refine ⟨fun u hu hnew => ?_, fun u hu hnew => ?_⟩
  · rw [hupd] at hu
    rw [hrec] at hnew
    unfold UpToDate AsRecent
    rw [hd, hrec, hupd]
    by_cases hb : u.2.bucketStart = r.2.bucketStart
    · -- the bucket of the update
      rw [hb] at hnew ⊢
      obtain ⟨hpos, hrecent⟩ := hok hnew
      have hlast : r ∈ lastOf r.2.bucketStart [r] := by simp [lastOf]
      obtain ⟨c, hc, hcb, hshows⟩ :=
        exists_shows_of_lastOf hknown (by simp [buckets]) hpos hlast hnew
      refine ⟨c, hc, hcb, r, by simp, hshows, fun u' hu' hub => ?_⟩
      rcases List.mem_append.1 hu' with hu' | hu'
      · exact hrecent u' hu' hub
      · rw [List.mem_singleton.1 hu']
    · -- another bucket keeps its candle
      have hu : u ∈ updates js events := by
        rcases List.mem_append.1 hu with hu | hu
        · exact hu
        · rw [List.mem_singleton.1 hu] at hb
          exact absurd rfl hb
      obtain ⟨c, hc, hcb, r', hr', hshows, hrecent⟩ := h.updated u hu (newest_before hu hnew)
      refine ⟨c, ?_, hcb, r', List.mem_append_left _ hr', hshows, fun u' hu' hub => ?_⟩
      · refine mem_mergeChartCandles hknown (by simp [buckets]) ?_ (hcb ▸ hnew)
        exact lookup_mergeMap_other (displayed_sorted js events) hc (by simp [hcb, Ne.symm hb])
      · rcases List.mem_append.1 hu' with hu' | hu'
        · exact hrecent u' hu' hub
        · rw [List.mem_singleton.1 hu'] at hub
          exact absurd hub.symm hb
  · rw [hupd] at hu
    rw [hrec] at hnew
    rcases List.mem_append.1 hu with hu | hu
    · exact h.positive u hu (newest_before hu hnew)
    · rw [List.mem_singleton.1 hu] at hnew ⊢
      exact (hok hnew).1

theorem Kept.keep {events : List Event} {e : Event} (h : Kept js recency events)
    (he : effect js e = .keep) : Kept js recency (events ++ [e]) := by
  have hd : displayed js (events ++ [e]) = displayed js events := by
    simp [displayed_append, he, Effect.candles]
  have hrec : received js (events ++ [e]) = received js events := by
    simp [received_append, he, Effect.received]
  have hupd : updates js (events ++ [e]) = updates js events := by
    simp [updates_append, he, Effect.updates]
  refine ⟨?_, ?_⟩
  · unfold UpToDate AsRecent
    rw [hd, hrec, hupd]
    exact h.updated
  · rw [hrec, hupd]
    exact h.positive

theorem Kept.step {events : List Event} {e : Event} (h : Kept js recency events)
    (hok : Fresh js recency events e) : Kept js recency (events ++ [e]) := by
  cases he : effect js e with
  | replace rs => exact h.replace he hok
  | merge r => exact h.merge he hok
  | keep => exact h.keep he

/-- In a run whose steps are all `Fresh` the chart never regresses. -/
theorem reach_current {events : List Event}
    (h : Transition.Reach deliver (Fresh js recency) (· = []) events) :
    Current js recency events := by
  have hkept : Kept js recency events := by
    refine h.inv (fun _ h0 => ?_) fun events e events' hk hok hst => ?_
    · subst h0
      exact kept_start
    · cases hst
      exact hk.step hok
  exact ⟨displayed_sorted js events, hkept.updated⟩

/-- What replaces the candles and does not list an updated bucket removes its candle. -/
theorem not_current_of_missing {events : List Event} {e : Event} {rs : List Reading}
    (he : effect js e = .replace rs)
    (h : ∃ u ∈ updates js events,
      KeyedMap.Newest maxSize (buckets (received js events ++ rs)) u.2.bucketStart ∧
        ∀ r ∈ rs, r.2.bucketStart ≠ u.2.bucketStart) :
    ¬ Current js recency (events ++ [e]) := by
  intro hcurrent
  obtain ⟨u, hu, hnew, hmissing⟩ := h
  have hrec : received js (events ++ [e]) = received js events ++ rs := by
    simp [received_append, he, Effect.received]
  have hu' : u ∈ updates js (events ++ [e]) := by
    rw [updates_append]
    exact List.mem_append_left _ hu
  obtain ⟨c, hc, hcb, -⟩ := hcurrent.updated u hu' (hrec ▸ hnew)
  rw [displayed_append, he] at hc
  obtain ⟨_, hmem, -⟩ | ⟨c', hmem, hkey⟩ := bucket_of_mem_mergeChartCandles hc
  · cases hmem
  · obtain ⟨r, hr, rfl⟩ := List.mem_map.1 hmem
    exact hmissing r hr (hkey.trans hcb)

section
variable [DecidableLE V]

instance (events : List Event) (b : Int) (r : Reading) :
    Decidable (AsRecent js recency events b r) :=
  inferInstanceAs (Decidable (∀ u ∈ updates js events,
    u.2.bucketStart = b → recency u.1 ≤ recency r.1))

instance (events : List Event) : ∀ effect : Effect,
    Decidable (FreshEffect js recency events effect)
  | .replace rs => inferInstanceAs (Decidable (∀ u ∈ updates js events,
      KeyedMap.Newest maxSize (buckets (received js events ++ rs)) u.2.bucketStart →
        ∃ r ∈ lastOf u.2.bucketStart rs, AsRecent js recency events u.2.bucketStart r))
  | .merge r => inferInstanceAs (Decidable (KeyedMap.Newest maxSize _ _ →
      0 < r.2.bucketStart ∧ AsRecent js recency events r.2.bucketStart r))
  | .keep => inferInstanceAs (Decidable True)

instance (events : List Event) (e : Event) : Decidable (Fresh js recency events e) :=
  inferInstanceAs (Decidable (FreshEffect js recency events (effect js e)))

end

def noText : JsText := ⟨id, fun _ => none⟩

/-- A candle of one price. -/
def bar (bucketStart price : ℚ) (submissionIdx : Int) : Option RawCandle :=
  let p := JsValue.number (some price)
  some ⟨.number (some bucketStart), .undefined, p, p, p, p, .number (some 1), submissionIdx⟩

/-- The snapshot of the socket, and an update that adds a candle. -/
def liveEvents : List Event :=
  [.open_, .message (.snapshot [bar 60 10 1]), .message (.update (bar 120 11 2))]

/-- A response that lists the added candle. -/
theorem reach_current_response : Current noText RawCandle.submissionIdx
    (liveEvents ++ [.httpResponse (some [bar 60 10 1, bar 120 11 2])]) :=
  reach_current (.of_run (.start rfl)
    (show Transition.run deliver (Fresh noText RawCandle.submissionIdx) []
      (liveEvents ++ [.httpResponse (some [bar 60 10 1, bar 120 11 2])]) = some _ by
        decide +kernel))

/-- A response made before the update removes its candle. -/
theorem late_response_regresses : ¬ Current noText RawCandle.submissionIdx
    (liveEvents ++ [.httpResponse (some [bar 60 10 1])]) :=
  not_current_of_missing rfl (by decide +kernel)

end Client
