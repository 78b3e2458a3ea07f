import Thornado.Chart.Series

/-!
# The cache after a row

What `apply_row` does to a well-formed cache, whichever of its branches the row takes.

* `applyRow_applied`: a row is refused and nothing changes, or it is in the cache afterwards and
  the oldest row may have left.
* `snapshotViews_shows`: a snapshot is the newest rows.
-/

namespace Chart

open Rust

variable {F : Type}

/-- What a call of `apply_row` with the row promises, `r` being the cache and the answer. -/
structure Applied (candles : List CandleRow) (row : CandleRow) (cacheCapacity : Nat)
    (r : List CandleRow × Bool) : Prop where
  ascending : Ascending r.1
  length_le : r.1.length ≤ cacheCapacity
  version : ∀ e ∈ candles, ∀ e' ∈ r.1, e.bucketStartSec = e'.bucketStartSec →
    e.submissionIdx ≤ e'.submissionIdx
  accepted_iff : r.2 = true ↔ row ∈ r.1
  rejected_iff : r.2 = false ↔
    (∃ e ∈ candles, e.bucketStartSec = row.bucketStartSec ∧ row.submissionIdx < e.submissionIdx) ∨
      (candles ≠ [] ∧ ∀ e ∈ candles, row.bucketStartSec < e.bucketStartSec)
  rejected : r.2 = false → r.1 = candles
  accepted : r.2 = true → ∃ evicted : List CandleRow, evicted.length ≤ 1 ∧ evicted <+: candles ∧
    ∀ e, e ∈ r.1 ↔ e = row ∨
      (e ∈ candles ∧ e ∉ evicted ∧ e.bucketStartSec ≠ row.bucketStartSec)

/-- The view of a stored row: its texts, and their numbers of whole units. -/
structure ShowsCandle [F64 F] (row : CandleRow) (view : CandleView F) : Prop where
  bucketStart : (view.bucketStart : Int) = max row.bucketStartSec 0
  texts : [view.openX18, view.highX18, view.lowX18, view.closeX18, view.volumeX18] =
    [row.openX18, row.highX18, row.lowX18, row.closeX18, row.volumeX18]
  numbers : [view.open_, view.high, view.low, view.close, view.volume] =
    [row.openX18, row.highX18, row.lowX18, row.closeX18, row.volumeX18].map fun raw =>
      F64.div ((F64.parse raw).getD (F64.ofInt 0)) (F64.ofInt (10 ^ 18))
  version : view.submissionIdx = row.submissionIdx
  sourceTs : view.sourceTs = row.sourceTs

theorem candleToView_shows [F64 F] (row : CandleRow) :
    ShowsCandle row (candleToView row : CandleView F) :=
  ⟨Int.toNat_of_nonneg (Int.le_max_right ..), rfl, rfl, rfl, rfl⟩

/-- The views are those of the newest rows of the cache, oldest first. -/
structure ShowsNewest [F64 F] (candles : List CandleRow) (limit : Nat)
    (views : List (CandleView F)) (rows : List CandleRow) : Prop where
  newest : rows <:+ candles
  count : rows.length = min limit candles.length
  ascending : Ascending rows
  views : List.Forall₂ ShowsCandle rows views

theorem snapshotViews_shows [F64 F] {candles : List CandleRow} (hs : Ascending candles)
    (limit : Nat) :
    ShowsNewest candles limit (snapshotViews candles limit : List (CandleView F))
      (newest limit candles) := by
  refine ⟨newest_suffix .., ?_, List.Pairwise.sublist (newest_suffix ..).sublist hs, ?_⟩
  · rw [newest, List.length_drop]
    omega
  · unfold snapshotViews newest
    rw [List.take_reverse, List.map_reverse, List.reverse_reverse, List.forall₂_map_right_iff,
      List.forall₂_same]
    exact fun row _ => candleToView_shows row

/-! ## The length of the cache -/

theorem replaceFromBack_length {row : CandleRow} : ∀ {back replaced : List CandleRow},
    replaceFromBack row back = some (some replaced) → replaced.length = back.length
  | e :: back, replaced, h => by
    unfold replaceFromBack at h
    split at h
    · split at h
      · cases h
      · cases h
        rfl
    · split at h
      · cases h
      · obtain ⟨inner, hinner, hrep⟩ := Option.map_eq_some_iff.1 h
        obtain ⟨rest, rfl, rfl⟩ := Option.map_eq_some_iff.1 hrep
        rw [List.length_cons, replaceFromBack_length hinner, List.length_cons]

theorem trimFront_length_le (cacheCapacity : Nat) (candles : List CandleRow) :
    (trimFront cacheCapacity candles).length ≤ cacheCapacity := by
  rw [trimFront, newest, List.length_drop]
  omega

theorem applyRow_length_le {candles : List CandleRow} {row : CandleRow} {cacheCapacity : Nat}
    (hlen : candles.length ≤ cacheCapacity) (hcap : 1 ≤ cacheCapacity) :
    (applyRow candles row cacheCapacity).1.length ≤ cacheCapacity := by
  unfold applyRow
  split
  · rename_i first last hfirst hlast
    have hpos : 0 < candles.length := by
      cases candles with
      | nil => cases hfirst
      | cons _ _ => exact Nat.succ_pos _
    split
    · split
      · exact hlen
      · simp only [List.length_append, List.length_dropLast, List.length_singleton]
        omega
    · split
      · exact trimFront_length_le ..
      · split
        · exact hlen
        · split
          · exact hlen
          · rename_i replaced hrep
            have := replaceFromBack_length hrep
            simp only [List.length_reverse] at this ⊢
            omega
          · exact trimFront_length_le ..
  · exact hcap

/-! ## The rows of the cache -/

/-- The rows after an upsert that is not outdated. -/
theorem mem_upserted {candles : List CandleRow} (hs : Ascending candles) {row e : CandleRow}
    (hnot : ¬ Outdated row candles) :
    e ∈ upserted row candles ↔
      e = row ∨ (e ∈ candles ∧ e.bucketStartSec ≠ row.bucketStartSec) := by
  rw [Versioned.mem_upsert hs]
  constructor
  · rintro (⟨he, hne | hver⟩ | ⟨rfl, -⟩)
    · exact .inr ⟨he, hne⟩
    · exact .inr ⟨he, fun hk => hnot ⟨e, he, hk, hver⟩⟩
    · exact .inl rfl
  · rintro (rfl | ⟨he, hne⟩)
    · exact .inr ⟨rfl, hnot⟩
    · exact .inl ⟨he, .inl hne⟩

/-- A trim that drops a row after an upsert drops the oldest cached one. -/
theorem newest_upserted {candles : List CandleRow} (hs : Ascending candles) {row : CandleRow}
    {n : Nat} (hn : candles.length ≤ n) (hpos : 1 ≤ n) (hin : InReach row candles) :
    newest n (upserted row candles) = upserted row candles ∨
      ∃ first rest, candles = first :: rest ∧ first.bucketStartSec ≠ row.bucketStartSec ∧
        upserted row candles = first :: newest n (upserted row candles) := by
  have hle : (upserted row candles).length ≤ candles.length + 1 :=
    Versioned.length_upsert_le row candles
  by_cases hlen : (upserted row candles).length ≤ n
  · exact .inl (newest_of_length_le hlen)
  obtain ⟨first, rest, rfl⟩ : ∃ first rest, candles = first :: rest :=
    List.exists_cons_of_length_pos (by omega)
  have hne : first.bucketStartSec ≠ row.bucketStartSec := by
    intro hk
    have hsame : (upserted row (first :: rest)).length = (first :: rest).length :=
      Versioned.length_upsert_of_mem hs List.mem_cons_self hk
    omega
  have hlt : first.bucketStartSec < row.bucketStartSec := by
    have := hin first rfl
    omega
  have hbefore : ∀ e ∈ [first], e.bucketStartSec < row.bucketStartSec := by simpa using hlt
  have hup : upserted row (first :: rest) = first :: upserted row rest :=
    Versioned.upsert_append_right hbefore
  refine .inr ⟨first, rest, rfl, hne, ?_⟩
  -- exactly one row is too many
  rw [hup, List.length_cons] at hlen hle
  have hone : (upserted row rest).length + 1 - n = 1 := by
    simp only [List.length_cons] at hn hle
    omega
  rw [hup, newest, List.length_cons, hone, List.drop_one, List.tail_cons]

/-! ## The outcome -/

/-- A row that is refused. -/
theorem applied_of_rejected {candles : List CandleRow} {row : CandleRow} {cacheCapacity : Nat}
    {r : List CandleRow × Bool} (hr : r = (candles, false)) (hs : Ascending candles)
    (hlen : candles.length ≤ cacheCapacity) (hnot : row ∉ candles)
    (hwhy : (∃ e ∈ candles, e.bucketStartSec = row.bucketStartSec ∧
        row.submissionIdx < e.submissionIdx) ∨
      (candles ≠ [] ∧ ∀ e ∈ candles, row.bucketStartSec < e.bucketStartSec)) :
    Applied candles row cacheCapacity r := by
  subst hr
  refine ⟨hs, hlen, fun e he e' he' hk => ?_, ?_, iff_of_true rfl hwhy, fun _ => rfl,
    fun h => nomatch h⟩
  · rw [hs.key_unique he he' hk]
  · exact iff_of_false (fun h => nomatch h) hnot

/-- What `apply_row` promises, for every well-formed cache and every row. -/
theorem applyRow_applied {candles : List CandleRow} {cacheCapacity : Nat}
    (hs : Ascending candles) (hlen : candles.length ≤ cacheCapacity) (hcap : 50 ≤ cacheCapacity)
    (row : CandleRow) :
    Applied candles row cacheCapacity (applyRow candles row cacheCapacity) := by
  obtain ⟨happ, hne, hold⟩ | ⟨happ, hin, hout⟩ | ⟨n, hn, happ, hin, hnot⟩ :=
    applyRow_cases hs row cacheCapacity
  · exact applied_of_rejected happ hs hlen (fun hrow => Int.lt_irrefl _ (hold row hrow))
      (.inr ⟨hne, hold⟩)
  · refine applied_of_rejected happ hs hlen (fun hrow => ?_) (.inl hout)
    obtain ⟨e, he, hk, hv⟩ := hout
    rw [hs.key_unique he hrow hk] at hv
    exact Int.lt_irrefl _ hv
  have hasc := applyRow_ascending hs row cacheCapacity
  have hle : (applyRow candles row cacheCapacity).1.length ≤ cacheCapacity :=
    applyRow_length_le hlen (by omega)
  rw [happ] at hasc hle ⊢
  have hmem : ∃ evicted : List CandleRow, evicted.length ≤ 1 ∧ evicted <+: candles ∧
      ∀ e, e ∈ newest n (upserted row candles) ↔ e = row ∨
        (e ∈ candles ∧ e ∉ evicted ∧ e.bucketStartSec ≠ row.bucketStartSec) := by
    rcases newest_upserted hs (Nat.le_trans hlen hn) (by omega) hin with
      hall | ⟨first, rest, rfl, hne, hdrop⟩
    · refine ⟨[], Nat.zero_le _, List.nil_prefix, fun e => ?_⟩
      rw [hall, mem_upserted hs hnot]
      simp
    · refine ⟨[first], Nat.le_refl _, ⟨rest, rfl⟩, fun e => ?_⟩
      have hnd : (upserted row (first :: rest)).Nodup := (Versioned.Sorted.upsert hs).nodup
      have hup := mem_upserted (e := e) hs hnot
      rw [hdrop] at hnd hup
      rw [List.mem_cons] at hup
      have hout := (List.nodup_cons.1 hnd).1
      rw [List.mem_singleton]
      constructor
      · intro he
        have hfirst : e ≠ first := fun h => hout (h ▸ he)
        exact (hup.1 (.inr he)).imp_right fun ⟨hc, hk⟩ => ⟨hc, hfirst, hk⟩
      · rintro (rfl | ⟨hc, hfirst, hk⟩)
        · exact (hup.2 (.inl rfl)).resolve_left fun h => hne (h ▸ rfl)
        · exact (hup.2 (.inr ⟨hc, hk⟩)).resolve_left hfirst
  obtain ⟨evicted, hone, hpre, hmem⟩ := hmem
  refine ⟨hasc, hle, fun e he e' he' hk => ?_, iff_of_true rfl ((hmem row).2 (.inl rfl)), ?_,
    (fun h => nomatch h), fun _ => ⟨evicted, hone, hpre, hmem⟩⟩
  · rcases (hmem e').1 he' with rfl | ⟨hc, -, -⟩
    · exact Int.not_lt.1 fun hv => hnot ⟨e, he, hk, hv⟩
    · rw [hs.key_unique he hc hk]
  · refine iff_of_false (fun h => nomatch h) ?_
    rintro (hout | ⟨hne, hold⟩)
    · exact hnot hout
    · obtain ⟨first, rest, rfl⟩ := List.exists_cons_of_ne_nil hne
      have := hold first List.mem_cons_self
      have := hin first rfl
      omega

/-- **`apply_row` keeps a series well formed**, and every snapshot shows the newest rows. -/
theorem applyRow_series [F64 F] {candles : List CandleRow} {cacheCapacity : Nat}
    (hs : Ascending candles) (hlen : candles.length ≤ cacheCapacity) (hcap : 50 ≤ cacheCapacity)
    (row : CandleRow) :
    Applied candles row cacheCapacity (applyRow candles row cacheCapacity) ∧
      ∀ (cache : List CandleRow) (limit : Nat),
        cache = candles ∨ cache = (applyRow candles row cacheCapacity).1 →
          ShowsNewest cache limit (snapshotViews cache limit : List (CandleView F))
            (newest limit cache) := by
  have happ := applyRow_applied hs hlen hcap row
  refine ⟨happ, fun cache limit hcache => ?_⟩
  rcases hcache with rfl | rfl
  · exact snapshotViews_shows hs limit
  · exact snapshotViews_shows happ.ascending limit

/-- A full cache of fifty candles. -/
def fullCache : List CandleRow := (List.range 50).map fun i : Nat =>
  { productId := 2, symbol := "BTC-PERP", granularity := 60, bucketStartSec := 120 * i
    openX18 := "1", highX18 := "1", lowX18 := "1", closeX18 := "1", volumeX18 := "1"
    submissionIdx := 7, sourceTs := 0 }

def missedCandle : CandleRow :=
  { productId := 2, symbol := "BTC-PERP", granularity := 60, bucketStartSec := 180
    openX18 := "1", highX18 := "1", lowX18 := "1", closeX18 := "1", volumeX18 := "1"
    submissionIdx := 3, sourceTs := 0 }

/-- A row between two candles of a full cache: it is inserted and the oldest row leaves. -/
theorem applyRow_series_middle :
    Ascending fullCache ∧ missedCandle ∈ (applyRow fullCache missedCandle 50).1 ∧
      (applyRow fullCache missedCandle 50).1.length = 50 ∧
        Applied fullCache missedCandle 50 (applyRow fullCache missedCandle 50) := by
  have hs : Ascending fullCache := by
    unfold fullCache Ascending Versioned.Sorted
    rw [List.pairwise_map]
    refine List.pairwise_lt_range.imp fun h => ?_
    simp only
    omega
  exact ⟨hs, by decide, by decide, (applyRow_series (F := Rat) hs (by decide) (by decide) _).1⟩

end Chart
