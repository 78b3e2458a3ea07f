import Thornado.Chart.Store

/-!
# The candle cache of a series

`SeriesState` of `gateway/chart/src/market.rs`: the cached rows in bucket order (a `VecDeque`,
front first), `replace_all`, `apply_row` and `snapshot_views`.

* `applyRow_cases`: a row older than the cache is refused; any other row is upserted, and then the
  oldest rows are dropped down to the capacity.
-/

namespace Chart

open Rust

variable {F : Type}

/-- `while self.candles.len() > cache_capacity { self.candles.pop_front(); }` -/
def trimFront (cacheCapacity : Nat) (candles : List CandleRow) : List CandleRow :=
  newest cacheCapacity candles

def replaceAll (rows : List CandleRow) (cacheCapacity : Nat) : List CandleRow :=
  rows.foldl (fun candles row => trimFront cacheCapacity (candles ++ [row])) []

/-- The loop from the back: `none` if no cached row has the bucket, `some none` if that row's
version is greater, else the rows with it replaced. The list is back first. -/
def replaceFromBack (row : CandleRow) : List CandleRow → Option (Option (List CandleRow))
  | [] => none
  | existing :: rest =>
    if existing.bucketStartSec = row.bucketStartSec then
      if row.submissionIdx < existing.submissionIdx then some none else some (some (row :: rest))
    else if existing.bucketStartSec < row.bucketStartSec then none
    else (replaceFromBack row rest).map (·.map (existing :: ·))

/-- Insert before the first row of a greater bucket. -/
def insertInOrder (row : CandleRow) : List CandleRow → List CandleRow
  | [] => [row]
  | existing :: rest =>
    if existing.bucketStartSec > row.bucketStartSec then row :: existing :: rest
    else existing :: insertInOrder row rest

/-- The cache after the row, and whether it changed. -/
def applyRow (candles : List CandleRow) (row : CandleRow) (cacheCapacity : Nat) :
    List CandleRow × Bool :=
  match candles.head?, candles.getLast? with
  | some first, some last =>
    if last.bucketStartSec = row.bucketStartSec then
      if row.submissionIdx < last.submissionIdx then (candles, false)
      else (candles.dropLast ++ [row], true)
    else if row.bucketStartSec > last.bucketStartSec then
      (trimFront cacheCapacity (candles ++ [row]), true)
    else if row.bucketStartSec < first.bucketStartSec then (candles, false)
    else
      match replaceFromBack row candles.reverse with
      | some none => (candles, false)
      | some (some replaced) => (replaced.reverse, true)
      | none => (trimFront cacheCapacity (insertInOrder row candles), true)
  | _, _ => ([row], true)

/-! ## Views -/

structure CandleView (F : Type) where
  bucketStart : Nat
  openX18 : String
  highX18 : String
  lowX18 : String
  closeX18 : String
  volumeX18 : String
  open_ : F
  high : F
  low : F
  close : F
  volume : F
  submissionIdx : Int
  sourceTs : Int

section
variable [F64 F]

def x18ToF64 (raw : String) : F :=
  F64.div ((F64.parse raw).getD (F64.ofInt 0)) (F64.ofInt (10 ^ 18))

def candleToView (row : CandleRow) : CandleView F where
  bucketStart := (max row.bucketStartSec 0).toNat
  openX18 := row.openX18
  highX18 := row.highX18
  lowX18 := row.lowX18
  closeX18 := row.closeX18
  volumeX18 := row.volumeX18
  open_ := x18ToF64 row.openX18
  high := x18ToF64 row.highX18
  low := x18ToF64 row.lowX18
  close := x18ToF64 row.closeX18
  volume := x18ToF64 row.volumeX18
  submissionIdx := row.submissionIdx
  sourceTs := row.sourceTs

def snapshotViews (candles : List CandleRow) (limit : Nat) : List (CandleView F) :=
  ((candles.reverse.take limit).map candleToView).reverse

end

/-! ## Replacing the cache -/

theorem newest_newest {A : Type} (n m : Nat) (rows : List A) :
    newest n (newest m rows) = newest (min n m) rows := by
  unfold newest
  rw [List.drop_drop, List.length_drop]
  congr 1
  omega

/-- A full load keeps the newest rows. -/
theorem replaceAll_eq (rows : List CandleRow) (cacheCapacity : Nat) :
    replaceAll rows cacheCapacity = newest cacheCapacity rows := by
  have key : ∀ (rows start : List CandleRow),
      rows.foldl (fun candles row => trimFront cacheCapacity (candles ++ [row]))
        (newest cacheCapacity start) = newest cacheCapacity (start ++ rows) := by
    intro rows
    induction rows with
    | nil => intro start; rw [List.append_nil]; rfl
    | cons row rows ih =>
      intro start
      have hone : trimFront cacheCapacity (newest cacheCapacity start ++ [row]) =
          newest cacheCapacity (start ++ [row]) := by
        unfold trimFront newest
        rw [List.length_append, List.length_drop, List.length_append, List.length_singleton,
          List.drop_append, List.drop_append, List.drop_drop, List.length_drop]
        congr 2
        · omega
        · omega
      rw [List.foldl_cons, hone, ih, List.append_assoc]
      rfl
  have h := key rows []
  rw [List.nil_append, newest, List.drop_nil] at h
  exact h

/-! ## Applying a row -/

/-- The sorted rows after the row, by the version rule of the store. -/
abbrev upserted (row : CandleRow) (rows : List CandleRow) : List CandleRow :=
  Versioned.upsert CandleRow.bucketStartSec CandleRow.submissionIdx row rows

/-- A row of the same bucket has a greater version. -/
abbrev Outdated (row : CandleRow) (rows : List CandleRow) : Prop :=
  Versioned.Outdated CandleRow.bucketStartSec CandleRow.submissionIdx row rows

theorem insertInOrder_eq {row : CandleRow} : ∀ {rows : List CandleRow},
    (∀ e ∈ rows, e.bucketStartSec ≠ row.bucketStartSec) →
      insertInOrder row rows = upserted row rows
  | [], _ => rfl
  | e :: rows, h => by
    have hne := h e List.mem_cons_self
    unfold insertInOrder upserted Versioned.upsert
    split
    · rfl
    · have hrest := insertInOrder_eq fun e' he' => h e' (List.mem_cons_of_mem e he')
      rw [if_neg (Ne.symm hne), hrest]

/-- What the loop from the back finds. -/
theorem replaceFromBack_cases {row : CandleRow} : ∀ {back : List CandleRow},
    Ascending back.reverse →
      (replaceFromBack row back = none ∧ ∀ e ∈ back, e.bucketStartSec ≠ row.bucketStartSec) ∨
      (replaceFromBack row back = some none ∧ Outdated row back.reverse) ∨
      ∃ replaced, replaceFromBack row back = some (some replaced) ∧
        ¬ Outdated row back.reverse ∧ replaced.reverse = upserted row back.reverse
  | [], _ => .inl ⟨rfl, fun _ h => nomatch h⟩
  | e :: back, h => by
    rw [List.reverse_cons] at h ⊢
    obtain ⟨hback, -, hlt⟩ := List.pairwise_append.1 h
    have hbefore : ∀ a ∈ back.reverse, a.bucketStartSec < e.bucketStartSec := fun a ha =>
      hlt a ha e (List.mem_singleton_self e)
    unfold replaceFromBack
    split
    · rename_i hkey
      have hless : ∀ a ∈ back.reverse, a.bucketStartSec < row.bucketStartSec := fun a ha => by
        rw [← hkey]
        exact hbefore a ha
      split
      · rename_i hver
        exact .inr (.inl ⟨rfl, e, List.mem_append_right _ (List.mem_singleton_self e), hkey, hver⟩)
      · rename_i hver
        refine .inr (.inr ⟨_, rfl, ?_, ?_⟩)
        · rw [Outdated, Versioned.outdated_append, Versioned.outdated_singleton]
          exact not_or.2 ⟨Versioned.not_outdated_of_ne fun a ha => by
            have := hless a ha
            omega, fun h => hver h.2⟩
        · rw [upserted, Versioned.upsert_append_right hless, Versioned.upsert_self hkey.symm,
            if_pos (by omega), List.reverse_cons]
    · split
      · rename_i hne hgt
        refine .inl ⟨rfl, fun a ha => ?_⟩
        rcases List.mem_cons.1 ha with rfl | ha
        · exact hne
        · have := hbefore a (List.mem_reverse.2 ha)
          omega
      · rename_i hne hle
        have hrow : row.bucketStartSec < e.bucketStartSec := by omega
        have hout : Outdated row (back.reverse ++ [e]) ↔ Outdated row back.reverse := by
          rw [Outdated, Versioned.outdated_append, Versioned.outdated_singleton]
          exact or_iff_left fun h => hne h.1
        rw [hout]
        obtain ⟨hres, hall⟩ | ⟨hres, ho⟩ | ⟨replaced, hres, ho, hrep⟩ := replaceFromBack_cases hback
        · rw [hres]
          refine .inl ⟨rfl, fun a ha => ?_⟩
          rcases List.mem_cons.1 ha with rfl | ha
          · exact hne
          · exact hall a ha
        · rw [hres]
          exact .inr (.inl ⟨rfl, ho⟩)
        · rw [hres]
          refine .inr (.inr ⟨e :: replaced, rfl, ho, ?_⟩)
          rw [List.reverse_cons, hrep]
          exact (Versioned.upsert_append_left hrow).symm

theorem newest_of_length_le {A : Type} {n : Nat} {rows : List A} (h : rows.length ≤ n) :
    newest n rows = rows := by
  unfold newest
  rw [Nat.sub_eq_zero_of_le h, List.drop_zero]

/-- The row is not older than the oldest cached row. -/
def InReach (row : CandleRow) (candles : List CandleRow) : Prop :=
  ∀ e ∈ candles.head?, e.bucketStartSec ≤ row.bucketStartSec

/-- **The three outcomes of `apply_row`**: the row is older than the cache, or its bucket has a
greater version, or it is upserted and the cache trimmed (if it grew) to its newest rows. -/
theorem applyRow_cases {candles : List CandleRow} (hs : Ascending candles) (row : CandleRow)
    (cacheCapacity : Nat) :
    (applyRow candles row cacheCapacity = (candles, false) ∧ candles ≠ [] ∧
      ∀ e ∈ candles, row.bucketStartSec < e.bucketStartSec) ∨
    (applyRow candles row cacheCapacity = (candles, false) ∧ InReach row candles ∧
      Outdated row candles) ∨
    ∃ n, cacheCapacity ≤ n ∧
      applyRow candles row cacheCapacity = (newest n (upserted row candles), true) ∧
      InReach row candles ∧ ¬ Outdated row candles := by
  rcases List.eq_nil_or_concat' candles with rfl | ⟨init, last, rfl⟩
  · refine .inr (.inr ⟨max cacheCapacity 1, Nat.le_max_left .., ?_, ?_, ?_⟩)
    · have hone : newest (max cacheCapacity 1) [row] = [row] :=
        newest_of_length_le (Nat.le_max_right ..)
      unfold upserted Versioned.upsert
      rw [hone]
      rfl
    · intro e he
      cases he
    · exact Versioned.not_outdated_of_ne fun _ he => absurd he List.not_mem_nil
  obtain ⟨-, -, hlt⟩ := List.pairwise_append.1 hs
  have hbefore : ∀ a ∈ init, a.bucketStartSec < last.bucketStartSec := fun a ha =>
    hlt a ha last (List.mem_singleton_self last)
  obtain ⟨first, hf⟩ : ∃ first, (init ++ [last]).head? = some first :=
    Option.ne_none_iff_exists'.1 (by simp)
  have hfirst : ∀ e ∈ init ++ [last], first.bucketStartSec ≤ e.bucketStartSec := fun e he =>
    hs.head_le hf he
  have hlast := hfirst last (List.mem_append_right _ (List.mem_singleton_self last))
  have hreach : first.bucketStartSec ≤ row.bucketStartSec → InReach row (init ++ [last]) := by
    intro h e he
    rw [hf] at he
    cases he
    exact h
  unfold applyRow
  rw [List.getLast?_concat, hf]
  simp only
  split
  · -- the bucket of the newest cached row
    rename_i hkey
    have hless : ∀ a ∈ init, a.bucketStartSec < row.bucketStartSec := fun a ha => by
      rw [← hkey]
      exact hbefore a ha
    have hin := hreach (by omega)
    split
    · rename_i hver
      refine .inr (.inl ⟨rfl, hin, ?_⟩)
      rw [Outdated, Versioned.outdated_append, Versioned.outdated_singleton]
      exact .inr ⟨hkey, hver⟩
    · rename_i hver
      refine .inr (.inr ⟨max cacheCapacity (init ++ [row]).length, Nat.le_max_left .., ?_, hin, ?_⟩)
      · rw [upserted, Versioned.upsert_append_right hless, Versioned.upsert_self hkey.symm,
          if_pos (by omega), newest_of_length_le (Nat.le_max_right ..), List.dropLast_concat]
      · rw [Outdated, Versioned.outdated_append, Versioned.outdated_singleton]
        exact not_or.2 ⟨Versioned.not_outdated_of_ne fun a ha => by
          have := hless a ha
          omega, fun h => hver h.2⟩
  · split
    · -- a new newest bucket
      rename_i hne hgt
      have hless : ∀ a ∈ init ++ [last], a.bucketStartSec < row.bucketStartSec := by
        intro a ha
        rcases List.mem_append.1 ha with ha | ha
        · have := hbefore a ha
          omega
        · rw [List.mem_singleton.1 ha]
          exact hgt
      have hup : upserted row ((init ++ [last]) ++ []) = (init ++ [last]) ++ [row] :=
        Versioned.upsert_append_right hless
      rw [List.append_nil] at hup
      rw [hup]
      exact .inr (.inr ⟨cacheCapacity, Nat.le_refl _, rfl, hreach (by omega),
        Versioned.not_outdated_of_ne fun a ha => Int.ne_of_lt (hless a ha)⟩)
    · split
      · -- older than the whole cache
        rename_i hold
        refine .inl ⟨rfl, by simp, fun e he => ?_⟩
        exact Int.lt_of_lt_of_le hold (hfirst e he)
      · -- inside the cache
        rename_i hnold
        have hin := hreach (by omega)
        have hsorted : Ascending (init ++ [last]).reverse.reverse := by
          rw [List.reverse_reverse]
          exact hs
        have hback := @replaceFromBack_cases row _ hsorted
        rw [List.reverse_reverse] at hback
        obtain ⟨hres, hall⟩ | ⟨hres, ho⟩ | ⟨replaced, hres, ho, hrep⟩ := hback
        · have hne : ∀ e ∈ init ++ [last], e.bucketStartSec ≠ row.bucketStartSec := fun e he =>
            hall e (List.mem_reverse.2 he)
          rw [hres, insertInOrder_eq hne]
          exact .inr (.inr ⟨cacheCapacity, Nat.le_refl _, rfl, hin,
            Versioned.not_outdated_of_ne hne⟩)
        · rw [hres]
          exact .inr (.inl ⟨rfl, hin, ho⟩)
        · rw [hres]
          refine .inr (.inr ⟨max cacheCapacity (upserted row (init ++ [last])).length,
            Nat.le_max_left .., ?_, hin, ho⟩)
          rw [newest_of_length_le (Nat.le_max_right ..)]
          simp only [hrep]

theorem applyRow_ascending {candles : List CandleRow} (hs : Ascending candles) (row : CandleRow)
    (cacheCapacity : Nat) : Ascending (applyRow candles row cacheCapacity).1 := by
  obtain ⟨happ, -⟩ | ⟨happ, -⟩ | ⟨n, -, happ, -⟩ := applyRow_cases hs row cacheCapacity
  · rw [happ]
    exact hs
  · rw [happ]
    exact hs
  · rw [happ]
    exact List.Pairwise.sublist (newest_suffix ..).sublist hs.upsert

/-- The cached rows after the row are the row and rows that were cached. -/
theorem mem_applyRow {candles : List CandleRow} (hs : Ascending candles) {row e : CandleRow}
    {cacheCapacity : Nat} (he : e ∈ (applyRow candles row cacheCapacity).1) :
    e ∈ candles ∨ e = row := by
  obtain ⟨happ, -⟩ | ⟨happ, -⟩ | ⟨n, -, happ, -⟩ := applyRow_cases hs row cacheCapacity
  · rw [happ] at he
    exact .inl he
  · rw [happ] at he
    exact .inl he
  · rw [happ] at he
    obtain ⟨he, -⟩ | ⟨rfl, -⟩ := (Versioned.mem_upsert hs).1 ((newest_suffix ..).subset he)
    · exact .inl he
    · exact .inr rfl

end Chart
