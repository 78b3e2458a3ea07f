import Thornado.Lib.KeyedFold
import Thornado.Lib.Versioned
import Thornado.Rust.Prelude

/-!
# The candle store

`gateway/chart/src/store.rs`: the table `chart_candles` with primary key (product, granularity,
bucket), the upsert with its version guard, and `load_recent`. A transaction that fails is one
that does not happen; the callers say whether it committed.

* `storedRows_upsert`: an upsert is an upsert of the sorted rows of its product and granularity.
* `loadRecent_eq`: `load_recent` is a suffix of those rows where the symbol owns them all.
-/

namespace Chart

open Rust Std

structure CandleRow where
  productId : UInt32
  symbol : String
  granularity : UInt32
  bucketStartSec : Int
  openX18 : String
  highX18 : String
  lowX18 : String
  closeX18 : String
  volumeX18 : String
  submissionIdx : Int
  sourceTs : Int
  deriving DecidableEq

/-- The rows of one product and granularity, by bucket. -/
abbrev Partition := ExtTreeMap Int CandleRow

/-- The partitions with the row written at its primary key. -/
def putRow (rows : UInt32 → UInt32 → Partition) (row : CandleRow) : UInt32 → UInt32 → Partition :=
  Function.update rows row.productId
    (Function.update (rows row.productId) row.granularity
      ((rows row.productId row.granularity).insert row.bucketStartSec row))

theorem putRow_get (rows : UInt32 → UInt32 → Partition) (row : CandleRow) (p g : UInt32) (b : Int) :
    (putRow rows row p g)[b]? =
      if row.productId = p ∧ row.granularity = g ∧ row.bucketStartSec = b then some row
      else (rows p g)[b]? := by
  unfold putRow
  by_cases hp : p = row.productId
  · subst hp
    rw [Function.update_self]
    by_cases hg : g = row.granularity
    · subst hg
      rw [Function.update_self, ExtTreeMap.getElem?_insert]
      simp only [Std.compare_eq_iff_eq, true_and]
    · rw [Function.update_of_ne hg, if_neg fun h => hg h.2.1.symm]
  · rw [Function.update_of_ne hp, if_neg fun h => hp h.1.symm]

/-- The table: every row is filed under its own primary key. -/
structure Table where
  rows : UInt32 → UInt32 → Partition
  keyed : ∀ productId granularity (bucket : Int) (row : CandleRow),
    (rows productId granularity)[bucket]? = some row →
      row.productId = productId ∧ row.granularity = granularity ∧ row.bucketStartSec = bucket

namespace Table

def empty : Table where
  rows _ _ := ∅
  keyed _ _ _ _ h := nomatch h

/-- The row with the primary key, if there is one. -/
def find (table : Table) (productId granularity : UInt32) (bucket : Int) : Option CandleRow :=
  (table.rows productId granularity)[bucket]?

/-- Write the row at its key. -/
def put (table : Table) (row : CandleRow) : Table where
  rows := putRow table.rows row
  keyed productId granularity bucket row' h := by
    rw [putRow_get] at h
    split at h
    · rename_i hkey
      cases h
      exact hkey
    · exact table.keyed _ _ _ _ h

/-- `INSERT … ON CONFLICT DO UPDATE … WHERE chart_candles.submission_idx <=
EXCLUDED.submission_idx`. -/
def upsert (table : Table) (row : CandleRow) : Table :=
  match table.find row.productId row.granularity row.bucketStartSec with
  | none => table.put row
  | some stored => if stored.submissionIdx ≤ row.submissionIdx then table.put row else table

/-- A committed `upsert_many`. -/
def upsertMany (table : Table) (candles : List CandleRow) : Table := candles.foldl upsert table

/-- The rows of a product and granularity in bucket order. -/
def storedRows (table : Table) (productId granularity : UInt32) : List CandleRow :=
  (table.rows productId granularity).toList.map (·.2)

def loadRecent (table : Table) (symbol : String) (productId granularity : UInt32) (limit : Nat) :
    List CandleRow :=
  (((table.storedRows productId granularity).filter (·.symbol = symbol)).reverse.take limit).reverse

end Table

/-! ## Single rows -/

theorem Table.find_put (table : Table) (row : CandleRow) (p g : UInt32) (b : Int) :
    (table.put row).find p g b =
      if row.productId = p ∧ row.granularity = g ∧ row.bucketStartSec = b then some row
      else table.find p g b :=
  putRow_get table.rows row p g b

/-- The primary key. -/
def CandleRow.primaryKey (row : CandleRow) : UInt32 × UInt32 × Int :=
  (row.productId, row.granularity, row.bucketStartSec)

def Table.findKey (table : Table) (key : UInt32 × UInt32 × Int) : Option CandleRow :=
  table.find key.1 key.2.1 key.2.2

/-- An upsert touches its own primary key only. -/
theorem upsert_local : KeyedFold.Local Table.findKey CandleRow.primaryKey Table.upsert := by
  intro table row ⟨p, g, b⟩ hne
  have hput : (table.put row).findKey (p, g, b) = table.findKey (p, g, b) := by
    unfold Table.findKey
    rw [Table.find_put, if_neg]
    rintro ⟨rfl, rfl, rfl⟩
    exact hne rfl
  unfold Table.upsert
  split
  · exact hput
  · split
    · exact hput
    · rfl

/-- **The version guard** at the row's own key. -/
theorem find_upsert_self (table : Table) (row : CandleRow) :
    (table.upsert row).findKey row.primaryKey =
      match table.findKey row.primaryKey with
      | none => some row
      | some stored =>
        if stored.submissionIdx ≤ row.submissionIdx then some row else some stored := by
  have hput : (table.put row).findKey row.primaryKey = some row := by
    unfold Table.findKey CandleRow.primaryKey
    rw [Table.find_put, if_pos ⟨rfl, rfl, rfl⟩]
  unfold Table.upsert
  cases hf : table.findKey row.primaryKey with
  | none =>
    have hf' : table.find row.productId row.granularity row.bucketStartSec = none := hf
    rw [hf']
    exact hput
  | some stored =>
    have hf' : table.find row.productId row.granularity row.bucketStartSec = some stored := hf
    rw [hf']
    simp only
    split
    · exact hput
    · exact hf

theorem upsert_isSome_self (table : Table) (row : CandleRow) :
    ((table.upsert row).findKey row.primaryKey).isSome := by
  rw [find_upsert_self]
  split
  · rfl
  · split
    · rfl
    · rfl

/-- A key that has a row keeps one. -/
theorem upsertMany_isSome {key : UInt32 × UInt32 × Int} (candles : List CandleRow) {table : Table}
    (h : (table.findKey key).isSome) : ((table.upsertMany candles).findKey key).isSome := by
  unfold Table.upsertMany
  induction candles generalizing table with
  | nil => exact h
  | cons row candles ih =>
    rw [List.foldl_cons]
    refine ih ?_
    by_cases hkey : row.primaryKey = key
    · exact hkey ▸ upsert_isSome_self table row
    · rw [upsert_local table row key hkey]
      exact h

/-- A stored row was stored before or is one of the upserted rows. -/
theorem findKey_upsertMany {key : UInt32 × UInt32 × Int} (candles : List CandleRow) {table : Table}
    {row : CandleRow} (h : (table.upsertMany candles).findKey key = some row) :
    table.findKey key = some row ∨ row ∈ candles := by
  unfold Table.upsertMany at h
  induction candles generalizing table with
  | nil => exact .inl h
  | cons r candles ih =>
    rw [List.foldl_cons] at h
    rcases ih h with hone | hmem
    · by_cases hkey : r.primaryKey = key
      · subst hkey
        rw [find_upsert_self] at hone
        split at hone
        · cases hone
          exact .inr List.mem_cons_self
        · rename_i stored hstored
          split at hone
          · cases hone
            exact .inr List.mem_cons_self
          · exact .inl (hstored.trans hone)
      · rw [upsert_local table r key hkey] at hone
        exact .inl hone
    · exact .inr (List.mem_cons_of_mem r hmem)

/-- Rows that are outdated, or stored already, change nothing at their key. -/
theorem upsertMany_stable {key : UInt32 × UInt32 × Int} {candles : List CandleRow} {table : Table}
    (h : ∀ row ∈ candles, row.primaryKey = key →
      ∃ stored ∈ table.findKey key, row.submissionIdx < stored.submissionIdx ∨ stored = row) :
    (table.upsertMany candles).findKey key = table.findKey key := by
  unfold Table.upsertMany
  induction candles generalizing table with
  | nil => rfl
  | cons row candles ih =>
    have hone : (table.upsert row).findKey key = table.findKey key := by
      by_cases hkey : row.primaryKey = key
      · obtain ⟨stored, hstored, hrow⟩ := h row List.mem_cons_self hkey
        subst hkey
        rw [find_upsert_self, Option.mem_def.1 hstored]
        rcases hrow with hlt | rfl
        · exact if_neg (by omega)
        · exact if_pos (Int.le_refl _)
      · exact upsert_local table row key hkey
    rw [List.foldl_cons, ih fun r hr hkey => ?_, hone]
    rw [hone]
    exact h r (List.mem_cons_of_mem row hr) hkey

/-! ## The sorted rows -/

abbrev Ascending (rows : List CandleRow) : Prop := Versioned.Sorted CandleRow.bucketStartSec rows

theorem Table.mem_storedRows {table : Table} {p g : UInt32} {row : CandleRow} :
    row ∈ table.storedRows p g ↔ table.find p g row.bucketStartSec = some row := by
  unfold Table.storedRows Table.find
  rw [List.mem_map]
  constructor
  · rintro ⟨⟨bucket, row⟩, hmem, rfl⟩
    have hget := ExtTreeMap.mem_toList_iff_getElem?_eq_some.1 hmem
    rw [(table.keyed p g bucket row hget).2.2]
    exact hget
  · intro hget
    exact ⟨(row.bucketStartSec, row), ExtTreeMap.mem_toList_iff_getElem?_eq_some.2 hget, rfl⟩

theorem Table.storedRows_ascending (table : Table) (p g : UInt32) :
    Ascending (table.storedRows p g) := by
  unfold Ascending Versioned.Sorted Table.storedRows
  rw [List.pairwise_map]
  have hord : (table.rows p g).toList.Pairwise fun a b => compare a.1 b.1 = .lt :=
    ExtTreeMap.ordered_keys_toList
  refine hord.imp_of_mem fun {a b} ha hb hlt => ?_
  obtain ⟨bucket, row⟩ := a
  obtain ⟨bucket', row'⟩ := b
  rw [ExtTreeMap.mem_toList_iff_getElem?_eq_some] at ha hb
  simp only
  rw [(table.keyed p g bucket row ha).2.2, (table.keyed p g bucket' row' hb).2.2]
  exact Std.compare_eq_lt.1 hlt

/-- The row at a key among the sorted rows. -/
theorem Table.mem_storedRows_key {table : Table} {row r : CandleRow}
    (hb : r.bucketStartSec = row.bucketStartSec) :
    r ∈ table.storedRows row.productId row.granularity ↔
      table.findKey row.primaryKey = some r := by
  rw [Table.mem_storedRows, hb]
  rfl

theorem outdated_iff {table : Table} {row : CandleRow} :
    Versioned.Outdated CandleRow.bucketStartSec CandleRow.submissionIdx row
        (table.storedRows row.productId row.granularity) ↔
      ∃ stored, table.findKey row.primaryKey = some stored ∧
        row.submissionIdx < stored.submissionIdx := by
  constructor
  · rintro ⟨e, he, hk, hv⟩
    exact ⟨e, (Table.mem_storedRows_key hk).1 he, hv⟩
  · rintro ⟨e, he, hv⟩
    have hk : e.bucketStartSec = row.bucketStartSec := (table.keyed _ _ _ _ he).2.2
    exact ⟨e, (Table.mem_storedRows_key hk).2 he, hk, hv⟩

/-- **An upsert of the table is an upsert of the sorted rows.** -/
theorem storedRows_upsert (table : Table) (row : CandleRow) :
    (table.upsert row).storedRows row.productId row.granularity =
      Versioned.upsert CandleRow.bucketStartSec CandleRow.submissionIdx row
        (table.storedRows row.productId row.granularity) := by
  have hsorted := table.storedRows_ascending row.productId row.granularity
  refine Versioned.Sorted.eq_of_mem_iff (Table.storedRows_ascending ..) hsorted.upsert fun r => ?_
  rw [Versioned.mem_upsert hsorted, outdated_iff]
  by_cases hb : r.bucketStartSec = row.bucketStartSec
  · rw [Table.mem_storedRows_key hb, Table.mem_storedRows_key hb, find_upsert_self]
    cases hf : table.findKey row.primaryKey with
    | none =>
      constructor
      · rintro h
        cases h
        exact .inr ⟨rfl, fun ⟨_, h, _⟩ => nomatch h⟩
      · rintro (⟨h, -⟩ | ⟨rfl, -⟩)
        · cases h
        · rfl
    | some stored =>
      simp only [Option.some.injEq, exists_eq_left', Int.not_lt]
      split
      · rename_i hle
        constructor
        · intro h
          cases h
          exact .inr ⟨rfl, hle⟩
        · rintro (⟨rfl, hr⟩ | ⟨rfl, -⟩)
          · exact absurd (hr.resolve_left fun h => h hb) (by omega)
          · rfl
      · rename_i hnle
        constructor
        · intro h
          cases h
          exact .inl ⟨rfl, .inr (by omega)⟩
        · rintro (⟨rfl, -⟩ | ⟨-, hr⟩)
          · rfl
          · exact absurd hr hnle
  · have hother : (table.upsert row).find row.productId row.granularity r.bucketStartSec =
        table.find row.productId row.granularity r.bucketStartSec :=
      upsert_local table row (row.productId, row.granularity, r.bucketStartSec) fun h =>
        hb (congrArg (·.2.2) h).symm
    rw [Table.mem_storedRows, Table.mem_storedRows, hother]
    constructor
    · intro h
      exact .inl ⟨h, .inl hb⟩
    · rintro (⟨h, -⟩ | ⟨rfl, -⟩)
      · exact h
      · exact absurd rfl hb

theorem storedRows_upsert_other (table : Table) {row : CandleRow} {p g : UInt32}
    (h : ¬ (row.productId = p ∧ row.granularity = g)) :
    (table.upsert row).storedRows p g = table.storedRows p g := by
  refine Versioned.Sorted.eq_of_mem_iff (Table.storedRows_ascending ..)
    (Table.storedRows_ascending ..) fun r => ?_
  rw [Table.mem_storedRows, Table.mem_storedRows]
  have hother : (table.upsert row).find p g r.bucketStartSec = table.find p g r.bucketStartSec :=
    upsert_local table row (p, g, r.bucketStartSec) fun hk =>
      h ⟨congrArg (·.1) hk, congrArg (·.2.1) hk⟩
  rw [hother]

/-! ## Reading the newest rows -/

/-- The last `n` of a list. -/
def newest {A : Type} (n : Nat) (rows : List A) : List A := rows.drop (rows.length - n)

theorem loadRecent_eq (table : Table) (symbol : String) (p g : UInt32) (limit : Nat) :
    table.loadRecent symbol p g limit =
      newest limit ((table.storedRows p g).filter (·.symbol = symbol)) := by
  unfold Table.loadRecent newest
  rw [List.take_reverse, List.reverse_reverse]

/-- The symbol owns all the rows of the product and granularity. -/
def Table.Owned (table : Table) (symbol : String) (p g : UInt32) : Prop :=
  ∀ row ∈ table.storedRows p g, row.symbol = symbol

theorem Table.Owned.loadRecent {table : Table} {symbol : String} {p g : UInt32}
    (h : table.Owned symbol p g) (limit : Nat) :
    table.loadRecent symbol p g limit = newest limit (table.storedRows p g) := by
  rw [loadRecent_eq, List.filter_eq_self.2 fun row hrow => decide_eq_true (h row hrow)]

theorem newest_suffix {A : Type} (n : Nat) (rows : List A) : newest n rows <:+ rows :=
  List.drop_suffix _ rows

/-- A suffix is the newest rows of its own length. -/
theorem newest_length_of_suffix {A : Type} {cache rows : List A} (h : cache <:+ rows) :
    newest cache.length rows = cache := by
  obtain ⟨pre, rfl⟩ := h
  unfold newest
  rw [List.length_append, Nat.add_sub_cancel, List.drop_left]

end Chart
