import Mathlib.Data.List.Sort
import Mathlib.Order.Basic

/-!
# Tables of versioned rows

A table is a list of rows with strictly increasing keys. An upsert inserts a row at its key, or
replaces the row of that key unless the table's version is greater. A cache of the newest rows is
a suffix of the table.

* `mem_upsert`: the rows after an upsert.
* `upsert_append_right`, `upsert_append_left`: an upsert acts on the part of the table its key
  falls in.
* `upsert_suffix`, `suffix_upsert_of_older`: it is made in a cache, or does not reach it.
-/

namespace Versioned

variable {R K V : Type*} [LinearOrder V]

/-! ## Outdated rows -/

/-- The table has a row of this key with a greater version. -/
def Outdated (key : R → K) (ver : R → V) (row : R) (rows : List R) : Prop :=
  ∃ e ∈ rows, key e = key row ∧ ver row < ver e

section
variable {key : R → K} {ver : R → V} {row : R}

theorem outdated_append {as bs : List R} :
    Outdated key ver row (as ++ bs) ↔ Outdated key ver row as ∨ Outdated key ver row bs := by
  unfold Outdated
  simp only [List.mem_append, or_and_right, exists_or]

theorem outdated_cons {e : R} {rows : List R} :
    Outdated key ver row (e :: rows) ↔
      (key e = key row ∧ ver row < ver e) ∨ Outdated key ver row rows := by
  unfold Outdated
  simp only [List.mem_cons, or_and_right, exists_or, exists_eq_left]

theorem outdated_singleton {e : R} :
    Outdated key ver row [e] ↔ key e = key row ∧ ver row < ver e := by
  unfold Outdated
  simp only [List.mem_singleton, exists_eq_left]

/-- A row with a new key is not outdated. -/
theorem not_outdated_of_ne {rows : List R} (h : ∀ e ∈ rows, key e ≠ key row) :
    ¬ Outdated key ver row rows := fun ⟨e, he, hk, _⟩ => h e he hk

end

/-! ## Sorted rows -/

variable [LinearOrder K]

section
variable (key : R → K) (ver : R → V)

/-- The rows are in the strict order of their keys. -/
def Sorted (rows : List R) : Prop := rows.Pairwise fun a b => key a < key b

def upsert (row : R) : List R → List R
  | [] => [row]
  | e :: rows =>
    if key row < key e then row :: e :: rows
    else if key row = key e then (if ver e ≤ ver row then row else e) :: rows
    else e :: upsert row rows

end

variable {key : R → K} {ver : R → V} {row : R}

theorem Sorted.nodup {rows : List R} (h : Sorted key rows) : rows.Nodup :=
  List.Pairwise.imp (fun {a b} hlt => by
    rintro rfl
    exact lt_irrefl _ hlt) h

/-- A sorted list has one row of a key. -/
theorem Sorted.key_unique {rows : List R} (h : Sorted key rows) {a b : R} (ha : a ∈ rows)
    (hb : b ∈ rows) (hk : key a = key b) : a = b := by
  induction rows with
  | nil => cases ha
  | cons e rows ih =>
    obtain ⟨hlt, htail⟩ := List.pairwise_cons.1 h
    rcases List.mem_cons.1 ha with rfl | ha'
    · rcases List.mem_cons.1 hb with rfl | hb'
      · rfl
      · exact absurd hk (ne_of_lt (hlt b hb'))
    · rcases List.mem_cons.1 hb with rfl | hb'
      · exact absurd hk.symm (ne_of_lt (hlt a ha'))
      · exact ih htail ha' hb'

/-- The first row has the least key. -/
theorem Sorted.head_le {rows : List R} (h : Sorted key rows) {first e : R}
    (hfirst : first ∈ rows.head?) (he : e ∈ rows) : key first ≤ key e := by
  obtain ⟨rest, rfl⟩ := List.head?_eq_some_iff.1 hfirst
  rcases List.mem_cons.1 he with rfl | he
  · exact le_refl _
  · exact le_of_lt ((List.pairwise_cons.1 h).1 e he)

/-- Two sorted lists of the same rows. -/
theorem Sorted.eq_of_mem_iff {as bs : List R} (ha : Sorted key as) (hb : Sorted key bs)
    (h : ∀ r, r ∈ as ↔ r ∈ bs) : as = bs := by
  refine List.Perm.eq_of_pairwise (fun a b _ _ hab hba => absurd hba (lt_asymm hab)) ha hb ?_
  exact (List.perm_ext_iff_of_nodup ha.nodup hb.nodup).2 h

/-! ## Where an upsert acts -/

theorem upsert_append_right {pre rows : List R} (h : ∀ e ∈ pre, key e < key row) :
    upsert key ver row (pre ++ rows) = pre ++ upsert key ver row rows := by
  induction pre with
  | nil => rfl
  | cons e pre ih =>
    have he := h e List.mem_cons_self
    rw [List.cons_append, upsert, if_neg (lt_asymm he), if_neg (ne_of_gt he),
      ih fun e' he' => h e' (List.mem_cons_of_mem e he')]
    rfl

theorem upsert_append_left {pre rows : List R} {c : R} (h : key row < key c) :
    upsert key ver row (pre ++ c :: rows) = upsert key ver row pre ++ c :: rows := by
  induction pre with
  | nil => simp only [List.nil_append, upsert, if_pos h, List.cons_append]
  | cons e pre ih =>
    rw [List.cons_append, upsert, upsert]
    split
    · rfl
    · split
      · rfl
      · rw [ih]
        rfl

/-- At the place of its own key an upsert compares the versions. -/
theorem upsert_self {e : R} {rows : List R} (h : key row = key e) :
    upsert key ver row (e :: rows) = (if ver e ≤ ver row then row else e) :: rows := by
  rw [upsert, if_neg (by rw [h]; exact lt_irrefl _), if_pos h]

/-! ## The rows after an upsert -/

theorem mem_upsert {rows : List R} (h : Sorted key rows) {r : R} :
    r ∈ upsert key ver row rows ↔
      (r ∈ rows ∧ (key r ≠ key row ∨ ver row < ver r)) ∨
        (r = row ∧ ¬ Outdated key ver row rows) := by
  induction rows with
  | nil =>
    simp only [upsert, List.mem_singleton, List.not_mem_nil, false_and, false_or, Outdated,
      exists_false, not_false_eq_true, and_true]
  | cons e rows ih =>
    obtain ⟨hlt, htail⟩ := List.pairwise_cons.1 h
    rw [upsert]
    split
    · -- all keys are greater than the row's
      rename_i hre
      have hne : ∀ a ∈ e :: rows, key a ≠ key row := by
        intro a ha
        rcases List.mem_cons.1 ha with rfl | ha
        · exact ne_of_gt hre
        · exact ne_of_gt (lt_trans hre (hlt a ha))
      rw [List.mem_cons]
      constructor
      · rintro (rfl | hr)
        · exact .inr ⟨rfl, not_outdated_of_ne hne⟩
        · exact .inl ⟨hr, .inl (hne r hr)⟩
      · rintro (⟨hr, -⟩ | ⟨rfl, -⟩)
        · exact .inr hr
        · exact .inl rfl
    · split
      · -- the row's own key
        rename_i hre
        have hne : ∀ a ∈ rows, key a ≠ key row := fun a ha => by
          rw [hre]
          exact ne_of_gt (hlt a ha)
        rw [outdated_cons, or_iff_left (not_outdated_of_ne hne), and_iff_right hre.symm,
          List.mem_cons]
        split
        · rename_i hle
          constructor
          · rintro (rfl | hr)
            · exact .inr ⟨rfl, not_lt.2 hle⟩
            · exact .inl ⟨List.mem_cons_of_mem e hr, .inl (hne r hr)⟩
          · rintro (⟨hr, hr'⟩ | ⟨rfl, -⟩)
            · rcases List.mem_cons.1 hr with rfl | hr
              · exact absurd hle (not_le.2 (hr'.resolve_left fun hk => hk hre.symm))
              · exact .inr hr
            · exact .inl rfl
        · rename_i hnle
          have hgt := not_le.1 hnle
          constructor
          · rintro (rfl | hr)
            · exact .inl ⟨List.mem_cons_self, .inr hgt⟩
            · exact .inl ⟨List.mem_cons_of_mem e hr, .inl (hne r hr)⟩
          · rintro (⟨hr, -⟩ | ⟨-, hr⟩)
            · exact List.mem_cons.1 hr
            · exact absurd hgt hr
      · -- further on
        rename_i hnlt hne
        have hout : Outdated key ver row (e :: rows) ↔ Outdated key ver row rows :=
          outdated_cons.trans (or_iff_right fun h => hne h.1.symm)
        rw [List.mem_cons, ih htail, hout, List.mem_cons]
        constructor
        · rintro (rfl | ⟨hr, hr'⟩ | hr)
          · exact .inl ⟨.inl rfl, .inl (Ne.symm hne)⟩
          · exact .inl ⟨.inr hr, hr'⟩
          · exact .inr hr
        · rintro (⟨rfl | hr, hr'⟩ | hr)
          · exact .inl rfl
          · exact .inr (.inl ⟨hr, hr'⟩)
          · exact .inr (.inr hr)

theorem Sorted.upsert {rows : List R} (h : Sorted key rows) :
    Sorted key (upsert key ver row rows) := by
  induction rows with
  | nil => exact List.pairwise_singleton ..
  | cons e rows ih =>
    obtain ⟨hlt, htail⟩ := List.pairwise_cons.1 h
    rw [Versioned.upsert]
    split
    · rename_i hre
      refine List.pairwise_cons.2 ⟨fun a ha => ?_, h⟩
      rcases List.mem_cons.1 ha with rfl | ha
      · exact hre
      · exact lt_trans hre (hlt a ha)
    · split
      · rename_i hre
        refine List.pairwise_cons.2 ⟨fun a ha => ?_, htail⟩
        split
        · rw [hre]
          exact hlt a ha
        · exact hlt a ha
      · rename_i hnlt hne
        have hlt' : key e < key row := lt_of_le_of_ne (not_lt.1 hnlt) (Ne.symm hne)
        refine List.pairwise_cons.2 ⟨fun a ha => ?_, ih htail⟩
        rcases (mem_upsert htail).1 ha with ⟨ha, -⟩ | ⟨rfl, -⟩
        · exact hlt a ha
        · exact hlt'

theorem length_upsert_le (row : R) : ∀ rows : List R,
    (upsert key ver row rows).length ≤ rows.length + 1
  | [] => Nat.le_refl _
  | e :: rows => by
    have ih := length_upsert_le row rows
    unfold upsert
    split
    · exact Nat.le_refl _
    · split
      · exact Nat.le_succ _
      · exact Nat.succ_le_succ ih

/-- A row whose key is there replaces a row, or is dropped. -/
theorem length_upsert_of_mem {rows : List R} (h : Sorted key rows) {e : R} (he : e ∈ rows)
    (hk : key e = key row) : (upsert key ver row rows).length = rows.length := by
  induction rows with
  | nil => cases he
  | cons first rows ih =>
    obtain ⟨-, htail⟩ := List.pairwise_cons.1 h
    have hfirst : key first ≤ key e := h.head_le rfl he
    unfold Versioned.upsert
    rw [if_neg (not_lt.2 (hk ▸ hfirst))]
    split
    · rfl
    · rename_i hne
      rcases List.mem_cons.1 he with rfl | he
      · exact absurd hk.symm hne
      · rw [List.length_cons, ih htail he, List.length_cons]

theorem upsert_outdated {rows : List R} (h : Sorted key rows) (ho : Outdated key ver row rows) :
    upsert key ver row rows = rows := by
  refine (h.upsert).eq_of_mem_iff h fun r => ?_
  rw [mem_upsert h]
  obtain ⟨e, he, hk, hv⟩ := ho
  constructor
  · rintro (⟨hr, -⟩ | ⟨-, hnot⟩)
    · exact hr
    · exact absurd ⟨e, he, hk, hv⟩ hnot
  · intro hr
    refine .inl ⟨hr, ?_⟩
    by_cases hrk : key r = key row
    · rw [h.key_unique hr he (hrk.trans hk.symm)]
      exact .inr hv
    · exact .inl hrk

/-! ## Caches of the newest rows -/

/-- A row that is not older than the cache is upserted in the cache. A cache that is empty caches
an empty table. -/
theorem upsert_suffix {cache rows : List R} (hs : Sorted key rows) (hc : cache <:+ rows)
    (hreach : ∀ e ∈ cache.head?, key e ≤ key row) (hnil : cache = [] → rows = []) :
    upsert key ver row cache <:+ upsert key ver row rows := by
  obtain ⟨pre, rfl⟩ := hc
  have hpre : ∀ e ∈ pre, key e < key row := by
    intro e he
    cases cache with
    | nil =>
      rw [List.append_nil] at hnil
      rw [hnil rfl] at he
      cases he
    | cons first cache =>
      have hlt := (List.pairwise_append.1 hs).2.2 e he first List.mem_cons_self
      exact lt_of_lt_of_le hlt (hreach first rfl)
  rw [upsert_append_right hpre]
  exact List.suffix_append ..

/-- A row older than the cache does not reach it. -/
theorem suffix_upsert_of_older {cache rows : List R} (hc : cache <:+ rows) (hne : cache ≠ [])
    (hold : ∀ e ∈ cache, key row < key e) : cache <:+ upsert key ver row rows := by
  obtain ⟨pre, rfl⟩ := hc
  obtain ⟨first, rest, rfl⟩ := List.exists_cons_of_ne_nil hne
  rw [upsert_append_left (hold first List.mem_cons_self)]
  exact List.suffix_append ..

/-- A row that the cache reaches is cached. -/
theorem mem_of_suffix {cache rows : List R} (hs : Sorted key rows) (hc : cache <:+ rows)
    (hnil : cache = [] → rows = []) {r : R} (hr : r ∈ rows)
    (hreach : ∀ e ∈ cache.head?, key e ≤ key r) : r ∈ cache := by
  obtain ⟨pre, rfl⟩ := hc
  rcases List.mem_append.1 hr with hpre | hcache
  · cases cache with
    | nil =>
      rw [hnil rfl] at hr
      cases hr
    | cons first cache =>
      have hlt := (List.pairwise_append.1 hs).2.2 r hpre first List.mem_cons_self
      exact absurd (hreach first rfl) (not_le.2 hlt)
  · exact hcache

/-- A row is not among the newest `n` if the table has `n` newer keys. -/
theorem not_mem_newest {n : Nat} {rows newer : List R} (hs : Sorted key rows)
    (hnewer : Sorted key newer) (hn : n ≤ newer.length) {r : R}
    (h : ∀ e ∈ newer, key r < key e ∧ ∃ e' ∈ rows, key e' = key e) :
    r ∉ rows.drop (rows.length - n) := by
  intro hr
  obtain ⟨pre, post, hpost⟩ := List.append_of_mem hr
  have hafter : ∀ e ∈ rows, key r < key e → e ∈ post := by
    intro e he hgt
    have hsplit := hs
    rw [← List.take_append_drop (rows.length - n) rows, hpost, ← List.append_assoc] at hsplit he
    have hlt := (List.pairwise_append.1 hsplit).2.2
    rcases List.mem_append.1 he with he | he
    · exact absurd (hlt e he r List.mem_cons_self) (lt_asymm hgt)
    · rcases List.mem_cons.1 he with rfl | he
      · exact absurd hgt (lt_irrefl _)
      · exact he
  have hsubset : newer.map key ⊆ post.map key := by
    intro k hmem
    obtain ⟨e, he, rfl⟩ := List.mem_map.1 hmem
    obtain ⟨hgt, e', he', hkey⟩ := h e he
    exact List.mem_map.2 ⟨e', hafter e' he' (hkey ▸ hgt), hkey⟩
  have hnodup : (newer.map key).Nodup := by
    rw [List.nodup_iff_pairwise_ne, List.pairwise_map]
    exact hnewer.imp fun h => ne_of_lt h
  have hlen := (List.subperm_of_subset hnodup hsubset).length_le
  have hpostlen := congrArg List.length hpost
  simp only [List.length_map, List.length_drop, List.length_append, List.length_cons]
    at hlen hpostlen
  omega

/-- Where a table has all the keys of an older one, a key among its newest `n` was among the
newest `n` of the older one, if it was there. -/
theorem mem_newest_of_key {n : Nat} {rows rows' : List R} (hs : Sorted key rows)
    (hs' : Sorted key rows') (hkeys : ∀ e ∈ rows, ∃ e' ∈ rows', key e' = key e) {e r : R}
    (he : e ∈ rows) (hr : r ∈ rows'.drop (rows'.length - n)) (hk : key e = key r) :
    e ∈ rows.drop (rows.length - n) := by
  rw [← List.take_append_drop (rows.length - n) rows] at he
  rcases List.mem_append.1 he with hold | hnew
  · -- then the newest `n` rows of the older table follow `e`
    exfalso
    have hsplit := hs
    rw [← List.take_append_drop (rows.length - n) rows] at hsplit
    obtain ⟨-, hnewest, hlt⟩ := List.pairwise_append.1 hsplit
    have hpos := List.length_pos_of_mem hold
    rw [List.length_take] at hpos
    refine not_mem_newest hs' hnewest ?_ (fun a ha => ⟨?_, hkeys a (List.mem_of_mem_drop ha)⟩) hr
    · rw [List.length_drop]
      omega
    · rw [← hk]
      exact hlt e hold a ha
  · exact hnew

end Versioned
