import Mathlib.Data.List.Chain
import Mathlib.Data.List.Destutter
import Mathlib.Data.List.Sort

/-!
# Sorting and deduplicating by a key

`sort_by_key` is a stable sort; `dedup_by_key` drops the elements that have the key of the last
element kept. In sequence they leave one element of each key, in strict order of the keys
(`dedupByKey_sorted`, `exists_mem_dedupByKey`).
-/

namespace Rust

variable {A K : Type} [LinearOrder K]

/-- `slice::sort_by_key`. -/
def sortByKey (key : A → K) (xs : List A) : List A := xs.insertionSort fun a b => key a ≤ key b

/-- `Vec::dedup_by_key`. -/
def dedupByKey (key : A → K) (xs : List A) : List A := xs.destutter fun a b => key a ≠ key b

variable {key : A → K} {xs : List A}

theorem mem_sortByKey {x : A} : x ∈ sortByKey key xs ↔ x ∈ xs := List.mem_insertionSort _

theorem sortByKey_sorted (xs : List A) :
    (sortByKey key xs).Pairwise fun a b => key a ≤ key b := by
  have : Std.Total fun a b : A => key a ≤ key b := ⟨fun a b => le_total (key a) (key b)⟩
  have : IsTrans A fun a b => key a ≤ key b := ⟨fun _ _ _ => le_trans⟩
  exact List.pairwise_insertionSort ..

theorem dedupByKey_sublist (xs : List A) : (dedupByKey key xs).Sublist xs :=
  List.destutter_sublist _ xs

theorem exists_mem_destutter' {x : A} (a : A) (h : x ∈ a :: xs) :
    ∃ kept ∈ xs.destutter' (fun a b => key a ≠ key b) a, key kept = key x := by
  induction xs generalizing a x with
  | nil =>
    rw [List.mem_singleton.1 h]
    exact ⟨a, List.mem_singleton_self a, rfl⟩
  | cons b xs ih =>
    by_cases hne : key a ≠ key b
    · rw [List.destutter'_cons_pos xs hne]
      rcases List.mem_cons.1 h with rfl | h
      · exact ⟨x, List.mem_cons_self, rfl⟩
      · obtain ⟨kept, hkept, hkey⟩ := ih b h
        exact ⟨kept, List.mem_cons_of_mem a hkept, hkey⟩
    · rw [List.destutter'_cons_neg xs hne]
      rcases List.mem_cons.1 h with rfl | h
      · exact ih x List.mem_cons_self
      · rcases List.mem_cons.1 h with rfl | h
        · obtain ⟨kept, hkept, hkey⟩ := ih a List.mem_cons_self
          exact ⟨kept, hkept, hkey.trans (not_not.1 hne)⟩
        · exact ih a (List.mem_cons_of_mem a h)

/-- Every key keeps an element. -/
theorem exists_mem_dedupByKey {x : A} (h : x ∈ xs) :
    ∃ kept ∈ dedupByKey key xs, key kept = key x := by
  cases xs with
  | nil => cases h
  | cons a xs => exact exists_mem_destutter' a h

/-- Sorted elements of which no two neighbours have the same key. -/
theorem pairwise_lt_of_isChain (hne : xs.IsChain fun a b => key a ≠ key b)
    (hle : xs.Pairwise fun a b => key a ≤ key b) : xs.Pairwise fun a b => key a < key b := by
  induction xs with
  | nil => exact List.Pairwise.nil
  | cons a xs ih =>
    obtain ⟨hfirst, hrest⟩ := List.pairwise_cons.1 hle
    refine List.pairwise_cons.2 ⟨fun c hc => ?_, ih hne.tail hrest⟩
    cases xs with
    | nil => cases hc
    | cons b xs =>
      have hab : key a < key b :=
        lt_of_le_of_ne (hfirst b List.mem_cons_self) (List.isChain_cons_cons.1 hne).1
      rcases List.mem_cons.1 hc with rfl | hc
      · exact hab
      · exact lt_of_lt_of_le hab ((List.pairwise_cons.1 hrest).1 c hc)

/-- Of sorted elements one of each key is kept. -/
theorem dedupByKey_sorted (h : xs.Pairwise fun a b => key a ≤ key b) :
    (dedupByKey key xs).Pairwise fun a b => key a < key b :=
  pairwise_lt_of_isChain (List.isChain_destutter _ xs) (h.sublist (dedupByKey_sublist xs))

end Rust
