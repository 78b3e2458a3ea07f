import Mathlib.Data.List.Sort
import Mathlib.Data.List.AList

/-!
# Rankings and their incomplete copies

A ranking lists its items best first. An incomplete copy misses some of the items: it is a sublist.
Its first `n` items are the ranking's exactly if it misses none of those (`take_eq_iff`). A map
with its keys in order is a ranking, and a map with some of its entries is a copy of it.
-/

namespace Ranked

/-- **The head of an incomplete copy** is right exactly if nothing is missing from it. -/
theorem take_eq_iff {A : Type*} {copy ranking : List A} (h : copy.Sublist ranking)
    (hn : ranking.Nodup) (n : Nat) :
    copy.take n = ranking.take n ↔ ∀ a ∈ ranking.take n, a ∈ copy := by
  constructor
  · intro heq a ha
    rw [← heq] at ha
    exact List.mem_of_mem_take ha
  · induction h generalizing n with
    | slnil => intro _; rfl
    | @cons copy ranking a h ih =>
      intro hall
      cases n with
      | zero => rfl
      | succ n =>
        -- the copy lacks the best item
        have hmem := hall a List.mem_cons_self
        exact absurd (h.subset hmem) (List.nodup_cons.1 hn).1
    | @cons_cons copy ranking a h ih =>
      intro hall
      cases n with
      | zero => rfl
      | succ n =>
        obtain ⟨hnot, hn⟩ := List.nodup_cons.1 hn
        rw [List.take_succ_cons, List.take_succ_cons, ih hn n fun b hb => ?_]
        have hb' := hall b (List.mem_cons_of_mem a hb)
        rcases List.mem_cons.1 hb' with rfl | hb'
        · exact absurd (List.mem_of_mem_take hb) hnot
        · exact hb'

section
variable {K V : Type*} [Ord K] [Std.TransOrd K]

/-- The order of a map's entries. -/
def Before (a b : K × V) : Prop := compare a.1 b.1 = .lt

instance : Std.Irrefl (Before (K := K) (V := V)) where
  irrefl a h := by
    unfold Before at h
    rw [Std.compare_self] at h
    cases h

instance : Std.Antisymm (Before (K := K) (V := V)) where
  antisymm a b hab hba := by
    unfold Before at hab hba
    rw [Std.OrientedOrd.eq_swap, hba] at hab
    cases hab

theorem toList_pairwise (m : Std.ExtTreeMap K V) : m.toList.Pairwise Before :=
  Std.ExtTreeMap.ordered_keys_toList

theorem toList_nodup (m : Std.ExtTreeMap K V) : m.toList.Nodup := (toList_pairwise m).nodup

/-- The entries of a smaller map are a copy of the larger map's. -/
theorem toList_sublist [Std.LawfulEqOrd K] {copy full : Std.ExtTreeMap K V}
    (h : ∀ (k : K) (v : V), copy[k]? = some v → full[k]? = some v) :
    copy.toList.Sublist full.toList := by
  have hsub : copy.toList ⊆ full.toList := by
    intro ⟨k, v⟩ hkv
    rw [Std.ExtTreeMap.mem_toList_iff_getElem?_eq_some] at hkv ⊢
    exact h k v hkv
  exact List.sublist_of_subperm_of_pairwise (List.subperm_of_subset (toList_nodup copy) hsub)
    (toList_pairwise copy) (toList_pairwise full)

end

end Ranked
