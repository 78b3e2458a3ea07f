import Mathlib.Algebra.BigOperators.Group.Finset.Basic
import Mathlib.Algebra.Order.BigOperators.Group.List
import Mathlib.Algebra.Order.Monoid.Unbundled.Basic

/-!
# Running totals

`totals size t as` are the sums so far along a list, from `t`. With positive sizes they increase
strictly (`totals_pairwise`), so they stay below a bound exactly if the last one does
(`totals_le_iff`). The entries of a table sum up to the sum of its values over any set of keys
that covers it (`sum_entries`).
-/

namespace RunningTotal

variable {A K M : Type*}

section
variable [AddCommMonoid M] (size : A → M)

def totals (t : M) : List A → List M
  | [] => []
  | a :: as => (t + size a) :: totals (t + size a) as

@[simp] theorem totals_length : ∀ (as : List A) (t : M), (totals size t as).length = as.length
  | [], _ => rfl
  | a :: as, t => by simp [totals, totals_length as]

theorem totals_getElem? : ∀ (as : List A) (t : M) (i : Nat), i < as.length →
    (totals size t as)[i]? = some (t + ((as.take (i + 1)).map size).sum)
  | a :: as, t, 0, _ => by simp [totals]
  | a :: as, t, i + 1, h => by
    have ih := totals_getElem? as (t + size a) i (Nat.lt_of_succ_lt_succ h)
    simp [totals, ih, add_assoc]

theorem totals_take : ∀ (as : List A) (t : M) (n : Nat),
    totals size t (as.take n) = (totals size t as).take n
  | [], _, _ => by simp [totals]
  | _ :: _, _, 0 => by simp [totals]
  | a :: as, t, n + 1 => by simp [totals, totals_take as]

end

section
variable [AddCommMonoid M] [PartialOrder M] [IsOrderedCancelAddMonoid M] {size : A → M}

theorem lt_totals : ∀ {as : List A} {t : M}, (∀ a ∈ as, 0 < size a) →
    ∀ x ∈ totals size t as, t < x
  | [], _, _, x, hx => nomatch hx
  | a :: as, t, h, x, hx => by
    have hlt : t < t + size a := lt_add_of_pos_right t (h a List.mem_cons_self)
    rcases List.mem_cons.1 hx with rfl | hx
    · exact hlt
    · exact hlt.trans (lt_totals (fun b hb => h b (List.mem_cons_of_mem a hb)) x hx)

theorem totals_pairwise : ∀ {as : List A} {t : M}, (∀ a ∈ as, 0 < size a) →
    (totals size t as).Pairwise (· < ·)
  | [], _, _ => .nil
  | a :: _, _, h =>
    have hrest := fun b hb => h b (List.mem_cons_of_mem a hb)
    .cons (lt_totals hrest) (totals_pairwise hrest)

/-- The totals stay below a bound exactly if the whole sum does. -/
theorem totals_le_iff : ∀ {as : List A} {t bound : M}, (∀ a ∈ as, 0 < size a) → t ≤ bound →
    ((∀ x ∈ totals size t as, x ≤ bound) ↔ t + (as.map size).sum ≤ bound)
  | [], t, bound, _, ht => by simpa [totals] using ht
  | a :: as, t, bound, h, ht => by
    have hrest : ∀ b ∈ as, 0 < size b := fun b hb => h b (List.mem_cons_of_mem a hb)
    have hsum : 0 ≤ (as.map size).sum := List.sum_nonneg fun x hx => by
      obtain ⟨b, hb, rfl⟩ := List.mem_map.1 hx
      exact (hrest b hb).le
    have hle : t + size a ≤ t + size a + (as.map size).sum := le_add_of_nonneg_right hsum
    rw [totals, List.forall_mem_cons, List.map_cons, List.sum_cons, ← add_assoc]
    by_cases hfirst : t + size a ≤ bound
    · rw [totals_le_iff hrest hfirst]
      exact and_iff_right hfirst
    · exact iff_of_false (fun hall => hfirst hall.1) fun hall => hfirst (hle.trans hall)

end

/-- The sum of a table's entries, by its lookup function: the keys without an entry have `0`. -/
theorem sum_entries [DecidableEq K] [AddCommMonoid M] {entries : List (K × M)} {look : K → M}
    {keys : Finset K} (hn : (entries.map Prod.fst).Nodup)
    (hmem : ∀ k v, (k, v) ∈ entries ↔ look k = v ∧ v ≠ 0) (hkeys : ∀ k, look k ≠ 0 → k ∈ keys) :
    (entries.map Prod.snd).sum = ∑ k ∈ keys, look k := by
  have hsnd : entries.map Prod.snd = (entries.map Prod.fst).map look := by
    rw [List.map_map]
    refine List.map_congr_left fun e he => ?_
    exact ((hmem e.1 e.2).1 he).1.symm
  rw [hsnd, ← List.sum_toFinset look hn]
  refine Finset.sum_subset (fun k hk => ?_) fun k _ hk => ?_
  · obtain ⟨e, he, rfl⟩ := List.mem_map.1 (List.mem_toFinset.1 hk)
    obtain ⟨hlook, hne⟩ := (hmem e.1 e.2).1 he
    exact hkeys e.1 (hlook ▸ hne)
  · -- a key without an entry
    by_contra hne
    exact hk (List.mem_toFinset.2 (List.mem_map.2 ⟨(k, look k), (hmem k _).2 ⟨rfl, hne⟩, rfl⟩))

end RunningTotal
