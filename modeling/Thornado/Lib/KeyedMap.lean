import Mathlib.Data.Finset.Card
import Mathlib.Data.List.AList
import Thornado.Lib.KeyedFold
import Thornado.Lib.Versioned

/-!
# Maps whose values carry their key

In a map that files every value under the value's own key the values, in the order of their keys,
are a sorted list without duplicates.

* `mem_values`: a value is listed iff it is the map's value at its own key.
* `values_sorted`: the listed values are in the strict order of their keys.
* `Newest`: a key with fewer than `n` greater ones. `mem_drop_of_newest`: its value is among the
  last `n`.
-/

namespace KeyedMap

variable {K V : Type} [LinearOrder K] {key : V → K}

/-- Every value is filed under its own key. -/
def Keyed (key : V → K) (map : AList fun _ : K => V) : Prop :=
  ∀ k v, map.lookup k = some v → key v = k

def values (key : V → K) (map : AList fun _ : K => V) : List V :=
  (map.entries.map (·.2)).mergeSort fun a b => decide (key a ≤ key b)

variable {map : AList fun _ : K => V}

theorem keyed_empty : Keyed key (∅ : AList fun _ : K => V) := fun _ _ h => by
  simp at h

theorem Keyed.insert (h : Keyed key map) {k : K} {v : V} (hv : key v = k) :
    Keyed key (map.insert k v) := by
  intro k' w hw
  by_cases hk : k' = k
  · subst hk
    rw [AList.lookup_insert] at hw
    cases hw
    exact hv
  · rw [AList.lookup_insert_ne hk] at hw
    exact h k' w hw

theorem Keyed.mem_entries (h : Keyed key map) {e : Sigma fun _ : K => V} (he : e ∈ map.entries) :
    e.1 = key e.2 :=
  (h e.1 e.2 (AList.mem_lookup_iff.2 he)).symm

theorem mem_values (h : Keyed key map) {v : V} :
    v ∈ values key map ↔ map.lookup (key v) = some v := by
  unfold values
  rw [List.mem_mergeSort, List.mem_map]
  constructor
  · rintro ⟨e, he, rfl⟩
    rw [← h.mem_entries he]
    exact AList.mem_lookup_iff.2 he
  · intro hv
    exact ⟨⟨key v, v⟩, AList.mem_lookup_iff.1 hv, rfl⟩

theorem values_sorted (h : Keyed key map) : Versioned.Sorted key (values key map) := by
  have hle : (values key map).Pairwise fun a b => key a ≤ key b := by
    refine (List.pairwise_mergeSort (fun a b c hab hbc => ?_) (fun a b => ?_) _).imp
      fun hab => of_decide_eq_true hab
    · simp only [decide_eq_true_eq] at hab hbc ⊢
      exact le_trans hab hbc
    · simp only [Bool.or_eq_true, decide_eq_true_eq]
      exact le_total (key a) (key b)
  have hne : (values key map).Pairwise fun a b => key a ≠ key b := by
    have hentries : (map.entries.map (·.2)).Pairwise fun a b => key a ≠ key b := by
      rw [List.pairwise_map]
      refine List.Pairwise.imp_of_mem (fun {a b} ha hb hab => ?_)
        (List.pairwise_map.1 (List.nodup_iff_pairwise_ne.1 map.nodupKeys))
      rw [← h.mem_entries ha, ← h.mem_entries hb]
      exact hab
    exact (List.mergeSort_perm _ _).symm.pairwise hentries fun hab => hab.symm
  exact (hle.and hne).imp fun h => lt_of_le_of_ne h.1 h.2

/-- A fold that inserts at the element's key. -/
theorem local_insert {A : Type} (akey : A → K) (f : AList (fun _ : K => V) → A → V) :
    KeyedFold.Local (fun (map : AList fun _ : K => V) k => map.lookup k) akey
      fun map a => map.insert (akey a) (f map a) :=
  fun _ _ _ hne => AList.lookup_insert_ne (Ne.symm hne)

/-! ## The newest keys -/

/-- One of the keys, with fewer than `n` greater ones. -/
def Newest (n : Nat) (keys : List K) (k : K) : Prop :=
  k ∈ keys ∧ (keys.toFinset.filter (k < ·)).card < n

instance (n : Nat) (keys : List K) (k : K) : Decidable (Newest n keys k) :=
  inferInstanceAs (Decidable (_ ∧ _))

theorem Newest.mono {n : Nat} {keys keys' : List K} {k : K} (h : Newest n keys' k)
    (hsub : keys ⊆ keys') (hk : k ∈ keys) : Newest n keys k := by
  have hsubset : keys.toFinset ⊆ keys'.toFinset := fun x hx => by
    rw [List.mem_toFinset] at hx ⊢
    exact hsub hx
  exact ⟨hk, Nat.lt_of_le_of_lt (Finset.card_le_card (Finset.filter_subset_filter _ hsubset)) h.2⟩

theorem mem_drop_of_newest {n : Nat} {vs : List V} {keys : List K}
    (hs : Versioned.Sorted key vs) (hkeys : ∀ v ∈ vs, key v ∈ keys) {v : V} (hv : v ∈ vs)
    (h : Newest n keys (key v)) : v ∈ vs.drop (vs.length - n) := by
  rw [← List.take_append_drop (vs.length - n) vs] at hv
  rcases List.mem_append.1 hv with hold | hnew
  · -- then `n` values follow, with greater keys
    exfalso
    have hsplit := hs
    unfold Versioned.Sorted at hsplit
    rw [← List.take_append_drop (vs.length - n) vs, List.pairwise_append] at hsplit
    obtain ⟨-, hnewest, hlt⟩ := hsplit
    have hnodup : ((vs.drop (vs.length - n)).map key).Nodup := by
      rw [List.nodup_iff_pairwise_ne, List.pairwise_map]
      exact hnewest.imp fun h => ne_of_lt h
    have hsubset : ((vs.drop (vs.length - n)).map key).toFinset ⊆
        keys.toFinset.filter (key v < ·) := by
      intro k hk
      rw [List.mem_toFinset, List.mem_map] at hk
      obtain ⟨w, hw, rfl⟩ := hk
      rw [Finset.mem_filter, List.mem_toFinset]
      exact ⟨hkeys w (List.mem_of_mem_drop hw), hlt v hold w hw⟩
    have hcard := Finset.card_le_card hsubset
    rw [List.toFinset_card_of_nodup hnodup, List.length_map, List.length_drop] at hcard
    have hpos := List.length_pos_of_mem hold
    rw [List.length_take] at hpos
    have hlt := h.2
    omega
  · exact hnew

end KeyedMap
