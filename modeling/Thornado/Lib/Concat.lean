import Mathlib.Data.List.Basic

/-!
# Lists that grow at their end

A history takes one more entry at a time, and some steps add none. What is known of its entries is
carried over an append by the lemmas here.

* `getElem?_cases`: the entry at an index was there before, or is the one appended.
* `pairwise`: a relation between the earlier and the later entries is kept.
-/

namespace Concat

variable {A C : Type*} {l : List A} {a b : A}

theorem getElem?_cases {i : Nat} (h : (l ++ [a])[i]? = some b) :
    l[i]? = some b ∧ i < l.length ∨ i = l.length ∧ a = b := by
  rcases Nat.lt_or_ge i l.length with hlt | hge
  · rw [List.getElem?_append_left hlt] at h
    exact .inl ⟨h, hlt⟩
  · rw [List.getElem?_append_right hge, List.getElem?_singleton] at h
    split at h
    · cases h
      exact .inr ⟨by omega, rfl⟩
    · cases h

theorem mem_drop {n : Nat} (h : a ∈ (l ++ [b]).drop n) : a ∈ l.drop n ∨ a = b := by
  rw [List.drop_append] at h
  rcases List.mem_append.1 h with h | h
  · exact .inl h
  · exact .inr (List.mem_singleton.1 (List.mem_of_mem_drop h))

theorem head? (h : a ∈ l.head?) : a ∈ (l ++ [b]).head? := by
  rw [List.head?_append, Option.mem_def.1 h]
  rfl

theorem filterMap (f : A → Option C) (l : List A) (a : A) :
    (l ++ [a]).filterMap f = l.filterMap f ++ (f a).toList := by
  rw [List.filterMap_append]
  cases h : f a with
  | none => rw [List.filterMap_cons_none h]; rfl
  | some b => rw [List.filterMap_cons_some h]; rfl

theorem pairwise {R : A → A → Prop} {o : Option A} (h : l.Pairwise R)
    (ho : ∀ b ∈ o, ∀ a ∈ l, R a b) : (l ++ o.toList).Pairwise R := by
  refine List.pairwise_append.2 ⟨h, ?_, fun a ha b hb => ho b (Option.mem_toList.1 hb) a ha⟩
  cases o with
  | none => exact List.Pairwise.nil
  | some b => exact List.pairwise_singleton R b

end Concat
