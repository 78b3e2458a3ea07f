import Mathlib.Data.List.DropRight

/-!
# Padding at the end

`List.rightpad n a xs` fills a list up with `a`. What was there can be read back except for the
elements `a` at its end (`rightpad_eq_iff`).
-/

namespace Padding

variable {A : Type*} [DecidableEq A] (a : A)

/-- The list without the elements `a` at its end. -/
abbrev stem (xs : List A) : List A := xs.rdropWhile (· = a)

theorem stem_append (xs : List A) : ∃ k, xs = stem a xs ++ List.replicate k a := by
  refine ⟨(xs.rtakeWhile (· = a)).length, ?_⟩
  have hall : xs.rtakeWhile (· = a) = List.replicate (xs.rtakeWhile (· = a)).length a :=
    List.eq_replicate_of_mem fun c hc => by simpa using List.mem_rtakeWhile_imp hc
  rw [← hall]
  exact (List.rdropWhile_append_rtakeWhile ..).symm

theorem stem_append_replicate (xs : List A) (k : Nat) :
    stem a (xs ++ List.replicate k a) = stem a xs := by
  induction k with
  | zero => simp
  | succ k ih =>
    have hlast : stem a (xs ++ List.replicate k a ++ [a]) = stem a (xs ++ List.replicate k a) :=
      List.rdropWhile_concat_pos _ _ _ (by simp)
    rw [List.replicate_succ', ← List.append_assoc, hlast, ih]

theorem stem_getLast (xs : List A) : (stem a xs).getLast? ≠ some a := by
  intro hlast
  have hne : stem a xs ≠ [] := by
    intro hnil
    rw [hnil] at hlast
    cases hlast
  rw [List.getLast?_eq_some_getLast hne, Option.some.injEq] at hlast
  have hno := List.rdropWhile_last_not (fun c => decide (c = a)) xs hne
  exact hno (decide_eq_true hlast)

theorem stem_eq_self {xs : List A} (h : xs.getLast? ≠ some a) : stem a xs = xs := by
  refine List.rdropWhile_eq_self_iff.2 fun hne hlast => h ?_
  rw [List.getLast?_eq_some_getLast hne, of_decide_eq_true hlast]

/-- Padding a list that is short enough is padding its stem. -/
theorem rightpad_stem {n : Nat} {xs : List A} (h : xs.length ≤ n) :
    List.rightpad n a (stem a xs) = List.rightpad n a xs := by
  obtain ⟨k, hk⟩ := stem_append a xs
  have hlen : xs.length = (stem a xs).length + k := by
    conv_lhs => rw [hk]
    rw [List.length_append, List.length_replicate]
  have hsplit : n - (stem a xs).length = k + (n - xs.length) := by omega
  unfold List.rightpad
  rw [hsplit, List.replicate_add, ← List.append_assoc, ← hk]

theorem rightpad_eq_iff {n : Nat} {xs ys : List A} (hx : xs.length ≤ n) (hy : ys.length ≤ n) :
    List.rightpad n a xs = List.rightpad n a ys ↔ stem a xs = stem a ys := by
  constructor
  · intro h
    have hstem := congrArg (stem a) h
    unfold List.rightpad at hstem
    rwa [stem_append_replicate, stem_append_replicate] at hstem
  · intro h
    rw [← rightpad_stem a hx, h, rightpad_stem a hy]

end Padding
