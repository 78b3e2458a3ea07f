import Mathlib.Data.List.ReduceOption

/-!
# Lists of rows

A loop that pushes at most one row for each item is a `filterMap`. Two such loops, one of which
pushes a row wherever the other does, push the same rows only if they agree on every item
(`filterMap_eq_iff`): a row too many moves the others.
-/

namespace Listing

variable {A B : Type*}

theorem mapM_eq_some_iff {f : A → Option B} : ∀ {as : List A} {bs : List B},
    as.mapM f = some bs ↔ as.map f = bs.map some
  | [], bs => by
    cases bs with
    | nil => simp
    | cons b bs => simp
  | a :: as, bs => by
    rw [List.mapM_cons, List.map_cons]
    constructor
    · intro h
      obtain ⟨b, hb, h⟩ := Option.bind_eq_some_iff.1 h
      obtain ⟨bs', hbs, h⟩ := Option.bind_eq_some_iff.1 h
      cases h
      rw [hb, mapM_eq_some_iff.1 hbs, List.map_cons]
    · intro h
      cases bs with
      | nil => cases h
      | cons b bs =>
        obtain ⟨hb, hbs⟩ := List.cons.inj h
        rw [hb, mapM_eq_some_iff.2 hbs]
        rfl

theorem filterMap_length_le {f g : A → Option B} : ∀ {as : List A},
    (∀ a ∈ as, (g a).isSome → (f a).isSome) → (as.filterMap g).length ≤ (as.filterMap f).length
  | [], _ => Nat.le_refl _
  | a :: as, h => by
    have ih := filterMap_length_le fun b hb => h b (List.mem_cons_of_mem a hb)
    have ha := h a List.mem_cons_self
    cases hg : g a with
    | none =>
      cases hf : f a with
      | none => simpa [hg, hf] using ih
      | some b =>
        simp only [List.filterMap_cons, hg, hf, List.length_cons]
        omega
    | some b' =>
      cases hf : f a with
      | none => simp [hg, hf] at ha
      | some b => simpa [hg, hf] using ih

theorem filterMap_eq_iff {f g : A → Option B} : ∀ {as : List A},
    (∀ a ∈ as, (g a).isSome → (f a).isSome) →
      (as.filterMap f = as.filterMap g ↔ ∀ a ∈ as, f a = g a)
  | [], _ => by simp
  | a :: as, h => by
    have hrest := fun b hb => h b (List.mem_cons_of_mem a hb)
    have ih := filterMap_eq_iff hrest
    have hlen := filterMap_length_le hrest
    have ha := h a List.mem_cons_self
    rw [List.forall_mem_cons, ← ih]
    cases hg : g a with
    | none =>
      cases hf : f a with
      | none => simp [hg, hf]
      | some b =>
        -- one row more than the other loop can push
        refine iff_of_false (fun heq => ?_) fun hand => nomatch hand.1
        have := congrArg List.length heq
        simp only [List.filterMap_cons, hg, hf, List.length_cons] at this
        omega
    | some b' =>
      cases hf : f a with
      | none => simp [hg, hf] at ha
      | some b => simp [hg, hf]

/-- What is read off the rows of a loop is what a loop pushes that reads it off at once. -/
theorem mapM_reduceOption_map {C : Type*} {f : A → Option (Option B)} (h : B → C) : ∀ as : List A,
    (as.mapM f).map (fun bs => bs.reduceOption.map h) =
      (as.mapM fun a => (f a).map (Option.map h)).map List.reduceOption := by
  have key : ∀ as : List A, as.mapM (fun a => (f a).map (Option.map h)) =
      (as.mapM f).map (List.map (Option.map h)) := by
    intro as
    induction as with
    | nil => rfl
    | cons a as ih =>
      rw [List.mapM_cons, List.mapM_cons, ih]
      cases f a with
      | none => rfl
      | some b =>
        cases as.mapM f with
        | none => rfl
        | some bs => rfl
  intro as
  rw [key, Option.map_map]
  exact congrArg (Option.map · (as.mapM f)) (funext fun _ => List.reduceOption_map.symm)

/-- A loop that may also fail, against a specification of its rows. -/
theorem mapM_reduceOption_iff {f : A → Option (Option B)} {g : A → Option B} {as : List A}
    (h : ∀ a ∈ as, ∀ b, f a = some b → (g a).isSome → b.isSome) :
    (as.mapM f).map List.reduceOption = some (as.filterMap g) ↔ ∀ a ∈ as, f a = some (g a) := by
  constructor
  · intro hmap
    obtain ⟨bs, hbs, hrows⟩ := Option.map_eq_some_iff.1 hmap
    have hall := mapM_eq_some_iff.1 hbs
    have hf : ∀ a ∈ as, f a = some ((f a).getD none) := by
      intro a ha
      have hmem : f a ∈ bs.map some := hall ▸ List.mem_map_of_mem ha
      obtain ⟨b, -, hb⟩ := List.mem_map.1 hmem
      rw [← hb]
      rfl
    have hlist : bs = as.map fun a => (f a).getD none := by
      have := congrArg (List.map fun b : Option (Option B) => b.getD none) hall
      rw [List.map_map, List.map_map] at this
      simpa [Function.comp_def] using this.symm
    rw [hlist, List.reduceOption, List.filterMap_map] at hrows
    have hpoint := (filterMap_eq_iff fun a ha => h a ha _ (hf a ha)).1 hrows
    intro a ha
    rw [hf a ha]
    exact congrArg some (hpoint a ha)
  · intro hf
    have hall : as.mapM f = some (as.map g) := by
      rw [mapM_eq_some_iff, List.map_map]
      exact List.map_congr_left hf
    rw [hall, Option.map_some, List.reduceOption, List.filterMap_map]
    rfl

end Listing
