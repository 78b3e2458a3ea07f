import Mathlib.Data.List.AList

/-!
# Folding keyed updates

`step` updates a store from an element, and changes it at the element's key only. Over a list of
elements, a key that none of them has keeps its value (`Local.foldl_other`), and a key to which
all of its elements write one value ends with that value (`Local.foldl_listed`). In general the
value at a key is a fold of the elements with that key (`Local.foldl_at`). A fold that starts a
value at the first element is the fold from a value without data (`foldl_start`).
-/

namespace KeyedFold

variable {C A K W : Type*}

/-- An update changes the store at its element's key only. -/
def Local (read : C → K → W) (key : A → K) (step : C → A → C) : Prop :=
  ∀ c a k, key a ≠ k → read (step c a) k = read c k

variable {read : C → K → W} {key : A → K} {step : C → A → C}

theorem Local.foldl_other (h : Local read key step) {k : K} : ∀ (as : List A) (c : C),
    (∀ a ∈ as, key a ≠ k) → read (as.foldl step c) k = read c k
  | [], _, _ => rfl
  | a :: as, c, hk => by
    rw [List.foldl_cons, h.foldl_other as _ fun b hb => hk b (List.mem_cons_of_mem a hb)]
    exact h c a k (hk a List.mem_cons_self)

theorem Local.foldl_listed (h : Local read key step) {k : K} {w : W} : ∀ (as : List A) (c : C),
    (∃ a ∈ as, key a = k) → (∀ a ∈ as, key a = k → ∀ c, read (step c a) k = w) →
      read (as.foldl step c) k = w
  | [], _, ⟨_, hmem, _⟩, _ => nomatch hmem
  | a :: as, c, hex, hw => by
    rw [List.foldl_cons]
    by_cases hin : ∃ b ∈ as, key b = k
    · exact h.foldl_listed as _ hin fun b hb => hw b (List.mem_cons_of_mem a hb)
    · -- the last element with this key is the head
      obtain ⟨b, hb, hkey⟩ := hex
      rcases List.mem_cons.1 hb with rfl | hb
      · rw [h.foldl_other as _ fun b hb hbk => hin ⟨b, hb, hbk⟩]
        exact hw b List.mem_cons_self hkey c
      · exact absurd ⟨b, hb, hkey⟩ hin

theorem Local.foldl_at [DecidableEq K] (h : Local read key step) {k : K} {u : W → A → W}
    (hat : ∀ c a, key a = k → read (step c a) k = u (read c k) a) : ∀ (as : List A) (c : C),
    read (as.foldl step c) k = (as.filter (key · = k)).foldl u (read c k)
  | [], _ => rfl
  | a :: as, c => by
    rw [List.foldl_cons, h.foldl_at hat as]
    by_cases hkey : key a = k
    · rw [List.filter_cons_of_pos (by simpa using hkey), List.foldl_cons, hat c a hkey]
    · rw [List.filter_cons_of_neg (by simpa using hkey), h c a k hkey]

theorem foldl_start {u : W → A → W} {start : A → W} {blank : W}
    (h : ∀ a, u (start a) a = u blank a) : ∀ (as : List A) (w : Option W),
    as.foldl (fun w a => some (u (w.getD (start a)) a)) w =
      if as = [] then w else some (as.foldl u (w.getD blank))
  | [], _ => rfl
  | a :: as, w => by
    rw [List.foldl_cons, foldl_start h as, if_neg (List.cons_ne_nil _ _), List.foldl_cons]
    have hfirst : u (w.getD (start a)) a = u (w.getD blank) a := by
      cases w with
      | none => exact h a
      | some w => rfl
    cases as with
    | nil => rw [if_pos rfl, hfirst, List.foldl_nil]
    | cons b bs => rw [if_neg (List.cons_ne_nil _ _), Option.getD_some, hfirst]

/-- A fold that keeps the last element. -/
theorem foldl_last (f : A → W) : ∀ (as : List A) (w : W),
    as.foldl (fun _ a => f a) w = (as.getLast?.map f).getD w
  | [], _ => rfl
  | a :: as, w => by
    rw [List.foldl_cons, foldl_last f as]
    cases as with
    | nil => rfl
    | cons b bs => simp [List.getLast?_cons]

end KeyedFold
