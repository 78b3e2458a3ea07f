import Mathlib.Algebra.Order.Group.Int
import Mathlib.Algebra.Order.Group.Unbundled.Abs
import Mathlib.Order.Bounds.Basic

/-!
# Rounding to a grid

The multiples of a positive step are a grid of integers. `down` rounds to the greatest grid point
that is not greater, `nearest` to the closest one and down from the middle.

* `isGreatest_down`, `isGreatest_ediv`: what `down` is, and how many steps fit.
* `nearest_dist`, `nearest_lt_of_tie`: what `nearest` is.
* `down_mono`, `nearest_mono`, `down_of_dvd`, `nearest_of_dvd`: both are monotone and keep the grid.
-/

namespace Grid

/-- The greatest multiple of `step` up to `x`. -/
def down (step x : Int) : Int := x - x % step

/-- The multiple of `step` closest to `x`; from the middle, the smaller one. -/
def nearest (step x : Int) : Int :=
  if x - down step x ≤ down step x + step - x then down step x else down step x + step

variable {step x y : Int}

theorem dvd_down (step x : Int) : step ∣ down step x := Int.dvd_self_sub_emod

theorem down_le (h : 0 < step) : down step x ≤ x := by
  have := Int.emod_nonneg x (Int.ne_of_gt h)
  unfold down
  omega

theorem lt_down_add (h : 0 < step) : x < down step x + step := by
  have := Int.emod_lt_of_pos x h
  unfold down
  omega

/-- Two multiples less than a step apart are in order. -/
theorem le_of_lt_add {a b : Int} (ha : step ∣ a) (hb : step ∣ b) (h : a < b + step) : a ≤ b := by
  by_contra hlt
  have hdiff := Int.le_of_dvd (by omega) (Int.dvd_sub ha hb)
  omega

theorem isGreatest_down (h : 0 < step) : IsGreatest {m | step ∣ m ∧ m ≤ x} (down step x) := by
  refine ⟨⟨dvd_down step x, down_le h⟩, fun m hm => ?_⟩
  have hlt := lt_down_add (x := x) h
  exact le_of_lt_add hm.1 (dvd_down step x) (by have := hm.2; omega)

/-- The greatest number of steps up to `x`. -/
theorem isGreatest_ediv (h : 0 < step) : IsGreatest {k | k * step ≤ x} (x / step) :=
  ⟨Int.ediv_mul_le x (Int.ne_of_gt h), fun _ hk => (Int.le_ediv_iff_mul_le h).2 hk⟩

theorem down_of_dvd (h : step ∣ x) : down step x = x := by
  unfold down
  rw [Int.emod_eq_zero_of_dvd h, Int.sub_zero]

theorem down_mono (h : 0 < step) (hxy : x ≤ y) : down step x ≤ down step y := by
  have hle := down_le (x := x) h
  have hlt := lt_down_add (x := y) h
  exact le_of_lt_add (dvd_down step x) (dvd_down step y) (by omega)

theorem down_nonneg (h : 0 < step) (hx : 0 ≤ x) : 0 ≤ down step x :=
  (isGreatest_down h).2 ⟨Int.dvd_zero step, hx⟩

theorem dvd_nearest (step x : Int) : step ∣ nearest step x := by
  unfold nearest
  split
  · exact dvd_down step x
  · exact Int.dvd_add (dvd_down step x) (Int.dvd_refl step)

theorem nearest_dist (h : 0 < step) : 2 * |nearest step x - x| ≤ step := by
  have hle := down_le (x := x) h
  have hlt := lt_down_add (x := x) h
  unfold nearest
  split
  · rw [abs_of_nonpos (by omega)]
    omega
  · rw [abs_of_nonneg (by omega)]
    omega

theorem nearest_lt_of_tie (h : 0 < step) (htie : 2 * |nearest step x - x| = step) :
    nearest step x < x := by
  have hle := down_le (x := x) h
  have hlt := lt_down_add (x := x) h
  unfold nearest at htie ⊢
  split at htie
  · rename_i hdown
    rw [if_pos hdown]
    by_contra hnot
    rw [abs_of_nonneg (by omega)] at htie
    omega
  · rw [abs_of_nonneg (by omega)] at htie
    omega

theorem down_le_nearest (h : 0 < step) : down step x ≤ nearest step x := by
  unfold nearest
  split <;> omega

theorem nearest_nonneg (h : 0 < step) (hx : 0 ≤ x) : 0 ≤ nearest step x := by
  have hdown := down_nonneg h hx
  have hle := down_le_nearest (x := x) h
  omega

theorem nearest_of_dvd (h : 0 < step) (hx : step ∣ x) : nearest step x = x := by
  unfold nearest
  rw [down_of_dvd hx, if_pos (by omega)]

theorem nearest_mono (h : 0 < step) (hxy : x ≤ y) : nearest step x ≤ nearest step y := by
  have hdown := down_mono h hxy
  have hle := down_le_nearest (x := y) h
  by_cases hcell : down step x = down step y
  · -- the same two grid points to choose from
    unfold nearest
    rw [hcell]
    split <;> split <;> omega
  · -- the points are at least a step apart
    have hgap : down step x + step ≤ down step y := by
      by_contra hlt
      have := le_of_lt_add (dvd_down step y) (dvd_down step x) (by omega)
      omega
    have hup : nearest step x ≤ down step x + step := by
      unfold nearest
      split <;> omega
    omega

/-! ## Rounding positive values only -/

section
variable {α : Type*} [LinearOrder α] [Zero α] {f g : α → α} (hneg : ∀ x ≤ 0, f x = x)
  (hpos : ∀ x, 0 < x → f x = g x)
include hneg hpos

theorem monotone_of_pos (hg : Monotone g) (h0 : ∀ x, 0 < x → 0 ≤ g x) : Monotone f := by
  intro x y hxy
  by_cases hx : 0 < x
  · rw [hpos x hx, hpos y (lt_of_lt_of_le hx hxy)]
    exact hg hxy
  · have hx0 := not_lt.1 hx
    rw [hneg x hx0]
    by_cases hy : 0 < y
    · rw [hpos y hy]
      exact le_trans hx0 (h0 y hy)
    · rw [hneg y (not_lt.1 hy)]
      exact hxy

theorem idempotent_of_pos (hg : ∀ x, g (g x) = g x) (x : α) : f (f x) = f x := by
  by_cases hx : 0 < x
  · rw [hpos x hx]
    by_cases hgx : 0 < g x
    · rw [hpos _ hgx]
      exact hg x
    · exact hneg _ (not_lt.1 hgx)
  · rw [hneg x (not_lt.1 hx), hneg x (not_lt.1 hx)]

end

end Grid
