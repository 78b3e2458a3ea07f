import Mathlib.Data.Int.Order.Units
import Mathlib.Tactic.Ring

/-!
# Fixed point arithmetic

Numbers with a scale `s` stand for their quotients by `s`. A product is split at the scale before it
is divided, so that the parts stay small.

* `mul_div_split`, `mul_div_split_both`, `mul_scale_div_split`: the splits are exact.
* `unit_mul_tdiv_unit_mul`: a truncated division, by magnitude and sign.
-/

namespace FixedPoint

variable {s x y : Nat}

theorem mul_div_split (hs : 0 < s) (x y : Nat) : x * y / s = x * (y / s) + x * (y % s) / s := by
  have hy : x * y = x * (y % s) + s * (x * (y / s)) := by
    calc x * y = x * (s * (y / s) + y % s) := by rw [Nat.div_add_mod]
      _ = x * (y % s) + s * (x * (y / s)) := by ring
  rw [hy, Nat.add_mul_div_left _ _ hs, Nat.add_comm]

theorem mul_div_split_both (hs : 0 < s) (x y : Nat) :
    x * y / s =
      x / s * (y / s) * s + x / s * (y % s) + x % s * (y / s) + x % s * (y % s) / s := by
  have hxy : x * y = x % s * (y % s) +
      s * (x / s * (y / s) * s + x / s * (y % s) + x % s * (y / s)) := by
    calc x * y = (s * (x / s) + x % s) * (s * (y / s) + y % s) := by
          rw [Nat.div_add_mod, Nat.div_add_mod]
      _ = _ := by ring
  rw [hxy, Nat.add_mul_div_left _ _ hs, Nat.add_comm]

/-- A scaled quotient, whole part first. -/
theorem mul_scale_div_split (hy : 0 < y) (x s : Nat) :
    x * s / y = x / y * s + x % y * s / y := by
  have hx : x * s = x % y * s + y * (x / y * s) := by
    calc x * s = (y * (x / y) + x % y) * s := by rw [Nat.div_add_mod]
      _ = _ := by ring
  rw [hx, Nat.add_mul_div_left _ _ hy, Nat.add_comm]

theorem unit_mul_tdiv_unit_mul {u v : Int} (hu : IsUnit u) (hv : IsUnit v) (n d : Nat) :
    (u * (n : Int)).tdiv (v * (d : Int)) = u * v * ((n / d : Nat) : Int) := by
  have hnat : ((n / d : Nat) : Int) = (n : Int).tdiv d := rfl
  rw [hnat]
  rcases Int.isUnit_iff.1 hu with rfl | rfl <;> rcases Int.isUnit_iff.1 hv with rfl | rfl <;>
    simp [Int.neg_tdiv, Int.tdiv_neg]

end FixedPoint
