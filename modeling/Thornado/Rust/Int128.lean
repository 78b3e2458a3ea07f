import Thornado.Rust.Prelude

/-!
# `i128` arithmetic

The values are integers, `I128` those in range. A release build's `+` wraps around (`wrapI128`),
which a build with overflow checks answers with a panic; both agree as long as the exact result is
in range (`wrapI128_eq_iff`). The least value has no absolute value (`absI128_eq_some_iff`).
-/

namespace Rust

def i128Min : Int := -2 ^ 127

def i128Max : Int := 2 ^ 127 - 1

/-- A value of the type. -/
def InI128 (v : Int) : Prop := i128Min ≤ v ∧ v ≤ i128Max

instance (v : Int) : Decidable (InI128 v) := inferInstanceAs (Decidable (_ ∧ _))

theorem inI128_zero : InI128 0 := by decide

theorem inI128_one_x18 : InI128 (10 ^ 18) := by decide

theorem wrapI128_inI128 (v : Int) : InI128 (wrapI128 v) := by
  have hlow := @Int.le_bmod v (2 ^ 128) (by decide)
  have hhigh := @Int.bmod_lt v (2 ^ 128) (by decide)
  unfold InI128 i128Min i128Max wrapI128
  omega

theorem wrapI128_of_inI128 {v : Int} (h : InI128 v) : wrapI128 v = v := by
  unfold InI128 i128Min i128Max at h
  exact Int.bmod_eq_of_le (by omega) (by omega)

/-- No overflow: the wrapped result is the exact one. -/
theorem wrapI128_eq_iff {v : Int} : wrapI128 v = v ↔ InI128 v :=
  ⟨fun h => h ▸ wrapI128_inI128 v, wrapI128_of_inI128⟩

theorem wrapI128_wrapI128_add (v w : Int) : wrapI128 (wrapI128 v + w) = wrapI128 (v + w) :=
  Int.bmod_add_bmod

/-- A value with its range. -/
abbrev I128 := { v : Int // InI128 v }

def saturateI128 (v : Int) : Int := max i128Min (min v i128Max)

/-- `i128::saturating_sub`. -/
def saturatingSubI128 (a b : Int) : Int := saturateI128 (a - b)

/-- `u64::saturating_mul`. -/
def saturatingMulU64 (a b : Nat) : Nat := min (a * b) u64Max

/-- `i128::abs`: `none` is a panic. -/
def absI128 (overflowChecks : Bool) (v : Int) : Option Int :=
  if v = i128Min then if overflowChecks then none else some i128Min
  else some (if v < 0 then -v else v)

theorem absI128_least : absI128 false i128Min = some i128Min := rfl

theorem saturatingSubI128_least {b : Int} (h : 0 ≤ b) : saturatingSubI128 i128Min b = i128Min := by
  unfold saturatingSubI128 saturateI128 i128Min i128Max
  omega

theorem saturatingSubI128_of_least {a : Int} (h : 0 ≤ a) :
    saturatingSubI128 a i128Min = i128Max := by
  unfold saturatingSubI128 saturateI128 i128Min i128Max
  omega

/-- The absolute value is right unless the value is the least one. -/
theorem absI128_eq_some_iff {overflowChecks : Bool} {v : Int} :
    absI128 overflowChecks v = some |v| ↔ v ≠ i128Min := by
  unfold absI128
  split
  · rename_i h
    subst h
    refine iff_of_false (fun h => ?_) (fun h => h rfl)
    split at h
    · cases h
    · exact absurd (Option.some.inj h) (by decide)
  · rename_i h
    refine iff_of_true (congrArg some ?_) h
    split
    · exact (abs_of_neg ‹_›).symm
    · exact (abs_of_nonneg (by omega)).symm

/-- `abs` panics on the least value, if the build checks for it. -/
theorem absI128_isSome {overflowChecks : Bool} {v : Int} :
    (absI128 overflowChecks v).isSome ↔ (overflowChecks → v ≠ i128Min) := by
  unfold absI128
  cases overflowChecks with
  | true => by_cases h : v = i128Min <;> simp [h]
  | false => by_cases h : v = i128Min <;> simp [h]

end Rust
