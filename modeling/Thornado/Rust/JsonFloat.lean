import Mathlib.Algebra.Ring.Rat
import Thornado.Rust.Json

/-!
# Floats in JSON

Sums of `f64`, and the way of an `f64` through `json!` and `Value::as_f64`.
-/

namespace Rust

/-- The additive operations of `f64`. -/
class F64Arith (F : Type) extends F64 F where
  neg : F → F
  add : F → F → F
  sub : F → F → F

instance : F64Arith Rat :=
  { (inferInstance : F64 Rat) with
    neg := (- ·)
    add := (· + ·)
    sub := (· - ·) }

/-- `Iterator::sum::<f64>`. -/
def f64Sum {F : Type} [F64Arith F] (fs : List F) : F := fs.foldl F64Arith.add (F64.ofInt 0)

namespace Json.Value

variable {F : Type} [F64 F]

/-- `json!` of an `f64`: no number if it is not finite. -/
def ofF64 (f : F) : Value F := if F64.isFinite f then .number (.float f) else .null

def asF64 : Value F → Option F
  | .number (.posInt n) => some (F64.ofInt n.toNat)
  | .number (.negInt n) => some (F64.ofInt n.toInt)
  | .number (.float f) => some f
  | _ => none

end Json.Value

theorem f64Sum_rat (fs : List Rat) : f64Sum fs = fs.sum := by
  have key : ∀ (fs : List Rat) (start : Rat), fs.foldl F64Arith.add start = start + fs.sum := by
    intro fs
    induction fs with
    | nil => intro start; rw [List.foldl_nil, List.sum_nil, Rat.add_zero]
    | cons f fs ih =>
      intro start
      rw [List.foldl_cons, ih, List.sum_cons, ← Rat.add_assoc]
      rfl
  have h := key fs 0
  rw [Rat.zero_add] at h
  exact h

end Rust
