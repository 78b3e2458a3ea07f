import Mathlib.Algebra.Order.Ring.Int
import Mathlib.Data.List.AList

/-!
# The Rust standard library, as far as the gateways use it

Strings are Lean strings, read and built through their characters. The Unicode case tables are a
parameter (`UnicodeCase`): nothing proved here depends on them. `f64` is a parameter as well
(`F64`): a type of values with the operations the gateways apply, `==` being `PartialEq`.
`BTreeMap<K, V>` is `Std.ExtTreeMap` (iteration in ascending key order), `HashMap<K, V>` is
`AList` (the entries in the order its iterator yields them, keys distinct).
-/

namespace Rust

/-! ## Strings -/

/-- `str::to_uppercase` and `str::to_lowercase`. -/
class UnicodeCase where
  toUppercase : String → String
  toLowercase : String → String

/-- `str::to_ascii_lowercase`. -/
def toAsciiLowercase (s : String) : String := String.ofList (s.toList.map Char.toLower)

/-- The case tables restricted to ASCII; they agree with the full ones on ASCII strings. -/
@[reducible]
def asciiCase : UnicodeCase where
  toUppercase s := String.ofList (s.toList.map Char.toUpper)
  toLowercase := toAsciiLowercase

/-- The `White_Space` characters (`char::is_whitespace`). -/
def isWhitespace (c : Char) : Bool :=
  let n := c.toNat
  (9 ≤ n && n ≤ 13) || n == 0x20 || n == 0x85 || n == 0xA0 || n == 0x1680 ||
    (0x2000 ≤ n && n ≤ 0x200A) || n == 0x2028 || n == 0x2029 || n == 0x202F || n == 0x205F ||
    n == 0x3000

/-- `str::trim`. -/
def trim (s : String) : String :=
  String.ofList ((s.toList.dropWhile isWhitespace).reverse.dropWhile isWhitespace).reverse

/-- `str::split_once` at a character: the parts around its first occurrence. -/
def splitOnce (s : String) (c : Char) : Option (String × String) :=
  match s.toList.span (· != c) with
  | (_, []) => none
  | (l, _ :: r) => some (String.ofList l, String.ofList r)

/-- `str::split` at a character. -/
def split (s : String) (c : Char) : List String :=
  (s.toList.splitOn c).map String.ofList

/-- `Option::ok_or`. -/
def okOr {A E : Type} (o : Option A) (err : E) : Except E A :=
  match o with
  | some a => .ok a
  | none => .error err

theorem okOr_eq_ok {A E : Type} {o : Option A} {err : E} {a : A} :
    okOr o err = .ok a ↔ o = some a := by
  cases o <;> simp [okOr]

/-! ## Integers -/

def u64Max : Nat := 2 ^ 64 - 1

/-- `u64::saturating_add`. -/
def saturatingAdd (a b : Nat) : Nat := min (a + b) u64Max

/-- The digits of an integer literal, at least one and nothing else. -/
def parseDigits : List Char → Option Nat
  | [] => none
  | cs => if cs.all Char.isDigit then some (cs.foldl (fun n c => 10 * n + (c.toNat - 48)) 0)
    else none

/-- `str::parse` to an unsigned integer of maximum `max`: an optional `+`, then digits. -/
def parseUnsigned (max : Nat) (s : String) : Option Nat :=
  (match s.toList with
    | '+' :: cs => parseDigits cs
    | cs => parseDigits cs).filter (· ≤ max)

/-- `str::parse` to a signed integer of `w` bits: an optional sign, then digits. -/
def parseSigned (w : Nat) (s : String) : Option Int :=
  (match s.toList with
    | '-' :: cs => (parseDigits cs).map fun n => -(n : Int)
    | '+' :: cs => (parseDigits cs).map Int.ofNat
    | cs => (parseDigits cs).map Int.ofNat).filter
      fun v => decide (-2 ^ (w - 1) ≤ v) && decide (v < 2 ^ (w - 1))

/-- Two's complement reduction to an `i128`: what a release build's `+` computes. -/
def wrapI128 (v : Int) : Int := Int.bmod v (2 ^ 128)

/-! ## Floats -/

/-- The `f64` operations the gateways use. -/
class F64 (F : Type) extends BEq F where
  /-- `as f64` -/
  ofInt : Int → F
  /-- `is_finite` -/
  isFinite : F → Bool
  /-- `>` -/
  gt : F → F → Bool
  abs : F → F
  max : F → F → F
  mul : F → F → F
  div : F → F → F
  /-- `str::parse::<f64>` -/
  parse : String → Option F

/-- Exact arithmetic: what doubles compute where no result has to be rounded. Of the literals it
reads the integers. -/
instance : F64 Rat where
  ofInt n := n
  isFinite _ := true
  gt a b := decide (b < a)
  abs a := if a < 0 then -a else a
  max a b := if a < b then b else a
  mul := (· * ·)
  div := (· / ·)
  parse s := (parseSigned 128 s).map fun n => (n : Rat)

end Rust
