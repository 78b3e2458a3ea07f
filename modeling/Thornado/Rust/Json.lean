import Thornado.Rust.Prelude

/-!
# JSON values

`serde_json::Value`, over an arbitrary type of floats, with the accessors the gateways use. The
parser and the printer of the crate are parameters (`SerdeJson`): what is modelled starts at the
parsed value.
-/

namespace Rust.Json

/-- `serde_json::Number`. -/
inductive Number (F : Type) where
  | posInt (n : UInt64)
  | negInt (n : Int64)
  | float (f : F)

/-- `serde_json::Value`; an object is the list of its entries. -/
inductive Value (F : Type) where
  | null
  | bool (b : Bool)
  | number (n : Number F)
  | string (s : String)
  | array (items : List (Value F))
  | object (entries : List (String × Value F))

/-- The crate's text functions. -/
structure SerdeJson (F : Type) where
  fromStr : String → Except String (Value F)
  display : Value F → String

variable {F : Type}

namespace Value

def asObject : Value F → Option (List (String × Value F))
  | .object entries => some entries
  | _ => none

def asArray : Value F → Option (List (Value F))
  | .array items => some items
  | _ => none

def asStr : Value F → Option String
  | .string s => some s
  | _ => none

def asU64 : Value F → Option Nat
  | .number (.posInt n) => some n.toNat
  | _ => none

def asI64 : Value F → Option Int
  | .number (.posInt n) => if n.toNat < 2 ^ 63 then some n.toNat else none
  | .number (.negInt n) => some n.toInt
  | _ => none

/-- `Value::get` with a key. -/
def get (value : Value F) (key : String) : Option (Value F) :=
  value.asObject.bind (·.lookup key)

end Value

/-! ## Conversions both market gateways define -/

def valueToU32 (value : Value F) : Option Nat :=
  (value.asU64.filter (· < 2 ^ 32)).or (value.asStr.bind (parseUnsigned (2 ^ 32 - 1)))

def valueToU64 (value : Value F) : Option Nat :=
  value.asU64.or (value.asStr.bind (parseUnsigned u64Max))

def valueToI64 (value : Value F) : Option Int :=
  (value.asI64.or ((value.asU64.filter (· < 2 ^ 63)).map Int.ofNat)).or
    (value.asStr.bind (parseSigned 64))

def valueToI128 (value : Value F) : Option Int :=
  (value.asI64.or (value.asU64.map Int.ofNat)).or (value.asStr.bind (parseSigned 128))

end Rust.Json
