import Mathlib
import Thornado.Lib.Codec
import Thornado.Rust.Json

/-!
# Derived serialization

What `serde`'s derive macros make of a structure for JSON, as codecs: a structure is written as an
object and read from an object, or from an array of its fields in order; unknown keys are ignored, a
key that occurs twice is an error. An enum is an object with one key, its variant.

* `record`: the codec of a structure, from its fields.
* `u32`, `u64`, `bool`, `option`, `vec`: the standard types.
-/

namespace Rust.Serde

open Json

inductive DeError where
  | custom (message : String)
  | invalidType
  | invalidValue
  | invalidLength
  | missingField (name : String)
  | duplicateField (name : String)
  | unknownVariant (name : String)
  deriving DecidableEq

variable {F A B : Type}

/-! ## Standard types -/

def isNull : Value F → Bool
  | .null => true
  | _ => false

def bool : Codec (Value F) DeError Bool where
  encode b := .bool b
  decode
    | .bool b => .ok b
    | _ => .error .invalidType
  Valid _ := True
  valid_of_decode _ := trivial
  decode_encode _ := rfl

def u64 : Codec (Value F) DeError UInt64 where
  encode n := .number (.posInt n)
  decode
    | .number (.posInt n) => .ok n
    | .number (.negInt _) => .error .invalidValue
    | _ => .error .invalidType
  Valid _ := True
  valid_of_decode _ := trivial
  decode_encode _ := rfl

def u32 : Codec (Value F) DeError UInt32 where
  encode n := .number (.posInt n.toUInt64)
  decode
    | .number (.posInt n) => if n.toNat < 2 ^ 32 then .ok n.toUInt32 else .error .invalidValue
    | .number (.negInt _) => .error .invalidValue
    | _ => .error .invalidType
  Valid _ := True
  valid_of_decode _ := trivial
  decode_encode {n} _ := by
    have hlt : n.toUInt64.toNat < 2 ^ 32 := n.toNat_lt
    dsimp only
    rw [if_pos hlt, UInt32.toUInt32_toUInt64]

/-- No value is written as `null`. -/
def Solid (c : Codec (Value F) DeError A) : Prop := ∀ a, isNull (c.encode a) = false

theorem solid_bool : Solid (F := F) bool := fun _ => rfl

theorem solid_u64 : Solid (F := F) u64 := fun _ => rfl

def option (c : Codec (Value F) DeError A) (h : Solid c) : Codec (Value F) DeError (Option A) :=
  c.option .null isNull rfl h

def items : Value F → Except DeError (List (Value F))
  | .array js => .ok js
  | _ => .error .invalidType

def vec (c : Codec (Value F) DeError A) : Codec (Value F) DeError (List A) :=
  c.list .array items fun _ => rfl

/-! ## Structures -/

abbrev Part (F A : Type) := Fields String (Value F) DeError A

/-- A field without a default. -/
def req (key : String) (c : Codec (Value F) DeError A) : Part F A :=
  .one key c (.missingField key) .invalidLength

section
variable (key : String) (c : Codec (Value F) DeError A) (h : Solid c)

/-- A field of an option type, which an object need not have. -/
def opt : Part F (Option A) :=
  .defaulted key (option c h) none (.error .invalidLength) (fun _ => true) (fun _ ha => nomatch ha)
    (fun _ ha => nomatch ha) (fun _ ha => nomatch ha)

/-- With `#[serde(default)]`. -/
def optDefault : Part F (Option A) :=
  .defaulted key (option c h) none (.ok none) (fun _ => true) (fun _ ha => nomatch ha)
    (fun _ ho _ ha => by cases ho; cases ha) (fun _ ha => nomatch ha)

/-- With `#[serde(default)]` and `#[serde(skip_serializing_if = "Option::is_none")]`. -/
def optSkipped : Part F (Option A) :=
  .defaulted key (option c h) none (.ok none) Option.isSome (fun _ ha => nomatch ha)
    (fun _ ho _ ha => by cases ho; cases ha) (fun _ ha => Option.not_isSome_iff_eq_none.1
      (Bool.eq_false_iff.1 ha))

end

section
variable (key : String) (c : Codec (Value F) DeError A) (h : Solid c)

@[simp] theorem req_keys : (req key c).keys = [key] := rfl

@[simp] theorem opt_keys : (opt key c h).keys = [key] := rfl

@[simp] theorem optDefault_keys : (optDefault key c h).keys = [key] := rfl

@[simp] theorem optSkipped_keys : (optSkipped key c h).keys = [key] := rfl

end

/-- The first key that occurs twice. -/
def duplicate (keys : List String) (entries : List (String × Value F)) : Option String :=
  keys.find? fun k => 1 < (entries.map Prod.fst).count k

theorem duplicate_eq_none {keys : List String} {entries : List (String × Value F)}
    (h : (entries.map Prod.fst).Nodup) : duplicate keys entries = none := by
  refine List.find?_eq_none.2 fun k _ => ?_
  rw [decide_eq_true_iff, Nat.not_lt]
  exact List.nodup_iff_count_le_one.1 h k

def record (f : Part F A) (hkeys : f.keys.Nodup) : Codec (Value F) DeError A where
  encode a := .object (f.entries a)
  decode
    | .object entries =>
      match duplicate f.keys entries with
      | some key => .error (.duplicateField key)
      | none => f.read fun k => entries.lookup k
    | .array js =>
      (f.readSeq js).bind fun r => if r.2.isEmpty then .ok r.1 else .error .invalidLength
    | _ => .error .invalidType
  Valid := f.Valid
  valid_of_decode {j a} h := by
    cases j with
    | object entries =>
      dsimp only at h
      split at h
      · cases h
      · exact f.valid_of_read h
    | array js =>
      dsimp only at h
      cases hr : f.readSeq js with
      | error e => rw [hr] at h; cases h
      | ok r =>
        rw [hr] at h
        simp only [Except.bind] at h
        split at h
        · cases h
          exact f.valid_of_readSeq hr
        · cases h
    | null => cases h
    | bool b => cases h
    | number n => cases h
    | string s => cases h
  decode_encode {a} h := by
    dsimp only
    rw [duplicate_eq_none (f.nodup_entries hkeys a)]
    exact f.read_entries hkeys h fun _ _ => rfl

theorem solid_record (f : Part F A) (hkeys : f.keys.Nodup) : Solid (record f hkeys) := fun _ => rfl

theorem solid_vec (c : Codec (Value F) DeError A) : Solid (vec c) := fun _ => rfl

/-! ## Enums -/

/-- An object with the variant as its key. -/
def tagged (variant : String) (content : Value F) : Value F := .object [(variant, content)]

/-- The variant of an enum without unit variants. -/
def variantOf : Value F → Except DeError (String × Value F)
  | .object [entry] => .ok entry
  | .object _ => .error .invalidLength
  | _ => .error .invalidType

end Rust.Serde
