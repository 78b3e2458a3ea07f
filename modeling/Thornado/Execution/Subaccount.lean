import Mathlib.Data.List.Induction
import Thornado.Execution.Gateway
import Thornado.Lib.Padding
import Thornado.Rust.Prelude

/-!
# Subaccounts

`to_bytes12` and `concat_to_bytes32` of the SDK (`nado_utils/eip712_structs.rs`), and
`subaccount_name_from_query`, which the execution and the portfolio gateway define in the same way.

* `subaccount_faithful_iff`: when two accepted names are different subaccounts of an owner.
-/

namespace Execution

open Rust

/-- `str::as_bytes` -/
def asBytes (s : String) : Bytes := s.toList.flatMap String.utf8EncodeChar

def toBytes12 (s : String) : Vector UInt8 12 :=
  ⟨(List.rightpad 12 0 ((asBytes s).take 12)).toArray, by simp [List.rightpad]⟩

def concatToBytes32 (address : H160) (name : Vector UInt8 12) : Bytes32 :=
  (address ++ name).cast rfl

/-- The subaccount the gateways build for an owner and a name. -/
def subaccount (owner : H160) (name : String) : Bytes32 := concatToBytes32 owner (toBytes12 name)

/-- `subaccount_name_from_query`, over the gateway's own error type. -/
def nameFromQuery {E : Type} (badRequest : String → E) (maybeName : Option String)
    (defaultSubaccountName : String) : Except E String :=
  let subaccountName := trim (maybeName.getD defaultSubaccountName)
  if subaccountName = "" then throw (badRequest "subaccount_name cannot be empty")
  else if (asBytes subaccountName).length > 12 then
    throw (badRequest ("subaccount_name is too long (" ++
      toString (asBytes subaccountName).length ++ " > 12)"))
  else return subaccountName

def subaccountNameFromQuery (maybeName : Option String) (defaultSubaccountName : String) :
    Except ApiError String :=
  nameFromQuery .badRequest maybeName defaultSubaccountName

end Execution

namespace Portfolio

inductive ApiError where
  | badRequest (message : String)
  | unauthorized (message : String)
  | upstream (message : String)
  | internal (message : String)
  deriving DecidableEq

def subaccountNameFromQuery (maybeName : Option String) (defaultSubaccountName : String) :
    Except ApiError String :=
  Execution.nameFromQuery .badRequest maybeName defaultSubaccountName

end Portfolio

namespace Execution

open Rust

/-- A name that one of the gateways accepts. -/
def AcceptedName (name : String) : Prop :=
  ∃ maybeName defaultSubaccountName,
    subaccountNameFromQuery maybeName defaultSubaccountName = .ok name ∨
      Portfolio.subaccountNameFromQuery maybeName defaultSubaccountName = .ok name

theorem length_of_nameFromQuery {E : Type} {badRequest : String → E} {maybeName : Option String}
    {defaultSubaccountName name : String}
    (h : nameFromQuery badRequest maybeName defaultSubaccountName = .ok name) :
    (asBytes name).length ≤ 12 := by
  unfold nameFromQuery at h
  simp only at h
  split at h
  · cases h
  · split at h
    · cases h
    · cases h
      omega

theorem AcceptedName.length_le {name : String} (h : AcceptedName name) :
    (asBytes name).length ≤ 12 := by
  obtain ⟨_, _, h | h⟩ := h
  · exact length_of_nameFromQuery h
  · exact length_of_nameFromQuery h

/-! ## Bytes of names -/

theorem asBytes_injective {s t : String} (h : asBytes s = asBytes t) : s = t := by
  have hbytes : s.toByteArray = t.toByteArray := by
    rw [← String.utf8Encode_toList, ← String.utf8Encode_toList]
    exact congrArg List.toByteArray h
  exact String.toByteArray_inj.1 hbytes

/-- Only the character `NUL` ends in a zero byte. -/
theorem utf8EncodeChar_getLast {c : Char} (hc : c ≠ '\x00') :
    (String.utf8EncodeChar c).getLast? ≠ some 0 := by
  have hpos : c.val.toNat ≠ 0 := fun h => hc (Char.ext (UInt32.toNat_inj.1 h))
  have hbyte : ∀ n : Nat, n % 256 ≠ 0 → some (UInt8.ofNat n) ≠ some 0 := fun n hn h => by
    have := congrArg UInt8.toNat (Option.some.inj h)
    rw [UInt8.toNat_ofNat'] at this
    exact hn this
  unfold String.utf8EncodeChar
  simp only
  split
  · exact hbyte _ (by omega)
  · split
    · exact hbyte _ (by omega)
    · split
      · exact hbyte _ (by omega)
      · exact hbyte _ (by omega)

/-- The name without the `NUL` characters at its end. -/
def withoutNuls (name : String) : String := String.ofList (Padding.stem '\x00' name.toList)

theorem stem_asBytes (name : String) :
    Padding.stem 0 (asBytes name) = asBytes (withoutNuls name) := by
  unfold asBytes withoutNuls
  rw [String.toList_ofList]
  induction name.toList using List.reverseRecOn with
  | nil => rfl
  | append_singleton cs c ih =>
    rw [List.flatMap_append, List.flatMap_singleton]
    by_cases hc : c = '\x00'
    · subst hc
      have hchars : Padding.stem '\x00' (cs ++ ['\x00']) = Padding.stem '\x00' cs :=
        Padding.stem_append_replicate '\x00' cs 1
      have hnul : String.utf8EncodeChar '\x00' = [0] := by decide
      have hbytes : Padding.stem 0 (cs.flatMap String.utf8EncodeChar ++ [0]) =
          Padding.stem 0 (cs.flatMap String.utf8EncodeChar) :=
        Padding.stem_append_replicate 0 _ 1
      rw [hchars, ← ih, hnul]
      exact hbytes
    · have hchars : Padding.stem '\x00' (cs ++ [c]) = cs ++ [c] :=
        List.rdropWhile_concat_neg _ _ _ (by simpa using hc)
      rw [hchars, List.flatMap_append, List.flatMap_singleton]
      refine Padding.stem_eq_self 0 ?_
      rw [List.getLast?_append_of_ne_nil _ String.utf8EncodeChar_ne_nil]
      exact utf8EncodeChar_getLast hc

theorem toBytes12_eq_iff {name name' : String} (h : (asBytes name).length ≤ 12)
    (h' : (asBytes name').length ≤ 12) :
    toBytes12 name = toBytes12 name' ↔ withoutNuls name = withoutNuls name' := by
  have hpad : toBytes12 name = toBytes12 name' ↔
      List.rightpad 12 0 (asBytes name) = List.rightpad 12 0 (asBytes name') := by
    unfold toBytes12
    rw [Vector.mk.injEq, Array.mk.injEq, List.take_of_length_le h, List.take_of_length_le h']
  rw [hpad, Padding.rightpad_eq_iff 0 h h', stem_asBytes, stem_asBytes]
  exact ⟨asBytes_injective, congrArg asBytes⟩

theorem ownerFromSubaccount_subaccount (owner : H160) (name : String) :
    ownerFromSubaccount (subaccount owner name) = owner := by
  have hleft : (owner.toArray ++ (toBytes12 name).toArray).extract 0 owner.toArray.size =
      owner.toArray := by
    rw [Array.extract_append_left, Array.extract_size]
  rw [owner.size_toArray] at hleft
  refine Vector.toArray_inj.1 ?_
  unfold ownerFromSubaccount subaccount concatToBytes32
  simp only [Vector.toArray_cast, Vector.take_eq_extract, Vector.toArray_extract,
    Vector.toArray_append]
  exact hleft

theorem subaccount_eq_iff {owner owner' : H160} {name name' : String}
    (h : (asBytes name).length ≤ 12) (h' : (asBytes name').length ≤ 12) :
    subaccount owner name = subaccount owner' name' ↔
      owner = owner' ∧ withoutNuls name = withoutNuls name' := by
  rw [← toBytes12_eq_iff h h']
  refine ⟨fun heq => ?_, fun ⟨howner, hname⟩ => ?_⟩
  · have howner : owner = owner' := by
      rw [← ownerFromSubaccount_subaccount owner name, heq, ownerFromSubaccount_subaccount]
    subst howner
    have hbytes : owner ++ toBytes12 name = owner ++ toBytes12 name' :=
      Vector.toArray_inj.1 (congrArg Vector.toArray heq :)
    exact ⟨rfl, Vector.append_inj_right hbytes⟩
  · rw [subaccount, howner, hname, subaccount]

/-- **When two accepted names are different subaccounts**: unless they differ in `NUL` characters at
their end only. The owner can always be read back. -/
theorem subaccount_faithful_iff {owner owner' : H160} {name name' : String}
    (h : AcceptedName name) (h' : AcceptedName name') :
    (ownerFromSubaccount (subaccount owner name) = owner ∧
        ((owner, name) ≠ (owner', name') → subaccount owner name ≠ subaccount owner' name')) ↔
      ((owner, name) ≠ (owner', name') →
        owner ≠ owner' ∨ withoutNuls name ≠ withoutNuls name') := by
  rw [and_iff_right (ownerFromSubaccount_subaccount owner name), Ne, Ne,
    subaccount_eq_iff h.length_le h'.length_le, not_and_or]

theorem subaccount_faithful_default_trader :
    ownerFromSubaccount (subaccount (Vector.replicate 20 0) "default") = Vector.replicate 20 0 ∧
      (((Vector.replicate 20 0 : H160), "default") ≠ (Vector.replicate 20 0, "trader") →
        subaccount (Vector.replicate 20 0) "default" ≠
          subaccount (Vector.replicate 20 0) "trader") :=
  (subaccount_faithful_iff ⟨none, "default", .inl (by decide +kernel)⟩
    ⟨some " trader ", "default", .inl (by decide +kernel)⟩).2 fun _ => .inr (by decide +kernel)

/-- Two accepted names of one subaccount. -/
theorem subaccount_faithful_trailing_nul :
    subaccountNameFromQuery (some "a") "default" = .ok "a" ∧
      subaccountNameFromQuery (some "a\x00") "default" = .ok "a\x00" ∧
      ¬ ∀ (owner owner' : H160) (name name' : String), AcceptedName name → AcceptedName name' →
        ownerFromSubaccount (subaccount owner name) = owner ∧
          ((owner, name) ≠ (owner', name') →
            subaccount owner name ≠ subaccount owner' name') := by
  have ha : subaccountNameFromQuery (some "a") "default" = .ok "a" := by decide +kernel
  have hnul : subaccountNameFromQuery (some "a\x00") "default" = .ok "a\x00" := by decide +kernel
  refine ⟨ha, hnul, fun h => ?_⟩
  have hne := (h (Vector.replicate 20 0) (Vector.replicate 20 0) "a" "a\x00"
    ⟨_, _, .inl ha⟩ ⟨_, _, .inl hnul⟩).2 (by decide +kernel)
  exact hne (by decide +kernel)

end Execution
