import Mathlib
import Thornado.Lib.BitFields
import Thornado.Lib.Gate
import Thornado.Rust.Prelude
import Thornado.Execution.Policy
import Thornado.Sdk.Math

/-!
# Orders of the SDK

`PlaceOrderBuilder::order` (`builders/execute/place_order.rs`) packs the settings of an order into
its appendix; the methods of `Order` (`nado_utils/eip712_structs.rs`) and the execution gateway
unpack them. The offsets: version 0, isolated 8, order type 9, reduce only 11, trigger 12, builder
fee rate 38, builder 48, margin or slippage 64, TWAP times 96.

* `order_decodes_iff`: when every setting can be read back from an order.
* `built_order_supported`: how the gateway classifies what was built.
-/

namespace Sdk

open Execution (Bytes32 Order TriggerCriteria PlaceOrder PlaceTriggerOrder)

inductive OrderType where
  | default
  | immediateOrCancel
  | fillOrKill
  | postOnly
  deriving DecidableEq

def OrderType.bits : OrderType → BitVec 128
  | .default => 0
  | .immediateOrCancel => 1
  | .fillOrKill => 2
  | .postOnly => 3

def OrderType.appendixBit (t : OrderType) : BitVec 128 := t.bits <<< 9

/-! ## The builder -/

/-- The fields of a builder that an order is made of. -/
structure PlaceOrderBuilder where
  productId : Option UInt32 := none
  priceX18 : Option Int := none
  linkedSender : Option Bytes32 := none
  amount : Option Int := none
  expiration : Option UInt64 := none
  orderType : Option OrderType := none
  reduceOnly : Option Bool := none
  triggerCriteria : Option TriggerCriteria := none
  times : Option UInt32 := none
  slippageX6 : Option UInt32 := none
  nonce : Option UInt64 := none
  appendix : Option (BitVec 128) := none
  recvTime : Option UInt64 := none
  isolated : Option Bool := none
  margin : Option Int := none
  builderInfo : Option (UInt32 × UInt32) := none

/-- How building an order ends without one. -/
inductive BuildError where
  | error (message : String)
  | panic
  deriving DecidableEq

def noneError (name : String) : BuildError := .error (name ++ " is None!")

def orderVersion : BitVec 128 := 1

/-- `margin / ONE_X12` as the bits of a `u128`. -/
def marginX6 (margin : Int) : BitVec 128 := BitVec.ofInt 128 (margin.tdiv oneX12)

/-- A TWAP with amounts of its own is a random one. -/
def timeKind (amounts : Option (List Int)) : BitVec 128 :=
  match amounts with
  | some _ => 3
  | none => 2

/-- What a trigger adds to the appendix. -/
def triggerBits (b : PlaceOrderBuilder) : Except BuildError (BitVec 128) := do
  match b.triggerCriteria with
  | none => return 0
  | some (.priceTrigger ..) => return 1#128 <<< 12
  | some (.timeTrigger _ amounts) =>
    if b.isolated.getD false then throw .panic
    else
      let times ← Rust.okOr b.times .panic
      let slippageX6 ← Rust.okOr b.slippageX6 (noneError "slippage_x6")
      return BitVec.ofNat 128 times.toNat <<< 96 ||| BitVec.ofNat 128 slippageX6.toNat <<< 64 |||
        timeKind amounts <<< 12

/-- What an isolated order adds. -/
def isolatedBits (b : PlaceOrderBuilder) : Except BuildError (BitVec 128) := do
  if b.isolated.getD false then
    let margin ← Rust.okOr b.margin .panic
    return 1#128 <<< 8 ||| marginX6 margin <<< 64
  else return 0

def builderBits (b : PlaceOrderBuilder) : BitVec 128 :=
  match b.builderInfo with
  | none => 0
  | some (builderId, builderFeeRate) =>
    BitVec.ofNat 128 builderId.toNat <<< 48 ||| BitVec.ofNat 128 builderFeeRate.toNat <<< 38

/-- What building takes from the client (its subaccount, the signature and the digest of an order of
a product), the clock and the random generator. -/
structure Surroundings where
  subaccount : Except BuildError Bytes32
  getSignature : UInt32 → Order → Except BuildError Execution.Bytes
  getDigest : UInt32 → Order → Except BuildError Bytes32
  timestamp : UInt64
  randomInt : Fin 1000000

def defaultRecvTime (timestamp : UInt64) : UInt64 := (timestamp + 90) * 1000

def orderNonce (s : Surroundings) (recvTime : Option UInt64) : UInt64 :=
  recvTime.getD (defaultRecvTime s.timestamp) <<< 20 + UInt64.ofNat s.randomInt

def orderInner (s : Surroundings) (b : PlaceOrderBuilder) : Except BuildError Order := do
  let amount ← Rust.okOr b.amount (noneError "amount")
  let priceX18 ← Rust.okOr b.priceX18 (noneError "price_x18")
  let reduceOnly ← Rust.okOr b.reduceOnly (noneError "reduce_only")
  let orderType ← Rust.okOr b.orderType (noneError "order_type")
  let expiration ← Rust.okOr b.expiration (noneError "expiration")
  let appendix := b.appendix.getD orderVersion
  let appendix := if reduceOnly then appendix ||| 1#128 <<< 11 else appendix
  let isolated ← isolatedBits b
  let appendix := appendix ||| isolated ||| orderType.appendixBit
  let nonce := b.nonce.getD (orderNonce s b.recvTime)
  let trigger ← triggerBits b
  let appendix := appendix ||| trigger ||| builderBits b
  let defaultSender ← s.subaccount
  let sender := b.linkedSender.getD defaultSender
  return { sender, priceX18, amount, expiration, nonce, appendix }

/-- `order`: the settings that are left open have defaults. -/
def order (s : Surroundings) (b : PlaceOrderBuilder) : Except BuildError Order :=
  orderInner s
    { b with
      expiration := some (b.expiration.getD 4294967295)
      orderType := some (b.orderType.getD .default)
      reduceOnly := some (b.reduceOnly.getD false) }

def assertTriggerUnset (b : PlaceOrderBuilder) : Except BuildError Unit :=
  if b.triggerCriteria.isSome then
    .error (.error ("trigger_criteria set, use .build_triger to build trigger orders or clear " ++
      "trigger criteria"))
  else .ok ()

/-- `build`. -/
def build (s : Surroundings) (b : PlaceOrderBuilder) : Except BuildError PlaceOrder := do
  assertTriggerUnset b
  let order ← order s b
  let productId ← Rust.okOr b.productId (noneError "product_id")
  let signature ← s.getSignature productId order
  let _digest ← s.getDigest productId order
  return { productId, order, signature }

/-- `build_trigger`. -/
def buildTrigger (s : Surroundings) (b : PlaceOrderBuilder) :
    Except BuildError PlaceTriggerOrder := do
  let order ← order s b
  let productId ← Rust.okOr b.productId (noneError "product_id")
  let trigger ← Rust.okOr b.triggerCriteria (noneError "trigger_criteria")
  let signature ← s.getSignature productId order
  let _digest ← s.getDigest productId order
  return { order, signature, productId, trigger }

/-! ## Reading an order -/

section
variable (o : Order)

def reduceOnly : Bool := (o.appendix >>> 11 &&& 1) == 1

def recvTime : UInt64 := o.nonce >>> 20

def isTriggerOrder : Bool := decide ((o.appendix >>> 12 &&& 3) > 0)

def isPriceTrigger : Bool := (o.appendix >>> 12 &&& 3) == 1

def isTwap : Bool := decide ((o.appendix >>> 12 &&& 3) ≥ 2)

def isTwapRandom : Bool := (o.appendix >>> 12 &&& 3) == 3

/-- `as u32` -/
def asU32 (x : BitVec 128) : UInt32 := UInt32.ofNat x.toNat

def twapTimes : Option UInt32 := if isTwap o then some (asU32 (o.appendix >>> 96)) else none

def twapSlippageX6 : Option UInt32 :=
  if isTwap o then some (asU32 (o.appendix >>> 64 &&& (1#128 <<< 32 - 1))) else none

def isIsolated : Bool := (o.appendix >>> 8 &&& 1) == 1

def isolatedMargin : Option Int :=
  if isIsolated o then some (((o.appendix >>> 64).toInt * oneX18).tdiv oneX6) else none

def builderInfo : UInt32 × Int :=
  (asU32 (o.appendix >>> 48 &&& (1#128 <<< 16 - 1)),
    (o.appendix >>> 38 &&& (1#128 <<< 10 - 1)).toInt * oneX18.tdiv 100000)

def reservedBits : BitVec 128 := o.appendix >>> 14 &&& (1#128 <<< 24 - 1)

/-- `as u8` -/
def version : UInt8 := UInt8.ofNat (o.appendix &&& 255).toNat

end

/-! ## What the appendix holds -/

open BitFields

section
variable (b : PlaceOrderBuilder)

def flag (v : Bool) : BitVec 128 := if v then 1 else 0

/-- The two trigger bits. -/
def kindBits : BitVec 128 :=
  match b.triggerCriteria with
  | none => 0
  | some (.priceTrigger ..) => 1
  | some (.timeTrigger _ amounts) => timeKind amounts

def feeBits : BitVec 128 := BitVec.ofNat 128 (b.builderInfo.getD (0, 0)).2.toNat

def builderIdBits : BitVec 128 := BitVec.ofNat 128 (b.builderInfo.getD (0, 0)).1.toNat

/-- The fields below the builder's. -/
def lowFields : List (Field 128) :=
  [⟨0, 8, orderVersion⟩, ⟨8, 1, flag (b.isolated.getD false)⟩,
    ⟨9, 2, (b.orderType.getD .default).bits⟩, ⟨11, 1, flag (b.reduceOnly.getD false)⟩,
    ⟨12, 2, kindBits b⟩, ⟨14, 24, 0⟩]

/-- The upper half: the margin of an isolated order, or the slippage and the times of a TWAP. -/
def topFields : List (Field 128) :=
  if b.isolated.getD false then [⟨64, 64, marginX6 (b.margin.getD 0)⟩]
  else
    match b.triggerCriteria with
    | some (.timeTrigger ..) =>
      [⟨64, 32, BitVec.ofNat 128 (b.slippageX6.getD 0).toNat⟩,
        ⟨96, 32, BitVec.ofNat 128 (b.times.getD 0).toNat⟩]
    | _ => []

def highFields : List (Field 128) :=
  ⟨38, 10, feeBits b⟩ :: ⟨48, 16, builderIdBits b⟩ :: topFields b

end

theorem isolatedBits_ok {b : PlaceOrderBuilder} {bits : BitVec 128}
    (h : isolatedBits b = .ok bits) :
    bits = flag (b.isolated.getD false) <<< 8 |||
      (if b.isolated.getD false then pack (topFields b) else 0) := by
  unfold isolatedBits at h
  split at h
  · rename_i hisolated
    obtain ⟨margin, hmargin, h⟩ := Gate.bind_ok h
    cases h
    unfold topFields
    rw [if_pos hisolated, if_pos hisolated, hisolated, Rust.okOr_eq_ok.1 hmargin]
    exact congrArg (1#128 <<< 8 ||| ·) BitVec.or_zero.symm
  · rename_i hisolated
    cases h
    rw [if_neg hisolated, Bool.eq_false_iff.2 hisolated]
    decide

theorem triggerBits_ok {b : PlaceOrderBuilder} {bits : BitVec 128} (h : triggerBits b = .ok bits) :
    bits = kindBits b <<< 12 ||| (if b.isolated.getD false then 0 else pack (topFields b)) := by
  unfold triggerBits at h
  unfold kindBits topFields
  cases htrigger : b.triggerCriteria with
  | none =>
    rw [htrigger] at h
    cases h
    cases b.isolated.getD false with
    | true => simp
    | false => simp [pack]
  | some trigger =>
    rw [htrigger] at h
    cases trigger with
    | priceTrigger requirement dependency =>
      cases h
      cases b.isolated.getD false with
      | true => simp
      | false => simp [pack]
    | timeTrigger interval amounts =>
      dsimp only at h ⊢
      split at h
      · cases h
      · rename_i hisolated
        obtain ⟨times, htimes, h⟩ := Gate.bind_ok h
        obtain ⟨slippageX6, hslippage, h⟩ := Gate.bind_ok h
        cases h
        rw [if_neg hisolated, if_neg hisolated, Rust.okOr_eq_ok.1 htimes,
          Rust.okOr_eq_ok.1 hslippage, Option.getD_some, Option.getD_some, pack, pack, pack]
        refine (BitVec.or_comm ..).trans (congrArg (timeKind amounts <<< 12 ||| ·) ?_)
        exact (BitVec.or_comm ..).trans (congrArg _ BitVec.or_zero.symm)

theorem builderBits_eq (b : PlaceOrderBuilder) :
    builderBits b = builderIdBits b <<< 48 ||| feeBits b <<< 38 := by
  unfold builderBits builderIdBits feeBits
  cases b.builderInfo with
  | none => rfl
  | some info => rfl

theorem flag_or (appendix : BitVec 128) (v : Bool) :
    (if v then appendix ||| 1#128 <<< 11 else appendix) = appendix ||| flag v <<< 11 := by
  cases v with
  | true => rfl
  | false => exact (BitVec.or_zero).symm

/-- The upper half comes from the isolated order or from the trigger. -/
theorem top_eq (isolated : Bool) (top : BitVec 128) :
    top = (if isolated then top else 0) ||| (if isolated then 0 else top) := by
  cases isolated with
  | true => exact BitVec.or_zero.symm
  | false => exact BitVec.zero_or.symm

/-- The parts of an appendix in the order of their offsets. -/
theorem or_sorted (version reduceOnly isolated margin orderType kind twap builder fee gap :
    BitVec 128) (hgap : gap = 0) :
    version ||| reduceOnly ||| (isolated ||| margin) ||| orderType ||| (kind ||| twap) |||
        (builder ||| fee) =
      version ||| (isolated ||| (orderType ||| (reduceOnly ||| (kind ||| (gap ||| (fee |||
        (builder ||| (margin ||| twap)))))))) := by
  subst hgap
  rw [show (0 : BitVec 128) ||| _ = _ from BitVec.zero_or]
  ac_rfl

/-- How an order came out of a builder: what each of its parts gave. -/
structure Built (s : Surroundings) (b : PlaceOrderBuilder) (o : Order)
    (margin kind : BitVec 128) (default : Bytes32) : Prop where
  isolated : isolatedBits b = .ok margin
  trigger : triggerBits b = .ok kind
  subaccount : s.subaccount = .ok default
  sender : o.sender = b.linkedSender.getD default
  priceX18 : b.priceX18 = some o.priceX18
  amount : b.amount = some o.amount
  expiration : o.expiration = b.expiration.getD 4294967295
  nonce : o.nonce = b.nonce.getD (orderNonce s b.recvTime)
  appendix : o.appendix =
    (if b.reduceOnly.getD false then b.appendix.getD orderVersion ||| 1#128 <<< 11
      else b.appendix.getD orderVersion) |||
    margin ||| (b.orderType.getD .default).appendixBit ||| kind ||| builderBits b

theorem order_built {s : Surroundings} {b : PlaceOrderBuilder} {o : Order}
    (h : order s b = .ok o) : ∃ margin kind default, Built s b o margin kind default := by
  obtain ⟨amount, hamount, h⟩ := Gate.bind_ok h
  obtain ⟨priceX18, hprice, h⟩ := Gate.bind_ok h
  obtain ⟨reduceOnly, hreduce, h⟩ := Gate.bind_ok h
  obtain ⟨orderType, htype, h⟩ := Gate.bind_ok h
  obtain ⟨expiration, hexpiration, h⟩ := Gate.bind_ok h
  obtain ⟨isolated, hisolated, h⟩ := Gate.bind_ok h
  obtain ⟨trigger, htrigger, h⟩ := Gate.bind_ok h
  obtain ⟨subaccount, hsubaccount, h⟩ := Gate.bind_ok h
  cases Rust.okOr_eq_ok.1 hreduce
  cases Rust.okOr_eq_ok.1 htype
  cases Rust.okOr_eq_ok.1 hexpiration
  cases h
  exact ⟨isolated, trigger, subaccount, {
    isolated := hisolated
    trigger := htrigger
    subaccount := hsubaccount
    sender := rfl
    priceX18 := Rust.okOr_eq_ok.1 hprice
    amount := Rust.okOr_eq_ok.1 hamount
    expiration := rfl
    nonce := rfl
    appendix := rfl }⟩

/-- The settings an order is made of, those that are left open included. -/
structure Carries (s : Surroundings) (b : PlaceOrderBuilder) (o : Order) : Prop where
  sender : ∀ sender, b.linkedSender = some sender → o.sender = sender
  subaccount : b.linkedSender = none → s.subaccount = .ok o.sender
  priceX18 : b.priceX18 = some o.priceX18
  amount : b.amount = some o.amount
  expiration : o.expiration = b.expiration.getD 4294967295
  nonce : o.nonce = b.nonce.getD (orderNonce s b.recvTime)

/-- What a built order is: the appendix is the fields of the builder, packed. -/
theorem order_ok {s : Surroundings} {b : PlaceOrderBuilder} {o : Order} (h : order s b = .ok o)
    (hopen : b.appendix = none) :
    Carries s b o ∧ o.appendix = pack (lowFields b ++ highFields b) := by
  obtain ⟨margin, kind, default, hb⟩ := order_built h
  refine ⟨⟨fun sender hsender => ?_, fun hnone => ?_, hb.priceX18, hb.amount, hb.expiration,
    hb.nonce⟩, ?_⟩
  · rw [hb.sender, hsender, Option.getD_some]
  · rw [hb.subaccount, hb.sender, hnone, Option.getD_none]
  · unfold lowFields highFields
    simp only [List.cons_append, List.nil_append, pack, BitVec.shiftLeft_zero]
    rw [top_eq (b.isolated.getD false) (pack (topFields b)), hb.appendix, hopen,
      isolatedBits_ok hb.isolated, triggerBits_ok hb.trigger, builderBits_eq, flag_or]
    exact or_sorted _ _ _ _ _ _ _ _ _ _ rfl

/-! ## What is read back -/

theorem lowFields_layout (b : PlaceOrderBuilder) : Layout (lowFields b) := by
  have hflag (v : Bool) : (flag v).toNat < 2 ^ 1 := by cases v <;> decide
  have hkind : (kindBits b).toNat < 2 ^ 2 := by
    unfold kindBits timeKind
    split
    · decide
    · decide
    · split <;> decide
  have htype (t : OrderType) : t.bits.toNat < 2 ^ 2 := by cases t <;> decide
  refine ⟨fun f hf => ?_, by simp [lowFields]⟩
  simp only [lowFields, List.mem_cons, List.not_mem_nil, or_false] at hf
  rcases hf with rfl | rfl | rfl | rfl | rfl | rfl
  · exact ⟨by decide, by simp⟩
  · exact ⟨hflag _, by simp⟩
  · exact ⟨htype _, by simp⟩
  · exact ⟨hflag _, by simp⟩
  · exact ⟨hkind, by simp⟩
  · exact ⟨by decide, by simp⟩

theorem lowFields_below (b : PlaceOrderBuilder) : ∀ f ∈ lowFields b, f.off + f.len ≤ 38 := by
  intro f hf
  simp only [lowFields, List.mem_cons, List.not_mem_nil, or_false] at hf
  rcases hf with rfl | rfl | rfl | rfl | rfl | rfl <;> simp

theorem highFields_above (b : PlaceOrderBuilder) : ∀ f ∈ highFields b, 38 ≤ f.off := by
  intro f hf
  unfold highFields topFields at hf
  split at hf
  · simp only [List.mem_cons, List.not_mem_nil, or_false] at hf
    rcases hf with rfl | rfl | rfl <;> simp
  · split at hf
    · simp only [List.mem_cons, List.not_mem_nil, or_false] at hf
      rcases hf with rfl | rfl | rfl | rfl <;> simp
    · simp only [List.mem_cons, List.not_mem_nil, or_false] at hf
      rcases hf with rfl | rfl <;> simp

section
variable {s : Surroundings} {b : PlaceOrderBuilder} {o : Order}

/-- The lower fields can be read from every order. -/
theorem read_low (h : order s b = .ok o) (hopen : b.appendix = none) (off len : Nat)
    (value : BitVec 128) (hf : ⟨off, len, value⟩ ∈ lowFields b) :
    o.appendix >>> off &&& BitVec.ofNat 128 (2 ^ len - 1) = value := by
  rw [(order_ok h hopen).2]
  exact read_pack (lowFields_layout b) hf fun g hg =>
    Nat.le_trans (lowFields_below b _ hf) (highFields_above b g hg)

theorem read_version (h : order s b = .ok o) (hopen : b.appendix = none) :
    o.appendix &&& 255 = orderVersion :=
  read_low h hopen 0 8 orderVersion (by simp [lowFields])

theorem read_isolated (h : order s b = .ok o) (hopen : b.appendix = none) :
    o.appendix >>> 8 &&& 1 = flag (b.isolated.getD false) :=
  read_low h hopen 8 1 (flag (b.isolated.getD false)) (by simp [lowFields])

theorem read_orderType (h : order s b = .ok o) (hopen : b.appendix = none) :
    o.appendix >>> 9 &&& 3 = (b.orderType.getD .default).bits :=
  read_low h hopen 9 2 (b.orderType.getD .default).bits (by simp [lowFields])

theorem read_reduceOnly (h : order s b = .ok o) (hopen : b.appendix = none) :
    o.appendix >>> 11 &&& 1 = flag (b.reduceOnly.getD false) :=
  read_low h hopen 11 1 (flag (b.reduceOnly.getD false)) (by simp [lowFields])

theorem read_kind (h : order s b = .ok o) (hopen : b.appendix = none) :
    o.appendix >>> 12 &&& 3 = kindBits b :=
  read_low h hopen 12 2 (kindBits b) (by simp [lowFields])

theorem read_reserved (h : order s b = .ok o) (hopen : b.appendix = none) :
    o.appendix >>> 14 &&& (1#128 <<< 24 - 1) = 0 :=
  read_low h hopen 14 24 0 (by simp [lowFields])

/-! ## What has to fit -/

/-- The settings that have fewer bits in an order than in the builder. -/
structure Fits (s : Surroundings) (b : PlaceOrderBuilder) : Prop where
  builderId : (b.builderInfo.getD (0, 0)).1.toNat < 2 ^ 16
  builderFeeRate : (b.builderInfo.getD (0, 0)).2.toNat < 2 ^ 10
  margin : b.isolated = some true → ∀ margin, b.margin = some margin →
    0 ≤ margin.tdiv oneX12 ∧ margin.tdiv oneX12 < 2 ^ 64
  recvTime : b.nonce = none → (b.recvTime.getD (defaultRecvTime s.timestamp)).toNat < 2 ^ 44

/-- Every setting is read back; of an isolated order's margin, the multiple of 10^12 below it. -/
structure Decodes (s : Surroundings) (b : PlaceOrderBuilder) (o : Order) : Prop where
  version : version o = 1
  orderType : Execution.orderTypeBits o = (b.orderType.getD .default).bits
  reduceOnly : reduceOnly o = b.reduceOnly.getD false
  isTriggerOrder : isTriggerOrder o = b.triggerCriteria.isSome
  isPriceTrigger : isPriceTrigger o = true ↔
    ∃ requirement dependency, b.triggerCriteria = some (.priceTrigger requirement dependency)
  isTwap : isTwap o = true ↔
    ∃ interval amounts, b.triggerCriteria = some (.timeTrigger interval amounts)
  isTwapRandom : isTwapRandom o = true ↔
    ∃ interval amounts, b.triggerCriteria = some (.timeTrigger interval (some amounts))
  twapTimes : twapTimes o = if Sdk.isTwap o then b.times else none
  twapSlippageX6 : twapSlippageX6 o = if Sdk.isTwap o then b.slippageX6 else none
  isIsolated : isIsolated o = b.isolated.getD false
  isolatedMargin : isolatedMargin o =
    if Sdk.isIsolated o then b.margin.map fun margin : Int => margin.tdiv oneX12 * oneX12 else none
  builderInfo : builderInfo o =
    ((b.builderInfo.getD (0, 0)).1, ((b.builderInfo.getD (0, 0)).2.toNat : Int) * 10 ^ 13)
  reservedBits : reservedBits o = 0
  recvTime : b.nonce = none → recvTime o = b.recvTime.getD (defaultRecvTime s.timestamp)

/-! ## Small words -/

theorem toInt_of_small {x : BitVec 128} {n : Nat} (hx : x.toNat < 2 ^ n) (hn : n ≤ 127) :
    x.toInt = x.toNat := by
  have hle : 2 ^ n ≤ 2 ^ 127 := Nat.pow_le_pow_right Nat.two_pos hn
  exact BitVec.toInt_eq_toNat_of_lt (by omega)

theorem asU32_ofNat (u : UInt32) : asU32 (BitVec.ofNat 128 u.toNat) = u := by
  unfold asU32
  have hu := u.toNat_lt
  rw [BitVec.toNat_ofNat, Nat.mod_eq_of_lt (by omega)]
  exact UInt32.ofNat_toNat

theorem ofNat_toNat {n m : Nat} (hn : n < 2 ^ m) (hm : m ≤ 128) :
    (BitVec.ofNat 128 n).toNat = n := by
  rw [BitVec.toNat_ofNat]
  exact Nat.mod_eq_of_lt (Nat.lt_of_lt_of_le hn (Nat.pow_le_pow_right Nat.two_pos hm))

theorem masked_lt (x : BitVec 128) {off len : Nat} (hlen : len ≤ 128) :
    (x >>> off &&& BitVec.ofNat 128 (2 ^ len - 1)).toNat < 2 ^ len := by
  rw [shiftRight_and_mask hlen]
  exact BitVec.isLt _

theorem feeRate_unit : oneX18.tdiv 100000 = 10 ^ 13 := by decide

theorem margin_unit (n : Int) : (n * oneX18).tdiv oneX6 = n * oneX12 := by
  rw [show oneX18 = oneX12 * oneX6 by decide, ← Int.mul_assoc]
  exact Int.mul_tdiv_cancel _ (by decide)

theorem marginX6_toNat {margin : Int} (h : 0 ≤ margin.tdiv oneX12)
    (hlt : margin.tdiv oneX12 < 2 ^ 64) :
    ((marginX6 margin).toNat : Int) = margin.tdiv oneX12 := by
  unfold marginX6
  rw [BitVec.toNat_ofInt]
  omega

theorem recvTime_orderNonce {s : Surroundings} {recv : Option UInt64}
    (h : (recv.getD (defaultRecvTime s.timestamp)).toNat < 2 ^ 44) :
    orderNonce s recv >>> 20 = recv.getD (defaultRecvTime s.timestamp) := by
  unfold orderNonce
  generalize recv.getD (defaultRecvTime s.timestamp) = time at h ⊢
  have hrandom := s.randomInt.isLt
  refine UInt64.toNat_inj.1 ?_
  rw [UInt64.toNat_shiftRight, UInt64.toNat_add, UInt64.toNat_shiftLeft, UInt64.toNat_ofNat',
    Nat.shiftLeft_eq, Nat.shiftRight_eq_div_pow, show (20 : UInt64).toNat % 64 = 20 from rfl]
  omega

/-! ## Reading the upper fields -/

theorem builderId_lt_of_read (h : (builderInfo o).1 = (b.builderInfo.getD (0, 0)).1) :
    (b.builderInfo.getD (0, 0)).1.toNat < 2 ^ 16 := by
  have hlt : (o.appendix >>> 48 &&& (1#128 <<< 16 - 1)).toNat < 2 ^ 16 :=
    masked_lt o.appendix (by decide : 16 ≤ 128)
  have hread : (builderInfo o).1.toNat = (o.appendix >>> 48 &&& (1#128 <<< 16 - 1)).toNat :=
    Nat.mod_eq_of_lt (by omega)
  rw [← h, hread]
  exact hlt

theorem feeRate_lt_of_read
    (h : (builderInfo o).2 = ((b.builderInfo.getD (0, 0)).2.toNat : Int) * 10 ^ 13) :
    (b.builderInfo.getD (0, 0)).2.toNat < 2 ^ 10 := by
  have hlt : (o.appendix >>> 38 &&& (1#128 <<< 10 - 1)).toNat < 2 ^ 10 :=
    masked_lt o.appendix (by decide : 10 ≤ 128)
  unfold builderInfo at h
  rw [feeRate_unit, toInt_of_small hlt (by decide)] at h
  have heq := Int.eq_of_mul_eq_mul_right (by decide : (10 : Int) ^ 13 ≠ 0) h
  omega

theorem margin_fits_of_read {margin : Int} (hisolated : isIsolated o = true)
    (h : isolatedMargin o = some (margin.tdiv oneX12 * oneX12)) :
    0 ≤ margin.tdiv oneX12 ∧ margin.tdiv oneX12 < 2 ^ 64 := by
  have hlt : (o.appendix >>> 64).toNat < 2 ^ 64 := by
    rw [shiftRight_eq_mask (by decide : 64 + 64 = 128)]
    exact masked_lt o.appendix (by decide : 64 ≤ 128)
  unfold isolatedMargin at h
  rw [if_pos hisolated, margin_unit, toInt_of_small hlt (by decide)] at h
  have heq := Int.eq_of_mul_eq_mul_right (by decide : oneX12 ≠ 0) (Option.some.inj h)
  omega

theorem Decodes.fits (h : Decodes s b o) : Fits s b := by
  have hinfo := h.builderInfo
  refine ⟨builderId_lt_of_read (congrArg Prod.fst hinfo),
    feeRate_lt_of_read (congrArg Prod.snd hinfo), fun hisolated margin hmargin => ?_,
    fun hnonce => ?_⟩
  · have hflag : Sdk.isIsolated o = true := by rw [h.isIsolated, hisolated]; rfl
    have hread := h.isolatedMargin
    rw [if_pos hflag, hmargin] at hread
    exact margin_fits_of_read hflag hread
  · rw [← h.recvTime hnonce]
    unfold Sdk.recvTime
    have hlt := o.nonce.toNat_lt
    rw [UInt64.toNat_shiftRight, Nat.shiftRight_eq_div_pow,
      show (20 : UInt64).toNat % 64 = 20 from rfl]
    omega

theorem Fits.marginX6_lt (h : Fits s b) (hisolated : b.isolated.getD false = true) :
    (marginX6 (b.margin.getD 0)).toNat < 2 ^ 64 := by
  have hsome : b.isolated = some true := by
    cases hb : b.isolated with
    | none => rw [hb] at hisolated; cases hisolated
    | some v => rw [hb] at hisolated; exact congrArg some hisolated
  cases hmargin : b.margin with
  | none => decide
  | some margin =>
    obtain ⟨hnonneg, hlt⟩ := h.margin hsome margin hmargin
    have heq := marginX6_toNat hnonneg hlt
    show (marginX6 margin).toNat < 2 ^ 64
    omega

/-- The settings fit into their fields. -/
theorem Fits.layout (h : Fits s b) : Layout (lowFields b ++ highFields b) := by
  have hlow := lowFields_layout b
  have hfee : (feeBits b).toNat < 2 ^ 10 := (ofNat_toNat h.builderFeeRate (by decide)).symm ▸
    h.builderFeeRate
  have hid : (builderIdBits b).toNat < 2 ^ 16 := (ofNat_toNat h.builderId (by decide)).symm ▸
    h.builderId
  have hword (u : UInt32) : (BitVec.ofNat 128 u.toNat).toNat < 2 ^ 32 :=
    (ofNat_toNat u.toNat_lt (by decide)).symm ▸ u.toNat_lt
  have hhigh : Layout (highFields b) := by
    unfold highFields topFields
    split
    · rename_i hisolated
      refine ⟨fun f hf => ?_, by simp⟩
      simp only [List.mem_cons, List.not_mem_nil, or_false] at hf
      rcases hf with rfl | rfl | rfl
      · exact ⟨hfee, by simp⟩
      · exact ⟨hid, by simp⟩
      · exact ⟨h.marginX6_lt hisolated, by simp⟩
    · split
      · refine ⟨fun f hf => ?_, by simp⟩
        simp only [List.mem_cons, List.not_mem_nil, or_false] at hf
        rcases hf with rfl | rfl | rfl | rfl
        · exact ⟨hfee, by simp⟩
        · exact ⟨hid, by simp⟩
        · exact ⟨hword _, by simp⟩
        · exact ⟨hword _, by simp⟩
      · refine ⟨fun f hf => ?_, by simp⟩
        simp only [List.mem_cons, List.not_mem_nil, or_false] at hf
        rcases hf with rfl | rfl
        · exact ⟨hfee, by simp⟩
        · exact ⟨hid, by simp⟩
  refine ⟨fun f hf => ?_, List.pairwise_append.2 ⟨hlow.sorted, hhigh.sorted, fun f hf g hg => ?_⟩⟩
  · exact (List.mem_append.1 hf).elim (hlow.fits f) (hhigh.fits f)
  · exact Nat.le_trans (lowFields_below b f hf) (highFields_above b g hg)

theorem read_high (h : order s b = .ok o) (hopen : b.appendix = none) (hfits : Fits s b)
    (off len : Nat) (value : BitVec 128) (hf : ⟨off, len, value⟩ ∈ highFields b) :
    o.appendix >>> off &&& BitVec.ofNat 128 (2 ^ len - 1) = value := by
  rw [(order_ok h hopen).2, ← List.append_nil (lowFields b ++ highFields b)]
  exact read_pack hfits.layout (List.mem_append_right _ hf) (fun g hg => by cases hg)

/-- What the trigger bits tell of the criteria. -/
structure Kinds (b : PlaceOrderBuilder) : Prop where
  price : kindBits b = 1 ↔
    ∃ requirement dependency, b.triggerCriteria = some (.priceTrigger requirement dependency)
  twap : kindBits b ≥ 2 ↔
    ∃ interval amounts, b.triggerCriteria = some (.timeTrigger interval amounts)
  random : kindBits b = 3 ↔
    ∃ interval amounts, b.triggerCriteria = some (.timeTrigger interval (some amounts))
  pos : decide (kindBits b > 0) = b.triggerCriteria.isSome

theorem kinds (b : PlaceOrderBuilder) : Kinds b := by
  cases htrigger : b.triggerCriteria with
  | none =>
    have hbits : kindBits b = 0 := by rw [kindBits, htrigger]
    constructor <;> simp [htrigger, hbits]
  | some trigger =>
    cases trigger with
    | priceTrigger requirement dependency =>
      have hbits : kindBits b = 1 := by rw [kindBits, htrigger]
      constructor <;> simp [htrigger, hbits]
    | timeTrigger interval amounts =>
      have hbits : kindBits b = timeKind amounts := by rw [kindBits, htrigger]
      cases amounts with
      | none => constructor <;> simp [htrigger, hbits, timeKind]
      | some amounts => constructor <;> simp [htrigger, hbits, timeKind]

/-- A built TWAP has its settings and is not isolated. -/
theorem twap_settings (h : order s b = .ok o) {interval : UInt64} {amounts : Option (List Int)}
    (htrigger : b.triggerCriteria = some (.timeTrigger interval amounts)) :
    b.isolated.getD false = false ∧ ∃ times slippageX6,
      b.times = some times ∧ b.slippageX6 = some slippageX6 := by
  obtain ⟨margin, kind, default, hb⟩ := order_built h
  have hbits := hb.trigger
  unfold triggerBits at hbits
  rw [htrigger] at hbits
  dsimp only at hbits
  split at hbits
  · cases hbits
  · rename_i hisolated
    obtain ⟨times, htimes, hbits⟩ := Gate.bind_ok hbits
    obtain ⟨slippageX6, hslippage, -⟩ := Gate.bind_ok hbits
    exact ⟨Bool.eq_false_iff.2 hisolated, times, slippageX6, Rust.okOr_eq_ok.1 htimes,
      Rust.okOr_eq_ok.1 hslippage⟩

theorem isolated_settings (h : order s b = .ok o) (hisolated : b.isolated.getD false = true) :
    ∃ margin, b.margin = some margin := by
  obtain ⟨margin, kind, default, hb⟩ := order_built h
  have hbits := hb.isolated
  unfold isolatedBits at hbits
  rw [if_pos hisolated] at hbits
  obtain ⟨margin, hmargin, -⟩ := Gate.bind_ok hbits
  exact ⟨margin, Rust.okOr_eq_ok.1 hmargin⟩

theorem isTwap_iff (h : order s b = .ok o) (hopen : b.appendix = none) : isTwap o = true ↔
    ∃ interval amounts, b.triggerCriteria = some (.timeTrigger interval amounts) := by
  unfold isTwap
  rw [read_kind h hopen, decide_eq_true_iff]
  exact (kinds b).twap

theorem isIsolated_eq (h : order s b = .ok o) (hopen : b.appendix = none) :
    isIsolated o = b.isolated.getD false := by
  unfold isIsolated
  rw [read_isolated h hopen]
  cases b.isolated.getD false <;> decide

/-- The words of a TWAP are read back. -/
theorem twap_read (h : order s b = .ok o) (hopen : b.appendix = none) (hfits : Fits s b)
    (htwap : isTwap o = true) :
    twapTimes o = b.times ∧ twapSlippageX6 o = b.slippageX6 := by
  obtain ⟨interval, amounts, htrigger⟩ := (isTwap_iff h hopen).1 htwap
  obtain ⟨hisolated, times, slippageX6, htimes, hslippage⟩ := twap_settings h htrigger
  have htop : topFields b = [⟨64, 32, BitVec.ofNat 128 slippageX6.toNat⟩,
      ⟨96, 32, BitVec.ofNat 128 times.toNat⟩] := by
    unfold topFields
    rw [hisolated, htrigger, htimes, hslippage]
    rfl
  have hslippageRead : o.appendix >>> 64 &&& (1#128 <<< 32 - 1) =
      BitVec.ofNat 128 slippageX6.toNat :=
    read_high h hopen hfits 64 32 (BitVec.ofNat 128 slippageX6.toNat)
      (by simp [highFields, htop])
  have htimesRead : o.appendix >>> 96 = BitVec.ofNat 128 times.toNat :=
    (shiftRight_eq_mask (by decide : 96 + 32 = 128)).trans
      (read_high h hopen hfits 96 32 (BitVec.ofNat 128 times.toNat)
        (by simp [highFields, htop]))
  unfold twapTimes twapSlippageX6
  rw [if_pos htwap, if_pos htwap, hslippageRead, htimesRead, asU32_ofNat, asU32_ofNat, htimes,
    hslippage]
  exact ⟨rfl, rfl⟩

theorem margin_read (h : order s b = .ok o) (hopen : b.appendix = none) (hfits : Fits s b)
    (hisolated : isIsolated o = true) :
    isolatedMargin o = b.margin.map fun margin : Int => margin.tdiv oneX12 * oneX12 := by
  have hflag := isIsolated_eq h hopen
  rw [hisolated] at hflag
  obtain ⟨margin, hmargin⟩ := isolated_settings h hflag.symm
  have hlt : (marginX6 (b.margin.getD 0)).toNat < 2 ^ 64 := hfits.marginX6_lt hflag.symm
  have hsome : b.isolated = some true := by
    cases hb : b.isolated with
    | none => rw [hb] at hflag; cases hflag
    | some v => rw [hb] at hflag; exact congrArg some hflag.symm
  obtain ⟨hnonneg, hbound⟩ := hfits.margin hsome margin hmargin
  have htop : topFields b = [⟨64, 64, marginX6 margin⟩] := by
    unfold topFields
    rw [if_pos hflag.symm, hmargin]
    rfl
  have hread : o.appendix >>> 64 = marginX6 margin :=
    (shiftRight_eq_mask (by decide : 64 + 64 = 128)).trans
      (read_high h hopen hfits 64 64 (marginX6 margin) (by simp [highFields, htop]))
  rw [hmargin, Option.getD_some] at hlt
  unfold isolatedMargin
  rw [if_pos hisolated, hread, margin_unit, toInt_of_small hlt (by decide),
    marginX6_toNat hnonneg hbound, hmargin]
  rfl

theorem builderInfo_read (h : order s b = .ok o) (hopen : b.appendix = none) (hfits : Fits s b) :
    builderInfo o =
      ((b.builderInfo.getD (0, 0)).1, ((b.builderInfo.getD (0, 0)).2.toNat : Int) * 10 ^ 13) := by
  have hid : o.appendix >>> 48 &&& (1#128 <<< 16 - 1) = builderIdBits b :=
    read_high h hopen hfits 48 16 (builderIdBits b) (by simp [highFields])
  have hfee : o.appendix >>> 38 &&& (1#128 <<< 10 - 1) = feeBits b :=
    read_high h hopen hfits 38 10 (feeBits b) (by simp [highFields])
  have hrate : (feeBits b).toNat = (b.builderInfo.getD (0, 0)).2.toNat :=
    ofNat_toNat hfits.builderFeeRate (by decide)
  unfold builderInfo
  rw [hid, hfee, feeRate_unit, toInt_of_small (hrate ▸ hfits.builderFeeRate) (by decide), hrate]
  exact congrArg (·, _) (asU32_ofNat _)

theorem Fits.decodes (hfits : Fits s b) (h : order s b = .ok o) (hopen : b.appendix = none) :
    Decodes s b o := by
  have hkind := read_kind h hopen
  refine ⟨?_, read_orderType h hopen, ?_, ?_, ?_, isTwap_iff h hopen, ?_, ?_, ?_,
    isIsolated_eq h hopen, ?_, builderInfo_read h hopen hfits, read_reserved h hopen,
    fun hnonce => ?_⟩
  · unfold version
    rw [read_version h hopen]
    decide
  · unfold reduceOnly
    rw [read_reduceOnly h hopen]
    cases b.reduceOnly.getD false <;> decide
  · unfold isTriggerOrder
    rw [hkind]
    exact (kinds b).pos
  · unfold isPriceTrigger
    rw [hkind, beq_iff_eq]
    exact (kinds b).price
  · unfold isTwapRandom
    rw [hkind, beq_iff_eq]
    exact (kinds b).random
  · split
    · exact (twap_read h hopen hfits ‹_›).1
    · exact if_neg ‹_›
  · split
    · exact (twap_read h hopen hfits ‹_›).2
    · exact if_neg ‹_›
  · split
    · exact margin_read h hopen hfits ‹_›
    · exact if_neg ‹_›
  · unfold Sdk.recvTime
    rw [(order_ok h hopen).1.nonce, hnonce]
    exact recvTime_orderNonce (hfits.recvTime hnonce)

end

/-- **An order can be read back** exactly when the builder's id, its fee rate, the isolated margin
and the receive time fit into their fields. -/
theorem order_decodes_iff {s : Surroundings} {b : PlaceOrderBuilder} {o : Order}
    (h : order s b = .ok o) (hopen : b.appendix = none) :
    Carries s b o ∧ (Decodes s b o ↔ Fits s b) :=
  ⟨(order_ok h hopen).1, ⟨Decodes.fits, fun hfits => hfits.decodes h hopen⟩⟩

/-- A client without a linked signer, at a fixed time. -/
def desk : Surroundings where
  subaccount := .ok (Vector.replicate 32 1)
  getSignature _ _ := .ok (List.replicate 65 27)
  getDigest _ _ := .ok (Vector.replicate 32 0)
  timestamp := 1700000000
  randomInt := 7

/-- A TWAP of 10 parts with a slippage of half a percent. -/
def twapBuilder : PlaceOrderBuilder where
  productId := some 2
  priceX18 := some (3000 * oneX18)
  amount := some oneX18
  orderType := some .immediateOrCancel
  reduceOnly := some true
  triggerCriteria := some (.timeTrigger 60 none)
  times := some 10
  slippageX6 := some 5000
  builderInfo := some (3, 25)

theorem order_decodes_iff_twap :
    ∃ o, order desk twapBuilder = .ok o ∧ Decodes desk twapBuilder o :=
  ⟨_, rfl, (order_decodes_iff rfl rfl).2.2
    ⟨by decide, by decide, fun h => (nomatch h), fun _ => by decide⟩⟩

/-! ## What the gateway supports -/

section
variable {s : Surroundings} {b : PlaceOrderBuilder} {o : Order}

theorem orderType_supported (b : PlaceOrderBuilder) :
    (b.orderType.getD .default).bits ∈ [0#128, 1#128, 3#128] ↔ b.orderType ≠ some .fillOrKill := by
  cases b.orderType with
  | none => decide
  | some t => cases t <;> decide

theorem regularOrder_iff (h : order s b = .ok o) (hopen : b.appendix = none) :
    Execution.RegularOrder o ↔ b.orderType ≠ some .fillOrKill ∧ b.triggerCriteria = none := by
  have htype : Execution.orderTypeBits o = (b.orderType.getD .default).bits :=
    read_orderType h hopen
  have hkind : Execution.triggerTypeBits o = kindBits b := read_kind h hopen
  rw [Execution.regularOrder_iff_bits]
  rw [htype, hkind, orderType_supported]
  refine and_congr_right fun _ => ?_
  rw [← Option.not_isSome_iff_eq_none, ← (kinds b).pos, decide_eq_true_iff]
  exact (BitVec.not_lt.trans BitVec.le_zero_iff).symm

theorem triggerOrder_iff (h : order s b = .ok o) (hopen : b.appendix = none) :
    Execution.TriggerOrder o ↔ b.orderType ≠ some .fillOrKill ∧
      ∃ requirement dependency,
        b.triggerCriteria = some (.priceTrigger requirement dependency) := by
  have htype : Execution.orderTypeBits o = (b.orderType.getD .default).bits :=
    read_orderType h hopen
  have hkind : Execution.triggerTypeBits o = kindBits b := read_kind h hopen
  rw [Execution.triggerOrder_iff_bits]
  rw [htype, hkind, orderType_supported]
  exact and_congr_right fun _ => (kinds b).price

theorem build_ok {p : PlaceOrder} (h : build s b = .ok p) :
    order s b = .ok p.order ∧ b.triggerCriteria = none := by
  obtain ⟨_, hunset, h⟩ := Gate.bind_ok h
  obtain ⟨o, ho, h⟩ := Gate.bind_ok h
  obtain ⟨productId, -, h⟩ := Gate.bind_ok h
  obtain ⟨signature, -, h⟩ := Gate.bind_ok h
  obtain ⟨_, -, h⟩ := Gate.bind_ok h
  cases h
  refine ⟨ho, ?_⟩
  unfold assertTriggerUnset at hunset
  split at hunset
  · cases hunset
  · exact Option.not_isSome_iff_eq_none.1 ‹_›

theorem buildTrigger_ok {p : PlaceTriggerOrder} (h : buildTrigger s b = .ok p) :
    order s b = .ok p.order ∧ b.triggerCriteria = some p.trigger := by
  obtain ⟨o, ho, h⟩ := Gate.bind_ok h
  obtain ⟨productId, -, h⟩ := Gate.bind_ok h
  obtain ⟨trigger, htrigger, h⟩ := Gate.bind_ok h
  obtain ⟨signature, -, h⟩ := Gate.bind_ok h
  obtain ⟨_, -, h⟩ := Gate.bind_ok h
  cases h
  exact ⟨ho, Rust.okOr_eq_ok.1 htrigger⟩

end

/-- **What the gateway supports of what the SDK builds**: on each endpoint everything but FOK
orders, and of the trigger orders those that are sent with the criteria of a price trigger. -/
theorem built_order_supported {s : Surroundings} {b : PlaceOrderBuilder}
    (hopen : b.appendix = none) :
    (∀ p, build s b = .ok p →
      (Execution.ensureSupportedRegularOrder p.order = .ok () ↔
        b.orderType ≠ some .fillOrKill)) ∧
    ∀ p, buildTrigger s b = .ok p →
      (Execution.ensureSupportedTriggerOrder p.order = .ok () ↔
        b.orderType ≠ some .fillOrKill ∧ p.trigger.IsPriceTrigger) := by
  refine ⟨fun p h => ?_, fun p h => ?_⟩
  · obtain ⟨ho, hnone⟩ := build_ok h
    rw [Execution.ensureSupportedRegularOrder_ok, regularOrder_iff ho hopen]
    exact and_iff_left hnone
  · obtain ⟨ho, htrigger⟩ := buildTrigger_ok h
    rw [Execution.ensureSupportedTriggerOrder_ok, triggerOrder_iff ho hopen, htrigger]
    refine and_congr_right fun _ => ?_
    cases p.trigger with
    | priceTrigger requirement dependency => exact iff_of_true ⟨_, _, rfl⟩ trivial
    | timeTrigger interval amounts => exact iff_of_false (fun ⟨_, _, h⟩ => by cases h) id

/-- A stop order of an isolated position. -/
def stopBuilder : PlaceOrderBuilder where
  productId := some 2
  priceX18 := some (2900 * oneX18)
  amount := some (-oneX18)
  orderType := some .postOnly
  triggerCriteria := some (.priceTrigger (.oraclePriceAbove oneX18) none)
  isolated := some true
  margin := some (100 * oneX18)

theorem built_order_supported_desk :
    (∃ p, buildTrigger desk twapBuilder = .ok p ∧
      Execution.ensureSupportedTriggerOrder p.order ≠ .ok ()) ∧
    ∃ p, buildTrigger desk stopBuilder = .ok p ∧
      Execution.ensureSupportedTriggerOrder p.order = .ok () :=
  ⟨⟨_, rfl, fun h =>
      (((built_order_supported (s := desk) (b := twapBuilder) rfl).2 _ rfl).1 h).2⟩,
    ⟨_, rfl, ((built_order_supported (s := desk) (b := stopBuilder) rfl).2 _ rfl).2
      ⟨by decide, trivial⟩⟩⟩

end Sdk
