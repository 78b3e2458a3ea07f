/-!
# The requests of the execution gateway

The signed structures of the SDK (`nado_utils/eip712_structs.rs`) and the two request enums the
gateway deserializes: `engine::Execute` (`nado_utils/engine.rs`) and `trigger::Execute`
(`nado_utils/trigger.rs`). `u32`/`u64` are `UInt32`/`UInt64`, a `u128` whose bits are read is a
`BitVec 128`, other 128-bit amounts are `Nat`/`Int` (the gateway only passes them to the signer
recovery). A place order's fields that only travel through to the engine (`digest`, `id`,
`spot_leverage`, `borrow_margin`) are left out.
-/

namespace Execution

abbrev Bytes := List UInt8

/-- A subaccount: 20 bytes of owner address, 12 bytes of name. -/
abbrev Bytes32 := Vector UInt8 32

abbrev H160 := Vector UInt8 20

/-- `H160::from_low_u64_be`: the low 8 bytes hold `n`, big endian. -/
def H160.fromLowU64Be (n : UInt64) : H160 :=
  Vector.ofFn fun i => if i.val < 12 then 0 else (n >>> (8 * (19 - i.val)).toUInt64).toUInt8

/-! ## The signed structures -/

structure Order where
  sender : Bytes32
  priceX18 : Int
  amount : Int
  expiration : UInt64
  nonce : UInt64
  appendix : BitVec 128
  deriving DecidableEq

structure Cancellation where
  sender : Bytes32
  productIds : List UInt32
  digests : List Bytes32
  nonce : UInt64
  deriving DecidableEq

structure CancellationProducts where
  sender : Bytes32
  productIds : List UInt32
  nonce : UInt64
  deriving DecidableEq

structure LinkSigner where
  sender : Bytes32
  signer : Bytes32
  nonce : UInt64
  deriving DecidableEq

structure LiquidateSubaccount where
  sender : Bytes32
  liquidatee : Bytes32
  productId : UInt32
  isEncodedSpread : Bool
  amount : Int
  nonce : UInt64
  deriving DecidableEq

structure WithdrawCollateral where
  sender : Bytes32
  productId : UInt32
  amount : Nat
  nonce : UInt64
  deriving DecidableEq

structure MintNlp where
  sender : Bytes32
  quoteAmount : Nat
  nonce : UInt64
  deriving DecidableEq

structure BurnNlp where
  sender : Bytes32
  nlpAmount : Nat
  nonce : UInt64
  deriving DecidableEq

structure TransferQuote where
  sender : Bytes32
  recipient : Bytes32
  amount : Nat
  nonce : UInt64
  deriving DecidableEq

/-- What an EIP-712 digest is computed from: the structure's type and its fields. -/
inductive Payload where
  | order (o : Order)
  | cancellation (tx : Cancellation)
  | cancellationProducts (tx : CancellationProducts)
  | withdrawCollateral (tx : WithdrawCollateral)
  | mintNlp (tx : MintNlp)
  | burnNlp (tx : BurnNlp)
  | transferQuote (tx : TransferQuote)
  | linkSigner (tx : LinkSigner)
  | liquidateSubaccount (tx : LiquidateSubaccount)
  deriving DecidableEq

/-- The SDK's derived `Eip712` implementations. -/
class Eip712 (T : Type) where
  payload : T → Payload

/-- The gateway's `HasSender` trait. -/
class HasSender (T : Type) where
  sender : T → Bytes32

instance : Eip712 Order := ⟨.order⟩
instance : Eip712 Cancellation := ⟨.cancellation⟩
instance : Eip712 CancellationProducts := ⟨.cancellationProducts⟩
instance : Eip712 WithdrawCollateral := ⟨.withdrawCollateral⟩
instance : Eip712 MintNlp := ⟨.mintNlp⟩
instance : Eip712 BurnNlp := ⟨.burnNlp⟩
instance : Eip712 TransferQuote := ⟨.transferQuote⟩
instance : Eip712 LinkSigner := ⟨.linkSigner⟩
instance : Eip712 LiquidateSubaccount := ⟨.liquidateSubaccount⟩

instance : HasSender WithdrawCollateral := ⟨(·.sender)⟩
instance : HasSender MintNlp := ⟨(·.sender)⟩
instance : HasSender BurnNlp := ⟨(·.sender)⟩
instance : HasSender TransferQuote := ⟨(·.sender)⟩
instance : HasSender LinkSigner := ⟨(·.sender)⟩
instance : HasSender LiquidateSubaccount := ⟨(·.sender)⟩

/-- `EIP712Domain` as `tx::domain` builds it. -/
structure EIP712Domain where
  name : Option String
  version : Option String
  chainId : Option Nat
  verifyingContract : Option H160
  deriving DecidableEq

/-- `tx::domain`. -/
def domain (chainId : Nat) (verifyingContract : H160) : EIP712Domain where
  name := some "Nado"
  version := some "0.0.1"
  chainId := some chainId
  verifyingContract := some verifyingContract

/-! ## The requests -/

structure PlaceOrder where
  productId : UInt32
  order : Order
  signature : Bytes

/-- `engine::Execute`. -/
inductive Engine.Execute where
  | liquidateSubaccount (tx : LiquidateSubaccount) (signature : Bytes)
  | withdrawCollateral (tx : WithdrawCollateral) (signature : Bytes)
      (spotLeverage sequencerRiskCheck : Option Bool)
  | placeOrder (placeOrder : PlaceOrder)
  | cancelOrders (tx : Cancellation) (signature : Bytes)
  | cancelProductOrders (tx : CancellationProducts) (signature : Bytes) (digest : Option Bytes32)
  | linkSigner (tx : LinkSigner) (signature : Bytes)
  | cancelAndPlace (cancelTx : Cancellation) (cancelSignature : Bytes) (placeOrder : PlaceOrder)
      (placeRequiresUnfilled : Option Bool)
  | transferQuote (tx : TransferQuote) (signature : Bytes)
  | mintNlp (tx : MintNlp) (signature : Bytes) (spotLeverage : Option Bool)
  | burnNlp (tx : BurnNlp) (signature : Bytes)

inductive PriceRequirement where
  | oraclePriceAbove (price : Int)
  | oraclePriceBelow (price : Int)
  | lastPriceAbove (price : Int)
  | lastPriceBelow (price : Int)
  | midPriceAbove (price : Int)
  | midPriceBelow (price : Int)
  deriving DecidableEq

structure Dependency where
  digest : Bytes32
  onPartialFill : Bool
  deriving DecidableEq

/-- The criteria sent next to a trigger order; the order's signature does not cover it. -/
inductive TriggerCriteria where
  | priceTrigger (priceRequirement : PriceRequirement) (dependency : Option Dependency)
  | timeTrigger (interval : UInt64) (amounts : Option (List Int))
  deriving DecidableEq

structure PlaceTriggerOrder where
  order : Order
  signature : Bytes
  productId : UInt32
  trigger : TriggerCriteria

/-- `trigger::Execute`. -/
inductive Trigger.Execute where
  | placeOrder (order : PlaceTriggerOrder)
  | placeOrders (orders : List PlaceTriggerOrder) (stopOnFailure : Option Bool)
  | cancelOrders (tx : Cancellation) (signature : Bytes)
  | cancelProductOrders (tx : CancellationProducts) (signature : Bytes)

end Execution
