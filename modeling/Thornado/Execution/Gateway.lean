import Mathlib.Data.List.AList
import Thornado.Execution.Types

/-!
# The execution gateway's checks

`validate_engine_execute` and `validate_trigger_execute` (`gateway/execution/src/main.rs`), with
the functions they call. What the gateway asks of the outside is `Outside`: the contracts query,
the signature library and the engine's linked signer, each a partial function. `linked_signers`,
the local `HashMap` of the signers looked up so far, is the state of `Gate`.
-/

namespace Execution

inductive ApiError where
  | badRequest (message : String)
  | unauthorized (message : String)
  | forbidden (message : String)
  | upstream (message : String)
  | internal (message : String)
  deriving DecidableEq

structure ContractsInfo where
  chainId : UInt64
  endpointAddr : H160

/-- The outside calls. `Sig` is the signature library's type of a parsed signature. -/
structure Outside (Sig : Type) where
  /-- `NadoClient::get_contracts` -/
  getContracts : Except String ContractsInfo
  /-- `Signature::try_from` -/
  signatureTryFrom : Bytes → Except String Sig
  /-- `tx::get_eip712_digest` -/
  eip712Digest : Payload → EIP712Domain → Bytes32
  /-- `Signature::recover` -/
  recover : Sig → Bytes32 → Except String H160
  /-- `NadoClient::get_linked_signer` -/
  getLinkedSigner : Bytes32 → Except String H160

/-- `linked_signers`. -/
abbrev LinkedSigners := AList fun _ : Bytes32 => H160

abbrev Gate := StateT LinkedSigners (Except ApiError)

/-! ## Formatting -/

def hexDigit (n : UInt8) : Char :=
  Char.ofNat (if n < 10 then 48 + n.toNat else 87 + n.toNat)

def hexEncode (bytes : Bytes) : String :=
  String.ofList (bytes.flatMap fun b => [hexDigit (b / 16), hexDigit (b % 16)])

def hexAddress (address : H160) : String := "0x" ++ hexEncode address.toList

def hexSubaccount (subaccount : Bytes32) : String := "0x" ++ hexEncode subaccount.toList

/-! ## Orders and owners -/

/-- The first 20 bytes of a subaccount. -/
def ownerFromSubaccount (sender : Bytes32) : H160 := (sender.take 20).cast rfl

def isZeroAddress (address : H160) : Bool := address.all (· == 0)

def orderTypeBits (order : Order) : BitVec 128 := (order.appendix >>> 9) &&& 0b11#128

def triggerTypeBits (order : Order) : BitVec 128 := (order.appendix >>> 12) &&& 0b11#128

def ensureSupportedRegularOrder (order : Order) : Except ApiError Unit := do
  match orderTypeBits order with
  | 0#128 | 1#128 | 3#128 => pure ()
  | 2#128 => throw (.badRequest "FOK orders are not supported in THORNado execution gateway")
  | _ => throw (.badRequest "unsupported order type in appendix")
  match triggerTypeBits order with
  | 0#128 => pure ()
  | 1#128 => throw (.badRequest "price-trigger orders must use /v1/execute/trigger")
  | _ => throw (.badRequest "TWAP orders are not supported in THORNado execution gateway")

def ensureSupportedTriggerOrder (order : Order) : Except ApiError Unit := do
  match orderTypeBits order with
  | 0#128 | 1#128 | 3#128 => pure ()
  | 2#128 => throw (.badRequest "FOK orders are not supported in THORNado execution gateway")
  | _ => throw (.badRequest "unsupported order type in appendix")
  match triggerTypeBits order with
  | 1#128 => pure ()
  | 0#128 =>
    throw (.badRequest "trigger execute endpoint accepts only stop/take (price-trigger) orders")
  | _ =>
    throw (.badRequest "TWAP trigger orders are not supported in THORNado execution gateway")

section
variable {Sig : Type} (outside : Outside Sig)

/-! ## Signers -/

def fetchContracts : Except ApiError ContractsInfo :=
  outside.getContracts.mapError fun err => .upstream ("failed to fetch contracts: " ++ err)

def recoverTypedSigner {T : Type} [Eip712 T] (payload : T) (signature : Bytes)
    (domain : EIP712Domain) : Except ApiError H160 := do
  if signature.length ≠ 65 then
    throw (.badRequest ("invalid signature length: expected 65 bytes, got "
      ++ toString signature.length))
  else
    let signature ← (outside.signatureTryFrom signature).mapError fun err =>
      ApiError.badRequest ("invalid signature bytes: " ++ err)
    let digest := outside.eip712Digest (Eip712.payload payload) domain
    (outside.recover signature digest).mapError fun err =>
      ApiError.unauthorized ("signature recovery failed: " ++ err)

def recoverOrderSigner (order : Order) (signature : Bytes) (productId : UInt32)
    (chainId : UInt64) : Except ApiError H160 :=
  recoverTypedSigner outside order signature
    (domain chainId.toNat (.fromLowU64Be productId.toUInt64))

def recoverEndpointSigner {T : Type} [Eip712 T] (payload : T) (signature : Bytes)
    (chainId : UInt64) (endpointAddr : H160) : Except ApiError H160 :=
  recoverTypedSigner outside payload signature (domain chainId.toNat endpointAddr)

def linkedSignerForSender (sender : Bytes32) : Gate H160 := do
  match (← get).lookup sender with
  | some signer => pure signer
  | none =>
    let signer ← liftM ((outside.getLinkedSigner sender).mapError fun err =>
      ApiError.upstream ("failed to fetch linked signer for " ++ hexSubaccount sender ++ ": "
        ++ err))
    modify (·.insert sender signer)
    pure signer

def validateSenderAndSigner (sender : Bytes32) (sessionAddress recoveredSigner : H160) :
    Gate Unit := do
  let owner := ownerFromSubaccount sender
  if owner ≠ sessionAddress then
    throw (.forbidden ("sender owner " ++ hexAddress owner ++ " does not match session "
      ++ hexAddress sessionAddress))
  else
    let linkedSigner ← linkedSignerForSender outside sender
    if recoveredSigner = owner then
      pure ()
    else if !isZeroAddress linkedSigner && recoveredSigner = linkedSigner then
      pure ()
    else
      throw (.forbidden ("signature signer " ++ hexAddress recoveredSigner ++ " is not owner "
        ++ hexAddress owner ++ " or linked signer " ++ hexAddress linkedSigner))

def validateEndpointExecute {T : Type} [Eip712 T] [HasSender T] (sessionAddress : H160)
    (contracts : ContractsInfo) (tx : T) (signature : Bytes) : Gate Unit := do
  let recovered ←
    recoverEndpointSigner outside tx signature contracts.chainId contracts.endpointAddr
  validateSenderAndSigner outside (HasSender.sender tx) sessionAddress recovered

/-! ## The two endpoints -/

/-- The checks `validate_engine_execute` makes once it has the contracts. -/
def checkEngineExecute (sessionAddress : H160) (contracts : ContractsInfo) :
    Engine.Execute → Gate Unit
  | .placeOrder placeOrder => do
    ensureSupportedRegularOrder placeOrder.order
    let recovered ← recoverOrderSigner outside placeOrder.order placeOrder.signature
      placeOrder.productId contracts.chainId
    validateSenderAndSigner outside placeOrder.order.sender sessionAddress recovered
  | .cancelOrders tx signature => do
    let recovered ←
      recoverEndpointSigner outside tx signature contracts.chainId contracts.endpointAddr
    validateSenderAndSigner outside tx.sender sessionAddress recovered
  | .cancelProductOrders tx signature _ => do
    let recovered ←
      recoverEndpointSigner outside tx signature contracts.chainId contracts.endpointAddr
    validateSenderAndSigner outside tx.sender sessionAddress recovered
  | .cancelAndPlace cancelTx cancelSignature placeOrder _ => do
    if cancelTx.sender ≠ placeOrder.order.sender then
      throw (.forbidden "cancel_and_place sender mismatch between cancel_tx and place_order")
    else
      ensureSupportedRegularOrder placeOrder.order
      let cancelSigner ← recoverEndpointSigner outside cancelTx cancelSignature
        contracts.chainId contracts.endpointAddr
      validateSenderAndSigner outside cancelTx.sender sessionAddress cancelSigner
      let placeSigner ← recoverOrderSigner outside placeOrder.order placeOrder.signature
        placeOrder.productId contracts.chainId
      validateSenderAndSigner outside placeOrder.order.sender sessionAddress placeSigner
  | .withdrawCollateral tx signature _ _ =>
    validateEndpointExecute outside sessionAddress contracts tx signature
  | .mintNlp tx signature _ =>
    validateEndpointExecute outside sessionAddress contracts tx signature
  | .burnNlp tx signature =>
    validateEndpointExecute outside sessionAddress contracts tx signature
  | .transferQuote tx signature =>
    validateEndpointExecute outside sessionAddress contracts tx signature
  | .linkSigner tx signature =>
    validateEndpointExecute outside sessionAddress contracts tx signature
  | .liquidateSubaccount tx signature =>
    validateEndpointExecute outside sessionAddress contracts tx signature

def validateEngineExecute (sessionAddress : H160) (execute : Engine.Execute) :
    Except ApiError Unit := do
  let contracts ← fetchContracts outside
  (checkEngineExecute outside sessionAddress contracts execute).run' ∅

/-- The checks of one trigger order, made for a single order and for each order of a batch. -/
def checkTriggerOrder (sessionAddress : H160) (contracts : ContractsInfo)
    (order : PlaceTriggerOrder) : Gate Unit := do
  ensureSupportedTriggerOrder order.order
  let recovered ← recoverOrderSigner outside order.order order.signature order.productId
    contracts.chainId
  validateSenderAndSigner outside order.order.sender sessionAddress recovered

/-- The checks `validate_trigger_execute` makes once it has the contracts. -/
def checkTriggerExecute (sessionAddress : H160) (contracts : ContractsInfo) :
    Trigger.Execute → Gate Unit
  | .placeOrder order => checkTriggerOrder outside sessionAddress contracts order
  | .placeOrders orders _ => do
    if orders.isEmpty then
      throw (.badRequest "place_orders requires at least one order")
    else
      orders.forM (checkTriggerOrder outside sessionAddress contracts)
  | .cancelOrders tx signature => do
    let recovered ←
      recoverEndpointSigner outside tx signature contracts.chainId contracts.endpointAddr
    validateSenderAndSigner outside tx.sender sessionAddress recovered
  | .cancelProductOrders tx signature => do
    let recovered ←
      recoverEndpointSigner outside tx signature contracts.chainId contracts.endpointAddr
    validateSenderAndSigner outside tx.sender sessionAddress recovered

def validateTriggerExecute (sessionAddress : H160) (execute : Trigger.Execute) :
    Except ApiError Unit := do
  let contracts ← fetchContracts outside
  (checkTriggerExecute outside sessionAddress contracts execute).run' ∅

/-- The body `post_execute` sends on to the engine. -/
def postExecute (sessionAddress : H160) (execute : Engine.Execute) :
    Except ApiError Engine.Execute := do
  validateEngineExecute outside sessionAddress execute
  pure execute

/-- The body `post_execute_trigger` sends on to the trigger service. -/
def postExecuteTrigger (sessionAddress : H160) (execute : Trigger.Execute) :
    Except ApiError Trigger.Execute := do
  validateTriggerExecute outside sessionAddress execute
  pure execute

end

end Execution
