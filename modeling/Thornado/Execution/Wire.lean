import Mathlib
import Thornado.Execution.Policy
import Thornado.Sdk.SerializeUtils

/-!
# Requests on the wire

`post_execute` and `post_execute_trigger` read a request from the body of the client's request,
validate it, and send it upstream written anew. The formats are those that `serde` derives for
`engine::Execute` (`nado_utils/engine.rs`), `trigger::Execute` (`nado_utils/trigger.rs`) and the
signed structures (`nado_utils/eip712_structs.rs`).

* `forwarded_decodes`: what the engine reads is the request that was validated, with everything
  that travels next to the orders.
-/

namespace Execution

open Rust Rust.Json Rust.Serde Sdk

/-! ## The signed structures -/

section
variable {F : Type} (parsers : HexParsers F)

def orderCodec : Codec (Value F) DeError Order :=
  record
    (((req "sender" (bytes32 parsers)).and <| (req "priceX18" i128Text).and <|
        (req "amount" i128Text).and <| (req "expiration" u64Text).and <|
        (req "nonce" u64Text).and <| req "appendix" bitsText).congr
      ⟨fun (sender, priceX18, amount, expiration, nonce, appendix) =>
          ⟨sender, priceX18, amount, expiration, nonce, appendix⟩,
        fun o => (o.sender, o.priceX18, o.amount, o.expiration, o.nonce, o.appendix),
        fun _ => rfl, fun _ => rfl⟩)
    (by simp)

def cancellationCodec : Codec (Value F) DeError Cancellation :=
  record
    (((req "sender" (bytes32 parsers)).and <| (req "productIds" (vec u32)).and <|
        (req "digests" (vec (h256 parsers))).and <| req "nonce" u64Text).congr
      ⟨fun (sender, productIds, digests, nonce) => ⟨sender, productIds, digests, nonce⟩,
        fun tx => (tx.sender, tx.productIds, tx.digests, tx.nonce), fun _ => rfl, fun _ => rfl⟩)
    (by simp)

def cancellationProductsCodec : Codec (Value F) DeError CancellationProducts :=
  record
    (((req "sender" (bytes32 parsers)).and <| (req "productIds" (vec u32)).and <|
        req "nonce" u64Text).congr
      ⟨fun (sender, productIds, nonce) => ⟨sender, productIds, nonce⟩,
        fun tx => (tx.sender, tx.productIds, tx.nonce), fun _ => rfl, fun _ => rfl⟩)
    (by simp)

def linkSignerCodec : Codec (Value F) DeError LinkSigner :=
  record
    (((req "sender" (bytes32 parsers)).and <| (req "signer" (bytes32 parsers)).and <|
        req "nonce" u64Text).congr
      ⟨fun (sender, signer, nonce) => ⟨sender, signer, nonce⟩,
        fun tx => (tx.sender, tx.signer, tx.nonce), fun _ => rfl, fun _ => rfl⟩)
    (by simp)

def liquidateSubaccountCodec : Codec (Value F) DeError LiquidateSubaccount :=
  record
    (((req "sender" (bytes32 parsers)).and <| (req "liquidatee" (bytes32 parsers)).and <|
        (req "productId" u32).and <| (req "isEncodedSpread" bool).and <|
        (req "amount" i128Text).and <| req "nonce" u64Text).congr
      ⟨fun (sender, liquidatee, productId, isEncodedSpread, amount, nonce) =>
          ⟨sender, liquidatee, productId, isEncodedSpread, amount, nonce⟩,
        fun tx => (tx.sender, tx.liquidatee, tx.productId, tx.isEncodedSpread, tx.amount, tx.nonce),
        fun _ => rfl, fun _ => rfl⟩)
    (by simp)

def withdrawCollateralCodec : Codec (Value F) DeError WithdrawCollateral :=
  record
    (((req "sender" (bytes32 parsers)).and <| (req "productId" u32).and <|
        (req "amount" u128Text).and <| req "nonce" u64Text).congr
      ⟨fun (sender, productId, amount, nonce) => ⟨sender, productId, amount, nonce⟩,
        fun tx => (tx.sender, tx.productId, tx.amount, tx.nonce), fun _ => rfl, fun _ => rfl⟩)
    (by simp)

def mintNlpCodec : Codec (Value F) DeError MintNlp :=
  record
    (((req "sender" (bytes32 parsers)).and <| (req "quoteAmount" u128Text).and <|
        req "nonce" u64Text).congr
      ⟨fun (sender, quoteAmount, nonce) => ⟨sender, quoteAmount, nonce⟩,
        fun tx => (tx.sender, tx.quoteAmount, tx.nonce), fun _ => rfl, fun _ => rfl⟩)
    (by simp)

def burnNlpCodec : Codec (Value F) DeError BurnNlp :=
  record
    (((req "sender" (bytes32 parsers)).and <| (req "nlpAmount" u128Text).and <|
        req "nonce" u64Text).congr
      ⟨fun (sender, nlpAmount, nonce) => ⟨sender, nlpAmount, nonce⟩,
        fun tx => (tx.sender, tx.nlpAmount, tx.nonce), fun _ => rfl, fun _ => rfl⟩)
    (by simp)

def transferQuoteCodec : Codec (Value F) DeError TransferQuote :=
  record
    (((req "sender" (bytes32 parsers)).and <| (req "recipient" (bytes32 parsers)).and <|
        (req "amount" u128Text).and <| req "nonce" u64Text).congr
      ⟨fun (sender, recipient, amount, nonce) => ⟨sender, recipient, amount, nonce⟩,
        fun tx => (tx.sender, tx.recipient, tx.amount, tx.nonce), fun _ => rfl, fun _ => rfl⟩)
    (by simp)

end

/-! ## Requests to the engine -/

/-- `engine::PlaceOrder` with what only travels through to the engine. -/
structure PlaceOrderBody where
  placeOrder : PlaceOrder
  digest : Option Bytes32
  id : Option UInt64
  spotLeverage : Option Bool
  borrowMargin : Option Bool

/-- `engine::Execute` with everything a body says. -/
inductive Engine.Body where
  | liquidateSubaccount (tx : LiquidateSubaccount) (signature : Bytes)
  | withdrawCollateral (tx : WithdrawCollateral) (signature : Bytes)
      (spotLeverage sequencerRiskCheck : Option Bool)
  | placeOrder (placeOrder : PlaceOrderBody)
  | cancelOrders (tx : Cancellation) (signature : Bytes)
  | cancelProductOrders (tx : CancellationProducts) (signature : Bytes) (digest : Option Bytes32)
  | linkSigner (tx : LinkSigner) (signature : Bytes)
  | cancelAndPlace (cancelTx : Cancellation) (cancelSignature : Bytes) (placeOrder : PlaceOrderBody)
      (placeRequiresUnfilled : Option Bool)
  | transferQuote (tx : TransferQuote) (signature : Bytes)
  | mintNlp (tx : MintNlp) (signature : Bytes) (spotLeverage : Option Bool)
  | burnNlp (tx : BurnNlp) (signature : Bytes)

/-- What is validated of a body. -/
def Engine.Body.execute : Engine.Body → Engine.Execute
  | .liquidateSubaccount tx signature => .liquidateSubaccount tx signature
  | .withdrawCollateral tx signature spotLeverage sequencerRiskCheck =>
    .withdrawCollateral tx signature spotLeverage sequencerRiskCheck
  | .placeOrder p => .placeOrder p.placeOrder
  | .cancelOrders tx signature => .cancelOrders tx signature
  | .cancelProductOrders tx signature digest => .cancelProductOrders tx signature digest
  | .linkSigner tx signature => .linkSigner tx signature
  | .cancelAndPlace cancelTx cancelSignature p placeRequiresUnfilled =>
    .cancelAndPlace cancelTx cancelSignature p.placeOrder placeRequiresUnfilled
  | .transferQuote tx signature => .transferQuote tx signature
  | .mintNlp tx signature spotLeverage => .mintNlp tx signature spotLeverage
  | .burnNlp tx signature => .burnNlp tx signature

section
variable {F : Type} (parsers : HexParsers F)

def placeOrderCodec : Codec (Value F) DeError PlaceOrderBody :=
  record
    (((req "order" (orderCodec parsers)).and <| (req "signature" (vecU8 parsers)).and <|
        (req "product_id" u32).and <|
        (optDefault "digest" (bytes32 parsers) (solid_bytes32 parsers)).and <|
        (optSkipped "id" u64 solid_u64).and <| (opt "spot_leverage" bool solid_bool).and <|
        opt "borrow_margin" bool solid_bool).congr
      ⟨fun (order, signature, productId, digest, id, spotLeverage, borrowMargin) =>
          ⟨⟨productId, order, signature⟩, digest, id, spotLeverage, borrowMargin⟩,
        fun p => (p.placeOrder.order, p.placeOrder.signature, p.placeOrder.productId, p.digest,
          p.id, p.spotLeverage, p.borrowMargin),
        fun _ => rfl, fun _ => rfl⟩)
    (by simp)

/-- The variants of a transaction and its signature. -/
def signed {T : Type} (tx : Codec (Value F) DeError T) : Codec (Value F) DeError (T × Bytes) :=
  record ((req "tx" tx).and (req "signature" (vecU8 parsers))) (by simp)

def withdrawCodec :
    Codec (Value F) DeError (WithdrawCollateral × Bytes × Option Bool × Option Bool) :=
  record
    ((req "tx" (withdrawCollateralCodec parsers)).and <| (req "signature" (vecU8 parsers)).and <|
      (opt "spot_leverage" bool solid_bool).and <|
      opt "sequencer_risk_check" bool solid_bool)
    (by simp)

def cancelProductsCodec :
    Codec (Value F) DeError (CancellationProducts × Bytes × Option Bytes32) :=
  record
    ((req "tx" (cancellationProductsCodec parsers)).and <|
      (req "signature" (vecU8 parsers)).and <|
      optDefault "digest" (bytes32 parsers) (solid_bytes32 parsers))
    (by simp)

def cancelAndPlaceCodec :
    Codec (Value F) DeError (Cancellation × Bytes × PlaceOrderBody × Option Bool) :=
  record
    ((req "cancel_tx" (cancellationCodec parsers)).and <|
      (req "cancel_signature" (vecU8 parsers)).and <|
      (req "place_order" (placeOrderCodec parsers)).and <|
      optDefault "place_requires_unfilled" bool solid_bool)
    (by simp)

def mintCodec : Codec (Value F) DeError (MintNlp × Bytes × Option Bool) :=
  record
    ((req "tx" (mintNlpCodec parsers)).and <| (req "signature" (vecU8 parsers)).and <|
      opt "spot_leverage" bool solid_bool)
    (by simp)

/-- `engine::Execute`. -/
def engineCodec : Codec (Value F) DeError Engine.Body where
  encode
    | .liquidateSubaccount tx signature =>
      tagged "liquidate_subaccount"
        ((signed parsers (liquidateSubaccountCodec parsers)).encode (tx, signature))
    | .withdrawCollateral tx signature spotLeverage sequencerRiskCheck =>
      tagged "withdraw_collateral"
        ((withdrawCodec parsers).encode (tx, signature, spotLeverage, sequencerRiskCheck))
    | .placeOrder p => tagged "place_order" ((placeOrderCodec parsers).encode p)
    | .cancelOrders tx signature =>
      tagged "cancel_orders" ((signed parsers (cancellationCodec parsers)).encode (tx, signature))
    | .cancelProductOrders tx signature digest =>
      tagged "cancel_product_orders" ((cancelProductsCodec parsers).encode (tx, signature, digest))
    | .linkSigner tx signature =>
      tagged "link_signer" ((signed parsers (linkSignerCodec parsers)).encode (tx, signature))
    | .cancelAndPlace cancelTx cancelSignature p placeRequiresUnfilled =>
      tagged "cancel_and_place" ((cancelAndPlaceCodec parsers).encode
        (cancelTx, cancelSignature, p, placeRequiresUnfilled))
    | .transferQuote tx signature =>
      tagged "transfer_quote" ((signed parsers (transferQuoteCodec parsers)).encode (tx, signature))
    | .mintNlp tx signature spotLeverage =>
      tagged "mint_nlp" ((mintCodec parsers).encode (tx, signature, spotLeverage))
    | .burnNlp tx signature =>
      tagged "burn_nlp" ((signed parsers (burnNlpCodec parsers)).encode (tx, signature))
  decode doc :=
    (variantOf doc).bind fun (variant, content) =>
      match variant with
      | "liquidate_subaccount" =>
        ((signed parsers (liquidateSubaccountCodec parsers)).decode content).map
          fun (tx, signature) => .liquidateSubaccount tx signature
      | "withdraw_collateral" =>
        ((withdrawCodec parsers).decode content).map
          fun (tx, signature, spotLeverage, sequencerRiskCheck) =>
            .withdrawCollateral tx signature spotLeverage sequencerRiskCheck
      | "place_order" => ((placeOrderCodec parsers).decode content).map .placeOrder
      | "cancel_orders" =>
        ((signed parsers (cancellationCodec parsers)).decode content).map
          fun (tx, signature) => .cancelOrders tx signature
      | "cancel_product_orders" =>
        ((cancelProductsCodec parsers).decode content).map
          fun (tx, signature, digest) => .cancelProductOrders tx signature digest
      | "link_signer" =>
        ((signed parsers (linkSignerCodec parsers)).decode content).map
          fun (tx, signature) => .linkSigner tx signature
      | "cancel_and_place" =>
        ((cancelAndPlaceCodec parsers).decode content).map
          fun (cancelTx, cancelSignature, p, placeRequiresUnfilled) =>
            .cancelAndPlace cancelTx cancelSignature p placeRequiresUnfilled
      | "transfer_quote" =>
        ((signed parsers (transferQuoteCodec parsers)).decode content).map
          fun (tx, signature) => .transferQuote tx signature
      | "mint_nlp" =>
        ((mintCodec parsers).decode content).map
          fun (tx, signature, spotLeverage) => .mintNlp tx signature spotLeverage
      | "burn_nlp" =>
        ((signed parsers (burnNlpCodec parsers)).decode content).map
          fun (tx, signature) => .burnNlp tx signature
      | _ => .error (.unknownVariant variant)
  Valid
    | .liquidateSubaccount tx signature =>
      (signed parsers (liquidateSubaccountCodec (F := F) parsers)).Valid (tx, signature)
    | .withdrawCollateral tx signature spotLeverage sequencerRiskCheck =>
      (withdrawCodec parsers).Valid (tx, signature, spotLeverage, sequencerRiskCheck)
    | .placeOrder p => (placeOrderCodec parsers).Valid p
    | .cancelOrders tx signature =>
      (signed parsers (cancellationCodec parsers)).Valid (tx, signature)
    | .cancelProductOrders tx signature digest =>
      (cancelProductsCodec parsers).Valid (tx, signature, digest)
    | .linkSigner tx signature => (signed parsers (linkSignerCodec parsers)).Valid (tx, signature)
    | .cancelAndPlace cancelTx cancelSignature p placeRequiresUnfilled =>
      (cancelAndPlaceCodec parsers).Valid (cancelTx, cancelSignature, p, placeRequiresUnfilled)
    | .transferQuote tx signature =>
      (signed parsers (transferQuoteCodec parsers)).Valid (tx, signature)
    | .mintNlp tx signature spotLeverage => (mintCodec parsers).Valid (tx, signature, spotLeverage)
    | .burnNlp tx signature => (signed parsers (burnNlpCodec parsers)).Valid (tx, signature)
  valid_of_decode {doc body} h := by
    obtain ⟨⟨variant, content⟩, -, h⟩ := Gate.bind_ok h
    dsimp only at h
    split at h
    all_goals first
      | cases h
      | obtain ⟨p, hp, rfl⟩ := Codec.map_eq_ok.1 h
        exact Codec.valid_of_decode _ hp
  decode_encode {body} h := by
    cases body with
    | liquidateSubaccount tx signature =>
      exact Codec.map_eq_ok.2 ⟨_, Codec.decode_encode _ h, rfl⟩
    | withdrawCollateral tx signature spotLeverage sequencerRiskCheck =>
      exact Codec.map_eq_ok.2 ⟨_, Codec.decode_encode _ h, rfl⟩
    | placeOrder p => exact Codec.map_eq_ok.2 ⟨_, Codec.decode_encode _ h, rfl⟩
    | cancelOrders tx signature => exact Codec.map_eq_ok.2 ⟨_, Codec.decode_encode _ h, rfl⟩
    | cancelProductOrders tx signature digest =>
      exact Codec.map_eq_ok.2 ⟨_, Codec.decode_encode _ h, rfl⟩
    | linkSigner tx signature => exact Codec.map_eq_ok.2 ⟨_, Codec.decode_encode _ h, rfl⟩
    | cancelAndPlace cancelTx cancelSignature p placeRequiresUnfilled =>
      exact Codec.map_eq_ok.2 ⟨_, Codec.decode_encode _ h, rfl⟩
    | transferQuote tx signature => exact Codec.map_eq_ok.2 ⟨_, Codec.decode_encode _ h, rfl⟩
    | mintNlp tx signature spotLeverage =>
      exact Codec.map_eq_ok.2 ⟨_, Codec.decode_encode _ h, rfl⟩
    | burnNlp tx signature => exact Codec.map_eq_ok.2 ⟨_, Codec.decode_encode _ h, rfl⟩

end

/-! ## Requests to the trigger service -/

def PriceRequirement.price : PriceRequirement → Int
  | .oraclePriceAbove price | .oraclePriceBelow price | .lastPriceAbove price
  | .lastPriceBelow price | .midPriceAbove price | .midPriceBelow price => price

def PriceRequirement.variant : PriceRequirement → String
  | .oraclePriceAbove _ => "oracle_price_above"
  | .oraclePriceBelow _ => "oracle_price_below"
  | .lastPriceAbove _ => "last_price_above"
  | .lastPriceBelow _ => "last_price_below"
  | .midPriceAbove _ => "mid_price_above"
  | .midPriceBelow _ => "mid_price_below"

def PriceRequirement.ofVariant : String → Option (Int → PriceRequirement)
  | "oracle_price_above" => some .oraclePriceAbove
  | "oracle_price_below" => some .oraclePriceBelow
  | "last_price_above" => some .lastPriceAbove
  | "last_price_below" => some .lastPriceBelow
  | "mid_price_above" => some .midPriceAbove
  | "mid_price_below" => some .midPriceBelow
  | _ => none

theorem PriceRequirement.ofVariant_variant (r : PriceRequirement) :
    ∃ f, ofVariant r.variant = some f ∧ f r.price = r := by
  cases r <;> exact ⟨_, rfl, rfl⟩

theorem PriceRequirement.price_ofVariant {variant : String} {f : Int → PriceRequirement}
    (h : ofVariant variant = some f) (price : Int) : (f price).price = price := by
  unfold ofVariant at h
  split at h
  all_goals cases h
  all_goals rfl

section
variable {F : Type} (parsers : HexParsers F)

def priceRequirementCodec : Codec (Value F) DeError PriceRequirement where
  encode r := tagged r.variant (i128Text.encode r.price)
  decode doc :=
    (variantOf doc).bind fun (variant, content) =>
      match PriceRequirement.ofVariant variant with
      | none => .error (.unknownVariant variant)
      | some f => (i128Text.decode content).map f
  Valid r := InI128 r.price
  valid_of_decode {doc r} h := by
    obtain ⟨⟨variant, content⟩, -, h⟩ := Gate.bind_ok h
    dsimp only at h
    split at h
    · cases h
    · rename_i f hf
      obtain ⟨price, hprice, rfl⟩ := Codec.map_eq_ok.1 h
      rw [PriceRequirement.price_ofVariant hf]
      exact i128Text.valid_of_decode hprice
  decode_encode {r} h := by
    obtain ⟨f, hf, heq⟩ := r.ofVariant_variant
    show (match PriceRequirement.ofVariant r.variant with
      | none => _
      | some f => _) = _
    rw [hf]
    exact Codec.map_eq_ok.2 ⟨r.price, i128Text.decode_encode h, heq⟩

def dependencyCodec : Codec (Value F) DeError Dependency :=
  record
    (((req "digest" (h256 parsers)).and <| req "on_partial_fill" bool).congr
      ⟨fun (digest, onPartialFill) => ⟨digest, onPartialFill⟩,
        fun d => (d.digest, d.onPartialFill), fun _ => rfl, fun _ => rfl⟩)
    (by simp)

theorem solid_dependency : Solid (dependencyCodec parsers) := solid_record _ _

def priceTriggerCodec : Codec (Value F) DeError (PriceRequirement × Option Dependency) :=
  record
    ((req "price_requirement" priceRequirementCodec).and <|
      opt "dependency" (dependencyCodec parsers) (solid_dependency parsers))
    (by simp)

def timeTriggerCodec : Codec (Value F) DeError (UInt64 × Option (List Int)) :=
  record ((req "interval" u64).and <| opt "amounts" (vec i128Text) (solid_vec _)) (by simp)

def triggerCriteriaCodec : Codec (Value F) DeError TriggerCriteria where
  encode
    | .priceTrigger priceRequirement dependency =>
      tagged "price_trigger" ((priceTriggerCodec parsers).encode (priceRequirement, dependency))
    | .timeTrigger interval amounts =>
      tagged "time_trigger" (timeTriggerCodec.encode (interval, amounts))
  decode doc :=
    (variantOf doc).bind fun (variant, content) =>
      match variant with
      | "price_trigger" =>
        ((priceTriggerCodec parsers).decode content).map
          fun (priceRequirement, dependency) => .priceTrigger priceRequirement dependency
      | "time_trigger" =>
        (timeTriggerCodec.decode content).map
          fun (interval, amounts) => .timeTrigger interval amounts
      | _ => .error (.unknownVariant variant)
  Valid
    | .priceTrigger priceRequirement dependency =>
      (priceTriggerCodec parsers).Valid (priceRequirement, dependency)
    | .timeTrigger interval amounts => (timeTriggerCodec (F := F)).Valid (interval, amounts)
  valid_of_decode {doc criteria} h := by
    obtain ⟨⟨variant, content⟩, -, h⟩ := Gate.bind_ok h
    dsimp only at h
    split at h
    all_goals first
      | cases h
      | obtain ⟨p, hp, rfl⟩ := Codec.map_eq_ok.1 h
        exact Codec.valid_of_decode _ hp
  decode_encode {criteria} h := by
    cases criteria with
    | priceTrigger priceRequirement dependency =>
      exact Codec.map_eq_ok.2 ⟨_, Codec.decode_encode _ h, rfl⟩
    | timeTrigger interval amounts =>
      exact Codec.map_eq_ok.2 ⟨_, Codec.decode_encode _ h, rfl⟩

end

/-- `trigger::PlaceTriggerOrder` with what only travels through. -/
structure PlaceTriggerOrderBody where
  placeOrder : PlaceTriggerOrder
  spotLeverage : Option Bool
  borrowMargin : Option Bool
  digest : Option Bytes32
  id : Option UInt64

/-- `trigger::Execute` with everything a body says. -/
inductive Trigger.Body where
  | placeOrder (order : PlaceTriggerOrderBody)
  | placeOrders (orders : List PlaceTriggerOrderBody) (stopOnFailure : Option Bool)
  | cancelOrders (tx : Cancellation) (signature : Bytes)
  | cancelProductOrders (tx : CancellationProducts) (signature : Bytes)

/-- What is validated of a body. -/
def Trigger.Body.execute : Trigger.Body → Trigger.Execute
  | .placeOrder p => .placeOrder p.placeOrder
  | .placeOrders ps stopOnFailure => .placeOrders (ps.map (·.placeOrder)) stopOnFailure
  | .cancelOrders tx signature => .cancelOrders tx signature
  | .cancelProductOrders tx signature => .cancelProductOrders tx signature

section
variable {F : Type} (parsers : HexParsers F)

def placeTriggerOrderCodec : Codec (Value F) DeError PlaceTriggerOrderBody :=
  record
    (((req "order" (orderCodec parsers)).and <| (req "signature" (bytes parsers)).and <|
        (req "product_id" u32).and <| (opt "spot_leverage" bool solid_bool).and <|
        (opt "borrow_margin" bool solid_bool).and <|
        (req "trigger" (triggerCriteriaCodec parsers)).and <|
        (opt "digest" (h256 parsers) (solid_h256 parsers)).and <|
        opt "id" u64 solid_u64).congr
      ⟨fun (order, signature, productId, spotLeverage, borrowMargin, trigger, digest, id) =>
          ⟨⟨order, signature, productId, trigger⟩, spotLeverage, borrowMargin, digest, id⟩,
        fun p => (p.placeOrder.order, p.placeOrder.signature, p.placeOrder.productId,
          p.spotLeverage, p.borrowMargin, p.placeOrder.trigger, p.digest, p.id),
        fun _ => rfl, fun _ => rfl⟩)
    (by simp)

def placeTriggerOrdersCodec :
    Codec (Value F) DeError (List PlaceTriggerOrderBody × Option Bool) :=
  record
    ((req "orders" (vec (placeTriggerOrderCodec parsers))).and <|
      opt "stop_on_failure" bool solid_bool)
    (by simp)

/-- Like `signed`, with a signature of type `Bytes`. -/
def signedBytes {T : Type} (tx : Codec (Value F) DeError T) : Codec (Value F) DeError (T × Bytes) :=
  record ((req "tx" tx).and (req "signature" (bytes parsers))) (by simp)

/-- `trigger::Execute`. -/
def triggerCodec : Codec (Value F) DeError Trigger.Body where
  encode
    | .placeOrder p => tagged "place_order" ((placeTriggerOrderCodec parsers).encode p)
    | .placeOrders ps stopOnFailure =>
      tagged "place_orders" ((placeTriggerOrdersCodec parsers).encode (ps, stopOnFailure))
    | .cancelOrders tx signature =>
      tagged "cancel_orders"
        ((signedBytes parsers (cancellationCodec parsers)).encode (tx, signature))
    | .cancelProductOrders tx signature =>
      tagged "cancel_product_orders"
        ((signedBytes parsers (cancellationProductsCodec parsers)).encode (tx, signature))
  decode doc :=
    (variantOf doc).bind fun (variant, content) =>
      match variant with
      | "place_order" => ((placeTriggerOrderCodec parsers).decode content).map .placeOrder
      | "place_orders" =>
        ((placeTriggerOrdersCodec parsers).decode content).map
          fun (orders, stopOnFailure) => .placeOrders orders stopOnFailure
      | "cancel_orders" =>
        ((signedBytes parsers (cancellationCodec parsers)).decode content).map
          fun (tx, signature) => .cancelOrders tx signature
      | "cancel_product_orders" =>
        ((signedBytes parsers (cancellationProductsCodec parsers)).decode content).map
          fun (tx, signature) => .cancelProductOrders tx signature
      | _ => .error (.unknownVariant variant)
  Valid
    | .placeOrder p => (placeTriggerOrderCodec parsers).Valid p
    | .placeOrders ps stopOnFailure => (placeTriggerOrdersCodec parsers).Valid (ps, stopOnFailure)
    | .cancelOrders tx signature =>
      (signedBytes parsers (cancellationCodec parsers)).Valid (tx, signature)
    | .cancelProductOrders tx signature =>
      (signedBytes parsers (cancellationProductsCodec parsers)).Valid (tx, signature)
  valid_of_decode {doc body} h := by
    obtain ⟨⟨variant, content⟩, -, h⟩ := Gate.bind_ok h
    dsimp only at h
    split at h
    all_goals first
      | cases h
      | obtain ⟨p, hp, rfl⟩ := Codec.map_eq_ok.1 h
        exact Codec.valid_of_decode _ hp
  decode_encode {body} h := by
    cases body with
    | placeOrder p => exact Codec.map_eq_ok.2 ⟨_, Codec.decode_encode _ h, rfl⟩
    | placeOrders ps stopOnFailure => exact Codec.map_eq_ok.2 ⟨_, Codec.decode_encode _ h, rfl⟩
    | cancelOrders tx signature => exact Codec.map_eq_ok.2 ⟨_, Codec.decode_encode _ h, rfl⟩
    | cancelProductOrders tx signature =>
      exact Codec.map_eq_ok.2 ⟨_, Codec.decode_encode _ h, rfl⟩

end

/-! ## The handlers -/

/-- How a request ends that is not sent upstream. -/
inductive Rejection where
  | body (e : DeError)
  | api (e : ApiError)

section
variable {F Sig : Type} (parsers : HexParsers F) (outside : Outside Sig) (sessionAddress : H160)

/-- `post_execute`, up to what is sent to the engine. -/
def forwardEngine (doc : Value F) : Except Rejection (Value F) := do
  let body ← ((engineCodec parsers).decode doc).mapError .body
  (validateEngineExecute outside sessionAddress body.execute).mapError .api
  return (engineCodec parsers).encode body

/-- `post_execute_trigger`. -/
def forwardTrigger (doc : Value F) : Except Rejection (Value F) := do
  let body ← ((triggerCodec parsers).decode doc).mapError .body
  (validateTriggerExecute outside sessionAddress body.execute).mapError .api
  return (triggerCodec parsers).encode body

/-- **What is read upstream** is the request that was in the body and that the session is authorized
to make, with everything else the body said. -/
theorem forwarded_decodes :
    (∀ doc sent, forwardEngine parsers outside sessionAddress doc = .ok sent →
      ∃ body, (engineCodec parsers).decode doc = .ok body ∧
        EngineAuthorized outside sessionAddress body.execute ∧
        (engineCodec parsers).decode sent = .ok body) ∧
    ∀ doc sent, forwardTrigger parsers outside sessionAddress doc = .ok sent →
      ∃ body, (triggerCodec parsers).decode doc = .ok body ∧
        TriggerAuthorized outside sessionAddress body.execute ∧
        (triggerCodec parsers).decode sent = .ok body := by
  refine ⟨fun doc sent h => ?_, fun doc sent h => ?_⟩
  · obtain ⟨body, hbody, h⟩ := Gate.bind_ok h
    obtain ⟨_, hvalid, h⟩ := Gate.bind_ok h
    cases h
    have hdecode := mapError_ok.1 hbody
    exact ⟨body, hdecode, validateEngineExecute_ok.1 (mapError_ok.1 hvalid),
      (engineCodec parsers).reencode hdecode⟩
  · obtain ⟨body, hbody, h⟩ := Gate.bind_ok h
    obtain ⟨_, hvalid, h⟩ := Gate.bind_ok h
    cases h
    have hdecode := mapError_ok.1 hbody
    exact ⟨body, hdecode, validateTriggerExecute_ok.1 (mapError_ok.1 hvalid),
      (triggerCodec parsers).reencode hdecode⟩

end

/-- A stop order with everything a client may send next to it. -/
def stopBody : Trigger.Body :=
  .placeOrders
    [{ placeOrder :=
        { twapOrder with
          trigger := .priceTrigger (.oraclePriceBelow 1000000000000000000)
            (some ⟨Vector.replicate 32 5, true⟩) }
       spotLeverage := some false
       borrowMargin := none
       digest := some (Vector.replicate 32 9)
       id := some 7 }] none

theorem stopBody_valid : (triggerCodec (F := Rat) hexParsers).Valid stopBody := by
  refine ⟨fun p hp => ?_, fun a ha => nomatch ha⟩
  rw [List.mem_singleton.1 hp]
  have hone : InI128 1000000000000000000 := by decide
  exact ⟨⟨trivial, hone, hone, trivial, trivial, trivial⟩, trivial, trivial,
    fun _ _ => trivial, fun _ _ => trivial, ⟨hone, fun _ _ => ⟨trivial, trivial⟩⟩,
    fun _ _ => trivial, fun _ _ => trivial⟩

theorem forwarded_decodes_stop :
    ∃ sent, forwardTrigger (F := Rat) hexParsers twapOutside (ownerFromSubaccount twapSender)
        ((triggerCodec hexParsers).encode stopBody) = .ok sent ∧
      ∃ body, (triggerCodec hexParsers).decode sent = .ok body := by
  have hvalid : validateTriggerExecute twapOutside (ownerFromSubaccount twapSender)
      stopBody.execute = .ok () := by decide
  have hforward : forwardTrigger (F := Rat) hexParsers twapOutside
      (ownerFromSubaccount twapSender) ((triggerCodec hexParsers).encode stopBody) =
      .ok ((triggerCodec hexParsers).encode stopBody) := by
    unfold forwardTrigger
    rw [(triggerCodec hexParsers).decode_encode stopBody_valid]
    dsimp only [Except.mapError, bind, Except.bind]
    rw [hvalid]
    rfl
  obtain ⟨body, -, -, hdecode⟩ := (forwarded_decodes hexParsers twapOutside
    (ownerFromSubaccount twapSender)).2 _ _ hforward
  exact ⟨_, hforward, body, hdecode⟩

end Execution
