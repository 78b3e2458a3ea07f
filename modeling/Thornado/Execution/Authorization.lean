import Mathlib
import Thornado.Lib.Gate
import Thornado.Execution.Gateway

/-!
# Who may execute

A request is a list of signed components (`SignedComponent`), each with its own sender, payload,
signature and verifying contract. `Authorized` says, without the gateway's control flow or its
cache, when one component belongs to a session: the sender is a subaccount of the session's
address and the signature recovers to that address or to the signer linked to that subaccount.

* `Consistent`: the invariant of `linked_signers`, a cached signer is the engine's answer.
* `linkedSignerForSender_computes`, `validateSenderAndSigner_checks`, `component_checks`: one
  specification for each function (`Gate.Computes`), in which the cache no longer occurs.
* `validateEngineExecute_ok`, `validateTriggerExecute_ok`: both endpoints accept exactly the
  requests whose orders pass the order policy and all of whose components are authorized.
-/

namespace Execution

open Gate

/-! ## The specification -/

/-- A signed part of a request. -/
structure SignedComponent where
  sender : Bytes32
  payload : Payload
  signature : Bytes
  verifyingContract : H160

/-- The address whose last four bytes are the product id, big endian. -/
def productAddress (productId : UInt32) : H160 :=
  Vector.ofFn fun i =>
    if i.val < 16 then 0 else UInt8.ofNat (productId.toNat / 256 ^ (19 - i.val))

/-- An order is signed for the address of its product id. -/
def orderComponent (order : Order) (signature : Bytes) (productId : UInt32) : SignedComponent where
  sender := order.sender
  payload := .order order
  signature := signature
  verifyingContract := productAddress productId

/-- The signed parts of an engine request; all but the orders are signed for the endpoint. -/
@[simp] def Engine.Execute.components (endpointAddr : H160) : Engine.Execute → List SignedComponent
  | .placeOrder p => [orderComponent p.order p.signature p.productId]
  | .cancelOrders tx sig => [⟨tx.sender, .cancellation tx, sig, endpointAddr⟩]
  | .cancelProductOrders tx sig _ => [⟨tx.sender, .cancellationProducts tx, sig, endpointAddr⟩]
  | .cancelAndPlace tx sig p _ => [⟨tx.sender, .cancellation tx, sig, endpointAddr⟩,
      orderComponent p.order p.signature p.productId]
  | .withdrawCollateral tx sig _ _ => [⟨tx.sender, .withdrawCollateral tx, sig, endpointAddr⟩]
  | .mintNlp tx sig _ => [⟨tx.sender, .mintNlp tx, sig, endpointAddr⟩]
  | .burnNlp tx sig => [⟨tx.sender, .burnNlp tx, sig, endpointAddr⟩]
  | .transferQuote tx sig => [⟨tx.sender, .transferQuote tx, sig, endpointAddr⟩]
  | .linkSigner tx sig => [⟨tx.sender, .linkSigner tx, sig, endpointAddr⟩]
  | .liquidateSubaccount tx sig => [⟨tx.sender, .liquidateSubaccount tx, sig, endpointAddr⟩]

/-- The orders an engine request places. -/
@[simp] def Engine.Execute.orders : Engine.Execute → List Order
  | .placeOrder p | .cancelAndPlace _ _ p _ => [p.order]
  | _ => []

/-- The trigger orders a trigger request places. -/
@[simp] def Trigger.Execute.orders : Trigger.Execute → List PlaceTriggerOrder
  | .placeOrder order => [order]
  | .placeOrders orders _ => orders
  | _ => []

/-- The signed parts of a trigger request. -/
@[simp] def Trigger.Execute.components (endpointAddr : H160) :
    Trigger.Execute → List SignedComponent
  | .cancelOrders tx sig => [⟨tx.sender, .cancellation tx, sig, endpointAddr⟩]
  | .cancelProductOrders tx sig => [⟨tx.sender, .cancellationProducts tx, sig, endpointAddr⟩]
  | e => e.orders.map fun o => orderComponent o.order o.signature o.productId

/-- The two halves of a cancel-and-place come from one subaccount. -/
@[simp] def Engine.Execute.SameSender : Engine.Execute → Prop
  | .cancelAndPlace tx _ p _ => tx.sender = p.order.sender
  | _ => True

/-- A batch places at least one order. -/
@[simp] def Trigger.Execute.NonemptyBatch : Trigger.Execute → Prop
  | .placeOrders orders _ => orders ≠ []
  | _ => True

/-- The order policy of `/v1/execute`: bits 9 and 10 of the appendix are the order type, bits 12
and 13 the trigger type. -/
def RegularOrder (order : Order) : Prop :=
  order.appendix.extractLsb' 9 2 ∈ [0#2, 1#2, 3#2] ∧ order.appendix.extractLsb' 12 2 = 0#2

/-- The order policy of `/v1/execute/trigger`, as far as the packed bits say. -/
def TriggerOrder (order : Order) : Prop :=
  order.appendix.extractLsb' 9 2 ∈ [0#2, 1#2, 3#2] ∧ order.appendix.extractLsb' 12 2 = 1#2

section
variable {Sig : Type} (outside : Outside Sig) (sessionAddress : H160)

/-- The signature over the payload in the domain recovers to `signer`. -/
def Outside.Recovers (payload : Payload) (signature : Bytes) (domain : EIP712Domain)
    (signer : H160) : Prop :=
  ∃ sig, outside.signatureTryFrom signature = .ok sig ∧
    outside.recover sig (outside.eip712Digest payload domain) = .ok signer

/-- `signer` may sign for the subaccount: it is the owner, or the (nonzero) linked signer. The
linked signer must be known even when the owner signs. -/
def Outside.MaySign (sender : Bytes32) (signer : H160) : Prop :=
  ∃ linked, outside.getLinkedSigner sender = .ok linked ∧
    (sender.toList.take 20 = signer.toList ∨ (linked ≠ Vector.replicate 20 0 ∧ signer = linked))

/-- The component belongs to the session: the first 20 bytes of its sender are the session's
address, and its signature over the payload, in the exchange's domain for the component's contract,
comes from someone who may sign for that subaccount. -/
def SignedComponent.Authorized (chainId : UInt64) (c : SignedComponent) : Prop :=
  c.sender.toList.take 20 = sessionAddress.toList ∧ c.signature.length = 65 ∧
    ∃ signer, outside.Recovers c.payload c.signature
        { name := some "Nado", version := some "0.0.1", chainId := some chainId.toNat,
          verifyingContract := some c.verifyingContract } signer ∧
      outside.MaySign c.sender signer

/-- When `/v1/execute` may pass a request on. -/
structure EngineAuthorized (e : Engine.Execute) : Prop where
  signed : ∃ contracts, outside.getContracts = .ok contracts ∧
    ∀ c ∈ e.components contracts.endpointAddr,
      c.Authorized outside sessionAddress contracts.chainId
  policy : ∀ o ∈ e.orders, RegularOrder o
  sameSender : e.SameSender

/-- When `/v1/execute/trigger` may pass a request on. -/
structure TriggerAuthorized (e : Trigger.Execute) : Prop where
  signed : ∃ contracts, outside.getContracts = .ok contracts ∧
    ∀ c ∈ e.components contracts.endpointAddr,
      c.Authorized outside sessionAddress contracts.chainId
  policy : ∀ o ∈ e.orders, TriggerOrder o.order
  nonempty : e.NonemptyBatch

end

/-! ## The pure checks -/

theorem isZeroAddress_iff {a : H160} : isZeroAddress a = true ↔ a = Vector.replicate 20 0 := by
  unfold isZeroAddress
  rw [Vector.all_eq_true]
  constructor
  · intro h
    ext i hi
    rw [Vector.getElem_replicate, eq_of_beq (h i hi)]
  · rintro rfl i hi
    rw [Vector.getElem_replicate]
    rfl

/-- Two bits of an appendix, read by a shift and a mask. -/
theorem twoBits_iff (x : BitVec 128) (k : Nat) (n : BitVec 2) :
    (x >>> k) &&& 0b11#128 = n.setWidth 128 ↔ x.extractLsb' k 2 = n := by
  have hmask : x.toNat >>> k &&& 3 = x.toNat >>> k % 4 := Nat.and_two_pow_sub_one_eq_mod _ 2
  have hn : n.toNat % 2 ^ 128 = n.toNat := Nat.mod_eq_of_lt (n.isLt.trans (by decide))
  rw [← BitVec.toNat_inj, ← BitVec.toNat_inj, BitVec.toNat_and, BitVec.toNat_ushiftRight,
    BitVec.toNat_setWidth, BitVec.extractLsb'_toNat, hn]
  show x.toNat >>> k &&& 3 = _ ↔ x.toNat >>> k % 4 = _
  rw [hmask]

theorem orderTypeBits_iff {o : Order} {n : BitVec 2} :
    orderTypeBits o = n.setWidth 128 ↔ o.appendix.extractLsb' 9 2 = n :=
  twoBits_iff o.appendix 9 n

theorem triggerTypeBits_iff {o : Order} {n : BitVec 2} :
    triggerTypeBits o = n.setWidth 128 ↔ o.appendix.extractLsb' 12 2 = n :=
  twoBits_iff o.appendix 12 n

theorem regularOrder_iff_bits {o : Order} :
    RegularOrder o ↔ orderTypeBits o ∈ [0#128, 1#128, 3#128] ∧ triggerTypeBits o = 0#128 := by
  simp only [RegularOrder, List.mem_cons, List.not_mem_nil, or_false, ← orderTypeBits_iff,
    ← triggerTypeBits_iff]
  rfl

theorem triggerOrder_iff_bits {o : Order} :
    TriggerOrder o ↔ orderTypeBits o ∈ [0#128, 1#128, 3#128] ∧ triggerTypeBits o = 1#128 := by
  simp only [TriggerOrder, List.mem_cons, List.not_mem_nil, or_false, ← orderTypeBits_iff,
    ← triggerTypeBits_iff]
  rfl

theorem fromLowU64Be_productId (productId : UInt32) :
    H160.fromLowU64Be productId.toUInt64 = productAddress productId := by
  unfold H160.fromLowU64Be productAddress
  congr 1
  funext i
  have hp := productId.toNat_lt
  obtain ⟨i, hi⟩ := i
  rw [← UInt8.toNat_inj]
  interval_cases i
  all_goals simp [UInt64.toNat_toUInt8, UInt64.toNat_shiftRight, Nat.shiftRight_eq_div_pow]
  all_goals omega

theorem ownerFromSubaccount_eq_iff {sender : Bytes32} {address : H160} :
    ownerFromSubaccount sender = address ↔ sender.toList.take 20 = address.toList := by
  unfold ownerFromSubaccount
  rw [← Vector.toList_inj, Vector.toList_cast, Vector.toList_take]

theorem ensureSupportedRegularOrder_ok {o : Order} :
    ensureSupportedRegularOrder o = .ok () ↔ RegularOrder o := by
  rw [regularOrder_iff_bits]
  unfold ensureSupportedRegularOrder
  generalize orderTypeBits o = t
  generalize triggerTypeBits o = g
  split <;> split <;> simp_all [pure, Except.pure, throw, throwThe, MonadExceptOf.throw, bind,
    Except.bind]

theorem ensureSupportedTriggerOrder_ok {o : Order} :
    ensureSupportedTriggerOrder o = .ok () ↔ TriggerOrder o := by
  rw [triggerOrder_iff_bits]
  unfold ensureSupportedTriggerOrder
  generalize orderTypeBits o = t
  generalize triggerTypeBits o = g
  split <;> split <;> simp_all [pure, Except.pure, throw, throwThe, MonadExceptOf.throw, bind,
    Except.bind]

/-! ## The checks over the cache -/

section
variable {Sig : Type} {outside : Outside Sig}

/-- The invariant of `linked_signers`: a cached signer is the engine's answer. -/
def Consistent (outside : Outside Sig) (linkedSigners : LinkedSigners) : Prop :=
  ∀ sender signer, linkedSigners.lookup sender = some signer →
    outside.getLinkedSigner sender = .ok signer

theorem consistent_empty : Consistent outside ∅ := by
  intro sender signer h
  simp at h

theorem Consistent.insert {m : LinkedSigners} (h : Consistent outside m) {sender : Bytes32}
    {signer : H160} (hs : outside.getLinkedSigner sender = .ok signer) :
    Consistent outside (m.insert sender signer) := by
  intro s' l hl
  by_cases he : s' = sender
  · subst he
    rw [AList.lookup_insert, Option.some.injEq] at hl
    exact hl ▸ hs
  · rw [AList.lookup_insert_ne he] at hl
    exact h s' l hl

theorem mapError_ok {ε ε' α : Type} {x : Except ε α} {f : ε → ε'} {a : α} :
    x.mapError f = .ok a ↔ x = .ok a := by
  cases x <;> simp [Except.mapError]

theorem recoverTypedSigner_ok {T : Type} [Eip712 T] {payload : T} {signature : Bytes}
    {d : EIP712Domain} {signer : H160} :
    recoverTypedSigner outside payload signature d = .ok signer ↔
      signature.length = 65 ∧ outside.Recovers (Eip712.payload payload) signature d signer := by
  unfold recoverTypedSigner Outside.Recovers
  by_cases hl : signature.length = 65
  · simp only [hl, ne_eq, not_true_eq_false, ↓reduceIte, true_and]
    cases outside.signatureTryFrom signature with
    | error e => simp [Except.mapError, bind, Except.bind]
    | ok sig =>
      simp only [Except.mapError, bind, Except.bind, Except.ok.injEq, exists_eq_left']
      exact mapError_ok
  · simp [hl, throw, throwThe, MonadExceptOf.throw]

/-- The cache does not show: the lookup returns the engine's answer. -/
theorem linkedSignerForSender_computes (outside : Outside Sig) (sender : Bytes32) :
    Computes (Consistent outside) (linkedSignerForSender outside sender)
      (outside.getLinkedSigner sender = .ok ·) := by
  intro m hm
  cases hc : m.lookup sender with
  | some signer =>
    have hs := hm sender signer hc
    have hrun : linkedSignerForSender outside sender m = .ok (signer, m) := by
      simp [linkedSignerForSender, bind, StateT.bind, get, getThe, MonadStateOf.get, StateT.get,
        pure, Except.pure, Except.bind, hc, StateT.pure]
    rw [hrun]
    exact ⟨ok_unique hs, hm⟩
  | none =>
    cases hs : outside.getLinkedSigner sender with
    | error err =>
      have hrun : ∃ e, linkedSignerForSender outside sender m = .error e := by
        simp [linkedSignerForSender, bind, StateT.bind, get, getThe, MonadStateOf.get, StateT.get,
          pure, Except.pure, Except.bind, hc, hs, Except.mapError, liftM, monadLift,
          MonadLift.monadLift, StateT.lift]
      obtain ⟨e, hrun⟩ := hrun
      rw [hrun]
      exact fun b h => nomatch h
    | ok signer =>
      have hrun : linkedSignerForSender outside sender m =
          .ok (signer, m.insert sender signer) := by
        simp [linkedSignerForSender, bind, StateT.bind, get, getThe, MonadStateOf.get, StateT.get,
          pure, Except.pure, Except.bind, hc, hs, Except.mapError, liftM, monadLift,
          MonadLift.monadLift, StateT.lift, modify, modifyGet, MonadStateOf.modifyGet,
          StateT.modifyGet, StateT.pure]
      rw [hrun]
      exact ⟨ok_unique rfl, hm.insert hs⟩

theorem validateSenderAndSigner_checks (sender : Bytes32) (sessionAddress signer : H160) :
    Checks (Consistent outside) (validateSenderAndSigner outside sender sessionAddress signer)
      (sender.toList.take 20 = sessionAddress.toList ∧ outside.MaySign sender signer) := by
  have accept : ∀ linked, Checks (Consistent outside)
      (if signer = ownerFromSubaccount sender then pure ()
        else if !isZeroAddress linked && signer = linked then pure ()
        else throw (.forbidden ("signature signer " ++ hexAddress signer ++ " is not owner "
          ++ hexAddress (ownerFromSubaccount sender) ++ " or linked signer " ++ hexAddress linked))
        : Gate Unit)
      (sender.toList.take 20 = signer.toList ∨
        (linked ≠ Vector.replicate 20 0 ∧ signer = linked)) := by
    intro linked
    have howner : sender.toList.take 20 = signer.toList ↔ signer = ownerFromSubaccount sender := by
      rw [← ownerFromSubaccount_eq_iff, eq_comm]
    rw [howner]
    split
    · rename_i h
      exact (Computes.pure ()).congr fun _ => by simp [h]
    · rename_i ho
      split
      · rename_i h
        simp only [Bool.and_eq_true, Bool.not_eq_true', decide_eq_true_eq] at h
        have hz : linked ≠ Vector.replicate 20 0 := fun he => by
          rw [isZeroAddress_iff.2 he] at h
          exact Bool.noConfusion h.1
        exact (Computes.pure ()).congr fun _ => by simp [h.2, hz]
      · rename_i h
        refine (Computes.throw _).congr fun _ => ⟨False.elim, ?_⟩
        rintro (he | ⟨hz, he⟩)
        · exact ho he
        · refine h (Bool.and_eq_true_iff.2 ⟨?_, decide_eq_true he⟩)
          rw [Bool.not_eq_true', Bool.eq_false_iff]
          exact fun hz' => hz (isZeroAddress_iff.1 hz')
  have body := (linkedSignerForSender_computes outside sender).bind accept
  refine body.guard.congr fun _ => ?_
  rw [not_not, ownerFromSubaccount_eq_iff]
  exact Iff.rfl

/-- **One component**: recovering the signer and comparing it with the sender's owner and linked
signer succeeds exactly when the component is authorized. -/
theorem component_checks (outside : Outside Sig) {T : Type} [Eip712 T] (sender : Bytes32)
    (payload : T) (signature : Bytes) (sessionAddress verifyingContract : H160) (chainId : UInt64) :
    Checks (Consistent outside)
      (do
        let recovered ←
          recoverTypedSigner outside payload signature (domain chainId.toNat verifyingContract)
        validateSenderAndSigner outside sender sessionAddress recovered : Gate Unit)
      (SignedComponent.Authorized outside sessionAddress chainId
        ⟨sender, Eip712.payload payload, signature, verifyingContract⟩) := by
  refine ((Computes.lift _).bind fun signer =>
    validateSenderAndSigner_checks sender sessionAddress signer).congr fun _ => ?_
  simp only [recoverTypedSigner_ok, SignedComponent.Authorized]
  constructor
  · rintro ⟨S, ⟨hl, hr⟩, ho, hm⟩
    exact ⟨ho, hl, S, hr, hm⟩
  · rintro ⟨ho, hl, S, hr, hm⟩
    exact ⟨S, ⟨hl, hr⟩, ho, hm⟩

theorem orderComponent_checks (outside : Outside Sig) (sessionAddress : H160) (order : Order)
    (signature : Bytes) (productId : UInt32) (chainId : UInt64) :
    Checks (Consistent outside)
      (do
        let recovered ← recoverOrderSigner outside order signature productId chainId
        validateSenderAndSigner outside order.sender sessionAddress recovered : Gate Unit)
      ((orderComponent order signature productId).Authorized outside sessionAddress chainId) := by
  have h := component_checks outside order.sender order signature sessionAddress
    (.fromLowU64Be productId.toUInt64) chainId
  refine h.congr fun _ => ?_
  rw [fromLowU64Be_productId]
  rfl

/-! ## The two endpoints -/

theorem regularOrder_checks (o : Order) :
    Checks (Consistent outside) (liftM (ensureSupportedRegularOrder o) : Gate Unit)
      (RegularOrder o) :=
  (Computes.lift _).congr fun _ => ensureSupportedRegularOrder_ok

theorem triggerOrder_checks (o : Order) :
    Checks (Consistent outside) (liftM (ensureSupportedTriggerOrder o) : Gate Unit)
      (TriggerOrder o) :=
  (Computes.lift _).congr fun _ => ensureSupportedTriggerOrder_ok

/-- `validate_engine_execute` after the contracts query, by the request's variant. -/
theorem checkEngineExecute_checks (outside : Outside Sig) (sessionAddress : H160)
    (contracts : ContractsInfo) (e : Engine.Execute) :
    Checks (Consistent outside) (checkEngineExecute outside sessionAddress contracts e)
      (e.SameSender ∧ (∀ o ∈ e.orders, RegularOrder o) ∧
        ∀ c ∈ e.components contracts.endpointAddr,
          c.Authorized outside sessionAddress contracts.chainId) := by
  cases e with
  | placeOrder p =>
    refine ((regularOrder_checks p.order).seq
      (orderComponent_checks outside sessionAddress p.order p.signature p.productId _)).congr
        fun _ => ?_
    simp
  | cancelAndPlace tx sig p unfilled =>
    have place := orderComponent_checks outside sessionAddress p.order p.signature p.productId
      contracts.chainId
    have both := (component_checks outside tx.sender tx sig sessionAddress contracts.endpointAddr
      contracts.chainId).seq place
    rw [bind_assoc] at both
    refine ((regularOrder_checks p.order).seq both).guard.congr fun _ => ?_
    simp [Eip712.payload]
  | cancelOrders tx sig =>
    refine (component_checks outside tx.sender tx sig _ _ _).congr fun _ => ?_
    simp [Eip712.payload]
  | cancelProductOrders tx sig _ =>
    refine (component_checks outside tx.sender tx sig _ _ _).congr fun _ => ?_
    simp [Eip712.payload]
  | withdrawCollateral tx sig _ _ | mintNlp tx sig _ | burnNlp tx sig | transferQuote tx sig
  | linkSigner tx sig | liquidateSubaccount tx sig =>
    refine (component_checks outside tx.sender tx sig _ _ _).congr fun _ => ?_
    simp [Eip712.payload]

/-- `validate_trigger_execute` after the contracts query, by the request's variant; the loop of
a batch is `Computes.forM`. -/
theorem checkTriggerExecute_checks (outside : Outside Sig) (sessionAddress : H160)
    (contracts : ContractsInfo) (e : Trigger.Execute) :
    Checks (Consistent outside) (checkTriggerExecute outside sessionAddress contracts e)
      (e.NonemptyBatch ∧ (∀ o ∈ e.orders, TriggerOrder o.order) ∧
        ∀ c ∈ e.components contracts.endpointAddr,
          c.Authorized outside sessionAddress contracts.chainId) := by
  have order : ∀ o : PlaceTriggerOrder,
      Checks (Consistent outside) (checkTriggerOrder outside sessionAddress contracts o)
        (TriggerOrder o.order ∧
          (orderComponent o.order o.signature o.productId).Authorized outside sessionAddress
            contracts.chainId) := fun o =>
    (triggerOrder_checks o.order).seq
      (orderComponent_checks outside sessionAddress o.order o.signature o.productId _)
  cases e with
  | placeOrder o =>
    refine (order o).congr fun _ => ?_
    simp
  | placeOrders orders stop =>
    refine (Computes.forM order orders).guard.congr fun _ => ?_
    simp only [Trigger.Execute.NonemptyBatch, Trigger.Execute.orders, Trigger.Execute.components,
      List.isEmpty_iff, List.mem_map, forall_exists_index, and_imp, forall_apply_eq_imp_iff₂]
    exact and_congr_right fun _ => ⟨fun h => ⟨fun o ho => (h o ho).1, fun o ho => (h o ho).2⟩,
      fun h o ho => ⟨h.1 o ho, h.2 o ho⟩⟩
  | cancelOrders tx sig | cancelProductOrders tx sig =>
    refine (component_checks outside tx.sender tx sig _ _ _).congr fun _ => ?_
    simp [Eip712.payload]

/-- Fetching the contracts, then checks from the empty cache. -/
theorem fetch_then_ok {f : ContractsInfo → Gate Unit} {P : ContractsInfo → Prop}
    (hf : ∀ c, Checks (Consistent outside) (f c) (P c)) :
    (do let contracts ← fetchContracts outside; (f contracts).run' ∅) = .ok () ↔
      ∃ contracts, outside.getContracts = .ok contracts ∧ P contracts := by
  unfold fetchContracts
  cases outside.getContracts with
  | error err => simp [Except.mapError, bind, Except.bind]
  | ok contracts =>
    simp only [Except.mapError, bind, Except.bind, Except.ok.injEq, exists_eq_left']
    exact (hf contracts).ok_iff consistent_empty

theorem validateEngineExecute_ok {sessionAddress : H160} {e : Engine.Execute} :
    validateEngineExecute outside sessionAddress e = .ok () ↔
      EngineAuthorized outside sessionAddress e := by
  refine (fetch_then_ok fun c => checkEngineExecute_checks outside sessionAddress c e).trans ?_
  constructor
  · rintro ⟨contracts, hc, hs, hp, ha⟩
    exact ⟨⟨contracts, hc, ha⟩, hp, hs⟩
  · rintro ⟨⟨contracts, hc, ha⟩, hp, hs⟩
    exact ⟨contracts, hc, hs, hp, ha⟩

theorem validateTriggerExecute_ok {sessionAddress : H160} {e : Trigger.Execute} :
    validateTriggerExecute outside sessionAddress e = .ok () ↔
      TriggerAuthorized outside sessionAddress e := by
  refine (fetch_then_ok fun c => checkTriggerExecute_checks outside sessionAddress c e).trans ?_
  constructor
  · rintro ⟨contracts, hc, hn, hp, ha⟩
    exact ⟨⟨contracts, hc, ha⟩, hp, hn⟩
  · rintro ⟨⟨contracts, hc, ha⟩, hp, hn⟩
    exact ⟨contracts, hc, hn, hp, ha⟩

/-- **Execution authorization is exact**: whatever the outside calls answer, the two endpoints
accept exactly the authorized requests. -/
theorem execute_authorization_exact (outside : Outside Sig) (sessionAddress : H160) :
    (∀ e : Engine.Execute, validateEngineExecute outside sessionAddress e = .ok () ↔
      EngineAuthorized outside sessionAddress e) ∧
    (∀ e : Trigger.Execute, validateTriggerExecute outside sessionAddress e = .ok () ↔
      TriggerAuthorized outside sessionAddress e) :=
  ⟨fun _ => validateEngineExecute_ok, fun _ => validateTriggerExecute_ok⟩

end

end Execution
