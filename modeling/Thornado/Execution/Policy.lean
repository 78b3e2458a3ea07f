import Thornado.Execution.Authorization

/-!
# The order policy

The documented policy: no FOK and no TWAP orders, price triggers only on the trigger endpoint. A
trigger order says twice what triggers it: in two bits of the signed appendix and in the unsigned
criteria sent next to it. `ensure_supported_trigger_order` reads the bits; nothing reads the
criteria, so an order whose bits say price trigger is passed on with TWAP criteria. That is the
only way past the policy.
-/

namespace Execution

/-- The criteria are a price trigger's. -/
def TriggerCriteria.IsPriceTrigger : TriggerCriteria → Prop
  | .priceTrigger _ _ => True
  | .timeTrigger _ _ => False

/-- Neither a trigger order nor FOK. -/
def PlainOrder (order : Order) : Prop :=
  order.appendix.extractLsb' 12 2 = 0#2 ∧ order.appendix.extractLsb' 9 2 ≠ 2#2

/-- A stop/take order by its bits and by the criteria sent with it. -/
def PriceTriggerOrder (o : PlaceTriggerOrder) : Prop :=
  TriggerOrder o.order ∧ o.trigger.IsPriceTrigger

section
variable {Sig : Type} (outside : Outside Sig) (sessionAddress : H160)

/-- The documented policy of the two endpoints, on what they pass on. -/
def OrderPolicy : Prop :=
  (∀ e body, postExecute outside sessionAddress e = .ok body → ∀ o ∈ body.orders, PlainOrder o) ∧
    ∀ e body, postExecuteTrigger outside sessionAddress e = .ok body →
      ∀ o ∈ body.orders, PriceTriggerOrder o

theorem postExecute_ok {e body : Engine.Execute} :
    postExecute outside sessionAddress e = .ok body ↔
      EngineAuthorized outside sessionAddress e ∧ body = e := by
  rw [← validateEngineExecute_ok]
  unfold postExecute
  cases validateEngineExecute outside sessionAddress e with
  | error err => simp [bind, Except.bind]
  | ok _ => simp [bind, Except.bind, pure, Except.pure, eq_comm]

theorem postExecuteTrigger_ok {e body : Trigger.Execute} :
    postExecuteTrigger outside sessionAddress e = .ok body ↔
      TriggerAuthorized outside sessionAddress e ∧ body = e := by
  rw [← validateTriggerExecute_ok]
  unfold postExecuteTrigger
  cases validateTriggerExecute outside sessionAddress e with
  | error err => simp [bind, Except.bind]
  | ok _ => simp [bind, Except.bind, pure, Except.pure, eq_comm]

theorem RegularOrder.plain {o : Order} (h : RegularOrder o) : PlainOrder o := by
  refine ⟨h.2, fun h2 => ?_⟩
  have h1 := h.1
  rw [h2] at h1
  exact absurd h1 (by decide)

/-- **When the policy holds**: always on the engine endpoint; for a trigger request, exactly when
no order of a request that passes the gateway's checks carries TWAP criteria. -/
theorem order_policy_iff :
    (∀ e body, postExecute outside sessionAddress e = .ok body → ∀ o ∈ body.orders, PlainOrder o) ∧
    ∀ e : Trigger.Execute,
      (∀ body, postExecuteTrigger outside sessionAddress e = .ok body →
        ∀ o ∈ body.orders, PriceTriggerOrder o) ↔
      (TriggerAuthorized outside sessionAddress e → ∀ o ∈ e.orders, o.trigger.IsPriceTrigger) := by
  refine ⟨fun e body h o ho => ?_, fun e => ⟨fun h ha o ho => ?_, fun h body hb o ho => ?_⟩⟩
  · obtain ⟨ha, rfl⟩ := (postExecute_ok outside sessionAddress).1 h
    exact (ha.policy o ho).plain
  · exact (h e ((postExecuteTrigger_ok outside sessionAddress).2 ⟨ha, rfl⟩) o ho).2
  · obtain ⟨ha, rfl⟩ := (postExecuteTrigger_ok outside sessionAddress).1 hb
    exact ⟨ha.policy o ho, h ha o ho⟩

end

/-! ## TWAP criteria on a price-trigger order -/

/-- The subaccount of owner `0x0101…01` with the empty name. -/
def twapSender : Bytes32 := Vector.ofFn fun i => if i.val < 20 then 1 else 0

/-- Appendix `1 << 12`: order type 0, trigger bits 1; the criteria are a TWAP's. -/
def twapOrder : PlaceTriggerOrder where
  order := ⟨twapSender, 1000000000000000000, 1000000000000000000, 4000000000, 1, 1#128 <<< 12⟩
  signature := List.replicate 65 27
  productId := 2
  trigger := .timeTrigger 60 none

/-- An outside in which every signature is the owner's and no signer is linked. -/
def twapOutside : Outside Bytes where
  getContracts := .ok ⟨763373, Vector.replicate 20 7⟩
  signatureTryFrom := .ok
  eip712Digest := fun _ _ => Vector.replicate 32 0
  recover := fun _ _ => .ok (ownerFromSubaccount twapSender)
  getLinkedSigner := fun _ => .ok (Vector.replicate 20 0)

/-- The gateway passes the TWAP criteria on. -/
theorem twap_criteria_forwarded : ¬ OrderPolicy twapOutside (ownerFromSubaccount twapSender) := by
  intro h
  have hok : validateTriggerExecute twapOutside (ownerFromSubaccount twapSender)
      (.placeOrder twapOrder) = .ok () := by decide
  have hpost : postExecuteTrigger twapOutside (ownerFromSubaccount twapSender)
      (.placeOrder twapOrder) = .ok (.placeOrder twapOrder) := by
    unfold postExecuteTrigger
    rw [hok]
    rfl
  exact (h.2 _ _ hpost twapOrder (by simp)).2

end Execution
