import Mathlib.Data.Int.ConditionallyCompleteOrder
import Mathlib.Data.Rat.Floor
import Thornado.Lib.Gate
import Thornado.Lib.Grid
import Thornado.Lib.Padding

/-!
# Order entry

`handleSubmitOrder` of `client/src/pages/Terminal.jsx` and the functions it uses, up to the order
that it hands to `placeOrder` of the exchange's client, which signs it. That client, `viem` and the
texts of numbers are parameters (`Services`). A finite number is its rational value, and an error
is its message.

* `alignAmount_aligns`, `alignPrice_aligns`: the alignments are roundings to a grid.
* `placedOrder_eq_some`: the order that is handed over.
* `order_entry_sound`: its amount and price.
-/

namespace Client

inductive Side where
  | buy
  | sell
  deriving DecidableEq

inductive OrderType where
  | market
  | limit
  | advanced
  deriving DecidableEq

inductive Tif where
  | gtc
  | ioc
  | fok
  | goodUntil
  deriving DecidableEq

inductive ExecutionType where
  | ioc
  | postOnly
  | default
  deriving DecidableEq

/-- The clients of `context` that are there. -/
structure NadoContext where
  publicClient : Bool
  walletClient : Bool

structure NadoClient where
  context : Option NadoContext

/-- A row of `getSymbols`; the increments are texts. -/
structure SymbolRow where
  productId : Option ℚ
  priceIncrement : String
  sizeIncrement : String

structure PlaceOrder where
  productId : ℚ
  subaccountOwner : String
  subaccountName : String
  expiration : String
  price : String
  amount : String
  appendix : String
  deriving DecidableEq

/-- `response.data`; a missing text is empty. -/
structure PlaceOrderResponse where
  error : String
  digest : String

/-- What is not under the client's control. -/
structure Services where
  /-- `parseUnits(text, 18)` -/
  parseUnits : String → Except String Int
  /-- `formatUnits(value, 18)` -/
  formatUnits : Int → String
  /-- `BigInt(text)` -/
  bigInt : String → Except String Int
  /-- `String(value)` -/
  numberText : ℚ → String
  toFixed : ℚ → Nat → String
  trim : String → String
  /-- `Math.trunc(Date.now() / 1000)` -/
  nowSec : Int
  getNadoClient : Option NadoClient
  /-- `resolveProductIdViaClient`, a lookup by the symbol -/
  resolveProductIdViaClient : String → Except String (Option ℚ)
  getSymbols : ℚ → Except String (List SymbolRow)
  packOrderAppendix : ExecutionType → Bool → Int
  placeOrder : PlaceOrder → Except String PlaceOrderResponse

/-- The state and the properties of the widget that `handleSubmitOrder` reads; a missing text is
empty. -/
structure OrderForm where
  submitting : Bool
  walletConnected : Bool
  ownerAddress : String
  gatewayStatus : String
  gatewayDetail : String
  orderType : OrderType
  parsedSize : Option ℚ
  executionPrice : Option ℚ
  sizeInput : String
  limitPriceInput : String
  marketProductId : Option ℚ
  symbol : String
  side : Side
  postOnly : Bool
  tif : Tif
  reduceOnly : Bool
  subaccountName : String

/-! ## Texts of numbers -/

/-- The first comma is a dot, and only the first dot stays. -/
def sanitizeDecimalInput (value : String) : String :=
  let chars := value.toList
  let source := chars.takeWhile (· ≠ ',') ++
    match chars.dropWhile (· ≠ ',') with
    | [] => []
    | _ :: rest => '.' :: rest
  let filtered := source.filter fun c => c.isDigit || c = '.'
  String.ofList (filtered.takeWhile (· ≠ '.') ++
    match filtered.dropWhile (· ≠ '.') with
    | [] => []
    | dot :: rest => dot :: rest.filter (· ≠ '.'))

/-- `fixed.replace(/\.?0+$/, '')` -/
def dropTrailingZeros (fixed : String) : String :=
  let rest := Padding.stem '0' fixed.toList
  if rest.length = fixed.toList.length then fixed
  else String.ofList (if rest.getLast? = some '.' then rest.dropLast else rest)

def formatEditableNumber (services : Services) (value : ℚ) (maxDigits : Nat) : String :=
  if value ≤ 0 then "" else dropTrailingZeros (services.toFixed value maxDigits)

/-! ## Increments -/

structure Increments where
  priceIncrementX18 : Option Int
  sizeIncrementX18 : Option Int
  deriving DecidableEq

/-- A parsed increment, if it is positive; no text, no increment. -/
def positiveIncrement (parse : String → Except String Int) (text : String) :
    Except String (Option Int) :=
  if text = "" then return none
  else do
    let parsed ← parse text
    return if parsed > 0 then some parsed else none

def resolveSymbolIncrementsX18ViaClient (services : Services) (productId : ℚ) : Increments :=
  if productId < 0 then ⟨none, none⟩
  else
    let increments : Except String Increments := do
      let symbols ← services.getSymbols productId
      match symbols.find? (·.productId = some productId) with
      | none => return ⟨none, none⟩
      | some row =>
        let priceIncrementX18 ←
          positiveIncrement services.parseUnits (services.trim row.priceIncrement)
        let sizeIncrementX18 ←
          positiveIncrement services.bigInt (services.trim row.sizeIncrement)
        return ⟨priceIncrementX18, sizeIncrementX18⟩
    match increments with
    | .ok increments => increments
    | .error _ => ⟨none, none⟩

/-- `%` of a `BigInt` has the sign of the dividend. -/
def alignPriceToIncrementX18 (priceX18 : Int) : Option Int → Int
  | none => priceX18
  | some incrementX18 =>
    if incrementX18 ≤ 0 then priceX18
    else if priceX18 ≤ 0 then priceX18
    else
      let remainder := priceX18.tmod incrementX18
      if remainder = 0 then priceX18
      else
        let down := priceX18 - remainder
        let up := down + incrementX18
        let distanceDown := priceX18 - down
        let distanceUp := up - priceX18
        if distanceDown ≤ distanceUp then down else up

def alignAmountToIncrementX18 (amountX18 : Int) : Option Int → Int
  | none => amountX18
  | some incrementX18 =>
    if incrementX18 ≤ 0 then amountX18
    else if amountX18 ≤ 0 then amountX18
    else amountX18 - amountX18.tmod incrementX18

/-! ## Submitting -/

def getOrderEntryExecutionType (orderType : OrderType) (postOnly : Bool) (tif : Tif) :
    ExecutionType :=
  if orderType = .market then .ioc
  else if postOnly then .postOnly
  else if tif = .ioc ∨ tif = .fok then .ioc
  else .default

def getOrderEntryExpiration (services : Services) (orderType : OrderType) (tif : Tif) : Int :=
  if orderType = .market ∨ tif = .ioc ∨ tif = .fok then services.nowSec + 120
  else services.nowSec + 86400 * 30

/-- The checks of `createExecutionGatewayClient`. -/
def ensureBaseClient (baseClient : NadoClient) : Except String Unit :=
  match baseClient.context with
  | none => throw "Nado client unavailable"
  | some context =>
    if !context.publicClient || !context.walletClient then throw "Wallet client unavailable"
    else return ()

/-- What has been read when the alignment begins. -/
structure OrderDraft where
  productId : ℚ
  rawAmountX18 : Int
  rawPriceX18 : Int
  increments : Increments
  deriving DecidableEq

def sizeText (services : Services) (form : OrderForm) (parsedSize : ℚ) : String :=
  sanitizeDecimalInput
    (if form.sizeInput = "" then services.numberText parsedSize else form.sizeInput)

def priceText (services : Services) (form : OrderForm) (executionPrice : ℚ) : String :=
  if form.orderType = .market then formatEditableNumber services executionPrice 8
  else sanitizeDecimalInput
    (if form.limitPriceInput = "" then services.numberText executionPrice else form.limitPriceInput)

/-- `handleSubmitOrder` up to the checks of the form, with the size and the price. -/
def checkForm (form : OrderForm) : Except String (ℚ × ℚ) :=
  if form.walletConnected = false then throw "Connect wallet first"
  else if form.ownerAddress = "" then throw "Wallet address unavailable"
  else if form.gatewayStatus = "error" then
    throw (if form.gatewayDetail = "" then "Execution gateway unavailable" else form.gatewayDetail)
  else if form.orderType = .advanced then
    throw "Selected advanced order type is UI-only for now"
  else match form.parsedSize, form.executionPrice with
    | none, _ => throw "Enter order size"
    | some _, none => throw "Price unavailable for this order"
    | some parsedSize, some executionPrice =>
      if executionPrice ≤ 0 then throw "Price unavailable for this order"
      else return (parsedSize, executionPrice)

def resolveProductId (services : Services) (form : OrderForm) : Except String ℚ := do
  let productId ← match form.marketProductId with
    | some productId => pure (some productId)
    | none => services.resolveProductIdViaClient form.symbol
  match productId with
  | none => throw "Market product id not found"
  | some productId => return productId

/-- `handleSubmitOrder` up to the increments. -/
def readOrder (services : Services) (form : OrderForm) : Except String OrderDraft := do
  let (parsedSize, executionPrice) ← checkForm form
  match services.getNadoClient with
  | none => throw "Nado client unavailable"
  | some nadoClient =>
    let sizeText := sizeText services form parsedSize
    let priceText := priceText services form executionPrice
    if sizeText = "" then throw "Invalid size"
    else if priceText = "" then throw "Invalid price"
    else
      let productId ← resolveProductId services form
      ensureBaseClient nadoClient
      let rawAmountX18 ← services.parseUnits sizeText
      let rawPriceX18 ← services.parseUnits priceText
      return {
        productId := productId
        rawAmountX18 := rawAmountX18
        rawPriceX18 := rawPriceX18
        increments := resolveSymbolIncrementsX18ViaClient services productId }

/-- The alignment, and the order. -/
def alignOrder (services : Services) (form : OrderForm) (draft : OrderDraft) :
    Except String PlaceOrder :=
  let normalizedAmountX18 :=
    alignAmountToIncrementX18 draft.rawAmountX18 draft.increments.sizeIncrementX18
  if normalizedAmountX18 ≤ 0 then throw "Invalid size"
  else
    let signedAmountX18 :=
      if form.side = .sell then -normalizedAmountX18 else normalizedAmountX18
    let normalizedPriceX18 :=
      alignPriceToIncrementX18 draft.rawPriceX18 draft.increments.priceIncrementX18
    if normalizedPriceX18 ≤ 0 then throw "Invalid price"
    else
      let postOnly := if form.orderType = .limit then form.postOnly else false
      let orderExecutionType := getOrderEntryExecutionType form.orderType postOnly form.tif
      return {
        productId := draft.productId
        subaccountOwner := form.ownerAddress
        subaccountName := form.subaccountName
        expiration := toString (getOrderEntryExpiration services form.orderType form.tif)
        price := services.formatUnits normalizedPriceX18
        amount := toString signedAmountX18
        appendix := toString (services.packOrderAppendix orderExecutionType form.reduceOnly) }

/-- What a call of `handleSubmitOrder` did: the order it handed to `placeOrder`, and what it shows
or the error it caught. -/
structure Submission where
  placed : Option PlaceOrder
  outcome : Except String String

/-- `none` while an order is being submitted. -/
def handleSubmitOrder (services : Services) (form : OrderForm) : Option Submission :=
  if form.submitting then none
  else match readOrder services form >>= alignOrder services form with
    | .error message => some ⟨none, .error message⟩
    | .ok order => some ⟨some order, do
        let response ← services.placeOrder order
        if response.error ≠ "" then throw response.error
        else if response.digest ≠ "" then
          return "Order accepted: " ++ String.ofList (response.digest.toList.take 14) ++ "..."
        else return "Order accepted"⟩

/-- The order that is signed. -/
def placedOrder (services : Services) (form : OrderForm) : Option PlaceOrder :=
  (handleSubmitOrder services form).bind (·.placed)

/-! ## The alignments -/

/-- An alignment rounds positive values to a known, positive increment, and keeps the others. -/
structure Aligns (align : Int → Option Int → Int) (round : Int → Int → Int) : Prop where
  unknown : ∀ x, align x none = x
  kept : ∀ x increment, x ≤ 0 ∨ increment ≤ 0 → align x (some increment) = x
  rounds : ∀ x increment, 0 < x → 0 < increment → align x (some increment) = round increment x

section
variable {align : Int → Option Int → Int} {round : Int → Int → Int}

theorem Aligns.mono (h : Aligns align round) (hmono : ∀ step, 0 < step → Monotone (round step))
    (h0 : ∀ step x, 0 < step → 0 < x → 0 ≤ round step x) (increment : Option Int) :
    Monotone (align · increment) := by
  cases increment with
  | none =>
    intro x y hxy
    simpa [h.unknown] using hxy
  | some increment =>
    by_cases hi : 0 < increment
    · exact Grid.monotone_of_pos (fun x hx => h.kept x increment (.inl hx))
        (fun x hx => h.rounds x increment hx hi) (hmono increment hi)
        fun x hx => h0 increment x hi hx
    · intro x y hxy
      have hkept : ∀ z, align z (some increment) = z := fun z =>
        h.kept z increment (.inr (by omega))
      simpa [hkept] using hxy

theorem Aligns.idempotent (h : Aligns align round)
    (hround : ∀ step x, 0 < step → round step (round step x) = round step x)
    (increment : Option Int) (x : Int) :
    align (align x increment) increment = align x increment := by
  cases increment with
  | none => simp [h.unknown]
  | some increment =>
    by_cases hi : 0 < increment
    · exact Grid.idempotent_of_pos (f := (align · (some increment)))
        (fun x hx => h.kept x increment (.inl hx)) (fun x hx => h.rounds x increment hx hi)
        (fun x => hround increment x hi) x
    · have hkept : ∀ z, align z (some increment) = z := fun z =>
        h.kept z increment (.inr (by omega))
      simp [hkept]

end

theorem alignAmount_aligns : Aligns alignAmountToIncrementX18 Grid.down where
  unknown _ := rfl
  kept x increment h := by
    unfold alignAmountToIncrementX18
    simp only
    split
    · rfl
    · rw [if_pos (by omega)]
  rounds x increment hx hi := by
    unfold alignAmountToIncrementX18 Grid.down
    simp only
    rw [if_neg (by omega), if_neg (by omega), Int.tmod_eq_emod_of_nonneg (by omega)]

theorem alignPrice_aligns : Aligns alignPriceToIncrementX18 Grid.nearest where
  unknown _ := rfl
  kept x increment h := by
    unfold alignPriceToIncrementX18
    simp only
    split
    · rfl
    · rw [if_pos (by omega)]
  rounds x increment hx hi := by
    unfold alignPriceToIncrementX18
    simp only
    rw [if_neg (by omega), if_neg (by omega), Int.tmod_eq_emod_of_nonneg (by omega)]
    split
    · rename_i hrem
      exact (Grid.nearest_of_dvd hi (Int.dvd_of_emod_eq_zero hrem)).symm
    · rfl

theorem alignAmount_mono (increment : Option Int) :
    Monotone (alignAmountToIncrementX18 · increment) :=
  alignAmount_aligns.mono (fun _ hi _ _ => Grid.down_mono hi)
    (fun _ _ hi hx => Grid.down_nonneg hi (by omega)) increment

theorem alignPrice_mono (increment : Option Int) :
    Monotone (alignPriceToIncrementX18 · increment) :=
  alignPrice_aligns.mono (fun _ hi _ _ => Grid.nearest_mono hi)
    (fun _ _ hi hx => Grid.nearest_nonneg hi (by omega)) increment

theorem alignAmount_idempotent (increment : Option Int) (x : Int) :
    alignAmountToIncrementX18 (alignAmountToIncrementX18 x increment) increment =
      alignAmountToIncrementX18 x increment :=
  alignAmount_aligns.idempotent (fun step x _ => Grid.down_of_dvd (Grid.dvd_down step x))
    increment x

theorem alignPrice_idempotent (increment : Option Int) (x : Int) :
    alignPriceToIncrementX18 (alignPriceToIncrementX18 x increment) increment =
      alignPriceToIncrementX18 x increment :=
  alignPrice_aligns.idempotent
    (fun step x hi => Grid.nearest_of_dvd hi (Grid.dvd_nearest step x)) increment x

theorem alignAmount_isGreatest {size increment : Int} (hs : 0 < size) (hi : 0 < increment) :
    IsGreatest {m | increment ∣ m ∧ m ≤ size}
      (alignAmountToIncrementX18 size (some increment)) := by
  rw [alignAmount_aligns.rounds size increment hs hi]
  exact Grid.isGreatest_down hi

/-- A multiple at most half an increment away; from the middle, the smaller one. -/
theorem alignPrice_closest {price increment : Int} (hp : 0 < price) (hi : 0 < increment) :
    let aligned := alignPriceToIncrementX18 price (some increment)
    increment ∣ aligned ∧ 2 * |aligned - price| ≤ increment ∧
      (2 * |aligned - price| = increment → aligned < price) := by
  simp only
  rw [alignPrice_aligns.rounds price increment hp hi]
  exact ⟨Grid.dvd_nearest increment price, Grid.nearest_dist hi, Grid.nearest_lt_of_tie hi⟩

/-! ## The order -/

theorem positiveIncrement_pos {parse : String → Except String Int} {text : String}
    {increment : Int} (h : positiveIncrement parse text = .ok (some increment)) :
    0 < increment := by
  unfold positiveIncrement at h
  split at h
  · cases h
  · obtain ⟨parsed, -, h⟩ := Gate.bind_ok h
    split at h
    · cases h
      assumption
    · cases h

/-- The increments that are known are positive. -/
theorem resolveIncrements_pos {services : Services} {productId : ℚ} {increment : Int}
    (h : (resolveSymbolIncrementsX18ViaClient services productId).priceIncrementX18 =
        some increment ∨
      (resolveSymbolIncrementsX18ViaClient services productId).sizeIncrementX18 =
        some increment) :
    0 < increment := by
  unfold resolveSymbolIncrementsX18ViaClient at h
  split at h
  · simp at h
  · simp only at h
    split at h
    · rename_i increments hok
      obtain ⟨symbols, -, hok⟩ := Gate.bind_ok hok
      split at hok
      · cases hok
        simp at h
      · obtain ⟨price, hprice, hok⟩ := Gate.bind_ok hok
        obtain ⟨size, hsize, hok⟩ := Gate.bind_ok hok
        cases hok
        rcases h with h | h
        · exact positiveIncrement_pos (hprice.trans (congrArg Except.ok h))
        · exact positiveIncrement_pos (hsize.trans (congrArg Except.ok h))
    · simp at h

/-- What a draft was read from: the texts of the form and the increments of the product. -/
structure Reads (services : Services) (form : OrderForm) (draft : OrderDraft) : Prop where
  size : ∃ parsedSize, form.parsedSize = some parsedSize ∧
    services.parseUnits (sizeText services form parsedSize) = .ok draft.rawAmountX18
  price : ∃ executionPrice, form.executionPrice = some executionPrice ∧
    services.parseUnits (priceText services form executionPrice) = .ok draft.rawPriceX18
  increments : draft.increments = resolveSymbolIncrementsX18ViaClient services draft.productId

theorem checkForm_ok {form : OrderForm} {parsedSize executionPrice : ℚ}
    (h : checkForm form = .ok (parsedSize, executionPrice)) :
    form.parsedSize = some parsedSize ∧ form.executionPrice = some executionPrice := by
  unfold checkForm at h
  repeat' split at h
  all_goals cases h
  exact ⟨by assumption, by assumption⟩

theorem readOrder_reads {services : Services} {form : OrderForm} {draft : OrderDraft}
    (h : readOrder services form = .ok draft) : Reads services form draft := by
  unfold readOrder at h
  obtain ⟨⟨parsedSize, executionPrice⟩, hform, h⟩ := Gate.bind_ok h
  obtain ⟨hsize, hprice⟩ := checkForm_ok hform
  simp only at h
  split at h
  · cases h
  · split at h
    · cases h
    · split at h
      · cases h
      · obtain ⟨productId, -, h⟩ := Gate.bind_ok h
        obtain ⟨_, -, h⟩ := Gate.bind_ok h
        obtain ⟨rawAmountX18, hamount, h⟩ := Gate.bind_ok h
        obtain ⟨rawPriceX18, hraw, h⟩ := Gate.bind_ok h
        cases h
        exact ⟨⟨parsedSize, hsize, hamount⟩, ⟨executionPrice, hprice, hraw⟩, rfl⟩

/-- An order is made only of an amount and a price that stay positive. -/
theorem alignOrder_eq_ok {services : Services} {form : OrderForm} {draft : OrderDraft}
    {order : PlaceOrder} (h : alignOrder services form draft = .ok order) :
    let amount :=
      alignAmountToIncrementX18 draft.rawAmountX18 draft.increments.sizeIncrementX18
    let price := alignPriceToIncrementX18 draft.rawPriceX18 draft.increments.priceIncrementX18
    0 < amount ∧ 0 < price ∧
      order.amount = toString (if form.side = .sell then -amount else amount) ∧
      order.price = services.formatUnits price := by
  unfold alignOrder at h
  simp only at h ⊢
  split at h
  · cases h
  · split at h
    · cases h
    · cases h
      refine ⟨by omega, by omega, rfl, rfl⟩

/-- An amount and a price that stay positive make an order. -/
theorem alignOrder_of_pos {services : Services} {form : OrderForm} {draft : OrderDraft}
    (hamount : 0 <
      alignAmountToIncrementX18 draft.rawAmountX18 draft.increments.sizeIncrementX18)
    (hprice : 0 <
      alignPriceToIncrementX18 draft.rawPriceX18 draft.increments.priceIncrementX18) :
    ∃ order, alignOrder services form draft = .ok order := by
  unfold alignOrder
  simp only
  rw [if_neg (by omega), if_neg (by omega)]
  exact ⟨_, rfl⟩

theorem placedOrder_eq_some {services : Services} {form : OrderForm} {order : PlaceOrder} :
    placedOrder services form = some order ↔ form.submitting = false ∧
      ∃ draft, readOrder services form = .ok draft ∧
        alignOrder services form draft = .ok order := by
  rw [← Gate.bind_eq_ok]
  unfold placedOrder handleSubmitOrder
  cases form.submitting with
  | true => simp
  | false =>
    cases readOrder services form >>= alignOrder services form with
    | error message => simp
    | ok order' => simp

/-- Nothing is signed if an alignment gives zero. -/
theorem placedOrder_eq_none {services : Services} {form : OrderForm} {draft : OrderDraft}
    (hdraft : readOrder services form = .ok draft)
    (hzero : alignAmountToIncrementX18 draft.rawAmountX18 draft.increments.sizeIncrementX18 = 0 ∨
      alignPriceToIncrementX18 draft.rawPriceX18 draft.increments.priceIncrementX18 = 0) :
    placedOrder services form = none := by
  rw [Option.eq_none_iff_forall_ne_some]
  intro order horder
  obtain ⟨-, draft', hdraft', hok⟩ := placedOrder_eq_some.1 horder
  rw [hdraft] at hdraft'
  cases hdraft'
  obtain ⟨hamount, hprice, -⟩ := alignOrder_eq_ok hok
  omega

/-- The signed amount and price are the entered ones, aligned; an order is signed if they stay
positive, and no order if one of them is zero. -/
theorem order_entry_sound (services : Services) (form : OrderForm) :
    (∀ order, placedOrder services form = some order →
      ∃ draft, readOrder services form = .ok draft ∧ Reads services form draft ∧
        ∃ amount price, order.amount = toString (if form.side = .sell then -amount else amount) ∧
          order.price = services.formatUnits price ∧
          amount = alignAmountToIncrementX18 draft.rawAmountX18
            draft.increments.sizeIncrementX18 ∧
          price = alignPriceToIncrementX18 draft.rawPriceX18
            draft.increments.priceIncrementX18 ∧
          ∀ increment, draft.increments.sizeIncrementX18 = some increment →
            IsGreatest {m | increment ∣ m ∧ m ≤ draft.rawAmountX18} amount) ∧
    (∀ draft, form.submitting = false → readOrder services form = .ok draft →
      let amount :=
        alignAmountToIncrementX18 draft.rawAmountX18 draft.increments.sizeIncrementX18
      let price :=
        alignPriceToIncrementX18 draft.rawPriceX18 draft.increments.priceIncrementX18
      0 < amount → 0 < price → ∃ order, placedOrder services form = some order ∧
        order.amount = toString (if form.side = .sell then -amount else amount) ∧
        order.price = services.formatUnits price) ∧
    (∀ draft, readOrder services form = .ok draft →
      alignAmountToIncrementX18 draft.rawAmountX18 draft.increments.sizeIncrementX18 = 0 ∨
        alignPriceToIncrementX18 draft.rawPriceX18 draft.increments.priceIncrementX18 = 0 →
      placedOrder services form = none) ∧
    (∀ size increment, 0 < size → 0 < increment →
      IsGreatest {m | increment ∣ m ∧ m ≤ size}
        (alignAmountToIncrementX18 size (some increment))) ∧
    (∀ price increment, 0 < price → 0 < increment →
      let aligned := alignPriceToIncrementX18 price (some increment)
      increment ∣ aligned ∧ 2 * |aligned - price| ≤ increment ∧
        (2 * |aligned - price| = increment → aligned < price)) ∧
    (∀ increment, Monotone (alignAmountToIncrementX18 · increment) ∧
      Monotone (alignPriceToIncrementX18 · increment)) ∧
    ∀ increment x,
      alignAmountToIncrementX18 (alignAmountToIncrementX18 x increment) increment =
        alignAmountToIncrementX18 x increment ∧
      alignPriceToIncrementX18 (alignPriceToIncrementX18 x increment) increment =
        alignPriceToIncrementX18 x increment := by
  refine ⟨fun order horder => ?_, fun draft hfree hdraft hamount hprice => ?_,
    fun draft hdraft hzero => placedOrder_eq_none hdraft hzero,
    fun size increment hs hi => alignAmount_isGreatest hs hi,
    fun price increment hp hi => alignPrice_closest hp hi,
    fun increment => ⟨alignAmount_mono increment, alignPrice_mono increment⟩,
    fun increment x => ⟨alignAmount_idempotent increment x, alignPrice_idempotent increment x⟩⟩
  · obtain ⟨-, draft, hdraft, hok⟩ := placedOrder_eq_some.1 horder
    obtain ⟨hamount, -, ha, hp⟩ := alignOrder_eq_ok hok
    have hreads := readOrder_reads hdraft
    refine ⟨draft, hdraft, hreads, _, _, ha, hp, rfl, rfl, fun increment hincrement => ?_⟩
    have hi : 0 < increment := by
      rw [hreads.increments] at hincrement
      exact resolveIncrements_pos (.inr hincrement)
    rw [hincrement] at hamount ⊢
    refine alignAmount_isGreatest ?_ hi
    by_contra hraw
    rw [alignAmount_aligns.kept _ _ (.inl (by omega))] at hamount
    omega
  · obtain ⟨order, hok⟩ := alignOrder_of_pos hamount hprice
    obtain ⟨-, -, ha, hp⟩ := alignOrder_eq_ok hok
    exact ⟨order, placedOrder_eq_some.2 ⟨hfree, draft, hdraft, hok⟩, ha, hp⟩

/-- The text's entry, as far as a table has it. -/
def parseTable (table : List (String × Int)) (text : String) : Except String Int :=
  match table.lookup text with
  | some value => return value
  | none => throw "Invalid number"

/-- A market with a tick of 0.1 and a lot of 0.001. -/
def tickServices : Services where
  parseUnits := parseTable [("0.1", 100000000000000000), ("1.2345", 1234500000000000000),
    ("0.0004", 400000000000000), ("100.07", 100070000000000000000)]
  formatUnits value := if value = 100100000000000000000 then "100.1" else "0"
  bigInt := parseTable [("1000000000000000", 1000000000000000)]
  numberText _ := ""
  toFixed _ _ := ""
  trim := id
  nowSec := 1700000000
  getNadoClient := some ⟨some ⟨true, true⟩⟩
  resolveProductIdViaClient _ := return none
  getSymbols _ := return [⟨some 2, "0.1", "1000000000000000"⟩]
  packOrderAppendix _ _ := 1
  placeOrder _ := return ⟨"", "0xabc"⟩

def sellForm (size : String) (parsedSize : ℚ) : OrderForm where
  submitting := false
  walletConnected := true
  ownerAddress := "0xabc"
  gatewayStatus := "ready"
  gatewayDetail := ""
  orderType := .limit
  parsedSize := some parsedSize
  executionPrice := some (10007 / 100)
  sizeInput := size
  limitPriceInput := "100.07"
  marketProductId := some 2
  symbol := "BTC-PERP"
  side := .sell
  postOnly := false
  tif := .gtc
  reduceOnly := false
  subaccountName := "default"

/-- The order of 1.2345 at 100.07. -/
def sellOrder : PlaceOrder where
  productId := 2
  subaccountOwner := "0xabc"
  subaccountName := "default"
  expiration := "1702592000"
  price := "100.1"
  amount := "-1234000000000000000"
  appendix := "1"

/-- 1.2345 is cut to a lot, and 0.0004 is less than a lot. -/
theorem order_entry_sound_sell :
    placedOrder tickServices (sellForm "1.2345" (12345 / 10000)) = some sellOrder ∧
      (∃ draft, readOrder tickServices (sellForm "1.2345" (12345 / 10000)) = .ok draft ∧
        ∃ amount : Int, sellOrder.amount = toString (-amount) ∧
          ∀ increment, draft.increments.sizeIncrementX18 = some increment →
            IsGreatest {m | increment ∣ m ∧ m ≤ draft.rawAmountX18} amount) ∧
      (∃ order, placedOrder tickServices (sellForm "1.2345" (12345 / 10000)) = some order ∧
        order.amount = "-1234000000000000000" ∧ order.price = "100.1") ∧
      placedOrder tickServices (sellForm "0.0004" (4 / 10000)) = none := by
  have hplaced : placedOrder tickServices (sellForm "1.2345" (12345 / 10000)) =
      some sellOrder := by decide +kernel
  obtain ⟨hsigned, hmade, -⟩ :=
    order_entry_sound tickServices (sellForm "1.2345" (12345 / 10000))
  refine ⟨hplaced, ?_, ?_, ?_⟩
  · obtain ⟨draft, hdraft, -, amount, _, ha, -, -, -, hgreatest⟩ := hsigned sellOrder hplaced
    exact ⟨draft, hdraft, amount, ha, hgreatest⟩
  · exact hmade ⟨2, 1234500000000000000, 100070000000000000000,
      ⟨some 100000000000000000, some 1000000000000000⟩⟩ rfl (by decide +kernel) (by decide)
      (by decide)
  · exact (order_entry_sound tickServices (sellForm "0.0004" (4 / 10000))).2.2.1
      ⟨2, 400000000000000, 100070000000000000000,
        ⟨some 100000000000000000, some 1000000000000000⟩⟩ (by decide +kernel) (.inl (by decide))

end Client
