import Mathlib.Data.Rat.Floor
import Thornado.Lib.Gate

/-!
# The withdraw dialog

`NadoDepositWithdrawModal` of `client/src/components/portfolio/NadoDepositWithdrawModal.jsx` in the
mode `withdraw`, and what it uses of `client/src/lib/nadoSpotCollateral.js`. An event is an action
of the user or a response that arrives, in any order; what runs between two of them is one step.
The wallet's network, the owner and the exchange stay the same. A missing text is empty, and an
error is its message. The step texts, the menus and the rows of the assets other than their
product are only displayed.

* `runWithdraw_eq_ok`: what a withdraw is when all its checks pass.
* `step`: the events, over the dialog and what it did so far.
-/

namespace Client.Withdraw

/-- A market of `getAllMarkets`. -/
structure Market where
  productId : Nat
  /-- `type === ProductEngineType.SPOT` -/
  spot : Bool
  tokenAddr : String

/-- What the dialog is given. -/
structure Services where
  trim : String → String
  /-- `parseFloat(s)`, where it is finite -/
  parseFloat : String → Option ℚ
  parseUnits : String → Nat → Except String Int
  formatUnits : Int → Nat → String
  getAllMarkets : List Market
  /-- `decimals()` of the token at an address -/
  decimals : String → Nat
  ownerAddress : String
  subaccountName : String

structure SpotCollateralMeta where
  productId : Nat
  tokenAddr : String
  decimals : Nat
  deriving DecidableEq

/-- An answer of `getMaxWithdrawable`. -/
inductive EngineValue where
  | null
  | bigint (n : Int)
  /-- any other value, as `new BigNumber(String(v))` reads it where that is finite -/
  | other (q : Option ℚ)
  deriving DecidableEq

/-! ## Amounts -/

def bnToBigInt : EngineValue → Option Int
  | .null => none
  | .bigint n => some n
  | .other q => q.map Rat.floor

def engineAmountX18Decimals : Nat := 18

/-- `/` of a `BigInt` truncates. -/
def engineX18ToTokenRaw (x18 : Int) (tokenDecimals : Nat) : Int :=
  (x18 * 10 ^ tokenDecimals).tdiv (10 ^ engineAmountX18Decimals)

def getSpotCollateralMeta (services : Services) (productId : Nat) :
    Except String SpotCollateralMeta :=
  match services.getAllMarkets.find? fun m => m.productId = productId ∧ m.spot with
  | some spot =>
    if spot.tokenAddr = "" then .error s!"Spot product {productId} not found"
    else .ok ⟨productId, spot.tokenAddr, services.decimals spot.tokenAddr⟩
  | none => .error s!"Spot product {productId} not found"

def parseHumanAmount (services : Services) (amountStr : String) (decimals : Nat) :
    Except String Int :=
  let s := services.trim amountStr
  if s = "" then .error "Enter an amount" else services.parseUnits s decimals

/-- `text.replace(',', '.')`: the first comma. -/
def replaceComma (text : String) : String :=
  let chars := text.toList
  match chars.dropWhile (· ≠ ',') with
  | [] => text
  | _ :: rest => String.ofList (chars.takeWhile (· ≠ ',') ++ '.' :: rest)

/-! ## The dialog -/

/-- Which response a request waits for. -/
inductive Phase where
  | metadata
  | maximum
  | finished
  deriving DecidableEq

/-- A run of the effect on `productId`. -/
structure Request where
  productId : Nat
  cancelled : Bool
  phase : Phase
  deriving DecidableEq

/-- The arguments of `executeWithdraw`. -/
structure WithdrawArgs where
  subaccountOwner : String
  subaccountName : String
  productId : Nat
  amount : Int
  deriving DecidableEq

/-- A withdraw whose checks passed, with the text that was entered and the guard it passed. -/
structure Submission where
  args : WithdrawArgs
  amount : String
  maxTokenRaw : Option Int
  deriving DecidableEq

/-- Where `runWithdraw` waits. -/
inductive Pending where
  | idle
  | readNSubmissions (w : Submission)
  | executeWithdraw (w : Submission)
  deriving DecidableEq

structure Dialog where
  productId : Option Nat
  spotOptions : List Nat
  amount : String
  meta_ : Option SpotCollateralMeta
  metaError : Option String
  maxWithdraw : Option EngineValue
  error : Option String
  requests : List Request
  pending : Pending
  deriving DecidableEq

/-- The wallet at the moment of a submit. -/
structure Wallet where
  /-- the client of `getNadoClient` has a `walletClient` -/
  walletClient : Bool
  /-- `chainId === activeChain.id` -/
  rightChain : Bool
  deriving DecidableEq

namespace Dialog

def start : Dialog := ⟨none, [], "", none, none, none, none, [], .idle⟩

def busy (s : Dialog) : Bool := s.pending ≠ .idle

/-- `BigInt("null")` throws, which is caught. -/
def maxTokenRaw (s : Dialog) : Option Int := do
  let maxWithdraw ← s.maxWithdraw
  let m ← s.meta_
  let x18 ← bnToBigInt maxWithdraw
  return engineX18ToTokenRaw x18 m.decimals

def maxLabel (services : Services) (s : Dialog) : Option String := do
  let maxTokenRaw ← s.maxTokenRaw
  let m ← s.meta_
  return services.formatUnits maxTokenRaw m.decimals

/-- The cleanups of the effect's earlier runs. -/
def cancelRequests (s : Dialog) : Dialog :=
  { s with requests := s.requests.map fun r => { r with cancelled := true } }

def reset (s : Dialog) : Dialog :=
  { s.cancelRequests with
    productId := none, spotOptions := [], amount := "", meta_ := none, metaError := none,
    maxWithdraw := none, error := none }

/-- The effect runs again when the product changes, and asks if there is a client. -/
def setProductId (s : Dialog) (productId : Option Nat) (hasClient : Bool) : Dialog :=
  if productId = s.productId then s
  else
    let s := { s.cancelRequests with productId := productId }
    match productId with
    | none => s
    | some p =>
      if hasClient then
        { s with metaError := none, requests := s.requests ++ [⟨p, false, .metadata⟩] }
      else s

def onProducts (s : Dialog) (list : List Nat) (hasClient : Bool) : Dialog :=
  { s with spotOptions := list }.setProductId
    (if s.productId.any (· ∈ list) then s.productId else list.head?) hasClient

def setPhase (s : Dialog) (i : Nat) (phase : Phase) : Dialog :=
  { s with requests := s.requests.modify i fun r => { r with phase := phase } }

/-- What the effect does at once: nothing, or it cancels the earlier requests and may send one. -/
theorem setProductId_cases (s : Dialog) (productId : Option Nat) (hasClient : Bool) :
    s.setProductId productId hasClient = s ∨
    s.setProductId productId hasClient = { s.cancelRequests with productId := productId } ∨
    ∃ p, productId = some p ∧ s.setProductId productId hasClient =
      { s.cancelRequests with
        productId := productId, metaError := none,
        requests := s.cancelRequests.requests ++ [⟨p, false, .metadata⟩] } := by
  unfold setProductId
  split
  · exact .inl rfl
  · cases productId with
    | none => exact .inr (.inl rfl)
    | some p =>
      cases hasClient with
      | false => exact .inr (.inl rfl)
      | true => exact .inr (.inr ⟨p, rfl, rfl⟩)

/-- The request `r` at `i` goes on with its metadata, or with a `failure` of one of the calls. -/
def onMetadata (services : Services) (s : Dialog) (i : Nat) (r : Request)
    (failure : Option String) : Dialog :=
  if r.cancelled then s.setPhase i .finished
  else
    match failure.elim (getSpotCollateralMeta services r.productId) .error with
    | .ok m =>
      if services.ownerAddress ≠ "" then { s.setPhase i .maximum with meta_ := some m }
      else { s.setPhase i .finished with meta_ := some m, maxWithdraw := none }
    | .error message =>
      { s.setPhase i .finished with metaError := some message, meta_ := none }

/-- The request `r` at `i` ends with the answer of `fetchMaxWithdrawable`. -/
def onMaximum (s : Dialog) (i : Nat) (r : Request) (answer : Except String EngineValue) : Dialog :=
  if r.cancelled then s.setPhase i .finished
  else
    match answer with
    | .ok max => { s.setPhase i .finished with maxWithdraw := some max }
    | .error message =>
      { s.setPhase i .finished with metaError := some message, meta_ := none }

/-! ## Submitting -/

/-- The guard of a withdraw. -/
def checkMax (services : Services) (decimals : Nat) (raw : Int) : Option Int → Except String Unit
  | none => .ok ()
  | some maxTokenRaw =>
    if raw > maxTokenRaw then
      .error ("Amount exceeds max withdrawable (" ++ services.formatUnits maxTokenRaw decimals
        ++ ").")
    else .ok ()

/-- `runWithdraw` until it waits for the first time. -/
def runWithdraw (services : Services) (s : Dialog) (wallet : Wallet) : Except String Submission :=
  if !wallet.walletClient then .error "Connect wallet on the correct network"
  else
    match s.meta_, s.productId with
    | some m, some productId =>
      if !wallet.rightChain then .error "Switch wallet to the selected Nado network first"
      else do
        let raw ← parseHumanAmount services s.amount m.decimals
        checkMax services m.decimals raw s.maxTokenRaw
        return {
          args := ⟨services.ownerAddress, services.subaccountName, productId, raw⟩
          amount := s.amount
          maxTokenRaw := s.maxTokenRaw }
    | _, _ => .error "Choose a token"

theorem checkMax_eq_ok {services : Services} {decimals : Nat} {raw : Int} {max : Option Int}
    (h : checkMax services decimals raw max = .ok ()) : ∀ g ∈ max, raw ≤ g := by
  intro g hg
  cases hg
  by_contra hlt
  rw [checkMax, if_pos (by omega)] at h
  cases h

theorem runWithdraw_eq_ok {services : Services} {s : Dialog} {wallet : Wallet} {w : Submission}
    (h : s.runWithdraw services wallet = .ok w) :
    ∃ m productId raw, s.meta_ = some m ∧ s.productId = some productId ∧
      parseHumanAmount services s.amount m.decimals = .ok raw ∧
      (∀ g ∈ s.maxTokenRaw, raw ≤ g) ∧
      w = ⟨⟨services.ownerAddress, services.subaccountName, productId, raw⟩, s.amount,
        s.maxTokenRaw⟩ := by
  unfold runWithdraw at h
  split at h
  · cases h
  · split at h
    · rename_i m productId hm hp
      split at h
      · cases h
      · obtain ⟨raw, hraw, h⟩ := Gate.bind_ok h
        obtain ⟨_, hmax, h⟩ := Gate.bind_ok h
        cases h
        exact ⟨m, productId, raw, hm, hp, hraw, checkMax_eq_ok hmax, rfl⟩
    · cases h

def submitDisabled (services : Services) (s : Dialog) (wallet : Wallet) : Bool :=
  s.busy || s.meta_.isNone || services.trim s.amount = "" || s.productId.isNone ||
    s.spotOptions.isEmpty || !wallet.rightChain

def onSubmit (services : Services) (s : Dialog) (wallet : Wallet) : Dialog :=
  let s := { s with error := none }
  let trimmed := replaceComma (services.trim s.amount)
  if trimmed = "" ∨ ∀ n ∈ services.parseFloat trimmed, n ≤ 0 then
    { s with error := some "Enter a positive amount" }
  else if s.productId = none then { s with error := some "Select an asset" }
  else
    match s.runWithdraw services wallet with
    | .ok w => { s with pending := .readNSubmissions w }
    | .error message => { s with error := some message }

/-- A submit shows an error or starts to wait. -/
theorem onSubmit_eq (services : Services) (s : Dialog) (wallet : Wallet) :
    ∃ error pending,
      s.onSubmit services wallet = { s with error := error, pending := pending } := by
  unfold onSubmit
  dsimp only
  split
  · exact ⟨_, _, rfl⟩
  · split
    · exact ⟨_, _, rfl⟩
    · split
      · exact ⟨_, _, rfl⟩
      · exact ⟨_, _, rfl⟩

end Dialog

/-! ## The events -/

inductive Event where
  | products (list : List Nat) (hasClient : Bool)
  | productsFailed (message : String)
  | select (productId : Nat) (hasClient : Bool)
  | metadata (request : Nat) (failure : Option String)
  | maximum (request : Nat) (answer : Except String EngineValue)
  | changeAmount (text : String)
  | useMax
  | submit (wallet : Wallet)
  | nSubmissions (failure : Option String)
  | withdrawn (failure : Option String)
  | close

/-- The dialog and its past: what the engine reported for which product, for which product it
reported the maximum that the dialog holds, and the withdraws that were executed. -/
structure History where
  dialog : Dialog
  reports : List (Nat × EngineValue)
  maxOf : Option Nat
  executed : List Submission
  deriving DecidableEq

def History.start : History := ⟨.start, [], none, []⟩

def History.onMaximum (h : History) (i : Nat) (r : Request) (answer : Except String EngineValue) :
    History :=
  let dialog := h.dialog.onMaximum i r answer
  match answer with
  | .ok max => { h with
      dialog := dialog
      reports := h.reports ++ [(r.productId, max)]
      maxOf := if r.cancelled then h.maxOf else some r.productId }
  | .error _ => { h with dialog := dialog }

/-- A menu that is open stays open while a withdraw runs, so the product can change at any time. -/
def step (services : Services) (h : History) : Event → Option History
  | .products list hasClient => some { h with dialog := h.dialog.onProducts list hasClient }
  | .productsFailed message =>
    some { h with dialog := { h.dialog with metaError := some message, spotOptions := [] } }
  | .select productId hasClient =>
    if productId ∈ h.dialog.spotOptions then
      some { h with dialog := h.dialog.setProductId (some productId) hasClient }
    else none
  | .metadata i failure =>
    (h.dialog.requests[i]?.filter (·.phase = .metadata)).map fun r =>
      { h with dialog := h.dialog.onMetadata services i r failure }
  | .maximum i answer =>
    (h.dialog.requests[i]?.filter (·.phase = .maximum)).map fun r => h.onMaximum i r answer
  | .changeAmount text =>
    if h.dialog.busy || h.dialog.meta_.isNone then none
    else some { h with dialog := { h.dialog with amount := text, error := none } }
  | .useMax =>
    if h.dialog.busy then none
    else (h.dialog.maxLabel services).map fun maxLabel =>
      { h with dialog := { h.dialog with amount := maxLabel } }
  | .submit wallet =>
    if h.dialog.submitDisabled services wallet then none
    else some { h with dialog := h.dialog.onSubmit services wallet }
  | .nSubmissions failure =>
    match h.dialog.pending with
    | .readNSubmissions w => match failure with
      | none => some { h with
          dialog := { h.dialog with pending := .executeWithdraw w }
          executed := h.executed ++ [w] }
      | some message => some { h with
          dialog := { h.dialog with error := some message, pending := .idle } }
    | _ => none
  | .withdrawn failure =>
    match h.dialog.pending with
    | .executeWithdraw _ => match failure with
      | none => some { h with dialog := { h.dialog.reset with pending := .idle } }
      | some message => some { h with
          dialog := { h.dialog with error := some message, pending := .idle } }
    | _ => none
  | .close => if h.dialog.busy then none else some { h with dialog := h.dialog.reset }

/-- What a step can do. -/
inductive Outcome (services : Services) (h : History) : Event → History → Prop where
  | shown {e : Event} (spotOptions : List Nat) (amount : String) (metaError error : Option String) :
    Outcome services h e { h with dialog := { h.dialog with
      spotOptions := spotOptions, amount := amount, metaError := metaError, error := error } }
  | selected {e : Event} (spotOptions : List Nat) (productId : Option Nat) (hasClient : Bool) :
    Outcome services h e { h with
      dialog := { h.dialog with spotOptions := spotOptions }.setProductId productId hasClient }
  | metadata {i : Nat} {r : Request} (failure : Option String) :
    h.dialog.requests[i]? = some r → r.phase = .metadata →
    Outcome services h (.metadata i failure)
      { h with dialog := h.dialog.onMetadata services i r failure }
  | maximum {i : Nat} {r : Request} (answer : Except String EngineValue) :
    h.dialog.requests[i]? = some r → r.phase = .maximum →
    Outcome services h (.maximum i answer) (h.onMaximum i r answer)
  | submitted (wallet : Wallet) :
    Outcome services h (.submit wallet) { h with dialog := h.dialog.onSubmit services wallet }
  | executed {e : Event} (w : Submission) : h.dialog.pending = .readNSubmissions w →
    Outcome services h e { h with
      dialog := { h.dialog with pending := .executeWithdraw w }, executed := h.executed ++ [w] }
  | failed {e : Event} (message : String) :
    Outcome services h e { h with
      dialog := { h.dialog with error := some message, pending := .idle } }
  | closed {e : Event} :
    Outcome services h e { h with dialog := { h.dialog.reset with pending := .idle } }

theorem step_cases {services : Services} {h h' : History} {e : Event}
    (hs : step services h e = some h') : Outcome services h e h' := by
  cases e with
  | products list hasClient =>
    cases hs
    exact .selected list _ hasClient
  | productsFailed message =>
    cases hs
    exact .shown [] _ (some message) _
  | select productId hasClient =>
    dsimp only [step] at hs
    split at hs
    · cases hs
      exact .selected _ _ hasClient
    · cases hs
  | metadata i failure =>
    obtain ⟨r, hr, hs⟩ := Option.map_eq_some_iff.1 hs
    obtain ⟨hr, hphase⟩ := Option.filter_eq_some_iff.1 hr
    cases hs
    exact .metadata failure hr (of_decide_eq_true hphase)
  | maximum i answer =>
    obtain ⟨r, hr, hs⟩ := Option.map_eq_some_iff.1 hs
    obtain ⟨hr, hphase⟩ := Option.filter_eq_some_iff.1 hr
    cases hs
    exact .maximum answer hr (of_decide_eq_true hphase)
  | changeAmount text =>
    dsimp only [step] at hs
    split at hs
    · cases hs
    · cases hs
      exact .shown _ text _ none
  | useMax =>
    dsimp only [step] at hs
    split at hs
    · cases hs
    · obtain ⟨maxLabel, _, hs⟩ := Option.map_eq_some_iff.1 hs
      cases hs
      exact .shown _ maxLabel _ _
  | submit wallet =>
    dsimp only [step] at hs
    split at hs
    · cases hs
    · cases hs
      exact .submitted wallet
  | nSubmissions failure =>
    dsimp only [step] at hs
    split at hs
    · rename_i w hw
      cases failure with
      | none =>
        cases hs
        exact .executed w hw
      | some message =>
        cases hs
        exact .failed message
    · cases hs
  | withdrawn failure =>
    dsimp only [step] at hs
    split at hs
    · cases failure with
      | none =>
        cases hs
        exact .closed
      | some message =>
        cases hs
        exact .failed message
    · cases hs
  | close =>
    dsimp only [step] at hs
    split at hs
    · cases hs
    · rename_i hbusy
      have hidle : h.dialog.pending = .idle := by simpa [Dialog.busy] using hbusy
      have hreset : { h.dialog.reset with pending := .idle } = h.dialog.reset := by
        rw [← hidle]
        rfl
      cases hs
      rw [← hreset]
      exact .closed

end Client.Withdraw
