import Mathlib
import Thornado.Lib.Hex
import Thornado.Go.Header
import Thornado.Auth.Session
import Thornado.Execution.Policy
import Thornado.Execution.Subaccount

/-!
# From a cookie to the exchange

The execution routes of the API gateway (`gateway/execution_proxy.go`) in front of the execution
gateway. The proxy makes a request of its own, with the address of the session in a header; the
execution gateway reads the header, validates the body and sends it to the exchange. A system runs
the logins and the requests of any number of clients, in any order.

* `forward_justified`: what the execution gateway sends on for a session.
* `executed_justified`: what reaches the exchange was sent with a token that was issued to the owner
  of its subaccounts, and is signed by the owner or the linked signer.
-/

namespace Execution

open Go Transition
open Auth (Env HTTPError TokenLibrary requireAuth sessionAddressFromContext)

/-- `executionSessionHeader` of the proxy, and `SESSION_HEADER` of the gateway in lower case. -/
def executionSessionHeader : String := "X-Thornado-Session-Address"

def sessionHeader : String := "x-thornado-session-address"

/-! ## The execution routes -/

/-- A request of a client, as far as the proxy reads it. -/
structure ClientRequest where
  cookie : Option String
  contentType : String
  accept : String
  now : Int

/-- The header of the request that `proxyWithSession` makes. -/
def proxyHeader (r : ClientRequest) (sessionAddress : String) : Header :=
  let h := Header.set ∅ executionSessionHeader sessionAddress
  let h := if r.contentType ≠ "" then h.set "Content-Type" r.contentType else h
  h.set "Accept" (if r.accept ≠ "" then r.accept else "application/json")

section
variable [UnicodeCase] (env : Env) (library : TokenLibrary)

/-- A request past `requireAuth` and `proxy`: the lines of the header that goes to the service. -/
def proxy (r : ClientRequest) : Except HTTPError (List (String × String)) := do
  let address ← requireAuth env library r.cookie r.now
  let sessionAddress ← sessionAddressFromContext address
  return (proxyHeader r sessionAddress).lines

end

/-- `HeaderValue::to_str` reads a value of visible ASCII characters. -/
def visibleAscii (s : String) : Bool :=
  s.toList.all fun c => c == '\t' || (32 ≤ c.toNat && c.toNat < 127)

/-- `session_address_from_headers`, over the gateway's own error type. -/
def addressFromHeaders {E : Type} (unauthorized : String → E) (fromStr : String → Option H160)
    (headers : List (String × String)) : Except E H160 :=
  match field headers sessionHeader with
  | none => throw (unauthorized "missing session address header")
  | some value =>
    if !visibleAscii value then throw (unauthorized "invalid session address header")
    else
      match fromStr value with
      | none => throw (unauthorized ("invalid session address: " ++ value))
      | some address => return address

/-- `session_address_from_headers`. The parser is `H160::from_str`. -/
def sessionAddressFromHeaders (fromStr : String → Option H160)
    (headers : List (String × String)) : Except ApiError H160 :=
  addressFromHeaders .unauthorized fromStr headers

/-- `post_execute` and `post_execute_trigger`, up to the request to the exchange. -/
def handle {Request : Type} (fromStr : String → Option H160)
    (post : H160 → Request → Except ApiError Request) (headers : List (String × String))
    (request : Request) : Except ApiError Request := do
  let sessionAddress ← sessionAddressFromHeaders fromStr headers
  post sessionAddress request

/-- The text of an address is read back. -/
def ReadsAddresses (fromStr : String → Option H160) : Prop :=
  ∀ address, fromStr (hexAddress address) = some address

/-! ## The address that the service reads -/

theorem field_proxyHeader (r : ClientRequest) (sessionAddress : String) :
    field (proxyHeader r sessionAddress).lines sessionHeader = some sessionAddress := by
  have hv : validName sessionHeader = true := by decide
  have hset : (Header.set ∅ executionSessionHeader sessionAddress).Has sessionHeader
      [sessionAddress] :=
    .set_self Header.canonical_empty hv (by decide) (by decide) _
  have hhas : (proxyHeader r sessionAddress).Has sessionHeader [sessionAddress] := by
    unfold proxyHeader
    dsimp only
    split
    · exact (hset.set_ne hv (by decide) (by decide) _).set_ne hv (by decide) (by decide) _
    · exact hset.set_ne hv (by decide) (by decide) _
  rw [Header.field_eq hhas.canonical hv, hhas.values_eq]
  rfl

theorem visibleAscii_hexAddress (address : H160) : visibleAscii (hexAddress address) = true := by
  have hvisible : visibleAscii (String.ofList Auth.addressChars) = true := by decide
  unfold visibleAscii at hvisible ⊢
  rw [String.toList_ofList, List.all_eq_true] at hvisible
  exact List.all_eq_true.2 fun c hc => hvisible c (Auth.hexAddress_toList address c hc)

/-- **The header carries the address**: the service reads the address that the proxy wrote. -/
theorem addressFromHeaders_hexAddress {E : Type} (unauthorized : String → E)
    {fromStr : String → Option H160} (hreads : ReadsAddresses fromStr)
    {headers : List (String × String)} {address : H160}
    (hfield : field headers sessionHeader = some (hexAddress address)) :
    addressFromHeaders unauthorized fromStr headers = .ok address := by
  unfold addressFromHeaders
  rw [hfield]
  dsimp only
  rw [visibleAscii_hexAddress, if_neg (by decide), hreads address]
  rfl

theorem sessionAddressFromContext_hexAddress {Message : Type} [UnicodeCase]
    {outside : Auth.Outside Message H160} {library : TokenLibrary}
    (haddress : Auth.AddressText outside library) (address : H160) :
    sessionAddressFromContext (hexAddress address) = .ok (hexAddress address) := by
  unfold sessionAddressFromContext
  rw [Auth.trimSpace_hexAddress, if_neg (Auth.hexAddress_ne_empty address), haddress.lower]
  rfl

/-! ## The system -/

/-- A request that reached the exchange, with the cookie it was sent with and what the outside
answered to the gateway's questions. -/
structure Sent (Sig Request : Type) where
  client : ClientRequest
  outside : Outside Sig
  request : Request

structure System (Message Sig : Type) where
  auth : Auth.Sys Message
  engine : List (Sent Sig Engine.Execute) := []
  trigger : List (Sent Sig Trigger.Execute) := []

inductive Act (Sig : Type) where
  | login (a : Auth.Act)
  | logout
  | execute (client : ClientRequest) (outside : Outside Sig) (request : Engine.Execute)
  | executeTrigger (client : ClientRequest) (outside : Outside Sig) (request : Trigger.Execute)

section
variable {Message Sig : Type} [UnicodeCase] (env : Env) (auth : Auth.Outside Message H160)
  (library : TokenLibrary) (fromStr : String → Option H160)

/-- A request to one of the endpoints, as it reaches the exchange, if it does. -/
def forward {Request : Type} (post : Outside Sig → H160 → Request → Except ApiError Request)
    (client : ClientRequest) (outside : Outside Sig) (request : Request) :
    Option (Sent Sig Request) := do
  let headers ← (proxy env library client).toOption
  let request ← (handle fromStr (post outside) headers request).toOption
  return { client, outside, request }

def step (s : System Message Sig) : Act Sig → Option (System Message Sig)
  | .login a => (Auth.step env auth s.auth a).map fun auth => { s with auth }
  -- the server keeps nothing that a logout could remove
  | .logout => some s
  | .execute client outside request =>
    some { s with
      engine := s.engine ++
        (forward env library fromStr postExecute client outside request).toList }
  | .executeTrigger client outside request =>
    some { s with
      trigger := s.trigger ++
        (forward env library fromStr postExecuteTrigger client outside request).toList }

/-- Nonces are not handed out twice, and no client makes up a token. -/
def Honest (decode : String → Option (Auth.SigningMethod × Auth.JwtClaims))
    (verify : String → Auth.SigningMethod → String → Prop) (s : System Message Sig) :
    Act Sig → Prop
  | .login a => Auth.FreshNonce s.auth a
  | .logout => True
  | .execute client _ _ | .executeTrigger client _ _ =>
    ∀ cookie ∈ client.cookie, Auth.Unforged env decode verify s.auth cookie

def Start (s : System Message Sig) : Prop := ∃ clock, s = { auth := { clock } }

/-- The request was sent with a token of this login, which was issued to the signer less than a day
before, and belongs to the signer. -/
structure Justified {Request : Type} (Authorized : Outside Sig → H160 → Request → Prop)
    (recover : Message → String → Option H160) (r : Sent Sig Request) (e : Auth.Issued Message) :
    Prop where
  cookie : r.client.cookie = some e.login.token.signed
  fresh : r.client.now < e.login.token.claims.issuedAt + Auth.jwtTTL
  signer : ∃ signer, recover e.msg e.signature = some signer ∧
    Authorized r.outside signer r.request

end

section
variable {Message Sig : Type} [UnicodeCase] {env : Env} {auth : Auth.Outside Message H160}
  {library : TokenLibrary} {fromStr : String → Option H160}
  {decode : String → Option (Auth.SigningMethod × Auth.JwtClaims)}
  {verify : String → Auth.SigningMethod → String → Prop}
  {recover : Message → String → Option H160} {validAt : Message → Int → Prop}

/-- A request that is forwarded passed the checks of the endpoint, for the address of its token. -/
theorem forward_justified (haccepts : auth.Accepts recover validAt)
    (hdocs : library.Documented auth decode verify) (haddress : Auth.AddressText auth library)
    (hreads : ReadsAddresses fromStr) {s : Auth.Sys Message}
    (h : Reach (Auth.step env auth) Auth.FreshNonce Auth.Start s) {Request : Type}
    {post : Outside Sig → H160 → Request → Except ApiError Request}
    {Authorized : Outside Sig → H160 → Request → Prop}
    (hpost : ∀ outside address request body, post outside address request = .ok body →
      Authorized outside address body)
    {client : ClientRequest} {outside : Outside Sig} {request : Request} {r : Sent Sig Request}
    (hhonest : ∀ cookie ∈ client.cookie, Auth.Unforged env decode verify s cookie)
    (hr : forward env library fromStr post client outside request = some r) :
    ∃ e ∈ s.issued, Justified Authorized recover r e := by
  unfold forward at hr
  obtain ⟨headers, hproxy, hr⟩ := Option.bind_eq_some_iff.1 hr
  obtain ⟨body, hhandle, hr⟩ := Option.bind_eq_some_iff.1 hr
  cases hr
  obtain ⟨address, hauth, hproxy⟩ := Gate.bind_ok (Gate.toOption_eq_some.1 hproxy)
  cases hcookie : client.cookie with
  | none =>
    rw [hcookie] at hauth
    cases hauth
  | some cookie =>
    rw [hcookie] at hauth
    obtain ⟨e, he, signer, rfl, hrecover, rfl, hnow⟩ :=
      (Auth.requireAuth_iff haccepts hdocs haddress h (hhonest cookie hcookie) _ _).1 hauth
    obtain ⟨sessionAddress, hcontext, hproxy⟩ := Gate.bind_ok hproxy
    rw [sessionAddressFromContext_hexAddress haddress] at hcontext
    cases hcontext
    cases hproxy
    obtain ⟨session, hsession, hbody⟩ := Gate.bind_ok (Gate.toOption_eq_some.1 hhandle)
    unfold sessionAddressFromHeaders at hsession
    rw [addressFromHeaders_hexAddress _ hreads (field_proxyHeader _ _)] at hsession
    cases hsession
    have hday := (Auth.issued_minted h e he).expired
    exact ⟨e, he, hcookie, hnow.trans_le hday, signer, hrecover, hpost _ _ _ _ hbody⟩

/-! ## What reaches the exchange -/

/-- What the exchange got is justified by the logins so far. -/
structure Inv (env : Env) (auth : Auth.Outside Message H160)
    (recover : Message → String → Option H160) (s : System Message Sig) : Prop where
  logins : Reach (Auth.step env auth) Auth.FreshNonce Auth.Start s.auth
  engine : ∀ r ∈ s.engine, ∃ e ∈ s.auth.issued, Justified EngineAuthorized recover r e
  trigger : ∀ r ∈ s.trigger, ∃ e ∈ s.auth.issued, Justified TriggerAuthorized recover r e

theorem issued_subset {s s' : Auth.Sys Message} {a : Auth.Act}
    (h : Auth.step env auth s a = some s') : s.issued ⊆ s'.issued := by
  obtain heq | ⟨_, _, _, _, _, _, _, _, heq⟩ := Auth.step_issued h
  · exact heq ▸ List.Subset.refl _
  · rw [heq]
    exact List.subset_append_left _ _

theorem Inv.step (haccepts : auth.Accepts recover validAt)
    (hdocs : library.Documented auth decode verify) (haddress : Auth.AddressText auth library)
    (hreads : ReadsAddresses fromStr) {s s' : System Message Sig} {a : Act Sig}
    (hinv : Inv env auth recover s) (hhonest : Honest env decode verify s a)
    (h : Execution.step env auth library fromStr s a = some s') : Inv env auth recover s' := by
  cases a with
  | login a =>
    obtain ⟨auth', hauth, rfl⟩ := Option.map_eq_some_iff.1 h
    have hsub := issued_subset hauth
    constructor
    · exact hinv.logins.next hhonest hauth
    · intro r hr
      obtain ⟨e, he, hjust⟩ := hinv.engine r hr
      exact ⟨e, hsub he, hjust⟩
    · intro r hr
      obtain ⟨e, he, hjust⟩ := hinv.trigger r hr
      exact ⟨e, hsub he, hjust⟩
  | logout =>
    cases h
    exact hinv
  | execute client outside request =>
    obtain rfl := Option.some.inj h
    refine { hinv with engine := fun r hr => ?_ }
    rcases List.mem_append.1 hr with hr | hr
    · exact hinv.engine r hr
    · have hsent : forward env library fromStr postExecute client outside request = some r :=
        Option.mem_toList.1 hr
      have hcookie : ∀ cookie ∈ client.cookie, Auth.Unforged env decode verify s.auth cookie :=
        hhonest
      have hpost : ∀ (outside : Outside Sig) address (request body : Engine.Execute),
          postExecute outside address request = .ok body → EngineAuthorized outside address body :=
        fun outside address _ _ hok => by
          obtain ⟨hauth, rfl⟩ := (postExecute_ok outside address).1 hok
          exact hauth
      exact forward_justified haccepts hdocs haddress hreads hinv.logins hpost hcookie hsent
  | executeTrigger client outside request =>
    obtain rfl := Option.some.inj h
    refine { hinv with trigger := fun r hr => ?_ }
    rcases List.mem_append.1 hr with hr | hr
    · exact hinv.trigger r hr
    · have hsent : forward env library fromStr postExecuteTrigger client outside request =
          some r := Option.mem_toList.1 hr
      have hcookie : ∀ cookie ∈ client.cookie, Auth.Unforged env decode verify s.auth cookie :=
        hhonest
      have hpost : ∀ (outside : Outside Sig) address (request body : Trigger.Execute),
          postExecuteTrigger outside address request = .ok body →
            TriggerAuthorized outside address body :=
        fun outside address _ _ hok => by
          obtain ⟨hauth, rfl⟩ := (postExecuteTrigger_ok outside address).1 hok
          exact hauth
      exact forward_justified haccepts hdocs haddress hreads hinv.logins hpost hcookie hsent

theorem Inv.start {s : System Message Sig} (h : Start s) : Inv env auth recover s := by
  obtain ⟨clock, rfl⟩ := h
  exact {
    logins := .start ⟨clock, rfl⟩
    engine := fun _ hr => nomatch hr
    trigger := fun _ hr => nomatch hr }

/-- **Nothing reaches the exchange but what its owner wants**: every request that was forwarded was
sent less than a day after a login, with the token of that login; the one who signed in owns every
subaccount of the request, and each of its parts is signed by the owner or by the signer linked to
the subaccount. The login itself was for a permitted message with a nonce that was handed out. -/
theorem executed_justified (haccepts : auth.Accepts recover validAt)
    (hdocs : library.Documented auth decode verify) (haddress : Auth.AddressText auth library)
    (hreads : ReadsAddresses fromStr) {s : System Message Sig}
    (h : Reach (Execution.step env auth library fromStr) (Honest env decode verify) Start s) :
    (∀ r ∈ s.engine, ∃ e ∈ s.auth.issued, Justified EngineAuthorized recover r e ∧
      Auth.Admitted env auth s.auth.log e.toTaken) ∧
    ∀ r ∈ s.trigger, ∃ e ∈ s.auth.issued, Justified TriggerAuthorized recover r e ∧
      Auth.Admitted env auth s.auth.log e.toTaken := by
  have hinv : Inv env auth recover s :=
    h.inv (fun _ => Inv.start) fun _ _ _ hinv hhonest hst =>
      hinv.step haccepts hdocs haddress hreads hhonest hst
  have hadmitted := fun e he => ((Auth.reach_inv haccepts hinv.logins).issued e he).1
  constructor
  · intro r hr
    obtain ⟨e, he, hjust⟩ := hinv.engine r hr
    exact ⟨e, he, hjust, hadmitted e he⟩
  · intro r hr
    obtain ⟨e, he, hjust⟩ := hinv.trigger r hr
    exact ⟨e, he, hjust, hadmitted e he⟩

end

/-! ## An order of the wallet -/

section
attribute [local instance] asciiCase

/-- `H160::from_str`: forty digits, with or without the prefix. -/
def addressFromStr (text : String) : Option H160 :=
  let cs := text.toList
  (Hex.decode (if cs.take 2 = ['0', 'x'] then cs.drop 2 else cs)).bind fun bytes =>
    if h : bytes.length = 20 then some ⟨bytes.toArray, by simp [h]⟩ else none

theorem readsAddresses_addressFromStr : ReadsAddresses addressFromStr := by
  intro address
  have htext : (hexAddress address).toList = '0' :: 'x' :: Hex.encode address.toList := by
    unfold hexAddress hexEncode
    simp only [String.toList_append, String.toList_ofList]
    rfl
  have hprefix : ('0' :: 'x' :: Hex.encode address.toList).take 2 = ['0', 'x'] := rfl
  unfold addressFromStr
  rw [htext]
  dsimp only
  rw [if_pos hprefix]
  show (Hex.decode (Hex.encode address.toList)).bind _ = _
  rw [Hex.decode_encode, Option.bind_some, dif_pos (by simp)]
  exact congrArg some (Vector.toArray_inj.1 Array.toArray_toList)

def walletOrder : Engine.Execute :=
  .placeOrder {
    productId := 2
    order := ⟨subaccount Auth.wallet "default", 1000000000000000000, 1000000000000000000,
      4000000000, 1, 0#128⟩
    signature := List.replicate 65 27 }

/-- Every signature is the wallet's and no signer is linked. -/
def walletOutside : Outside Bytes where
  getContracts := .ok ⟨763373, Vector.replicate 20 7⟩
  signatureTryFrom := .ok
  eip712Digest := fun _ _ => Vector.replicate 32 0
  recover := fun _ _ => .ok Auth.wallet
  getLinkedSigner := fun _ => .ok (Vector.replicate 20 0)

def walletClient : ClientRequest where
  cookie := some Auth.firstToken
  contentType := "application/json"
  accept := ""
  now := 3600 * second

/-- The steps of the logins are steps of the system. -/
theorem reach_logins {Message Sig : Type} [UnicodeCase] {env : Env}
    {auth : Auth.Outside Message H160} {library : TokenLibrary} {fromStr : String → Option H160}
    {decode : String → Option (Auth.SigningMethod × Auth.JwtClaims)}
    {verify : String → Auth.SigningMethod → String → Prop} {acts : List Auth.Act}
    {s : System Message Sig} {t : Auth.Sys Message}
    (h : Reach (step env auth library fromStr) (Honest env decode verify) Start s)
    (hrun : run (Auth.step env auth) Auth.FreshNonce s.auth acts = some t) :
    Reach (step env auth library fromStr) (Honest env decode verify) Start
      { s with auth := t } := by
  refine Reach.of_component (fun auth => { s with auth }) .login
    (fun u a (hfresh : Auth.FreshNonce u a) => hfresh) (fun u a u' hstep => ?_) h hrun
  dsimp only [step]
  rw [hstep]
  rfl

theorem executed_justified_wallet :
    ∃ s : System Auth.SiweMessage Bytes, s.engine.length = 1 ∧
      (∀ r ∈ s.engine, ∃ e ∈ s.auth.issued,
        Justified EngineAuthorized Auth.walletOf r e ∧
          Auth.Admitted Auth.devEnv Auth.walletLibraries s.auth.log e.toTaken) ∧
      ∀ r ∈ s.trigger, ∃ e ∈ s.auth.issued,
        Justified TriggerAuthorized Auth.walletOf r e ∧
          Auth.Admitted Auth.devEnv Auth.walletLibraries s.auth.log e.toTaken := by
  obtain ⟨auth, hrun, e, hsolo, -, htoken, -⟩ := Auth.signIns_issued
  have hstart : Reach (step Auth.devEnv Auth.walletLibraries Auth.tokenLibrary addressFromStr)
      (Honest Auth.devEnv Auth.decodeFirst Auth.verifyFirst) Start
      ({ auth := { clock := 0 } } : System Auth.SiweMessage Bytes) := .start ⟨0, rfl⟩
  have hsignedIn := reach_logins hstart hrun
  have hforward : (forward Auth.devEnv Auth.tokenLibrary addressFromStr postExecute walletClient
      walletOutside walletOrder).isSome = true := by decide +kernel
  obtain ⟨r, hr⟩ := Option.isSome_iff_exists.1 hforward
  have hmem : e ∈ auth.issued := by
    rw [hsolo]
    exact List.mem_singleton_self e
  have hexecuted := hsignedIn.next (a := .execute walletClient walletOutside walletOrder)
    (fun cookie hcookie => by
      cases hcookie
      exact fun _ _ _ _ _ => ⟨e, hmem, htoken⟩) rfl
  refine ⟨_, ?_, executed_justified Auth.wallet_accepts Auth.tokenLibrary_documented
    Auth.wallet_addressText readsAddresses_addressFromStr hexecuted⟩
  dsimp only
  rw [hr]
  rfl

end

end Execution
