import Mathlib
import Thornado.Auth.Login
import Thornado.Lib.Gate
import Thornado.Execution.Authorization

/-!
# Sessions

`parseJWT`, `addressFromRequest` and `requireAuth` of `gateway/main.go`: the cookie of a request is
a token, and the server keeps nothing else about a session. The token library is a parameter.

* `step_issued`: a step of a login issues at most one token, with the claims of its clock reads.
* `session_iff`: whose requests are let through, after any logins: those with a token that was
  issued to the address and has not expired.
-/

namespace Auth

open Go Transition
open Execution (H160 hexAddress)

/-- The algorithm that a token's header names. -/
inductive SigningMethod where
  | hs256
  | hs384
  | hs512
  | other (alg : String)
  deriving DecidableEq

/-- The methods of `*jwt.SigningMethodHMAC`. -/
def SigningMethod.isHMAC : SigningMethod → Bool
  | .hs256 | .hs384 | .hs512 => true
  | .other _ => false

/-- What the libraries do with the text of a token: `golang-jwt`, and go-ethereum with an
address. -/
structure TokenLibrary where
  /-- `ParseWithClaims` with a function that finds the key, at a time. -/
  parseWithClaims : String → (SigningMethod → Except String String) → Int →
    Except String JwtClaims
  isHexAddress : String → Bool

/-- `golang-jwt`, as documented: a parse succeeds with the claims of a token whose signature the
key verifies and that has not expired, and a signed text is a token of its claims, not empty. -/
structure TokenLibrary.Documented {Message Address : Type} (library : TokenLibrary)
    (outside : Outside Message Address)
    (decode : String → Option (SigningMethod × JwtClaims))
    (verify : String → SigningMethod → String → Prop) : Prop where
  parse : ∀ token keyfunc now claims,
    library.parseWithClaims token keyfunc now = .ok claims ↔
      ∃ method key, decode token = some (method, claims) ∧ keyfunc method = .ok key ∧
        verify token method key ∧ now < claims.expiresAt
  signed : ∀ claims key token, outside.signedString claims key = some token →
    decode token = some (.hs256, claims) ∧ verify token .hs256 key ∧ token ≠ ""

section
variable [UnicodeCase] (env : Env) (library : TokenLibrary)

/-- The key for a token, unless its method is not an HMAC. -/
def tokenKey (method : SigningMethod) : Except String String :=
  if method.isHMAC then .ok (jwtSecret env) else .error "unexpected signing method"

def parseJWT (tokenString : String) (now : Int) : Except String String := do
  let claims ← library.parseWithClaims tokenString (tokenKey env) now
  if claims.subject = "" then throw "empty subject"
  else if !library.isHexAddress claims.subject then throw "bad address"
  else return UnicodeCase.toLower claims.subject

def addressFromRequest (cookie : Option String) (now : Int) : Except String String :=
  match cookie with
  | none | some "" => throw "no cookie"
  | some value => parseJWT env library value now

/-- The address under which a request goes on. -/
def requireAuth (cookie : Option String) (now : Int) : Except HTTPError String :=
  (addressFromRequest env library cookie now).mapError fun _ => ⟨401, "not authenticated"⟩

/-- `sessionAddressFromContext` of `execution_proxy.go`. -/
def sessionAddressFromContext (address : String) : Except HTTPError String :=
  if trimSpace address = "" then throw ⟨401, "not authenticated"⟩
  else return UnicodeCase.toLower (trimSpace address)

end

/-! ## The text of an address -/

/-- The characters of an address. -/
def addressChars : List Char :=
  ['0', '1', '2', '3', '4', '5', '6', '7', '8', '9', 'a', 'b', 'c', 'd', 'e', 'f', 'x']

theorem hexDigit_mem (n : Fin 16) : Execution.hexDigit (UInt8.ofNat n.val) ∈ addressChars := by
  revert n
  decide

theorem hexAddress_toList (address : H160) :
    ∀ c ∈ (hexAddress address).toList, c ∈ addressChars := by
  intro c hc
  unfold hexAddress Execution.hexEncode at hc
  simp only [String.toList_append, String.toList_ofList, List.mem_append, List.mem_flatMap] at hc
  rcases hc with hc | ⟨b, -, hc⟩
  · have hprefix : "0x".toList.all addressChars.contains = true := by decide
    exact List.contains_iff_mem.1 (List.all_eq_true.1 hprefix c hc)
  · have hb := b.toNat_lt
    rcases List.mem_pair.1 hc with rfl | rfl
    · have hdiv : b / 16 = UInt8.ofNat (b.toNat / 16) := by
        rw [← UInt8.toNat_inj]
        simp
        omega
      rw [hdiv]
      exact hexDigit_mem ⟨b.toNat / 16, by omega⟩
    · have hmod : b % 16 = UInt8.ofNat (b.toNat % 16) := by
        rw [← UInt8.toNat_inj]
        simp
        omega
      rw [hmod]
      exact hexDigit_mem ⟨b.toNat % 16, by omega⟩

theorem hexAddress_ne_empty (address : H160) : hexAddress address ≠ "" := by
  intro h
  have hlist := congrArg String.toList h
  unfold hexAddress at hlist
  rw [String.toList_append] at hlist
  cases hlist

theorem toAsciiLowercase_hexAddress (address : H160) :
    Rust.toAsciiLowercase (hexAddress address) = hexAddress address := by
  have hlower : addressChars.all (fun c => c.toLower == c) = true := by decide
  unfold Rust.toAsciiLowercase
  rw [List.map_congr_left fun c hc =>
      eq_of_beq (List.all_eq_true.1 hlower c (hexAddress_toList address c hc)),
    List.map_id', String.ofList_toList]

theorem trimSpace_hexAddress (address : H160) :
    trimSpace (hexAddress address) = hexAddress address := by
  have hspace : addressChars.all (fun c => !Rust.isWhitespace c) = true := by decide
  have hkeep : ∀ cs : List Char, (∀ c ∈ cs, c ∈ addressChars) →
      cs.dropWhile Rust.isWhitespace = cs := by
    intro cs hcs
    cases cs with
    | nil => rfl
    | cons c cs =>
      have hc := List.all_eq_true.1 hspace c (hcs c List.mem_cons_self)
      exact List.dropWhile_cons_of_neg (by simpa using hc)
  have hchars := hexAddress_toList address
  unfold trimSpace Rust.trim
  rw [hkeep _ hchars, hkeep _ fun c hc => hchars c (List.mem_reverse.1 hc), List.reverse_reverse,
    String.ofList_toList]

/-! ## What the tokens say -/

section
variable {Message : Type} [UnicodeCase] {env : Env} {outside : Outside Message H160}

/-- The token of a login, signed with the gateway's key. It expires a day after it was issued, and
was issued after the verification, both up to a second. -/
structure Minted (env : Env) (outside : Outside Message H160) (e : Issued Message) : Prop where
  signed : outside.signedString e.login.token.claims (jwtSecret env) = some e.login.token.signed
  issued : e.verifiedAt < e.login.token.claims.issuedAt + second
  expires : e.verifiedAt + jwtTTL < e.login.token.claims.expiresAt + second
  expired : e.login.token.claims.expiresAt ≤ e.login.token.claims.issuedAt + jwtTTL

/-- A step of the logins issues at most one token. -/
theorem step_issued {s s' : Sys Message} {a : Act} (h : step env outside s a = some s') :
    s'.issued = s.issued ∨
      ∃ v : Taken Message, ∃ now expiresNow issuedNow login,
        now ≤ expiresNow ∧ expiresNow ≤ issuedNow ∧
        verifySignature env outside v.toVerification now expiresNow issuedNow = .ok login ∧
        s'.issued = s.issued ++ [{ v with verifiedAt := now, login }] := by
  cases a with
  | getNonce nonce swept now =>
    dsimp only [step] at h
    split at h
    · cases h
      exact .inl rfl
    · cases h
  | postVerify body swept now =>
    dsimp only [step] at h
    split at h
    · cases h
      exact .inl rfl
    · split at h
      · split at h
        · cases h
          exact .inl rfl
        · cases h
          exact .inl rfl
      · cases h
  | verifySignature i now expiresNow issuedNow =>
    dsimp only [step] at h
    split at h
    · cases h
    · rename_i v hv
      split at h
      · rename_i hclock
        split at h
        · cases h
          exact .inl rfl
        · rename_i login hlogin
          cases h
          exact .inr ⟨v, now, expiresNow, issuedNow, login, hclock.2.1, hclock.2.2, hlogin, rfl⟩
      · cases h

theorem minted_of_verifySignature {v : Taken Message} {now expiresNow issuedNow : Int}
    {login : Login} (hexpires : now ≤ expiresNow) (hissued : expiresNow ≤ issuedNow)
    (h : verifySignature env outside v.toVerification now expiresNow issuedNow = .ok login) :
    Minted env outside { v with verifiedAt := now, login } := by
  obtain ⟨-, htoken⟩ := verifySignature_ok env outside h
  unfold issueJWT at htoken
  obtain ⟨signed, hsigned, hmk⟩ := Option.map_eq_some_iff.1 htoken
  have hday : jwtTTL = second * 86400 := by decide
  have hsecond : 0 < second := by decide
  have hexpiry := truncate_add_mul expiresNow second 86400
  have hnow := lt_truncate_add hsecond expiresNow
  have hmono := truncate_mono hsecond hissued
  constructor
  · rw [← hmk]
    exact hsigned
  · rw [← hmk]
    show now < truncate issuedNow second + second
    omega
  · rw [← hmk]
    show now + jwtTTL < truncate (expiresNow + jwtTTL) second + second
    rw [hday, hexpiry]
    omega
  · rw [← hmk]
    show truncate (expiresNow + jwtTTL) second ≤ truncate issuedNow second + jwtTTL
    rw [hday, hexpiry]
    omega

theorem issued_minted {s : Sys Message} (h : Reach (step env outside) FreshNonce Start s) :
    ∀ e ∈ s.issued, Minted env outside e := by
  refine h.inv (P := fun s => ∀ e ∈ s.issued, Minted env outside e) (fun s hstart => ?_)
    fun s a s' hinv _ hstep => ?_
  · obtain ⟨_, rfl⟩ := hstart
    exact fun e he => nomatch he
  · obtain heq | ⟨v, now, expiresNow, issuedNow, login, hexpires, hissued, hlogin, heq⟩ :=
      step_issued hstep
    · rw [heq]
      exact hinv
    · intro e he
      rw [heq] at he
      rcases List.mem_append.1 he with he | he
      · exact hinv e he
      · rw [List.mem_singleton.1 he]
        exact minted_of_verifySignature hexpires hissued hlogin

end

/-! ## Whose requests are let through -/

section
variable {Message : Type} [UnicodeCase] (env : Env) (outside : Outside Message H160)
  (library : TokenLibrary)

/-- No client makes up a token that the gateway's key verifies: a cookie with one is a token that
was issued. -/
def Unforged (decode : String → Option (SigningMethod × JwtClaims))
    (verify : String → SigningMethod → String → Prop) (s : Sys Message) (cookie : String) : Prop :=
  ∀ method claims, decode cookie = some (method, claims) → method.isHMAC = true →
    verify cookie method (jwtSecret env) → ∃ e ∈ s.issued, e.login.token.signed = cookie

/-- `Address.Hex` is the address in hexadecimal digits of either case, and an address in lower case
is a text that `ToLower` keeps and `IsHexAddress` accepts. -/
structure AddressText : Prop where
  hex : ∀ address, UnicodeCase.toLower (outside.hex address) = hexAddress address
  lower : ∀ address, UnicodeCase.toLower (hexAddress address) = hexAddress address
  isHexAddress : ∀ address, library.isHexAddress (hexAddress address) = true

end

theorem tokenKey_ok {env : Env} {method : SigningMethod} {key : String} :
    tokenKey env method = .ok key ↔ method.isHMAC = true ∧ key = jwtSecret env := by
  unfold tokenKey
  split
  · rename_i hmac
    rw [Except.ok.injEq, eq_comm]
    exact (and_iff_right hmac).symm
  · rename_i hmac
    exact ⟨fun h => (nomatch h), fun h => absurd h.1 hmac⟩

section
variable {Message : Type} [UnicodeCase] {env : Env} {outside : Outside Message H160}
  {library : TokenLibrary} {decode : String → Option (SigningMethod × JwtClaims)}
  {verify : String → SigningMethod → String → Prop}

/-- A token of an address is parsed to the address until it expires. -/
theorem parseJWT_ok (hdocs : library.Documented outside decode verify)
    (haddress : AddressText outside library) {claims : JwtClaims} {address : H160} {token : String}
    (hsigned : outside.signedString claims (jwtSecret env) = some token)
    (hsubject : claims.subject = hexAddress address) (now : Int) (text : String) :
    parseJWT env library token now = .ok text ↔
      now < claims.expiresAt ∧ text = hexAddress address := by
  obtain ⟨hdecode, hverify, -⟩ := hdocs.signed _ _ _ hsigned
  have hparse : ∀ claims', library.parseWithClaims token (tokenKey env) now = .ok claims' ↔
      claims' = claims ∧ now < claims.expiresAt := by
    intro claims'
    rw [hdocs.parse]
    constructor
    · rintro ⟨method, key, hdecode', -, -, hnow⟩
      rw [hdecode] at hdecode'
      cases hdecode'
      exact ⟨rfl, hnow⟩
    · rintro ⟨rfl, hnow⟩
      exact ⟨.hs256, _, hdecode, tokenKey_ok.2 ⟨rfl, rfl⟩, hverify, hnow⟩
  have hne := hexAddress_ne_empty address
  unfold parseJWT
  rw [Gate.bind_eq_ok]
  simp only [hparse]
  constructor
  · rintro ⟨_, ⟨rfl, hnow⟩, htext⟩
    rw [hsubject, if_neg hne, haddress.isHexAddress, if_neg (by decide), haddress.lower] at htext
    cases htext
    exact ⟨hnow, rfl⟩
  · rintro ⟨hnow, rfl⟩
    refine ⟨claims, ⟨rfl, hnow⟩, ?_⟩
    rw [hsubject, if_neg hne, haddress.isHexAddress, if_neg (by decide), haddress.lower]
    rfl

/-- A cookie that is let through is a token that the gateway's key verifies. -/
theorem verified_of_parseJWT (hdocs : library.Documented outside decode verify)
    {token text : String} {now : Int} (h : parseJWT env library token now = .ok text) :
    ∃ method claims, decode token = some (method, claims) ∧ method.isHMAC = true ∧
      verify token method (jwtSecret env) := by
  obtain ⟨claims, hparse, -⟩ := Gate.bind_ok h
  obtain ⟨method, key, hdecode, hkey, hverify, -⟩ := (hdocs.parse ..).1 hparse
  obtain ⟨hmac, rfl⟩ := tokenKey_ok.1 hkey
  exact ⟨method, claims, hdecode, hmac, hverify⟩

theorem requireAuth_ok {cookie address : String} {now : Int} :
    requireAuth env library (some cookie) now = .ok address ↔
      cookie ≠ "" ∧ parseJWT env library cookie now = .ok address := by
  unfold requireAuth addressFromRequest
  rw [Execution.mapError_ok]
  split
  · rename_i heq
    cases heq
  · rename_i heq
    cases heq
    exact ⟨fun h => (nomatch h), fun h => absurd rfl h.1⟩
  · rename_i value hne heq
    cases heq
    exact (and_iff_right fun hempty => hne hempty).symm

section
variable {recover : Message → String → Option H160} {validAt : Message → Int → Prop}
  {s : Sys Message}

theorem reach_inv (hverify : outside.Accepts recover validAt)
    (h : Reach (step env outside) FreshNonce Start s) : Inv env outside recover validAt s :=
  h.inv (fun _ => Inv.start) fun _ _ _ hinv hfresh hst => hinv.step hverify hfresh hst

/-- Every token that was issued is parsed to its signer's address until it expires. -/
theorem issued_parseJWT (hverify : outside.Accepts recover validAt)
    (hdocs : library.Documented outside decode verify) (haddress : AddressText outside library)
    (h : Reach (step env outside) FreshNonce Start s) (now : Int) :
    ∀ e ∈ s.issued, ∃ signer, recover e.msg e.signature = some signer ∧
      ∀ text, parseJWT env library e.login.token.signed now = .ok text ↔
        now < e.login.token.claims.expiresAt ∧ text = hexAddress signer := by
  intro e he
  obtain ⟨signer, hrecover, -, hsubject⟩ := ((reach_inv hverify h).issued e he).2.signer
  rw [haddress.hex] at hsubject
  exact ⟨signer, hrecover, parseJWT_ok hdocs haddress (issued_minted h e he).signed hsubject now⟩

theorem requireAuth_iff (hverify : outside.Accepts recover validAt)
    (hdocs : library.Documented outside decode verify) (haddress : AddressText outside library)
    (h : Reach (step env outside) FreshNonce Start s) {cookie : String}
    (hunforged : Unforged env decode verify s cookie) (now : Int) (address : String) :
    requireAuth env library (some cookie) now = .ok address ↔
      ∃ e ∈ s.issued, ∃ signer, e.login.token.signed = cookie ∧
        recover e.msg e.signature = some signer ∧ address = hexAddress signer ∧
        now < e.login.token.claims.expiresAt := by
  have hparse := issued_parseJWT hverify hdocs haddress h now
  rw [requireAuth_ok]
  constructor
  · rintro ⟨-, hcookie⟩
    obtain ⟨method, claims, hdecode, hmac, hsignature⟩ := verified_of_parseJWT hdocs hcookie
    obtain ⟨e, he, rfl⟩ := hunforged method claims hdecode hmac hsignature
    obtain ⟨signer, hrecover, htext⟩ := hparse e he
    obtain ⟨hnow, haddr⟩ := (htext address).1 hcookie
    exact ⟨e, he, signer, rfl, hrecover, haddr, hnow⟩
  · rintro ⟨e, he, signer, rfl, hrecover, haddr, hnow⟩
    obtain ⟨signer', hrecover', htext⟩ := hparse e he
    rw [hrecover] at hrecover'
    cases hrecover'
    have hsigned := hdocs.signed _ _ _ (issued_minted h e he).signed
    exact ⟨hsigned.2.2, (htext address).2 ⟨hnow, haddr⟩⟩

/-- **Whose requests are let through**: after any logins, a request goes on as an address if and
only if its cookie is a token that was issued to the address, for a message that it signed, and that
has not expired. A token lasts for a day from its login, up to a second. -/
theorem session_iff (hverify : outside.Accepts recover validAt)
    (hdocs : library.Documented outside decode verify) (haddress : AddressText outside library)
    (h : Reach (step env outside) FreshNonce Start s) {cookie : String}
    (hunforged : Unforged env decode verify s cookie) (now : Int) (address : String) :
    (requireAuth env library (some cookie) now = .ok address ↔
      ∃ e ∈ s.issued, ∃ signer, e.login.token.signed = cookie ∧
        recover e.msg e.signature = some signer ∧ address = hexAddress signer ∧
        now < e.login.token.claims.expiresAt) ∧
    ∀ e ∈ s.issued, e.verifiedAt + jwtTTL - second < e.login.token.claims.expiresAt ∧
      e.login.token.claims.expiresAt ≤ e.login.token.claims.issuedAt + jwtTTL := by
  refine ⟨requireAuth_iff hverify hdocs haddress h hunforged now address, fun e he => ?_⟩
  have hminted := issued_minted h e he
  have hexpires := hminted.expires
  exact ⟨by omega, hminted.expired⟩

end

end

/-! ## A day of a session -/

section
attribute [local instance] asciiCase

deriving instance DecidableEq for JwtClaims

def wallet : H160 :=
  #v[0x5a, 0xae, 0xb6, 0x05, 0x3f, 0x3e, 0x94, 0xc9, 0xb9, 0xa0, 0x9f, 0x33, 0x66, 0x94, 0x35,
    0xe7, 0xef, 0x1b, 0xea, 0xed]

def walletOf (_ : SiweMessage) (signature : String) : Option H160 :=
  if signature = "0x8f" then some wallet else none

/-- The claims of a token that was issued in the first second. -/
def firstClaims : JwtClaims where
  address := "0x5aaeb6053f3e94c9b9a09f33669435e7ef1beaed"
  subject := "0x5aaeb6053f3e94c9b9a09f33669435e7ef1beaed"
  expiresAt := jwtTTL
  issuedAt := 0

def firstToken : String := "eyJhbGciOiJIUzI1NiJ9.eyJzdWIiOiIweDVhYWUifQ.c2ln"

/-- The libraries on the one message, wallet and token there are. -/
def walletLibraries : Outside SiweMessage H160 where
  parseMessage := libraries.parseMessage
  getChainID := (·.chainId)
  getDomain := (·.domain)
  getNonce := (·.nonce)
  getAddress _ := wallet
  verify msg signature domain nonce _ :=
    walletOf msg signature = some wallet ∧ (∀ d ∈ domain, msg.domain = d) ∧
      ∀ n ∈ nonce, msg.nonce = n
  hex address :=
    if address = wallet then "0x5AAeb6053F3E94C9b9A09f33669435E7Ef1BeAed" else hexAddress address
  signedString claims key :=
    if claims = firstClaims ∧ key = "dev-only-change-me" then some firstToken else none

def decodeFirst (token : String) : Option (SigningMethod × JwtClaims) :=
  if token = firstToken then some (.hs256, firstClaims) else none

def verifyFirst (token : String) (method : SigningMethod) (key : String) : Prop :=
  token = firstToken ∧ method = .hs256 ∧ key = "dev-only-change-me"

def tokenLibrary : TokenLibrary where
  parseWithClaims token keyfunc now :=
    if token ≠ firstToken then .error "token is malformed"
    else
      match keyfunc .hs256 with
      | .error err => .error err
      | .ok key =>
        if key ≠ "dev-only-change-me" then .error "signature is invalid"
        else if now < firstClaims.expiresAt then .ok firstClaims
        else .error "token is expired"
  isHexAddress s := s.length = 42

theorem tokenLibrary_documented :
    tokenLibrary.Documented walletLibraries decodeFirst verifyFirst where
  parse token keyfunc now claims := by
    unfold tokenLibrary decodeFirst verifyFirst
    dsimp only
    by_cases htoken : token = firstToken
    · subst htoken
      cases hkey : keyfunc .hs256 with
      | error err => simp [hkey]
      | ok key =>
        by_cases hdev : key = "dev-only-change-me"
        · by_cases hnow : now < firstClaims.expiresAt
          · simp only [hdev, hnow]
            constructor
            · rintro h
              cases h
              exact ⟨.hs256, _, rfl, hkey, ⟨trivial, rfl, hdev⟩, hnow⟩
            · rintro ⟨_, _, hdecode, -⟩
              cases hdecode
              rfl
          · simp only [hdev, hnow]
            refine iff_of_false (fun h => nomatch h) ?_
            rintro ⟨_, _, hdecode, -, -, hlt⟩
            cases hdecode
            exact hnow hlt
        · simp [hdev, hkey]
    · simp [htoken]
  signed claims key token h := by
    unfold walletLibraries at h
    dsimp only at h
    split at h
    · rename_i heq
      cases h
      obtain ⟨rfl, rfl⟩ := heq
      exact ⟨if_pos rfl, ⟨rfl, rfl, rfl⟩, by decide⟩
    · cases h

theorem wallet_addressText : AddressText walletLibraries tokenLibrary where
  hex address := by
    unfold walletLibraries
    dsimp only
    split
    · rename_i heq
      subst heq
      decide +kernel
    · exact toAsciiLowercase_hexAddress address
  lower := toAsciiLowercase_hexAddress
  isHexAddress address := by
    have hlength : "0x".length = 2 := by decide
    simp [tokenLibrary, hexAddress, Execution.hexEncode, String.length_append, hlength]

def signIns : List Act :=
  [.getNonce "k3Vw9sQ2" 0 0,
    .postVerify (some ⟨signInText, "0x8f"⟩) 5 6,
    .verifySignature 0 6 8 9]

theorem signIns_issued :
    ∃ s, run (step devEnv walletLibraries) FreshNonce { clock := 0 } signIns = some s ∧
      ∃ e, s.issued = [e] ∧ e.signature = "0x8f" ∧ e.login.token.signed = firstToken ∧
        e.login.token.claims = firstClaims := by
  have hissued : (run (step devEnv walletLibraries) FreshNonce { clock := 0 } signIns).map
      (·.issued.map fun e => (e.signature, e.login.token.signed, e.login.token.claims)) =
      some [("0x8f", firstToken, firstClaims)] := by decide +kernel
  obtain ⟨s, hrun, hissued⟩ := Option.map_eq_some_iff.1 hissued
  obtain ⟨e, hsolo, he⟩ := List.map_eq_singleton_iff.1 hissued
  simp only [Prod.mk.injEq] at he
  exact ⟨s, hrun, e, hsolo, he⟩

theorem wallet_accepts : walletLibraries.Accepts walletOf fun _ _ => True := by
  intro msg signature domain nonce now
  simp [walletLibraries]

theorem session_iff_first_day :
    ∃ s, run (step devEnv walletLibraries) FreshNonce { clock := 0 } signIns = some s ∧
      requireAuth devEnv tokenLibrary (some firstToken) (jwtTTL - 1) = .ok (hexAddress wallet) ∧
      requireAuth devEnv tokenLibrary (some firstToken) jwtTTL ≠ .ok (hexAddress wallet) := by
  obtain ⟨s, hrun, e, hsolo, hsignature, htoken, hclaims⟩ := signIns_issued
  have hmem : e ∈ s.issued := by
    rw [hsolo]
    exact List.mem_singleton_self e
  have hreach : Reach (step devEnv walletLibraries) FreshNonce Start s :=
    Reach.of_run (.start ⟨0, rfl⟩) hrun
  have hunforged : Unforged devEnv decodeFirst verifyFirst s firstToken :=
    fun _ _ _ _ _ => ⟨e, hmem, htoken⟩
  have hsession := fun now => (session_iff wallet_accepts tokenLibrary_documented
    wallet_addressText hreach hunforged now (hexAddress wallet)).1
  refine ⟨s, hrun, (hsession _).2 ⟨e, hmem, wallet, htoken, ?_, rfl, ?_⟩, fun h => ?_⟩
  · rw [hsignature]
    rfl
  · rw [hclaims]
    decide
  · obtain ⟨e', hmem', _, -, -, -, hnow⟩ := (hsession _).1 h
    rw [hsolo] at hmem'
    rw [List.mem_singleton.1 hmem', hclaims] at hnow
    exact absurd hnow (by decide)

end

end Auth
