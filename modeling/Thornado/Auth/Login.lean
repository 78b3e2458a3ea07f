import Mathlib.Data.Finset.Dedup
import Mathlib.Data.Finset.Insert
import Thornado.Lib.Transition
import Thornado.Go.Prelude
import Thornado.Auth.NonceStore

/-!
# Signing in

`getNonce` and `postVerify` of `gateway/main.go`, from any number of clients. A verification checks
its message and takes the nonce, under the store's lock; then it checks the signature and issues
the token, while other requests run. The message and token libraries are parameters (`Outside`).

* `postVerify_uninterrupted`: the two steps of a verification are the request handler.
* `logins_justified`: every token is justified by a signed message, every nonce by one token.
-/

namespace Auth

open Go Tickets Transition

structure HTTPError where
  code : Nat
  message : String

/-- The environment variables, empty where they are not set. -/
structure Env where
  siweDomain : String
  siweChainIds : String
  siweChainId : String
  jwtSecret : String

def jwtSecret (env : Env) : String :=
  if env.jwtSecret = "" then "dev-only-change-me" else env.jwtSecret

section
variable [UnicodeCase] (env : Env)

def siweDomainAllowed (domain : String) : Bool :=
  let trimmed := trimSpace (UnicodeCase.toLower domain)
  let configured := trimSpace (UnicodeCase.toLower env.siweDomain)
  if trimmed = "" then false
  else if configured ≠ "" then trimmed = configured
  else trimmed = "localhost:5173" || trimmed = "127.0.0.1:5173"

end

/-- Ink testnet and mainnet. -/
def defaultChainIDs : Finset Int := {763373, 57073}

def allowedChainIDs (env : Env) : Finset Int :=
  let s := trimSpace env.siweChainIds
  let s := if s = "" then trimSpace env.siweChainId else s
  if s = "" then defaultChainIDs
  else
    let out := ((split s ',').filterMap fun part =>
      let part := trimSpace part
      if part = "" then none else atoi part).toFinset
    if out = ∅ then defaultChainIDs else out

structure VerifyBody where
  message : String
  signature : String

def jwtTTL : Int := 24 * hour

structure JwtClaims where
  address : String
  subject : String
  expiresAt : Int
  issuedAt : Int

/-- What the libraries do: `siwe-go` with a parsed message, `golang-jwt` with claims. -/
structure Outside (Message Address : Type) where
  parseMessage : String → Option Message
  getChainID : Message → Int
  getDomain : Message → String
  getNonce : Message → String
  getAddress : Message → Address
  /-- `Verify` with a signature, and optionally a domain and a nonce, at a time. -/
  verify : Message → String → Option String → Option String → Int → Bool
  /-- `Address.Hex` -/
  hex : Address → String
  /-- `SignedString` with a key. -/
  signedString : JwtClaims → String → Option String

section
variable {Message Address : Type}

/-- `Verify` accepts the messages whose signature recovers to their address and whose time bounds
hold, if they have the domain and the nonce asked for. -/
def Outside.Accepts (outside : Outside Message Address)
    (recover : Message → String → Option Address) (validAt : Message → Int → Prop) : Prop :=
  ∀ msg signature domain nonce now,
    outside.verify msg signature domain nonce now = true ↔
      recover msg signature = some (outside.getAddress msg) ∧ validAt msg now ∧
        (∀ d ∈ domain, outside.getDomain msg = d) ∧ ∀ n ∈ nonce, outside.getNonce msg = n

/-- A request past the checks of its message. -/
structure Verification (Message : Type) where
  msg : Message
  signature : String

structure Jwt where
  claims : JwtClaims
  signed : String

/-- The reply of a verification, with its cookie. -/
structure Login where
  address : String
  token : Jwt

section
variable [UnicodeCase] (env : Env) (outside : Outside Message Address)

/-- The checks of `postVerify` before it takes the nonce. -/
def checkMessage (body : Option VerifyBody) : Except HTTPError (Verification Message) := do
  let some body := body | throw ⟨400, "invalid json"⟩
  if body.message = "" ∨ body.signature = "" then
    throw ⟨400, "message and signature required"⟩
  let some msg := outside.parseMessage body.message | throw ⟨400, "invalid siwe message"⟩
  if outside.getChainID msg ∉ allowedChainIDs env then throw ⟨401, "invalid chain id"⟩
  if !siweDomainAllowed env (outside.getDomain msg) then throw ⟨401, "invalid domain"⟩
  return { msg, signature := body.signature }

def takeNonce (v : Verification Message) (store : NonceStore) (swept now : Int) :
    Except HTTPError Unit × NonceStore :=
  match store.take (outside.getNonce v.msg) swept now with
  | (false, store) => (.error ⟨401, "invalid or expired nonce"⟩, store)
  | (true, store) => (.ok (), store)

def issueJWT (address : String) (expiresNow issuedNow : Int) : Option Jwt :=
  let claims :=
    { address := UnicodeCase.toLower address
      subject := UnicodeCase.toLower address
      expiresAt := truncate (expiresNow + jwtTTL) second
      issuedAt := truncate issuedNow second }
  (outside.signedString claims (jwtSecret env)).map fun signed => { claims, signed }

/-- `postVerify` from the check of the signature on. -/
def verifySignature (v : Verification Message) (now expiresNow issuedNow : Int) :
    Except HTTPError Login := do
  if !outside.verify v.msg v.signature (some (outside.getDomain v.msg))
      (some (outside.getNonce v.msg)) now then
    throw ⟨401, "signature verification failed"⟩
  let addr := outside.getAddress v.msg
  let some token := issueJWT env outside (outside.hex addr) expiresNow issuedNow
    | throw ⟨500, "could not issue token"⟩
  return { address := outside.hex addr, token }

/-- A verification with its clock reads, when no other request touches the store. -/
def postVerify (store : NonceStore) (body : Option VerifyBody)
    (swept now verifyNow expiresNow issuedNow : Int) : Except HTTPError Login × NonceStore :=
  match checkMessage env outside body with
  | .error err => (.error err, store)
  | .ok v =>
    match takeNonce outside v store swept now with
    | (.error err, store) => (.error err, store)
    | (.ok (), store) => (verifySignature env outside v verifyNow expiresNow issuedNow, store)

end

/-! ## Requests from any number of clients -/

-- a proof never computes the configured ids to see that an id is one of them
attribute [local irreducible] allowedChainIDs

/-- A verification that took its nonce. -/
structure Taken (Message : Type) extends Verification Message where
  takenAt : Int

structure Issued (Message : Type) extends Taken Message where
  verifiedAt : Int
  login : Login

structure Sys (Message : Type) where
  /-- The last time that was read under the store's lock. -/
  clock : Int
  store : NonceStore := {}
  /-- The operations on the store, oldest first. -/
  log : List (Int × Op String) := []
  /-- The verifications that took their nonce and are not done. -/
  verifying : List (Taken Message) := []
  issued : List (Issued Message) := []

/-- A request handler goes on, with what it reads off the clock. -/
inductive Act where
  | getNonce (nonce : String) (swept now : Int)
  | postVerify (body : Option VerifyBody) (swept now : Int)
  | verifySignature (i : Nat) (now expiresNow issuedNow : Int)

section
variable [UnicodeCase] (env : Env) (outside : Outside Message Address)

def step (s : Sys Message) : Act → Option (Sys Message)
  | .getNonce nonce swept now =>
    if s.clock ≤ swept ∧ swept ≤ now then
      some { s with
        clock := now
        store := s.store.put nonce swept now
        log := s.log ++ [(now, .put nonce)] }
    else none
  | .postVerify body swept now =>
    match checkMessage env outside body with
    | .error _ => some s
    | .ok v =>
      if s.clock ≤ swept ∧ swept ≤ now then
        let (taken, store) := takeNonce outside v s.store swept now
        let log := s.log ++ [(now, .take (outside.getNonce v.msg))]
        match taken with
        | .error _ => some { s with clock := now, store, log }
        | .ok () =>
          let verifying := s.verifying ++ [{ v with takenAt := now }]
          some { s with clock := now, store, log, verifying }
      else none
  | .verifySignature i now expiresNow issuedNow =>
    match s.verifying[i]? with
    | none => none
    | some v =>
      if v.takenAt ≤ now ∧ now ≤ expiresNow ∧ expiresNow ≤ issuedNow then
        let s := { s with verifying := s.verifying.eraseIdx i }
        match verifySignature env outside v.toVerification now expiresNow issuedNow with
        | .error _ => some s
        | .ok login => some { s with issued := s.issued ++ [{ v with verifiedAt := now, login }] }
      else none

/-- `siwe.GenerateNonce` does not repeat a nonce. -/
def FreshNonce (s : Sys Message) : Act → Prop
  | .getNonce nonce _ _ => ∀ e ∈ s.log, e.2 ≠ .put nonce
  | _ => True

instance (s : Sys Message) : (a : Act) → Decidable (FreshNonce s a)
  | .getNonce nonce _ _ => inferInstanceAs (Decidable (∀ e ∈ s.log, e.2 ≠ .put nonce))
  | .postVerify .. | .verifySignature .. => inferInstanceAs (Decidable True)

def Start (s : Sys Message) : Prop := ∃ clock, s = { clock }

/-! ## What the steps do -/

theorem checkMessage_ok {body : Option VerifyBody} {v : Verification Message}
    (h : checkMessage env outside body = .ok v) :
    (∃ text, outside.parseMessage text = some v.msg) ∧
      outside.getChainID v.msg ∈ allowedChainIDs env ∧
      siweDomainAllowed env (outside.getDomain v.msg) = true := by
  unfold checkMessage at h
  cases body with
  | none => cases h
  | some body =>
    simp only at h
    split at h
    · cases h
    · cases hparse : outside.parseMessage body.message with
      | none =>
        rw [hparse] at h
        cases h
      | some msg =>
        rw [hparse] at h
        simp only at h
        split at h
        · cases h
        · rename_i hchain
          split at h
          · cases h
          · rename_i hdomain
            cases h
            exact ⟨⟨_, hparse⟩, not_not.1 hchain, by simpa using hdomain⟩

/-- A token is issued for a message whose signature the library accepts. -/
theorem verifySignature_ok {v : Verification Message} {now expiresNow issuedNow : Int}
    {login : Login} (h : verifySignature env outside v now expiresNow issuedNow = .ok login) :
    outside.verify v.msg v.signature (some (outside.getDomain v.msg))
        (some (outside.getNonce v.msg)) now = true ∧
      issueJWT env outside (outside.hex (outside.getAddress v.msg)) expiresNow issuedNow =
        some login.token := by
  unfold verifySignature at h
  split at h
  · cases h
  · rename_i hverify
    simp only at h
    split at h
    · rename_i token htoken
      cases h
      exact ⟨by simpa using hverify, htoken⟩
    · cases h

theorem issueJWT_some {address : String} {expiresNow issuedNow : Int} {token : Jwt}
    (h : issueJWT env outside address expiresNow issuedNow = some token) :
    token.claims.address = UnicodeCase.toLower address ∧
      token.claims.subject = UnicodeCase.toLower address := by
  unfold issueJWT at h
  obtain ⟨signed, -, rfl⟩ := Option.map_eq_some_iff.1 h
  exact ⟨rfl, rfl⟩

end

/-! ## The invariant -/

/-- The nonces that verifications took. -/
def Sys.taken (outside : Outside Message Address) (s : Sys Message) : List String :=
  s.verifying.map (outside.getNonce ·.msg) ++ s.issued.map (outside.getNonce ·.msg)

section
variable [UnicodeCase] (env : Env) (outside : Outside Message Address)

/-- A verification of a permitted message, with a nonce that was handed out in the last ten
minutes. -/
structure Admitted (log : List (Int × Op String)) (v : Taken Message) : Prop where
  parsed : ∃ text, outside.parseMessage text = some v.msg
  chain : outside.getChainID v.msg ∈ allowedChainIDs env
  domain : siweDomainAllowed env (outside.getDomain v.msg) = true
  nonce : ∃ p, (p, Op.put (outside.getNonce v.msg)) ∈ log ∧ p ≤ v.takenAt ∧
    v.takenAt ≤ p + nonceTTL

/-- The token is for the signer of the message, which was valid when it was verified. -/
structure Signed (recover : Message → String → Option Address) (validAt : Message → Int → Prop)
    (e : Issued Message) : Prop where
  signer : ∃ signer, recover e.msg e.signature = some signer ∧
    e.login.token.claims.address = UnicodeCase.toLower (outside.hex signer) ∧
    e.login.token.claims.subject = UnicodeCase.toLower (outside.hex signer)
  valid : validAt e.msg e.verifiedAt
  after : e.takenAt ≤ e.verifiedAt

structure Inv (recover : Message → String → Option Address) (validAt : Message → Int → Prop)
    (s : Sys Message) : Prop where
  tracks : Tracks (· + nonceTTL) s.clock s.log s.store.expiry
  past : ∀ e ∈ s.log, e.1 ≤ s.clock
  spent : ∀ n ∈ s.taken outside, Spent s.log n
  once : (s.taken outside).Nodup
  verifying : ∀ v ∈ s.verifying, Admitted env outside s.log v
  issued : ∀ e ∈ s.issued,
    Admitted env outside s.log e.toTaken ∧ Signed outside recover validAt e

end

section
variable [UnicodeCase] {env : Env} {outside : Outside Message Address}
  {recover : Message → String → Option Address} {validAt : Message → Int → Prop}
  {s s' : Sys Message}

theorem Admitted.append {log : List (Int × Op String)} {v : Taken Message}
    (h : Admitted env outside log v) (e : Int × Op String) :
    Admitted env outside (log ++ [e]) v :=
  { h with nonce := h.nonce.imp fun _ hp => ⟨List.mem_append_left _ hp.1, hp.2⟩ }

/-- What a verification admits and issues is not touched by another operation on the store. -/
theorem Inv.log {store : NonceStore} {now : Int} {op : Op String}
    (hinv : Inv env outside recover validAt s) (hle : s.clock ≤ now)
    (htracks : Tracks (· + nonceTTL) now (s.log ++ [(now, op)]) store.expiry)
    (hspent : ∀ n ∈ s.taken outside, Spent (s.log ++ [(now, op)]) n) :
    Inv env outside recover validAt
      { s with clock := now, store := store, log := s.log ++ [(now, op)] } where
  tracks := htracks
  past e he := by
    rcases List.mem_append.1 he with he | he
    · exact (hinv.past e he).trans hle
    · rw [List.mem_singleton.1 he]
  spent := hspent
  once := hinv.once
  verifying v hv := (hinv.verifying v hv).append _
  issued e he := ⟨(hinv.issued e he).1.append _, (hinv.issued e he).2⟩

theorem Inv.handOut {nonce : String} {swept now : Int} (hinv : Inv env outside recover validAt s)
    (hfresh : ∀ e ∈ s.log, e.2 ≠ .put nonce) (hswept : s.clock ≤ swept) (hnow : swept ≤ now) :
    Inv env outside recover validAt
      { s with
        clock := now
        store := s.store.put nonce swept now
        log := s.log ++ [(now, .put nonce)] } := by
  refine hinv.log (hswept.trans hnow) (NonceStore.put_tracks hinv.tracks hswept hnow nonce) ?_
  intro n hn
  have hspent := hinv.spent n hn
  obtain ⟨p, hp⟩ := hspent.1
  refine hspent.append_put now ?_
  rintro rfl
  exact hfresh _ hp rfl

theorem Inv.take {swept now : Int} (hinv : Inv env outside recover validAt s) (nonce : String)
    (hswept : s.clock ≤ swept) (hnow : swept ≤ now) :
    Inv env outside recover validAt
      { s with
        clock := now
        store := (s.store.take nonce swept now).2
        log := s.log ++ [(now, .take nonce)] } :=
  hinv.log (hswept.trans hnow) (NonceStore.take_tracks hinv.tracks hswept hnow nonce)
    fun n hn => (hinv.spent n hn).append_take now nonce

/-- A nonce that can be taken was handed out in time, and no verification has it. -/
theorem Inv.live {nonce : String} {swept now : Int} (hinv : Inv env outside recover validAt s)
    (hswept : s.clock ≤ swept) (hnow : swept ≤ now)
    (htake : (s.store.take nonce swept now).1 = true) :
    ∃ p, Live s.log nonce p ∧ p ≤ now ∧ now ≤ p + nonceTTL ∧ nonce ∉ s.taken outside := by
  have hle := hswept.trans hnow
  obtain ⟨p, hlive, hdeadline⟩ :=
    (hinv.tracks.answer hle nonce).1 ((NonceStore.take_iff _ _ hnow).1 htake)
  exact ⟨p, hlive, (hinv.past _ hlive.mem).trans hle, hdeadline,
    fun hn => (hinv.spent nonce hn).2 p hlive⟩

theorem Inv.accept {v : Verification Message} {now : Int} {body : Option VerifyBody}
    (hcheck : checkMessage env outside body = .ok v) (hinv : Inv env outside recover validAt s)
    (hspent : Spent s.log (outside.getNonce v.msg))
    (hnew : outside.getNonce v.msg ∉ s.taken outside)
    (hnonce : ∃ p, (p, Op.put (outside.getNonce v.msg)) ∈ s.log ∧ p ≤ now ∧ now ≤ p + nonceTTL) :
    Inv env outside recover validAt
      { s with verifying := s.verifying ++ [{ v with takenAt := now }] } := by
  obtain ⟨hparsed, hchain, hdomain⟩ := checkMessage_ok env outside hcheck
  have hperm : (Sys.taken outside
      { s with verifying := s.verifying ++ [{ v with takenAt := now }] }).Perm
      (outside.getNonce v.msg :: s.taken outside) := by
    simp only [Sys.taken, List.map_append, List.map_cons, List.map_nil, List.append_assoc,
      List.singleton_append]
    exact List.perm_middle
  constructor
  · exact hinv.tracks
  · exact hinv.past
  · intro n hn
    rcases List.mem_cons.1 (hperm.mem_iff.1 hn) with rfl | hn
    · exact hspent
    · exact hinv.spent n hn
  · exact hperm.nodup_iff.2 (List.nodup_cons.2 ⟨hnew, hinv.once⟩)
  · intro w hw
    rcases List.mem_append.1 hw with hw | hw
    · exact hinv.verifying w hw
    · rw [List.mem_singleton.1 hw]
      exact ⟨hparsed, hchain, hdomain, hnonce⟩
  · exact hinv.issued

/-- A verification ends without a token. -/
theorem Inv.fail (hinv : Inv env outside recover validAt s) (i : Nat) :
    Inv env outside recover validAt { s with verifying := s.verifying.eraseIdx i } := by
  have hsub : (Sys.taken outside { s with verifying := s.verifying.eraseIdx i }).Sublist
      (s.taken outside) :=
    ((s.verifying.eraseIdx_sublist i).map _).append (List.Sublist.refl _)
  exact { hinv with
    spent := fun n hn => hinv.spent n (hsub.subset hn)
    once := hinv.once.sublist hsub
    verifying := fun v hv => hinv.verifying v (List.mem_of_mem_eraseIdx hv) }

theorem Inv.issue (hverify : outside.Accepts recover validAt)
    (hinv : Inv env outside recover validAt s) {i : Nat} {v : Taken Message}
    (hi : s.verifying[i]? = some v) {now expiresNow issuedNow : Int} (hnow : v.takenAt ≤ now)
    {login : Login}
    (hlogin : verifySignature env outside v.toVerification now expiresNow issuedNow = .ok login) :
    Inv env outside recover validAt
      { s with
        verifying := s.verifying.eraseIdx i
        issued := s.issued ++ [{ v with verifiedAt := now, login }] } := by
  obtain ⟨haccepts, htoken⟩ := verifySignature_ok env outside hlogin
  obtain ⟨hsigner, hvalid, -, -⟩ := (hverify ..).1 haccepts
  have hperm : (Sys.taken outside
      { s with
        verifying := s.verifying.eraseIdx i
        issued := s.issued ++ [{ v with verifiedAt := now, login }] }).Perm
      (s.taken outside) := by
    obtain ⟨hlt, hget⟩ := List.getElem?_eq_some_iff.1 hi
    have hsplit := (List.getElem_cons_eraseIdx_perm hlt).map (outside.getNonce ·.msg)
    rw [hget] at hsplit
    simp only [Sys.taken, List.map_append, List.map_cons, List.map_nil, ← List.append_assoc]
    refine (List.perm_append_singleton _ _).trans ?_
    exact hsplit.append_right _
  constructor
  · exact hinv.tracks
  · exact hinv.past
  · exact fun n hn => hinv.spent n (hperm.mem_iff.1 hn)
  · exact hperm.nodup_iff.2 hinv.once
  · exact fun w hw => hinv.verifying w (List.mem_of_mem_eraseIdx hw)
  · intro e he
    rcases List.mem_append.1 he with he | he
    · exact hinv.issued e he
    · rw [List.mem_singleton.1 he]
      refine ⟨hinv.verifying v (List.mem_of_getElem? hi), ⟨_, hsigner, ?_⟩, hvalid, hnow⟩
      exact issueJWT_some env outside htoken

theorem Inv.step (hverify : outside.Accepts recover validAt) {a : Act}
    (hinv : Inv env outside recover validAt s) (hfresh : FreshNonce s a)
    (h : Auth.step env outside s a = some s') : Inv env outside recover validAt s' := by
  cases a with
  | getNonce nonce swept now =>
    simp only [Auth.step] at h
    split at h
    · rename_i hclock
      cases h
      exact hinv.handOut hfresh hclock.1 hclock.2
    · cases h
  | postVerify body swept now =>
    simp only [Auth.step] at h
    split at h
    · cases h
      exact hinv
    · rename_i v hcheck
      split at h
      · rename_i hclock
        obtain ⟨hswept, hnow⟩ := hclock
        have htaken := hinv.take (outside.getNonce v.msg) hswept hnow
        unfold takeNonce at h
        cases htake : s.store.take (outside.getNonce v.msg) swept now with
        | mk taken store =>
          rw [htake] at h htaken
          cases taken with
          | false =>
            cases h
            exact htaken
          | true =>
            cases h
            obtain ⟨p, hlive, hp, hdeadline, hnew⟩ :=
              hinv.live hswept hnow (congrArg Prod.fst htake)
            exact htaken.accept hcheck (hlive.spent_take now) hnew
              ⟨p, List.mem_append_left _ hlive.mem, hp, hdeadline⟩
      · cases h
  | verifySignature i now expiresNow issuedNow =>
    simp only [Auth.step] at h
    split at h
    · cases h
    · rename_i v hi
      split at h
      · rename_i hclock
        split at h
        · cases h
          exact hinv.fail i
        · rename_i login hlogin
          cases h
          exact hinv.issue hverify hi hclock.1 hlogin
      · cases h

theorem Inv.start (h : Start s) : Inv env outside recover validAt s := by
  obtain ⟨clock, rfl⟩ := h
  exact {
    tracks := Tracks.start
    past := fun _ he => nomatch he
    spent := fun _ hn => nomatch hn
    once := List.nodup_nil
    verifying := fun _ hv => nomatch hv
    issued := fun _ he => nomatch he }

end

/-! ## The request handler -/

/-- The two steps of a verification, with nothing in between, are the handler: they leave the
store as it does, and issue the token it replies with, if any. -/
theorem postVerify_uninterrupted [UnicodeCase] (env : Env) (outside : Outside Message Address)
    {s : Sys Message} {body : Option VerifyBody} {swept now verifyNow expiresNow issuedNow : Int}
    (hswept : s.clock ≤ swept) (hnow : swept ≤ now) (hverify : now ≤ verifyNow)
    (hexpires : verifyNow ≤ expiresNow) (hissued : expiresNow ≤ issuedNow) :
    ∃ s₁ s', step env outside s (.postVerify body swept now) = some s₁ ∧
      (s₁.verifying = s.verifying ∧ s' = s₁ ∨
        step env outside s₁ (.verifySignature s.verifying.length verifyNow expiresNow issuedNow) =
          some s') ∧
      let (reply, store) :=
        postVerify env outside s.store body swept now verifyNow expiresNow issuedNow
      s'.store = store ∧ s'.verifying = s.verifying ∧
        s'.issued.map (·.login) = s.issued.map (·.login) ++ reply.toOption.toList := by
  unfold postVerify
  cases hcheck : checkMessage env outside body with
  | error err =>
    refine ⟨s, s, ?_, .inl ⟨rfl, rfl⟩, rfl, rfl, (List.append_nil _).symm⟩
    simp only [step, hcheck]
  | ok v =>
    simp only [step, hcheck, hswept, hnow, and_self, if_true]
    cases takeNonce outside v s.store swept now with
    | mk taken store =>
      cases taken with
      | error err => exact ⟨_, _, rfl, .inl ⟨rfl, rfl⟩, rfl, rfl, (List.append_nil _).symm⟩
      | ok _ =>
        refine ⟨{ s with
          clock := now
          store
          log := s.log ++ [(now, .take (outside.getNonce v.msg))]
          verifying := s.verifying ++ [{ v with takenAt := now }] }, ?_⟩
        simp only [List.getElem?_concat_length, hverify, hexpires, hissued, and_self, if_true,
          true_and, List.eraseIdx_append_of_length_le (Nat.le_refl _), Nat.sub_self,
          List.eraseIdx_cons_zero,
          List.append_nil]
        cases verifySignature env outside v verifyNow expiresNow issuedNow with
        | error err => exact ⟨_, .inr rfl, rfl, rfl, (List.append_nil _).symm⟩
        | ok login => exact ⟨_, .inr rfl, rfl, rfl, List.map_append⟩

/-! ## The tokens -/

/-- **Every token is justified**: by a message that its address signed, with a permitted chain and
domain, valid when it was verified, whose nonce was handed out at most ten minutes before the
verification took it; and no two tokens by the same nonce. -/
theorem logins_justified [UnicodeCase] (env : Env) (outside : Outside Message Address)
    {recover : Message → String → Option Address} {validAt : Message → Int → Prop}
    (hverify : outside.Accepts recover validAt) {s : Sys Message}
    (h : Reach (step env outside) FreshNonce Start s) :
    (∀ e ∈ s.issued, Admitted env outside s.log e.toTaken ∧ Signed outside recover validAt e) ∧
    (s.issued.map (outside.getNonce ·.msg)).Nodup := by
  have hinv : Inv env outside recover validAt s :=
    h.inv (fun _ => Inv.start) fun _ _ _ hinv hfresh hst => hinv.step hverify hfresh hst
  exact ⟨hinv.issued, (List.nodup_append.1 hinv.once).2.1⟩

end

/-! ## A replayed message -/

section
attribute [local instance] asciiCase

structure SiweMessage where
  domain : String
  address : String
  chainId : Int
  nonce : String
  deriving DecidableEq

def signIn : SiweMessage where
  domain := "localhost:5173"
  address := "0x5AAeb6053F3E94C9b9A09f33669435E7Ef1BeAed"
  chainId := 763373
  nonce := "k3Vw9sQ2"

def signInText : String := "localhost:5173 wants you to sign in with your Ethereum account:
0x5AAeb6053F3E94C9b9A09f33669435E7Ef1BeAed

Sign in to THORNado.

URI: http://localhost:5173
Version: 1
Chain ID: 763373
Nonce: k3Vw9sQ2
Issued At: 2026-03-01T12:00:00.000Z"

/-- The signer of the one signature there is. -/
def signerOf (_ : SiweMessage) (signature : String) : Option String :=
  if signature = "0x8f" then some signIn.address else none

/-- The libraries on that message. -/
def libraries : Outside SiweMessage String where
  parseMessage text := if text = signInText then some signIn else none
  getChainID := (·.chainId)
  getDomain := (·.domain)
  getNonce := (·.nonce)
  getAddress := (·.address)
  verify msg signature domain nonce _ :=
    signerOf msg signature = some msg.address ∧ (∀ d ∈ domain, msg.domain = d) ∧
      ∀ n ∈ nonce, msg.nonce = n
  hex := id
  signedString claims _ := some claims.address

def devEnv : Env where
  siweDomain := ""
  siweChainIds := ""
  siweChainId := ""
  jwtSecret := ""

/-- The message is sent twice, at the same time; then the signature is checked. -/
def replay : List Act :=
  [.getNonce "k3Vw9sQ2" 0 0,
    .getNonce "n8Qz1xT7" 3 4,
    .postVerify (some ⟨signInText, "0x8f"⟩) 5 6,
    .postVerify (some ⟨signInText, "0x8f"⟩) 6 7,
    .verifySignature 0 6 8 9]

theorem logins_justified_replay :
    ∃ s, run (step devEnv libraries) FreshNonce { clock := 0 } replay = some s ∧
      s.issued.length = 1 ∧
      (∀ e ∈ s.issued, Admitted devEnv libraries s.log e.toTaken ∧
        Signed libraries signerOf (fun _ _ => True) e) ∧
      (s.issued.map (libraries.getNonce ·.msg)).Nodup := by
  have hlen : (run (step devEnv libraries) FreshNonce { clock := 0 } replay).map
      (·.issued.length) = some 1 := by decide +kernel
  obtain ⟨s, hrun, hlen⟩ := Option.map_eq_some_iff.1 hlen
  have haccepts : libraries.Accepts signerOf fun _ _ => True := by
    intro msg signature domain nonce now
    simp [libraries]
  have hreach : Reach (step devEnv libraries) FreshNonce Start s :=
    Reach.of_run (.start ⟨0, rfl⟩) hrun
  exact ⟨s, hrun, hlen, logins_justified devEnv libraries haccepts hreach⟩

end

end Auth
