import Mathlib
import Thornado.Lib.Concat
import Thornado.Execution.Proxy

/-!
# Avatars

The profile routes of `gateway/avatar.go` behind `requireAuth`, next to the logins. A handler checks
its request and then runs one statement on `user_avatars`; other requests run in between, and a
statement whose handler reports an error may have been run all the same. `http.DetectContentType`
is a parameter.

* `avatarOf`: the avatar of an address after the statements that were run.
* `avatar_own`: every statement is for the wallet that signed in, is answered with what that wallet
  wrote last, and changes nobody else's avatar.
-/

namespace Avatar

open Go Transition
open Auth (Env HTTPError TokenLibrary requireAuth)
open Execution (H160 hexAddress)

/-! ## The handlers -/

def maxAvatarBytes : Nat := 512 * 1024

/-- The field `avatar` of a form. -/
inductive FormFile where
  /-- `c.FormFile` fails. -/
  | missing
  /-- `file.Open` fails. -/
  | closed
  /-- The read fails. -/
  | broken
  | content (bytes : List UInt8)

structure Image where
  contentType : String
  imageData : List UInt8

/-- The statement of a handler, for its address. -/
inductive Query where
  | select
  | upsert (image : Image)
  | delete

/-- `strings.HasPrefix`. -/
def hasPrefix (s start : String) : Bool := start.toList.isPrefixOf s.toList

/-- `getAvatar`, up to its statement. -/
def getAvatar (configured : Bool) (addr : String) : Except HTTPError Query :=
  if !configured then throw ⟨404, "no avatar"⟩
  else if addr = "" then throw ⟨401, "not authenticated"⟩
  else return .select

/-- `putAvatar`, up to its statement. -/
def putAvatar (configured : Bool) (detectContentType : List UInt8 → String) (addr : String)
    (file : FormFile) : Except HTTPError Query :=
  if !configured then throw ⟨503, "avatar storage not configured"⟩
  else if addr = "" then throw ⟨401, "not authenticated"⟩
  else
    match file with
    | .missing => throw ⟨400, "multipart field 'avatar' required"⟩
    | .closed => throw ⟨400, "cannot read file"⟩
    | .broken => throw ⟨400, "read failed"⟩
    | .content bytes =>
      let raw := bytes.take (maxAvatarBytes + 1)
      if raw.length = 0 then throw ⟨400, "empty file"⟩
      else if raw.length > maxAvatarBytes then throw ⟨400, "image too large (max 512KB)"⟩
      else
        let ct := detectContentType raw
        if !hasPrefix ct "image/" then throw ⟨400, "must be an image"⟩
        else return .upsert ⟨ct, raw⟩

/-- `deleteAvatar`, up to its statement. -/
def deleteAvatar (configured : Bool) (addr : String) : Except HTTPError Query :=
  if !configured then throw ⟨503, "avatar storage not configured"⟩
  else if addr = "" then throw ⟨401, "not authenticated"⟩
  else return .delete

/-- How a statement ends. One that fails for its handler may have been run. -/
inductive Outcome where
  | ok
  | failed (ran : Bool)

def Outcome.ran : Outcome → Bool
  | .ok => true
  | .failed ran => ran

inductive Answer where
  | error (err : HTTPError)
  | blob (cacheControl : String) (image : Image)
  | noContent

/-- What a handler answers after its statement, by the row that a `SELECT` finds. -/
def Query.answer (row : Option Image) : Query → Outcome → Answer
  | .select, .ok =>
    match row with
    | none => .error ⟨404, "no avatar"⟩
    | some image => .blob "private, max-age=300" image
  | .select, .failed _ => .error ⟨500, "database error"⟩
  | .upsert _, .ok => .noContent
  | .upsert _, .failed _ => .error ⟨500, "could not save avatar"⟩
  | .delete, .ok => .noContent
  | .delete, .failed _ => .error ⟨500, "database error"⟩

/-! ## The routes -/

inductive Operation where
  | get
  | put (file : FormFile)
  | delete

structure Request where
  cookie : Option String
  now : Int
  operation : Operation

/-- A request that passed its checks. -/
structure Pending where
  request : Request
  addr : String
  query : Query

/-- A statement that came to an end, with the answer. -/
structure Ran extends Pending where
  outcome : Outcome
  answer : Answer

abbrev UserAvatars := AList fun _ : String => Image

def Query.run (addr : String) (table : UserAvatars) : Query → UserAvatars
  | .select => table
  | .upsert image => table.insert addr image
  | .delete => table.erase addr

structure System (Message : Type) where
  auth : Auth.Sys Message
  userAvatars : UserAvatars := ∅
  pending : List Pending := []
  /-- In the order of the database; no step reads it. -/
  ran : List Ran := []

inductive Act where
  | login (a : Auth.Act)
  | logout
  | request (r : Request)
  /-- The statement of a pending request ends. -/
  | run (i : Nat) (outcome : Outcome)

section
variable {Message : Type} [UnicodeCase] (env : Env) (auth : Auth.Outside Message H160)
  (library : TokenLibrary) (configured : Bool) (detectContentType : List UInt8 → String)

/-- The route of an operation, up to its statement. -/
def Operation.route (addr : String) : Operation → Except HTTPError Query
  | .get => getAvatar configured addr
  | .put file => putAvatar configured detectContentType addr file
  | .delete => deleteAvatar configured addr

def handle (r : Request) : Except HTTPError Pending := do
  let addr ← requireAuth env library r.cookie r.now
  let query ← r.operation.route configured detectContentType addr
  return { request := r, addr, query }

def step (s : System Message) : Act → Option (System Message)
  | .login a => (Auth.step env auth s.auth a).map fun auth => { s with auth }
  | .logout => some s
  | .request r => some { s with
      pending := s.pending ++ (handle env library configured detectContentType r).toOption.toList }
  | .run i outcome => (s.pending[i]?).map fun p => { s with
      userAvatars := if outcome.ran then p.query.run p.addr s.userAvatars else s.userAvatars
      pending := s.pending.eraseIdx i
      ran := s.ran ++
        [{ p with outcome, answer := p.query.answer (s.userAvatars.lookup p.addr) outcome }] }

/-- Nonces are not handed out twice, and no client makes up a token. -/
def Honest (decode : String → Option (Auth.SigningMethod × Auth.JwtClaims))
    (verify : String → Auth.SigningMethod → String → Prop) (s : System Message) : Act → Prop
  | .login a => Auth.FreshNonce s.auth a
  | .request r => ∀ cookie ∈ r.cookie, Auth.Unforged env decode verify s.auth cookie
  | _ => True

end

def Start {Message : Type} (s : System Message) : Prop := ∃ clock, s = { auth := { clock } }

/-! ## What was written last -/

/-- What a statement leaves at its address, if it writes. -/
def Query.written : Query → Option (Option Image)
  | .select => none
  | .upsert image => some (some image)
  | .delete => some none

def Ran.writtenAt (addr : String) (r : Ran) : Option (Option Image) :=
  if r.addr = addr ∧ r.outcome.ran then r.query.written else none

/-- The avatar that the last write for the address left. -/
def avatarOf (addr : String) (ran : List Ran) : Option Image :=
  (ran.filterMap (Ran.writtenAt addr)).getLast?.join

theorem avatarOf_concat (addr : String) (ran : List Ran) (r : Ran) :
    avatarOf addr (ran ++ [r]) = (r.writtenAt addr).getD (avatarOf addr ran) := by
  unfold avatarOf
  rw [Concat.filterMap]
  cases hr : r.writtenAt addr with
  | none => simp
  | some image => simp

/-- A statement changes the row of its own address only. -/
theorem lookup_run (addr : String) (table : UserAvatars) (p : Pending) (outcome : Outcome)
    (answer : Answer) :
    (if outcome.ran then p.query.run p.addr table else table).lookup addr =
      (({ p with outcome, answer } : Ran).writtenAt addr).getD (table.lookup addr) := by
  unfold Ran.writtenAt
  dsimp only
  by_cases hran : outcome.ran = true
  · rw [if_pos hran]
    by_cases haddr : p.addr = addr
    · subst haddr
      rw [if_pos ⟨rfl, hran⟩]
      cases p.query with
      | select => rfl
      | upsert image => exact AList.lookup_insert _
      | delete => exact AList.lookup_erase _ _
    · rw [if_neg fun h => haddr h.1]
      cases p.query with
      | select => rfl
      | upsert image => exact AList.lookup_insert_ne (Ne.symm haddr)
      | delete => exact AList.lookup_erase_ne (Ne.symm haddr)
  · rw [if_neg hran, if_neg fun h => hran h.2]
    rfl

/-! ## What is stored -/

structure Image.Valid (detectContentType : List UInt8 → String) (image : Image) : Prop where
  contentType : image.contentType = detectContentType image.imageData
  isImage : hasPrefix image.contentType "image/" = true
  nonempty : image.imageData ≠ []
  bounded : image.imageData.length ≤ maxAvatarBytes

theorem putAvatar_ok {configured : Bool} {detectContentType : List UInt8 → String} {addr : String}
    {file : FormFile} {query : Query}
    (h : putAvatar configured detectContentType addr file = .ok query) :
    ∃ image : Image, query = .upsert image ∧ image.Valid detectContentType := by
  unfold putAvatar at h
  split at h
  · cases h
  split at h
  · cases h
  cases file with
  | missing => cases h
  | closed => cases h
  | broken => cases h
  | content bytes =>
    dsimp only at h
    split at h
    · cases h
    rename_i hempty
    split at h
    · cases h
    rename_i hlarge
    split at h
    · cases h
    rename_i himage
    cases h
    refine ⟨_, rfl, rfl, by simpa using himage, fun hnil => hempty ?_, Nat.le_of_not_lt hlarge⟩
    dsimp only at hnil
    rw [hnil]
    rfl

def Query.Valid (detectContentType : List UInt8 → String) (query : Query) : Prop :=
  ∀ image, query = .upsert image → image.Valid detectContentType

theorem avatarOf_valid {detectContentType : List UInt8 → String} {addr : String}
    {ran : List Ran} (h : ∀ r ∈ ran, r.query.Valid detectContentType) {image : Image}
    (himage : avatarOf addr ran = some image) : image.Valid detectContentType := by
  have hlast : some image ∈ ran.filterMap (Ran.writtenAt addr) :=
    List.mem_of_getLast? (Option.join_eq_some_iff.1 himage)
  obtain ⟨r, hr, hwritten⟩ := List.mem_filterMap.1 hlast
  unfold Ran.writtenAt at hwritten
  split at hwritten
  · cases hquery : r.query with
    | select => rw [hquery] at hwritten; cases hwritten
    | upsert stored =>
      rw [hquery] at hwritten
      cases hwritten
      exact h r hr image hquery
    | delete => rw [hquery] at hwritten; cases hwritten
  · cases hwritten

theorem getAvatar_ok {configured : Bool} {addr : String} {query : Query}
    (h : getAvatar configured addr = .ok query) : query = .select := by
  unfold getAvatar at h
  split at h
  · cases h
  split at h
  · cases h
  cases h
  rfl

theorem deleteAvatar_ok {configured : Bool} {addr : String} {query : Query}
    (h : deleteAvatar configured addr = .ok query) : query = .delete := by
  unfold deleteAvatar at h
  split at h
  · cases h
  split at h
  · cases h
  cases h
  rfl

/-- An operation asks to store nothing but a valid image. -/
theorem route_valid {configured : Bool} {detectContentType : List UInt8 → String} {addr : String}
    {operation : Operation} {query : Query}
    (h : operation.route configured detectContentType addr = .ok query) :
    query.Valid detectContentType := by
  intro image himage
  cases operation with
  | get =>
    obtain rfl := getAvatar_ok h
    cases himage
  | put file =>
    obtain ⟨stored, rfl, hvalid⟩ := putAvatar_ok h
    cases himage
    exact hvalid
  | delete =>
    obtain rfl := deleteAvatar_ok h
    cases himage

/-! ## Who sent a request -/

theorem hexAddress_injective : Function.Injective hexAddress := by
  intro address other h
  have hread := Execution.readsAddresses_addressFromStr address
  rw [h, Execution.readsAddresses_addressFromStr other] at hread
  exact (Option.some.inj hread).symm

section
variable {Message : Type} {recover : Message → String → Option H160}
  {detectContentType : List UInt8 → String}

/-- The request is for the wallet that signed in for the token it was sent with. -/
def SentBy (recover : Message → String → Option H160) (issued : List (Auth.Issued Message))
    (p : Pending) (wallet : H160) : Prop :=
  p.addr = hexAddress wallet ∧ ∃ e ∈ issued, p.request.cookie = some e.login.token.signed ∧
    recover e.msg e.signature = some wallet ∧ p.request.now < e.login.token.claims.expiresAt

structure Checked (detectContentType : List UInt8 → String)
    (recover : Message → String → Option H160) (issued : List (Auth.Issued Message))
    (p : Pending) : Prop where
  sent : ∃ wallet, SentBy recover issued p wallet
  valid : p.query.Valid detectContentType

theorem Checked.mono {issued issued' : List (Auth.Issued Message)} {p : Pending}
    (h : Checked detectContentType recover issued p) (hsub : issued ⊆ issued') :
    Checked detectContentType recover issued' p := by
  obtain ⟨wallet, haddr, e, he, hsent⟩ := h.sent
  exact ⟨⟨wallet, haddr, e, hsub he, hsent⟩, h.valid⟩

end

section
variable {Message : Type} [UnicodeCase] {env : Env} {auth : Auth.Outside Message H160}
  {library : TokenLibrary} {configured : Bool} {detectContentType : List UInt8 → String}
  {decode : String → Option (Auth.SigningMethod × Auth.JwtClaims)}
  {verify : String → Auth.SigningMethod → String → Prop}
  {recover : Message → String → Option H160} {validAt : Message → Int → Prop}

theorem handle_checked (haccepts : auth.Accepts recover validAt)
    (hdocs : library.Documented auth decode verify) (haddress : Auth.AddressText auth library)
    {s : Auth.Sys Message} (h : Reach (Auth.step env auth) Auth.FreshNonce Auth.Start s)
    {r : Request} (hunforged : ∀ cookie ∈ r.cookie, Auth.Unforged env decode verify s cookie)
    {p : Pending} (hp : handle env library configured detectContentType r = .ok p) :
    Checked detectContentType recover s.issued p := by
  obtain ⟨addr, hauth, hp⟩ := Gate.bind_ok hp
  obtain ⟨query, hquery, hp⟩ := Gate.bind_ok hp
  cases hp
  refine ⟨?_, fun image himage => ?_⟩
  · cases hcookie : r.cookie with
    | none =>
      rw [hcookie] at hauth
      cases hauth
    | some cookie =>
      rw [hcookie] at hauth
      obtain ⟨e, he, wallet, rfl, hrecover, rfl, hnow⟩ :=
        (Auth.requireAuth_iff haccepts hdocs haddress h (hunforged cookie hcookie) _ _).1 hauth
      exact ⟨wallet, rfl, e, he, hcookie, hrecover, hnow⟩
  · exact route_valid hquery image himage

/-! ## Every run -/

structure Inv (env : Env) (auth : Auth.Outside Message H160)
    (detectContentType : List UInt8 → String) (recover : Message → String → Option H160)
    (s : System Message) : Prop where
  logins : Reach (Auth.step env auth) Auth.FreshNonce Auth.Start s.auth
  pending : ∀ p ∈ s.pending, Checked detectContentType recover s.auth.issued p
  ran : ∀ r ∈ s.ran, Checked detectContentType recover s.auth.issued r.toPending
  table : ∀ addr, s.userAvatars.lookup addr = avatarOf addr s.ran
  answers : ∀ (i : Nat) (r : Ran), s.ran[i]? = some r →
    r.answer = r.query.answer (avatarOf r.addr (s.ran.take i)) r.outcome

theorem Inv.start {s : System Message} (h : Start s) :
    Inv env auth detectContentType recover s := by
  obtain ⟨clock, rfl⟩ := h
  exact {
    logins := .start ⟨clock, rfl⟩
    pending := fun _ hp => nomatch hp
    ran := fun _ hr => nomatch hr
    table := fun _ => rfl
    answers := fun _ _ hr => nomatch hr }

theorem Inv.run {s : System Message} (hinv : Inv env auth detectContentType recover s) {i : Nat}
    {p : Pending} (hp : s.pending[i]? = some p) (outcome : Outcome) :
    Inv env auth detectContentType recover { s with
      userAvatars := if outcome.ran then p.query.run p.addr s.userAvatars else s.userAvatars
      pending := s.pending.eraseIdx i
      ran := s.ran ++ [{ p with
        outcome, answer := p.query.answer (s.userAvatars.lookup p.addr) outcome }] } where
  logins := hinv.logins
  pending q hq := hinv.pending q (List.mem_of_mem_eraseIdx hq)
  ran r hr := by
    rcases List.mem_append.1 hr with hr | hr
    · exact hinv.ran r hr
    · rw [List.mem_singleton.1 hr]
      exact hinv.pending p (List.mem_of_getElem? hp)
  table addr := by
    dsimp only
    rw [avatarOf_concat, lookup_run addr s.userAvatars p outcome, hinv.table addr]
  answers j r hr := by
    dsimp only at hr ⊢
    rcases Concat.getElem?_cases hr with ⟨hold, hlt⟩ | ⟨rfl, rfl⟩
    · rw [List.take_append_of_le_length (Nat.le_of_lt hlt)]
      exact hinv.answers j r hold
    · rw [List.take_left]
      dsimp only
      rw [hinv.table p.addr]

theorem Inv.step (haccepts : auth.Accepts recover validAt)
    (hdocs : library.Documented auth decode verify) (haddress : Auth.AddressText auth library)
    {s s' : System Message} {a : Act} (hinv : Inv env auth detectContentType recover s)
    (hhonest : Honest env decode verify s a)
    (h : Avatar.step env auth library configured detectContentType s a = some s') :
    Inv env auth detectContentType recover s' := by
  cases a with
  | login a =>
    obtain ⟨auth', hauth, rfl⟩ := Option.map_eq_some_iff.1 h
    have hsub := Execution.issued_subset hauth
    exact { hinv with
      logins := hinv.logins.next hhonest hauth
      pending := fun p hp => (hinv.pending p hp).mono hsub
      ran := fun r hr => (hinv.ran r hr).mono hsub }
  | logout =>
    cases h
    exact hinv
  | request r =>
    obtain rfl := Option.some.inj h
    refine { hinv with pending := fun p hp => ?_ }
    rcases List.mem_append.1 hp with hp | hp
    · exact hinv.pending p hp
    · have hhandle := Gate.toOption_eq_some.1 (Option.mem_toList.1 hp)
      exact handle_checked haccepts hdocs haddress hinv.logins hhonest hhandle
  | run i outcome =>
    obtain ⟨p, hp, rfl⟩ := Option.map_eq_some_iff.1 h
    exact hinv.run hp outcome

/-- **An avatar is its wallet's own**: in every run of logins and profile requests in any order,
every statement that was run is for a wallet that had signed in; it is answered with what that
wallet wrote last, an image within the limits; and it changes the avatar of no other wallet. -/
theorem avatar_own (haccepts : auth.Accepts recover validAt)
    (hdocs : library.Documented auth decode verify) (haddress : Auth.AddressText auth library)
    {s : System Message}
    (h : Reach (Avatar.step env auth library configured detectContentType)
      (Honest env decode verify) Start s) {i : Nat} {r : Ran} (hr : s.ran[i]? = some r) :
    ∃ wallet, SentBy recover s.auth.issued r.toPending wallet ∧
      r.answer = r.query.answer (avatarOf (hexAddress wallet) (s.ran.take i)) r.outcome ∧
      (∀ image ∈ avatarOf (hexAddress wallet) (s.ran.take i), image.Valid detectContentType) ∧
      ∀ other, other ≠ wallet → avatarOf (hexAddress other) (s.ran.take (i + 1)) =
        avatarOf (hexAddress other) (s.ran.take i) := by
  have hinv : Inv env auth detectContentType recover s :=
    h.inv (fun _ => Inv.start) fun _ _ _ hinv hhonest hst =>
      hinv.step haccepts hdocs haddress hhonest hst
  obtain ⟨wallet, hsent⟩ := (hinv.ran r (List.mem_of_getElem? hr)).sent
  have haddr := hsent.1
  refine ⟨wallet, hsent, ?_, fun image himage => ?_, fun other hne => ?_⟩
  · rw [← haddr]
    exact hinv.answers i r hr
  · have hvalid : ∀ q ∈ s.ran.take i, q.query.Valid detectContentType :=
      fun q hq => (hinv.ran q (List.mem_of_mem_take hq)).valid
    exact avatarOf_valid hvalid himage
  · have helse : r.writtenAt (hexAddress other) = none :=
      if_neg fun hwrites => hne (hexAddress_injective (hwrites.1.symm.trans haddr))
    rw [List.take_add_one, hr, Option.toList_some, avatarOf_concat, helse]
    rfl

end

/-! ## An upload -/

section
attribute [local instance] asciiCase

theorem reach_logins {Message : Type} [UnicodeCase] {env : Env} {auth : Auth.Outside Message H160}
    {library : TokenLibrary} {configured : Bool} {detectContentType : List UInt8 → String}
    {decode : String → Option (Auth.SigningMethod × Auth.JwtClaims)}
    {verify : String → Auth.SigningMethod → String → Prop} {acts : List Auth.Act}
    {s : System Message} {t : Auth.Sys Message}
    (h : Reach (step env auth library configured detectContentType) (Honest env decode verify)
      Start s)
    (hrun : run (Auth.step env auth) Auth.FreshNonce s.auth acts = some t) :
    Reach (step env auth library configured detectContentType) (Honest env decode verify) Start
      { s with auth := t } := by
  refine Reach.of_component (fun auth => { s with auth }) .login
    (fun u a (hfresh : Auth.FreshNonce u a) => hfresh) (fun u a u' hstep => ?_) h hrun
  dsimp only [step]
  rw [hstep]
  rfl

/-- The signature of a PNG file. -/
def png : List UInt8 := [0x89, 0x50, 0x4e, 0x47, 0x0d, 0x0a, 0x1a, 0x0a]

/-- `http.DetectContentType`, which knows a PNG file. -/
def detectPng (bytes : List UInt8) : String :=
  if png.isPrefixOf bytes then "image/png" else "application/octet-stream"

def profileRequest (operation : Operation) : Request where
  cookie := some Auth.firstToken
  now := 3600 * second
  operation := operation

/-- The wallet stores an image and asks for it. -/
theorem avatar_own_upload :
    ∃ (s : System Auth.SiweMessage) (r : Ran), s.ran[1]? = some r ∧
      r.answer = .blob "private, max-age=300" ⟨"image/png", png⟩ ∧
      ∃ wallet, SentBy Auth.walletOf s.auth.issued r.toPending wallet ∧
        r.answer = r.query.answer (avatarOf (hexAddress wallet) (s.ran.take 1)) r.outcome ∧
        (∀ image ∈ avatarOf (hexAddress wallet) (s.ran.take 1), image.Valid detectPng) ∧
        ∀ other, other ≠ wallet → avatarOf (hexAddress other) (s.ran.take (1 + 1)) =
          avatarOf (hexAddress other) (s.ran.take 1) := by
  obtain ⟨auth, hrun, e, hsolo, -, htoken, -⟩ := Auth.signIns_issued
  have hstart : Reach (step Auth.devEnv Auth.walletLibraries Auth.tokenLibrary true detectPng)
      (Honest Auth.devEnv Auth.decodeFirst Auth.verifyFirst) Start
      ({ auth := { clock := 0 } } : System Auth.SiweMessage) := .start ⟨0, rfl⟩
  have hsignedIn := reach_logins hstart hrun
  have hmem : e ∈ auth.issued := by
    rw [hsolo]
    exact List.mem_singleton_self e
  have hunforged : ∀ cookie ∈ some Auth.firstToken,
      Auth.Unforged Auth.devEnv Auth.decodeFirst Auth.verifyFirst auth cookie := by
    intro cookie hcookie
    cases hcookie
    exact fun _ _ _ _ _ => ⟨e, hmem, htoken⟩
  have hput : (handle Auth.devEnv Auth.tokenLibrary true detectPng
      (profileRequest (.put (.content png)))).toOption.toList =
      [⟨profileRequest (.put (.content png)), hexAddress Auth.wallet,
        .upsert ⟨"image/png", png⟩⟩] := by rfl
  have hget : (handle Auth.devEnv Auth.tokenLibrary true detectPng
      (profileRequest .get)).toOption.toList =
      [⟨profileRequest .get, hexAddress Auth.wallet, .select⟩] := by rfl
  have hputs := hsignedIn.next (a := Act.request (profileRequest (.put (.content png))))
    hunforged rfl
  rw [hput] at hputs
  have hstored := hputs.next (a := Act.run 0 .ok) trivial rfl
  have hgets := hstored.next (a := Act.request (profileRequest .get)) hunforged rfl
  rw [hget] at hgets
  have hread := hgets.next (a := Act.run 0 .ok) trivial rfl
  exact ⟨_, _, rfl, rfl, avatar_own Auth.wallet_accepts Auth.tokenLibrary_documented
    Auth.wallet_addressText hread rfl⟩

end

end Avatar
