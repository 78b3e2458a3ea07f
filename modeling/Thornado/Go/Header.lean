import Mathlib
import Thornado.Go.Prelude

/-!
# HTTP headers in Go

`http.Header` with `net/textproto`'s canonical names, and what `httputil.ReverseProxy` does to the
header of a request it passes on.

* `canonicalMIMEHeaderKey_eq_iff`: two names have one canonical form iff they differ in case only.
* `Header.field_eq`: a receiver that ignores the case of names reads a header's own value of a name.
* `Header.field_reverseProxy`: a name that the proxy does not use itself reaches the receiver as it
  was, unless the request's `Connection` header lists it.
-/

namespace Go

/-- `textproto.validHeaderFieldByte`: the characters of a token. -/
def validHeaderFieldByte (c : Char) : Bool :=
  c.isAlphanum || "!#$%&'*+-.^_`|~".toList.contains c

def validName (s : String) : Bool := s.toList.all validHeaderFieldByte

/-- `httpguts.ValidHeaderFieldName`. -/
def validHeaderFieldName (s : String) : Bool := s != "" && validName s

/-- `httpguts.ValidHeaderFieldValue`: no control character but the tab. -/
def validHeaderFieldValue (s : String) : Bool :=
  s.toList.all fun c => (0x20 ≤ c.toNat && c.toNat != 0x7f) || c.toNat == 9

/-- A line that the server takes. -/
def validLine (line : String × String) : Bool :=
  validHeaderFieldName line.1 && validHeaderFieldValue line.2

/-- Without the characters of a kind at the ends. -/
def trimBy (p : Char → Bool) (s : String) : String :=
  String.ofList ((s.toList.dropWhile p).reverse.dropWhile p).reverse

/-- `textproto.TrimString`. -/
def trimString : String → String := trimBy (" \t\n\r".toList.contains ·)

/-- `httpguts.trimOWS`. -/
def trimOWS : String → String := trimBy (" \t".toList.contains ·)

/-- `ascii.IsPrint`. -/
def isPrint (s : String) : Bool := s.toList.all fun c => 0x20 ≤ c.toNat && c.toNat ≤ 0x7e

/-- Letters are upper case at the start and after a hyphen, lower case elsewhere. -/
def canonicalChars : Bool → List Char → List Char
  | _, [] => []
  | upper, c :: cs => (if upper then c.toUpper else c.toLower) :: canonicalChars (c == '-') cs

/-- `textproto.CanonicalMIMEHeaderKey`. -/
def canonicalMIMEHeaderKey (s : String) : String :=
  if validName s then String.ofList (canonicalChars true s.toList) else s

/-- `http.Header`. -/
abbrev Header := AList fun _ : String => List String

namespace Header

/-- The values of a name. -/
def values (h : Header) (key : String) : List String :=
  (h.lookup (canonicalMIMEHeaderKey key)).getD []

/-- `Header.Get`. -/
def get (h : Header) (key : String) : String := (h.values key).headD ""

/-- `Header.Add`. -/
def add (h : Header) (key value : String) : Header :=
  h.insert (canonicalMIMEHeaderKey key) (h.values key ++ [value])

/-- `Header.Set`. -/
def set (h : Header) (key value : String) : Header :=
  h.insert (canonicalMIMEHeaderKey key) [value]

/-- `Header.Del`. -/
def del (h : Header) (key : String) : Header := h.erase (canonicalMIMEHeaderKey key)

/-- The header that the server reads from the lines of a request; it refuses other names and
values. -/
def read (lines : List (String × String)) : Option Header :=
  if lines.all validLine then some (lines.foldl (fun h line => h.add line.1 line.2) ∅) else none

/-- The lines that a client writes for a header. -/
def lines (h : Header) : List (String × String) :=
  h.entries.flatMap fun e => e.2.map (e.1, ·)

end Header

/-! ## The reverse proxy -/

/-- The names that a value of the `Connection` header lists. -/
def listed (value : String) : List String :=
  ((split value ',').map trimString).filter (· ≠ "")

/-- `hopHeaders` of `httputil`. -/
def hopHeaders : List String :=
  ["Connection", "Proxy-Connection", "Keep-Alive", "Proxy-Authenticate", "Proxy-Authorization",
    "Te", "Trailer", "Transfer-Encoding", "Upgrade"]

/-- `httpguts.HeaderValuesContainsToken`. -/
def containsToken (values : List String) (token : String) : Bool :=
  values.any fun value => (split value ',').any fun part =>
    Rust.toAsciiLowercase (trimOWS part) == Rust.toAsciiLowercase token

namespace Header

def upgradeType (h : Header) : String :=
  if containsToken (h.values "Connection") "Upgrade" then h.get "Upgrade" else ""

/-- `removeHopByHopHeaders`. -/
def removeHopByHopHeaders (h : Header) : Header :=
  hopHeaders.foldl del (((h.values "Connection").flatMap listed).foldl del h)

/-- `Te: trailers` is passed on all the same. -/
def keepTrailers (h out : Header) : Header :=
  if containsToken (h.values "Te") "trailers" then out.set "Te" "trailers" else out

/-- So is a protocol upgrade. -/
def keepUpgrade (h out : Header) : Header :=
  if h.upgradeType = "" then out
  else (out.set "Connection" "Upgrade").set "Upgrade" h.upgradeType

def forwardFor (clientIP : Option String) (out : Header) : Header :=
  match clientIP with
  | none => out
  | some ip => out.set "X-Forwarded-For" (", ".intercalate (out.values "X-Forwarded-For" ++ [ip]))

def noUserAgent (out : Header) : Header :=
  if (out.lookup "User-Agent").isNone then out.set "User-Agent" "" else out

/-- The header that `ReverseProxy.ServeHTTP` sends on, for a client at an address. It sends nothing
if the client wants to switch to a protocol whose name is not printable. -/
def reverseProxy (h : Header) (clientIP : Option String) : Option Header :=
  if isPrint h.upgradeType then
    some (noUserAgent (forwardFor clientIP
      (h.keepUpgrade (h.keepTrailers h.removeHopByHopHeaders))))
  else none

end Header

/-- `http::HeaderMap::get`: the first value of a name, in any case. -/
def field (lines : List (String × String)) (name : String) : Option String :=
  (lines.find? fun line => Rust.toAsciiLowercase line.1 == Rust.toAsciiLowercase name).map (·.2)

/-! ## Canonical names -/

theorem toLower_beq_hyphen (c : Char) : (c.toLower == '-') = (c == '-') := by
  by_cases hc : c.isUpper
  · have hlower : c.toLower ≠ '-' := by
      intro h
      have halpha : c.toLower.isAlpha = true := by
        rw [Char.isAlpha_toLower_eq_isAlpha, Char.isAlpha, hc, Bool.true_or]
      rw [h] at halpha
      exact absurd halpha (by decide)
    have hself : c ≠ '-' := by
      rintro rfl
      exact absurd hc (by decide)
    rw [beq_eq_false_iff_ne.2 hlower, beq_eq_false_iff_ne.2 hself]
  · rw [Char.toLower_eq_of_not_isUpper hc]

theorem validHeaderFieldByte_toLower (c : Char) :
    validHeaderFieldByte c.toLower = validHeaderFieldByte c := by
  by_cases hc : c.isUpper
  · have halpha : c.isAlpha = true := by rw [Char.isAlpha, hc, Bool.true_or]
    have hlower : c.toLower.isAlpha = true := by rw [Char.isAlpha_toLower_eq_isAlpha, halpha]
    unfold validHeaderFieldByte Char.isAlphanum
    simp only [halpha, hlower, Bool.true_or]
  · rw [Char.toLower_eq_of_not_isUpper hc]

theorem validName_toAsciiLowercase (s : String) :
    validName (Rust.toAsciiLowercase s) = validName s := by
  unfold validName Rust.toAsciiLowercase
  rw [String.toList_ofList, List.all_map]
  exact congrArg s.toList.all (funext validHeaderFieldByte_toLower)

theorem canonicalChars_toLower (cs : List Char) (upper : Bool) :
    canonicalChars upper (cs.map Char.toLower) = canonicalChars upper cs := by
  induction cs generalizing upper with
  | nil => rfl
  | cons c cs ih =>
    simp only [List.map_cons, canonicalChars, Char.toUpper_toLower_eq_toUpper,
      Char.toLower_toLower_eq_toLower, toLower_beq_hyphen, ih]

theorem toLower_canonicalChars (cs : List Char) (upper : Bool) :
    (canonicalChars upper cs).map Char.toLower = cs.map Char.toLower := by
  induction cs generalizing upper with
  | nil => rfl
  | cons c cs ih =>
    cases upper with
    | true => simp [canonicalChars, ih]
    | false => simp [canonicalChars, ih]

/-- The canonical form does not depend on the case. -/
theorem canonicalMIMEHeaderKey_toAsciiLowercase {s : String} (h : validName s = true) :
    canonicalMIMEHeaderKey (Rust.toAsciiLowercase s) = canonicalMIMEHeaderKey s := by
  unfold canonicalMIMEHeaderKey
  rw [validName_toAsciiLowercase, if_pos h, if_pos h]
  unfold Rust.toAsciiLowercase
  rw [String.toList_ofList, canonicalChars_toLower]

theorem toAsciiLowercase_canonicalMIMEHeaderKey (s : String) :
    Rust.toAsciiLowercase (canonicalMIMEHeaderKey s) = Rust.toAsciiLowercase s := by
  unfold canonicalMIMEHeaderKey
  split
  · unfold Rust.toAsciiLowercase
    rw [String.toList_ofList, toLower_canonicalChars]
  · rfl

theorem validName_canonicalMIMEHeaderKey (s : String) :
    validName (canonicalMIMEHeaderKey s) = validName s := by
  rw [← validName_toAsciiLowercase, toAsciiLowercase_canonicalMIMEHeaderKey,
    validName_toAsciiLowercase]

theorem canonicalMIMEHeaderKey_eq_iff {s t : String} (ht : validName t = true) :
    canonicalMIMEHeaderKey s = canonicalMIMEHeaderKey t ↔
      Rust.toAsciiLowercase s = Rust.toAsciiLowercase t := by
  constructor
  · intro h
    rw [← toAsciiLowercase_canonicalMIMEHeaderKey s, h, toAsciiLowercase_canonicalMIMEHeaderKey]
  · intro h
    have hs : validName s = true := by
      rw [← validName_toAsciiLowercase, h, validName_toAsciiLowercase, ht]
    rw [← canonicalMIMEHeaderKey_toAsciiLowercase hs, h, canonicalMIMEHeaderKey_toAsciiLowercase ht]

theorem canonicalMIMEHeaderKey_idem {s : String} (h : validName s = true) :
    canonicalMIMEHeaderKey (canonicalMIMEHeaderKey s) = canonicalMIMEHeaderKey s :=
  (canonicalMIMEHeaderKey_eq_iff h).2 (toAsciiLowercase_canonicalMIMEHeaderKey s)

theorem validName_of_validLine {line : String × String} (h : validLine line = true) :
    validName line.1 = true :=
  (Bool.and_eq_true_iff.1 (Bool.and_eq_true_iff.1 h).1).2

/-! ## Headers with canonical names -/

namespace Header

/-- Every name is canonical. -/
def Canonical (h : Header) : Prop :=
  ∀ k ∈ h, validName k = true ∧ canonicalMIMEHeaderKey k = k

variable {h : Header}

theorem canonical_empty : Canonical ∅ := fun _ hk => absurd hk (AList.notMem_empty _)

theorem Canonical.insert (hc : h.Canonical) {key : String} (hv : validName key = true)
    (values : List String) :
    Canonical (AList.insert (canonicalMIMEHeaderKey key) values h) := by
  intro k hk
  rcases (AList.mem_insert _).1 hk with rfl | hk
  · rw [validName_canonicalMIMEHeaderKey]
    exact ⟨hv, canonicalMIMEHeaderKey_idem hv⟩
  · exact hc k hk

theorem Canonical.set (hc : h.Canonical) {key : String} (hv : validName key = true)
    (value : String) : (h.set key value).Canonical :=
  hc.insert hv _

theorem Canonical.del (hc : h.Canonical) (key : String) : (h.del key).Canonical :=
  fun k hk => hc k (AList.mem_erase.1 hk).2

theorem Canonical.foldl_del (hc : h.Canonical) (keys : List String) :
    (keys.foldl Header.del h).Canonical := by
  induction keys generalizing h with
  | nil => exact hc
  | cons key keys ih => exact ih (hc.del key)

theorem Canonical.read {lines : List (String × String)} (hread : read lines = some h) :
    h.Canonical := by
  unfold Header.read at hread
  split at hread
  · rename_i hvalid
    cases hread
    rw [List.all_eq_true] at hvalid
    suffices ∀ out : Header, out.Canonical →
        (lines.foldl (fun h line => h.add line.1 line.2) out).Canonical from
      this ∅ canonical_empty
    induction lines with
    | nil => exact fun _ hout => hout
    | cons line lines ih =>
      intro out hout
      have hline := validName_of_validLine (hvalid line List.mem_cons_self)
      exact ih (fun l hl => hvalid l (List.mem_cons_of_mem _ hl)) _ (hout.insert hline _)
  · cases hread

theorem find?_lines {key : String} {p : String → Bool} :
    ∀ {entries : List (Sigma fun _ : String => List String)}, entries.NodupKeys →
      (∀ e ∈ entries, p e.1 = (e.1 == key)) →
      ((entries.flatMap fun e => e.2.map (e.1, ·)).find? fun line => p line.1).map (·.2) =
        ((entries.dlookup key).getD []).head?
  | [], _, _ => rfl
  | ⟨k, values⟩ :: entries, hnodup, hp => by
    have hrest := find?_lines (List.nodupKeys_cons.1 hnodup).2
      fun e he => hp e (List.mem_cons_of_mem _ he)
    have hk : p k = (k == key) := hp ⟨k, values⟩ List.mem_cons_self
    rw [List.flatMap_cons, List.find?_append]
    by_cases heq : k = key
    · subst heq
      rw [List.dlookup_cons_eq]
      cases values with
      | nil =>
        have hnone : entries.dlookup k = none :=
          List.dlookup_eq_none.2 (List.nodupKeys_cons.1 hnodup).1
        rw [hnone] at hrest
        exact hrest
      | cons value values =>
        rw [List.map_cons, List.find?_cons_of_pos (by rw [hk, beq_self_eq_true])]
        rfl
    · rw [List.dlookup_cons_ne _ _ (Ne.symm heq)]
      have hnone : (values.map (k, ·)).find? (fun line => p line.1) = none := by
        rw [List.find?_eq_none]
        intro line hline
        obtain ⟨value, -, rfl⟩ := List.mem_map.1 hline
        rw [hk, beq_eq_false_iff_ne.2 heq]
        exact Bool.false_ne_true
      rw [hnone, Option.none_or]
      exact hrest

/-- **Case does not matter**: a receiver that ignores the case of names reads the first of the
header's values of a name. -/
theorem field_eq (hc : h.Canonical) {name : String} (hv : validName name = true) :
    field h.lines name = (h.values name).head? := by
  have hname : ∀ k ∈ h, (Rust.toAsciiLowercase k == Rust.toAsciiLowercase name) =
      (k == canonicalMIMEHeaderKey name) := by
    intro k hk
    have hiff := canonicalMIMEHeaderKey_eq_iff (s := k) hv
    rw [(hc k hk).2] at hiff
    rw [Bool.eq_iff_iff, beq_iff_eq, beq_iff_eq]
    exact hiff.symm
  exact find?_lines (p := fun k => Rust.toAsciiLowercase k == Rust.toAsciiLowercase name)
    h.nodupKeys fun e he => hname e.1 (AList.mem_keys.2 (List.mem_map_of_mem he))

/-! ## What reaches the receiver -/

theorem values_set {key name value : String} (hv : validName name = true) :
    (h.set key value).values name =
      if Rust.toAsciiLowercase key = Rust.toAsciiLowercase name then [value]
      else h.values name := by
  unfold values set
  split
  · rename_i hcase
    rw [← (canonicalMIMEHeaderKey_eq_iff hv).2 hcase, AList.lookup_insert]
    rfl
  · rename_i hcase
    rw [AList.lookup_insert_ne fun h => hcase ((canonicalMIMEHeaderKey_eq_iff hv).1 h.symm)]

theorem values_del {key name : String} (hv : validName name = true) :
    (h.del key).values name =
      if Rust.toAsciiLowercase key = Rust.toAsciiLowercase name then [] else h.values name := by
  unfold values del
  split
  · rename_i hcase
    rw [← (canonicalMIMEHeaderKey_eq_iff hv).2 hcase, AList.lookup_erase]
    rfl
  · rename_i hcase
    rw [AList.lookup_erase_ne fun h => hcase ((canonicalMIMEHeaderKey_eq_iff hv).1 h.symm)]

theorem values_add {key name value : String} (hv : validName name = true) :
    (h.add key value).values name =
      if Rust.toAsciiLowercase key = Rust.toAsciiLowercase name then h.values name ++ [value]
      else h.values name := by
  unfold values add
  split
  · rename_i hcase
    rw [← (canonicalMIMEHeaderKey_eq_iff hv).2 hcase, AList.lookup_insert]
    rfl
  · rename_i hcase
    rw [AList.lookup_insert_ne fun h => hcase ((canonicalMIMEHeaderKey_eq_iff hv).1 h.symm)]

/-- A name has the values of its lines, in any case. -/
theorem values_read {lines : List (String × String)} {name : String} (hv : validName name = true)
    (hread : read lines = some h) :
    h.values name =
      (lines.filter fun line => Rust.toAsciiLowercase line.1 = Rust.toAsciiLowercase name).map
        (·.2) := by
  unfold Header.read at hread
  split at hread
  · cases hread
    suffices ∀ out : Header, (lines.foldl (fun h line => h.add line.1 line.2) out).values name =
        out.values name ++ (lines.filter fun line =>
          Rust.toAsciiLowercase line.1 = Rust.toAsciiLowercase name).map (·.2) from this ∅
    induction lines with
    | nil => simp
    | cons line lines ih =>
      intro out
      rename_i hvalid
      rw [List.foldl_cons, ih (List.all_eq_true.2 fun l hl =>
        List.all_eq_true.1 hvalid l (List.mem_cons_of_mem _ hl)), values_add hv]
      by_cases hcase : Rust.toAsciiLowercase line.1 = Rust.toAsciiLowercase name
      · simp [hcase]
      · simp [hcase]
  · cases hread

/-- One of the keys is the name, whatever the case. -/
def Names (keys : List String) (name : String) : Prop :=
  ∃ key ∈ keys, Rust.toAsciiLowercase key = Rust.toAsciiLowercase name

instance (keys : List String) (name : String) : Decidable (Names keys name) :=
  inferInstanceAs (Decidable (∃ key ∈ keys, _))

theorem names_cons {key name : String} {keys : List String} :
    Names (key :: keys) name ↔
      Rust.toAsciiLowercase key = Rust.toAsciiLowercase name ∨ Names keys name := by
  simp only [Names, List.mem_cons, exists_eq_or_imp]

theorem values_foldl_del {name : String} (hv : validName name = true) (keys : List String) :
    (keys.foldl del h).values name = if Names keys name then [] else h.values name := by
  induction keys generalizing h with
  | nil => rfl
  | cons key keys ih =>
    rw [List.foldl_cons, ih, values_del hv]
    simp only [names_cons]
    by_cases hrest : Names keys name
    · rw [if_pos hrest, if_pos (.inr hrest)]
    · simp only [hrest, if_false, or_false]

/-- The names that the proxy removes or sets of its own accord. -/
def ownNames : List String := hopHeaders ++ ["X-Forwarded-For", "User-Agent"]

/-- The header has canonical names, and these values of one name. -/
structure Has (h : Header) (name : String) (values : List String) : Prop where
  canonical : h.Canonical
  values_eq : h.values name = values

theorem Has.removeHopByHopHeaders {name : String} (hc : h.Canonical)
    (hv : validName name = true) (hown : ¬ Names ownNames name) :
    h.removeHopByHopHeaders.Has name
      (if Names ((h.values "Connection").flatMap listed) name then [] else h.values name) := by
  refine ⟨(hc.foldl_del _).foldl_del _, ?_⟩
  have hhop : ¬ Names hopHeaders name := fun ⟨key, hkey, hcase⟩ =>
    hown ⟨key, List.mem_append_left _ hkey, hcase⟩
  unfold Header.removeHopByHopHeaders
  rw [values_foldl_del hv, if_neg hhop, values_foldl_del hv]

section
variable {name key : String} {values : List String}

/-- Another name is set. -/
theorem Has.set_ne (hhas : h.Has name values) (hv : validName name = true)
    (hkey : validName key = true) (hne : Rust.toAsciiLowercase key ≠ Rust.toAsciiLowercase name)
    (value : String) : (h.set key value).Has name values := by
  refine ⟨hhas.canonical.set hkey value, ?_⟩
  rw [values_set hv, if_neg hne]
  exact hhas.values_eq

/-- The name itself is set. -/
theorem Has.set_self (hc : h.Canonical) (hv : validName name = true) (hkey : validName key = true)
    (heq : Rust.toAsciiLowercase key = Rust.toAsciiLowercase name) (value : String) :
    (h.set key value).Has name [value] :=
  ⟨hc.set hkey value, by rw [values_set hv, if_pos heq]⟩

/-- The proxy sets a name of its own. -/
theorem Has.set (hhas : h.Has name values) (hv : validName name = true)
    (hown : ¬ Names ownNames name) (hkey : key ∈ ownNames) (value : String) :
    (h.set key value).Has name values := by
  have hvalid : ∀ key ∈ ownNames, validName key = true := by decide
  exact hhas.set_ne hv (hvalid key hkey) (fun hcase => hown ⟨key, hkey, hcase⟩) value

theorem Has.keepTrailers {out : Header} (hhas : out.Has name values)
    (hv : validName name = true) (hown : ¬ Names ownNames name) :
    (h.keepTrailers out).Has name values := by
  unfold Header.keepTrailers
  split
  · exact hhas.set hv hown (by decide) _
  · exact hhas

theorem Has.keepUpgrade {out : Header} (hhas : out.Has name values)
    (hv : validName name = true) (hown : ¬ Names ownNames name) :
    (h.keepUpgrade out).Has name values := by
  unfold Header.keepUpgrade
  split
  · exact hhas
  · exact (hhas.set hv hown (by decide) _).set hv hown (by decide) _

theorem Has.forwardFor {out : Header} (hhas : out.Has name values)
    (hv : validName name = true) (hown : ¬ Names ownNames name) (clientIP : Option String) :
    (Header.forwardFor clientIP out).Has name values := by
  cases clientIP with
  | none => exact hhas
  | some ip => exact hhas.set hv hown (by decide) _

theorem Has.noUserAgent {out : Header} (hhas : out.Has name values)
    (hv : validName name = true) (hown : ¬ Names ownNames name) :
    out.noUserAgent.Has name values := by
  unfold Header.noUserAgent
  split
  · exact hhas.set hv hown (by decide) _
  · exact hhas

end

/-- **What a proxy passes on** of a name that it does not use: what there was, unless the request's
`Connection` header lists the name. -/
theorem field_reverseProxy (hc : h.Canonical) {name : String} (hv : validName name = true)
    (hown : ¬ Names ownNames name) {clientIP : Option String} {out : Header}
    (hsent : h.reverseProxy clientIP = some out) :
    field out.lines name =
      if Names ((h.values "Connection").flatMap listed) name then none
      else (h.values name).head? := by
  unfold Header.reverseProxy at hsent
  split at hsent
  · cases hsent
    have hout := ((((Has.removeHopByHopHeaders hc hv hown).keepTrailers (h := h) hv
      hown).keepUpgrade (h := h) hv hown).forwardFor hv hown clientIP).noUserAgent hv hown
    rw [field_eq hout.canonical hv, hout.values_eq]
    split
    · rfl
    · rfl
  · cases hsent

theorem reverseProxy_isSome {clientIP : Option String} :
    (∃ out, h.reverseProxy clientIP = some out) ↔ isPrint h.upgradeType = true := by
  unfold Header.reverseProxy
  split
  · rename_i hprint
    exact iff_of_true ⟨_, rfl⟩ hprint
  · rename_i hodd
    exact iff_of_false (fun ⟨_, hout⟩ => nomatch hout) hodd

end Header

end Go
