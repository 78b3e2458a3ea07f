import Mathlib.Data.List.Nodup
import Mathlib.Logic.Equiv.Defs

/-!
# Formats

A codec writes values and reads them. Not every value of a type can be read (an integer may be out
of range): the codec says which, and carries that these are read back from what is written of them
and that no others are read. What was read survives being written and read again
(`Codec.reencode`).

* `Codec.option`, `Codec.list`: codecs from codecs.
* `Fields`: a part of a record, read by keys or in order. `Fields.one`, `Fields.defaulted`,
  `Fields.and`, `Fields.congr` build them.
-/

/-- A format for values of `A` in documents `J`, with errors `E`. -/
structure Codec (J E A : Type) where
  encode : A → J
  decode : J → Except E A
  Valid : A → Prop
  valid_of_decode : ∀ {j a}, decode j = .ok a → Valid a
  decode_encode : ∀ {a}, Valid a → decode (encode a) = .ok a

theorem Codec.map_eq_ok {E A B : Type} {x : Except E A} {f : A → B} {b : B} :
    x.map f = .ok b ↔ ∃ a, x = .ok a ∧ f a = b := by
  cases x with
  | error e => simp [Except.map]
  | ok a => simp [Except.map]

namespace Codec

variable {J E A B : Type}

/-- What was read is read back from what is written of it. -/
theorem reencode (c : Codec J E A) {j : J} {a : A} (h : c.decode j = .ok a) :
    c.decode (c.encode a) = .ok a :=
  c.decode_encode (c.valid_of_decode h)

/-- `none` is written as `null`, which no other value is. -/
def option (c : Codec J E A) (null : J) (isNull : J → Bool) (hnull : isNull null = true)
    (hother : ∀ a, isNull (c.encode a) = false) : Codec J E (Option A) where
  encode
    | none => null
    | some a => c.encode a
  decode j := if isNull j then .ok none else (c.decode j).map some
  Valid o := ∀ a ∈ o, c.Valid a
  valid_of_decode {j o} h a ha := by
    split at h
    · cases h
      cases ha
    · obtain ⟨a', ha', rfl⟩ := Codec.map_eq_ok.1 h
      cases ha
      exact c.valid_of_decode ha'
  decode_encode {o} h := by
    cases o with
    | none => exact if_pos hnull
    | some a =>
      dsimp only
      rw [hother a]
      exact Codec.map_eq_ok.2 ⟨a, c.decode_encode (h a rfl), rfl⟩

theorem mapM_encode (c : Codec J E A) {as : List A} (h : ∀ a ∈ as, c.Valid a) :
    (as.map c.encode).mapM c.decode = .ok as := by
  induction as with
  | nil => rfl
  | cons a as ih =>
    rw [List.map_cons, List.mapM_cons, c.decode_encode (h a List.mem_cons_self),
      ih fun b hb => h b (List.mem_cons_of_mem _ hb)]
    rfl

theorem valid_of_mapM (c : Codec J E A) {js : List J} {as : List A}
    (h : js.mapM c.decode = .ok as) : ∀ a ∈ as, c.Valid a := by
  induction js generalizing as with
  | nil =>
    cases h
    intro a ha
    cases ha
  | cons j js ih =>
    rw [List.mapM_cons] at h
    cases hj : c.decode j with
    | error e => rw [hj] at h; cases h
    | ok a =>
      cases hjs : js.mapM c.decode with
      | error e => rw [hj, hjs] at h; cases h
      | ok rest =>
        rw [hj, hjs] at h
        cases h
        intro b hb
        rcases List.mem_cons.1 hb with rfl | hb
        · exact c.valid_of_decode hj
        · exact ih hjs b hb

/-- A list is written item by item. -/
def list (c : Codec J E A) (array : List J → J) (items : J → Except E (List J))
    (hitems : ∀ js, items (array js) = .ok js) : Codec J E (List A) where
  encode as := array (as.map c.encode)
  decode j := (items j).bind fun js => js.mapM c.decode
  Valid as := ∀ a ∈ as, c.Valid a
  valid_of_decode {j as} h := by
    cases hj : items j with
    | error e => rw [hj] at h; cases h
    | ok js =>
      rw [hj] at h
      exact c.valid_of_mapM h
  decode_encode h := by
    rw [hitems]
    exact c.mapM_encode h

end Codec

/-! ## Records -/

/-- Some fields of a record: written as entries, read from the entries by their keys or from the
values in order. -/
structure Fields (K J E A : Type) [DecidableEq K] where
  keys : List K
  entries : A → List (K × J)
  read : (K → Option J) → Except E A
  readSeq : List J → Except E (A × List J)
  Valid : A → Prop
  valid_of_read : ∀ {l a}, read l = .ok a → Valid a
  valid_of_readSeq : ∀ {js a rest}, readSeq js = .ok (a, rest) → Valid a
  entries_keys : ∀ a, ((entries a).map Prod.fst).Sublist keys
  read_entries : ∀ {l a}, keys.Nodup → Valid a → (∀ k ∈ keys, l k = (entries a).lookup k) →
    read l = .ok a

namespace Fields

variable {K J E A B : Type} [DecidableEq K]

/-- A field that has to be there; `missing` and `short` are the errors if it is not. -/
def one (key : K) (c : Codec J E A) (missing short : E) : Fields K J E A where
  keys := [key]
  entries a := [(key, c.encode a)]
  read l :=
    match l key with
    | none => .error missing
    | some j => c.decode j
  readSeq
    | [] => .error short
    | j :: js => (c.decode j).map (·, js)
  Valid := c.Valid
  valid_of_read {l a} h := by
    split at h
    · cases h
    · exact c.valid_of_decode h
  valid_of_readSeq {js a rest} h := by
    cases js with
    | nil => cases h
    | cons j js =>
      obtain ⟨a', ha', heq⟩ := Codec.map_eq_ok.1 h
      cases heq
      exact c.valid_of_decode ha'
  entries_keys a := List.Sublist.refl _
  read_entries {l a} _ h hl := by
    have hkey : l key = some (c.encode a) :=
      (hl key List.mem_cons_self).trans (by rw [List.lookup_cons_self])
    rw [hkey]
    exact c.decode_encode h

/-- A field that may be left out, and is if it is not `written`; `short` is what is read where the
values in order end before it. -/
def defaulted (key : K) (c : Codec J E A) (default : A) (short : Except E A) (written : A → Bool)
    (hdefault : c.Valid default) (hshort : ∀ a, short = .ok a → c.Valid a)
    (hwritten : ∀ a, written a = false → a = default) : Fields K J E A where
  keys := [key]
  entries a := if written a then [(key, c.encode a)] else []
  read l :=
    match l key with
    | none => .ok default
    | some j => c.decode j
  readSeq
    | [] => short.map (·, [])
    | j :: js => (c.decode j).map (·, js)
  Valid := c.Valid
  valid_of_read {l a} h := by
    split at h
    · cases h
      exact hdefault
    · exact c.valid_of_decode h
  valid_of_readSeq {js a rest} h := by
    cases js with
    | nil =>
      obtain ⟨a', ha', heq⟩ := Codec.map_eq_ok.1 h
      cases heq
      exact hshort a ha'
    | cons j js =>
      obtain ⟨a', ha', heq⟩ := Codec.map_eq_ok.1 h
      cases heq
      exact c.valid_of_decode ha'
  entries_keys a := by
    split
    · exact List.Sublist.refl _
    · exact List.nil_sublist _
  read_entries {l a} _ h hl := by
    have hkey := hl key List.mem_cons_self
    rw [hkey]
    cases hw : written a with
    | true =>
      rw [if_pos rfl, List.lookup_cons_self]
      exact c.decode_encode h
    | false =>
      rw [if_neg Bool.false_ne_true, List.lookup_nil, hwritten a hw]

theorem lookup_entries_eq_none (f : Fields K J E A) (a : A) {k : K} (h : k ∉ f.keys) :
    (f.entries a).lookup k = none := by
  rw [List.lookup_eq_none_iff]
  intro p hp
  have hmem := (f.entries_keys a).subset (List.mem_map_of_mem hp)
  exact bne_iff_ne.2 fun hk => h (hk ▸ hmem)

/-- One part of a record and another. -/
def and (f : Fields K J E A) (g : Fields K J E B) : Fields K J E (A × B) where
  keys := f.keys ++ g.keys
  entries p := f.entries p.1 ++ g.entries p.2
  read l := (f.read l).bind fun a => (g.read l).map (a, ·)
  readSeq js := (f.readSeq js).bind fun r => (g.readSeq r.2).map fun s => ((r.1, s.1), s.2)
  Valid p := f.Valid p.1 ∧ g.Valid p.2
  valid_of_read {l p} h := by
    cases hf : f.read l with
    | error e => rw [hf] at h; cases h
    | ok a =>
      rw [hf] at h
      obtain ⟨b, hb, rfl⟩ := Codec.map_eq_ok.1 h
      exact ⟨f.valid_of_read hf, g.valid_of_read hb⟩
  valid_of_readSeq {js p rest} h := by
    cases hf : f.readSeq js with
    | error e => rw [hf] at h; cases h
    | ok r =>
      rw [hf] at h
      obtain ⟨s, hs, heq⟩ := Codec.map_eq_ok.1 h
      cases heq
      exact ⟨f.valid_of_readSeq hf, g.valid_of_readSeq hs⟩
  entries_keys p := by
    rw [List.map_append]
    exact (f.entries_keys p.1).append (g.entries_keys p.2)
  read_entries {l p} hkeys h hl := by
    obtain ⟨hfkeys, hgkeys, hdisjoint⟩ := List.nodup_append.1 hkeys
    have hf : f.read l = .ok p.1 := f.read_entries hfkeys h.1 fun k hk => by
      rw [hl k (List.mem_append_left _ hk), List.lookup_append,
        g.lookup_entries_eq_none p.2 (fun hk' => hdisjoint k hk k hk' rfl), Option.or_none]
    have hg : g.read l = .ok p.2 := g.read_entries hgkeys h.2 fun k hk => by
      rw [hl k (List.mem_append_right _ hk), List.lookup_append,
        f.lookup_entries_eq_none p.1 (fun hk' => hdisjoint k hk' k hk rfl), Option.none_or]
    rw [hf, hg]
    rfl

/-- The parts under other names. -/
def congr (f : Fields K J E A) (e : A ≃ B) : Fields K J E B where
  keys := f.keys
  entries b := f.entries (e.symm b)
  read l := (f.read l).map e
  readSeq js := (f.readSeq js).map fun r => (e r.1, r.2)
  Valid b := f.Valid (e.symm b)
  valid_of_read h := by
    obtain ⟨a, ha, rfl⟩ := Codec.map_eq_ok.1 h
    rw [e.symm_apply_apply]
    exact f.valid_of_read ha
  valid_of_readSeq h := by
    obtain ⟨r, hr, heq⟩ := Codec.map_eq_ok.1 h
    cases heq
    rw [e.symm_apply_apply]
    exact f.valid_of_readSeq hr
  entries_keys b := f.entries_keys (e.symm b)
  read_entries hkeys h hl :=
    Codec.map_eq_ok.2 ⟨_, f.read_entries hkeys h hl, e.apply_symm_apply _⟩

@[simp] theorem and_keys (f : Fields K J E A) (g : Fields K J E B) :
    (f.and g).keys = f.keys ++ g.keys := rfl

@[simp] theorem congr_keys (f : Fields K J E A) (e : A ≃ B) : (f.congr e).keys = f.keys := rfl

theorem nodup_entries (f : Fields K J E A) (hkeys : f.keys.Nodup) (a : A) :
    ((f.entries a).map Prod.fst).Nodup :=
  hkeys.sublist (f.entries_keys a)

end Fields
