import Mathlib

/-!
# Fields of a word

A word is put together from shifted values with `|||`, and read with a shift and a mask. A field is
the bits from an offset on (`BitVec.extractLsb'`), and `BitVec.extractLsb'_or` reads it from each
part.

* `extract_shiftLeft_self`, `extract_shiftLeft_below`, `extract_shiftLeft_above`: what a field reads
  of a shifted value at the field's own offset, above the field and below it.
* `shiftRight_and_mask`: a shift and a mask read a field.
* `Layout`: fields one above the other, whose values fit. `read_pack`: each value is read back from
  a word that is packed so, whatever lies above.
-/

namespace BitFields

variable {w : Nat} {x : BitVec w} {off len k : Nat}

theorem extract_shiftLeft_self (hw : off + len ≤ w) :
    (x <<< off).extractLsb' off len = x.setWidth len := by
  refine BitVec.eq_of_getLsbD_eq fun i hi => ?_
  rw [BitVec.getLsbD_extractLsb', BitVec.getLsbD_shiftLeft, BitVec.getLsbD_setWidth,
    Nat.add_sub_cancel_left, decide_eq_true (by omega : off + i < w),
    decide_eq_false (by omega : ¬ off + i < off)]
  simp

/-- The value lies above the field. -/
theorem extract_shiftLeft_below (h : off + len ≤ k) : (x <<< k).extractLsb' off len = 0 := by
  refine BitVec.eq_of_getLsbD_eq fun i hi => ?_
  rw [BitVec.getLsbD_extractLsb', BitVec.getLsbD_shiftLeft,
    decide_eq_true (by omega : off + i < k)]
  simp

/-- The value lies below the field. -/
theorem extract_shiftLeft_above {m : Nat} (hx : x.toNat < 2 ^ m) (h : k + m ≤ off) :
    (x <<< k).extractLsb' off len = 0 := by
  refine BitVec.eq_of_getLsbD_eq fun i hi => ?_
  have hbit : x.getLsbD (off + i - k) = false :=
    Nat.testBit_lt_two_pow
      (Nat.lt_of_lt_of_le hx (Nat.pow_le_pow_right Nat.two_pos (by omega)))
  rw [BitVec.getLsbD_extractLsb', BitVec.getLsbD_shiftLeft, hbit]
  simp

theorem shiftRight_and_mask (hw : len ≤ w) :
    ((x >>> off) &&& BitVec.ofNat w (2 ^ len - 1)).toNat = (x.extractLsb' off len).toNat := by
  have hmask : 2 ^ len - 1 < 2 ^ w :=
    Nat.lt_of_lt_of_le (Nat.sub_lt (Nat.two_pow_pos len) Nat.one_pos)
      (Nat.pow_le_pow_right Nat.two_pos hw)
  rw [BitVec.toNat_and, BitVec.toNat_ofNat, Nat.mod_eq_of_lt hmask, BitVec.toNat_ushiftRight,
    BitVec.extractLsb'_toNat, Nat.and_two_pow_sub_one_eq_mod]

/-- The field reaches to the top of the word. -/
theorem shiftRight_eq_mask (hw : off + len = w) :
    x >>> off = (x >>> off) &&& BitVec.ofNat w (2 ^ len - 1) := by
  refine BitVec.eq_of_toNat_eq ?_
  have hx : x.toNat < 2 ^ len * 2 ^ off := by
    rw [← Nat.pow_add, Nat.add_comm len off, hw]
    exact x.isLt
  rw [shiftRight_and_mask (by omega), BitVec.extractLsb'_toNat, BitVec.toNat_ushiftRight,
    Nat.shiftRight_eq_div_pow, Nat.mod_eq_of_lt (Nat.div_lt_of_lt_mul (Nat.mul_comm _ _ ▸ hx))]

/-! ## Packed words -/

/-- A value at an offset, with a number of bits for it. -/
structure Field (w : Nat) where
  off : Nat
  len : Nat
  value : BitVec w

def pack : List (Field w) → BitVec w
  | [] => 0
  | f :: fields => f.value <<< f.off ||| pack fields

/-- The value has the bits it needs. -/
structure Field.Fits (f : Field w) : Prop where
  value : f.value.toNat < 2 ^ f.len
  word : f.off + f.len ≤ w

/-- Fields one above the other, whose values fit. -/
structure Layout (fields : List (Field w)) : Prop where
  fits : ∀ f ∈ fields, f.Fits
  sorted : fields.Pairwise fun f g => f.off + f.len ≤ g.off

theorem Layout.tail {f : Field w} {fields : List (Field w)} (h : Layout (f :: fields)) :
    Layout fields :=
  ⟨fun g hg => h.fits g (List.mem_cons_of_mem _ hg), (List.pairwise_cons.1 h.sorted).2⟩

theorem pack_append (fields above : List (Field w)) :
    pack (fields ++ above) = pack fields ||| pack above := by
  induction fields with
  | nil => exact BitVec.zero_or.symm
  | cons f fields ih =>
    rw [List.cons_append, pack, ih, pack]
    exact (BitVec.or_assoc ..).symm

/-- Bits below all fields are zero. -/
theorem extract_pack_below {fields : List (Field w)} (h : ∀ f ∈ fields, off + len ≤ f.off) :
    (pack fields).extractLsb' off len = 0 := by
  induction fields with
  | nil => exact BitVec.extractLsb'_zero
  | cons f fields ih =>
    rw [pack, BitVec.extractLsb'_or, extract_shiftLeft_below (h f List.mem_cons_self),
      ih fun g hg => h g (List.mem_cons_of_mem _ hg)]
    exact BitVec.or_self

theorem extract_pack {fields : List (Field w)} (h : Layout fields) {f : Field w}
    (hf : f ∈ fields) : (pack fields).extractLsb' f.off f.len = f.value.setWidth f.len := by
  induction fields with
  | nil => cases hf
  | cons g fields ih =>
    obtain ⟨hbelow, -⟩ := List.pairwise_cons.1 h.sorted
    rw [pack, BitVec.extractLsb'_or]
    rcases List.mem_cons.1 hf with rfl | hf
    · rw [extract_shiftLeft_self (h.fits f List.mem_cons_self).word, extract_pack_below hbelow]
      exact BitVec.or_zero
    · rw [extract_shiftLeft_above (h.fits g List.mem_cons_self).value (hbelow f hf), ih h.tail hf]
      exact BitVec.zero_or

/-- **Round trip** of a packed word. The fields above need not fit. -/
theorem read_pack {fields above : List (Field w)} (h : Layout fields) {f : Field w}
    (hf : f ∈ fields) (habove : ∀ g ∈ above, f.off + f.len ≤ g.off) :
    (pack (fields ++ above) >>> f.off) &&& BitVec.ofNat w (2 ^ f.len - 1) = f.value := by
  have hfits := h.fits f hf
  have hextract : (pack (fields ++ above)).extractLsb' f.off f.len = f.value.setWidth f.len := by
    rw [pack_append, BitVec.extractLsb'_or, extract_pack h hf, extract_pack_below habove]
    exact BitVec.or_zero
  refine BitVec.eq_of_toNat_eq ?_
  rw [shiftRight_and_mask (Nat.le_trans (Nat.le_add_left ..) hfits.word), hextract,
    BitVec.toNat_setWidth, Nat.mod_eq_of_lt hfits.value]

end BitFields
