import Titanium.Lib.BitField
import Titanium.Lib.Checked

/-!
The accessors that the macros of `util.rs` generate for the fields of a word.

Each macro computes its masks anew from the ends of the field.  A shift by the whole
width of the word panics, so fields are narrower than the word (`IsField`).  The
getters and setters are compared with those of the crate `bitfield`, whose laws are
known (`Lib.BitField`).

* `cenum_bitRange_eq`, `cenum_setBitRange_eq`: `bitfield_cenum_bitrange!` is the
  crate's field, through the discriminants of the enum.
* `volatile_setBitRange_eq`: `bitfield_volatile_bitrange!` does not move the value to
  its place, so the bits below the field are lost.
* `bitflags_setBitRange_eq`: `bitfield_bitflags_bitrange!` writes to the lowest bit of
  the field and to the bit behind the field, and to nothing else.
* `volatile_field_laws_iff`, `bitflags_laws_iff`: when the laws of a field hold.
-/

namespace Titanium

namespace Util

variable {w : ℕ}

/-! ### Masks -/

/-- `(1 << width) - 1`, where `width = msb - lsb + 1`. -/
def lowMask (w msb lsb : ℕ) : Option (BitVec w) := do
  let width := (← checkedSub msb lsb) + 1
  return (← checkedShl 1#w width) - 1#w

/-- `((1 << width) - 1) << lsb`. -/
def fieldMask (w msb lsb : ℕ) : Option (BitVec w) := do
  checkedShl (← lowMask w msb lsb) lsb

/-- A range of bits inside the word that is narrower than the word. -/
structure IsField (w msb lsb : ℕ) : Prop where
  le : lsb ≤ msb
  msb_lt : msb < w
  width_lt : msb - lsb + 1 < w

namespace IsField

variable {msb lsb : ℕ} (h : IsField w msb lsb)

include h

lemma lowMask_eq : lowMask w msb lsb = some (1#w <<< (msb - lsb + 1) - 1#w) := by
  simp [lowMask, checkedSub, checkedShl, h.le, h.width_lt]

lemma getLsbD_lowMask (i : ℕ) :
    (1#w <<< (msb - lsb + 1) - 1#w).getLsbD i = decide (lsb + i ≤ msb) := by
  have hw := h.width_lt
  have hpow : 2 ^ (msb - lsb + 1) < 2 ^ w := Nat.pow_lt_pow_right (by norm_num) hw
  have hone : 1 % 2 ^ w = 1 := Nat.mod_eq_of_lt (Nat.one_lt_two_pow (by omega))
  have hval : (1#w <<< (msb - lsb + 1) - 1#w).toNat = 2 ^ (msb - lsb + 1) - 1 := by
    have hpos := Nat.two_pow_pos (msb - lsb + 1)
    have hshl : (1#w <<< (msb - lsb + 1)).toNat = 2 ^ (msb - lsb + 1) := by
      rw [BitVec.toNat_shiftLeft, BitVec.toNat_ofNat, hone, Nat.one_shiftLeft,
        Nat.mod_eq_of_lt hpow]
    have hle : 1#w ≤ 1#w <<< (msb - lsb + 1) := by
      rw [BitVec.le_def, hshl, BitVec.toNat_ofNat, hone]
      exact hpos
    rw [BitVec.toNat_sub_of_le hle, hshl, BitVec.toNat_ofNat, hone]
  rw [BitVec.getLsbD, hval, Nat.testBit_two_pow_sub_one]
  have := h.le
  exact decide_eq_decide.mpr (by omega)

lemma fieldMask_eq : fieldMask w msb lsb = some (BitField.mask w msb lsb) := by
  have hlsb : lsb < w := h.le.trans_lt h.msb_lt
  rw [fieldMask, h.lowMask_eq]
  refine (if_pos hlsb).trans (congrArg some (BitVec.eq_of_getLsbD_eq fun i hi => ?_))
  rw [BitVec.getLsbD_shiftLeft, h.getLsbD_lowMask, BitField.getLsbD_mask h.msb_lt]
  by_cases hlo : i < lsb
  · simp [hlo, Nat.not_le.mpr hlo]
  · simp [hi, hlo, Nat.not_lt.mp hlo]

lemma checkedShr_eq (x : BitVec w) : checkedShr x lsb = some (x >>> lsb) :=
  if_pos (h.le.trans_lt h.msb_lt)

lemma checkedShl_eq (x : BitVec w) : checkedShl x lsb = some (x <<< lsb) :=
  if_pos (h.le.trans_lt h.msb_lt)

/-- `(x >> lsb) & mask` is what the crate reads. -/
lemma shiftRight_and_eq (x : BitVec w) :
    x >>> lsb &&& (1#w <<< (msb - lsb + 1) - 1#w) = BitField.bitRange x msb lsb := by
  refine BitVec.eq_of_getLsbD_eq fun i _ => ?_
  rw [BitVec.getLsbD_and, BitVec.getLsbD_ushiftRight, h.getLsbD_lowMask,
    BitField.getLsbD_bitRange h.msb_lt, Bool.and_comm]

end IsField

/-! ### `bitfield_volatile_bitrange!` -/

/-- `Cast::cast`. -/
def cast {n : ℕ} (v : BitVec n) (w : ℕ) : BitVec w := v.setWidth w

/-- `bit_range`. -/
def volatileBitRange (x : BitVec w) (n msb lsb : ℕ) : Option (BitVec n) := do
  let mask ← lowMask w msb lsb
  return cast ((← checkedShr x lsb) &&& mask) n

/-- `set_bit_range`. -/
def volatileSetBitRange {n : ℕ} (x : BitVec w) (msb lsb : ℕ) (value : BitVec n) :
    Option (BitVec w) := do
  let mask ← fieldMask w msb lsb
  return x &&& ~~~mask ||| cast value w &&& mask

/-- The accessors of a field of `n`-bit integers. -/
def volatile (w n msb lsb : ℕ) : BitField.Accessors w (BitVec n) :=
  ⟨fun x => volatileBitRange x n msb lsb, fun x v => volatileSetBitRange x msb lsb v⟩

section Volatile

variable {n msb lsb : ℕ} (h : IsField w msb lsb)

include h

lemma volatile_bitRange_eq (x : BitVec w) :
    volatileBitRange x n msb lsb = some (cast (BitField.bitRange x msb lsb) n) := by
  rw [volatileBitRange, h.lowMask_eq, h.checkedShr_eq, ← h.shiftRight_and_eq]
  rfl

/-- A write puts the value at bit 0, not at the start of the field. -/
lemma volatile_setBitRange_eq (x : BitVec w) (v : BitVec n) :
    volatileSetBitRange x msb lsb v =
      some (BitField.setBitRange x msb lsb (cast v w >>> lsb)) := by
  rw [volatileSetBitRange, h.fieldMask_eq]
  refine congrArg some (BitVec.eq_of_getLsbD_eq fun i hi => ?_)
  rw [BitField.getLsbD_setBitRange h.msb_lt]
  simp only [BitVec.getLsbD_or, BitVec.getLsbD_and, BitVec.getLsbD_not,
    BitField.getLsbD_mask h.msb_lt, BitVec.getLsbD_ushiftRight]
  split_ifs with hin
  · simp [hin, show lsb + (i - lsb) = i by omega]
  · simp [hin, hi]

/-- **A value is read back without the bits below the start of the field.** -/
lemma volatile_get_set (x : BitVec w) {v : BitVec n} (hv : v.toNat < 2 ^ (msb - lsb + 1)) :
    ((volatile w n msb lsb).set x v).bind (volatile w n msb lsb).get = some v ↔
      lsb = 0 ∨ v = 0 := by
  have hpow : 2 ^ (msb - lsb + 1) < 2 ^ w := Nat.pow_lt_pow_right (by norm_num) h.width_lt
  have hcast : (cast v w >>> lsb).toNat = v.toNat / 2 ^ lsb := by
    rw [BitVec.toNat_ushiftRight, cast, BitVec.toNat_setWidth, Nat.mod_eq_of_lt (hv.trans hpow),
      Nat.shiftRight_eq_div_pow]
  have hfits : (cast v w >>> lsb).toNat < 2 ^ (msb - lsb + 1) :=
    hcast ▸ (Nat.div_le_self _ _).trans_lt hv
  have hread : ((volatile w n msb lsb).set x v).bind (volatile w n msb lsb).get =
      some (cast (cast v w >>> lsb) n) := by
    show (volatileSetBitRange x msb lsb v).bind _ = _
    rw [volatile_setBitRange_eq h]
    refine (volatile_bitRange_eq h _).trans ?_
    rw [BitField.bitRange_setBitRange h.msb_lt h.le x hfits]
  have hback : (cast (cast v w >>> lsb) n).toNat = v.toNat / 2 ^ lsb := by
    rw [cast, BitVec.toNat_setWidth, hcast,
      Nat.mod_eq_of_lt ((Nat.div_le_self _ _).trans_lt v.isLt)]
  have hzero : v = 0 ↔ v.toNat = 0 := BitVec.toNat_inj.symm
  rw [hread, Option.some.injEq, ← BitVec.toNat_inj, hback, hzero, Nat.div_eq_self,
    Nat.pow_eq_one, or_comm]
  simp

end Volatile

/-- **Fields of `bitfield_volatile_bitrange!` obey the laws exactly when they start at bit 0**, or
for the value 0. -/
theorem volatile_field_laws_iff {n msb lsb : ℕ} (h : IsField w msb lsb) (x : BitVec w)
    (v : BitVec n) (hv : v.toNat < 2 ^ (msb - lsb + 1)) :
    (volatile w n msb lsb).Laws msb lsb (fun v => v.toNat < 2 ^ (msb - lsb + 1)) x v ↔
      lsb = 0 ∨ v = 0 := by
  have hset : ∀ x v, (volatile w n msb lsb).set x v =
      some (BitField.setBitRange x msb lsb (cast v w >>> lsb)) := volatile_setBitRange_eq h
  refine ⟨fun hlaws => (volatile_get_set h x hv).mp hlaws.get_set,
    fun hzero => ⟨(volatile_get_set h x hv).mpr hzero, fun x' hx' i hi => ?_, fun v' _ => ?_⟩⟩
  · cases (hset x v).symm.trans hx'
    rw [BitField.getLsbD_setBitRange h.msb_lt, if_neg hi]
  · rw [hset, Option.bind_some, hset, hset, BitField.setBitRange_setBitRange h.msb_lt]

/-- The low byte of a 32-bit register. -/
theorem volatile_low_byte_laws :
    (volatile 32 8 7 0).Laws 7 0 (fun v => v.toNat < 2 ^ (7 - 0 + 1)) 0x12345678 0xab :=
  (volatile_field_laws_iff ⟨by norm_num, by norm_num, by norm_num⟩ 0x12345678 0xab
    (by decide)).mpr (Or.inl rfl)

/-- In the second byte `0xab` is lost: the field reads as 0. -/
theorem volatile_second_byte_lost :
    (volatile 32 8 15 8).set 0 0xab = some 0 ∧ (volatile 32 8 15 8).get 0 = some 0 :=
  ⟨by decide, by decide⟩

/-! ### `bitfield_cenum_bitrange!` -/

/-- An enum without fields, with its discriminants.  `ofRepr` is `transmute`, which is undefined
for what is no discriminant. -/
structure CEnum (E : Type) (r : ℕ) where
  toRepr : E → BitVec r
  ofRepr : BitVec r → Option E
  ofRepr_eq_some : ∀ x e, ofRepr x = some e ↔ toRepr e = x

/-- An enum from the list of its values. -/
def CEnum.ofList {E : Type} {r : ℕ} (toRepr : E → BitVec r) (values : List E)
    (hvalues : ∀ e, e ∈ values) (hinj : Function.Injective toRepr) : CEnum E r where
  toRepr := toRepr
  ofRepr x := values.find? fun e => toRepr e == x
  ofRepr_eq_some x e := by
    constructor
    · intro h
      have heq := List.find?_some h
      exact beq_iff_eq.mp heq
    · rintro rfl
      have hsome : (values.find? fun e' => toRepr e' == toRepr e).isSome :=
        List.find?_isSome.mpr ⟨e, hvalues e, beq_self_eq_true _⟩
      obtain ⟨e', he'⟩ := Option.isSome_iff_exists.mp hsome
      have heq := List.find?_some he'
      rw [he', hinj (beq_iff_eq.mp heq)]

section CEnum

variable {E : Type} {r : ℕ}

/-- `bit_range` of `enum $name($t)`. -/
def cenumBitRange (e : CEnum E w) (x : BitVec w) (msb lsb : ℕ) : Option E := do
  let mask ← lowMask w msb lsb
  e.ofRepr ((← checkedShr x lsb) &&& mask)

/-- `set_bit_range` of `enum $name($t)`. -/
def cenumSetBitRange (e : CEnum E w) (x : BitVec w) (msb lsb : ℕ) (value : E) :
    Option (BitVec w) := do
  let mask ← fieldMask w msb lsb
  let val ← checkedShl (e.toRepr value) lsb
  return x &&& ~~~mask ||| val &&& mask

/-- `bit_range` of `enum $name($t => $trep)`. -/
def cenumReprBitRange (e : CEnum E r) (x : BitVec w) (msb lsb : ℕ) : Option E := do
  let mask ← lowMask w msb lsb
  e.ofRepr (((← checkedShr x lsb) &&& mask).setWidth r)

/-- `set_bit_range` of `enum $name($t => $trep)`. -/
def cenumReprSetBitRange (e : CEnum E r) (x : BitVec w) (msb lsb : ℕ) (value : E) :
    Option (BitVec w) := do
  let mask ← fieldMask w msb lsb
  let val ← checkedShl ((e.toRepr value).setWidth w) lsb
  return x &&& ~~~mask ||| val &&& mask

/-- The accessors of `enum $name($t)`. -/
def cenum (e : CEnum E w) (msb lsb : ℕ) : BitField.Accessors w E :=
  ⟨fun x => cenumBitRange e x msb lsb, fun x v => cenumSetBitRange e x msb lsb v⟩

/-- The accessors of `enum $name($t => $trep)`. -/
def cenumRepr (w : ℕ) (e : CEnum E r) (msb lsb : ℕ) : BitField.Accessors w E :=
  ⟨fun x => cenumReprBitRange e x msb lsb, fun x v => cenumReprSetBitRange e x msb lsb v⟩

/-- The first form is the second one without a change of width. -/
lemma cenum_eq_cenumRepr (e : CEnum E w) (msb lsb : ℕ) :
    cenum e msb lsb = cenumRepr w e msb lsb := by
  simp only [cenum, cenumRepr, cenumBitRange, cenumReprBitRange, cenumSetBitRange,
    cenumReprSetBitRange, BitVec.setWidth_eq]

variable {msb lsb : ℕ} (h : IsField w msb lsb) (e : CEnum E r)

include h

lemma cenum_bitRange_eq (x : BitVec w) : (cenumRepr w e msb lsb).get x =
    e.ofRepr ((BitField.bitRange x msb lsb).setWidth r) := by
  show cenumReprBitRange e x msb lsb = _
  rw [cenumReprBitRange, h.lowMask_eq, h.checkedShr_eq, ← h.shiftRight_and_eq]
  rfl

lemma cenum_setBitRange_eq (x : BitVec w) (v : E) : (cenumRepr w e msb lsb).set x v =
    some (BitField.setBitRange x msb lsb ((e.toRepr v).setWidth w)) := by
  show cenumReprSetBitRange e x msb lsb v = _
  rw [cenumReprSetBitRange, h.fieldMask_eq, h.checkedShl_eq]
  rfl

/-- **The laws of an enum field**, for values whose discriminant fits. -/
lemma cenum_laws (x : BitVec w) {v : E} (hv : (e.toRepr v).toNat < 2 ^ (msb - lsb + 1)) :
    (cenumRepr w e msb lsb).Laws msb lsb
      (fun v => (e.toRepr v).toNat < 2 ^ (msb - lsb + 1)) x v := by
  have hpow : 2 ^ (msb - lsb + 1) < 2 ^ w := Nat.pow_lt_pow_right (by norm_num) h.width_lt
  have hcast : ((e.toRepr v).setWidth w).toNat = (e.toRepr v).toNat := by
    rw [BitVec.toNat_setWidth, Nat.mod_eq_of_lt (hv.trans hpow)]
  refine ⟨?_, fun x' hx' i hi => ?_, fun v' _ => ?_⟩
  · rw [cenum_setBitRange_eq h, Option.bind_some, cenum_bitRange_eq h,
      BitField.bitRange_setBitRange h.msb_lt h.le x (hcast ▸ hv), e.ofRepr_eq_some]
    -- the discriminant survives both casts
    refine BitVec.eq_of_toNat_eq ?_
    rw [BitVec.toNat_setWidth, hcast, Nat.mod_eq_of_lt (e.toRepr v).isLt]
  · cases (cenum_setBitRange_eq h e x v).symm.trans hx'
    rw [BitField.getLsbD_setBitRange h.msb_lt, if_neg hi]
  · rw [cenum_setBitRange_eq h, Option.bind_some, cenum_setBitRange_eq h, cenum_setBitRange_eq h,
      BitField.setBitRange_setBitRange h.msb_lt]

/-- A write returns a word that has the value, and differs from the old one in the field only. -/
lemma cenum_set_spec (x : BitVec w) {v : E} (hv : (e.toRepr v).toNat < 2 ^ (msb - lsb + 1)) :
    ∃ x', cenumReprSetBitRange e x msb lsb v = some x' ∧
      cenumReprBitRange e x' msb lsb = some v ∧
      ∀ i, ¬ (lsb ≤ i ∧ i ≤ msb) → x'.getLsbD i = x.getLsbD i := by
  have hlaws := cenum_laws h e x hv
  obtain ⟨x', hset, hget⟩ := Option.bind_eq_some_iff.mp hlaws.get_set
  exact ⟨x', hset, hget, hlaws.frame x' hset⟩

/-- **Writing back what was read**: the word stays as it is exactly if the field fits into the
representation of the enum. -/
lemma cenum_write_back_iff {x : BitVec w} {v : E} (hget : (cenumRepr w e msb lsb).get x = some v) :
    (cenumRepr w e msb lsb).set x v = some x ↔ (BitField.bitRange x msb lsb).toNat < 2 ^ r := by
  have hlt := (BitField.bitRange x msb lsb).isLt
  rw [cenum_bitRange_eq h, e.ofRepr_eq_some] at hget
  rw [cenum_setBitRange_eq h, hget, Option.some.injEq]
  constructor
  · intro heq
    have hread := congrArg (fun y => (BitField.bitRange y msb lsb).toNat) heq
    have hsmall : ((((BitField.bitRange x msb lsb).setWidth r).setWidth w)).toNat <
        2 ^ (msb - lsb + 1) := by
      have hread_lt : (BitField.bitRange x msb lsb).toNat < 2 ^ (msb - lsb + 1) :=
        BitField.bitRange_lt h.msb_lt x
      refine lt_of_le_of_lt ?_ hread_lt
      rw [BitVec.toNat_setWidth, BitVec.toNat_setWidth]
      exact (Nat.mod_le _ _).trans (Nat.mod_le _ _)
    rw [BitField.bitRange_setBitRange h.msb_lt h.le x hsmall, BitVec.toNat_setWidth,
      BitVec.toNat_setWidth] at hread
    rw [← hread]
    exact (Nat.mod_le _ _).trans_lt (Nat.mod_lt _ (Nat.two_pow_pos r))
  · intro hfits
    have hsame : ((BitField.bitRange x msb lsb).setWidth r).setWidth w =
        BitField.bitRange x msb lsb := by
      refine BitVec.eq_of_toNat_eq ?_
      rw [BitVec.toNat_setWidth, BitVec.toNat_setWidth, Nat.mod_eq_of_lt hfits,
        Nat.mod_eq_of_lt hlt]
    rw [hsame, BitField.setBitRange_bitRange h.msb_lt]

end CEnum

/-! ### `bitfield_bitflags_bitrange!` -/

/-- `bit_range`: the flags stay where they are, and `from_bits_truncate` keeps the known ones. -/
def bitflagsBitRange (known x : BitVec w) (msb lsb : ℕ) : Option (BitVec w) := do
  let mask ← fieldMask w msb lsb
  return x &&& mask &&& known

/-- `set_bit_range`, with `known_bits`.  The mask is `((1 << width) + 1) << lsb`. -/
def bitflagsSetBitRange (known x : BitVec w) (msb lsb : ℕ) (value : BitVec w) :
    Option (BitVec w) := do
  let width := (← checkedSub msb lsb) + 1
  let mask ← checkedShl ((← checkedShl 1#w width) + 1#w) lsb
  let added := value &&& known &&& mask
  return x &&& ~~~mask ||| added

/-- The accessors of a field of flags. -/
def bitflags (known : BitVec w) (msb lsb : ℕ) : BitField.Accessors w (BitVec w) :=
  ⟨fun x => bitflagsBitRange known x msb lsb, fun x v => bitflagsSetBitRange known x msb lsb v⟩

/-- The known flags of a value lie inside the field. -/
def FlagsInside (known : BitVec w) (msb lsb : ℕ) (v : BitVec w) : Prop :=
  ∀ i, (v &&& known).getLsbD i = true → lsb ≤ i ∧ i ≤ msb

lemma FlagsInside.getLsbD {known v : BitVec w} {msb lsb : ℕ}
    (hv : FlagsInside known msb lsb v) {i : ℕ} (hi : ¬ (lsb ≤ i ∧ i ≤ msb)) :
    (v &&& known).getLsbD i = false :=
  Bool.eq_false_iff.mpr fun hset => hi (hv i hset)

section Bitflags

variable {msb lsb : ℕ} (h : IsField w msb lsb) (known x : BitVec w)

include h

lemma bitflags_get_eq :
    (bitflags known msb lsb).get x = some (x &&& BitField.mask w msb lsb &&& known) := by
  show bitflagsBitRange known x msb lsb = _
  rw [bitflagsBitRange, h.fieldMask_eq]
  rfl

/-- The mask of the setter: the lowest bit of the field, and the one behind the field. -/
lemma getLsbD_setMask {i : ℕ} (hi : i < w) :
    ((1#w <<< (msb - lsb + 1) + 1#w) <<< lsb).getLsbD i = decide (i = lsb ∨ i = msb + 1) := by
  have hle := h.le
  have hw := h.width_lt
  have hbits : ∀ j < w, (1#w <<< (msb - lsb + 1) + 1#w).getLsbD j =
      decide (j = 0 ∨ j = msb - lsb + 1) := by
    intro j hj
    have hdisj : 1#w <<< (msb - lsb + 1) &&& 1#w = 0#w := by
      refine BitVec.eq_of_getLsbD_eq fun k hk => ?_
      rw [BitVec.getLsbD_and, BitVec.getLsbD_shiftLeft, BitVec.getLsbD_one, BitVec.getLsbD_zero]
      by_cases hk0 : k = 0 <;> simp [hk0]
    rw [BitVec.add_eq_or_of_and_eq_zero _ _ hdisj, BitVec.getLsbD_or, BitVec.getLsbD_shiftLeft,
      BitVec.getLsbD_one, BitVec.getLsbD_one]
    by_cases hj0 : j = 0
    · simp [hj0, show 0 < w by omega]
    · by_cases hj1 : j = msb - lsb + 1
      · simp [hj1, hw, show 0 < w by omega]
      · have : ¬ j - (msb - lsb + 1) = 0 ∨ j < msb - lsb + 1 := by omega
        rcases this with hne | hlt
        · simp [hj0, hj1, hne]
        · simp [hj0, hj1, hlt]
  rw [BitVec.getLsbD_shiftLeft]
  by_cases hlo : i < lsb
  · simp [hlo, show ¬ (i = lsb ∨ i = msb + 1) by omega]
  · rw [hbits _ (by omega)]
    simp [hi, hlo, show (i - lsb = 0 ∨ i - lsb = msb - lsb + 1) ↔ (i = lsb ∨ i = msb + 1) by omega]

/-- **What a write does**: it takes two bits from the value. -/
lemma bitflags_setBitRange_eq (v : BitVec w) : ∃ x', (bitflags known msb lsb).set x v = some x' ∧
    ∀ i, x'.getLsbD i =
      if i = lsb ∨ i = msb + 1 then (v &&& known).getLsbD i else x.getLsbD i := by
  have hset : (bitflags known msb lsb).set x v =
      some (x &&& ~~~((1#w <<< (msb - lsb + 1) + 1#w) <<< lsb) |||
        v &&& known &&& (1#w <<< (msb - lsb + 1) + 1#w) <<< lsb) := by
    show bitflagsSetBitRange known x msb lsb v = _
    simp [bitflagsSetBitRange, checkedSub, checkedShl, h.le, h.width_lt,
      h.le.trans_lt h.msb_lt]
  refine ⟨_, hset, fun i => ?_⟩
  by_cases hi : i < w
  · rw [BitVec.getLsbD_or, BitVec.getLsbD_and, BitVec.getLsbD_and, BitVec.getLsbD_not,
      getLsbD_setMask h hi]
    split_ifs with hmask
    · simp [hmask]
    · simp [hmask, hi]
  · have hge : w ≤ i := by omega
    rw [BitVec.getLsbD_of_ge _ _ hge, BitVec.getLsbD_of_ge _ _ hge, BitVec.getLsbD_of_ge _ _ hge,
      ite_self]

/-- **When a write obeys the laws of the field**: the other flags of the field are what they should
become already, and the bit behind the field is clear. -/
lemma bitflags_laws_iff {v : BitVec w} (hv : FlagsInside known msb lsb v) :
    (bitflags known msb lsb).Laws msb lsb (FlagsInside known msb lsb) x v ↔
      v &&& known = v ∧
      (∀ i, lsb < i → i ≤ msb → known.getLsbD i = true → x.getLsbD i = v.getLsbD i) ∧
      x.getLsbD (msb + 1) = false := by
  obtain ⟨x', hset, hbits⟩ := bitflags_setBitRange_eq h known x v
  have hbehind : x'.getLsbD (msb + 1) = false := by
    rw [hbits, if_pos (Or.inr rfl), hv.getLsbD (by omega)]
  have hread : ((bitflags known msb lsb).set x v).bind (bitflags known msb lsb).get =
      some (x' &&& BitField.mask w msb lsb &&& known) := by
    rw [hset, Option.bind_some, bitflags_get_eq h]
  constructor
  · rintro ⟨hget, hframe, -⟩
    rw [hread, Option.some.injEq] at hget
    refine ⟨?_, fun i hlo hhi hknown => ?_, ?_⟩
    · rw [← hget, BitVec.and_assoc, BitVec.and_self]
    · rw [← hget, BitVec.getLsbD_and, BitVec.getLsbD_and, BitField.getLsbD_mask h.msb_lt, hknown,
        hbits, if_neg (by omega)]
      simp [hlo.le, hhi]
    · rw [← hframe x' hset _ (by omega), hbehind]
  · rintro ⟨hall, hsame, hclear⟩
    refine ⟨?_, fun y hy i hi => ?_, fun v' _ => ?_⟩
    · rw [hread, Option.some.injEq]
      refine BitVec.eq_of_getLsbD_eq fun i _ => ?_
      rw [BitVec.getLsbD_and, BitVec.getLsbD_and, BitField.getLsbD_mask h.msb_lt]
      by_cases hin : lsb ≤ i ∧ i ≤ msb
      · cases hknown : known.getLsbD i with
        | false => rw [← hall, BitVec.getLsbD_and, hknown, Bool.and_false, Bool.and_false]
        | true =>
            rw [decide_eq_true hin, Bool.and_true, Bool.and_true, hbits]
            split_ifs with hlow
            · rw [hall]
            · exact hsame i (by omega) hin.2 hknown
      · rw [decide_eq_false hin, Bool.and_false, Bool.false_and, ← hall, hv.getLsbD hin]
    · cases hset.symm.trans hy
      by_cases hi' : i = msb + 1
      · rw [hi', hbehind, hclear]
      · have hle := h.le
        rw [hbits, if_neg (by omega)]
    · obtain ⟨y, hy, hybits⟩ := bitflags_setBitRange_eq h known x v'
      obtain ⟨z, hz, hzbits⟩ := bitflags_setBitRange_eq h known x' v'
      rw [hset, Option.bind_some, hy, hz]
      refine congrArg some (BitVec.eq_of_getLsbD_eq fun i _ => ?_)
      rw [hybits, hzbits, hbits]
      split_ifs <;> rfl

end Bitflags

end Util

end Titanium
