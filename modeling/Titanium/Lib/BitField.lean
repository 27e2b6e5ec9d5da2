import Mathlib.Tactic

/-!
Ranges of bits in a machine word, as the crate `bitfield` reads and writes them.

A field is given by its highest and its lowest bit.

* `getLsbD_bitRange`, `getLsbD_setBitRange`: which bit of a read and of a write
  comes from where; everything else follows from these two.
* `bit_eq`, `getLsbD_setBit`: fields of one bit.
* `toNat_bitRange`: the number that a field holds.
* `append_setWidth`: a word is put together from its parts.
* `Accessors.Laws`: what a pair of accessors should do, whatever the type of the
  values; `bitRange_setBitRange`, `setBitRange_setBitRange`,
  `setBitRange_bitRange`: the accessors of the crate do.
-/

namespace Titanium

namespace BitField

variable {w : ℕ}

/-- The mask of a field: `!0 << (len - msb - 1) >> (len - msb - 1 + lsb) << lsb`. -/
def mask (w msb lsb : ℕ) : BitVec w :=
  BitVec.allOnes w <<< (w - msb - 1) >>> (w - msb - 1 + lsb) <<< lsb

/-- `bit_range`. -/
def bitRange (x : BitVec w) (msb lsb : ℕ) : BitVec w :=
  x <<< (w - msb - 1) >>> (w - msb - 1 + lsb)

/-- `set_bit_range`. -/
def setBitRange (x : BitVec w) (msb lsb : ℕ) (v : BitVec w) : BitVec w :=
  x &&& ~~~mask w msb lsb ||| v <<< lsb &&& mask w msb lsb

/-- `bit`. -/
def bit (x : BitVec w) (i : ℕ) : Bool := bitRange x i i != 0

/-- `set_bit`. -/
def setBit (x : BitVec w) (i : ℕ) (b : Bool) : BitVec w :=
  setBitRange x i i (if b then 1 else 0)

lemma getLsbD_mask {msb lsb : ℕ} (hmsb : msb < w) (i : ℕ) :
    (mask w msb lsb).getLsbD i = decide (lsb ≤ i ∧ i ≤ msb) := by
  simp only [mask, BitVec.getLsbD_shiftLeft, BitVec.getLsbD_ushiftRight, BitVec.getLsbD_allOnes]
  by_cases hlo : i < lsb
  · simp [hlo]
  · by_cases hhi : i ≤ msb
    · simp only [decide_eq_true (show i < w by omega), Bool.true_and, hlo, decide_false,
        Bool.not_false,
        decide_eq_true (show w - msb - 1 + lsb + (i - lsb) < w by omega),
        decide_eq_false (show ¬ w - msb - 1 + lsb + (i - lsb) < w - msb - 1 by omega),
        decide_eq_true (show w - msb - 1 + lsb + (i - lsb) - (w - msb - 1) < w by omega),
        decide_eq_true (show lsb ≤ i ∧ i ≤ msb by omega)]
    · rw [decide_eq_false (show ¬ w - msb - 1 + lsb + (i - lsb) < w by omega),
        decide_eq_false (show ¬ (lsb ≤ i ∧ i ≤ msb) by omega)]
      simp

lemma getLsbD_bitRange {msb : ℕ} (hmsb : msb < w) (x : BitVec w) (lsb i : ℕ) :
    (bitRange x msb lsb).getLsbD i = (decide (lsb + i ≤ msb) && x.getLsbD (lsb + i)) := by
  simp only [bitRange, BitVec.getLsbD_shiftLeft, BitVec.getLsbD_ushiftRight]
  have hsub : w - msb - 1 + lsb + i - (w - msb - 1) = lsb + i := by omega
  rw [hsub, decide_eq_false (show ¬ w - msb - 1 + lsb + i < w - msb - 1 by omega)]
  by_cases h : lsb + i ≤ msb
  · simp [h, show w - msb - 1 + lsb + i < w by omega]
  · simp [h, show ¬ w - msb - 1 + lsb + i < w by omega]

/-- **A write changes the bits of its field.** -/
lemma getLsbD_setBitRange {msb : ℕ} (hmsb : msb < w) (x : BitVec w) (lsb : ℕ) (v : BitVec w)
    (i : ℕ) : (setBitRange x msb lsb v).getLsbD i =
      if lsb ≤ i ∧ i ≤ msb then v.getLsbD (i - lsb) else x.getLsbD i := by
  simp only [setBitRange, BitVec.getLsbD_or, BitVec.getLsbD_and, BitVec.getLsbD_not,
    BitVec.getLsbD_shiftLeft, getLsbD_mask hmsb]
  split_ifs with h
  · simp [h, show i < w by omega, show ¬ i < lsb by omega]
  · by_cases hi : i < w
    · simp [h, hi]
    · simp [h, BitVec.getLsbD_of_ge x i (by omega)]

@[simp] lemma bit_eq {i : ℕ} (hi : i < w) (x : BitVec w) : bit x i = x.getLsbD i := by
  have hzero : bitRange x i i = 0#w ↔ x.getLsbD i = false := by
    constructor
    · intro h
      have hbit := getLsbD_bitRange hi x i 0
      simpa [h] using hbit.symm
    · intro h
      refine BitVec.eq_of_getLsbD_eq fun j _ => ?_
      rw [getLsbD_bitRange hi]
      cases j with
      | zero => simp [h]
      | succ j => simp
  rw [bit, bne_eq]
  cases hx : x.getLsbD i with
  | false => simp [hzero.mpr hx]
  | true =>
      have hne : bitRange x i i ≠ 0#w := fun h => by simp [hzero.mp h] at hx
      simpa using hne

lemma getLsbD_setBit {i : ℕ} (hi : i < w) (x : BitVec w) (b : Bool) (j : ℕ) :
    (setBit x i b).getLsbD j = if j = i then b else x.getLsbD j := by
  rw [setBit, getLsbD_setBitRange hi]
  by_cases hj : j = i
  · subst hj
    cases b <;> simp [show 0 < w by omega]
  · rw [if_neg (by omega), if_neg hj]

/-- A word from its upper and its lower part. -/
lemma append_setWidth (x : BitVec w) (m n : ℕ) :
    (x >>> n).setWidth m ++ x.setWidth n = x.setWidth (m + n) := by
  refine BitVec.eq_of_getLsbD_eq fun i hi => ?_
  rw [BitVec.getLsbD_append]
  by_cases h : i < n
  · simp [h, hi]
  · simp [h, hi, show i - n < m by omega, show n + (i - n) = i by omega]

/-! ### The laws of a field -/

/-- A getter and a setter.  Either may panic. -/
structure Accessors (w : ℕ) (V : Type) where
  get : BitVec w → Option V
  set : BitVec w → V → Option (BitVec w)

/-- The laws of the field from `lsb` to `msb`, for a write of `v` to `x`.  `Admissible` are the
values that the field can hold. -/
structure Accessors.Laws {V : Type} (F : Accessors w V) (msb lsb : ℕ) (Admissible : V → Prop)
    (x : BitVec w) (v : V) : Prop where
  /-- What was written is read back. -/
  get_set : (F.set x v).bind F.get = some v
  /-- The bits outside the field stay as they are. -/
  frame : ∀ x', F.set x v = some x' →
    ∀ i, ¬ (lsb ≤ i ∧ i ≤ msb) → x'.getLsbD i = x.getLsbD i
  /-- A second write overrides the first. -/
  set_set : ∀ v', Admissible v' → ((F.set x v).bind fun x' => F.set x' v') = F.set x v'

/-- After a write, writing back what is read changes nothing. -/
lemma Accessors.Laws.write_back {V : Type} {F : Accessors w V} {msb lsb : ℕ}
    {Admissible : V → Prop} {x : BitVec w} {v : V} (h : F.Laws msb lsb Admissible x v)
    (hv : Admissible v) :
    ((F.set x v).bind fun x' => (F.get x').bind (F.set x')) = F.set x v := by
  obtain ⟨x', hset, hget⟩ := Option.bind_eq_some_iff.mp h.get_set
  have hagain := h.set_set v hv
  rw [hset, Option.bind_some] at hagain
  rw [hset, Option.bind_some, hget, Option.bind_some, hagain]

section Laws

variable {msb lsb : ℕ}

/-- A value fits into a field if no bit lies past its end. -/
lemma getLsbD_of_fits {v : BitVec w} (hv : v.toNat < 2 ^ (msb - lsb + 1)) (hle : lsb ≤ msb) {i : ℕ}
    (hi : ¬ lsb + i ≤ msb) : v.getLsbD i = false :=
  Nat.testBit_lt_two_pow (hv.trans_le (Nat.pow_le_pow_right (by norm_num) (by omega)))

lemma bitRange_setBitRange (hmsb : msb < w) (hle : lsb ≤ msb) (x : BitVec w) {v : BitVec w}
    (hv : v.toNat < 2 ^ (msb - lsb + 1)) : bitRange (setBitRange x msb lsb v) msb lsb = v := by
  refine BitVec.eq_of_getLsbD_eq fun i _ => ?_
  rw [getLsbD_bitRange hmsb, getLsbD_setBitRange hmsb, Nat.add_sub_cancel_left]
  by_cases hi : lsb + i ≤ msb
  · simp [hi]
  · simp [hi, getLsbD_of_fits hv hle hi]

lemma setBitRange_setBitRange (hmsb : msb < w) (x v v' : BitVec w) :
    setBitRange (setBitRange x msb lsb v) msb lsb v' = setBitRange x msb lsb v' := by
  refine BitVec.eq_of_getLsbD_eq fun i _ => ?_
  simp only [getLsbD_setBitRange hmsb]
  split_ifs <;> rfl

lemma setBitRange_bitRange (hmsb : msb < w) (x : BitVec w) :
    setBitRange x msb lsb (bitRange x msb lsb) = x := by
  refine BitVec.eq_of_getLsbD_eq fun i _ => ?_
  rw [getLsbD_setBitRange hmsb, getLsbD_bitRange hmsb]
  split_ifs with hi
  · simp [show lsb + (i - lsb) = i by omega, hi.2]
  · rfl

/-- What a field reads as is small. -/
lemma bitRange_lt (hmsb : msb < w) (x : BitVec w) :
    (bitRange x msb lsb).toNat < 2 ^ (msb - lsb + 1) := by
  refine Nat.lt_pow_two_of_testBit _ fun i hi => ?_
  have hbit := getLsbD_bitRange hmsb x lsb i
  rwa [decide_eq_false (by omega), Bool.false_and] at hbit

/-- The number that a field holds. -/
lemma toNat_bitRange (hmsb : msb < w) (hle : lsb ≤ msb) (x : BitVec w) :
    (bitRange x msb lsb).toNat = x.toNat / 2 ^ lsb % 2 ^ (msb - lsb + 1) := by
  refine Nat.eq_of_testBit_eq fun i => ?_
  have hbit := getLsbD_bitRange hmsb x lsb i
  have hdecide : decide (lsb + i ≤ msb) = decide (i < msb - lsb + 1) :=
    decide_eq_decide.mpr (by omega)
  rw [Nat.testBit_mod_two_pow, Nat.testBit_div_two_pow, ← hdecide, Nat.add_comm i lsb]
  exact hbit

/-- A field depends on its own bits only. -/
lemma bitRange_congr (hmsb : msb < w) {x y : BitVec w}
    (h : ∀ i, lsb ≤ i → i ≤ msb → x.getLsbD i = y.getLsbD i) :
    bitRange x msb lsb = bitRange y msb lsb := by
  refine BitVec.eq_of_getLsbD_eq fun i _ => ?_
  rw [getLsbD_bitRange hmsb, getLsbD_bitRange hmsb]
  by_cases hi : lsb + i ≤ msb
  · rw [h (lsb + i) (Nat.le_add_right _ _) hi]
  · rw [decide_eq_false hi, Bool.false_and, Bool.false_and]

end Laws

end BitField

end Titanium
