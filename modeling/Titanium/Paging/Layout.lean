import Titanium.Lib.BitArr
import Titanium.Lib.Dyadic

/-!
The layout of the buddy bitmap (`paging.rs`, the constants and the index
conversions of `RuneFrameAllocator`).

Sixteen levels of chunks share one bit array.  `levelOffset` is the recurrence
that fills `LEVEL_OFFSETS`, `absoluteToRelative` and `relativeToAbsolute`
convert between positions in the array and (index, level) pairs.

* `levelOffset_add`: `LEVEL_OFFSETS[l] + 2^(25-l) = 2^25`, so level `l` is
  `2^(24-l)` bits wide (`levelOffset_succ`): level `0` has a bit for each of
  the first `2^24` frames, half of what `MAX_PHYS_MAP` asks for.
* `absoluteToRelative_eq_some`: the scan over the levels inverts
  `relativeToAbsolute`.
* `ownBit_iff`: an address has a bit of its own at every level exactly below
  `2^36`, and `noSharedBit_iff`: below a limit no two chunks share a bit exactly
  when the limit is at most `2^36`.
* `level_index_bijective`: **positions and (index, level) pairs correspond**, and
  clearing bit 0 of a position leads to the even buddy.
-/

namespace Titanium

/-! ### Constants -/

/-- `vmem::PAGE_SIZE`. -/
def pageSize : ℕ := 4096

/-- `MAX_PHYS_MAP`, 128 GiB. -/
def maxPhysMap : ℕ := 0x2000000000

/-- `MAX_PHYS_MAP_PAGES`. -/
def maxPhysMapPages : ℕ := maxPhysMap / pageSize

/-- `MAX_BUDDY_BITS`. -/
def maxBuddyBits : ℕ := maxPhysMapPages

/-- `BUDDY_LEVELS`. -/
def buddyLevels : ℕ := 16

/-- The recurrence that computes the entries of `LEVEL_OFFSETS`. -/
def levelOffset : ℕ → ℕ
  | 0 => 0
  | level + 1 => levelOffset level + maxBuddyBits >>> (level + 1)

/-- The access `LEVEL_OFFSETS[level]`: the table has `BUDDY_LEVELS + 1`
entries, and an index past them panics. -/
def levelOffsets (level : ℕ) : Option ℕ :=
  if level < buddyLevels + 1 then some (levelOffset level) else none

/-- `TOTAL_BUDDY_BITS`. -/
def totalBuddyBits : ℕ := levelOffset buddyLevels

/-- `LEVEL_2MIB`. -/
def level2MiB : ℕ := 9

/-- The field `buddy_bytes` of `RuneFrameAllocator`. -/
abbrev BuddyBits := BitArr totalBuddyBits

/-! ### Index conversions -/

/-- `absolute_to_relative`: the first level whose end lies past the index.
`none` is the `unreachable!()` after the loop. -/
def absoluteToRelative (absIndex : ℕ) : Option (ℕ × ℕ) :=
  ((List.range buddyLevels).find? fun level => absIndex < levelOffset (level + 1)).map
    fun level => (absIndex - levelOffset level, level)

/-- `relative_to_absolute`. -/
def relativeToAbsolute : ℕ × ℕ → Option ℕ
  | (index, level) => do return index + (← levelOffsets level)

/-- `addr_to_relative_index`. -/
def addrToRelativeIndex (addr level : ℕ) : ℕ := (addr / pageSize) >>> level

/-- `addr_to_index`. -/
def addrToIndex (addr level : ℕ) : Option ℕ :=
  relativeToAbsolute (addrToRelativeIndex addr level, level)

/-- `relative_index_to_addr`. -/
def relativeIndexToAddr : ℕ × ℕ → ℕ
  | (index, level) => (index * pageSize) <<< level

/-! ### Widths of the levels -/

lemma levelOffset_succ {l : ℕ} (hl : l ≤ 24) :
    levelOffset (l + 1) = levelOffset l + 2 ^ (24 - l) := by
  have hbits : maxBuddyBits = 2 ^ 25 := by
    norm_num [maxBuddyBits, maxPhysMapPages, maxPhysMap, pageSize]
  rw [levelOffset, hbits, Nat.shiftRight_eq_div_pow, Nat.pow_div (by omega) (by norm_num)]
  congr 2
  omega

lemma levelOffset_sub {l : ℕ} (hl : l ≤ 24) :
    levelOffset (l + 1) - levelOffset l = 2 ^ (24 - l) := by
  rw [levelOffset_succ hl, Nat.add_sub_cancel_left]

/-- **The closed form of the offsets.** -/
lemma levelOffset_add {l : ℕ} (hl : l ≤ 25) : levelOffset l + 2 ^ (25 - l) = 2 ^ 25 := by
  induction l with
  | zero => rfl
  | succ l ih =>
      have hpow : 2 ^ (25 - l) = 2 ^ (24 - l) + 2 ^ (24 - l) := by
        rw [show 25 - l = 24 - l + 1 by omega, pow_succ]
        ring
      have h1 := ih (by omega)
      rw [levelOffset_succ (by omega), show 25 - (l + 1) = 24 - l by omega]
      omega

lemma levelOffset_mono : Monotone levelOffset :=
  monotone_nat_of_le_succ fun l => by rw [levelOffset]; exact Nat.le_add_right _ _

/-- Below the top every level starts at an even position. -/
lemma levelOffset_even {l : ℕ} (hl : l < 25) : levelOffset l % 2 = 0 := by
  have h := levelOffset_add (l := l) (by omega)
  rw [show 25 - l = 24 - l + 1 by omega, pow_succ] at h
  omega

lemma levelOffsets_of_le {l : ℕ} (hl : l ≤ buddyLevels) :
    levelOffsets l = some (levelOffset l) :=
  if_pos (by omega)

lemma relativeToAbsolute_of_le {i l : ℕ} (hl : l ≤ buddyLevels) :
    relativeToAbsolute (i, l) = some (i + levelOffset l) := by
  simp [relativeToAbsolute, levelOffsets_of_le hl]

lemma levelOffset_le_total {l : ℕ} (hl : l ≤ buddyLevels) : levelOffset l ≤ totalBuddyBits :=
  levelOffset_mono hl

/-- The scan over the levels finds the level the position lies in. -/
lemma absoluteToRelative_eq_some {p i l : ℕ} :
    absoluteToRelative p = some (i, l) ↔
      l < buddyLevels ∧ p = levelOffset l + i ∧ p < levelOffset (l + 1) := by
  simp only [absoluteToRelative, Option.map_eq_some_iff, List.find?_range_eq_some,
    decide_eq_true_eq, List.mem_range, Prod.mk.injEq, Bool.not_eq_eq_eq_not, Bool.not_true,
    decide_eq_false_iff_not, not_lt]
  constructor
  · rintro ⟨k, ⟨hlt, hk, hbelow⟩, rfl, rfl⟩
    refine ⟨hk, ?_, hlt⟩
    -- the level below ends at or before the position
    have hle : levelOffset k ≤ p := by
      cases k with
      | zero => exact Nat.zero_le p
      | succ k => exact hbelow k (by omega)
    omega
  · rintro ⟨hl, hp, hlt⟩
    refine ⟨l, ⟨hlt, hl, fun j hj => ?_⟩, by omega, rfl⟩
    have := levelOffset_mono (show j + 1 ≤ l by omega)
    omega

/-- Every position of the array lies in some level. -/
lemma exists_absoluteToRelative {p : ℕ} (hp : p < totalBuddyBits) :
    ∃ i l, absoluteToRelative p = some (i, l) := by
  have hex : ∃ l, p < levelOffset (l + 1) := ⟨15, hp⟩
  classical
  refine ⟨p - levelOffset (Nat.find hex), Nat.find hex, absoluteToRelative_eq_some.mpr ⟨?_, ?_, ?_⟩⟩
  · exact lt_of_le_of_lt (Nat.find_min' hex hp) (by decide)
  · have hle : levelOffset (Nat.find hex) ≤ p := by
      cases hk : Nat.find hex with
      | zero => exact Nat.zero_le p
      | succ k => exact not_lt.mp (Nat.find_min hex (by omega))
    omega
  · exact Nat.find_spec hex

/-! ### Chunks and their bits -/

/-- The chunk has a bit: its index is inside the width of its level. -/
def Chunk.Fits (c : Chunk) : Prop :=
  c.level < buddyLevels ∧ c.idx < levelOffset (c.level + 1) - levelOffset c.level

instance (c : Chunk) : Decidable c.Fits := inferInstanceAs (Decidable (_ ∧ _))

/-- The position of the chunk's bit. -/
def Chunk.bit (c : Chunk) : ℕ := c.idx + levelOffset c.level

lemma Chunk.fits_iff {c : Chunk} : c.Fits ↔ c.level < buddyLevels ∧ c.idx < 2 ^ (24 - c.level) := by
  refine and_congr_right fun hl => ?_
  rw [levelOffset_sub (by rw [buddyLevels] at hl; omega)]

/-- A chunk has a bit exactly when its frames lie below `2^24`. -/
lemma Chunk.fits_iff_of_mem {c : Chunk} (hl : c.level < buddyLevels) {f : ℕ} (hf : f ∈ c.frames) :
    c.Fits ↔ f < 2 ^ 24 := by
  have hl' : c.level ≤ 24 := by rw [buddyLevels] at hl; omega
  rw [Chunk.fits_iff, and_iff_right hl, ← Chunk.mem_frames.mp hf,
    Nat.div_lt_iff_lt_mul (Nat.two_pow_pos _), ← pow_add, Nat.sub_add_cancel hl']

lemma Chunk.Fits.bit_lt_levelOffset {c : Chunk} (hc : c.Fits) :
    c.bit < levelOffset (c.level + 1) := by
  have hlt := hc.2
  rw [Chunk.bit]
  omega

lemma Chunk.Fits.bit_lt {c : Chunk} (hc : c.Fits) : c.bit < totalBuddyBits :=
  lt_of_lt_of_le hc.bit_lt_levelOffset (levelOffset_le_total hc.1)

/-- The scan over the levels reads a chunk back from its bit. -/
lemma Chunk.Fits.absoluteToRelative_bit {c : Chunk} (hc : c.Fits) :
    absoluteToRelative c.bit = some (c.idx, c.level) :=
  absoluteToRelative_eq_some.mpr ⟨hc.1, Nat.add_comm _ _, hc.bit_lt_levelOffset⟩

/-- Different chunks have different bits. -/
lemma Chunk.Fits.bit_inj {c d : Chunk} (hc : c.Fits) (hd : d.Fits) (h : c.bit = d.bit) : c = d := by
  have hdec := hc.absoluteToRelative_bit
  rw [h, hd.absoluteToRelative_bit, Option.some.injEq, Prod.mk.injEq] at hdec
  exact Chunk.ext hdec.2.symm hdec.1.symm

/-- Every position of the array is the bit of a chunk. -/
lemma exists_fits_bit {p : ℕ} (hp : p < totalBuddyBits) : ∃ c : Chunk, c.Fits ∧ c.bit = p := by
  obtain ⟨i, l, h⟩ := exists_absoluteToRelative hp
  obtain ⟨hl, heq, hlt⟩ := absoluteToRelative_eq_some.mp h
  refine ⟨⟨l, i⟩, ⟨hl, ?_⟩, ?_⟩
  · show i < levelOffset (l + 1) - levelOffset l
    omega
  · rw [Chunk.bit, heq, Nat.add_comm]

/-! ### How far the layout reaches -/

/-- The chunk of `addr` at `level` has its own bit: the index lies between
`LEVEL_OFFSETS[level]` and `LEVEL_OFFSETS[level + 1]` and decodes to the pair
it came from. -/
def OwnBit (addr level : ℕ) : Prop :=
  ∃ p, addrToIndex addr level = some p ∧ levelOffset level ≤ p ∧ p < levelOffset (level + 1) ∧
    absoluteToRelative p = some (addrToRelativeIndex addr level, level)

/-- No two (chunk, level) pairs of addresses below `limit` share a bit. -/
def NoSharedBit (limit : ℕ) : Prop :=
  ∀ a < limit, ∀ b < limit, ∀ l < buddyLevels, ∀ m < buddyLevels,
    addrToIndex a l = addrToIndex b m →
      (addrToRelativeIndex a l, l) = (addrToRelativeIndex b m, m)

lemma addrToIndex_eq {a l : ℕ} (hl : l < buddyLevels) :
    addrToIndex a l = some (addrToRelativeIndex a l + levelOffset l) :=
  relativeToAbsolute_of_le (Nat.le_of_lt hl)

/-- The index of an address is inside its level exactly below `2^36`. -/
lemma addrToRelativeIndex_lt_iff {a l : ℕ} (hl : l < buddyLevels) :
    addrToRelativeIndex a l < levelOffset (l + 1) - levelOffset l ↔ a < 2 ^ 36 := by
  have hl' : l ≤ 24 := by rw [buddyLevels] at hl; omega
  rw [levelOffset_sub hl', addrToRelativeIndex, pageSize,
    Nat.shiftRight_eq_div_pow, Nat.div_lt_iff_lt_mul (Nat.two_pow_pos _), ← pow_add,
    Nat.sub_add_cancel hl', Nat.div_lt_iff_lt_mul (by norm_num)]
  norm_num

lemma ownBit_iff {a l : ℕ} (hl : l < buddyLevels) : OwnBit a l ↔ a < 2 ^ 36 := by
  rw [← addrToRelativeIndex_lt_iff hl]
  constructor
  · rintro ⟨p, hp, hle, hlt, -⟩
    rw [addrToIndex_eq hl, Option.some.injEq] at hp
    omega
  · intro hlt
    have hfits : (⟨l, addrToRelativeIndex a l⟩ : Chunk).Fits := ⟨hl, hlt⟩
    refine ⟨_, addrToIndex_eq hl, Nat.le_add_left _ _, by omega, hfits.absoluteToRelative_bit⟩

/-- Below a limit the bits are not shared exactly when the limit is at most
`2^36`: the first address past it shares its level-0 bit with the first chunk
of level 1. -/
lemma noSharedBit_iff (limit : ℕ) : NoSharedBit limit ↔ limit ≤ 2 ^ 36 := by
  constructor
  · intro h
    by_contra hlt
    have h0 : (0 : ℕ) < buddyLevels := by decide
    have h1 : (1 : ℕ) < buddyLevels := by decide
    have hshare := h (2 ^ 36) (by omega) 0 (by omega) 0 h0 1 h1 (by decide)
    exact absurd (congrArg Prod.snd hshare) (by decide)
  · intro hle a ha b hb l hl m hm heq
    have hca : (⟨l, addrToRelativeIndex a l⟩ : Chunk).Fits :=
      ⟨hl, (addrToRelativeIndex_lt_iff hl).mpr (by omega)⟩
    have hcb : (⟨m, addrToRelativeIndex b m⟩ : Chunk).Fits :=
      ⟨hm, (addrToRelativeIndex_lt_iff hm).mpr (by omega)⟩
    rw [addrToIndex_eq hl, addrToIndex_eq hm, Option.some.injEq] at heq
    have hcd := hca.bit_inj hcb heq
    rw [Chunk.mk.injEq] at hcd
    rw [hcd.1, ← hcd.2, hcd.1]

/-- **The layout serves the lower half of `MAX_PHYS_MAP`.**  For every level
and every address below `MAX_PHYS_MAP` the chunk has its own bit exactly when
the address is below 64 GiB, and up to any limit below `MAX_PHYS_MAP` bits are
never shared exactly when the limit is at most 64 GiB. -/
theorem own_bit_iff_below_half (level addr limit : ℕ) (hlevel : level < buddyLevels)
    (_haddr : addr < maxPhysMap) (_hlimit : limit ≤ maxPhysMap) :
    (OwnBit addr level ↔ addr < 2 ^ 36) ∧ (NoSharedBit limit ↔ limit ≤ 2 ^ 36) :=
  ⟨ownBit_iff hlevel, noSharedBit_iff limit⟩

theorem own_bit_of_last_frame :
    OwnBit 0xFFFFFF000 15 ∧ NoSharedBit 0x1000000000 := by
  have h := own_bit_iff_below_half 15 0xFFFFFF000 0x1000000000 (by norm_num [buddyLevels])
    (by norm_num [maxPhysMap]) (by norm_num [maxPhysMap])
  exact ⟨h.1.mpr (by norm_num), h.2.mpr (by norm_num)⟩

/-- The frame at 64 GiB is below `MAX_PHYS_MAP`, and its level-0 bit is the
bit of the first chunk of level 1. -/
theorem shared_bit_at_64GiB :
    0x1000000000 < maxPhysMap ∧ addrToIndex 0x1000000000 0 = addrToIndex 0 1 ∧
      addrToIndex 0x1000000000 0 = levelOffsets 1 ∧
      ¬ ∀ level < buddyLevels, ∀ addr < maxPhysMap, OwnBit addr level := by
  refine ⟨by decide, by decide, by decide, fun h => ?_⟩
  have hown := h 0 (by decide) 0x1000000000 (by decide)
  exact absurd ((ownBit_iff (by decide)).mp hown) (by decide)

/-! ### Positions and pairs -/

/-- `i & !1`. -/
def clearLowestBit (i : ℕ) : ℕ := (BitVec.ofNat 64 i &&& ~~~1#64).toNat

lemma clearLowestBit_eq {i : ℕ} (hi : i < 2 ^ 64) : clearLowestBit i = i / 2 * 2 := by
  refine Nat.eq_of_testBit_eq fun j => ?_
  have hbit : (clearLowestBit i).testBit j = (BitVec.ofNat 64 i &&& ~~~1#64).getLsbD j := rfl
  rw [hbit, BitVec.getLsbD_and, BitVec.getLsbD_not, BitVec.getLsbD_ofNat, BitVec.getLsbD_one]
  cases j with
  | zero => simp
  | succ j =>
      rw [Nat.testBit_succ (i / 2 * 2), Nat.mul_div_cancel _ (by norm_num), ← Nat.testBit_succ]
      by_cases hj : j + 1 < 64
      · simp [hj]
      · have hge := Nat.pow_le_pow_right (show 0 < 2 by norm_num) (not_lt.mp hj)
        rw [decide_eq_false hj, Nat.testBit_lt_two_pow (hi.trans_le hge)]
        rfl

/-- Every level offset is even, so pairs of buddies start at even positions. -/
lemma clearLowestBit_bit {i l : ℕ} (hc : (⟨l, i⟩ : Chunk).Fits) :
    clearLowestBit (i + levelOffset l) = i / 2 * 2 + levelOffset l := by
  have hbit : i + levelOffset l < totalBuddyBits := hc.bit_lt
  have htotal : totalBuddyBits < 2 ^ 64 := by decide
  have heven : levelOffset l % 2 = 0 :=
    levelOffset_even (hc.1.trans (by norm_num [buddyLevels]))
  rw [clearLowestBit_eq (hbit.trans htotal)]
  omega

/-- The parent of a pair of buddies has a bit. -/
lemma half_lt_of_fits {i l : ℕ} (hl : l < buddyLevels - 1)
    (hi : i < levelOffset (l + 1) - levelOffset l) :
    (i / 2 * 2) >>> 1 < levelOffset (l + 2) - levelOffset (l + 1) := by
  have hl' : l < 15 := hl
  rw [levelOffset_sub (by omega), show 24 - l = 24 - (l + 1) + 1 by omega, pow_succ] at hi
  rw [levelOffset_sub (by omega), Nat.shiftRight_eq_div_pow, pow_one,
    Nat.mul_div_cancel _ (by norm_num)]
  omega

/-- **Positions in the array and (index, level) pairs correspond**:

* every position decodes to a pair inside its level, and the pair encodes to it;
* every such pair encodes to a position that decodes to it;
* below the top, clearing bit 0 of a position gives the position of the even buddy of the pair,
  whose parent is inside the next level. -/
theorem level_index_bijective :
    (∀ a < totalBuddyBits, ∃ i l, absoluteToRelative a = some (i, l) ∧ l < buddyLevels ∧
      i < levelOffset (l + 1) - levelOffset l ∧ relativeToAbsolute (i, l) = some a) ∧
    (∀ i l, l < buddyLevels → i < levelOffset (l + 1) - levelOffset l →
      ∃ a < totalBuddyBits, relativeToAbsolute (i, l) = some a ∧
        absoluteToRelative a = some (i, l)) ∧
    ∀ i l, l < buddyLevels - 1 → i < levelOffset (l + 1) - levelOffset l →
      ∃ a, relativeToAbsolute (i, l) = some a ∧
        relativeToAbsolute (i / 2 * 2, l) = some (clearLowestBit a) ∧
        absoluteToRelative (clearLowestBit a) = some (i / 2 * 2, l) ∧
        (i / 2 * 2) >>> 1 < levelOffset (l + 2) - levelOffset (l + 1) := by
  have hencode : ∀ i l, l < buddyLevels → relativeToAbsolute (i, l) = some (i + levelOffset l) :=
    fun i l hl => relativeToAbsolute_of_le (Nat.le_of_lt hl)
  refine ⟨fun a ha => ?_, fun i l hl hi => ?_, fun i l hl hi => ?_⟩
  · obtain ⟨⟨l, i⟩, hfits, rfl⟩ := exists_fits_bit ha
    exact ⟨i, l, hfits.absoluteToRelative_bit, hfits.1, hfits.2, hencode i l hfits.1⟩
  · have hfits : (⟨l, i⟩ : Chunk).Fits := ⟨hl, hi⟩
    exact ⟨_, hfits.bit_lt, hencode i l hl, hfits.absoluteToRelative_bit⟩
  · have hl' : l < buddyLevels := hl.trans (by decide)
    have hclear := clearLowestBit_bit (show (⟨l, i⟩ : Chunk).Fits from ⟨hl', hi⟩)
    have heven : (⟨l, i / 2 * 2⟩ : Chunk).Fits :=
      ⟨hl', (Nat.div_mul_le_self i 2).trans_lt hi⟩
    refine ⟨_, hencode i l hl', ?_, ?_, half_lt_of_fits hl hi⟩
    · rw [hclear, hencode _ l hl']
    · rw [hclear]
      exact heven.absoluteToRelative_bit

end Titanium
