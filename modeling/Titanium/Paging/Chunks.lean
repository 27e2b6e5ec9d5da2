import Titanium.Lib.Buddy
import Titanium.Paging.Allocator

/-!
The bitmap as a set of chunks.

A set bit with relative index `i` at level `l` is the free chunk of the frames
`[i·2^l, (i+1)·2^l)`: `chunks b` is the set of these chunks, and every function
of the allocator is one of the moves of a buddy system on it.

* `exists_write_true`, `exists_write_false`: writing the bit of a chunk inserts
  or erases it.
* `splitDown_spec`: the splitting loop and the final clear are `carve`.
* `allocateChunkFromLevel_spec`: the scan takes the lowest bit at or above the
  level, and nothing else happens than carving that chunk.
* `mergeUpFrom_spec`, `giveBack_spec`: the merging loop is `merge`, the loop over
  the bits of the overflow is `tile`.
* `pickOffContiguous_spec`: a contiguous pick is a carve at the target level
  followed by giving back the tail; when it fails nothing has changed.
-/

namespace Titanium

/-! ### The chunks of a bitmap -/

/-- The chunk whose bit is at a position of the array. -/
def chunkOfBit (p : ℕ) : Chunk :=
  match absoluteToRelative p with
  | some (i, l) => ⟨l, i⟩
  | none => ⟨0, 0⟩

/-- The free chunks of a bitmap. -/
def chunks (b : BuddyBits) : Finset Chunk := b.ones.image chunkOfBit

lemma Chunk.Fits.chunkOfBit_bit {c : Chunk} (hc : c.Fits) : chunkOfBit c.bit = c := by
  rw [chunkOfBit, hc.absoluteToRelative_bit]

lemma mem_chunks {b : BuddyBits} {c : Chunk} : c ∈ chunks b ↔ c.Fits ∧ c.bit ∈ b.ones := by
  simp only [chunks, Finset.mem_image]
  constructor
  · rintro ⟨p, hp, rfl⟩
    obtain ⟨c, hc, rfl⟩ := exists_fits_bit (b.lt_of_mem p hp)
    rw [hc.chunkOfBit_bit]
    exact ⟨hc, hp⟩
  · rintro ⟨hc, hp⟩
    exact ⟨c.bit, hp, hc.chunkOfBit_bit⟩

lemma fits_of_mem {b : BuddyBits} {c : Chunk} (hc : c ∈ chunks b) : c.Fits := (mem_chunks.mp hc).1

lemma bit_mem_iff {b : BuddyBits} {c : Chunk} (hc : c.Fits) : c.bit ∈ b.ones ↔ c ∈ chunks b := by
  rw [mem_chunks, and_iff_right hc]

@[simp] lemma chunks_zeroed : chunks (BitArr.zeroed _) = ∅ := rfl

/-- Bitmaps with the same chunks are equal. -/
lemma chunks_injective : Function.Injective chunks := by
  intro b b' h
  refine BitArr.ext (Finset.ext fun p => ?_)
  constructor <;> intro hp
  · obtain ⟨c, hc, rfl⟩ := exists_fits_bit (b.lt_of_mem p hp)
    rw [bit_mem_iff hc] at hp ⊢
    exact h ▸ hp
  · obtain ⟨c, hc, rfl⟩ := exists_fits_bit (b'.lt_of_mem p hp)
    rw [bit_mem_iff hc] at hp ⊢
    exact h ▸ hp

/-- Setting the bit of a chunk frees the chunk. -/
lemma exists_write_true (b : BuddyBits) {c : Chunk} (hc : c.Fits) :
    ∃ b', b.write c.bit true = some b' ∧ chunks b' = insert c (chunks b) := by
  obtain ⟨b', hb'⟩ := b.write_isSome hc.bit_lt true
  refine ⟨b', hb', Finset.ext fun d => ?_⟩
  rw [mem_chunks, BitArr.ones_write_true hb', Finset.mem_insert, Finset.mem_insert, mem_chunks]
  constructor
  · rintro ⟨hd, h | h⟩
    · exact Or.inl (hd.bit_inj hc h)
    · exact Or.inr ⟨hd, h⟩
  · rintro (rfl | ⟨hd, h⟩)
    · exact ⟨hc, Or.inl rfl⟩
    · exact ⟨hd, Or.inr h⟩

/-- Clearing the bit of a chunk takes the chunk out. -/
lemma exists_write_false (b : BuddyBits) {c : Chunk} (hc : c.Fits) :
    ∃ b', b.write c.bit false = some b' ∧ chunks b' = (chunks b).erase c := by
  obtain ⟨b', hb'⟩ := b.write_isSome hc.bit_lt false
  refine ⟨b', hb', Finset.ext fun d => ?_⟩
  rw [mem_chunks, BitArr.ones_write_false hb', Finset.mem_erase, Finset.mem_erase, mem_chunks]
  constructor
  · rintro ⟨hd, hne, h⟩
    exact ⟨fun hdc => hne (congrArg Chunk.bit hdc), hd, h⟩
  · rintro ⟨hne, hd, h⟩
    exact ⟨hd, fun hbit => hne (hd.bit_inj hc hbit), h⟩

lemma read_bit (b : BuddyBits) {c : Chunk} (hc : c.Fits) :
    b.read c.bit = some (decide (c ∈ chunks b)) := by
  rw [BitArr.read_of_lt hc.bit_lt]
  simp only [bit_mem_iff hc]

/-! ### Chunks that fit -/

namespace Chunk

lemma Fits.lo {c : Chunk} (hc : c.Fits) (hl : 0 < c.level) : c.lo.Fits := by
  have hlo : c.lo.frames ⊆ c.frames := frames_eq_halves hl ▸ Finset.subset_union_left
  have hlvl : c.lo.level < buddyLevels := lt_of_le_of_lt (Nat.sub_le _ _) hc.1
  rw [fits_iff_of_mem hlvl c.lo.start_mem_frames]
  exact (fits_iff_of_mem hc.1 (hlo c.lo.start_mem_frames)).mp hc

lemma Fits.hi {c : Chunk} (hc : c.Fits) (hl : 0 < c.level) : c.hi.Fits := by
  have hhi : c.hi.frames ⊆ c.frames := frames_eq_halves hl ▸ Finset.subset_union_right
  have hlvl : c.hi.level < buddyLevels := lt_of_le_of_lt (Nat.sub_le _ _) hc.1
  rw [fits_iff_of_mem hlvl c.hi.start_mem_frames]
  exact (fits_iff_of_mem hc.1 (hhi c.hi.start_mem_frames)).mp hc

lemma Fits.buddy {c : Chunk} (hc : c.Fits) : c.buddy.Fits := by
  have hl : c.level ≤ 23 := by have := hc.1; rw [buddyLevels] at this; omega
  rw [fits_iff] at hc ⊢
  refine ⟨hc.1, ?_⟩
  have hlt := hc.2
  have hpow : 2 ^ (24 - c.level) = 2 * 2 ^ (23 - c.level) := by
    rw [show 24 - c.level = 23 - c.level + 1 by omega, pow_succ]
    ring
  simp only [Chunk.buddy]
  split_ifs <;> omega

lemma Fits.parent {c : Chunk} (hc : c.Fits) (hl : c.level + 1 < buddyLevels) : c.parent.Fits := by
  rw [fits_iff_of_mem hl (c.frames_subset_parent c.start_mem_frames)]
  exact (fits_iff_of_mem hc.1 c.start_mem_frames).mp hc

lemma Fits.first {c : Chunk} (hc : c.Fits) {d : ℕ} (hd : d ≤ c.level) : (c.first d).Fits := by
  have hlvl : (c.first d).level < buddyLevels := lt_of_le_of_lt (Nat.sub_le _ _) hc.1
  have hstart := (c.first d).start_mem_frames
  rw [fits_iff_of_mem hlvl hstart]
  exact (fits_iff_of_mem hc.1 (frames_first_subset hd hstart)).mp hc

/-- A chunk with a bit ends at or below frame `2^24`. -/
lemma Fits.end_le {c : Chunk} (hc : c.Fits) : (c.idx + 1) * 2 ^ c.level ≤ 2 ^ 24 := by
  have hlvl : c.level ≤ 24 := by have := hc.1; rw [buddyLevels] at this; omega
  calc (c.idx + 1) * 2 ^ c.level ≤ 2 ^ (24 - c.level) * 2 ^ c.level :=
        Nat.mul_le_mul_right _ (fits_iff.mp hc).2
    _ = 2 ^ 24 := by rw [← pow_add, Nat.sub_add_cancel hlvl]

/-- The address of the first frame of a chunk. -/
def addr (c : Chunk) : ℕ := c.idx * 2 ^ c.level * pageSize

lemma relativeIndexToAddr_eq (c : Chunk) : relativeIndexToAddr (c.idx, c.level) = c.addr := by
  rw [relativeIndexToAddr, Nat.shiftLeft_eq, addr]
  ring

lemma addrToRelativeIndex_addr (c : Chunk) : addrToRelativeIndex c.addr c.level = c.idx := by
  rw [addrToRelativeIndex, addr, Nat.mul_div_cancel _ (by decide), Nat.shiftRight_eq_div_pow,
    Nat.mul_div_cancel _ (Nat.two_pow_pos _)]

end Chunk

/-! ### `allocate_chunk_from_level` -/

/-- The splitting loop and the final clear carve the chunk. -/
lemma splitDown_spec {minLevel d : ℕ} : ∀ {c : Chunk} (b : BuddyBits), c.Fits →
    c.level = minLevel + d →
    ∃ b₁ b₂, splitDown minLevel d c.idx b = some (c.idx * 2 ^ d, b₁) ∧
      b₁.write (c.idx * 2 ^ d + levelOffset minLevel) false = some b₂ ∧
      chunks b₂ = carve d (chunks b) c := by
  induction d with
  | zero =>
      intro c b hc hl
      obtain ⟨b', hb', hch⟩ := exists_write_false b hc
      have hbit : c.idx * 2 ^ 0 + levelOffset minLevel = c.bit := by
        rw [Chunk.bit, hl, pow_zero, Nat.mul_one, Nat.add_zero]
      rw [hbit]
      exact ⟨b, b', by simp [splitDown], hb', hch⟩
  | succ d ih =>
      intro c b hc hl
      have hpos : 0 < c.level := by omega
      have hlvl := hc.1
      obtain ⟨b', hb', hch'⟩ := exists_write_false b hc
      obtain ⟨b'', hb'', hch''⟩ := exists_write_true b' (hc.hi hpos)
      obtain ⟨b₁, b₂, h1, h2, h3⟩ := ih b'' (hc.lo hpos) (by simp only [Chunk.lo]; omega)
      have hlo : c.lo.idx * 2 ^ d = c.idx * 2 ^ (d + 1) := by
        simp only [Chunk.lo, pow_succ]
        ring
      rw [hlo] at h1 h2
      refine ⟨b₁, b₂, ?_, h2, by rw [h3, hch'', hch', carve]⟩
      have hbit : c.idx + levelOffset (minLevel + d + 1) = c.bit := by
        rw [Chunk.bit, hl, Nat.add_assoc]
      have hhi : c.idx <<< 1 + levelOffset (minLevel + d) + 1 = c.hi.bit := by
        have : c.level - 1 = minLevel + d := by omega
        simp only [Chunk.bit, Chunk.hi, this, Nat.shiftLeft_eq]
        omega
      have hshift : c.idx <<< 1 = c.lo.idx := by
        simp only [Chunk.lo, Nat.shiftLeft_eq]
        omega
      rw [splitDown, levelOffsets_of_le (by omega), levelOffsets_of_le (by omega)]
      simp only [Option.bind_eq_bind, Option.bind_some, hbit, hb', hhi, hb'']
      rw [hshift, h1]

/-- A chunk's bit is past the start of every level not above its own. -/
lemma Chunk.Fits.levelOffset_le_bit_iff {c : Chunk} (hc : c.Fits) {l : ℕ} :
    levelOffset l ≤ c.bit ↔ l ≤ c.level := by
  constructor
  · intro h
    by_contra hlt
    have := levelOffset_mono (show c.level + 1 ≤ l by omega)
    have := hc.bit_lt_levelOffset
    omega
  · intro h
    exact (levelOffset_mono h).trans (Nat.le_add_left _ _)

/-- **What `allocate_chunk_from_level` does.**  Without a chunk at or above the
level it changes nothing; otherwise it carves the chunk with the lowest bit. -/
lemma allocateChunkFromLevel_spec (b : BuddyBits) {minLevel : ℕ} (hl : minLevel ≤ buddyLevels) :
    ((∀ c ∈ chunks b, c.level < minLevel) ∧ allocateChunkFromLevel b minLevel = some (none, b)) ∨
      ∃ c ∈ chunks b, minLevel ≤ c.level ∧
        (∀ d ∈ chunks b, minLevel ≤ d.level → c.bit ≤ d.bit) ∧
        ∃ b', allocateChunkFromLevel b minLevel =
            some (some (c.first (c.level - minLevel)).addr, b') ∧
          chunks b' = carve (c.level - minLevel) (chunks b) c := by
  have hoff := levelOffset_le_total hl
  obtain ⟨r, hr⟩ := b.firstOneFrom_isSome hoff
  cases r with
  | none =>
      refine Or.inl ⟨fun c hc => ?_, by simp [allocateChunkFromLevel, levelOffsets_of_le hl, hr]⟩
      have hlt := (BitArr.firstOneFrom_eq_none hoff).mp hr _ (mem_chunks.mp hc).2
      by_contra hge
      have := (fits_of_mem hc).levelOffset_le_bit_iff.mpr (not_lt.mp hge)
      omega
  | some i =>
      obtain ⟨hmem, hmin⟩ := (BitArr.firstOneFrom_eq_some hoff).mp hr
      obtain ⟨c, hc, hbit⟩ := exists_fits_bit (b.lt_of_mem _ hmem)
      rw [← hbit] at hmem hmin
      have hle : minLevel ≤ c.level := hc.levelOffset_le_bit_iff.mp (by omega)
      refine Or.inr ⟨c, mem_chunks.mpr ⟨hc, hmem⟩, hle, fun d hd hdl => ?_, ?_⟩
      · exact hmin _ (mem_chunks.mp hd).2 ((fits_of_mem hd).levelOffset_le_bit_iff.mpr hdl)
      obtain ⟨b₁, b₂, h1, h2, h3⟩ := splitDown_spec (d := c.level - minLevel) b hc
        (show c.level = minLevel + (c.level - minLevel) by omega)
      refine ⟨b₂, ?_, h3⟩
      have haddr : relativeIndexToAddr (c.idx * 2 ^ (c.level - minLevel), minLevel) =
          (c.first (c.level - minLevel)).addr := by
        rw [← Chunk.relativeIndexToAddr_eq, Chunk.first, Nat.sub_sub_self hle]
      rw [allocateChunkFromLevel, levelOffsets_of_le hl]
      simp only [Option.bind_eq_bind, Option.bind_some, hr, Nat.add_comm i, ← hbit,
        hc.absoluteToRelative_bit, h1, h2, haddr, Option.pure_def]

/-! ### `merge_up_from` -/

/-- Clearing bit 0 of a chunk's bit gives the bit of the even member of its
pair, and the odd member has the next one. -/
lemma exists_even_member {c : Chunk} (hc : c.Fits) :
    ∃ e : Chunk, (e = c ∨ e = c.buddy) ∧ c.bit / 2 * 2 = e.bit ∧ e.bit + 1 = e.buddy.bit ∧
      e.idx / 2 = c.idx / 2 ∧ e.level = c.level := by
  have heven := levelOffset_even (l := c.level) (by have := hc.1; rw [buddyLevels] at this; omega)
  rcases Nat.mod_two_eq_zero_or_one c.idx with h | h
  · refine ⟨c, Or.inl rfl, ?_, ?_, rfl, rfl⟩
    · rw [Chunk.bit]; omega
    · rw [Chunk.buddy_of_even h]; simp only [Chunk.bit]; omega
  · refine ⟨c.buddy, Or.inr rfl, ?_, ?_, ?_, rfl⟩
    · rw [Chunk.buddy_of_odd h]; simp only [Chunk.bit]; omega
    · rw [Chunk.buddy_buddy, Chunk.buddy_of_odd h]; simp only [Chunk.bit]; omega
    · rw [Chunk.buddy_of_odd h]; simp only; omega

/-- The merging loop merges. -/
lemma mergeLoop_spec {d : ℕ} : ∀ {c : Chunk} (b : BuddyBits), c.Fits →
    c.level + d = buddyLevels - 1 →
    ∃ b', mergeLoop d c.level c.bit b = some b' ∧ chunks b' = merge d (chunks b) c := by
  induction d with
  | zero => exact fun b _ _ => ⟨b, rfl, rfl⟩
  | succ d ih =>
      intro c b hc hd
      obtain ⟨e, he, hbit, hodd, hidx, hlvl⟩ := exists_even_member hc
      have hefits : e.Fits := by rcases he with rfl | rfl; exacts [hc, hc.buddy]
      -- the pair is the same whichever member the climb came from
      have hpair : (e ∈ chunks b ∧ e.buddy ∈ chunks b) ↔ (c ∈ chunks b ∧ c.buddy ∈ chunks b) := by
        rcases he with rfl | rfl
        · exact Iff.rfl
        · rw [Chunk.buddy_buddy, and_comm]
      have herase : ∀ S : Finset Chunk, (S.erase e).erase e.buddy = (S.erase c).erase c.buddy := by
        intro S
        rcases he with rfl | rfl
        · rfl
        · rw [Chunk.buddy_buddy, Finset.erase_right_comm]
      rw [mergeLoop]
      simp only [hbit, hodd, read_bit b hefits, read_bit b hefits.buddy, Option.bind_eq_bind,
        Option.bind_some]
      rw [merge]
      by_cases h : e ∈ chunks b ∧ e.buddy ∈ chunks b
      · rw [if_pos (hpair.mp h)]
        simp only [h.1, h.2, decide_true, if_true]
        have hparent : c.parent.Fits := hc.parent (by rw [buddyLevels] at hd ⊢; omega)
        obtain ⟨b₁, hb₁, hch₁⟩ := exists_write_false b hefits
        obtain ⟨b₂, hb₂, hch₂⟩ := exists_write_false b₁ hefits.buddy
        obtain ⟨b₃, hb₃, hch₃⟩ := exists_write_true b₂ hparent
        obtain ⟨b₄, hb₄, hch₄⟩ := ih b₃ hparent (by rw [Chunk.parent_level]; omega)
        have hsub : checkedSub e.bit (levelOffset c.level) = some e.idx := by
          rw [checkedSub, Chunk.bit, hlvl, if_pos (Nat.le_add_left _ _), Nat.add_sub_cancel]
        have hpbit : e.idx >>> 1 + levelOffset (c.level + 1) = c.parent.bit := by
          rw [Nat.shiftRight_eq_div_pow, pow_one, hidx]
          rfl
        have hle : c.level + 1 ≤ buddyLevels := hc.1
        refine ⟨b₄, ?_, by rw [hch₄, hch₃, hch₂, hch₁, herase]⟩
        simp only [hb₁, hb₂, Option.bind_some, levelOffsets_of_le (Nat.le_of_succ_le hle),
          levelOffsets_of_le hle, hsub, hpbit, hb₃]
        exact hb₄
      · rw [if_neg (fun h' => h (hpair.mpr h'))]
        refine ⟨b, ?_, rfl⟩
        by_cases he' : e ∈ chunks b
        · have : e.buddy ∉ chunks b := fun h' => h ⟨he', h'⟩
          simp [he', this]
        · simp [he']

/-- **What `merge_up_from` does.** -/
lemma mergeUpFrom_spec (b : BuddyBits) {c : Chunk} (hc : c.Fits) :
    ∃ b', mergeUpFrom b (c.idx, c.level) = some b' ∧
      chunks b' = merge (buddyLevels - 1 - c.level) (chunks b) c := by
  have hlvl := hc.1
  obtain ⟨b', h1, h2⟩ := mergeLoop_spec (d := buddyLevels - 1 - c.level) b hc (by omega)
  refine ⟨b', ?_, h2⟩
  rw [mergeUpFrom, relativeToAbsolute_of_le (Nat.le_of_lt hlvl)]
  exact h1

/-! ### `pick_off_contiguous` -/

lemma highestOne_eq_some {v k : ℕ} : highestOne v = some k ↔ v ≠ 0 ∧ k = Nat.log 2 v := by
  rw [highestOne]
  split_ifs with h
  · simp [h]
  · simp [h, eq_comm]

lemma highestOne_eq_none {v : ℕ} : highestOne v = none ↔ v = 0 := by
  rw [highestOne]
  split_ifs with h <;> simp [h]

lemma lowestOne_two_pow {k : ℕ} (hk : k < 64) : lowestOne (2 ^ k) = some k := by
  rw [lowestOne, List.find?_range_eq_some]
  refine ⟨by simp, List.mem_range.mpr hk, fun j hj => ?_⟩
  simp only [Nat.testBit_two_pow, Bool.not_eq_true', decide_eq_false_iff_not]
  omega

/-- The loop over the bits of the overflow gives the tail below frame
`overboundIndex · 2^overboundLevel` back. -/
lemma giveBack_spec (v i l : ℕ) (b : BuddyBits) : l < buddyLevels → v < 2 ^ (l + 1) →
    v ≤ i * 2 ^ l → i * 2 ^ l ≤ 2 ^ 24 →
    ∃ b', giveBack v i l b = some b' ∧ chunks b' = tile (chunks b) v (i * 2 ^ l) := by
  induction v using Nat.strong_induction_on generalizing i l b with
  | _ v ih =>
      intro hl hlt hle htop
      rw [giveBack, tile]
      by_cases hv : v = 0
      · rw [if_pos hv]
        split
        · exact ⟨b, rfl, rfl⟩
        · next k hk => exact absurd hv (highestOne_eq_some.mp hk).1
      rw [if_neg hv]
      split
      · next hk => exact absurd (highestOne_eq_none.mp hk) hv
      next k hk =>
      obtain ⟨-, rfl⟩ := highestOne_eq_some.mp hk
      set k := Nat.log 2 v with hkdef
      have hlow : 2 ^ k ≤ v := Nat.pow_log_le_self 2 hv
      have hup : v < 2 ^ (k + 1) := Nat.lt_pow_succ_log_self (by norm_num) v
      have hkl : k ≤ l := by
        have := (Nat.pow_lt_pow_iff_right (by norm_num)).mp (lt_of_le_of_lt hlow hlt)
        omega
      have hpos : 0 < 2 ^ k := Nat.two_pow_pos k
      -- the end index, widened to level `k`
      have hwide : i * 2 ^ l = (i * 2 ^ (l - k)) * 2 ^ k := by
        rw [mul_assoc, ← pow_add, Nat.sub_add_cancel hkl]
      have hdiv : i * 2 ^ l / 2 ^ k = i * 2 ^ (l - k) := by
        rw [hwide, Nat.mul_div_cancel _ hpos]
      have hone : 1 ≤ i * 2 ^ (l - k) := by
        rcases Nat.eq_zero_or_pos (i * 2 ^ (l - k)) with h0 | h0
        · rw [hwide, h0] at hle
          omega
        · exact h0
      have hnext : i * 2 ^ l - 2 ^ k = (i * 2 ^ (l - k) - 1) * 2 ^ k := by
        rw [Nat.sub_mul, Nat.one_mul, ← hwide]
      have hfits : (⟨k, i * 2 ^ (l - k) - 1⟩ : Chunk).Fits := by
        rw [Chunk.fits_iff_of_mem (lt_of_le_of_lt hkl hl) (Chunk.start_mem_frames _)]
        simp only [← hnext]
        omega
      obtain ⟨b₁, hb₁, hch₁⟩ := exists_write_true b hfits
      obtain ⟨b₂, hb₂, hch₂⟩ := ih (v - 2 ^ k) (by omega) (i * 2 ^ (l - k) - 1) k b₁
        (lt_of_le_of_lt hkl hl) (by rw [pow_succ] at hup ⊢; omega) (by rw [← hnext]; omega)
        (by rw [← hnext]; omega)
      refine ⟨b₂, ?_, ?_⟩
      · simp only [checkedSub, if_pos hkl, Option.bind_eq_bind, Option.bind_some,
          Nat.shiftLeft_eq, if_pos hone, Nat.one_mul,
          relativeToAbsolute_of_le (Nat.le_of_lt (lt_of_le_of_lt hkl hl))]
        exact hb₁ ▸ hb₂
      · rw [hch₂, hch₁, hdiv, hnext]

/-- When the allocation at the target level fails, every turn of the loop does. -/
lemma firstFit_of_none {b : BuddyBits} {t : ℕ} (h : allocateChunkFromLevel b t = some (none, b)) :
    ∀ levels, firstFit t levels b = some (none, b)
  | [] => rfl
  | level :: rest => by
      rw [firstFit, h]
      exact firstFit_of_none h rest

/-- When it succeeds, the first turn takes it. -/
lemma firstFit_of_some {b b' : BuddyBits} {t a : ℕ}
    (h : allocateChunkFromLevel b t = some (some a, b')) (level : ℕ) (rest : List ℕ) :
    firstFit t (level :: rest) b = some (some (a, level), b') := by
  rw [firstFit, h]
  rfl

lemma levels_reverse {lo hi : ℕ} (h : lo ≤ hi) :
    (List.range' lo (hi + 1 - lo)).reverse = hi :: (List.range' lo (hi - lo)).reverse := by
  rw [show hi + 1 - lo = hi - lo + 1 by omega, List.range'_concat, List.reverse_append]
  simp only [Nat.one_mul, List.reverse_cons, List.reverse_nil, List.nil_append,
    List.singleton_append, List.cons.injEq, and_true]
  omega

/-- **What `pick_off_contiguous` does** for requests of at most `2^16` frames.
With `t` the base-2 logarithm of the request rounded up, it fails without a
trace when the minimum needs a higher level or no chunk of level `t` or above
is free; otherwise it carves such a chunk down to level `t` and gives back all
but the first `n` frames. -/
lemma pickOffContiguous_spec (b : BuddyBits) (hA : Apart (chunks b)) {n m : ℕ} (hn : n ≤ 2 ^ 16)
    (hm : m ≤ 2 ^ 63) :
    ((Nat.clog 2 n < Nat.clog 2 m ∨ ∀ c ∈ chunks b, c.level < Nat.clog 2 n) ∧
        pickOffContiguous b n m = some (none, b)) ∨
      Nat.clog 2 m ≤ Nat.clog 2 n ∧ ∃ c ∈ chunks b, Nat.clog 2 n ≤ c.level ∧
        (∀ d ∈ chunks b, Nat.clog 2 n ≤ d.level → c.bit ≤ d.bit) ∧
        ∃ b', pickOffContiguous b n m =
            some (some ((c.first (c.level - Nat.clog 2 n)).addr, n), b') ∧
          chunks b' = tile (carve (c.level - Nat.clog 2 n) (chunks b) c) (2 ^ Nat.clog 2 n - n)
            (((c.first (c.level - Nat.clog 2 n)).idx + 1) * 2 ^ Nat.clog 2 n) := by
  set t := Nat.clog 2 n with htdef
  have ht : t ≤ buddyLevels := Nat.clog_le_of_le_pow hn
  have hnt : n ≤ 2 ^ t := Nat.le_pow_clog (by norm_num) n
  have hmn : Nat.clog 2 m ≤ 63 := Nat.clog_le_of_le_pow hm
  have hn63 : n ≤ 2 ^ 63 := hn.trans (by norm_num)
  have hlow : lowestOne (2 ^ t) = some t := lowestOne_two_pow (by rw [buddyLevels] at ht; omega)
  -- the level the minimum asks for decides whether the loop has a turn at all
  have hmin : lowestOne (2 ^ Nat.clog 2 m) = some (Nat.clog 2 m) := lowestOne_two_pow (by omega)
  rw [pickOffContiguous, nextPowerOfTwo, nextPowerOfTwo, if_pos hn63, if_pos hm]
  simp only [← htdef, Option.bind_eq_bind, Option.bind_some, hlow, hmin]
  rcases Nat.lt_or_ge t (Nat.clog 2 m) with hlt | hge
  · refine Or.inl ⟨Or.inl hlt, ?_⟩
    rw [show t + 1 - Nat.clog 2 m = 0 by omega]
    rfl
  rcases allocateChunkFromLevel_spec b ht with ⟨hnone, hal⟩ | ⟨c, hc, hcl, hleast, b₁, hal, hch⟩
  · refine Or.inl ⟨Or.inr hnone, ?_⟩
    rw [firstFit_of_none hal]
    rfl
  refine Or.inr ⟨hge, c, hc, hcl, hleast, ?_⟩
  have hcfits := fits_of_mem hc
  have hd : c.level - t ≤ c.level := Nat.sub_le _ _
  obtain ⟨hA₁, hfree₁⟩ := carve_of_mem hA hc hd
  set h := c.first (c.level - t) with hhdef
  have hhl : h.level = t := Nat.sub_sub_self hcl
  have htlt : t < buddyLevels := lt_of_le_of_lt hcl hcfits.1
  have hhfits : h.Fits := hcfits.first hd
  have hend : (h.idx + 1) * 2 ^ t ≤ 2 ^ 24 := hhl ▸ hhfits.end_le
  -- the chunk in hand is no longer in the bitmap: clearing it again changes nothing
  have hnot : h ∉ chunks b₁ := by
    intro hmem
    have hsub := frames_subset_free hmem h.start_mem_frames
    rw [hch, hfree₁] at hsub
    exact (Finset.mem_sdiff.mp hsub).2 h.start_mem_frames
  obtain ⟨b₂, hb₂, hch₂⟩ := exists_write_false b₁ hhfits
  rw [Finset.erase_eq_of_notMem hnot] at hch₂
  obtain ⟨b₃, hb₃, hch₃⟩ := giveBack_spec (2 ^ t - n) (h.idx + 1) t b₂ htlt
    (by rw [pow_succ]; have := Nat.two_pow_pos t; omega)
    (by rw [Nat.add_mul, Nat.one_mul]; omega) hend
  refine ⟨b₃, ?_, by rw [hch₃, hch₂, hch]⟩
  have hrel : addrToRelativeIndex h.addr t = h.idx := hhl ▸ h.addrToRelativeIndex_addr
  have hbit : h.idx + levelOffset t = h.bit := by rw [Chunk.bit, hhl]
  rw [levels_reverse hge, firstFit_of_some hal]
  simp only [settlePick, Option.bind_eq_bind, Option.bind_some, hrel,
    relativeToAbsolute_of_le (Nat.le_of_lt htlt), hbit, hb₂, Nat.one_shiftLeft, hb₃,
    Nat.min_eq_right hnt, Option.pure_def]

end Titanium
