import Titanium.Paging.Mapall

/-!
The exact effects of the allocator's calls on the bitmap.

* `allocate_chunk_exact`: which chunk `allocate_chunk_from_level` splits, and
  every bit it writes.
* `pick_exact`: a contiguous pick that succeeds takes exactly the frames it
  reports; one that fails writes nothing.
* `deallocate_2MiB_iff`: freeing a 2 MiB frame frees one 4 KiB frame, another one.
* `bitmap_canonical`: merged bitmaps are determined by their free frames, so that
  frees commute and undo allocations bit for bit.
-/

namespace Titanium

/-! ### Bits -/

/-- The bit with relative index `i` at level `l` is set. -/
def isSet (b : BuddyBits) (i l : ℕ) : Prop := ∃ p ∈ b.ones, absoluteToRelative p = some (i, l)

lemma isSet_iff {b : BuddyBits} {i l : ℕ} : isSet b i l ↔ (⟨l, i⟩ : Chunk) ∈ chunks b := by
  rw [mem_chunks]
  constructor
  · rintro ⟨p, hp, hrel⟩
    obtain ⟨c, hc, rfl⟩ := exists_fits_bit (b.lt_of_mem p hp)
    rw [hc.absoluteToRelative_bit, Option.some.injEq, Prod.mk.injEq] at hrel
    obtain ⟨rfl, rfl⟩ := hrel
    exact ⟨hc, hp⟩
  · rintro ⟨hc, hp⟩
    exact ⟨_, hp, hc.absoluteToRelative_bit⟩

/-! ### `allocate_chunk_from_level` -/

/-- The chunk with the lowest bit at or above a level is the first of the lowest
level that has one. -/
lemma eq_of_least {b : BuddyBits} {c : Chunk} {minLevel L j : ℕ} (hc : c ∈ chunks b)
    (hcl : minLevel ≤ c.level) (hleast : ∀ d ∈ chunks b, minLevel ≤ d.level → c.bit ≤ d.bit)
    (hL : minLevel ≤ L) (hset : isSet b j L)
    (hlower : ∀ l i, minLevel ≤ l → l < L → ¬ isSet b i l) (hfirst : ∀ i < j, ¬ isSet b i L) :
    c = ⟨L, j⟩ := by
  rw [isSet_iff] at hset
  have hle := hleast ⟨L, j⟩ hset hL
  have hlevel : c.level = L := by
    refine le_antisymm ?_ ?_
    · have hoff : (⟨L, j⟩ : Chunk).bit < levelOffset (L + 1) :=
        (fits_of_mem hset).bit_lt_levelOffset
      by_contra hlt
      have := (fits_of_mem hc).levelOffset_le_bit_iff.mpr (show L + 1 ≤ c.level by omega)
      omega
    · by_contra hlt
      exact hlower c.level c.idx hcl (not_le.mp hlt) (isSet_iff.mpr hc)
  refine Chunk.ext hlevel (le_antisymm ?_ ?_)
  · rw [Chunk.bit, Chunk.bit, hlevel] at hle
    exact Nat.le_of_add_le_add_right hle
  · by_contra hlt
    exact hfirst c.idx (not_le.mp hlt) (isSet_iff.mpr (hlevel ▸ hc))

/-- The bits after a chunk has been carved. -/
lemma isSet_carve_iff {b b' : BuddyBits} (hA : Apart (chunks b)) {c : Chunk} (hc : c ∈ chunks b)
    {minLevel : ℕ} (hl : minLevel ≤ c.level)
    (hch : chunks b' = carve (c.level - minLevel) (chunks b) c) (i l : ℕ) :
    isSet b' i l ↔ isSet b i l ∧ (i, l) ≠ (c.idx, c.level) ∨
      minLevel ≤ l ∧ l < c.level ∧ i = c.idx <<< (c.level - l) + 1 := by
  have hdis : Disjoint c.frames (free ((chunks b).erase c)) :=
    free_erase hA hc ▸ Finset.disjoint_sdiff
  rw [isSet_iff, hch, mem_carve_iff (Nat.sub_le _ _) hdis, Finset.mem_erase, isSet_iff,
    and_comm]
  refine or_congr (and_congr_right fun _ => ?_) ?_
  · rw [ne_eq, ne_eq, Chunk.ext_iff, Prod.mk.injEq, and_comm]
  · simp only [Chunk.ext_iff, Nat.shiftLeft_eq]
    constructor
    · rintro ⟨k, hk, rfl, rfl⟩
      rw [show c.level - (c.level - (k + 1)) = k + 1 by omega]
      exact ⟨by omega, by omega, rfl⟩
    · rintro ⟨h1, h2, rfl⟩
      refine ⟨c.level - l - 1, by omega, by omega, ?_⟩
      rw [show c.level - l - 1 + 1 = c.level - l by omega]

lemma Chunk.addr_first {c : Chunk} {l : ℕ} (hl : l ≤ c.level) :
    (c.first (c.level - l)).addr = c.idx <<< c.level * pageSize := by
  rw [Chunk.addr, Chunk.first, Nat.sub_sub_self hl, mul_assoc c.idx, ← pow_add,
    Nat.sub_add_cancel hl, Nat.shiftLeft_eq]

/-- **What `allocate_chunk_from_level` does, bit by bit.**  It returns a chunk
exactly when a bit at or above the level is set, and changes nothing otherwise.
With `L` the lowest level at or above `min_level` that has a set bit and `j` the
first index there, it returns the address of frame `j << L`, clears the bit
`(j, L)`, and sets the bit of one upper half on every level passed. -/
theorem allocate_chunk_exact (b : BuddyBits) (hA : Apart (chunks b)) (minLevel : ℕ)
    (hl : minLevel < buddyLevels) :
    ((∃ addr b', allocateChunkFromLevel b minLevel = some (some addr, b')) ↔
        ∃ l i, minLevel ≤ l ∧ isSet b i l) ∧
      ((¬∃ l i, minLevel ≤ l ∧ isSet b i l) →
        allocateChunkFromLevel b minLevel = some (none, b)) ∧
      ∀ L j, minLevel ≤ L → isSet b j L → (∀ l i, minLevel ≤ l → l < L → ¬ isSet b i l) →
        (∀ i < j, ¬ isSet b i L) →
        2 ^ minLevel ∣ j <<< L ∧
          ∃ b', allocateChunkFromLevel b minLevel = some (some (j <<< L * pageSize), b') ∧
            ∀ i l, isSet b' i l ↔ isSet b i l ∧ (i, l) ≠ (j, L) ∨
              minLevel ≤ l ∧ l < L ∧ i = j <<< (L - l) + 1 := by
  rcases allocateChunkFromLevel_spec b (Nat.le_of_lt hl) with
    ⟨hnone, hal⟩ | ⟨c, hc, hcl, hleast, b', hal, hch⟩
  · have hno : ¬∃ l i, minLevel ≤ l ∧ isSet b i l := by
      rintro ⟨l, i, hle, hset⟩
      exact absurd (hnone _ (isSet_iff.mp hset)) (not_lt.mpr hle)
    refine ⟨⟨?_, fun h => absurd h hno⟩, fun _ => hal, fun L j hL hset _ _ =>
      absurd ⟨L, j, hL, hset⟩ hno⟩
    rintro ⟨addr, b', h⟩
    rw [hal] at h
    simp at h
  · have hset : isSet b c.idx c.level := isSet_iff.mpr hc
    refine ⟨⟨fun _ => ⟨c.level, c.idx, hcl, hset⟩, fun _ => ⟨_, b', hal⟩⟩,
      fun h => absurd ⟨c.level, c.idx, hcl, hset⟩ h, fun L j hL hj hlower hfirst => ?_⟩
    obtain rfl := eq_of_least hc hcl hleast hL hj hlower hfirst
    refine ⟨?_, b', by rw [hal, Chunk.addr_first hL], isSet_carve_iff hA hc hL hch⟩
    rw [Nat.shiftLeft_eq]
    exact Dvd.dvd.mul_left (pow_dvd_pow 2 hL) j

/-- From `onePair`, a single frame splits the chunk of level 1. -/
theorem allocate_chunk_exact_onePair :
    ∃ b', allocateChunkFromLevel onePair 0 = some (some 0, b') ∧
      (isSet b' 1 0 ↔ isSet onePair 1 0 ∧ (1, 0) ≠ (0, 1) ∨ 0 ≤ 0 ∧ 0 < 1 ∧ 1 = 0 <<< 1 + 1) := by
  have hset : ∀ i l, isSet onePair i l ↔ l = 1 ∧ i = 0 := fun i l => by
    rw [isSet_iff, chunks_onePair, Finset.mem_singleton, Chunk.mk.injEq]
  obtain ⟨-, b', hal, hbits⟩ := (allocate_chunk_exact onePair apart_onePair 0
    (by decide)).2.2 1 0 (Nat.zero_le 1) ((hset 0 1).mpr ⟨rfl, rfl⟩)
    (fun l i _ hlt hs => by have := ((hset i l).mp hs).1; omega) (fun i hi => absurd hi (by omega))
  exact ⟨b', hal, hbits 1 0⟩

/-! ### `pick_off_contiguous` -/

/-- The first frame of a pick is a multiple of the request rounded up. -/
lemma pickOffContiguous_aligned {b b' : BuddyBits} (hA : Apart (chunks b)) {n m addr k : ℕ}
    (hn : n ≤ 2 ^ 16) (hm : m ≤ 2 ^ 63)
    (h : pickOffContiguous b n m = some (some (addr, k), b')) :
    pageSize * 2 ^ Nat.clog 2 n ∣ addr := by
  cases pickOffContiguous_spec b hA hn hm with
  | inl hnone => simp [h] at hnone
  | inr hsome =>
      obtain ⟨-, c, -, hcl, -, b₁, hp, -⟩ := hsome
      rw [h, Option.some.injEq, Prod.mk.injEq, Option.some.injEq, Prod.mk.injEq] at hp
      rw [hp.1.1, Chunk.addr, show (c.first _).level = Nat.clog 2 n from Nat.sub_sub_self hcl,
        mul_comm]
      exact mul_dvd_mul_right (dvd_mul_left _ _) _

/-- `2 ^ clog n` is the least power of two at or above `max n 1`. -/
lemma isLeast_two_pow_clog (n : ℕ) :
    IsLeast {p | (∃ e, p = 2 ^ e) ∧ max n 1 ≤ p} (2 ^ Nat.clog 2 n) := by
  refine ⟨⟨⟨_, rfl⟩, max_le (Nat.le_pow_clog (by norm_num) n) (Nat.two_pow_pos _)⟩, ?_⟩
  rintro _ ⟨⟨e, rfl⟩, hle⟩
  exact Nat.pow_le_pow_right (by norm_num)
    ((Nat.clog_le_iff_le_pow (by norm_num)).mpr ((le_max_left n 1).trans hle))

/-- **A contiguous pick removes exactly what it reports.**  A request for up to
`2^15` frames returns, for every unit that has a power of two above it in 64
bits.  A success reports all frames asked for, aligned to the request rounded up
to a power of two; they were free, and they are all that is no longer free.  A
failure leaves the bitmap as it was. -/
theorem pick_exact (b : BuddyBits) (hA : Apart (chunks b)) (n m : ℕ) (hn : n ≤ 2 ^ 15) :
    (m ≤ 2 ^ 63 → (pickOffContiguous b n m).isSome) ∧
      (∀ b', pickOffContiguous b n m = some (none, b') → b' = b) ∧
      ∀ addr k b', pickOffContiguous b n m = some (some (addr, k), b') →
        k = n ∧
        (∃ p, IsLeast {p | (∃ e, p = 2 ^ e) ∧ max n 1 ≤ p} p ∧ pageSize * p ∣ addr) ∧
        (∀ f, addr ≤ f * pageSize → f * pageSize < addr + k * pageSize → f ∈ freeFrames b) ∧
        (∀ f, f ∈ freeFrames b' ↔
          f ∈ freeFrames b ∧ ¬(addr ≤ f * pageSize ∧ f * pageSize < addr + k * pageSize)) ∧
        Apart (chunks b') := by
  have hn16 : n ≤ 2 ^ 16 := hn.trans (by norm_num)
  have hbound {x} (h : (Request.pickOffContiguous n m).serve b = some x) : m ≤ 2 ^ 63 :=
    Request.inBounds_of_serve h
  refine ⟨fun hm => ?_, fun b' h => (pickOffContiguous_none hA (hbound h) h).1,
    fun addr k b' h => ?_⟩
  · obtain ⟨r, b', hp, -⟩ := pickOffContiguous_takes hA hn16 hm
    rw [hp, Option.isSome_some]
  · obtain ⟨rfl, a, rfl, hT⟩ := pickOffContiguous_some hA (hbound h) h
    have hmem (f : ℕ) : f ∈ Finset.Ico a (a + k) ↔
        a * pageSize ≤ f * pageSize ∧ f * pageSize < a * pageSize + k * pageSize := by
      rw [Finset.mem_Ico, ← add_mul, Nat.mul_le_mul_right_iff (by norm_num [pageSize]),
        Nat.mul_lt_mul_right (by norm_num [pageSize])]
    refine ⟨rfl, ⟨_, isLeast_two_pow_clog k, pickOffContiguous_aligned hA hn16 (hbound h) h⟩,
      fun f hle hlt => hT.subset ((hmem f).mpr ⟨hle, hlt⟩), fun f => ?_, hT.apart⟩
    rw [hT.free_eq, Finset.mem_sdiff, hmem]

/-- Three of the four frames of `oneQuad` are picked, and the last one stays. -/
theorem pick_exact_oneQuad :
    ∃ b', pickOffContiguous oneQuad 3 1 = some (some (0, 3), b') ∧
      (3 ∈ freeFrames b' ↔ 3 ∈ freeFrames oneQuad ∧ ¬(0 ≤ 3 * pageSize ∧
        3 * pageSize < 0 + 3 * pageSize)) := by
  have hp : pickOffContiguous oneQuad 3 1 = some (some (0, 3), ⟨{3}, by decide⟩) := by
    decide +kernel
  exact ⟨_, hp, ((pick_exact oneQuad apart_oneQuad 3 1 (by norm_num)).2.2 0 3 _ hp).2.2.2.1 3⟩

/-! ### `deallocate_frame::<Size2MiB>` -/

lemma deallocateFrame2MiB_eq {b b₁ b₂ : BuddyBits} {frame i : ℕ}
    (hidx : i = addrToRelativeIndex frame level2MiB) (hset : b.write i true = some b₁)
    (hmerge : mergeUpFrom b₁ (i, level2MiB) = some b₂) :
    deallocateFrame2MiB b frame = some b₂ := by
  subst hidx
  exact Option.bind_eq_some_iff.mpr ⟨b₁, hset, hmerge⟩

/-- The relative index of a 2 MiB frame is written as an absolute one: the bit that
is set belongs to the 4 KiB frame of that number, and nothing is merged. -/
lemma deallocateFrame2MiB_effect (b : BuddyBits) {i : ℕ} (hi : i < 2 ^ 15)
    (hnot : (⟨level2MiB, i⟩ : Chunk) ∉ chunks b) :
    ∃ b', deallocateFrame2MiB b (⟨level2MiB, i⟩ : Chunk).addr = some b' ∧
      chunks b' = insert ⟨0, i⟩ (chunks b) := by
  have hmem : i ∈ (⟨0, i⟩ : Chunk).frames := by simp
  have hfits : (⟨0, i⟩ : Chunk).Fits :=
    (Chunk.fits_iff_of_mem (show 0 < buddyLevels by decide) hmem).mpr (by omega)
  have hfits' : (⟨level2MiB, i⟩ : Chunk).Fits := by
    refine Chunk.fits_iff.mpr ⟨show level2MiB < buddyLevels by decide, ?_⟩
    norm_num [level2MiB]
    omega
  obtain ⟨b₁, hb₁, hch₁⟩ := exists_write_true b hfits
  obtain ⟨b₂, hb₂, hch₂⟩ := mergeUpFrom_spec b₁ hfits'
  have hnot₁ : ¬((⟨level2MiB, i⟩ : Chunk) ∈ chunks b₁ ∧
      (⟨level2MiB, i⟩ : Chunk).buddy ∈ chunks b₁) := by
    rw [hch₁, Finset.mem_insert]
    rintro ⟨heq | hmem, -⟩
    · norm_num [level2MiB] at heq
    · exact hnot hmem
  refine ⟨b₂, deallocateFrame2MiB_eq (Chunk.addrToRelativeIndex_addr ⟨level2MiB, i⟩).symm hb₁ hb₂,
    ?_⟩
  rw [hch₂, show buddyLevels - 1 - (⟨level2MiB, i⟩ : Chunk).level = 5 + 1 from rfl, merge,
    if_neg hnot₁, hch₁]

lemma freeFrames_insert_frame {b b' : BuddyBits} {i : ℕ}
    (hch : chunks b' = insert ⟨0, i⟩ (chunks b)) : freeFrames b' = insert i (freeFrames b) := by
  have hframes : (⟨0, i⟩ : Chunk).frames = {i} := by
    ext f
    simp
  rw [freeFrames, hch, free_insert, hframes, freeFrames, Finset.insert_eq]

lemma insert_eq_union_iff {i : ℕ} {F S : Finset ℕ} : insert i S = S ∪ F ↔ F \ S = {i} \ S := by
  simp only [Finset.ext_iff, Finset.mem_insert, Finset.mem_union, Finset.mem_sdiff,
    Finset.mem_singleton]
  refine forall_congr' fun f => ?_
  tauto

/-- Of the 512 frames of a 2 MiB frame, one is not enough. -/
lemma insert_ne_union {i : ℕ} {F S : Finset ℕ} (hcard : F.card = 512) (hdis : Disjoint F S) :
    insert i S ≠ S ∪ F := by
  rw [ne_eq, insert_eq_union_iff, Finset.sdiff_eq_self_of_disjoint hdis]
  intro heq
  have hle := Finset.card_le_card (heq.le.trans Finset.sdiff_subset)
  rw [hcard, Finset.card_singleton] at hle
  omega

/-- What `allocate_frame::<Size2MiB>` hands out. -/
lemma allocateFrame2MiB_some {b b' : BuddyBits} (hA : Apart (chunks b)) {addr : ℕ}
    (h : allocateFrame2MiB b = some (some addr, b')) :
    ∃ i < 2 ^ 15, addr = (⟨level2MiB, i⟩ : Chunk).addr ∧
      Takes b (⟨level2MiB, i⟩ : Chunk).frames b' := by
  rcases allocateChunkFromLevel_spec b (show level2MiB ≤ buddyLevels by decide) with
    ⟨-, hal⟩ | ⟨c, hc, hcl, -, b₁, hal, -⟩
  · rw [allocateFrame2MiB, hal] at h
    simp at h
  · obtain ⟨r, b₂, hal', hT, -⟩ := allocateChunkFromLevel_takes hA level2MiB (by decide)
    rw [allocateFrame2MiB] at h
    rw [hal, Option.some.injEq, Prod.mk.injEq, Option.some.injEq] at h
    obtain ⟨rfl, rfl⟩ := h
    rw [hal, Option.some.injEq, Prod.mk.injEq] at hal'
    obtain ⟨rfl, rfl⟩ := hal'
    have hfirst : c.first (c.level - level2MiB) =
        ⟨level2MiB, (c.first (c.level - level2MiB)).idx⟩ :=
      Chunk.ext (Nat.sub_sub_self hcl) rfl
    have hfits := (fits_of_mem hc).first (Nat.sub_le c.level level2MiB)
    rw [hfirst] at hfits hT
    refine ⟨(c.first (c.level - level2MiB)).idx, ?_, by rw [← hfirst], ?_⟩
    · have hidx := (Chunk.fits_iff.mp hfits).2
      norm_num [level2MiB] at hidx ⊢
      omega
    · rwa [Option.map_some, show 2 ^ level2MiB = 2 ^ (⟨level2MiB, _⟩ : Chunk).level from rfl,
        handedOut_chunk] at hT

/-- **What freeing a 2 MiB frame does.**  With `i` the number of the 2 MiB frame, the
4 KiB frame of number `i` becomes free and nothing else changes.

* The free frames are the old ones and the 512 frames given back exactly when the
  4 KiB frame of number `i` is all that was not free of the 512, and of itself;
* this is never so when none of the 512 frames was free;
* so taking a 2 MiB frame and giving it back never restores the free frames. -/
theorem deallocate_2MiB_iff (b : BuddyBits) (hA : Apart (chunks b)) :
    (∀ i < 2 ^ 15, (⟨level2MiB, i⟩ : Chunk) ∉ chunks b →
      ∃ b', deallocateFrame2MiB b (⟨level2MiB, i⟩ : Chunk).addr = some b' ∧
        freeFrames b' = insert i (freeFrames b) ∧
        (freeFrames b' = freeFrames b ∪ (⟨level2MiB, i⟩ : Chunk).frames ↔
          (⟨level2MiB, i⟩ : Chunk).frames \ freeFrames b = {i} \ freeFrames b) ∧
        (Disjoint (⟨level2MiB, i⟩ : Chunk).frames (freeFrames b) →
          freeFrames b' ≠ freeFrames b ∪ (⟨level2MiB, i⟩ : Chunk).frames)) ∧
    ∀ addr b₁, allocateFrame2MiB b = some (some addr, b₁) →
      ∃ b₂, deallocateFrame2MiB b₁ addr = some b₂ ∧ freeFrames b₂ ≠ freeFrames b := by
  refine ⟨fun i hi hnot => ?_, fun addr b₁ hal => ?_⟩
  · obtain ⟨b', hde, hch⟩ := deallocateFrame2MiB_effect b hi hnot
    have hfree := freeFrames_insert_frame hch
    refine ⟨b', hde, hfree, ?_⟩
    rw [hfree]
    exact ⟨insert_eq_union_iff, insert_ne_union (Chunk.card_frames _)⟩
  · obtain ⟨i, hi, rfl, hT⟩ := allocateFrame2MiB_some hA hal
    have hdis : Disjoint (⟨level2MiB, i⟩ : Chunk).frames (freeFrames b₁) :=
      hT.free_eq ▸ Finset.disjoint_sdiff
    have hnot : (⟨level2MiB, i⟩ : Chunk) ∉ chunks b₁ := fun hmem =>
      (Chunk.frames_nonempty _).ne_empty
        (Finset.disjoint_self_iff_empty _ |>.mp (hdis.mono_right (frames_subset_free hmem)))
    obtain ⟨b₂, hde, hch⟩ := deallocateFrame2MiB_effect b₁ hi hnot
    refine ⟨b₂, hde, ?_⟩
    rw [freeFrames_insert_frame hch, ← Finset.sdiff_union_of_subset hT.subset, ← hT.free_eq]
    exact insert_ne_union (Chunk.card_frames _) hdis

/-- The first 2 MiB frame, free. -/
def one2MiB : BuddyBits := ⟨{33488896}, by decide⟩

/-- The frame of `one2MiB` is taken and given back; and its neighbour is given back. -/
theorem deallocate_2MiB_one2MiB :
    (∃ b₂, deallocateFrame2MiB (BitArr.zeroed _) 0 = some b₂ ∧
      freeFrames b₂ ≠ freeFrames one2MiB) ∧
    ∃ b', deallocateFrame2MiB one2MiB (⟨level2MiB, 1⟩ : Chunk).addr = some b' ∧
      freeFrames b' = insert 1 (freeFrames one2MiB) := by
  have hchunks : chunks one2MiB = {⟨9, 0⟩} := by decide +kernel
  have hA : Apart (chunks one2MiB) := hchunks ▸ apart_singleton _
  have hal : allocateFrame2MiB one2MiB = some (some 0, BitArr.zeroed _) := by decide +kernel
  obtain ⟨h₁, h₂⟩ := deallocate_2MiB_iff one2MiB hA
  obtain ⟨b', hde, hfree, -⟩ := h₁ 1 (by norm_num) (by rw [hchunks]; decide)
  exact ⟨h₂ 0 _ hal, b', hde, hfree⟩

/-- Nothing is free, and the 2 MiB frame at `0x20_0000` is given back: the frame 1
becomes free, and none of the frames 512 to 1023. -/
theorem deallocate_2MiB_loses :
    ∃ b', deallocateFrame2MiB (BitArr.zeroed _) 0x200000 = some b' ∧ freeFrames b' = {1} ∧
      512 ∉ freeFrames b' :=
  ⟨⟨{1}, by decide⟩, by decide +kernel, by decide +kernel, by decide +kernel⟩

/-! ### The bitmap is a canonical form -/

/-- Two merged bitmaps with the same free frames are equal. -/
lemma eq_of_freeFrames_eq {b b' : BuddyBits} (hA : Apart (chunks b)) (hA' : Apart (chunks b'))
    (hM : Merged topLevel (chunks b)) (hM' : Merged topLevel (chunks b'))
    (h : freeFrames b = freeFrames b') : b = b' := by
  have hlevel (b : BuddyBits) : ∀ c ∈ chunks b, c.level ≤ topLevel := fun c hc =>
    Nat.le_sub_one_of_lt (fits_of_mem hc).1
  exact chunks_injective (Merged.eq_of_free_eq hA hA' hM hM' (hlevel b) (hlevel b') h)

/-- A frame of 4 KiB that was handed out. -/
lemma allocateFrame4KiB_some {b b' : BuddyBits} (hA : Apart (chunks b)) {addr : ℕ}
    (h : allocateFrame4KiB b = some (some addr, b')) :
    ∃ f, addr = f * pageSize ∧ Takes b {f} b' ∧
      (Merged topLevel (chunks b) → Merged topLevel (chunks b')) := by
  obtain ⟨r, b₁, hal, hT, hM⟩ := allocateChunkFromLevel_takes hA 0 (Nat.zero_le _)
  rcases allocateChunkFromLevel_spec b (Nat.zero_le buddyLevels) with
    ⟨-, hal'⟩ | ⟨c, hc, -, -, b₂, hal', -⟩
  · rw [allocateFrame4KiB, hal'] at h
    simp at h
  · rw [hal', Option.some.injEq, Prod.mk.injEq] at hal
    obtain ⟨rfl, rfl⟩ := hal
    rw [allocateFrame4KiB, hal', Option.some.injEq, Prod.mk.injEq, Option.some.injEq] at h
    obtain ⟨rfl, rfl⟩ := h
    have haddr := Chunk.addr_first (Nat.zero_le c.level)
    refine ⟨c.idx <<< c.level, haddr, ?_, hM⟩
    have hrange : handedOut (some ((c.first (c.level - 0)).addr, 2 ^ 0)) =
        {c.idx <<< c.level} := by
      rw [haddr, handedOut, Nat.mul_div_cancel _ (by norm_num [pageSize]), pow_zero,
        Nat.Ico_succ_singleton]
    rwa [Option.map_some, hrange] at hT

/-- Freeing frames one by one, in the order of the list. -/
def deallocateAll (b : BuddyBits) (frames : List ℕ) : Option BuddyBits :=
  frames.foldlM (fun b f => deallocateFrame4KiB b (f * pageSize)) b

/-- **The run of frees**: every frame becomes free, and the bitmap stays merged. -/
lemma deallocateAll_spec {frames : List ℕ} (hnodup : frames.Nodup) :
    ∀ {b : BuddyBits}, Apart (chunks b) → Merged topLevel (chunks b) →
      (∀ f ∈ frames, f < 2 ^ 24 ∧ f ∉ freeFrames b) →
      ∃ b', deallocateAll b frames = some b' ∧ Apart (chunks b') ∧
        Merged topLevel (chunks b') ∧ freeFrames b' = freeFrames b ∪ frames.toFinset := by
  induction frames with
  | nil => exact fun {b} hA hM _ => ⟨b, rfl, hA, hM, by simp⟩
  | cons f rest ih =>
      intro b hA hM hfresh
      obtain ⟨hf, hrest⟩ := List.nodup_cons.mp hnodup
      obtain ⟨hlt, hnot⟩ := hfresh f List.mem_cons_self
      obtain ⟨b₁, hde, hA₁, hfree₁, hM₁⟩ := deallocateFrame4KiB_gives hA hnot hlt
      obtain ⟨b', hall, hA', hM', hfree⟩ := ih hrest hA₁ (hM₁ hM) fun g hg => by
        refine ⟨(hfresh g (List.mem_cons_of_mem f hg)).1, ?_⟩
        rw [hfree₁, Finset.mem_insert, not_or]
        exact ⟨fun heq => hf (heq ▸ hg), (hfresh g (List.mem_cons_of_mem f hg)).2⟩
      refine ⟨b', ?_, hA', hM', ?_⟩
      · rw [deallocateAll, List.foldlM_cons, hde]
        exact hall
      · rw [hfree, hfree₁, List.toFinset_cons, Finset.insert_union, Finset.union_insert]

/-- **The bitmap is a canonical form.**  Among the bitmaps of disjoint chunks without a
pair of free buddies below the top level, the free frames determine the bitmap.  Hence
a frame of 4 KiB that is taken and given back restores it bit for bit, and frames that
are not free can be given back in any order with the same result. -/
theorem bitmap_canonical (b : BuddyBits) (hA : Apart (chunks b))
    (hM : Merged topLevel (chunks b)) :
    (∀ b', Apart (chunks b') → Merged topLevel (chunks b') → freeFrames b = freeFrames b' →
        b = b') ∧
      (∀ addr b', allocateFrame4KiB b = some (some addr, b') →
        deallocateFrame4KiB b' addr = some b) ∧
      ∀ frames : List ℕ, frames.Nodup → (∀ f ∈ frames, f < 2 ^ 24 ∧ f ∉ freeFrames b) →
        ∃ b', ∀ frames', frames'.Perm frames → deallocateAll b frames' = some b' := by
  refine ⟨fun b' hA' hM' => eq_of_freeFrames_eq hA hA' hM hM', fun addr b' hal => ?_,
    fun frames hnodup hfresh => ?_⟩
  · obtain ⟨f, rfl, hT, hM'⟩ := allocateFrame4KiB_some hA hal
    have hf : f ∈ freeFrames b := hT.subset (Finset.mem_singleton_self f)
    have hnot : f ∉ freeFrames b' := by
      rw [hT.free_eq, Finset.mem_sdiff, Finset.mem_singleton]
      exact fun h => h.2 rfl
    obtain ⟨b₂, hde, hA₂, hfree, hM₂⟩ := deallocateFrame4KiB_gives hT.apart hnot
      (lt_of_mem_freeFrames hf)
    have hback : freeFrames b₂ = freeFrames b := by
      rw [hfree, hT.free_eq, Finset.sdiff_singleton_eq_erase, Finset.insert_erase hf]
    rw [hde, eq_of_freeFrames_eq hA₂ hA (hM₂ (hM' hM)) hM hback]
  · obtain ⟨b', -, hA', hM', hfree⟩ := deallocateAll_spec hnodup hA hM hfresh
    refine ⟨b', fun frames' hperm => ?_⟩
    obtain ⟨b₂, hall, hA₂, hM₂, hfree₂⟩ := deallocateAll_spec (hperm.nodup_iff.mpr hnodup) hA hM
      fun f hf => hfresh f (hperm.mem_iff.mp hf)
    rw [hall, eq_of_freeFrames_eq hA₂ hA' hM₂ hM' ?_]
    rw [hfree₂, hfree, List.toFinset_eq_of_perm _ _ hperm]

/-- On `onePair`: a frame is taken and given back, and the frames 2 and 3 are freed in
both orders. -/
theorem bitmap_canonical_onePair :
    deallocateFrame4KiB oneFrame 0 = some onePair ∧
      ∃ b', deallocateAll onePair [2, 3] = some b' ∧ deallocateAll onePair [3, 2] = some b' := by
  have hM : Merged topLevel (chunks onePair) := by
    rw [chunks_onePair]
    exact fun c hc _ => by
      rw [Finset.mem_singleton] at hc
      subst hc
      decide
  have hal : allocateFrame4KiB onePair = some (some 0, oneFrame) := by decide +kernel
  obtain ⟨-, h₁, h₂⟩ := bitmap_canonical onePair apart_onePair hM
  obtain ⟨b', hall⟩ := h₂ [2, 3] (by decide) (by decide +kernel)
  exact ⟨h₁ 0 oneFrame hal, b', hall _ (List.Perm.refl _), hall _ (List.Perm.swap 2 3 [])⟩

end Titanium
