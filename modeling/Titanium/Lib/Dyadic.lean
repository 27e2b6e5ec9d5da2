import Mathlib.Tactic
import Mathlib.Order.Interval.Finset.Nat
import Mathlib.Data.Finset.Union

/-!
Dyadic chunks and sets of them.

A chunk of level `l` and index `i` stands for the `2^l` numbers
`[i·2^l, (i+1)·2^l)`.  A buddy system keeps a finite set of chunks; what it
means is the set of numbers its chunks cover.

* **One chunk.**  `mem_frames`: a number lies in a chunk exactly when its
  quotient by `2^l` is the index.  Of two chunks that meet, the lower one lies
  in the other (`frames_subset_of_mem`), and a chunk is the disjoint union of
  its two halves (`frames_eq_halves`).
* **Sets of chunks.**  `Apart` is pairwise disjointness, `free` the covered
  set.  `Apart.insert`, `Apart.erase`, `free_insert`, `free_erase` say what
  adding and removing a chunk does to both.
* **Maximal merging.**  `Merged top S`: no two buddies below level `top` are
  both in `S`.  `Merged.exists_superset` is the reason merging matters: every
  chunk made of covered numbers lies inside one chunk of the set.  Hence a merged
  set is determined by what it covers (`Merged.eq_of_free_eq`).
-/

namespace Titanium

/-- A chunk of `2^level` numbers starting at `idx * 2^level`. -/
@[ext] structure Chunk where
  level : ℕ
  idx : ℕ
  deriving DecidableEq, Repr

namespace Chunk

/-! ### One chunk -/

/-- The numbers a chunk stands for. -/
def frames (c : Chunk) : Finset ℕ :=
  Finset.Ico (c.idx * 2 ^ c.level) ((c.idx + 1) * 2 ^ c.level)

@[simp] lemma mem_frames {c : Chunk} {f : ℕ} : f ∈ c.frames ↔ f / 2 ^ c.level = c.idx := by
  have hpos : 0 < 2 ^ c.level := Nat.two_pow_pos _
  rw [frames, Finset.mem_Ico, Nat.div_eq_iff hpos]
  have h1 : (c.idx + 1) * 2 ^ c.level = c.idx * 2 ^ c.level + 2 ^ c.level := by ring
  rw [h1]
  omega

@[simp] lemma card_frames (c : Chunk) : c.frames.card = 2 ^ c.level := by
  rw [frames, Nat.card_Ico, Nat.add_mul, Nat.one_mul, Nat.add_sub_cancel_left]

/-- The first number of a chunk. -/
lemma start_mem_frames (c : Chunk) : c.idx * 2 ^ c.level ∈ c.frames := by
  rw [mem_frames, Nat.mul_div_cancel _ (Nat.two_pow_pos _)]

lemma frames_nonempty (c : Chunk) : c.frames.Nonempty := ⟨_, c.start_mem_frames⟩

/-- A chunk is determined by its level and any of its numbers. -/
lemma eq_of_mem {c d : Chunk} {f : ℕ} (hl : c.level = d.level) (hc : f ∈ c.frames)
    (hd : f ∈ d.frames) : c = d := by
  rw [mem_frames] at hc hd
  exact Chunk.ext hl (by rw [← hc, ← hd, hl])

/-- Two chunks that share a number are nested, the one of lower level inside. -/
lemma frames_subset_of_mem {c d : Chunk} {f : ℕ} (hl : c.level ≤ d.level) (hc : f ∈ c.frames)
    (hd : f ∈ d.frames) : c.frames ⊆ d.frames := by
  intro g hg
  rw [mem_frames] at hc hd hg ⊢
  obtain ⟨k, hk⟩ := Nat.exists_eq_add_of_le hl
  rw [hk, pow_add, ← Nat.div_div_eq_div_mul] at hd ⊢
  rw [hg, ← hc, hd]

lemma level_le_of_subset {c d : Chunk} (h : c.frames ⊆ d.frames) : c.level ≤ d.level := by
  have hcard := Finset.card_le_card h
  rw [card_frames, card_frames] at hcard
  exact (Nat.pow_le_pow_iff_right (by norm_num)).mp hcard

/-- Distinct chunks of one level are disjoint. -/
lemma disjoint_of_ne {c d : Chunk} (hl : c.level = d.level) (hne : c ≠ d) :
    Disjoint c.frames d.frames :=
  Finset.disjoint_left.mpr fun _ hc hd => hne (eq_of_mem hl hc hd)

/-! ### Halves, parent and buddy -/

/-- The lower half of a chunk of positive level. -/
def lo (c : Chunk) : Chunk := ⟨c.level - 1, 2 * c.idx⟩

/-- The upper half of a chunk of positive level. -/
def hi (c : Chunk) : Chunk := ⟨c.level - 1, 2 * c.idx + 1⟩

/-- The chunk one level up that contains this one. -/
def parent (c : Chunk) : Chunk := ⟨c.level + 1, c.idx / 2⟩

/-- The other half of the parent. -/
def buddy (c : Chunk) : Chunk := ⟨c.level, if c.idx % 2 = 0 then c.idx + 1 else c.idx - 1⟩

lemma buddy_of_even {c : Chunk} (h : c.idx % 2 = 0) : c.buddy = ⟨c.level, c.idx + 1⟩ := by
  rw [buddy, if_pos h]

lemma buddy_of_odd {c : Chunk} (h : c.idx % 2 = 1) : c.buddy = ⟨c.level, c.idx - 1⟩ := by
  rw [buddy, if_neg (by omega)]

@[simp] lemma buddy_level (c : Chunk) : c.buddy.level = c.level := rfl

@[simp] lemma parent_level (c : Chunk) : c.parent.level = c.level + 1 := rfl

@[simp] lemma buddy_buddy (c : Chunk) : c.buddy.buddy = c := by
  refine Chunk.ext rfl ?_
  simp only [buddy]
  split_ifs <;> omega

lemma buddy_ne (c : Chunk) : c.buddy ≠ c := by
  intro h
  have hidx := congrArg Chunk.idx h
  simp only [buddy] at hidx
  split_ifs at hidx <;> omega

@[simp] lemma parent_buddy (c : Chunk) : c.buddy.parent = c.parent := by
  refine Chunk.ext rfl ?_
  simp only [parent, buddy]
  split_ifs <;> omega

/-- A chunk is the union of its halves. -/
lemma frames_eq_halves {c : Chunk} (hl : 0 < c.level) : c.frames = c.lo.frames ∪ c.hi.frames := by
  obtain ⟨k, hk⟩ : ∃ k, c.level = k + 1 := ⟨c.level - 1, by omega⟩
  ext f
  rw [Finset.mem_union, mem_frames, mem_frames, mem_frames]
  simp only [lo, hi, hk, Nat.add_sub_cancel, pow_succ, ← Nat.div_div_eq_div_mul]
  omega

/-- The parent is the union of a chunk and its buddy. -/
lemma frames_parent (c : Chunk) : c.parent.frames = c.frames ∪ c.buddy.frames := by
  ext f
  rw [Finset.mem_union, mem_frames, mem_frames, mem_frames]
  simp only [parent, buddy, pow_succ, ← Nat.div_div_eq_div_mul]
  split_ifs <;> omega

@[simp] lemma buddy_lo (c : Chunk) : c.lo.buddy = c.hi :=
  buddy_of_even (c := c.lo) (Nat.mul_mod_right 2 c.idx)

@[simp] lemma buddy_hi (c : Chunk) : c.hi.buddy = c.lo := by
  rw [← buddy_lo, buddy_buddy]

lemma disjoint_halves (c : Chunk) : Disjoint c.lo.frames c.hi.frames :=
  disjoint_of_ne rfl fun h => by
    have hidx := congrArg Chunk.idx h
    simp only [lo, hi] at hidx
    omega

lemma frames_subset_parent (c : Chunk) : c.frames ⊆ c.parent.frames := by
  rw [frames_parent]
  exact Finset.subset_union_left

end Chunk

/-! ### Sets of chunks -/

/-- The numbers covered by a set of chunks. -/
def free (S : Finset Chunk) : Finset ℕ := S.biUnion Chunk.frames

/-- The chunks of the set are pairwise disjoint. -/
def Apart (S : Finset Chunk) : Prop := (S : Set Chunk).PairwiseDisjoint Chunk.frames

lemma apart_singleton (c : Chunk) : Apart {c} := by
  rw [Apart, Finset.coe_singleton]
  exact Set.pairwiseDisjoint_singleton _ _

lemma mem_free {S : Finset Chunk} {f : ℕ} : f ∈ free S ↔ ∃ c ∈ S, f ∈ c.frames := by
  rw [free, Finset.mem_biUnion]

lemma frames_subset_free {S : Finset Chunk} {c : Chunk} (hc : c ∈ S) : c.frames ⊆ free S :=
  fun _ hf => mem_free.mpr ⟨c, hc, hf⟩

lemma free_insert (S : Finset Chunk) (c : Chunk) : free (insert c S) = c.frames ∪ free S :=
  Finset.biUnion_insert

/-- A number of an `Apart` set lies in one chunk only. -/
lemma Apart.eq_of_mem {S : Finset Chunk} (hS : Apart S) {c d : Chunk} (hc : c ∈ S) (hd : d ∈ S)
    {f : ℕ} (hfc : f ∈ c.frames) (hfd : f ∈ d.frames) : c = d := by
  by_contra hne
  exact Finset.disjoint_left.mp (hS hc hd hne) hfc hfd

lemma free_erase {S : Finset Chunk} (hS : Apart S) {c : Chunk} (hc : c ∈ S) :
    free (S.erase c) = free S \ c.frames := by
  ext f
  simp only [mem_free, Finset.mem_sdiff, Finset.mem_erase]
  constructor
  · rintro ⟨d, ⟨hdc, hd⟩, hf⟩
    exact ⟨⟨d, hd, hf⟩, fun hfc => hdc (hS.eq_of_mem hd hc hf hfc)⟩
  · rintro ⟨⟨d, hd, hf⟩, hfc⟩
    exact ⟨d, ⟨fun h => hfc (h ▸ hf), hd⟩, hf⟩

lemma Apart.erase {S : Finset Chunk} (hS : Apart S) (c : Chunk) : Apart (S.erase c) :=
  hS.subset (by exact_mod_cast Finset.erase_subset c S)

lemma Apart.insert {S : Finset Chunk} (hS : Apart S) {c : Chunk}
    (hc : Disjoint c.frames (free S)) : Apart (insert c S) := by
  rw [Apart, Finset.coe_insert]
  exact Set.PairwiseDisjoint.insert hS fun d hd _ => hc.mono_right (frames_subset_free hd)

lemma apart_empty : Apart ∅ := by
  rw [Apart, Finset.coe_empty]
  exact Set.pairwiseDisjoint_empty

/-! ### Maximal merging -/

/-- No two buddies below level `top` are both in the set. -/
def Merged (top : ℕ) (S : Finset Chunk) : Prop :=
  ∀ c ∈ S, c.level < top → c.buddy ∉ S

/-- **Merging is maximal**: in a merged set every chunk of level at most `top`
whose numbers are all covered lies inside one chunk of the set.  By induction
on the level: the halves lie inside chunks of the set, and if neither of these
reaches above its half they are two buddies. -/
theorem Merged.exists_superset {top : ℕ} {S : Finset Chunk} (hM : Merged top S) :
    ∀ {c : Chunk}, c.level ≤ top → c.frames ⊆ free S → ∃ d ∈ S, c.frames ⊆ d.frames := by
  intro c
  induction hk : c.level generalizing c with
  | zero =>
      intro _ hsub
      obtain ⟨d, hd, hf⟩ := mem_free.mp (hsub c.start_mem_frames)
      exact ⟨d, hd, Chunk.frames_subset_of_mem (by omega) c.start_mem_frames hf⟩
  | succ k ih =>
      intro htop hsub
      have hpos : 0 < c.level := by omega
      have hhalves := Chunk.frames_eq_halves hpos
      have hlo : c.lo.frames ⊆ c.frames := hhalves ▸ Finset.subset_union_left
      have hhi : c.hi.frames ⊆ c.frames := hhalves ▸ Finset.subset_union_right
      obtain ⟨d, hd, hcd⟩ := ih (c := c.lo) (by simp [Chunk.lo, hk]) (by omega) (hlo.trans hsub)
      obtain ⟨e, he, hce⟩ := ih (c := c.hi) (by simp [Chunk.hi, hk]) (by omega) (hhi.trans hsub)
      have hlolvl : c.lo.level = k := by simp [Chunk.lo, hk]
      have hhilvl : c.hi.level = k := by simp [Chunk.hi, hk]
      have hdl := Chunk.level_le_of_subset hcd
      have hel := Chunk.level_le_of_subset hce
      have hsl := c.lo.start_mem_frames
      have hsh := c.hi.start_mem_frames
      rcases Nat.lt_or_ge k d.level with h | h
      · exact ⟨d, hd, Chunk.frames_subset_of_mem (by omega) (hlo hsl) (hcd hsl)⟩
      rcases Nat.lt_or_ge k e.level with h' | h'
      · exact ⟨e, he, Chunk.frames_subset_of_mem (by omega) (hhi hsh) (hce hsh)⟩
      -- both halves are chunks of the set themselves
      have hdlo : d = c.lo := Chunk.eq_of_mem (by omega) (hcd hsl) hsl
      have hehi : e = c.hi := Chunk.eq_of_mem (by omega) (hce hsh) hsh
      exact absurd (c.buddy_lo ▸ hehi ▸ he) (hM c.lo (hdlo ▸ hd) (by omega))

/-- Chunks with the same numbers are equal. -/
lemma Chunk.eq_of_frames_eq {c d : Chunk} (h : c.frames = d.frames) : c = d :=
  Chunk.eq_of_mem (le_antisymm (Chunk.level_le_of_subset h.subset)
    (Chunk.level_le_of_subset h.symm.subset)) c.start_mem_frames (h ▸ c.start_mem_frames)

lemma Merged.subset_of_free_eq {top : ℕ} {S T : Finset Chunk} (hS : Apart S) (hMS : Merged top S)
    (hMT : Merged top T) (hlS : ∀ c ∈ S, c.level ≤ top) (hlT : ∀ c ∈ T, c.level ≤ top)
    (h : free S = free T) : S ⊆ T := by
  intro c hc
  obtain ⟨d, hd, hcd⟩ := hMT.exists_superset (hlS c hc) (h ▸ frames_subset_free hc)
  obtain ⟨e, he, hde⟩ := hMS.exists_superset (hlT d hd) (h ▸ frames_subset_free hd)
  -- the chunk is inside a chunk of its own set, which is itself
  have hstart := c.start_mem_frames
  have hce : c = e := hS.eq_of_mem hc he hstart (hde (hcd hstart))
  have hcd' : c = d := Chunk.eq_of_frames_eq (hcd.antisymm (hce ▸ hde))
  exact hcd' ▸ hd

/-- **Merged sets are canonical**: two of them that cover the same numbers are
equal. -/
theorem Merged.eq_of_free_eq {top : ℕ} {S T : Finset Chunk} (hS : Apart S) (hT : Apart T)
    (hMS : Merged top S) (hMT : Merged top T) (hlS : ∀ c ∈ S, c.level ≤ top)
    (hlT : ∀ c ∈ T, c.level ≤ top) (h : free S = free T) : S = T :=
  (Merged.subset_of_free_eq hS hMS hMT hlS hlT h).antisymm
    (Merged.subset_of_free_eq hT hMT hMS hlT hlS h.symm)

end Titanium
