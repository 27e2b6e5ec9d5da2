import Titanium.Lib.Dyadic
import Mathlib.Data.Nat.Log

/-!
The moves of a buddy system on sets of dyadic chunks.

* `carve d S c` splits the chunk `c` of `S` down by `d` levels: the lower half
  stays in hand at every level, the upper half goes back into the set, and the
  last lower half, `c.first d`, leaves it.
* `merge d S c` climbs from `c`: as long as a chunk and its buddy are both in
  the set they are replaced by their parent, at most `d` times.
* `tile S v e` puts the `v` numbers below `e` back as one chunk for each binary
  digit of `v`, the largest on top.
* `cover d l S s e` puts the numbers of the chunks `s, …, e-1` of level `l` into
  the set, rounding inwards level by level.

Each move comes with what it does to `free`, that it keeps `Apart`, and that it
keeps `Merged`.  The last rests on one rule, `Merged.of_new`: a chunk may be
added when its buddy meets a number that is not covered.
-/

namespace Titanium

namespace Chunk

/-- The lower half, taken `d` times. -/
def first (c : Chunk) (d : ℕ) : Chunk := ⟨c.level - d, c.idx * 2 ^ d⟩

@[simp] lemma first_zero (c : Chunk) : c.first 0 = c := by simp [first]

lemma first_lo (c : Chunk) (d : ℕ) : c.lo.first d = c.first (d + 1) := by
  refine Chunk.ext ?_ ?_
  · simp only [first, lo]; omega
  · simp only [first, lo, pow_succ]; ring

lemma frames_first_subset {c : Chunk} {d : ℕ} (hd : d ≤ c.level) :
    (c.first d).frames ⊆ c.frames := by
  refine frames_subset_of_mem (f := c.idx * 2 ^ c.level) (Nat.sub_le _ _) ?_ c.start_mem_frames
  have hpow : c.idx * 2 ^ c.level = (c.first d).idx * 2 ^ (c.first d).level := by
    simp only [first]
    rw [mul_assoc, ← pow_add]
    congr 2
    omega
  rw [hpow]
  exact (c.first d).start_mem_frames

end Chunk

/-- **Adding chunks keeps a set merged** when the buddy of every new chunk meets
a number that stays uncovered. -/
lemma Merged.of_new {top : ℕ} {S S' : Finset Chunk} (hM : Merged top S)
    (h : ∀ x ∈ S', x.level < top → x ∈ S ∨ ∃ g ∈ x.buddy.frames, g ∉ free S') :
    Merged top S' := by
  intro x hx hlt hbud
  rcases h x hx hlt with hxS | ⟨g, hg, hfree⟩
  · rcases h x.buddy hbud hlt with hbS | ⟨g, hg, hfree⟩
    · exact hM x hxS hlt hbS
    · rw [Chunk.buddy_buddy] at hg
      exact hfree (frames_subset_free hx hg)
  · exact hfree (frames_subset_free hbud hg)

/-! ### Splitting -/

/-- Split `c` down by `d` levels and take the last lower half out. -/
def carve : ℕ → Finset Chunk → Chunk → Finset Chunk
  | 0, S, c => S.erase c
  | d + 1, S, c => carve d (insert c.hi (S.erase c)) c.lo

/-- One split: the chunk in hand becomes its lower half. -/
lemma erase_lo_insert_hi {S : Finset Chunk} {c : Chunk} (hl : 0 < c.level)
    (hc : Disjoint c.frames (free S)) : (insert c.hi S).erase c.lo = insert c.hi S := by
  refine Finset.erase_eq_of_notMem fun hmem => ?_
  have hsub : c.lo.frames ⊆ c.frames := Chunk.frames_eq_halves hl ▸ Finset.subset_union_left
  rcases Finset.mem_insert.mp hmem with h | h
  · exact Finset.disjoint_left.mp c.disjoint_halves c.lo.start_mem_frames
      (h ▸ c.lo.start_mem_frames)
  · exact Finset.disjoint_left.mp hc (hsub c.lo.start_mem_frames)
      (frames_subset_free h c.lo.start_mem_frames)

/-- Splitting keeps the chunks apart and takes out exactly the frames of the
last lower half.  The chunk in hand need not be in the set: only the first one
is. -/
lemma carve_spec {d : ℕ} : ∀ {S : Finset Chunk} {c : Chunk}, d ≤ c.level → Apart (S.erase c) →
    Disjoint c.frames (free (S.erase c)) →
    Apart (carve d S c) ∧
      free (carve d S c) = (c.frames ∪ free (S.erase c)) \ (c.first d).frames := by
  induction d with
  | zero =>
      intro S c _ hA hdis
      refine ⟨hA, ?_⟩
      rw [carve, Chunk.first_zero, Finset.union_sdiff_left,
        Finset.sdiff_eq_self_of_disjoint hdis.symm]
  | succ d ih =>
      intro S c hd hA hdis
      have hl : 0 < c.level := by omega
      have hhalves := Chunk.frames_eq_halves hl
      have herase := erase_lo_insert_hi hl hdis
      have hhi : Disjoint c.hi.frames (free (S.erase c)) :=
        hdis.mono_left (hhalves ▸ Finset.subset_union_right)
      have hlo : Disjoint c.lo.frames (free (S.erase c)) :=
        hdis.mono_left (hhalves ▸ Finset.subset_union_left)
      have hA' : Apart ((insert c.hi (S.erase c)).erase c.lo) := by
        rw [herase]
        exact hA.insert hhi
      have hdis' : Disjoint c.lo.frames (free ((insert c.hi (S.erase c)).erase c.lo)) := by
        rw [herase, free_insert, Finset.disjoint_union_right]
        exact ⟨c.disjoint_halves, hlo⟩
      obtain ⟨h1, h2⟩ := ih (S := insert c.hi (S.erase c)) (c := c.lo)
        (by simp only [Chunk.lo]; omega) hA' hdis'
      refine ⟨h1, ?_⟩
      rw [carve, h2, herase, free_insert, Chunk.first_lo, hhalves, Finset.union_assoc]

/-- What is in the set after splitting: an old chunk other than `c`, or an upper
half, whose buddy contains the chunk taken out. -/
lemma mem_carve {d : ℕ} : ∀ {S : Finset Chunk} {c x : Chunk}, d ≤ c.level → x ∈ carve d S c →
    x ∈ S.erase c ∨ (c.first d).frames ⊆ x.buddy.frames := by
  induction d with
  | zero => exact fun _ hx => Or.inl hx
  | succ d ih =>
      intro S c x hd hx
      have hlo : d ≤ c.lo.level := by simp only [Chunk.lo]; omega
      rcases ih hlo hx with h | h
      · rcases Finset.mem_insert.mp (Finset.mem_of_mem_erase h) with rfl | h
        · rw [Chunk.buddy_hi, ← Chunk.first_lo]
          exact Or.inr (Chunk.frames_first_subset hlo)
        · exact Or.inl h
      · rw [← Chunk.first_lo]
        exact Or.inr h

/-- Splitting a chunk of the set. -/
lemma carve_of_mem {d : ℕ} {S : Finset Chunk} {c : Chunk} (hA : Apart S) (hc : c ∈ S)
    (hd : d ≤ c.level) :
    Apart (carve d S c) ∧ free (carve d S c) = free S \ (c.first d).frames := by
  have hfree := free_erase hA hc
  have hdis : Disjoint c.frames (free (S.erase c)) := hfree ▸ Finset.disjoint_sdiff
  obtain ⟨h1, h2⟩ := carve_spec hd (hA.erase c) hdis
  refine ⟨h1, ?_⟩
  rw [h2, hfree, Finset.union_sdiff_of_subset (frames_subset_free hc)]

/-- **What is in the set after splitting**: the old chunks other than `c`, and
one upper half for every level that was passed. -/
lemma mem_carve_iff {d : ℕ} : ∀ {S : Finset Chunk} {c x : Chunk}, d ≤ c.level →
    Disjoint c.frames (free (S.erase c)) →
    (x ∈ carve d S c ↔
      x ∈ S.erase c ∨ ∃ k < d, x = ⟨c.level - (k + 1), c.idx * 2 ^ (k + 1) + 1⟩) := by
  induction d with
  | zero =>
      intro S c x _ _
      simp [carve]
  | succ d ih =>
      intro S c x hd hdis
      have hl : 0 < c.level := by omega
      have herase := erase_lo_insert_hi hl hdis
      have hlo : Disjoint c.lo.frames (free (S.erase c)) :=
        hdis.mono_left (Chunk.frames_eq_halves hl ▸ Finset.subset_union_left)
      have hdis' : Disjoint c.lo.frames (free ((insert c.hi (S.erase c)).erase c.lo)) := by
        rw [herase, free_insert, Finset.disjoint_union_right]
        exact ⟨c.disjoint_halves, hlo⟩
      rw [carve, ih (by simp only [Chunk.lo]; omega) hdis', herase, Finset.mem_insert]
      -- the upper half of `c` is the one of the first level passed
      have hhi : c.hi = ⟨c.level - (0 + 1), c.idx * 2 ^ (0 + 1) + 1⟩ :=
        Chunk.ext rfl (by simp only [Chunk.hi]; omega)
      have hnext : ∀ k, (⟨c.lo.level - (k + 1), c.lo.idx * 2 ^ (k + 1) + 1⟩ : Chunk) =
          ⟨c.level - (k + 1 + 1), c.idx * 2 ^ (k + 1 + 1) + 1⟩ := fun k =>
        Chunk.ext (by simp only [Chunk.lo]; omega) (by simp only [Chunk.lo]; ring)
      constructor
      · rintro ((rfl | h) | ⟨k, hk, rfl⟩)
        · exact Or.inr ⟨0, Nat.succ_pos d, hhi⟩
        · exact Or.inl h
        · exact Or.inr ⟨k + 1, Nat.succ_lt_succ hk, hnext k⟩
      · rintro (h | ⟨k, hk, rfl⟩)
        · exact Or.inl (Or.inr h)
        · cases k with
          | zero => exact Or.inl (Or.inl hhi.symm)
          | succ k => exact Or.inr ⟨k, Nat.lt_of_succ_lt_succ hk, (hnext k).symm⟩

lemma Merged.carve {top d : ℕ} {S : Finset Chunk} {c : Chunk} (hM : Merged top S) (hA : Apart S)
    (hc : c ∈ S) (hd : d ≤ c.level) : Merged top (carve d S c) := by
  refine hM.of_new fun x hx _ => ?_
  rcases mem_carve hd hx with h | h
  · exact Or.inl (Finset.mem_of_mem_erase h)
  · refine Or.inr ⟨_, h (c.first d).start_mem_frames, fun hfree => ?_⟩
    rw [(carve_of_mem hA hc hd).2] at hfree
    exact (Finset.mem_sdiff.mp hfree).2 (c.first d).start_mem_frames

/-! ### Merging -/

/-- Replace `c` and its buddy by their parent while both are in the set, at
most `d` times. -/
def merge : ℕ → Finset Chunk → Chunk → Finset Chunk
  | 0, S, _ => S
  | d + 1, S, c =>
      if c ∈ S ∧ c.buddy ∈ S then merge d (insert c.parent ((S.erase c).erase c.buddy)) c.parent
      else S

/-- One merge moves no number. -/
lemma merge_step {S : Finset Chunk} (hA : Apart S) {c : Chunk} (hc : c ∈ S) (hb : c.buddy ∈ S) :
    Apart (insert c.parent ((S.erase c).erase c.buddy)) ∧
      free (insert c.parent ((S.erase c).erase c.buddy)) = free S := by
  have hb' : c.buddy ∈ S.erase c := Finset.mem_erase.mpr ⟨c.buddy_ne, hb⟩
  have hfree : free ((S.erase c).erase c.buddy) = free S \ c.parent.frames := by
    rw [free_erase (hA.erase c) hb', free_erase hA hc, sdiff_sdiff, Chunk.frames_parent,
      Finset.sup_eq_union]
  have hsub : c.parent.frames ⊆ free S := by
    rw [Chunk.frames_parent]
    exact Finset.union_subset (frames_subset_free hc) (frames_subset_free hb)
  refine ⟨((hA.erase c).erase c.buddy).insert (hfree ▸ Finset.disjoint_sdiff), ?_⟩
  rw [free_insert, hfree, Finset.union_sdiff_of_subset hsub]

/-- Merging moves no number and keeps the chunks apart. -/
lemma merge_spec {d : ℕ} : ∀ {S : Finset Chunk} {c : Chunk}, Apart S →
    Apart (merge d S c) ∧ free (merge d S c) = free S := by
  induction d with
  | zero => exact fun hA => ⟨hA, rfl⟩
  | succ d ih =>
      intro S c hA
      rw [merge]
      split_ifs with h
      · obtain ⟨hA', hfree⟩ := merge_step hA h.1 h.2
        obtain ⟨h1, h2⟩ := ih (c := c.parent) hA'
        exact ⟨h1, h2.trans hfree⟩
      · exact ⟨hA, rfl⟩

/-- The climb restores maximal merging: if the only buddies in the set below
`top` are `c` and its buddy, none are left after merging from `c` up to `top`. -/
lemma merged_merge {top d : ℕ} : ∀ {S : Finset Chunk} {c : Chunk}, c.level + d = top →
    (∀ x ∈ S, x.level < top → x.buddy ∈ S → x = c ∨ x = c.buddy) →
    Merged top (merge d S c) := by
  induction d with
  | zero =>
      intro S c htop honly x hx hlt hbud
      rcases honly x hx hlt hbud with rfl | rfl
      · omega
      · rw [Chunk.buddy_level] at hlt
        omega
  | succ d ih =>
      intro S c htop honly
      rw [merge]
      split_ifs with h
      · refine ih (by rw [Chunk.parent_level]; omega) fun x hx hlt hbud => ?_
        rcases Finset.mem_insert.mp hx with rfl | hx
        · exact Or.inl rfl
        rcases Finset.mem_insert.mp hbud with hpar | hbud
        · exact Or.inr (by rw [← hpar, Chunk.buddy_buddy])
        -- an old pair is the pair just removed
        simp only [Finset.mem_erase] at hx hbud
        rcases honly x hx.2.2 hlt hbud.2.2 with rfl | rfl
        · exact absurd rfl hx.2.1
        · exact absurd rfl hx.1
      · intro x hx hlt hbud
        rcases honly x hx hlt hbud with rfl | rfl
        · exact h ⟨hx, hbud⟩
        · rw [Chunk.buddy_buddy] at hbud
          exact h ⟨hbud, hx⟩

/-- Adding a chunk to a merged set and merging from it. -/
lemma Merged.merge_insert {top d : ℕ} {S : Finset Chunk} (hM : Merged top S) {c : Chunk}
    (htop : c.level + d = top) : Merged top (merge d (insert c S) c) := by
  refine merged_merge htop fun x hx hlt hbud => ?_
  rcases Finset.mem_insert.mp hx with rfl | hx
  · exact Or.inl rfl
  rcases Finset.mem_insert.mp hbud with h | hbud
  · exact Or.inr (by rw [← h, Chunk.buddy_buddy])
  · exact absurd hbud (hM x hx hlt)

/-! ### Giving back a tail -/

/-- The `2^k` numbers below a multiple of `2^k`, as a chunk. -/
lemma frames_below {k e : ℕ} (hdvd : 2 ^ k ∣ e) (hle : 2 ^ k ≤ e) :
    (⟨k, e / 2 ^ k - 1⟩ : Chunk).frames = Finset.Ico (e - 2 ^ k) e := by
  obtain ⟨m, rfl⟩ := hdvd
  have hpos : 0 < 2 ^ k := Nat.two_pow_pos k
  have hm : 1 ≤ m := Nat.pos_of_mul_pos_left (lt_of_lt_of_le hpos hle)
  obtain ⟨j, rfl⟩ : ∃ j, m = j + 1 := ⟨m - 1, by omega⟩
  rw [Chunk.frames, Nat.mul_div_cancel_left _ hpos, Nat.add_sub_cancel]
  congr 1
  · rw [Nat.mul_add, Nat.mul_one, Nat.add_sub_cancel, Nat.mul_comm]
  · rw [Nat.mul_comm]

/-- Put the `v` numbers below `e` back, one chunk for each binary digit of `v`,
the largest first. -/
def tile (S : Finset Chunk) (v e : ℕ) : Finset Chunk :=
  if v = 0 then S
  else tile (insert ⟨Nat.log 2 v, e / 2 ^ Nat.log 2 v - 1⟩ S) (v - 2 ^ Nat.log 2 v)
    (e - 2 ^ Nat.log 2 v)
termination_by v
decreasing_by
  have := Nat.two_pow_pos (Nat.log 2 v)
  omega

/-- Giving back the tail keeps the chunks apart and covers exactly the tail. -/
lemma tile_spec (S : Finset Chunk) (v e : ℕ) : ∀ {l : ℕ}, 2 ^ l ∣ e → v < 2 ^ (l + 1) → v ≤ e →
    Apart S → Disjoint (Finset.Ico (e - v) e) (free S) →
    Apart (tile S v e) ∧ free (tile S v e) = free S ∪ Finset.Ico (e - v) e := by
  fun_induction tile S v e with
  | case1 S e =>
      intro l _ _ _ hA _
      simpa using hA
  | case2 S v e hv ih =>
      intro l hdvd hlt hle hA hdis
      set k := Nat.log 2 v with hk
      have hlow : 2 ^ k ≤ v := Nat.pow_log_le_self 2 hv
      have hup : v < 2 ^ (k + 1) := Nat.lt_pow_succ_log_self (by norm_num) v
      have hkl : k ≤ l := by
        have := (Nat.pow_lt_pow_iff_right (by norm_num)).mp (lt_of_le_of_lt hlow hlt)
        omega
      have hdvd' : 2 ^ k ∣ e := (pow_dvd_pow 2 hkl).trans hdvd
      have hframes := frames_below hdvd' (hlow.trans hle)
      -- the chunk is the top part of the tail
      have hsplit : Finset.Ico (e - v) e =
          Finset.Ico (e - v) (e - 2 ^ k) ∪ Finset.Ico (e - 2 ^ k) e :=
        (Finset.Ico_union_Ico_eq_Ico (by omega) (by omega)).symm
      rw [hsplit, Finset.disjoint_union_left] at hdis
      have hsub : e - 2 ^ k - (v - 2 ^ k) = e - v := by omega
      have hlast : Disjoint (Finset.Ico (e - v) (e - 2 ^ k)) (Finset.Ico (e - 2 ^ k) e) :=
        Finset.Ico_disjoint_Ico_consecutive _ _ _
      obtain ⟨h1, h2⟩ := ih (l := k) (Nat.dvd_sub hdvd' (dvd_refl _))
        (by rw [pow_succ] at hup ⊢; omega) (by omega) (hA.insert (hframes ▸ hdis.2))
        (by rw [hsub, free_insert, hframes, Finset.disjoint_union_right]; exact ⟨hlast, hdis.1⟩)
      refine ⟨h1, ?_⟩
      rw [h2, free_insert, hframes, hsub, hsplit, Finset.union_comm (Finset.Ico (e - 2 ^ k) e),
        Finset.union_assoc, Finset.union_comm (Finset.Ico (e - 2 ^ k) e)]

/-- A chunk of the tail is an upper half whose buddy contains the last number
below the tail. -/
lemma mem_tile (S : Finset Chunk) (v e : ℕ) : ∀ {l : ℕ} {x : Chunk}, 2 ^ l ∣ e → v < 2 ^ l →
    v < e → x ∈ tile S v e → x ∈ S ∨ e - v - 1 ∈ x.buddy.frames := by
  fun_induction tile S v e with
  | case1 S e => exact fun _ _ _ hx => Or.inl hx
  | case2 S v e hv ih =>
      intro l x hdvd hlt hle hx
      set k := Nat.log 2 v with hk
      have hlow : 2 ^ k ≤ v := Nat.pow_log_le_self 2 hv
      have hup : v < 2 ^ (k + 1) := Nat.lt_pow_succ_log_self (by norm_num) v
      have hkl : k + 1 ≤ l := (Nat.pow_lt_pow_iff_right (by norm_num)).mp (lt_of_le_of_lt hlow hlt)
      obtain ⟨m, rfl⟩ := (pow_dvd_pow 2 hkl).trans hdvd
      rw [pow_succ] at hup
      have he : 2 ^ (k + 1) * m = 2 ^ k * (2 * m) := by rw [pow_succ]; ring
      rw [he] at hx hle ih ⊢
      have hpos : 0 < 2 ^ k := Nat.two_pow_pos k
      rcases ih (l := k) (Nat.dvd_sub (dvd_mul_right _ _) (dvd_refl _)) (by omega) (by omega) hx
        with h | h
      · rcases Finset.mem_insert.mp h with rfl | h
        · refine Or.inr ?_
          have hm : 1 ≤ m := by
            rcases Nat.eq_zero_or_pos m with rfl | hm
            · simp at hle
            · exact hm
          rw [Nat.mul_div_cancel_left _ hpos, Chunk.buddy_of_odd (by simp only; omega),
            Chunk.mem_frames]
          obtain ⟨j, rfl⟩ : ∃ j, m = j + 1 := ⟨m - 1, by omega⟩
          have hval : 2 ^ k * (2 * (j + 1)) - v - 1 = 2 ^ k * (2 * j) + (2 * 2 ^ k - v - 1) := by
            rw [show 2 ^ k * (2 * (j + 1)) = 2 ^ k * (2 * j) + 2 * 2 ^ k by ring]
            omega
          simp only
          rw [hval, Nat.mul_add_div hpos, Nat.div_eq_of_lt (by omega)]
          omega
        · exact Or.inl h
      · rw [show 2 ^ k * (2 * m) - 2 ^ k - (v - 2 ^ k) - 1 = 2 ^ k * (2 * m) - v - 1 by omega] at h
        exact Or.inr h

/-! ### Covering a run of numbers -/

/-- The chunks of level `l` with indices in `[s, e)`. -/
def row (l s e : ℕ) : Finset Chunk := (Finset.Ico s e).image (Chunk.mk l)

lemma mem_row {l s e : ℕ} {x : Chunk} : x ∈ row l s e ↔ x.level = l ∧ s ≤ x.idx ∧ x.idx < e := by
  simp only [row, Finset.mem_image, Finset.mem_Ico]
  constructor
  · rintro ⟨i, ⟨h1, h2⟩, rfl⟩
    exact ⟨rfl, h1, h2⟩
  · rintro ⟨rfl, h1, h2⟩
    exact ⟨x.idx, ⟨h1, h2⟩, rfl⟩

/-- The chunks of the row cover a run of numbers. -/
lemma free_row (l s e : ℕ) : free (row l s e) = Finset.Ico (s * 2 ^ l) (e * 2 ^ l) := by
  have hpos : 0 < 2 ^ l := Nat.two_pow_pos l
  ext f
  rw [mem_free, Finset.mem_Ico, ← Nat.le_div_iff_mul_le hpos, ← Nat.div_lt_iff_lt_mul hpos]
  constructor
  · rintro ⟨x, hx, hf⟩
    obtain ⟨rfl, h1, h2⟩ := mem_row.mp hx
    rw [Chunk.mem_frames.mp hf]
    exact ⟨h1, h2⟩
  · rintro ⟨h1, h2⟩
    exact ⟨⟨l, f / 2 ^ l⟩, mem_row.mpr ⟨rfl, h1, h2⟩, Chunk.mem_frames.mpr rfl⟩

/-- Put the chunks `s, …, e-1` of level `l` into the set, merged as far as
level `l + d`: at each level an odd start and an odd end are put in, the rest
is passed on halved. -/
def cover : ℕ → ℕ → Finset Chunk → ℕ → ℕ → Finset Chunk
  | 0, l, S, s, e => S ∪ row l s e
  | d + 1, l, S, s, e =>
      if s = e then S
      else
        let S₁ := if s % 2 ≠ 0 then insert ⟨l, s⟩ S else S
        let S₂ := if e % 2 ≠ 0 then insert ⟨l, e - 1⟩ S₁ else S₁
        cover d (l + 1) S₂ ((s + 1) / 2) (e / 2)

/-- The chunks put in at one level of the climb. -/
lemma cover_succ {d l s e : ℕ} (S : Finset Chunk) (hse : s < e) :
    cover (d + 1) l S s e =
      cover d (l + 1) (S ∪ row l s (s + s % 2) ∪ row l (e - e % 2) e) ((s + 1) / 2) (e / 2) := by
  have hrows : (if e % 2 ≠ 0 then insert ⟨l, e - 1⟩ (if s % 2 ≠ 0 then insert ⟨l, s⟩ S else S)
      else if s % 2 ≠ 0 then insert ⟨l, s⟩ S else S) =
        S ∪ row l s (s + s % 2) ∪ row l (e - e % 2) e := by
    have hs : s % 2 = 0 ∨ s % 2 = 1 := by omega
    have he : e % 2 = 0 ∨ e % 2 = 1 := by omega
    ext x
    rw [Finset.mem_union, Finset.mem_union, mem_row, mem_row]
    rcases hs with hs | hs <;> rcases he with he | he <;>
      simp only [hs, he, ne_eq, not_true_eq_false, not_false_eq_true, if_true, if_false,
        one_ne_zero, Finset.mem_insert, Chunk.ext_iff] <;>
      by_cases hx : x ∈ S <;>
      simp only [hx, true_or, or_true, false_or, or_false, false_iff] <;> omega
  rw [cover, if_neg (by omega)]
  exact congrArg (fun T => cover d (l + 1) T ((s + 1) / 2) (e / 2)) hrows

lemma Apart.union {S T : Finset Chunk} (hS : Apart S) (hT : Apart T)
    (h : Disjoint (free S) (free T)) : Apart (S ∪ T) := by
  rw [Apart, Finset.coe_union]
  refine Set.pairwiseDisjoint_union.mpr ⟨hS, hT, fun c hc d hd _ => ?_⟩
  exact h.mono (frames_subset_free hc) (frames_subset_free hd)

lemma free_union (S T : Finset Chunk) : free (S ∪ T) = free S ∪ free T :=
  Finset.union_biUnion

lemma apart_row (l s e : ℕ) : Apart (row l s e) := fun _ hc _ hd hne =>
  Chunk.disjoint_of_ne ((mem_row.mp hc).1.trans (mem_row.mp hd).1.symm) hne

/-- Covering keeps the chunks apart and adds exactly the run. -/
lemma cover_spec {d : ℕ} : ∀ {l s e : ℕ} {S : Finset Chunk}, s ≤ e → Apart S →
    Disjoint (free S) (Finset.Ico (s * 2 ^ l) (e * 2 ^ l)) →
    Apart (cover d l S s e) ∧
      free (cover d l S s e) = free S ∪ Finset.Ico (s * 2 ^ l) (e * 2 ^ l) := by
  induction d with
  | zero =>
      intro l s e S _ hA hdis
      rw [cover, free_union, free_row]
      exact ⟨hA.union (apart_row l s e) (by rwa [free_row]), rfl⟩
  | succ d ih =>
      intro l s e S hse hA hdis
      rcases Nat.eq_or_lt_of_le hse with rfl | hlt
      · rw [cover, if_pos rfl]
        simpa using hA
      rw [cover_succ S hlt]
      -- the run is the odd start, the halved middle and the odd end
      have hmul : ∀ a, a * 2 ^ (l + 1) = (2 * a) * 2 ^ l := fun a => by rw [pow_succ]; ring
      have h1 : 2 * ((s + 1) / 2) = s + s % 2 := by omega
      have h2 : 2 * (e / 2) = e - e % 2 := by omega
      have hs : s * 2 ^ l ≤ (s + s % 2) * 2 ^ l := Nat.mul_le_mul_right _ (by omega)
      have hm : (s + s % 2) * 2 ^ l ≤ (e - e % 2) * 2 ^ l := Nat.mul_le_mul_right _ (by omega)
      have he : (e - e % 2) * 2 ^ l ≤ e * 2 ^ l := Nat.mul_le_mul_right _ (by omega)
      have hrun : Finset.Ico (s * 2 ^ l) (e * 2 ^ l) =
          Finset.Ico (s * 2 ^ l) ((s + s % 2) * 2 ^ l) ∪
            (Finset.Ico ((s + s % 2) * 2 ^ l) ((e - e % 2) * 2 ^ l) ∪
              Finset.Ico ((e - e % 2) * 2 ^ l) (e * 2 ^ l)) := by
        rw [Finset.Ico_union_Ico_eq_Ico hm he, Finset.Ico_union_Ico_eq_Ico hs (hm.trans he)]
      rw [hrun, Finset.disjoint_union_right, Finset.disjoint_union_right] at hdis
      obtain ⟨hd1, hd2, hd3⟩ := hdis
      have hA1 : Apart (S ∪ row l s (s + s % 2)) :=
        hA.union (apart_row _ _ _) (by rwa [free_row])
      have hA2 : Apart (S ∪ row l s (s + s % 2) ∪ row l (e - e % 2) e) := by
        refine hA1.union (apart_row _ _ _) ?_
        rw [free_union, free_row, free_row, Finset.disjoint_union_left]
        exact ⟨hd3, (Finset.Ico_disjoint_Ico_consecutive _ _ _).mono_right
          (Finset.Ico_subset_Ico_left hm)⟩
      obtain ⟨g1, g2⟩ := ih (l := l + 1) (s := (s + 1) / 2) (e := e / 2) (by omega) hA2 (by
        rw [hmul, hmul, h1, h2, free_union, free_union, free_row, free_row,
          Finset.disjoint_union_left, Finset.disjoint_union_left]
        exact ⟨⟨hd2, Finset.Ico_disjoint_Ico_consecutive _ _ _⟩,
          (Finset.Ico_disjoint_Ico_consecutive _ _ _).symm⟩)
      refine ⟨g1, ?_⟩
      rw [g2, hmul, hmul, h1, h2, free_union, free_union, free_row, free_row, hrun]
      simp only [Finset.union_assoc]
      rw [Finset.union_comm (Finset.Ico ((e - e % 2) * 2 ^ l) (e * 2 ^ l))]

/-- A chunk put in below the top level is at an end of the run: its buddy
contains the number just below the run or the number just past it. -/
lemma mem_cover {d : ℕ} : ∀ {l s e a z : ℕ} {S : Finset Chunk} {x : Chunk}, s ≤ e →
    s * 2 ^ l < a + 2 ^ l → a ≤ s * 2 ^ l → e * 2 ^ l ≤ z → z < (e + 1) * 2 ^ l →
    x ∈ cover d l S s e → x.level < l + d →
    x ∈ S ∨ (0 < a ∧ a - 1 ∈ x.buddy.frames) ∨ z ∈ x.buddy.frames := by
  induction d with
  | zero =>
      intro l s e a z S x _ _ _ _ _ hx hlt
      rcases Finset.mem_union.mp hx with h | h
      · exact Or.inl h
      · have := (mem_row.mp h).1
        omega
  | succ d ih =>
      intro l s e a z S x hse hs1 hs2 he1 he2 hx hlt
      rcases Nat.eq_or_lt_of_le hse with rfl | hlt'
      · rw [cover, if_pos rfl] at hx
        exact Or.inl hx
      rw [cover_succ S hlt'] at hx
      have hpos : 0 < 2 ^ l := Nat.two_pow_pos l
      have hmul : ∀ x, x * 2 ^ (l + 1) = (2 * x) * 2 ^ l := fun x => by rw [pow_succ]; ring
      have h1 : 2 * ((s + 1) / 2) = s + s % 2 := by omega
      have h2 : 2 * (e / 2) = e - e % 2 := by omega
      have hb0 : (s + 1) * 2 ^ l = s * 2 ^ l + 2 ^ l := by ring
      have hb1 : (s + s % 2) * 2 ^ l ≤ (s + 1) * 2 ^ l := Nat.mul_le_mul_right _ (by omega)
      have hb2 : s * 2 ^ l ≤ (s + s % 2) * 2 ^ l := Nat.mul_le_mul_right _ (by omega)
      have hb3 : (e - e % 2) * 2 ^ l ≤ e * 2 ^ l := Nat.mul_le_mul_right _ (by omega)
      have hb4 : (e + 1) * 2 ^ l ≤ (e - e % 2 + 2) * 2 ^ l := Nat.mul_le_mul_right _ (by omega)
      have hstep := ih (l := l + 1) (s := (s + 1) / 2) (e := e / 2) (a := a) (z := z)
        (by omega) (by rw [hmul, h1, pow_succ]; omega)
        (by rw [hmul, h1]; omega) (by rw [hmul, h2]; omega)
        (by rw [hmul, Nat.mul_add, h2, Nat.mul_one]; omega) hx (by omega)
      rcases hstep with h | h
      · rcases Finset.mem_union.mp h with h | h
        · rcases Finset.mem_union.mp h with h | h
          · exact Or.inl h
          · -- the odd start: its buddy ends where the run starts
            obtain ⟨hxl, hxs, hxe⟩ := mem_row.mp h
            have hidx : x.idx = s := by omega
            obtain ⟨j, hj⟩ : ∃ j, s = j + 1 := ⟨s - 1, by omega⟩
            rw [hj, Nat.add_mul] at hs1 hs2
            refine Or.inr (Or.inl ⟨by omega, ?_⟩)
            rw [Chunk.buddy_of_odd (by omega), Chunk.mem_frames, Nat.div_eq_iff (by rwa [hxl])]
            simp only [hxl, hidx, hj, Nat.add_sub_cancel]
            omega
        · -- the odd end: its buddy starts where the run ends
          obtain ⟨hxl, hxs, hxe⟩ := mem_row.mp h
          have hidx : x.idx + 1 = e := by omega
          refine Or.inr (Or.inr ?_)
          rw [Chunk.buddy_of_even (by omega), Chunk.mem_frames, Nat.div_eq_iff (by rwa [hxl])]
          simp only [hxl, hidx]
          rw [Nat.add_mul] at he2
          omega
      · exact Or.inr h

end Titanium
