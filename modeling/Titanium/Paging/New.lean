import Titanium.Paging.Runs

/-!
`RuneFrameAllocator::new` and what its bitmap keeps from then on.

* `addEntry_spec`: the climb through the levels of one usable entry is `cover`,
  from level 0 to the top.
* `addEntry_free`, `addEntry_merged`: an entry disjoint from the free frames adds
  exactly its frames, and one that does not touch them adds no buddies.
* `new_marks_usable`: the bitmap after `new` covers exactly the usable memory.
* `new_spec`: when no two usable entries touch, it is merged as well.
* `never_fragments`: no run leaves two buddies free, so a chunk of level `k` is
  refused exactly when no aligned run of `2^k` frames is free.
-/

namespace Titanium

/-! ### One entry -/

/-- Filling a row of the top level. -/
lemma exists_fill (b : BuddyBits) {s e : ℕ} (hse : s ≤ e) (he : e * 2 ^ topLevel ≤ 2 ^ 24) :
    ∃ b', b.fill (levelOffset topLevel + s) (levelOffset topLevel + e) = some b' ∧
      chunks b' = chunks b ∪ row topLevel s e := by
  have hfits : ∀ c : Chunk, c.level = topLevel → c.idx < e → c.Fits := by
    intro c hl hi
    have hlvl : c.level < buddyLevels := hl ▸ (by decide)
    rw [Chunk.fits_iff_of_mem hlvl c.start_mem_frames, hl]
    exact lt_of_lt_of_le (Nat.mul_lt_mul_of_pos_right hi (Nat.two_pow_pos _)) he
  have htot : levelOffset topLevel + e ≤ totalBuddyBits := by
    have hw : totalBuddyBits = levelOffset topLevel + 2 ^ 9 := by decide
    have : e ≤ 2 ^ 9 := by
      by_contra hlt
      have := Nat.mul_le_mul_right (2 ^ topLevel) (show 2 ^ 9 + 1 ≤ e by omega)
      have hval : (2 ^ 9 + 1) * 2 ^ topLevel > 2 ^ 24 := by decide
      omega
    omega
  obtain ⟨b', hb'⟩ := b.fill_isSome (Nat.add_le_add_left hse (levelOffset topLevel)) htot
  refine ⟨b', hb', Finset.ext fun c => ?_⟩
  rw [mem_chunks, BitArr.ones_fill hb', Finset.mem_union, Finset.mem_union, mem_chunks, mem_row,
    Finset.mem_Ico]
  constructor
  · rintro ⟨hc, h | ⟨h1, h2⟩⟩
    · exact Or.inl ⟨hc, h⟩
    · have hlvl := hc.levelOffset_le_bit_iff.mp (show levelOffset topLevel ≤ c.bit by omega)
      have hl : c.level = topLevel := by have := hc.1; simp only [topLevel] at hlvl ⊢; omega
      rw [Chunk.bit, hl] at h1 h2
      exact Or.inr ⟨hl, by omega, by omega⟩
  · rintro (⟨hc, h⟩ | ⟨hl, h1, h2⟩)
    · exact ⟨hc, Or.inl h⟩
    · refine ⟨hfits c hl h2, Or.inr ?_⟩
      rw [Chunk.bit, hl]
      omega

/-- Marking an end of the run when it is odd. -/
lemma exists_markIf {b : BuddyBits} (cond : Prop) [Decidable cond] {l i : ℕ}
    (hl : l < buddyLevels) (hi : (i + 1) * 2 ^ l ≤ 2 ^ 24) :
    ∃ b', markIf cond (levelOffset l + i) b = some b' ∧
      chunks b' = if cond then insert ⟨l, i⟩ (chunks b) else chunks b := by
  have hfits : (⟨l, i⟩ : Chunk).Fits := by
    have hpos : 0 < 2 ^ l := Nat.two_pow_pos l
    rw [Chunk.fits_iff_of_mem hl (Chunk.start_mem_frames _)]
    rw [Nat.add_mul] at hi
    simp only
    omega
  rw [markIf, Nat.add_comm (levelOffset l) i]
  split_ifs
  · exact exists_write_true b hfits
  · exact ⟨b, rfl, rfl⟩

/-- The climb through the levels covers the entry. -/
lemma climb_spec {d : ℕ} : ∀ {l s e : ℕ} (b : BuddyBits), l + d = topLevel → s ≤ e →
    e * 2 ^ l ≤ 2 ^ 24 →
    ∃ b', climb d l s e b = some b' ∧ chunks b' = cover d l (chunks b) s e := by
  induction d with
  | zero =>
      intro l s e b hl hse he
      obtain rfl : l = topLevel := hl
      obtain ⟨b', hb', hch⟩ := exists_fill b hse he
      refine ⟨b', ?_, hch⟩
      rw [climb, levelOffsets_of_le (Nat.sub_le _ _)]
      exact hb'
  | succ d ih =>
      intro l s e b hl hse he
      have hlvl : l < buddyLevels := by simp only [topLevel] at hl; omega
      rw [climb, levelOffsets_of_le (Nat.le_of_lt hlvl), cover]
      simp only [Option.bind_eq_bind, Option.bind_some]
      by_cases hne : s = e
      · rw [if_pos hne, if_pos hne]
        exact ⟨b, rfl, rfl⟩
      rw [if_neg hne, if_neg hne]
      have hs : (s + 1) * 2 ^ l ≤ 2 ^ 24 := (Nat.mul_le_mul_right _ (by omega)).trans he
      -- the odd start
      obtain ⟨b₁, hb₁, hch₁⟩ := exists_markIf (b := b) (s % 2 ≠ 0) hlvl hs
      -- the odd end
      obtain ⟨b₂, hb₂, hch₂⟩ := exists_markIf (b := b₁) (e % 2 ≠ 0) hlvl
        (show (e - 1 + 1) * 2 ^ l ≤ 2 ^ 24 by rwa [Nat.sub_add_cancel (by omega)])
      rw [← Nat.add_sub_assoc (by omega)] at hb₂
      have hhalf : (if s % 2 ≠ 0 then s + 1 else s) >>> 1 = (s + 1) / 2 := by
        rw [Nat.shiftRight_eq_div_pow]
        split_ifs <;> omega
      have hmul : e / 2 * 2 ^ (l + 1) ≤ e * 2 ^ l := by
        rw [pow_succ, Nat.mul_comm (2 ^ l), ← Nat.mul_assoc]
        exact Nat.mul_le_mul_right _ (Nat.div_mul_le_self e 2)
      obtain ⟨b₃, hb₃, hch₃⟩ := ih (l := l + 1) (s := (s + 1) / 2) (e := e / 2) b₂ (by omega)
        (by omega) (hmul.trans he)
      refine ⟨b₃, ?_, by rw [hch₃, hch₂, hch₁]⟩
      simp only [hb₁, Option.bind_some, hb₂, hhalf]
      rw [show e >>> 1 = e / 2 from Nat.shiftRight_eq_div_pow e 1]
      exact hb₃

/-- The frames of an entry: those that start in it, the last partial one left
out. -/
def MemmapEntry.frames (entry : MemmapEntry) : Finset ℕ :=
  Finset.Ico (entry.base / pageSize) (entry.base / pageSize + entry.length / pageSize)

/-- The entry ends at or below 64 GiB. -/
def MemmapEntry.Below (entry : MemmapEntry) : Prop := entry.base + entry.length ≤ 2 ^ 36

instance (entry : MemmapEntry) : Decidable entry.Below := inferInstanceAs (Decidable (_ ≤ _))

lemma MemmapEntry.Below.end_le {entry : MemmapEntry} (h : entry.Below) :
    entry.base / pageSize + entry.length / pageSize ≤ 2 ^ 24 := by
  rw [Below] at h
  rw [pageSize]
  omega

/-- **One entry** is covered from level 0 to the top. -/
lemma addEntry_spec (b : BuddyBits) {entry : MemmapEntry} (h : entry.Below) :
    ∃ b', addEntry b entry = some b' ∧
      chunks b' = cover topLevel 0 (chunks b) (entry.base / pageSize)
        (entry.base / pageSize + entry.length / pageSize) := by
  have hend : (entry.base + entry.length / pageSize * pageSize) / pageSize =
      entry.base / pageSize + entry.length / pageSize :=
    Nat.add_mul_div_right _ _ (by decide)
  obtain ⟨b', hb', hch⟩ := climb_spec (d := topLevel) (l := 0) b rfl
    (Nat.le_add_right (entry.base / pageSize) (entry.length / pageSize))
    (by rw [pow_zero, Nat.mul_one]; exact h.end_le)
  refine ⟨b', ?_, hch⟩
  rw [addEntry, hend]
  exact hb'

/-- An entry whose frames are not free adds exactly its frames. -/
lemma addEntry_free {b : BuddyBits} (hA : Apart (chunks b)) {entry : MemmapEntry}
    (h : entry.Below) (hdis : Disjoint (freeFrames b) entry.frames) :
    ∃ b', addEntry b entry = some b' ∧ Apart (chunks b') ∧
      freeFrames b' = freeFrames b ∪ entry.frames := by
  obtain ⟨b', hb', hch⟩ := addEntry_spec b h
  obtain ⟨hA', hfree⟩ := cover_spec (d := topLevel) (l := 0)
    (Nat.le_add_right (entry.base / pageSize) (entry.length / pageSize)) hA
    (by rw [pow_zero, Nat.mul_one, Nat.mul_one]; exact hdis)
  rw [← hch, pow_zero, Nat.mul_one, Nat.mul_one] at hfree
  exact ⟨b', hb', hch ▸ hA', hfree⟩

/-- Frame `f` neither lies in the run `[s, e)` nor touches it. -/
def Clear (f s e : ℕ) : Prop := s < e → f + 1 < s ∨ e < f

/-- An entry that does not touch the free frames leaves no buddies unmerged:
the frames at its two ends stay uncovered. -/
lemma addEntry_merged {b b' : BuddyBits} (hA : Apart (chunks b))
    (hM : Merged topLevel (chunks b)) {entry : MemmapEntry} (h : entry.Below)
    (hclear : ∀ f ∈ freeFrames b, Clear f (entry.base / pageSize)
      (entry.base / pageSize + entry.length / pageSize))
    (hret : addEntry b entry = some b') : Merged topLevel (chunks b') := by
  set s := entry.base / pageSize with hs
  set e := s + entry.length / pageSize with he
  obtain ⟨b₁, hb₁, hch⟩ := addEntry_spec b h
  obtain rfl : b' = b₁ := by rw [hret] at hb₁; exact Option.some.inj hb₁
  have hse : s ≤ e := Nat.le_add_right _ _
  rw [hch, ← hs, ← he]
  rcases Nat.eq_or_lt_of_le hse with heq | hlt
  · rw [← heq, show topLevel = 14 + 1 from rfl, cover, if_pos rfl]
    exact hM
  have hdis : Disjoint (freeFrames b) entry.frames := by
    refine Finset.disjoint_left.mpr fun f hf hfe => ?_
    have h1 := Finset.mem_Ico.mp hfe
    have h2 := hclear f hf hlt
    omega
  have hfree : free (cover topLevel 0 (chunks b) s e) = freeFrames b ∪ entry.frames := by
    obtain ⟨b₂, hb₂, -, hfr⟩ := addEntry_free hA h hdis
    obtain rfl : b' = b₂ := by rw [hret] at hb₂; exact Option.some.inj hb₂
    rw [← hfr, freeFrames, hch]
  refine hM.of_new fun x hx hxl => ?_
  rcases mem_cover (a := s) (z := e) hse (by simp) (by simp) (by simp) (by simp) hx
    (by simpa using hxl) with hmem | ⟨hpos, hmem⟩ | hmem
  · exact Or.inl hmem
  · refine Or.inr ⟨_, hmem, fun hf => ?_⟩
    rw [hfree, Finset.mem_union, MemmapEntry.frames, Finset.mem_Ico] at hf
    rcases hf with hf | hf
    · have := hclear _ hf hlt
      omega
    · omega
  · refine Or.inr ⟨_, hmem, fun hf => ?_⟩
    rw [hfree, Finset.mem_union, MemmapEntry.frames, Finset.mem_Ico] at hf
    rcases hf with hf | hf
    · have := hclear _ hf hlt
      omega
    · omega

/-! ### All entries -/

/-- The entries of the map that `new` looks at. -/
def usableEntries (map : List MemmapEntry) : List MemmapEntry := map.filter (·.ty = .usable)

/-- A memory map whose usable entries are page aligned with lengths of whole pages,
end at or below 64 GiB and have no byte in common. -/
structure DisjointMap (map : List MemmapEntry) : Prop where
  aligned : ∀ entry ∈ usableEntries map,
    entry.base % pageSize = 0 ∧ entry.length % pageSize = 0
  below : ∀ entry ∈ usableEntries map, entry.Below
  disjoint : (usableEntries map).Pairwise fun x y =>
    ∀ a, ¬(x.base ≤ a ∧ a < x.base + x.length ∧ y.base ≤ a ∧ a < y.base + y.length)

/-- The frames of an aligned entry are those that start in it. -/
lemma MemmapEntry.mem_frames {entry : MemmapEntry} (hbase : entry.base % pageSize = 0)
    (hlen : entry.length % pageSize = 0) {f : ℕ} :
    f ∈ entry.frames ↔ entry.base ≤ f * pageSize ∧ f * pageSize < entry.base + entry.length := by
  rw [frames, Finset.mem_Ico]
  rw [pageSize] at *
  omega

/-- **The fold over disjoint entries** adds exactly their frames. -/
lemma addEntries_free {entries : List MemmapEntry} :
    ∀ {b : BuddyBits}, Apart (chunks b) → (∀ x ∈ entries, x.Below) →
      entries.Pairwise (fun x y => Disjoint x.frames y.frames) →
      (∀ x ∈ entries, Disjoint (freeFrames b) x.frames) →
      ∃ b', entries.foldlM addEntry b = some b' ∧ Apart (chunks b') ∧
        ∀ f, f ∈ freeFrames b' ↔ f ∈ freeFrames b ∨ ∃ x ∈ entries, f ∈ x.frames := by
  induction entries with
  | nil => exact fun {b} hA _ _ _ => ⟨b, rfl, hA, fun f => by simp⟩
  | cons x entries ih =>
      intro b hA hbelow hpair hfresh
      obtain ⟨hx, hpair⟩ := List.pairwise_cons.mp hpair
      obtain ⟨b₁, hb₁, hA₁, hfree₁⟩ := addEntry_free hA (hbelow x List.mem_cons_self)
        (hfresh x List.mem_cons_self)
      have hfresh₁ : ∀ y ∈ entries, Disjoint (freeFrames b₁) y.frames := fun y hy => by
        rw [hfree₁, Finset.disjoint_union_left]
        exact ⟨hfresh y (List.mem_cons_of_mem x hy), hx y hy⟩
      obtain ⟨b', hb', hA', hfree⟩ := ih hA₁ (fun y hy => hbelow y (List.mem_cons_of_mem x hy))
        hpair hfresh₁
      refine ⟨b', ?_, hA', fun f => ?_⟩
      · rw [List.foldlM_cons, hb₁]
        exact hb'
      · rw [hfree, hfree₁, Finset.mem_union, or_assoc]
        simp only [List.mem_cons, exists_eq_or_imp]

/-- **`new` marks exactly the usable memory.**  For every memory map whose usable
entries are aligned, disjoint and below 64 GiB, `new` returns from the zeroed bitmap;
every set bit lies in the range of its level, the chunks are disjoint, and the frames
they cover are those of the usable entries. -/
theorem new_marks_usable (map : List MemmapEntry) (hmap : DisjointMap map) :
    ∃ b, RuneFrameAllocator.new (BitArr.zeroed _) map = some b ∧
      (∀ p ∈ b.ones, ∃ i l, absoluteToRelative p = some (i, l) ∧ l < buddyLevels ∧
        i < levelOffset (l + 1) - levelOffset l) ∧
      Apart (chunks b) ∧
      ∀ f, f ∈ freeFrames b ↔ ∃ entry ∈ map, entry.ty = .usable ∧
        entry.base ≤ f * pageSize ∧ f * pageSize < entry.base + entry.length := by
  have hframes : ∀ x ∈ usableEntries map, ∀ f, f ∈ x.frames ↔
      x.base ≤ f * pageSize ∧ f * pageSize < x.base + x.length := fun x hx f =>
    MemmapEntry.mem_frames (hmap.aligned x hx).1 (hmap.aligned x hx).2
  have hpair : (usableEntries map).Pairwise fun x y => Disjoint x.frames y.frames := by
    refine hmap.disjoint.imp_of_mem fun hx hy hxy => Finset.disjoint_left.mpr fun f hfx hfy => ?_
    rw [hframes _ hx] at hfx
    rw [hframes _ hy] at hfy
    exact hxy _ ⟨hfx.1, hfx.2, hfy⟩
  have hnone : freeFrames (BitArr.zeroed totalBuddyBits) = ∅ := by
    rw [freeFrames, chunks_zeroed]
    rfl
  obtain ⟨b, hb, hA, hfree⟩ := addEntries_free (b := BitArr.zeroed _) apart_empty hmap.below hpair
    fun x _ => hnone ▸ Finset.disjoint_empty_left _
  refine ⟨b, hb, fun p hp => exists_level_of_mem hp, hA, fun f => ?_⟩
  rw [hfree, hnone]
  constructor
  · rintro (hf | ⟨x, hx, hf⟩)
    · exact absurd hf (Finset.notMem_empty f)
    · obtain ⟨hmem, husable⟩ := List.mem_filter.mp hx
      exact ⟨x, hmem, of_decide_eq_true husable, (hframes x hx f).mp hf⟩
  · rintro ⟨x, hmem, husable, hf⟩
    have hx : x ∈ usableEntries map := List.mem_filter.mpr ⟨hmem, decide_eq_true husable⟩
    exact Or.inr ⟨x, hx, (hframes x hx f).mpr hf⟩

/-- Two usable entries that touch, around a reserved one. -/
def touchingEntries : List MemmapEntry :=
  [⟨0x3000, 0x5000, .usable⟩, ⟨0x100000, 0x800, .reserved⟩, ⟨0x8000, 0x2000, .usable⟩]

theorem new_marks_touchingEntries :
    DisjointMap touchingEntries ∧
      ∃ b, RuneFrameAllocator.new (BitArr.zeroed _) touchingEntries = some b ∧
        Apart (chunks b) ∧ 9 ∈ freeFrames b ∧ 10 ∉ freeFrames b := by
  have hmap : DisjointMap touchingEntries := by
    refine ⟨by decide, by decide, ?_⟩
    rw [show usableEntries touchingEntries =
      [⟨0x3000, 0x5000, .usable⟩, ⟨0x8000, 0x2000, .usable⟩] by decide, List.pairwise_pair]
    rintro a ⟨-, hlt, hle, -⟩
    exact absurd hlt (not_lt.mpr hle)
  obtain ⟨b, hb, -, hA, hfree⟩ := new_marks_usable touchingEntries hmap
  refine ⟨hmap, b, hb, hA, (hfree 9).mpr ?_, fun h => absurd ((hfree 10).mp h) ?_⟩
  · decide
  · decide

/-- Two entries are disjoint and do not touch (an empty entry touches nothing). -/
def MemmapEntry.NotTouching (x y : MemmapEntry) : Prop :=
  x.length = 0 ∨ y.length = 0 ∨ x.base + x.length < y.base ∨ y.base + y.length < x.base

/-- A memory map whose usable entries start at page boundaries, end at or below
64 GiB and do not touch each other. -/
structure SeparateMap (map : List MemmapEntry) : Prop where
  aligned : ∀ entry ∈ usableEntries map, entry.base % pageSize = 0
  below : ∀ entry ∈ usableEntries map, entry.Below
  apart : (usableEntries map).Pairwise MemmapEntry.NotTouching

/-- Entries that do not touch have frames that do not touch. -/
lemma MemmapEntry.NotTouching.clear {x y : MemmapEntry} (h : x.NotTouching y)
    (hx : x.base % pageSize = 0) (hy : y.base % pageSize = 0) {f : ℕ} (hf : f ∈ x.frames) :
    Clear f (y.base / pageSize) (y.base / pageSize + y.length / pageSize) := by
  intro hlt
  have hf' := Finset.mem_Ico.mp hf
  simp only [NotTouching, pageSize] at h hx hy hf' hlt ⊢
  omega

/-- The fold over the entries: the bitmap stays a merged set of disjoint chunks. -/
lemma addEntries_spec : ∀ (entries : List MemmapEntry) (b : BuddyBits), Apart (chunks b) →
    Merged topLevel (chunks b) → (∀ x ∈ entries, x.base % pageSize = 0) →
    (∀ x ∈ entries, x.Below) → entries.Pairwise MemmapEntry.NotTouching →
    (∀ x ∈ entries, ∀ f ∈ freeFrames b, Clear f (x.base / pageSize)
      (x.base / pageSize + x.length / pageSize)) →
    ∃ b', entries.foldlM addEntry b = some b' ∧ Apart (chunks b') ∧
      Merged topLevel (chunks b')
  | [], b, hA, hM, _, _, _, _ => ⟨b, rfl, hA, hM⟩
  | x :: entries, b, hA, hM, hal, hbel, hpair, hclear => by
      have hx := hclear x (by simp)
      have hdis : Disjoint (freeFrames b) x.frames := by
        refine Finset.disjoint_left.mpr fun f hf hfe => ?_
        have h1 := Finset.mem_Ico.mp hfe
        have h2 := hx f hf (by omega)
        omega
      obtain ⟨b₁, hb₁, hA₁, hfree₁⟩ := addEntry_free hA (hbel x (by simp)) hdis
      have hM₁ := addEntry_merged hA hM (hbel x (by simp)) hx hb₁
      rw [List.pairwise_cons] at hpair
      obtain ⟨b₂, hb₂, hA₂, hM₂⟩ := addEntries_spec entries b₁ hA₁ hM₁
        (fun y hy => hal y (by simp [hy])) (fun y hy => hbel y (by simp [hy])) hpair.2 (by
          intro y hy f hf
          rw [hfree₁, Finset.mem_union] at hf
          rcases hf with hf | hf
          · exact hclear y (by simp [hy]) f hf
          · exact (hpair.1 y hy).clear (hal x (by simp)) (hal y (by simp [hy])) hf)
      refine ⟨b₂, ?_, hA₂, hM₂⟩
      rw [List.foldlM_cons, hb₁]
      exact hb₂

/-- `new` on the zeroed bitmap. -/
lemma new_spec {map : List MemmapEntry} (hmap : SeparateMap map) :
    ∃ b, RuneFrameAllocator.new (BitArr.zeroed _) map = some b ∧ Apart (chunks b) ∧
      Merged topLevel (chunks b) :=
  addEntries_spec (usableEntries map) (BitArr.zeroed _) apart_empty (fun _ h => by simp at h)
    hmap.aligned hmap.below hmap.apart (fun _ _ f hf => by simp [freeFrames, free] at hf)

/-! ### Runs from `new` -/

/-- One allowed call that returns and asks for at least one frame. -/
inductive ProperStep : AllocState → AllocState → Prop where
  | serve {s : AllocState} (req : Request) {r : Option (ℕ × ℕ)} {b' : BuddyBits}
      (hreq : req.Allowed s.outstanding) (hprop : req.Proper)
      (hret : req.serve s.bits = some (r, b')) :
      ProperStep s ⟨b', req.outstandingAfter s.outstanding r⟩

/-- A run of proper calls keeps the chunks disjoint and merged. -/
lemma merged_of_run {b₀ : BuddyBits} (h₀ : Apart (chunks b₀)) (hM₀ : Merged topLevel (chunks b₀))
    {s : AllocState} (hrun : Relation.ReflTransGen ProperStep ⟨b₀, ∅⟩ s) :
    Conserves b₀ s ∧ Merged topLevel (chunks s.bits) := by
  induction hrun with
  | refl => exact ⟨⟨h₀, Finset.disjoint_empty_right _, Finset.union_empty _⟩, hM₀⟩
  | tail _ hstep ih =>
      obtain ⟨hI, hM⟩ := ih
      obtain ⟨req, hreq, hprop, hret⟩ := hstep
      exact ⟨hI.step (AllocStep.serve req hreq hret),
        (req.effect_of_serve hI hreq hret).2 hprop hM⟩

/-- In a merged bitmap a chunk of level `k` is refused exactly when no aligned
run of `2^k` frames is free. -/
lemma allocateChunkFromLevel_none_iff {b : BuddyBits} (hM : Merged topLevel (chunks b)) {k : ℕ}
    (hk : k < buddyLevels) :
    (∃ b', allocateChunkFromLevel b k = some (none, b')) ↔
      ¬ ∃ i, ∀ f, i * 2 ^ k ≤ f → f < (i + 1) * 2 ^ k → f ∈ freeFrames b := by
  have hrun : (∃ i, ∀ f, i * 2 ^ k ≤ f → f < (i + 1) * 2 ^ k → f ∈ freeFrames b) ↔
      ∃ c ∈ chunks b, k ≤ c.level := by
    constructor
    · rintro ⟨i, hi⟩
      have hsub : (⟨k, i⟩ : Chunk).frames ⊆ free (chunks b) := fun f hf =>
        hi f (Finset.mem_Ico.mp hf).1 (Finset.mem_Ico.mp hf).2
      obtain ⟨d, hd, hcd⟩ :=
        hM.exists_superset (show k ≤ topLevel by simp only [topLevel]; omega) hsub
      exact ⟨d, hd, Chunk.level_le_of_subset hcd⟩
    · rintro ⟨c, hc, hkc⟩
      have hlvl : (c.first (c.level - k)).level = k := Nat.sub_sub_self hkc
      refine ⟨(c.first (c.level - k)).idx, fun f h1 h2 => ?_⟩
      refine frames_subset_free hc
        (Chunk.frames_first_subset (d := c.level - k) (Nat.sub_le _ _) ?_)
      rw [Chunk.frames, hlvl]
      exact Finset.mem_Ico.mpr ⟨h1, h2⟩
  rw [hrun]
  rcases allocateChunkFromLevel_spec b (Nat.le_of_lt hk) with
    ⟨hnone, hal⟩ | ⟨c, hc, hkc, -, b', hal, -⟩
  · refine ⟨fun _ => ?_, fun _ => ⟨b, hal⟩⟩
    rintro ⟨c, hc, hkc⟩
    exact absurd (hnone c hc) (by omega)
  · refine ⟨?_, fun h => absurd ⟨c, hc, hkc⟩ h⟩
    rintro ⟨b'', h⟩
    rw [hal] at h
    simp at h

/-- **The buddy system never fragments artificially.**  For a memory map whose
usable entries are page aligned, below 64 GiB and do not touch, `new` returns,
and in every state of every run from it no two buddies below the top level are
both free; so a chunk of level `k` is refused exactly when no aligned run of
`2^k` free frames exists. -/
theorem never_fragments (map : List MemmapEntry) (hmap : SeparateMap map) :
    ∃ b₀, RuneFrameAllocator.new (BitArr.zeroed _) map = some b₀ ∧
      ∀ s, Relation.ReflTransGen ProperStep ⟨b₀, ∅⟩ s →
        (∀ l < buddyLevels - 1, ∀ j, 2 * j + 1 < levelOffset (l + 1) - levelOffset l →
          ¬ (levelOffset l + 2 * j ∈ s.bits.ones ∧ levelOffset l + (2 * j + 1) ∈ s.bits.ones)) ∧
        ∀ k < buddyLevels,
          ((∃ b', allocateChunkFromLevel s.bits k = some (none, b')) ↔
            ¬ ∃ i, ∀ f, i * 2 ^ k ≤ f → f < (i + 1) * 2 ^ k → f ∈ freeFrames s.bits) := by
  obtain ⟨b₀, hnew, h₀, hM₀⟩ := new_spec hmap
  refine ⟨b₀, hnew, fun s hrun => ?_⟩
  obtain ⟨-, hM⟩ := merged_of_run h₀ hM₀ hrun
  refine ⟨fun l hl j hj hboth => ?_, fun k hk => allocateChunkFromLevel_none_iff hM hk⟩
  have hl' : l < buddyLevels := by omega
  have hlo : (⟨l, 2 * j⟩ : Chunk).Fits := ⟨hl', by simp only; omega⟩
  have hhi : (⟨l, 2 * j + 1⟩ : Chunk).Fits := ⟨hl', hj⟩
  have hmem : (⟨l, 2 * j⟩ : Chunk) ∈ chunks s.bits := by
    rw [← bit_mem_iff hlo, Chunk.bit, Nat.add_comm]
    exact hboth.1
  refine hM _ hmem hl ?_
  rw [Chunk.buddy_of_even (by simp only; omega), ← bit_mem_iff hhi, Chunk.bit, Nat.add_comm]
  exact hboth.2

/-- Two usable entries with a frame between them. -/
def twoEntries : List MemmapEntry :=
  [⟨0x3000, 0x5000, .usable⟩, ⟨0x8000, 0x1000, .reserved⟩, ⟨0x9000, 0x2000, .usable⟩]

theorem never_fragments_twoEntries :
    SeparateMap twoEntries ∧
      ∃ b₀, RuneFrameAllocator.new (BitArr.zeroed _) twoEntries = some b₀ ∧
        ((∃ b', allocateChunkFromLevel b₀ 2 = some (none, b')) ↔
          ¬ ∃ i, ∀ f, i * 2 ^ 2 ≤ f → f < (i + 1) * 2 ^ 2 → f ∈ freeFrames b₀) := by
  have hmap : SeparateMap twoEntries := by
    refine ⟨by decide, by decide, ?_⟩
    simp [usableEntries, twoEntries, MemmapEntry.NotTouching]
  obtain ⟨b₀, hb₀, h⟩ := never_fragments twoEntries hmap
  exact ⟨hmap, b₀, hb₀, (h _ Relation.ReflTransGen.refl).2 2 (by decide)⟩

end Titanium
