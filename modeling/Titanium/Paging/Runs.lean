import Titanium.Paging.Chunks
import Mathlib.Logic.Relation

/-!
Runs of `RuneFrameAllocator`.

A request is one of the allocator's operations; a run serves requests one after
the other and keeps the set of frames that are outstanding, so handed out and
not yet given back.

* `allocateChunkFromLevel_takes`, `pickOffContiguous_takes`,
  `deallocateFrame4KiB_gives`: what one operation does to the free frames, that
  it keeps the chunks apart, and that it keeps them merged.
* `Request.serve_spec` says what a served request takes and gives back, and
  `Conserves` is the invariant of a run: the free and the outstanding frames
  are disjoint and together are the frames that were free at the start.
* `no_double_allocation`: along every run, every range handed out was free just
  before and meets nothing that is outstanding.
-/

namespace Titanium

/-- The frames covered by the set bits. -/
def freeFrames (b : BuddyBits) : Finset ℕ := free (chunks b)

/-- The frames of a range handed out: a start address and a number of frames. -/
def handedOut : Option (ℕ × ℕ) → Finset ℕ
  | none => ∅
  | some (addr, n) => Finset.Ico (addr / pageSize) (addr / pageSize + n)

lemma handedOut_chunk (c : Chunk) : handedOut (some (c.addr, 2 ^ c.level)) = c.frames := by
  have h : c.addr / pageSize = c.idx * 2 ^ c.level := by
    rw [Chunk.addr, Nat.mul_div_cancel _ (by decide)]
  rw [handedOut, h, Chunk.frames, Nat.add_mul, Nat.one_mul]

/-- Every free frame is below `2^24`. -/
lemma lt_of_mem_freeFrames {b : BuddyBits} {f : ℕ} (hf : f ∈ freeFrames b) : f < 2 ^ 24 := by
  obtain ⟨c, hc, hfc⟩ := mem_free.mp hf
  have hfits := fits_of_mem hc
  exact (Chunk.fits_iff_of_mem hfits.1 hfc).mp hfits

/-- Every set bit lies in the range of its level. -/
lemma exists_level_of_mem {b : BuddyBits} {p : ℕ} (hp : p ∈ b.ones) :
    ∃ i l, absoluteToRelative p = some (i, l) ∧ l < buddyLevels ∧
      i < levelOffset (l + 1) - levelOffset l := by
  obtain ⟨c, hc, rfl⟩ := exists_fits_bit (b.lt_of_mem p hp)
  exact ⟨c.idx, c.level, hc.absoluteToRelative_bit, hc.1, hc.2⟩

/-! ### One operation -/

/-- The operation took `taken` out of the free frames and nothing else. -/
structure Takes (b : BuddyBits) (taken : Finset ℕ) (b' : BuddyBits) : Prop where
  apart : Apart (chunks b')
  subset : taken ⊆ freeFrames b
  free_eq : freeFrames b' = freeFrames b \ taken

lemma Takes.refl {b : BuddyBits} (hA : Apart (chunks b)) : Takes b ∅ b :=
  ⟨hA, Finset.empty_subset _, Finset.sdiff_empty.symm⟩

/-- The level below which buddies are merged. -/
abbrev topLevel : ℕ := buddyLevels - 1

lemma allocateChunkFromLevel_takes {b : BuddyBits} (hA : Apart (chunks b)) (minLevel : ℕ)
    (hl : minLevel ≤ buddyLevels) :
    ∃ r b', allocateChunkFromLevel b minLevel = some (r, b') ∧
      Takes b (handedOut (r.map (·, 2 ^ minLevel))) b' ∧
      (Merged topLevel (chunks b) → Merged topLevel (chunks b')) := by
  rcases allocateChunkFromLevel_spec b hl with ⟨-, hal⟩ | ⟨c, hc, hcl, -, b', hal, hch⟩
  · exact ⟨none, b, hal, Takes.refl hA, id⟩
  have hd : c.level - minLevel ≤ c.level := Nat.sub_le _ _
  obtain ⟨hA', hfree⟩ := carve_of_mem hA hc hd
  have hlvl : (c.first (c.level - minLevel)).level = minLevel := Nat.sub_sub_self hcl
  have hrange : handedOut (some ((c.first (c.level - minLevel)).addr, 2 ^ minLevel)) =
      (c.first (c.level - minLevel)).frames := by
    rw [← handedOut_chunk, hlvl]
  refine ⟨_, b', hal, ⟨hch ▸ hA', ?_, ?_⟩, fun hM => hch ▸ hM.carve hA hc hd⟩
  · rw [Option.map_some, hrange]
    exact (Chunk.frames_first_subset hd).trans (frames_subset_free hc)
  · rw [Option.map_some, hrange, freeFrames, hch, hfree]
    rfl

/-- The frames of a pick are what the carved chunk loses once the tail is back. -/
lemma carve_tile {S : Finset Chunk} {c : Chunk} {t n : ℕ} (hA : Apart S) (hc : c ∈ S)
    (ht : t ≤ c.level) (hn : n ≤ 2 ^ t) :
    let h := c.first (c.level - t)
    let S' := tile (carve (c.level - t) S c) (2 ^ t - n) ((h.idx + 1) * 2 ^ t)
    Apart S' ∧ handedOut (some (h.addr, n)) ⊆ free S ∧
      free S' = free S \ handedOut (some (h.addr, n)) := by
  intro h S'
  have hd : c.level - t ≤ c.level := Nat.sub_le _ _
  have hlvl : h.level = t := Nat.sub_sub_self ht
  obtain ⟨hA₁, hfree₁⟩ := carve_of_mem hA hc hd
  have hstart : h.addr / pageSize = h.idx * 2 ^ t := by
    rw [Chunk.addr, hlvl, Nat.mul_div_cancel _ (by decide)]
  have hend : (h.idx + 1) * 2 ^ t = h.idx * 2 ^ t + 2 ^ t := by ring
  have hframes : h.frames = Finset.Ico (h.idx * 2 ^ t) (h.idx * 2 ^ t + 2 ^ t) := by
    rw [Chunk.frames, hlvl, hend]
  have hsub : h.frames ⊆ free S :=
    (Chunk.frames_first_subset hd).trans (frames_subset_free hc)
  -- the tail given back is the end of the carved chunk
  have htail : (h.idx + 1) * 2 ^ t - (2 ^ t - n) = h.idx * 2 ^ t + n := by omega
  have htailsub : Finset.Ico (h.idx * 2 ^ t + n) ((h.idx + 1) * 2 ^ t) ⊆ h.frames := by
    rw [hframes, hend]
    exact Finset.Ico_subset_Ico_left (Nat.le_add_right _ _)
  have hpos : 0 < 2 ^ t := Nat.two_pow_pos t
  obtain ⟨hA₂, hfree₂⟩ := tile_spec (carve (c.level - t) S c) (2 ^ t - n) ((h.idx + 1) * 2 ^ t)
    (l := t) (dvd_mul_left _ _) (by rw [pow_succ]; omega) (by omega) hA₁
    (by rw [htail, hfree₁]; exact Finset.disjoint_sdiff.mono_left htailsub)
  refine ⟨hA₂, ?_, ?_⟩
  · rw [handedOut, hstart]
    refine (Finset.Ico_subset_Ico_right ?_).trans (hframes ▸ hsub)
    omega
  · rw [hfree₂, hfree₁, htail, handedOut, hstart, hend, show c.first (c.level - t) = h from rfl]
    ext f
    have hmem : f ∈ h.frames ↔ h.idx * 2 ^ t ≤ f ∧ f < h.idx * 2 ^ t + 2 ^ t := by
      rw [hframes, Finset.mem_Ico]
    have hin : f ∈ h.frames → f ∈ free S := fun hf => hsub hf
    rw [Finset.mem_union, Finset.mem_sdiff, Finset.mem_sdiff, Finset.mem_Ico, Finset.mem_Ico]
    rw [hmem] at hin ⊢
    constructor
    · rintro (⟨h1, h2⟩ | h1)
      · exact ⟨h1, by omega⟩
      · exact ⟨hin ⟨by omega, h1.2⟩, by omega⟩
    · rintro ⟨h1, h2⟩
      by_cases h3 : h.idx * 2 ^ t ≤ f ∧ f < h.idx * 2 ^ t + 2 ^ t
      · exact Or.inr ⟨by omega, h3.2⟩
      · exact Or.inl ⟨h1, h3⟩

/-- Giving the tail back keeps the chunks merged when a frame is kept. -/
lemma merged_carve_tile {S : Finset Chunk} {c : Chunk} {top t n : ℕ} (hA : Apart S) (hc : c ∈ S)
    (ht : t ≤ c.level) (hn : n ≤ 2 ^ t) (hn1 : 1 ≤ n) (hM : Merged top S) :
    let h := c.first (c.level - t)
    Merged top (tile (carve (c.level - t) S c) (2 ^ t - n) ((h.idx + 1) * 2 ^ t)) := by
  intro h
  have hd : c.level - t ≤ c.level := Nat.sub_le _ _
  have hlvl : h.level = t := Nat.sub_sub_self ht
  obtain ⟨-, -, hfree⟩ := carve_tile hA hc ht hn
  have hend : (h.idx + 1) * 2 ^ t = h.idx * 2 ^ t + 2 ^ t := by ring
  have hpos : 0 < 2 ^ t := Nat.two_pow_pos t
  refine (hM.carve hA hc hd).of_new fun x hx _ => ?_
  rcases mem_tile _ _ _ (l := t) (dvd_mul_left _ _) (by omega) (by omega) hx with hmem | hmem
  · exact Or.inl hmem
  -- the last frame of the range handed out is not free
  · refine Or.inr ⟨_, hmem, fun hf => ?_⟩
    rw [hfree, Finset.mem_sdiff, handedOut, Chunk.addr, Nat.mul_div_cancel _ (by decide),
      Finset.mem_Ico] at hf
    rw [show (c.first (c.level - t)) = h from rfl, hlvl] at hf
    omega

lemma pickOffContiguous_takes {b : BuddyBits} (hA : Apart (chunks b)) {n m : ℕ} (hn : n ≤ 2 ^ 16)
    (hm : m ≤ 2 ^ 63) :
    ∃ r b', pickOffContiguous b n m = some (r, b') ∧ Takes b (handedOut r) b' ∧
      (1 ≤ n → Merged topLevel (chunks b) → Merged topLevel (chunks b')) := by
  rcases pickOffContiguous_spec b hA hn hm with ⟨-, hp⟩ | ⟨-, c, hc, hcl, -, b', hp, hch⟩
  · exact ⟨none, b, hp, Takes.refl hA, fun _ hM => hM⟩
  have hnt : n ≤ 2 ^ Nat.clog 2 n := Nat.le_pow_clog (by norm_num) n
  obtain ⟨h1, h2, h3⟩ := carve_tile hA hc hcl hnt
  refine ⟨_, b', hp, ⟨hch ▸ h1, h2, ?_⟩, fun hn1 hM => ?_⟩
  · rw [freeFrames, hch, h3]
    rfl
  · rw [hch]
    exact merged_carve_tile hA hc hcl hnt hn1 hM

/-- Freeing a frame that is not free adds it to the free frames. -/
lemma deallocateFrame4KiB_gives {b : BuddyBits} (hA : Apart (chunks b)) {f : ℕ}
    (hf : f ∉ freeFrames b) (hlt : f < 2 ^ 24) :
    ∃ b', deallocateFrame4KiB b (f * pageSize) = some b' ∧ Apart (chunks b') ∧
      freeFrames b' = insert f (freeFrames b) ∧
      (Merged topLevel (chunks b) → Merged topLevel (chunks b')) := by
  have hmem : f ∈ (⟨0, f⟩ : Chunk).frames := by simp
  have hframes : (⟨0, f⟩ : Chunk).frames = {f} := by
    ext g
    simp
  have hfits : (⟨0, f⟩ : Chunk).Fits :=
    (Chunk.fits_iff_of_mem (show 0 < buddyLevels by decide) hmem).mpr hlt
  have hidx : addrToRelativeIndex (f * pageSize) 0 = f := by
    rw [addrToRelativeIndex, Nat.mul_div_cancel _ (by decide), Nat.shiftRight_zero]
  have hbit : f = (⟨0, f⟩ : Chunk).bit := rfl
  obtain ⟨b₁, hb₁, hch₁⟩ := exists_write_true b hfits
  obtain ⟨b₂, hb₂, hch₂⟩ := mergeUpFrom_spec b₁ hfits
  have hA₁ : Apart (chunks b₁) := by
    rw [hch₁]
    exact hA.insert (by rwa [hframes, Finset.disjoint_singleton_left])
  obtain ⟨hA₂, hfree₂⟩ := merge_spec (d := topLevel - 0) (c := ⟨0, f⟩) hA₁
  refine ⟨b₂, ?_, hch₂ ▸ hA₂, ?_, fun hM => ?_⟩
  · rw [deallocateFrame4KiB, hidx]
    rw [← hbit] at hb₁
    simp only [hb₁, Option.bind_eq_bind, Option.bind_some]
    exact hb₂
  · rw [freeFrames, hch₂, hfree₂, hch₁, free_insert, hframes, freeFrames, Finset.insert_eq]
  · rw [hch₂, hch₁]
    exact hM.merge_insert rfl

/-! ### Runs -/

/-- A call of the allocator. -/
inductive Request where
  | allocateFrame4KiB
  | allocateFrame2MiB
  | pickOffContiguous (nFrames minFrames : ℕ)
  | deallocateFrame4KiB (frame : ℕ)
  deriving DecidableEq, Repr

namespace Request

/-- The call on a bitmap: the range it hands out, and the bitmap after it. -/
def serve : Request → BuddyBits → Option (Option (ℕ × ℕ) × BuddyBits)
  | allocateFrame4KiB, b => (Titanium.allocateFrame4KiB b).map fun (r, b) => (r.map (·, 1), b)
  | allocateFrame2MiB, b => (Titanium.allocateFrame2MiB b).map fun (r, b) => (r.map (·, 512), b)
  | pickOffContiguous n m, b => Titanium.pickOffContiguous b n m
  | deallocateFrame4KiB frame, b => (Titanium.deallocateFrame4KiB b frame).map fun b => (none, b)

/-- What a caller may ask for: at most `2^16` contiguous frames in units of at
least one, and giving back one frame that is outstanding. -/
def Allowed (outstanding : Finset ℕ) : Request → Prop
  | allocateFrame4KiB => True
  | allocateFrame2MiB => True
  | pickOffContiguous n m => n ≤ 2 ^ 16 ∧ 1 ≤ m
  | deallocateFrame4KiB frame => ∃ f ∈ outstanding, frame = f * pageSize

/-- The call does not panic on its arguments: a unit above `2^63` has no power
of two above it in 64 bits. -/
def InBounds : Request → Prop
  | pickOffContiguous _ m => m ≤ 2 ^ 63
  | _ => True

/-- The outstanding frames after the call. -/
def outstandingAfter (outstanding : Finset ℕ) (r : Option (ℕ × ℕ)) : Request → Finset ℕ
  | deallocateFrame4KiB frame => outstanding.erase (frame / pageSize)
  | _ => outstanding ∪ handedOut r

end Request

/-- The allocator and the frames it has handed out. -/
structure AllocState where
  bits : BuddyBits
  outstanding : Finset ℕ

/-- One allowed call that returns. -/
inductive AllocStep : AllocState → AllocState → Prop where
  | serve {s : AllocState} (req : Request) {r : Option (ℕ × ℕ)} {b' : BuddyBits}
      (hreq : req.Allowed s.outstanding) (hret : req.serve s.bits = some (r, b')) :
      AllocStep s ⟨b', req.outstandingAfter s.outstanding r⟩

/-- The invariant of a run from the bitmap `b₀`. -/
structure Conserves (b₀ : BuddyBits) (s : AllocState) : Prop where
  apart : Apart (chunks s.bits)
  disjoint : Disjoint (freeFrames s.bits) s.outstanding
  union_eq : freeFrames s.bits ∪ s.outstanding = freeFrames b₀

/-- What a call does to the bitmap: giving a frame back frees it, every other
call takes what it hands out. -/
def Request.Effect (b : BuddyBits) (r : Option (ℕ × ℕ)) (b' : BuddyBits) : Request → Prop
  | deallocateFrame4KiB frame =>
      r = none ∧ Apart (chunks b') ∧ freeFrames b' = insert (frame / pageSize) (freeFrames b)
  | _ => Takes b (handedOut r) b'

/-- The call asks for at least one frame when it asks for contiguous ones. -/
def Request.Proper : Request → Prop
  | pickOffContiguous n _ => 1 ≤ n
  | _ => True

/-- **One call**: it returns, has its effect, and leaves no buddies unmerged. -/
lemma Request.serve_spec {b₀ : BuddyBits} {s : AllocState} (hI : Conserves b₀ s) {req : Request}
    (hreq : req.Allowed s.outstanding) (hb : req.InBounds) :
    ∃ r b', req.serve s.bits = some (r, b') ∧ req.Effect s.bits r b' ∧
      (req.Proper → Merged topLevel (chunks s.bits) → Merged topLevel (chunks b')) := by
  cases req with
  | allocateFrame4KiB =>
      obtain ⟨r, b', h, hT, hM⟩ := allocateChunkFromLevel_takes hI.apart 0 (by decide)
      exact ⟨_, b', by rw [serve, Titanium.allocateFrame4KiB, h]; rfl, hT, fun _ => hM⟩
  | allocateFrame2MiB =>
      obtain ⟨r, b', h, hT, hM⟩ :=
        allocateChunkFromLevel_takes hI.apart level2MiB (by decide)
      exact ⟨_, b', by rw [serve, Titanium.allocateFrame2MiB, h]; rfl, hT, fun _ => hM⟩
  | pickOffContiguous n m =>
      obtain ⟨r, b', h, hT, hM⟩ := pickOffContiguous_takes hI.apart hreq.1 hb
      exact ⟨r, b', h, hT, hM⟩
  | deallocateFrame4KiB frame =>
      obtain ⟨f, hf, rfl⟩ := hreq
      have hfree : f ∈ freeFrames b₀ := hI.union_eq ▸ Finset.mem_union_right _ hf
      obtain ⟨b', h, hA, hfr, hM⟩ := deallocateFrame4KiB_gives hI.apart
        (Finset.disjoint_right.mp hI.disjoint hf) (lt_of_mem_freeFrames hfree)
      refine ⟨none, b', by rw [serve, h]; rfl, ⟨rfl, hA, ?_⟩, fun _ => hM⟩
      rwa [Nat.mul_div_cancel _ (by decide)]

/-- A call that returned had arguments in bounds. -/
lemma Request.inBounds_of_serve {b : BuddyBits} {req : Request} {x : Option (ℕ × ℕ) × BuddyBits}
    (h : req.serve b = some x) : req.InBounds := by
  cases req with
  | pickOffContiguous n m =>
      by_contra hm
      simp only [InBounds] at hm
      have hnone : nextPowerOfTwo m = none := if_neg hm
      simp only [serve, Titanium.pickOffContiguous, hnone, Option.bind_eq_bind, Option.bind_none,
        Option.bind_fun_none] at h
      exact absurd h (by simp)
  | _ => trivial

/-- The effect of a call that returned. -/
lemma Request.effect_of_serve {b₀ : BuddyBits} {s : AllocState} (hI : Conserves b₀ s)
    {req : Request} (hreq : req.Allowed s.outstanding) {r : Option (ℕ × ℕ)} {b' : BuddyBits}
    (h : req.serve s.bits = some (r, b')) :
    req.Effect s.bits r b' ∧
      (req.Proper → Merged topLevel (chunks s.bits) → Merged topLevel (chunks b')) := by
  obtain ⟨r₁, b₁, h₁, hE, hM⟩ := req.serve_spec hI hreq (inBounds_of_serve h)
  rw [h, Option.some.injEq, Prod.mk.injEq] at h₁
  obtain ⟨rfl, rfl⟩ := h₁
  exact ⟨hE, hM⟩

/-- Taking frames moves them from the free to the outstanding ones. -/
lemma Conserves.take {b₀ : BuddyBits} {s : AllocState} (hI : Conserves b₀ s) {taken : Finset ℕ}
    {b' : BuddyBits} (hT : Takes s.bits taken b') :
    Conserves b₀ ⟨b', s.outstanding ∪ taken⟩ := by
  refine ⟨hT.apart, ?_, ?_⟩
  · simp only [hT.free_eq, Finset.disjoint_union_right]
    exact ⟨hI.disjoint.mono_left Finset.sdiff_subset, Finset.sdiff_disjoint⟩
  · simp only [hT.free_eq, ← hI.union_eq]
    rw [Finset.union_comm s.outstanding, ← Finset.union_assoc,
      Finset.sdiff_union_of_subset hT.subset]

/-- **The step lemma.** -/
lemma Conserves.step {b₀ : BuddyBits} {s s' : AllocState} (hI : Conserves b₀ s)
    (hstep : AllocStep s s') : Conserves b₀ s' := by
  obtain ⟨req, hreq, hret⟩ := hstep
  have hE := (req.effect_of_serve hI hreq hret).1
  cases req with
  | allocateFrame4KiB => exact hI.take hE
  | allocateFrame2MiB => exact hI.take hE
  | pickOffContiguous n m => exact hI.take hE
  | deallocateFrame4KiB frame =>
      obtain ⟨f, hf, rfl⟩ := hreq
      obtain ⟨-, hA, hfree⟩ := hE
      rw [Nat.mul_div_cancel _ (by decide)] at hfree
      refine ⟨hA, ?_, ?_⟩ <;>
        simp only [Request.outstandingAfter, Nat.mul_div_cancel f (show 0 < pageSize by decide),
          hfree]
      · rw [Finset.disjoint_insert_left]
        exact ⟨Finset.notMem_erase f _, hI.disjoint.mono_right (Finset.erase_subset f _)⟩
      · rw [Finset.insert_union, ← Finset.union_insert, Finset.insert_erase hf, hI.union_eq]

/-- The invariant holds along every run from a bitmap of disjoint chunks. -/
lemma conserves_of_run {b₀ : BuddyBits} (h₀ : Apart (chunks b₀)) {s : AllocState}
    (hrun : Relation.ReflTransGen AllocStep ⟨b₀, ∅⟩ s) : Conserves b₀ s := by
  induction hrun with
  | refl => exact ⟨h₀, Finset.disjoint_empty_right _, Finset.union_empty _⟩
  | tail _ hstep ih => exact ih.step hstep

/-- **No double allocation, and no frame lost.**  In every state of every run
from a bitmap whose set bits denote disjoint chunks:

* every set bit lies in its level, and the chunks are disjoint;
* the free and the outstanding frames are disjoint and together are the frames
  free at the start;
* whatever an allowed call hands out was free before it, so it meets no range
  that is outstanding; and every allowed call returns, up to the one panic on
  a unit above `2^63`. -/
theorem no_double_allocation (b₀ : BuddyBits) (h₀ : Apart (chunks b₀)) (s : AllocState)
    (hrun : Relation.ReflTransGen AllocStep ⟨b₀, ∅⟩ s) :
    (∀ p ∈ s.bits.ones, ∃ i l, absoluteToRelative p = some (i, l) ∧ l < buddyLevels ∧
        i < levelOffset (l + 1) - levelOffset l) ∧
      Apart (chunks s.bits) ∧
      Disjoint (freeFrames s.bits) s.outstanding ∧
      freeFrames s.bits ∪ s.outstanding = freeFrames b₀ ∧
      ∀ req : Request, req.Allowed s.outstanding →
        (∀ r b', req.serve s.bits = some (r, b') →
          handedOut r ⊆ freeFrames s.bits ∧ Disjoint (handedOut r) s.outstanding) ∧
        (req.InBounds → ∃ r b', req.serve s.bits = some (r, b')) := by
  have hI := conserves_of_run h₀ hrun
  refine ⟨fun p hp => exists_level_of_mem hp, hI.apart, hI.disjoint, hI.union_eq,
    fun req hreq => ⟨?_, ?_⟩⟩
  · intro r b' hret
    have hsub : handedOut r ⊆ freeFrames s.bits := by
      have hE := (req.effect_of_serve hI hreq hret).1
      cases req with
      | deallocateFrame4KiB frame =>
          rw [hE.1]
          exact Finset.empty_subset _
      | _ => exact hE.subset
    exact ⟨hsub, hI.disjoint.mono_left hsub⟩
  · intro hb
    obtain ⟨r, b', h, -⟩ := req.serve_spec hI hreq hb
    exact ⟨r, b', h⟩

/-- One free chunk: the frames 0 and 1, as the first chunk of level 1. -/
def onePair : BuddyBits := ⟨{16777216}, by decide⟩

lemma chunks_onePair : chunks onePair = {⟨1, 0⟩} := by decide

lemma apart_onePair : Apart (chunks onePair) := chunks_onePair ▸ apart_singleton _

/-- `onePair` with frame 0 handed out. -/
def oneFrame : BuddyBits := ⟨{1}, by decide⟩

theorem no_double_allocation_onePair :
    Relation.ReflTransGen AllocStep ⟨onePair, ∅⟩ ⟨oneFrame, {0}⟩ ∧
      freeFrames oneFrame ∪ {0} = freeFrames onePair := by
  have hserve : Request.serve .allocateFrame4KiB onePair = some (some (0, 1), oneFrame) := by
    decide +kernel
  have hrun : Relation.ReflTransGen AllocStep ⟨onePair, ∅⟩ ⟨oneFrame, {0}⟩ :=
    Relation.ReflTransGen.single
      (AllocStep.serve (s := ⟨onePair, ∅⟩) .allocateFrame4KiB trivial hserve)
  exact ⟨hrun, (no_double_allocation onePair apart_onePair _ hrun).2.2.2.1⟩

end Titanium
