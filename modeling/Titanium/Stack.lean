import Titanium.Paging.Mapall
import Mathlib.Logic.Relation

/-!
Kernel stacks (`stack.rs`).

`stack::init` maps the guard pages of the kernel's stack slots, `scheduler::init`
maps the scheduler's stack, and from then on `make_kernel_stack` takes the first
unused slot and calls `page_region` for its pages.  Neither the slot nor the
caller sees whether that call succeeded.

* `stackInit_panics`: the guard pages need the tables above them, which `map_to`
  cannot make for pages that are not present.
* `makeKernelStack_spec`: a call that returns `Ok` has used up one slot and has
  called `page_region` for the pages of the slot.
* `Sound`: the invariant of a run.  The slots that are unused are not in
  anybody's way, and the stacks made so far own their frames.
* `kernel_stacks_own_memory`: along every run in which the slots are not mapped
  at boot and every call finds the frames it needs, every stack is mapped
  to frames of its own.
* `kernel_stack_in_direct_map`: with the slots inside the direct map a call
  returns `Ok` for a stack that is the direct map's view of free frames.
-/

namespace Titanium

/-! ### `stack.rs` -/

/-- `vmem::PAGE_FLAG_GUARD`. -/
def pageFlagGuard : PageTableFlags := PageTableFlags.bit9

/-- `vmem::PAGE_FLAG_STACK`. -/
def pageFlagStack : PageTableFlags := PageTableFlags.bit10

/-- The flags of the pages of a stack. -/
def stackFlags : PageTableFlags :=
  PageTableFlags.present ||| PageTableFlags.writable ||| pageFlagStack

section Model

variable (M : Mapper) (hhdm : ℕ)

/-- `make_scheduler_stack`. -/
def makeSchedulerStack (t : M.Table) (b : BuddyBits) : Option (M.Table × BuddyBits) := do
  let hhdmTop ← virtAdd hhdm hhdmTopOffset
  let bottom ← virtAdd hhdmTop schedulerStackBottomOffset
  let top ← virtAdd hhdmTop schedulerStackTopOffset
  match ← pageRegion M .size4KiB t b (← virtAdd bottom pageSize) (← virtSub top pageSize)
      stackFlags with
  | (.error (), _, _) => none
  | (.ok (), t, b) =>
      -- map guard pages
      let (_, t, b) ← M.mapTo t b .size4KiB (bottom / pageSize) 0 pageFlagGuard
      let (_, t, b) ← M.mapTo t b .size4KiB (top / pageSize - 1) 0 pageFlagGuard
      return (t, b)

/-- One of the loops of `init`: `k` guard pages, `stride` pages apart. -/
def mapGuards (stride : ℕ) : ℕ → ℕ → M.Table → BuddyBits → Option (ℕ × M.Table × BuddyBits)
  | 0, curpage, t, b => some (curpage, t, b)
  | k + 1, curpage, t, b => do
      let (_, t, b) ← M.mapTo t b .size4KiB curpage 0 (pageFlagGuard ||| pageFlagStack)
      let curpage ← pageAdd .size4KiB curpage stride
      mapGuards stride k curpage t b

/-- `init`: the guard pages below the large stacks, then those below the small
ones and the one above them. -/
def stackInit (t : M.Table) (b : BuddyBits) : Option (M.Table × BuddyBits) := do
  let bottomAddr ← virtAdd hhdm kernelStackSpaceBottomOffset
  let (curpage, t, b) ← mapGuards M (1 + largeKernelStackPages) nLargeKernelStacks
    (bottomAddr / pageSize) t b
  let (_, t, b) ← mapGuards M (1 + smallKernelStackPages) (nSmallKernelStacks + 1) curpage t b
  return (t, b)

/-- `STACK_MANAGER`, `MAPALL` and the interrupt flag. -/
structure Kernel where
  table : M.Table
  bits : BuddyBits
  kernelLargeStacks : BitArr nLargeKernelStacks
  kernelSmallStacks : BitArr nSmallKernelStacks
  interrupts : Bool

/-- The body that `map_small_stack` and `map_large_stack` share: the first
unused slot is marked used and its pages are mapped.  Without a slot it returns
with interrupts disabled. -/
def mapStack {n : ℕ} (firstTopOffset size : ℕ) (slots : BitArr n)
    (setSlots : BitArr n → Kernel M → Kernel M) (k : Kernel M) :
    Option (Except Unit ℕ × Kernel M) := do
  let k := { k with interrupts := false }
  match ← slots.firstOneFrom 0 with
  | none => return (.error (), k)
  | some index =>
      let k := setSlots (← slots.write index false) k
      let stop ← virtAdd (← virtAdd hhdm firstTopOffset) ((size + pageSize) * index)
      let start ← virtSub stop size
      -- the result of `page_region` is dropped
      let (_, t, b) ← pageRegion M .size4KiB k.table k.bits start stop stackFlags
      return (.ok stop, { k with table := t, bits := b, interrupts := true })

/-- `map_small_stack`. -/
def mapSmallStack (k : Kernel M) : Option (Except Unit ℕ × Kernel M) :=
  mapStack M hhdm firstSmallKernelStackTopOffset smallKernelStackSize k.kernelSmallStacks
    (fun slots k => { k with kernelSmallStacks := slots }) k

/-- `map_large_stack`. -/
def mapLargeStack (k : Kernel M) : Option (Except Unit ℕ × Kernel M) :=
  mapStack M hhdm firstLargeKernelStackTopOffset largeKernelStackSize k.kernelLargeStacks
    (fun slots k => { k with kernelLargeStacks := slots }) k

/-- `make_kernel_stack`. -/
def makeKernelStack (k : Kernel M) (smallStack : Bool) : Option (Except Unit ℕ × Kernel M) :=
  if smallStack then mapSmallStack M hhdm k else mapLargeStack M hhdm k

/-- The kernel after `stack::init` and `scheduler::init`. -/
def bootKernel (t : M.Table) (b : BuddyBits) : Kernel M :=
  ⟨t, b, BitArr.full _, BitArr.full _, true⟩

end Model

/-! ### Slots -/

/-- The number of pages of a stack. -/
def stackPages : Bool → ℕ
  | true => smallKernelStackPages
  | false => largeKernelStackPages

/-- The number of slots. -/
def slotCount : Bool → ℕ
  | true => nSmallKernelStacks
  | false => nLargeKernelStacks

/-- The offset of the end of the first slot. -/
def firstTop : Bool → ℕ
  | true => firstSmallKernelStackTopOffset
  | false => firstLargeKernelStackTopOffset

/-- The end of slot `i`. -/
def slotTop (hhdm : ℕ) (small : Bool) (i : ℕ) : ℕ :=
  hhdm + firstTop small + (stackPages small * pageSize + pageSize) * i

/-- The pages of slot `i`. -/
def slotPages (hhdm : ℕ) (small : Bool) (i : ℕ) : Finset ℕ :=
  Finset.Ico ((slotTop hhdm small i - stackPages small * pageSize) / pageSize)
    (slotTop hhdm small i / pageSize)

/-- The pages of the scheduler's stack. -/
def schedulerPages (hhdm : ℕ) : Finset ℕ :=
  Finset.Ico ((hhdm + hhdmTopOffset + schedulerStackBottomOffset + pageSize) / pageSize)
    ((hhdm + hhdmTopOffset + schedulerStackTopOffset - pageSize) / pageSize)

/-- The slots that are not used yet. -/
def Kernel.unused {M : Mapper} (k : Kernel M) : Bool → Finset ℕ
  | true => k.kernelSmallStacks.ones
  | false => k.kernelLargeStacks.ones

/-- A call of `make_kernel_stack` that has used up slot `i`. -/
structure UsesSlot (M : Mapper) (hhdm : ℕ) (k : Kernel M) (small : Bool) (i : ℕ) (k' : Kernel M) :
    Prop where
  mem : i ∈ k.unused small
  least : ∀ j ∈ k.unused small, i ≤ j
  canonical : Canonical (slotTop hhdm small i)
  canonical_start : Canonical (slotTop hhdm small i - stackPages small * pageSize)
  le_top : stackPages small * pageSize ≤ slotTop hhdm small i
  region : ∃ r, pageRegion M .size4KiB k.table k.bits
    (slotTop hhdm small i - stackPages small * pageSize) (slotTop hhdm small i) stackFlags =
      some (r, k'.table, k'.bits)
  unused_eq : k'.unused small = (k.unused small).erase i
  unused_other : k'.unused (!small) = k.unused (!small)

lemma mapStack_spec (M : Mapper) (hhdm : ℕ) {n top size : ℕ} {slots : BitArr n}
    {setSlots : BitArr n → Kernel M → Kernel M} {k k' : Kernel M} {r : Except Unit ℕ}
    (h : mapStack M hhdm top size slots setSlots k = some (r, k')) :
    (r = .error () ∧ slots.ones = ∅ ∧ k' = { k with interrupts := false }) ∨
      ∃ i ∈ slots.ones, (∀ j ∈ slots.ones, i ≤ j) ∧
        r = .ok (hhdm + top + (size + pageSize) * i) ∧
        Canonical (hhdm + top + (size + pageSize) * i) ∧
        Canonical (hhdm + top + (size + pageSize) * i - size) ∧
        size ≤ hhdm + top + (size + pageSize) * i ∧
        ∃ slots' k₁ e, slots'.ones = slots.ones.erase i ∧
          k₁ = setSlots slots' { k with interrupts := false } ∧
          pageRegion M .size4KiB k₁.table k₁.bits (hhdm + top + (size + pageSize) * i - size)
            (hhdm + top + (size + pageSize) * i) stackFlags = some (e, k'.table, k'.bits) ∧
          k' = { k₁ with table := k'.table, bits := k'.bits, interrupts := true } := by
  simp only [mapStack, Option.bind_eq_bind, Option.bind_eq_some_iff] at h
  obtain ⟨found, hfound, h⟩ := h
  cases found with
  | none =>
      cases h
      refine Or.inl ⟨rfl, ?_, rfl⟩
      have hnone := (BitArr.firstOneFrom_eq_none (Nat.zero_le n)).mp hfound
      exact Finset.eq_empty_of_forall_notMem fun i hi => Nat.not_lt_zero i (hnone i hi)
  | some i =>
      obtain ⟨hmem, hleast⟩ := (BitArr.firstOneFrom_eq_some (Nat.zero_le n)).mp hfound
      rw [Nat.zero_add] at hmem hleast
      simp only [Option.bind_eq_some_iff, virtAdd_eq_some, virtSub_eq_some] at h
      obtain ⟨slots', hwrite, base, ⟨-, rfl⟩, stop, ⟨hcan, rfl⟩, start, ⟨⟨hle, hcan'⟩, rfl⟩,
        ⟨e, t', b'⟩, hreg, h⟩ := h
      cases h
      exact Or.inr ⟨i, hmem, fun j hj => hleast j hj (Nat.zero_le j), rfl, hcan, hcan', hle, slots',
        setSlots slots' { k with interrupts := false }, e, BitArr.ones_write_false hwrite, rfl,
        hreg, rfl⟩

/-- **What `make_kernel_stack` does when it returns.** -/
lemma makeKernelStack_spec (M : Mapper) (hhdm : ℕ) {k k' : Kernel M} {small : Bool}
    {r : Except Unit ℕ} (h : makeKernelStack M hhdm k small = some (r, k')) :
    (r = .error () ∧ k.unused small = ∅ ∧ k' = { k with interrupts := false }) ∨
      ∃ i, r = .ok (slotTop hhdm small i) ∧ UsesSlot M hhdm k small i k' := by
  cases small with
  | true =>
      rw [makeKernelStack, if_pos rfl, mapSmallStack] at h
      refine (mapStack_spec M hhdm h).imp_right ?_
      rintro ⟨i, hmem, hleast, hr, hcan, hcan', hle, slots', k₁, e, hones, rfl, hreg, hk'⟩
      exact ⟨i, hr, hmem, hleast, hcan, hcan', hle, ⟨e, hreg⟩, by rw [hk']; exact hones,
        by rw [hk']; rfl⟩
  | false =>
      rw [makeKernelStack, if_neg Bool.false_ne_true, mapLargeStack] at h
      refine (mapStack_spec M hhdm h).imp_right ?_
      rintro ⟨i, hmem, hleast, hr, hcan, hcan', hle, slots', k₁, e, hones, rfl, hreg, hk'⟩
      exact ⟨i, hr, hmem, hleast, hcan, hcan', hle, ⟨e, hreg⟩, by rw [hk']; exact hones,
        by rw [hk']; rfl⟩

/-! ### Where the slots lie -/

/-- The end of a slot, in pages above `HHDM_ADDR`. -/
def slotEnd : Bool → ℕ → ℕ
  | true, i => 0x162 + 2 * i
  | false, i => 0x106 + 6 * i

lemma slotTop_eq (h : ℕ) (small : Bool) (i : ℕ) :
    slotTop (h * pageSize) small i = (h + slotEnd small i) * pageSize := by
  cases small <;>
    simp only [slotTop, firstTop, stackPages, firstLargeKernelStackTopOffset, slotEnd,
      firstSmallKernelStackTopOffset, kernelStackSpaceBottomOffset, largeKernelStackSize,
      largeKernelStackPages, nLargeKernelStacks, smallKernelStackSize, smallKernelStackPages,
      pageSize] <;> ring

lemma stackPages_le_slotEnd (small : Bool) (i : ℕ) : stackPages small ≤ slotEnd small i := by
  cases small <;>
    simp only [stackPages, slotEnd, largeKernelStackPages, smallKernelStackPages] <;> omega

lemma slotPages_eq (h : ℕ) (small : Bool) (i : ℕ) : slotPages (h * pageSize) small i =
    Finset.Ico (h + slotEnd small i - stackPages small) (h + slotEnd small i) := by
  have hpos : 0 < pageSize := by norm_num [pageSize]
  rw [slotPages, slotTop_eq, ← Nat.sub_mul, Nat.mul_div_cancel _ hpos, Nat.mul_div_cancel _ hpos]

lemma slotPages_card (h : ℕ) (small : Bool) (i : ℕ) :
    (slotPages (h * pageSize) small i).card = stackPages small := by
  have := stackPages_le_slotEnd small i
  rw [slotPages_eq, Nat.card_Ico]
  omega

/-- The slots are apart. -/
lemma slotPages_disjoint {h i j : ℕ} {small small' : Bool} (hi : i < slotCount small)
    (hj : j < slotCount small') (hne : small ≠ small' ∨ i ≠ j) :
    Disjoint (slotPages (h * pageSize) small i) (slotPages (h * pageSize) small' j) := by
  rw [Finset.disjoint_left, slotPages_eq, slotPages_eq]
  intro q hq hq'
  cases small <;> cases small' <;>
    simp only [slotEnd, stackPages, slotCount, largeKernelStackPages, smallKernelStackPages,
      nLargeKernelStacks, nSmallKernelStacks, Finset.mem_Ico, ne_eq, not_true_eq_false,
      false_or] at * <;> omega

/-- The guard page below the scheduler's stack. -/
def schedulerPage (h : ℕ) : ℕ := h + 0x2000010

lemma scheduler_bottom (h : ℕ) :
    h * pageSize + hhdmTopOffset + schedulerStackBottomOffset = schedulerPage h * pageSize := by
  simp only [hhdmTopOffset, maxPhysMap, schedulerStackBottomOffset, schedulerPage, pageSize]
  ring

lemma scheduler_top (h : ℕ) :
    h * pageSize + hhdmTopOffset + schedulerStackTopOffset = (schedulerPage h + 6) * pageSize := by
  simp only [hhdmTopOffset, maxPhysMap, schedulerStackBottomOffset, schedulerStackTopOffset,
    schedulerStackWidth, schedulerStackSize, schedulerPage, pageSize]
  ring

lemma scheduler_start (h : ℕ) : h * pageSize + hhdmTopOffset + schedulerStackBottomOffset +
    pageSize = (schedulerPage h + 1) * pageSize := by
  rw [scheduler_bottom, Nat.succ_mul]

lemma scheduler_stop (h : ℕ) : h * pageSize + hhdmTopOffset + schedulerStackTopOffset -
    pageSize = (schedulerPage h + 5) * pageSize := by
  rw [scheduler_top, Nat.succ_mul, Nat.add_sub_cancel]

lemma schedulerPages_eq (h : ℕ) :
    schedulerPages (h * pageSize) = Finset.Ico (schedulerPage h + 1) (schedulerPage h + 5) := by
  have hpos : 0 < pageSize := by norm_num [pageSize]
  rw [schedulerPages, scheduler_start, scheduler_stop, Nat.mul_div_cancel _ hpos,
    Nat.mul_div_cancel _ hpos]

/-- The scheduler's stack lies above the slots. -/
lemma slotPages_lt {h i q : ℕ} {small : Bool} (hi : i < slotCount small)
    (hq : q ∈ slotPages (h * pageSize) small i) : q < h + 0x1a0 := by
  rw [slotPages_eq] at hq
  cases small <;>
    simp only [slotEnd, stackPages, slotCount, largeKernelStackPages, smallKernelStackPages,
      nLargeKernelStacks, nSmallKernelStacks, Finset.mem_Ico] at * <;> omega

lemma Kernel.lt_of_mem_unused {M : Mapper} {k : Kernel M} {small : Bool} {i : ℕ}
    (hi : i ∈ k.unused small) : i < slotCount small := by
  cases small with
  | true => exact k.kernelSmallStacks.lt_of_mem i hi
  | false => exact k.kernelLargeStacks.lt_of_mem i hi

/-! ### One call -/

/-- The allocator can serve the call: a free chunk holds the stack, and there
are frames left for the tables that are missing. -/
def Served (M : Mapper) (hhdm : ℕ) (k : Kernel M) (small : Bool) : Prop :=
  ∀ i ∈ k.unused small, (∀ j ∈ k.unused small, i ≤ j) →
    (∃ c ∈ chunks k.bits, Nat.clog 2 (stackPages small) ≤ c.level) ∧
      stackPages small + ((slotPages hhdm small i).biUnion (M.missing k.table .size4KiB)).card ≤
        (freeFrames k.bits).card

namespace UsesSlot

variable {M : Mapper} {h i : ℕ} {small : Bool} {k k' : Kernel M}

lemma regionPages_eq (hu : UsesSlot M (h * pageSize) k small i k') :
    regionPages .size4KiB
      (slotTop (h * pageSize) small i - stackPages small * pageSize)
      (slotTop (h * pageSize) small i) = slotPages (h * pageSize) small i := by
  have hsize : PageSize.size .size4KiB = pageSize := Nat.one_mul _
  have htop := slotTop_eq h small i
  rw [regionPages_of_dvd ?_ ?_ hu.canonical_start hu.canonical, hsize]
  · rfl
  · rw [hsize, htop, ← Nat.sub_mul]
    exact dvd_mul_left _ _
  · rw [hsize, htop]
    exact dvd_mul_left _ _

/-- A call for which a free chunk holds the stack does not fail silently. -/
lemma region_ok (hu : UsesSlot M (h * pageSize) k small i k') (hA : Apart (chunks k.bits))
    (hchunk : ∃ c ∈ chunks k.bits, Nat.clog 2 (stackPages small) ≤ c.level) :
    pageRegion M .size4KiB k.table k.bits
      (slotTop (h * pageSize) small i - stackPages small * pageSize)
      (slotTop (h * pageSize) small i) stackFlags = some (.ok (), k'.table, k'.bits) := by
  obtain ⟨r, hreg⟩ := hu.region
  cases r with
  | ok u => exact hreg
  | error u =>
      obtain ⟨c, hc, hlevel⟩ := hchunk
      have htop := slotTop_eq h small i
      have hsize : PageSize.size .size4KiB = pageSize := Nat.one_mul _
      have hdown : alignDown .size4KiB (slotTop (h * pageSize) small i -
          stackPages small * pageSize) = slotTop (h * pageSize) small i -
          stackPages small * pageSize :=
        alignDown_of_dvd (by rw [hsize, htop, ← Nat.sub_mul]; exact dvd_mul_left _ _)
          hu.canonical_start
      obtain ⟨-, -, hfail⟩ := pageRegion_error M hA
        (alignUp_of_dvd (by rw [hsize, htop]; exact dvd_mul_left _ _) hu.canonical) hreg
      rw [hdown, Nat.sub_sub_self hu.le_top, Nat.mul_div_cancel _ (by norm_num [pageSize])] at hfail
      cases hfail with
      | inl hunit =>
          rw [PageSize.unit, Nat.clog_one_right] at hunit
          exact absurd hunit (Nat.not_lt_zero _)
      | inr hall => exact absurd (hall c hc) (by omega)

/-- **One call** that finds its slot unmapped and the frames it needs. -/
lemma backed (hu : UsesSlot M (h * pageSize) k small i k')
    (hw : WellFormed M.toPageTables k.table k.bits) (hs : Served M (h * pageSize) k small)
    (hopen : ∀ q ∈ slotPages (h * pageSize) small i, ¬ M.Blocked k.table .size4KiB q) :
    Backed M.toPageTables .size4KiB stackFlags (slotPages (h * pageSize) small i) k.table k.bits
        k'.table k'.bits ∧
      Grows M.toPageTables .size4KiB (slotPages (h * pageSize) small i) k.table k.bits k'.table
        k'.bits := by
  obtain ⟨hchunk, hroom⟩ := hs i hu.mem hu.least
  have hok := hu.region_ok hw.apart hchunk
  have hB := pageRegion_backed M hw hok
  have hG := pageRegion_grows M hw.apart hok
  rw [hu.regionPages_eq, slotPages_card, PageSize.unit, Nat.mul_one] at hB
  rw [hu.regionPages_eq] at hG
  exact ⟨hB ⟨hopen, by omega⟩, hG⟩

end UsesSlot

/-! ### Boot -/

lemma mapGuards_grows (M : Mapper) {stride n page page' : ℕ} {t t' : M.Table} {b b' : BuddyBits}
    (hA : Apart (chunks b)) (h : mapGuards M stride n page t b = some (page', t', b')) :
    page' = page + stride * n ∧ Apart (chunks b') ∧ Grows M.toPageTables .size4KiB
      ((Finset.range n).image (page + stride * ·)) t b t' b' := by
  induction n generalizing page t b with
  | zero =>
      cases h
      exact ⟨rfl, hA, Grows.refl⟩
  | succ n ih =>
      simp only [mapGuards, Option.bind_eq_bind, Option.bind_eq_some_iff] at h
      obtain ⟨⟨r, t₁, b₁⟩, hmap, next, hnext, h⟩ := h
      have hM := M.mapTo_spec hA hmap
      obtain ⟨x, hx, -⟩ := hM.takes
      obtain rfl : page + stride = next :=
        Option.some.inj (Option.ite_none_right_eq_some.mp hnext).2
      obtain ⟨hpage, hA', hG⟩ := ih hx.apart h
      refine ⟨by rw [hpage, Nat.mul_succ]; omega, hA', ?_⟩
      have himage : (Finset.range (n + 1)).image (page + stride * ·) =
          {page} ∪ (Finset.range n).image (page + stride + stride * ·) := by
        ext q
        simp only [Finset.mem_image, Finset.mem_range, Finset.mem_union, Finset.mem_singleton]
        refine ⟨fun ⟨j, hj, hq⟩ => ?_, fun hq => ?_⟩
        · cases j with
          | zero => exact Or.inl (by simpa using hq.symm)
          | succ j => exact Or.inr ⟨j, by omega, by rw [← hq, Nat.mul_succ]; omega⟩
        · cases hq with
          | inl hq => exact ⟨0, by omega, by simpa using hq.symm⟩
          | inr hq =>
              obtain ⟨j, hj, hq⟩ := hq
              exact ⟨j + 1, by omega, by rw [← hq, Nat.mul_succ]; omega⟩
      rw [himage]
      exact hM.grows.trans hG

/-- The guard pages that `stack::init` maps. -/
def guardPages (h : ℕ) : Finset ℕ :=
  (Finset.range 16).image (h + 0x100 + 6 * ·) ∪ (Finset.range 33).image (h + 0x160 + 2 * ·)

lemma kernelStackSpace_bottom (h : ℕ) :
    (h * pageSize + kernelStackSpaceBottomOffset) / pageSize = h + 0x100 := by
  simp only [kernelStackSpaceBottomOffset, pageSize]
  omega

/-- **`stack::init` panics** when a table above its first guard page is missing: the flags of a
guard page are not `PRESENT`, and `map_to` gives them to the tables that it makes. -/
lemma stackInit_panics (M : Mapper) {h : ℕ} {t : M.Table} {b : BuddyBits} (hA : Apart (chunks b))
    (hopen : ¬ M.Blocked t .size4KiB (h + 0x100)) (hmissing : M.missing t .size4KiB (h + 0x100) ≠ ∅)
    (hfree : freeFrames b ≠ ∅) : stackInit M (h * pageSize) t b = none := by
  have hflags : (pageFlagGuard ||| pageFlagStack) &&& PageTableFlags.present = 0 := by decide
  have hpanic := M.mapTo_panics 0 hA hflags hopen hmissing hfree
  refine Option.eq_none_iff_forall_ne_some.mpr fun r hr => ?_
  simp only [stackInit, Option.bind_eq_bind, Option.bind_eq_some_iff, virtAdd_eq_some] at hr
  obtain ⟨bottom, ⟨-, rfl⟩, x, hlarge, -⟩ := hr
  rw [kernelStackSpace_bottom, nLargeKernelStacks, mapGuards, hpanic] at hlarge
  cases hlarge

lemma stackInit_grows (M : Mapper) {h : ℕ} {t t' : M.Table} {b b' : BuddyBits}
    (hA : Apart (chunks b)) (hinit : stackInit M (h * pageSize) t b = some (t', b')) :
    Grows M.toPageTables .size4KiB (guardPages h) t b t' b' := by
  simp only [stackInit, Option.bind_eq_bind, Option.bind_eq_some_iff, virtAdd_eq_some] at hinit
  obtain ⟨bottom, ⟨-, rfl⟩, ⟨page, t₁, b₁⟩, hlarge, ⟨page', t₂, b₂⟩, hsmall, hres⟩ := hinit
  cases hres
  obtain ⟨hpage, hA₁, hG₁⟩ := mapGuards_grows M hA hlarge
  obtain ⟨-, -, hG₂⟩ := mapGuards_grows M hA₁ hsmall
  rw [kernelStackSpace_bottom] at hpage hG₁
  rw [hpage] at hG₂
  exact hG₁.trans hG₂

/-- Guard pages are no pages of a slot, nor of the scheduler's stack. -/
lemma notMem_guardPages {h q : ℕ}
    (hq : (∃ small, ∃ i < slotCount small, q ∈ slotPages (h * pageSize) small i) ∨
      q ∈ schedulerPages (h * pageSize)) : q ∉ guardPages h := by
  simp only [guardPages, Finset.mem_union, Finset.mem_image, Finset.mem_range]
  rintro (⟨j, hj, rfl⟩ | ⟨j, hj, rfl⟩) <;> rcases hq with ⟨small, i, hi, hq⟩ | hq
  · rw [slotPages_eq] at hq
    cases small <;>
      simp only [slotEnd, stackPages, slotCount, largeKernelStackPages, smallKernelStackPages,
        nLargeKernelStacks, nSmallKernelStacks, Finset.mem_Ico] at * <;> omega
  · rw [schedulerPages_eq, schedulerPage, Finset.mem_Ico] at hq
    omega
  · rw [slotPages_eq] at hq
    cases small <;>
      simp only [slotEnd, stackPages, slotCount, largeKernelStackPages, smallKernelStackPages,
        nLargeKernelStacks, nSmallKernelStacks, Finset.mem_Ico] at * <;> omega
  · rw [schedulerPages_eq, schedulerPage, Finset.mem_Ico] at hq
    omega

/-- **`make_scheduler_stack`** maps the scheduler's pages and then two guards. -/
lemma makeSchedulerStack_spec (M : Mapper) {h : ℕ} {t t' : M.Table} {b b' : BuddyBits}
    (hA : Apart (chunks b)) (hmake : makeSchedulerStack M (h * pageSize) t b = some (t', b')) :
    ∃ t₁ b₁ start stop, regionPages .size4KiB start stop = schedulerPages (h * pageSize) ∧
      pageRegion M .size4KiB t b start stop stackFlags = some (.ok (), t₁, b₁) ∧
      Grows M.toPageTables .size4KiB {schedulerPage h, schedulerPage h + 5} t₁ b₁ t' b' := by
  simp only [makeSchedulerStack, Option.bind_eq_bind, Option.bind_eq_some_iff, virtAdd_eq_some,
    virtSub_eq_some] at hmake
  obtain ⟨hhdmTop, ⟨-, rfl⟩, bottom, ⟨-, rfl⟩, top, ⟨-, rfl⟩, start, ⟨hcan, hstart⟩, stop,
    ⟨⟨hle, hcan'⟩, hstop⟩, ⟨r, t₁, b₁⟩, hreg, hmake⟩ := hmake
  cases r with
  | error u => cases hmake
  | ok u =>
      obtain ⟨a, b₀, -, hM₁⟩ := pageRegion_ok M hA hreg
      obtain ⟨x, hx, -⟩ := hM₁.takes
      simp only [Option.bind_eq_some_iff] at hmake
      obtain ⟨⟨r₂, t₂, b₂⟩, hmap₂, ⟨r₃, t₃, b₃⟩, hmap₃, hmake⟩ := hmake
      cases hmake
      have hM₂ := M.mapTo_spec hx.apart hmap₂
      obtain ⟨y, hy, -⟩ := hM₂.takes
      have hM₃ := M.mapTo_spec hy.apart hmap₃
      refine ⟨t₁, b₁, start, stop, ?_, hreg, ?_⟩
      · have hsize : PageSize.size .size4KiB = pageSize := Nat.one_mul _
        have hdvd : PageSize.size .size4KiB ∣ start := by
          rw [← hstart, scheduler_start, hsize]
          exact dvd_mul_left _ _
        have hdvd' : PageSize.size .size4KiB ∣ stop := by
          rw [← hstop, scheduler_stop, hsize]
          exact dvd_mul_left _ _
        rw [regionPages_of_dvd hdvd hdvd' (hstart ▸ hcan) (hstop ▸ hcan'), hsize, ← hstart, ← hstop,
          schedulerPages]
      · have hpos : 0 < pageSize := by norm_num [pageSize]
        rw [scheduler_bottom, Nat.mul_div_cancel _ hpos] at hM₂
        rw [scheduler_top, Nat.mul_div_cancel _ hpos, Nat.add_sub_assoc (by norm_num)] at hM₃
        rw [Finset.insert_eq]
        exact hM₂.grows.trans hM₃.grows

/-! ### Runs -/

/-- A stack that a call returned: its end, its kind, and the frames that left
the allocator in that call. -/
structure Stack where
  stop : ℕ
  small : Bool
  taken : Finset ℕ

/-- The pages of `[end - size, end)`. -/
def Stack.pages (st : Stack) : Finset ℕ :=
  Finset.Ico ((st.stop - stackPages st.small * pageSize) / pageSize) (st.stop / pageSize)

/-- The kernel and the stacks made so far. -/
structure StackRun (M : Mapper) where
  kernel : Kernel M
  made : List Stack

/-- One call of `make_kernel_stack` that returns. -/
inductive StackStep (M : Mapper) (hhdm : ℕ) (small : Bool) : StackRun M → StackRun M → Prop where
  | ok {s : StackRun M} {stop : ℕ} {k' : Kernel M}
      (hret : makeKernelStack M hhdm s.kernel small = some (.ok stop, k')) :
      StackStep M hhdm small s
        ⟨k', ⟨stop, small, freeFrames s.kernel.bits \ freeFrames k'.bits⟩ :: s.made⟩
  | error {s : StackRun M} {k' : Kernel M}
      (hret : makeKernelStack M hhdm s.kernel small = some (.error (), k')) :
      StackStep M hhdm small s ⟨k', s.made⟩

/-- One call that the allocator can serve. -/
def ServedStep (M : Mapper) (hhdm : ℕ) (s s' : StackRun M) : Prop :=
  ∃ small, Served M hhdm s.kernel small ∧ StackStep M hhdm small s s'

/-- **The stacks own their memory**: every page of a stack is mapped present and
writable to frames that the call which made the stack took from the allocator;
none of them is free, and none is behind another stack or the scheduler's. -/
structure OwnMemory (M : Mapper) (hhdm : ℕ) (s : StackRun M) : Prop where
  mapped : ∀ st ∈ s.made, ∀ q ∈ st.pages, ∃ frame flags,
    M.leaf s.kernel.table .size4KiB q = some (frame, flags) ∧
      flags &&& PageTableFlags.present ≠ 0 ∧ flags &&& PageTableFlags.writable ≠ 0
  taken : ∀ st ∈ s.made, ∀ q ∈ st.pages, M.backing s.kernel.table .size4KiB q ⊆ st.taken
  not_free : ∀ st ∈ s.made, ∀ q ∈ st.pages,
    Disjoint (M.backing s.kernel.table .size4KiB q) (freeFrames s.kernel.bits)
  apart : s.made.Pairwise fun st st' => ∀ q ∈ st.pages, ∀ q' ∈ st'.pages,
    Disjoint (M.backing s.kernel.table .size4KiB q) (M.backing s.kernel.table .size4KiB q')
  scheduler : ∀ st ∈ s.made, ∀ q ∈ st.pages, ∀ q' ∈ schedulerPages hhdm,
    Disjoint (M.backing s.kernel.table .size4KiB q) (M.backing s.kernel.table .size4KiB q')

/-- `pages` are mapped as stack pages, to frames of `taken`. -/
def MappedTo (M : Mapper) (t : M.Table) (pages taken : Finset ℕ) : Prop :=
  ∀ q ∈ pages, (∃ frame, M.leaf t .size4KiB q = some (frame, stackFlags)) ∧
    M.backing t .size4KiB q ⊆ taken

lemma MappedTo.congr {M : Mapper} {t t' : M.Table} {pages taken : Finset ℕ}
    (h : MappedTo M t pages taken)
    (hkeep : ∀ q ∈ pages, M.leaf t' .size4KiB q = M.leaf t .size4KiB q) :
    MappedTo M t' pages taken := by
  intro q hq
  rw [PageTables.backing, hkeep q hq, ← PageTables.backing]
  exact h q hq

/-- Mapped pages are in the way of later calls, and so keep their mapping. -/
lemma MappedTo.grows {M : Mapper} {t t' : M.Table} {b b' : BuddyBits} {pages taken new : Finset ℕ}
    (h : MappedTo M t pages taken) (hopen : ∀ q ∈ new, ¬ M.Blocked t .size4KiB q)
    (hG : Grows M.toPageTables .size4KiB new t b t' b') : MappedTo M t' pages taken := by
  refine h.congr fun q hq => hG.leaf_eq q fun hmem => hopen q hmem (M.blocked_of_leaf ?_)
  obtain ⟨⟨frame, hleaf⟩, -⟩ := h q hq
  rw [hleaf]
  simp

/-- **The invariant**: the unused slots are not in the way of anything, and the
stacks made so far, like the scheduler's, are mapped to frames of their own. -/
structure Sound (M : Mapper) (hhdm : ℕ) (sched : Finset ℕ) (s : StackRun M) : Prop where
  wellFormed : WellFormed M.toPageTables s.kernel.table s.kernel.bits
  unused : ∀ small, ∀ i ∈ s.kernel.unused small, ∀ q ∈ slotPages hhdm small i,
    ¬ M.Blocked s.kernel.table .size4KiB q
  scheduler : MappedTo M s.kernel.table (schedulerPages hhdm) sched
  made : ∀ st ∈ s.made, MappedTo M s.kernel.table st.pages st.taken
  sched_free : Disjoint sched (freeFrames s.kernel.bits)
  made_free : ∀ st ∈ s.made, Disjoint st.taken (freeFrames s.kernel.bits)
  made_sched : ∀ st ∈ s.made, Disjoint st.taken sched
  made_apart : s.made.Pairwise fun st st' => Disjoint st.taken st'.taken

lemma Sound.ownMemory {M : Mapper} {hhdm : ℕ} {sched : Finset ℕ} {s : StackRun M}
    (h : Sound M hhdm sched s) : OwnMemory M hhdm s := by
  refine ⟨fun st hst q hq => ?_, fun st hst q hq => (h.made st hst q hq).2, fun st hst q hq => ?_,
    ?_, fun st hst q hq q' hq' => ?_⟩
  · obtain ⟨⟨frame, hleaf⟩, -⟩ := h.made st hst q hq
    exact ⟨frame, stackFlags, hleaf, by decide, by decide⟩
  · exact (h.made_free st hst).mono_left (h.made st hst q hq).2
  · refine h.made_apart.imp_of_mem fun {st st'} hst hst' hdis q hq q' hq' => ?_
    exact hdis.mono (h.made st hst q hq).2 (h.made st' hst' q' hq').2
  · exact (h.made_sched st hst).mono (h.made st hst q hq).2 (h.scheduler q' hq').2

/-- **The step lemma.** -/
lemma Sound.step {M : Mapper} {h : ℕ} {sched : Finset ℕ} {s s' : StackRun M}
    (hI : Sound M (h * pageSize) sched s) (hstep : ServedStep M (h * pageSize) s s') :
    Sound M (h * pageSize) sched s' := by
  obtain ⟨small, hserved, hstep⟩ := hstep
  cases hstep with
  | error hret =>
      cases makeKernelStack_spec M _ hret with
      | inr hok =>
          obtain ⟨i, hr, -⟩ := hok
          cases hr
      | inl herr =>
          obtain ⟨-, -, rfl⟩ := herr
          exact ⟨hI.wellFormed, hI.unused, hI.scheduler, hI.made, hI.sched_free, hI.made_free,
            hI.made_sched, hI.made_apart⟩
  | @ok stop k' hret =>
      cases makeKernelStack_spec M _ hret with
      | inl herr => cases herr.1
      | inr hok =>
          obtain ⟨i, hr, hu⟩ := hok
          cases hr
          have hopen := hI.unused small i hu.mem
          have hi := Kernel.lt_of_mem_unused hu.mem
          obtain ⟨hB, hG⟩ := hu.backed hI.wellFormed hserved hopen
          have hfree := hG.free_subset
          have htaken : freeFrames s.kernel.bits \ freeFrames k'.bits ⊆ freeFrames s.kernel.bits :=
            Finset.sdiff_subset
          refine ⟨hG.wellFormed hI.wellFormed, fun small' j hj q hq hbl => ?_,
            hI.scheduler.grows hopen hG, fun st hst => ?_, hI.sched_free.mono_right hfree,
            fun st hst => ?_, fun st hst => ?_, ?_⟩
          -- a slot that is still unused is another slot
          · have hold : j ∈ s.kernel.unused small' ∧ (small ≠ small' ∨ i ≠ j) := by
              by_cases hsm : small' = small
              · subst hsm
                rw [hu.unused_eq, Finset.mem_erase] at hj
                exact ⟨hj.2, Or.inr hj.1.symm⟩
              · obtain rfl : small' = !small := Bool.eq_not_of_ne hsm
                rw [hu.unused_other] at hj
                exact ⟨hj, Or.inl (by simp)⟩
            cases hG.blocked q hbl with
            | inl hblk => exact hI.unused small' j hold.1 q hq hblk
            | inr hmem =>
                exact Finset.disjoint_left.mp
                  (slotPages_disjoint hi (Kernel.lt_of_mem_unused hold.1) hold.2) hmem hq
          · cases List.mem_cons.mp hst with
            | inr hmem => exact (hI.made st hmem).grows hopen hG
            | inl heq =>
                subst heq
                exact fun q hq => ⟨hB.mapped q hq, hB.taken q hq⟩
          · cases List.mem_cons.mp hst with
            | inr hmem => exact (hI.made_free st hmem).mono_right hfree
            | inl heq =>
                subst heq
                exact Finset.sdiff_disjoint
          · cases List.mem_cons.mp hst with
            | inr hmem => exact hI.made_sched st hmem
            | inl heq =>
                subst heq
                exact (hI.sched_free.mono_right htaken).symm
          · refine List.pairwise_cons.mpr ⟨fun st hst => ?_, hI.made_apart⟩
            exact ((hI.made_free st hst).mono_right htaken).symm

/-- What holds at boot: the bootloader's page table and the allocator are well
formed, the base is page aligned, and `stack::init` and `scheduler::init` have
run; the pages of the stacks were not mapped before, and `scheduler::init` found
the frames it needs. -/
structure Boot (M : Mapper) (hhdm : ℕ) (t : M.Table) (b : BuddyBits) : Prop where
  aligned : pageSize ∣ hhdm
  booted : ∃ t₀ b₀ t₁ b₁, WellFormed M.toPageTables t₀ b₀ ∧
    (∀ small, ∀ i < slotCount small, ∀ q ∈ slotPages hhdm small i, ¬ M.Blocked t₀ .size4KiB q) ∧
    (∀ q ∈ schedulerPages hhdm, ¬ M.Blocked t₀ .size4KiB q) ∧
    stackInit M hhdm t₀ b₀ = some (t₁, b₁) ∧
    schedulerStackSize + ((schedulerPages hhdm).biUnion (M.missing t₁ .size4KiB)).card ≤
      (freeFrames b₁).card ∧
    makeSchedulerStack M hhdm t₁ b₁ = some (t, b)

/-- The invariant holds once the scheduler is initialised. -/
lemma Boot.sound {M : Mapper} {hhdm : ℕ} {t : M.Table} {b : BuddyBits} (hboot : Boot M hhdm t b) :
    ∃ sched, Sound M hhdm sched ⟨bootKernel M t b, []⟩ := by
  obtain ⟨⟨h, rfl⟩, t₀, b₀, t₁, b₁, hw, hslots, hsched, hinit, hroom, hmake⟩ := hboot
  rw [Nat.mul_comm] at *
  have hG₁ := stackInit_grows M hw.apart hinit
  have hw₁ := hG₁.wellFormed hw
  obtain ⟨t₂, b₂, start, stop, hpages, hreg, hG₃⟩ := makeSchedulerStack_spec M hw₁.apart hmake
  have hopen : ∀ q ∈ schedulerPages (h * pageSize), ¬ M.Blocked t₁ .size4KiB q := fun q hq hbl =>
    (hG₁.blocked q hbl).elim (hsched q hq) (notMem_guardPages (Or.inr hq))
  have hB := pageRegion_backed M hw₁ hreg
  have hG₂ := pageRegion_grows M hw₁.apart hreg
  have hcard : (schedulerPages (h * pageSize)).card = schedulerStackSize := by
    rw [schedulerPages_eq, Nat.card_Ico, schedulerStackSize]
    omega
  rw [hpages, hcard, PageSize.unit, Nat.mul_one] at hB
  rw [hpages] at hG₂
  have hB := hB ⟨hopen, by omega⟩
  refine ⟨freeFrames b₁ \ freeFrames b₂, hG₃.wellFormed (hG₂.wellFormed hw₁),
    fun small i hi q hq hbl => ?_, fun q hq => ?_, by simp, ?_, by simp, by simp, by simp⟩
  · have hi' : i < slotCount small := Kernel.lt_of_mem_unused hi
    have hlt := slotPages_lt hi' hq
    have hpage : schedulerPage h = h + 0x2000010 := rfl
    have hnot : q ∉ ({schedulerPage h, schedulerPage h + 5} : Finset ℕ) := by
      rw [Finset.mem_insert, Finset.mem_singleton]
      omega
    have hnot' : q ∉ schedulerPages (h * pageSize) := by
      rw [schedulerPages_eq, Finset.mem_Ico]
      omega
    have h₂ := (hG₃.blocked q hbl).resolve_right hnot
    have h₁ := (hG₂.blocked q h₂).resolve_right hnot'
    exact hslots small i hi' q hq
      ((hG₁.blocked q h₁).resolve_right (notMem_guardPages (Or.inl ⟨small, i, hi', hq⟩)))
  · have hmapped : MappedTo M t₂ (schedulerPages (h * pageSize)) (freeFrames b₁ \ freeFrames b₂) :=
      fun q hq => ⟨hB.mapped q hq, hB.taken q hq⟩
    refine hmapped.congr (fun q hq => hG₃.leaf_eq q ?_) q hq
    rw [schedulerPages_eq, Finset.mem_Ico] at hq
    rw [Finset.mem_insert, Finset.mem_singleton]
    omega
  · exact Finset.sdiff_disjoint.mono_right hG₃.free_subset

/-- **Kernel stacks own their memory** when the slots are not mapped at boot and
every call is made while the allocator can serve it. -/
theorem kernel_stacks_own_memory (M : Mapper) (hhdm : ℕ) (t : M.Table) (b : BuddyBits)
    (hboot : Boot M hhdm t b) (s : StackRun M)
    (hrun : Relation.ReflTransGen (ServedStep M hhdm) ⟨bootKernel M t b, []⟩ s) :
    OwnMemory M hhdm s := by
  obtain ⟨sched, hI⟩ := hboot.sound
  obtain ⟨h, rfl⟩ := hboot.aligned
  rw [Nat.mul_comm] at *
  suffices Sound M (h * pageSize) sched s from this.ownMemory
  induction hrun with
  | refl => exact hI
  | tail _ hstep ih => exact ih.step hstep

/-- A base for the direct map. -/
def hhdmBase : ℕ := 0xffff800000000000

/-- One free chunk: the frames 0 to 31. -/
def lowChunk : BuddyBits := ⟨{32505856}, by decide⟩

lemma chunks_lowChunk : chunks lowChunk = {⟨5, 0⟩} := by decide

lemma apart_lowChunk : Apart (chunks lowChunk) := chunks_lowChunk ▸ apart_singleton _

/-- The tables above the stack slots are there, and no page is mapped. -/
def slotTables : FourLevel where
  root := 64
  tables := {((3, hhdmBase / pageSize / 2 ^ 27), 65), ((2, hhdmBase / pageSize / 2 ^ 18), 66),
    ((1, hhdmBase / pageSize / 2 ^ 9), 67)}
  leaf _ _ := none

lemma slotTables_wellFormed : WellFormed FourLevel.view slotTables lowChunk := by
  refine ⟨apart_lowChunk, ?_⟩
  rw [freeFrames, chunks_lowChunk, free, Finset.singleton_biUnion]
  decide

lemma slotTables_open (q : ℕ) : ¬ FourLevel.view.Blocked slotTables .size4KiB q := by
  rintro (hused | ⟨s, -, hhuge⟩)
  · simp [FourLevel.used, slotTables] at hused
  · unfold FourLevel.huge at hhuge
    split at hhuge <;> simp [slotTables] at hhuge

/-- With these tables both initialisers and a call for a small stack return, and
find the frames they need. -/
lemma smallStack_returns : ∃ t₁ b₁ t b k',
    stackInit FourLevel.fourLevel hhdmBase slotTables lowChunk = some (t₁, b₁) ∧
      schedulerStackSize + ((schedulerPages hhdmBase).biUnion
        (FourLevel.view.missing t₁ .size4KiB)).card ≤ (freeFrames b₁).card ∧
      makeSchedulerStack FourLevel.fourLevel hhdmBase t₁ b₁ = some (t, b) ∧
      ((∃ c ∈ chunks b, Nat.clog 2 (stackPages true) ≤ c.level) ∧ stackPages true +
        ((slotPages hhdmBase true 0).biUnion (FourLevel.view.missing t .size4KiB)).card ≤
          (freeFrames b).card) ∧
      makeKernelStack FourLevel.fourLevel hhdmBase (bootKernel _ t b) true =
        some (.ok 0xffff800000162000, k') := by
  have heval : (stackInit FourLevel.fourLevel hhdmBase slotTables lowChunk).any (fun x =>
      decide (schedulerStackSize + ((schedulerPages hhdmBase).biUnion
        (FourLevel.view.missing x.1 .size4KiB)).card ≤ (freeFrames x.2).card) &&
      (makeSchedulerStack FourLevel.fourLevel hhdmBase x.1 x.2).any
        fun (y : FourLevel × BuddyBits) =>
        decide ((∃ c ∈ chunks y.2, Nat.clog 2 (stackPages true) ≤ c.level) ∧ stackPages true +
          ((slotPages hhdmBase true 0).biUnion (FourLevel.view.missing y.1 .size4KiB)).card ≤
            (freeFrames y.2).card) &&
        (makeKernelStack FourLevel.fourLevel hhdmBase (bootKernel _ y.1 y.2) true).any fun z =>
          decide (z.1.toOption = some 0xffff800000162000)) = true := by
    decide +kernel
  simp only [Option.any_eq_true, Bool.and_eq_true, decide_eq_true_eq] at heval
  obtain ⟨⟨t₁, b₁⟩, h1, h2, ⟨t, b⟩, h3, h4, ⟨r, k'⟩, h5, h6⟩ := heval
  refine ⟨t₁, b₁, t, b, k', h1, h2, h3, h4, ?_⟩
  cases r with
  | error u => cases h6
  | ok stop =>
      cases h6
      exact h5

theorem kernel_stacks_own_memory_smallStack : ∃ t b s, Boot FourLevel.fourLevel hhdmBase t b ∧
    Relation.ReflTransGen (ServedStep FourLevel.fourLevel hhdmBase) ⟨bootKernel _ t b, []⟩ s ∧
    s.made.length = 1 ∧ OwnMemory FourLevel.fourLevel hhdmBase s := by
  obtain ⟨t₁, b₁, t, b, k', hinit, hroom, hmake, hserved, hret⟩ := smallStack_returns
  have hboot : Boot FourLevel.fourLevel hhdmBase t b :=
    ⟨by norm_num [pageSize, hhdmBase], slotTables, lowChunk, t₁, b₁, slotTables_wellFormed,
      fun _ _ _ q _ => slotTables_open q, fun q _ => slotTables_open q, hinit, hroom, hmake⟩
  have hstep : ServedStep FourLevel.fourLevel hhdmBase ⟨bootKernel _ t b, []⟩
      ⟨k', [⟨0xffff800000162000, true, freeFrames b \ freeFrames k'.bits⟩]⟩ := by
    refine ⟨true, fun i hi hleast => ?_, StackStep.ok hret⟩
    obtain rfl : i = 0 := Nat.le_zero.mp (hleast 0 (Finset.mem_range.mpr (by decide)))
    exact hserved
  have hrun := Relation.ReflTransGen.single hstep
  exact ⟨t, b, _, hboot, hrun, rfl,
    kernel_stacks_own_memory FourLevel.fourLevel hhdmBase t b hboot _ hrun⟩

/-- A direct map of 4 MiB in pages of 2 MiB. -/
def directMap : FourLevel where
  root := 64
  tables := {((3, hhdmBase / pageSize / 2 ^ 27), 65), ((2, hhdmBase / pageSize / 2 ^ 18), 66)}
  leaf S page :=
    if S = .size2MiB ∧ hhdmBase / 0x200000 ≤ page ∧ page < hhdmBase / 0x200000 + 2 then
      some ((page - hhdmBase / 0x200000) * 0x200000, 3#64)
    else none

/-- One free chunk: the frames 256 to 511, which the direct map shows from
`HHDM_ADDR + 0x10_0000` on. -/
def highChunk : BuddyBits := ⟨{33423361}, by decide⟩

/-- With the direct map in place a call returns `Ok` for a stack whose page is
not mapped to a frame of its own: it still is the direct map's view of frame
`0x161`, and the allocator holds that frame free. -/
theorem kernel_stack_in_direct_map : ∃ t₁ b₁ t b k',
    WellFormed FourLevel.view directMap highChunk ∧
      stackInit FourLevel.fourLevel hhdmBase directMap highChunk = some (t₁, b₁) ∧
      makeSchedulerStack FourLevel.fourLevel hhdmBase t₁ b₁ = some (t, b) ∧
      makeKernelStack FourLevel.fourLevel hhdmBase (bootKernel _ t b) true =
        some (.ok 0xffff800000162000, k') ∧
      k'.table.leaf .size4KiB (0xffff800000161000 / pageSize) = none ∧
      k'.table.leaf .size2MiB (0xffff800000161000 / 0x200000) = some (0, 3#64) ∧
      0x161 ∈ freeFrames k'.bits ∧
      ¬ OwnMemory FourLevel.fourLevel hhdmBase
        ⟨k', [⟨0xffff800000162000, true, freeFrames b \ freeFrames k'.bits⟩]⟩ := by
  -- the frame is looked for among the chunks: the set of all free frames is slow to list
  have heval : (stackInit FourLevel.fourLevel hhdmBase directMap highChunk).any (fun x =>
      (makeSchedulerStack FourLevel.fourLevel hhdmBase x.1 x.2).any
        fun (y : FourLevel × BuddyBits) =>
        (makeKernelStack FourLevel.fourLevel hhdmBase (bootKernel _ y.1 y.2) true).any
          fun (z : Except Unit ℕ × Kernel FourLevel.fourLevel) =>
          decide (z.1.toOption = some 0xffff800000162000 ∧
            z.2.table.leaf .size4KiB (0xffff800000161000 / pageSize) = none ∧
            z.2.table.leaf .size2MiB (0xffff800000161000 / 0x200000) = some (0, 3#64) ∧
            ∃ c ∈ chunks z.2.bits, 0x161 / 2 ^ c.level = c.idx)) = true := by
    decide +kernel
  simp only [Option.any_eq_true, decide_eq_true_eq] at heval
  obtain ⟨⟨t₁, b₁⟩, h1, ⟨t, b⟩, h2, ⟨r, k'⟩, h3, h4, hleaf, hhuge, c, hc, hframe⟩ := heval
  have hfree : 0x161 ∈ freeFrames k'.bits := frames_subset_free hc (Chunk.mem_frames.mpr hframe)
  have hchunks : chunks highChunk = {⟨8, 1⟩} := by decide
  refine ⟨t₁, b₁, t, b, k', ⟨?_, ?_⟩, h1, h2, ?_, hleaf, hhuge, hfree, fun hown => ?_⟩
  · rw [hchunks]
    exact apart_singleton _
  · rw [freeFrames, hchunks, free, Finset.singleton_biUnion]
    decide
  · cases r with
    | error u => cases h4
    | ok stop =>
        cases h4
        exact h3
  · obtain ⟨frame, flags, hmapped, -⟩ := hown.mapped _ (List.mem_singleton_self _)
      (0xffff800000161000 / pageSize)
      (Finset.mem_Ico.mpr (by norm_num [stackPages, smallKernelStackPages, pageSize]))
    cases hleaf.symm.trans hmapped

end Titanium
