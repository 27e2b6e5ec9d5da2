import Titanium.Stack
import Mathlib.Order.CompletePartialOrder

/-!
The slots of the kernel's stacks, and what `make_kernel_stack` tells its caller.

`stack::init` walks over the stack space and maps guard pages; `make_kernel_stack`
computes the place of a slot from its index.

* `stackInit_eq`: `stack::init` calls `map_to` for the pages of `initGuards`.
* `HandedOut`: the invariant of a run, every stack is a slot of its own.
* `kernel_stacks_interlock`: **every stack lies between two guard pages**, and
  apart from the others.
* `make_kernel_stack_reports_iff`: **a call reports what happened exactly when there
  is room for the stack and interrupts are enabled, or there is no slot and
  interrupts are disabled**.
-/

namespace Titanium

/-! ### The walk of `stack::init` -/

/-- The pages that one of the loops of `init` passes to `map_to`, and where it ends. -/
def guardWalk (stride : ℕ) : ℕ → ℕ → Option (List ℕ × ℕ)
  | 0, curpage => some ([], curpage)
  | k + 1, curpage => do
      let next ← pageAdd .size4KiB curpage stride
      let (pages, last) ← guardWalk stride k next
      return (curpage :: pages, last)

/-- The pages that `init` passes to `map_to`. -/
def initGuards (hhdm : ℕ) : Option (List ℕ) := do
  let bottomAddr ← virtAdd hhdm kernelStackSpaceBottomOffset
  let (large, curpage) ← guardWalk (1 + largeKernelStackPages) nLargeKernelStacks
    (bottomAddr / pageSize)
  let (small, _) ← guardWalk (1 + smallKernelStackPages) (nSmallKernelStacks + 1) curpage
  return large ++ small

/-- `map_to` for a guard page. -/
def mapGuard (M : Mapper) (s : M.Table × BuddyBits) (page : ℕ) : Option (M.Table × BuddyBits) :=
  (M.mapTo s.1 s.2 .size4KiB page 0 (pageFlagGuard ||| pageFlagStack)).map Prod.snd

lemma mapGuards_eq (M : Mapper) (stride n page : ℕ) (t : M.Table) (b : BuddyBits) :
    mapGuards M stride n page t b = (guardWalk stride n page).bind fun w =>
      (w.1.foldlM (mapGuard M) (t, b)).map fun s => (w.2, s) := by
  induction n generalizing page t b with
  | zero => rfl
  | succ n ih =>
      rw [mapGuards, guardWalk]
      cases hnext : pageAdd .size4KiB page stride with
      | none => simp
      | some next =>
          cases hwalk : guardWalk stride n next with
          | none => simp [ih, hwalk]
          | some w =>
              cases hmap : M.mapTo t b .size4KiB page 0 _ <;> simp [mapGuard, hmap, ih, hwalk]

/-- Two walks, one behind the other. -/
lemma mapGuards_mapGuards (M : Mapper) (stride n stride' n' page : ℕ) (t : M.Table)
    (b : BuddyBits) :
    (do
      let (curpage, t, b) ← mapGuards M stride n page t b
      let (_, t, b) ← mapGuards M stride' n' curpage t b
      return (t, b)) =
    Option.bind (do
      let (pages, curpage) ← guardWalk stride n page
      let (pages', _) ← guardWalk stride' n' curpage
      return pages ++ pages') fun guards => guards.foldlM (mapGuard M) (t, b) := by
  cases hwalk : guardWalk stride n page with
  | none => simp [mapGuards_eq, hwalk]
  | some w =>
      cases hwalk' : guardWalk stride' n' w.2 with
      | none =>
          cases hfold : w.1.foldlM (mapGuard M) (t, b) <;>
            simp [mapGuards_eq, hwalk, hfold, hwalk']
      | some w' =>
          cases hfold : w.1.foldlM (mapGuard M) (t, b) with
          | none => simp [mapGuards_eq, hwalk, hfold, hwalk', List.foldlM_append]
          | some s =>
              cases hfold' : w'.1.foldlM (mapGuard M) s <;>
                simp [mapGuards_eq, hwalk, hfold, hwalk', hfold', List.foldlM_append]

/-- **`stack::init` maps the pages of its walk.** -/
lemma stackInit_eq (M : Mapper) (hhdm : ℕ) (t : M.Table) (b : BuddyBits) :
    stackInit M hhdm t b =
      (initGuards hhdm).bind fun guards => guards.foldlM (mapGuard M) (t, b) := by
  rw [stackInit, initGuards]
  cases virtAdd hhdm kernelStackSpaceBottomOffset with
  | none => rfl
  | some bottom => exact mapGuards_mapGuards M _ _ _ _ (bottom / pageSize) t b

/-! ### Where the guard pages lie -/

lemma guardWalk_eq_some {stride n page last : ℕ} {pages : List ℕ}
    (h : guardWalk stride n page = some (pages, last)) :
    pages = (List.range n).map (page + stride * ·) ∧ last = page + stride * n := by
  induction n generalizing page pages with
  | zero =>
      cases h
      exact ⟨rfl, rfl⟩
  | succ n ih =>
      simp only [guardWalk, Option.bind_eq_bind, Option.bind_eq_some_iff] at h
      obtain ⟨next, hnext, ⟨pages', last'⟩, hwalk, heq⟩ := h
      cases heq
      obtain rfl : page + stride = next :=
        Option.some.inj (Option.ite_none_right_eq_some.mp hnext).2
      obtain ⟨rfl, rfl⟩ := ih hwalk
      refine ⟨?_, by rw [Nat.mul_succ]; omega⟩
      rw [List.range_succ_eq_map, List.map_cons, List.map_map, Nat.mul_zero, Nat.add_zero]
      refine congrArg _ (List.map_congr_left fun j _ => ?_)
      simp only [Function.comp_apply, Nat.mul_succ]
      omega

/-- **The walk passes the guard pages.** -/
lemma mem_initGuards {h : ℕ} {guards : List ℕ} (hg : initGuards (h * pageSize) = some guards)
    (q : ℕ) : q ∈ guards ↔ q ∈ guardPages h := by
  simp only [initGuards, Option.bind_eq_bind, Option.bind_eq_some_iff, virtAdd_eq_some] at hg
  obtain ⟨bottom, ⟨-, rfl⟩, ⟨large, page⟩, hlarge, ⟨small, last⟩, hsmall, heq⟩ := hg
  cases heq
  rw [kernelStackSpace_bottom] at hlarge
  obtain ⟨rfl, rfl⟩ := guardWalk_eq_some hlarge
  obtain ⟨rfl, -⟩ := guardWalk_eq_some hsmall
  rw [List.mem_append, List.mem_map, List.mem_map, guardPages, Finset.mem_union, Finset.mem_image,
    Finset.mem_image]
  simp only [List.mem_range, Finset.mem_range]
  rfl

lemma mem_guardPages_stop (h : ℕ) {small : Bool} {i : ℕ} (hi : i < slotCount small) :
    h + slotEnd small i ∈ guardPages h := by
  rw [guardPages, Finset.mem_union, Finset.mem_image, Finset.mem_image]
  cases small with
  | true =>
    exact Or.inr ⟨i + 1, Finset.mem_range.mpr (Nat.succ_lt_succ hi), by simp [slotEnd]; ring⟩
  | false =>
      by_cases hlast : i + 1 < 16
      · exact Or.inl ⟨i + 1, Finset.mem_range.mpr hlast, by simp [slotEnd]; ring⟩
      -- the page above the last large stack is the first guard page of the small ones
      · have : i < 16 := hi
        refine Or.inr ⟨0, Finset.mem_range.mpr (by norm_num), ?_⟩
        rw [slotEnd]
        omega

lemma mem_guardPages_start (h : ℕ) {small : Bool} {i : ℕ} (hi : i < slotCount small) :
    h + slotEnd small i - stackPages small - 1 ∈ guardPages h := by
  rw [guardPages, Finset.mem_union, Finset.mem_image, Finset.mem_image]
  cases small with
  | true =>
      refine Or.inr ⟨i, Finset.mem_range.mpr (Nat.lt_succ_of_lt hi), ?_⟩
      rw [slotEnd, stackPages, smallKernelStackPages]
      omega
  | false =>
      refine Or.inl ⟨i, Finset.mem_range.mpr hi, ?_⟩
      rw [slotEnd, stackPages, largeKernelStackPages]
      omega

/-- The addresses of a slot lie in its pages. -/
lemma div_mem_slotPages {h i a : ℕ} {small : Bool}
    (hstart : slotTop (h * pageSize) small i - stackPages small * pageSize ≤ a)
    (hstop : a < slotTop (h * pageSize) small i) :
    a / pageSize ∈ slotPages (h * pageSize) small i := by
  have hpos : 0 < pageSize := by norm_num [pageSize]
  rw [slotTop_eq] at hstop
  rw [slotTop_eq, ← Nat.sub_mul] at hstart
  rw [slotPages_eq, Finset.mem_Ico]
  exact ⟨(Nat.le_div_iff_mul_le hpos).mpr hstart, (Nat.div_lt_iff_lt_mul hpos).mpr hstop⟩

/-- The slots fill the stack space. -/
lemma slot_inside (h : ℕ) {small : Bool} {i : ℕ} (hi : i < slotCount small) :
    h * pageSize + kernelStackSpaceBottomOffset ≤
        slotTop (h * pageSize) small i - stackPages small * pageSize ∧
      slotTop (h * pageSize) small i ≤ h * pageSize + kernelStackSpaceTopOffset := by
  rw [slotTop_eq]
  cases small <;>
    simp only [slotEnd, stackPages, slotCount, kernelStackSpaceTopOffset, kernelStackSpaceSize,
      kernelStackSpacePages, kernelStackSpaceBottomOffset, largeKernelStackPages,
      smallKernelStackPages, nLargeKernelStacks, nSmallKernelStacks, pageSize] at * <;> omega

/-! ### Runs -/

/-- The first address of a stack. -/
def Stack.start (st : Stack) : ℕ := st.stop - stackPages st.small * pageSize

/-- A call of `make_kernel_stack`, or anything else that leaves the bitmaps alone. -/
inductive KernelStep (M : Mapper) (hhdm : ℕ) : StackRun M → StackRun M → Prop where
  | call {small : Bool} {s s' : StackRun M} (h : StackStep M hhdm small s s') :
      KernelStep M hhdm s s'
  | other {s : StackRun M} {k' : Kernel M} (h : k'.unused = s.kernel.unused) :
      KernelStep M hhdm s ⟨k', s.made⟩

/-- **The invariant**: the stacks made so far are `slots`, each of them only once, and none of
them is unused. -/
structure HandedOut (M : Mapper) (hhdm : ℕ) (slots : List (Bool × ℕ)) (s : StackRun M) :
    Prop where
  nodup : slots.Nodup
  used : ∀ x ∈ slots, x.2 < slotCount x.1 ∧ x.2 ∉ s.kernel.unused x.1
  made : s.made.map (fun st => (st.small, st.stop)) =
    slots.map fun x => (x.1, slotTop hhdm x.1 x.2)

namespace HandedOut

variable {M : Mapper} {hhdm : ℕ} {slots : List (Bool × ℕ)} {s s' : StackRun M}

lemma uses (hH : HandedOut M hhdm slots s) {small : Bool} {i : ℕ} {k' : Kernel M}
    (hu : UsesSlot M hhdm s.kernel small i k') (taken : Finset ℕ) :
    HandedOut M hhdm ((small, i) :: slots)
      ⟨k', ⟨slotTop hhdm small i, small, taken⟩ :: s.made⟩ := by
  refine ⟨List.nodup_cons.mpr ⟨fun hx => (hH.used _ hx).2 hu.mem, hH.nodup⟩, fun x hx => ?_,
    by rw [List.map_cons, List.map_cons, hH.made]⟩
  cases List.mem_cons.mp hx with
  | inl heq =>
      subst heq
      refine ⟨Kernel.lt_of_mem_unused hu.mem, ?_⟩
      rw [hu.unused_eq]
      exact Finset.notMem_erase i _
  | inr hmem =>
      obtain ⟨hlt, hnot⟩ := hH.used x hmem
      refine ⟨hlt, fun hx' => hnot ?_⟩
      by_cases hsm : x.1 = small
      · rw [hsm, hu.unused_eq] at hx'
        rw [hsm]
        exact Finset.mem_of_mem_erase hx'
      · rw [Bool.eq_not_of_ne hsm, hu.unused_other] at hx'
        rw [Bool.eq_not_of_ne hsm]
        exact hx'

/-- **The step lemma.** -/
lemma step (hH : HandedOut M hhdm slots s) (hstep : KernelStep M hhdm s s') :
    ∃ slots', HandedOut M hhdm slots' s' := by
  cases hstep with
  | other hunused => exact ⟨slots, hH.nodup, fun x hx => hunused ▸ hH.used x hx, hH.made⟩
  | call hcall =>
      cases hcall with
      | error hret =>
          rcases makeKernelStack_spec M hhdm hret with ⟨-, -, rfl⟩ | ⟨i, hr, -⟩
          · exact ⟨slots, hH.nodup, hH.used, hH.made⟩
          · cases hr
      | ok hret =>
          rcases makeKernelStack_spec M hhdm hret with ⟨hr, -, -⟩ | ⟨i, hr, hu⟩
          · cases hr
          · cases hr
            exact ⟨_, hH.uses hu _⟩

/-- **The run lemma.** -/
lemma run {t : M.Table} {b : BuddyBits}
    (hrun : Relation.ReflTransGen (KernelStep M hhdm) ⟨bootKernel M t b, []⟩ s) :
    ∃ slots, HandedOut M hhdm slots s := by
  induction hrun with
  | refl => exact ⟨[], List.nodup_nil, by simp, rfl⟩
  | tail _ hstep ih =>
      obtain ⟨slots, hH⟩ := ih
      exact hH.step hstep

lemma slot (hH : HandedOut M hhdm slots s) {st : Stack} (hst : st ∈ s.made) :
    ∃ i < slotCount st.small, st.stop = slotTop hhdm st.small i := by
  have hmem : (st.small, st.stop) ∈ s.made.map fun st => (st.small, st.stop) :=
    List.mem_map_of_mem hst
  rw [hH.made] at hmem
  obtain ⟨⟨small, i⟩, hx, heq⟩ := List.mem_map.mp hmem
  obtain ⟨rfl, hstop⟩ := Prod.mk.inj heq
  exact ⟨i, (hH.used _ hx).1, hstop.symm⟩

/-- Different slots have different addresses. -/
lemma apart {h : ℕ} (hH : HandedOut M (h * pageSize) slots s) :
    s.made.Pairwise fun st st' => Disjoint (Set.Ico st.start st.stop)
      (Set.Ico st'.start st'.stop) := by
  have hslots : (s.made.map fun st => (st.small, st.stop)).Pairwise fun x y =>
      Disjoint (Set.Ico (x.2 - stackPages x.1 * pageSize) x.2)
        (Set.Ico (y.2 - stackPages y.1 * pageSize) y.2) := by
    rw [hH.made, List.pairwise_map]
    refine hH.nodup.imp_of_mem fun {x y} hx hy hne => Set.disjoint_left.mpr fun a ha ha' => ?_
    have hapart : x.1 ≠ y.1 ∨ x.2 ≠ y.2 := by
      rw [← not_and_or]
      exact fun heq => hne (Prod.ext heq.1 heq.2)
    exact Finset.disjoint_left.mp
      (slotPages_disjoint (hH.used x hx).1 (hH.used y hy).1 hapart)
      (div_mem_slotPages ha.1 ha.2) (div_mem_slotPages ha'.1 ha'.2)
  rw [List.pairwise_map] at hslots
  exact hslots

end HandedOut

/-- **Slots and guard pages interlock**: the stacks are page aligned, lie in the stack space,
between two of the guard pages, and apart from each other and from all guard pages. -/
structure Interlocked (hhdm : ℕ) (guards : List ℕ) (made : List Stack) : Prop where
  aligned : ∀ st ∈ made, pageSize ∣ st.start ∧ pageSize ∣ st.stop
  inside : ∀ st ∈ made, hhdm + kernelStackSpaceBottomOffset ≤ st.start ∧
    st.stop ≤ hhdm + kernelStackSpaceTopOffset
  apart : made.Pairwise fun st st' => Disjoint (Set.Ico st.start st.stop)
    (Set.Ico st'.start st'.stop)
  unguarded : ∀ st ∈ made, ∀ a ∈ Set.Ico st.start st.stop, a / pageSize ∉ guards
  below : ∀ st ∈ made, st.start / pageSize - 1 ∈ guards
  above : ∀ st ∈ made, st.stop / pageSize ∈ guards
  slots : ∃ slots : List (Bool × ℕ), slots.Nodup ∧ (∀ x ∈ slots, x.2 < slotCount x.1) ∧
    made.map (fun st => (st.small, st.stop)) = slots.map fun x => (x.1, slotTop hhdm x.1 x.2)

lemma HandedOut.interlocked {M : Mapper} {h : ℕ} {slots : List (Bool × ℕ)} {s : StackRun M}
    {guards : List ℕ} (hH : HandedOut M (h * pageSize) slots s)
    (hg : initGuards (h * pageSize) = some guards) : Interlocked (h * pageSize) guards s.made := by
  have hpos : 0 < pageSize := by norm_num [pageSize]
  refine ⟨fun st hst => ?_, fun st hst => ?_, hH.apart, fun st hst a ha => ?_, fun st hst => ?_,
    fun st hst => ?_, slots, hH.nodup, fun x hx => (hH.used x hx).1, hH.made⟩
  · obtain ⟨i, -, hstop⟩ := hH.slot hst
    rw [Stack.start, hstop, slotTop_eq, ← Nat.sub_mul]
    exact ⟨dvd_mul_left _ _, dvd_mul_left _ _⟩
  · obtain ⟨i, hi, hstop⟩ := hH.slot hst
    rw [Stack.start, hstop]
    exact slot_inside h hi
  · obtain ⟨i, hi, hstop⟩ := hH.slot hst
    rw [Stack.start, hstop] at ha
    rw [mem_initGuards hg]
    exact notMem_guardPages (Or.inl ⟨st.small, i, hi, div_mem_slotPages ha.1 ha.2⟩)
  · obtain ⟨i, hi, hstop⟩ := hH.slot hst
    rw [Stack.start, hstop, slotTop_eq, ← Nat.sub_mul, Nat.mul_div_cancel _ hpos, mem_initGuards hg]
    exact mem_guardPages_start h hi
  · obtain ⟨i, hi, hstop⟩ := hH.slot hst
    rw [hstop, slotTop_eq, Nat.mul_div_cancel _ hpos, mem_initGuards hg]
    exact mem_guardPages_stop h hi

/-- **Along every run the stacks and the guard pages interlock.**  The guard pages are those that
`stack::init` has passed to `map_to`; between the calls the page table, the allocator and the
interrupt flag may change in any way.  The base of a direct map is page aligned, as paging keeps
the offset in a page. -/
theorem kernel_stacks_interlock (M : Mapper) (hhdm : ℕ) (hbase : pageSize ∣ hhdm) (t₀ t : M.Table)
    (b₀ b : BuddyBits) (hinit : stackInit M hhdm t₀ b₀ = some (t, b)) :
    ∃ guards, initGuards hhdm = some guards ∧
      guards.foldlM (mapGuard M) (t₀, b₀) = some (t, b) ∧
      ∀ s, Relation.ReflTransGen (KernelStep M hhdm) ⟨bootKernel M t b, []⟩ s →
        Interlocked hhdm guards s.made := by
  rw [stackInit_eq] at hinit
  obtain ⟨guards, hg, hfold⟩ := Option.bind_eq_some_iff.mp hinit
  refine ⟨guards, hg, hfold, fun s hrun => ?_⟩
  obtain ⟨slots, hH⟩ := HandedOut.run hrun
  obtain ⟨h, rfl⟩ := hbase
  rw [Nat.mul_comm] at *
  exact hH.interlocked hg

/-- A small and a large stack, made after `stack::init` and `scheduler::init`. -/
lemma twoStacks_return : ∃ t₁ b₁ t b k k',
    stackInit FourLevel.fourLevel hhdmBase slotTables lowChunk = some (t₁, b₁) ∧
      makeSchedulerStack FourLevel.fourLevel hhdmBase t₁ b₁ = some (t, b) ∧
      makeKernelStack FourLevel.fourLevel hhdmBase (bootKernel _ t b) true =
        some (.ok 0xffff800000162000, k) ∧
      makeKernelStack FourLevel.fourLevel hhdmBase k false =
        some (.ok 0xffff800000106000, k') := by
  have heval : (stackInit FourLevel.fourLevel hhdmBase slotTables lowChunk).any (fun x =>
      (makeSchedulerStack FourLevel.fourLevel hhdmBase x.1 x.2).any
        fun (y : FourLevel × BuddyBits) =>
        (makeKernelStack FourLevel.fourLevel hhdmBase (bootKernel _ y.1 y.2) true).any
          fun (z : Except Unit ℕ × Kernel FourLevel.fourLevel) =>
          decide (z.1.toOption = some 0xffff800000162000) &&
          (makeKernelStack FourLevel.fourLevel hhdmBase z.2 false).any fun w =>
            decide (w.1.toOption = some 0xffff800000106000)) = true := by
    decide +kernel
  simp only [Option.any_eq_true, Bool.and_eq_true, decide_eq_true_eq] at heval
  obtain ⟨⟨t₁, b₁⟩, h₁, ⟨t, b⟩, h₂, ⟨r, k⟩, h₃, hr, ⟨r', k'⟩, h₄, hr'⟩ := heval
  refine ⟨t₁, b₁, t, b, k, k', h₁, h₂, ?_, ?_⟩
  · cases r with
    | error u => cases hr
    | ok stop =>
        cases hr
        exact h₃
  · cases r' with
    | error u => cases hr'
    | ok stop =>
        cases hr'
        exact h₄

theorem kernel_stacks_interlock_twoStacks : ∃ t₁ b₁ t b k k' guards s s',
    stackInit FourLevel.fourLevel hhdmBase slotTables lowChunk = some (t₁, b₁) ∧
      makeSchedulerStack FourLevel.fourLevel hhdmBase t₁ b₁ = some (t, b) ∧
      makeKernelStack FourLevel.fourLevel hhdmBase (bootKernel _ t b) true =
        some (.ok 0xffff800000162000, k) ∧
      makeKernelStack FourLevel.fourLevel hhdmBase k false =
        some (.ok 0xffff800000106000, k') ∧
      initGuards hhdmBase = some guards ∧
      guards.foldlM (mapGuard FourLevel.fourLevel) (slotTables, lowChunk) = some (t₁, b₁) ∧
      Relation.ReflTransGen (KernelStep FourLevel.fourLevel hhdmBase) ⟨bootKernel _ t₁ b₁, []⟩
        ⟨k', [s', s]⟩ ∧
      (s.stop = 0xffff800000162000 ∧ s'.stop = 0xffff800000106000) ∧
      Interlocked hhdmBase guards [s', s] := by
  obtain ⟨t₁, b₁, t, b, k, k', hinit, hsched, hsmall, hlarge⟩ := twoStacks_return
  obtain ⟨guards, hg, hfold, hall⟩ := kernel_stacks_interlock FourLevel.fourLevel hhdmBase
    (by norm_num [pageSize, hhdmBase]) slotTables t₁ lowChunk b₁ hinit
  -- the scheduler's stack is made before the first call
  have hother : KernelStep FourLevel.fourLevel hhdmBase ⟨bootKernel _ t₁ b₁, []⟩
      ⟨bootKernel _ t b, []⟩ := KernelStep.other rfl
  have hrun := ((Relation.ReflTransGen.single hother).tail (.call (.ok hsmall))).tail
    (.call (.ok hlarge))
  exact ⟨t₁, b₁, t, b, k, k', guards, _, _, hinit, hsched, hsmall, hlarge, hg, hfold, hrun,
    ⟨rfl, rfl⟩, hall _ hrun⟩

/-! ### What the caller learns -/

/-- The call of `page_region` for slot `i`. -/
def slotRegion (M : Mapper) (hhdm : ℕ) (k : Kernel M) (small : Bool) (i : ℕ) :
    Option (Except Unit Unit × M.Table × BuddyBits) :=
  pageRegion M .size4KiB k.table k.bits (slotTop hhdm small i - stackPages small * pageSize)
    (slotTop hhdm small i) stackFlags

/-- A call with result `r` reports failure, and leaves no trace of it: it returns `Ok` only when it
has mapped the slot, all of whose pages were not mapped before, to frames that it took; `Err`
without a slot and when `page_region` fails, with the bitmaps as they were; and the interrupt flag
is never changed. -/
structure Reports (M : Mapper) (hhdm : ℕ) (k : Kernel M) (small : Bool) (r : Except Unit ℕ)
    (k' : Kernel M) : Prop where
  ok : ∀ stop, r = .ok stop → ∃ i, IsLeast ↑(k.unused small) i ∧ stop = slotTop hhdm small i ∧
    (∀ q ∈ slotPages hhdm small i, M.leaf k.table .size4KiB q = none) ∧
    Backed M.toPageTables .size4KiB stackFlags (slotPages hhdm small i) k.table k.bits
      k'.table k'.bits
  full : k.unused small = ∅ → r = .error ()
  failed : ∀ i t b, IsLeast ↑(k.unused small) i →
    slotRegion M hhdm k small i = some (.error (), t, b) → r = .error ()
  slots : r = .error () → k'.kernelLargeStacks = k.kernelLargeStacks ∧
    k'.kernelSmallStacks = k.kernelSmallStacks
  interrupts : k'.interrupts = k.interrupts

/-- There is room for slot `i`: a free chunk holds the stack, none of its pages is mapped or lies
under a huge page, and there are frames left for the tables that are missing. -/
structure SlotRoom (M : Mapper) (hhdm : ℕ) (k : Kernel M) (small : Bool) (i : ℕ) : Prop where
  chunk : ∃ c ∈ chunks k.bits, Nat.clog 2 (stackPages small) ≤ c.level
  room : Room M.toPageTables .size4KiB k.table (slotPages hhdm small i)
    ((freeFrames k.bits).card - stackPages small)

namespace UsesSlot

variable {M : Mapper} {h i : ℕ} {small : Bool} {k k' : Kernel M}

lemma isLeast {hhdm : ℕ} (hu : UsesSlot M hhdm k small i k') : IsLeast ↑(k.unused small) i :=
  ⟨hu.mem, hu.least⟩

lemma slotPages_nonempty (h : ℕ) (small : Bool) (i : ℕ) :
    (slotPages (h * pageSize) small i).Nonempty := by
  rw [← Finset.card_pos, slotPages_card]
  cases small <;> decide

/-- With room the slot is mapped. -/
lemma backed_of_room (hu : UsesSlot M (h * pageSize) k small i k')
    (hw : WellFormed M.toPageTables k.table k.bits)
    (hroom : SlotRoom M (h * pageSize) k small i) :
    (∀ q ∈ slotPages (h * pageSize) small i, M.leaf k.table .size4KiB q = none) ∧
      Backed M.toPageTables .size4KiB stackFlags (slotPages (h * pageSize) small i) k.table k.bits
        k'.table k'.bits := by
  have hB := pageRegion_backed M hw (hu.region_ok hw.apart hroom.chunk)
  rw [hu.regionPages_eq, slotPages_card, PageSize.unit, Nat.mul_one] at hB
  refine ⟨fun q hq => ?_, hB hroom.room⟩
  by_contra hleaf
  exact hroom.room.unblocked q hq (M.blocked_of_leaf hleaf)

/-- Without room it is not. -/
lemma room_of_backed (hu : UsesSlot M (h * pageSize) k small i k')
    (hw : WellFormed M.toPageTables k.table k.bits)
    (hnone : ∀ q ∈ slotPages (h * pageSize) small i, M.leaf k.table .size4KiB q = none)
    (hB : Backed M.toPageTables .size4KiB stackFlags (slotPages (h * pageSize) small i) k.table
      k.bits k'.table k'.bits) : SlotRoom M (h * pageSize) k small i := by
  obtain ⟨r, hregion⟩ := hu.region
  cases r with
  | error u =>
      -- a region that fails leaves the page table as it was
      obtain ⟨stop', hstop, -⟩ := Option.bind_eq_some_iff.mp hregion
      obtain ⟨htable, -, -⟩ := pageRegion_error M hw.apart hstop hregion
      obtain ⟨q, hq⟩ := slotPages_nonempty h small i
      obtain ⟨frame, hleaf⟩ := hB.mapped q hq
      rw [htable, hnone q hq] at hleaf
      cases hleaf
  | ok u =>
      have hchunk := pageRegion_chunk M hw.apart hregion
      have hroom := pageRegion_room M hw.apart hregion
      rw [hu.regionPages_eq, slotPages_card, PageSize.unit, Nat.mul_one] at hchunk hroom
      refine ⟨hchunk, hroom fun q hq => ?_⟩
      obtain ⟨frame, hleaf⟩ := hB.mapped q hq
      rw [hleaf, hnone q hq]
      exact Option.some_ne_none _

end UsesSlot

/-- `Ok` comes with interrupts enabled. -/
lemma makeKernelStack_interrupts {M : Mapper} {hhdm : ℕ} {k k' : Kernel M} {small : Bool}
    {stop : ℕ} (h : makeKernelStack M hhdm k small = some (.ok stop, k')) :
    k'.interrupts = true := by
  have hbody : ∀ {n top size : ℕ} {slots : BitArr n} {setSlots : BitArr n → Kernel M → Kernel M},
      mapStack M hhdm top size slots setSlots k = some (.ok stop, k') → k'.interrupts = true := by
    intro n top size slots setSlots hmap
    rcases mapStack_spec M hhdm hmap with
      ⟨hr, -⟩ | ⟨i, -, -, -, -, -, -, slots', k₁, e, -, -, -, hk'⟩
    · cases hr
    · rw [hk']
  cases small with
  | true =>
      rw [makeKernelStack, if_pos rfl] at h
      exact hbody h
  | false =>
      rw [makeKernelStack, if_neg Bool.false_ne_true] at h
      exact hbody h

/-- **`make_kernel_stack` reports what happened** exactly when there is room for the first unused
slot and interrupts were enabled, or when there is no slot and interrupts were disabled. -/
theorem make_kernel_stack_reports_iff (M : Mapper) (hhdm : ℕ) (hbase : pageSize ∣ hhdm)
    (k k' : Kernel M) (hw : WellFormed M.toPageTables k.table k.bits) (small : Bool)
    (r : Except Unit ℕ) (h : makeKernelStack M hhdm k small = some (r, k')) :
    Reports M hhdm k small r k' ↔
      (k.unused small = ∅ ∧ k.interrupts = false) ∨
      ∃ i, IsLeast ↑(k.unused small) i ∧ SlotRoom M hhdm k small i ∧ k.interrupts = true := by
  obtain ⟨n, rfl⟩ := hbase
  rw [Nat.mul_comm] at *
  rcases makeKernelStack_spec M _ h with ⟨rfl, hempty, rfl⟩ | ⟨i, rfl, hu⟩
  · refine ⟨fun hR => Or.inl ⟨hempty, hR.interrupts.symm⟩, ?_⟩
    rintro (⟨-, hif⟩ | ⟨i, hleast, -⟩)
    · refine ⟨fun stop hr => ?_, fun _ => rfl, fun _ _ _ _ _ => rfl, fun _ => ⟨rfl, rfl⟩, hif.symm⟩
      cases hr
    · have hi : i ∈ k.unused small := hleast.1
      rw [hempty] at hi
      exact absurd hi (Finset.notMem_empty i)
  · have hif := makeKernelStack_interrupts h
    have hne : k.unused small ≠ ∅ := Finset.ne_empty_of_mem hu.mem
    refine ⟨fun hR => ?_, ?_⟩
    · obtain ⟨j, hleast, -, hnone, hB⟩ := hR.ok _ rfl
      obtain rfl : j = i := hleast.unique hu.isLeast
      exact Or.inr ⟨j, hleast, hu.room_of_backed hw hnone hB, hR.interrupts.symm.trans hif⟩
    · rintro (⟨hempty, -⟩ | ⟨j, hleast, hroom, hif'⟩)
      · exact absurd hempty hne
      · obtain rfl : j = i := hleast.unique hu.isLeast
        have hreg := hu.region_ok hw.apart hroom.chunk
        refine ⟨fun stop hr => ?_, fun hempty => absurd hempty hne, fun i' t b hleast' hfail => ?_,
          fun hr => ?_, hif.trans hif'.symm⟩
        · cases hr
          exact ⟨j, hleast, rfl, hu.backed_of_room hw hroom⟩
        · rw [hleast'.unique hleast, slotRegion, hreg] at hfail
          cases hfail
        · cases hr

/-- The first small slot is the first that a booted kernel uses. -/
lemma isLeast_bootKernel (M : Mapper) (t : M.Table) (b : BuddyBits) :
    IsLeast ↑((bootKernel M t b).unused true) 0 :=
  ⟨Finset.mem_range.mpr (by norm_num [nSmallKernelStacks, nLargeKernelStacks]),
    fun j _ => Nat.zero_le j⟩

/-- With the tables of the slots there is room for the first small stack. -/
lemma slotTables_room : SlotRoom FourLevel.fourLevel hhdmBase
    (bootKernel FourLevel.fourLevel slotTables lowChunk) true 0 := by
  have hchunk : ∃ c ∈ chunks lowChunk, Nat.clog 2 (stackPages true) ≤ c.level := by decide
  have htables : ((slotPages hhdmBase true 0).biUnion
      (FourLevel.view.missing slotTables .size4KiB)).card ≤
        (freeFrames lowChunk).card - stackPages true := by
    decide +kernel
  exact ⟨hchunk, fun q _ => slotTables_open q, htables⟩

theorem make_kernel_stack_reports_smallStack : ∃ k',
    makeKernelStack FourLevel.fourLevel hhdmBase (bootKernel _ slotTables lowChunk) true =
        some (.ok 0xffff800000162000, k') ∧
      Reports FourLevel.fourLevel hhdmBase (bootKernel _ slotTables lowChunk) true
        (.ok 0xffff800000162000) k' := by
  have heval : (makeKernelStack FourLevel.fourLevel hhdmBase (bootKernel _ slotTables lowChunk)
      true).any (fun z => decide (z.1.toOption = some 0xffff800000162000)) = true := by
    decide +kernel
  obtain ⟨⟨r, k'⟩, hret, hr⟩ := (Option.any_eq_true ..).mp heval
  cases r with
  | error u => cases hr
  | ok stop =>
      obtain rfl : stop = 0xffff800000162000 := Option.some.inj (of_decide_eq_true hr)
      exact ⟨k', hret, (make_kernel_stack_reports_iff _ _ (by norm_num [pageSize, hhdmBase]) _ _
        slotTables_wellFormed _ _ hret).mpr
          (Or.inr ⟨0, isLeast_bootKernel _ _ _, slotTables_room, rfl⟩)⟩

/-- A kernel without free frames. -/
def fullKernel : Kernel FourLevel.fourLevel := bootKernel _ emptyTable (BitArr.zeroed _)

/-- When the allocator is empty, a call returns `Ok` for a stack that is not mapped. -/
theorem kernel_stack_unreported :
    ∃ k', makeKernelStack FourLevel.fourLevel hhdmBase fullKernel true =
        some (.ok 0xffff800000162000, k') ∧
      k'.table.leaf .size4KiB (0xffff800000161000 / pageSize) = none ∧
      ¬ Reports FourLevel.fourLevel hhdmBase fullKernel true (.ok 0xffff800000162000) k' := by
  have heval : (makeKernelStack FourLevel.fourLevel hhdmBase fullKernel true).any (fun z =>
      decide (z.1.toOption = some 0xffff800000162000 ∧
        z.2.table.leaf .size4KiB (0xffff800000161000 / pageSize) = none)) = true := by
    decide +kernel
  obtain ⟨⟨r, k'⟩, hret, hr⟩ := (Option.any_eq_true ..).mp heval
  obtain ⟨hr, hleaf⟩ := of_decide_eq_true hr
  cases r with
  | error u => cases hr
  | ok stop =>
      cases hr
      refine ⟨k', hret, hleaf, fun hR => ?_⟩
      obtain ⟨i, hleast, -, -, hB⟩ := hR.ok _ rfl
      rw [hleast.unique (isLeast_bootKernel _ _ _)] at hB
      obtain ⟨frame, hmapped⟩ := hB.mapped (0xffff800000161000 / pageSize) (by decide)
      cases hleaf.symm.trans hmapped

end Titanium
