import Titanium.Paging.Layout

/-!
Virtual addresses, and where the kernel puts its stacks (`vmem.rs`).

A virtual address is a number; the operations of `VirtAddr` panic when their
result is not canonical, which `none` stands for.  The constants keep the names
of the source; offsets are relative to `HHDM_ADDR`, the base of the bootloader's
direct map, or to `HHDM_TOP_ADDR`, which lies `MAX_PHYS_MAP` above it.
-/

namespace Titanium

/-! ### `VirtAddr` -/

/-- `VirtAddr::new_truncate`: bit 47 is copied into the bits above. -/
def newTruncate (addr : ℕ) : ℕ :=
  if addr % 2 ^ 48 < 2 ^ 47 then addr % 2 ^ 48 else addr % 2 ^ 48 + (2 ^ 64 - 2 ^ 48)

/-- The addresses a `VirtAddr` can hold. -/
def Canonical (addr : ℕ) : Prop := addr < 2 ^ 47 ∨ 2 ^ 64 - 2 ^ 47 ≤ addr ∧ addr < 2 ^ 64

instance (addr : ℕ) : Decidable (Canonical addr) := inferInstanceAs (Decidable (_ ∨ _))

/-- `addr + n`. -/
def virtAdd (addr n : ℕ) : Option ℕ := if Canonical (addr + n) then some (addr + n) else none

/-- `addr - n`. -/
def virtSub (addr n : ℕ) : Option ℕ :=
  if n ≤ addr ∧ Canonical (addr - n) then some (addr - n) else none

lemma virtAdd_eq_some {addr n x : ℕ} :
    virtAdd addr n = some x ↔ Canonical (addr + n) ∧ addr + n = x := by
  rw [virtAdd, Option.ite_none_right_eq_some, Option.some.injEq]

lemma virtSub_eq_some {addr n x : ℕ} :
    virtSub addr n = some x ↔ (n ≤ addr ∧ Canonical (addr - n)) ∧ addr - n = x := by
  rw [virtSub, Option.ite_none_right_eq_some, Option.some.injEq]

lemma newTruncate_of_canonical {addr : ℕ} (h : Canonical addr) : newTruncate addr = addr := by
  unfold newTruncate
  cases h with
  | inl hlow => rw [Nat.mod_eq_of_lt (by omega), if_pos hlow]
  | inr hhigh =>
      have hmod : addr % 2 ^ 48 = addr - (2 ^ 64 - 2 ^ 48) := by omega
      rw [hmod, if_neg (by omega)]
      omega

/-! ### The layout -/

/-- `HHDM_TOP_OFFSET`. -/
def hhdmTopOffset : ℕ := maxPhysMap

/-- `SCHEDULER_STACK_BOTTOM_OFFSET`, over `HHDM_TOP_ADDR`. -/
def schedulerStackBottomOffset : ℕ := 0x10000

/-- `SCHEDULER_STACK_SIZE`, in pages. -/
def schedulerStackSize : ℕ := 4

/-- `SCHEDULER_STACK_WIDTH`: with the two guard pages. -/
def schedulerStackWidth : ℕ := schedulerStackSize + 2

/-- `SCHEDULER_STACK_TOP_OFFSET`. -/
def schedulerStackTopOffset : ℕ := schedulerStackBottomOffset + schedulerStackWidth * pageSize

/-- `KERNEL_STACK_SPACE_BOTTOM_OFFSET`, over `HHDM_ADDR`. -/
def kernelStackSpaceBottomOffset : ℕ := 0x100000

/-- `LARGE_KERNEL_STACK_PAGES`. -/
def largeKernelStackPages : ℕ := 5

/-- `SMALL_KERNEL_STACK_PAGES`. -/
def smallKernelStackPages : ℕ := 1

/-- `LARGE_KERNEL_STACK_SIZE`. -/
def largeKernelStackSize : ℕ := largeKernelStackPages * pageSize

/-- `SMALL_KERNEL_STACK_SIZE`. -/
def smallKernelStackSize : ℕ := smallKernelStackPages * pageSize

/-- `N_LARGE_KERNEL_STACKS`. -/
def nLargeKernelStacks : ℕ := 16

/-- `N_SMALL_KERNEL_STACKS`. -/
def nSmallKernelStacks : ℕ := nLargeKernelStacks * 2

/-- `FIRST_LARGE_KERNEL_STACK_TOP_OFFSET`. -/
def firstLargeKernelStackTopOffset : ℕ :=
  kernelStackSpaceBottomOffset + pageSize + largeKernelStackSize

/-- `FIRST_SMALL_KERNEL_STACK_TOP_OFFSET`. -/
def firstSmallKernelStackTopOffset : ℕ :=
  kernelStackSpaceBottomOffset + (pageSize + largeKernelStackSize) * nLargeKernelStacks +
    pageSize + smallKernelStackSize

/-- `KERNEL_STACK_SPACE_PAGES`: with a guard page below each stack, and one above the last. -/
def kernelStackSpacePages : ℕ :=
  nLargeKernelStacks * (largeKernelStackPages + 1) +
    nSmallKernelStacks * (smallKernelStackPages + 1) + 1

/-- `KERNEL_STACK_SPACE_SIZE`. -/
def kernelStackSpaceSize : ℕ := kernelStackSpacePages * pageSize

/-- `KERNEL_STACK_SPACE_TOP_OFFSET`. -/
def kernelStackSpaceTopOffset : ℕ := kernelStackSpaceBottomOffset + kernelStackSpaceSize

end Titanium
