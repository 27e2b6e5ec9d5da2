import Titanium.Paging.Ledger
import Titanium.Hdint.Window
import Titanium.Heap

/-!
The memory that the kernel maps (`kmain` and what it calls).

The heap, the registers of the local APIC, of the IOAPICs and of the HPET, the guard
pages and the stacks are all mapped with one page table and one frame allocator.

* `heapInit`, `initLocal`, `newHpet`: the mappings that are not modelled elsewhere.
* `BootOp`: all functions of the kernel that map memory, to be called in any order.
* `BootState.lost`: the frames whose `map_to` has failed in a sequence of calls.
* `frames_have_one_place`: **whatever is called, a mapping stays as it is, and every
  usable frame has exactly one place: it is free, holds a table, is behind one page,
  or its `map_to` has failed**.
-/

namespace Titanium

/-! ### `vmem.rs`, `heap.rs`, `hdint.rs` -/

/-- `LAPIC_ADDR`. -/
def lapicAddr : ℕ := newTruncate 0x1f1000000000

/-- `HPET_ADDR`. -/
def hpetAddr : ℕ := newTruncate 0x1f1001000000

/-- `PAGE_FLAG_HEAP`. -/
def pageFlagHeap : PageTableFlags := 1#64 <<< 11

section Model

variable (M : Mapper) (t : M.Table) (b : BuddyBits)

/-- The flags of the pages of the heap. -/
def heapFlags : PageTableFlags := .present ||| .writable ||| pageFlagHeap

/-- `heap::init`, up to the allocator's own `init`; a region that cannot be picked panics. -/
def heapInit : Option (M.Table × BuddyBits) := do
  match ← pageRegion M .size2MiB t b heapStart (← virtAdd heapStart heapSize) heapFlags with
  | (.ok (), t, b) => return (t, b)
  | (.error (), _, _) => none

/-- A page of a device; a page that starts inside another one, or that cannot be mapped, panics. -/
def mapDevice (addr frame : ℕ) (flags : PageTableFlags) : Option (M.Table × BuddyBits) := do
  if addr % pageSize = 0 then
    match ← M.mapTo t b .size4KiB (addr / pageSize) frame flags with
    | (.ok _, t, b) => return (t, b)
    | (.error _, _, _) => none
  else none

/-- `hdint::init_local`, with the frame that `ApicBase` holds. -/
def initLocal (apicPhysFrame : ℕ) : Option (M.Table × BuddyBits) :=
  mapDevice M t b lapicAddr apicPhysFrame (.present ||| .writable ||| .noCache ||| .writeThrough)

/-- `HPET::new`, with the address of the ACPI table. -/
def newHpet (isMemory : Bool) (address : ℕ) : Option (M.Table × BuddyBits) :=
  if isMemory then
    if address % pageSize = 0 then
      mapDevice M t b hpetAddr address
        (.present ||| .writable ||| .writeThrough ||| .noCache ||| .noExecute)
    else none
  else none

end Model

/-! ### All of them -/

/-- The kernel, and `APIC_NEXT_OFFSET`. -/
structure BootState (M : Mapper) extends Kernel M where
  nextOffset : ℕ

/-- The functions that map memory. -/
inductive BootOp where
  | heapInit
  | initLocal (apicPhysFrame : ℕ)
  | newIOApic (entry : Hdint.IOApicEntry)
  | newHpet (isMemory : Bool) (address : ℕ)
  | stackInit
  | makeSchedulerStack
  | makeKernelStack (small : Bool)

namespace BootState

variable {M : Mapper}

/-- The state with another page table. -/
def withTable (k : BootState M) (r : M.Table × BuddyBits) : BootState M :=
  { k with table := r.1, bits := r.2 }

/-- One call. -/
def exec (hhdm : ℕ) (k : BootState M) : BootOp → Option (BootState M)
  | .heapInit => (heapInit M k.table k.bits).map k.withTable
  | .initLocal frame => (initLocal M k.table k.bits frame).map k.withTable
  | .newIOApic entry => (Hdint.IOApic.new M ⟨k.table, k.bits, k.nextOffset⟩ entry).map fun r =>
      { k.withTable (r.2.table, r.2.bits) with nextOffset := r.2.nextOffset }
  | .newHpet isMemory address => (newHpet M k.table k.bits isMemory address).map k.withTable
  | .stackInit => (stackInit M hhdm k.table k.bits).map fun r =>
      ⟨bootKernel M r.1 r.2, k.nextOffset⟩
  | .makeSchedulerStack => (makeSchedulerStack M hhdm k.table k.bits).map k.withTable
  | .makeKernelStack small => (makeKernelStack M hhdm k.toKernel small).map fun r =>
      ⟨r.2, k.nextOffset⟩

/-- A sequence of calls. -/
def run (hhdm : ℕ) (k : BootState M) (ops : List BootOp) : Option (BootState M) :=
  ops.foldlM (exec hhdm) k

/-- The frames whose `map_to` fails in one call.  Only `page_region` picks frames, and only the
functions that call it can lose some. -/
def lostBy (hhdm : ℕ) (k : BootState M) : BootOp → Finset ℕ
  | .heapInit =>
      failedFrames M .size2MiB k.table k.bits heapStart (heapStart + heapSize) heapFlags
  | .makeSchedulerStack => failedFrames M .size4KiB k.table k.bits
      (hhdm + hhdmTopOffset + schedulerStackBottomOffset + pageSize)
      (hhdm + hhdmTopOffset + schedulerStackTopOffset - pageSize) stackFlags
  | .makeKernelStack small =>
      if h : (k.unused small).Nonempty then
        failedFrames M .size4KiB k.table k.bits
          (slotTop hhdm small ((k.unused small).min' h) - stackPages small * pageSize)
          (slotTop hhdm small ((k.unused small).min' h)) stackFlags
      else ∅
  | _ => ∅

/-- The frames whose `map_to` fails in a sequence of calls. -/
def lost (hhdm : ℕ) : BootState M → List BootOp → Finset ℕ
  | _, [] => ∅
  | k, op :: ops =>
      match k.exec hhdm op with
      | none => ∅
      | some k' => k.lostBy hhdm op ∪ lost hhdm k' ops

end BootState

/-- The frames of devices are not usable memory. -/
def BootOp.Device (ram : Finset ℕ) : BootOp → Prop
  | .initLocal frame => Disjoint (handedOut (some (frame, 1))) ram
  | .newIOApic entry => ∀ i < entry.nPages,
      Disjoint (handedOut (some (entry.startFrame + i * pageSize, 1))) ram
  | .newHpet _ address => Disjoint (handedOut (some (address, 1))) ram
  | _ => True

/-! ### The ledger of a call -/

/-- A piece of code keeps every mapping, and the ledger, in which `more` frames are lost. -/
def Accounted (M : Mapper) (t₀ : M.Table) (ram more : Finset ℕ) (t : M.Table) (b : BuddyBits)
    (t' : M.Table) (b' : BuddyBits) : Prop :=
  ∀ lost, (∃ place, Ledger M.toPageTables t₀ ram lost place t b) →
    (∃ place, Ledger M.toPageTables t₀ ram (lost ∪ more) place t' b') ∧ M.Keeps t t'

namespace Accounted

variable {M : Mapper} {t₀ t t₁ t' : M.Table} {ram more more' : Finset ℕ} {b b₁ b' : BuddyBits}

lemma refl : Accounted M t₀ ram ∅ t b t b := by
  intro lost hL
  rw [Finset.union_empty]
  exact ⟨hL, .refl⟩

lemma trans (h : Accounted M t₀ ram more t b t₁ b₁) (h' : Accounted M t₀ ram more' t₁ b₁ t' b') :
    Accounted M t₀ ram (more ∪ more') t b t' b' := by
  intro lost hL
  obtain ⟨hL₁, hkeeps⟩ := h lost hL
  obtain ⟨hL', hkeeps'⟩ := h' (lost ∪ more) hL₁
  rw [← Finset.union_assoc]
  exact ⟨hL', hkeeps.trans hkeeps'⟩

/-- Nothing more is lost in the second piece. -/
lemma trans_none (h : Accounted M t₀ ram more t b t₁ b₁) (h' : Accounted M t₀ ram ∅ t₁ b₁ t' b') :
    Accounted M t₀ ram more t b t' b' := by
  have := h.trans h'
  rwa [Finset.union_empty] at this

lemma pageRegion {S : PageSize} {start stop : ℕ} {flags : PageTableFlags} {r : Except Unit Unit}
    (hpresent : flags.getLsbD 0 = true)
    (hret : Titanium.pageRegion M S t b start stop flags = some (r, t', b')) :
    Accounted M t₀ ram (failedFrames M S t b start stop flags) t b t' b' := by
  rintro lost ⟨place, h⟩
  exact h.pageRegion hpresent hret

/-- A page that is not accessible, or that shows no usable memory. -/
lemma mapTo {S : PageSize} {page frame : ℕ} {flags : PageTableFlags}
    {r : Except MapToError Unit} (hret : M.mapTo t b S page frame flags = some (r, t', b'))
    (hdev : flags.getLsbD 0 = false ∨ Disjoint (handedOut (some (frame, S.unit))) ram) :
    Accounted M t₀ ram ∅ t b t' b' := by
  rintro lost ⟨place, h⟩
  have hM := M.mapTo_spec h.apart hret
  rw [Finset.union_empty]
  exact ⟨h.mapTo_device hM M.blocked_of_leaf hdev, Ledger.keeps_mapTo hM M.blocked_of_leaf⟩

lemma mapDevice {addr frame : ℕ} {flags : PageTableFlags}
    (hret : Titanium.mapDevice M t b addr frame flags = some (t', b'))
    (hdev : Disjoint (handedOut (some (frame, 1))) ram) : Accounted M t₀ ram ∅ t b t' b' := by
  obtain ⟨-, hret⟩ := Option.ite_none_right_eq_some.mp hret
  obtain ⟨⟨r, t₁, b₁⟩, hmap, hret⟩ := Option.bind_eq_some_iff.mp hret
  cases r with
  | error => cases hret
  | ok =>
      cases hret
      exact mapTo hmap (Or.inr hdev)

lemma heapInit (hret : Titanium.heapInit M t b = some (t', b')) :
    Accounted M t₀ ram
      (failedFrames M .size2MiB t b heapStart (heapStart + heapSize) heapFlags) t b t' b' := by
  simp only [Titanium.heapInit, Option.bind_eq_bind, Option.bind_eq_some_iff,
    virtAdd_eq_some] at hret
  obtain ⟨stop, ⟨-, rfl⟩, ⟨r, t₁, b₁⟩, hregion, hret⟩ := hret
  cases r with
  | error => cases hret
  | ok =>
      cases hret
      exact pageRegion (by decide) hregion

lemma newHpet {isMemory : Bool} {address : ℕ}
    (hret : Titanium.newHpet M t b isMemory address = some (t', b'))
    (hdev : Disjoint (handedOut (some (address, 1))) ram) : Accounted M t₀ ram ∅ t b t' b' := by
  obtain ⟨-, hret⟩ := Option.ite_none_right_eq_some.mp hret
  obtain ⟨-, hret⟩ := Option.ite_none_right_eq_some.mp hret
  exact mapDevice hret hdev

lemma mapFrames {entry : Hdint.IOApicEntry} {startAddr n : ℕ} {s s' : M.Table × BuddyBits}
    (hret : Hdint.mapFrames M entry startAddr n s = some s')
    (hdev : ∀ i < n, Disjoint (handedOut (some (entry.startFrame + i * pageSize, 1))) ram) :
    Accounted M t₀ ram ∅ s.1 s.2 s'.1 s'.2 := by
  induction n generalizing s' with
  | zero =>
      cases hret
      exact refl
  | succ n ih =>
      rw [Hdint.mapFrames, List.range_succ, List.foldlM_append] at hret
      obtain ⟨s₁, h₁, hret⟩ := Option.bind_eq_some_iff.mp hret
      obtain ⟨s₂, hframe, hnil⟩ := Option.bind_eq_some_iff.mp hret
      cases hnil
      have hrest := ih h₁ fun i hi => hdev i (hi.trans (Nat.lt_succ_self n))
      obtain ⟨addr, -, hframe⟩ := Option.bind_eq_some_iff.mp hframe
      obtain ⟨-, hframe⟩ := Option.ite_none_right_eq_some.mp hframe
      obtain ⟨⟨r, t₂, b₂⟩, hmap, hframe⟩ := Option.bind_eq_some_iff.mp hframe
      cases r with
      | error => cases hframe
      | ok =>
          cases hframe
          exact hrest.trans_none (mapTo hmap (Or.inr (hdev n (Nat.lt_succ_self n))))

lemma mapGuards {stride n page page' : ℕ}
    (hret : Titanium.mapGuards M stride n page t b = some (page', t', b')) :
    Accounted M t₀ ram ∅ t b t' b' := by
  have hguard : (pageFlagGuard ||| pageFlagStack).getLsbD 0 = false := by decide
  induction n generalizing page t b with
  | zero =>
      cases hret
      exact refl
  | succ n ih =>
      obtain ⟨⟨r, t₁, b₁⟩, hmap, hret⟩ := Option.bind_eq_some_iff.mp hret
      obtain ⟨next, -, hret⟩ := Option.bind_eq_some_iff.mp hret
      exact (mapTo hmap (Or.inl hguard)).trans_none (ih hret)

lemma stackInit {hhdm : ℕ} (hret : Titanium.stackInit M hhdm t b = some (t', b')) :
    Accounted M t₀ ram ∅ t b t' b' := by
  simp only [Titanium.stackInit, Option.bind_eq_bind, Option.bind_eq_some_iff] at hret
  obtain ⟨bottom, -, ⟨page, t₁, b₁⟩, hlarge, ⟨page', t₂, b₂⟩, hsmall, hret⟩ := hret
  cases hret
  exact (mapGuards hlarge).trans_none (mapGuards hsmall)

lemma makeSchedulerStack {hhdm : ℕ}
    (hret : Titanium.makeSchedulerStack M hhdm t b = some (t', b')) :
    Accounted M t₀ ram (failedFrames M .size4KiB t b
      (hhdm + hhdmTopOffset + schedulerStackBottomOffset + pageSize)
      (hhdm + hhdmTopOffset + schedulerStackTopOffset - pageSize) stackFlags) t b t' b' := by
  have hguard : pageFlagGuard.getLsbD 0 = false := by decide
  simp only [Titanium.makeSchedulerStack, Option.bind_eq_bind, Option.bind_eq_some_iff,
    virtAdd_eq_some, virtSub_eq_some] at hret
  obtain ⟨hhdmTop, ⟨-, rfl⟩, bottom, ⟨-, rfl⟩, top, ⟨-, rfl⟩, start, ⟨-, rfl⟩, stop, ⟨-, rfl⟩,
    ⟨r, t₁, b₁⟩, hregion, hret⟩ := hret
  cases r with
  | error => cases hret
  | ok =>
      simp only [Option.bind_eq_some_iff] at hret
      obtain ⟨⟨r₁, t₂, b₂⟩, hbottom, ⟨r₂, t₃, b₃⟩, htop, hret⟩ := hret
      cases hret
      exact ((pageRegion (by decide) hregion).trans_none (mapTo hbottom (Or.inl hguard))).trans_none
        (mapTo htop (Or.inl hguard))

lemma makeKernelStack {hhdm : ℕ} {k : BootState M} {k' : Kernel M} {small : Bool}
    {r : Except Unit ℕ} (hret : Titanium.makeKernelStack M hhdm k.toKernel small = some (r, k')) :
    Accounted M t₀ ram (k.lostBy hhdm (.makeKernelStack small)) k.table k.bits k'.table
      k'.bits := by
  rw [BootState.lostBy]
  obtain ⟨-, hnone, rfl⟩ | ⟨i, -, hslot⟩ := makeKernelStack_spec M hhdm hret
  · rw [dif_neg (Finset.not_nonempty_iff_eq_empty.mpr hnone)]
    exact refl
  · have hsome : (k.unused small).Nonempty := ⟨i, hslot.mem⟩
    have hmin : (k.unused small).min' hsome = i :=
      le_antisymm (Finset.min'_le _ _ hslot.mem) (Finset.le_min' _ _ _ hslot.least)
    obtain ⟨e, hregion⟩ := hslot.region
    rw [dif_pos hsome, hmin]
    exact pageRegion (by decide) hregion

/-- **Every function that maps memory keeps the ledger.** -/
lemma exec {hhdm : ℕ} {k k' : BootState M} {op : BootOp} (hret : k.exec hhdm op = some k')
    (hdev : op.Device ram) :
    Accounted M t₀ ram (k.lostBy hhdm op) k.table k.bits k'.table k'.bits := by
  cases op with
  | heapInit =>
      rw [BootState.exec] at hret
      obtain ⟨r, hcall, rfl⟩ := Option.map_eq_some_iff.mp hret
      exact heapInit hcall
  | initLocal frame =>
      rw [BootState.exec] at hret
      obtain ⟨r, hcall, rfl⟩ := Option.map_eq_some_iff.mp hret
      exact mapDevice hcall hdev
  | newIOApic entry =>
      rw [BootState.exec] at hret
      obtain ⟨⟨a, s⟩, hcall, rfl⟩ := Option.map_eq_some_iff.mp hret
      obtain ⟨startAddr, -, hcall⟩ := Option.bind_eq_some_iff.mp hcall
      obtain ⟨⟨t₁, b₁⟩, hmap, hcall⟩ := Option.bind_eq_some_iff.mp hcall
      obtain ⟨vaddr, -, hcall⟩ := Option.bind_eq_some_iff.mp hcall
      cases hcall
      exact mapFrames hmap hdev
  | newHpet isMemory address =>
      rw [BootState.exec] at hret
      obtain ⟨r, hcall, rfl⟩ := Option.map_eq_some_iff.mp hret
      exact newHpet hcall hdev
  | stackInit =>
      rw [BootState.exec] at hret
      obtain ⟨r, hcall, rfl⟩ := Option.map_eq_some_iff.mp hret
      exact stackInit hcall
  | makeSchedulerStack =>
      rw [BootState.exec] at hret
      obtain ⟨r, hcall, rfl⟩ := Option.map_eq_some_iff.mp hret
      rw [BootState.lostBy]
      exact makeSchedulerStack hcall
  | makeKernelStack small =>
      rw [BootState.exec] at hret
      obtain ⟨⟨r, k₁⟩, hcall, rfl⟩ := Option.map_eq_some_iff.mp hret
      exact makeKernelStack hcall

/-- **So does every sequence of calls.** -/
lemma run {hhdm : ℕ} {k k' : BootState M} {ops : List BootOp} (hret : k.run hhdm ops = some k')
    (hdev : ∀ op ∈ ops, op.Device ram) :
    Accounted M t₀ ram (k.lost hhdm ops) k.table k.bits k'.table k'.bits := by
  induction ops generalizing k with
  | nil =>
      cases hret
      exact refl
  | cons op ops ih =>
      obtain ⟨k₁, hop, hrest⟩ := Option.bind_eq_some_iff.mp hret
      rw [BootState.lost, hop]
      exact (exec hop (hdev op (List.mem_cons_self ..))).trans
        (ih hrest fun op' hop' => hdev op' (List.mem_cons_of_mem _ hop'))

end Accounted

lemma BootState.run_append {M : Mapper} {hhdm : ℕ} {k₀ k₁ k₂ : BootState M}
    {ops₁ ops₂ : List BootOp} (h₁ : k₀.run hhdm ops₁ = some k₁)
    (h₂ : k₁.run hhdm ops₂ = some k₂) : k₀.run hhdm (ops₁ ++ ops₂) = some k₂ := by
  rw [BootState.run, List.foldlM_append]
  exact Option.bind_eq_some_iff.mpr ⟨k₁, h₁, h₂⟩

/-- **Every usable frame has exactly one place**, along every sequence of calls that map memory,
when the frames of the devices are not usable memory, and a page that is mapped stays mapped as it
is.  The usable frames are those that are free at the start; a frame behind a page is one that an
access through the page reaches, and a lost frame is one whose `map_to` has failed. -/
theorem frames_have_one_place (M : Mapper) (hhdm : ℕ) (k₀ k₁ k₂ : BootState M)
    (hw : WellFormed M.toPageTables k₀.table k₀.bits) (ops₁ ops₂ : List BootOp)
    (hdev : ∀ op ∈ ops₁ ++ ops₂, op.Device (freeFrames k₀.bits))
    (h₁ : k₀.run hhdm ops₁ = some k₁) (h₂ : k₁.run hhdm ops₂ = some k₂) :
    (∀ S page x, M.leaf k₁.table S page = some x → M.leaf k₂.table S page = some x) ∧
      freeFrames k₂.bits ⊆ freeFrames k₀.bits ∧
      k₀.lost hhdm (ops₁ ++ ops₂) ⊆ freeFrames k₀.bits ∧
      ∀ f ∈ freeFrames k₀.bits, ∃! p : Place,
        p.Holds M.toPageTables k₀.table (k₀.lost hhdm (ops₁ ++ ops₂)) k₂.table k₂.bits f := by
  have hdev₁ : ∀ op ∈ ops₁, op.Device (freeFrames k₀.bits) := fun op hop =>
    hdev op (List.mem_append_left _ hop)
  have hdev₂ : ∀ op ∈ ops₂, op.Device (freeFrames k₀.bits) := fun op hop =>
    hdev op (List.mem_append_right _ hop)
  obtain ⟨hL₁, -⟩ := Accounted.run h₁ hdev₁ ∅ ⟨_, hw.ledger⟩
  obtain ⟨-, hkeeps⟩ := Accounted.run h₂ hdev₂ _ hL₁
  obtain ⟨⟨place, hL⟩, -⟩ := Accounted.run (BootState.run_append h₁ h₂) hdev ∅ ⟨_, hw.ledger⟩
  rw [Finset.empty_union] at hL
  exact ⟨hkeeps, fun f hf => (hL.free f hf).1, fun f hf => (hL.gone f hf).1,
    fun f hf => hL.existsUnique hf⟩

/-- A direct map of 4 MiB in pages of 2 MiB, and the frames 256 to 511 are free. -/
def bootStart : BootState FourLevel.fourLevel := ⟨bootKernel _ directMap highChunk, 0⟩

lemma chunks_highChunk : chunks highChunk = {⟨8, 1⟩} := by decide

lemma freeFrames_bootStart : freeFrames bootStart.bits = Finset.Ico 256 512 := by
  show freeFrames highChunk = _
  rw [freeFrames, chunks_highChunk, free, Finset.singleton_biUnion]
  rfl

lemma bootStart_wellFormed : WellFormed FourLevel.view bootStart.table bootStart.bits := by
  refine ⟨?_, ?_⟩
  · show Apart (chunks highChunk)
    rw [chunks_highChunk]
    exact apart_singleton _
  · rw [freeFrames_bootStart]
    decide

/-- The registers of the local APIC stay mapped, and the frame of a small stack inside the direct
map is lost: it is not free any more, and behind no page. -/
theorem frames_have_one_place_smallStack : ∃ k₁ k₂ : BootState FourLevel.fourLevel,
    bootStart.run hhdmBase [.stackInit, .makeSchedulerStack, .initLocal 0xfee00000] = some k₁ ∧
      k₁.run hhdmBase [.makeKernelStack true] = some k₂ ∧
      (∃ x, FourLevel.fourLevel.leaf k₂.table .size4KiB (lapicAddr / pageSize) = some x) ∧
      ∃ f ∈ bootStart.lost hhdmBase
          [.stackInit, .makeSchedulerStack, .initLocal 0xfee00000, .makeKernelStack true],
        f ∉ freeFrames k₂.bits ∧
          ∀ S page, f ∉ FourLevel.view.reached bootStart.table k₂.table S page := by
  have heval : (bootStart.run hhdmBase
      [.stackInit, .makeSchedulerStack, .initLocal 0xfee00000]).any (fun k₁ =>
        (k₁.run hhdmBase [.makeKernelStack true]).isSome &&
        (FourLevel.fourLevel.leaf k₁.table .size4KiB (lapicAddr / pageSize)).isSome &&
        decide (bootStart.lost hhdmBase [.stackInit, .makeSchedulerStack, .initLocal 0xfee00000,
          .makeKernelStack true] ≠ ∅)) = true := by
    decide +kernel
  simp only [Option.any_eq_true, Bool.and_eq_true, Option.isSome_iff_exists,
    decide_eq_true_eq] at heval
  obtain ⟨k₁, h₁, ⟨⟨k₂, h₂⟩, x, hx⟩, hlost⟩ := heval
  have hdev : ∀ op ∈ [BootOp.stackInit, .makeSchedulerStack, .initLocal 0xfee00000] ++
      [.makeKernelStack true], op.Device (freeFrames bootStart.bits) := by
    rw [freeFrames_bootStart]
    simp only [List.cons_append, List.nil_append, List.forall_mem_cons, List.not_mem_nil,
      false_implies, implies_true, and_true, true_and, BootOp.Device]
    decide
  obtain ⟨hkeeps, -, hsub, hplace⟩ := frames_have_one_place FourLevel.fourLevel hhdmBase bootStart
    k₁ k₂ bootStart_wellFormed _ _ hdev h₁ h₂
  obtain ⟨f, hf⟩ := Finset.nonempty_iff_ne_empty.mpr hlost
  obtain ⟨p, -, hp⟩ := hplace f (hsub hf)
  have hgone := hp .lost hf
  refine ⟨k₁, k₂, h₁, h₂, ⟨x, hkeeps _ _ _ hx⟩, f, hf, fun hfree => ?_, fun S page hpage => ?_⟩
  · cases hgone.trans (hp .free hfree).symm
  · cases hgone.trans (hp (.page S page) hpage).symm

end Titanium
