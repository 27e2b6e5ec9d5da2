import Titanium.Heap.Global

/-!
The allocator that `uacpi` uses (`uacpi.rs`).

`uacpi_kernel_alloc` asks the global allocator for eight bytes more than its
caller wants, and keeps the size in them; `uacpi_kernel_free` reads it back to
know the layout.

* `MallocInv`: the invariant of a run.  Every live pointer points behind the
  header of a block of its own, and the header holds the size.
* `MallocInv.free`: `uacpi_kernel_free` gives back what `uacpi_kernel_alloc`
  has obtained.
* `uacpi_malloc_sound`: **the two functions form a sound `malloc`, except that
  `uacpi_kernel_alloc` never returns null**: it panics for a size that has no
  layout, and when the global allocator returns null.
-/

namespace Titanium

/-! ### `uacpi.rs` -/

/-- `size_of::<u64>()`. -/
def sizeOfU64 : ℕ := 8

/-- An addition of `usize`, which panics on overflow. -/
def usizeAdd (m n : ℕ) : Option ℕ := if m + n < 2 ^ 64 then some (m + n) else none

lemma eight_eq_two_pow : ∃ k, 8 = 2 ^ k := ⟨3, by norm_num⟩

/-- `Layout::from_size_align_unchecked(size, 8)`, which panics when there is no such layout. -/
def layoutOfSize (size : ℕ) : Option Layout :=
  if h : size + 8 ≤ 2 ^ 63 then some ⟨size, 8, eight_eq_two_pow, h⟩ else none

/-- `*ptr = v`, which panics when `ptr` is null or misaligned. -/
def writeU64 (mem : Mem) (ptr v : ℕ) : Option Mem :=
  if ptr ≠ 0 ∧ 8 ∣ ptr then some (mem.write64 ptr v) else none

/-- `*ptr`, which panics when `ptr` is null or misaligned. -/
def readU64 (mem : Mem) (ptr : ℕ) : Option ℕ :=
  if ptr ≠ 0 ∧ 8 ∣ ptr then some (mem.read64 ptr) else none

/-- The layout that both functions use for a size. -/
def mallocLayout (size : ℕ) : Option Layout := do
  layoutOfSize (← usizeAdd size sizeOfU64)

section Model

variable (A : GlobalAllocator)

/-- `uacpi_kernel_alloc`. -/
def uacpiKernelAlloc (st : A.State) (mem : Mem) (size : ℕ) : Option (ℕ × A.State × Mem) := do
  let layout ← mallocLayout size
  let (ptr, st, mem) := A.alloc st mem layout
  let mem ← writeU64 mem ptr size
  return (ptr + sizeOfU64, st, mem)

/-- `uacpi_kernel_free`. -/
def uacpiKernelFree (st : A.State) (mem : Mem) (p : ℕ) : Option (A.State × Mem) := do
  -- `byte_sub` must not leave the address space
  if p < sizeOfU64 then none
  else
    let ptr := p - sizeOfU64
    let size ← readU64 mem ptr
    let layout ← mallocLayout size
    A.dealloc st mem ptr layout

end Model

lemma mallocLayout_eq_some {size : ℕ} {layout : Layout} (h : mallocLayout size = some layout) :
    layout.size = size + 8 ∧ layout.align = 8 ∧ size + 16 ≤ 2 ^ 63 := by
  obtain ⟨n, hadd, h⟩ := Option.bind_eq_some_iff.mp h
  obtain ⟨-, heq⟩ := Option.ite_none_right_eq_some.mp hadd
  obtain ⟨hle, hlayout⟩ := Option.dite_none_right_eq_some.mp h
  obtain rfl : size + 8 = n := Option.some.inj heq
  cases hlayout
  exact ⟨rfl, rfl, by omega⟩

/-- The sizes that have a layout. -/
lemma exists_mallocLayout {size : ℕ} (h : size + 16 ≤ 2 ^ 63) :
    ∃ layout, mallocLayout size = some layout := by
  have hadd : usizeAdd size sizeOfU64 = some (size + 8) := if_pos (by rw [sizeOfU64]; omega)
  have hle : size + 8 + 8 ≤ 2 ^ 63 := by omega
  exact ⟨_, by rw [mallocLayout, hadd]; exact dif_pos hle⟩

/-! ### Runs -/

/-- The allocator, the memory, and the pointers that `uacpi_kernel_alloc` has returned and that were
not freed, with their sizes. -/
structure UacpiRun (A : GlobalAllocator) where
  state : A.State
  mem : Mem
  live : Finset (ℕ × ℕ)

/-- One step: a call, a client writing into its memory, or anything else that keeps the blocks
behind the live pointers. -/
inductive UacpiStep (A : GlobalAllocator) : UacpiRun A → UacpiRun A → Prop where
  | alloc {s : UacpiRun A} {p : ℕ} {st' : A.State} {mem' : Mem} (size : ℕ)
      (hret : uacpiKernelAlloc A s.state s.mem size = some (p, st', mem')) :
      UacpiStep A s ⟨st', mem', if p = 0 then s.live else insert (p, size) s.live⟩
  | free {s : UacpiRun A} {st' : A.State} {mem' : Mem} (x : ℕ × ℕ) (hlive : x ∈ s.live)
      (hret : uacpiKernelFree A s.state s.mem x.1 = some (st', mem')) :
      UacpiStep A s ⟨st', mem', s.live.erase x⟩
  | write {s : UacpiRun A} {mem' : Mem} (x : ℕ × ℕ) (hlive : x ∈ s.live)
      (hmem : ∀ a ∉ Finset.Ico x.1 (x.1 + x.2), mem' a = s.mem a) :
      UacpiStep A s ⟨s.state, mem', s.live⟩
  | other {s : UacpiRun A} {st' : A.State} {mem' : Mem} (hvalid : A.Valid st' mem')
      (hkeep : ∀ x ∈ s.live, ∀ layout, mallocLayout x.2 = some layout →
        (x.1 - 8, layout) ∈ A.handed s.state → (x.1 - 8, layout) ∈ A.handed st' ∧
          ∀ a ∈ Block.bytes (x.1 - 8, layout), mem' a = s.mem a) :
      UacpiStep A s ⟨st', mem', s.live⟩

/-- No pointer is live yet. -/
structure UacpiStart (A : GlobalAllocator) (s : UacpiRun A) : Prop where
  valid : A.Valid s.state s.mem
  live : s.live = ∅

/-- **The invariant**: behind every live pointer lies a block of the allocator that begins with the
size, and these blocks are apart. -/
structure MallocInv (A : GlobalAllocator) (s : UacpiRun A) : Prop where
  valid : A.Valid s.state s.mem
  aligned : ∀ x ∈ s.live, 8 < x.1 ∧ 8 ∣ x.1
  block : ∀ x ∈ s.live, ∃ layout, mallocLayout x.2 = some layout ∧
    (x.1 - 8, layout) ∈ A.handed s.state
  header : ∀ x ∈ s.live, s.mem.read64 (x.1 - 8) = x.2
  apart : (s.live : Set (ℕ × ℕ)).PairwiseDisjoint fun x => Finset.Ico (x.1 - 8) (x.1 + x.2)

/-- A call of `uacpi_kernel_alloc` has returned `p`, which points behind the header of a fresh
block; the header holds the size, and nothing was written outside the block. -/
structure Allocated (A : GlobalAllocator) (st : A.State) (mem : Mem) (size : ℕ) (layout : Layout)
    (p : ℕ) (st' : A.State) (mem' : Mem) : Prop where
  layout_eq : mallocLayout size = some layout
  aligned : 8 < p ∧ 8 ∣ p
  fresh : ∀ B ∈ A.handed st, Disjoint (Finset.Ico (p - 8) (p + size)) (Block.bytes B)
  handed : A.handed st' = insert (p - 8, layout) (A.handed st)
  header : mem'.read64 (p - 8) = size
  kept : ∀ B ∈ A.handed st, ∀ a ∈ Block.bytes B, mem' a = mem a
  written : ∀ a ∉ Finset.Ico (p - 8) (p + size), mem' a = (A.alloc st mem layout).2.2 a

/-- What a call of `uacpi_kernel_alloc` has to do: return null, with the memory as it was, or a
pointer into a fresh block. -/
def AllocSound (A : GlobalAllocator) (st : A.State) (mem : Mem) (size : ℕ) : Prop :=
  ∃ p st' mem', uacpiKernelAlloc A st mem size = some (p, st', mem') ∧
    (p = 0 ∧ mem' = mem ∨ ∃ layout, Allocated A st mem size layout p st' mem')

/-! ### The calls -/

section Calls

variable {A : GlobalAllocator} {st st' : A.State} {mem mem' : Mem} {p size : ℕ} {layout : Layout}

/-- The bytes of the block behind a pointer. -/
lemma bytes_eq (hp : 8 < p) (hl : mallocLayout size = some layout) :
    Block.bytes (p - 8, layout) = Finset.Ico (p - 8) (p + size) := by
  have hsize := (mallocLayout_eq_some hl).1
  rw [Block.bytes, show p - 8 + layout.size = p + size by omega]

/-- The header lies in the block. -/
lemma header_subset (hp : 8 < p) : Finset.Ico (p - 8) (p - 8 + 8) ⊆ Finset.Ico (p - 8) (p + size) :=
  Finset.Ico_subset_Ico_right (by omega)

lemma uacpiKernelAlloc_eq_some : uacpiKernelAlloc A st mem size = some (p, st', mem') ↔
    ∃ layout ptr mem₁, mallocLayout size = some layout ∧ A.alloc st mem layout = (ptr, st', mem₁) ∧
      (ptr ≠ 0 ∧ 8 ∣ ptr) ∧ mem₁.write64 ptr size = mem' ∧ ptr + 8 = p := by
  constructor
  · intro h
    obtain ⟨layout, hl, h⟩ := Option.bind_eq_some_iff.mp h
    obtain ⟨mem₁, hwrite, h⟩ := Option.bind_eq_some_iff.mp h
    obtain ⟨hok, hwrite⟩ := Option.ite_none_right_eq_some.mp hwrite
    cases hwrite
    cases h
    exact ⟨layout, _, _, hl, rfl, hok, rfl, rfl⟩
  · rintro ⟨layout, ptr, mem₁, hl, halloc, hok, rfl, rfl⟩
    have hwrite : writeU64 mem₁ ptr size = some (mem₁.write64 ptr size) := if_pos hok
    simp only [uacpiKernelAlloc, hl, halloc, Option.bind_eq_bind, Option.bind_some, hwrite]
    rfl

/-- **What `uacpi_kernel_alloc` does when it returns.** -/
lemma uacpiKernelAlloc_spec (hv : A.Valid st mem)
    (h : uacpiKernelAlloc A st mem size = some (p, st', mem')) :
    A.Valid st' mem' ∧ ∃ layout, Allocated A st mem size layout p st' mem' := by
  obtain ⟨layout, ptr, mem₁, hl, halloc, ⟨hptr, hdvd⟩, rfl, rfl⟩ := uacpiKernelAlloc_eq_some.mp h
  obtain ⟨hsize, halign, hle⟩ := mallocLayout_eq_some hl
  obtain ⟨hv₁, hkeep, hcases⟩ := A.alloc_spec hv (by omega) halloc
  obtain ⟨hnull, -⟩ | ⟨-, hdis, hhanded⟩ := hcases
  · exact absurd hnull hptr
  have hp : 8 < ptr + 8 := by omega
  have hbytes : Block.bytes (ptr, layout) = Finset.Ico ptr (ptr + 8 + size) := bytes_eq hp hl
  have hhead : ∀ a ∉ Finset.Ico ptr (ptr + 8 + size), mem₁.write64 ptr size a = mem₁ a :=
    fun a ha => Mem.write64_of_notMem fun hin => ha (header_subset hp hin)
  refine ⟨A.valid_write hv₁ fun a ha => hhead a ?_, layout, hl, ⟨hp, hdvd.add dvd_rfl⟩, ?_, hhanded,
    Mem.read64_write64 _ (by omega), fun B hB a ha => ?_, ?_⟩
  · rw [← hbytes]
    exact ha _ (hhanded ▸ Finset.mem_insert_self _ _)
  · intro B hB
    have := hdis B hB
    rwa [hbytes] at this
  · rw [hhead a, hkeep B hB a ha]
    rw [← hbytes]
    exact Finset.disjoint_right.mp (hdis B hB) ha
  · rw [halloc]
    exact hhead

/-- **A call is sound exactly when there is a layout, and the allocator does not return null.** -/
lemma allocSound_iff (hv : A.Valid st mem) : AllocSound A st mem size ↔
    ∃ layout, mallocLayout size = some layout ∧ (A.alloc st mem layout).1 ≠ 0 := by
  refine ⟨fun ⟨p, st', mem', hret, _⟩ => ?_, fun ⟨layout, hl, hptr⟩ => ?_⟩
  · obtain ⟨layout, ptr, mem₁, hl, halloc, ⟨hptr, -⟩, -⟩ := uacpiKernelAlloc_eq_some.mp hret
    exact ⟨layout, hl, by rwa [halloc]⟩
  · obtain ⟨hsize, halign, -⟩ := mallocLayout_eq_some hl
    have hpos : 1 ≤ layout.size := by omega
    obtain ⟨-, -, hcases⟩ := A.alloc_spec hv hpos rfl
    obtain ⟨hnull, -⟩ | ⟨⟨-, hdvd, -⟩, -⟩ := hcases
    · exact absurd hnull hptr
    rw [halign] at hdvd
    have hret := uacpiKernelAlloc_eq_some.mpr ⟨layout, _, _, hl, rfl, ⟨hptr, hdvd⟩, rfl, rfl⟩
    exact ⟨_, _, _, hret, Or.inr (uacpiKernelAlloc_spec hv hret).2⟩

end Calls

namespace MallocInv

variable {A : GlobalAllocator} {s s' : UacpiRun A}

/-- **`uacpi_kernel_free` gives back the block**, with the layout it was obtained with. -/
lemma free (hI : MallocInv A s) {x : ℕ × ℕ} (hx : x ∈ s.live) :
    ∃ layout, mallocLayout x.2 = some layout ∧ (x.1 - 8, layout) ∈ A.handed s.state ∧
      uacpiKernelFree A s.state s.mem x.1 = A.dealloc s.state s.mem (x.1 - 8) layout := by
  obtain ⟨hpos, hdvd⟩ := hI.aligned x hx
  obtain ⟨layout, hl, hmem⟩ := hI.block x hx
  refine ⟨layout, hl, hmem, ?_⟩
  have hread : readU64 s.mem (x.1 - sizeOfU64) = some x.2 := by
    rw [readU64, sizeOfU64, if_pos ⟨by omega, Nat.dvd_sub hdvd dvd_rfl⟩, hI.header x hx]
  rw [uacpiKernelFree, if_neg (by rw [sizeOfU64]; omega)]
  simp only [hread, hl, Option.bind_eq_bind, Option.bind_some]
  rfl

/-! ### The steps -/

/-- The invariant only depends on the blocks behind the live pointers, and on their headers. -/
lemma of_kept (hI : MallocInv A s) {st' : A.State} {mem' : Mem} {live' : Finset (ℕ × ℕ)}
    (hsub : live' ⊆ s.live) (hv : A.Valid st' mem')
    (hkeep : ∀ x ∈ live', ∀ layout, mallocLayout x.2 = some layout →
      (x.1 - 8, layout) ∈ A.handed s.state → (x.1 - 8, layout) ∈ A.handed st' ∧
        ∀ a ∈ Finset.Ico (x.1 - 8) x.1, mem' a = s.mem a) :
    MallocInv A ⟨st', mem', live'⟩ := by
  refine ⟨hv, fun x hx => hI.aligned x (hsub hx), fun x hx => ?_, fun x hx => ?_,
    hI.apart.subset hsub⟩
  · obtain ⟨layout, hl, hmem⟩ := hI.block x (hsub hx)
    exact ⟨layout, hl, (hkeep x hx layout hl hmem).1⟩
  · obtain ⟨layout, hl, hmem⟩ := hI.block x (hsub hx)
    have hpos := (hI.aligned x (hsub hx)).1
    have hhead := (hkeep x hx layout hl hmem).2
    rw [← hI.header x (hsub hx)]
    refine Mem.read64_congr fun a ha => hhead a ?_
    rwa [Nat.sub_add_cancel hpos.le] at ha

/-- A header lies in the block of its pointer. -/
lemma header_bytes (hI : MallocInv A s) {x : ℕ × ℕ} (hx : x ∈ s.live) {layout : Layout}
    (hl : mallocLayout x.2 = some layout) {a : ℕ} (ha : a ∈ Finset.Ico (x.1 - 8) x.1) :
    a ∈ Block.bytes (x.1 - 8, layout) := by
  rw [bytes_eq (hI.aligned x hx).1 hl]
  exact Finset.Ico_subset_Ico_right (Nat.le_add_right _ _) ha

lemma alloc (hI : MallocInv A s) {p size : ℕ} {st' : A.State} {mem' : Mem}
    (hret : uacpiKernelAlloc A s.state s.mem size = some (p, st', mem')) :
    MallocInv A ⟨st', mem', insert (p, size) s.live⟩ := by
  obtain ⟨hv, layout, hA⟩ := uacpiKernelAlloc_spec hI.valid hret
  -- the pointers that were live before
  have hold : MallocInv A ⟨st', mem', s.live⟩ := by
    refine hI.of_kept subset_rfl hv fun x hx layout' hl hmem => ⟨?_, fun a ha => ?_⟩
    · rw [hA.handed]
      exact Finset.mem_insert_of_mem hmem
    · exact hA.kept _ hmem a (hI.header_bytes hx hl ha)
  refine ⟨hv, Finset.forall_mem_insert _ _ _ |>.mpr ⟨hA.aligned, hold.aligned⟩,
    Finset.forall_mem_insert _ _ _ |>.mpr ⟨⟨layout, hA.layout_eq, ?_⟩, hold.block⟩,
    Finset.forall_mem_insert _ _ _ |>.mpr ⟨hA.header, hold.header⟩, ?_⟩
  · rw [hA.handed]
    exact Finset.mem_insert_self _ _
  · rw [Finset.coe_insert]
    refine hold.apart.insert fun x hx _ => ?_
    obtain ⟨layout', hl, hmem⟩ := hI.block x hx
    have hdis := hA.fresh _ hmem
    rwa [bytes_eq (hI.aligned x hx).1 hl] at hdis

/-- A block has one pointer and one size. -/
lemma eq_of_block (hI : MallocInv A s) {x y : ℕ × ℕ} (hx : x ∈ s.live) (hy : y ∈ s.live)
    {layout : Layout} (hl : mallocLayout x.2 = some layout) (hl' : mallocLayout y.2 = some layout)
    (heq : y.1 - 8 = x.1 - 8) : y = x := by
  have h1 := (hI.aligned x hx).1
  have h2 := (hI.aligned y hy).1
  have h3 := (mallocLayout_eq_some hl).1
  have h4 := (mallocLayout_eq_some hl').1
  exact Prod.ext (by omega) (by omega)

lemma dealloc (hI : MallocInv A s) {x : ℕ × ℕ} (hx : x ∈ s.live) {st' : A.State} {mem' : Mem}
    (hret : uacpiKernelFree A s.state s.mem x.1 = some (st', mem')) :
    MallocInv A ⟨st', mem', s.live.erase x⟩ := by
  obtain ⟨layout, hl, hmem, hfree⟩ := hI.free hx
  obtain ⟨st₁, mem₁, hdealloc, hhanded, hv, hkeep⟩ := A.dealloc_spec hI.valid hmem
  cases hret.symm.trans (hfree.trans hdealloc)
  refine hI.of_kept (Finset.erase_subset _ _) hv fun y hy layout' hl' hmem' => ?_
  obtain ⟨hne, hy⟩ := Finset.mem_erase.mp hy
  have hblock : (y.1 - 8, layout') ∈ A.handed st' := by
    rw [hhanded]
    refine Finset.mem_erase.mpr ⟨fun heq => hne ?_, hmem'⟩
    obtain ⟨hptr, rfl⟩ := Prod.mk.inj heq
    exact hI.eq_of_block hx hy hl hl' hptr
  exact ⟨hblock, fun a ha => hkeep _ hblock a (hI.header_bytes hy hl' ha)⟩

/-- An owner may write behind its pointer. -/
lemma write (hI : MallocInv A s) {x : ℕ × ℕ} (hx : x ∈ s.live) {mem' : Mem}
    (hmem : ∀ a, a ∉ Finset.Ico x.1 (x.1 + x.2) → mem' a = s.mem a) :
    MallocInv A ⟨s.state, mem', s.live⟩ := by
  obtain ⟨layout, hl, hblock⟩ := hI.block x hx
  have hpos := (hI.aligned x hx).1
  have hsub : Finset.Ico x.1 (x.1 + x.2) ⊆ Finset.Ico (x.1 - 8) (x.1 + x.2) :=
    Finset.Ico_subset_Ico_left (Nat.sub_le _ _)
  refine hI.of_kept subset_rfl (A.valid_write hI.valid fun a ha => hmem a fun hin => ?_)
    fun y hy layout' hl' hmem' => ⟨hmem', fun a ha => hmem a fun hin => ?_⟩
  · refine ha _ hblock ?_
    rw [bytes_eq hpos hl]
    exact hsub hin
  · by_cases hxy : x = y
    · subst hxy
      rw [Finset.mem_Ico] at ha hin
      omega
    · exact Finset.disjoint_left.mp (hI.apart hx hy hxy) (hsub hin)
        (Finset.Ico_subset_Ico_right (Nat.le_add_right _ _) ha)

/-- **The step lemma.** -/
lemma step (hI : MallocInv A s) (hstep : UacpiStep A s s') : MallocInv A s' := by
  cases hstep with
  | @alloc p st' mem' size hret =>
      have hp : p ≠ 0 := by
        obtain ⟨-, layout, hA⟩ := uacpiKernelAlloc_spec hI.valid hret
        have := hA.aligned.1
        omega
      rw [if_neg hp]
      exact hI.alloc hret
  | free x hx hret => exact hI.dealloc hx hret
  | write x hx hmem => exact hI.write hx hmem
  | other hv hkeep =>
      refine hI.of_kept subset_rfl hv fun x hx layout hl hmem => ?_
      obtain ⟨hblock, hbytes⟩ := hkeep x hx layout hl hmem
      exact ⟨hblock, fun a ha => hbytes a (hI.header_bytes hx hl ha)⟩

/-- **The run lemma.** -/
lemma run {s₀ : UacpiRun A} (h₀ : UacpiStart A s₀)
    (hrun : Relation.ReflTransGen (UacpiStep A) s₀ s) : MallocInv A s := by
  induction hrun with
  | refl =>
      refine ⟨h₀.valid, ?_, ?_, ?_, ?_⟩ <;> simp [h₀.live]
  | tail _ hstep ih => exact ih.step hstep

end MallocInv

/-- **`uacpi_kernel_alloc` and `uacpi_kernel_free` along every run.**  Behind every live pointer
lies a block of its own, whose header holds the size, and `uacpi_kernel_free` deallocates just that
block with the layout it was allocated with; a call of `uacpi_kernel_alloc` is sound exactly when
its size has a layout and the global allocator does not return null. -/
theorem uacpi_malloc_sound (A : GlobalAllocator) (s₀ s : UacpiRun A) (h₀ : UacpiStart A s₀)
    (hrun : Relation.ReflTransGen (UacpiStep A) s₀ s) :
    MallocInv A s ∧
      (∀ x ∈ s.live, ∃ layout r, mallocLayout x.2 = some layout ∧
        uacpiKernelFree A s.state s.mem x.1 = A.dealloc s.state s.mem (x.1 - 8) layout ∧
        A.dealloc s.state s.mem (x.1 - 8) layout = some r) ∧
      ∀ size, AllocSound A s.state s.mem size ↔ size + 16 ≤ 2 ^ 63 ∧
        ∀ layout, mallocLayout size = some layout → (A.alloc s.state s.mem layout).1 ≠ 0 := by
  have hI := MallocInv.run h₀ hrun
  refine ⟨hI, fun x hx => ?_, fun size => ?_⟩
  · obtain ⟨layout, hl, hmem, hfree⟩ := hI.free hx
    obtain ⟨st', mem', hret, -⟩ := A.dealloc_spec hI.valid hmem
    exact ⟨layout, (st', mem'), hl, hfree, hret⟩
  · rw [allocSound_iff hI.valid]
    refine ⟨fun ⟨layout, hl, hptr⟩ => ⟨(mallocLayout_eq_some hl).2.2, fun layout' hl' => ?_⟩,
      fun ⟨hle, hptr⟩ => ?_⟩
    · rwa [← Option.some.inj (hl.symm.trans hl')]
    · obtain ⟨layout, hl⟩ := exists_mallocLayout hle
      exact ⟨layout, hl, hptr layout hl⟩

/-- The kernel heap over a fallback heap that never uses memory twice. -/
def bumpAllocator : GlobalAllocator :=
  GlobalHeap.allocator BumpHeap.fallback (by norm_num [BumpHeap.fallback, heapStart, heapSize])

/-- The heap after `init`, for `uacpi`. -/
def uacpiStart : UacpiRun bumpAllocator :=
  ⟨GlobalHeap.of BumpHeap.start, BumpHeap.start.heap.mem, ∅⟩

lemma uacpiStart_start : UacpiStart bumpAllocator uacpiStart where
  valid :=
    have hstart : HeapStart BumpHeap.fallback BumpHeap.start := ⟨fun _ => rfl, rfl, trivial, rfl⟩
    ⟨_, hstart.inv⟩
  live := rfl

theorem uacpi_malloc_sound_alloc24 : ∃ s, s.live = {(heapStart + 8, 24)} ∧
    Relation.ReflTransGen (UacpiStep bumpAllocator) uacpiStart s ∧ MallocInv bumpAllocator s := by
  have heval : (uacpiKernelAlloc bumpAllocator uacpiStart.state uacpiStart.mem 24).map Prod.fst =
      some (heapStart + 8) := by decide +kernel
  obtain ⟨⟨p, st', mem'⟩, hret, rfl⟩ := Option.map_eq_some_iff.mp heval
  have hrun := Relation.ReflTransGen.single (UacpiStep.alloc 24 hret)
  exact ⟨_, rfl, hrun, (uacpi_malloc_sound _ _ _ uacpiStart_start hrun).1⟩

/-- When the heap has no block that is large enough, the call panics. -/
theorem uacpi_alloc_exhausted :
    UacpiStart bumpAllocator uacpiStart ∧
      (∀ layout, mallocLayout 0x1000000 = some layout →
        (bumpAllocator.alloc uacpiStart.state uacpiStart.mem layout).1 = 0) ∧
      uacpiKernelAlloc bumpAllocator uacpiStart.state uacpiStart.mem 0x1000000 = none ∧
      ¬ AllocSound bumpAllocator uacpiStart.state uacpiStart.mem 0x1000000 := by
  have hnone : uacpiKernelAlloc bumpAllocator uacpiStart.state uacpiStart.mem 0x1000000 = none := by
    have heval : (uacpiKernelAlloc bumpAllocator uacpiStart.state uacpiStart.mem
      0x1000000).isNone = true := by decide +kernel
    exact Option.isNone_iff_eq_none.mp heval
  have hnull : (mallocLayout 0x1000000).all (fun layout =>
      (bumpAllocator.alloc uacpiStart.state uacpiStart.mem layout).1 = 0) = true := by
    decide +kernel
  refine ⟨uacpiStart_start, fun layout hl => ?_, hnone, ?_⟩
  · rw [hl] at hnull
    exact of_decide_eq_true hnull
  · rintro ⟨p, st', mem', hret, -⟩
    cases hnone.symm.trans hret

end Titanium
