import Titanium.Lib.Memory
import Mathlib.Logic.Relation
import Mathlib.Data.Set.Pairwise.Basic

/-!
The kernel heap: `FixedSizeBlockAllocator` (`heap.rs`).

Nine intrusive lists keep the blocks that were freed, one list for each block
size; their links are stored in the freed blocks themselves.  Blocks come from
a fallback heap, the `linked_list_allocator` crate, which is a parameter:
`FallbackHeap` says what it has to do.

* `alloc`, `dealloc`: the two functions, on the heads, the fallback heap and
  the memory.
* `HeapEffect`: what a step can do to the blocks.
* `HeapInv`: the invariant of a run.  The live blocks and the blocks on the
  lists are different blocks of the fallback heap, and the links in memory
  visit exactly the blocks that the lists hold.
* `heap_sound`: along every run, with owners writing what they like into their
  blocks, the blocks handed out are aligned, large enough and apart from each
  other and from every block on a list.
-/

namespace Titanium

/-! ### Layouts and blocks -/

/-- `core::alloc::Layout`: the alignment is a power of two, and the size rounded
up to it fits in `isize`. -/
structure Layout where
  size : ℕ
  align : ℕ
  align_pow : ∃ k, align = 2 ^ k
  size_le : size + align ≤ 2 ^ 63
  deriving DecidableEq

/-- A pointer with the layout it was allocated for. -/
abbrev Block := ℕ × Layout

/-- The bytes of a block. -/
def Block.bytes (B : Block) : Finset ℕ := Finset.Ico B.1 (B.1 + B.2.size)

/-- `BLOCK_SIZES`. -/
def blockSizes : List ℕ := [8, 16, 32, 64, 128, 256, 512, 1024, 2048]

/-- The indices of `BLOCK_SIZES`. -/
abbrev SizeClass := Fin blockSizes.length

/-- `BLOCK_SIZES[index]`. -/
def blockSize (k : SizeClass) : ℕ := blockSizes.get k

lemma blockSize_eq (k : SizeClass) : blockSize k = 2 ^ (k.val + 3) := by
  revert k
  decide

/-- `Layout::from_size_align(block_size, block_align).unwrap()`. -/
def blockLayout (k : SizeClass) : Layout where
  size := blockSize k
  align := blockSize k
  align_pow := ⟨k.val + 3, blockSize_eq k⟩
  size_le := by
    revert k
    decide

lemma blockLayout_injective : Function.Injective blockLayout := by
  intro k k' h
  have hsize : blockSize k = blockSize k' := congrArg Layout.size h
  rw [blockSize_eq, blockSize_eq] at hsize
  have := Nat.pow_right_injective (le_refl 2) hsize
  exact Fin.ext (by omega)

lemma eight_le_blockSize (k : SizeClass) : 8 ≤ blockSize k := by
  revert k
  decide

/-- `list_index`. -/
def listIndex (layout : Layout) : Option SizeClass :=
  blockSizes.findFinIdx? fun s => max layout.size layout.align ≤ s

lemma le_blockSize_of_listIndex {layout : Layout} {k : SizeClass} (h : listIndex layout = some k) :
    layout.size ≤ blockSize k ∧ layout.align ≤ blockSize k := by
  have hle := (List.findFinIdx?_eq_some_iff.mp h).1
  exact max_le_iff.mp (of_decide_eq_true hle)

/-- The layout that the fallback heap is asked for. -/
def servedLayout (layout : Layout) : Layout :=
  match listIndex layout with
  | some k => blockLayout k
  | none => layout

/-- The block that an owner holds, as the fallback heap handed it out. -/
def Block.served (B : Block) : Block := (B.1, servedLayout B.2)

lemma size_le_servedLayout (layout : Layout) : layout.size ≤ (servedLayout layout).size := by
  unfold servedLayout
  split
  case h_1 k h => exact (le_blockSize_of_listIndex h).1
  case h_2 => exact le_rfl

lemma Block.bytes_subset_served (B : Block) : B.bytes ⊆ B.served.bytes :=
  Finset.Ico_subset_Ico_right (Nat.add_le_add_left (size_le_servedLayout B.2) _)

/-- An address aligned for the block is aligned for what was asked for. -/
lemma align_dvd_servedLayout (layout : Layout) : layout.align ∣ (servedLayout layout).align := by
  unfold servedLayout
  split
  case h_1 k h =>
    obtain ⟨j, hj⟩ := layout.align_pow
    have hle := (le_blockSize_of_listIndex h).2
    rw [hj, blockSize_eq] at hle
    rw [hj]
    show 2 ^ j ∣ blockSize k
    rw [blockSize_eq]
    exact Nat.pow_dvd_pow 2 ((Nat.pow_le_pow_iff_right (by norm_num)).mp hle)
  case h_2 => exact dvd_rfl

/-! ### The fallback heap -/

/-- **The contract of `linked_list_allocator::Heap`.**  `handed` are the blocks
handed out and not given back; `Valid` is whatever the heap needs of its own
book-keeping, which may lie in memory but not in a block that is handed out. -/
structure FallbackHeap where
  State : Type
  bottom : ℕ
  top : ℕ
  bottom_pos : 0 < bottom
  top_le : top ≤ 2 ^ 64
  handed : State → Finset Block
  Valid : State → Mem → Prop
  allocateFirstFit : State → Mem → Layout → Option ℕ × State × Mem
  deallocate : State → Mem → ℕ → Layout → State × Mem
  /-- The owners may write into their blocks. -/
  valid_write : ∀ {st mem mem'}, Valid st mem →
    (∀ a, (∀ B ∈ handed st, a ∉ Block.bytes B) → mem' a = mem a) → Valid st mem'
  alloc_some : ∀ {st mem layout p st' mem'}, Valid st mem →
    allocateFirstFit st mem layout = (some p, st', mem') →
    (bottom ≤ p ∧ p + layout.size ≤ top ∧ layout.align ∣ p) ∧
      (∀ B ∈ handed st, Disjoint (Block.bytes (p, layout)) (Block.bytes B)) ∧
      handed st' = insert (p, layout) (handed st) ∧ Valid st' mem' ∧
      ∀ B ∈ handed st, ∀ a ∈ Block.bytes B, mem' a = mem a
  alloc_none : ∀ {st mem layout st' mem'}, Valid st mem →
    allocateFirstFit st mem layout = (none, st', mem') →
    handed st' = handed st ∧ Valid st' mem' ∧ ∀ B ∈ handed st, ∀ a ∈ Block.bytes B, mem' a = mem a
  dealloc_spec : ∀ {st mem p layout st' mem'}, Valid st mem → (p, layout) ∈ handed st →
    deallocate st mem p layout = (st', mem') →
    handed st' = (handed st).erase (p, layout) ∧ Valid st' mem' ∧
      ∀ B ∈ handed st', ∀ a ∈ Block.bytes B, mem' a = mem a

/-! ### `alloc` and `dealloc` -/

/-- `FixedSizeBlockAllocator`, with the memory it works on; a head that is null
is `None`. -/
structure FixedSizeBlockAllocator (H : FallbackHeap) where
  listHeads : SizeClass → ℕ
  fallback : H.State
  mem : Mem

/-- `size_of::<ListNode>()`. -/
def listNodeSize : ℕ := 8

/-- `align_of::<ListNode>()`. -/
def listNodeAlign : ℕ := 8

namespace FixedSizeBlockAllocator

variable {H : FallbackHeap}

/-- `fallback_alloc`. -/
def fallbackAlloc (s : FixedSizeBlockAllocator H) (layout : Layout) :
    ℕ × FixedSizeBlockAllocator H :=
  match H.allocateFirstFit s.fallback s.mem layout with
  | (some ptr, fallback, mem) => (ptr, { s with fallback, mem })
  | (none, fallback, mem) => (0, { s with fallback, mem })

/-- `alloc`. -/
def alloc (s : FixedSizeBlockAllocator H) (layout : Layout) : ℕ × FixedSizeBlockAllocator H :=
  match listIndex layout with
  | some index =>
      let node := s.listHeads index
      if node ≠ 0 then
        -- `list_heads[index] = node.next.take()`
        (node, { s with
          listHeads := Function.update s.listHeads index (s.mem.read64 node)
          mem := s.mem.write64 node 0 })
      else s.fallbackAlloc (blockLayout index)
  | none => s.fallbackAlloc layout

/-- `dealloc`; the failed assertions and the `unwrap` are `none`. -/
def dealloc (s : FixedSizeBlockAllocator H) (ptr : ℕ) (layout : Layout) :
    Option (FixedSizeBlockAllocator H) :=
  match listIndex layout with
  | some index =>
      if listNodeSize ≤ blockSize index ∧ listNodeAlign ≤ blockSize index then
        some { s with
          listHeads := Function.update s.listHeads index ptr
          mem := s.mem.write64 ptr (s.listHeads index) }
      else none
  | none =>
      if ptr ≠ 0 then
        let (fallback, mem) := H.deallocate s.fallback s.mem ptr layout
        some { s with fallback, mem }
      else none

end FixedSizeBlockAllocator

/-! ### Runs -/

/-- The allocator and the blocks that are live. -/
structure HeapRun (H : FallbackHeap) where
  heap : FixedSizeBlockAllocator H
  live : Finset Block

/-- The blocks that are live after a call of `alloc`. -/
def liveAfter (live : Finset Block) (ptr : ℕ) (layout : Layout) : Finset Block :=
  if ptr = 0 then live else insert (ptr, layout) live

/-- One step: a call of `alloc` or `dealloc`, or an owner writing into a block. -/
inductive HeapStep (H : FallbackHeap) : HeapRun H → HeapRun H → Prop where
  | alloc {s : HeapRun H} (layout : Layout) (hsize : 1 ≤ layout.size) :
      HeapStep H s ⟨(s.heap.alloc layout).2, liveAfter s.live (s.heap.alloc layout).1 layout⟩
  | dealloc {s : HeapRun H} {heap' : FixedSizeBlockAllocator H} (ptr : ℕ) (layout : Layout)
      (hlive : (ptr, layout) ∈ s.live) (hret : s.heap.dealloc ptr layout = some heap') :
      HeapStep H s ⟨heap', s.live.erase (ptr, layout)⟩
  | write {s : HeapRun H} (B : Block) (hlive : B ∈ s.live) (mem' : Mem)
      (hmem : ∀ a ∉ B.bytes, mem' a = s.heap.mem a) :
      HeapStep H s ⟨{ s.heap with mem := mem' }, s.live⟩

/-- The state after `init`: the lists are empty and nothing is handed out. -/
structure HeapStart (H : FallbackHeap) (s : HeapRun H) : Prop where
  heads : ∀ k, s.heap.listHeads k = 0
  handed : H.handed s.heap.fallback = ∅
  valid : H.Valid s.heap.fallback s.heap.mem
  live : s.live = ∅

/-! ### Ownership -/

/-- Every block that is live, or on a list, is a block of the fallback heap, and
no two owners hold the same block.  `lists k` are the blocks on list `k`. -/
structure Owned (handed live : Finset Block) (lists : SizeClass → List ℕ) : Prop where
  nodup : ∀ k, (lists k).Nodup
  listed : ∀ k, ∀ p ∈ lists k, (p, blockLayout k) ∈ handed
  live_handed : ∀ B ∈ live, B.served ∈ handed
  live_size : ∀ B ∈ live, 1 ≤ B.2.size
  live_inj : ∀ B ∈ live, ∀ C ∈ live, B.served = C.served → B = C
  live_listed : ∀ B ∈ live, ∀ k, ∀ p ∈ lists k, B.served ≠ (p, blockLayout k)

namespace Owned

variable {handed handed' live : Finset Block} {lists : SizeClass → List ℕ}

lemma empty : Owned handed ∅ fun _ => [] := by
  refine ⟨fun _ => List.nodup_nil, ?_, ?_, ?_, ?_, ?_⟩ <;> simp

/-- The blocks of the fallback heap may change, as long as those owned stay. -/
lemma mono (h : Owned handed live lists)
    (hl : ∀ k, ∀ p ∈ lists k, (p, blockLayout k) ∈ handed') (hv : ∀ B ∈ live, B.served ∈ handed') :
    Owned handed' live lists :=
  ⟨h.nodup, hl, hv, h.live_size, h.live_inj, h.live_listed⟩

/-- A block that nobody owns becomes live. -/
lemma insert_live (h : Owned handed live lists) {B : Block} (hB : B.served ∈ handed)
    (hsize : 1 ≤ B.2.size) (hlive : ∀ C ∈ live, C.served ≠ B.served)
    (hlist : ∀ k, ∀ p ∈ lists k, B.served ≠ (p, blockLayout k)) :
    Owned handed (insert B live) lists := by
  refine ⟨h.nodup, h.listed, ?_, ?_, ?_, ?_⟩
  · exact Finset.forall_mem_insert _ _ _ |>.mpr ⟨hB, h.live_handed⟩
  · exact Finset.forall_mem_insert _ _ _ |>.mpr ⟨hsize, h.live_size⟩
  · intro C hC D hD heq
    cases Finset.mem_insert.mp hC with
    | inl hCB =>
        cases Finset.mem_insert.mp hD with
        | inl hDB => rw [hCB, hDB]
        | inr hD => exact absurd (hCB ▸ heq).symm (hlive D hD)
    | inr hC =>
        cases Finset.mem_insert.mp hD with
        | inl hDB => exact absurd (hDB ▸ heq) (hlive C hC)
        | inr hD => exact h.live_inj C hC D hD heq
  · exact Finset.forall_mem_insert _ _ _ |>.mpr ⟨hlist, h.live_listed⟩

lemma erase_live (h : Owned handed live lists) (B : Block) :
    Owned handed (live.erase B) lists :=
  ⟨h.nodup, h.listed, fun C hC => h.live_handed C (Finset.mem_of_mem_erase hC),
    fun C hC => h.live_size C (Finset.mem_of_mem_erase hC),
    fun C hC D hD => h.live_inj C (Finset.mem_of_mem_erase hC) D (Finset.mem_of_mem_erase hD),
    fun C hC => h.live_listed C (Finset.mem_of_mem_erase hC)⟩

/-- The first block leaves list `k`. -/
lemma tail (h : Owned handed live lists) {k : SizeClass} {p : ℕ} {ps : List ℕ}
    (hk : lists k = p :: ps) : Owned handed live (Function.update lists k ps) := by
  have hsub : ∀ j, ∀ q ∈ Function.update lists k ps j, q ∈ lists j := by
    intro j q hq
    by_cases hj : j = k
    · subst hj
      rw [Function.update_self] at hq
      exact hk ▸ List.mem_cons_of_mem p hq
    · rwa [Function.update_of_ne hj] at hq
  refine ⟨fun j => ?_, fun j q hq => h.listed j q (hsub j q hq), h.live_handed, h.live_size,
    h.live_inj, fun B hB j q hq => h.live_listed B hB j q (hsub j q hq)⟩
  by_cases hj : j = k
  · subst hj
    rw [Function.update_self]
    exact (List.nodup_cons.mp (hk ▸ h.nodup j)).2
  · rw [Function.update_of_ne hj]
    exact h.nodup j

/-- The block that left a list is owned by nobody. -/
lemma tail_notMem (h : Owned handed live lists) {k : SizeClass} {p : ℕ} {ps : List ℕ}
    (hk : lists k = p :: ps) (j : SizeClass) (q : ℕ) (hq : q ∈ Function.update lists k ps j) :
    (p, blockLayout k) ≠ (q, blockLayout j) := by
  intro heq
  obtain ⟨rfl, hl⟩ := Prod.mk.inj heq
  obtain rfl := blockLayout_injective hl
  rw [Function.update_self] at hq
  exact (List.nodup_cons.mp (hk ▸ h.nodup k)).1 hq

/-- A block that nobody owns goes to list `k`. -/
lemma cons (h : Owned handed live lists) {k : SizeClass} {p : ℕ}
    (hp : (p, blockLayout k) ∈ handed) (hlive : ∀ C ∈ live, C.served ≠ (p, blockLayout k))
    (hlist : p ∉ lists k) : Owned handed live (Function.update lists k (p :: lists k)) := by
  have hsub : ∀ j, ∀ q ∈ Function.update lists k (p :: lists k) j,
      q ∈ lists j ∨ (q, blockLayout j) = (p, blockLayout k) := by
    intro j q hq
    by_cases hj : j = k
    · subst hj
      rw [Function.update_self] at hq
      exact (List.mem_cons.mp hq).symm.imp_right fun hqp => by rw [hqp]
    · rw [Function.update_of_ne hj] at hq
      exact Or.inl hq
  refine ⟨fun j => ?_, fun j q hq => ?_, h.live_handed, h.live_size, h.live_inj,
    fun B hB j q hq => ?_⟩
  · by_cases hj : j = k
    · subst hj
      rw [Function.update_self]
      exact List.nodup_cons.mpr ⟨hlist, h.nodup j⟩
    · rw [Function.update_of_ne hj]
      exact h.nodup j
  · cases hsub j q hq with
    | inl hold => exact h.listed j q hold
    | inr heq => exact heq ▸ hp
  · cases hsub j q hq with
    | inl hold => exact h.live_listed B hB j q hold
    | inr heq => exact heq ▸ hlive B hB

end Owned

/-- **The invariant.** -/
structure HeapInv (H : FallbackHeap) (s : HeapRun H) (lists : SizeClass → List ℕ) : Prop where
  valid : H.Valid s.heap.fallback s.heap.mem
  handed_ok : ∀ B ∈ H.handed s.heap.fallback,
    H.bottom ≤ B.1 ∧ B.1 + B.2.size ≤ H.top ∧ B.2.align ∣ B.1
  handed_apart : (H.handed s.heap.fallback : Set Block).PairwiseDisjoint Block.bytes
  linked : ∀ k, Linked s.heap.mem (s.heap.listHeads k) (lists k)
  owned : Owned (H.handed s.heap.fallback) s.live lists

/-- **What a step can do** to the blocks: one is taken from a list or comes from the fallback heap,
one goes to a list or back to the fallback heap, or nothing changes. -/
inductive HeapEffect (H : FallbackHeap) (lists : SizeClass → List ℕ) (s s' : HeapRun H) :
    (SizeClass → List ℕ) → Prop where
  | reused {k : SizeClass} {p : ℕ} {ps : List ℕ} {layout : Layout}
      (hk : listIndex layout = some k) (hps : lists k = p :: ps) (hnew : (p, layout) ∉ s.live)
      (hlive : s'.live = insert (p, layout) s.live)
      (hhanded : H.handed s'.heap.fallback = H.handed s.heap.fallback) :
      HeapEffect H lists s s' (Function.update lists k ps)
  | obtained {p : ℕ} {layout : Layout} (hempty : ∀ k, listIndex layout = some k → lists k = [])
      (hnew : (p, layout) ∉ s.live) (hlive : s'.live = insert (p, layout) s.live)
      (hfresh : (p, servedLayout layout) ∉ H.handed s.heap.fallback)
      (hhanded : H.handed s'.heap.fallback =
        insert (p, servedLayout layout) (H.handed s.heap.fallback)) :
      HeapEffect H lists s s' lists
  | listed {k : SizeClass} {p : ℕ} {layout : Layout} (hk : listIndex layout = some k)
      (hmem : (p, layout) ∈ s.live) (hlive : s'.live = s.live.erase (p, layout))
      (hhanded : H.handed s'.heap.fallback = H.handed s.heap.fallback) :
      HeapEffect H lists s s' (Function.update lists k (p :: lists k))
  | returned {p : ℕ} {layout : Layout} (hk : listIndex layout = none)
      (hmem : (p, layout) ∈ s.live) (hlive : s'.live = s.live.erase (p, layout))
      (hhanded : H.handed s'.heap.fallback = (H.handed s.heap.fallback).erase (p, layout)) :
      HeapEffect H lists s s' lists
  | unchanged (hlive : s'.live = s.live)
      (hhanded : H.handed s'.heap.fallback = H.handed s.heap.fallback) :
      HeapEffect H lists s s' lists

/-- The first word of a block of a list lies in the block. -/
lemma node_subset (p : ℕ) (k : SizeClass) :
    Finset.Ico p (p + 8) ⊆ Block.bytes (p, blockLayout k) :=
  Finset.Ico_subset_Ico_right (Nat.add_le_add_left (eight_le_blockSize k) p)

namespace HeapInv

variable {H : FallbackHeap} {s : HeapRun H} {lists : SizeClass → List ℕ}

lemma bounds (hI : HeapInv H s lists) {B : Block} (hB : B ∈ H.handed s.heap.fallback)
    (hsize : 1 ≤ B.2.size) : B.1 ≠ 0 ∧ B.1 < 2 ^ 64 := by
  have h1 := hI.handed_ok B hB
  have h2 := H.bottom_pos
  have h3 := H.top_le
  omega

/-- Memory that changes in one handed-out block only changes no list that does
not hold the block. -/
lemma linked_of_write (hI : HeapInv H s lists) {B : Block} {mem' : Mem}
    (hB : B ∈ H.handed s.heap.fallback) (hmem : ∀ a ∉ B.bytes, mem' a = s.heap.mem a)
    {k : SizeClass} {head : ℕ} {xs : List ℕ} (hl : Linked s.heap.mem head xs)
    (hsub : ∀ p ∈ xs, p ∈ lists k) (hne : ∀ p ∈ xs, B ≠ (p, blockLayout k)) :
    Linked mem' head xs := by
  refine hl.congr fun p hp a ha => hmem a fun haB => ?_
  have hdis := hI.handed_apart hB (hI.owned.listed k p (hsub p hp)) (hne p hp)
  exact Finset.disjoint_left.mp hdis haB (node_subset p k ha)

lemma valid_of_write (hI : HeapInv H s lists) {B : Block} {mem' : Mem}
    (hB : B ∈ H.handed s.heap.fallback) (hmem : ∀ a ∉ B.bytes, mem' a = s.heap.mem a) :
    H.Valid s.heap.fallback mem' :=
  H.valid_write hI.valid fun a ha => hmem a (ha B hB)

/-- A fallback heap that leaves its blocks alone leaves the lists alone. -/
lemma linked_of_fallback (hI : HeapInv H s lists) {mem' : Mem}
    (hmem : ∀ k, ∀ p ∈ lists k, ∀ a ∈ Block.bytes (p, blockLayout k), mem' a = s.heap.mem a)
    (k : SizeClass) : Linked mem' (s.heap.listHeads k) (lists k) :=
  (hI.linked k).congr fun p hp a ha => hmem k p hp a (node_subset p k ha)

/-! ### The steps -/

/-- A node of a list lies outside the live blocks. -/
lemma node_notMem (hI : HeapInv H s lists) {B : Block} (hB : B ∈ s.live) {k : SizeClass} {p : ℕ}
    (hp : p ∈ lists k) {a : ℕ} (ha : a ∈ B.served.bytes) : a ∉ Finset.Ico p (p + 8) := by
  have hdis := hI.handed_apart (hI.owned.live_handed B hB) (hI.owned.listed k p hp)
    (hI.owned.live_listed B hB k p hp)
  exact fun hnode => Finset.disjoint_left.mp hdis ha (node_subset p k hnode)

/-- The owners write into their blocks. -/
lemma write (hI : HeapInv H s lists) {mem' : Mem}
    (hmem : ∀ a, (∀ B ∈ s.live, a ∉ B.bytes) → mem' a = s.heap.mem a) :
    HeapInv H ⟨{ s.heap with mem := mem' }, s.live⟩ lists := by
  refine ⟨H.valid_write hI.valid fun a ha => hmem a fun B hB haB => ?_, hI.handed_ok,
    hI.handed_apart, fun k => ?_, hI.owned⟩
  · exact ha _ (hI.owned.live_handed B hB) (B.bytes_subset_served haB)
  · refine (hI.linked k).congr fun p hp a ha => hmem a fun B hB haB => ?_
    exact hI.node_notMem hB hp (B.bytes_subset_served haB) ha

/-- A block is taken from its list. -/
lemma pop (hI : HeapInv H s lists) {layout : Layout} (hsize : 1 ≤ layout.size) {k : SizeClass}
    (hk : listIndex layout = some k) {node : ℕ} (hnode : s.heap.listHeads k = node)
    (hne : node ≠ 0) :
    ∃ ps, lists k = node :: ps ∧ HeapInv H ⟨{ s.heap with
      listHeads := Function.update s.heap.listHeads k (s.heap.mem.read64 node)
      mem := s.heap.mem.write64 node 0 }, insert (node, layout) s.live⟩
      (Function.update lists k ps) := by
  obtain ⟨ps, hps, htail⟩ := (hnode ▸ hI.linked k).exists_cons hne
  have hmem : node ∈ lists k := hps ▸ List.mem_cons_self ..
  have hB := hI.owned.listed k node hmem
  have hserved : Block.served (node, layout) = (node, blockLayout k) := by
    rw [Block.served, servedLayout, hk]
  have hwrite : ∀ a ∉ Block.bytes (node, blockLayout k),
      s.heap.mem.write64 node 0 a = s.heap.mem a :=
    fun a ha => Mem.write64_of_notMem fun h => ha (node_subset node k h)
  have hother := hI.owned.tail_notMem hps
  refine ⟨ps, hps, hI.valid_of_write hB hwrite, hI.handed_ok, hI.handed_apart, fun j => ?_, ?_⟩
  · show Linked (s.heap.mem.write64 node 0) (Function.update s.heap.listHeads k _ j)
      (Function.update lists k ps j)
    by_cases hj : j = k
    · subst hj
      rw [Function.update_self, Function.update_self]
      exact hI.linked_of_write hB hwrite htail (fun q hq => hps ▸ List.mem_cons_of_mem node hq)
        (fun q hq => hother j q (by rwa [Function.update_self]))
    · rw [Function.update_of_ne hj, Function.update_of_ne hj]
      exact hI.linked_of_write hB hwrite (hI.linked j) (fun q hq => hq)
        (fun q hq => hother j q (by rwa [Function.update_of_ne hj]))
  · refine (hI.owned.tail hps).insert_live (hserved ▸ hB) hsize (fun C hC => ?_) fun j q hq => ?_
    · rw [hserved]
      exact hI.owned.live_listed C hC k node hmem
    · rw [hserved]
      exact hother j q hq

/-- A block goes to its list. -/
lemma push (hI : HeapInv H s lists) {p : ℕ} {layout : Layout} (hlive : (p, layout) ∈ s.live)
    {k : SizeClass} (hk : listIndex layout = some k) :
    HeapInv H ⟨{ s.heap with
      listHeads := Function.update s.heap.listHeads k p
      mem := s.heap.mem.write64 p (s.heap.listHeads k) }, s.live.erase (p, layout)⟩
      (Function.update lists k (p :: lists k)) := by
  have hserved : Block.served (p, layout) = (p, blockLayout k) := by
    rw [Block.served, servedLayout, hk]
  have hB : (p, blockLayout k) ∈ H.handed s.heap.fallback :=
    hserved ▸ hI.owned.live_handed _ hlive
  have hne : ∀ j, ∀ q ∈ lists j, (p, blockLayout k) ≠ (q, blockLayout j) := fun j q hq =>
    hserved ▸ hI.owned.live_listed _ hlive j q hq
  have hwrite : ∀ a ∉ Block.bytes (p, blockLayout k),
      s.heap.mem.write64 p (s.heap.listHeads k) a = s.heap.mem a :=
    fun a ha => Mem.write64_of_notMem fun h => ha (node_subset p k h)
  have hhead : s.heap.listHeads k < 2 ^ 64 := by
    by_cases h0 : s.heap.listHeads k = 0
    · omega
    · obtain ⟨ps, hps, -⟩ := (hI.linked k).exists_cons h0
      exact (hI.bounds (hI.owned.listed k _ (hps ▸ List.mem_cons_self ..))
        ((by norm_num : 1 ≤ 8).trans (eight_le_blockSize k))).2
  have hp0 : p ≠ 0 := (hI.bounds hB ((by norm_num : 1 ≤ 8).trans (eight_le_blockSize k))).1
  refine ⟨hI.valid_of_write hB hwrite, hI.handed_ok, hI.handed_apart, fun j => ?_, ?_⟩
  · show Linked (s.heap.mem.write64 p _) (Function.update s.heap.listHeads k p j)
      (Function.update lists k (p :: lists k) j)
    by_cases hj : j = k
    · subst hj
      rw [Function.update_self, Function.update_self]
      refine Linked.cons hp0 ?_
      rw [Mem.read64_write64 _ hhead]
      exact hI.linked_of_write hB hwrite (hI.linked j) (fun q hq => hq) (hne j)
    · rw [Function.update_of_ne hj, Function.update_of_ne hj]
      exact hI.linked_of_write hB hwrite (hI.linked j) (fun q hq => hq) (hne j)
  · refine (hI.owned.erase_live (p, layout)).cons hB (fun C hC heq => ?_) fun hmem => ?_
    · obtain ⟨hCne, hC⟩ := Finset.mem_erase.mp hC
      exact hCne (hI.owned.live_inj C hC _ hlive (heq.trans hserved.symm))
    · exact hne k p hmem rfl

/-- A block comes from the fallback heap, or the heap is exhausted. -/
lemma fallbackAlloc (hI : HeapInv H s lists) {layout : Layout} (hsize : 1 ≤ layout.size)
    (hempty : ∀ k, listIndex layout = some k → lists k = []) {s' : HeapRun H}
    (hs' : s' = ⟨(s.heap.fallbackAlloc (servedLayout layout)).2,
      liveAfter s.live (s.heap.fallbackAlloc (servedLayout layout)).1 layout⟩) :
    HeapInv H s' lists ∧ HeapEffect H lists s s' lists := by
  subst hs'
  unfold FixedSizeBlockAllocator.fallbackAlloc
  split
  case h_1 p fallback mem heq =>
    obtain ⟨hok, hdis, hhanded, hvalid, hkeep⟩ := H.alloc_some hI.valid heq
    have hp : p ≠ 0 := by
      have := H.bottom_pos
      omega
    have hnew : ∀ B ∈ H.handed s.heap.fallback, B ≠ (p, servedLayout layout) := by
      rintro B hB rfl
      have hpos : 0 < (servedLayout layout).size :=
        Nat.lt_of_lt_of_le hsize (size_le_servedLayout layout)
      have hmem : p ∈ Block.bytes (p, servedLayout layout) :=
        Finset.mem_Ico.mpr ⟨le_rfl, Nat.lt_add_of_pos_right hpos⟩
      exact Finset.disjoint_left.mp (hdis _ hB) hmem hmem
    simp only [liveAfter, if_neg hp]
    refine ⟨⟨hvalid, ?_, ?_, hI.linked_of_fallback fun k q hq =>
      hkeep _ (hI.owned.listed k q hq), ?_⟩, .obtained hempty (fun hlive => ?_) rfl
        (fun hB => hnew _ hB rfl) hhanded⟩
    · rw [hhanded]
      exact Finset.forall_mem_insert _ _ _ |>.mpr ⟨hok, hI.handed_ok⟩
    · rw [hhanded, Finset.coe_insert]
      exact hI.handed_apart.insert fun B hB _ => hdis B hB
    · rw [hhanded]
      refine (hI.owned.mono (fun k q hq => Finset.mem_insert_of_mem (hI.owned.listed k q hq))
        fun B hB => Finset.mem_insert_of_mem (hI.owned.live_handed B hB)).insert_live
        (Finset.mem_insert_self _ _) hsize (fun C hC => ?_) fun k q hq => ?_
      · exact hnew _ (hI.owned.live_handed C hC)
      · exact (hnew _ (hI.owned.listed k q hq)).symm
    · exact hnew _ (hI.owned.live_handed _ hlive) rfl
  case h_2 fallback mem heq =>
    obtain ⟨hhanded, hvalid, hkeep⟩ := H.alloc_none hI.valid heq
    simp only [liveAfter, if_true]
    exact ⟨⟨hvalid, hhanded.symm ▸ hI.handed_ok, hhanded.symm ▸ hI.handed_apart,
      hI.linked_of_fallback fun k q hq => hkeep _ (hI.owned.listed k q hq),
      hhanded.symm ▸ hI.owned⟩, .unchanged rfl hhanded⟩

/-- A block goes back to the fallback heap. -/
lemma giveBack (hI : HeapInv H s lists) {p : ℕ} {layout : Layout} (hlive : (p, layout) ∈ s.live)
    (hk : listIndex layout = none) {fallback : H.State} {mem : Mem}
    (heq : H.deallocate s.heap.fallback s.heap.mem p layout = (fallback, mem)) :
    HeapInv H ⟨{ s.heap with fallback, mem }, s.live.erase (p, layout)⟩ lists ∧
      HeapEffect H lists s ⟨{ s.heap with fallback, mem }, s.live.erase (p, layout)⟩ lists := by
  have hserved : Block.served (p, layout) = (p, layout) := by
    rw [Block.served, servedLayout, hk]
  have hB : (p, layout) ∈ H.handed s.heap.fallback := hserved ▸ hI.owned.live_handed _ hlive
  obtain ⟨hhanded, hvalid, hkeep⟩ := H.dealloc_spec hI.valid hB heq
  have hlist : ∀ k, ∀ q ∈ lists k, (q, blockLayout k) ∈ H.handed fallback := fun k q hq =>
    hhanded ▸ Finset.mem_erase.mpr
      ⟨(hserved ▸ hI.owned.live_listed _ hlive k q hq).symm, hI.owned.listed k q hq⟩
  have hsub : H.handed fallback ⊆ H.handed s.heap.fallback :=
    hhanded ▸ Finset.erase_subset _ _
  refine ⟨⟨hvalid, fun B hB => hI.handed_ok B (hsub hB), hI.handed_apart.subset hsub,
    hI.linked_of_fallback fun k q hq => hkeep _ (hlist k q hq),
    (hI.owned.erase_live _).mono hlist fun C hC => ?_⟩, .returned hk hlive rfl hhanded⟩
  obtain ⟨hCne, hC⟩ := Finset.mem_erase.mp hC
  exact hhanded ▸ Finset.mem_erase.mpr ⟨fun heq => hCne
    (hI.owned.live_inj C hC _ hlive (heq.trans hserved.symm)), hI.owned.live_handed C hC⟩

lemma alloc (hI : HeapInv H s lists) {layout : Layout} (hsize : 1 ≤ layout.size) {s' : HeapRun H}
    (hs' : s' = ⟨(s.heap.alloc layout).2, liveAfter s.live (s.heap.alloc layout).1 layout⟩) :
    ∃ lists', HeapInv H s' lists' ∧ HeapEffect H lists s s' lists' := by
  unfold FixedSizeBlockAllocator.alloc at hs'
  cases hk : listIndex layout with
  | none =>
      rw [hk] at hs'
      refine ⟨lists, hI.fallbackAlloc hsize (fun k hk' => ?_) (by rw [servedLayout, hk]; exact hs')⟩
      cases hk.symm.trans hk'
  | some k =>
      rw [hk] at hs'
      by_cases hne : s.heap.listHeads k ≠ 0
      · simp only [if_pos hne, liveAfter, if_neg hne] at hs'
        obtain ⟨ps, hps, hI'⟩ := hI.pop hsize hk rfl hne
        subst hs'
        refine ⟨_, hI', .reused hk hps (fun hlive => ?_) rfl rfl⟩
        refine hI.owned.live_listed _ hlive k _ (hps ▸ List.mem_cons_self ..) ?_
        rw [Block.served, servedLayout, hk]
      · simp only [if_neg hne] at hs'
        refine ⟨lists, hI.fallbackAlloc hsize (fun k' hk' => ?_)
          (by rw [servedLayout, hk]; exact hs')⟩
        obtain rfl := Option.some.inj (hk.symm.trans hk')
        exact (hI.linked k).eq_nil (not_not.mp hne)

lemma dealloc (hI : HeapInv H s lists) {p : ℕ} {layout : Layout} (hlive : (p, layout) ∈ s.live) :
    ∃ heap' lists', s.heap.dealloc p layout = some heap' ∧
      HeapInv H ⟨heap', s.live.erase (p, layout)⟩ lists' ∧
      HeapEffect H lists s ⟨heap', s.live.erase (p, layout)⟩ lists' := by
  unfold FixedSizeBlockAllocator.dealloc
  cases hk : listIndex layout with
  | none =>
      have hB := hI.owned.live_handed _ hlive
      have hp : p ≠ 0 := (hI.bounds hB
        ((hI.owned.live_size _ hlive).trans (size_le_servedLayout layout))).1
      simp only [if_pos hp]
      exact ⟨_, lists, rfl, hI.giveBack hlive hk rfl⟩
  | some k =>
      have h8 := eight_le_blockSize k
      simp only [listNodeSize, listNodeAlign, h8, and_self, if_true]
      exact ⟨_, _, rfl, hI.push hlive hk, .listed hk hlive rfl rfl⟩

lemma fallbackAlloc_fresh (hI : HeapInv H s lists) (layout : Layout) {B : Block} (hB : B ∈ s.live) :
    (∀ a ∈ B.served.bytes, (s.heap.fallbackAlloc layout).2.mem a = s.heap.mem a) ∧
      ((s.heap.fallbackAlloc layout).1 ≠ 0 →
        Disjoint (Block.bytes ((s.heap.fallbackAlloc layout).1, layout)) B.served.bytes) := by
  have hserved := hI.owned.live_handed B hB
  unfold FixedSizeBlockAllocator.fallbackAlloc
  split
  case h_1 p fallback mem heq =>
    obtain ⟨-, hdis, -, -, hkeep⟩ := H.alloc_some hI.valid heq
    exact ⟨hkeep _ hserved, fun _ => hdis _ hserved⟩
  case h_2 fallback mem heq =>
    obtain ⟨-, -, hkeep⟩ := H.alloc_none hI.valid heq
    exact ⟨hkeep _ hserved, fun h => absurd rfl h⟩

/-- **`alloc` leaves the live blocks alone**, and what it returns is apart from them. -/
lemma alloc_fresh (hI : HeapInv H s lists) (layout : Layout) {B : Block} (hB : B ∈ s.live) :
    (∀ a ∈ B.served.bytes, (s.heap.alloc layout).2.mem a = s.heap.mem a) ∧
      ((s.heap.alloc layout).1 ≠ 0 →
        Disjoint (Block.bytes ((s.heap.alloc layout).1, servedLayout layout)) B.served.bytes) := by
  rw [servedLayout, FixedSizeBlockAllocator.alloc]
  cases hk : listIndex layout with
  | none => exact hI.fallbackAlloc_fresh layout hB
  | some k =>
      by_cases hne : s.heap.listHeads k ≠ 0
      · obtain ⟨ps, hps, -⟩ := (hI.linked k).exists_cons hne
        have hmem : s.heap.listHeads k ∈ lists k := hps ▸ List.mem_cons_self ..
        simp only [if_pos hne]
        refine ⟨fun a ha => Mem.write64_of_notMem (hI.node_notMem hB hmem ha), fun _ => ?_⟩
        exact hI.handed_apart (hI.owned.listed k _ hmem) (hI.owned.live_handed B hB)
          (hI.owned.live_listed B hB k _ hmem).symm
      · simp only [if_neg hne]
        exact hI.fallbackAlloc_fresh _ hB

/-- **The step lemma.** -/
lemma step (hI : HeapInv H s lists) {s' : HeapRun H} (hstep : HeapStep H s s') :
    ∃ lists', HeapInv H s' lists' ∧ HeapEffect H lists s s' lists' := by
  cases hstep with
  | alloc layout hsize => exact hI.alloc hsize rfl
  | dealloc ptr layout hlive hret =>
      obtain ⟨heap', lists', hret', hI'⟩ := hI.dealloc hlive
      rw [hret] at hret'
      cases hret'
      exact ⟨lists', hI'⟩
  | write B hlive mem' hmem =>
      exact ⟨lists, hI.write fun a ha => hmem a (ha B hlive), .unchanged rfl rfl⟩

end HeapInv

lemma HeapStart.inv {H : FallbackHeap} {s : HeapRun H} (h : HeapStart H s) :
    HeapInv H s fun _ => [] := by
  refine ⟨h.valid, ?_, ?_, fun k => ?_, ?_⟩
  · simp [h.handed]
  · simp [h.handed]
  · rw [h.heads]
    exact Linked.nil
  · rw [h.live]
    exact Owned.empty

lemma heapInv_of_run {H : FallbackHeap} {s₀ s : HeapRun H} (h₀ : HeapStart H s₀)
    (hrun : Relation.ReflTransGen (HeapStep H) s₀ s) : ∃ lists, HeapInv H s lists := by
  induction hrun with
  | refl => exact ⟨_, h₀.inv⟩
  | tail _ hstep ih =>
      obtain ⟨lists, hI⟩ := ih
      obtain ⟨lists', hI', -⟩ := hI.step hstep
      exact ⟨lists', hI'⟩

/-! ### Soundness -/

/-- **The heap is sound**: the live blocks are aligned, large enough and apart,
and the links in memory lead from the head of each list through different
blocks of its size, apart from each other, from the live blocks and from the
blocks on the other lists.  Whatever `alloc` returns next is apart from all live
blocks: no block gets a second owner. -/
structure HeapSound (H : FallbackHeap) (s : HeapRun H) : Prop where
  live_ok : ∀ B ∈ s.live, B.1 ≠ 0 ∧ B.2.align ∣ B.1 ∧ B.bytes ⊆ B.served.bytes ∧
    H.bottom ≤ B.1 ∧ B.1 + B.served.2.size ≤ H.top
  live_apart : (s.live : Set Block).PairwiseDisjoint fun B => B.served.bytes
  lists : ∃ lists : SizeClass → List ℕ,
    (∀ k, Linked s.heap.mem (s.heap.listHeads k) (lists k) ∧ (lists k).Nodup ∧
      ∀ p ∈ lists k, blockSize k ∣ p) ∧
    (∀ k k' p p', p ∈ lists k → p' ∈ lists k' → (k, p) ≠ (k', p') →
      Disjoint (Block.bytes (p, blockLayout k)) (Block.bytes (p', blockLayout k'))) ∧
    ∀ B ∈ s.live, ∀ k, ∀ p ∈ lists k, Disjoint B.served.bytes (Block.bytes (p, blockLayout k))
  alloc_fresh : ∀ layout, (s.heap.alloc layout).1 ≠ 0 → ∀ B ∈ s.live,
    Disjoint (Block.served ((s.heap.alloc layout).1, layout)).bytes B.served.bytes
  dealloc_returns : ∀ B ∈ s.live, ∃ heap', s.heap.dealloc B.1 B.2 = some heap'

lemma HeapInv.sound {H : FallbackHeap} {s : HeapRun H} {lists : SizeClass → List ℕ}
    (hI : HeapInv H s lists) : HeapSound H s := by
  have hO := hI.owned
  refine ⟨fun B hB => ?_, fun B hB C hC hne => ?_, ⟨lists, fun k => ⟨hI.linked k, hO.nodup k,
    fun p hp => (hI.handed_ok _ (hO.listed k p hp)).2.2⟩, fun k k' p p' hp hp' hne => ?_,
    fun B hB k p hp => ?_⟩, fun layout hptr B hB => (hI.alloc_fresh layout hB).2 hptr,
    fun B hB => ?_⟩
  · have hserved := hO.live_handed B hB
    obtain ⟨hbot, htop, halign⟩ := hI.handed_ok _ hserved
    exact ⟨(hI.bounds hserved ((hO.live_size B hB).trans (size_le_servedLayout B.2))).1,
      (align_dvd_servedLayout B.2).trans halign, B.bytes_subset_served, hbot, htop⟩
  · exact hI.handed_apart (hO.live_handed B hB) (hO.live_handed C hC)
      fun heq => hne (hO.live_inj B hB C hC heq)
  · refine hI.handed_apart (hO.listed k p hp) (hO.listed k' p' hp') fun heq => hne ?_
    obtain ⟨rfl, hl⟩ := Prod.mk.inj heq
    rw [blockLayout_injective hl]
  · exact hI.handed_apart (hO.live_handed B hB) (hO.listed k p hp) (hO.live_listed B hB k p hp)
  · obtain ⟨heap', lists', hret, -⟩ := hI.dealloc hB
    exact ⟨heap', hret⟩

/-- **Heap soundness over whole runs.** -/
theorem heap_sound (H : FallbackHeap) (s₀ s : HeapRun H) (h₀ : HeapStart H s₀)
    (hrun : Relation.ReflTransGen (HeapStep H) s₀ s) : HeapSound H s := by
  obtain ⟨lists, hI⟩ := heapInv_of_run h₀ hrun
  exact hI.sound

/-! ### A fallback heap -/

/-- `HEAP_START`. -/
def heapStart : ℕ := 0x100000000000

/-- `HEAP_SIZE`. -/
def heapSize : ℕ := 0x1000000

/-- A heap that never uses memory twice: everything from `next` on is free. -/
structure BumpHeap where
  next : ℕ
  handed : Finset Block
  start_le : heapStart ≤ next
  handed_le : ∀ B ∈ handed, B.1 + B.2.size ≤ next

namespace BumpHeap

/-- The first address from `next` on that is aligned. -/
def place (st : BumpHeap) (layout : Layout) : ℕ :=
  (st.next + layout.align - 1) / layout.align * layout.align

lemma next_le_place (st : BumpHeap) (layout : Layout) : st.next ≤ st.place layout := by
  have hpos : 0 < layout.align := by
    obtain ⟨k, hk⟩ := layout.align_pow
    rw [hk]
    exact Nat.two_pow_pos k
  have hdiv := Nat.div_add_mod (st.next + layout.align - 1) layout.align
  have hmod := Nat.mod_lt (st.next + layout.align - 1) hpos
  rw [place, Nat.mul_comm]
  omega

/-- The heap after handing out a block at `p`. -/
def take (st : BumpHeap) (p : ℕ) (layout : Layout) (h : st.next ≤ p) : BumpHeap where
  next := p + layout.size
  handed := insert (p, layout) st.handed
  start_le := st.start_le.trans (h.trans (Nat.le_add_right _ _))
  handed_le := Finset.forall_mem_insert _ _ _ |>.mpr ⟨le_rfl, fun B hB =>
    (st.handed_le B hB).trans (h.trans (Nat.le_add_right _ _))⟩

def allocateFirstFit (st : BumpHeap) (mem : Mem) (layout : Layout) : Option ℕ × BumpHeap × Mem :=
  if st.place layout + layout.size ≤ heapStart + heapSize then
    (some (st.place layout), st.take (st.place layout) layout (st.next_le_place layout), mem)
  else (none, st, mem)

def deallocate (st : BumpHeap) (mem : Mem) (p : ℕ) (layout : Layout) : BumpHeap × Mem :=
  ({ st with
    handed := st.handed.erase (p, layout)
    handed_le := fun B hB => st.handed_le B (Finset.mem_of_mem_erase hB) }, mem)

lemma allocateFirstFit_some {st st' : BumpHeap} {mem mem' : Mem} {layout : Layout} {p : ℕ}
    (h : st.allocateFirstFit mem layout = (some p, st', mem')) :
    p = st.place layout ∧ p + layout.size ≤ heapStart + heapSize ∧
      st'.handed = insert (p, layout) st.handed ∧ mem' = mem := by
  unfold allocateFirstFit at h
  split at h
  · cases h
    exact ⟨rfl, ‹_›, rfl, rfl⟩
  · cases h

lemma allocateFirstFit_none {st st' : BumpHeap} {mem mem' : Mem} {layout : Layout}
    (h : st.allocateFirstFit mem layout = (none, st', mem')) : st' = st ∧ mem' = mem := by
  unfold allocateFirstFit at h
  split at h
  · cases h
  · cases h
    exact ⟨rfl, rfl⟩

/-- It meets the contract. -/
def fallback : FallbackHeap where
  State := BumpHeap
  bottom := heapStart
  top := heapStart + heapSize
  bottom_pos := by norm_num [heapStart]
  top_le := by norm_num [heapStart, heapSize]
  handed := BumpHeap.handed
  Valid _ _ := True
  allocateFirstFit := allocateFirstFit
  deallocate := deallocate
  valid_write _ _ := trivial
  alloc_some {st mem layout p st' mem'} _ h := by
    obtain ⟨rfl, htop, hhanded, rfl⟩ := allocateFirstFit_some h
    have hle := st.next_le_place layout
    refine ⟨⟨st.start_le.trans hle, htop, dvd_mul_left _ _⟩, fun B hB => ?_, hhanded, trivial,
      fun _ _ _ _ => rfl⟩
    have hB := st.handed_le B hB
    rw [Finset.disjoint_left]
    intro a ha ha'
    rw [Block.bytes, Finset.mem_Ico] at ha ha'
    simp only at ha
    omega
  alloc_none {st mem layout st' mem'} _ h := by
    obtain ⟨rfl, rfl⟩ := allocateFirstFit_none h
    exact ⟨rfl, trivial, fun _ _ _ _ => rfl⟩
  dealloc_spec {st mem p layout st' mem'} _ _ h := by
    cases h
    exact ⟨rfl, trivial, fun _ _ _ _ => rfl⟩

/-- The heap after `init`. -/
def start : HeapRun fallback where
  heap := ⟨fun _ => 0, ⟨heapStart, ∅, le_rfl, by simp⟩, fun _ => 0⟩
  live := ∅

end BumpHeap

/-- 24 bytes, aligned to 8. -/
def layout24 : Layout := ⟨24, 8, ⟨3, by norm_num⟩, by norm_num⟩

/-- A block of 24 bytes is allocated and freed: it is on the list of the blocks
of 32 bytes. -/
theorem heap_sound_allocFree : ∃ s, Relation.ReflTransGen (HeapStep BumpHeap.fallback)
    BumpHeap.start s ∧ s.heap.listHeads ⟨2, by decide⟩ = heapStart ∧
      HeapSound BumpHeap.fallback s := by
  have hstart : HeapStart BumpHeap.fallback BumpHeap.start := ⟨fun _ => rfl, rfl, trivial, rfl⟩
  have hptr : (BumpHeap.start.heap.alloc layout24).1 = heapStart := by decide +kernel
  have hlive : (heapStart, layout24) ∈
      liveAfter BumpHeap.start.live (BumpHeap.start.heap.alloc layout24).1 layout24 := by
    rw [hptr, liveAfter, if_neg (by norm_num [heapStart])]
    exact Finset.mem_insert_self _ _
  have hstep := HeapStep.alloc (s := BumpHeap.start) layout24 (by norm_num [layout24])
  have hrun := (Relation.ReflTransGen.single hstep).tail
    (HeapStep.dealloc heapStart layout24 hlive rfl)
  exact ⟨_, hrun, by decide +kernel, heap_sound BumpHeap.fallback _ _ hstart hrun⟩

end Titanium
