import Titanium.Heap

/-!
The global allocator, as its users see it.

* `GlobalAllocator`: the contract of `GlobalAlloc`.  `alloc` returns null or a
  fresh block; what the blocks hold is changed by their owners only.
* `GlobalHeap.allocator`: **the kernel heap meets the contract**.
-/

namespace Titanium

/-- **The contract of `GlobalAlloc`.**  `handed` are the blocks handed out and not given back;
`Valid` is whatever the allocator needs of its own book-keeping. -/
structure GlobalAllocator where
  State : Type
  handed : State → Finset Block
  Valid : State → Mem → Prop
  alloc : State → Mem → Layout → ℕ × State × Mem
  dealloc : State → Mem → ℕ → Layout → Option (State × Mem)
  /-- The owners may write into their blocks. -/
  valid_write : ∀ {st mem mem'}, Valid st mem →
    (∀ a, (∀ B ∈ handed st, a ∉ Block.bytes B) → mem' a = mem a) → Valid st mem'
  alloc_spec : ∀ {st mem layout ptr st' mem'}, Valid st mem → 1 ≤ layout.size →
    alloc st mem layout = (ptr, st', mem') →
    Valid st' mem' ∧ (∀ B ∈ handed st, ∀ a ∈ Block.bytes B, mem' a = mem a) ∧
      (ptr = 0 ∧ handed st' = handed st ∨
        (ptr ≠ 0 ∧ layout.align ∣ ptr ∧ ptr + layout.size < 2 ^ 64) ∧
          (∀ B ∈ handed st, Disjoint (Block.bytes (ptr, layout)) (Block.bytes B)) ∧
          handed st' = insert (ptr, layout) (handed st))
  dealloc_spec : ∀ {st mem ptr layout}, Valid st mem → (ptr, layout) ∈ handed st →
    ∃ st' mem', dealloc st mem ptr layout = some (st', mem') ∧
      handed st' = (handed st).erase (ptr, layout) ∧ Valid st' mem' ∧
      ∀ B ∈ handed st', ∀ a ∈ Block.bytes B, mem' a = mem a

/-! ### What the heap leaves alone -/

namespace HeapInv

variable {H : FallbackHeap} {s : HeapRun H} {lists : SizeClass → List ℕ}

/-- **`dealloc` leaves the other live blocks alone.** -/
lemma dealloc_frame (hI : HeapInv H s lists) {p : ℕ} {layout : Layout}
    (hlive : (p, layout) ∈ s.live)
    {heap' : FixedSizeBlockAllocator H} (hret : s.heap.dealloc p layout = some heap') {B : Block}
    (hB : B ∈ s.live.erase (p, layout)) {a : ℕ} (ha : a ∈ B.served.bytes) :
    heap'.mem a = s.heap.mem a := by
  obtain ⟨hne, hB⟩ := Finset.mem_erase.mp hB
  have hne' : B.served ≠ Block.served (p, layout) := fun heq =>
    hne (hI.owned.live_inj B hB _ hlive heq)
  have hserved := hI.owned.live_handed _ hlive
  rw [FixedSizeBlockAllocator.dealloc] at hret
  cases hk : listIndex layout with
  | none =>
      have hk' : Block.served (p, layout) = (p, layout) := by rw [Block.served, servedLayout, hk]
      rw [hk'] at hserved hne'
      simp only [hk, Option.ite_none_right_eq_some] at hret
      obtain ⟨-, hret⟩ := hret
      cases hret
      obtain ⟨hhanded, -, hkeep⟩ := H.dealloc_spec hI.valid hserved rfl
      refine hkeep _ ?_ a ha
      rw [hhanded]
      exact Finset.mem_erase.mpr ⟨hne', hI.owned.live_handed B hB⟩
  | some k =>
      have hk' : Block.served (p, layout) = (p, blockLayout k) := by
        rw [Block.served, servedLayout, hk]
      rw [hk'] at hserved hne'
      simp only [hk, Option.ite_none_right_eq_some] at hret
      obtain ⟨-, hret⟩ := hret
      cases hret
      refine Mem.write64_of_notMem fun hnode => ?_
      exact Finset.disjoint_left.mp (hI.handed_apart (hI.owned.live_handed B hB) hserved hne') ha
        (node_subset p k hnode)

end HeapInv

/-! ### The kernel heap -/

/-- The state of the kernel heap, with the blocks that are live. -/
structure GlobalHeap (H : FallbackHeap) where
  listHeads : SizeClass → ℕ
  fallback : H.State
  live : Finset Block

namespace GlobalHeap

variable {H : FallbackHeap}

/-- The heap on a memory. -/
def on (st : GlobalHeap H) (mem : Mem) : HeapRun H := ⟨⟨st.listHeads, st.fallback, mem⟩, st.live⟩

/-- The state of a heap. -/
def of (s : HeapRun H) : GlobalHeap H := ⟨s.heap.listHeads, s.heap.fallback, s.live⟩

def alloc (st : GlobalHeap H) (mem : Mem) (layout : Layout) : ℕ × GlobalHeap H × Mem :=
  let r := (st.on mem).heap.alloc layout
  (r.1, of ⟨r.2, liveAfter st.live r.1 layout⟩, r.2.mem)

def dealloc (st : GlobalHeap H) (mem : Mem) (ptr : ℕ) (layout : Layout) :
    Option (GlobalHeap H × Mem) :=
  ((st.on mem).heap.dealloc ptr layout).map fun heap =>
    (of ⟨heap, st.live.erase (ptr, layout)⟩, heap.mem)

/-- **The kernel heap meets the contract.** -/
def allocator (H : FallbackHeap) (htop : H.top < 2 ^ 64) : GlobalAllocator where
  State := GlobalHeap H
  handed := GlobalHeap.live
  Valid st mem := ∃ lists, HeapInv H (st.on mem) lists
  alloc := GlobalHeap.alloc
  dealloc := GlobalHeap.dealloc
  valid_write := by
    rintro st mem mem' ⟨lists, hI⟩ hmem
    exact ⟨lists, hI.write hmem⟩
  alloc_spec := by
    rintro st mem layout ptr st' mem' ⟨lists, hI⟩ hsize heq
    cases heq
    obtain ⟨lists', hI', -⟩ := hI.alloc hsize rfl
    refine ⟨⟨lists', hI'⟩, fun B hB a ha => ?_, ?_⟩
    · exact (hI.alloc_fresh layout hB).1 a (B.bytes_subset_served ha)
    · by_cases hnull : ((st.on mem).heap.alloc layout).1 = 0
      · exact Or.inl ⟨hnull, if_pos hnull⟩
      · have hlive : liveAfter st.live ((st.on mem).heap.alloc layout).1 layout =
            insert (((st.on mem).heap.alloc layout).1, layout) st.live := if_neg hnull
        have hnew : (((st.on mem).heap.alloc layout).1, layout) ∈
            liveAfter st.live ((st.on mem).heap.alloc layout).1 layout :=
          hlive ▸ Finset.mem_insert_self _ _
        obtain ⟨-, halign, -, -, hend⟩ := hI'.sound.live_ok _ hnew
        have hsize' := size_le_servedLayout layout
        refine Or.inr ⟨⟨hnull, halign, ?_⟩, fun B hB => ?_, hlive⟩
        · calc ((st.on mem).heap.alloc layout).1 + layout.size
              ≤ ((st.on mem).heap.alloc layout).1 + (servedLayout layout).size := by omega
            _ ≤ H.top := hend
            _ < 2 ^ 64 := htop
        · exact ((hI.alloc_fresh layout hB).2 hnull).mono
            (Block.bytes_subset_served (_, layout)) B.bytes_subset_served
  dealloc_spec := by
    rintro st mem ptr layout ⟨lists, hI⟩ hlive
    obtain ⟨heap', lists', hret, hI', -⟩ := hI.dealloc hlive
    refine ⟨of ⟨heap', st.live.erase (ptr, layout)⟩, heap'.mem, by rw [dealloc, hret]; rfl, rfl,
      ⟨lists', hI'⟩, fun B hB a ha => ?_⟩
    exact hI.dealloc_frame hlive hret hB (B.bytes_subset_served ha)

end GlobalHeap

end Titanium
