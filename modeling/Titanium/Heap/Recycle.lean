import Titanium.Heap

/-!
The heap recycles its blocks.

A block of a size class that was obtained from the fallback heap stays with the
allocator: it is live or on the list of its class.  New blocks are obtained only
when the list is empty, that is when all the blocks of the class are live.

* `HeapHistory`: a run with the number of blocks obtained and the largest number
  of live blocks, for each class.
* `Balanced.step`: the counts are kept by everything that a step can do.
* `heap_recycles`: **blocks obtained = live blocks + blocks on the list = the most
  blocks that were ever live**, and a block just freed is the next one allocated.
-/

namespace Titanium

/-- The live blocks of class `k`. -/
def liveOf (live : Finset Block) (k : SizeClass) : Finset Block :=
  live.filter fun B => listIndex B.2 = some k

/-- The blocks of class `k` that the fallback heap has handed out in a step. -/
def newBlocks (H : FallbackHeap) (s s' : HeapRun H) (k : SizeClass) : Finset Block :=
  (H.handed s'.heap.fallback \ H.handed s.heap.fallback).filter fun B => B.2 = blockLayout k

/-- A run with its counters: the blocks obtained from the fallback heap, and the largest number of
blocks that were live at a time. -/
structure HeapHistory (H : FallbackHeap) where
  run : HeapRun H
  obtained : SizeClass → ℕ
  peak : SizeClass → ℕ

namespace HeapHistory

variable {H : FallbackHeap}

/-- Nothing has happened yet. -/
def start (s : HeapRun H) : HeapHistory H := ⟨s, fun _ => 0, fun _ => 0⟩

/-- The history after a step to `s'`. -/
def next (h : HeapHistory H) (s' : HeapRun H) : HeapHistory H where
  run := s'
  obtained k := h.obtained k + (newBlocks H h.run s' k).card
  peak k := max (h.peak k) (liveOf s'.live k).card

/-- One step, counted. -/
def Step (h h' : HeapHistory H) : Prop := ∃ s', HeapStep H h.run s' ∧ h' = h.next s'

end HeapHistory

/-! ### Classes -/

/-- A block of a class is a block of that class. -/
lemma listIndex_blockLayout (k : SizeClass) : listIndex (blockLayout k) = some k := by
  revert k
  decide

lemma servedLayout_eq_blockLayout {layout : Layout} {k : SizeClass} :
    servedLayout layout = blockLayout k ↔ listIndex layout = some k := by
  unfold servedLayout
  cases hl : listIndex layout with
  | none =>
      refine ⟨fun h => ?_, fun h => by cases h⟩
      rw [show layout = blockLayout k from h, listIndex_blockLayout] at hl
      cases hl
  | some j => exact ⟨fun h => by rw [blockLayout_injective h], fun h => by cases h; rfl⟩

/-! ### One step -/

section Counts

variable {live : Finset Block} {B : Block} {k : SizeClass}

lemma card_liveOf_insert (hnew : B ∉ live) : (liveOf (insert B live) k).card =
    (liveOf live k).card + if listIndex B.2 = some k then 1 else 0 := by
  rw [liveOf, Finset.filter_insert]
  split_ifs with h
  · exact Finset.card_insert_of_notMem fun hB => hnew (Finset.mem_of_mem_filter B hB)
  · rfl

lemma card_liveOf_erase (hmem : B ∈ live) : (liveOf live k).card =
    (liveOf (live.erase B) k).card + if listIndex B.2 = some k then 1 else 0 := by
  have h := card_liveOf_insert (k := k) (Finset.notMem_erase B live)
  rwa [Finset.insert_erase hmem] at h

end Counts

section NewBlocks

variable {H : FallbackHeap} {s s' : HeapRun H} {k : SizeClass}

lemma newBlocks_of_subset (h : H.handed s'.heap.fallback ⊆ H.handed s.heap.fallback) :
    newBlocks H s s' k = ∅ := by
  rw [newBlocks, Finset.sdiff_eq_empty_iff_subset.mpr h, Finset.filter_empty]

lemma card_newBlocks_of_insert {p : ℕ} {layout : Layout}
    (hfresh : (p, servedLayout layout) ∉ H.handed s.heap.fallback)
    (hhanded : H.handed s'.heap.fallback =
      insert (p, servedLayout layout) (H.handed s.heap.fallback)) :
    (newBlocks H s s' k).card = if listIndex layout = some k then 1 else 0 := by
  rw [newBlocks, hhanded, Finset.insert_sdiff_of_notMem _ hfresh, sdiff_self, Finset.bot_eq_empty,
    insert_empty_eq, Finset.filter_singleton]
  simp only [servedLayout_eq_blockLayout]
  split_ifs <;> rfl

end NewBlocks

/-- **The balance**: what was obtained is live or on the list, and all of it was live at some
time. -/
structure Balanced {H : FallbackHeap} (h : HeapHistory H) (lists : SizeClass → List ℕ) : Prop where
  obtained_eq : ∀ k, h.obtained k = (liveOf h.run.live k).card + (lists k).length
  obtained_eq_peak : ∀ k, h.obtained k = h.peak k

namespace Balanced

variable {H : FallbackHeap} {h : HeapHistory H} {s' : HeapRun H} {lists lists' : SizeClass → List ℕ}

/-- The balance is kept when blocks only change sides, and new ones are obtained for an empty
list only. -/
lemma of_counts (hB : Balanced h lists)
    (hcount : ∀ k, (newBlocks H h.run s' k).card + (liveOf h.run.live k).card + (lists k).length =
      (liveOf s'.live k).card + (lists' k).length)
    (hempty : ∀ k, (newBlocks H h.run s' k).card ≠ 0 → lists' k = []) :
    Balanced (h.next s') lists' := by
  refine ⟨fun k => ?_, fun k => ?_⟩
  · show h.obtained k + (newBlocks H h.run s' k).card = (liveOf s'.live k).card + (lists' k).length
    rw [hB.obtained_eq, ← hcount]
    ring
  · show h.obtained k + (newBlocks H h.run s' k).card = max (h.peak k) (liveOf s'.live k).card
    have hcount := hcount k
    have hbal := hB.obtained_eq k
    have hpeak := hB.obtained_eq_peak k
    by_cases hnew : (newBlocks H h.run s' k).card = 0
    · rw [max_eq_left (by omega)]
      omega
    -- all the blocks of the class are live now
    · have hlen : (lists' k).length = 0 := by rw [hempty k hnew, List.length_nil]
      rw [max_eq_right (by omega)]
      omega

/-- The case of a step for which the fallback heap hands out nothing. -/
lemma of_counts_of_subset (hB : Balanced h lists)
    (hsub : H.handed s'.heap.fallback ⊆ H.handed h.run.heap.fallback)
    (hcount : ∀ k, (liveOf h.run.live k).card + (lists k).length =
      (liveOf s'.live k).card + (lists' k).length) :
    Balanced (h.next s') lists' := by
  have hnone : ∀ k, (newBlocks H h.run s' k).card = 0 := fun k => by
    rw [newBlocks_of_subset hsub, Finset.card_empty]
  refine hB.of_counts (fun k => ?_) fun k hne => absurd (hnone k) hne
  rw [hnone, Nat.zero_add, hcount]

lemma length_update (k j : SizeClass) (ps : List ℕ) : (Function.update lists k ps j).length =
    if k = j then ps.length else (lists j).length := by
  by_cases hj : k = j
  · subst hj
    rw [if_pos rfl, Function.update_self]
  · rw [if_neg hj, Function.update_of_ne (Ne.symm hj)]

/-- **The step lemma.** -/
lemma step (hB : Balanced h lists) (he : HeapEffect H lists h.run s' lists') :
    Balanced (h.next s') lists' := by
  cases he with
  | @reused k p ps layout hk hps hnew hlive hhanded =>
      refine hB.of_counts_of_subset hhanded.subset fun j => ?_
      rw [hlive, card_liveOf_insert hnew, hk, length_update]
      simp only [Option.some.injEq]
      split_ifs with hj
      · rw [← hj, hps, List.length_cons]
        ring
      · ring
  | @obtained p layout hempty hnew hlive hfresh hhanded =>
      have hone := fun j => card_newBlocks_of_insert (k := j) hfresh hhanded
      refine hB.of_counts (fun j => ?_) fun j hne => hempty j ?_
      · rw [hone, hlive, card_liveOf_insert hnew]
        ring
      · rw [hone] at hne
        by_contra hj
        exact hne (if_neg hj)
  | @listed k p layout hk hmem hlive hhanded =>
      refine hB.of_counts_of_subset hhanded.subset fun j => ?_
      rw [hlive, card_liveOf_erase hmem, hk, length_update]
      simp only [Option.some.injEq]
      split_ifs with hj
      · rw [hj, List.length_cons]
        ring
      · ring
  | @returned p layout hk hmem hlive hhanded =>
      refine hB.of_counts_of_subset (hhanded.subset.trans (Finset.erase_subset _ _)) fun j => ?_
      rw [hlive, card_liveOf_erase hmem, hk, if_neg (by simp)]
      ring
  | unchanged hlive hhanded =>
      refine hB.of_counts_of_subset hhanded.subset fun j => ?_
      rw [hlive]

end Balanced

/-! ### Whole runs -/

variable {H : FallbackHeap}

lemma balanced_of_run {s₀ : HeapRun H} {h : HeapHistory H} (h₀ : HeapStart H s₀)
    (hrun : Relation.ReflTransGen HeapHistory.Step (.start s₀) h) :
    ∃ lists, HeapInv H h.run lists ∧ Balanced h lists := by
  induction hrun with
  | refl =>
      refine ⟨_, h₀.inv, fun k => ?_, fun _ => rfl⟩
      show 0 = (liveOf s₀.live k).card + 0
      rw [h₀.live, liveOf, Finset.filter_empty, Finset.card_empty]
  | tail _ hstep ih =>
      obtain ⟨lists, hI, hB⟩ := ih
      obtain ⟨s', hstep, rfl⟩ := hstep
      obtain ⟨lists', hI', he⟩ := hI.step hstep
      exact ⟨lists', hI', hB.step he⟩

/-- A block that was just freed is the first of its list. -/
lemma HeapInv.alloc_dealloc {s : HeapRun H} {lists : SizeClass → List ℕ} (hI : HeapInv H s lists)
    {k : SizeClass} {p : ℕ} {layout layout' : Layout} {heap' : FixedSizeBlockAllocator H}
    (hlive : (p, layout) ∈ s.live) (hk : listIndex layout = some k)
    (hk' : listIndex layout' = some k) (hfree : s.heap.dealloc p layout = some heap') :
    (heap'.alloc layout').1 = p := by
  have hp : p ≠ 0 := (hI.bounds (hI.owned.live_handed _ hlive)
    ((hI.owned.live_size _ hlive).trans (size_le_servedLayout layout))).1
  have h8 := eight_le_blockSize k
  rw [FixedSizeBlockAllocator.dealloc, hk] at hfree
  simp only [listNodeSize, listNodeAlign, h8, and_self, if_true] at hfree
  cases hfree
  rw [FixedSizeBlockAllocator.alloc, hk']
  simp only [Function.update_self, if_pos hp]

/-- **Size-class memory is recycled.**  At every point of every run, for every class, the blocks
obtained from the fallback heap are the live blocks and those on the list, they are as many as the
most blocks that were live at a time, and a block that is freed is the next one allocated. -/
theorem heap_recycles (H : FallbackHeap) (s₀ : HeapRun H) (h₀ : HeapStart H s₀)
    (h : HeapHistory H) (hrun : Relation.ReflTransGen HeapHistory.Step (.start s₀) h)
    (k : SizeClass) :
    (∃ list, Linked h.run.heap.mem (h.run.heap.listHeads k) list ∧
      h.obtained k = (liveOf h.run.live k).card + list.length) ∧
    h.obtained k = h.peak k ∧
    ∀ p layout layout' heap', (p, layout) ∈ h.run.live → listIndex layout = some k →
      listIndex layout' = some k → h.run.heap.dealloc p layout = some heap' →
      (heap'.alloc layout').1 = p := by
  obtain ⟨lists, hI, hB⟩ := balanced_of_run h₀ hrun
  exact ⟨⟨lists k, hI.linked k, hB.obtained_eq k⟩, hB.obtained_eq_peak k,
    fun _ _ _ _ hlive hk hk' hfree => hI.alloc_dealloc hlive hk hk' hfree⟩

/-- A block of 24 bytes has been allocated. -/
def allocated24 : HeapRun BumpHeap.fallback :=
  ⟨(BumpHeap.start.heap.alloc layout24).2,
    liveAfter BumpHeap.start.live (BumpHeap.start.heap.alloc layout24).1 layout24⟩

theorem heap_recycles_allocFree : ∃ h : HeapHistory BumpHeap.fallback,
    Relation.ReflTransGen HeapHistory.Step (.start BumpHeap.start) h ∧
      h.obtained ⟨2, by decide⟩ = 1 ∧ h.obtained ⟨2, by decide⟩ = h.peak ⟨2, by decide⟩ := by
  have hstart : HeapStart BumpHeap.fallback BumpHeap.start := ⟨fun _ => rfl, rfl, trivial, rfl⟩
  have hlive : (heapStart, layout24) ∈ allocated24.live := by decide +kernel
  have halloc : HeapStep BumpHeap.fallback BumpHeap.start allocated24 :=
    HeapStep.alloc layout24 (by norm_num [layout24])
  have hfirst : HeapHistory.Step (.start BumpHeap.start)
      ((HeapHistory.start BumpHeap.start).next allocated24) := ⟨_, halloc, rfl⟩
  have hrun := (Relation.ReflTransGen.single hfirst).tail
    ⟨_, HeapStep.dealloc heapStart layout24 hlive rfl, rfl⟩
  exact ⟨_, hrun, by decide +kernel, (heap_recycles _ _ hstart _ hrun _).2.1⟩

end Titanium
