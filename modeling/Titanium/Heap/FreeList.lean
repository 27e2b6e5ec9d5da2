import Titanium.Heap.LinkedList
import Titanium.Lib.Memory

/-!
The free list in memory (`heap/ll.rs`).

A node of the list is the first sixteen bytes of its region: the size, and the address of
the next node or null.  The references of the source own what they point to; here they are
the words that the processor reads and writes.

* `addFreeRegionAt`, `findRegionAt`: the functions on memory.
* `Rep`: memory holds a list.
* `findRegionAt_refines`: the walk through memory gives what the walk along the list does.
* `free_list_refines`: **along every run, with owners that write what they like outside of
  the nodes, the allocator in memory does what the list does**.
-/

namespace Titanium

namespace Ll

/-! ### The functions on memory -/

/-- The field `size` of the node at `p`. -/
def sizeAt (mem : Mem) (p : ℕ) : ℕ := mem.read64 p

/-- The field `next` of the node at `p`. -/
def nextAt (mem : Mem) (p : ℕ) : ℕ := mem.read64 (p + 8)

/-- `next` is assigned. -/
def setNextAt (mem : Mem) (p v : ℕ) : Mem := mem.write64 (p + 8) v

/-- `add_free_region`, of the allocator whose head is at `head`. -/
def addFreeRegionAt (head addr size : ℕ) (mem : Mem) : Option Mem := do
  if (← alignUp addr alignOfListNode) = addr ∧ size ≥ sizeOfListNode then
    -- `self.head.next.take()`
    let next := nextAt mem head
    let mem := setNextAt mem head 0
    let mem := setNextAt (mem.write64 addr size) addr next
    return setNextAt mem head addr
  else none

/-- The loop of `find_region`, for so many turns. -/
def findRegionAt (size align : ℕ) : ℕ → ℕ → Mem → Option (Option (ℕ × ℕ) × Mem)
  | 0, _, _ => none
  | turns + 1, current, mem =>
      let region := nextAt mem current
      if region = 0 then some (none, mem)
      else do
        match ← allocFromRegion ⟨region, sizeAt mem region⟩ size align with
        | .ok allocStart =>
            let next := nextAt mem region
            let mem := setNextAt mem region 0
            -- `current.next.take()`
            let mem := setNextAt mem current 0
            return (some (region, allocStart), setNextAt mem current next)
        | .error _ => findRegionAt size align turns region mem

/-! ### Lists in memory -/

namespace ListNode

/-- Where the nodes lie, from the first on. -/
def nodes : ListNode → List ℕ
  | mk r none => [r.addr]
  | mk r (some n) => r.addr :: n.nodes

/-- Memory holds the node and those behind it. -/
def Rep (mem : Mem) : ListNode → Prop
  | mk r none => sizeAt mem r.addr = r.size ∧ nextAt mem r.addr = 0
  | mk r (some n) => sizeAt mem r.addr = r.size ∧ nextAt mem r.addr = n.region.addr ∧
      n.region.addr ≠ 0 ∧ Rep mem n

/-- Nodes do not overlap, and lie in the address space. -/
structure Apart (n : ListNode) : Prop where
  disjoint : n.nodes.Pairwise fun p q => p + sizeOfListNode ≤ q ∨ q + sizeOfListNode ≤ p
  fits : ∀ p ∈ n.nodes, p + sizeOfListNode ≤ 2 ^ 64

lemma nodes_eq (n : ListNode) : n.nodes = n.region.addr :: n.regions.map Region.addr := by
  induction n using ListNode.ind with
  | last r => rfl
  | link r n ih =>
      rw [nodes, ih]
      rfl

lemma mem_nodes_self (n : ListNode) : n.region.addr ∈ n.nodes := by
  rw [nodes_eq]
  exact List.mem_cons_self

end ListNode

section Memory

variable {mem mem' : Mem} {p q v : ℕ}

lemma sizeAt_congr (h : ∀ a, p ≤ a → a < p + 16 → mem' a = mem a) :
    sizeAt mem' p = sizeAt mem p := by
  refine Mem.read64_congr fun a ha => ?_
  rw [Finset.mem_Ico] at ha
  exact h a ha.1 (by omega)

lemma nextAt_congr (h : ∀ a, p ≤ a → a < p + 16 → mem' a = mem a) :
    nextAt mem' p = nextAt mem p := by
  refine Mem.read64_congr fun a ha => ?_
  rw [Finset.mem_Ico] at ha
  exact h a (by omega) (by omega)

lemma setNextAt_apply {a : ℕ} (h : a < p + 8 ∨ p + 16 ≤ a) : setNextAt mem p v a = mem a := by
  refine Mem.write64_of_notMem fun ha => ?_
  rw [Finset.mem_Ico] at ha
  omega

lemma nextAt_setNextAt (hv : v < 2 ^ 64) : nextAt (setNextAt mem p v) p = v :=
  Mem.read64_write64 mem hv

lemma sizeAt_setNextAt : sizeAt (setNextAt mem p v) p = sizeAt mem p := by
  refine Mem.read64_congr fun a ha => setNextAt_apply ?_
  rw [Finset.mem_Ico] at ha
  omega

/-- A list only depends on its nodes. -/
lemma ListNode.Rep.congr {n : ListNode} (h : n.Rep mem)
    (hmem : ∀ p ∈ n.nodes, ∀ a, p ≤ a → a < p + 16 → mem' a = mem a) : n.Rep mem' := by
  induction n using ListNode.ind with
  | last r =>
      obtain ⟨hsize, hnext⟩ := h
      have hnode := hmem r.addr (List.mem_singleton_self _)
      exact ⟨(sizeAt_congr hnode).trans hsize, (nextAt_congr hnode).trans hnext⟩
  | link r n ih =>
      obtain ⟨hsize, hnext, hne, hrest⟩ := h
      have hnode := hmem r.addr List.mem_cons_self
      exact ⟨(sizeAt_congr hnode).trans hsize, (nextAt_congr hnode).trans hnext, hne,
        ih hrest fun p hp => hmem p (List.mem_cons_of_mem _ hp)⟩

lemma ListNode.Rep.sizeAt_eq {n : ListNode} (h : n.Rep mem) :
    sizeAt mem n.region.addr = n.region.size := by
  obtain ⟨r, _ | n⟩ := n
  · exact h.1
  · exact h.1

/-- Memory is the same outside of some nodes. -/
def SameOutside (nodes : List ℕ) (mem mem' : Mem) : Prop :=
  ∀ a, (∀ p ∈ nodes, a < p ∨ p + 16 ≤ a) → mem' a = mem a

/-- The bytes of a node that does not overlap those. -/
lemma SameOutside.node {nodes : List ℕ} (h : SameOutside nodes mem mem')
    (hp : ∀ q ∈ nodes, p + sizeOfListNode ≤ q ∨ q + sizeOfListNode ≤ p) {a : ℕ} (hle : p ≤ a)
    (hlt : a < p + 16) : mem' a = mem a := by
  refine h a fun q hq => ?_
  have hapart := hp q hq
  rw [sizeOfListNode] at hapart
  omega

end Memory

/-! ### `find_region` -/

section Find

variable {mem : Mem} {size align : ℕ}

lemma ListNode.Apart.tail {r : Region} {n : ListNode} (h : (ListNode.mk r (some n)).Apart) :
    n.Apart ∧ (∀ q ∈ n.nodes, r.addr + sizeOfListNode ≤ q ∨ q + sizeOfListNode ≤ r.addr) ∧
      r.addr + sizeOfListNode ≤ 2 ^ 64 := by
  obtain ⟨hfirst, hrest⟩ := List.pairwise_cons.mp h.disjoint
  exact ⟨⟨hrest, fun p hp => h.fits p (List.mem_cons_of_mem _ hp)⟩, hfirst,
    h.fits _ List.mem_cons_self⟩

/-- **The second node is taken out of the list.** -/
lemma rep_unlink {r r₁ : Region} {next : Option ListNode}
    (h : (ListNode.mk r (some (.mk r₁ next))).Rep mem)
    (hapart : (ListNode.mk r (some (.mk r₁ next))).Apart) {mem' : Mem}
    (hmem' : setNextAt (setNextAt (setNextAt mem r₁.addr 0) r.addr 0) r.addr
      (nextAt mem r₁.addr) = mem') :
    (ListNode.mk r next).Rep mem' ∧ (ListNode.mk r₁ none).Rep mem' ∧
      SameOutside [r.addr, r₁.addr] mem mem' := by
  obtain ⟨hsize, -, -, hrep₁⟩ := h
  obtain ⟨hapart₁, hfirst, -⟩ := hapart.tail
  have hr : r.addr + sizeOfListNode ≤ r₁.addr ∨ r₁.addr + sizeOfListNode ≤ r.addr :=
    hfirst _ (ListNode.mem_nodes_self _)
  rw [sizeOfListNode] at hr
  have hsame : SameOutside [r.addr, r₁.addr] mem mem' := by
    intro a ha
    obtain ⟨hra, hr₁a⟩ := List.forall_mem_cons.mp ha
    have hr₁a := hr₁a r₁.addr (List.mem_singleton_self _)
    rw [← hmem', setNextAt_apply (by omega), setNextAt_apply (by omega),
      setNextAt_apply (by omega)]
  have hsize' : sizeAt mem' r.addr = r.size := by
    rw [← hmem', sizeAt_setNextAt, sizeAt_setNextAt, ← hsize]
    exact sizeAt_congr fun a _ _ => setNextAt_apply (by omega)
  have hsize₁ : sizeAt mem' r₁.addr = r₁.size := by
    have hkeep : sizeAt mem' r₁.addr = sizeAt (setNextAt mem r₁.addr 0) r₁.addr := by
      rw [← hmem']
      refine sizeAt_congr fun a _ _ => ?_
      rw [setNextAt_apply (by omega), setNextAt_apply (by omega)]
    rw [hkeep, sizeAt_setNextAt]
    exact hrep₁.sizeAt_eq
  have hnext₁ : nextAt mem' r₁.addr = 0 := by
    have hkeep : nextAt mem' r₁.addr = nextAt (setNextAt mem r₁.addr 0) r₁.addr := by
      rw [← hmem']
      refine nextAt_congr fun a _ _ => ?_
      rw [setNextAt_apply (by omega), setNextAt_apply (by omega)]
    rw [hkeep, nextAt_setNextAt (by norm_num)]
  refine ⟨?_, ⟨hsize₁, hnext₁⟩, hsame⟩
  cases next with
  | none =>
      have hnext : nextAt mem r₁.addr = 0 := hrep₁.2
      refine ⟨hsize', ?_⟩
      rw [← hmem', hnext, nextAt_setNextAt (by norm_num)]
  | some m =>
      obtain ⟨-, hnext, hne, hrep⟩ := hrep₁
      obtain ⟨hapart₂, hsecond, -⟩ := hapart₁.tail
      have hlt := hapart₂.fits _ m.mem_nodes_self
      rw [sizeOfListNode] at hlt
      refine ⟨hsize', ?_, hne, hrep.congr fun p hp a hle hlt => hsame.node ?_ hle hlt⟩
      · rw [← hmem', hnext, nextAt_setNextAt (by omega)]
      · refine List.forall_mem_cons.mpr ⟨(hfirst p (List.mem_cons_of_mem _ hp)).symm, ?_⟩
        exact List.forall_mem_singleton.mpr (hsecond p hp).symm

section Turn

variable {turns current : ℕ}

lemma findRegionAt_null (h : nextAt mem current = 0) :
    findRegionAt size align (turns + 1) current mem = some (none, mem) := by
  simp only [findRegionAt, h, if_true]

/-- A turn at a region that is there. -/
lemma findRegionAt_region (size align turns : ℕ) {r : Region}
    (haddr : nextAt mem current = r.addr) (hne : r.addr ≠ 0) (hsize : sizeAt mem r.addr = r.size) :
    (allocFromRegion r size align = none →
      findRegionAt size align (turns + 1) current mem = none) ∧
    (∀ start, allocFromRegion r size align = some (.ok start) →
      findRegionAt size align (turns + 1) current mem = some (some (r.addr, start),
        setNextAt (setNextAt (setNextAt mem r.addr 0) current 0) current (nextAt mem r.addr))) ∧
    ∀ u, allocFromRegion r size align = some (.error u) →
      findRegionAt size align (turns + 1) current mem =
        findRegionAt size align turns r.addr mem := by
  refine ⟨fun h => ?_, fun start h => ?_, fun u h => ?_⟩
  · simp only [findRegionAt, haddr, hsize, if_neg hne, h, Option.bind_eq_bind, Option.bind_none]
  · simp only [findRegionAt, haddr, hsize, if_neg hne, h, Option.bind_eq_bind, Option.bind_some,
      Option.pure_def]
  · simp only [findRegionAt, haddr, hsize, if_neg hne, h, Option.bind_eq_bind, Option.bind_some]

end Turn

/-- **The walk through memory gives what the walk along the list does.** -/
lemma findRegionAt_refines (size align : ℕ) {n : ListNode} {turns : ℕ} (h : n.Rep mem)
    (hapart : n.Apart) (hturns : n.regions.length < turns) :
    (n.findRegion size align = none → findRegionAt size align turns n.region.addr mem = none) ∧
    ∀ ret n', n.findRegion size align = some (ret, n') →
      ∃ mem', findRegionAt size align turns n.region.addr mem =
          some (ret.map fun x => (x.1.region.addr, x.2), mem') ∧
        n'.Rep mem' ∧ SameOutside n.nodes mem mem' := by
  induction n using ListNode.ind generalizing turns with
  | last r =>
      cases turns with
      | zero => exact absurd hturns (Nat.not_lt_zero _)
      | succ turns =>
          refine ⟨nofun, fun ret n' hfind => ?_⟩
          cases hfind
          exact ⟨mem, findRegionAt_null h.2, h, fun _ _ => rfl⟩
  | link r n ih =>
      cases turns with
      | zero => exact absurd hturns (Nat.not_lt_zero _)
      | succ turns =>
          obtain ⟨hapart₁, hfirst, -⟩ := hapart.tail
          obtain ⟨hsize, hnext, hne, hrep⟩ := id h
          obtain ⟨hpanic, hok, herror⟩ :=
            findRegionAt_region size align turns hnext hne hrep.sizeAt_eq
          cases halloc : allocFromRegion n.region size align with
          | none =>
              refine ⟨fun _ => hpanic halloc, fun ret n' hfind => ?_⟩
              simp [ListNode.findRegion, halloc] at hfind
          | some outcome =>
              cases outcome with
              | ok start =>
                  obtain ⟨r₁, next⟩ := n
                  obtain ⟨hrep', -, hsame⟩ := rep_unlink h hapart rfl
                  refine ⟨fun hfind => ?_, fun ret n' hfind => ?_⟩
                  · simp [ListNode.findRegion, halloc] at hfind
                  · simp only [ListNode.findRegion, halloc, ListNode.takeNext,
                      Option.bind_eq_bind, Option.bind_some, Option.pure_def] at hfind
                    cases hfind
                    refine ⟨_, hok start halloc, hrep', fun a ha => hsame a ?_⟩
                    intro p hp
                    refine ha p ?_
                    rcases List.mem_pair.mp hp with rfl | rfl
                    · exact List.mem_cons_self
                    · exact List.mem_cons_of_mem _ (ListNode.mem_nodes_self _)
              | error u =>
                  have hlen : n.regions.length < turns := by
                    rw [ListNode.regions, List.length_cons] at hturns
                    omega
                  obtain ⟨hnone, hsome⟩ := ih hrep hapart₁ hlen
                  refine ⟨fun hfind => ?_, fun ret n' hfind => ?_⟩
                  · refine (herror u halloc).trans (hnone ?_)
                    cases hrest : n.findRegion size align with
                    | none => rfl
                    | some x => simp [ListNode.findRegion, halloc, hrest] at hfind
                  · simp only [ListNode.findRegion, halloc, Option.bind_eq_bind, Option.bind_some,
                      Option.pure_def] at hfind
                    obtain ⟨⟨ret', n''⟩, hrest, hfind⟩ := Option.bind_eq_some_iff.mp hfind
                    cases hfind
                    obtain ⟨mem', hfindAt, hrep', hsame⟩ := hsome _ n'' hrest
                    have hregion : n''.region = n.region := (findRegion_spec hrest).1
                    have hnode := fun a hle hlt => hsame.node (p := r.addr) hfirst (a := a) hle hlt
                    refine ⟨mem', (herror u halloc).trans hfindAt, ⟨?_, ?_, ?_, hrep'⟩, ?_⟩
                    · rw [sizeAt_congr hnode, hsize]
                    · rw [nextAt_congr hnode, hnext, hregion]
                    · rwa [hregion]
                    · exact fun a ha => hsame a fun p hp => ha p (List.mem_cons_of_mem _ hp)

/-- What is left of the list is still apart. -/
lemma ListNode.Apart.findRegion {n n' : ListNode} {ret : Option (ListNode × ℕ)} (h : n.Apart)
    (hfind : n.findRegion size align = some (ret, n')) :
    n'.Apart ∧ n'.region = n.region ∧ n'.regions.length ≤ n.regions.length := by
  obtain ⟨hregion, hcases⟩ := findRegion_spec hfind
  have hsub : n'.regions.Sublist n.regions := by
    obtain ⟨-, rfl, -⟩ | ⟨node, start, before, after, -, -, -, hbefore, -, hafter⟩ := hcases
    · exact List.Sublist.refl _
    · rw [hbefore, hafter]
      exact (List.Sublist.refl before).append (List.sublist_cons_self _ after)
  have hnodes : n'.nodes.Sublist n.nodes := by
    rw [nodes_eq, nodes_eq, hregion]
    exact (hsub.map _).cons_cons _
  exact ⟨⟨h.disjoint.sublist hnodes, fun p hp => h.fits p (hnodes.subset hp)⟩, hregion,
    hsub.length_le⟩

end Find

/-! ### `add_free_region` -/

/-- The node of the region is in the address space and overlaps no node of the list. -/
structure Fresh (a : LinkedListAllocator) (addr size : ℕ) : Prop where
  addr_ne : addr ≠ 0
  fits : addr + sizeOfListNode ≤ 2 ^ 64
  size_lt : size < 2 ^ 64
  apart : ∀ q ∈ a.head.nodes, addr + sizeOfListNode ≤ q ∨ q + sizeOfListNode ≤ addr

lemma Fresh.apart_link {r : Region} {next : Option ListNode} {addr size : ℕ}
    (h : Fresh ⟨.mk r next⟩ addr size) (hapart : (ListNode.mk r next).Apart) :
    (ListNode.mk r (some (.mk ⟨addr, size⟩ next))).Apart := by
  have hnodes : (ListNode.mk r (some (.mk ⟨addr, size⟩ next))).nodes =
      r.addr :: addr :: (ListNode.mk r next).nodes.tail := by
    cases next <;> rfl
  have hcons : (ListNode.mk r next).nodes = r.addr :: (ListNode.mk r next).nodes.tail := by
    cases next <;> rfl
  have hfresh := h.apart
  have hdisjoint := hapart.disjoint
  have hfits := hapart.fits
  rw [hcons] at hfresh hdisjoint hfits
  obtain ⟨hr, hrest⟩ := List.forall_mem_cons.mp hfresh
  obtain ⟨hfirst, htail⟩ := List.pairwise_cons.mp hdisjoint
  obtain ⟨hrfits, htfits⟩ := List.forall_mem_cons.mp hfits
  constructor
  · rw [hnodes, List.pairwise_cons, List.pairwise_cons]
    exact ⟨List.forall_mem_cons.mpr ⟨hr.symm, hfirst⟩, hrest, htail⟩
  · rw [hnodes]
    exact List.forall_mem_cons.mpr ⟨hrfits, List.forall_mem_cons.mpr ⟨h.fits, htfits⟩⟩

/-- **A node is put behind the head.** -/
lemma rep_link {mem mem' : Mem} {r : Region} {next : Option ListNode} {addr size : ℕ}
    (h : (ListNode.mk r next).Rep mem) (hapart : (ListNode.mk r next).Apart)
    (hfresh : Fresh ⟨.mk r next⟩ addr size)
    (hmem' : setNextAt (setNextAt ((setNextAt mem r.addr 0).write64 addr size) addr
      (nextAt mem r.addr)) r.addr addr = mem') :
    (ListNode.mk r (some (.mk ⟨addr, size⟩ next))).Rep mem' := by
  have hr : addr + sizeOfListNode ≤ r.addr ∨ r.addr + sizeOfListNode ≤ addr :=
    hfresh.apart _ (ListNode.mem_nodes_self _)
  have hfits := hfresh.fits
  rw [sizeOfListNode] at hr hfits
  have hwrite : ∀ (mem : Mem) a, a < addr ∨ addr + 8 ≤ a → mem.write64 addr size a = mem a := by
    intro mem a ha
    refine Mem.write64_of_notMem fun hin => ?_
    rw [Finset.mem_Ico] at hin
    omega
  have hsame : SameOutside [r.addr, addr] mem mem' := by
    intro a ha
    obtain ⟨hra, haddr⟩ := List.forall_mem_cons.mp ha
    have haddr := haddr addr (List.mem_singleton_self _)
    rw [← hmem', setNextAt_apply (by omega), setNextAt_apply (by omega), hwrite _ _ (by omega),
      setNextAt_apply (by omega)]
  have hsize : sizeAt mem' r.addr = r.size := by
    have hkeep : sizeAt mem' r.addr = sizeAt (setNextAt mem r.addr 0) r.addr := by
      rw [← hmem', sizeAt_setNextAt]
      refine sizeAt_congr fun a _ _ => ?_
      rw [setNextAt_apply (by omega), hwrite _ _ (by omega)]
    rw [hkeep, sizeAt_setNextAt]
    exact h.sizeAt_eq
  have hnext : nextAt mem' r.addr = addr := by
    rw [← hmem', nextAt_setNextAt (by omega)]
  have hnew : sizeAt mem' addr = size ∧ (nextAt mem r.addr < 2 ^ 64 →
      nextAt mem' addr = nextAt mem r.addr) := by
    have hkeep : ∀ a, addr ≤ a → a < addr + 16 → mem' a =
        setNextAt ((setNextAt mem r.addr 0).write64 addr size) addr (nextAt mem r.addr) a := by
      intro a _ _
      rw [← hmem', setNextAt_apply (by omega)]
    refine ⟨?_, fun hlt => ?_⟩
    · rw [sizeAt_congr hkeep, sizeAt_setNextAt]
      exact Mem.read64_write64 _ hfresh.size_lt
    · rw [nextAt_congr hkeep, nextAt_setNextAt hlt]
  refine ⟨hsize, hnext, hfresh.addr_ne, ?_⟩
  cases next with
  | none =>
      have hnull : nextAt mem r.addr = 0 := h.2
      rw [hnull] at hnew
      exact ⟨hnew.1, hnew.2 (by norm_num)⟩
  | some m =>
      obtain ⟨-, hnext', hne, hrep⟩ := h
      obtain ⟨hapart₁, hfirst, -⟩ := hapart.tail
      have hlt := hapart₁.fits _ m.mem_nodes_self
      rw [sizeOfListNode] at hlt
      rw [hnext'] at hnew
      refine ⟨hnew.1, hnew.2 (by omega), hne,
        hrep.congr fun p hp a hle hlt => hsame.node ?_ hle hlt⟩
      refine List.forall_mem_cons.mpr ⟨(hfirst p hp).symm, ?_⟩
      exact List.forall_mem_singleton.mpr
        (hfresh.apart p (List.mem_cons_of_mem _ hp)).symm

/-! ### Runs -/

/-- The allocator in memory holds the list. -/
structure Holds (head : ℕ) (a : LinkedListAllocator) (mem : Mem) : Prop where
  addr : a.head.region.addr = head
  rep : a.head.Rep mem
  apart : a.head.Apart

/-- What can happen. -/
inductive Op where
  | add (addr size : ℕ)
  | find (size align : ℕ)
  /-- Owners of other memory write to it. -/
  | own (f : Mem → Mem)

/-- A step of the list, with the region and the start that were found. -/
def stepList (a : LinkedListAllocator) : Op → Option (Option (ℕ × ℕ) × LinkedListAllocator)
  | .add addr size => (a.addFreeRegion addr size).map fun a' => (none, a')
  | .find size align =>
      (a.findRegion size align).map fun x => (x.1.map fun y => (y.1.region.addr, y.2), x.2)
  | .own _ => some (none, a)

/-- A step in memory; a walk makes so many turns at most. -/
def stepMem (head turns : ℕ) (mem : Mem) : Op → Option (Option (ℕ × ℕ) × Mem)
  | .add addr size => (addFreeRegionAt head addr size mem).map fun mem' => (none, mem')
  | .find size align => findRegionAt size align turns head mem
  | .own f => some (none, f mem)

/-- A run, with what the steps return. -/
def runOps {σ : Type} (step : σ → Op → Option (Option (ℕ × ℕ) × σ)) :
    σ → List Op → Option (List (Option (ℕ × ℕ)) × σ)
  | s, [] => some ([], s)
  | s, op :: ops => do
      let (r, s) ← step s op
      let (rs, s) ← runOps step s ops
      return (r :: rs, s)

/-- The callers keep to the rules: a region that is added is not in the list, and owners leave the
nodes of the list alone. -/
def Op.Allowed (a : LinkedListAllocator) : Op → Prop
  | .add addr size => Fresh a addr size
  | .find _ _ => True
  | .own f => ∀ mem, ∀ p ∈ a.head.nodes, ∀ x, p ≤ x → x < p + 16 → f mem x = mem x

def Legal : LinkedListAllocator → List Op → Prop
  | _, [] => True
  | a, op :: ops => op.Allowed a ∧ ∀ r a', stepList a op = some (r, a') → Legal a' ops

variable {head turns : ℕ} {a : LinkedListAllocator} {mem : Mem}

lemma Holds.add {addr size : ℕ} (h : Holds head a mem) (hfresh : Fresh a addr size) :
    (a.addFreeRegion addr size = none → addFreeRegionAt head addr size mem = none) ∧
    ∀ a', a.addFreeRegion addr size = some a' →
      ∃ mem', addFreeRegionAt head addr size mem = some mem' ∧ Holds head a' mem' := by
  obtain ⟨⟨r, next⟩⟩ := a
  obtain ⟨rfl, hrep, hapart⟩ := h
  simp only [LinkedListAllocator.addFreeRegion, addFreeRegionAt, ListNode.takeNext]
  cases alignUp addr alignOfListNode with
  | none => exact ⟨fun _ => rfl, nofun⟩
  | some aligned =>
      simp only [Option.bind_eq_bind, Option.bind_some, Option.pure_def]
      split_ifs with hok
      · refine ⟨nofun, fun a' ha' => ?_⟩
        cases ha'
        exact ⟨_, rfl, rfl, rep_link hrep hapart hfresh rfl, hfresh.apart_link hapart⟩
      · exact ⟨fun _ => rfl, nofun⟩

/-- **One step in memory is one step of the list.** -/
lemma Holds.step {op : Op} (h : Holds head a mem) (hop : op.Allowed a)
    (hturns : a.regions.length < turns) :
    (stepList a op = none → stepMem head turns mem op = none) ∧
    ∀ r a', stepList a op = some (r, a') → ∃ mem', stepMem head turns mem op = some (r, mem') ∧
      Holds head a' mem' ∧ a'.regions.length ≤ a.regions.length + 1 := by
  cases op with
  | add addr size =>
      obtain ⟨hnone, hsome⟩ := h.add hop
      refine ⟨fun hstep => ?_, fun r a' hstep => ?_⟩
      · rw [stepMem, hnone (Option.map_eq_none_iff.mp hstep)]
        rfl
      · obtain ⟨a₁, hadd, heq⟩ := Option.map_eq_some_iff.mp hstep
        cases heq
        obtain ⟨mem', hmem', h'⟩ := hsome a' hadd
        refine ⟨mem', by rw [stepMem, hmem']; rfl, h', ?_⟩
        rw [LinkedListAllocator.regions_addFreeRegion hadd, List.length_cons]
  | find size align =>
      obtain ⟨hnone, hsome⟩ := findRegionAt_refines size align h.rep h.apart hturns
      rw [h.addr] at hnone hsome
      refine ⟨fun hstep => hnone ?_, fun r a' hstep => ?_⟩
      · have hfind := Option.map_eq_none_iff.mp hstep
        cases hrest : a.head.findRegion size align with
        | none => rfl
        | some x => simp [LinkedListAllocator.findRegion, hrest] at hfind
      · obtain ⟨⟨ret, a₁⟩, hfind, heq⟩ := Option.map_eq_some_iff.mp hstep
        cases heq
        obtain ⟨⟨ret', n⟩, hrest, heq⟩ := Option.bind_eq_some_iff.mp hfind
        cases heq
        obtain ⟨mem', hmem', hrep, -⟩ := hsome ret n hrest
        obtain ⟨hapart, hregion, hlen⟩ := h.apart.findRegion hrest
        exact ⟨mem', hmem', ⟨by rw [hregion, h.addr], hrep, hapart⟩, hlen.trans (Nat.le_succ _)⟩
  | own f =>
      refine ⟨fun hstep => absurd hstep (Option.some_ne_none _), fun r a' hstep => ?_⟩
      cases hstep
      refine ⟨f mem, rfl, ⟨h.addr, ?_, h.apart⟩, Nat.le_succ _⟩
      exact h.rep.congr fun p hp x hle hlt => hop mem p hp x hle hlt

/-- **The allocator in memory is the list.**  Along every run that keeps to the rules, with turns
enough for a walk along all regions, the calls return what they return on the list, and panic when
they do there; in the end memory holds the list. -/
theorem free_list_refines {ops : List Op} (h : Holds head a mem) (hlegal : Legal a ops)
    (hturns : a.regions.length + ops.length < turns) :
    (runOps stepList a ops = none → runOps (stepMem head turns) mem ops = none) ∧
    ∀ rs a', runOps stepList a ops = some (rs, a') →
      ∃ mem', runOps (stepMem head turns) mem ops = some (rs, mem') ∧ Holds head a' mem' := by
  induction ops generalizing a mem with
  | nil =>
      refine ⟨fun hrun => absurd hrun (Option.some_ne_none _), fun rs a' hrun => ?_⟩
      cases hrun
      exact ⟨mem, rfl, h⟩
  | cons op ops ih =>
      obtain ⟨hop, hrest⟩ := hlegal
      rw [List.length_cons] at hturns
      have hwalk : a.regions.length < turns := by omega
      obtain ⟨hnone, hsome⟩ := h.step hop hwalk
      cases hstep : stepList a op with
      | none =>
          refine ⟨fun _ => ?_, fun rs a' hrun => ?_⟩
          · simp only [runOps, hnone hstep, Option.bind_eq_bind, Option.bind_none]
          · simp only [runOps, hstep, Option.bind_eq_bind, Option.bind_none] at hrun
            cases hrun
      | some x =>
          obtain ⟨r, a₁⟩ := x
          obtain ⟨mem₁, hmem₁, h₁, hlen⟩ := hsome r a₁ hstep
          obtain ⟨ihnone, ihsome⟩ := ih h₁ (hrest r a₁ hstep) (by omega)
          simp only [runOps, hstep, hmem₁, Option.bind_eq_bind, Option.bind_some]
          cases hrun : runOps stepList a₁ ops with
          | none =>
              rw [ihnone hrun]
              exact ⟨fun _ => rfl, nofun⟩
          | some y =>
              obtain ⟨mem', hmem', h'⟩ := ihsome y.1 y.2 hrun
              rw [hmem']
              refine ⟨fun heq => absurd heq (Option.some_ne_none _), fun rs a' heq => ?_⟩
              cases heq
              exact ⟨mem', rfl, h'⟩

/-- Two regions are added, the owner of a page writes to it, and the second region is found again,
since the first one is too small. -/
def sampleOps : List Op :=
  [.add 0x1000 0x20, .add 0x2000 0x20, .own fun mem => mem.write64 0x3000 7, .add 0x4000 0x10,
    .find 0x20 16]

lemma sample_holds : Holds 0x100 (.new 0x100) fun _ => 0 :=
  ⟨rfl, ⟨by decide, by decide⟩, ⟨List.pairwise_singleton _ _, by decide⟩⟩

lemma sample_legal : Legal (.new 0x100) sampleOps := by
  refine ⟨⟨by decide, by decide, by decide, by decide⟩, fun r a h => ?_⟩
  cases h
  refine ⟨⟨by decide, by decide, by decide, by decide⟩, fun r a h => ?_⟩
  cases h
  refine ⟨fun mem p hp x hle hlt => Mem.write64_of_notMem fun hx => ?_, fun r a h => ?_⟩
  · have hbelow : ∀ p ∈ [0x100, 0x2000, 0x1000], p + 16 ≤ 0x3000 := by decide
    have := hbelow p hp
    rw [Finset.mem_Ico] at hx
    omega
  cases h
  refine ⟨⟨by decide, by decide, by decide, by decide⟩, fun r a h => ?_⟩
  cases h
  exact ⟨trivial, fun _ _ _ => trivial⟩

theorem free_list_refines_sample : ∃ mem', runOps (stepMem 0x100 9) (fun _ => 0) sampleOps =
    some ([none, none, none, none, some (0x2000, 0x2000)], mem') := by
  have hrun : (runOps stepList (.new 0x100) sampleOps).any (fun x =>
      x.1 = [none, none, none, none, some (0x2000, 0x2000)]) = true := by
    decide +kernel
  simp only [Option.any_eq_true, decide_eq_true_eq] at hrun
  obtain ⟨⟨rs, a'⟩, hrun, rfl⟩ := hrun
  have hturns : (LinkedListAllocator.new 0x100).regions.length + sampleOps.length < 9 := by decide
  obtain ⟨mem', hmem', -⟩ := (free_list_refines sample_holds sample_legal hturns).2 _ _ hrun
  exact ⟨mem', hmem'⟩

end Ll

end Titanium
