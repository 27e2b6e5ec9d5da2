import Titanium.Vmem
import Titanium.Lib.Checked
import Mathlib.Order.Bounds.Basic

/-!
A free list of regions: `LinkedListAllocator` (`heap/ll.rs`).

Every free region starts with a node that holds its size and owns the rest of the
list.  `find_region` walks along the nodes and takes out the first region that the
request fits into.  A region is rejected when what is left over could not hold a
node; but an aligned start past the end of the address space is a panic, not a
rejection.

* `alignUp_eq`: `align_up` gives the least multiple, or panics.
* `allocFromRegion_eq`: the outcomes of `alloc_from_region`;
  `allocFromRegion_ne_none_iff`: **when it panics**.
* `findRegion_spec`: what the walk returns; `findRegion_isSome_iff`: when it does.
* `find_region_iff`: **the first fitting region is found and taken out of the list,
  unless `alloc_from_region` panics before**.
-/

namespace Titanium

namespace Ll

/-! ### Regions -/

/-- `size_of::<ListNode>()`. -/
def sizeOfListNode : ℕ := 16

/-- `align_of::<ListNode>()`. -/
def alignOfListNode : ℕ := 8

/-- `VirtAddr::new`. -/
def virtNew (addr : ℕ) : Option ℕ := if Canonical addr then some addr else none

/-- `align_up` of the crate `x86_64`, which panics if the alignment is no power of two, and on
overflow. -/
def alignUp (addr align : ℕ) : Option ℕ :=
  if 2 ^ Nat.log2 align = align then
    let alignMask := align - 1
    if addr &&& alignMask = 0 then some addr else checkedAdd 64 (addr ||| alignMask) 1
  else none

/-- A free region: where its node lies, and the size in the node. -/
structure Region where
  addr : ℕ
  size : ℕ
  deriving DecidableEq, Repr

namespace Region

/-- `start_addr`. -/
def startAddr (r : Region) : Option ℕ := virtNew r.addr

/-- `end_addr`. -/
def endAddr (r : Region) : Option ℕ := do virtAdd (← r.startAddr) r.size

end Region

/-- `alloc_from_region`.  `none` is a panic. -/
def allocFromRegion (region : Region) (size align : ℕ) : Option (Except Unit ℕ) := do
  let allocStart ← alignUp (← region.startAddr) align
  match checkedAdd 64 allocStart size with
  | none => return .error ()
  | some allocEnd =>
      if allocEnd > (← region.endAddr) then return .error ()
      else
        let excess ← checkedSub (← region.endAddr) allocEnd
        if excess > 0 ∧ excess < sizeOfListNode then return .error ()
        else return .ok (← virtNew allocStart)

/-- `alloc_from_region` returns `Ok`. -/
def Satisfies (size align : ℕ) (r : Region) : Prop :=
  ∃ start, allocFromRegion r size align = some (.ok start)

/-! ### The list -/

/-- `ListNode`.  A reference to the next node owns it. -/
inductive ListNode where
  | mk (region : Region) (next : Option ListNode)

namespace ListNode

def region : ListNode → Region
  | mk r _ => r

def next : ListNode → Option ListNode
  | mk _ n => n

/-- `self.next.take()`. -/
def takeNext : ListNode → Option ListNode × ListNode
  | mk r n => (n, mk r none)

/-- The regions behind a node. -/
def regions : ListNode → List Region
  | mk _ none => []
  | mk _ (some n) => n.region :: n.regions

/-- Induction along the list. -/
lemma ind {motive : ListNode → Prop} (last : ∀ r, motive (mk r none))
    (link : ∀ r n, motive n → motive (mk r (some n))) : ∀ n, motive n
  | mk r none => last r
  | mk r (some n) => link r n (ind last link n)

/-- The loop of `find_region`, with the node that `current` refers to. -/
def findRegion (size align : ℕ) : ListNode → Option (Option (ListNode × ℕ) × ListNode)
  | mk r none => some (none, mk r none)
  | mk r (some region) => do
      match ← allocFromRegion region.region size align with
      | .ok allocStart =>
          let (next, region) := region.takeNext
          -- `current.next.take()` is the region, and `next` comes in its place
          return (some (region, allocStart), mk r next)
      | .error _ =>
          let (ret, region) ← region.findRegion size align
          return (ret, mk r (some region))

end ListNode

/-- `LinkedListAllocator`. -/
structure LinkedListAllocator where
  head : ListNode

namespace LinkedListAllocator

/-- `new`, for an allocator that lies at `addr`. -/
def new (addr : ℕ) : LinkedListAllocator := ⟨.mk ⟨addr, 0⟩ none⟩

/-- The free regions. -/
def regions (a : LinkedListAllocator) : List Region := a.head.regions

/-- `add_free_region`. -/
def addFreeRegion (a : LinkedListAllocator) (addr size : ℕ) : Option LinkedListAllocator := do
  if (← alignUp addr alignOfListNode) = addr ∧ size ≥ sizeOfListNode then
    let (next, head) := a.head.takeNext
    return ⟨.mk head.region (some (.mk ⟨addr, size⟩ next))⟩
  else none

/-- `init`. -/
def init (a : LinkedListAllocator) (heapStart heapSize : ℕ) : Option LinkedListAllocator :=
  a.addFreeRegion heapStart heapSize

/-- `find_region`. -/
def findRegion (a : LinkedListAllocator) (size align : ℕ) :
    Option (Option (ListNode × ℕ) × LinkedListAllocator) := do
  let (ret, head) ← a.head.findRegion size align
  return (ret, ⟨head⟩)

end LinkedListAllocator

namespace LinkedListAllocator

/-- A region that is given back comes first. -/
lemma regions_addFreeRegion {a a' : LinkedListAllocator} {addr size : ℕ}
    (h : a.addFreeRegion addr size = some a') : a'.regions = ⟨addr, size⟩ :: a.regions := by
  obtain ⟨aligned, -, h⟩ := Option.bind_eq_some_iff.mp h
  obtain ⟨-, heq⟩ := Option.ite_none_right_eq_some.mp h
  cases heq
  obtain ⟨⟨r, next⟩⟩ := a
  cases next <;> rfl

end LinkedListAllocator

/-! ### Aligned starts -/

/-- The least multiple of `align` that is not below `addr`. -/
def up (addr align : ℕ) : ℕ := (addr + (align - 1)) / align * align

lemma up_eq {align : ℕ} (halign : 0 < align) (addr : ℕ) :
    up addr align = if addr % align = 0 then addr else (addr / align + 1) * align := by
  have hdiv := Nat.div_add_mod addr align
  have hmod := Nat.mod_lt addr halign
  have hsum : addr + (align - 1) = addr % align + (align - 1) + addr / align * align := by
    rw [Nat.mul_comm] at hdiv
    omega
  rw [up, hsum, Nat.add_mul_div_right _ _ halign]
  split_ifs with hzero
  · rw [hzero, Nat.zero_add, Nat.div_eq_of_lt (by omega), Nat.zero_add, Nat.mul_comm]
    omega
  · have hone : (addr % align + (align - 1)) / align = 1 :=
      Nat.div_eq_of_lt_le (by omega) (by omega)
    rw [hone, Nat.add_comm]

lemma isLeast_up {align : ℕ} (halign : 0 < align) (addr : ℕ) :
    IsLeast {x | align ∣ x ∧ addr ≤ x} (up addr align) := by
  refine ⟨⟨Dvd.intro_left _ rfl, ?_⟩, ?_⟩
  · have hlt := Nat.lt_div_mul_add halign (a := addr + (align - 1))
    rw [up]
    omega
  · rintro x ⟨⟨k, rfl⟩, hle⟩
    rw [up, Nat.mul_comm align k]
    refine Nat.mul_le_mul_right align ?_
    rw [← Nat.lt_succ_iff, Nat.div_lt_iff_lt_mul halign, Nat.succ_mul, Nat.mul_comm k]
    omega

/-- Setting the low bits and adding 1 goes to the next multiple. -/
lemma or_mask_add_one (addr k : ℕ) :
    (addr ||| 2 ^ k - 1) + 1 = (addr / 2 ^ k + 1) * 2 ^ k := by
  have hpos := Nat.two_pow_pos k
  have hor : addr ||| 2 ^ k - 1 = 2 ^ k * (addr / 2 ^ k) + (2 ^ k - 1) := by
    refine Nat.eq_of_testBit_eq fun i => ?_
    rw [Nat.testBit_or, Nat.testBit_two_pow_sub_one,
      Nat.testBit_two_pow_mul_add _ (Nat.sub_lt hpos one_pos), Nat.testBit_two_pow_sub_one,
      Nat.testBit_div_two_pow]
    by_cases hi : i < k
    · simp [hi]
    · simp [hi, Nat.sub_add_cancel (not_lt.mp hi)]
  rw [hor, Nat.succ_mul, Nat.mul_comm]
  omega

/-- **`align_up` gives the least multiple if there is one.** -/
lemma alignUp_eq {addr align : ℕ} (haddr : addr < 2 ^ 64) (halign : ∃ k, align = 2 ^ k) :
    alignUp addr align = if up addr align < 2 ^ 64 then some (up addr align) else none := by
  obtain ⟨k, rfl⟩ := halign
  rw [alignUp, if_pos (by rw [Nat.log2_two_pow]), up_eq (Nat.two_pow_pos k)]
  dsimp only
  rw [Nat.and_two_pow_sub_one_eq_mod, checkedAdd, or_mask_add_one]
  split_ifs <;> rfl

/-! ### `alloc_from_region` -/

/-- The request fits into the region, and what is left over is nothing or holds a node. -/
def Fits (size align : ℕ) (r : Region) : Prop :=
  up r.addr align + size ≤ r.addr + r.size ∧
    (r.addr + r.size - (up r.addr align + size) = 0 ∨
      sizeOfListNode ≤ r.addr + r.size - (up r.addr align + size))

instance (size align : ℕ) (r : Region) : Decidable (Fits size align r) :=
  inferInstanceAs (Decidable (_ ∧ _))

/-- The region ends inside the address space. -/
def Region.Ends (r : Region) : Prop := Canonical r.addr ∧ Canonical (r.addr + r.size)

lemma canonical_lt {addr : ℕ} (h : Canonical addr) : addr < 2 ^ 64 := by
  unfold Canonical at h
  omega

/-- **The outcomes of `alloc_from_region`**, in the order in which it computes. -/
lemma allocFromRegion_eq {r : Region} {size align : ℕ} (halign : ∃ k, align = 2 ^ k) :
    allocFromRegion r size align =
      if Canonical r.addr ∧ up r.addr align < 2 ^ 64 then
        if up r.addr align + size < 2 ^ 64 then
          if Canonical (r.addr + r.size) then
            if Fits size align r then (virtNew (up r.addr align)).map .ok else some (.error ())
          else none
        else some (.error ())
      else none := by
  by_cases hstart : Canonical r.addr
  · have haddr : r.startAddr = some r.addr := if_pos hstart
    rw [allocFromRegion, haddr, Option.bind_eq_bind, Option.bind_some,
      alignUp_eq (canonical_lt hstart) halign]
    by_cases hup : up r.addr align < 2 ^ 64
    · rw [if_pos hup, if_pos ⟨hstart, hup⟩, Option.bind_some]
      by_cases hsum : up r.addr align + size < 2 ^ 64
      · rw [checkedAdd, if_pos hsum, if_pos hsum]
        by_cases hend : Canonical (r.addr + r.size)
        · have hstop : r.endAddr = some (r.addr + r.size) := by
            rw [Region.endAddr, haddr]
            exact if_pos hend
          rw [if_pos hend]
          by_cases hfit : up r.addr align + size ≤ r.addr + r.size
          · have hsub : checkedSub (r.addr + r.size) (up r.addr align + size) =
                some (r.addr + r.size - (up r.addr align + size)) := if_pos hfit
            simp only [hstop, hsub, Option.bind_some, gt_iff_lt, not_lt.mpr hfit, if_false]
            by_cases hrest : 0 < r.addr + r.size - (up r.addr align + size) ∧
                r.addr + r.size - (up r.addr align + size) < sizeOfListNode
            · have hnot : ¬ Fits size align r := by
                rintro ⟨-, hzero | hlarge⟩
                · omega
                · omega
              rw [if_pos hrest, if_neg hnot]
              rfl
            · have hfits : Fits size align r := ⟨hfit, by omega⟩
              rw [if_neg hrest, if_pos hfits]
              cases virtNew (up r.addr align) <;> rfl
          · rw [if_neg fun hfits => hfit hfits.1]
            simp only [hstop, Option.bind_some, gt_iff_lt, not_le.mp hfit, if_true]
            rfl
        · have hstop : r.endAddr = none := by
            rw [Region.endAddr, haddr]
            exact if_neg hend
          simp only [hstop, if_neg hend, Option.bind_none]
      · rw [checkedAdd, if_neg hsum, if_neg hsum]
        rfl
    · rw [if_neg hup, if_neg fun h => hup h.2]
      rfl
  · rw [allocFromRegion, Region.startAddr, virtNew, if_neg hstart, if_neg fun h => hstart h.1]
    rfl

/-- What `alloc_from_region` returns: the aligned start, for a request that fits. -/
lemma fits_of_ok {r : Region} {size align start : ℕ} (halign : ∃ k, align = 2 ^ k)
    (h : allocFromRegion r size align = some (.ok start)) :
    start = up r.addr align ∧ Fits size align r := by
  rw [allocFromRegion_eq halign] at h
  split_ifs at h with hup hsum hend hfits
  · obtain ⟨_, hnew, heq⟩ := Option.map_eq_some_iff.mp h
    cases heq
    exact ⟨(Option.some.inj (Option.ite_none_right_eq_some.mp hnew).2).symm, hfits⟩
  · cases h
  · cases h

/-- The starts and ends that `alloc_from_region` computes for a region are addresses. -/
def Computes (size align : ℕ) (r : Region) : Prop :=
  Canonical r.addr ∧ up r.addr align < 2 ^ 64 ∧
    (up r.addr align + size < 2 ^ 64 →
      Canonical (r.addr + r.size) ∧ (Fits size align r → Canonical (up r.addr align)))

instance (size align : ℕ) (r : Region) : Decidable (Computes size align r) :=
  inferInstanceAs (Decidable (_ ∧ _))

/-- **When `alloc_from_region` panics.** -/
lemma allocFromRegion_ne_none_iff {r : Region} {size align : ℕ} (halign : ∃ k, align = 2 ^ k) :
    allocFromRegion r size align ≠ none ↔ Computes size align r := by
  rw [allocFromRegion_eq halign, Computes]
  split_ifs with hup hsum hend hfits
  · rw [Ne, Option.map_eq_none_iff, virtNew, ite_eq_right_iff]
    simp only [reduceCtorEq, imp_false, not_not, hup, hsum, hend, hfits, true_and, true_imp_iff]
  · exact iff_of_true (by simp) ⟨hup.1, hup.2, fun _ => ⟨hend, fun h => absurd h hfits⟩⟩
  · exact iff_of_false (by simp) fun h => hend (h.2.2 hsum).1
  · exact iff_of_true (by simp) ⟨hup.1, hup.2, fun h => absurd h hsum⟩
  · exact iff_of_false (by simp) fun h => hup ⟨h.1, h.2.1⟩

/-! ### The walk along the list -/

/-- `Q` holds of the elements up to the first one with `S`, which is included. -/
def UpToFirst {α : Type} (S Q : α → Prop) (l : List α) : Prop :=
  ∀ before x after, l = before ++ x :: after → (∀ y ∈ before, ¬ S y) → Q x

lemma upToFirst_nil {α : Type} (S Q : α → Prop) : UpToFirst S Q [] := by
  intro before x after h
  simp at h

lemma upToFirst_cons {α : Type} {S Q : α → Prop} {a : α} {l : List α} :
    UpToFirst S Q (a :: l) ↔ Q a ∧ (¬ S a → UpToFirst S Q l) := by
  constructor
  · intro h
    refine ⟨h [] a l rfl (by simp), fun ha before x after hl hbefore => ?_⟩
    exact h (a :: before) x after (by rw [hl, List.cons_append])
      (List.forall_mem_cons.mpr ⟨ha, hbefore⟩)
  · rintro ⟨ha, hrest⟩ before x after hl hbefore
    cases before with
    | nil =>
        cases hl
        exact ha
    | cons b before =>
        cases hl
        obtain ⟨hb, hbefore⟩ := List.forall_mem_cons.mp hbefore
        exact hrest hb before x after rfl hbefore

section Walk

variable {size align : ℕ}

/-- The walk ends without a panic if no region panics up to the one that it takes. -/
lemma findRegion_isSome_iff (n : ListNode) : (n.findRegion size align).isSome ↔
    UpToFirst (Satisfies size align) (fun r => allocFromRegion r size align ≠ none) n.regions := by
  induction n using ListNode.ind with
  | last r => simp [ListNode.findRegion, ListNode.regions, upToFirst_nil]
  | link r n ih =>
      rw [ListNode.regions, upToFirst_cons, ← ih, ListNode.findRegion, Satisfies]
      cases halloc : allocFromRegion n.region size align with
      | none => simp
      | some outcome =>
          cases outcome with
          | ok start => simp
          | error u => cases h : n.findRegion size align <;> simp

/-- **What the walk returns**: the first region that fits is taken out, with no link left in its
node, or all regions have been rejected and the list is the same. -/
lemma findRegion_spec {n n' : ListNode} {ret : Option (ListNode × ℕ)}
    (h : n.findRegion size align = some (ret, n')) :
    n'.region = n.region ∧
      (ret = none ∧ n' = n ∧ (∀ r ∈ n.regions, ¬ Satisfies size align r) ∨
        ∃ node start before after, ret = some (node, start) ∧ node.next = none ∧
          allocFromRegion node.region size align = some (.ok start) ∧
          n.regions = before ++ node.region :: after ∧
          (∀ r ∈ before, ¬ Satisfies size align r) ∧ n'.regions = before ++ after) := by
  induction n using ListNode.ind generalizing n' with
  | last r =>
      cases h
      exact ⟨rfl, Or.inl ⟨rfl, rfl, by simp [ListNode.regions]⟩⟩
  | link r n ih =>
      obtain ⟨outcome, halloc, h⟩ := Option.bind_eq_some_iff.mp h
      cases outcome with
      | ok start =>
          obtain ⟨region, next⟩ := n
          cases h
          refine ⟨rfl, Or.inr ⟨_, start, [], next.elim [] fun m => m.region :: m.regions, rfl, rfl,
            halloc, ?_, by simp, ?_⟩⟩
          · cases next <;> rfl
          · cases next <;> rfl
      | error u =>
          obtain ⟨⟨ret', m⟩, hrest, h⟩ := Option.bind_eq_some_iff.mp h
          cases h
          have hreject : ¬ Satisfies size align n.region := by
            rintro ⟨start, hstart⟩
            cases halloc.symm.trans hstart
          obtain ⟨hregion, ⟨rfl, rfl, hall⟩ | ⟨node, start, before, after, rfl, hnext, hok, hsplit,
            hbefore, hafter⟩⟩ := ih hrest
          · refine ⟨rfl, Or.inl ⟨rfl, rfl, ?_⟩⟩
            rw [ListNode.regions]
            exact List.forall_mem_cons.mpr ⟨hreject, hall⟩
          · refine ⟨rfl, Or.inr ⟨node, start, n.region :: before, after, rfl, hnext, hok, ?_,
              List.forall_mem_cons.mpr ⟨hreject, hbefore⟩, ?_⟩⟩
            · rw [ListNode.regions, hsplit, List.cons_append]
            · rw [ListNode.regions, hregion, hafter, List.cons_append]

end Walk

/-! ### `find_region` -/

/-- What `find_region` should return as a region. -/
structure Found (a : LinkedListAllocator) (size align : ℕ) (node : ListNode) (start : ℕ)
    (a' : LinkedListAllocator) : Prop where
  /-- The region is the first that satisfies the request, and the others stay in their order. -/
  first : ∃ before after, a.regions = before ++ node.region :: after ∧
    (∀ r ∈ before, ¬ Satisfies size align r) ∧ Satisfies size align node.region ∧
    a'.regions = before ++ after
  /-- The node is out of the list. -/
  next : node.next = none
  least : IsLeast {x | align ∣ x ∧ node.region.addr ≤ x} start
  stop : start + size ≤ node.region.addr + node.region.size
  rest : node.region.addr + node.region.size - (start + size) = 0 ∨
    sizeOfListNode ≤ node.region.addr + node.region.size - (start + size)

/-- What `find_region` should do. -/
structure FindsFirst (a : LinkedListAllocator) (size align : ℕ) (ret : Option (ListNode × ℕ))
    (a' : LinkedListAllocator) : Prop where
  isSome_iff : ret.isSome ↔ ∃ r ∈ a.regions, Satisfies size align r
  found : ∀ node start, ret = some (node, start) → Found a size align node start a'
  unchanged : ret = none → a' = a

lemma findRegion_findsFirst {a a' : LinkedListAllocator} {size align : ℕ}
    {ret : Option (ListNode × ℕ)} (halign : ∃ k, align = 2 ^ k)
    (h : a.findRegion size align = some (ret, a')) :
    FindsFirst a size align ret a' := by
  obtain ⟨⟨ret', head⟩, hwalk, h⟩ := Option.bind_eq_some_iff.mp h
  cases h
  obtain ⟨-, ⟨rfl, rfl, hall⟩ | ⟨node, start, before, after, rfl, hnext, hok, hsplit, hbefore,
    hafter⟩⟩ := findRegion_spec hwalk
  · refine ⟨?_, fun node start h => (nomatch h), fun _ => rfl⟩
    simpa [LinkedListAllocator.regions] using hall
  · have hmem : node.region ∈ a.regions := by
      rw [LinkedListAllocator.regions, hsplit]
      simp
    have hsat : Satisfies size align node.region := ⟨start, hok⟩
    obtain ⟨hstart, hfits⟩ := fits_of_ok halign hok
    have hpos : 0 < align := by
      obtain ⟨k, rfl⟩ := halign
      exact Nat.two_pow_pos k
    refine ⟨iff_of_true rfl ⟨_, hmem, hsat⟩, fun node' start' heq => ?_, fun h => (nomatch h)⟩
    cases heq
    refine ⟨⟨before, after, hsplit, hbefore, hsat, hafter⟩, hnext, ?_, ?_, ?_⟩
    · rw [hstart]
      exact isLeast_up hpos _
    · rw [hstart]
      exact hfits.1
    · rw [hstart]
      exact hfits.2

/-- **`find_region` removes exactly the first fitting region, unless `alloc_from_region` panics at
a region up to that one**: where the start cannot be aligned, where the aligned start lies between
the two halves of the address space, or where the region does not end inside it. -/
theorem find_region_iff (a : LinkedListAllocator) (size align : ℕ)
    (halign : ∃ k, align = 2 ^ k) :
    (∃ ret a', a.findRegion size align = some (ret, a') ∧ FindsFirst a size align ret a') ↔
      UpToFirst (Satisfies size align) (Computes size align) a.regions := by
  have hpanics : (fun r => allocFromRegion r size align ≠ none) = Computes size align :=
    funext fun r => propext (allocFromRegion_ne_none_iff halign)
  rw [← hpanics, LinkedListAllocator.regions, ← findRegion_isSome_iff]
  constructor
  · rintro ⟨ret, a', h, -⟩
    obtain ⟨x, hwalk, -⟩ := Option.bind_eq_some_iff.mp h
    rw [hwalk]
    rfl
  · intro hsome
    obtain ⟨⟨ret, head⟩, hwalk⟩ := Option.isSome_iff_exists.mp hsome
    have h : a.findRegion size align = some (ret, ⟨head⟩) := by
      rw [LinkedListAllocator.findRegion, hwalk]
      rfl
    exact ⟨ret, ⟨head⟩, h, findRegion_findsFirst halign h⟩

/-- Two regions, the first with 24 bytes. -/
def twoRegions : LinkedListAllocator :=
  ⟨.mk ⟨0, 0⟩ (some (.mk ⟨0x2000, 24⟩ (some (.mk ⟨0x4000, 0x1000⟩ none))))⟩

/-- The first region would keep 8 bytes, too few for a node: the second one is taken. -/
theorem find_region_twoRegions : ∃ ret a', twoRegions.findRegion 16 16 = some (ret, a') ∧
    FindsFirst twoRegions 16 16 ret a' ∧ a'.regions = [⟨0x2000, 24⟩] := by
  have hup : UpToFirst (Satisfies 16 16) (Computes 16 16) twoRegions.regions :=
    upToFirst_cons.mpr ⟨by decide, fun _ => upToFirst_cons.mpr ⟨by decide, fun _ =>
      upToFirst_nil _ _⟩⟩
  obtain ⟨ret, a', hfind, hfirst⟩ :=
    (find_region_iff twoRegions 16 16 ⟨4, rfl⟩).mpr hup
  refine ⟨ret, a', hfind, hfirst, ?_⟩
  have heval : (twoRegions.findRegion 16 16).map (fun x => x.2.regions) =
      some [⟨0x2000, 24⟩] := by decide
  rw [hfind] at heval
  exact Option.some.inj heval

/-- Two regions at the start of the upper half, and a request that is aligned to that start: the
second region satisfies it, but `align_up` panics at the first. -/
theorem find_region_panics : ∃ a,
    ((LinkedListAllocator.new 0).init 0xffff800000000000 0x1000).bind
      (fun a => a.addFreeRegion 0xffff800000001000 0x1000) = some a ∧
    a.regions = [⟨0xffff800000001000, 0x1000⟩, ⟨0xffff800000000000, 0x1000⟩] ∧
    (∀ r ∈ a.regions, r.Ends) ∧
    Satisfies 0x1000 (2 ^ 47) ⟨0xffff800000000000, 0x1000⟩ ∧
    a.findRegion 0x1000 (2 ^ 47) = none := by
  refine ⟨_, rfl, rfl, ?_, ⟨0xffff800000000000, by decide⟩, by decide⟩
  refine List.forall_mem_cons.mpr ⟨⟨Or.inr ?_, Or.inr ?_⟩, List.forall_mem_cons.mpr
    ⟨⟨Or.inr ?_, Or.inr ?_⟩, List.forall_mem_nil _⟩⟩ <;> decide

end Ll

end Titanium
