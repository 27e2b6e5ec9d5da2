import Titanium.Hdint.IoApic
import Titanium.Stack

/-!
Where the registers of the IOAPICs are mapped (`IOApic::new` in `hdint.rs`).

Every IOAPIC gets pages of its own from `APIC_NEXT_OFFSET` on: those of the frames
from its address to eight bytes behind it.  The second register lies sixteen bytes
behind the first.

* `mapFrames_spec`: the loop maps the frames to consecutive pages.
* `IOApic.new_spec`: one call, `newAll_spec`: a sequence of calls.
* `windows_mapped_iff`: the windows are apart, and the first register is always
  mapped; **the second is mapped unless the address lies 16 or 12 bytes before the
  end of a page**.
-/

namespace Titanium

namespace PageTableFlags

def writeThrough : PageTableFlags := 1#64 <<< 3
def noCache : PageTableFlags := 1#64 <<< 4
def noExecute : PageTableFlags := 1#64 <<< 63

end PageTableFlags

/-- `APIC_START`. -/
def apicStart : ℕ := newTruncate 0xbeef00000000

namespace Hdint

/-! ### `IOApic::new` -/

/-- What `IOApic::new` reads of an `IOApicEntry`. -/
structure IOApicEntry where
  apicId : BitVec 8
  address : BitVec 32
  gsiBase : BitVec 32
  deriving DecidableEq, Repr

/-- `APIC_MAPPING_SIZE`: two registers. -/
def apicMappingSize : ℕ := 2 * 4

namespace IOApicEntry

/-- The start of `start_frame`. -/
def startFrame (entry : IOApicEntry) : ℕ := entry.address.toNat / pageSize * pageSize

/-- The start of `end_frame`. -/
def endFrame (entry : IOApicEntry) : ℕ :=
  (entry.address.toNat + apicMappingSize) / pageSize * pageSize

/-- `n_pages`: the length of the inclusive range of frames. -/
def nPages (entry : IOApicEntry) : ℕ := (entry.endFrame - entry.startFrame) / pageSize + 1

end IOApicEntry

/-- The flags of the mapping. -/
def apicFlags : PageTableFlags :=
  .present ||| .noCache ||| .noExecute ||| .writeThrough ||| .writable

/-- The page table, the allocator and `APIC_NEXT_OFFSET`. -/
structure ApicState (M : Mapper) where
  table : M.Table
  bits : BuddyBits
  nextOffset : ℕ

/-- One turn of the loop: a page that does not start at a page boundary, or that cannot be mapped,
panics. -/
def mapFrame (M : Mapper) (entry : IOApicEntry) (startAddr : ℕ) (s : M.Table × BuddyBits) (i : ℕ) :
    Option (M.Table × BuddyBits) := do
  let addr ← virtAdd startAddr (i * 0x1000)
  if addr % pageSize = 0 then
    match ← M.mapTo s.1 s.2 .size4KiB (addr / pageSize) (entry.startFrame + i * pageSize)
      apicFlags with
    | (.ok _, t, b) => some (t, b)
    | (.error _, _, _) => none
  else none

/-- The loop over the frames. -/
def mapFrames (M : Mapper) (entry : IOApicEntry) (startAddr n : ℕ) (s : M.Table × BuddyBits) :
    Option (M.Table × BuddyBits) :=
  (List.range n).foldlM (mapFrame M entry startAddr) s

/-- `IOApic::new`. -/
def IOApic.new (M : Mapper) (s : ApicState M) (entry : IOApicEntry) :
    Option (IOApic × ApicState M) := do
  let startAddr ← virtAdd apicStart s.nextOffset
  let (t, b) ← mapFrames M entry startAddr entry.nPages (s.table, s.bits)
  let vaddr ← virtAdd startAddr (entry.address.toNat - entry.startFrame)
  some (IOApic.init entry.apicId entry.gsiBase vaddr,
    ⟨t, b, (s.nextOffset + entry.nPages * 0x1000) % 2 ^ 64⟩)

/-! ### Mapping frames -/

section Map

variable (M : Mapper) {entry : IOApicEntry} {startAddr : ℕ}

/-- Only the one page gets a new mapping. -/
lemma mapFrame_spec {s s' : M.Table × BuddyBits} {i : ℕ} (hA : Apart (chunks s.2))
    (h : mapFrame M entry startAddr s i = some s') :
    Apart (chunks s'.2) ∧ ∀ S q, M.leaf s'.1 S q =
      if S = .size4KiB ∧ q = startAddr / pageSize + i then
        some (entry.startFrame + i * pageSize, apicFlags) else M.leaf s.1 S q := by
  obtain ⟨addr, haddr, h⟩ := Option.bind_eq_some_iff.mp h
  obtain ⟨-, rfl⟩ := virtAdd_eq_some.mp haddr
  obtain ⟨-, h⟩ := Option.ite_none_right_eq_some.mp h
  obtain ⟨⟨r, t, b⟩, hmap, h⟩ := Option.bind_eq_some_iff.mp h
  have hM := M.mapTo_spec hA hmap
  have hpage : (startAddr + i * 0x1000) / pageSize = startAddr / pageSize + i := by
    rw [pageSize, Nat.add_mul_div_right _ _ (by norm_num)]
  cases r with
  | error err => cases h
  | ok u =>
      cases h
      obtain ⟨taken, hT, -⟩ := hM.takes
      rw [hpage] at hM
      exact ⟨hT.apart, hM.leaf_ok rfl⟩

/-- **The loop maps the frames one after the other.** -/
lemma mapFrames_spec {n : ℕ} {s s' : M.Table × BuddyBits} (hA : Apart (chunks s.2))
    (h : mapFrames M entry startAddr n s = some s') :
    Apart (chunks s'.2) ∧
      (∀ i < n, M.leaf s'.1 .size4KiB (startAddr / pageSize + i) =
        some (entry.startFrame + i * pageSize, apicFlags)) ∧
      ∀ q, q < startAddr / pageSize → M.leaf s'.1 .size4KiB q = M.leaf s.1 .size4KiB q := by
  induction n generalizing s' with
  | zero =>
      cases h
      exact ⟨hA, fun i hi => absurd hi (by omega), fun _ _ => rfl⟩
  | succ n ih =>
      rw [mapFrames, List.range_succ, List.foldlM_append] at h
      obtain ⟨s₁, h₁, h⟩ := Option.bind_eq_some_iff.mp h
      obtain ⟨s₂, h, hnil⟩ := Option.bind_eq_some_iff.mp h
      cases hnil
      obtain ⟨hA₁, hleaf₁, hbelow₁⟩ := ih h₁
      obtain ⟨hA', hleaf⟩ := mapFrame_spec M hA₁ h
      refine ⟨hA', fun i hi => ?_, fun q hq => ?_⟩
      · rw [hleaf]
        by_cases hin : i = n
        · rw [if_pos ⟨rfl, by rw [hin]⟩, hin]
        · rw [if_neg (by omega), hleaf₁ i (by omega)]
      · rw [hleaf, if_neg (by omega), hbelow₁ q hq]

/-! ### One call -/

lemma IOApicEntry.nPages_eq (entry : IOApicEntry) : entry.nPages =
    (entry.address.toNat + 8) / pageSize - entry.address.toNat / pageSize + 1 := by
  unfold nPages endFrame startFrame apicMappingSize pageSize
  omega

lemma apicStart_eq : apicStart = 0xffffbeef00000 * pageSize := by
  norm_num [apicStart, newTruncate, pageSize]

/-- What a call of `IOApic::new` leaves behind. -/
structure IOApic.NewSpec (s : ApicState M) (entry : IOApicEntry) (a : IOApic)
    (s' : ApicState M) : Prop where
  apart : Apart (chunks s'.bits)
  nextOffset : s'.nextOffset = s.nextOffset + entry.nPages * pageSize
  base : a.base = apicStart + s.nextOffset + entry.address.toNat % pageSize
  leaf : ∀ i < entry.nPages, M.leaf s'.table .size4KiB ((apicStart + s.nextOffset) / pageSize + i) =
    some (entry.startFrame + i * pageSize, apicFlags)
  below : ∀ q < (apicStart + s.nextOffset) / pageSize,
    M.leaf s'.table .size4KiB q = M.leaf s.table .size4KiB q

lemma IOApic.new_spec {s s' : ApicState M} {a : IOApic} (hA : Apart (chunks s.bits))
    (h : IOApic.new M s entry = some (a, s')) : IOApic.NewSpec M s entry a s' := by
  obtain ⟨startAddr, hstart, h⟩ := Option.bind_eq_some_iff.mp h
  obtain ⟨hcanon, rfl⟩ := virtAdd_eq_some.mp hstart
  obtain ⟨⟨t, b⟩, hmap, h⟩ := Option.bind_eq_some_iff.mp h
  obtain ⟨vaddr, hvaddr, h⟩ := Option.bind_eq_some_iff.mp h
  obtain ⟨-, rfl⟩ := virtAdd_eq_some.mp hvaddr
  obtain ⟨hA', hleaf, hbelow⟩ := mapFrames_spec M hA hmap
  cases h
  refine ⟨hA', ?_, ?_, hleaf, hbelow⟩
  · rw [entry.nPages_eq]
    rw [Canonical, apicStart_eq] at hcanon
    unfold pageSize at *
    show (_ : ℕ) % _ = _
    omega
  · rw [IOApic.init_eq, IOApicEntry.startFrame]
    unfold pageSize
    dsimp only
    omega

end Map

/-! ### Sequences of calls -/

/-- An IOAPIC, with the offsets that were reserved for it. -/
structure Window where
  entry : IOApicEntry
  offset : ℕ
  stop : ℕ
  ioapic : IOApic

/-- The pages that were reserved. -/
def Window.pages (w : Window) : Finset ℕ :=
  .Ico ((apicStart + w.offset) / pageSize) ((apicStart + w.stop) / pageSize)

/-- Calls of `IOApic::new`, one for each entry. -/
def newAll (M : Mapper) : ApicState M → List IOApicEntry → Option (List Window × ApicState M)
  | s, [] => some ([], s)
  | s, entry :: entries => do
      let (a, s₁) ← IOApic.new M s entry
      let (ws, s') ← newAll M s₁ entries
      some (⟨entry, s.nextOffset, s₁.nextOffset, a⟩ :: ws, s')

/-- The four bytes at `base + offset` lie in pages of the window, and are those at the physical
address `address + offset`, present, writable and not cached. -/
def Window.Maps (M : Mapper) (t : M.Table) (w : Window) (offset : ℕ) : Prop :=
  ∀ j < 4, (w.ioapic.base + offset + j) / pageSize ∈ w.pages ∧
    ∃ frame, M.leaf t .size4KiB ((w.ioapic.base + offset + j) / pageSize) =
      some (frame, apicFlags) ∧
      frame + (w.ioapic.base + offset + j) % pageSize = w.entry.address.toNat + offset + j

/-- What holds of a window at the end. -/
structure Window.Sound (M : Mapper) (t : M.Table) (w : Window) : Prop where
  aligned : pageSize ∣ w.offset
  stop : w.stop = w.offset + w.entry.nPages * pageSize
  base : w.ioapic.base = apicStart + w.offset + w.entry.address.toNat % pageSize
  leaf : ∀ i < w.entry.nPages, M.leaf t .size4KiB ((apicStart + w.offset) / pageSize + i) =
    some (w.entry.startFrame + i * pageSize, apicFlags)

/-- **The windows of a sequence of calls**: each is sound and lies above the ones before it. -/
lemma newAll_spec (M : Mapper) {entries : List IOApicEntry} {s s' : ApicState M}
    {ws : List Window} (hA : Apart (chunks s.bits)) (hoff : pageSize ∣ s.nextOffset)
    (h : newAll M s entries = some (ws, s')) :
    ws.map Window.entry = entries ∧
      (∀ w ∈ ws, w.Sound M s'.table ∧ s.nextOffset ≤ w.offset) ∧
      ws.Pairwise (fun w w' => w.stop ≤ w'.offset) ∧
      ∀ q < (apicStart + s.nextOffset) / pageSize,
        M.leaf s'.table .size4KiB q = M.leaf s.table .size4KiB q := by
  induction entries generalizing s ws with
  | nil =>
      cases h
      exact ⟨rfl, by simp, .nil, fun _ _ => rfl⟩
  | cons entry entries ih =>
      obtain ⟨⟨a, s₁⟩, hnew, h⟩ := Option.bind_eq_some_iff.mp h
      obtain ⟨⟨ws₁, s₂⟩, hrest, h⟩ := Option.bind_eq_some_iff.mp h
      cases h
      have hspec := IOApic.new_spec M hA hnew
      have hoff₁ : pageSize ∣ s₁.nextOffset :=
        hspec.nextOffset ▸ dvd_add hoff (Dvd.intro_left _ rfl)
      obtain ⟨hmap, hsound, hpair, hbelow⟩ := ih hspec.apart hoff₁ hrest
      have hpages : (apicStart + s₁.nextOffset) / pageSize =
          (apicStart + s.nextOffset) / pageSize + entry.nPages := by
        rw [hspec.nextOffset, ← add_assoc, Nat.add_mul_div_right _ _ (by norm_num [pageSize])]
      have hle : s.nextOffset ≤ s₁.nextOffset := hspec.nextOffset ▸ Nat.le_add_right _ _
      refine ⟨by rw [List.map_cons, hmap], List.forall_mem_cons.mpr ⟨⟨⟨hoff, hspec.nextOffset,
        hspec.base, fun i hi => ?_⟩, le_rfl⟩, fun w hw => ?_⟩, .cons (fun w hw => ?_) hpair,
        fun q hq => ?_⟩
      · rw [hbelow _ (by rw [hpages]; exact Nat.add_lt_add_left hi _)]
        exact hspec.leaf i hi
      · exact ⟨(hsound w hw).1, hle.trans (hsound w hw).2⟩
      · exact (hsound w hw).2
      · rw [hbelow q (by omega), hspec.below q hq]

/-! ### The registers -/

/-- A register is mapped if its last byte lies in the pages. -/
lemma Window.Sound.maps_iff {M : Mapper} {t : M.Table} {w : Window} (h : w.Sound M t)
    (offset : ℕ) : w.Maps M t offset ↔
      (w.entry.address.toNat % pageSize + offset + 3) / pageSize < w.entry.nPages := by
  obtain ⟨k, hk⟩ := h.aligned
  have hpage : ∀ j, (w.ioapic.base + offset + j) / pageSize = (apicStart + w.offset) / pageSize +
      (w.entry.address.toNat % pageSize + offset + j) / pageSize := by
    intro j
    rw [h.base, apicStart_eq, hk]
    unfold pageSize
    omega
  have hmem : ∀ j, (w.ioapic.base + offset + j) / pageSize ∈ w.pages ↔
      (w.entry.address.toNat % pageSize + offset + j) / pageSize < w.entry.nPages := by
    intro j
    rw [hpage, pages, Finset.mem_Ico, h.stop, ← add_assoc,
      Nat.add_mul_div_right _ _ (by norm_num [pageSize]), and_iff_right (Nat.le_add_right _ _),
      Nat.add_lt_add_iff_left]
  constructor
  · intro hmaps
    exact (hmem 3).mp (hmaps 3 (by norm_num)).1
  · intro hlast j hj
    have hlt : (w.entry.address.toNat % pageSize + offset + j) / pageSize < w.entry.nPages :=
      (Nat.div_le_div_right (by omega)).trans_lt hlast
    refine ⟨(hmem j).mpr hlt, _, hpage j ▸ h.leaf _ hlt, ?_⟩
    rw [h.base, apicStart_eq, hk, IOApicEntry.startFrame]
    unfold pageSize
    omega

/-- **Windows are apart, and their first registers are mapped; the second register of a window is
mapped unless its address lies 16 or 12 bytes before the end of a page.** -/
theorem windows_mapped_iff (M : Mapper) {entries : List IOApicEntry} {s s' : ApicState M}
    {ws : List Window} (hA : Apart (chunks s.bits)) (hoff : pageSize ∣ s.nextOffset)
    (halign : ∀ entry ∈ entries, 4 ∣ entry.address.toNat)
    (h : newAll M s entries = some (ws, s')) :
    ws.map Window.entry = entries ∧
      ws.Pairwise (fun w w' => Disjoint w.pages w'.pages) ∧
      ∀ w ∈ ws, w.Maps M s'.table 0 ∧
        (w.Maps M s'.table 0x10 ↔
          w.entry.address.toNat % 4096 ≠ 4080 ∧ w.entry.address.toNat % 4096 ≠ 4084) := by
  obtain ⟨hmap, hsound, hpair, -⟩ := newAll_spec M hA hoff h
  refine ⟨hmap, hpair.imp fun {w w'} hle => ?_, fun w hw => ?_⟩
  · refine Finset.disjoint_left.mpr fun q hq hq' => ?_
    obtain ⟨-, hlt⟩ := Finset.mem_Ico.mp hq
    obtain ⟨hge, -⟩ := Finset.mem_Ico.mp hq'
    have := Nat.div_le_div_right (c := pageSize) (Nat.add_le_add_left hle apicStart)
    omega
  · have hdvd : 4 ∣ w.entry.address.toNat :=
      halign _ (hmap ▸ List.mem_map_of_mem hw)
    have hw := (hsound w hw).1
    rw [hw.maps_iff, hw.maps_iff, w.entry.nPages_eq]
    unfold pageSize
    omega

/-- No pages mapped, and the frames 0 to 31 free. -/
def emptyState : ApicState FourLevel.fourLevel := ⟨emptyTable, lowChunk, 0⟩

/-- Two IOAPICs, as the firmware of larger machines names them. -/
def twoIOApics : List IOApicEntry := [⟨8, 0xfec00000, 0⟩, ⟨9, 0xfec01000, 24⟩]

theorem both_ioapics_mapped : ∃ w₁ w₂ s',
    newAll FourLevel.fourLevel emptyState twoIOApics = some ([w₁, w₂], s') ∧
    Disjoint w₁.pages w₂.pages ∧
    (w₁.Maps FourLevel.fourLevel s'.table 0 ∧ w₁.Maps FourLevel.fourLevel s'.table 0x10) ∧
    w₂.Maps FourLevel.fourLevel s'.table 0 ∧ w₂.Maps FourLevel.fourLevel s'.table 0x10 := by
  have heval : (newAll FourLevel.fourLevel emptyState twoIOApics).isSome = true := by
    decide +kernel
  obtain ⟨⟨ws, s'⟩, hnew⟩ := Option.isSome_iff_exists.mp heval
  obtain ⟨hmap, hapart, hall⟩ := windows_mapped_iff FourLevel.fourLevel apart_lowChunk (dvd_zero _)
    (by decide) hnew
  obtain ⟨w₁, ws, rfl, h₁, hmap⟩ := List.map_eq_cons_iff.mp hmap
  obtain ⟨w₂, ws, rfl, h₂, hmap⟩ := List.map_eq_cons_iff.mp hmap
  obtain rfl := List.map_eq_nil_iff.mp hmap
  have hmapped : ∀ w ∈ [w₁, w₂], w.entry ∈ twoIOApics →
      w.Maps FourLevel.fourLevel s'.table 0 ∧ w.Maps FourLevel.fourLevel s'.table 0x10 := by
    intro w hw hentry
    obtain ⟨hfirst, hsecond⟩ := hall w hw
    have hpage : ∀ entry ∈ twoIOApics,
        entry.address.toNat % 4096 ≠ 4080 ∧ entry.address.toNat % 4096 ≠ 4084 := by decide
    exact ⟨hfirst, hsecond.mpr (hpage _ hentry)⟩
  refine ⟨w₁, w₂, s', hnew, List.rel_of_pairwise_cons hapart (by simp), hmapped w₁ (by simp) ?_,
    hmapped w₂ (by simp) ?_⟩
  · rw [h₁, twoIOApics]
    exact List.mem_cons_self ..
  · rw [h₂, twoIOApics]
    exact List.mem_cons_of_mem _ (List.mem_cons_self ..)

/-- The second register of an IOAPIC at `0xfec00ff0` lies in a page that nothing is mapped to. -/
theorem second_register_unmapped : ∃ ws s',
    newAll FourLevel.fourLevel emptyState [⟨0, 0xfec00ff0, 0⟩] = some (ws, s') ∧
    ∃ w ∈ ws, (w.ioapic.base + 0x10) / pageSize ∉ w.pages ∧
      FourLevel.fourLevel.leaf s'.table .size4KiB ((w.ioapic.base + 0x10) / pageSize) = none := by
  have heval : (newAll FourLevel.fourLevel emptyState [⟨0, 0xfec00ff0, 0⟩]).any (fun x =>
      x.1.any fun w => decide ((w.ioapic.base + 0x10) / pageSize ∉ w.pages ∧
        FourLevel.fourLevel.leaf x.2.table .size4KiB ((w.ioapic.base + 0x10) / pageSize) =
          none)) = true := by
    decide +kernel
  simp only [Option.any_eq_true, List.any_eq_true, decide_eq_true_eq] at heval
  obtain ⟨⟨ws, s'⟩, hnew, w, hw, hout⟩ := heval
  exact ⟨ws, s', hnew, w, hw, hout⟩

end Hdint

end Titanium
