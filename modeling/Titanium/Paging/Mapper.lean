import Titanium.Paging.Runs
import Mathlib.Data.Finset.Card

/-!
Page tables and `Mapper::map_to`.

The page-table walk comes from the `x86_64` crate, so it is a parameter of the
development: `PageTables` is what the kernel sees of a page table, `MapTo` what
one call of `map_to` may do to it, and `Mapper` a walk that always does that.

* A call fails exactly when an entry is in the way (the page is mapped, or lies
  under a huge page) or when the allocator has too few frames for the tables
  that are missing on the way; a call that fails changes no mapping.
* A call that succeeds installs the one mapping and takes one frame for every
  table that was missing.
* A table that is made gets `PRESENT` from the flags of the page.  Without it the
  walk does not find the table it has just made, and panics.  A call for a small
  page with `HUGE_PAGE` panics too.
* `Room` says that a set of pages can be mapped one after the other, and
  `MapTo.room_insert`: whether it can is decided page by page.
-/

namespace Titanium

/-! ### Pages and flags -/

/-- The page sizes of the `x86_64` crate. -/
inductive PageSize where
  | size4KiB | size2MiB | size1GiB
  deriving DecidableEq, Repr

namespace PageSize

/-- The size in frames of 4 KiB. -/
def unit : PageSize → ℕ
  | size4KiB => 1
  | size2MiB => 512
  | size1GiB => 512 * 512

/-- `S::SIZE`. -/
def size (S : PageSize) : ℕ := S.unit * pageSize

lemma unit_pos (S : PageSize) : 0 < S.unit := by cases S <;> norm_num [unit]

lemma unit_le (S : PageSize) : S.unit ≤ 2 ^ 63 := by cases S <;> norm_num [unit]

lemma size_pos (S : PageSize) : 0 < S.size := Nat.mul_pos S.unit_pos (by norm_num [pageSize])

end PageSize

/-- `PageTableFlags`. -/
abbrev PageTableFlags := BitVec 64

namespace PageTableFlags

def present : PageTableFlags := 1#64 <<< 0
def writable : PageTableFlags := 1#64 <<< 1
def hugePage : PageTableFlags := 1#64 <<< 7
def bit9 : PageTableFlags := 1#64 <<< 9
def bit10 : PageTableFlags := 1#64 <<< 10

end PageTableFlags

/-- `MapToError`. -/
inductive MapToError where
  | frameAllocationFailed
  | parentEntryHugePage
  | pageAlreadyMapped (frame : ℕ)
  deriving DecidableEq, Repr

/-! ### The interface -/

/-- What the kernel sees of a page table.  Pages are given by their number, so
the page `n` of size `S` starts at `n * S.size`; frames by their address. -/
structure PageTables where
  Table : Type
  /-- The places where a table of a lower level can hang. -/
  Slot : Type
  decSlot : DecidableEq Slot
  /-- The mapping: frame and flags. -/
  leaf : Table → PageSize → ℕ → Option (ℕ × PageTableFlags)
  /-- The frames that hold the tables. -/
  tables : Table → Finset ℕ
  /-- An entry is in the way: the page is mapped, or lies under a huge page. -/
  Blocked : Table → PageSize → ℕ → Prop
  /-- The tables that are missing on the way to a page. -/
  missing : Table → PageSize → ℕ → Finset Slot

attribute [instance] PageTables.decSlot

/-- **What one call of `map_to` may do.** -/
structure MapTo (V : PageTables) (t : V.Table) (b : BuddyBits) (S : PageSize) (page frame : ℕ)
    (flags : PageTableFlags) (r : Except MapToError Unit) (t' : V.Table) (b' : BuddyBits) :
    Prop where
  ok_iff : r = .ok () ↔
    ¬ V.Blocked t S page ∧ (V.missing t S page).card ≤ (freeFrames b).card
  /-- Frames are taken for tables only, and for every table that was missing. -/
  takes : ∃ taken, Takes b taken b' ∧ V.tables t' = V.tables t ∪ taken ∧
    (r = .ok () → taken.card = (V.missing t S page).card)
  leaf_ok : r = .ok () → ∀ S' q, V.leaf t' S' q =
    if S' = S ∧ q = page then some (frame, flags) else V.leaf t S' q
  leaf_error : r ≠ .ok () → V.leaf t' = V.leaf t
  blocked_iff : ∀ q, V.Blocked t' S q ↔ V.Blocked t S q ∨ r = .ok () ∧ q = page
  missing_ok : r = .ok () → ∀ q, V.missing t' S q = V.missing t S q \ V.missing t S page
  missing_subset : ∀ q, V.missing t' S q ⊆ V.missing t S q

/-- A page-table walk: `mapper.map_to(page, frame, flags, allocator)`. -/
structure Mapper extends PageTables where
  mapTo : Table → BuddyBits → PageSize → ℕ → ℕ → PageTableFlags →
    Option (Except MapToError Unit × Table × BuddyBits)
  /-- A mapped page is in the way of a new mapping. -/
  blocked_of_leaf : ∀ {t S page}, leaf t S page ≠ none → Blocked t S page
  mapTo_spec : ∀ {t b S page frame flags r t' b'}, Apart (chunks b) →
    mapTo t b S page frame flags = some (r, t', b') →
      MapTo toPageTables t b S page frame flags r t' b'
  /-- The call returns when it need not make a table, or can make one that is present. -/
  mapTo_returns : ∀ {t b S page flags} (frame), Apart (chunks b) →
    flags &&& PageTableFlags.hugePage = 0 →
    (flags &&& PageTableFlags.present ≠ 0 ∨ missing t S page = ∅) →
      ∃ r t' b', mapTo t b S page frame flags = some (r, t', b')
  /-- It panics when it makes one that is not. -/
  mapTo_panics : ∀ {t b S page flags} (frame), Apart (chunks b) →
    flags &&& PageTableFlags.present = 0 → ¬ Blocked t S page → missing t S page ≠ ∅ →
      freeFrames b ≠ ∅ → mapTo t b S page frame flags = none

/-! ### Taking frames -/

lemma Takes.trans {b b₁ b₂ : BuddyBits} {x y : Finset ℕ} (h₁ : Takes b x b₁) (h₂ : Takes b₁ y b₂) :
    Takes b (x ∪ y) b₂ := by
  have hy : y ⊆ freeFrames b \ x := h₁.free_eq ▸ h₂.subset
  refine ⟨h₂.apart, Finset.union_subset h₁.subset (hy.trans Finset.sdiff_subset), ?_⟩
  rw [h₂.free_eq, h₁.free_eq, sdiff_sdiff_left, Finset.sup_eq_union]

lemma Takes.disjoint {b b₁ b₂ : BuddyBits} {x y : Finset ℕ} (h₁ : Takes b x b₁)
    (h₂ : Takes b₁ y b₂) : Disjoint x y :=
  Finset.disjoint_sdiff.mono_right (h₁.free_eq ▸ h₂.subset)

lemma Takes.card_free {b b' : BuddyBits} {x : Finset ℕ} (h : Takes b x b') :
    (freeFrames b').card = (freeFrames b).card - x.card := by
  rw [h.free_eq, Finset.card_sdiff_of_subset h.subset]

lemma Takes.eq_sdiff {b b' : BuddyBits} {x : Finset ℕ} (h : Takes b x b') :
    freeFrames b \ freeFrames b' = x := by
  rw [h.free_eq, Finset.sdiff_sdiff_eq_self h.subset]

/-- The free chunks are apart, and no table lies in a free frame. -/
structure WellFormed (V : PageTables) (t : V.Table) (b : BuddyBits) : Prop where
  apart : Apart (chunks b)
  tables : Disjoint (V.tables t) (freeFrames b)

/-- Frames taken for tables, and for anything else, keep the state well formed. -/
lemma WellFormed.take {V : PageTables} {t t' : V.Table} {b b' : BuddyBits} {taken new : Finset ℕ}
    (h : WellFormed V t b) (hT : Takes b taken b') (hnew : new ⊆ taken)
    (htab : V.tables t' = V.tables t ∪ new) : WellFormed V t' b' := by
  refine ⟨hT.apart, ?_⟩
  rw [htab, hT.free_eq, Finset.disjoint_union_left]
  exact ⟨h.tables.mono_right Finset.sdiff_subset, Finset.disjoint_sdiff.mono_left hnew⟩

/-! ### Room for a set of pages -/

/-- Nothing is in the way of the pages, and `avail` frames are enough for the
tables that are missing. -/
structure Room (V : PageTables) (S : PageSize) (t : V.Table) (pages : Finset ℕ) (avail : ℕ) :
    Prop where
  unblocked : ∀ q ∈ pages, ¬ V.Blocked t S q
  tables_le : (pages.biUnion (V.missing t S)).card ≤ avail

namespace MapTo

variable {V : PageTables} {t t' : V.Table} {b b' : BuddyBits} {S : PageSize} {page frame : ℕ}
  {flags : PageTableFlags} {r : Except MapToError Unit}

/-- A mapping elsewhere is not touched. -/
lemma leaf_of_ne (h : MapTo V t b S page frame flags r t' b') {S' : PageSize} {q : ℕ}
    (hne : ¬(S' = S ∧ q = page)) : V.leaf t' S' q = V.leaf t S' q := by
  by_cases hr : r = .ok ()
  · rw [h.leaf_ok hr, if_neg hne]
  · rw [h.leaf_error hr]

lemma wellFormed (h : MapTo V t b S page frame flags r t' b') (hw : WellFormed V t b) :
    WellFormed V t' b' := by
  obtain ⟨taken, hT, htab, -⟩ := h.takes
  exact hw.take hT Finset.Subset.rfl htab

/-- The tables missing on the way to the other pages, after a mapping. -/
lemma biUnion_missing (h : MapTo V t b S page frame flags (.ok ()) t' b') (pages : Finset ℕ) :
    pages.biUnion (V.missing t' S) = pages.biUnion (V.missing t S) \ V.missing t S page := by
  ext s
  simp only [Finset.mem_biUnion, Finset.mem_sdiff, h.missing_ok rfl]
  exact ⟨fun ⟨q, hq, h1, h2⟩ => ⟨⟨q, hq, h1⟩, h2⟩, fun ⟨⟨q, hq, h1⟩, h2⟩ => ⟨q, hq, h1, h2⟩⟩

/-- The tables for a page and the tables for the others, counted once. -/
lemma card_biUnion_insert (h : MapTo V t b S page frame flags (.ok ()) t' b') (pages : Finset ℕ) :
    ((insert page pages).biUnion (V.missing t S)).card =
      (V.missing t S page).card + (pages.biUnion (V.missing t' S)).card := by
  rw [Finset.biUnion_insert, h.biUnion_missing, ← Finset.union_sdiff_self_eq_union,
    Finset.card_union_of_disjoint Finset.disjoint_sdiff]

/-- **Room is decided page by page.**  After the first page has been mapped
there is room for the others exactly when there was room for all. -/
lemma room_insert (h : MapTo V t b S page frame flags (.ok ()) t' b') {pages : Finset ℕ}
    (hpage : page ∉ pages) :
    Room V S t (insert page pages) (freeFrames b).card ↔
      Room V S t' pages (freeFrames b').card := by
  obtain ⟨hopen, hle⟩ := h.ok_iff.mp rfl
  obtain ⟨taken, hT, -, hcard⟩ := h.takes
  have hfree : (freeFrames b').card = (freeFrames b).card - (V.missing t S page).card := by
    rw [hT.card_free, hcard rfl]
  have hcount := h.card_biUnion_insert pages
  refine ⟨fun hR => ⟨fun q hq hbl => ?_, ?_⟩, fun hR => ⟨fun q hq hbl => ?_, ?_⟩⟩
  · cases (h.blocked_iff q).mp hbl with
    | inl hold => exact hR.unblocked q (Finset.mem_insert_of_mem hq) hold
    | inr hnew => exact hpage (hnew.2 ▸ hq)
  · have := hR.tables_le
    omega
  · cases Finset.mem_insert.mp hq with
    | inl heq => exact hopen (heq ▸ hbl)
    | inr hmem => exact hR.unblocked q hmem ((h.blocked_iff q).mpr (Or.inl hbl))
  · have := hR.tables_le
    omega

end MapTo

/-- The first page of a set with room can be mapped. -/
lemma Room.ok {V : PageTables} {t t' : V.Table} {b b' : BuddyBits} {S : PageSize}
    {page frame : ℕ} {flags : PageTableFlags} {r : Except MapToError Unit} {pages : Finset ℕ}
    (hR : Room V S t pages (freeFrames b).card) (hpage : page ∈ pages)
    (h : MapTo V t b S page frame flags r t' b') : r = .ok () :=
  h.ok_iff.mpr ⟨hR.unblocked page hpage,
    (Finset.card_le_card (Finset.subset_biUnion_of_mem _ hpage)).trans hR.tables_le⟩

end Titanium
