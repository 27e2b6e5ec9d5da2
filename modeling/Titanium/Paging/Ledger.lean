import Titanium.Paging.Mapall

/-!
Where the usable frames are.

At boot every usable frame is free.  From then on a frame is taken for a table, or
picked by `page_region` and put behind a page; a frame that was picked and whose
`map_to` failed is lost.

* `Place.Holds`: a frame is at a place, read off the state.
* `failedFrames`: the frames that a call of `page_region` gives up, because the
  `map_to` of their page failed.
* `Ledger`: the place of every frame, as a function, so that no frame has two.
* `Ledger.pick`, `Ledger.mapTo`: the two things that can happen to a frame.
* `Ledger.pageRegion`: a call of `page_region`, whatever it returns.
-/

namespace Titanium

namespace PageTables

variable (V : PageTables) (t₀ t : V.Table)

/-- The frames that an access through a page reaches, if the page was mapped since `t₀`. -/
def reached (S : PageSize) (page : ℕ) : Finset ℕ :=
  match V.leaf t₀ S page, V.leaf t S page with
  | none, some (frame, flags) => if flags.getLsbD 0 then handedOut (some (frame, S.unit)) else ∅
  | _, _ => ∅

/-- Every mapping of `t₀` is still there. -/
def Keeps : Prop := ∀ S page x, V.leaf t₀ S page = some x → V.leaf t S page = some x

end PageTables

section Reached

variable {V : PageTables} {t₀ t t' : V.Table} {S : PageSize} {page f : ℕ}

lemma PageTables.Keeps.refl : V.Keeps t t := fun _ _ _ => id

lemma PageTables.Keeps.trans (h : V.Keeps t₀ t) (h' : V.Keeps t t') : V.Keeps t₀ t' :=
  fun S page x hx => h' S page x (h S page x hx)

lemma reached_self : V.reached t t S page = ∅ := by
  unfold PageTables.reached
  cases V.leaf t S page <;> rfl

lemma reached_congr (h : V.leaf t' S page = V.leaf t S page) :
    V.reached t₀ t' S page = V.reached t₀ t S page := by
  rw [PageTables.reached, PageTables.reached, h]

lemma reached_of_none (h : V.leaf t S page = none) : V.reached t₀ t S page = ∅ := by
  unfold PageTables.reached
  rw [h]
  cases V.leaf t₀ S page <;> rfl

lemma mem_reached {frame : ℕ} {flags : PageTableFlags} (h : V.leaf t S page = some (frame, flags))
    (hf : f ∈ V.reached t₀ t S page) :
    flags.getLsbD 0 = true ∧ f ∈ handedOut (some (frame, S.unit)) := by
  unfold PageTables.reached at hf
  rw [h] at hf
  cases h₀ : V.leaf t₀ S page with
  | some x => simp [h₀] at hf
  | none =>
      rw [h₀] at hf
      dsimp only at hf
      split_ifs at hf with hpresent
      · exact ⟨hpresent, hf⟩
      · exact absurd hf (Finset.notMem_empty f)

lemma reached_eq {frame : ℕ} {flags : PageTableFlags} (h₀ : V.leaf t₀ S page = none)
    (h : V.leaf t S page = some (frame, flags)) (hpresent : flags.getLsbD 0 = true) :
    V.reached t₀ t S page = handedOut (some (frame, S.unit)) := by
  unfold PageTables.reached
  rw [h₀, h]
  exact if_pos hpresent

end Reached

/-- Where a frame can be. -/
inductive Place where
  | free
  /-- Picked by `page_region` for a page that could not be mapped. -/
  | lost
  | table
  | page (S : PageSize) (page : ℕ)
  deriving DecidableEq

/-- The frame `f` is at a place: `t₀` is the page table at boot, and `lost` are the frames whose
`map_to` has failed. -/
def Place.Holds (V : PageTables) (t₀ : V.Table) (lost : Finset ℕ) (t : V.Table) (b : BuddyBits)
    (f : ℕ) : Place → Prop
  | .free => f ∈ freeFrames b
  | .lost => f ∈ lost
  | .table => f ∈ V.tables t
  | .page S q => f ∈ V.reached t₀ t S q

/-- **The ledger**: `ram` are the usable frames. -/
structure Ledger (V : PageTables) (t₀ : V.Table) (ram lost : Finset ℕ) (place : ℕ → Option Place)
    (t : V.Table) (b : BuddyBits) : Prop where
  apart : Apart (chunks b)
  keeps : V.Keeps t₀ t
  free : ∀ f ∈ freeFrames b, f ∈ ram ∧ place f = some .free
  gone : ∀ f ∈ lost, f ∈ ram ∧ place f = some .lost
  table : ∀ f ∈ V.tables t, place f = some .table
  page : ∀ S q, ∀ f ∈ V.reached t₀ t S q, f ∈ ram → place f = some (.page S q)
  /-- Every usable frame is somewhere. -/
  covered : ∀ f ∈ ram, f ∈ freeFrames b ∨ f ∈ lost ∨ f ∈ V.tables t ∨
    ∃ S q, f ∈ V.reached t₀ t S q

/-- At boot. -/
def bootPlace (V : PageTables) (t : V.Table) (b : BuddyBits) (f : ℕ) : Option Place :=
  if f ∈ freeFrames b then some .free else if f ∈ V.tables t then some .table else none

lemma WellFormed.ledger {V : PageTables} {t : V.Table} {b : BuddyBits} (hw : WellFormed V t b) :
    Ledger V t (freeFrames b) ∅ (bootPlace V t b) t b := by
  refine ⟨hw.apart, .refl, fun f hf => ⟨hf, if_pos hf⟩,
    fun f hf => absurd hf (Finset.notMem_empty f), fun f hf => ?_, fun S q f hf => ?_,
    fun f hf => Or.inl hf⟩
  · have hfree : f ∉ freeFrames b := Finset.disjoint_left.mp hw.tables hf
    rw [bootPlace, if_neg hfree, if_pos hf]
  · rw [reached_self] at hf
    exact absurd hf (Finset.notMem_empty f)

namespace Ledger

variable {V : PageTables} {t₀ t t' : V.Table} {ram lost : Finset ℕ} {place : ℕ → Option Place}
  {b b' : BuddyBits} {f : ℕ}

/-- The ledger knows where a usable frame is. -/
lemma place_eq (h : Ledger V t₀ ram lost place t b) (hf : f ∈ ram) {p : Place}
    (hp : p.Holds V t₀ lost t b f) : place f = some p := by
  cases p with
  | free => exact (h.free f hp).2
  | lost => exact (h.gone f hp).2
  | table => exact h.table f hp
  | page S q => exact h.page S q f hp hf

/-- **A usable frame has one place.** -/
lemma existsUnique (h : Ledger V t₀ ram lost place t b) (hf : f ∈ ram) :
    ∃! p : Place, p.Holds V t₀ lost t b f := by
  obtain ⟨p, hp⟩ : ∃ p : Place, p.Holds V t₀ lost t b f := by
    obtain hfree | hlost | htable | ⟨S, q, hpage⟩ := h.covered f hf
    · exact ⟨.free, hfree⟩
    · exact ⟨.lost, hlost⟩
    · exact ⟨.table, htable⟩
    · exact ⟨.page S q, hpage⟩
  refine ⟨p, hp, fun p' hp' => Option.some.inj ?_⟩
  rw [← h.place_eq hf hp, h.place_eq hf hp']

/-- A frame that is taken was free. -/
lemma notMem_taken (h : Ledger V t₀ ram lost place t b) {taken : Finset ℕ} (hT : Takes b taken b')
    {p : Place} (hf : place f = some p) (hp : p ≠ .free) : f ∉ taken := by
  intro hin
  exact hp (Option.some.inj (hf.symm.trans (h.free f (hT.subset hin)).2))

/-- **Frames are picked**: until they are mapped they belong to nobody. -/
lemma pick (h : Ledger V t₀ ram lost place t b) {taken : Finset ℕ} (hT : Takes b taken b') :
    Ledger V t₀ ram (lost ∪ taken) (fun f => if f ∈ taken then some .lost else place f) t b' := by
  have hkept : ∀ {p : Place}, p ≠ .free → ∀ f, place f = some p →
      (if f ∈ taken then some Place.lost else place f) = some p := fun hp f hf =>
    (if_neg (h.notMem_taken hT hf hp)).trans hf
  refine ⟨hT.apart, h.keeps, fun f hf => ?_, fun f hf => ?_,
    fun f hf => hkept (by simp) f (h.table f hf),
    fun S q f hf hram => hkept (by simp) f (h.page S q f hf hram), fun f hf => ?_⟩
  · rw [hT.free_eq, Finset.mem_sdiff] at hf
    exact ⟨(h.free f hf.1).1, (if_neg hf.2).trans (h.free f hf.1).2⟩
  · cases Finset.mem_union.mp hf with
    | inl hlost => exact ⟨(h.gone f hlost).1, hkept (by simp) f (h.gone f hlost).2⟩
    | inr hin => exact ⟨(h.free f (hT.subset hin)).1, if_pos hin⟩
  · obtain hfree | hlost | htable | hpage := h.covered f hf
    · by_cases hin : f ∈ taken
      · exact Or.inr (Or.inl (Finset.mem_union_right _ hin))
      · exact Or.inl (by rw [hT.free_eq]; exact Finset.mem_sdiff.mpr ⟨hfree, hin⟩)
    · exact Or.inr (Or.inl (Finset.mem_union_left _ hlost))
    · exact Or.inr (Or.inr (Or.inl htable))
    · exact Or.inr (Or.inr (Or.inr hpage))

/-- The places after a call of `map_to` that has taken frames for tables and has put `behind`
behind its page. -/
def placeAfter (place : ℕ → Option Place) (taken behind : Finset ℕ) (S : PageSize) (page f : ℕ) :
    Option Place :=
  if f ∈ taken then some .table else if f ∈ behind then some (.page S page) else place f

section MapTo

variable {S : PageSize} {page frame : ℕ} {flags : PageTableFlags} {r : Except MapToError Unit}

/-- The frames that a call puts behind its page, within reach of an access. -/
def shown (S : PageSize) (frame : ℕ) (flags : PageTableFlags) : Except MapToError Unit → Finset ℕ
  | .ok () => if flags.getLsbD 0 then handedOut (some (frame, S.unit)) else ∅
  | .error _ => ∅

lemma mem_shown : f ∈ shown S frame flags r ↔
    (r = .ok () ∧ flags.getLsbD 0 = true) ∧ f ∈ handedOut (some (frame, S.unit)) := by
  cases r with
  | error e => simp [shown]
  | ok u =>
      rw [shown]
      split_ifs with hpresent
      · exact ⟨fun hf => ⟨⟨rfl, hpresent⟩, hf⟩, And.right⟩
      · exact ⟨fun hf => absurd hf (Finset.notMem_empty f), fun hf => absurd hf.1.2 hpresent⟩

/-- The leaves of the other pages. -/
lemma leaf_other (hM : MapTo V t b S page frame flags r t' b') {S' : PageSize} {q : ℕ}
    (hne : ¬ (r = .ok () ∧ S' = S ∧ q = page)) : V.leaf t' S' q = V.leaf t S' q := by
  by_cases hr : r = .ok ()
  · exact hM.leaf_of_ne fun heq => hne ⟨hr, heq⟩
  · rw [hM.leaf_error hr]

/-- A call that succeeds finds the page not mapped. -/
lemma leaf_eq_none (hM : MapTo V t b S page frame flags r t' b')
    (hblocked : V.leaf t S page ≠ none → V.Blocked t S page) (hr : r = .ok ()) :
    V.leaf t S page = none := by
  by_contra hne
  exact (hM.ok_iff.mp hr).1 (hblocked hne)

/-- **No call of `map_to` changes a mapping.** -/
lemma keeps_mapTo (hM : MapTo V t b S page frame flags r t' b')
    (hblocked : V.leaf t S page ≠ none → V.Blocked t S page) : V.Keeps t t' := by
  intro S' q x hx
  rw [leaf_other hM, hx]
  rintro ⟨hr, rfl, rfl⟩
  cases hx.symm.trans (leaf_eq_none hM hblocked hr)

/-- **A call of `map_to`.**  The usable frames that an access will reach have been picked before; a
frame of a device is not usable, and a guard page is not accessible. -/
lemma mapTo (h : Ledger V t₀ ram lost place t b) (hM : MapTo V t b S page frame flags r t' b')
    (hblocked : V.leaf t S page ≠ none → V.Blocked t S page)
    (hlost : ∀ f ∈ shown S frame flags r, f ∈ ram → f ∈ lost) :
    ∃ place', Ledger V t₀ ram (lost \ shown S frame flags r) place' t' b' := by
  obtain ⟨taken, hT, htables, -⟩ := hM.takes
  have hkeeps := keeps_mapTo hM hblocked
  have hbehind : ∀ f ∈ shown S frame flags r ∩ ram, place f = some .lost := fun f hf => by
    obtain ⟨hshown, hram⟩ := Finset.mem_inter.mp hf
    exact (h.gone f (hlost f hshown hram)).2
  -- a frame that is not put behind the page keeps its place, unless it was free
  have hkept : ∀ {p : Place}, p ≠ .free → ∀ f, f ∉ shown S frame flags r ∩ ram →
      place f = some p →
      placeAfter place taken (shown S frame flags r ∩ ram) S page f = some p :=
    fun hp f hout hf => by
      rw [placeAfter, if_neg (h.notMem_taken hT hf hp), if_neg hout, hf]
  have hout : ∀ {p : Place}, p ≠ .lost → ∀ f, place f = some p →
      f ∉ shown S frame flags r ∩ ram :=
    fun hp f hf hin => hp (Option.some.inj (hf.symm.trans (hbehind f hin)))
  refine ⟨placeAfter place taken (shown S frame flags r ∩ ram) S page, hT.apart,
    h.keeps.trans hkeeps, fun f hf => ?_, fun f hf => ?_, fun f hf => ?_,
    fun S' q f hf hram => ?_, fun f hf => ?_⟩
  · rw [hT.free_eq, Finset.mem_sdiff] at hf
    obtain ⟨hram, hfree⟩ := h.free f hf.1
    exact ⟨hram, by rw [placeAfter, if_neg hf.2, if_neg (hout (by simp) f hfree), hfree]⟩
  · obtain ⟨hold, hnot⟩ := Finset.mem_sdiff.mp hf
    obtain ⟨hram, hplace⟩ := h.gone f hold
    exact ⟨hram, hkept (by simp) f (fun hin => hnot (Finset.mem_inter.mp hin).1) hplace⟩
  · rw [htables, Finset.mem_union] at hf
    by_cases hin : f ∈ taken
    · exact if_pos hin
    · have hplace := h.table f (hf.resolve_right hin)
      exact hkept (by simp) f (hout (by simp) f hplace) hplace
  · by_cases heq : r = .ok () ∧ S' = S ∧ q = page
    · obtain ⟨hr, rfl, rfl⟩ := heq
      have hleaf : V.leaf t' S' q = some (frame, flags) := by
        rw [hM.leaf_ok hr, if_pos ⟨rfl, rfl⟩]
      obtain ⟨hpresent, hunit⟩ := mem_reached hleaf hf
      have hin : f ∈ shown S' frame flags r ∩ ram :=
        Finset.mem_inter.mpr ⟨mem_shown.mpr ⟨⟨hr, hpresent⟩, hunit⟩, hram⟩
      rw [placeAfter, if_neg (h.notMem_taken hT (hbehind f hin) (by simp)), if_pos hin]
    · rw [reached_congr (leaf_other hM heq)] at hf
      have hplace := h.page S' q f hf hram
      exact hkept (by simp) f (hout (by simp) f hplace) hplace
  · obtain hfree | hlost₀ | htable | ⟨S', q, hpage⟩ := h.covered f hf
    · by_cases hin : f ∈ taken
      · exact Or.inr (Or.inr (Or.inl (by rw [htables]; exact Finset.mem_union_right _ hin)))
      · exact Or.inl (by rw [hT.free_eq]; exact Finset.mem_sdiff.mpr ⟨hfree, hin⟩)
    · by_cases hin : f ∈ shown S frame flags r
      · obtain ⟨⟨hr, hpresent⟩, hunit⟩ := mem_shown.mp hin
        have hleaf : V.leaf t' S page = some (frame, flags) := by
          rw [hM.leaf_ok hr, if_pos ⟨rfl, rfl⟩]
        have hboot : V.leaf t₀ S page = none := by
          by_contra hne
          obtain ⟨x, hx⟩ := Option.ne_none_iff_exists'.mp hne
          cases (leaf_eq_none hM hblocked hr).symm.trans (h.keeps S page x hx)
        exact Or.inr (Or.inr (Or.inr ⟨S, page, by rwa [reached_eq hboot hleaf hpresent]⟩))
      · exact Or.inr (Or.inl (Finset.mem_sdiff.mpr ⟨hlost₀, hin⟩))
    · exact Or.inr (Or.inr (Or.inl (by rw [htables]; exact Finset.mem_union_left _ htable)))
    · refine Or.inr (Or.inr (Or.inr ⟨S', q, ?_⟩))
      rwa [reached_congr (leaf_other hM fun heq => ?_)]
      obtain ⟨hr, rfl, rfl⟩ := heq
      rw [reached_of_none (leaf_eq_none hM hblocked hr)] at hpage
      exact Finset.notMem_empty f hpage

/-- A page that is not accessible, or that shows no usable memory. -/
lemma mapTo_device (h : Ledger V t₀ ram lost place t b)
    (hM : MapTo V t b S page frame flags r t' b')
    (hblocked : V.leaf t S page ≠ none → V.Blocked t S page)
    (hdev : flags.getLsbD 0 = false ∨ Disjoint (handedOut (some (frame, S.unit))) ram) :
    ∃ place', Ledger V t₀ ram lost place' t' b' := by
  have hnone : Disjoint (shown S frame flags r) ram := by
    refine Finset.disjoint_left.mpr fun f hf hram => ?_
    obtain ⟨⟨-, hpresent⟩, hunit⟩ := mem_shown.mp hf
    cases hdev with
    | inl hguard => cases hpresent.symm.trans hguard
    | inr hdis => exact Finset.disjoint_left.mp hdis hunit hram
  have hkeep : lost \ shown S frame flags r = lost :=
    Finset.sdiff_eq_self_of_disjoint (hnone.mono_right fun f hf => (h.gone f hf).1).symm
  obtain ⟨place', h'⟩ := h.mapTo hM hblocked fun f hf hram =>
    absurd hram (Finset.disjoint_left.mp hnone hf)
  exact ⟨place', hkeep ▸ h'⟩

end MapTo

/-! ### `page_region` -/

/-- The frames of the `i`-th page of a pick. -/
def unitFrames (S : PageSize) (a i : ℕ) : Finset ℕ :=
  Finset.Ico (a + i * S.unit) (a + i * S.unit + S.unit)

lemma handedOut_unit (S : PageSize) (a i : ℕ) :
    handedOut (some (a * pageSize + i * S.size, S.unit)) = unitFrames S a i := by
  have haddr : a * pageSize + i * S.size = (a + i * S.unit) * pageSize := by
    rw [PageSize.size]
    ring
  rw [haddr, handedOut, Nat.mul_div_cancel _ (by norm_num [pageSize]), unitFrames]

/-- The frames from the `i`-th page of a pick on. -/
def restFrames (S : PageSize) (a i k : ℕ) : Finset ℕ :=
  Finset.Ico (a + i * S.unit) (a + (i + k) * S.unit)

lemma restFrames_succ (S : PageSize) (a i k : ℕ) :
    restFrames S a i (k + 1) = unitFrames S a i ∪ restFrames S a (i + 1) k := by
  have hle : (i + 1) * S.unit ≤ (i + 1 + k) * S.unit := Nat.mul_le_mul_right _ (by omega)
  rw [restFrames, unitFrames, restFrames, show i + (k + 1) = i + 1 + k by omega]
  rw [Nat.succ_mul] at *
  rw [← Nat.add_assoc, Finset.Ico_union_Ico_eq_Ico] <;> omega

lemma disjoint_unitFrames (S : PageSize) (a i k : ℕ) :
    Disjoint (unitFrames S a i) (restFrames S a (i + 1) k) := by
  rw [Finset.disjoint_left, unitFrames, restFrames, Nat.succ_mul]
  intro f hf hf'
  rw [Finset.mem_Ico] at hf hf'
  omega

/-- The frame of a page whose `map_to` failed. -/
def failed (S : PageSize) (frame : ℕ) : Except MapToError Unit → Finset ℕ
  | .ok () => ∅
  | .error _ => handedOut (some (frame, S.unit))

end Ledger

/-- The frames of the pages whose `map_to` fails in `mapPages`. -/
def failedPages (M : Mapper) (S : PageSize) (flags : PageTableFlags) (firstMappedFrame : ℕ) :
    ℕ → ℕ → ℕ → M.Table → BuddyBits → Finset ℕ
  | 0, _, _, _, _ => ∅
  | k + 1, i, currentPage, t, b =>
      match M.mapTo t b S currentPage (firstMappedFrame + i * S.size) flags with
      | none => ∅
      | some (r, t, b) => Ledger.failed S (firstMappedFrame + i * S.size) r ∪
          failedPages M S flags firstMappedFrame k (i + 1) (currentPage + 1) t b

/-- The frames that a call of `page_region` gives up.  It picks all of its frames at once. -/
def failedFrames (M : Mapper) (S : PageSize) (t : M.Table) (b : BuddyBits) (start stop : ℕ)
    (flags : PageTableFlags) : Finset ℕ :=
  match alignUp S stop with
  | none => ∅
  | some stop =>
      match pickOffContiguous b ((stop - alignDown S start) / pageSize) S.unit with
      | some (some (addr, n), b) =>
          failedPages M S flags addr (n / S.unit) 0 (alignDown S start / S.size) t b
      | _ => ∅

namespace Ledger

variable {M : Mapper} {t₀ t t' : M.Table} {ram lost : Finset ℕ} {place : ℕ → Option Place}
  {b b' : BuddyBits} {S : PageSize} {flags : PageTableFlags}

/-- What is lost after the `map_to` of one page: the other pages' frames are still to be mapped. -/
lemma lost_sdiff_shown {unit rest : Finset ℕ} {frame : ℕ} {r : Except MapToError Unit}
    (hpresent : flags.getLsbD 0 = true) (hunit : handedOut (some (frame, S.unit)) = unit)
    (hlost : Disjoint lost (unit ∪ rest)) (hrest : Disjoint unit rest) :
    (lost ∪ (unit ∪ rest)) \ shown S frame flags r = lost ∪ failed S frame r ∪ rest := by
  rw [Finset.disjoint_union_right] at hlost
  cases r with
  | error e => rw [shown, failed, hunit, Finset.sdiff_empty, Finset.union_assoc]
  | ok u =>
      rw [shown, failed, if_pos hpresent, hunit, Finset.union_empty, Finset.union_left_comm,
        Finset.union_sdiff_cancel_left]
      exact Finset.disjoint_union_right.mpr ⟨hlost.1.symm, hrest⟩

/-- **The loop over the pages**, by induction on the pages that are left: their frames are picked
and behind no page. -/
lemma mapPages {a k i page page' : ℕ} (hpresent : flags.getLsbD 0 = true)
    (h : Ledger M.toPageTables t₀ ram (lost ∪ restFrames S a i k) place t b)
    (hlost : Disjoint lost (restFrames S a i k))
    (hret : Titanium.mapPages M S flags (a * pageSize) k i page t b = some (page', t', b')) :
    (∃ place', Ledger M.toPageTables t₀ ram
      (lost ∪ failedPages M S flags (a * pageSize) k i page t b) place' t' b') ∧ M.Keeps t t' := by
  induction k generalizing i page t b place lost with
  | zero =>
      cases hret
      rw [restFrames, Nat.add_zero, Finset.Ico_self] at h
      exact ⟨⟨place, h⟩, .refl⟩
  | succ k ih =>
      simp only [Titanium.mapPages, Option.bind_eq_bind, Option.bind_eq_some_iff] at hret
      obtain ⟨⟨r, t₁, b₁⟩, hmap, next, hnext, hret⟩ := hret
      obtain rfl : page + 1 = next := Option.some.inj (Option.ite_none_right_eq_some.mp hnext).2
      have hM := M.mapTo_spec h.apart hmap
      have hunit := handedOut_unit S a i
      rw [restFrames_succ] at h hlost
      have hshown : ∀ f ∈ shown S (a * pageSize + i * S.size) flags r, f ∈ ram →
          f ∈ lost ∪ (unitFrames S a i ∪ restFrames S a (i + 1) k) := fun f hf _ => by
        have hin := hunit ▸ (mem_shown.mp hf).2
        exact Finset.mem_union_right _ (Finset.mem_union_left _ hin)
      obtain ⟨place₁, h₁⟩ := h.mapTo hM M.blocked_of_leaf hshown
      rw [lost_sdiff_shown hpresent hunit hlost (disjoint_unitFrames S a i k)] at h₁
      have hrest : Disjoint (lost ∪ failed S (a * pageSize + i * S.size) r)
          (restFrames S a (i + 1) k) := by
        rw [Finset.disjoint_union_right] at hlost
        refine Finset.disjoint_union_left.mpr ⟨hlost.2, ?_⟩
        cases r with
        | ok u => exact Finset.disjoint_empty_left _
        | error e =>
            rw [failed, hunit]
            exact disjoint_unitFrames S a i k
      obtain ⟨hL, hkeeps⟩ := ih h₁ hrest hret
      rw [failedPages, hmap, ← Finset.union_assoc]
      exact ⟨hL, (keeps_mapTo hM M.blocked_of_leaf).trans hkeeps⟩

/-- **A call of `page_region`**, whatever it returns. -/
lemma pageRegion {start stop : ℕ} {r : Except Unit Unit} (hpresent : flags.getLsbD 0 = true)
    (h : Ledger M.toPageTables t₀ ram lost place t b)
    (hret : Titanium.pageRegion M S t b start stop flags = some (r, t', b')) :
    (∃ place', Ledger M.toPageTables t₀ ram (lost ∪ failedFrames M S t b start stop flags)
      place' t' b') ∧ M.Keeps t t' := by
  simp only [Titanium.pageRegion, pageRegionLoop, Option.bind_eq_bind, Option.bind_eq_some_iff]
    at hret
  obtain ⟨stop', hstop, len, hlen, ⟨found, b₁⟩, hpick, hret⟩ := hret
  obtain ⟨hle, hlen⟩ := Option.ite_none_right_eq_some.mp hlen
  cases hlen
  obtain ⟨hmul, -⟩ := region_units (dvd_alignDown S start) (dvd_alignUp hstop) hle
  cases found with
  | none =>
      cases hret
      obtain ⟨rfl, -⟩ := pickOffContiguous_none h.apart S.unit_le hpick
      simp only [failedFrames, hstop, hpick, Finset.union_empty]
      exact ⟨⟨place, h⟩, .refl⟩
  | some found =>
      obtain ⟨addr, n⟩ := found
      obtain ⟨rfl, a, rfl, hT⟩ := pickOffContiguous_some h.apart S.unit_le hpick
      simp only [checkedSub, le_refl, if_true, Nat.sub_self, Option.bind_eq_some_iff,
        Option.some.injEq, exists_eq_left'] at hret
      obtain ⟨⟨page', t₁, b₂⟩, hmap, hret⟩ := hret
      cases hret
      have htaken : Finset.Ico a (a + (stop' - alignDown S start) / pageSize) =
          restFrames S a 0 ((stop' - alignDown S start) / pageSize / S.unit) := by
        rw [restFrames, Nat.zero_mul, Nat.zero_add, Nat.add_zero, ← hmul]
      have hdis : Disjoint lost (restFrames S a 0
          ((stop' - alignDown S start) / pageSize / S.unit)) := by
        rw [← htaken]
        exact Finset.disjoint_left.mpr fun f hf =>
          h.notMem_taken hT (h.gone f hf).2 (by simp)
      simp only [failedFrames, hstop, hpick]
      exact mapPages hpresent (htaken ▸ h.pick hT) hdis hmap

end Ledger

end Titanium
