import Titanium.Paging.FourLevel
import Titanium.Vmem

/-!
`MapperAllocator::page_region` (`paging/mapall.rs`).

The function picks the frames for a whole region in one piece and then calls
`map_to` page by page, on the same allocator and without looking at the result.

* `pageRegion_ok`: when it returns `Ok` it has picked all frames of the region
  in its first turn, and has called `map_to` once for every page.
* `Maps`: what these calls amount to.  A page whose call fails keeps what it
  had; all calls succeed exactly when there is `Room` for the region.
* `page_region_backed_iff`: `Ok` means that the region is backed by frames of
  this call exactly when there was room for it.
-/

namespace Titanium

/-! ### Alignment -/

/-- `VirtAddr::align_down`. -/
def alignDown (S : PageSize) (addr : ℕ) : ℕ := newTruncate (addr / S.size * S.size)

/-- `VirtAddr::align_up`, which panics past the last address. -/
def alignUp (S : PageSize) (addr : ℕ) : Option ℕ :=
  if addr % S.size = 0 then some (newTruncate addr)
  else if (addr / S.size + 1) * S.size < 2 ^ 64 then
    some (newTruncate ((addr / S.size + 1) * S.size))
  else none

/-- `page + n`, which panics when the start address is not canonical. -/
def pageAdd (S : PageSize) (page n : ℕ) : Option ℕ :=
  if Canonical ((page + n) * S.size) then some (page + n) else none

lemma dvd_newTruncate (S : PageSize) {addr : ℕ} (h : S.size ∣ addr) :
    S.size ∣ newTruncate addr := by
  have h48 : S.size ∣ 2 ^ 48 := by
    cases S <;> norm_num [PageSize.size, PageSize.unit, pageSize]
  have h64 : S.size ∣ 2 ^ 64 - 2 ^ 48 := by
    cases S <;> norm_num [PageSize.size, PageSize.unit, pageSize]
  have hmod : S.size ∣ addr % 2 ^ 48 := (Nat.dvd_mod_iff h48).mpr h
  unfold newTruncate
  split
  · exact hmod
  · exact Nat.dvd_add hmod h64

lemma alignDown_of_dvd {S : PageSize} {addr : ℕ} (hdvd : S.size ∣ addr) (hcan : Canonical addr) :
    alignDown S addr = addr := by
  rw [alignDown, Nat.div_mul_cancel hdvd, newTruncate_of_canonical hcan]

lemma alignUp_of_dvd {S : PageSize} {addr : ℕ} (hdvd : S.size ∣ addr) (hcan : Canonical addr) :
    alignUp S addr = some addr := by
  rw [alignUp, if_pos (Nat.mod_eq_zero_of_dvd hdvd), newTruncate_of_canonical hcan]

lemma dvd_alignDown (S : PageSize) (addr : ℕ) : S.size ∣ alignDown S addr :=
  dvd_newTruncate S (dvd_mul_left _ _)

lemma dvd_alignUp {S : PageSize} {addr stop : ℕ} (h : alignUp S addr = some stop) :
    S.size ∣ stop := by
  unfold alignUp at h
  split at h
  case isTrue hmod =>
    cases h
    exact dvd_newTruncate S (Nat.dvd_of_mod_eq_zero hmod)
  case isFalse =>
    split at h
    · cases h
      exact dvd_newTruncate S (dvd_mul_left _ _)
    · cases h

/-! ### `page_region` -/

/-- The loop over the pages of one pick: `k` pages to go, the next one is the
`i`-th. -/
def mapPages (M : Mapper) (S : PageSize) (flags : PageTableFlags) (firstMappedFrame : ℕ) :
    ℕ → ℕ → ℕ → M.Table → BuddyBits → Option (ℕ × M.Table × BuddyBits)
  | 0, _, currentPage, t, b => some (currentPage, t, b)
  | k + 1, i, currentPage, t, b => do
      -- the result of `map_to` is dropped
      let (_, t, b) ← M.mapTo t b S currentPage (firstMappedFrame + i * S.size) flags
      let currentPage ← pageAdd S currentPage 1
      mapPages M S flags firstMappedFrame k (i + 1) currentPage t b

/-- The loop over the picks; `fuel` bounds its turns. -/
def pageRegionLoop (M : Mapper) (S : PageSize) (flags : PageTableFlags) :
    ℕ → ℕ → ℕ → M.Table → BuddyBits → Option (Except Unit Unit × M.Table × BuddyBits)
  | 0, _, _, _, _ => none
  | fuel + 1, remainingFrames, currentPage, t, b => do
      match ← pickOffContiguous b remainingFrames S.unit with
      | (none, b) => return (.error (), t, b)
      | (some (addr, nMinimalMapped), b) =>
          let nMapped := nMinimalMapped / S.unit
          let remainingFrames ← checkedSub remainingFrames nMinimalMapped
          let (currentPage, t, b) ← mapPages M S flags addr nMapped 0 currentPage t b
          if remainingFrames = 0 then return (.ok (), t, b)
          else pageRegionLoop M S flags fuel remainingFrames currentPage t b

/-- `page_region`.  Every turn that does not end the loop maps a frame, so
`n_underlying_frames + 1` turns are enough. -/
def pageRegion (M : Mapper) (S : PageSize) (t : M.Table) (b : BuddyBits) (start stop : ℕ)
    (flags : PageTableFlags) : Option (Except Unit Unit × M.Table × BuddyBits) := do
  let start := alignDown S start
  let stop ← alignUp S stop
  let nUnderlyingFrames := (← checkedSub stop start) / pageSize
  pageRegionLoop M S flags (nUnderlyingFrames + 1) nUnderlyingFrames (start / S.size) t b

/-- The pages of the region `[align_down(start), align_up(end))`. -/
def regionPages (S : PageSize) (start stop : ℕ) : Finset ℕ :=
  match alignUp S stop with
  | none => ∅
  | some stop => Finset.Ico (alignDown S start / S.size) (stop / S.size)

lemma regionPages_eq (S : PageSize) (start stop : ℕ) :
    regionPages S start stop = Finset.Ico (alignDown S start / S.size)
      (alignDown S start / S.size + (regionPages S start stop).card) := by
  unfold regionPages
  split
  · simp
  · rw [Nat.card_Ico]
    ext q
    simp only [Finset.mem_Ico]
    omega

/-- The pages of an aligned region. -/
lemma regionPages_of_dvd {S : PageSize} {start stop : ℕ} (hstart : S.size ∣ start)
    (hstop : S.size ∣ stop) (hcan : Canonical start) (hcan' : Canonical stop) :
    regionPages S start stop = Finset.Ico (start / S.size) (stop / S.size) := by
  rw [regionPages, alignUp_of_dvd hstop hcan', alignDown_of_dvd hstart hcan]

/-! ### The calls of `map_to` -/

/-- What the calls for `pages` amount to, when `frameOf` gives the frames. -/
structure Maps (V : PageTables) (S : PageSize) (flags : PageTableFlags) (frameOf : ℕ → ℕ)
    (pages : Finset ℕ) (t : V.Table) (b : BuddyBits) (t' : V.Table) (b' : BuddyBits) : Prop where
  takes : ∃ taken, Takes b taken b' ∧ V.tables t' = V.tables t ∪ taken
  leaf_cases : ∀ S' q, V.leaf t' S' q = V.leaf t S' q ∨
    S' = S ∧ q ∈ pages ∧ V.leaf t' S' q = some (frameOf q, flags)
  mapped_of_room : Room V S t pages (freeFrames b).card →
    ∀ q ∈ pages, V.leaf t' S q = some (frameOf q, flags)
  room_of_changed : (∀ q ∈ pages, V.leaf t' S q ≠ V.leaf t S q) →
    Room V S t pages (freeFrames b).card
  blocked : ∀ q, V.Blocked t' S q → V.Blocked t S q ∨ q ∈ pages
  missing_subset : ∀ q, V.missing t' S q ⊆ V.missing t S q

namespace Maps

variable {V : PageTables} {S : PageSize} {flags : PageTableFlags} {frameOf : ℕ → ℕ}
  {pages : Finset ℕ} {t t₁ t' : V.Table} {b b₁ b' : BuddyBits}

lemma refl (hA : Apart (chunks b)) : Maps V S flags frameOf ∅ t b t b :=
  ⟨⟨∅, Takes.refl hA, (Finset.union_empty _).symm⟩, fun _ _ => Or.inl rfl,
    fun _ q hq => absurd hq (Finset.notMem_empty q),
    fun _ => ⟨fun q hq => absurd hq (Finset.notMem_empty q), by simp⟩,
    fun _ hq => Or.inl hq, fun _ => Finset.Subset.rfl⟩

/-- A page that is not among `pages` keeps its mapping. -/
lemma leaf_of_notMem (h : Maps V S flags frameOf pages t b t' b') {S' : PageSize} {q : ℕ}
    (hq : S' ≠ S ∨ q ∉ pages) : V.leaf t' S' q = V.leaf t S' q := by
  cases h.leaf_cases S' q with
  | inl heq => exact heq
  | inr hnew =>
      cases hq with
      | inl hS => exact absurd hnew.1 hS
      | inr hmem => exact absurd hnew.2.1 hmem

lemma wellFormed (h : Maps V S flags frameOf pages t b t' b') (hw : WellFormed V t b) :
    WellFormed V t' b' := by
  obtain ⟨taken, hT, htab⟩ := h.takes
  exact hw.take hT Finset.Subset.rfl htab

/-- One call, and then the others. -/
lemma cons {page : ℕ} {r : Except MapToError Unit} (hpage : page ∉ pages)
    (h₁ : MapTo V t b S page (frameOf page) flags r t₁ b₁)
    (h : Maps V S flags frameOf pages t₁ b₁ t' b') :
    Maps V S flags frameOf (insert page pages) t b t' b' := by
  obtain ⟨x, hx, htab₁, -⟩ := h₁.takes
  obtain ⟨y, hy, htab⟩ := h.takes
  have hkeep : V.leaf t' S page = V.leaf t₁ S page := h.leaf_of_notMem (Or.inr hpage)
  have hother : ∀ q ∈ pages, V.leaf t₁ S q = V.leaf t S q := fun q hq =>
    h₁.leaf_of_ne fun heq => hpage (heq.2 ▸ hq)
  refine ⟨⟨x ∪ y, hx.trans hy, by rw [htab, htab₁, Finset.union_assoc]⟩, fun S' q => ?_,
    fun hR q hq => ?_, fun hch => ?_, fun q hq => ?_, fun q => ?_⟩
  · cases h.leaf_cases S' q with
    | inr hnew => exact Or.inr ⟨hnew.1, Finset.mem_insert_of_mem hnew.2.1, hnew.2.2⟩
    | inl heq =>
        by_cases hr : r = .ok () ∧ S' = S ∧ q = page
        · obtain ⟨hr, rfl, rfl⟩ := hr
          refine Or.inr ⟨rfl, Finset.mem_insert_self _ _, ?_⟩
          rw [heq, h₁.leaf_ok hr, if_pos ⟨rfl, rfl⟩]
        · refine Or.inl (heq.trans ?_)
          by_cases hr' : r = .ok ()
          · exact h₁.leaf_of_ne fun heq => hr ⟨hr', heq⟩
          · rw [h₁.leaf_error hr']
  · have hr : r = .ok () := hR.ok (Finset.mem_insert_self _ _) h₁
    subst hr
    cases Finset.mem_insert.mp hq with
    | inl heq =>
        rw [heq, hkeep, h₁.leaf_ok rfl, if_pos ⟨rfl, rfl⟩]
    | inr hmem => exact h.mapped_of_room ((h₁.room_insert hpage).mp hR) q hmem
  · have hr : r = .ok () := by
      by_contra hr
      refine hch page (Finset.mem_insert_self _ _) ?_
      rw [hkeep, h₁.leaf_error hr]
    subst hr
    refine (h₁.room_insert hpage).mpr (h.room_of_changed fun q hq => ?_)
    rw [hother q hq]
    exact hch q (Finset.mem_insert_of_mem hq)
  · cases h.blocked q hq with
    | inr hmem => exact Or.inr (Finset.mem_insert_of_mem hmem)
    | inl hbl =>
        cases (h₁.blocked_iff q).mp hbl with
        | inl hold => exact Or.inl hold
        | inr hnew => exact Or.inr (hnew.2 ▸ Finset.mem_insert_self _ _)
  · exact (h.missing_subset q).trans (h₁.missing_subset q)

end Maps

/-- Whatever the calls did, nothing outside `pages` was touched and no frame
was freed. -/
structure Grows (V : PageTables) (S : PageSize) (pages : Finset ℕ) (t : V.Table) (b : BuddyBits)
    (t' : V.Table) (b' : BuddyBits) : Prop where
  wellFormed : WellFormed V t b → WellFormed V t' b'
  leaf_eq : ∀ q ∉ pages, V.leaf t' S q = V.leaf t S q
  blocked : ∀ q, V.Blocked t' S q → V.Blocked t S q ∨ q ∈ pages
  free_subset : freeFrames b' ⊆ freeFrames b

lemma MapTo.grows {V : PageTables} {S : PageSize} {t t' : V.Table} {b b' : BuddyBits}
    {page frame : ℕ} {flags : PageTableFlags} {r : Except MapToError Unit}
    (h : MapTo V t b S page frame flags r t' b') : Grows V S {page} t b t' b' := by
  obtain ⟨taken, hT, -⟩ := h.takes
  refine ⟨h.wellFormed, fun q hq => h.leaf_of_ne fun heq => hq (Finset.mem_singleton.mpr heq.2),
    fun q hq => ?_, hT.free_eq ▸ Finset.sdiff_subset⟩
  exact ((h.blocked_iff q).mp hq).imp_right fun hnew => Finset.mem_singleton.mpr hnew.2

lemma Maps.grows {V : PageTables} {S : PageSize} {t t' : V.Table} {b b' : BuddyBits}
    {flags : PageTableFlags} {frameOf : ℕ → ℕ} {pages : Finset ℕ}
    (h : Maps V S flags frameOf pages t b t' b') : Grows V S pages t b t' b' := by
  obtain ⟨taken, hT, -⟩ := h.takes
  exact ⟨h.wellFormed, fun q hq => h.leaf_of_notMem (Or.inr hq), h.blocked,
    hT.free_eq ▸ Finset.sdiff_subset⟩

namespace Grows

variable {V : PageTables} {S : PageSize} {t t₁ t' : V.Table} {b b₁ b' : BuddyBits}
  {pages pages' : Finset ℕ}

lemma refl : Grows V S pages t b t b :=
  ⟨id, fun _ _ => rfl, fun _ => Or.inl, Finset.Subset.rfl⟩

lemma trans (h : Grows V S pages t b t₁ b₁) (h' : Grows V S pages' t₁ b₁ t' b') :
    Grows V S (pages ∪ pages') t b t' b' := by
  refine ⟨h'.wellFormed ∘ h.wellFormed, fun q hq => ?_, fun q hq => ?_,
    h'.free_subset.trans h.free_subset⟩
  · rw [Finset.mem_union, not_or] at hq
    rw [h'.leaf_eq q hq.2, h.leaf_eq q hq.1]
  · cases h'.blocked q hq with
    | inl hbl => exact (h.blocked q hbl).imp_right (Finset.mem_union_left _)
    | inr hmem => exact Or.inr (Finset.mem_union_right _ hmem)

/-- Taking frames beforehand. -/
lemma after_takes {taken : Finset ℕ} (hT : Takes b taken b₁) (h : Grows V S pages t b₁ t' b') :
    Grows V S pages t b t' b' :=
  ⟨fun hw => h.wellFormed ⟨hT.apart, hw.tables.mono_right (hT.free_eq ▸ Finset.sdiff_subset)⟩,
    h.leaf_eq, h.blocked, h.free_subset.trans (hT.free_eq ▸ Finset.sdiff_subset)⟩

end Grows

/-- The `k` pages from `page` on are `page` and the `k - 1` pages after it. -/
lemma Ico_add_succ (page k : ℕ) :
    Finset.Ico page (page + (k + 1)) = insert page (Finset.Ico (page + 1) (page + 1 + k)) := by
  ext q
  simp only [Finset.mem_Ico, Finset.mem_insert]
  omega

/-- **The loop over the pages.** -/
lemma mapPages_spec (M : Mapper) (S : PageSize) (flags : PageTableFlags) (frame first : ℕ)
    {k i page page' : ℕ} {t t' : M.Table} {b b' : BuddyBits} (hA : Apart (chunks b))
    (hpage : page = first + i)
    (h : mapPages M S flags frame k i page t b = some (page', t', b')) :
    page' = page + k ∧ Maps M.toPageTables S flags (fun q => frame + (q - first) * S.size)
      (Finset.Ico page (page + k)) t b t' b' := by
  induction k generalizing i page t b with
  | zero =>
      cases h
      rw [Nat.add_zero, Finset.Ico_self]
      exact ⟨rfl, Maps.refl hA⟩
  | succ k ih =>
      simp only [mapPages, Option.bind_eq_bind, Option.bind_eq_some_iff] at h
      obtain ⟨⟨r, t₁, b₁⟩, hmap, next, hnext, h⟩ := h
      have hM := M.mapTo_spec hA hmap
      obtain ⟨x, hx, -⟩ := hM.takes
      obtain rfl : page + 1 = next := (Option.ite_none_right_eq_some.mp hnext).2 |> Option.some.inj
      obtain ⟨hp, hrest⟩ := ih hx.apart (show page + 1 = first + (i + 1) by omega) h
      have hi : page - first = i := by omega
      refine ⟨by omega, ?_⟩
      rw [Ico_add_succ]
      exact Maps.cons (by simp) (by simpa only [hi] using hM) hrest

/-- The calls for these pages do not panic: the tables that they make are present, or they make
none. -/
structure Mappable (V : PageTables) (S : PageSize) (flags : PageTableFlags) (t : V.Table)
    (pages : Finset ℕ) : Prop where
  huge : flags &&& PageTableFlags.hugePage = 0
  present : flags &&& PageTableFlags.present ≠ 0 ∨ ∀ q ∈ pages, V.missing t S q = ∅

/-- Later calls make no more tables than earlier ones. -/
lemma Mappable.of_mapTo {V : PageTables} {S : PageSize} {flags : PageTableFlags} {t t' : V.Table}
    {b b' : BuddyBits} {page frame : ℕ} {r : Except MapToError Unit} {pages pages' : Finset ℕ}
    (h : Mappable V S flags t pages) (hM : MapTo V t b S page frame flags r t' b')
    (hsub : pages' ⊆ pages) : Mappable V S flags t' pages' := by
  refine ⟨h.huge, h.present.imp_right fun hall q hq => ?_⟩
  have hmissing := hM.missing_subset q
  rw [hall q (hsub hq)] at hmissing
  exact Finset.subset_empty.mp hmissing

/-- The loop returns when the calls do and the pages have canonical addresses. -/
lemma mapPages_returns (M : Mapper) (S : PageSize) (flags : PageTableFlags) (frame : ℕ)
    {k i page : ℕ} {t : M.Table} {b : BuddyBits} (hA : Apart (chunks b))
    (hmappable : Mappable M.toPageTables S flags t (Finset.Ico page (page + k)))
    (hcan : ∀ j < k, Canonical ((page + j + 1) * S.size)) :
    ∃ page' t' b', mapPages M S flags frame k i page t b = some (page', t', b') := by
  induction k generalizing i page t b with
  | zero => exact ⟨page, t, b, rfl⟩
  | succ k ih =>
      rw [Ico_add_succ] at hmappable
      obtain ⟨r, t₁, b₁, hmap⟩ := M.mapTo_returns (frame + i * S.size) hA hmappable.huge
        (hmappable.present.imp_right fun hall => hall page (Finset.mem_insert_self _ _))
      have hM := M.mapTo_spec hA hmap
      obtain ⟨x, hx, -⟩ := hM.takes
      rw [mapPages, hmap, Option.bind_eq_bind, Option.bind_some, pageAdd,
        if_pos (by simpa using hcan 0 (Nat.succ_pos k))]
      refine ih hx.apart (hmappable.of_mapTo hM (Finset.subset_insert _ _)) fun j hj => ?_
      have := hcan (j + 1) (by omega)
      rwa [show page + (j + 1) + 1 = page + 1 + j + 1 by omega] at this

/-! ### The picks -/

/-- Above `2^16` frames no pick succeeds: the table of level offsets has no
such level. -/
lemma pickOffContiguous_large (b : BuddyBits) {n m : ℕ} (hn : 2 ^ 16 < n) (hm : m ≤ 2 ^ 63) :
    pickOffContiguous b n m = none ∨
      Nat.clog 2 n < Nat.clog 2 m ∧ pickOffContiguous b n m = some (none, b) := by
  rw [pickOffContiguous, nextPowerOfTwo]
  split
  case isFalse => exact Or.inl rfl
  case isTrue hn63 =>
    have ht : 16 < Nat.clog 2 n := (Nat.lt_clog_iff_pow_lt (by norm_num)).mpr hn
    have ht63 : Nat.clog 2 n ≤ 63 := Nat.clog_le_of_le_pow hn63
    have hm63 : Nat.clog 2 m ≤ 63 := Nat.clog_le_of_le_pow hm
    have hal : allocateChunkFromLevel b (Nat.clog 2 n) = none := by
      rw [allocateChunkFromLevel, levelOffsets, if_neg (by rw [buddyLevels]; omega)]
      rfl
    simp only [Option.bind_eq_bind, Option.bind_some, nextPowerOfTwo, if_pos hm,
      lowestOne_two_pow (show Nat.clog 2 n < 64 by omega),
      lowestOne_two_pow (show Nat.clog 2 m < 64 by omega)]
    cases Nat.lt_or_ge (Nat.clog 2 n) (Nat.clog 2 m) with
    | inl hlt =>
        refine Or.inr ⟨hlt, ?_⟩
        rw [show Nat.clog 2 n + 1 - Nat.clog 2 m = 0 by omega]
        rfl
    | inr hge =>
        rw [levels_reverse hge, firstFit, hal]
        exact Or.inl rfl

/-- A pick succeeds for at most `2^16` frames. -/
lemma pickOffContiguous_le {b b' : BuddyBits} {n m : ℕ} {found : ℕ × ℕ} (hm : m ≤ 2 ^ 63)
    (h : pickOffContiguous b n m = some (some found, b')) : n ≤ 2 ^ 16 := by
  by_contra hn
  have hlarge := pickOffContiguous_large b (not_le.mp hn) hm
  simp [h] at hlarge

/-- **A pick that succeeds** takes all frames it was asked for. -/
lemma pickOffContiguous_some {b b' : BuddyBits} (hA : Apart (chunks b)) {n m addr k : ℕ}
    (hm : m ≤ 2 ^ 63) (h : pickOffContiguous b n m = some (some (addr, k), b')) :
    k = n ∧ ∃ a, addr = a * pageSize ∧ Takes b (Finset.Ico a (a + n)) b' := by
  have hn : n ≤ 2 ^ 16 := pickOffContiguous_le hm h
  obtain ⟨r, b₁, hp, hT, -⟩ := pickOffContiguous_takes hA hn hm
  rw [h, Option.some.injEq, Prod.mk.injEq] at hp
  obtain ⟨rfl, rfl⟩ := hp
  cases pickOffContiguous_spec b hA hn hm with
  | inl hnone => simp [h] at hnone
  | inr hsome =>
      obtain ⟨-, c, -, -, -, b₂, hp, -⟩ := hsome
      rw [h, Option.some.injEq, Prod.mk.injEq, Option.some.injEq, Prod.mk.injEq] at hp
      obtain ⟨⟨haddr, rfl⟩, -⟩ := hp
      refine ⟨rfl, addr / pageSize, ?_, hT⟩
      rw [haddr, Chunk.addr, Nat.mul_div_cancel _ (by norm_num [pageSize])]

/-- **A pick that fails** changes nothing: the unit is too large, or no free
chunk is large enough. -/
lemma pickOffContiguous_none {b b' : BuddyBits} (hA : Apart (chunks b)) {n m : ℕ}
    (hm : m ≤ 2 ^ 63) (h : pickOffContiguous b n m = some (none, b')) :
    b' = b ∧ (Nat.clog 2 n < Nat.clog 2 m ∨ ∀ c ∈ chunks b, c.level < Nat.clog 2 n) := by
  cases Nat.lt_or_ge (2 ^ 16) n with
  | inl hn =>
      cases pickOffContiguous_large b hn hm with
      | inl hnone => simp [h] at hnone
      | inr hlt => exact ⟨by simpa [h] using hlt.2, Or.inl hlt.1⟩
  | inr hn =>
      cases pickOffContiguous_spec b hA hn hm with
      | inl hnone => exact ⟨by simpa [h] using hnone.2, hnone.1⟩
      | inr hsome =>
          obtain ⟨-, c, -, -, -, b₁, hp, -⟩ := hsome
          simp [h] at hp

/-! ### A region -/

/-- The number of frames of a region, in units of its pages. -/
lemma region_units {S : PageSize} {start stop : ℕ} (hstart : S.size ∣ start)
    (hstop : S.size ∣ stop) (hle : start ≤ stop) :
    (stop - start) / pageSize = (stop - start) / pageSize / S.unit * S.unit ∧
      stop / S.size = start / S.size + (stop - start) / pageSize / S.unit := by
  obtain ⟨x, rfl⟩ := hstart
  obtain ⟨y, rfl⟩ := hstop
  have hpos := S.size_pos
  have hxy : x ≤ y := Nat.le_of_mul_le_mul_left hle hpos
  have hn : (S.size * y - S.size * x) / pageSize = (y - x) * S.unit := by
    rw [← Nat.mul_sub, PageSize.size, Nat.mul_right_comm,
      Nat.mul_div_cancel _ (by norm_num [pageSize]), Nat.mul_comm]
  rw [hn, Nat.mul_div_cancel _ S.unit_pos, Nat.mul_div_cancel_left _ hpos,
    Nat.mul_div_cancel_left _ hpos]
  exact ⟨rfl, by omega⟩

/-- The turn that returns `Ok` has picked all the frames that remained. -/
lemma pageRegionLoop_ok (M : Mapper) {S : PageSize} {flags : PageTableFlags} {fuel n page : ℕ}
    {t t' : M.Table} {b b' : BuddyBits} (hA : Apart (chunks b))
    (h : pageRegionLoop M S flags (fuel + 1) n page t b = some (.ok (), t', b')) :
    ∃ a b₁ page', Takes b (Finset.Ico a (a + n)) b₁ ∧
      mapPages M S flags (a * pageSize) (n / S.unit) 0 page t b₁ = some (page', t', b') := by
  simp only [pageRegionLoop, Option.bind_eq_bind, Option.bind_eq_some_iff] at h
  obtain ⟨⟨found, b₁⟩, hpick, h⟩ := h
  cases found with
  | none => cases h
  | some found =>
      obtain ⟨hk, a, haddr, hT⟩ := pickOffContiguous_some hA S.unit_le hpick
      simp only [hk, haddr, checkedSub, le_refl, if_true, Nat.sub_self,
        Option.bind_eq_some_iff, Option.some.injEq, exists_eq_left'] at h
      obtain ⟨⟨page', t₁, b₂⟩, hmap, h⟩ := h
      cases h
      exact ⟨a, b₁, page', hT, hmap⟩

/-- **What `page_region` has done when it returns `Ok`**: it has taken the
frames of the whole region in one pick, and then mapped page by page. -/
lemma pageRegion_ok (M : Mapper) {S : PageSize} {t t' : M.Table} {b b' : BuddyBits}
    {start stop : ℕ} {flags : PageTableFlags} (hA : Apart (chunks b))
    (h : pageRegion M S t b start stop flags = some (.ok (), t', b')) :
    ∃ a b₁, Takes b (Finset.Ico a (a + (regionPages S start stop).card * S.unit)) b₁ ∧
      Maps M.toPageTables S flags
        (fun q => a * pageSize + (q - alignDown S start / S.size) * S.size)
        (regionPages S start stop) t b₁ t' b' := by
  simp only [pageRegion, Option.bind_eq_bind, Option.bind_eq_some_iff] at h
  obtain ⟨stop', hstop, len, hlen, h⟩ := h
  obtain ⟨hle, hlen⟩ := Option.ite_none_right_eq_some.mp hlen
  cases hlen
  obtain ⟨hmul, hend⟩ := region_units (dvd_alignDown S start) (dvd_alignUp hstop) hle
  obtain ⟨a, b₁, page', hT, hmap⟩ := pageRegionLoop_ok M hA h
  have hM := (mapPages_spec M S flags (a * pageSize) (alignDown S start / S.size) hT.apart rfl
    hmap).2
  rw [Nat.add_zero, ← hend] at hM
  have hpages : regionPages S start stop =
      Finset.Ico (alignDown S start / S.size) (stop' / S.size) := by
    rw [regionPages, hstop]
  have hcard : (regionPages S start stop).card * S.unit =
      (stop' - alignDown S start) / pageSize := by
    rw [hpages, Nat.card_Ico, hend, Nat.add_sub_cancel_left, ← hmul]
  exact ⟨a, b₁, by rwa [hcard], by rwa [hpages]⟩

/-- When `page_region` returns `Ok`, a free chunk held the region. -/
lemma pageRegion_chunk (M : Mapper) {S : PageSize} {t t' : M.Table} {b b' : BuddyBits}
    {start stop : ℕ} {flags : PageTableFlags} (hA : Apart (chunks b))
    (h : pageRegion M S t b start stop flags = some (.ok (), t', b')) :
    ∃ c ∈ chunks b, Nat.clog 2 ((regionPages S start stop).card * S.unit) ≤ c.level := by
  simp only [pageRegion, pageRegionLoop, Option.bind_eq_bind, Option.bind_eq_some_iff] at h
  obtain ⟨stop', hstop, len, hlen, ⟨found, b₁⟩, hpick, h⟩ := h
  obtain ⟨hle, hlen⟩ := Option.ite_none_right_eq_some.mp hlen
  cases hlen
  obtain ⟨hmul, hend⟩ := region_units (dvd_alignDown S start) (dvd_alignUp hstop) hle
  have hcard : (regionPages S start stop).card * S.unit =
      (stop' - alignDown S start) / pageSize := by
    rw [regionPages, hstop, Nat.card_Ico, hend, Nat.add_sub_cancel_left, ← hmul]
  cases found with
  | none => cases h
  | some found =>
      obtain ⟨hnone, hno⟩ | ⟨-, c, hc, hlevel, -⟩ := pickOffContiguous_spec b hA
        (pickOffContiguous_le S.unit_le hpick) S.unit_le
      · cases hpick.symm.trans hno
      · exact ⟨c, hc, hcard ▸ hlevel⟩

/-- **What `page_region` has done when it returns `Err`**: nothing, because no
free chunk holds the region. -/
lemma pageRegion_error (M : Mapper) {S : PageSize} {t t' : M.Table} {b b' : BuddyBits}
    {start stop stop' : ℕ} {flags : PageTableFlags} (hA : Apart (chunks b))
    (hstop : alignUp S stop = some stop')
    (h : pageRegion M S t b start stop flags = some (.error (), t', b')) :
    t' = t ∧ b' = b ∧ (Nat.clog 2 ((stop' - alignDown S start) / pageSize) < Nat.clog 2 S.unit ∨
      ∀ c ∈ chunks b, c.level < Nat.clog 2 ((stop' - alignDown S start) / pageSize)) := by
  simp only [pageRegion, hstop, pageRegionLoop, Option.bind_eq_bind, Option.bind_some,
    Option.bind_eq_some_iff] at h
  obtain ⟨len, hlen, ⟨found, b₁⟩, hpick, h⟩ := h
  obtain ⟨hle, hlen⟩ := Option.ite_none_right_eq_some.mp hlen
  cases hlen
  cases found with
  | none =>
      cases h
      exact ⟨rfl, pickOffContiguous_none hA S.unit_le hpick⟩
  | some found =>
      obtain ⟨hk, a, haddr, hT⟩ := pickOffContiguous_some hA S.unit_le hpick
      simp only [hk, haddr, checkedSub, le_refl, if_true, Nat.sub_self,
        Option.bind_eq_some_iff, Option.some.injEq, exists_eq_left'] at h
      obtain ⟨⟨page', t₁, b₂⟩, hmap, h⟩ := h
      cases h

/-- **`page_region` returns `Ok`** when a chunk for the whole region is free, the
calls of `map_to` do not panic and the pages have canonical addresses, whatever
else the page table holds. -/
lemma pageRegion_returns (M : Mapper) {S : PageSize} {t : M.Table} {b : BuddyBits}
    {start stop stop' k : ℕ} {flags : PageTableFlags} (hA : Apart (chunks b))
    (hmappable : Mappable M.toPageTables S flags t
      (Finset.Ico (alignDown S start / S.size) (alignDown S start / S.size + k)))
    (hstop : alignUp S stop = some stop') (hk : stop' = alignDown S start + k * S.size)
    (hk1 : 1 ≤ k) (hfree : ∃ c ∈ chunks b, Nat.clog 2 (k * S.unit) ≤ c.level)
    (hcan : ∀ j < k, Canonical ((alignDown S start / S.size + j + 1) * S.size)) :
    ∃ t' b', pageRegion M S t b start stop flags = some (.ok (), t', b') := by
  have hlen : (stop' - alignDown S start) / pageSize = k * S.unit := by
    rw [hk, Nat.add_sub_cancel_left, PageSize.size, ← Nat.mul_assoc,
      Nat.mul_div_cancel _ (by norm_num [pageSize])]
  obtain ⟨c, hc, hlevel⟩ := hfree
  have hlt : Nat.clog 2 (k * S.unit) < buddyLevels := lt_of_le_of_lt hlevel (fits_of_mem hc).1
  have hn : k * S.unit ≤ 2 ^ 16 :=
    (Nat.le_pow_clog (by norm_num) _).trans (Nat.pow_le_pow_right (by norm_num) hlt.le)
  have hunit : Nat.clog 2 S.unit ≤ Nat.clog 2 (k * S.unit) :=
    Nat.clog_mono_right 2 (Nat.le_mul_of_pos_left _ hk1)
  obtain ⟨addr, b₁, hpick, hA₁⟩ : ∃ addr b₁, pickOffContiguous b (k * S.unit) S.unit =
      some (some (addr, k * S.unit), b₁) ∧ Apart (chunks b₁) := by
    obtain ⟨r, b₂, hp, hT, -⟩ := pickOffContiguous_takes hA hn S.unit_le
    cases pickOffContiguous_spec b hA hn S.unit_le with
    | inl hnone =>
        cases hnone.1 with
        | inl hlt => omega
        | inr hall => exact absurd (hall c hc) (by omega)
    | inr hsome =>
        obtain ⟨-, d, -, -, -, b₁, hpick, -⟩ := hsome
        rw [hpick] at hp
        cases hp
        exact ⟨_, _, hpick, hT.apart⟩
  obtain ⟨page', t', b', hmap⟩ := mapPages_returns M S flags addr (i := 0) hA₁ hmappable hcan
  refine ⟨t', b', ?_⟩
  simp only [pageRegion, hstop, Option.bind_eq_bind, Option.bind_some, checkedSub,
    if_pos (hk ▸ Nat.le_add_right _ _ : alignDown S start ≤ stop'), hlen, pageRegionLoop, hpick,
    Nat.mul_div_cancel k S.unit_pos, hmap, le_refl, if_true, Nat.sub_self]
  rfl

/-! ### Backed regions -/

/-- The frames behind a page. -/
def PageTables.backing (V : PageTables) (t : V.Table) (S : PageSize) (page : ℕ) : Finset ℕ :=
  match V.leaf t S page with
  | none => ∅
  | some (frame, _) => handedOut (some (frame, S.unit))

/-- **The region is backed** by the call that took the state `(t, b)` to
`(t', b')`: every page is mapped with the flags to frames that the call took,
no two pages share a frame, none of these frames is used as a table, and no
frame was taken for anything but the region and its tables. -/
structure Backed (V : PageTables) (S : PageSize) (flags : PageTableFlags) (pages : Finset ℕ)
    (t : V.Table) (b : BuddyBits) (t' : V.Table) (b' : BuddyBits) : Prop where
  mapped : ∀ q ∈ pages, ∃ frame, V.leaf t' S q = some (frame, flags)
  taken : ∀ q ∈ pages, V.backing t' S q ⊆ freeFrames b \ freeFrames b'
  apart : (pages : Set ℕ).PairwiseDisjoint (V.backing t' S)
  not_table : ∀ q ∈ pages, Disjoint (V.backing t' S q) (V.tables t')
  accounted : freeFrames b \ freeFrames b' ⊆ V.tables t' ∪ pages.biUnion (V.backing t' S)

lemma PageTables.backing_of_leaf (V : PageTables) {t : V.Table} {S : PageSize} {page frame : ℕ}
    {flags : PageTableFlags} (h : V.leaf t S page = some (frame, flags)) :
    V.backing t S page = handedOut (some (frame, S.unit)) := by
  rw [backing, h]

lemma PageTables.backing_eq (V : PageTables) {t : V.Table} {S : PageSize} {page a i : ℕ}
    {flags : PageTableFlags} (h : V.leaf t S page = some (a * pageSize + i * S.size, flags)) :
    V.backing t S page = Finset.Ico (a + i * S.unit) (a + i * S.unit + S.unit) := by
  have haddr : a * pageSize + i * S.size = (a + i * S.unit) * pageSize := by
    rw [PageSize.size]
    ring
  rw [V.backing_of_leaf h, haddr, handedOut, Nat.mul_div_cancel _ (by norm_num [pageSize])]

lemma PageTables.backing_nonempty (V : PageTables) {t : V.Table} {S : PageSize} {page frame : ℕ}
    {flags : PageTableFlags} (h : V.leaf t S page = some (frame, flags)) :
    (V.backing t S page).Nonempty := by
  rw [V.backing_of_leaf h]
  exact Finset.nonempty_Ico.mpr (Nat.lt_add_of_pos_right S.unit_pos)

/-- The units of a pick, one for each page, are apart and fill the pick. -/
lemma mem_unit_iff {first k u a f q : ℕ} (hu : 0 < u) (hq : q ∈ Finset.Ico first (first + k)) :
    f ∈ Finset.Ico (a + (q - first) * u) (a + (q - first) * u + u) ↔
      a ≤ f ∧ q = first + (f - a) / u := by
  obtain ⟨i, rfl⟩ := Nat.exists_eq_add_of_le (Finset.mem_Ico.mp hq).1
  rw [Nat.add_sub_cancel_left, Finset.mem_Ico]
  have hdiv : (f - a) / u = i ↔ i * u ≤ f - a ∧ f - a < i * u + u := by
    rw [Nat.div_eq_iff hu]
    have : 0 < u := hu
    omega
  refine ⟨fun h => ⟨by omega, ?_⟩, fun h => ?_⟩
  · rw [hdiv.mpr ⟨by omega, by omega⟩]
  · have := hdiv.mp (by omega)
    have : 0 < u := hu
    omega

/-- **With room for it the region is backed.** -/
lemma backed_of_room {V : PageTables} {S : PageSize} {flags : PageTableFlags} {a first k : ℕ}
    {t t' : V.Table} {b b₁ b' : BuddyBits} (hT : Takes b (Finset.Ico a (a + k * S.unit)) b₁)
    (hM : Maps V S flags (fun q => a * pageSize + (q - first) * S.size)
      (Finset.Ico first (first + k)) t b₁ t' b')
    (htab : Disjoint (V.tables t) (freeFrames b))
    (hR : Room V S t (Finset.Ico first (first + k)) (freeFrames b₁).card) :
    Backed V S flags (Finset.Ico first (first + k)) t b t' b' := by
  have hmapped := hM.mapped_of_room hR
  obtain ⟨x, hx, htab'⟩ := hM.takes
  have hall := hT.trans hx
  have hmem : ∀ q ∈ Finset.Ico first (first + k), ∀ f,
      f ∈ V.backing t' S q ↔ a ≤ f ∧ q = first + (f - a) / S.unit := fun q hq f => by
    rw [V.backing_eq (hmapped q hq), mem_unit_iff S.unit_pos hq]
  have hlt : ∀ i f : ℕ, i < k → a ≤ f → i = (f - a) / S.unit → f < a + k * S.unit := by
    intro i f hi ha hf
    have := (Nat.div_lt_iff_lt_mul S.unit_pos).mp (hf ▸ hi)
    omega
  -- the frames of a page are frames of the pick
  have hpick : ∀ q ∈ Finset.Ico first (first + k),
      V.backing t' S q ⊆ Finset.Ico a (a + k * S.unit) := by
    intro q hq f hf
    obtain ⟨h1, h2⟩ := (hmem q hq f).mp hf
    rw [Finset.mem_Ico] at hq ⊢
    exact ⟨h1, hlt (q - first) f (by omega) h1 (by omega)⟩
  refine ⟨fun q hq => ⟨_, hmapped q hq⟩, fun q hq => ?_, fun q hq q' hq' hne => ?_,
    fun q hq => ?_, ?_⟩
  · rw [hall.eq_sdiff]
    exact (hpick q hq).trans Finset.subset_union_left
  · refine Finset.disjoint_left.mpr fun f hf hf' => hne ?_
    rw [((hmem q hq f).mp hf).2, ((hmem q' hq' f).mp hf').2]
  · rw [htab', Finset.disjoint_union_right]
    exact ⟨(htab.mono_right hT.subset).symm.mono_left (hpick q hq),
      (hT.disjoint hx).mono_left (hpick q hq)⟩
  · rw [hall.eq_sdiff, htab']
    refine Finset.union_subset (fun f hf => ?_) fun f hf => ?_
    · rw [Finset.mem_Ico] at hf
      have hi : (f - a) / S.unit < k := (Nat.div_lt_iff_lt_mul S.unit_pos).mpr (by omega)
      have hq : first + (f - a) / S.unit ∈ Finset.Ico first (first + k) :=
        Finset.mem_Ico.mpr ⟨Nat.le_add_right _ _, Nat.add_lt_add_left hi _⟩
      exact Finset.mem_union_right _ (Finset.mem_biUnion.mpr ⟨_, hq, (hmem _ hq f).mpr ⟨hf.1, rfl⟩⟩)
    · exact Finset.mem_union_left _ (Finset.mem_union_right _ hf)

/-- **A backed region had room**, unless a page of it was mapped to a free frame
before. -/
lemma room_of_backed {V : PageTables} {S : PageSize} {flags : PageTableFlags} {frameOf : ℕ → ℕ}
    {pages : Finset ℕ} {t t' : V.Table} {b b₁ b' : BuddyBits}
    (hM : Maps V S flags frameOf pages t b₁ t' b')
    (hstale : ∀ q ∈ pages, Disjoint (V.backing t S q) (freeFrames b))
    (hB : Backed V S flags pages t b t' b') : Room V S t pages (freeFrames b₁).card := by
  refine hM.room_of_changed fun q hq heq => ?_
  obtain ⟨frame, hleaf⟩ := hB.mapped q hq
  have hsame : V.backing t' S q = V.backing t S q := by
    rw [PageTables.backing, PageTables.backing, heq]
  obtain ⟨f, hf⟩ := V.backing_nonempty hleaf
  have hfree := (Finset.mem_sdiff.mp (hB.taken q hq hf)).1
  exact Finset.disjoint_left.mp (hstale q hq) (hsame ▸ hf) hfree

/-- The frames left for the tables once the region has been picked. -/
lemma card_free_after_pick {S : PageSize} {pages : Finset ℕ} {a : ℕ} {b b₁ : BuddyBits}
    (hT : Takes b (Finset.Ico a (a + pages.card * S.unit)) b₁) :
    (freeFrames b₁).card = (freeFrames b).card - pages.card * S.unit := by
  rw [hT.card_free, Nat.card_Ico, Nat.add_sub_cancel_left]

lemma pageRegion_grows (M : Mapper) {S : PageSize} {t t' : M.Table} {b b' : BuddyBits}
    {start stop : ℕ} {flags : PageTableFlags} (hb : Apart (chunks b))
    (hok : pageRegion M S t b start stop flags = some (.ok (), t', b')) :
    Grows M.toPageTables S (regionPages S start stop) t b t' b' := by
  obtain ⟨a, b₁, hT, hM⟩ := pageRegion_ok M hb hok
  exact Grows.after_takes hT hM.grows

lemma pageRegion_backed (M : Mapper) {S : PageSize} {t t' : M.Table} {b b' : BuddyBits}
    {start stop : ℕ} {flags : PageTableFlags} (hw : WellFormed M.toPageTables t b)
    (hok : pageRegion M S t b start stop flags = some (.ok (), t', b'))
    (hR : Room M.toPageTables S t (regionPages S start stop)
      ((freeFrames b).card - (regionPages S start stop).card * S.unit)) :
    Backed M.toPageTables S flags (regionPages S start stop) t b t' b' := by
  obtain ⟨a, b₁, hT, hM⟩ := pageRegion_ok M hw.apart hok
  rw [← card_free_after_pick hT] at hR
  rw [regionPages_eq] at hM hR ⊢
  exact backed_of_room hT hM hw.tables hR

/-- A region all of whose pages have got another mapping had room. -/
lemma pageRegion_room (M : Mapper) {S : PageSize} {t t' : M.Table} {b b' : BuddyBits}
    {start stop : ℕ} {flags : PageTableFlags} (hA : Apart (chunks b))
    (hok : pageRegion M S t b start stop flags = some (.ok (), t', b'))
    (hchanged : ∀ q ∈ regionPages S start stop, M.leaf t' S q ≠ M.leaf t S q) :
    Room M.toPageTables S t (regionPages S start stop)
      ((freeFrames b).card - (regionPages S start stop).card * S.unit) := by
  obtain ⟨a, b₁, hT, hM⟩ := pageRegion_ok M hA hok
  rw [← card_free_after_pick hT]
  exact hM.room_of_changed hchanged

/-- **`Ok` means a backed region exactly when there was room for it.**  Room is
a condition on the state before the call: no page of the region is mapped or
lies under a huge page, and besides the frames of the region there are enough
free frames for the tables that are missing.

* With room (and with no table among the free frames) the region is backed.
* Without room it is not, although the call returns `Ok`; the exception is a
  page that was mapped before to a frame the allocator held free. -/
theorem page_region_backed_iff (M : Mapper) (S : PageSize) (t t' : M.Table) (b b' : BuddyBits)
    (start stop : ℕ) (flags : PageTableFlags) (hb : Apart (chunks b))
    (hok : pageRegion M S t b start stop flags = some (.ok (), t', b')) :
    (Disjoint (M.tables t) (freeFrames b) →
      Room M.toPageTables S t (regionPages S start stop)
        ((freeFrames b).card - (regionPages S start stop).card * S.unit) →
      Backed M.toPageTables S flags (regionPages S start stop) t b t' b') ∧
    ((∀ q ∈ regionPages S start stop, Disjoint (M.backing t S q) (freeFrames b)) →
      Backed M.toPageTables S flags (regionPages S start stop) t b t' b' →
      Room M.toPageTables S t (regionPages S start stop)
        ((freeFrames b).card - (regionPages S start stop).card * S.unit)) := by
  refine ⟨fun htab hR => pageRegion_backed M ⟨hb, htab⟩ hok hR, fun hstale hB => ?_⟩
  obtain ⟨a, b₁, hT, hM⟩ := pageRegion_ok M hb hok
  rw [← card_free_after_pick hT]
  exact room_of_backed hM hstale hB

/-- One free chunk: the frames 0 to 3. -/
def oneQuad : BuddyBits := ⟨{25165824}, by decide⟩

lemma chunks_oneQuad : chunks oneQuad = {⟨2, 0⟩} := by decide

lemma apart_oneQuad : Apart (chunks oneQuad) := chunks_oneQuad ▸ apart_singleton _

lemma freeFrames_oneQuad : freeFrames oneQuad = Finset.Ico 0 4 := by
  rw [freeFrames, chunks_oneQuad, free, Finset.singleton_biUnion]
  rfl

/-- The page at `0x1000_0000_0000`, as a region. -/
lemma regionPages_onePage :
    regionPages .size4KiB 0x100000000000 0x100000001000 = {0x100000000} := by
  norm_num [regionPages, alignUp, alignDown, newTruncate, PageSize.size, PageSize.unit, pageSize]

lemma pageRegion_onePage (t : FourLevel) :
    ∃ t' b', pageRegion FourLevel.fourLevel .size4KiB t oneQuad 0x100000000000 0x100000001000
      3#64 = some (.ok (), t', b') := by
  have hstop : alignUp .size4KiB 0x100000001000 = some 0x100000001000 := by
    norm_num [alignUp, newTruncate, PageSize.size, PageSize.unit, pageSize]
  refine pageRegion_returns FourLevel.fourLevel (S := .size4KiB) (k := 1) apart_oneQuad
    ⟨by decide, Or.inl (by decide)⟩ hstop ?_ le_rfl ⟨⟨2, 0⟩, ?_, ?_⟩ fun j hj => ?_
  · norm_num [alignDown, newTruncate, PageSize.size, PageSize.unit, pageSize]
  · rw [chunks_oneQuad]
    exact Finset.mem_singleton_self _
  · simp [PageSize.unit]
  · obtain rfl : j = 0 := by omega
    norm_num [alignDown, newTruncate, PageSize.size, PageSize.unit, pageSize, Canonical]

/-- A page table with a root only. -/
def emptyTable : FourLevel := ⟨64, ∅, fun _ _ => none⟩

theorem page_region_backs_onePage :
    ∃ t' b', pageRegion FourLevel.fourLevel .size4KiB emptyTable oneQuad 0x100000000000
        0x100000001000 3#64 = some (.ok (), t', b') ∧
      Backed FourLevel.view .size4KiB 3#64 (regionPages .size4KiB 0x100000000000 0x100000001000)
        emptyTable oneQuad t' b' := by
  obtain ⟨t', b', hok⟩ := pageRegion_onePage emptyTable
  refine ⟨t', b', hok, (page_region_backed_iff FourLevel.fourLevel .size4KiB emptyTable t' oneQuad
    b' _ _ 3#64 apart_oneQuad hok).1 ?_ ⟨?_, ?_⟩⟩
  · rw [freeFrames_oneQuad]
    decide
  · rintro q - (hused | ⟨s, -, hhuge⟩)
    · simp [FourLevel.used, emptyTable] at hused
    · unfold FourLevel.huge at hhuge
      split at hhuge <;> simp [emptyTable] at hhuge
  · rw [regionPages_onePage, freeFrames_oneQuad, Finset.singleton_biUnion]
    exact (Finset.card_le_card Finset.sdiff_subset).trans (List.toFinset_card_le _)

/-- The page at `0x1000_0000_0000` is mapped to the frame at `0x5000`. -/
def mappedTable : FourLevel where
  root := 64
  tables := {((3, 32), 65), ((2, 16384), 66), ((1, 8388608), 67)}
  leaf S page := if S = .size4KiB ∧ page = 0x100000000 then some (0x5000, 3#64) else none

/-- The call returns `Ok`, and the page keeps its old frame. -/
theorem page_region_ok_not_backed :
    ∃ t' b', pageRegion FourLevel.fourLevel .size4KiB mappedTable oneQuad 0x100000000000
        0x100000001000 3#64 = some (.ok (), t', b') ∧
      t'.leaf .size4KiB 0x100000000 = some (0x5000, 3#64) ∧ 5 ∉ freeFrames oneQuad ∧
      Disjoint mappedTable.frames (freeFrames oneQuad) ∧
      ¬ Backed FourLevel.view .size4KiB 3#64
        (regionPages .size4KiB 0x100000000000 0x100000001000) mappedTable oneQuad t' b' := by
  obtain ⟨t', b', hok⟩ := pageRegion_onePage mappedTable
  obtain ⟨a, b₁, -, hM⟩ := pageRegion_ok FourLevel.fourLevel apart_oneQuad hok
  rw [regionPages_onePage] at hM ⊢
  have hold : mappedTable.leaf .size4KiB 0x100000000 = some (0x5000, 3#64) := rfl
  have hleaf : t'.leaf .size4KiB 0x100000000 = some (0x5000, 3#64) := by
    by_contra hne
    have hR := hM.room_of_changed fun q hq heq => by
      rw [Finset.mem_singleton.mp hq] at heq
      exact hne (heq.trans hold)
    exact hR.unblocked _ (Finset.mem_singleton_self _)
      (FourLevel.fourLevel.blocked_of_leaf (by simp [hold]))
  have h5 : 5 ∉ freeFrames oneQuad := by
    rw [freeFrames_oneQuad]
    decide
  refine ⟨t', b', hok, hleaf, h5, ?_, fun hB => h5 ?_⟩
  · rw [freeFrames_oneQuad]
    decide
  · have hback : FourLevel.view.backing t' .size4KiB 0x100000000 = {5} :=
      FourLevel.view.backing_of_leaf hleaf
    have hsub := hB.taken _ (Finset.mem_singleton_self _)
    rw [hback] at hsub
    exact (Finset.mem_sdiff.mp (hsub (Finset.mem_singleton_self 5))).1

end Titanium
