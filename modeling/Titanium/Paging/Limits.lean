import Titanium.Paging.Mapall

/-!
The requests that `pick_off_contiguous` and `page_region` can serve.

* `falls_back_iff`: the retry loop of `pick_off_contiguous` asks for the target
  level in every turn, so it never settles for a smaller chunk; a region fails
  with smaller chunks of its page size still free.
* `page_region_returns_iff`: a region of more than `2^16` frames indexes
  `LEVEL_OFFSETS` out of range.
-/

namespace Titanium

/-! ### The fallback to smaller chunks -/

/-- **The documented fallback**: the pick fails only when no chunk of the minimum
level is free, and otherwise yields the largest number of frames that a free chunk
allows. -/
def FallsBack (b : BuddyBits) (n m : ℕ) : Prop :=
  ∃ r b', pickOffContiguous b n m = some (r, b') ∧
    (r = none → ∀ c ∈ chunks b, c.level < Nat.clog 2 m) ∧
    ∀ addr k, r = some (addr, k) →
      ∃ L, IsGreatest {L | Nat.clog 2 m ≤ L ∧ L ≤ Nat.clog 2 n ∧ ∃ c ∈ chunks b, L ≤ c.level} L ∧
        k = min n (2 ^ L)

lemma fallsBack_iff {b : BuddyBits} (hA : Apart (chunks b)) {n m : ℕ} (hmn : m ≤ n)
    (hn : n ≤ 2 ^ 15) :
    FallsBack b n m ↔
      (∃ c ∈ chunks b, Nat.clog 2 n ≤ c.level) ∨ ∀ c ∈ chunks b, c.level < Nat.clog 2 m := by
  have hlevels : Nat.clog 2 m ≤ Nat.clog 2 n := Nat.clog_mono_right 2 hmn
  rcases pickOffContiguous_spec b hA (hn.trans (by norm_num))
      ((hmn.trans hn).trans (by norm_num)) with
    ⟨hno, hpick⟩ | ⟨-, c, hc, hcl, -, b', hpick, -⟩
  · have hall : ∀ c ∈ chunks b, c.level < Nat.clog 2 n := by
      cases hno with
      | inl hlt => omega
      | inr hall => exact hall
    constructor
    · rintro ⟨r, b', hp, hnone, -⟩
      rw [hpick] at hp
      cases hp
      exact Or.inr (hnone rfl)
    · intro hcond
      refine ⟨none, b, hpick, fun _ => ?_, fun addr k h => nomatch h⟩
      cases hcond with
      | inl hex =>
          obtain ⟨c, hc, hcl⟩ := hex
          exact absurd (hall c hc) (not_lt.mpr hcl)
      | inr hmin => exact hmin
  · refine ⟨fun _ => Or.inl ⟨c, hc, hcl⟩, fun _ => ⟨_, b', hpick, fun h => (nomatch h), ?_⟩⟩
    rintro addr k heq
    cases heq
    refine ⟨Nat.clog 2 n, ⟨⟨hlevels, le_rfl, c, hc, hcl⟩, fun L hL => hL.2.1⟩, ?_⟩
    exact (min_eq_left (Nat.le_pow_clog (by norm_num) n)).symm

/-- A region that is paged had a chunk for all of it. -/
lemma pageRegion_ok_chunk (M : Mapper) {S : PageSize} {t t' : M.Table} {b b' : BuddyBits}
    {start stop stop' : ℕ} {flags : PageTableFlags} (hA : Apart (chunks b))
    (hstop : alignUp S stop = some stop')
    (h : pageRegion M S t b start stop flags = some (.ok (), t', b')) :
    Nat.clog 2 S.unit ≤ Nat.clog 2 ((stop' - alignDown S start) / pageSize) ∧
      ∃ c ∈ chunks b, Nat.clog 2 ((stop' - alignDown S start) / pageSize) ≤ c.level := by
  simp only [pageRegion, hstop, pageRegionLoop, Option.bind_eq_bind, Option.bind_some,
    Option.bind_eq_some_iff] at h
  obtain ⟨len, hlen, ⟨found, b₁⟩, hpick, h⟩ := h
  obtain ⟨hle, hlen⟩ := Option.ite_none_right_eq_some.mp hlen
  cases hlen
  cases found with
  | none => cases h
  | some found =>
      have hn := pickOffContiguous_le S.unit_le hpick
      cases pickOffContiguous_spec b hA hn S.unit_le with
      | inl hnone => simp [hpick] at hnone
      | inr hsome =>
          obtain ⟨hunit, c, hc, hcl, -⟩ := hsome
          exact ⟨hunit, c, hc, hcl⟩

/-- **When the pick falls back as documented**: exactly when it need not, since a
chunk for the whole request is free, or cannot, since not even the minimum is.
`page_region` inherits this: its failure means that no chunk of its page size is
left exactly when a chunk for the whole region was free or none of a page. -/
theorem falls_back_iff (b : BuddyBits) (hA : Apart (chunks b)) :
    (∀ n m, 1 ≤ m → m ≤ n → n ≤ 2 ^ 15 →
      (FallsBack b n m ↔
        (∃ c ∈ chunks b, Nat.clog 2 n ≤ c.level) ∨ ∀ c ∈ chunks b, c.level < Nat.clog 2 m)) ∧
    ∀ (M : Mapper) (S : PageSize) (t t' : M.Table) (start stop stop' : ℕ) (flags : PageTableFlags)
      (r : Except Unit Unit) (b' : BuddyBits), alignUp S stop = some stop' →
      pageRegion M S t b start stop flags = some (r, t', b') →
      ((r = .error () → ∀ c ∈ chunks b', c.level < Nat.clog 2 S.unit) ↔
        (Nat.clog 2 S.unit ≤ Nat.clog 2 ((stop' - alignDown S start) / pageSize) ∧
          ∃ c ∈ chunks b, Nat.clog 2 ((stop' - alignDown S start) / pageSize) ≤ c.level) ∨
        ∀ c ∈ chunks b, c.level < Nat.clog 2 S.unit) := by
  refine ⟨fun n m _ hmn hn => fallsBack_iff hA hmn hn,
    fun M S t t' start stop stop' flags r b' hstop h => ?_⟩
  cases r with
  | ok u => exact ⟨fun _ => Or.inl (pageRegion_ok_chunk M hA hstop h), fun _ hr => nomatch hr⟩
  | error u =>
      obtain ⟨-, rfl, hno⟩ := pageRegion_error M hA hstop h
      refine ⟨fun hfails => Or.inr (hfails rfl), fun hcond _ => ?_⟩
      cases hcond with
      | inr hall => exact hall
      | inl hfits =>
          obtain ⟨hunit, c, hc, hcl⟩ := hfits
          cases hno with
          | inl hlt => omega
          | inr hall => exact absurd (hall c hc) (not_lt.mpr hcl)

/-- Three frames from `oneQuad`, and a page. -/
theorem falls_back_oneQuad :
    FallsBack oneQuad 3 1 ∧
      ∃ t' b', pageRegion FourLevel.fourLevel .size4KiB emptyTable oneQuad 0x100000000000
        0x100000001000 3#64 = some (.ok (), t', b') ∧
        ((Except.ok () : Except Unit Unit) = .error () →
          ∀ c ∈ chunks b', c.level < Nat.clog 2 PageSize.size4KiB.unit) := by
  have hmem : (⟨2, 0⟩ : Chunk) ∈ chunks oneQuad := by decide
  refine ⟨((falls_back_iff oneQuad apart_oneQuad).1 3 1 le_rfl (by norm_num) (by norm_num)).mpr
    (Or.inl ⟨_, hmem, by decide⟩), ?_⟩
  obtain ⟨t', b', hok⟩ := pageRegion_onePage emptyTable
  have hstop : alignUp .size4KiB 0x100000001000 = some 0x100000001000 := by decide
  refine ⟨t', b', hok, ((falls_back_iff oneQuad apart_oneQuad).2 FourLevel.fourLevel .size4KiB
    emptyTable t' _ _ _ 3#64 _ b' hstop hok).mpr (Or.inl ⟨by decide +kernel, _, hmem, ?_⟩)⟩
  decide +kernel

/-- `onePair` holds two frames, but a request for four, in units of one, finds
nothing: neither the pick nor a region of four pages. -/
theorem no_fallback_onePair :
    Apart (chunks onePair) ∧ (⟨1, 0⟩ : Chunk) ∈ chunks onePair ∧
      pickOffContiguous onePair 4 1 = some (none, onePair) ∧ ¬FallsBack onePair 4 1 ∧
      ∃ t' b', pageRegion FourLevel.fourLevel .size4KiB emptyTable onePair 0x100000000000
          0x100000004000 3#64 = some (.error (), t', b') ∧
        (⟨1, 0⟩ : Chunk) ∈ chunks b' ∧ Nat.clog 2 PageSize.size4KiB.unit ≤ 1 := by
  refine ⟨apart_onePair, by decide, by decide +kernel, fun hfb => ?_, emptyTable, onePair, rfl,
    by decide, by decide⟩
  cases (fallsBack_iff apart_onePair (by norm_num) (by norm_num)).mp hfb with
  | inl hex =>
      obtain ⟨c, hc, hcl⟩ := hex
      rw [chunks_onePair, Finset.mem_singleton] at hc
      subst hc
      exact absurd hcl (by decide)
  | inr hall => exact absurd (hall ⟨1, 0⟩ (by decide)) (by decide)

/-! ### Regions that are too large -/

lemma canonical_newTruncate (addr : ℕ) : Canonical (newTruncate addr) := by
  unfold Canonical newTruncate
  split_ifs <;> omega

/-- Rounding down stays in the same half of the address space. -/
lemma canonical_div_mul (S : PageSize) {addr : ℕ} (h : Canonical addr) :
    Canonical (addr / S.size * S.size) := by
  have hle : addr / S.size * S.size ≤ addr := Nat.div_mul_le_self _ _
  cases h with
  | inl hlow => exact Or.inl (hle.trans_lt hlow)
  | inr hhigh =>
      refine Or.inr ⟨?_, hle.trans_lt hhigh.2⟩
      cases S <;> simp only [PageSize.size, PageSize.unit, pageSize] <;> omega

lemma alignDown_le (S : PageSize) {addr : ℕ} (h : Canonical addr) : alignDown S addr ≤ addr := by
  rw [alignDown, newTruncate_of_canonical (canonical_div_mul S h)]
  exact Nat.div_mul_le_self _ _

/-- Rounding up past the lower half lands at the start of the upper one. -/
lemma le_newTruncate {addr : ℕ} (h : addr ≤ 2 ^ 47 ∨ Canonical addr) :
    addr ≤ newTruncate addr := by
  unfold Canonical at h
  unfold newTruncate
  split_ifs <;> omega

lemma le_alignUp {S : PageSize} {addr stop : ℕ} (h : Canonical addr)
    (hup : alignUp S addr = some stop) : addr ≤ stop := by
  unfold alignUp at hup
  split_ifs at hup with hmod hlt <;> cases hup
  · exact le_newTruncate (Or.inr h)
  · have hnext : addr ≤ (addr / S.size + 1) * S.size :=
      (Nat.lt_mul_of_div_lt (Nat.lt_succ_self _) S.size_pos).le
    refine hnext.trans (le_newTruncate ?_)
    cases h with
    | inl hlow =>
        refine Or.inl ?_
        cases S <;> simp only [PageSize.size, PageSize.unit, pageSize] <;> omega
    | inr hhigh => exact Or.inr (Or.inr ⟨hhigh.1.trans hnext, hlt⟩)

lemma canonical_alignUp {S : PageSize} {addr stop : ℕ} (hup : alignUp S addr = some stop) :
    Canonical stop := by
  unfold alignUp at hup
  split_ifs at hup <;> cases hup <;> exact canonical_newTruncate _

/-- The pages of a region of at most `2^16` frames have canonical ends: the region
lies in one half of the address space. -/
lemma canonical_page_end {S : PageSize} {start stop k j : ℕ} (hstart : Canonical start)
    (hstop : Canonical stop) (hle : start ≤ stop) (hsmall : (stop - start) / pageSize ≤ 2 ^ 16)
    (hend : stop / S.size = start / S.size + k) (hdvd : S.size ∣ start) (hdvd' : S.size ∣ stop)
    (hj : j < k) : Canonical ((start / S.size + j + 1) * S.size) := by
  have hlow : start ≤ (start / S.size + j + 1) * S.size := by
    calc start = start / S.size * S.size := (Nat.div_mul_cancel hdvd).symm
      _ ≤ (start / S.size + j + 1) * S.size := Nat.mul_le_mul_right _ (by omega)
  have hhigh : (start / S.size + j + 1) * S.size ≤ stop := by
    calc (start / S.size + j + 1) * S.size ≤ stop / S.size * S.size :=
          Nat.mul_le_mul_right _ (by omega)
      _ = stop := Nat.div_mul_cancel hdvd'
  have hbytes : stop - start < 2 ^ 29 := by
    rw [pageSize] at hsmall
    omega
  unfold Canonical at *
  omega

/-- A region of at most `2^16` frames is answered, with `Ok` or with `Err`. -/
lemma pageRegion_isSome (M : Mapper) {S : PageSize} (t : M.Table) {b : BuddyBits}
    {start stop stop' : ℕ} {flags : PageTableFlags} (hA : Apart (chunks b))
    (hmappable : Mappable M.toPageTables S flags t (regionPages S start stop)) (hle : start ≤ stop)
    (hstart : Canonical start) (hcan : Canonical stop) (hstop : alignUp S stop = some stop')
    (hsmall : (stop' - alignDown S start) / pageSize ≤ 2 ^ 16) :
    (pageRegion M S t b start stop flags).isSome := by
  have hle' : alignDown S start ≤ stop' :=
    ((alignDown_le S hstart).trans hle).trans (le_alignUp hcan hstop)
  have hstart' : Canonical (alignDown S start) := canonical_newTruncate _
  obtain ⟨-, hend⟩ := region_units (dvd_alignDown S start) (dvd_alignUp hstop) hle'
  obtain ⟨r, b₁, hpick, hT, -⟩ := pickOffContiguous_takes hA hsmall S.unit_le
  simp only [pageRegion, hstop, Option.bind_eq_bind, Option.bind_some, checkedSub, if_pos hle',
    pageRegionLoop, hpick]
  cases r with
  | none => rfl
  | some found =>
      obtain ⟨addr, k⟩ := found
      obtain ⟨rfl, -⟩ := pickOffContiguous_some hA S.unit_le hpick
      have hpages : regionPages S start stop = Finset.Ico (alignDown S start / S.size)
          (alignDown S start / S.size + (stop' - alignDown S start) / pageSize / S.unit) := by
        rw [regionPages, hstop, ← hend]
      rw [hpages] at hmappable
      obtain ⟨page', t', b', hmap⟩ := mapPages_returns M S flags addr (i := 0) hT.apart hmappable
        fun j hj => canonical_page_end hstart' (canonical_alignUp hstop) hle' hsmall hend
          (dvd_alignDown S start) (dvd_alignUp hstop) hj
      simp only [le_refl, if_true, Option.bind_some, hmap, Nat.sub_self]
      rfl

/-- A larger region panics: the level of the request is past `LEVEL_OFFSETS`. -/
lemma pageRegion_large (M : Mapper) {S : PageSize} (hS : S ≠ .size1GiB) (t : M.Table)
    (b : BuddyBits) {start stop stop' : ℕ} (flags : PageTableFlags)
    (hstop : alignUp S stop = some stop')
    (hlarge : 2 ^ 16 < (stop' - alignDown S start) / pageSize) :
    pageRegion M S t b start stop flags = none := by
  have hunit : Nat.clog 2 S.unit ≤ Nat.clog 2 ((stop' - alignDown S start) / pageSize) := by
    refine Nat.clog_mono_right 2 (le_trans ?_ hlarge.le)
    cases S with
    | size4KiB => norm_num [PageSize.unit]
    | size2MiB => norm_num [PageSize.unit]
    | size1GiB => exact absurd rfl hS
  have hle : alignDown S start ≤ stop' := by
    by_contra hlt
    rw [Nat.sub_eq_zero_of_le (not_le.mp hlt).le] at hlarge
    norm_num at hlarge
  cases pickOffContiguous_large b hlarge S.unit_le with
  | inl hnone =>
      simp only [pageRegion, hstop, Option.bind_eq_bind, Option.bind_some, checkedSub, if_pos hle,
        pageRegionLoop, hnone, Option.bind_none]
  | inr hlt => omega

/-- **When `page_region` returns**, for pages of 4 KiB or 2 MiB and flags with which `map_to`
does not panic: exactly when the end can be rounded up and the rounded region has at most `2^16`
frames (256 MiB). -/
theorem page_region_returns_iff (M : Mapper) (S : PageSize) (hS : S ≠ .size1GiB) (t : M.Table)
    (b : BuddyBits) (hA : Apart (chunks b)) (start stop : ℕ) (flags : PageTableFlags)
    (hmappable : Mappable M.toPageTables S flags t (regionPages S start stop))
    (hle : start ≤ stop) (hstart : Canonical start) (hcan : Canonical stop) :
    (pageRegion M S t b start stop flags).isSome ↔
      ∃ stop', alignUp S stop = some stop' ∧
        (stop' - alignDown S start) / pageSize ≤ 2 ^ 16 := by
  constructor
  · intro hsome
    cases hstop : alignUp S stop with
    | none => simp [pageRegion, hstop] at hsome
    | some stop' =>
        refine ⟨stop', rfl, ?_⟩
        by_contra hlarge
        simp [pageRegion_large M hS t b flags hstop (not_le.mp hlarge)] at hsome
  · rintro ⟨stop', hstop, hsmall⟩
    exact pageRegion_isSome M t hA hmappable hle hstart hcan hstop hsmall

/-- A page is answered. -/
theorem page_region_returns_onePage :
    (pageRegion FourLevel.fourLevel .size4KiB emptyTable oneQuad 0x100000000000 0x100000001000
      3#64).isSome :=
  (page_region_returns_iff FourLevel.fourLevel .size4KiB (by decide) emptyTable oneQuad
    apart_oneQuad _ _ 3#64 ⟨by decide, Or.inl (by decide)⟩ (by norm_num) (by decide)
    (by decide)).mpr ⟨0x100000001000, by decide, by decide⟩

/-- A region of 512 MiB panics, even when no frame is free at all: `target_level`
is 17, and `LEVEL_OFFSETS` has 17 entries. -/
theorem page_region_panics :
    Apart (chunks (BitArr.zeroed _)) ∧ Canonical 0x100000000000 ∧ Canonical 0x100020000000 ∧
      (pageRegion FourLevel.fourLevel .size4KiB emptyTable (BitArr.zeroed _) 0x100000000000
        0x100020000000 3#64).isSome = false :=
  ⟨apart_empty, by decide, by decide, by decide +kernel⟩

end Titanium
