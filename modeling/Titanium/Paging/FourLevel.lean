import Titanium.Paging.Mapper

/-!
The four-level page table, as one `Mapper`.

A table hangs in a slot, the pair of its level and of its index among the
tables of that level.  `FourLevel.mapTo` walks from the root, creates the
tables that are missing and then fills the entry; a huge page in a slot on the
way, or an entry that is in use, stops it.  The flags of the entries above the
page are kept only as far as they are `PRESENT`.

* `createTables_spec`: the walk succeeds exactly when no slot holds a huge page
  and the frames suffice, and it creates exactly the tables that are missing.
* `createTables_absent`: without `PRESENT` it panics at the first table that is
  missing.
* `fourLevel`: the walk does what `Mapper` asks for.
-/

namespace Titanium

/-- With a free frame left `allocate_frame::<Size4KiB>` takes one. -/
lemma allocateFrame4KiB_cases {b : BuddyBits} (hA : Apart (chunks b)) :
    (freeFrames b = ∅ ∧ allocateFrame4KiB b = some (none, b)) ∨
      ∃ f b', allocateFrame4KiB b = some (some (f * pageSize), b') ∧ Takes b {f} b' := by
  obtain ⟨r, b', hal, hT, -⟩ := allocateChunkFromLevel_takes hA 0 (Nat.zero_le _)
  cases allocateChunkFromLevel_spec b (Nat.zero_le buddyLevels) with
  | inl hnone =>
      refine Or.inl ⟨Finset.eq_empty_of_forall_notMem fun f hf => ?_, hnone.2⟩
      obtain ⟨c, hc, -⟩ := mem_free.mp hf
      exact Nat.not_lt_zero _ (hnone.1 c hc)
  | inr hsome =>
      obtain ⟨c, -, -, -, b₁, hal₁, -⟩ := hsome
      rw [hal, Option.some.injEq, Prod.mk.injEq] at hal₁
      obtain ⟨rfl, rfl⟩ := hal₁
      have haddr : (c.first (c.level - 0)).addr =
          (c.first (c.level - 0)).idx * pageSize := by
        simp [Chunk.addr, Chunk.first]
      refine Or.inr ⟨(c.first (c.level - 0)).idx, b', haddr ▸ hal, ?_⟩
      rw [Option.map_some, haddr, handedOut, Nat.mul_div_cancel _ (by norm_num [pageSize]),
        pow_zero, Nat.Ico_succ_singleton] at hT
      exact hT

/-- The tables that exist, with their frames, and the mappings. -/
structure FourLevel where
  root : ℕ
  tables : Finset ((ℕ × ℕ) × ℕ)
  leaf : PageSize → ℕ → Option (ℕ × PageTableFlags)

namespace FourLevel

/-- The slots that hold a table. -/
def slots (t : FourLevel) : Finset (ℕ × ℕ) := t.tables.image Prod.fst

/-- The frames of the tables. -/
def frames (t : FourLevel) : Finset ℕ := insert t.root (t.tables.image Prod.snd)

/-- The slots on the way from the root to a page. -/
def path : PageSize → ℕ → List (ℕ × ℕ)
  | .size4KiB, page => [(3, page / 2 ^ 27), (2, page / 2 ^ 18), (1, page / 2 ^ 9)]
  | .size2MiB, page => [(3, page / 2 ^ 18), (2, page / 2 ^ 9)]
  | .size1GiB, page => [(3, page / 2 ^ 9)]

/-- The slot holds a huge page. -/
def huge (t : FourLevel) : ℕ × ℕ → Bool
  | (2, i) => (t.leaf .size1GiB i).isSome
  | (1, i) => (t.leaf .size2MiB i).isSome
  | _ => false

/-- The slot holds a table. -/
def hasTable (t : FourLevel) (s : ℕ × ℕ) : Bool := s ∈ t.slots

/-- The entry of the page is in use: it holds a mapping, or a table. -/
def used (t : FourLevel) : PageSize → ℕ → Bool
  | .size4KiB, page => (t.leaf .size4KiB page).isSome
  | .size2MiB, page => (t.leaf .size2MiB page).isSome || t.hasTable (1, page)
  | .size1GiB, page => (t.leaf .size1GiB page).isSome || t.hasTable (2, page)

/-- `create_next_table`: the table in a slot, made from a fresh frame if there
is none. -/
def createNextTable (flags : PageTableFlags) (t : FourLevel) (b : BuddyBits) (s : ℕ × ℕ) :
    Option (Except MapToError Unit × FourLevel × BuddyBits) :=
  if t.huge s then some (.error .parentEntryHugePage, t, b)
  else if s ∈ t.slots then some (.ok (), t, b)
  else do
    match ← allocateFrame4KiB b with
    | (none, b) => return (.error .frameAllocationFailed, t, b)
    | (some frame, b) =>
        -- the entry has been set, with the flags of the page, and is now looked up
        if flags &&& PageTableFlags.present = 0 then none
        else return (.ok (), { t with tables := insert (s, frame / pageSize) t.tables }, b)

/-- The walk along a path. -/
def createTables (flags : PageTableFlags) : List (ℕ × ℕ) → FourLevel → BuddyBits →
    Option (Except MapToError Unit × FourLevel × BuddyBits)
  | [], t, b => some (.ok (), t, b)
  | s :: rest, t, b => do
      match ← createNextTable flags t b s with
      | (.error e, t, b) => return (.error e, t, b)
      | (.ok (), t, b) => createTables flags rest t b

/-- The page is mapped. -/
def install (t : FourLevel) (S : PageSize) (page frame : ℕ) (flags : PageTableFlags) : FourLevel :=
  { t with leaf := fun S' q => if S' = S ∧ q = page then some (frame, flags) else t.leaf S' q }

lemma hasTable_install (t : FourLevel) (S : PageSize) (page frame : ℕ) (flags : PageTableFlags) :
    (t.install S page frame flags).hasTable = t.hasTable := rfl

lemma leaf_install (t : FourLevel) (S : PageSize) (page frame : ℕ) (flags : PageTableFlags)
    (S' : PageSize) (q : ℕ) : (t.install S page frame flags).leaf S' q =
      if S' = S ∧ q = page then some (frame, flags) else t.leaf S' q := rfl

/-- `map_to`. -/
def mapTo (t : FourLevel) (b : BuddyBits) (S : PageSize) (page frame : ℕ)
    (flags : PageTableFlags) : Option (Except MapToError Unit × FourLevel × BuddyBits) := do
  match ← createTables flags (path S page) t b with
  | (.error e, t, b) => return (.error e, t, b)
  | (.ok (), t, b) =>
      if t.used S page then return (.error (.pageAlreadyMapped frame), t, b)
      -- `set_frame`, which sets the entries of small pages, asserts this
      else if S = .size4KiB ∧ flags &&& PageTableFlags.hugePage ≠ 0 then none
      else return (.ok (), t.install S page frame flags, b)

/-! ### The walk -/

/-- What a walk along `p` may do: the mappings stay, and the tables made are
among the missing ones; it succeeds when no huge page is in the way and the
frames suffice, and then makes them all. -/
structure Walks (p : List (ℕ × ℕ)) (t : FourLevel) (b : BuddyBits) (r : Except MapToError Unit)
    (t' : FourLevel) (b' : BuddyBits) : Prop where
  leaf_eq : t'.leaf = t.leaf
  slots_subset : t.slots ⊆ t'.slots
  slots_le : t'.slots ⊆ t.slots ∪ p.toFinset
  ok_iff : r = .ok () ↔
    (∀ s ∈ p, t.huge s = false) ∧ (p.toFinset \ t.slots).card ≤ (freeFrames b).card
  slots_ok : r = .ok () → t'.slots = t.slots ∪ p.toFinset
  takes : ∃ taken, Takes b taken b' ∧ t'.frames = t.frames ∪ taken ∧
    (r = .ok () → taken.card = (p.toFinset \ t.slots).card)

lemma huge_congr {t t' : FourLevel} (h : t'.leaf = t.leaf) : t'.huge = t.huge := by
  funext s
  unfold huge
  split <;> simp [h]

/-- A walk that stops at once. -/
lemma Walks.stop {s : ℕ × ℕ} {rest : List (ℕ × ℕ)} {t : FourLevel} {b : BuddyBits}
    {e : MapToError} (hA : Apart (chunks b))
    (h : ¬((∀ q ∈ s :: rest, t.huge q = false) ∧
      ((s :: rest).toFinset \ t.slots).card ≤ (freeFrames b).card)) :
    Walks (s :: rest) t b (.error e) t b :=
  ⟨rfl, Finset.Subset.rfl, Finset.subset_union_left,
    ⟨fun he => (by cases he), fun h' => absurd h' h⟩, fun he => (by cases he), ∅, Takes.refl hA,
    (Finset.union_empty _).symm, fun he => (by cases he)⟩

/-- A walk whose first slot holds a table. -/
lemma Walks.cons_mem {s : ℕ × ℕ} {rest : List (ℕ × ℕ)} {t t' : FourLevel} {b b' : BuddyBits}
    {r : Except MapToError Unit} (hs : s ∈ t.slots) (hh : t.huge s = false)
    (h : Walks rest t b r t' b') : Walks (s :: rest) t b r t' b' := by
  have hmiss : (s :: rest).toFinset \ t.slots = rest.toFinset \ t.slots := by
    rw [List.toFinset_cons, Finset.insert_sdiff_of_mem _ hs]
  have hunion : t.slots ∪ (s :: rest).toFinset = t.slots ∪ rest.toFinset := by
    rw [List.toFinset_cons, Finset.union_insert, Finset.insert_eq_of_mem
      (Finset.mem_union_left _ hs)]
  refine ⟨h.leaf_eq, h.slots_subset, hunion ▸ h.slots_le, ?_, hunion ▸ h.slots_ok, hmiss ▸ h.takes⟩
  rw [h.ok_iff, hmiss, List.forall_mem_cons]
  exact ⟨fun h' => ⟨⟨hh, h'.1⟩, h'.2⟩, fun h' => ⟨h'.1.2, h'.2⟩⟩

/-- A walk that makes the table of its first slot. -/
lemma Walks.cons_new {s : ℕ × ℕ} {rest : List (ℕ × ℕ)} {t t' : FourLevel} {b b₁ b' : BuddyBits}
    {r : Except MapToError Unit} {f : ℕ} (hs : s ∉ t.slots) (hh : t.huge s = false)
    (hnd : s ∉ rest) (hT : Takes b {f} b₁)
    (h : Walks rest { t with tables := insert (s, f) t.tables } b₁ r t' b') :
    Walks (s :: rest) t b r t' b' := by
  set t₁ : FourLevel := { t with tables := insert (s, f) t.tables } with ht₁
  have hslots : t₁.slots = insert s t.slots := by simp [ht₁, slots]
  have hframes : t₁.frames = t.frames ∪ {f} := by
    simp [ht₁, frames, Finset.insert_comm, Finset.union_comm]
  have hunion : t₁.slots ∪ rest.toFinset = t.slots ∪ (s :: rest).toFinset := by
    rw [hslots, List.toFinset_cons, Finset.union_insert, Finset.insert_union]
  have hs' : s ∉ rest.toFinset := fun hmem => hnd (List.mem_toFinset.mp hmem)
  have hmiss : ((s :: rest).toFinset \ t.slots).card = (rest.toFinset \ t₁.slots).card + 1 := by
    rw [hslots, List.toFinset_cons, Finset.insert_sdiff_of_notMem _ hs,
      Finset.card_insert_of_notMem fun hmem => hs' (Finset.mem_sdiff.mp hmem).1,
      Finset.sdiff_insert, Finset.erase_eq_of_notMem fun hmem => hs' (Finset.mem_sdiff.mp hmem).1]
  have hfree : (freeFrames b₁).card + 1 = (freeFrames b).card := by
    rw [hT.card_free, Finset.card_singleton]
    exact Nat.sub_add_cancel (Finset.card_pos.mpr ⟨f, hT.subset (Finset.mem_singleton_self f)⟩)
  obtain ⟨taken, hT', hfr, hcard⟩ := h.takes
  refine ⟨h.leaf_eq, ?_, hunion ▸ h.slots_le, ?_, hunion ▸ h.slots_ok, {f} ∪ taken,
    hT.trans hT', ?_, fun hr => ?_⟩
  · exact (hslots ▸ Finset.subset_insert s t.slots).trans h.slots_subset
  · rw [h.ok_iff, hmiss, List.forall_mem_cons, huge_congr (show t₁.leaf = t.leaf from rfl)]
    exact ⟨fun h' => ⟨⟨hh, h'.1⟩, by omega⟩, fun h' => ⟨h'.1.2, by omega⟩⟩
  · rw [hfr, hframes, Finset.union_assoc]
  · rw [Finset.card_union_of_disjoint (hT.disjoint hT'), hcard hr, Finset.card_singleton, hmiss]
    omega

/-- A table that is missing, and what happens to it. -/
lemma createNextTable_new (flags : PageTableFlags) {t : FourLevel} {b : BuddyBits} {s : ℕ × ℕ}
    (hA : Apart (chunks b)) (hh : t.huge s = false) (hs : s ∉ t.slots) :
    (freeFrames b = ∅ ∧
      createNextTable flags t b s = some (.error .frameAllocationFailed, t, b)) ∨
    ∃ f b₁, Takes b {f} b₁ ∧ createNextTable flags t b s =
      if flags &&& PageTableFlags.present = 0 then none
      else some (.ok (), { t with tables := insert (s, f) t.tables }, b₁) := by
  rw [createNextTable, if_neg (by simp [hh]), if_neg hs]
  cases allocateFrame4KiB_cases hA with
  | inl hnone =>
      refine Or.inl ⟨hnone.1, ?_⟩
      rw [hnone.2]
      rfl
  | inr hsome =>
      obtain ⟨f, b₁, hal, hT⟩ := hsome
      refine Or.inr ⟨f, b₁, hT, ?_⟩
      simp only [hal, Option.bind_eq_bind, Option.bind_some, Option.pure_def,
        Nat.mul_div_cancel f (show 0 < pageSize by norm_num [pageSize])]

lemma createTables_spec {flags : PageTableFlags} {p : List (ℕ × ℕ)} (hnd : p.Nodup)
    {t t' : FourLevel} {b b' : BuddyBits} {r : Except MapToError Unit} (hA : Apart (chunks b))
    (h : createTables flags p t b = some (r, t', b')) : Walks p t b r t' b' := by
  induction p generalizing t b with
  | nil =>
      cases h
      refine ⟨rfl, Finset.Subset.rfl, Finset.subset_union_left, ?_, ?_, ∅,
        Takes.refl hA, (Finset.union_empty _).symm, ?_⟩ <;> simp
  | cons s rest ih =>
      have hnd' := List.nodup_cons.mp hnd
      rw [createTables] at h
      by_cases hh : t.huge s = true
      · rw [createNextTable, if_pos hh] at h
        cases h
        exact Walks.stop hA fun h => absurd hh (by simp [h.1 s (List.mem_cons_self ..)])
      have hh' : t.huge s = false := by simpa using hh
      by_cases hs : s ∈ t.slots
      · rw [createNextTable, if_neg hh, if_pos hs] at h
        exact (ih hnd'.2 hA h).cons_mem hs hh'
      cases createNextTable_new flags hA hh' hs with
      | inl hnone =>
          rw [hnone.2] at h
          cases h
          refine Walks.stop hA ?_
          rintro ⟨-, hle⟩
          rw [hnone.1, Finset.card_empty, Nat.le_zero, Finset.card_eq_zero,
            Finset.sdiff_eq_empty_iff_subset] at hle
          exact hs (hle (by simp))
      | inr hsome =>
          obtain ⟨f, b₁, hT, hnew⟩ := hsome
          rw [hnew] at h
          split_ifs at h
          · cases h
          · exact (ih hnd'.2 hT.apart h).cons_new hs hh' hnd'.1 hT

/-- The walk returns when it makes no table, or tables that are present. -/
lemma createTables_returns {flags : PageTableFlags} {p : List (ℕ × ℕ)} {t : FourLevel}
    {b : BuddyBits} (hA : Apart (chunks b))
    (h : flags &&& PageTableFlags.present ≠ 0 ∨ p.toFinset ⊆ t.slots) :
    ∃ r t' b', createTables flags p t b = some (r, t', b') := by
  induction p generalizing t b with
  | nil => exact ⟨.ok (), t, b, rfl⟩
  | cons s rest ih =>
      have hrest : flags &&& PageTableFlags.present ≠ 0 ∨ rest.toFinset ⊆ t.slots := by
        refine h.imp_right fun hsub => (Finset.subset_insert s rest.toFinset).trans ?_
        rwa [List.toFinset_cons] at hsub
      rw [createTables]
      by_cases hh : t.huge s = true
      · exact ⟨_, t, b, by rw [createNextTable, if_pos hh]; rfl⟩
      by_cases hs : s ∈ t.slots
      · obtain ⟨r, t', b', heq⟩ := ih hA hrest
        exact ⟨r, t', b', by rw [createNextTable, if_neg hh, if_pos hs]; exact heq⟩
      cases createNextTable_new flags hA (by simpa using hh) hs with
      | inl hnone => exact ⟨_, t, b, by rw [hnone.2]; rfl⟩
      | inr hsome =>
          obtain ⟨f, b₁, hT, hnew⟩ := hsome
          have hpresent : flags &&& PageTableFlags.present ≠ 0 :=
            h.resolve_right fun hsub => hs (hsub (by simp))
          obtain ⟨r, t', b', heq⟩ := ih (t := { t with tables := insert (s, f) t.tables })
            hT.apart (Or.inl hpresent)
          exact ⟨r, t', b', by rw [hnew, if_neg hpresent]; exact heq⟩

/-- **Without `PRESENT`** the walk panics at a missing table, with a frame to make it from. -/
lemma createTables_absent {flags : PageTableFlags} {p : List (ℕ × ℕ)} {t : FourLevel}
    {b : BuddyBits} (hA : Apart (chunks b)) (hflags : flags &&& PageTableFlags.present = 0)
    (hhuge : ∀ s ∈ p, t.huge s = false) (hmissing : ¬ p.toFinset ⊆ t.slots)
    (hfree : freeFrames b ≠ ∅) : createTables flags p t b = none := by
  induction p with
  | nil => exact absurd (Finset.empty_subset _) hmissing
  | cons s rest ih =>
      obtain ⟨hh, hrest⟩ := List.forall_mem_cons.mp hhuge
      rw [createTables]
      by_cases hs : s ∈ t.slots
      · rw [createNextTable, if_neg (by simp [hh]), if_pos hs]
        refine ih hrest fun hsub => hmissing ?_
        rw [List.toFinset_cons]
        exact Finset.insert_subset hs hsub
      · obtain ⟨hnone, -⟩ | ⟨f, b₁, -, hnew⟩ := createNextTable_new flags hA hh hs
        · exact absurd hnone hfree
        · rw [hnew, if_pos hflags]
          rfl

/-! ### The mapper -/

lemma nodup_path (S : PageSize) (page : ℕ) : (path S page).Nodup := by
  cases S <;> simp [path]

/-- What the kernel sees of a four-level page table. -/
abbrev view : PageTables where
  Table := FourLevel
  Slot := ℕ × ℕ
  decSlot := inferInstance
  leaf := FourLevel.leaf
  tables := frames
  Blocked t S page := t.used S page = true ∨ ∃ s ∈ path S page, t.huge s = true
  missing t S page := (path S page).toFinset \ t.slots

/-- A walk to a page of size `S` leaves the entries of that size alone. -/
lemma Walks.used_eq {S : PageSize} {page : ℕ} {t t' : FourLevel} {b b' : BuddyBits}
    {r : Except MapToError Unit} (h : Walks (path S page) t b r t' b') (q : ℕ) :
    t'.used S q = t.used S q := by
  -- the slots on the way are of a higher level than the entry
  have hslot : ∀ s : ℕ × ℕ, s ∉ path S page → (s ∈ t'.slots ↔ s ∈ t.slots) := fun s hs =>
    ⟨fun hmem => (Finset.mem_union.mp (h.slots_le hmem)).resolve_right
      fun hp => hs (List.mem_toFinset.mp hp), fun hmem => h.slots_subset hmem⟩
  cases S with
  | size4KiB => simp [used, h.leaf_eq]
  | size2MiB => simp [used, hasTable, h.leaf_eq, hslot (1, q) (by simp [path])]
  | size1GiB => simp [used, hasTable, h.leaf_eq, hslot (2, q) (by simp [path])]

/-- Neither do the entries of the tables above. -/
lemma Walks.blocked_iff {S : PageSize} {page : ℕ} {t t' : FourLevel} {b b' : BuddyBits}
    {r : Except MapToError Unit} (h : Walks (path S page) t b r t' b') (q : ℕ) :
    view.Blocked t' S q ↔ view.Blocked t S q := by
  show (_ ∨ _) ↔ (_ ∨ _)
  rw [h.used_eq, huge_congr h.leaf_eq]

/-- A mapping of size `S` is in nobody's way but its own. -/
lemma blocked_install_iff (t : FourLevel) (S : PageSize) (page frame : ℕ) (flags : PageTableFlags)
    (q : ℕ) : view.Blocked (t.install S page frame flags) S q ↔ view.Blocked t S q ∨ q = page := by
  cases S <;> by_cases hq : q = page <;>
    simp [used, path, huge, leaf_install, hasTable_install, hq]

lemma Walks.missing_subset {p : List (ℕ × ℕ)} {t t' : FourLevel} {b b' : BuddyBits}
    {r : Except MapToError Unit} (h : Walks p t b r t' b') (S : PageSize) (q : ℕ) :
    view.missing t' S q ⊆ view.missing t S q :=
  Finset.sdiff_subset_sdiff Finset.Subset.rfl h.slots_subset

lemma Walks.missing_ok {S : PageSize} {page : ℕ} {t t' : FourLevel} {b b' : BuddyBits}
    (h : Walks (path S page) t b (.ok ()) t' b') (q : ℕ) :
    view.missing t' S q = view.missing t S q \ view.missing t S page := by
  show (path S q).toFinset \ t'.slots =
    ((path S q).toFinset \ t.slots) \ ((path S page).toFinset \ t.slots)
  rw [h.slots_ok rfl]
  ext s
  simp only [Finset.mem_sdiff, Finset.mem_union, List.mem_toFinset]
  tauto

/-- An error after the walk, whether the walk failed or the entry was in use. -/
lemma mapTo_error {S : PageSize} {page frame : ℕ} {flags : PageTableFlags} {t t' : FourLevel}
    {b b' : BuddyBits} {r : Except MapToError Unit} {e : MapToError}
    (h : Walks (path S page) t b r t' b') (hbad : r ≠ .ok () ∨ t.used S page = true) :
    MapTo view t b S page frame flags (.error e) t' b' := by
  obtain ⟨taken, hT, hfr, -⟩ := h.takes
  refine ⟨⟨fun he => (by cases he), fun hok => ?_⟩, ⟨taken, hT, hfr, fun he => (by cases he)⟩,
    fun he => (by cases he), fun _ => h.leaf_eq, fun q => ?_, fun he => (by cases he),
    h.missing_subset S⟩
  · cases hbad with
    | inl hr =>
        refine absurd (h.ok_iff.mpr ⟨fun s hs => ?_, hok.2⟩) hr
        by_contra hh
        exact hok.1 (Or.inr ⟨s, hs, by simpa using hh⟩)
    | inr hu => exact absurd (Or.inl hu) hok.1
  · rw [h.blocked_iff]
    simp

lemma mapTo_ok {S : PageSize} {page frame : ℕ} {flags : PageTableFlags} {t t' : FourLevel}
    {b b' : BuddyBits} (h : Walks (path S page) t b (.ok ()) t' b') (hu : t.used S page = false) :
    MapTo view t b S page frame flags (.ok ()) (t'.install S page frame flags) b' := by
  obtain ⟨hhuge, hcard⟩ := h.ok_iff.mp rfl
  have hopen : ¬ view.Blocked t S page := by
    rintro (hused | ⟨s, hs, hh⟩)
    · rw [hu] at hused
      cases hused
    · rw [hhuge s hs] at hh
      cases hh
  refine ⟨⟨fun _ => ⟨hopen, hcard⟩, fun _ => rfl⟩, h.takes, fun _ S' q => ?_,
    fun he => absurd rfl he, fun q => ?_, fun _ => h.missing_ok, h.missing_subset S⟩
  · show (t'.install S page frame flags).leaf S' q = _
    rw [leaf_install, h.leaf_eq]
  · rw [blocked_install_iff, h.blocked_iff]
    simp

lemma mapTo_spec {t t' : FourLevel} {b b' : BuddyBits} {S : PageSize} {page frame : ℕ}
    {flags : PageTableFlags} {r : Except MapToError Unit} (hA : Apart (chunks b))
    (h : mapTo t b S page frame flags = some (r, t', b')) :
    MapTo view t b S page frame flags r t' b' := by
  rw [mapTo] at h
  obtain ⟨⟨e, t₁, b₁⟩, hwalk, h⟩ := Option.bind_eq_some_iff.mp h
  have hW := createTables_spec (nodup_path S page) hA hwalk
  cases e with
  | error e =>
      cases h
      exact mapTo_error hW (Or.inl (by simp))
  | ok u =>
      have hused := hW.used_eq page
      dsimp only at h
      split_ifs at h with hu hhuge
      · cases h
        exact mapTo_error hW (Or.inr (hused ▸ hu))
      · cases h
        exact mapTo_ok hW (by simpa [hused] using hu)

lemma mapTo_returns {t : FourLevel} {b : BuddyBits} {S : PageSize} {page : ℕ}
    {flags : PageTableFlags} (frame : ℕ) (hA : Apart (chunks b))
    (hhuge : flags &&& PageTableFlags.hugePage = 0)
    (h : flags &&& PageTableFlags.present ≠ 0 ∨ view.missing t S page = ∅) :
    ∃ r t' b', mapTo t b S page frame flags = some (r, t', b') := by
  obtain ⟨r, t', b', hwalk⟩ := createTables_returns (p := path S page) (t := t) hA
    (h.imp_right Finset.sdiff_eq_empty_iff_subset.mp)
  rw [mapTo, hwalk]
  cases r with
  | error e => exact ⟨_, t', b', rfl⟩
  | ok u =>
      dsimp only [Option.bind_eq_bind, Option.bind_some]
      rw [if_neg fun hS : S = .size4KiB ∧ flags &&& PageTableFlags.hugePage ≠ 0 => hS.2 hhuge]
      split_ifs
      · exact ⟨_, t', b', rfl⟩
      · exact ⟨_, _, b', rfl⟩

lemma mapTo_panics {t : FourLevel} {b : BuddyBits} {S : PageSize} {page : ℕ}
    {flags : PageTableFlags} (frame : ℕ) (hA : Apart (chunks b))
    (hflags : flags &&& PageTableFlags.present = 0) (hopen : ¬ view.Blocked t S page)
    (hmissing : view.missing t S page ≠ ∅) (hfree : freeFrames b ≠ ∅) :
    mapTo t b S page frame flags = none := by
  have hwalk : createTables flags (path S page) t b = none := by
    refine createTables_absent hA hflags (fun s hs => ?_) (fun hsub => hmissing ?_) hfree
    · by_contra hh
      exact hopen (Or.inr ⟨s, hs, by simpa using hh⟩)
    · exact Finset.sdiff_eq_empty_iff_subset.mpr hsub
  rw [mapTo, hwalk]
  rfl

/-- The four-level page table is a mapper. -/
abbrev fourLevel : Mapper where
  toPageTables := view
  mapTo := mapTo
  blocked_of_leaf {t S page} h := by
    have hsome : (t.leaf S page).isSome = true := Option.isSome_iff_ne_none.mpr h
    refine Or.inl ?_
    cases S <;> simp [used, hsome]
  mapTo_spec := mapTo_spec
  mapTo_returns := mapTo_returns
  mapTo_panics := mapTo_panics

end FourLevel

end Titanium
