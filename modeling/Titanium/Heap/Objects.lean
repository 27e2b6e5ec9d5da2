import Titanium.Heap.Global

/-!
Objects on the global allocator.

Several kinds of objects live side by side on one heap, each in a block of its own
that its bytes encode.  `Stored` relates the objects that are live to the state of
the allocator and to the memory.

* `Stored.insert`: an object that is made in a fresh block.
* `Stored.update`: an object whose bytes are changed by its owner.
* `Stored.erase`: an object whose block is given back.

Each of them says that every other object is as it was.
-/

namespace Titanium

/-- Objects, with the blocks that hold them and what the bytes of a block say. -/
structure ObjectKind where
  Obj : Type
  layout : Obj → Layout
  size_pos : ∀ o, 1 ≤ (layout o).size
  Encoded : Obj → Mem → ℕ → Prop
  /-- The bytes of the block decide. -/
  encoded_congr : ∀ {o p mem mem'}, (∀ a ∈ Block.bytes (p, layout o), mem' a = mem a) →
    Encoded o mem p → Encoded o mem' p

namespace ObjectKind

variable (K : ObjectKind)

/-- The block of an object. -/
def block (p : ℕ) (o : K.Obj) : Block := (p, K.layout o)

/-- The live objects, by the addresses of their blocks. -/
abbrev Store := ℕ → Option K.Obj

end ObjectKind

/-- **The objects are on the heap**, each in a block of its own. -/
structure Stored (A : GlobalAllocator) (K : ObjectKind) (σ : K.Store) (st : A.State) (mem : Mem) :
    Prop where
  valid : A.Valid st mem
  placed : ∀ {p o}, σ p = some o → p ≠ 0 ∧ (K.layout o).align ∣ p
  handed : ∀ {p o}, σ p = some o → K.block p o ∈ A.handed st
  encoded : ∀ {p o}, σ p = some o → K.Encoded o mem p
  apart : ∀ {p o q o'}, σ p = some o → σ q = some o' → p ≠ q →
    Disjoint (K.block p o).bytes (K.block q o').bytes

namespace Stored

variable {A : GlobalAllocator} {K : ObjectKind} {σ : K.Store} {st st' : A.State} {mem mem' : Mem}
  {p : ℕ} {o o' : K.Obj}

lemma empty (hv : A.Valid st mem) : Stored A K (fun _ => none) st mem :=
  ⟨hv, (nomatch ·), (nomatch ·), (nomatch ·), (nomatch ·)⟩

/-- The first byte of a block lies in it. -/
lemma mem_bytes (p : ℕ) (o : K.Obj) : p ∈ (K.block p o).bytes :=
  Finset.mem_Ico.mpr ⟨le_rfl, Nat.lt_add_of_pos_right (K.size_pos o)⟩

/-- The objects do not depend on the state of the allocator, as long as it keeps the blocks. -/
lemma of_kept (h : Stored A K σ st mem) (hv : A.Valid st' mem')
    (hhanded : ∀ B ∈ A.handed st, B ∈ A.handed st')
    (hkeep : ∀ B ∈ A.handed st, ∀ a ∈ Block.bytes B, mem' a = mem a) : Stored A K σ st' mem' :=
  ⟨hv, h.placed, fun hp => hhanded _ (h.handed hp),
    fun hp => K.encoded_congr (hkeep _ (h.handed hp)) (h.encoded hp), h.apart⟩

/-- The objects of a store with one more. -/
lemma update_cases {q : ℕ} {x : K.Obj} (h : Function.update σ p (some o) q = some x) :
    q = p ∧ x = o ∨ q ≠ p ∧ σ q = some x := by
  by_cases hqp : q = p
  · subst hqp
    rw [Function.update_self] at h
    exact Or.inl ⟨rfl, (Option.some.inj h).symm⟩
  · rw [Function.update_of_ne hqp] at h
    exact Or.inr ⟨hqp, h⟩

/-- **An object is written.**  Its owner changes no byte outside the block. -/
lemma update (h : Stored A K σ st mem) (hp : σ p = some o) (hlayout : K.layout o' = K.layout o)
    (hmem : ∀ a ∉ (K.block p o).bytes, mem' a = mem a) (henc : K.Encoded o' mem' p) :
    Stored A K (Function.update σ p (some o')) st mem' := by
  -- an object of the new store has the layout of an old one
  have hold : ∀ {q : ℕ} {x : K.Obj}, Function.update σ p (some o') q = some x →
      ∃ y, σ q = some y ∧ K.layout x = K.layout y := by
    intro q x hx
    obtain ⟨rfl, rfl⟩ | ⟨-, hx⟩ := update_cases hx
    · exact ⟨o, hp, hlayout⟩
    · exact ⟨x, hx, rfl⟩
  refine ⟨A.valid_write h.valid fun a ha => hmem a (ha _ (h.handed hp)), fun hx => ?_, fun hx => ?_,
    fun hx => ?_, fun hx hy hne => ?_⟩
  · obtain ⟨y, hy, heq⟩ := hold hx
    rw [heq]
    exact h.placed hy
  · obtain ⟨y, hy, heq⟩ := hold hx
    rw [ObjectKind.block, heq]
    exact h.handed hy
  · obtain ⟨rfl, rfl⟩ | ⟨hne, hx⟩ := update_cases hx
    · exact henc
    · refine K.encoded_congr (fun a ha => hmem a fun hin => ?_) (h.encoded hx)
      exact Finset.disjoint_left.mp (h.apart hx hp hne) ha hin
  · obtain ⟨x', hx', heq⟩ := hold hx
    obtain ⟨y', hy', heq'⟩ := hold hy
    rw [ObjectKind.block, ObjectKind.block, heq, heq']
    exact h.apart hx' hy' hne

/-- The address of a fresh block is not the address of a live object. -/
lemma eq_none_of_fresh (h : Stored A K σ st mem)
    (hfresh : ∀ B ∈ A.handed st, Disjoint (K.block p o).bytes (Block.bytes B)) : σ p = none := by
  by_contra hne
  obtain ⟨x, hx⟩ := Option.ne_none_iff_exists'.mp hne
  exact Finset.disjoint_left.mp (hfresh _ (h.handed hx)) (mem_bytes p o) (mem_bytes p x)

/-- **An object is made** in a fresh block. -/
lemma insert (h : Stored A K σ st mem) (hv : A.Valid st' mem')
    (hplaced : p ≠ 0 ∧ (K.layout o).align ∣ p)
    (hfresh : ∀ B ∈ A.handed st, Disjoint (K.block p o).bytes (Block.bytes B))
    (hhanded : A.handed st' = Insert.insert (K.block p o) (A.handed st))
    (hkeep : ∀ B ∈ A.handed st, ∀ a ∈ Block.bytes B, mem' a = mem a)
    (henc : K.Encoded o mem' p) : Stored A K (Function.update σ p (some o)) st' mem' := by
  have hold : Stored A K σ st' mem' :=
    h.of_kept hv (fun B hB => hhanded ▸ Finset.mem_insert_of_mem hB) hkeep
  refine ⟨hv, fun hx => ?_, fun hx => ?_, fun hx => ?_, fun hx hy hne => ?_⟩
  · obtain ⟨rfl, rfl⟩ | ⟨-, hx⟩ := update_cases hx
    · exact hplaced
    · exact hold.placed hx
  · obtain ⟨rfl, rfl⟩ | ⟨-, hx⟩ := update_cases hx
    · exact hhanded ▸ Finset.mem_insert_self _ _
    · exact hold.handed hx
  · obtain ⟨rfl, rfl⟩ | ⟨-, hx⟩ := update_cases hx
    · exact henc
    · exact hold.encoded hx
  · obtain ⟨rfl, rfl⟩ | ⟨-, hx'⟩ := update_cases hx
    · obtain ⟨rfl, rfl⟩ | ⟨-, hy'⟩ := update_cases hy
      · exact absurd rfl hne
      · exact hfresh _ (h.handed hy')
    · obtain ⟨rfl, rfl⟩ | ⟨-, hy'⟩ := update_cases hy
      · exact (hfresh _ (h.handed hx')).symm
      · exact h.apart hx' hy' hne

/-- **The block of an object is given back.** -/
lemma erase (h : Stored A K σ st mem) (hp : σ p = some o) :
    ∃ st' mem', A.dealloc st mem p (K.layout o) = some (st', mem') ∧
      Stored A K (Function.update σ p none) st' mem' := by
  obtain ⟨st', mem', hret, hhanded, hv, hkeep⟩ := A.dealloc_spec h.valid (h.handed hp)
  -- the blocks of the others are not the block that is given back
  have hstill : ∀ {q x}, Function.update σ p none q = some x →
      σ q = some x ∧ q ≠ p ∧ K.block q x ∈ A.handed st' := by
    intro q x hx
    have hqp : q ≠ p := by
      rintro rfl
      rw [Function.update_self] at hx
      cases hx
    rw [Function.update_of_ne hqp] at hx
    refine ⟨hx, hqp, ?_⟩
    rw [hhanded]
    exact Finset.mem_erase.mpr ⟨fun heq => hqp (congrArg Prod.fst heq), h.handed hx⟩
  refine ⟨st', mem', hret, hv, fun hx => h.placed (hstill hx).1, fun hx => (hstill hx).2.2,
    fun hx => ?_, fun hx hy hne => ?_⟩
  · obtain ⟨hx, -, hB⟩ := hstill hx
    exact K.encoded_congr (hkeep _ hB) (h.encoded hx)
  · exact h.apart (hstill hx).1 (hstill hy).1 hne

end Stored

end Titanium
