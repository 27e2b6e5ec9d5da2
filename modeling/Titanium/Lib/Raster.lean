import Titanium.Lib.Memory

/-!
Pictures in memory.

The pixels of a picture are words of four bytes.  A row takes `pitch` bytes, of which
those behind the last pixel are not part of the picture.

* `disjoint_bytesOf`: pixels do not overlap.
* `view_writes_of_mem`, `view_writes_of_notMem`: **what is seen after a row of writes
  that agree with each other**.
* `writes_apply`: bytes that are in no pixel stay as they are.
-/

namespace Titanium

/-- Where a picture lies. -/
structure Raster where
  base : ℕ
  width : ℕ
  height : ℕ
  pitch : ℕ
  pitch_ge : 4 * width ≤ pitch

namespace Raster

variable (R : Raster)

/-- A pixel of the picture. -/
structure Inside (row column : ℕ) : Prop where
  row_lt : row < R.height
  column_lt : column < R.width

/-- The address of a pixel. -/
def pixelAt (row column : ℕ) : ℕ := R.base + row * R.pitch + 4 * column

/-- The bytes of a pixel. -/
def bytesOf (row column : ℕ) : Finset ℕ :=
  Finset.Ico (R.pixelAt row column) (R.pixelAt row column + 4)

/-- The pixel that is seen. -/
def view (mem : Mem) (row column : ℕ) : BitVec 32 :=
  .ofNat 32 (mem.readLE 4 (R.pixelAt row column))

/-- A pixel is written. -/
structure Write where
  row : ℕ
  column : ℕ
  data : BitVec 32
  deriving DecidableEq, Repr

def write (mem : Mem) (w : Write) : Mem :=
  mem.writeLE 4 (R.pixelAt w.row w.column) w.data.toNat

/-- Writes, one after the other. -/
def writes (mem : Mem) (ws : List Write) : Mem := ws.foldl R.write mem

@[simp] lemma writes_nil (mem : Mem) : R.writes mem [] = mem := rfl

@[simp] lemma writes_cons (mem : Mem) (w : Write) (ws : List Write) :
    R.writes mem (w :: ws) = R.writes (R.write mem w) ws := rfl

lemma writes_append (mem : Mem) (ws ws' : List Write) :
    R.writes mem (ws ++ ws') = R.writes (R.writes mem ws) ws' := List.foldl_append

variable {R} {mem : Mem} {row column row' column' : ℕ} {w : Write} {ws : List Write}

/-- A pixel with an earlier row ends before the next row starts. -/
lemma pixelAt_add_four_le (h : R.Inside row column) (hrow : row < row') :
    R.pixelAt row column + 4 ≤ R.pixelAt row' column' := by
  have hpitch := R.pitch_ge
  have hcolumn := h.column_lt
  have hnext : (row + 1) * R.pitch ≤ row' * R.pitch := Nat.mul_le_mul_right _ hrow
  rw [Nat.succ_mul] at hnext
  rw [pixelAt, pixelAt]
  omega

/-- **Pixels do not overlap.** -/
lemma disjoint_bytesOf (h : R.Inside row column) (h' : R.Inside row' column')
    (hne : ¬ (row = row' ∧ column = column')) :
    Disjoint (R.bytesOf row column) (R.bytesOf row' column') := by
  refine Finset.disjoint_left.mpr fun a ha ha' => ?_
  simp only [bytesOf, Finset.mem_Ico] at ha ha'
  obtain hlt | rfl | hgt := lt_trichotomy row row'
  · have hend : R.pixelAt row column + 4 ≤ R.pixelAt row' column' := pixelAt_add_four_le h hlt
    omega
  · simp only [pixelAt] at ha ha'
    omega
  · have hend : R.pixelAt row' column' + 4 ≤ R.pixelAt row column := pixelAt_add_four_le h' hgt
    omega

lemma write_apply {a : ℕ} (h : a ∉ R.bytesOf w.row w.column) : R.write mem w a = mem a :=
  Mem.writeLE_of_notMem h

lemma view_write_self : R.view (R.write mem w) w.row w.column = w.data := by
  have hlt : w.data.toNat < 256 ^ 4 := w.data.isLt
  rw [view, write, Mem.readLE_writeLE, Nat.mod_eq_of_lt hlt, BitVec.ofNat_toNat,
    BitVec.setWidth_eq]

lemma view_write_of_ne (h : R.Inside row column) (hw : R.Inside w.row w.column)
    (hne : ¬ (row = w.row ∧ column = w.column)) :
    R.view (R.write mem w) row column = R.view mem row column := by
  have hdisjoint := disjoint_bytesOf h hw hne
  rw [view, view, Mem.readLE_congr fun a ha => write_apply (Finset.disjoint_left.mp hdisjoint ha)]

/-- **A pixel that is not written stays as it is.** -/
lemma view_writes_of_notMem (h : R.Inside row column)
    (hws : ∀ w ∈ ws, R.Inside w.row w.column)
    (hnot : ∀ w ∈ ws, ¬ (row = w.row ∧ column = w.column)) :
    R.view (R.writes mem ws) row column = R.view mem row column := by
  induction ws generalizing mem with
  | nil => rfl
  | cons w ws ih =>
      obtain ⟨hw, hws⟩ := List.forall_mem_cons.mp hws
      obtain ⟨hne, hnot⟩ := List.forall_mem_cons.mp hnot
      rw [writes_cons, ih hws hnot, view_write_of_ne h hw hne]

/-- **A pixel that is written shows its colour**, if all the writes agree on it. -/
lemma view_writes_of_mem {colour : BitVec 32} (h : R.Inside row column)
    (hws : ∀ w ∈ ws, R.Inside w.row w.column)
    (hagree : ∀ w ∈ ws, row = w.row ∧ column = w.column → w.data = colour)
    (hmem : ∃ w ∈ ws, row = w.row ∧ column = w.column) :
    R.view (R.writes mem ws) row column = colour := by
  induction ws generalizing mem with
  | nil =>
      obtain ⟨w, hw, -⟩ := hmem
      exact absurd hw List.not_mem_nil
  | cons w ws ih =>
      obtain ⟨-, hin⟩ := List.forall_mem_cons.mp hws
      obtain ⟨hdata, hothers⟩ := List.forall_mem_cons.mp hagree
      rw [writes_cons]
      by_cases hlater : ∃ w' ∈ ws, row = w'.row ∧ column = w'.column
      · exact ih hin hothers hlater
      · -- the last write to the pixel is this one
        obtain ⟨w', hw', hpixel⟩ := hmem
        obtain rfl | hw' := List.mem_cons.mp hw'
        · have hrest : ∀ v ∈ ws, ¬ (row = v.row ∧ column = v.column) :=
            fun v hv hpixel => hlater ⟨v, hv, hpixel⟩
          rw [view_writes_of_notMem h hin hrest, hpixel.1, hpixel.2, view_write_self, hdata hpixel]
        · exact absurd ⟨w', hw', hpixel⟩ hlater

/-- Bytes outside of the pixels are not touched. -/
lemma writes_apply {a : ℕ} (hws : ∀ w ∈ ws, R.Inside w.row w.column)
    (ha : ∀ row column, R.Inside row column → a ∉ R.bytesOf row column) :
    R.writes mem ws a = mem a := by
  induction ws generalizing mem with
  | nil => rfl
  | cons w ws ih =>
      obtain ⟨hw, hws⟩ := List.forall_mem_cons.mp hws
      rw [writes_cons, ih hws, write_apply (ha _ _ hw)]

end Raster

end Titanium
