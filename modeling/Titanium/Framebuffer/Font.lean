import Titanium.Lib.Checked
import Titanium.Lib.Grid
import Titanium.Lib.Logged

/-!
Drawing text (`framebuffer/font.rs`, `framebuffer.rs`).

`draw_galley_at` draws a text glyph by glyph.  Before each one it may wrap to the next
line, and it returns when a line that it leaves was too low already.  What it does is
a log of the glyph bytes that it reads and the pixels that it writes; a sum that
overflows is a panic, and the log up to there stays.

* `exceeds_iff`: the tests for the width and for the height, in cells.
* `drawGlyph_follows`, `drawChars_follows`: **a run draws the characters in the cells
  of a grid, or panics on the way**.
* `drawGlyph_returns`, `drawChars_returns`: a run returns when all the cells lie
  inside a framebuffer that fits into memory.
-/

namespace Titanium

namespace Font

/-! ### Fonts, framebuffers and galleys -/

/-- A font file: the fields of `PSFFontHeader` that drawing reads, and the bytes.  What lies behind
the end of the file is whatever the memory holds there. -/
structure PSFFont where
  headersize : ℕ
  numglyph : ℕ
  bytesperglyph : ℕ
  height : ℕ
  width : ℕ
  bytes : ℕ → BitVec 8
  height_pos : 0 < height
  width_pos : 0 < width
  width_lt : width < 2 ^ 32
  numglyph_pos : 0 < numglyph
  /-- A glyph has whole bytes for each of its rows. -/
  rows_le : height * ((width + 7) / 8) ≤ bytesperglyph
  /-- The table of glyphs ends inside the file. -/
  table_lt : headersize + numglyph * bytesperglyph < 2 ^ 32

/-- The fields of a `Framebuffer` that drawing reads. -/
structure Framebuffer where
  width : ℕ
  height : ℕ
  pitch : ℕ
  pitch_ge : 4 * width ≤ pitch

/-- `Point`. -/
structure Point where
  x : ℕ
  y : ℕ
  deriving DecidableEq, Repr

/-- `Dim`. -/
inductive Dim where
  | unbounded
  | strict (n : ℕ)
  deriving DecidableEq, Repr

/-- `Galley`, with the characters of its text. -/
structure Galley where
  text : List Char
  width : Dim
  height : Dim
  deriving DecidableEq, Repr

/-- `Style`. -/
structure Style where
  fg : BitVec 32
  bg : BitVec 32
  deriving DecidableEq, Repr

/-- What drawing does. -/
inductive Event where
  /-- A character is drawn; this is not an access. -/
  | char (c : Char)
  /-- The byte of the font file at the offset is read. -/
  | glyph (offset : ℕ)
  | pixel (row column : ℕ) (data : BitVec 32)
  deriving DecidableEq, Repr

/-! ### `draw_galley_at` -/

section Draw

variable (fb : Framebuffer) (font : PSFFont) (galley : Galley) (style : Style) (point : Point)

/-- `offset + cell > max || point + offset + cell > limit`. -/
def exceeds (point offset cell max limit : ℕ) : Option Bool := do
  if (← checkedAdd 64 offset cell) > max then return true
  else return decide ((← checkedAdd 64 (← checkedAdd 64 point offset) cell) > limit)

/-- The line is too low for another one: never in a galley without a height. -/
def tooTall (offset : Point) : Option Bool :=
  match galley.height with
  | .unbounded => some false
  | .strict maxHeight => exceeds point.y offset.y font.height maxHeight fb.height

/-- The tests before a character: the offset to draw it at, or `none` if the galley overflowed. -/
def wrap (offset : Point) : Option (Option Point) :=
  match galley.width with
  | .unbounded => some (some offset)
  | .strict maxWidth => do
      if ← exceeds point.x offset.x font.width maxWidth fb.width then
        if ← tooTall fb font galley point offset then return none
        else return some ⟨0, ← checkedAdd 64 offset.y font.height⟩
      else return some offset

/-- `glyph_idx`. -/
def glyphIdx (c : Char) : ℕ := if c.toNat > font.numglyph then 0 else c.toNat

/-- `px_data`. -/
def pxData (glyphByte : BitVec 8) (x : ℕ) : BitVec 32 :=
  if glyphByte &&& 1 <<< (7 - x % 8) ≠ 0 then style.fg else style.bg

/-- One turn of the inner loop. -/
def drawPixel (offset : Point) (glyphRowPtr row x : ℕ) : Logged Event Unit := do
  Logged.emit (.glyph (glyphRowPtr + x / 8))
  let column ← checkedAdd 64 (← checkedAdd 64 point.x offset.x) x
  Logged.emit (.pixel row column (pxData style (font.bytes (glyphRowPtr + x / 8)) x))

/-- One turn of the loop over the rows, which hands on `glyph_row_ptr`. -/
def drawRow (offset : Point) (glyphRowPtr y : ℕ) : Logged Event ℕ := do
  let row ← checkedAdd 64 (← checkedAdd 64 point.y offset.y) y
  let _ ← checkedMul 64 row fb.pitch
  (List.range font.width).forM (drawPixel font style point offset glyphRowPtr row)
  return glyphRowPtr + font.width / 8

/-- A glyph is drawn. -/
def drawGlyph (offset : Point) (c : Char) : Logged Event Unit := do
  Logged.emit (.char c)
  let glyphPtr ←
    checkedAdd 32 font.headersize (← checkedMul 32 (glyphIdx font c) font.bytesperglyph)
  let _ ← (List.range font.height).foldlM (drawRow fb font style point offset) glyphPtr
  return ()

/-- The loop over the characters. -/
def drawChars : Point → List Char → Logged Event Unit
  | _, [] => return ()
  | offset, c :: cs => do
      match ← wrap fb font galley point offset with
      | none => return ()
      | some offset =>
          drawGlyph fb font style point offset c
          let x ← checkedAdd 64 offset.x font.width
          drawChars ⟨x, offset.y⟩ cs

/-- `draw_galley_at`. -/
def drawGalleyAt : Logged Event Unit := drawChars fb font galley style point ⟨0, 0⟩ galley.text

/-- `print_str_at`. -/
def printStrAt (string : List Char) : Logged Event Unit :=
  drawGalleyAt fb font ⟨string, .unbounded, .unbounded⟩ ⟨0xff00ff00, 0x00000000⟩ point

/-! ### The grid of cells -/

/-- How many cells fit between `point` and `limit`, and into `max`. -/
def fitting (point cell max limit : ℕ) : ℕ := min (max / cell) ((limit - point) / cell)

/-- The number of cells in a line. -/
def cols : Option ℕ :=
  match galley.width with
  | .unbounded => none
  | .strict maxWidth => some (fitting point.x font.width maxWidth fb.width)

/-- The number of the last line: the line that is entered from the last one that fits. -/
def lastLine : Option ℕ :=
  match galley.height with
  | .unbounded => none
  | .strict maxHeight => some (fitting point.y font.height maxHeight fb.height)

/-- The offset of a cell. -/
def toOffset (p : ℕ × ℕ) : Point := ⟨p.2 * font.width, p.1 * font.height⟩

/-- The byte with the bit of a pixel of a glyph. -/
def byteAt (c : Char) (x y : ℕ) : ℕ :=
  font.headersize + glyphIdx font c * font.bytesperglyph + y * (font.width / 8) + x / 8

/-- What drawing a glyph at an offset does in unbounded arithmetic. -/
def glyphEvents (offset : Point) (c : Char) : List Event :=
  .char c :: (List.range font.height).flatMap fun y => (List.range font.width).flatMap fun x =>
    [.glyph (byteAt font c x y), .pixel (point.y + offset.y + y) (point.x + offset.x + x)
      (pxData style (font.bytes (byteAt font c x y)) x)]

/-- The characters that are drawn, in their cells. -/
def placed : List ((ℕ × ℕ) × Char) :=
  Grid.place (cols fb font galley point) (lastLine fb font galley point) 0 galley.text

end Draw

/-! ### The tests -/

lemma exceeds_of_some {point offset cell max limit : ℕ} {b : Bool}
    (h : exceeds point offset cell max limit = some b) :
    b = true ↔ max < offset + cell ∨ limit < point + offset + cell := by
  obtain ⟨sum, hsum, h⟩ := Option.bind_eq_some_iff.mp h
  obtain ⟨-, rfl⟩ := checkedAdd_eq_some.mp hsum
  split_ifs at h with hmax
  · cases h
    exact iff_of_true rfl (Or.inl hmax)
  · obtain ⟨start, hstart, h⟩ := Option.bind_eq_some_iff.mp h
    obtain ⟨-, rfl⟩ := checkedAdd_eq_some.mp hstart
    obtain ⟨stop, hstop, h⟩ := Option.bind_eq_some_iff.mp h
    obtain ⟨-, rfl⟩ := checkedAdd_eq_some.mp hstop
    cases h
    rw [decide_eq_true_iff, or_iff_right hmax]

lemma exceeds_isSome {point offset cell max limit : ℕ} (h : point + offset + cell < 2 ^ 64) :
    (exceeds point offset cell max limit).isSome := by
  have hsum : checkedAdd 64 offset cell = some (offset + cell) := if_pos (by omega)
  have hstart : checkedAdd 64 point offset = some (point + offset) := if_pos (by omega)
  have hstop : checkedAdd 64 (point + offset) cell = some (point + offset + cell) := if_pos h
  simp only [exceeds, hsum, hstart, hstop, Option.bind_eq_bind, Option.bind_some]
  split_ifs <;> rfl

/-- **A test says that no further cell fits.** -/
lemma exceeds_iff {point cell max limit k : ℕ} (hcell : 0 < cell) :
    max < k * cell + cell ∨ limit < point + k * cell + cell ↔
      fitting point cell max limit ≤ k := by
  have hmax : max < k * cell + cell ↔ max / cell ≤ k := by
    rw [← Nat.succ_mul, ← Nat.div_lt_iff_lt_mul hcell, Nat.lt_succ_iff]
  have hlimit : limit < point + k * cell + cell ↔ (limit - point) / cell ≤ k := by
    rw [← Nat.lt_succ_iff, Nat.div_lt_iff_lt_mul hcell, Nat.succ_mul]
    omega
  rw [hmax, hlimit, fitting, min_le_iff]

section Run

variable {fb : Framebuffer} {font : PSFFont} {galley : Galley} {style : Style} {point : Point}

/-- The test for the height is about the line that is left. -/
lemma tooTall_of_some {p : ℕ × ℕ} {b : Bool}
    (h : tooTall fb font galley point (toOffset font p) = some b) :
    b = true ↔ ¬Grid.Within (lastLine fb font galley point) (p.1 + 1) := by
  cases hheight : galley.height with
  | unbounded =>
      simp only [tooTall, hheight, Option.some.injEq] at h
      simp [← h, lastLine, hheight, Grid.Within]
  | strict maxHeight =>
      simp only [tooTall, hheight] at h
      have hiff := (exceeds_of_some h).trans (exceeds_iff font.height_pos)
      simp [hiff, lastLine, hheight, Grid.Within]

/-- **The tests wrap the cursor**, or end the text behind the last line. -/
lemma wrap_of_some {p : ℕ × ℕ} (hp : Grid.Within (lastLine fb font galley point) p.1)
    {r : Option Point} (h : wrap fb font galley point (toOffset font p) = some r) :
    r = if Grid.Within (lastLine fb font galley point)
        (Grid.wrap (cols fb font galley point) p).1 then
      some (toOffset font (Grid.wrap (cols fb font galley point) p)) else none := by
  cases hwidth : galley.width with
  | unbounded =>
      simp only [wrap, hwidth, Option.some.injEq] at h
      simp only [← h, cols, hwidth, Grid.wrap, hp, if_true]
  | strict maxWidth =>
      simp only [wrap, hwidth] at h
      obtain ⟨wide, hwide, h⟩ := Option.bind_eq_some_iff.mp h
      have hiff := (exceeds_of_some hwide).trans (exceeds_iff font.width_pos)
      cases wide with
      | false =>
          have hfits : ¬fitting point.x font.width maxWidth fb.width ≤ p.2 :=
            fun hle => Bool.false_ne_true (hiff.mpr hle)
          cases h
          simp only [cols, hwidth, Grid.wrap, hfits, hp, if_true, if_false]
      | true =>
          have hfull : fitting point.x font.width maxWidth fb.width ≤ p.2 := hiff.mp rfl
          simp only [cols, hwidth, Grid.wrap, hfull, if_true]
          obtain ⟨tall, htall, h⟩ := Option.bind_eq_some_iff.mp h
          have hlast := tooTall_of_some htall
          cases tall with
          | true =>
              cases h
              rw [if_neg (hlast.mp rfl)]
          | false =>
              obtain ⟨y, hy, h⟩ := Option.bind_eq_some_iff.mp h
              obtain ⟨-, rfl⟩ := checkedAdd_eq_some.mp hy
              cases h
              rw [if_pos (not_not.mp fun hnot => Bool.false_ne_true (hlast.mpr hnot))]
              simp [toOffset, Nat.succ_mul]

/-! ### Drawing follows the grid -/

variable (fb font style point) in
lemma drawRow_follows (offset : Point) (glyphRowPtr y : ℕ) :
    (drawRow fb font style point offset glyphRowPtr y).Follows
      ((List.range font.width).flatMap fun x =>
        [.glyph (glyphRowPtr + x / 8), .pixel (point.y + offset.y + y) (point.x + offset.x + x)
          (pxData style (font.bytes (glyphRowPtr + x / 8)) x)])
      (glyphRowPtr + font.width / 8) := by
  refine Logged.Follows.lift_bind (fun _ h => eq_of_checkedAdd h) ?_
  refine Logged.Follows.lift_bind (fun _ h => eq_of_checkedAdd h) ?_
  refine Logged.Follows.lift_bind (fun _ h => eq_of_checkedMul h) ?_
  refine (Logged.Follows.forM fun x _ => ?_).bind_pure
  refine (Logged.Follows.emit _).bind ?_
  refine Logged.Follows.lift_bind (fun _ h => eq_of_checkedAdd h) ?_
  refine Logged.Follows.lift_bind (fun _ h => eq_of_checkedAdd h) ?_
  exact Logged.Follows.emit _

lemma drawGlyph_follows (offset : Point) (c : Char) :
    (drawGlyph fb font style point offset c).Follows
      (glyphEvents font style point offset c) () := by
  -- the pointer to the row is at `acc y` in turn `y`
  let acc (y : ℕ) : ℕ :=
    font.headersize + glyphIdx font c * font.bytesperglyph + y * (font.width / 8)
  refine (Logged.Follows.emit _).bind ?_
  refine Logged.Follows.lift_bind (fun _ h => eq_of_checkedMul h) ?_
  refine Logged.Follows.lift_bind (a := acc 0) (fun x h => ?_) ?_
  · rw [eq_of_checkedAdd h]
    simp [acc]
  · refine (Logged.Follows.foldlM_range fun y _ => ?_).bind_pure
    have hrow := drawRow_follows fb font style point offset (acc y) y
    rwa [show acc y + font.width / 8 = acc (y + 1) by simp only [acc]; ring] at hrow

lemma toOffset_cursor_zero (cols : Option ℕ) :
    toOffset font (Grid.cursor cols 0) = ⟨0, 0⟩ := by
  simp [toOffset, Grid.cursor]

lemma toOffset_cursor_succ (cols : Option ℕ) (i : ℕ) :
    toOffset font (Grid.cursor cols (i + 1)) =
      ⟨(toOffset font (Grid.cell cols i)).x + font.width,
        (toOffset font (Grid.cell cols i)).y⟩ := by
  simp [toOffset, Grid.cursor, Nat.succ_mul]

/-- **A run draws the characters in the cells of the grid**, or panics on the way. -/
lemma drawChars_follows {i : ℕ} {cs : List Char}
    (hline : Grid.Within (lastLine fb font galley point)
      (Grid.cursor (cols fb font galley point) i).1) :
    (drawChars fb font galley style point
        (toOffset font (Grid.cursor (cols fb font galley point) i)) cs).Follows
      ((Grid.place (cols fb font galley point) (lastLine fb font galley point) i cs).flatMap
        fun q => glyphEvents font style point (toOffset font q.1) q.2) () := by
  induction cs generalizing i with
  | nil => exact Logged.Follows.pure ()
  | cons c cs ih =>
      rw [drawChars, Grid.place]
      refine Logged.Follows.lift_bind (fun _ h => wrap_of_some hline h) ?_
      rw [Grid.wrap_cursor]
      split_ifs with hin
      · rw [List.flatMap_cons]
        refine (drawGlyph_follows _ c).bind ?_
        refine Logged.Follows.lift_bind (fun _ h => eq_of_checkedAdd h) ?_
        have hnext := @ih (i + 1) hin
        rwa [toOffset_cursor_succ] at hnext
      · exact Logged.Follows.pure ()

/-- **What `draw_galley_at` does**, unless it panics on the way. -/
lemma drawGalleyAt_follows :
    (drawGalleyAt fb font galley style point).Follows
      ((placed fb font galley point).flatMap fun q =>
        glyphEvents font style point (toOffset font q.1) q.2) () := by
  have hrun := @drawChars_follows fb font galley style point 0 galley.text fun m _ => Nat.zero_le m
  rwa [toOffset_cursor_zero] at hrun

/-! ### Runs that return -/

variable (fb font point) in
/-- The cell at an offset lies in the framebuffer. -/
structure Inside (offset : Point) : Prop where
  right_le : point.x + offset.x + font.width ≤ fb.width
  bottom_le : point.y + offset.y + font.height ≤ fb.height

/-- A framebuffer of at least one pixel that fits into memory is small. -/
lemma sizes_lt (hwidth : 0 < fb.width) (hheight : 0 < fb.height)
    (hmem : fb.height * fb.pitch < 2 ^ 64) : fb.width < 2 ^ 62 ∧ fb.height < 2 ^ 62 := by
  have hpitch := fb.pitch_ge
  have hrow : 1 * fb.pitch ≤ fb.height * fb.pitch := Nat.mul_le_mul_right _ hheight
  have hcolumn : fb.height * 4 ≤ fb.height * fb.pitch := Nat.mul_le_mul_left _ (by omega)
  omega

lemma Inside.sizes_lt {offset : Point} (h : Inside fb font point offset)
    (hmem : fb.height * fb.pitch < 2 ^ 64) : fb.width < 2 ^ 62 ∧ fb.height < 2 ^ 62 :=
  Font.sizes_lt (font.width_pos.trans_le ((Nat.le_add_left _ _).trans h.right_le))
    (font.height_pos.trans_le ((Nat.le_add_left _ _).trans h.bottom_le)) hmem

lemma drawRow_returns {offset : Point} {glyphRowPtr y : ℕ} (h : Inside fb font point offset)
    (hmem : fb.height * fb.pitch < 2 ^ 64) (hy : y < font.height) :
    (drawRow fb font style point offset glyphRowPtr y).result =
      some (glyphRowPtr + font.width / 8) := by
  obtain ⟨hright, hbottom⟩ := h
  obtain ⟨hwidth, hheight⟩ := Inside.sizes_lt ⟨hright, hbottom⟩ hmem
  have hstart : checkedAdd 64 point.y offset.y = some (point.y + offset.y) := if_pos (by omega)
  have hrow : checkedAdd 64 (point.y + offset.y) y = some (point.y + offset.y + y) :=
    if_pos (by omega)
  have hbytes : checkedMul 64 (point.y + offset.y + y) fb.pitch =
      some ((point.y + offset.y + y) * fb.pitch) :=
    if_pos ((Nat.mul_le_mul_right _ (by omega)).trans_lt hmem)
  have hpixels : ((List.range font.width).forM
      (drawPixel font style point offset glyphRowPtr (point.y + offset.y + y))).result =
      some () := by
    refine Logged.result_forM fun x hx => ?_
    have hx := List.mem_range.mp hx
    have hleft : checkedAdd 64 point.x offset.x = some (point.x + offset.x) := if_pos (by omega)
    have hcolumn : checkedAdd 64 (point.x + offset.x) x = some (point.x + offset.x + x) :=
      if_pos (by omega)
    simp only [drawPixel, Logged.result_bind, Logged.result_emit, Logged.result_lift, hleft,
      hcolumn, Option.bind_some]
  simp only [drawRow, Logged.result_bind, Logged.result_lift, Logged.result_pure, hstart, hrow,
    hbytes, hpixels, Option.bind_some]

lemma glyphIdx_le (c : Char) : glyphIdx font c ≤ font.numglyph := by
  unfold glyphIdx
  split_ifs <;> omega

/-- **A glyph is drawn without a panic** in a cell of a framebuffer that fits into memory. -/
lemma drawGlyph_returns {offset : Point} {c : Char} (h : Inside fb font point offset)
    (hmem : fb.height * fb.pitch < 2 ^ 64) :
    (drawGlyph fb font style point offset c).result = some () := by
  have htable := font.table_lt
  have hidx : glyphIdx font c * font.bytesperglyph ≤ font.numglyph * font.bytesperglyph :=
    Nat.mul_le_mul_right _ (glyphIdx_le c)
  have hmul : checkedMul 32 (glyphIdx font c) font.bytesperglyph =
      some (glyphIdx font c * font.bytesperglyph) := if_pos (by omega)
  have hadd : checkedAdd 32 font.headersize (glyphIdx font c * font.bytesperglyph) =
      some (font.headersize + glyphIdx font c * font.bytesperglyph) := if_pos (by omega)
  let acc (y : ℕ) : ℕ :=
    font.headersize + glyphIdx font c * font.bytesperglyph + y * (font.width / 8)
  have hrows : ((List.range font.height).foldlM (drawRow fb font style point offset)
      (acc 0)).result = some (acc font.height) := by
    refine Logged.result_foldlM_range fun y hy => ?_
    rw [drawRow_returns h hmem hy]
    exact congrArg some (by simp only [acc]; ring)
  rw [show acc 0 = font.headersize + glyphIdx font c * font.bytesperglyph by simp [acc]] at hrows
  simp only [drawGlyph, Logged.result_bind, Logged.result_emit, Logged.result_lift,
    Logged.result_pure, hmul, hadd, hrows, Option.bind_some]

lemma wrap_isSome {offset : Point} (hx : point.x + offset.x + font.width < 2 ^ 64)
    (hy : point.y + offset.y + font.height < 2 ^ 64) :
    (wrap fb font galley point offset).isSome := by
  unfold wrap
  cases galley.width with
  | unbounded => rfl
  | strict maxWidth =>
      have hwide : (exceeds point.x offset.x font.width maxWidth fb.width).isSome :=
        exceeds_isSome hx
      have htall : (tooTall fb font galley point offset).isSome := by
        unfold tooTall
        cases galley.height with
        | unbounded => rfl
        | strict maxHeight => exact exceeds_isSome hy
      obtain ⟨wide, hwide⟩ := Option.isSome_iff_exists.mp hwide
      obtain ⟨tall, htall⟩ := Option.isSome_iff_exists.mp htall
      have hnext : checkedAdd 64 offset.y font.height = some (offset.y + font.height) :=
        if_pos (by omega)
      simp only [hwide, htall, hnext, Option.bind_eq_bind, Option.bind_some]
      split_ifs <;> rfl

/-- **A run returns** when the cells of all the characters lie in a framebuffer that fits into
memory. -/
lemma drawChars_returns {i : ℕ} {cs : List Char} (hmem : fb.height * fb.pitch < 2 ^ 64)
    (hline : Grid.Within (lastLine fb font galley point)
      (Grid.cursor (cols fb font galley point) i).1)
    (hx : point.x + (toOffset font (Grid.cursor (cols fb font galley point) i)).x + font.width
      < 2 ^ 64)
    (hy : point.y + (toOffset font (Grid.cursor (cols fb font galley point) i)).y + font.height
      < 2 ^ 64)
    (hcells : ∀ q ∈ Grid.place (cols fb font galley point) (lastLine fb font galley point) i cs,
      Inside fb font point (toOffset font q.1)) :
    (drawChars fb font galley style point
      (toOffset font (Grid.cursor (cols fb font galley point) i)) cs).result = some () := by
  induction cs generalizing i with
  | nil => rfl
  | cons c cs ih =>
      obtain ⟨r, hr⟩ : ∃ r, wrap fb font galley point _ = some r :=
        Option.isSome_iff_exists.mp (wrap_isSome hx hy)
      have hwrap := wrap_of_some hline hr
      rw [Grid.wrap_cursor] at hwrap
      rw [Grid.place] at hcells
      rw [drawChars, Logged.result_bind, Logged.result_lift, hr, Option.bind_some, hwrap]
      split_ifs with hin
      · rw [if_pos hin, List.forall_mem_cons] at hcells
        obtain ⟨hcell, hcells⟩ := hcells
        have hsizes := hcell.sizes_lt hmem
        have hwidth := font.width_lt
        obtain ⟨hright, hbottom⟩ : Inside fb font point
          (toOffset font (Grid.cell (cols fb font galley point) i)) := hcell
        have hadd : checkedAdd 64 (toOffset font (Grid.cell (cols fb font galley point) i)).x
            font.width =
            some ((toOffset font (Grid.cell (cols fb font galley point) i)).x + font.width) :=
          if_pos (by omega)
        have hnext := @ih (i + 1) hin (by rw [toOffset_cursor_succ]; dsimp only; omega)
          (by rw [toOffset_cursor_succ]; dsimp only; omega) hcells
        rw [toOffset_cursor_succ] at hnext
        simp only [Logged.result_bind, Logged.result_lift,
          drawGlyph_returns ⟨hright, hbottom⟩ hmem, hadd, hnext, Option.bind_some]
      · rfl

lemma drawGalleyAt_returns (hmem : fb.height * fb.pitch < 2 ^ 64)
    (hx : point.x + font.width < 2 ^ 64) (hy : point.y + font.height < 2 ^ 64)
    (hcells : ∀ q ∈ placed fb font galley point, Inside fb font point (toOffset font q.1)) :
    (drawGalleyAt fb font galley style point).result = some () := by
  have hrun := @drawChars_returns fb font galley style point 0 galley.text hmem
    (fun m _ => Nat.zero_le m) (by rwa [toOffset_cursor_zero]) (by rwa [toOffset_cursor_zero])
    hcells
  rwa [toOffset_cursor_zero] at hrun

end Run

end Font

end Titanium
