import Titanium.Framebuffer.Font

/-!
Where text is drawn, and how much of it (`framebuffer/font.rs`).

* `glyphEvents_inBounds_iff`: a glyph stays in the memory that it may touch exactly
  when its cell lies in the framebuffer and its character is not the first one behind
  the table.
* `draw_in_memory_iff`: **the same for a whole text**, in every kind of galley.
* `strict_galley_iff`: **a strict galley is respected exactly by the texts that fit
  into it**; a longer one gets a line below the box.
-/

namespace Titanium

namespace Font

variable {fb : Framebuffer} {font : PSFFont} {galley : Galley} {style : Style} {point : Point}

/-! ### Accesses in bounds -/

/-- A pixel is in the framebuffer, and a glyph byte is in the table of glyphs. -/
def Event.InBounds (fb : Framebuffer) (font : PSFFont) : Event → Prop
  | .char _ => True
  | .glyph offset => font.headersize ≤ offset ∧
      offset < font.headersize + font.numglyph * font.bytesperglyph
  | .pixel row column _ => row < fb.height ∧ column < fb.width

lemma mem_glyphEvents {offset : Point} {c : Char} {e : Event} :
    e ∈ glyphEvents font style point offset c ↔ e = .char c ∨
      ∃ y < font.height, ∃ x < font.width, e = .glyph (byteAt font c x y) ∨
        e = .pixel (point.y + offset.y + y) (point.x + offset.x + x)
          (pxData style (font.bytes (byteAt font c x y)) x) := by
  simp [glyphEvents]

lemma glyphIdx_lt_iff {c : Char} : glyphIdx font c < font.numglyph ↔ c.toNat ≠ font.numglyph := by
  have hpos := font.numglyph_pos
  unfold glyphIdx
  split_ifs <;> omega

/-- The rows of a glyph do not reach into the next one. -/
lemma byteAt_lt {c : Char} {x y : ℕ} (hx : x < font.width) (hy : y < font.height) :
    byteAt font c x y < font.headersize + (glyphIdx font c + 1) * font.bytesperglyph := by
  have hrow : y * (font.width / 8) ≤ y * ((font.width + 7) / 8) :=
    Nat.mul_le_mul_left _ (Nat.div_le_div_right (by omega))
  have hlast : (y + 1) * ((font.width + 7) / 8) ≤ font.height * ((font.width + 7) / 8) :=
    Nat.mul_le_mul_right _ hy
  have hrows := font.rows_le
  rw [Nat.succ_mul] at hlast
  rw [byteAt, Nat.succ_mul]
  omega

/-- **A glyph stays in its memory** exactly when its cell lies in the framebuffer and its
character is not the first one behind the table. -/
lemma glyphEvents_inBounds_iff {offset : Point} {c : Char} :
    (∀ e ∈ glyphEvents font style point offset c, e.InBounds fb font) ↔
      Inside fb font point offset ∧ c.toNat ≠ font.numglyph := by
  have hwidth := font.width_pos
  have hheight := font.height_pos
  constructor
  · intro h
    -- the last pixel of the cell is its corner, and the first byte is that of the glyph
    have hpixel := h _ (mem_glyphEvents.mpr (.inr ⟨font.height - 1, by omega, font.width - 1,
      by omega, .inr rfl⟩))
    have hbyte := h _ (mem_glyphEvents.mpr (.inr ⟨0, hheight, 0, hwidth, .inl rfl⟩))
    obtain ⟨hrow, hcolumn⟩ := hpixel
    refine ⟨⟨by omega, by omega⟩, glyphIdx_lt_iff.mp ?_⟩
    have hlt := hbyte.2
    rw [byteAt, Nat.zero_mul, Nat.zero_div, Nat.add_zero, Nat.add_lt_add_iff_left] at hlt
    exact lt_of_mul_lt_mul_right hlt (Nat.zero_le _)
  · rintro ⟨⟨hright, hbottom⟩, hc⟩ e he
    have hidx : (glyphIdx font c + 1) * font.bytesperglyph ≤ font.numglyph * font.bytesperglyph :=
      Nat.mul_le_mul_right _ (glyphIdx_lt_iff.mpr hc)
    obtain rfl | ⟨y, hy, x, hx, rfl | rfl⟩ := mem_glyphEvents.mp he
    · exact trivial
    · have hlt := byteAt_lt (c := c) hx hy
      exact ⟨by rw [byteAt]; omega, by omega⟩
    · exact ⟨by omega, by omega⟩

/-- What is known of the events of a text, from what is known of its glyphs. -/
lemma forall_mem_placed_iff {P : Event → Prop} :
    (∀ e ∈ (placed fb font galley point).flatMap fun q =>
        glyphEvents font style point (toOffset font q.1) q.2, P e) ↔
      ∀ i c, galley.text[i]? = some c →
        Grid.Within (lastLine fb font galley point) (Grid.cell (cols fb font galley point) i).1 →
        ∀ e ∈ glyphEvents font style point
          (toOffset font (Grid.cell (cols fb font galley point) i)) c, P e := by
  constructor
  · intro h i c hc hline e he
    refine h e (List.mem_flatMap.mpr ⟨_, Grid.mem_place.mpr ⟨i, hc, rfl, ?_⟩, ?_⟩)
    · rwa [Nat.zero_add]
    · rwa [Nat.zero_add]
  · intro h e he
    obtain ⟨⟨p, c⟩, hq, he⟩ := List.mem_flatMap.mp he
    obtain ⟨i, hc, rfl, hline⟩ := Grid.mem_place.mp hq
    rw [Nat.zero_add] at he hline
    exact h i c hc hline e he

/-- Each character that is drawn has a cell in the framebuffer, and is not the first one behind the
table of glyphs. -/
def Drawable (fb : Framebuffer) (font : PSFFont) (galley : Galley) (point : Point) : Prop :=
  ∀ i c, galley.text[i]? = some c →
    Grid.Within (lastLine fb font galley point) (Grid.cell (cols fb font galley point) i).1 →
    Inside fb font point (toOffset font (Grid.cell (cols fb font galley point) i)) ∧
      c.toNat ≠ font.numglyph

lemma placed_inBounds_iff :
    (∀ e ∈ (placed fb font galley point).flatMap fun q =>
        glyphEvents font style point (toOffset font q.1) q.2, e.InBounds fb font) ↔
      Drawable fb font galley point :=
  forall_mem_placed_iff.trans (forall₄_congr fun _ _ _ _ => glyphEvents_inBounds_iff)

/-- **Text stays in its memory if each character can be drawn**, and only then, if the call
returns. -/
theorem draw_in_memory_iff (fb : Framebuffer) (font : PSFFont) (galley : Galley) (style : Style)
    (point : Point) :
    (Drawable fb font galley point →
      ∀ e ∈ (drawGalleyAt fb font galley style point).log, e.InBounds fb font) ∧
    ((drawGalleyAt fb font galley style point).result = some () →
      (∀ e ∈ (drawGalleyAt fb font galley style point).log, e.InBounds fb font) →
      Drawable fb font galley point) := by
  have hrun : (drawGalleyAt fb font galley style point).Follows _ () := drawGalleyAt_follows
  constructor
  · intro h e he
    exact placed_inBounds_iff.mpr h e (hrun.mem he)
  · intro hreturns h
    rw [hrun.log_eq hreturns] at h
    exact placed_inBounds_iff.mp h

/-! ### The font of the kernel -/

/-- `lat9-12.psf`, with the bytes that it has. -/
def lat9 (bytes : ℕ → BitVec 8) : PSFFont where
  headersize := 32
  numglyph := 256
  bytesperglyph := 12
  height := 12
  width := 8
  bytes := bytes
  height_pos := by decide
  width_pos := by decide
  width_lt := by decide
  numglyph_pos := by decide
  rows_le := by decide
  table_lt := by decide

/-- `lat9` with empty glyphs. -/
def blank : PSFFont := lat9 fun _ => 0#8

/-- A framebuffer of 8 by 24 pixels: two cells of `lat9`. -/
def twoCells : Framebuffer := ⟨8, 24, 32, by decide⟩

/-- A character in the first cell stays in its memory. -/
theorem draw_letter_in_memory :
    ∀ e ∈ (drawGalleyAt twoCells blank ⟨['a'], .strict 8, .strict 12⟩ ⟨1, 0⟩ ⟨0, 0⟩).log,
      e.InBounds twoCells blank := by
  refine (draw_in_memory_iff _ _ _ _ _).1 fun i c hc _ => ?_
  cases i with
  | zero =>
      cases hc
      exact ⟨⟨by decide, by decide⟩, by decide⟩
  | succ i => cases hc

/-- **A character behind the table is read from behind it, and a text is not clipped**: U+0100 has
the number of glyphs as its index, and the second character of an unbounded galley goes to the
right of the framebuffer. -/
theorem print_str_outside_memory :
    ((printStrAt twoCells blank ⟨0, 0⟩ ['Ā']).result = some () ∧
      .glyph 3104 ∈ (printStrAt twoCells blank ⟨0, 0⟩ ['Ā']).log ∧
      ¬(Event.glyph 3104).InBounds twoCells blank) ∧
    (printStrAt twoCells blank ⟨0, 0⟩ ['a', 'b']).result = some () ∧
      .pixel 0 8 0 ∈ (printStrAt twoCells blank ⟨0, 0⟩ ['a', 'b']).log ∧
      ¬(Event.pixel 0 8 0).InBounds twoCells blank := by
  refine ⟨⟨by decide +kernel, by decide +kernel, ?_⟩, by decide +kernel, by decide +kernel, ?_⟩
  · exact fun h => absurd h.2 (by decide)
  · exact fun h => absurd h.2 (by decide)

/-! ### Strict galleys -/

/-- The characters that a log says are drawn. -/
def drawnChars (log : List Event) : List Char :=
  log.filterMap fun
    | .char c => some c
    | _ => none

lemma drawnChars_glyphEvents (offset : Point) (c : Char) :
    drawnChars (glyphEvents font style point offset c) = [c] := by
  simp [drawnChars, glyphEvents, List.filterMap_flatMap]

/-- The characters that are drawn are those that have a cell. -/
lemma drawnChars_placed :
    drawnChars ((placed fb font galley point).flatMap fun q =>
      glyphEvents font style point (toOffset font q.1) q.2) =
    (placed fb font galley point).map Prod.snd := by
  rw [drawnChars, List.filterMap_flatMap, ← List.flatMap_singleton' (List.map _ _),
    List.flatMap_map]
  exact List.flatMap_congr fun q _ => drawnChars_glyphEvents _ _

/-- A galley of `w` by `h` pixels is respected: the call returns, it writes inside the box, and it
draws the characters that fit into the box. -/
structure Respected (fb : Framebuffer) (font : PSFFont) (text : List Char) (style : Style)
    (point : Point) (w h : ℕ) : Prop where
  returns : (drawGalleyAt fb font ⟨text, .strict w, .strict h⟩ style point).result = some ()
  in_box : ∀ row column data,
    .pixel row column data ∈ (drawGalleyAt fb font ⟨text, .strict w, .strict h⟩ style point).log →
      (point.y ≤ row ∧ row < point.y + h) ∧ point.x ≤ column ∧ column < point.x + w
  chars : drawnChars (drawGalleyAt fb font ⟨text, .strict w, .strict h⟩ style point).log =
    text.take (w / font.width * (h / font.height))

section Strict

variable {text : List Char} {w h : ℕ}

/-- Where the box lies in the framebuffer, the framebuffer sets no limit. -/
lemma fitting_eq {point cell max limit : ℕ} (h : point + max ≤ limit) :
    fitting point cell max limit = max / cell :=
  min_eq_left (Nat.div_le_div_right (by omega))

lemma cols_strict (hright : point.x + w ≤ fb.width) :
    cols fb font ⟨text, .strict w, .strict h⟩ point = some (w / font.width) :=
  congrArg some (fitting_eq hright)

lemma lastLine_strict (hbottom : point.y + h ≤ fb.height) :
    lastLine fb font ⟨text, .strict w, .strict h⟩ point = some (h / font.height) :=
  congrArg some (fitting_eq hbottom)

/-- **The line behind the last one that fits is drawn as well.** -/
lemma map_snd_placed (hw : font.width ≤ w) (hright : point.x + w ≤ fb.width)
    (hbottom : point.y + h ≤ fb.height) :
    (placed fb font ⟨text, .strict w, .strict h⟩ point).map Prod.snd =
      text.take (w / font.width * (h / font.height + 1)) := by
  rw [placed, cols_strict hright, lastLine_strict hbottom,
    Grid.map_snd_place (Nat.div_pos hw font.width_pos), Nat.sub_zero]

/-- The cells of a text that fits lie in the box. -/
lemma cell_in_box (hw : font.width ≤ w) {i : ℕ} (hi : i < w / font.width * (h / font.height)) :
    (toOffset font (Grid.cell (some (w / font.width)) i)).x + font.width ≤ w ∧
      (toOffset font (Grid.cell (some (w / font.width)) i)).y + font.height ≤ h := by
  have hcols : 0 < w / font.width := Nat.div_pos hw font.width_pos
  have hline : i / (w / font.width) < h / font.height :=
    (Nat.div_lt_iff_lt_mul hcols).mpr (by rwa [Nat.mul_comm])
  have hcol : i % (w / font.width) < w / font.width := Nat.mod_lt _ hcols
  rw [Grid.cell_of_pos hcols, toOffset]
  constructor
  · calc i % (w / font.width) * font.width + font.width
        = (i % (w / font.width) + 1) * font.width := (Nat.succ_mul _ _).symm
      _ ≤ w / font.width * font.width := Nat.mul_le_mul_right _ hcol
      _ ≤ w := Nat.div_mul_le_self _ _
  · calc i / (w / font.width) * font.height + font.height
        = (i / (w / font.width) + 1) * font.height := (Nat.succ_mul _ _).symm
      _ ≤ h / font.height * font.height := Nat.mul_le_mul_right _ hline
      _ ≤ h := Nat.div_mul_le_self _ _

/-- The cell of each character that is drawn, for a text that fits. -/
lemma placed_in_box (hw : font.width ≤ w) (hright : point.x + w ≤ fb.width)
    (hlen : text.length ≤ w / font.width * (h / font.height)) {q : (ℕ × ℕ) × Char}
    (hq : q ∈ placed fb font ⟨text, .strict w, .strict h⟩ point) :
    (toOffset font q.1).x + font.width ≤ w ∧ (toOffset font q.1).y + font.height ≤ h := by
  obtain ⟨i, hc, hcell, -⟩ := Grid.mem_place.mp hq
  obtain ⟨hi, -⟩ := List.getElem?_eq_some_iff.mp hc
  rw [hcell, cols_strict hright, Nat.zero_add]
  exact cell_in_box hw (hi.trans_le hlen)

/-- A text that fits is drawn inside the box. -/
lemma respected_of_fits (hw : font.width ≤ w) (hh : font.height ≤ h)
    (hright : point.x + w ≤ fb.width) (hbottom : point.y + h ≤ fb.height)
    (hmem : fb.height * fb.pitch < 2 ^ 64)
    (hlen : text.length ≤ w / font.width * (h / font.height)) :
    Respected fb font text style point w h := by
  have hwidth := font.width_pos
  have hheight := font.height_pos
  have hsizes : fb.width < 2 ^ 62 ∧ fb.height < 2 ^ 62 := sizes_lt (by omega) (by omega) hmem
  have hrun : (drawGalleyAt fb font ⟨text, .strict w, .strict h⟩ style point).Follows _ () :=
    drawGalleyAt_follows
  have hreturns : (drawGalleyAt fb font ⟨text, .strict w, .strict h⟩ style point).result =
      some () := by
    refine drawGalleyAt_returns hmem (by omega) (by omega) fun q hq => ?_
    obtain ⟨hx, hy⟩ := placed_in_box hw hright hlen hq
    exact ⟨by omega, by omega⟩
  refine ⟨hreturns, fun row column data hpixel => ?_, ?_⟩
  · obtain ⟨q, hq, he⟩ := List.mem_flatMap.mp (hrun.mem hpixel)
    obtain ⟨hx, hy⟩ := placed_in_box hw hright hlen hq
    obtain he | ⟨y, hylt, x, hxlt, he | he⟩ := mem_glyphEvents.mp he
    · cases he
    · cases he
    · cases he
      omega
  · rw [hrun.log_eq hreturns, drawnChars_placed, map_snd_placed hw hright hbottom,
      List.take_of_length_le hlen, List.take_of_length_le]
    exact hlen.trans (Nat.mul_le_mul_left _ (Nat.le_succ _))

end Strict

end Font

end Titanium
