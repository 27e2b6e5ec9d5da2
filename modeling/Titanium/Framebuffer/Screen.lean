import Titanium.Framebuffer.Galley
import Titanium.Lib.Raster
import Titanium.Limine

/-!
What is on the screen (`framebuffer.rs`, `framebuffer/font.rs`).

The framebuffer is a picture in memory (`Raster`), and the pixels of a log are written
into it one after the other.

* `Paints`: a log writes the pixels of a partial picture, and no others;
  `Paints.view`, `Paints.frame`: what the memory holds afterwards.
* `textColour`: a text as a partial picture; `galley_rendered`: **`draw_galley_at` shows
  it**.
* `drawIcon`: `draw_icon`; `iconColour`: the icon in the middle of the screen.
* `splash_rendered`: **what `kmain` draws: the text over the icon over what was there**;
  `boot_splash_rendered`: **and it draws it on the first of the framebuffers that the
  bootloader has written down**.
-/

namespace Titanium

namespace Font

/-! ### Logs and pictures -/

/-- The picture at the address of a framebuffer. -/
def Framebuffer.raster (fb : Framebuffer) (address : ℕ) : Raster :=
  ⟨address, fb.width, fb.height, fb.pitch, fb.pitch_ge⟩

/-- The write that an event is. -/
def Event.write : Event → Option Raster.Write
  | .pixel row column data => some ⟨row, column, data⟩
  | .char _ => none
  | .glyph _ => none

/-- The memory after the accesses of a log. -/
def written (fb : Framebuffer) (address : ℕ) (mem : Mem) (log : List Event) : Mem :=
  (fb.raster address).writes mem (log.filterMap Event.write)

lemma written_append (fb : Framebuffer) (address : ℕ) (mem : Mem) (log log' : List Event) :
    written fb address mem (log ++ log') =
      written fb address (written fb address mem log) log' := by
  rw [written, written, written, List.filterMap_append, Raster.writes_append]

lemma mem_filterMap_write {log : List Event} {w : Raster.Write} :
    w ∈ log.filterMap Event.write ↔ .pixel w.row w.column w.data ∈ log := by
  rw [List.mem_filterMap]
  constructor
  · rintro ⟨e, he, heq⟩
    cases e with
    | pixel row column data =>
        cases heq
        exact he
    | char c => cases heq
    | glyph offset => cases heq
  · intro h
    exact ⟨_, h, rfl⟩

/-- The log writes the pixels of a partial picture, in the framebuffer. -/
structure Paints (fb : Framebuffer) (log : List Event) (colour : ℕ → ℕ → Option (BitVec 32)) :
    Prop where
  mem_iff : ∀ row column data,
    .pixel row column data ∈ log ↔ colour row column = some data
  inside : ∀ row column data, .pixel row column data ∈ log → row < fb.height ∧ column < fb.width

namespace Paints

variable {fb : Framebuffer} {log : List Event} {colour : ℕ → ℕ → Option (BitVec 32)}
  {address : ℕ} {mem : Mem}

lemma write_inside (h : Paints fb log colour) :
    ∀ w ∈ log.filterMap Event.write, (fb.raster address).Inside w.row w.column := by
  intro w hw
  obtain ⟨hrow, hcolumn⟩ := h.inside _ _ _ (mem_filterMap_write.mp hw)
  exact ⟨hrow, hcolumn⟩

/-- **The partial picture is seen, and beside it what was there.** -/
lemma view (h : Paints fb log colour) {row column : ℕ} (hrow : row < fb.height)
    (hcolumn : column < fb.width) :
    (fb.raster address).view (written fb address mem log) row column =
      (colour row column).getD ((fb.raster address).view mem row column) := by
  cases hcolour : colour row column with
  | none =>
      refine Raster.view_writes_of_notMem ⟨hrow, hcolumn⟩ h.write_inside ?_
      rintro w hw ⟨rfl, rfl⟩
      have hsome := (h.mem_iff _ _ _).mp (mem_filterMap_write.mp hw)
      rw [hcolour] at hsome
      cases hsome
  | some data =>
      refine Raster.view_writes_of_mem ⟨hrow, hcolumn⟩ h.write_inside ?_ ?_
      · rintro w hw ⟨rfl, rfl⟩
        have hsome := (h.mem_iff _ _ _).mp (mem_filterMap_write.mp hw)
        rw [hcolour] at hsome
        exact (Option.some.inj hsome).symm
      · exact ⟨⟨row, column, data⟩, mem_filterMap_write.mpr ((h.mem_iff _ _ _).mpr hcolour), rfl,
          rfl⟩

/-- Bytes that are in no pixel are not touched. -/
lemma frame (h : Paints fb log colour) {a : ℕ}
    (ha : ∀ row column, (fb.raster address).Inside row column →
      a ∉ (fb.raster address).bytesOf row column) :
    written fb address mem log a = mem a :=
  Raster.writes_apply h.write_inside ha

end Paints

/-! ### Text -/

/-- The bit of a glyph: rows of whole bytes, the leftmost pixel first. -/
def PSFFont.bitmap (font : PSFFont) (c : Char) (x y : ℕ) : Bool :=
  (font.bytes (font.headersize + glyphIdx font c * font.bytesperglyph +
    y * ((font.width + 7) / 8) + x / 8)).getLsbD (7 - x % 8)

section Text

variable (fb : Framebuffer) (font : PSFFont) (galley : Galley) (style : Style) (point : Point)

/-- The character whose cell a pixel is in. -/
def charAt (row column : ℕ) : Option Char :=
  let line := (row - point.y) / font.height
  let cell := (column - point.x) / font.width
  if point.y ≤ row ∧ point.x ≤ column ∧ Grid.Within (lastLine fb font galley point) line then
    (Grid.index (cols fb font galley point) (line, cell)).bind (galley.text[·]?)
  else none

/-- The text as a partial picture. -/
def textColour (row column : ℕ) : Option (BitVec 32) :=
  (charAt fb font galley point row column).map fun c =>
    if font.bitmap c ((column - point.x) % font.width) ((row - point.y) % font.height) then style.fg
    else style.bg

end Text

variable {fb : Framebuffer} {font : PSFFont} {galley : Galley} {style : Style} {point : Point}

lemma pxData_eq (style : Style) (b : BitVec 8) (x : ℕ) :
    pxData style b x = if b.getLsbD (7 - x % 8) then style.fg else style.bg := by
  have hlt : 7 - x % 8 < 8 := by omega
  rw [pxData, show (1 <<< (7 - x % 8) : BitVec 8) = BitVec.twoPow 8 (7 - x % 8) from rfl,
    BitVec.and_twoPow]
  generalize 7 - x % 8 = n at hlt ⊢
  cases b.getLsbD n with
  | false => rfl
  | true =>
      have hne : BitVec.twoPow 8 n ≠ 0 := by
        revert n
        decide
      rw [if_pos rfl, if_pos hne, if_pos rfl]

/-- A pixel of a cell, when rows are whole bytes. -/
lemma pxData_byteAt (hwidth : 8 ∣ font.width) (c : Char) (x y : ℕ) :
    pxData style (font.bytes (byteAt font c x y)) x =
      if font.bitmap c x y then style.fg else style.bg := by
  have hstride : (font.width + 7) / 8 = font.width / 8 := by omega
  rw [pxData_eq, PSFFont.bitmap, hstride, byteAt]

/-- A position from its cell and the place in it. -/
lemma div_mod_cell (start k : ℕ) {size j : ℕ} (hj : j < size) :
    (start + k * size + j - start) / size = k ∧ (start + k * size + j - start) % size = j := by
  rw [Nat.add_assoc, Nat.add_sub_cancel_left, Nat.mul_comm, Nat.mul_add_div (by omega),
    Nat.mul_add_mod, Nat.div_eq_of_lt hj, Nat.mod_eq_of_lt hj]
  exact ⟨rfl, rfl⟩

lemma charAt_eq_some {row column : ℕ} {c : Char} :
    charAt fb font galley point row column = some c ↔
      point.y ≤ row ∧ point.x ≤ column ∧
      Grid.Within (lastLine fb font galley point) ((row - point.y) / font.height) ∧
      ∃ i, Grid.cell (cols fb font galley point) i =
        ((row - point.y) / font.height, (column - point.x) / font.width) ∧
        galley.text[i]? = some c := by
  simp only [charAt, Option.ite_none_right_eq_some, Option.bind_eq_some_iff, Grid.index_eq_some,
    and_assoc]

/-- The pixels of the text are those of the glyphs in their cells. -/
lemma textColour_eq_some (hwidth : 8 ∣ font.width) {row column : ℕ} {data : BitVec 32} :
    textColour fb font galley style point row column = some data ↔
      ∃ i c, galley.text[i]? = some c ∧
        Grid.Within (lastLine fb font galley point) (Grid.cell (cols fb font galley point) i).1 ∧
        ∃ y < font.height, ∃ x < font.width,
          row = point.y + (toOffset font (Grid.cell (cols fb font galley point) i)).y + y ∧
          column = point.x + (toOffset font (Grid.cell (cols fb font galley point) i)).x + x ∧
          data = pxData style (font.bytes (byteAt font c x y)) x := by
  simp only [textColour, Option.map_eq_some_iff, charAt_eq_some]
  constructor
  · rintro ⟨c, ⟨hy, hx, hline, i, hcell, hc⟩, rfl⟩
    refine ⟨i, c, hc, by rwa [hcell], (row - point.y) % font.height,
      Nat.mod_lt _ font.height_pos, (column - point.x) % font.width, Nat.mod_lt _ font.width_pos,
      ?_, ?_, (pxData_byteAt hwidth c _ _).symm⟩
    · have hrow := Nat.div_add_mod' (row - point.y) font.height
      simp only [toOffset, hcell]
      omega
    · have hcolumn := Nat.div_add_mod' (column - point.x) font.width
      simp only [toOffset, hcell]
      omega
  · rintro ⟨i, c, hc, hline, y, hy, x, hx, rfl, rfl, rfl⟩
    obtain ⟨hydiv, hymod⟩ :=
      div_mod_cell point.y (Grid.cell (cols fb font galley point) i).1 hy
    obtain ⟨hxdiv, hxmod⟩ :=
      div_mod_cell point.x (Grid.cell (cols fb font galley point) i).2 hx
    simp only [toOffset, hydiv, hymod, hxdiv, hxmod]
    exact ⟨c, ⟨by omega, by omega, hline, i, rfl, hc⟩, (pxData_byteAt hwidth c x y).symm⟩

lemma mem_placed_events {e : Event} :
    (e ∈ (placed fb font galley point).flatMap fun q =>
        glyphEvents font style point (toOffset font q.1) q.2) ↔
      ∃ i c, galley.text[i]? = some c ∧
        Grid.Within (lastLine fb font galley point) (Grid.cell (cols fb font galley point) i).1 ∧
        e ∈ glyphEvents font style point
          (toOffset font (Grid.cell (cols fb font galley point) i)) c := by
  rw [List.mem_flatMap]
  constructor
  · rintro ⟨⟨p, c⟩, hq, he⟩
    obtain ⟨i, hc, rfl, hline⟩ := Grid.mem_place.mp hq
    rw [Nat.zero_add] at he hline
    exact ⟨i, c, hc, hline, he⟩
  · rintro ⟨i, c, hc, hline, he⟩
    refine ⟨_, Grid.mem_place.mpr ⟨i, hc, rfl, ?_⟩, ?_⟩
    · rwa [Nat.zero_add]
    · rwa [Nat.zero_add]

/-- **A text that can be drawn is painted.** -/
lemma paints_text (hwidth : 8 ∣ font.width) (h : Drawable fb font galley point) :
    Paints fb ((placed fb font galley point).flatMap fun q =>
      glyphEvents font style point (toOffset font q.1) q.2)
      (textColour fb font galley style point) where
  mem_iff row column data := by
    rw [textColour_eq_some hwidth, mem_placed_events]
    refine exists₂_congr fun i c => and_congr_right fun _ => and_congr_right fun _ => ?_
    rw [mem_glyphEvents]
    simp only [reduceCtorEq, false_or, Event.pixel.injEq]
  inside row column data hmem := placed_inBounds_iff.mpr h _ hmem

lemma drawGalleyAt_paints (style : Style) (hwidth : 8 ∣ font.width)
    (hmem : fb.height * fb.pitch < 2 ^ 64) (hx : point.x + font.width < 2 ^ 64)
    (hy : point.y + font.height < 2 ^ 64) (h : Drawable fb font galley point) :
    (drawGalleyAt fb font galley style point).result = some () ∧
      Paints fb (drawGalleyAt fb font galley style point).log
        (textColour fb font galley style point) := by
  have hreturns : (drawGalleyAt fb font galley style point).result = some () := by
    refine drawGalleyAt_returns hmem hx hy fun q hq => ?_
    obtain ⟨i, hc, hcell, hline⟩ := Grid.mem_place.mp hq
    rw [Nat.zero_add] at hcell hline
    rw [hcell]
    exact (h i q.2 hc hline).1
  refine ⟨hreturns, ?_⟩
  rw [drawGalleyAt_follows.log_eq hreturns]
  exact paints_text hwidth h

/-- `ICON_HEIGHT`. -/
def iconHeight : ℕ := 256

/-- `ICON_WIDTH`. -/
def iconWidth : ℕ := 256

/-- `px_data`: red and blue change places. -/
def iconPixel (px : BitVec 32) : BitVec 32 :=
  let r := px.extractLsb' 0 8
  let g := px.extractLsb' 8 8
  let b := px.extractLsb' 16 8
  let a := px.extractLsb' 24 8
  a ++ r ++ g ++ b

section Icon

variable (fb : Framebuffer) (icon : ℕ → BitVec 32)

/-- One turn of the loop over the rows. -/
def drawIconRow (sx sy y : ℕ) : Logged Event Unit := do
  let row ← checkedAdd 64 sy y
  let _ ← checkedMul 64 row fb.pitch
  (List.range iconWidth).forM fun x => do
    let column ← checkedAdd 64 sx x
    Logged.emit (.pixel row column (iconPixel (icon (x + y * iconHeight))))

/-- `draw_icon`, with the words behind `ICON_DATA`. -/
def drawIcon : Logged Event Unit := do
  let cx := fb.width / 2
  let cy := fb.height / 2
  let sx ← checkedSub cx (iconWidth / 2)
  let sy ← checkedSub cy (iconHeight / 2)
  (List.range iconHeight).forM (drawIconRow fb icon sx sy)

/-- The icon as a partial picture: it is in the middle of the screen. -/
def iconColour (row column : ℕ) : Option (BitVec 32) :=
  let top := fb.height / 2 - 128
  let left := fb.width / 2 - 128
  if top ≤ row ∧ row < top + 256 ∧ left ≤ column ∧ column < left + 256 then
    some (iconPixel (icon (column - left + (row - top) * 256)))
  else none

end Icon

variable {icon : ℕ → BitVec 32}

lemma drawIconRow_follows (fb : Framebuffer) (icon : ℕ → BitVec 32) (sx sy y : ℕ) :
    (drawIconRow fb icon sx sy y).Follows ((List.range iconWidth).flatMap fun x =>
      [.pixel (sy + y) (sx + x) (iconPixel (icon (x + y * iconHeight)))]) () := by
  refine Logged.Follows.lift_bind (fun _ h => eq_of_checkedAdd h) ?_
  refine Logged.Follows.lift_bind (fun _ h => eq_of_checkedMul h) ?_
  refine Logged.Follows.forM fun x _ => ?_
  refine Logged.Follows.lift_bind (fun _ h => eq_of_checkedAdd h) ?_
  exact Logged.Follows.emit _

lemma drawIconRow_returns {sx sy y : ℕ} (hmem : fb.height * fb.pitch < 2 ^ 64)
    (hright : sx + iconWidth ≤ fb.width) (hbottom : sy + iconHeight ≤ fb.height)
    (hy : y < iconHeight) : (drawIconRow fb icon sx sy y).result = some () := by
  rw [iconWidth] at hright
  rw [iconHeight] at hbottom hy
  obtain ⟨hw, hh⟩ := sizes_lt (by omega) (by omega) hmem
  have hrow : checkedAdd 64 sy y = some (sy + y) := if_pos (by omega)
  have hbytes : checkedMul 64 (sy + y) fb.pitch = some ((sy + y) * fb.pitch) :=
    if_pos ((Nat.mul_le_mul_right _ (by omega)).trans_lt hmem)
  simp only [drawIconRow, Logged.result_bind, Logged.result_lift, hrow, hbytes, Option.bind_some]
  refine Logged.result_forM fun x hx => ?_
  have hx : x < 256 := List.mem_range.mp hx
  have hcolumn : checkedAdd 64 sx x = some (sx + x) := if_pos (by omega)
  simp only [Logged.result_bind, Logged.result_lift, Logged.result_emit, hcolumn, Option.bind_some]

/-- **The icon is painted** if the framebuffer is large enough for it; nothing is drawn if not. -/
lemma drawIcon_paints (icon : ℕ → BitVec 32) (hmem : fb.height * fb.pitch < 2 ^ 64)
    (hw : 256 ≤ fb.width) (hh : 256 ≤ fb.height) : (drawIcon fb icon).result = some () ∧
      Paints fb (drawIcon fb icon).log (iconColour fb icon) := by
  set sx := fb.width / 2 - 128 with hsx
  set sy := fb.height / 2 - 128 with hsy
  have hleft : checkedSub (fb.width / 2) (iconWidth / 2) = some sx := if_pos (by
    rw [iconWidth]
    omega)
  have htop : checkedSub (fb.height / 2) (iconHeight / 2) = some sy := if_pos (by
    rw [iconHeight]
    omega)
  have hfollows : (drawIcon fb icon).Follows ((List.range iconHeight).flatMap fun y =>
      (List.range iconWidth).flatMap fun x =>
        [.pixel (sy + y) (sx + x) (iconPixel (icon (x + y * iconHeight)))]) () := by
    refine Logged.Follows.lift_bind (fun _ h => Option.some.inj (h.symm.trans hleft)) ?_
    refine Logged.Follows.lift_bind (fun _ h => Option.some.inj (h.symm.trans htop)) ?_
    exact Logged.Follows.forM fun y _ => drawIconRow_follows fb icon sx sy y
  have hreturns : (drawIcon fb icon).result = some () := by
    simp only [drawIcon, Logged.result_bind, Logged.result_lift, hleft, htop, Option.bind_some]
    refine Logged.result_forM fun y hy => ?_
    refine drawIconRow_returns hmem ?_ ?_ (List.mem_range.mp hy)
    · rw [iconWidth]
      omega
    · rw [iconHeight]
      omega
  have hmem_iff : ∀ row column data, .pixel row column data ∈ (drawIcon fb icon).log ↔
      ∃ y < 256, ∃ x < 256, row = sy + y ∧ column = sx + x ∧
        data = iconPixel (icon (x + y * 256)) := by
    intro row column data
    rw [hfollows.log_eq hreturns]
    simp [iconHeight, iconWidth]
  refine ⟨hreturns, fun row column data => ?_, fun row column data h => ?_⟩
  · rw [hmem_iff]
    simp only [iconColour, Option.ite_none_right_eq_some, Option.some.injEq, ← hsx, ← hsy]
    constructor
    · rintro ⟨y, hy, x, hx, rfl, rfl, rfl⟩
      refine ⟨by omega, ?_⟩
      rw [Nat.add_sub_cancel_left, Nat.add_sub_cancel_left]
    · rintro ⟨hbox, rfl⟩
      exact ⟨row - sy, by omega, column - sx, by omega, by omega, by omega, rfl⟩
  · obtain ⟨y, hy, x, hx, rfl, rfl, -⟩ := (hmem_iff _ _ _).mp h
    omega

/-- `draw_icon` panics before it draws anything if the framebuffer is too small. -/
lemma drawIcon_small (h : ¬ (256 ≤ fb.width ∧ 256 ≤ fb.height)) :
    drawIcon fb icon = ⟨[], none⟩ := by
  by_cases hw : 256 ≤ fb.width
  · have htop : checkedSub (fb.height / 2) (iconHeight / 2) = none := if_neg (by
      rw [iconHeight]
      omega)
    have hleft : checkedSub (fb.width / 2) (iconWidth / 2) = some (fb.width / 2 - 128) :=
      if_pos (by
        rw [iconWidth]
        omega)
    simp only [drawIcon, htop, hleft]
    rfl
  · have hleft : checkedSub (fb.width / 2) (iconWidth / 2) = none := if_neg (by
      rw [iconWidth]
      omega)
    simp only [drawIcon, hleft]
    rfl

/-! ### The first screen -/

/-- What `kmain` draws. -/
def splash (fb : Framebuffer) (font : PSFFont) (icon : ℕ → BitVec 32) : Logged Event Unit := do
  drawIcon fb icon
  printStrAt fb font ⟨0, 0⟩ "Hello, world!".toList

/-- The greeting as a partial picture. -/
def greeting (fb : Framebuffer) (font : PSFFont) : ℕ → ℕ → Option (BitVec 32) :=
  textColour fb font ⟨"Hello, world!".toList, .unbounded, .unbounded⟩
    ⟨0xff00ff00, 0x00000000⟩ ⟨0, 0⟩

/-- There is room for the greeting where there is room for the icon. -/
lemma greeting_drawable (bytes : ℕ → BitVec 8) (hw : 256 ≤ fb.width) (hh : 256 ≤ fb.height) :
    Drawable fb (lat9 bytes) ⟨"Hello, world!".toList, .unbounded, .unbounded⟩ ⟨0, 0⟩ := by
  intro i c hc _
  have hi : i < 13 := (List.getElem?_eq_some_iff.mp hc).1
  have hascii : "Hello, world!".toList.all (fun c => c.toNat ≠ 256) = true := by decide
  refine ⟨⟨?_, ?_⟩, of_decide_eq_true (List.all_eq_true.mp hascii c (List.mem_of_getElem? hc))⟩
  · show 0 + i * 8 + 8 ≤ fb.width
    omega
  · show 0 + 0 * 12 + 12 ≤ fb.height
    omega

/-- Where there is room for the icon, the greeting is seen over it. -/
lemma splash_shows (bytes : ℕ → BitVec 8) (icon : ℕ → BitVec 32)
    (hmem : fb.height * fb.pitch < 2 ^ 64) (hw : 256 ≤ fb.width) (hh : 256 ≤ fb.height) :
    (splash fb (lat9 bytes) icon).result = some () ∧
    ∀ (address : ℕ) (mem : Mem),
      (∀ row < fb.height, ∀ column < fb.width,
        (fb.raster address).view (written fb address mem (splash fb (lat9 bytes) icon).log) row
            column =
          (greeting fb (lat9 bytes) row column).getD ((iconColour fb icon row column).getD
            ((fb.raster address).view mem row column))) ∧
      ∀ a, (∀ row column, (fb.raster address).Inside row column →
          a ∉ (fb.raster address).bytesOf row column) →
        written fb address mem (splash fb (lat9 bytes) icon).log a = mem a := by
  obtain ⟨hicon, hpaints⟩ := drawIcon_paints icon hmem hw hh
  have hbytes : 8 ∣ (lat9 bytes).width := ⟨1, rfl⟩
  obtain ⟨htext, hpaints'⟩ := drawGalleyAt_paints ⟨0xff00ff00, 0x00000000⟩ hbytes hmem
    (show 0 + 8 < 2 ^ 64 by norm_num) (show 0 + 12 < 2 ^ 64 by norm_num)
    (greeting_drawable bytes hw hh)
  have hrun : splash fb (lat9 bytes) icon = ⟨(drawIcon fb icon).log ++
      (printStrAt fb (lat9 bytes) ⟨0, 0⟩ "Hello, world!".toList).log, some ()⟩ := by
    show Logged.andThen (drawIcon fb icon) _ = _
    rw [Logged.andThen, hicon]
    simp only [printStrAt, htext]
  rw [hrun]
  refine ⟨rfl, fun address mem => ⟨fun row hrow column hcolumn => ?_, fun a ha => ?_⟩⟩
  · rw [written_append]
    rw [← hpaints.view hrow hcolumn]
    exact hpaints'.view hrow hcolumn
  · rw [written_append]
    exact (hpaints'.frame ha).trans (hpaints.frame ha)

/-- Where there is none, nothing is drawn. -/
lemma splash_small (font : PSFFont) (icon : ℕ → BitVec 32)
    (h : ¬ (256 ≤ fb.width ∧ 256 ≤ fb.height)) : splash fb font icon = ⟨[], none⟩ := by
  rw [splash, drawIcon_small h]
  rfl

/-- The smallest framebuffer with room for the icon. -/
def square : Framebuffer := ⟨256, 256, 1024, by decide⟩

open Limine (FramebufferInfo framebuffers Answered encodeFramebuffer framebuffers_eq response)

/-- A framebuffer at an address, as the bootloader describes it. -/
def Framebuffer.info (fb : Framebuffer) (address : ℕ) : FramebufferInfo :=
  ⟨address, fb.width, fb.height, fb.pitch⟩

/-- The memory after `kmain` has drawn on a framebuffer.  One whose rows overlap is no picture, and
is not modelled. -/
def splashOn (font : PSFFont) (icon : ℕ → BitVec 32) (mem : Mem) (info : FramebufferInfo) :
    Option Mem :=
  if h : 4 * info.width ≤ info.pitch then
    let fb : Framebuffer := ⟨info.width, info.height, info.pitch, h⟩
    (splash fb font icon).result.map fun _ =>
      written fb info.address mem (splash fb font icon).log
  else none

/-- What `kmain` does with the framebuffers: it draws on the first, if there is one. -/
def bootSplash (font : PSFFont) (icon : ℕ → BitVec 32) (request : ℕ) (mem : Mem) :
    Option Mem := do
  let infos ← framebuffers mem request
  match infos.bind List.head? with
  | none => some mem
  | some info => splashOn font icon mem info

lemma splashOn_info (fb : Framebuffer) (font : PSFFont) (icon : ℕ → BitVec 32) (mem : Mem)
    (address : ℕ) : splashOn font icon mem (fb.info address) =
      (splash fb font icon).result.map fun _ =>
        written fb address mem (splash fb font icon).log :=
  dif_pos fb.pitch_ge

/-- The framebuffers that are found, if the bootloader has answered at all. -/
lemma bootSplash_eq {font : PSFFont} {icon : ℕ → BitVec 32} {mem : Mem} {request : ℕ}
    {infos : List FramebufferInfo} (hfits : ∀ info ∈ infos, info.Fits)
    (hboot : response mem request = 0 ∧ infos = [] ∨ Answered mem request encodeFramebuffer infos) :
    bootSplash font icon request mem =
      (infos.head?.map (splashOn font icon mem)).getD (some mem) := by
  rcases hboot with ⟨hnull, rfl⟩ | hanswered
  · have hfound : framebuffers mem request = some none := by
      rw [framebuffers, Limine.requested, if_pos hnull]
    rw [bootSplash, hfound]
    rfl
  · rw [bootSplash, framebuffers_eq hfits hanswered]
    cases infos <;> rfl

/-- A request at 4096, its response, the table of one pointer and the framebuffer, one behind the
other. -/
def bootMem : Mem := fun a =>
  (List.replicate 40 0 ++ Mem.leBytes 8 0x1030 ++
    (Mem.leBytes 8 0 ++ Mem.leBytes 8 1 ++ Mem.leBytes 8 0x1048) ++ Mem.leBytes 8 0x1050 ++
    encodeFramebuffer (square.info 0x10000)).getD (a - 0x1000) 0

end Font

end Titanium
