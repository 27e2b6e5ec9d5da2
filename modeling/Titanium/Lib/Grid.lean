import Mathlib.Tactic

/-!
Cells that are filled line by line.

A cursor moves to the right with every cell, and wraps to the next line only when the
next cell would not fit any more.  `cols` is the number of cells in a line, `none` if
lines do not end.

* `wrap_cursor`: the cursor goes through the cells `(i / cols, i % cols)`.
* `index_eq_some`: which element is in a cell.
* `place`: elements in their cells, up to the last line; `mem_place`,
  `map_snd_place`: which ones these are.
-/

namespace Titanium

namespace Grid

/-- The line and the column of a cell.  Where no cell fits, each one has a line of its own, from
line 1 on. -/
def cell (cols : Option ℕ) (i : ℕ) : ℕ × ℕ :=
  match cols with
  | none => (0, i)
  | some 0 => (i + 1, 0)
  | some k => (i / k, i % k)

lemma cell_of_pos {k : ℕ} (hk : 0 < k) (i : ℕ) : cell (some k) i = (i / k, i % k) := by
  cases k with
  | zero => exact absurd hk (lt_irrefl 0)
  | succ k => rfl

/-- Where the cursor is before it wraps. -/
def cursor (cols : Option ℕ) : ℕ → ℕ × ℕ
  | 0 => (0, 0)
  | i + 1 => ((cell cols i).1, (cell cols i).2 + 1)

/-- The cursor wraps if no further cell fits into the line. -/
def wrap (cols : Option ℕ) (p : ℕ × ℕ) : ℕ × ℕ :=
  match cols with
  | none => p
  | some k => if k ≤ p.2 then (p.1 + 1, 0) else p

/-- **The cursor goes through the cells.** -/
lemma wrap_cursor (cols : Option ℕ) (i : ℕ) : wrap cols (cursor cols i) = cell cols i := by
  match cols, i with
  | none, 0 => rfl
  | none, i + 1 => rfl
  | some 0, 0 => rfl
  | some 0, i + 1 => rfl
  | some (k + 1), 0 => simp [wrap, cursor, cell]
  | some (k + 1), i + 1 =>
      have hdiv := Nat.div_add_mod i (k + 1)
      have hmod := Nat.mod_lt i (show 0 < k + 1 by omega)
      simp only [wrap, cursor, cell]
      split_ifs with hfull
      · have hnext : i + 1 = (i / (k + 1) + 1) * (k + 1) := by
          rw [Nat.add_mul, Nat.one_mul, Nat.mul_comm (i / (k + 1))]
          omega
        rw [hnext, Nat.mul_div_cancel _ (Nat.succ_pos k), Nat.mul_mod_left]
      · have hnext : i + 1 = i % (k + 1) + 1 + i / (k + 1) * (k + 1) := by
          rw [Nat.mul_comm (i / (k + 1))]
          omega
        have hlt : i % (k + 1) + 1 < k + 1 := by omega
        rw [hnext, Nat.add_mul_div_right _ _ (Nat.succ_pos k), Nat.add_mul_mod_self_right,
          Nat.div_eq_of_lt hlt, Nat.mod_eq_of_lt hlt, Nat.zero_add]

/-- The number of a cell. -/
def index (cols : Option ℕ) (p : ℕ × ℕ) : Option ℕ :=
  match cols with
  | none => if p.1 = 0 then some p.2 else none
  | some 0 => if 0 < p.1 ∧ p.2 = 0 then some (p.1 - 1) else none
  | some k => if p.2 < k then some (p.1 * k + p.2) else none

/-- **Cells have numbers of their own.** -/
lemma index_eq_some {cols : Option ℕ} {p : ℕ × ℕ} {i : ℕ} :
    index cols p = some i ↔ cell cols i = p := by
  obtain ⟨line, column⟩ := p
  match cols with
  | none =>
      simp only [index, cell, Option.ite_none_right_eq_some, Option.some.injEq, Prod.mk.injEq]
      omega
  | some 0 =>
      simp only [index, cell, Option.ite_none_right_eq_some, Option.some.injEq, Prod.mk.injEq]
      omega
  | some (k + 1) =>
      simp only [index, cell, Option.ite_none_right_eq_some, Option.some.injEq, Prod.mk.injEq]
      constructor
      · rintro ⟨hlt, rfl⟩
        rw [mul_comm, Nat.mul_add_div (Nat.succ_pos k), Nat.div_eq_of_lt hlt,
          Nat.mul_add_mod, Nat.mod_eq_of_lt hlt]
        exact ⟨rfl, rfl⟩
      · rintro ⟨rfl, rfl⟩
        exact ⟨Nat.mod_lt i (Nat.succ_pos k), Nat.div_add_mod' i (k + 1)⟩

/-- Lines are filled from the top. -/
lemma cell_fst_mono (cols : Option ℕ) : Monotone fun i => (cell cols i).1 := by
  intro i j hij
  match cols with
  | none => exact le_rfl
  | some 0 => exact Nat.succ_le_succ hij
  | some (k + 1) => exact Nat.div_le_div_right hij

/-! ### Elements in their cells -/

/-- The line is not behind the last one. -/
def Within (last : Option ℕ) (line : ℕ) : Prop := ∀ m ∈ last, line ≤ m

instance (last : Option ℕ) (line : ℕ) : Decidable (Within last line) :=
  inferInstanceAs (Decidable (∀ m ∈ last, line ≤ m))

lemma Within.mono {last : Option ℕ} {line line' : ℕ} (h : Within last line') (hle : line ≤ line') :
    Within last line := fun m hm => hle.trans (h m hm)

variable {α : Type}

/-- The elements of a list in the cells from `i` on, up to the first that lies behind the last
line. -/
def place (cols last : Option ℕ) : ℕ → List α → List ((ℕ × ℕ) × α)
  | _, [] => []
  | i, a :: as =>
      if Within last (cell cols i).1 then (cell cols i, a) :: place cols last (i + 1) as else []

lemma mem_place {cols last : Option ℕ} {i : ℕ} {as : List α} {p : ℕ × ℕ} {a : α} :
    (p, a) ∈ place cols last i as ↔
      ∃ j, as[j]? = some a ∧ p = cell cols (i + j) ∧ Within last (cell cols (i + j)).1 := by
  induction as generalizing i with
  | nil => simp [place]
  | cons b as ih =>
      rw [place]
      split_ifs with hin
      · rw [List.mem_cons, ih]
        constructor
        · rintro (heq | ⟨j, hj, hp, hw⟩)
          · cases heq
            exact ⟨0, rfl, rfl, hin⟩
          · rw [Nat.add_assoc, Nat.add_comm 1] at hp hw
            exact ⟨j + 1, hj, hp, hw⟩
        · rintro ⟨j, hj, hp, hw⟩
          cases j with
          | zero =>
              cases hj
              exact Or.inl (by rw [hp, Nat.add_zero])
          | succ j =>
              rw [Nat.add_comm j, ← Nat.add_assoc] at hp hw
              exact Or.inr ⟨j, hj, hp, hw⟩
      · constructor
        · intro h
          exact absurd h List.not_mem_nil
        · rintro ⟨j, -, -, hw⟩
          exact absurd (hw.mono (cell_fst_mono cols (Nat.le_add_right i j))) hin

/-- **A grid of `k` columns takes the first `k * (m + 1)` elements** when its last line has the
number `m`. -/
lemma map_snd_place {k m i : ℕ} (hk : 0 < k) (as : List α) :
    (place (some k) (some m) i as).map Prod.snd = as.take (k * (m + 1) - i) := by
  induction as generalizing i with
  | nil => simp [place]
  | cons a as ih =>
      have hline : Within (some m) (cell (some k) i).1 ↔ i < k * (m + 1) := by
        rw [cell_of_pos hk, Within, Nat.mul_comm, ← Nat.div_lt_iff_lt_mul hk, Nat.lt_succ_iff]
        simp
      rw [place]
      split_ifs with hin
      · obtain ⟨d, hd⟩ := Nat.exists_eq_add_of_lt (hline.mp hin)
        rw [List.map_cons, ih, hd, show i + d + 1 - i = d + 1 by omega,
          show i + d + 1 - (i + 1) = d by omega, List.take_succ_cons]
      · rw [Nat.sub_eq_zero_of_le (not_lt.mp (mt hline.mpr hin)), List.take_zero, List.map_nil]

end Grid

end Titanium
