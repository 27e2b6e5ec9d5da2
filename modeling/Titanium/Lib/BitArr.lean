import Mathlib.Tactic
import Mathlib.Data.Finset.Max

/-!
Fixed-length bit arrays, as `bitvec`'s `BitArr!(for n)` gives them.

The array is kept as the finite set of the positions of its ones, each below
the length.  An access out of range panics, which `none` stands for throughout:
`read`, `write`, `fill` and `firstOneFrom` are `b[i]`, `b.set(i, v)`,
`b[lo..hi].fill(v)` and `b[off..].first_one()`.

* `ones_write_true`, `ones_write_false` say what a write does to the ones,
  `write_isSome` when it returns; callers never unfold `write`.
* `firstOneFrom_eq_some`, `firstOneFrom_eq_none` characterise the scan by the
  least one at or above the offset.
-/

namespace Titanium

/-- A bit array of length `n`, by the positions of its ones. -/
@[ext] structure BitArr (n : ℕ) where
  ones : Finset ℕ
  lt_of_mem : ∀ i ∈ ones, i < n
  deriving DecidableEq

namespace BitArr

variable {n : ℕ}

/-- The all-zero array. -/
def zeroed (n : ℕ) : BitArr n := ⟨∅, by simp⟩

@[simp] lemma ones_zeroed : (zeroed n).ones = ∅ := rfl

/-- `bitarr![1; n]`. -/
def full (n : ℕ) : BitArr n := ⟨Finset.range n, by simp⟩

@[simp] lemma ones_full : (full n).ones = Finset.range n := rfl

/-- `b[i]`. -/
def read (b : BitArr n) (i : ℕ) : Option Bool :=
  if i < n then some (decide (i ∈ b.ones)) else none

/-- `b.set(i, v)`. -/
def write (b : BitArr n) (i : ℕ) (v : Bool) : Option (BitArr n) :=
  if h : i < n then
    some (if v then ⟨insert i b.ones, by
        simp only [Finset.mem_insert, forall_eq_or_imp]
        exact ⟨h, b.lt_of_mem⟩⟩
      else ⟨b.ones.erase i, fun j hj => b.lt_of_mem j (Finset.mem_of_mem_erase hj)⟩)
  else none

/-- `b[lo..hi].fill(true)`. -/
def fill (b : BitArr n) (lo hi : ℕ) : Option (BitArr n) :=
  if h : lo ≤ hi ∧ hi ≤ n then
    some ⟨b.ones ∪ Finset.Ico lo hi, by
      intro i hi'
      rcases Finset.mem_union.mp hi' with h' | h'
      · exact b.lt_of_mem i h'
      · exact lt_of_lt_of_le (Finset.mem_Ico.mp h').2 h.2⟩
  else none

/-- `b[off..].first_one()`: the position of the first one, relative to `off`. -/
def firstOneFrom (b : BitArr n) (off : ℕ) : Option (Option ℕ) :=
  if off ≤ n then
    some (if h : (b.ones.filter (off ≤ ·)).Nonempty then
      some ((b.ones.filter (off ≤ ·)).min' h - off) else none)
  else none

/-! ### What the accesses do -/

lemma read_of_lt {b : BitArr n} {i : ℕ} (h : i < n) : b.read i = some (decide (i ∈ b.ones)) :=
  if_pos h

lemma write_isSome {b : BitArr n} {i : ℕ} (h : i < n) (v : Bool) : ∃ b', b.write i v = some b' := by
  rw [write, dif_pos h]
  exact ⟨_, rfl⟩

lemma lt_of_write {b b' : BitArr n} {i : ℕ} {v : Bool} (h : b.write i v = some b') : i < n := by
  by_contra hlt
  rw [write, dif_neg hlt] at h
  exact absurd h (by simp)

lemma ones_write_true {b b' : BitArr n} {i : ℕ} (h : b.write i true = some b') :
    b'.ones = insert i b.ones := by
  rw [write, dif_pos (lt_of_write h), if_pos rfl] at h
  rw [← Option.some.inj h]

lemma ones_write_false {b b' : BitArr n} {i : ℕ} (h : b.write i false = some b') :
    b'.ones = b.ones.erase i := by
  rw [write, dif_pos (lt_of_write h), if_neg (by simp)] at h
  rw [← Option.some.inj h]

lemma ones_fill {b b' : BitArr n} {lo hi : ℕ} (h : b.fill lo hi = some b') :
    b'.ones = b.ones ∪ Finset.Ico lo hi := by
  unfold fill at h
  split_ifs at h with hi
  · rw [← Option.some.inj h]

lemma fill_isSome {b : BitArr n} {lo hi : ℕ} (h : lo ≤ hi) (h' : hi ≤ n) :
    ∃ b', b.fill lo hi = some b' := by
  rw [fill, dif_pos ⟨h, h'⟩]
  exact ⟨_, rfl⟩

/-- The scan finds nothing exactly when there is no one at or above the offset. -/
lemma firstOneFrom_eq_none {b : BitArr n} {off : ℕ} (h : off ≤ n) :
    b.firstOneFrom off = some none ↔ ∀ i ∈ b.ones, i < off := by
  rw [firstOneFrom, if_pos h]
  simp only [Option.some.injEq, dite_eq_right_iff, reduceCtorEq, imp_false,
    Finset.not_nonempty_iff_eq_empty, Finset.filter_eq_empty_iff, not_le]

/-- What the scan finds is the least one at or above the offset. -/
lemma firstOneFrom_eq_some {b : BitArr n} {off i : ℕ} (h : off ≤ n) :
    b.firstOneFrom off = some (some i) ↔
      off + i ∈ b.ones ∧ ∀ j ∈ b.ones, off ≤ j → off + i ≤ j := by
  rw [firstOneFrom, if_pos h]
  simp only [Option.some.injEq, Option.dite_none_right_eq_some]
  constructor
  · rintro ⟨hne, heq⟩
    have hmem := Finset.mem_filter.mp (Finset.min'_mem _ hne)
    have hval : off + i = (b.ones.filter (off ≤ ·)).min' hne := by omega
    rw [hval]
    exact ⟨hmem.1, fun j hj hoff => Finset.min'_le _ _ (Finset.mem_filter.mpr ⟨hj, hoff⟩)⟩
  · rintro ⟨hmem, hle⟩
    have hmem' : off + i ∈ b.ones.filter (off ≤ ·) :=
      Finset.mem_filter.mpr ⟨hmem, Nat.le_add_right off i⟩
    have hne : (b.ones.filter (off ≤ ·)).Nonempty := ⟨_, hmem'⟩
    have hmin := Finset.mem_filter.mp (Finset.min'_mem _ hne)
    have hlow := hle _ hmin.1 hmin.2
    have hup := Finset.min'_le _ _ hmem'
    exact ⟨hne, by omega⟩

lemma firstOneFrom_isSome {b : BitArr n} {off : ℕ} (h : off ≤ n) :
    ∃ r, b.firstOneFrom off = some r := by
  rw [firstOneFrom, if_pos h]
  exact ⟨_, rfl⟩

end BitArr

end Titanium
