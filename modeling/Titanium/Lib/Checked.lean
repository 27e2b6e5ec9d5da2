import Mathlib.Tactic

/-!
Arithmetic with overflow checks, and division before multiplication.

* `checkedAdd`, `checkedMul`, `checkedSub`: `none` when the result does not fit.
* `checkedShl`, `checkedShr`: `none` when the word is not longer than the shift.
* `div_mul_eq_iff`: **dividing first loses nothing exactly when the remainder,
  multiplied, stays below the divisor**.
-/

namespace Titanium

/-- `a + b` in `w` bits. -/
def checkedAdd (w a b : ℕ) : Option ℕ := if a + b < 2 ^ w then some (a + b) else none

/-- `a * b` in `w` bits. -/
def checkedMul (w a b : ℕ) : Option ℕ := if a * b < 2 ^ w then some (a * b) else none

/-- `a - b`, which panics below zero. -/
def checkedSub (a b : ℕ) : Option ℕ := if b ≤ a then some (a - b) else none

/-- `x << n`. -/
def checkedShl {w : ℕ} (x : BitVec w) (n : ℕ) : Option (BitVec w) :=
  if n < w then some (x <<< n) else none

/-- `x >> n`. -/
def checkedShr {w : ℕ} (x : BitVec w) (n : ℕ) : Option (BitVec w) :=
  if n < w then some (x >>> n) else none

lemma checkedAdd_eq_some {w a b c : ℕ} :
    checkedAdd w a b = some c ↔ a + b < 2 ^ w ∧ a + b = c := by
  rw [checkedAdd, Option.ite_none_right_eq_some, Option.some.injEq]

lemma checkedMul_eq_some {w a b c : ℕ} :
    checkedMul w a b = some c ↔ a * b < 2 ^ w ∧ a * b = c := by
  rw [checkedMul, Option.ite_none_right_eq_some, Option.some.injEq]

lemma eq_of_checkedAdd {w a b x : ℕ} (h : checkedAdd w a b = some x) : x = a + b :=
  (checkedAdd_eq_some.mp h).2.symm

lemma eq_of_checkedMul {w a b x : ℕ} (h : checkedMul w a b = some x) : x = a * b :=
  (checkedMul_eq_some.mp h).2.symm

/-! ### Division before multiplication -/

/-- What multiplying first gives over dividing first. -/
lemma mul_div_eq_add {k : ℕ} (hk : 0 < k) (a b : ℕ) :
    a * b / k = a / k * b + a % k * b / k := by
  calc a * b / k = (k * (a / k) + a % k) * b / k := by rw [Nat.div_add_mod]
    _ = (a % k * b + k * (a / k * b)) / k := by ring_nf
    _ = a / k * b + a % k * b / k := by rw [Nat.add_mul_div_left _ _ hk, add_comm]

lemma div_mul_le_mul_div {k : ℕ} (hk : 0 < k) (a b : ℕ) : a / k * b ≤ a * b / k := by
  rw [mul_div_eq_add hk]
  exact Nat.le_add_right _ _

lemma div_mul_eq_iff {k : ℕ} (hk : 0 < k) (a b : ℕ) :
    a / k * b = a * b / k ↔ a % k * b < k := by
  rw [mul_div_eq_add hk, Nat.left_eq_add, Nat.div_eq_zero_iff_lt hk]

end Titanium
