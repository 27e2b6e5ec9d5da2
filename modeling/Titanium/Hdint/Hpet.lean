import Titanium.Lib.BitField
import Titanium.Lib.Checked

/-!
The nanosecond clock (`get_ns` in `hdint/hpet.rs`).

The period of the main counter is given in femtoseconds; `get_ns` takes it down to
whole nanoseconds before it multiplies.

* `getNs_eq`: what is reported.
* `clock_iff`: **the time is exact while the femtoseconds that were dropped add up
  to less than one nanosecond, and the clock moves when the period has a whole
  nanosecond**.
-/

namespace Titanium

namespace Hdint

/-- The registers that the clock reads. -/
structure Hpet where
  /-- The capabilities register. -/
  capabilities : BitVec 64
  /-- The main counter. -/
  counter : BitVec 64

/-- `Capabilities::period_fs`. -/
def periodFs (capabilities : BitVec 64) : BitVec 32 :=
  (BitField.bitRange capabilities 63 32).setWidth 32

/-- `get_ns`, which `uacpi_kernel_get_nanoseconds_since_boot` returns. -/
def getNs (h : Hpet) : Option ℕ :=
  let clkPeriodFs := periodFs h.capabilities
  let clkPeriodNs := clkPeriodFs.toNat / 1000000
  checkedMul 64 h.counter.toNat clkPeriodNs

/-- Every period is that of some capabilities. -/
lemma periodFs_append (p low : BitVec 32) : periodFs (p ++ low) = p := by
  refine BitVec.eq_of_getLsbD_eq fun i hi => ?_
  rw [periodFs, BitVec.getLsbD_setWidth, BitField.getLsbD_bitRange (by norm_num),
    BitVec.getLsbD_append]
  simp [hi]
  omega

lemma getNs_eq {capabilities counter : BitVec 64}
    (hfit : counter.toNat * (periodFs capabilities).toNat / 1000000 < 2 ^ 64) :
    getNs ⟨capabilities, counter⟩ =
      some (counter.toNat * ((periodFs capabilities).toNat / 1000000)) := by
  have hle := div_mul_le_mul_div (k := 1000000) (by norm_num) (periodFs capabilities).toNat
    counter.toNat
  rw [mul_comm, mul_comm (periodFs capabilities).toNat] at hle
  exact if_pos (hle.trans_lt hfit)

/-- **The clock is exact while the dropped femtoseconds make up less than a nanosecond, and it moves
on exactly when the period is a nanosecond at least.** -/
theorem clock_iff (capabilities : BitVec 64) :
    (∀ c : BitVec 64, c.toNat * (periodFs capabilities).toNat / 1000000 < 2 ^ 64 →
      (getNs ⟨capabilities, c⟩).isSome ∧
      (getNs ⟨capabilities, c⟩ = some (c.toNat * (periodFs capabilities).toNat / 1000000) ↔
        c.toNat * ((periodFs capabilities).toNat % 1000000) < 1000000)) ∧
    ∀ c₁ c₂ : BitVec 64, c₁.toNat < c₂.toNat →
      1000000 ≤ (c₂.toNat - c₁.toNat) * (periodFs capabilities).toNat →
      c₂.toNat * (periodFs capabilities).toNat / 1000000 < 2 ^ 64 →
      ∃ n₁ n₂, getNs ⟨capabilities, c₁⟩ = some n₁ ∧ getNs ⟨capabilities, c₂⟩ = some n₂ ∧
        (n₁ < n₂ ↔ 1000000 ≤ (periodFs capabilities).toNat) := by
  refine ⟨fun c hfit => ⟨by rw [getNs_eq hfit]; rfl, ?_⟩, fun c₁ c₂ hlt _ hfit => ?_⟩
  · rw [getNs_eq hfit, Option.some.injEq, mul_comm, mul_comm c.toNat, mul_comm c.toNat]
    exact div_mul_eq_iff (by norm_num) _ _
  · have hfit₁ : c₁.toNat * (periodFs capabilities).toNat / 1000000 < 2 ^ 64 :=
      (Nat.div_le_div_right (Nat.mul_le_mul_right _ hlt.le)).trans_lt hfit
    refine ⟨_, _, getNs_eq hfit₁, getNs_eq hfit, ?_⟩
    constructor
    · intro hmoved
      by_contra hshort
      rw [Nat.div_eq_of_lt (not_le.mp hshort), mul_zero, mul_zero] at hmoved
      exact absurd hmoved (lt_irrefl 0)
    · intro hperiod
      exact Nat.mul_lt_mul_of_pos_right hlt (Nat.div_pos hperiod (by norm_num))

/-- A counter at 100 MHz, after twelve seconds. -/
theorem clock_exact_at_10ns :
    getNs ⟨10000000#32 ++ 0#32, 1234567890⟩ = some 12345678900 := by
  have hp : (periodFs (10000000#32 ++ 0#32)).toNat = 10000000 := by
    rw [periodFs_append]
    rfl
  have hc : BitVec.toNat (1234567890 : BitVec 64) = 1234567890 := rfl
  have hexact := ((clock_iff (10000000#32 ++ 0#32)).1 1234567890 (by rw [hp, hc]; norm_num)).2.mpr
    (by rw [hp]; norm_num)
  rw [hexact, hp, hc]

/-- At 14.318180 MHz, with a period of 69841279 fs, a second lasts twelve milliseconds longer than
the clock says; at 2 GHz the clock stands still. -/
theorem clock_slow : getNs ⟨69841279#32 ++ 0#32, 14318180⟩ = some 987954420 ∧
    14318180 * 69841279 / 1000000 = 1000000004 ∧
    getNs ⟨500000#32 ++ 0#32, 2000000000⟩ = some 0 := by
  refine ⟨by decide, by norm_num, by decide⟩

end Hdint

end Titanium
