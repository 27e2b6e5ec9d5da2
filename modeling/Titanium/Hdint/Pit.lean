import Titanium.Idt
import Titanium.Lib.PollLoop

/-!
Sleeping by the interval timer (`PIT::sleep_us` in `hdint/pit.rs`).

`sleep_us` clears `TIMER_COUNTER` and halts until interrupts have brought it to the
requested time, in microseconds with 24 fractional bits.  The timer runs freely, so
the first interrupt comes somewhere in its period.

* `sleepUs_counts`: the loop waits for `ticksNeeded us` interrupts.
* `sleep_us_lasts_iff`: the counter does not wrap, and the loop returns; **it lasts
  long enough when the first interrupt comes late enough**.
-/

namespace Titanium

namespace Hdint

open Idt PollLoop

/-- `FP_WIDTH`. -/
def fpWidth : ℕ := 24

/-- `ctr_val`. -/
def ctrVal (us : BitVec 32) : Word := us.setWidth 64 <<< fpWidth

/-- The condition of the loop. -/
def sleepUsMore (us : BitVec 32) (c : Idt.Cpu) : Bool := c.timerCounter < ctrVal us

/-- The processor at the start of the loop. -/
def sleepUsStart (c : Idt.Cpu) : Idt.Cpu := { c with timerCounter := 0 }

/-- The period of the timer in microseconds. -/
noncomputable def pitPeriod : ℝ := pitInterval / 2 ^ fpWidth

/-- Runs of `sleep_us(us)` with the first interrupt after `φ` microseconds. -/
abbrev SleepUsRun (rust : Rust) (c : Idt.Cpu) (us : BitVec 32) (φ : ℝ) :
    Config Idt.Cpu → Bool → ℕ → ℝ → Prop :=
  TimedRun (sleepUsMore us) (Idt.run rust Handler.pitInterrupt.code) φ pitPeriod (sleepUsStart c)

/-- The number of the interrupt that brings the counter to the requested time. -/
def ticksNeeded (us : BitVec 32) : ℕ :=
  (us.toNat * 2 ^ fpWidth + (pitInterval - 1)) / pitInterval

lemma lt_ticksNeeded_iff {us : BitVec 32} {f : ℕ} :
    f < ticksNeeded us ↔ f * pitInterval < us.toNat * 2 ^ fpWidth := by
  rw [ticksNeeded, Nat.lt_iff_add_one_le, Nat.le_div_iff_mul_le (by decide)]
  unfold pitInterval fpWidth
  omega

lemma ticksNeeded_eq_zero {us : BitVec 32} : ticksNeeded us = 0 ↔ us.toNat = 0 := by
  have h := @lt_ticksNeeded_iff us 0
  unfold fpWidth at h
  omega

lemma toNat_ctrVal (us : BitVec 32) : (ctrVal us).toNat = us.toNat * 2 ^ fpWidth := by
  have hlt := us.isLt
  rw [ctrVal, BitVec.toNat_shiftLeft, BitVec.toNat_setWidth, Nat.shiftLeft_eq]
  unfold fpWidth
  omega

/-- The counter stays far below its end. -/
lemma ticksNeeded_bound (us : BitVec 32) : (ticksNeeded us + 1) * pitInterval < 2 ^ 64 := by
  have hlt := us.isLt
  have hmul := Nat.div_mul_le_self (us.toNat * 2 ^ fpWidth + (pitInterval - 1)) pitInterval
  rw [← ticksNeeded] at hmul
  rw [add_mul, one_mul]
  unfold pitInterval fpWidth at *
  omega

/-- **The loop counts interrupts.** -/
lemma sleepUs_counts (rust : Rust) (us : BitVec 32) :
    Counts (sleepUsMore us) (Idt.run rust Handler.pitInterrupt.code)
      (fun c f => c.timerCounter.toNat = f * pitInterval) (ticksNeeded us) where
  handler c f hc hf := by
    obtain ⟨c', hrun, -, hcounter, -⟩ := run_pitInterrupt rust c
    refine ⟨c', hrun, ?_⟩
    have hbound := ticksNeeded_bound us
    have hmul : (f + 1) * pitInterval ≤ (ticksNeeded us + 1) * pitInterval :=
      Nat.mul_le_mul_right _ (by omega)
    rw [hcounter, BitVec.toNat_add, BitVec.toNat_ofNat, hc]
    rw [Nat.add_mul, one_mul] at *
    unfold pitInterval at *
    omega
  more_iff c f hc _ := by
    rw [sleepUsMore, decide_eq_true_iff, BitVec.lt_def, hc, toNat_ctrVal, lt_ticksNeeded_iff]

lemma pitPeriod_pos : 0 < pitPeriod := by
  norm_num [pitPeriod, pitInterval, fpWidth]

/-- **How long `sleep_us` sleeps.**  The counter does not wrap; the loop returns after the interrupt
that brings it to the requested time, or after the next one if that interrupt came between the test
and the `hlt`; and it sleeps long enough when the interrupts before the last one, together with the
time up to the first, make up the request. -/
theorem sleep_us_lasts_iff (rust : Rust) (c : Idt.Cpu) (us : BitVec 32) {φ : ℝ}
    (hφ : 0 < φ) :
    (∀ f, f < ticksNeeded us ↔ f * pitInterval < us.toNat * 2 ^ fpWidth) ∧
    (∀ k b f t, SleepUsRun rust c us φ k b f t →
      k.mem.timerCounter.toNat = f * pitInterval ∧ f ≤ ticksNeeded us + 1 ∧
        (k.pc = .done → ticksNeeded us ≤ f)) ∧
    (∃ k t, SleepUsRun rust c us φ k false (ticksNeeded us) t ∧ k.pc = .done) ∧
    ((∀ k b f t, SleepUsRun rust c us φ k b f t → k.pc = .done → (us.toNat : ℝ) ≤ t) ↔
      us = 0 ∨ (us.toNat : ℝ) ≤ φ + (ticksNeeded us - 1) * pitPeriod) := by
  have hcounts := sleepUs_counts rust us
  have h₀ : (sleepUsStart c).timerCounter.toNat = 0 * pitInterval := rfl
  refine ⟨fun f => lt_ticksNeeded_iff, fun k b f t hrun => ?_, ?_, ?_⟩
  · obtain ⟨hcounter, hwithin⟩ := hrun.bounds hcounts h₀
    refine ⟨hcounter, hwithin.le, fun hpc => ?_⟩
    rw [hpc] at hwithin
    exact hwithin.1
  · obtain ⟨m, -, hrun⟩ := hcounts.returns h₀ hφ pitPeriod_pos
    exact ⟨_, _, hrun, rfl⟩
  · rw [hcounts.lasts_iff h₀ hφ pitPeriod_pos]
    have hus : us = 0 ↔ us.toNat = 0 := by
      rw [← BitVec.toNat_inj]
      rfl
    rw [hus, ← ticksNeeded_eq_zero]
    cases hn : ticksNeeded us with
    | zero =>
        rw [ticksNeeded_eq_zero.mp hn]
        simp [lastIrq]
    | succ n => simp [lastIrq]

/-- A millisecond takes two interrupts; it is slept in full when the first of them takes a whole
period. -/
theorem sleep_us_full_period : ticksNeeded 1000 = 2 ∧ ∀ k b f t,
    SleepUsRun quietRust zeroCpu 1000 pitPeriod k b f t → k.pc = .done → (1000 : ℝ) ≤ t := by
  have hneed : ticksNeeded 1000 = 2 := by decide
  have hus : BitVec.toNat (1000 : BitVec 32) = 1000 := rfl
  have hiff := (sleep_us_lasts_iff quietRust zeroCpu 1000 pitPeriod_pos).2.2.2
  rw [hneed, hus, Nat.cast_ofNat] at hiff
  exact ⟨hneed, hiff.mpr (Or.inr (by norm_num [pitPeriod, pitInterval, fpWidth]))⟩

/-- The sleep of a millisecond that measures the timer of the local APIC is over after 504
microseconds when the first interrupt comes after one. -/
theorem sleep_us_cut_short : ∃ k t,
    SleepUsRun quietRust zeroCpu 1000 1 k false 2 t ∧ k.pc = .done ∧ t < 504 := by
  have hneed : ticksNeeded 1000 = 2 := by decide
  have h₀ : (sleepUsStart zeroCpu).timerCounter.toNat = 0 * pitInterval := rfl
  obtain ⟨m, -, hrun⟩ := (sleepUs_counts quietRust 1000).returns h₀ one_pos pitPeriod_pos
  rw [hneed] at hrun
  exact ⟨_, _, hrun, rfl, by norm_num [lastIrq, pitPeriod, pitInterval, fpWidth]⟩

end Hdint

end Titanium
