import Titanium.Idt
import Titanium.Lib.Checked

/-!
Programming the timer of the local APIC (`hdint.rs`).

`TICKS_PER_MS` is what `setup_timer_pit` measured.  Both functions divide it by
1000 before they multiply with the microseconds.

* `triggerLocalUs_eq`, `sleepStart_eq`: what the two functions write.
* `timer_count_iff`: **the count is exact when the remainder of the division,
  multiplied, stays below 1000**.
-/

namespace Titanium

namespace Hdint

/-- `LVT_TIMER_OFFSET`. -/
def lvtTimerOffset : ℕ := 0x320

/-- `TMRINITCNT_OFFSET`. -/
def tmrinitcntOffset : ℕ := 0x380

/-- `TIMER_MODE_ONESHOT`. -/
def timerModeOneshot : BitVec 32 := 0b00 <<< 17

/-- `LVT_INT_MASKED`. -/
def lvtIntMasked : BitVec 32 := 1 <<< 16

/-- The local APIC and the statics that go with its timer. -/
structure LocalTimer where
  /-- What was last written to the registers, by their offsets. -/
  regs : ℕ → BitVec 32
  /-- `TICKS_PER_MS`. -/
  ticksPerMs : BitVec 32
  /-- `IS_SLEEPING`. -/
  isSleeping : Bool
  /-- The processor, with `TIMER_FLAGS`. -/
  cpu : Idt.Cpu

namespace LocalTimer

/-- `LocalApic::write`. -/
def write (s : LocalTimer) (offset : ℕ) (value : BitVec 32) : LocalTimer :=
  { s with regs := Function.update s.regs offset value }

/-- `(ticks_per_ms / 1000) * us`, after the assertion that the timer was set up. -/
def ticks (s : LocalTimer) (us : BitVec 32) : Option ℕ :=
  if 0 < s.ticksPerMs.toNat then checkedMul 32 (s.ticksPerMs.toNat / 1000) us.toNat else none

/-- The vector and the mode that arm the timer. -/
def lvtArmed : BitVec 32 := Idt.irqLapicClk.setWidth 32 ||| timerModeOneshot

/-- `trigger_local_us`. -/
def triggerLocalUs (s : LocalTimer) (us : BitVec 32) : Option LocalTimer := do
  let s := s.write lvtTimerOffset lvtIntMasked
  let ticks ← s.ticks us
  let s := s.write tmrinitcntOffset (.ofNat 32 ticks)
  some (s.write lvtTimerOffset lvtArmed)

/-- `sleep_local_us`, up to its loop. -/
def sleepStart (s : LocalTimer) (us : BitVec 32) : Option LocalTimer := do
  -- the `compare_exchange` succeeds
  if s.isSleeping then none else
  let s := { s with isSleeping := true }
  let s := s.write lvtTimerOffset lvtIntMasked
  let s := { s with isSleeping := true }
  let s := { s with cpu.timerFlags := s.cpu.timerFlags ||| 1 }
  let ticks ← s.ticks us
  let s := s.write tmrinitcntOffset (.ofNat 32 ticks)
  some (s.write lvtTimerOffset lvtArmed)

variable {s : LocalTimer} {us : BitVec 32}

/-- The division comes first, so the product fits when the exact count does. -/
lemma ticks_eq (ht : 0 < s.ticksPerMs.toNat)
    (hfit : s.ticksPerMs.toNat * us.toNat / 1000 < 2 ^ 32) :
    s.ticks us = some (s.ticksPerMs.toNat / 1000 * us.toNat) := by
  rw [ticks, if_pos ht]
  exact if_pos ((div_mul_le_mul_div (by norm_num) _ _).trans_lt hfit)

/-- The registers after both functions. -/
def armed (s : LocalTimer) (ticks : ℕ) : ℕ → BitVec 32 :=
  Function.update (Function.update s.regs tmrinitcntOffset (.ofNat 32 ticks)) lvtTimerOffset
    lvtArmed

lemma regs_writes (s : LocalTimer) (ticks : ℕ) :
    (((s.write lvtTimerOffset lvtIntMasked).write tmrinitcntOffset (.ofNat 32 ticks)).write
      lvtTimerOffset lvtArmed).regs = s.armed ticks := by
  have hne : lvtTimerOffset ≠ tmrinitcntOffset := by decide
  simp only [write, armed, Function.update_comm hne, Function.update_idem]

lemma triggerLocalUs_eq (ht : 0 < s.ticksPerMs.toNat)
    (hfit : s.ticksPerMs.toNat * us.toNat / 1000 < 2 ^ 32) :
    s.triggerLocalUs us =
      some { s with regs := s.armed (s.ticksPerMs.toNat / 1000 * us.toNat) } := by
  rw [← regs_writes, triggerLocalUs]
  show (s.ticks us).bind _ = _
  rw [ticks_eq ht hfit]
  rfl

lemma sleepStart_eq (hawake : s.isSleeping = false) (ht : 0 < s.ticksPerMs.toNat)
    (hfit : s.ticksPerMs.toNat * us.toNat / 1000 < 2 ^ 32) :
    s.sleepStart us = some { s with
      regs := s.armed (s.ticksPerMs.toNat / 1000 * us.toNat), isSleeping := true
      cpu.timerFlags := s.cpu.timerFlags ||| 1 } := by
  rw [← regs_writes, sleepStart, hawake]
  show (s.ticks us).bind _ = _
  rw [ticks_eq ht hfit]
  rfl

lemma toNat_armed_count (s : LocalTimer) {n : ℕ} (hn : n < 2 ^ 32) :
    (s.armed n tmrinitcntOffset).toNat = n := by
  rw [armed, Function.update_of_ne (by decide), Function.update_self, BitVec.toNat_ofNat,
    Nat.mod_eq_of_lt hn]

/-- A tick that is due gives a count, unless a microsecond has no tick. -/
lemma count_ne_zero_iff {t us : ℕ} :
    (1 ≤ t * us / 1000 → t / 1000 * us ≠ 0) ↔ 1000 ≤ t ∨ t * us < 1000 := by
  rw [Nat.one_le_div_iff (by norm_num)]
  constructor
  · intro harmed
    by_contra! hnot
    exact harmed hnot.2 (by rw [Nat.div_eq_of_lt hnot.1, zero_mul])
  · rintro (htick | hnone) hdue
    · have hus : us ≠ 0 := by
        intro h
        rw [h, mul_zero] at hdue
        omega
      exact Nat.mul_ne_zero (Nat.div_pos htick (by norm_num)).ne' hus
    · omega

end LocalTimer

/-- **The count is exact when the remainder of `TICKS_PER_MS` by 1000, multiplied by the
microseconds, stays below 1000**, and not lost when a microsecond has a tick.  Neither function
overflows; `sleep_local_us` only asserts that nobody else sleeps. -/
theorem timer_count_iff (s : LocalTimer) (us : BitVec 32) (ht : 0 < s.ticksPerMs.toNat)
    (hfit : s.ticksPerMs.toNat * us.toNat / 1000 < 2 ^ 32) :
    (s.triggerLocalUs us).isSome ∧ (s.isSleeping = false → (s.sleepStart us).isSome) ∧
      ∀ s', s.triggerLocalUs us = some s' ∨ s.sleepStart us = some s' →
        ((s'.regs tmrinitcntOffset).toNat = s.ticksPerMs.toNat * us.toNat / 1000 ↔
          s.ticksPerMs.toNat % 1000 * us.toNat < 1000) ∧
        ((1 ≤ s.ticksPerMs.toNat * us.toNat / 1000 → (s'.regs tmrinitcntOffset).toNat ≠ 0) ↔
          1000 ≤ s.ticksPerMs.toNat ∨ s.ticksPerMs.toNat * us.toNat < 1000) := by
  have hlt : s.ticksPerMs.toNat / 1000 * us.toNat < 2 ^ 32 :=
    (div_mul_le_mul_div (by norm_num) _ _).trans_lt hfit
  refine ⟨by rw [LocalTimer.triggerLocalUs_eq ht hfit]; rfl,
    fun hawake => by rw [LocalTimer.sleepStart_eq hawake ht hfit]; rfl, fun s' hs' => ?_⟩
  have hcount : (s'.regs tmrinitcntOffset).toNat = s.ticksPerMs.toNat / 1000 * us.toNat := by
    rcases hs' with h | h
    · rw [LocalTimer.triggerLocalUs_eq ht hfit] at h
      cases h
      exact s.toNat_armed_count hlt
    · cases hawake : s.isSleeping with
      | true => simp [LocalTimer.sleepStart, hawake] at h
      | false =>
          rw [LocalTimer.sleepStart_eq hawake ht hfit] at h
          cases h
          exact s.toNat_armed_count hlt
  rw [hcount]
  exact ⟨div_mul_eq_iff (by norm_num) _ _, LocalTimer.count_ne_zero_iff⟩

/-- A timer that was set up with `t` ticks in a millisecond. -/
def setUp (t : BitVec 32) : LocalTimer :=
  ⟨fun _ => 0, t, false, ⟨fun _ => 0, 0, 0, fun _ => 0, 0, 0, false⟩⟩

theorem one_million_ticks : ∃ s', (setUp 1000000).triggerLocalUs 3000000 = some s' ∧
    (s'.regs tmrinitcntOffset).toNat = 3000000000 := by
  obtain ⟨hsome, -, hall⟩ := timer_count_iff (setUp 1000000) 3000000 (by decide) (by decide)
  obtain ⟨s', hs'⟩ := Option.isSome_iff_exists.mp hsome
  exact ⟨s', hs', (hall s' (Or.inl hs')).1.mpr (by decide)⟩

/-- A timer of 999 ticks in a millisecond gets the count 0, and does not start, for a sleep of a
millisecond. -/
theorem slow_timer_not_armed : ∃ s', (setUp 999).sleepStart 1000 = some s' ∧
    999 * 1000 / 1000 = 999 ∧ (s'.regs tmrinitcntOffset).toNat = 0 :=
  ⟨_, rfl, rfl, rfl⟩

end Hdint

end Titanium
