import Titanium.Hdint.LocalApic
import Titanium.Hdint.Pit

/-!
The timer of the local APIC as a device, and how it is measured (`hdint.rs`).

The device counts down from what was last written to `TMRINITCNT`.  When it comes
to zero, it requests its interrupt unless `LVT_TIMER` masks it.  `setup_timer_pit`
lets it count for what the PIT takes for a millisecond, and `trigger_local_us`
turns microseconds into ticks with the result.

* `Lapic.tick`: one tick of the device.
* `toNat_currentCount_ticks`: how far it has counted down.
* `irr_trigger`: **after `trigger_local_us` the interrupt is requested with the tick
  that the count says, and with no other**; it is lost when the count runs out before
  the last of the three writes.
* `setupTimerPit_eq`: `TICKS_PER_MS` is the number of ticks.
* `trigger_real_time`: **the real time until the interrupt is the requested one,
  scaled by how long the measurement took**, up to one tick and the rounding to whole
  ticks in a microsecond.
-/

namespace Titanium

namespace Hdint

open Idt PollLoop

/-! ### The device -/

/-- `TMRDIV_OFFSET`. -/
def tmrdivOffset : ℕ := 0x3e0

/-- `EOI_OFFSET`. -/
def eoiOffset : ℕ := 0xb0

/-- The timer of the local APIC. -/
structure Lapic where
  /-- `LVT_TIMER`. -/
  lvt : BitVec 32
  /-- `TMRINITCNT`. -/
  initialCount : BitVec 32
  /-- `TMRCURRCNT`. -/
  currentCount : BitVec 32
  /-- The interrupt is requested. -/
  irr : Bool
  /-- The interrupt is in service. -/
  isr : Bool
  deriving DecidableEq, Repr

namespace Lapic

/-- `LVT_INT_MASKED` is set. -/
def masked (l : Lapic) : Bool := l.lvt.getLsbD 16

/-- `TIMER_MODE_PERIODIC` is set. -/
def periodic (l : Lapic) : Bool := l.lvt.getLsbD 17

/-- A write to a register.  The divisor only sets the pace of the ticks. -/
def write (l : Lapic) (offset : ℕ) (value : BitVec 32) : Lapic :=
  if offset = lvtTimerOffset then { l with lvt := value }
  else if offset = tmrinitcntOffset then { l with initialCount := value, currentCount := value }
  else if offset = eoiOffset then { l with isr := false }
  else l

/-- One tick. -/
def tick (l : Lapic) : Lapic :=
  if l.currentCount = 0 then l
  else if l.currentCount = 1 then
    { l with
      currentCount := if l.periodic then l.initialCount else 0
      irr := l.irr || !l.masked }
  else { l with currentCount := l.currentCount - 1 }

@[simp]
lemma write_lvt (l : Lapic) (v : BitVec 32) : l.write lvtTimerOffset v = { l with lvt := v } :=
  if_pos rfl

@[simp]
lemma write_initialCount (l : Lapic) (v : BitVec 32) :
    l.write tmrinitcntOffset v = { l with initialCount := v, currentCount := v } := by
  rw [write, if_neg (by decide), if_pos rfl]

@[simp]
lemma write_eoi (l : Lapic) (v : BitVec 32) : l.write eoiOffset v = { l with isr := false } := by
  rw [write, if_neg (by decide), if_neg (by decide), if_pos rfl]

@[simp]
lemma write_tmrdiv (l : Lapic) (v : BitVec 32) : l.write tmrdivOffset v = l := by
  rw [write, if_neg (by decide), if_neg (by decide), if_neg (by decide)]

/-- The processor takes the interrupt. -/
def deliver (l : Lapic) : Lapic := { l with irr := false, isr := true }

/-- Writes to registers, one after the other; the timer makes so many ticks before each of them. -/
def writesAt (l : Lapic) (ws : List (ℕ × BitVec 32)) (gaps : List ℕ) : Lapic :=
  (ws.zip gaps).foldl (fun l w => (tick^[w.2] l).write w.1.1 w.1.2) l

section Tick

variable (l : Lapic)

@[simp]
lemma lvt_tick : l.tick.lvt = l.lvt := by
  unfold tick
  split_ifs <;> rfl

@[simp]
lemma isr_tick : l.tick.isr = l.isr := by
  unfold tick
  split_ifs <;> rfl

variable {l}

/-- A timer that stands still does nothing. -/
lemma tick_of_zero (h : l.currentCount = 0) : l.tick = l := if_pos h

/-- In one-shot mode the count goes down to zero, and stays there. -/
lemma toNat_currentCount_tick (h : l.periodic = false) :
    l.tick.currentCount.toNat = l.currentCount.toNat - 1 := by
  unfold tick
  split_ifs with h0 h1 hp
  · rw [h0]
    rfl
  · rw [h] at hp
    cases hp
  · rw [h1]
    rfl
  · have hne : l.currentCount.toNat ≠ 0 := fun hz => h0 (BitVec.eq_of_toNat_eq hz)
    have hlt := l.currentCount.isLt
    show (l.currentCount - 1).toNat = l.currentCount.toNat - 1
    rw [BitVec.toNat_sub]
    simp
    omega

/-- The interrupt is requested with the tick that ends the count. -/
lemma irr_tick : l.tick.irr = (l.irr || (l.currentCount.toNat == 1 && !l.masked)) := by
  by_cases h0 : l.currentCount = 0
  · simp [tick, h0]
  by_cases h1 : l.currentCount = 1
  · simp [tick, h1]
  · have hne : l.currentCount.toNat ≠ 1 := fun hz => h1 (BitVec.eq_of_toNat_eq hz)
    rw [tick, if_neg h0, if_neg h1]
    simp [hne]

end Tick

/-! ### Many ticks -/

section Ticks

variable {l : Lapic}

lemma lvt_ticks (l : Lapic) (k : ℕ) : (tick^[k] l).lvt = l.lvt := by
  induction k with
  | zero => rfl
  | succ k ih => rw [Function.iterate_succ_apply', lvt_tick, ih]

lemma periodic_ticks (l : Lapic) (k : ℕ) : (tick^[k] l).periodic = l.periodic := by
  rw [periodic, lvt_ticks, periodic]

/-- **How far the timer has counted down.** -/
lemma toNat_currentCount_ticks (h : l.periodic = false) (k : ℕ) :
    (tick^[k] l).currentCount.toNat = l.currentCount.toNat - k := by
  induction k with
  | zero => rfl
  | succ k ih =>
      rw [Function.iterate_succ_apply', toNat_currentCount_tick ((periodic_ticks l k).trans h), ih]
      omega

/-- **When the interrupt is requested.** -/
lemma irr_ticks (h : l.periodic = false) (hmask : l.masked = false) (hirr : l.irr = false)
    (k : ℕ) : (tick^[k] l).irr = true ↔
      0 < l.currentCount.toNat ∧ l.currentCount.toNat ≤ k := by
  induction k with
  | zero =>
      rw [Function.iterate_zero_apply, hirr]
      simp only [Bool.false_eq_true, false_iff]
      omega
  | succ k ih =>
      have hmask' : (tick^[k] l).masked = false := by rw [masked, lvt_ticks]; exact hmask
      have hcount := toNat_currentCount_ticks h k
      rw [Function.iterate_succ_apply', irr_tick, Bool.or_eq_true, ih, hmask']
      simp only [Bool.not_false, Bool.and_true, beq_iff_eq]
      omega

/-- A timer that is masked requests nothing. -/
lemma irr_ticks_masked (hmask : l.masked = true) (k : ℕ) : (tick^[k] l).irr = l.irr := by
  induction k with
  | zero => rfl
  | succ k ih =>
      have hmask' : (tick^[k] l).masked = true := by rw [masked, lvt_ticks]; exact hmask
      rw [Function.iterate_succ_apply', irr_tick, ih, hmask', Bool.not_true, Bool.and_false,
        Bool.or_false]

end Ticks

end Lapic

/-! ### The driver -/

/-- `halt_timer`. -/
def haltTimer : List (ℕ × BitVec 32) :=
  [(lvtTimerOffset, timerModeOneshot ||| lvtIntMasked), (tmrinitcntOffset, 0)]

/-- The writes of `trigger_local_us`. -/
def triggerWrites (ticks : ℕ) : List (ℕ × BitVec 32) :=
  [(lvtTimerOffset, lvtIntMasked), (tmrinitcntOffset, .ofNat 32 ticks),
    (lvtTimerOffset, LocalTimer.lvtArmed)]

/-- These are its writes indeed. -/
lemma LocalTimer.triggerLocalUs_eq_writes (s : LocalTimer) (us : BitVec 32) :
    s.triggerLocalUs us = (s.ticks us).map fun ticks =>
      (triggerWrites ticks).foldl (fun s w => s.write w.1 w.2) s := by
  have hticks : (s.write lvtTimerOffset lvtIntMasked).ticks us = s.ticks us := rfl
  rw [triggerLocalUs, hticks]
  cases s.ticks us <;> rfl

/-- What the three writes of `trigger_local_us` leave in the device, `a` ticks after the first and
`b` after the second. -/
lemma writesAt_triggerWrites (l : Lapic) (n a b : ℕ) :
    l.writesAt (triggerWrites n) [0, a, b] =
      ((Lapic.tick^[b] ((Lapic.tick^[a] (l.write lvtTimerOffset lvtIntMasked)).write
        tmrinitcntOffset (.ofNat 32 n))).write lvtTimerOffset LocalTimer.lvtArmed) := by
  simp only [Lapic.writesAt, triggerWrites, List.zip_cons_cons, List.zip_nil_left,
    List.foldl_cons, List.foldl_nil, Function.iterate_zero_apply]

/-- **The interrupt of `trigger_local_us` comes with the tick that the count says**, counted from
the write of the count; `b` ticks have passed when the timer is unmasked, and when these are all,
the interrupt is lost. -/
lemma irr_trigger {l : Lapic} (hirr : l.irr = false) {n : ℕ} (hlt : n < 2 ^ 32) (a b k : ℕ) :
    (Lapic.tick^[k] (l.writesAt (triggerWrites n) [0, a, b])).irr = true ↔
      b < n ∧ n ≤ b + k := by
  rw [writesAt_triggerWrites, Lapic.write_lvt, Lapic.write_initialCount, Lapic.write_lvt]
  -- masked, the timer counts down and requests nothing
  generalize hd : Lapic.tick^[a] { l with lvt := lvtIntMasked } = d
  have hlvt : d.lvt = lvtIntMasked := by rw [← hd, Lapic.lvt_ticks]
  have hirr_d : d.irr = false := by
    have hmasked : Lapic.masked { l with lvt := lvtIntMasked } = true := by
      simp only [Lapic.masked]
      decide
    rw [← hd, Lapic.irr_ticks_masked hmasked, hirr]
  generalize he : ({ d with initialCount := .ofNat 32 n, currentCount := .ofNat 32 n } : Lapic) = e
  have hmode : e.periodic = false := by
    rw [← he, Lapic.periodic, hlvt]
    decide
  have hmask : e.masked = true := by
    rw [← he, Lapic.masked, hlvt]
    decide
  have hcount : e.currentCount.toNat = n := by
    rw [← he, BitVec.toNat_ofNat, Nat.mod_eq_of_lt hlt]
  have hrest : (Lapic.tick^[b] e).currentCount.toNat = n - b := by
    rw [Lapic.toNat_currentCount_ticks hmode b, hcount]
  have hirr_e : (Lapic.tick^[b] e).irr = false := by
    rw [Lapic.irr_ticks_masked hmask b, ← he, hirr_d]
  -- unmasked, it requests the interrupt with the last tick of the count
  generalize hg : ({ Lapic.tick^[b] e with lvt := LocalTimer.lvtArmed } : Lapic) = g
  have hmode_g : g.periodic = false := by
    rw [← hg]
    exact (by decide : LocalTimer.lvtArmed.getLsbD 17 = false)
  have hmask_g : g.masked = false := by
    rw [← hg]
    exact (by decide : LocalTimer.lvtArmed.getLsbD 16 = false)
  have hirr_g : g.irr = false := by rw [← hg, hirr_e]
  have hcount_g : g.currentCount.toNat = n - b := by rw [← hg, hrest]
  rw [Lapic.irr_ticks hmode_g hmask_g hirr_g k, hcount_g]
  omega

/-- `setup_timer_pit`, when the device makes `k` ticks until the timer is masked, and `k'` more
until its count is read. -/
def setupTimerPit (l : Lapic) (k k' : ℕ) : Option (Lapic × BitVec 32) := do
  let l := l.write tmrdivOffset 0x2
  let l := l.write tmrinitcntOffset 0xffffffff
  let l := Lapic.tick^[k] l
  let l := Lapic.tick^[k'] (l.write lvtTimerOffset lvtIntMasked)
  let ticksPerMs ← checkedSub 0xffffffff l.currentCount.toNat
  some (l, .ofNat 32 ticksPerMs)

/-- **`TICKS_PER_MS` is the number of ticks**, unless the timer has come to its end. -/
lemma setupTimerPit_eq {l : Lapic} (h : l.periodic = false) {k k' : ℕ} (hk : k + k' < 2 ^ 32) :
    ∃ l', setupTimerPit l k k' = some (l', .ofNat 32 (k + k')) := by
  have hcount := Lapic.toNat_currentCount_ticks
    (l := { l with initialCount := 0xffffffff, currentCount := 0xffffffff }) h k
  -- the write that masks the timer leaves the count alone
  have hcount' := Lapic.toNat_currentCount_ticks
    (l := { Lapic.tick^[k] { l with initialCount := 0xffffffff, currentCount := 0xffffffff } with
      lvt := lvtIntMasked }) (by simp only [Lapic.periodic]; decide) k'
  have hsub : checkedSub 0xffffffff (0xffffffff - k - k') = some (k + k') := by
    rw [checkedSub, if_pos (by omega)]
    exact congrArg some (by omega)
  refine ⟨_, Option.bind_eq_some_iff.mpr ⟨k + k', ?_, rfl⟩⟩
  simp only [Lapic.write_tmrdiv, Lapic.write_initialCount, Lapic.write_lvt, hcount', hcount]
  exact hsub

/-! ### Real time -/

/-- Rounding to whole ticks in a microsecond loses less than a tick in each. -/
lemma ticks_bounds {F t : ℝ} {k us : ℕ} (hus : 0 < us) (hk : |(k : ℝ) - F * t| < 1) :
    us * (F * t - 1000) / 1000 < ((k / 1000 * us : ℕ) : ℝ) ∧
      ((k / 1000 * us : ℕ) : ℝ) < us * (F * t + 1) / 1000 := by
  obtain ⟨hlow, hhigh⟩ := abs_lt.mp hk
  have hle : (k : ℝ) ≤ 1000 * (k / 1000 : ℕ) + 999 := by
    exact_mod_cast (by omega : k ≤ 1000 * (k / 1000) + 999)
  have hge : 1000 * ((k / 1000 : ℕ) : ℝ) ≤ k := by
    exact_mod_cast Nat.mul_div_le k 1000
  have hpos : (0 : ℝ) < us := Nat.cast_pos.mpr hus
  rw [Nat.cast_mul]
  constructor
  · calc us * (F * t - 1000) / 1000 = us * ((F * t - 1000) / 1000) := by ring
      _ < us * ((k / 1000 : ℕ) : ℝ) := by
          refine mul_lt_mul_of_pos_left ?_ hpos
          linarith
      _ = ((k / 1000 : ℕ) : ℝ) * us := mul_comm _ _
  · calc ((k / 1000 : ℕ) : ℝ) * us = us * ((k / 1000 : ℕ) : ℝ) := mul_comm _ _
      _ < us * ((F * t + 1) / 1000) := by
          refine mul_lt_mul_of_pos_left ?_ hpos
          linarith
      _ = us * (F * t + 1) / 1000 := by ring

/-- The sleep of a millisecond ends between the second interrupt of the PIT and the fourth. -/
lemma sleep_ms_bounds {rust : Rust} {c : Idt.Cpu} {φ t : ℝ} {cfg : Config Idt.Cpu} {b : Bool}
    {f : ℕ} (hφ : 0 < φ) (h : SleepUsRun rust c 1000 φ cfg b f t) (hdone : cfg.pc = .done) :
    φ + pitPeriod ≤ t ∧ t < φ + 3 * pitPeriod := by
  have hneed : ticksNeeded 1000 = 2 := by decide
  have h₀ : (sleepUsStart c).timerCounter.toNat = 0 * pitInterval := rfl
  have hwithin := (h.bounds (sleepUs_counts rust 1000) h₀).2
  rw [hdone, hneed] at hwithin
  constructor
  · calc φ + pitPeriod = lastIrq φ pitPeriod 2 := by simp [lastIrq]
      _ ≤ lastIrq φ pitPeriod f := lastIrq_mono hφ pitPeriod_pos hwithin.1
      _ ≤ t := h.lastIrq_le
  · have hf : (f : ℝ) ≤ 3 := by exact_mod_cast hwithin.2
    have hmul := mul_le_mul_of_nonneg_right hf pitPeriod_pos.le
    linarith [h.lt_next hφ pitPeriod_pos]

/-- **How long `trigger_local_us` really takes.**  The timer makes `F` ticks in a microsecond, and
`k + k'` during the measurement: the sleep, which took `t` microseconds and ended between the second
and the fourth interrupt of the PIT, and `δ` microseconds for the code around it.  A request of
`us` microseconds is for some number of ticks.  Its interrupt comes with exactly that tick after
the write of the count, if that is later than the write that unmasks the timer, and not at all
otherwise; and the ticks take `us * (t + δ) / 1000` microseconds, up to a tick more, or a tick less
in each microsecond. -/
theorem trigger_real_time (rust : Rust) (c : Idt.Cpu) {φ F t δ : ℝ} {cfg : Config Idt.Cpu}
    {b : Bool} {f k k' : ℕ} {l : Lapic} (hφ : 0 < φ) (hF : 0 < F) (honeshot : l.periodic = false)
    (hsleep : SleepUsRun rust c 1000 φ cfg b f t) (hdone : cfg.pc = .done)
    (hticks : |((k + k' : ℕ) : ℝ) - F * (t + δ)| < 1) (hk : k + k' < 2 ^ 32) :
    φ + pitPeriod ≤ t ∧ t < φ + 3 * pitPeriod ∧
      ∃ l' ticksPerMs, setupTimerPit l k k' = some (l', ticksPerMs) ∧
        ∀ (s s' : LocalTimer) (us : BitVec 32), s.ticksPerMs = ticksPerMs → 0 < us.toNat →
          s.triggerLocalUs us = some s' →
          ∃ n : ℕ, s' = (triggerWrites n).foldl (fun s w => s.write w.1 w.2) s ∧
            (∀ (d : Lapic) i i' j, d.irr = false →
              ((Lapic.tick^[j] (d.writesAt (triggerWrites n) [0, i, i'])).irr = true ↔
                i' < n ∧ n ≤ i' + j)) ∧
            us.toNat * (t + δ - 1000 / F) / 1000 < n / F ∧
            n / F < us.toNat * (t + δ + 1 / F) / 1000 := by
  obtain ⟨hlow, hhigh⟩ := sleep_ms_bounds hφ hsleep hdone
  obtain ⟨l', hsetup⟩ := setupTimerPit_eq honeshot hk
  refine ⟨hlow, hhigh, l', _, hsetup, fun s s' us hs hus htrigger => ?_⟩
  rw [LocalTimer.triggerLocalUs_eq_writes] at htrigger
  obtain ⟨n, hn, rfl⟩ := Option.map_eq_some_iff.mp htrigger
  obtain ⟨-, hmul⟩ := Option.ite_none_right_eq_some.mp hn
  obtain ⟨hlt, rfl⟩ := checkedMul_eq_some.mp hmul
  have hkt : s.ticksPerMs.toNat = k + k' := by rw [hs, BitVec.toNat_ofNat, Nat.mod_eq_of_lt hk]
  rw [hkt] at hlt ⊢
  obtain ⟨hmin, hmax⟩ := ticks_bounds hus hticks
  refine ⟨_, rfl, fun d i i' j hirr => irr_trigger hirr hlt i i' j, ?_, ?_⟩
  · rw [lt_div_iff₀ hF]
    calc us.toNat * (t + δ - 1000 / F) / 1000 * F = us.toNat * (F * (t + δ) - 1000) / 1000 := by
          field_simp
      _ < _ := hmin
  · rw [div_lt_iff₀ hF]
    calc (((k + k') / 1000 * us.toNat : ℕ) : ℝ) < us.toNat * (F * (t + δ) + 1) / 1000 := hmax
      _ = us.toNat * (t + δ + 1 / F) / 1000 * F := by
          field_simp

/-- The timer after a reset: one-shot, masked and stopped. -/
def resetLapic : Lapic := ⟨lvtIntMasked, 0, 0, false, false⟩

/-- With 100 ticks in a microsecond, a full sleep and a microsecond around it, a second takes
between 0.995 and 1.007 seconds, when the timer is unmasked 20 ticks after its count was written. -/
theorem trigger_real_time_second : ∃ l' ticksPerMs s' n,
    setupTimerPit resetLapic 100670 1 = some (l', ticksPerMs) ∧
    (setUp ticksPerMs).triggerLocalUs 1000000 = some s' ∧
    s' = (triggerWrites n).foldl (fun s w => s.write w.1 w.2) (setUp ticksPerMs) ∧
    ((995000 : ℝ) < n / 100 ∧ n / (100 : ℝ) < 1007000) ∧
    ∀ j, (Lapic.tick^[j] (resetLapic.writesAt (triggerWrites n) [0, 5, 20])).irr = true ↔
      n ≤ 20 + j := by
  have h₀ : (sleepUsStart zeroCpu).timerCounter.toNat = 0 * pitInterval := rfl
  have hneed : ticksNeeded 1000 = 2 := by decide
  obtain ⟨m, -, hrun⟩ := (sleepUs_counts quietRust 1000).returns h₀ pitPeriod_pos pitPeriod_pos
  rw [hneed] at hrun
  have htime : lastIrq pitPeriod pitPeriod 2 = 2 * pitPeriod := by
    simp only [lastIrq]
    ring
  have hticks : |((100670 + 1 : ℕ) : ℝ) - 100 * (lastIrq pitPeriod pitPeriod 2 + 1)| < 1 := by
    rw [htime, abs_lt]
    norm_num [pitPeriod, pitInterval, fpWidth]
  have hmode : resetLapic.periodic = false := by decide
  obtain ⟨-, -, l', ticksPerMs, hsetup, hall⟩ := trigger_real_time quietRust zeroCpu pitPeriod_pos
    (by norm_num) hmode hrun rfl hticks (by norm_num)
  obtain ⟨l'', hsetup'⟩ := setupTimerPit_eq hmode (show 100670 + 1 < 2 ^ 32 by norm_num)
  have hms : ticksPerMs = .ofNat 32 100671 :=
    (Prod.mk.inj (Option.some.inj (hsetup.symm.trans hsetup'))).2
  have htrigger : ((setUp ticksPerMs).triggerLocalUs 1000000).isSome = true := by
    rw [hms]
    decide
  obtain ⟨s', hs'⟩ := Option.isSome_iff_exists.mp htrigger
  obtain ⟨n, hn, hirr, hmin, hmax⟩ := hall (setUp ticksPerMs) s' 1000000 rfl (by decide) hs'
  have hus : BitVec.toNat (1000000 : BitVec 32) = 1000000 := rfl
  rw [hus, htime] at hmin hmax
  have hlow : (995000 : ℝ) < n / 100 := by
    refine lt_trans ?_ hmin
    norm_num [pitPeriod, pitInterval, fpWidth]
  have hhigh : n / (100 : ℝ) < 1007000 := by
    refine lt_trans hmax ?_
    norm_num [pitPeriod, pitInterval, fpWidth]
  have hpos : 20 < n := by
    have : (20 : ℝ) < n := by linarith
    exact_mod_cast this
  refine ⟨l', ticksPerMs, s', n, hsetup, hs', hn, ⟨hlow, hhigh⟩, fun j => ?_⟩
  exact (hirr resetLapic 5 20 j rfl).trans (and_iff_right hpos)

end Hdint

end Titanium
