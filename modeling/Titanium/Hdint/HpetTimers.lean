import Titanium.Hdint.Hpet

/-!
The timers of the HPET (`hdint/hpet.rs`).

The main counter counts while the HPET is enabled.  A timer requests its interrupt
when the counter comes to its comparator, and a periodic timer then adds its
period to the comparator.  The counter has 32 or 64 bits, and so has each timer, of
which a wide one can be told to use 32.  In periodic mode a write to the comparator
goes to the period, unless the bit `cnf` is set, which lets one write through.

* `Device.tick`: one tick; `Timer.writeComparator`: the two writes.
* `Device.line`: where the interrupt of a timer goes.
* `enableTimer_periodic`: what `enable_timer` leaves behind.
* `Periodic.run`: the invariant of a periodic timer, over any run that leaves it
  alone.
* `timer_interrupts`: **`enable_timer` gives an interrupt in every period, counted
  in ticks of the main counter, on the pin it was asked for, and `disable_timer`
  gives none**; a period is cut to the width of the timer.
-/

namespace Titanium

namespace HpetTimers

open Hdint (periodFs)

/-! ### Configurations -/

/-- `TimerConfig`. -/
abbrev TimerConfig : Type := BitVec 64

namespace TimerConfig

def irqCapabilities (c : TimerConfig) : BitVec 32 := (BitField.bitRange c 63 32).setWidth 32

def activeIrq (c : TimerConfig) : BitVec 8 := (BitField.bitRange c 13 9).setWidth 8

def setActiveIrq (c : TimerConfig) (v : BitVec 8) : TimerConfig :=
  BitField.setBitRange c 13 9 (v.setWidth 64)

def setIrqEnabled (c : TimerConfig) (b : Bool) : TimerConfig := BitField.setBit c 2 b

def setPeriodic (c : TimerConfig) (b : Bool) : TimerConfig := BitField.setBit c 3 b

def setCnf (c : TimerConfig) (b : Bool) : TimerConfig := BitField.setBit c 6 b

/-- The bits that can be written; `periodic`, `32bit` and `fsb` can if they are supported. -/
def writable (c : TimerConfig) : BitVec 64 :=
  0x3e46 ||| (if c.getLsbD 4 then 0x8 else 0) ||| (if c.getLsbD 5 then 0x100 else 0) |||
    (if c.getLsbD 15 then 0x4000 else 0)

end TimerConfig

/-! ### The device -/

/-- A timer. -/
structure Timer where
  config : TimerConfig
  comparator : BitVec 64
  /-- What is added to the comparator in periodic mode. -/
  period : BitVec 64
  deriving DecidableEq, Repr

namespace Timer

/-- The bits of the comparator that count: those of a `is_64bit` timer which is not
`forced_32bit`. -/
def width (t : Timer) : ℕ := if t.config.getLsbD 5 && !t.config.getLsbD 8 then 64 else 32

def writeConfig (t : Timer) (v : BitVec 64) : Timer :=
  { t with config := (t.config &&& ~~~TimerConfig.writable t.config) |||
      (v &&& TimerConfig.writable t.config) }

def writeComparator (t : Timer) (v : BitVec 64) : Timer :=
  if t.config.getLsbD 3 && !t.config.getLsbD 6 then { t with period := v }
  else { t with config := BitField.setBit t.config 6 false, comparator := v }

/-- The comparator meets this value of the counter. -/
def meets (t : Timer) (counter : BitVec 64) : Bool :=
  t.comparator.setWidth t.width == counter.setWidth t.width

/-- The counter has come to `counter`. -/
def advance (t : Timer) (counter : BitVec 64) : Timer :=
  if t.meets counter && t.config.getLsbD 3 then { t with comparator := t.comparator + t.period }
  else t

end Timer

/-- Where an interrupt goes: to a pin of the I/O APIC, or as a message over the front side bus. -/
inductive Line where
  | pin (irq : BitVec 8)
  | message
  deriving DecidableEq, Repr

/-- The HPET. -/
structure Device where
  capabilities : BitVec 64
  config : BitVec 64
  counter : BitVec 64
  /-- The timers, by the index in their address. -/
  timers : BitVec 8 → Timer
  /-- The level-triggered timers that hold their lines. -/
  status : BitVec 8 → Bool

namespace Device

/-- `Configuration::is_enabled`. -/
def isEnabled (d : Device) : Bool := BitField.bit d.config 0

/-- The bits of the main counter, by `Capabilities::supports_64bit`. -/
def counterWidth (d : Device) : ℕ := if d.capabilities.getLsbD 13 then 64 else 32

/-- What the counter reads as, `k` ticks from now. -/
def counterAt (d : Device) (k : BitVec 64) : BitVec 64 :=
  ((d.counter + k).setWidth d.counterWidth).setWidth 64

/-- One tick of the clock. -/
def tick (d : Device) : Device :=
  if d.isEnabled then
    { d with
      counter := d.counterAt 1
      timers := fun i => (d.timers i).advance (d.counterAt 1)
      status := fun i => d.status i ||
        ((d.timers i).config.getLsbD 1 && (d.timers i).meets (d.counterAt 1)) }
  else d

/-- The tick makes the timer request its interrupt; a line that is held gives no second one. -/
def raises (d : Device) (i : BitVec 8) : Bool :=
  d.isEnabled && (d.timers i).meets (d.counterAt 1) && (d.timers i).config.getLsbD 2 &&
    !((d.timers i).config.getLsbD 1 && d.status i)

/-- Where the interrupt of a timer goes: with `is_legrep_enabled`, those of the first two take the
places of the PIT and of the RTC. -/
def line (d : Device) (i : BitVec 8) : Line :=
  if (d.timers i).config.getLsbD 14 then .message
  else if d.config.getLsbD 1 && i == 0 then .pin 2
  else if d.config.getLsbD 1 && i == 1 then .pin 8
  else .pin (TimerConfig.activeIrq (d.timers i).config)

/-! ### The driver -/

/-- `HPET::enable`. -/
def enable (d : Device) : Device := { d with config := BitField.setBit d.config 0 true }

/-- `HPET::disable`. -/
def disable (d : Device) : Device := { d with config := BitField.setBit d.config 0 false }

/-- The ticks of a period, `none` when the nanoseconds overflow or the clock has no period. -/
def periodTicks (d : Device) (periodNs : BitVec 64) : Option ℕ := do
  let clkPeriodFs := (periodFs d.capabilities).toNat
  let fs ← checkedMul 64 periodNs.toNat 1000000
  if clkPeriodFs = 0 then none else some (fs / clkPeriodFs)

/-- `HPET::enable_timer`. -/
def enableTimer (d : Device) (index onIrq : BitVec 8) (periodNs : BitVec 64) : Option Device := do
  let d := d.disable
  let periodTicks ← d.periodTicks periodNs
  let curcount := d.counterAt 0
  let irqBit ← checkedShl 1#32 onIrq.toNat
  let timer := d.timers index
  let config := timer.config
  if TimerConfig.irqCapabilities config &&& irqBit = 0 then none else
  let config := TimerConfig.setActiveIrq config onIrq
  let config := TimerConfig.setIrqEnabled config true
  let config := TimerConfig.setPeriodic config true
  let config := TimerConfig.setCnf config true
  let timer := timer.writeConfig config
  let timer := timer.writeComparator (curcount + .ofNat 64 periodTicks)
  let timer := timer.writeComparator (.ofNat 64 periodTicks)
  some { d with timers := Function.update d.timers index timer }

/-- `HPET::disable_timer`. -/
def disableTimer (d : Device) (index : BitVec 8) : Device :=
  let timer := d.timers index
  let timer := timer.writeConfig (TimerConfig.setIrqEnabled timer.config false)
  { d with timers := Function.update d.timers index timer }

end Device

/-- What can happen. -/
inductive Event where
  | tick
  | enable
  | disable
  | enableTimer (index onIrq : BitVec 8) (periodNs : BitVec 64)
  | disableTimer (index : BitVec 8)
  deriving DecidableEq, Repr

/-- The timer that a call is about. -/
def Event.timer : Event → Option (BitVec 8)
  | .enableTimer index _ _ | .disableTimer index => some index
  | _ => none

/-- One event. -/
def step (d : Device) : Event → Option Device
  | .tick => some d.tick
  | .enable => some d.enable
  | .disable => some d.disable
  | .enableTimer index onIrq periodNs => d.enableTimer index onIrq periodNs
  | .disableTimer index => some (d.disableTimer index)

/-- A run: the device at its end, the ticks that the main counter made, and where the interrupts of
the timer `i` went. -/
def run (i : BitVec 8) : Device → List Event → Option (Device × ℕ × List Line)
  | d, [] => some (d, 0, [])
  | d, e :: es => do
      let d₁ ← step d e
      let (d', ticks, lines) ← run i d₁ es
      some (d', ticks + (if e = .tick ∧ d.isEnabled then 1 else 0),
        (if e = .tick ∧ d.raises i then [d.line i] else []) ++ lines)

/-! ### Configurations that were written -/

lemma getLsbD_writeConfig (t : Timer) (v : BitVec 64) (j : ℕ) :
    (t.writeConfig v).config.getLsbD j =
      if (TimerConfig.writable t.config).getLsbD j then v.getLsbD j else t.config.getLsbD j := by
  simp only [Timer.writeConfig, BitVec.getLsbD_or, BitVec.getLsbD_and, BitVec.getLsbD_not]
  by_cases hj : j < 64
  · cases (TimerConfig.writable t.config).getLsbD j <;> simp [hj]
  · simp [BitVec.getLsbD_of_ge _ _ (Nat.le_of_not_lt hj)]

/-- `active_irq` is five bits of the configuration. -/
lemma TimerConfig.activeIrq_eq {c : TimerConfig} {v : BitVec 8} (hv : v.toNat < 32)
    (h : ∀ j < 5, c.getLsbD (9 + j) = v.getLsbD j) : TimerConfig.activeIrq c = v := by
  refine BitVec.eq_of_getLsbD_eq fun j hj => ?_
  rw [TimerConfig.activeIrq, BitVec.getLsbD_setWidth, BitField.getLsbD_bitRange (by norm_num)]
  by_cases hlow : j < 5
  · simp [h j hlow, hj, show 9 + j ≤ 13 by omega]
  · have hhigh : v.getLsbD j = false :=
      Nat.testBit_lt_two_pow (hv.trans_le (Nat.pow_le_pow_right (n := 2) (by norm_num)
        (show 5 ≤ j by omega)))
    simp [hhigh, show ¬ 9 + j ≤ 13 by omega]

/-! ### One timer -/

lemma Timer.width_le (t : Timer) : t.width ≤ 64 := by
  rw [Timer.width]
  split_ifs <;> norm_num

/-- What a comparator of `w` bits holds after `k` ticks from `base` on, for the period `q`: the next
multiple. -/
def target {w : ℕ} (base : BitVec w) (q k : ℕ) : BitVec w := base + .ofNat w ((k / q + 1) * q)

/-- The timer has been periodic for `k` ticks. -/
structure Periodic {w : ℕ} (irq : BitVec 8) (base : BitVec w) (q k : ℕ) (counter : BitVec 64)
    (t : Timer) : Prop where
  width_eq : t.width = w
  counter_eq : counter.setWidth w = base + .ofNat w k
  comparator_eq : t.comparator.setWidth w = target base q k
  period_eq : t.period.setWidth w = .ofNat w q
  irqEnabled : t.config.getLsbD 2 = true
  periodic : t.config.getLsbD 3 = true
  edge : t.config.getLsbD 1 = false
  fsb : t.config.getLsbD 14 = false
  activeIrq_eq : TimerConfig.activeIrq t.config = irq

section Periodic

variable {w : ℕ} {irq : BitVec 8} {base : BitVec w} {counter next : BitVec 64} {q k : ℕ}
  {t : Timer}

/-- The counter meets the comparator at the multiples of the period. -/
lemma target_eq_iff (hq : 0 < q) (hle : q ≤ 2 ^ w) :
    target base q k = base + .ofNat w (k + 1) ↔ q ∣ k + 1 := by
  have hdiv : q * (k / q) + k % q = k := Nat.div_add_mod k q
  have hmod : k % q < q := Nat.mod_lt k hq
  have hgap : (k / q + 1) * q = k + 1 + (q - 1 - k % q) := by
    rw [Nat.add_mul, mul_comm (k / q)]
    omega
  have hdvd : q ∣ k + 1 ↔ q - 1 - k % q = 0 := by
    rw [show k + 1 = q * (k / q) + (k % q + 1) by omega, Nat.dvd_add_right (Nat.dvd_mul_right _ _)]
    constructor
    · intro h
      have := Nat.le_of_dvd (by omega) h
      omega
    · intro h
      rw [show k % q + 1 = q by omega]
  rw [target, hgap, BitVec.ofNat_add (k + 1), ← BitVec.add_assoc, BitVec.add_right_eq_self,
    ← BitVec.toNat_inj, BitVec.toNat_ofNat, Nat.mod_eq_of_lt (show q - 1 - k % q < 2 ^ w by omega),
    hdvd]
  rfl

lemma Periodic.meets_iff (h : Periodic irq base q k counter t) (hq : 0 < q) (hle : q ≤ 2 ^ w)
    (hnext : next.setWidth w = base + .ofNat w (k + 1)) : t.meets next = true ↔ q ∣ k + 1 := by
  rw [Timer.meets, h.width_eq, beq_iff_eq, h.comparator_eq, hnext, target_eq_iff hq hle]

/-- A tick of the main counter. -/
lemma Periodic.advance (h : Periodic irq base q k counter t) (hq : 0 < q) (hle : q ≤ 2 ^ w)
    (hnext : next.setWidth w = base + .ofNat w (k + 1)) :
    Periodic irq base q (k + 1) next (t.advance next) := by
  have hw : w ≤ 64 := h.width_eq ▸ t.width_le
  have hmeets := h.meets_iff hq hle hnext
  by_cases hdvd : q ∣ k + 1
  · rw [Timer.advance, hmeets.mpr hdvd, h.periodic, Bool.and_self, if_pos rfl]
    refine ⟨h.width_eq, hnext, ?_, h.period_eq, h.irqEnabled, h.periodic, h.edge, h.fsb,
      h.activeIrq_eq⟩
    calc (t.comparator + t.period).setWidth w
        = base + .ofNat w ((k / q + 1) * q) + .ofNat w q := by
          rw [BitVec.setWidth_add _ _ hw, h.comparator_eq, h.period_eq, target]
      _ = base + .ofNat w (((k + 1) / q + 1) * q) := by
          rw [Nat.succ_div_of_dvd hdvd, BitVec.add_assoc, ← BitVec.ofNat_add, ← Nat.succ_mul]
  · have hmiss : t.meets next = false := Bool.eq_false_iff.mpr fun hyes => hdvd (hmeets.mp hyes)
    rw [Timer.advance, hmiss, Bool.false_and, if_neg (by decide)]
    refine ⟨h.width_eq, hnext, ?_, h.period_eq, h.irqEnabled, h.periodic, h.edge, h.fsb,
      h.activeIrq_eq⟩
    rw [h.comparator_eq, target, target, Nat.succ_div_of_not_dvd hdvd]

end Periodic

/-- The period that a comparator of `w` bits has: it is cut to these, and one of zero ticks is a
whole turn. -/
def turn (w ticks : ℕ) : ℕ := if ticks % 2 ^ w = 0 then 2 ^ w else ticks % 2 ^ w

lemma turn_pos (w ticks : ℕ) : 0 < turn w ticks := by
  rw [turn]
  split_ifs with h
  · exact Nat.two_pow_pos w
  · exact Nat.pos_of_ne_zero h

lemma turn_le (w ticks : ℕ) : turn w ticks ≤ 2 ^ w := by
  rw [turn]
  split_ifs
  · exact le_rfl
  · exact (Nat.mod_lt _ (Nat.two_pow_pos w)).le

lemma ofNat_turn (w ticks : ℕ) : BitVec.ofNat w (turn w ticks) = .ofNat w ticks := by
  refine BitVec.eq_of_toNat_eq ?_
  rw [BitVec.toNat_ofNat, BitVec.toNat_ofNat, turn]
  split_ifs with h
  · rw [Nat.mod_self, h]
  · exact Nat.mod_mod _ _

namespace Device

variable {d d' : Device} {i index onIrq : BitVec 8} {periodNs : BitVec 64}

lemma periodTicks_eq_some {ticks : ℕ} : d.periodTicks periodNs = some ticks ↔
    periodNs.toNat * 1000000 < 2 ^ 64 ∧ 0 < (periodFs d.capabilities).toNat ∧
      ticks = periodNs.toNat * 1000000 / (periodFs d.capabilities).toNat := by
  simp only [periodTicks, Option.bind_eq_bind, Option.bind_eq_some_iff, checkedMul_eq_some]
  constructor
  · rintro ⟨fs, ⟨hfit, rfl⟩, h⟩
    split_ifs at h with hzero
    exact ⟨hfit, Nat.pos_of_ne_zero hzero, (Option.some.inj h).symm⟩
  · rintro ⟨hfit, hpos, rfl⟩
    exact ⟨_, ⟨hfit, rfl⟩, if_neg hpos.ne'⟩

/-- The configuration that `enable_timer` writes. -/
def enabledConfig (c : TimerConfig) (onIrq : BitVec 8) : TimerConfig :=
  TimerConfig.setCnf (TimerConfig.setPeriodic (TimerConfig.setIrqEnabled
    (TimerConfig.setActiveIrq c onIrq) true) true) true

/-- What `enable_timer` does when it returns. -/
lemma enableTimer_eq_some (h : d.enableTimer index onIrq periodNs = some d') :
    ∃ ticks, d.periodTicks periodNs = some ticks ∧ onIrq.toNat < 32 ∧
      d' = { d.disable with
        timers := Function.update d.timers index
          ((((d.timers index).writeConfig
            (enabledConfig (d.timers index).config onIrq)).writeComparator
              (d.counterAt 0 + .ofNat 64 ticks)).writeComparator (.ofNat 64 ticks)) } := by
  simp only [enableTimer, Option.bind_eq_bind, Option.bind_eq_some_iff, checkedShl,
    Option.ite_none_right_eq_some] at h
  obtain ⟨ticks, hticks, irqBit, ⟨hirq, -⟩, h⟩ := h
  split_ifs at h
  exact ⟨ticks, hticks, hirq, (Option.some.inj h).symm⟩

lemma getLsbD_enabledConfig (c : TimerConfig) (onIrq : BitVec 8) (j : ℕ) :
    (enabledConfig c onIrq).getLsbD j =
      if j = 2 ∨ j = 3 ∨ j = 6 then true
      else if 9 ≤ j ∧ j ≤ 13 then onIrq.getLsbD (j - 9) else c.getLsbD j := by
  simp only [enabledConfig, TimerConfig.setCnf, TimerConfig.setPeriodic, TimerConfig.setIrqEnabled,
    TimerConfig.setActiveIrq, BitField.getLsbD_setBit (show 6 < 64 by norm_num),
    BitField.getLsbD_setBit (show 3 < 64 by norm_num),
    BitField.getLsbD_setBit (show 2 < 64 by norm_num),
    BitField.getLsbD_setBitRange (show 13 < 64 by norm_num), BitVec.getLsbD_setWidth]
  by_cases h6 : j = 6
  · simp [h6]
  by_cases h3 : j = 3
  · simp [h3]
  by_cases h2 : j = 2
  · simp [h2]
  simp only [h6, h3, h2, if_false, or_self]
  split_ifs with hirq
  · simp [show j - 9 < 64 by omega]
  · rfl

/-- The bits that `enable_timer` changes can be written. -/
lemma getLsbD_writable {c : TimerConfig} (hc : c.getLsbD 4 = true) {j : ℕ}
    (hj : j = 2 ∨ j = 3 ∨ j = 6 ∨ 9 ≤ j ∧ j ≤ 13) :
    (TimerConfig.writable c).getLsbD j = true := by
  have hfixed : j ≠ 3 → (0x3e46#64).getLsbD j = true := by
    intro h3
    have hlt : j < 14 := by omega
    interval_cases j <;> first | rfl | omega
  by_cases h3 : j = 3
  · simp [TimerConfig.writable, hc, h3]
  · simp [TimerConfig.writable, hfixed h3]

lemma getLsbD_writable_irqEnabled (c : TimerConfig) :
    (TimerConfig.writable c).getLsbD 2 = true := by
  simp [TimerConfig.writable]

/-- Once periodic and `cnf` are set, the first write is to the comparator and the second to the
period. -/
lemma writeComparator_writeComparator {t : Timer} (h3 : t.config.getLsbD 3 = true)
    (h6 : t.config.getLsbD 6 = true) (first second : BitVec 64) :
    (t.writeComparator first).writeComparator second =
      ⟨BitField.setBit t.config 6 false, first, second⟩ := by
  have hfirst : t.writeComparator first =
      { t with config := BitField.setBit t.config 6 false, comparator := first } := by
    rw [Timer.writeComparator, h3, h6]
    rfl
  have h3' : (BitField.setBit t.config 6 false).getLsbD 3 = true := by
    rw [BitField.getLsbD_setBit (by norm_num), if_neg (by norm_num), h3]
  have h6' : (BitField.setBit t.config 6 false).getLsbD 6 = false := by
    rw [BitField.getLsbD_setBit (by norm_num), if_pos rfl]
  rw [hfirst, Timer.writeComparator, h3', h6']
  rfl

/-- What `enable_timer` leaves in the configuration. -/
lemma getLsbD_enabled {t : Timer} (hc : t.config.getLsbD 4 = true) (onIrq : BitVec 8) (j : ℕ) :
    (t.writeConfig (enabledConfig t.config onIrq)).config.getLsbD j =
      if j = 2 ∨ j = 3 ∨ j = 6 then true
      else if 9 ≤ j ∧ j ≤ 13 then onIrq.getLsbD (j - 9) else t.config.getLsbD j := by
  rw [getLsbD_writeConfig, getLsbD_enabledConfig]
  by_cases hj : j = 2 ∨ j = 3 ∨ j = 6 ∨ 9 ≤ j ∧ j ≤ 13
  · rw [if_pos (getLsbD_writable hc hj)]
  · have hflag : ¬ (j = 2 ∨ j = 3 ∨ j = 6) := by omega
    have hirq : ¬ (9 ≤ j ∧ j ≤ 13) := by omega
    rw [if_neg hflag, if_neg hirq, ite_self]

lemma counterWidth_le (d : Device) : d.counterWidth ≤ 64 := by
  rw [counterWidth]
  split_ifs <;> norm_num

/-- The bits of the counter that a timer sees. -/
lemma setWidth_counterAt {w : ℕ} (hw : w ≤ d.counterWidth) (k : BitVec 64) :
    (d.counterAt k).setWidth w = d.counter.setWidth w + k.setWidth w := by
  have hle : w ≤ 64 := hw.trans d.counterWidth_le
  rw [counterAt, BitVec.setWidth_setWidth_of_le _ hle, BitVec.setWidth_setWidth_of_le _ hw,
    BitVec.setWidth_add _ _ hle]

/-- The timer can be periodic, is edge-triggered, goes to a pin of its own, and is not wider than
the counter. -/
structure Plain (d : Device) (i : BitVec 8) : Prop where
  /-- `supports_periodic`. -/
  periodic : (d.timers i).config.getLsbD 4 = true
  /-- Not `is_level`. -/
  edge : (d.timers i).config.getLsbD 1 = false
  /-- Not `fsb`. -/
  fsb : (d.timers i).config.getLsbD 14 = false
  /-- Not `is_legrep_enabled`. -/
  legacy : d.config.getLsbD 1 = false
  width_le : (d.timers i).width ≤ d.counterWidth

lemma enableTimer_periodic (hplain : d.Plain index)
    (h : d.enableTimer index onIrq periodNs = some d') :
    ∃ ticks, d.periodTicks periodNs = some ticks ∧
      Periodic onIrq (d.counter.setWidth (d.timers index).width)
        (turn (d.timers index).width ticks) 0 d'.counter (d'.timers index) := by
  obtain ⟨ticks, hticks, hirq, rfl⟩ := enableTimer_eq_some h
  refine ⟨ticks, hticks, ?_⟩
  set w := (d.timers index).width with hw
  set t := (d.timers index).writeConfig (enabledConfig (d.timers index).config onIrq) with ht
  have hle : w ≤ 64 := (d.timers index).width_le
  have hcounter : w ≤ d.counterWidth := hplain.width_le
  have hbit := getLsbD_enabled hplain.periodic onIrq
  rw [← ht] at hbit
  have hconfig : ∀ j ≠ 6, (BitField.setBit t.config 6 false).getLsbD j = t.config.getLsbD j := by
    intro j hj
    rw [BitField.getLsbD_setBit (by norm_num), if_neg hj]
  have htimer : Function.update d.timers index ((t.writeComparator
      (d.counterAt 0 + .ofNat 64 ticks)).writeComparator (.ofNat 64 ticks)) index =
        ⟨BitField.setBit t.config 6 false, d.counterAt 0 + .ofNat 64 ticks, .ofNat 64 ticks⟩ := by
    rw [Function.update_self, writeComparator_writeComparator (hbit 3) (hbit 6)]
  have hwidth : Timer.width ⟨BitField.setBit t.config 6 false, d.counterAt 0 + .ofNat 64 ticks,
      .ofNat 64 ticks⟩ = w := by
    rw [hw, Timer.width, Timer.width, hconfig 5 (by norm_num), hconfig 8 (by norm_num), hbit, hbit]
    rfl
  constructor
  all_goals simp only [htimer, disable]
  · exact hwidth
  · exact (BitVec.add_zero _).symm
  · rw [BitVec.setWidth_add _ _ hle, setWidth_counterAt hcounter,
      BitVec.setWidth_ofNat_of_le hle, target, Nat.zero_div, zero_add, one_mul, ofNat_turn]
    simp
  · rw [BitVec.setWidth_ofNat_of_le hle, ofNat_turn]
  · rw [hconfig 2 (by norm_num), hbit]
    rfl
  · rw [hconfig 3 (by norm_num), hbit]
    rfl
  · rw [hconfig 1 (by norm_num), hbit]
    exact hplain.edge
  · rw [hconfig 14 (by norm_num), hbit]
    exact hplain.fsb
  · refine TimerConfig.activeIrq_eq hirq fun j hj => ?_
    rw [hconfig _ (by omega), hbit, if_neg (by omega), if_pos (by omega), Nat.add_sub_cancel_left]

/-- `disable_timer` clears the bit that can always be cleared. -/
lemma disableTimer_irqEnabled (d : Device) (index : BitVec 8) :
    ((d.disableTimer index).timers index).config.getLsbD 2 = false := by
  simp only [disableTimer, Function.update_self]
  rw [getLsbD_writeConfig, if_pos (getLsbD_writable_irqEnabled _), TimerConfig.setIrqEnabled,
    BitField.getLsbD_setBit (by norm_num), if_pos rfl]

end Device

/-! ### Runs -/

section Runs

variable {i irq : BitVec 8} {w : ℕ} {base : BitVec w} {q k : ℕ} {d d' : Device} {e : Event}

/-- A step that is about other timers leaves the timer alone, unless it is a tick. -/
lemma step_timers (h : step d e = some d') (hother : e.timer ≠ some i) :
    e = .tick ∧ d.isEnabled = true ∧ d'.counter = d.counterAt 1 ∧
      d'.timers i = (d.timers i).advance (d.counterAt 1) ∨
    ¬ (e = .tick ∧ d.isEnabled = true) ∧ d'.counter = d.counter ∧ d'.timers i = d.timers i := by
  cases e with
  | tick =>
      rw [step, Option.some.injEq, Device.tick] at h
      split_ifs at h with hen <;> subst h
      · exact .inl ⟨rfl, hen, rfl, rfl⟩
      · exact .inr ⟨fun hboth => hen hboth.2, rfl, rfl⟩
  | enable =>
      cases h
      exact .inr ⟨nofun, rfl, rfl⟩
  | disable =>
      cases h
      exact .inr ⟨nofun, rfl, rfl⟩
  | enableTimer index onIrq periodNs =>
      have hne : i ≠ index := fun heq => hother (congrArg some heq.symm)
      obtain ⟨ticks, -, -, rfl⟩ := Device.enableTimer_eq_some h
      exact .inr ⟨nofun, rfl, Function.update_of_ne hne _ _⟩
  | disableTimer index =>
      have hne : i ≠ index := fun heq => hother (congrArg some heq.symm)
      cases h
      exact .inr ⟨nofun, rfl, Function.update_of_ne hne _ _⟩

/-- No step changes the width of the counter or the legacy routing. -/
lemma step_device (h : step d e = some d') :
    d'.counterWidth = d.counterWidth ∧ d'.config.getLsbD 1 = d.config.getLsbD 1 := by
  have hbit : ∀ b, (BitField.setBit d.config 0 b).getLsbD 1 = d.config.getLsbD 1 := by
    intro b
    rw [BitField.getLsbD_setBit (by norm_num), if_neg (by norm_num)]
  cases e with
  | tick =>
      rw [step, Option.some.injEq, Device.tick] at h
      split_ifs at h <;> subst h <;> exact ⟨rfl, rfl⟩
  | enable =>
      cases h
      exact ⟨rfl, hbit true⟩
  | disable =>
      cases h
      exact ⟨rfl, hbit false⟩
  | enableTimer index onIrq periodNs =>
      obtain ⟨ticks, -, -, rfl⟩ := Device.enableTimer_eq_some h
      exact ⟨rfl, hbit false⟩
  | disableTimer index =>
      cases h
      exact ⟨rfl, rfl⟩

lemma run_cons_eq_some {es : List Event} {ticks : ℕ} {lines : List Line}
    (h : run i d (e :: es) = some (d', ticks, lines)) :
    ∃ d₁ ticks₁ lines₁, step d e = some d₁ ∧ run i d₁ es = some (d', ticks₁, lines₁) ∧
      ticks = ticks₁ + (if e = .tick ∧ d.isEnabled then 1 else 0) ∧
      lines = (if e = .tick ∧ d.raises i then [d.line i] else []) ++ lines₁ := by
  simp only [run, Option.bind_eq_bind, Option.bind_eq_some_iff, Option.some.injEq,
    Prod.mk.injEq] at h
  obtain ⟨d₁, hstep, ⟨d₂, ticks₁, lines₁⟩, hrun, rfl, hticks, hlines⟩ := h
  exact ⟨d₁, ticks₁, lines₁, hstep, hrun, hticks.symm, hlines.symm⟩

/-- A timer raises its interrupt only with a tick of the counter. -/
lemma raises_isEnabled (h : d.raises i = true) : d.isEnabled = true := by
  simp only [Device.raises, Bool.and_eq_true] at h
  exact h.1.1.1

/-- A tick of the counter at a multiple of the period raises the interrupt, and no other does. -/
lemma Periodic.raises_eq (h : Periodic irq base q k d.counter (d.timers i))
    (hen : d.isEnabled = true) (hq : 0 < q) (hle : q ≤ 2 ^ w)
    (hnext : (d.counterAt 1).setWidth w = base + .ofNat w (k + 1)) :
    d.raises i = decide (q ∣ k + 1) := by
  rw [Device.raises, hen, h.irqEnabled, h.edge, Bool.true_and, Bool.and_true, Bool.false_and,
    Bool.not_false, Bool.and_true, Bool.eq_iff_iff, decide_eq_true_iff]
  exact h.meets_iff hq hle hnext

lemma Periodic.line_eq (h : Periodic irq base q k d.counter (d.timers i))
    (hlegacy : d.config.getLsbD 1 = false) : d.line i = .pin irq := by
  simp only [Device.line, h.fsb, hlegacy, h.activeIrq_eq, Bool.false_and, Bool.false_eq_true,
    if_false]

/-- **A periodic timer stays one, and requests an interrupt at each multiple of its period.** -/
lemma Periodic.run (hq : 0 < q) (hle : q ≤ 2 ^ w) {es : List Event} {ticks : ℕ}
    {lines : List Line} (h : Periodic irq base q k d.counter (d.timers i))
    (hw : w ≤ d.counterWidth) (hlegacy : d.config.getLsbD 1 = false)
    (hother : ∀ e ∈ es, e.timer ≠ some i) (hrun : run i d es = some (d', ticks, lines)) :
    ∃ n, lines = List.replicate n (.pin irq) ∧ k / q + n = (k + ticks) / q := by
  induction es generalizing d d' k ticks lines with
  | nil =>
      obtain ⟨rfl, rfl, rfl⟩ : d = d' ∧ 0 = ticks ∧ [] = lines := by
        simpa [HpetTimers.run] using hrun
      exact ⟨0, rfl, rfl⟩
  | cons e es ih =>
      obtain ⟨d₁, ticks₁, lines₁, hstep, hrest, rfl, rfl⟩ := run_cons_eq_some hrun
      obtain ⟨hwidth, hlegacy₁⟩ := step_device hstep
      rw [← hwidth] at hw
      rw [← hlegacy₁] at hlegacy
      have hother₁ := fun e' he' => hother e' (List.mem_cons_of_mem e he')
      obtain ⟨rfl, hen, hcounter, htimer⟩ | ⟨hidle, hcounter, htimer⟩ :=
        step_timers hstep (hother e List.mem_cons_self)
      · have hnext : (d.counterAt 1).setWidth w = base + .ofNat w (k + 1) := by
          rw [Device.setWidth_counterAt (hwidth ▸ hw), h.counter_eq, BitVec.ofNat_add,
            BitVec.add_assoc]
          exact congrArg (fun v => base + (BitVec.ofNat w k + v))
            (BitVec.setWidth_ofNat_of_le (hw.trans d₁.counterWidth_le) 1)
        have h₁ := h.advance hq hle hnext
        rw [← htimer, ← hcounter] at h₁
        obtain ⟨n, rfl, hn⟩ := ih h₁ hw hlegacy hother₁ hrest
        rw [h.line_eq (hlegacy₁ ▸ hlegacy), h.raises_eq hen hq hle hnext]
        rw [Nat.succ_div] at hn
        refine ⟨(if q ∣ k + 1 then 1 else 0) + n, ?_, ?_⟩
        · by_cases hdvd : q ∣ k + 1
          · simp [hdvd, List.replicate_add]
          · simp [hdvd]
        · have hone : (if Event.tick = .tick ∧ d.isEnabled = true then 1 else 0) = 1 :=
            if_pos ⟨rfl, hen⟩
          rw [hone, show k + (ticks₁ + 1) = k + 1 + ticks₁ by omega, ← hn]
          omega
      · have hquiet : ¬ (e = .tick ∧ d.raises i = true) :=
          fun hboth => hidle ⟨hboth.1, raises_isEnabled hboth.2⟩
        rw [← hcounter, ← htimer] at h
        obtain ⟨n, rfl, hn⟩ := ih h hw hlegacy hother₁ hrest
        rw [if_neg hidle, if_neg hquiet]
        exact ⟨n, rfl, hn⟩

/-- A timer whose interrupt is disabled stays so. -/
lemma run_disabled {es : List Event} {ticks : ℕ} {lines : List Line}
    (h : (d.timers i).config.getLsbD 2 = false) (hother : ∀ e ∈ es, e.timer ≠ some i)
    (hrun : run i d es = some (d', ticks, lines)) : lines = [] := by
  induction es generalizing d d' ticks lines with
  | nil =>
      obtain ⟨-, -, rfl⟩ : d = d' ∧ 0 = ticks ∧ [] = lines := by
        simpa [HpetTimers.run] using hrun
      rfl
  | cons e es ih =>
      obtain ⟨d₁, ticks₁, lines₁, hstep, hrest, rfl, rfl⟩ := run_cons_eq_some hrun
      have h₁ : (d₁.timers i).config.getLsbD 2 = false := by
        obtain ⟨-, -, -, htimer⟩ | ⟨-, -, htimer⟩ := step_timers hstep (hother e List.mem_cons_self)
        · rw [htimer, Timer.advance]
          split_ifs <;> exact h
        · rw [htimer, h]
      have hlines₁ := ih h₁ (fun e' he' => hother e' (List.mem_cons_of_mem e he')) hrest
      have hquiet : d.raises i = false := by
        rw [Device.raises, h, Bool.and_false, Bool.false_and]
      simp [hlines₁, hquiet]

/-- **A timer that can be periodic interrupts once in each period, counted in ticks of the main
counter, on the pin it was given, whatever is done to the other timers and to the HPET as a
whole.**  The period is cut to the width of the timer, and one below one tick is a whole turn.
After `disable_timer` there are no more interrupts. -/
theorem timer_interrupts {periodNs : BitVec 64} {d₀ : Device} {es : List Event} {ticks : ℕ}
    {lines : List Line} (hplain : d.Plain i)
    (henable : d.enableTimer i irq periodNs = some d₀)
    (hother : ∀ e ∈ es, e.timer ≠ some i) (hrun : run i d₀ es = some (d', ticks, lines)) :
    lines = List.replicate (ticks / turn (d.timers i).width
      (periodNs.toNat * 1000000 / (periodFs d.capabilities).toNat)) (.pin irq) ∧
    ∀ es' d'' ticks' lines', (∀ e ∈ es', e.timer ≠ some i) →
      run i (d'.disableTimer i) es' = some (d'', ticks', lines') → lines' = [] := by
  obtain ⟨p, hp, hperiodic⟩ := Device.enableTimer_periodic hplain henable
  obtain ⟨-, -, rfl⟩ := Device.periodTicks_eq_some.mp hp
  have hstep : step d (.enableTimer i irq periodNs) = some d₀ := henable
  obtain ⟨hwidth, hlegacy⟩ := step_device hstep
  constructor
  · obtain ⟨n, rfl, hn⟩ := hperiodic.run (turn_pos _ _) (turn_le _ _)
      (hwidth ▸ hplain.width_le) (hlegacy.trans hplain.legacy) hother hrun
    rw [Nat.zero_div, zero_add, zero_add] at hn
    rw [hn]
  · intro es' d'' ticks' lines' hother' hrun'
    exact run_disabled (d'.disableTimer_irqEnabled i) hother' hrun'

end Runs

/-- An HPET at 100 MHz with a counter of 64 bits, whose timers have 32, can be periodic and can use
pin 2. -/
def sample : Device where
  capabilities := 10000000#32 ++ 0x2000#32
  config := 0
  counter := 0xffffffffffffffff
  timers := fun _ => ⟨4#32 ++ 0x10#32, 0, 0⟩
  status := fun _ => false

/-- Ticks while timer 1 is set up too, which stops the counter. -/
def sampleEvents : List Event :=
  [.enable, .tick, .tick, .tick, .enableTimer 1 2 1000, .tick, .enable, .tick, .disableTimer 1,
    .tick]

/-- Two interrupts in fifty nanoseconds, for a period of twenty. -/
theorem timer_interrupts_twenty : ∃ d₀ d' lines, sample.enableTimer 0 2 20 = some d₀ ∧
    run 0 d₀ sampleEvents = some (d', 5, lines) ∧ lines = [.pin 2, .pin 2] ∧
    ∀ es' d'' ticks' lines', (∀ e ∈ es', e.timer ≠ some 0) →
      run 0 (d'.disableTimer 0) es' = some (d'', ticks', lines') → lines' = [] := by
  have heval : ((sample.enableTimer 0 2 20).bind fun d₀ => run 0 d₀ sampleEvents).any
      (fun r => r.2.1 = 5) = true := by decide +kernel
  simp only [Option.any_eq_true, decide_eq_true_eq, Option.bind_eq_some_iff] at heval
  obtain ⟨⟨d', ticks, lines⟩, ⟨d₀, henable, hrun⟩, rfl⟩ := heval
  have hplain : sample.Plain 0 :=
    ⟨by decide, by decide, by decide, by decide, by decide⟩
  obtain ⟨hlines, hrest⟩ := timer_interrupts hplain henable (by decide) hrun
  refine ⟨d₀, d', lines, henable, hrun, ?_, hrest⟩
  rw [hlines]
  decide

end HpetTimers

end Titanium
