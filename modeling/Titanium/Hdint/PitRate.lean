import Titanium.Hdint.Pit

/-!
How fast `TIMER_COUNTER` runs (`hdint/pit.rs`).

The interval timer divides its clock of 1193182 Hz by the count that `PIT::init` writes,
and `pit_interrupt` adds `PIT_INTERVAL`, which was calculated from these numbers by hand.

* `command`: what `send_command` writes; `Counter`: a counter of the timer.
* `run_programmed`: `PIT::init` programs counter 0, whatever it was programmed to.
* `requests_run`: from then on an interrupt is requested with every 600th clock.
* `timer_counter_rate`: **no interrupt is lost or made up but those that come while
  another one is pending, each adds its period to the counter, and a sleep ends at most
  two periods early, whatever the delays**.
-/

namespace Titanium

namespace PitRate

open Hdint (ctrVal fpWidth toNat_ctrVal)
open Idt (pitInterval)

/-! ### Commands -/

/-- `Channel`. -/
inductive Channel where
  | chan0
  | chan1
  | chan2
  | readBack
  deriving DecidableEq, Repr

/-- `AccessMode`. -/
inductive AccessMode where
  | latchCount
  | loByte
  | hiByte
  | loHiByte
  deriving DecidableEq, Repr

/-- `OperatingMode`. -/
inductive OperatingMode where
  | itc
  | oneshot
  | rateGen
  | squareGen
  | softwareStrobe
  | hardwareStrobe
  deriving DecidableEq, Repr

def Channel.toByte : Channel → BitVec 8
  | .chan0 => 0
  | .chan1 => 1
  | .chan2 => 2
  | .readBack => 3

def AccessMode.toByte : AccessMode → BitVec 8
  | .latchCount => 0
  | .loByte => 1
  | .hiByte => 2
  | .loHiByte => 3

def OperatingMode.toByte : OperatingMode → BitVec 8
  | .itc => 0
  | .oneshot => 1
  | .rateGen => 2
  | .squareGen => 3
  | .softwareStrobe => 4
  | .hardwareStrobe => 5

/-- What `send_command` writes. -/
def command (channel : Channel) (access : AccessMode) (op : OperatingMode) (useBcd : Bool) :
    BitVec 8 :=
  channel.toByte <<< 6 ||| access.toByte <<< 4 ||| op.toByte <<< 1 ||| if useBcd then 1 else 0

/-! ### The timer -/

/-- A counter. -/
structure Counter where
  access : BitVec 2
  mode : BitVec 3
  bcd : Bool
  /-- The low byte of a count whose high byte is still to come. -/
  low : Option (BitVec 8)
  /-- The count, from its last byte on. -/
  count : Option (BitVec 16)
  /-- The clocks since then. -/
  clocks : ℕ
  deriving DecidableEq, Repr

namespace Counter

/-- What the count stands for: zero is a full turn. -/
def period (bcd : Bool) (count : BitVec 16) : ℕ :=
  if bcd then
    let n := (count.extractLsb' 12 4).toNat * 1000 + (count.extractLsb' 8 4).toNat * 100 +
      (count.extractLsb' 4 4).toNat * 10 + (count.extractLsb' 0 4).toNat
    if n = 0 then 10000 else n
  else if count = 0 then 65536 else count.toNat

/-- A byte is written to the port of the counter. -/
def write (c : Counter) (b : BitVec 8) : Counter :=
  match c.access.toNat with
  | 1 => { c with count := some (0#8 ++ b), clocks := 0 }
  | 2 => { c with count := some (b ++ 0#8), clocks := 0 }
  | 3 =>
      match c.low with
      | none => { c with low := some b }
      | some low => { c with low := none, count := some (b ++ low), clocks := 0 }
  | _ => c

/-- A clock. -/
def clock (c : Counter) : Counter :=
  match c.count with
  | none => c
  | some _ => { c with clocks := c.clocks + 1 }

/-- The output rises with the next clock: again and again in the modes 2 and 3, and once in mode
0. -/
def rises (c : Counter) : Bool :=
  match c.count with
  | none => false
  | some count =>
      if c.mode.getLsbD 1 then decide (period c.bcd count ∣ c.clocks + 1)
      else decide (c.mode = 0 ∧ c.clocks + 1 = period c.bcd count)

end Counter

/-- A command is written to the timer: a latch and a read-back leave the counters alone. -/
def writeCommand (counters : Fin 3 → Counter) (b : BitVec 8) : Fin 3 → Counter :=
  if h : (b.extractLsb' 6 2).toNat < 3 then
    if b.extractLsb' 4 2 = 0 then counters
    else Function.update counters ⟨(b.extractLsb' 6 2).toNat, h⟩
      ⟨b.extractLsb' 4 2, b.extractLsb' 1 3, b.getLsbD 0, none, none, 0⟩
  else counters

/-- The timer, its interrupt, and the processor. -/
structure Machine where
  counters : Fin 3 → Counter
  /-- The interrupt has been requested. -/
  pending : Bool
  /-- The requests that found one pending. -/
  lost : ℕ
  cpu : Idt.Cpu

/-- What can happen. -/
inductive Event where
  | clock
  /-- The interrupt is taken. -/
  | irq
  /-- `send_command`. -/
  | command (channel : Channel) (access : AccessMode) (op : OperatingMode) (useBcd : Bool)
  /-- A write to the port of a counter. -/
  | data (counter : Fin 3) (b : BitVec 8)
  /-- `sleep_us` clears `TIMER_COUNTER`. -/
  | clear
  deriving DecidableEq, Repr

/-- A clock. -/
def Machine.clock (m : Machine) : Machine :=
  { m with
    counters := fun i => (m.counters i).clock
    pending := m.pending || (m.counters 0).rises
    lost := m.lost + if m.pending && (m.counters 0).rises then 1 else 0 }

section Run

variable (rust : Idt.Rust)

/-- One event, `none` when it cannot happen. -/
def step (m : Machine) : Event → Option Machine
  | .clock => some m.clock
  | .irq =>
      if m.pending then
        (Idt.run rust Idt.Handler.pitInterrupt.code m.cpu).map fun cpu =>
          { m with pending := false, cpu }
      else none
  | .command channel access op useBcd =>
      some { m with counters := writeCommand m.counters (command channel access op useBcd) }
  | .data i b => some { m with counters := Function.update m.counters i ((m.counters i).write b) }
  | .clear => some { m with cpu := { m.cpu with timerCounter := 0 } }

def run (m : Machine) (es : List Event) : Option Machine := es.foldlM (step rust) m

end Run

/-- The event does not program counter 0: latches do not. -/
def Event.Apart : Event → Prop
  | .command channel access _ _ => channel ≠ .chan0 ∨ access = .latchCount
  | .data i _ => i ≠ 0
  | _ => True

/-- `PIT_TIMER_RLD`. -/
def pitTimerRld : BitVec 16 := 600

/-- `PIT_NATIVE_FREQ`. -/
def pitNativeFreq : ℕ := 1193182

/-- `PIT::init`, with what happens between its three writes. -/
def programmed (a b : List Event) : List Event :=
  .command .chan0 .loHiByte .squareGen false :: a ++
    .data 0 ((pitTimerRld &&& 0xff).setWidth 8) :: b ++
    [.data 0 (((pitTimerRld >>> 8) &&& 0xff).setWidth 8)]

/-- `PIT::latch`. -/
def latch (channel : Channel) : Event := .command channel .latchCount .itc false

/-! ### `PIT::init` -/

/-- The timer reads what `send_command` was given. -/
lemma decode_command (channel : Channel) (access : AccessMode) (op : OperatingMode)
    (useBcd : Bool) :
    (command channel access op useBcd).extractLsb' 6 2 = channel.toByte.setWidth 2 ∧
    (command channel access op useBcd).extractLsb' 4 2 = access.toByte.setWidth 2 ∧
    (command channel access op useBcd).extractLsb' 1 3 = op.toByte.setWidth 3 ∧
    (command channel access op useBcd).getLsbD 0 = useBcd := by
  cases channel <;> cases access <;> cases op <;> cases useBcd <;> exact ⟨rfl, rfl, rfl, rfl⟩

lemma writeCommand_apart {channel : Channel} {access : AccessMode} (op : OperatingMode)
    (useBcd : Bool) (h : channel ≠ .chan0 ∨ access = .latchCount) (counters : Fin 3 → Counter) :
    writeCommand counters (command channel access op useBcd) 0 = counters 0 := by
  obtain ⟨hchannel, haccess, -, -⟩ := decode_command channel access op useBcd
  simp only [writeCommand, hchannel, haccess]
  split_ifs with hlt hlatch
  · rfl
  · refine Function.update_of_ne (fun heq => ?_) _ _
    rcases h with hne | rfl
    · cases channel with
      | chan0 => exact hne rfl
      | chan1 => cases heq
      | chan2 => cases heq
      | readBack => cases heq
    · exact hlatch rfl
  · rfl

section Runs

variable {rust : Idt.Rust} {m m₁ m' : Machine} {e : Event} {es : List Event}

/-- What an event that does not program counter 0 does to it. -/
lemma counter_step (h : step rust m e = some m') (he : e.Apart) :
    m'.counters 0 = if e = .clock then (m.counters 0).clock else m.counters 0 := by
  cases e with
  | clock =>
      cases h
      rfl
  | irq =>
      obtain ⟨-, h⟩ := Option.ite_none_right_eq_some.mp h
      obtain ⟨cpu, -, rfl⟩ := Option.map_eq_some_iff.mp h
      rfl
  | command channel access op useBcd =>
      cases h
      exact writeCommand_apart op useBcd he m.counters
  | data i b =>
      cases h
      exact Function.update_of_ne (Ne.symm he) _ _
  | clear =>
      cases h
      rfl

lemma run_cons_eq_some (h : run rust m (e :: es) = some m') :
    ∃ m₁, step rust m e = some m₁ ∧ run rust m₁ es = some m' :=
  Option.bind_eq_some_iff.mp h

lemma run_append_eq_some {es' : List Event} (h : run rust m (es ++ es') = some m') :
    ∃ m₁, run rust m es = some m₁ ∧ run rust m₁ es' = some m' := by
  rw [run, List.foldlM_append] at h
  exact Option.bind_eq_some_iff.mp h

/-- A counter without a count does not count. -/
lemma counter_run_of_none (hcount : (m.counters 0).count = none) (hes : ∀ e ∈ es, e.Apart)
    (h : run rust m es = some m') : m'.counters 0 = m.counters 0 := by
  induction es generalizing m with
  | nil =>
      cases h
      rfl
  | cons e es ih =>
      obtain ⟨he, hes⟩ := List.forall_mem_cons.mp hes
      obtain ⟨m₁, hstep, hrun⟩ := run_cons_eq_some h
      have hkeep : m₁.counters 0 = m.counters 0 := by
        rw [counter_step hstep he, Counter.clock, hcount]
        exact ite_self _
      rw [ih (by rw [hkeep, hcount]) hes hrun, hkeep]

/-- Counter 0 after `PIT::init` and `k` clocks. -/
def squareWave (k : ℕ) : Counter := ⟨3, 3, false, none, some pitTimerRld, k⟩

/-- **`PIT::init` programs the counter**, whatever state it was in and whatever comes between. -/
lemma run_programmed {a b : List Event} (ha : ∀ e ∈ a, e.Apart) (hb : ∀ e ∈ b, e.Apart)
    (h : run rust m (programmed a b) = some m') : m'.counters 0 = squareWave 0 := by
  obtain ⟨m₄, h, hhigh⟩ := run_append_eq_some h
  obtain ⟨m₂, h, hrest⟩ := run_append_eq_some h
  obtain ⟨m₁, hcommand, hbetween⟩ := run_cons_eq_some h
  obtain ⟨m₃, hlow, hbetween'⟩ := run_cons_eq_some hrest
  have h₁ : m₁.counters 0 = ⟨3, 3, false, none, none, 0⟩ := by
    cases hcommand
    rfl
  have h₂ : m₂.counters 0 = ⟨3, 3, false, none, none, 0⟩ := by
    rw [counter_run_of_none (by rw [h₁]) ha hbetween, h₁]
  have h₃ : m₃.counters 0 = ⟨3, 3, false, some 0x58, none, 0⟩ := by
    cases hlow
    simp only [Function.update_self, h₂]
    rfl
  have h₄ : m₄.counters 0 = ⟨3, 3, false, some 0x58, none, 0⟩ := by
    rw [counter_run_of_none (by rw [h₃]) hb hbetween', h₃]
  obtain ⟨m₅, hstep, hnil⟩ := run_cons_eq_some hhigh
  cases hnil
  cases hstep
  simp only [Function.update_self, h₄]
  rfl

/-! ### Requests -/

/-- The requests that were not taken. -/
def Machine.untaken (m : Machine) : ℕ := m.pending.toNat + m.lost

lemma rises_squareWave (k : ℕ) : (squareWave k).rises = decide (600 ∣ k + 1) := by
  have hperiod : Counter.period false pitTimerRld = 600 := rfl
  have hmode : BitVec.getLsbD (3 : BitVec 3) 1 = true := rfl
  simp only [squareWave, Counter.rises, hmode, hperiod, if_true]

/-- A clock requests an interrupt at the multiples of the count. -/
lemma untaken_clock {k : ℕ} (h : m.counters 0 = squareWave k) :
    m.clock.untaken + k / 600 = m.untaken + (k + 1) / 600 := by
  rw [Machine.untaken, Machine.untaken, Machine.clock, h, rises_squareWave, Nat.succ_div]
  by_cases hdvd : 600 ∣ k + 1
  · cases m.pending <;> simp [hdvd] <;> omega
  · cases m.pending <;> simp [hdvd]

lemma count_irq_cons (h : e ≠ .irq) (es : List Event) : (e :: es).count .irq = es.count .irq :=
  List.count_cons_of_ne h

/-- **Requests are taken, pending or lost.** -/
lemma requests_run {k : ℕ} (hcounter : m.counters 0 = squareWave k) (hes : ∀ e ∈ es, e.Apart)
    (h : run rust m es = some m') :
    m'.counters 0 = squareWave (k + es.count .clock) ∧
      es.count .irq + m'.untaken + k / 600 = m.untaken + (k + es.count .clock) / 600 := by
  induction es generalizing m k with
  | nil =>
      cases h
      exact ⟨hcounter, by simp⟩
  | cons e es ih =>
      obtain ⟨he, hrest⟩ := List.forall_mem_cons.mp hes
      obtain ⟨m₁, hstep, hrun⟩ := run_cons_eq_some h
      have hcounter₁ := counter_step hstep he
      rw [hcounter] at hcounter₁
      by_cases hclock : e = .clock
      · subst hclock
        cases hstep
        obtain ⟨hc, hn⟩ := ih (k := k + 1) hcounter₁ hrest hrun
        have hone := untaken_clock hcounter
        have hk : k + (es.count .clock + 1) = k + 1 + es.count .clock := by omega
        rw [List.count_cons_self, count_irq_cons (e := .clock) nofun, hk]
        exact ⟨hc, by omega⟩
      · rw [if_neg hclock] at hcounter₁
        obtain ⟨hc, hn⟩ := ih hcounter₁ hrest hrun
        rw [List.count_cons_of_ne hclock]
        refine ⟨hc, ?_⟩
        cases e with
        | clock => exact absurd rfl hclock
        | irq =>
            obtain ⟨hpending, hstep⟩ := Option.ite_none_right_eq_some.mp hstep
            obtain ⟨cpu, -, rfl⟩ := Option.map_eq_some_iff.mp hstep
            rw [List.count_cons_self]
            simp only [Machine.untaken, hpending, Bool.toNat_true, Bool.toNat_false] at hn ⊢
            omega
        | command channel access op useBcd =>
            cases hstep
            rw [count_irq_cons (e := .command channel access op useBcd) nofun]
            exact hn
        | data i b =>
            cases hstep
            rw [count_irq_cons (e := .data i b) nofun]
            exact hn
        | clear =>
            cases hstep
            rw [count_irq_cons (e := .clear) nofun]
            exact hn

/-- Each interrupt that is taken adds its interval. -/
lemma timerCounter_run (hclear : .clear ∉ es) (h : run rust m es = some m') :
    m'.cpu.timerCounter = m.cpu.timerCounter + .ofNat 64 (es.count .irq * pitInterval) := by
  induction es generalizing m with
  | nil =>
      cases h
      simp
  | cons e es ih =>
      obtain ⟨hne, hclear⟩ := not_or.mp (mt List.mem_cons.mpr hclear)
      obtain ⟨m₁, hstep, hrun⟩ := run_cons_eq_some h
      rw [ih hclear hrun]
      cases e with
      | irq =>
          obtain ⟨-, hstep⟩ := Option.ite_none_right_eq_some.mp hstep
          obtain ⟨cpu, hcpu, rfl⟩ := Option.map_eq_some_iff.mp hstep
          obtain ⟨cpu', hcpu', -, htimer, -⟩ := Idt.run_pitInterrupt rust m.cpu
          obtain rfl := Option.some.inj (hcpu.symm.trans hcpu')
          rw [List.count_cons_self, Nat.succ_mul, Nat.add_comm, BitVec.ofNat_add,
            ← BitVec.add_assoc, ← htimer]
      | clear => exact absurd rfl hne
      | clock =>
          cases hstep
          rw [count_irq_cons (e := .clock) nofun]
          rfl
      | command channel access op useBcd =>
          cases hstep
          rw [count_irq_cons (e := .command channel access op useBcd) nofun]
      | data i b =>
          cases hstep
          rw [count_irq_cons (e := .data i b) nofun]

/-- What is lost stays lost. -/
lemma lost_run (h : run rust m es = some m') : m.lost ≤ m'.lost := by
  induction es generalizing m with
  | nil =>
      cases h
      exact le_rfl
  | cons e es ih =>
      obtain ⟨m₁, hstep, hrun⟩ := run_cons_eq_some h
      refine le_trans ?_ (ih hrun)
      cases e with
      | clock =>
          cases hstep
          exact Nat.le_add_right _ _
      | irq =>
          obtain ⟨-, hstep⟩ := Option.ite_none_right_eq_some.mp hstep
          obtain ⟨cpu, -, rfl⟩ := Option.map_eq_some_iff.mp hstep
          exact le_rfl
      | command channel access op useBcd =>
          cases hstep
          exact le_rfl
      | data i b =>
          cases hstep
          exact le_rfl
      | clear =>
          cases hstep
          exact le_rfl

/-- `PIT_INTERVAL` is the period of the interrupts in microseconds, rounded down to the last of its
24 fractional bits. -/
lemma pitInterval_eq :
    pitInterval = pitTimerRld.toNat * 10 ^ 6 * 2 ^ fpWidth / pitNativeFreq := by
  decide

/-- **`TIMER_COUNTER` follows the clock.**  After `PIT::init` an interrupt is requested with every
600th clock; each is taken, pending or lost because another one is pending.  During a sleep the
counter holds the interrupts that were taken, times `PIT_INTERVAL`.  It is never ahead by two
periods, and not behind by one if no interrupt is pending and none was lost.  So a sleep does not
end more than 1199 clocks early. -/
theorem timer_counter_rate (rust : Idt.Rust) {m m₀ m₁ m' : Machine} {a b es es' : List Event}
    (ha : ∀ e ∈ a, e.Apart) (hb : ∀ e ∈ b, e.Apart) (hes : ∀ e ∈ es, e.Apart)
    (hes' : ∀ e ∈ es', e.Apart) (hclear : .clear ∉ es')
    (hinit : run rust m (programmed a b) = some m₀) (hrun : run rust m₀ es = some m₁)
    (hsleep : run rust m₁ (.clear :: es') = some m') :
    es.count .irq + m₁.untaken = m₀.untaken + es.count .clock / 600 ∧
    m'.cpu.timerCounter = .ofNat 64 (es'.count .irq * pitInterval) ∧
    es'.count .irq * 600 ≤ es'.count .clock + 1199 ∧
    (m'.pending = false → m'.lost = m₁.lost →
      es'.count .clock < (es'.count .irq + 1) * 600) ∧
    ∀ us : BitVec 32, ctrVal us ≤ m'.cpu.timerCounter →
      us.toNat * pitNativeFreq ≤ 10 ^ 6 * (es'.count .clock + 1199) := by
  obtain ⟨hcounter, hcount⟩ := requests_run (run_programmed ha hb hinit) hes hrun
  obtain ⟨m₂, hcleared, hsleep⟩ := run_cons_eq_some hsleep
  have hcounter₂ : m₂.counters 0 = squareWave (0 + es.count .clock) := by
    cases hcleared
    exact hcounter
  have huntaken : m₂.pending = m₁.pending ∧ m₂.lost = m₁.lost := by
    cases hcleared
    exact ⟨rfl, rfl⟩
  have htimer : m'.cpu.timerCounter = .ofNat 64 (es'.count .irq * pitInterval) := by
    rw [timerCounter_run hclear hsleep]
    cases hcleared
    exact BitVec.zero_add _
  obtain ⟨-, hcount'⟩ := requests_run hcounter₂ hes' hsleep
  have hlost := lost_run hsleep
  have hpending := Bool.toNat_le m₂.pending
  rw [Machine.untaken, Machine.untaken] at hcount'
  have hahead : es'.count .irq * 600 ≤ es'.count .clock + 1199 := by omega
  refine ⟨by omega, htimer, hahead, fun hidle hkept => ?_, fun us hus => ?_⟩
  · rw [hidle, Bool.toNat_false, hkept, ← huntaken.2] at hcount'
    omega
  · rw [htimer, BitVec.le_def, toNat_ctrVal, BitVec.toNat_ofNat] at hus
    have hle : us.toNat * 2 ^ fpWidth ≤ es'.count .irq * pitInterval :=
      hus.trans (Nat.mod_le _ _)
    have hrate : pitInterval * pitNativeFreq ≤ 600 * 10 ^ 6 * 2 ^ fpWidth := by
      rw [pitInterval_eq]
      exact Nat.div_mul_le_self _ _
    have hmul : us.toNat * pitNativeFreq * 2 ^ fpWidth ≤
        es'.count .irq * 600 * 10 ^ 6 * 2 ^ fpWidth := calc
      us.toNat * pitNativeFreq * 2 ^ fpWidth = us.toNat * 2 ^ fpWidth * pitNativeFreq := by ring
      _ ≤ es'.count .irq * pitInterval * pitNativeFreq := Nat.mul_le_mul_right _ hle
      _ = es'.count .irq * (pitInterval * pitNativeFreq) := Nat.mul_assoc _ _ _
      _ ≤ es'.count .irq * (600 * 10 ^ 6 * 2 ^ fpWidth) := Nat.mul_le_mul_left _ hrate
      _ = es'.count .irq * 600 * 10 ^ 6 * 2 ^ fpWidth := by ring
    calc us.toNat * pitNativeFreq ≤ es'.count .irq * 600 * 10 ^ 6 :=
          Nat.le_of_mul_le_mul_right hmul (Nat.two_pow_pos fpWidth)
      _ = 10 ^ 6 * (es'.count .irq * 600) := Nat.mul_comm _ _
      _ ≤ 10 ^ 6 * (es'.count .clock + 1199) := Nat.mul_le_mul_left _ hahead

end Runs

/-- The timer as it may be found: its counters in other modes, an interrupt pending. -/
def sampleMachine : Machine := ⟨fun _ => ⟨1, 0, true, none, some 7, 3⟩, true, 0, Idt.zeroCpu⟩

/-- A sleep that starts with an interrupt pending, and 598 clocks after another one. -/
theorem timer_counter_rate_pending : ∃ m₀ m₁ m',
    run Idt.quietRust sampleMachine (programmed [.clock] [latch .chan0]) = some m₀ ∧
    run Idt.quietRust m₀ (List.replicate 598 .clock) = some m₁ ∧
    run Idt.quietRust m₁ [.clear, .irq, .clock, .clock, .irq] = some m' ∧
    m'.cpu.timerCounter = .ofNat 64 (2 * pitInterval) := by
  have heval : ((run Idt.quietRust sampleMachine (programmed [.clock] [latch .chan0])).bind
      fun m₀ => (run Idt.quietRust m₀ (List.replicate 598 .clock)).bind fun m₁ =>
        run Idt.quietRust m₁ [.clear, .irq, .clock, .clock, .irq]).isSome = true := by
    decide +kernel
  obtain ⟨m', heval⟩ := Option.isSome_iff_exists.mp heval
  obtain ⟨m₀, hinit, heval⟩ := Option.bind_eq_some_iff.mp heval
  obtain ⟨m₁, hrun, hsleep⟩ := Option.bind_eq_some_iff.mp heval
  have hclocks : ∀ e ∈ List.replicate 598 Event.clock, e.Apart := by
    intro e he
    rw [List.eq_of_mem_replicate he]
    trivial
  obtain ⟨-, htimer, -⟩ := timer_counter_rate Idt.quietRust (by simp [Event.Apart])
    (by simp [Event.Apart, latch]) hclocks (by simp [Event.Apart]) (by decide) hinit hrun hsleep
  exact ⟨m₀, m₁, m', hinit, hrun, hsleep, htimer⟩

end PitRate

end Titanium
