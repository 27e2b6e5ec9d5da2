import Titanium.Hdint.Timer

/-!
Time slices (`scheduler.rs` with the timer of `hdint.rs`).

`run_scheduler` arms the timer and resumes a task; `resume_scheduler` halts it.
The interrupt is a preemption when `CURRENT_TASK_PTR` names a task, and is
acknowledged and forgotten when it names the scheduler.  Between any two
instructions the timer may tick, and an interrupt is taken as soon as the flags
allow it.

Of the code only what touches the timer, the interrupt flag or
`CURRENT_TASK_PTR` is kept.  What the queue holds is left open; `Timed` puts this
model and the one of the queue together.

* `Machine.step`: one event.
* `Slice`: the timer during a slice; `Inv`: the invariant.
* `inv_run`: **every run keeps it**.
* `time_slices`: **a task is preempted when its ticks are over and not before;
  unless the timer runs out before `resume_task` clears the interrupt flag: then
  the task is never preempted**.
-/

namespace Titanium

namespace Slices

open Hdint

/-! ### The code -/

/-- What matters of an instruction. -/
inductive Instr where
  /-- A write to a register of the local APIC. -/
  | write (offset : ℕ) (value : BitVec 32)
  | cli
  | sti
  /-- A store to `CURRENT_TASK_PTR`, of a task or of the scheduler. -/
  | current (isTask : Bool)
  deriving DecidableEq, Repr

/-- `halt_timer`. -/
def haltCode : List Instr := haltTimer.map fun w => .write w.1 w.2

/-- `start_scheduler` behind its `cli`. -/
def startCode : List Instr := haltCode ++ [.current false, .sti]

/-- `release_task` behind its `cli`, with `scheduler_jump_out` and the start of
`resume_scheduler`. -/
def releaseCode : List Instr := [.cli, .current false] ++ haltCode ++ [.sti]

/-- `scheduler_preempt` in a task, with its `scheduler_jump_out` and the start of
`resume_scheduler`. -/
def preemptCode : List Instr :=
  [.cli, .current false, .write eoiOffset 0] ++ haltCode ++ [.sti]

/-- `scheduler_preempt` in the scheduler, up to its `iretq`. -/
def absorbCode : List Instr := [.cli, .write eoiOffset 0]

/-- `trigger_local_us` and the start of `resume_task`. -/
def enterCode (n : ℕ) : List Instr :=
  (triggerWrites n).map (fun w => .write w.1 w.2) ++ [.cli, .current true, .sti]

/-! ### The machine -/

/-- Where the processor is. -/
inductive Point where
  | task
  /-- On the way from a task to the scheduler. -/
  | leave (rest : List Instr)
  /-- In `resume_scheduler` or `run_scheduler`, with the timer halted. -/
  | body
  /-- On the way from the scheduler to a task. -/
  | enter (rest : List Instr)
  /-- The loop around `hlt`. -/
  | idle
  deriving DecidableEq, Repr

/-- The processor and its timer.  The last three fields are history. -/
structure Machine where
  lapic : Lapic
  /-- The interrupt flag. -/
  interrupts : Bool
  /-- `sti` was the last instruction, so that no interrupt is taken before the next one. -/
  shadow : Bool
  /-- `CURRENT_TASK_PTR` names a task. -/
  isTask : Bool
  point : Point
  /-- What is left of `scheduler_preempt` when it interrupted the scheduler, and the flag that its
  `iretq` will restore. -/
  handler : Option (List Instr × Bool)
  /-- The ticks so far. -/
  clock : ℕ
  /-- When `TMRINITCNT` was last written. -/
  started : ℕ
  /-- When the kernel last executed `cli`. -/
  cleared : ℕ
  deriving DecidableEq, Repr

/-- What can happen. -/
inductive Event where
  | tick
  /-- The timer's interrupt is taken. -/
  | irq
  /-- The next instruction of the code above. -/
  | cpu
  /-- Another instruction, of a task or of the scheduler, which may set the interrupt flag. -/
  | work (interrupts : Bool)
  /-- A task calls `release_task`. -/
  | release
  /-- `run_scheduler` looks for a task. -/
  | pop (found : Bool)
  deriving DecidableEq, Repr

namespace Machine

/-- One instruction. -/
def exec (m : Machine) : Instr → Machine
  | .write offset value => { m with
      lapic := m.lapic.write offset value
      shadow := false
      started := if offset = tmrinitcntOffset then m.clock else m.started }
  | .cli => { m with interrupts := false, shadow := false, cleared := m.clock }
  | .sti => { m with interrupts := true, shadow := !m.interrupts }
  | .current isTask => { m with isTask, shadow := false }

/-- A tick of the timer. -/
def ticked (m : Machine) : Machine := { m with lapic := m.lapic.tick, clock := m.clock + 1 }

/-- The processor takes the interrupt before its next instruction. -/
def deliverable (m : Machine) : Bool :=
  m.interrupts && m.lapic.irr && !m.lapic.isr && !m.shadow

/-- The interrupt in a task.  The gate is a trap gate, which leaves the flag as it is. -/
def preempt (m : Machine) : Machine :=
  { m with lapic := m.lapic.deliver, point := .leave preemptCode }

/-- The interrupt in the scheduler. -/
def absorb (m : Machine) : Machine :=
  { m with lapic := m.lapic.deliver, handler := some (absorbCode, m.interrupts) }

/-- One event, `none` when it cannot happen; `n` is the count for a slice. -/
def step (n : ℕ) (m : Machine) : Event → Option Machine
  | .tick => some m.ticked
  | .irq =>
      if m.deliverable then
        if m.isTask then some m.preempt else some m.absorb
      else none
  | .cpu =>
      if m.deliverable then none
      else
        match m.handler, m.point with
        | some (i :: rest, flag), _ => some { m.exec i with handler := some (rest, flag) }
        | some ([], flag), _ => some { m with interrupts := flag, shadow := false, handler := none }
        | none, .leave [i] => some { m.exec i with point := .body }
        | none, .leave (i :: rest) => some { m.exec i with point := .leave rest }
        | none, .enter [i] => some { m.exec i with point := .task }
        | none, .enter (i :: rest) => some { m.exec i with point := .enter rest }
        | _, _ => none
  | .work interrupts =>
      if m.deliverable = false ∧ m.handler = none ∧ (m.point = .task ∨ m.point = .body) then
        some { m with interrupts, shadow := interrupts && !m.interrupts }
      else none
  | .release =>
      if m.deliverable = false ∧ m.handler = none ∧ m.point = .task then
        some { m.exec .cli with point := .leave releaseCode }
      else none
  | .pop found =>
      -- interrupts are on here, and have been for some instructions
      if m.deliverable = false ∧ m.interrupts ∧ m.shadow = false ∧ m.handler = none ∧
          m.point = .body then
        some { m with point := if found then .enter (enterCode n) else .idle }
      else none

/-- A run. -/
def run (n : ℕ) (m : Machine) (es : List Event) : Option Machine := es.foldlM (step n) m

/-- The start of `start_scheduler`, with the timer in any state. -/
def start (l : Lapic) : Machine where
  lapic := l
  interrupts := false
  shadow := false
  isTask := false
  point := .leave startCode
  handler := none
  clock := 0
  started := 0
  cleared := 0

/-- The ticks since the slice was armed. -/
def elapsed (m : Machine) : ℕ := m.clock - m.started

/-- The ticks from there to the `cli` of `resume_task`. -/
def late (m : Machine) : ℕ := m.cleared - m.started

end Machine

/-! ### The invariant -/

section Inv

variable (n : ℕ) (m : Machine)

/-- The timer while a task runs: it counts down, and its interrupt is requested with the tick that
ends the count, unless that tick came before `resume_task` cleared the interrupt flag. -/
structure Slice : Prop where
  lvt : m.lapic.lvt = LocalTimer.lvtArmed
  count : m.lapic.currentCount.toNat = n - m.elapsed
  isr : m.lapic.isr = false
  started_le : m.started ≤ m.cleared
  cleared_le : m.cleared ≤ m.clock
  irr : m.lapic.irr = true ↔ m.late < n ∧ n ≤ m.elapsed

/-- The handler that has interrupted the scheduler. -/
def Absorbing : Prop :=
  match m.handler with
  | none => m.lapic.isr = false
  | some (rest, flag) => flag = true ∧
      (rest = absorbCode ∧ m.lapic.isr = true ∨
        rest = absorbCode.tail ∧ m.lapic.isr = true ∧ m.interrupts = false ∨
        rest = [] ∧ m.lapic.isr = false ∧ m.interrupts = false)

/-- The timer is halted, and the scheduler has control. -/
structure Halted : Prop where
  lvt : m.lapic.lvt = lvtIntMasked
  count : m.lapic.currentCount = 0
  isTask : m.isTask = false
  absorbing : Absorbing m

/-- The rest of the way to the scheduler: no interrupt is taken on it, and it ends with the timer
halted. -/
def Leaving (m : Machine) : List Instr → Prop
  | [] => Halted m
  | i :: rest => m.handler = none ∧ (m.interrupts = false ∨ m.lapic.isr = true) ∧
      Leaving (m.exec i) rest

/-- On the way to a task.  Only between the write that unmasks the interrupt and the `cli` can the
scheduler take it, and then the count has come to its end. -/
structure Entering (rest : List Instr) : Prop where
  code : rest <:+ enterCode n
  pos : 0 < rest.length
  shadow : m.shadow = false
  started_le : rest.length ≤ 4 → m.started ≤ m.clock
  isTask : m.isTask = decide (rest.length = 1)
  masked : 4 ≤ rest.length → m.lapic.lvt = lvtIntMasked ∧ m.lapic.irr = false ∧
    m.lapic.isr = false ∧ m.handler = none ∧ m.interrupts = true
  halted : 5 ≤ rest.length → m.lapic.currentCount = 0
  count : rest.length ≤ 4 → m.lapic.currentCount.toNat = n - m.elapsed
  armed : rest.length = 3 → m.lapic.lvt = LocalTimer.lvtArmed ∧ Absorbing m ∧
    (m.handler = none → m.interrupts = true) ∧
    (m.lapic.irr = true ∨ m.handler ≠ none → n ≤ m.elapsed)
  slice : rest.length ≤ 2 → Slice n m ∧ m.handler = none ∧ m.interrupts = false

/-- What holds at each point. -/
def InvAt : Point → Prop
  | .task => Slice n m ∧ m.isTask = true ∧ m.handler = none
  | .leave rest => rest ≠ [] ∧ Leaving m rest
  | .body => Halted m
  | .enter rest => Entering n m rest
  | .idle => Halted m

/-- **The invariant.** -/
def Inv : Prop := InvAt n m m.point

end Inv

variable {n : ℕ} {m m' : Machine}

/-! ### Ticks -/

lemma elapsed_ticked (h : m.started ≤ m.clock) : m.ticked.elapsed = m.elapsed + 1 := by
  show m.clock + 1 - m.started = m.clock - m.started + 1
  omega

lemma not_periodic_armed {l : Lapic} (h : l.lvt = LocalTimer.lvtArmed) : l.periodic = false := by
  rw [Lapic.periodic, h]
  decide

lemma not_masked_armed {l : Lapic} (h : l.lvt = LocalTimer.lvtArmed) : l.masked = false := by
  rw [Lapic.masked, h]
  decide

lemma not_periodic_masked {l : Lapic} (h : l.lvt = lvtIntMasked) : l.periodic = false := by
  rw [Lapic.periodic, h]
  decide

lemma masked_masked {l : Lapic} (h : l.lvt = lvtIntMasked) : l.masked = true := by
  rw [Lapic.masked, h]
  decide

lemma Slice.ticked (h : Slice n m) : Slice n m.ticked := by
  have hclock : m.started ≤ m.clock := h.started_le.trans h.cleared_le
  have helapsed := elapsed_ticked hclock
  have hlate : m.late ≤ m.elapsed := Nat.sub_le_sub_right h.cleared_le _
  have hcount := h.count
  have hirr := h.irr
  refine ⟨by rw [← h.lvt]; exact Lapic.lvt_tick _, ?_, by rw [← h.isr]; exact Lapic.isr_tick _,
    h.started_le, Nat.le_succ_of_le h.cleared_le, ?_⟩
  · rw [helapsed]
    show m.lapic.tick.currentCount.toNat = _
    rw [Lapic.toNat_currentCount_tick (not_periodic_armed h.lvt), hcount]
    omega
  · rw [helapsed]
    show m.lapic.tick.irr = true ↔ m.late < n ∧ _
    rw [Lapic.irr_tick, not_masked_armed h.lvt, Bool.or_eq_true, hirr, hcount]
    simp only [Bool.not_false, Bool.and_true, beq_iff_eq]
    omega

lemma Absorbing.ticked (h : Absorbing m) : Absorbing m.ticked := by
  unfold Absorbing at h ⊢
  simp only [Machine.ticked, Lapic.isr_tick]
  exact h

lemma Halted.ticked (h : Halted m) : Halted m.ticked := by
  refine ⟨by rw [← h.lvt]; exact Lapic.lvt_tick _, ?_, h.isTask, h.absorbing.ticked⟩
  show m.lapic.tick.currentCount = 0
  rw [Lapic.tick_of_zero h.count, h.count]

/-- As far as the way to the scheduler is concerned, `m'` may stand for `m`. -/
structure Similar (m m' : Machine) : Prop where
  interrupts : m'.interrupts = m.interrupts
  isTask : m'.isTask = m.isTask
  handler : m'.handler = m.handler
  lvt : m'.lapic.lvt = m.lapic.lvt
  isr : m'.lapic.isr = m.lapic.isr
  count : m.lapic.currentCount = 0 → m'.lapic.currentCount = 0

lemma similar_ticked (m : Machine) : Similar m m.ticked where
  interrupts := rfl
  isTask := rfl
  handler := rfl
  lvt := Lapic.lvt_tick _
  isr := Lapic.isr_tick _
  count h := by
    show m.lapic.tick.currentCount = 0
    rw [Lapic.tick_of_zero h, h]

lemma Similar.exec (h : Similar m m') (i : Instr) : Similar (m.exec i) (m'.exec i) := by
  cases i with
  | write offset value =>
      refine ⟨h.interrupts, h.isTask, h.handler, ?_, ?_, ?_⟩ <;>
        simp only [Machine.exec, Lapic.write] <;> split_ifs <;>
        first | exact h.lvt | exact h.isr | exact h.count | exact fun hz => hz | rfl
  | cli => exact ⟨rfl, h.isTask, h.handler, h.lvt, h.isr, h.count⟩
  | sti => exact ⟨rfl, h.isTask, h.handler, h.lvt, h.isr, h.count⟩
  | current isTask => exact ⟨h.interrupts, rfl, h.handler, h.lvt, h.isr, h.count⟩

lemma Leaving.similar {rest : List Instr} (h : Leaving m rest) (hsim : Similar m m') :
    Leaving m' rest := by
  induction rest generalizing m m' with
  | nil =>
      refine ⟨hsim.lvt.trans h.lvt, hsim.count h.count, hsim.isTask.trans h.isTask, ?_⟩
      have habsorb := h.absorbing
      unfold Absorbing at habsorb ⊢
      rw [hsim.handler, hsim.isr, hsim.interrupts]
      exact habsorb
  | cons i rest ih =>
      obtain ⟨hhandler, hquiet, hrest⟩ := h
      refine ⟨hsim.handler.trans hhandler, ?_, ih hrest (hsim.exec i)⟩
      rw [hsim.interrupts, hsim.isr]
      exact hquiet

lemma Entering.ticked {rest : List Instr} (h : Entering n m rest) : Entering n m.ticked rest where
  code := h.code
  pos := h.pos
  shadow := h.shadow
  started_le hr := Nat.le_succ_of_le (h.started_le hr)
  isTask := h.isTask
  masked hr := by
    obtain ⟨hlvt, hirr, hisr, hhandler, hif⟩ := h.masked hr
    refine ⟨by simpa [Machine.ticked] using hlvt, ?_, by simpa [Machine.ticked] using hisr,
      hhandler, hif⟩
    show m.lapic.tick.irr = false
    rw [Lapic.irr_tick, hirr, masked_masked hlvt]
    simp
  halted hr := by
    show m.lapic.tick.currentCount = 0
    rw [Lapic.tick_of_zero (h.halted hr), h.halted hr]
  count hr := by
    have hperiodic : m.lapic.periodic = false := by
      rcases Nat.lt_trichotomy rest.length 3 with hlt | heq | hgt
      · exact not_periodic_armed (h.slice (by omega)).1.lvt
      · exact not_periodic_armed (h.armed heq).1
      · exact not_periodic_masked (h.masked (by omega)).1
    rw [elapsed_ticked (h.started_le hr)]
    show m.lapic.tick.currentCount.toNat = _
    rw [Lapic.toNat_currentCount_tick hperiodic, h.count hr]
    omega
  armed hr := by
    obtain ⟨hlvt, habsorb, hif, hover⟩ := h.armed hr
    have hcount := h.count (by omega)
    refine ⟨by simpa [Machine.ticked] using hlvt, habsorb.ticked, hif, fun hirr => ?_⟩
    rw [elapsed_ticked (h.started_le (by omega))]
    rcases hirr with hirr | hhandler
    · have hirr' : m.lapic.tick.irr = true := hirr
      rw [Lapic.irr_tick, Bool.or_eq_true, Bool.and_eq_true, beq_iff_eq, hcount] at hirr'
      rcases hirr' with hirr' | ⟨hone, -⟩
      · exact Nat.le_succ_of_le (hover (Or.inl hirr'))
      · omega
    · exact Nat.le_succ_of_le (hover (Or.inr hhandler))
  slice hr := by
    obtain ⟨hslice, hhandler, hif⟩ := h.slice hr
    exact ⟨hslice.ticked, hhandler, hif⟩

lemma Inv.ticked (h : Inv n m) : Inv n m.ticked := by
  show InvAt n m.ticked m.point
  unfold Inv at h
  cases hp : m.point with
  | task =>
      rw [hp] at h
      exact ⟨h.1.ticked, h.2⟩
  | leave rest =>
      rw [hp] at h
      exact ⟨h.1, h.2.similar (similar_ticked m)⟩
  | enter rest =>
      rw [hp] at h
      exact Entering.ticked h
  | _ =>
      rw [hp] at h
      exact Halted.ticked h

/-! ### Interrupts -/

lemma deliverable_iff : m.deliverable = true ↔
    m.interrupts = true ∧ m.lapic.irr = true ∧ m.lapic.isr = false ∧ m.shadow = false := by
  simp only [Machine.deliverable, Bool.and_eq_true, Bool.not_eq_true', and_assoc]

/-- The handler is not interrupted. -/
lemma Absorbing.handler_eq_none (h : Absorbing m) (hd : m.deliverable = true) :
    m.handler = none := by
  obtain ⟨hif, -, hisr, -⟩ := deliverable_iff.mp hd
  unfold Absorbing at h
  cases hhandler : m.handler with
  | none => rfl
  | some x =>
      rw [hhandler] at h
      obtain ⟨-, ⟨-, h⟩ | ⟨-, h, -⟩ | ⟨-, -, h⟩⟩ := h
      · rw [hisr] at h
        cases h
      · rw [hisr] at h
        cases h
      · rw [hif] at h
        cases h

lemma absorbing_absorb (hd : m.deliverable = true) : Absorbing m.absorb :=
  ⟨(deliverable_iff.mp hd).1, Or.inl ⟨rfl, rfl⟩⟩

lemma Halted.absorb (h : Halted m) (hd : m.deliverable = true) : Halted m.absorb :=
  ⟨h.lvt, h.count, h.isTask, absorbing_absorb hd⟩

lemma exec_lvt (v : BitVec 32) : m.exec (.write lvtTimerOffset v) =
    { m with lapic := { m.lapic with lvt := v }, shadow := false } := by
  have hne : ¬ lvtTimerOffset = tmrinitcntOffset := by decide
  simp [Machine.exec, hne]

lemma exec_count (v : BitVec 32) : m.exec (.write tmrinitcntOffset v) = { m with
    lapic := { m.lapic with initialCount := v, currentCount := v }
    shadow := false
    started := m.clock } := by
  simp [Machine.exec]

/-- What `halt_timer` does. -/
def halted (m : Machine) : Machine := { m with
  lapic := { m.lapic with lvt := lvtIntMasked, initialCount := 0, currentCount := 0 }
  shadow := false
  started := m.clock }

/-- The two writes of `halt_timer` on the way to the scheduler. -/
lemma leaving_halt {rest : List Instr} (hhandler : m.handler = none)
    (hif : m.interrupts = false) (hrest : Leaving (halted m) rest) :
    Leaving m (haltCode ++ rest) := by
  have hexec : (m.exec (.write lvtTimerOffset (timerModeOneshot ||| lvtIntMasked))).exec
      (.write tmrinitcntOffset 0) = halted m := by
    have hvalue : timerModeOneshot ||| lvtIntMasked = lvtIntMasked := by decide
    rw [exec_lvt, exec_count, hvalue, halted]
  refine ⟨hhandler, Or.inl hif, hhandler, Or.inl hif, ?_⟩
  rw [hexec]
  exact hrest

lemma absorbing_of_none (hhandler : m.handler = none) (hisr : m.lapic.isr = false) :
    Absorbing m := by
  unfold Absorbing
  rw [hhandler]
  exact hisr

lemma Absorbing.isr_eq_false (h : Absorbing m) (hhandler : m.handler = none) :
    m.lapic.isr = false := by
  unfold Absorbing at h
  rwa [hhandler] at h

/-- The `sti` at the end of the way. -/
lemma leaving_sti (hhandler : m.handler = none) (hif : m.interrupts = false)
    (hlvt : m.lapic.lvt = lvtIntMasked) (hcount : m.lapic.currentCount = 0)
    (hisTask : m.isTask = false) (hisr : m.lapic.isr = false) : Leaving m [.sti] := by
  have habsorb : Absorbing (m.exec .sti) := absorbing_of_none hhandler hisr
  exact ⟨hhandler, Or.inl hif, hlvt, hcount, hisTask, habsorb⟩

lemma leaving_start {l : Lapic} (hisr : l.isr = false) :
    Leaving (Machine.start l) startCode :=
  leaving_halt rfl rfl ⟨rfl, Or.inl rfl, leaving_sti rfl rfl rfl rfl rfl hisr⟩

lemma leaving_release (hhandler : m.handler = none) (hisr : m.lapic.isr = false) :
    Leaving (m.exec .cli) releaseCode :=
  ⟨hhandler, Or.inl rfl, hhandler, Or.inl rfl,
    leaving_halt hhandler rfl (leaving_sti hhandler rfl rfl rfl rfl hisr)⟩

lemma leaving_preempt (hhandler : m.handler = none) : Leaving m.preempt preemptCode := by
  refine ⟨hhandler, Or.inr rfl, hhandler, Or.inl rfl, hhandler, Or.inl rfl,
    leaving_halt hhandler rfl (leaving_sti hhandler rfl rfl rfl rfl ?_)⟩
  show (m.lapic.deliver.write eoiOffset 0).isr = false
  rw [Lapic.write_eoi]

lemma Leaving.handler_eq_none {rest : List Instr} (h : Leaving m rest) (hne : rest ≠ []) :
    m.handler = none := by
  cases rest with
  | nil => exact absurd rfl hne
  | cons i rest => exact h.1

lemma Leaving.not_deliverable {rest : List Instr} (h : Leaving m rest) (hne : rest ≠ []) :
    m.deliverable = false := by
  cases rest with
  | nil => exact absurd rfl hne
  | cons i rest =>
      obtain ⟨-, hquiet, -⟩ := h
      rw [Bool.eq_false_iff, Ne, deliverable_iff]
      rintro ⟨hif, -, hisr, -⟩
      rcases hquiet with h | h
      · rw [hif] at h
        cases h
      · rw [hisr] at h
        cases h

/-- On the way to a task, the interrupt can only be taken before the `cli`. -/
lemma Entering.length_eq {rest : List Instr} (h : Entering n m rest) (hd : m.deliverable = true) :
    rest.length = 3 := by
  obtain ⟨hif, hirr, -, -⟩ := deliverable_iff.mp hd
  rcases Nat.lt_trichotomy rest.length 3 with hlt | heq | hgt
  · rw [(h.slice (by omega)).2.2] at hif
    cases hif
  · exact heq
  · rw [(h.masked (by omega)).2.1] at hirr
    cases hirr

lemma Entering.absorb {rest : List Instr} (h : Entering n m rest) (hd : m.deliverable = true) :
    Entering n m.absorb rest := by
  have hlen := h.length_eq hd
  obtain ⟨hlvt, -, -, hover⟩ := h.armed hlen
  refine ⟨h.code, h.pos, h.shadow, h.started_le, h.isTask, fun hr => absurd hr (by omega),
    fun hr => absurd hr (by omega), h.count,
    fun _ => ⟨hlvt, absorbing_absorb hd, nofun, fun _ => ?_⟩, fun hr => absurd hr (by omega)⟩
  exact hover (Or.inl (deliverable_iff.mp hd).2.1)

/-- **Only the code of a task is preempted.** -/
lemma Inv.preempt (h : Inv n m) (hd : m.deliverable = true) (htask : m.isTask = true) :
    m.point = .task ∧ Inv n m.preempt := by
  unfold Inv at h
  cases hp : m.point with
  | task =>
      rw [hp] at h
      exact ⟨rfl, by decide, leaving_preempt h.2.2⟩
  | leave rest =>
      rw [hp] at h
      rw [h.2.not_deliverable h.1] at hd
      cases hd
  | enter rest =>
      rw [hp] at h
      have hlen := Entering.length_eq h hd
      rw [Entering.isTask h, hlen] at htask
      cases htask
  | _ =>
      rw [hp] at h
      rw [Halted.isTask h] at htask
      cases htask

lemma Inv.absorb (h : Inv n m) (hd : m.deliverable = true) (htask : m.isTask = false) :
    Inv n m.absorb := by
  show InvAt n m.absorb m.point
  unfold Inv at h
  cases hp : m.point with
  | task =>
      rw [hp] at h
      rw [h.2.1] at htask
      cases htask
  | leave rest =>
      rw [hp] at h
      rw [h.2.not_deliverable h.1] at hd
      cases hd
  | enter rest =>
      rw [hp] at h
      exact Entering.absorb h hd
  | _ =>
      rw [hp] at h
      exact Halted.absorb h hd

/-! ### Instructions -/

/-- The handler returns to the scheduler. -/
def resumed (m : Machine) (flag : Bool) : Machine :=
  { m with interrupts := flag, shadow := false, handler := none }

/-- One instruction of the handler. -/
def handled (m : Machine) (i : Instr) (rest : List Instr) (flag : Bool) : Machine :=
  { m.exec i with handler := some (rest, flag) }

lemma Absorbing.resumed {flag : Bool} (h : Absorbing m) (hh : m.handler = some ([], flag)) :
    flag = true ∧ Absorbing (resumed m flag) := by
  unfold Absorbing at h
  rw [hh] at h
  obtain ⟨hflag, ⟨hcode, -⟩ | ⟨hcode, -⟩ | ⟨-, hisr, -⟩⟩ := h
  · cases hcode
  · cases hcode
  · exact ⟨hflag, hisr⟩

/-- The handler has two instructions: `cli`, and the write that ends the interrupt. -/
lemma Absorbing.handled {i : Instr} {rest : List Instr} {flag : Bool} (h : Absorbing m)
    (hh : m.handler = some (i :: rest, flag)) :
    Absorbing (handled m i rest flag) ∧ (i = .cli ∨ i = .write eoiOffset 0) := by
  unfold Absorbing at h
  rw [hh] at h
  obtain ⟨rfl, ⟨hcode, hisr⟩ | ⟨hcode, hisr, hif⟩ | ⟨hcode, -⟩⟩ := h
  · cases hcode
    exact ⟨⟨rfl, Or.inr (Or.inl ⟨rfl, hisr, rfl⟩)⟩, Or.inl rfl⟩
  · cases hcode
    refine ⟨⟨rfl, Or.inr (Or.inr ⟨rfl, ?_, hif⟩)⟩, Or.inr rfl⟩
    show (m.lapic.write eoiOffset 0).isr = false
    rw [Lapic.write_eoi]
  · cases hcode

/-- What the handler leaves alone when it has interrupted the scheduler. -/
structure Same (m m' : Machine) : Prop where
  lvt : m'.lapic.lvt = m.lapic.lvt
  count : m'.lapic.currentCount = m.lapic.currentCount
  irr : m'.lapic.irr = m.lapic.irr
  isTask : m'.isTask = m.isTask
  point : m'.point = m.point
  clock : m'.clock = m.clock
  started : m'.started = m.started
  shadow : m'.shadow = false

lemma same_handled {i : Instr} (hi : i = .cli ∨ i = .write eoiOffset 0) (rest : List Instr)
    (flag : Bool) : Same m (handled m i rest flag) := by
  have hne : ¬ eoiOffset = tmrinitcntOffset := by decide
  rcases hi with rfl | rfl
  · exact ⟨rfl, rfl, rfl, rfl, rfl, rfl, rfl, rfl⟩
  · constructor <;> simp [handled, Machine.exec, hne]

lemma same_resumed (flag : Bool) : Same m (resumed m flag) :=
  ⟨rfl, rfl, rfl, rfl, rfl, rfl, rfl, rfl⟩

lemma Same.elapsed (h : Same m m') : m'.elapsed = m.elapsed := by
  rw [Machine.elapsed, Machine.elapsed, h.clock, h.started]

/-- Only the scheduler is interrupted by the handler that returns. -/
lemma Entering.length_of_handler {rest : List Instr} (h : Entering n m rest)
    (hne : m.handler ≠ none) : rest.length = 3 := by
  rcases Nat.lt_trichotomy rest.length 3 with hlt | heq | hgt
  · exact absurd (h.slice (by omega)).2.1 hne
  · exact heq
  · exact absurd (h.masked (by omega)).2.2.2.1 hne

lemma Inv.absorbing (h : Inv n m) (hne : m.handler ≠ none) : Absorbing m := by
  unfold Inv at h
  cases hp : m.point with
  | task =>
      rw [hp] at h
      exact absurd h.2.2 hne
  | leave rest =>
      rw [hp] at h
      exact absurd (h.2.handler_eq_none h.1) hne
  | enter rest =>
      rw [hp] at h
      exact (Entering.armed h (Entering.length_of_handler h hne)).2.1
  | _ =>
      rw [hp] at h
      exact Halted.absorbing h

/-- The invariant outlasts an instruction of the handler. -/
lemma Inv.handler (h : Inv n m) (hne : m.handler ≠ none) (hsame : Same m m')
    (habsorb : Absorbing m') (hif : m'.handler = none → m'.interrupts = true) : Inv n m' := by
  show InvAt n m' m'.point
  rw [hsame.point]
  unfold Inv at h
  cases hp : m.point with
  | task =>
      rw [hp] at h
      exact absurd h.2.2 hne
  | leave rest =>
      rw [hp] at h
      exact absurd (h.2.handler_eq_none h.1) hne
  | enter rest =>
      rw [hp] at h
      have hlen := Entering.length_of_handler h hne
      obtain ⟨hlvt, -, -, hover⟩ := Entering.armed h hlen
      refine ⟨Entering.code h, Entering.pos h, hsame.shadow, ?_, ?_,
        fun hr => absurd hr (by omega), fun hr => absurd hr (by omega), fun hr => ?_,
        fun _ => ⟨hsame.lvt.trans hlvt, habsorb, hif, fun _ => ?_⟩,
        fun hr => absurd hr (by omega)⟩
      · rw [hsame.started, hsame.clock]
        exact fun hr => Entering.started_le h hr
      · rw [hsame.isTask]
        exact Entering.isTask h
      · rw [hsame.count, hsame.elapsed]
        exact Entering.count h hr
      · rw [hsame.elapsed]
        exact hover (Or.inr hne)
  | _ =>
      rw [hp] at h
      exact ⟨hsame.lvt.trans (Halted.lvt h), hsame.count.trans (Halted.count h),
        hsame.isTask.trans (Halted.isTask h), habsorb⟩

section Enter

variable {rest : List Instr}

/-- The write that masks the interrupt. -/
lemma Entering.mask (h : Entering n m (.write lvtTimerOffset lvtIntMasked :: rest))
    (hlen : rest.length = 5) : Entering n (m.exec (.write lvtTimerOffset lvtIntMasked)) rest := by
  have hlen' : (Instr.write lvtTimerOffset lvtIntMasked :: rest).length = 6 := by simp [hlen]
  obtain ⟨-, hirr, hisr, hhandler, hif⟩ := h.masked (by omega)
  rw [exec_lvt]
  exact ⟨(List.suffix_cons ..).trans h.code, by omega, rfl, fun hr => absurd hr (by omega),
    h.isTask.trans (by simp [hlen]), fun _ => ⟨rfl, hirr, hisr, hhandler, hif⟩,
    fun _ => h.halted (by omega), fun hr => absurd hr (by omega), fun hr => absurd hr (by omega),
    fun hr => absurd hr (by omega)⟩

/-- The write of the count. -/
lemma Entering.write_count (hn : n < 2 ^ 32)
    (h : Entering n m (.write tmrinitcntOffset (.ofNat 32 n) :: rest)) (hlen : rest.length = 4) :
    Entering n (m.exec (.write tmrinitcntOffset (.ofNat 32 n))) rest := by
  have hlen' : (Instr.write tmrinitcntOffset (.ofNat 32 n) :: rest).length = 5 := by simp [hlen]
  obtain ⟨hlvt, hirr, hisr, hhandler, hif⟩ := h.masked (by omega)
  rw [exec_count]
  refine ⟨(List.suffix_cons ..).trans h.code, by omega, rfl, fun _ => le_rfl,
    h.isTask.trans (by simp [hlen]), fun _ => ⟨hlvt, hirr, hisr, hhandler, hif⟩,
    fun hr => absurd hr (by omega), fun _ => ?_, fun hr => absurd hr (by omega),
    fun hr => absurd hr (by omega)⟩
  show (BitVec.ofNat 32 n).toNat = n - (m.clock - m.clock)
  rw [BitVec.toNat_ofNat, Nat.mod_eq_of_lt hn, Nat.sub_self, Nat.sub_zero]

/-- The write that unmasks the interrupt. -/
lemma Entering.arm (h : Entering n m (.write lvtTimerOffset LocalTimer.lvtArmed :: rest))
    (hlen : rest.length = 3) :
    Entering n (m.exec (.write lvtTimerOffset LocalTimer.lvtArmed)) rest := by
  have hlen' : (Instr.write lvtTimerOffset LocalTimer.lvtArmed :: rest).length = 4 := by simp [hlen]
  obtain ⟨-, hirr, hisr, hhandler, hif⟩ := h.masked (by omega)
  rw [exec_lvt]
  refine ⟨(List.suffix_cons ..).trans h.code, by omega, rfl,
    fun _ => h.started_le (by omega), h.isTask.trans (by simp [hlen]),
    fun hr => absurd hr (by omega), fun hr => absurd hr (by omega), fun _ => h.count (by omega),
    fun _ => ⟨rfl, absorbing_of_none hhandler hisr, fun _ => hif, ?_⟩,
    fun hr => absurd hr (by omega)⟩
  rintro (hreq | hreq)
  · rw [show m.lapic.irr = true from hreq] at hirr
    cases hirr
  · exact absurd hhandler hreq

/-- The `cli`.  No request is left before it, since it would have been taken. -/
lemma Entering.clear (h : Entering n m (.cli :: rest)) (hlen : rest.length = 2)
    (hd : m.deliverable = false) (hhandler : m.handler = none) :
    Entering n (m.exec .cli) rest := by
  have hlen' : (Instr.cli :: rest).length = 3 := by simp [hlen]
  obtain ⟨hlvt, habsorb, hif, -⟩ := h.armed hlen'
  have hisr := habsorb.isr_eq_false hhandler
  have hirr : m.lapic.irr = false := by
    simpa [Machine.deliverable, hif hhandler, hisr, h.shadow] using hd
  have hcount := h.count (by omega)
  have hstarted := h.started_le (by omega)
  refine ⟨(List.suffix_cons ..).trans h.code, by omega, rfl, fun _ => hstarted,
    h.isTask.trans (by simp [hlen]), fun hr => absurd hr (by omega), fun hr => absurd hr (by omega),
    fun _ => hcount, fun hr => absurd hr (by omega),
    fun _ => ⟨⟨hlvt, hcount, hisr, hstarted, le_rfl, ?_⟩, hhandler, rfl⟩⟩
  show m.lapic.irr = true ↔ m.clock - m.started < n ∧ n ≤ m.clock - m.started
  rw [hirr]
  simp

/-- The store of the task, and the `sti`. -/
lemma Entering.store (h : Entering n m (.current true :: rest)) (hlen : rest.length = 1) :
    Entering n (m.exec (.current true)) rest := by
  have hlen' : (Instr.current true :: rest).length = 2 := by simp [hlen]
  obtain ⟨hslice, hhandler, hif⟩ := h.slice (by omega)
  exact ⟨(List.suffix_cons ..).trans h.code, by omega, rfl, fun _ => h.started_le (by omega),
    by simp [Machine.exec, hlen], fun hr => absurd hr (by omega), fun hr => absurd hr (by omega),
    fun _ => h.count (by omega), fun hr => absurd hr (by omega),
    fun _ => ⟨⟨hslice.lvt, hslice.count, hslice.isr, hslice.started_le, hslice.cleared_le,
      hslice.irr⟩, hhandler, hif⟩⟩

lemma Entering.resume (h : Entering n m [.sti]) : InvAt n (m.exec .sti) .task := by
  obtain ⟨hslice, hhandler, -⟩ := h.slice (by simp)
  exact ⟨⟨hslice.lvt, hslice.count, hslice.isr, hslice.started_le, hslice.cleared_le, hslice.irr⟩,
    h.isTask, hhandler⟩

/-- **On the way to a task.** -/
lemma Entering.exec {i : Instr} (hn : n < 2 ^ 32) (h : Entering n m (i :: rest))
    (hd : m.deliverable = false) (hhandler : m.handler = none) :
    if rest = [] then InvAt n (m.exec i) .task else Entering n (m.exec i) rest := by
  have hcode := h.code
  simp only [enterCode, triggerWrites, List.map_cons, List.map_nil, List.cons_append,
    List.nil_append, List.suffix_cons_iff, List.suffix_nil, List.cons.injEq, reduceCtorEq,
    or_false] at hcode
  rcases hcode with ⟨rfl, rfl⟩ | ⟨rfl, rfl⟩ | ⟨rfl, rfl⟩ | ⟨rfl, rfl⟩ | ⟨rfl, rfl⟩ | ⟨rfl, rfl⟩
  · exact h.mask rfl
  · exact h.write_count hn rfl
  · exact h.arm rfl
  · exact h.clear rfl hd hhandler
  · exact h.store rfl
  · exact h.resume

end Enter

/-- Nothing but the invariant itself looks at the point. -/
lemma InvAt.moved {p : Point} (h : InvAt n m p) : Inv n { m with point := p } := by
  have hhalted : Halted m → Halted { m with point := p } := fun h =>
    ⟨h.lvt, h.count, h.isTask, h.absorbing⟩
  have hslice : Slice n m → Slice n { m with point := p } := fun h =>
    ⟨h.lvt, h.count, h.isr, h.started_le, h.cleared_le, h.irr⟩
  cases p with
  | task => exact ⟨hslice h.1, h.2⟩
  | leave rest => exact ⟨h.1, h.2.similar ⟨rfl, rfl, rfl, rfl, rfl, fun hz => hz⟩⟩
  | enter rest =>
      obtain ⟨hcode, hpos, hshadow, hstarted, hisTask, hmasked, hhalt, hcount, harmed, hrest⟩ := h
      exact ⟨hcode, hpos, hshadow, hstarted, hisTask, hmasked, hhalt, hcount, harmed,
        fun hr => ⟨hslice (hrest hr).1, (hrest hr).2⟩⟩
  | _ => exact hhalted h

/-- **The next instruction keeps the invariant.** -/
lemma Inv.cpu (hn : n < 2 ^ 32) (h : Inv n m) (hstep : m.step n .cpu = some m') : Inv n m' := by
  obtain ⟨hd, hstep⟩ := Option.ite_none_left_eq_some.mp hstep
  rw [Bool.not_eq_true] at hd
  split at hstep
  case h_1 i rest flag hhandler =>
    cases hstep
    have hne : m.handler ≠ none := by rw [hhandler]; exact nofun
    obtain ⟨habsorb, hi⟩ := (h.absorbing hne).handled hhandler
    exact h.handler hne (same_handled hi rest flag) habsorb nofun
  case h_2 flag hhandler =>
    cases hstep
    have hne : m.handler ≠ none := by rw [hhandler]; exact nofun
    obtain ⟨rfl, habsorb⟩ := (h.absorbing hne).resumed hhandler
    exact h.handler hne (same_resumed true) habsorb fun _ => rfl
  case h_3 i hhandler hp =>
    cases hstep
    rw [Inv, hp] at h
    exact InvAt.moved (p := .body) h.2.2.2
  case h_4 i rest hne hhandler hp =>
    cases hstep
    rw [Inv, hp] at h
    exact InvAt.moved (p := .leave rest) ⟨hne, h.2.2.2⟩
  case h_5 i hhandler hp =>
    cases hstep
    rw [Inv, hp] at h
    have hexec := Entering.exec hn h hd hhandler
    exact InvAt.moved (p := .task) hexec
  case h_6 i rest hne hhandler hp =>
    cases hstep
    rw [Inv, hp] at h
    have hexec := Entering.exec hn h hd hhandler
    rw [if_neg hne] at hexec
    exact InvAt.moved (p := .enter rest) hexec
  case h_7 => cases hstep

/-! ### Runs -/

/-- The start of the way to a task. -/
lemma entering_enterCode (h : Halted m) (hhandler : m.handler = none) (hif : m.interrupts = true)
    (hshadow : m.shadow = false) (hd : m.deliverable = false) :
    Entering n m (enterCode n) := by
  have hlen : (enterCode n).length = 6 := rfl
  have hisr := h.absorbing.isr_eq_false hhandler
  have hirr : m.lapic.irr = false := by
    simpa [Machine.deliverable, hif, hisr, hshadow] using hd
  exact ⟨List.suffix_rfl, by omega, hshadow, fun hr => absurd hr (by omega),
    h.isTask.trans (by simp [hlen]), fun _ => ⟨h.lvt, hirr, hisr, hhandler, hif⟩, fun _ => h.count,
    fun hr => absurd hr (by omega), fun hr => absurd hr (by omega), fun hr => absurd hr (by omega)⟩

/-- **Every event keeps the invariant.** -/
lemma Inv.step (hn : n < 2 ^ 32) (h : Inv n m) {e : Event} (hstep : m.step n e = some m') :
    Inv n m' := by
  cases e with
  | tick =>
      cases hstep
      exact h.ticked
  | irq =>
      obtain ⟨hd, hstep⟩ := Option.ite_none_right_eq_some.mp hstep
      split_ifs at hstep with htask
      · cases hstep
        exact (h.preempt hd htask).2
      · cases hstep
        exact h.absorb hd (Bool.eq_false_iff.mpr htask)
  | cpu => exact h.cpu hn hstep
  | work interrupts =>
      obtain ⟨⟨-, hhandler, hp⟩, hstep⟩ := Option.ite_none_right_eq_some.mp hstep
      cases hstep
      show InvAt n _ m.point
      unfold Inv at h
      rcases hp with hp | hp
      · rw [hp] at h ⊢
        obtain ⟨hslice, hrest⟩ := h
        exact ⟨⟨hslice.lvt, hslice.count, hslice.isr, hslice.started_le, hslice.cleared_le,
          hslice.irr⟩, hrest⟩
      · rw [hp] at h ⊢
        have hhalted : Halted m := h
        have hisr := hhalted.absorbing.isr_eq_false hhandler
        exact ⟨hhalted.lvt, hhalted.count, hhalted.isTask, absorbing_of_none hhandler hisr⟩
  | release =>
      obtain ⟨⟨-, hhandler, hp⟩, hstep⟩ := Option.ite_none_right_eq_some.mp hstep
      cases hstep
      rw [Inv, hp] at h
      exact InvAt.moved (p := .leave releaseCode) ⟨by decide, leaving_release hhandler h.1.isr⟩
  | pop found =>
      obtain ⟨⟨hd, hif, hshadow, hhandler, hp⟩, hstep⟩ := Option.ite_none_right_eq_some.mp hstep
      cases hstep
      rw [Inv, hp] at h
      cases found with
      | true =>
          exact InvAt.moved (p := .enter (enterCode n))
            (entering_enterCode h hhandler hif hshadow hd)
      | false => exact InvAt.moved (p := .idle) h

lemma inv_start {l : Lapic} (hisr : l.isr = false) : Inv n (Machine.start l) :=
  ⟨by decide, leaving_start hisr⟩

/-- **Every run keeps the invariant.** -/
lemma inv_run (hn : n < 2 ^ 32) {es : List Event} (h : Inv n m) (hrun : m.run n es = some m') :
    Inv n m' := by
  induction es generalizing m with
  | nil =>
      cases hrun
      exact h
  | cons e es ih =>
      obtain ⟨m₁, hstep, hrest⟩ := Option.bind_eq_some_iff.mp hrun
      exact ih (h.step hn hstep) hrest

lemma ticks_lt {s : LocalTimer} {us : BitVec 32} (h : s.ticks us = some n) : n < 2 ^ 32 := by
  obtain ⟨-, hmul⟩ := Option.ite_none_right_eq_some.mp h
  obtain ⟨hlt, rfl⟩ := checkedMul_eq_some.mp hmul
  exact hlt

/-- **Time slices.**  The count `n` is that of a second.  Whatever happens in whatever order since
the start of the scheduler: a preemption comes when the ticks of the slice are over, not
before; a task whose timer did not run out before the `cli` of `resume_task` has a timer that
counts down, and when its ticks are over, it executes nothing more with interrupts enabled; a
task whose timer did run out is never preempted. -/
theorem time_slices (s : LocalTimer) (hn : s.ticks 1000000 = some n) {l : Lapic}
    (hisr : l.isr = false) {es : List Event} (hrun : (Machine.start l).run n es = some m) :
    (∀ m', m.step n .irq = some m' → m.isTask = true →
      m.point = .task ∧ m.late < n ∧ n ≤ m.elapsed) ∧
    (m.point = .task → m.late < n → m.elapsed < n →
      m.lapic.masked = false ∧ m.lapic.currentCount.toNat = n - m.elapsed) ∧
    (m.point = .task → m.late < n → n ≤ m.elapsed → m.interrupts = true → m.shadow = false →
      m.step n .irq = some m.preempt ∧ m.step n .release = none ∧
        ∀ interrupts, m.step n (.work interrupts) = none) ∧
    (m.point = .task → n ≤ m.late →
      m.lapic.irr = false ∧ m.lapic.currentCount = 0 ∧ m.step n .irq = none) := by
  have hinv := inv_run (ticks_lt hn) (inv_start hisr) hrun
  have hslice : m.point = .task → Slice n m ∧ m.isTask = true := by
    intro hp
    rw [Inv, hp] at hinv
    exact ⟨hinv.1, hinv.2.1⟩
  refine ⟨fun m' hstep htask => ?_, fun hp _ _ => ?_, fun hp hlate hover hif hshadow => ?_,
    fun hp hlate => ?_⟩
  · obtain ⟨hd, -⟩ := Option.ite_none_right_eq_some.mp hstep
    have hp := (hinv.preempt hd htask).1
    exact ⟨hp, (hslice hp).1.irr.mp (deliverable_iff.mp hd).2.1⟩
  · exact ⟨not_masked_armed (hslice hp).1.lvt, (hslice hp).1.count⟩
  · obtain ⟨hs, htask⟩ := hslice hp
    have hd : m.deliverable = true :=
      deliverable_iff.mpr ⟨hif, hs.irr.mpr ⟨hlate, hover⟩, hs.isr, hshadow⟩
    refine ⟨?_, ?_, fun interrupts => ?_⟩
    · rw [Machine.step, if_pos hd, if_pos htask]
    · simp [Machine.step, hd]
    · simp [Machine.step, hd]
  · obtain ⟨hs, -⟩ := hslice hp
    have hle : m.late ≤ m.elapsed := Nat.sub_le_sub_right hs.cleared_le _
    have hirr : m.lapic.irr = false := by
      rw [Bool.eq_false_iff, Ne, hs.irr]
      omega
    have hd : m.deliverable = false := by simp [Machine.deliverable, hirr]
    refine ⟨hirr, ?_, by simp [Machine.step, hd]⟩
    refine BitVec.eq_of_toNat_eq (hs.count.trans ?_)
    show n - m.elapsed = 0
    omega

/-- The scheduler starts and resumes a task, whose timer has made one of a million ticks. -/
def sampleEvents : List Event :=
  List.replicate 4 Event.cpu ++ [Event.work true, Event.pop true] ++ List.replicate 6 Event.cpu ++
    [Event.tick]

theorem time_slices_counting : ∃ m, (Machine.start resetLapic).run 1000000 sampleEvents = some m ∧
    m.point = .task ∧ m.lapic.masked = false ∧ m.lapic.currentCount.toNat = 999999 := by
  have heval : ((Machine.start resetLapic).run 1000000 sampleEvents).any (fun m =>
      m.point = .task ∧ m.late = 0 ∧ m.elapsed = 1) = true := by
    decide +kernel
  simp only [Option.any_eq_true, decide_eq_true_eq] at heval
  obtain ⟨m, hrun, hp, hlate, helapsed⟩ := heval
  obtain ⟨-, hcounts, -⟩ := time_slices (setUp 1000) (n := 1000000) (by decide)
    (l := resetLapic) rfl hrun
  obtain ⟨hmasked, hcount⟩ := hcounts hp (by omega) (by omega)
  exact ⟨m, hrun, hp, hmasked, by rw [hcount, helapsed]⟩

end Slices

end Titanium
