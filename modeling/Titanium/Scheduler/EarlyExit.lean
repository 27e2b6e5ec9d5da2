import Titanium.Scheduler.Preempt

/-!
A timer interrupt that lands in the scheduler: `scheduler_preempt` from the
interrupt to the `iretq` of its branch for the scheduler.

* `eois`: how often the interrupt is acknowledged.
* `instrs_return`: the branch returns to where the scheduler was.
* `interrupt_invisible_iff`: **the scheduler finds everything as it was but
  `rax`, `r14` and `r15`**: the first is zeroed after it has been restored, the
  others are used and not saved.
-/

namespace Titanium

/-- The instruction at the program counter. -/
def Machine.fetch (m : Machine) : Option Instr :=
  match m.pc with
  | .code (.asm r i) => (code r)[i]?
  | _ => none

namespace Image

variable (I : Image)

/-- How many of the next `n` instructions store to `LAPIC_EOI_ADDR`. -/
def eois : ℕ → Machine → ℕ
  | 0, _ => 0
  | n + 1, m => (if m.fetch = some .eoi then 1 else 0) + (I.instr m).elim 0 (eois n)

/-- The timer interrupt can be delivered to the scheduler, with room for the frame and the three
registers on the stack `stack`. -/
structure Interruptible (m : Machine) (stack : Word) : Prop where
  pc_valid : I.ValidPc m.pc
  started : m.started = true
  acknowledged : m.inService = false
  enabled : m.rflags.interrupts = true
  current : m.currentTaskPtr = I.schedulerTask
  id : (m.info I.schedulerTask).taskId = .ofNat 64 taskIdScheduler
  on : I.stackMap.On stack m.rsp
  room : I.stackMap.Room stack m.aligned 8

variable {I} {m m' : Machine} {stack : Word}

/-! ### Counting -/

lemma eois_add (n k : ℕ) (m : Machine) :
    I.eois (n + k) m = I.eois n m + (I.instrs n m).elim 0 (I.eois k) := by
  induction n generalizing m with
  | zero => simp [eois, instrs]
  | succ n ih =>
      rw [Nat.succ_add, eois, eois, instrs]
      cases I.instr m with
      | none => rfl
      | some m₁ => simp only [Option.elim_some, Option.bind_some, ih, Nat.add_assoc]

lemma eois_straight {r : Routine} {i : ℕ} {is : List Instr} (hpc : m.pc = .asm r i)
    (hcode : StraightCode r i is) (hrun : I.instrs is.length m = some m') :
    I.eois is.length m = is.count .eoi := by
  induction is generalizing m i with
  | nil => rfl
  | cons ins is ih =>
      obtain ⟨hins, htail⟩ := hcode.tail
      obtain ⟨m₁, h₁, hrun⟩ := Option.bind_eq_some_iff.mp hrun
      have hfetch : m.fetch = some ins := by
        rw [Machine.fetch, hpc]
        exact hins
      have hexec := h₁
      rw [instr_eq_exec hpc hins (hcode.plain 0 (Nat.succ_pos _))] at hexec
      have hpc₁ : m₁.pc = .asm r (i + 1) := by
        rw [(exec_straight (hcode.straight ins (List.mem_cons_self ..)) hexec).pc, hpc]
        rfl
      rw [List.length_cons, eois, h₁, Option.elim_some, ih hpc₁ htail hrun, hfetch,
        List.count_cons, Nat.add_comm]
      simp only [Option.some.injEq, beq_iff_eq]

lemma eois_one (m : Machine) : I.eois 1 m = if m.fetch = some .eoi then 1 else 0 := by
  rw [eois]
  cases I.instr m <;> rfl

/-! ### The branch for the scheduler -/

variable (I) in
/-- `scheduler_preempt` at its branch for the scheduler. -/
def spared (m : Machine) : Machine :=
  { (I.delivered m).checked with pc := .asm .schedulerPreempt 32 }

variable (I) in
/-- The scheduler goes on. -/
def returned (m : Machine) : Machine :=
  { I.spared m with
    pc := m.pc
    reg := Function.update m.clobbered .rax 0
    rflags := m.rflags
    rsp := m.rsp
    inService := false }

lemma Interruptible.room_split (h : I.Interruptible m stack) :
    I.stackMap.Room stack m.aligned 5 ∧ I.stackMap.Room stack (Word.down m.aligned 5) 3 :=
  StackMap.Room.of_add (show I.stackMap.Room stack m.aligned (5 + 3) from h.room)

lemma Interruptible.currentId_eq (h : I.Interruptible m stack) :
    m.currentId = .ofNat 64 taskIdScheduler := by
  rw [Machine.currentId, h.current, h.id]

lemma instrs_spared (h : I.Interruptible m stack) :
    I.instrs 8 (I.delivered m) = some (I.spared m) := by
  obtain ⟨h5, h3⟩ := h.room_split
  rw [instrs_branch h5 h3, if_pos h.currentId_eq]
  rfl

/-- What the branch for the scheduler finds on the stack. -/
lemma spared_words (h : I.Interruptible m stack) :
    I.stackMap.Words (I.spared m).mem stack (I.spared m).rsp
      ([m.reg .rcx, m.reg .rax] ++ (m.rflags.handlerFlags :: (I.isf m ++ []))) := by
  obtain ⟨h5, h3⟩ := h.room_split
  have hempty : I.stackMap.Words m.mem stack m.aligned [] := StackMap.Words.nil
  have hframe := hempty.pushAll h5 (show (I.isf m).reverse.length = 5 from rfl)
  exact hframe.pushAll h3
    (show [m.rflags.handlerFlags, m.reg .rax, m.reg .rcx].length = 3 from rfl)

lemma instrs_returned (h : I.Interruptible m stack) :
    I.instrs 7 (I.spared m) = some (I.returned m) := by
  have hregs : Function.update (Function.update (I.spared m).reg .rcx (m.reg .rcx)) .rax 0 =
      Function.update m.clobbered .rax 0 := by
    have hrcx : (I.spared m).reg .rcx = m.reg .rcx := rfl
    rw [← hrcx, Function.update_eq_self]
    rfl
  refine (instrs_early (m := I.spared m) rfl (spared_words h)).trans ?_
  rw [hregs, decode_address h.pc_valid]
  rfl

/-- **The branch returns to where the scheduler was.** -/
lemma instrs_return (h : I.Interruptible m stack) :
    I.instrs 15 (I.delivered m) = some (I.returned m) := by
  rw [I.instrs_add 8 7, instrs_spared h, Option.bind_some, instrs_returned h]

lemma eois_return (h : I.Interruptible m stack) : I.eois 15 (I.delivered m) = 1 := by
  obtain ⟨h5, h3⟩ := h.room_split
  have hcheck : StraightCode .schedulerPreempt 0 ((code .schedulerPreempt).take 7) :=
    ⟨by decide, by decide, by decide⟩
  have hexit : StraightCode .schedulerPreempt 32 (((code .schedulerPreempt).drop 32).take 6) :=
    ⟨by decide, by decide, by decide⟩
  obtain ⟨m₁, h₁, -⟩ :=
    Option.bind_eq_some_iff.mp ((I.instrs_add 6 1 _).symm.trans (instrs_returned h))
  obtain ⟨hpc₁, -⟩ := instrs_keep (m := I.spared m) rfl hexit (le_refl 6) h₁
  have hsix : I.eois 6 (I.spared m) = 1 := eois_straight rfl hexit h₁
  have hexits : I.eois 7 (I.spared m) = 1 := by
    rw [I.eois_add 6 1, hsix, h₁, Option.elim_some, eois_one, Machine.fetch, hpc₁]
    rfl
  have hchecks : I.eois 8 (I.delivered m) = 0 := by
    rw [I.eois_add 7 1, instrs_checked h5 h3, Option.elim_some, eois_one]
    exact congrArg (· + 0) (eois_straight rfl hcheck (instrs_checked h5 h3))
  rw [I.eois_add 8 7, hchecks, instrs_spared h, Option.elim_some, hexits]

/-- The stack at and above the interrupted `rsp`, and every other stack, stay as they were. -/
lemma returned_mem (h : I.Interruptible m stack) {b : ℕ}
    (hb : I.stackMap.owner b = some stack → m.rsp.toNat ≤ b) :
    (I.returned m).mem b = m.mem b := by
  obtain ⟨h5, h3⟩ := h.room_split
  have halign : m.aligned.toNat ≤ m.rsp.toNat := by
    rw [Machine.aligned, Word.toNat_align]
    exact Nat.sub_le _ _
  have hdown := h5.toNat_down
  have hthree : (I.returned m).mem b = (I.delivered m).mem b :=
    StackMap.pushAll_of_outside h3 fun ho => by
      show (Word.down m.aligned 5).toNat ≤ b
      have := hb ho
      omega
  rw [hthree]
  exact StackMap.pushAll_of_outside h5 fun ho => halign.trans (hb ho)

lemma returned_reg_iff (h : I.Interruptible m stack) :
    (I.returned m).reg = m.reg ↔ m.reg .rax = 0 ∧ m.reg .r14 = .ofNat 64 taskIdScheduler ∧
      m.reg .r15 = .ofNat 64 taskIdScheduler := by
  have hid := h.currentId_eq
  refine ⟨fun heq => ⟨(congrFun heq .rax).symm, (congrFun heq .r14).symm, ?_⟩,
    fun ⟨hax, h14, h15⟩ => ?_⟩
  · exact (congrFun heq .r15).symm.trans hid
  · have hclob : m.clobbered = m.reg := m.clobbered_eq_iff.mpr ⟨h14, h15.trans hid.symm⟩
    show Function.update m.clobbered .rax 0 = m.reg
    rw [hclob, ← hax, Function.update_eq_self]

end Image

/-- The scheduler is in `run_scheduler`, with the given registers. -/
def schedulerMachine (reg : Reg → Word) : Machine :=
  { sampleMachine reg with pc := .rust .runScheduler, rsp := 0x114f00, currentTaskPtr := 0x4000 }

lemma schedulerMachine_interruptible (reg : Reg → Word) :
    sampleImage.Interruptible (schedulerMachine reg) 0x4000 where
  pc_valid := trivial
  started := rfl
  acknowledged := rfl
  enabled := (by decide : Word.interrupts 0x202 = true)
  current := rfl
  id := rfl
  on := (by decide +kernel : sampleImage.stackMap.On 0x4000 0x114f00)
  room := (by decide +kernel : sampleImage.stackMap.Room 0x4000 (0x114f00 &&& ~~~0xf#64) 8)

namespace Image

variable {I : Image} {m : Machine} {stack : Word}

/-- **A timer interrupt that lands in the scheduler** is served with one acknowledgement and
returns to the same place with the same `rsp` and `rflags`, the queue, the task pointers, and the
memory but for the free part of the stack as they were.  The registers are as they were exactly
when `rax` was zero and `r14` and `r15` held the task id of the scheduler. -/
theorem interrupt_invisible_iff (h : I.Interruptible m stack) :
    ∃ m₀ m', I.step m .timer = some m₀ ∧ I.instrs 15 m₀ = some m' ∧ I.eois 15 m₀ = 1 ∧
      m'.pc = m.pc ∧ m'.rsp = m.rsp ∧ m'.rflags = m.rflags ∧
      m'.taskQueue = m.taskQueue ∧ m'.currentTaskPtr = m.currentTaskPtr ∧
      m'.staleTaskPtr = m.staleTaskPtr ∧
      (∀ b, (I.stackMap.owner b = some stack → m.rsp.toNat ≤ b) → m'.mem b = m.mem b) ∧
      (m'.reg = m.reg ↔ m.reg .rax = 0 ∧ m.reg .r14 = .ofNat 64 taskIdScheduler ∧
        m.reg .r15 = .ofNat 64 taskIdScheduler) := by
  have hdeliver := step_timer h.started h.acknowledged h.enabled h.on h.room_split.1
  exact ⟨I.delivered m, I.returned m, hdeliver, instrs_return h, eois_return h, rfl, rfl, rfl, rfl,
    rfl, rfl, fun b hb => returned_mem h hb, returned_reg_iff h⟩

/-- Registers that the branch for the scheduler does not change. -/
def schedulerIds : Reg → Word
  | .rax => 0
  | .r14 => .ofNat 64 taskIdScheduler
  | .r15 => .ofNat 64 taskIdScheduler
  | _ => 7

theorem interrupt_invisible_schedulerIds :
    ∃ m₀ m', sampleImage.step (schedulerMachine schedulerIds) .timer = some m₀ ∧
      sampleImage.instrs 15 m₀ = some m' ∧ m'.reg = (schedulerMachine schedulerIds).reg := by
  obtain ⟨m₀, m', h₀, h', -, -, -, -, -, -, -, -, hiff⟩ :=
    interrupt_invisible_iff (schedulerMachine_interruptible schedulerIds)
  exact ⟨m₀, m', h₀, h', hiff.mpr ⟨rfl, rfl, rfl⟩⟩

/-- With other values the scheduler loses `rax`, `r14` and `r15`. -/
theorem interrupt_clobbers_scheduler :
    sampleImage.Interruptible (schedulerMachine fun _ => 7) 0x4000 ∧
      (sampleImage.run (schedulerMachine fun _ => 7) (.timer :: List.replicate 15 .instr)).map
        (fun m => (m.pc, m.rsp, m.reg .rax, m.reg .r14, m.reg .r15)) =
          some (.rust .runScheduler, 0x114f00, 0, 0x8000ffffffffffff, 0x8000ffffffffffff) :=
  ⟨schedulerMachine_interruptible _, by decide +kernel⟩

end Image

end Titanium
