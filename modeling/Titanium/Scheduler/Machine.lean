import Titanium.Lib.WordStack
import Titanium.Scheduler.Switch
import Titanium.Vmem

/-!
The scheduler at the granularity of instructions (`scheduler.rs`).

The assembly of `spawn_task`, `release_task`, `scheduler_preempt`, the two
`scheduler_jump_out` and `resume_task` is given as it stands, instruction by
instruction; the Rust code between them is given by what it does to the statics
of the scheduler.  Compiled code leaves arbitrary values in the registers, the
flags and its own stack: that is the `Scratch` an event carries.

The timer interrupt can be delivered at every instruction boundary where `IF` is
set and the previous one has been acknowledged.  The gate is a trap gate, so
`scheduler_preempt` runs with `IF` as it was.

Task infos and the statics of the scheduler do not lie on stacks, so they are
fields of the machine and not part of its memory.  `frames` is no part of the
program either: it remembers which interrupt frames have been saved for a task
and have not been consumed.  `Refinement` leads back to the model of switches.
-/

namespace Titanium

/-! ### Registers and flags -/

/-- The general registers, without `rsp`. -/
inductive Reg where
  | rax | rbx | rcx | rdx | rsi | rdi | rbp
  | r8 | r9 | r10 | r11 | r12 | r13 | r14 | r15
  deriving DecidableEq, Repr

namespace Word

/-- `CF`. -/
def carry (w : Word) : Bool := w.getLsbD 0

/-- `ZF`. -/
def zero (w : Word) : Bool := w.getLsbD 6

/-- `IF`. -/
def interrupts (w : Word) : Bool := w.getLsbD 9

/-- `PF` of a result. -/
def parity (res : Word) : Bool := ((List.range 8).filter fun i => res.getLsbD i).length % 2 = 0

/-- The flags after an arithmetic instruction with result `res`. -/
def arith (flags res : Word) (cf af of : Bool) : Word :=
  (((((flags.setBit 0 cf).setBit 2 res.parity).setBit 4 af).setBit 6 (res = 0)).setBit 7
    res.msb).setBit 11 of

/-- The flags after `cmp a, b`. -/
def cmpFlags (flags a b : Word) : Word :=
  arith flags (a - b) (a.toNat < b.toNat) (a.toNat % 16 < b.toNat % 16)
    (a.msb != b.msb && (a - b).msb != a.msb)

/-- The flags after `add a, b`. -/
def addFlags (flags a b : Word) : Word :=
  arith flags (a + b) (2 ^ 64 ≤ a.toNat + b.toNat) (16 ≤ a.toNat % 16 + b.toNat % 16)
    (a.msb == b.msb && (a + b).msb != a.msb)

/-- The flags in an interrupt handler behind a trap gate: `TF`, `NT`, `RF` and
`VM` are cleared. -/
def handlerFlags (flags : Word) : Word :=
  (((flags.setBit 8 false).setBit 14 false).setBit 16 false).setBit 17 false

end Word

/-! ### Code -/

/-- The blocks of assembly. -/
inductive Routine where
  | spawnTask | releaseTask | releaseJumpOut | schedulerPreempt | preemptJumpOut | resumeTask
  deriving DecidableEq, Repr

/-- Places in the Rust code of the scheduler: the start of `resume_scheduler`,
the point after it has enabled interrupts, the start of `run_scheduler`, and its
loop around `hlt`. -/
inductive RustPoint where
  | resumeScheduler | recording | runScheduler | halted
  deriving DecidableEq, Repr

/-- A place in the code that is modelled. -/
inductive Label where
  | asm (r : Routine) (i : ℕ)
  | rust (f : RustPoint)
  deriving DecidableEq, Repr

/-- What an instruction can read. -/
inductive Src where
  | reg (r : Reg)
  | imm (w : Word)
  | rsp
  | rflags
  /-- `CURRENT_TASK_PTR`. -/
  | currentTaskPtr
  /-- `HHDM_TOP_ADDR_INNER`. -/
  | hhdmTopAddr
  /-- The address of `SCHEDULER_TASK`. -/
  | schedulerTask
  /-- The address of `end_task`. -/
  | endTask
  /-- The address of a place in the code. -/
  | addr (l : Label)
  /-- `[r + offset_of!(TaskInfo, sp)]`. -/
  | sp (r : Reg)
  /-- `[r + offset_of!(TaskInfo, task_id)]`. -/
  | taskId (r : Reg)
  deriving DecidableEq, Repr

/-- The instructions that the assembly uses. -/
inductive Instr where
  | push (src : Src)
  | pop (r : Reg)
  | popfq
  | mov (r : Reg) (src : Src)
  | movRsp (src : Src)
  | add (r : Reg) (w : Word)
  | cmp (a b : Reg)
  /-- `mov CURRENT_TASK_PTR, r`. -/
  | storeCurrent (r : Reg)
  /-- `mov STALE_TASK_PTR, r`. -/
  | storeStale (r : Reg)
  /-- `btr [r + offset_of!(TaskInfo, flags)], 0`. -/
  | btr (r : Reg)
  | je (i : ℕ)
  | jnc (i : ℕ)
  | cli
  | sti
  /-- The store to `LAPIC_EOI_ADDR`. -/
  | eoi
  | iretq
  | call (f : RustPoint)
  deriving DecidableEq, Repr

/-- The code segment selector. -/
def cs : Word := 0x08

/-- The stack segment selector. -/
def ss : Word := 0x10

/-- `SCHEDULER_SP_OFFSET`. -/
def schedulerSpOffset : ℕ := schedulerStackBottomOffset + (schedulerStackSize + 1) * pageSize

namespace Instr

/-- `pushfq`. -/
def pushfq : Instr := .push .rflags

/-- `push r`. -/
def pushReg (r : Reg) : Instr := .push (.reg r)

end Instr

open Instr in
/-- The assembly, block by block. -/
def code : Routine → List Instr
  | .spawnTask => [
      .mov .rdx .rsp,
      .movRsp (.reg .rsi),
      .mov .rax .endTask,
      pushReg .rax,
      -- interrupt stack frame
      .mov .rax .rsp,
      .push (.imm ss),
      pushReg .rax,
      pushfq,
      .push (.imm cs),
      pushReg .rdi,
      -- standard stack frame
      .push (.imm 0), .push (.imm 0), .push (.imm 0), .push (.imm 0), .push (.imm 0),
      .push (.imm 0),
      .mov .rax .rsp,
      .movRsp (.reg .rdx)]
  | .releaseTask => [
      .cli,
      -- interrupt frame for returning to the current task, at `2:`
      .mov .rax .rsp,
      .push (.imm ss),
      pushReg .rax,
      pushfq,
      .push (.imm cs),
      .mov .rax (.addr (.asm .releaseTask 23)),
      pushReg .rax,
      -- standard stack frame
      pushReg .rbx, pushReg .rbp, pushReg .r12, pushReg .r13, pushReg .r14, pushReg .r15,
      .mov .rdi .rsp,
      -- interrupt stack frame
      .push (.imm ss),
      .mov .rax .schedulerTask,
      .push (.sp .rax),
      pushfq,
      .push (.imm cs),
      .mov .rax (.addr (.asm .releaseJumpOut 0)),
      pushReg .rax,
      .iretq]
  | .releaseJumpOut => [
      .cli,
      .mov .rax .schedulerTask,
      .storeCurrent .rax,
      .call .resumeScheduler]
  | .schedulerPreempt => [
      pushfq,
      pushReg .rax,
      pushReg .rcx,
      -- are we interrupting the scheduler?
      .mov .r15 .currentTaskPtr,
      .mov .r15 (.taskId .r15),
      .mov .r14 (.imm (.ofNat 64 taskIdScheduler)),
      .cmp .r14 .r15,
      .je 32,
      pushReg .rdx, pushReg .rsi, pushReg .rdi, pushReg .r8, pushReg .r9, pushReg .r10,
      pushReg .r11,
      -- standard stack frame
      pushReg .rbx, pushReg .rbp, pushReg .r12, pushReg .r13, pushReg .r14, pushReg .r15,
      -- arguments of `resume_scheduler`
      .mov .rdi .rsp,
      .mov .rsi (.imm 0b10),
      -- interrupt stack frame
      .push (.imm ss),
      .mov .rax .hhdmTopAddr,
      .add .rax (.ofNat 64 schedulerSpOffset),
      pushReg .rax,
      pushfq,
      .push (.imm cs),
      .mov .rax (.addr (.asm .preemptJumpOut 0)),
      pushReg .rax,
      .iretq,
      -- `2:`, in case we are interrupting the scheduler
      .pop .rcx,
      .pop .rax,
      .popfq,
      .cli,
      .mov .rax (.imm 0),
      .eoi,
      .iretq]
  | .preemptJumpOut => [
      .cli,
      .mov .rax .schedulerTask,
      .storeCurrent .rax,
      .mov .rax (.imm 0),
      .eoi,
      .call .resumeScheduler]
  | .resumeTask => [
      .cli,
      .movRsp (.sp .rdi),
      .storeCurrent .rdi,
      .storeStale .rdi,
      .sti,
      -- standard stack frame
      .pop .r15, .pop .r14, .pop .r13, .pop .r12, .pop .rbp, .pop .rbx,
      .btr .rdi,
      .jnc 23,
      -- the rest of the preempted stack frame
      .pop .r11, .pop .r10, .pop .r9, .pop .r8, .pop .rdi, .pop .rsi, .pop .rdx, .pop .rcx,
      .pop .rax,
      .popfq,
      -- `2:`
      .iretq]

/-- A place that exists; the end of a block is where it returns to Rust. -/
def Label.Valid : Label → Prop
  | .asm r i => i ≤ (code r).length
  | .rust _ => True

/-- The program counter: a place in the modelled code, or an address of other
code. -/
inductive Pc where
  | code (l : Label)
  | user (a : Word)
  deriving DecidableEq, Repr

/-- An instruction of a block. -/
abbrev Pc.asm (r : Routine) (i : ℕ) : Pc := .code (.asm r i)

/-- A place in the Rust code. -/
abbrev Pc.rust (f : RustPoint) : Pc := .code (.rust f)

/-- The next instruction. -/
def Pc.next : Pc → Pc
  | .code (.asm r i) => .asm r (i + 1)
  | pc => pc

/-- Another instruction of the block. -/
def Pc.jump (i : ℕ) : Pc → Pc
  | .code (.asm r _) => .asm r i
  | pc => pc

/-! ### The machine -/

/-- Where things are: the code, the stacks (by the address of the task info they
belong to, the boot code's by the null pointer), and some statics. -/
structure Image where
  addr : Label → Word
  label : Word → Option Label
  label_addr : ∀ l, l.Valid → label (addr l) = some l
  stackMap : StackMap Word
  schedulerTask : Word
  schedulerTask_ne : schedulerTask ≠ 0
  hhdmTopAddr : Word
  endTask : Word
  scheduler_stack :
    stackMap.On schedulerTask (hhdmTopAddr + BitVec.ofNat 64 schedulerSpOffset)

/-- A `TaskInfo`, with the flag `INTERRUPTED`. -/
structure RawTaskInfo where
  sp : Word
  taskId : Word
  interrupted : Bool
  deriving DecidableEq, Repr

/-- An interrupt frame: where it was saved, and its five words. -/
structure SavedFrame where
  addr : Word
  words : List Word
  deriving DecidableEq, Repr

/-- The machine, and the statics of the scheduler. -/
structure Machine where
  pc : Pc
  reg : Reg → Word
  rsp : Word
  rflags : Word
  mem : Mem
  /-- The task infos, by address. -/
  info : Word → RawTaskInfo
  currentTaskPtr : Word
  staleTaskPtr : Word
  taskQueue : List Word
  nextTaskId : ℕ
  /-- The task infos that were leaked by `spawn_task`. -/
  allocated : List Word
  /-- `task_info` in a `spawn_task` that has not returned, by the task that called it. -/
  building : Word → Option Word
  /-- The arguments of `resume_scheduler`. -/
  released : Word × ResumeKind
  /-- `start_scheduler` has installed the handler. -/
  started : Bool
  /-- The timer interrupt has not been acknowledged. -/
  inService : Bool
  /-- The interrupt frames saved for a task, the last one first. -/
  frames : Word → List SavedFrame

namespace Image

variable (I : Image)

/-- The address of a place. -/
def address : Pc → Word
  | .code l => I.addr l
  | .user a => a

/-- The place at an address. -/
def decode (a : Word) : Pc :=
  match I.label a with
  | some l => .code l
  | none => .user a

/-- A place that exists, or an address outside of the modelled code. -/
def ValidPc : Pc → Prop
  | .code l => l.Valid
  | .user a => I.label a = none

/-- The stack pointer of the scheduler. -/
def schedulerSp : Word := I.hhdmTopAddr + BitVec.ofNat 64 schedulerSpOffset

/-- The value of an operand. -/
def val (m : Machine) : Src → Word
  | .reg r => m.reg r
  | .imm w => w
  | .rsp => m.rsp
  | .rflags => m.rflags
  | .currentTaskPtr => m.currentTaskPtr
  | .hhdmTopAddr => I.hhdmTopAddr
  | .schedulerTask => I.schedulerTask
  | .endTask => I.endTask
  | .addr l => I.addr l
  | .sp r => (m.info (m.reg r)).sp
  | .taskId r => (m.info (m.reg r)).taskId

/-- A push; off the stack it faults. -/
def push (m : Machine) (w : Word) : Option Machine :=
  if (I.stackMap.wordOwner (m.rsp - 8)).isSome then
    some { m with rsp := m.rsp - 8, mem := m.mem.store (m.rsp - 8) w }
  else none

/-- The word at an address, to be popped; off the stack it faults. -/
def read (m : Machine) (a : Word) : Option Word :=
  if (I.stackMap.wordOwner a).isSome then some (m.mem.load a) else none

/-- `iretq`; another selector than the kernel's faults. -/
def iretq (m : Machine) : Option Machine := do
  let rip ← I.read m m.rsp
  let cs' ← I.read m (m.rsp + 8)
  let rflags ← I.read m (m.rsp + 8 + 8)
  let rsp ← I.read m (m.rsp + 8 + 8 + 8)
  let ss' ← I.read m (m.rsp + 8 + 8 + 8 + 8)
  if cs' = cs ∧ ss' = ss then
    some { m with pc := I.decode rip, rflags := rflags, rsp := rsp }
  else none

end Image

namespace Machine

/-- On to the next instruction. -/
def next (m : Machine) : Machine := { m with pc := m.pc.next }

/-- A write to a register. -/
def set (m : Machine) (r : Reg) (w : Word) : Machine := { m with reg := Function.update m.reg r w }

/-- The frame on top of the stack is saved for `task`. -/
def save (m : Machine) (task : Word) : Machine :=
  { m with
    frames := Function.update m.frames task (⟨m.rsp, m.mem.loads m.rsp 5⟩ :: m.frames task) }

end Machine

namespace Image

variable (I : Image)

/-- One instruction. -/
def exec (m : Machine) : Instr → Option Machine
  | .push src => (I.push m (I.val m src)).map .next
  | .pop r => (I.read m m.rsp).map fun w => ({ m with rsp := m.rsp + 8 }.set r w).next
  | .popfq => (I.read m m.rsp).map fun w => { m with rsp := m.rsp + 8, rflags := w }.next
  | .mov r src => some (m.set r (I.val m src)).next
  | .movRsp src => some { m with rsp := I.val m src }.next
  | .add r w =>
      some ({ m with rflags := m.rflags.addFlags (m.reg r) w }.set r (m.reg r + w)).next
  | .cmp a b => some { m with rflags := m.rflags.cmpFlags (m.reg a) (m.reg b) }.next
  | .storeCurrent r => some { m with currentTaskPtr := m.reg r }.next
  | .storeStale r => some { m with staleTaskPtr := m.reg r }.next
  | .btr r =>
      some { m with
        rflags := m.rflags.setBit 0 (m.info (m.reg r)).interrupted
        info := Function.update m.info (m.reg r)
          { m.info (m.reg r) with interrupted := false } }.next
  | .je i => some (if m.rflags.zero then { m with pc := m.pc.jump i } else m.next)
  | .jnc i => some (if m.rflags.carry then m.next else { m with pc := m.pc.jump i })
  | .cli => some { m with rflags := m.rflags.setBit 9 false }.next
  | .sti => some { m with rflags := m.rflags.setBit 9 true }.next
  | .eoi => some { m with inService := false }.next
  | .iretq => I.iretq m
  | .call f => (I.push m (I.address m.pc.next)).map fun m' => { m' with pc := .rust f }

/-- What the instruction at a place means for the saved frames: the fifth push of
an interrupt frame saves it, and the last instruction of `resume_task` consumes
one. -/
def note (r : Routine) (i : ℕ) (m : Machine) : Machine :=
  match r, i with
  | .releaseTask, 7 => m.save m.currentTaskPtr
  | .spawnTask, 9 => (m.building m.currentTaskPtr).elim m m.save
  | .resumeTask, 23 =>
      { m with
        frames := Function.update m.frames m.currentTaskPtr (m.frames m.currentTaskPtr).tail }
  | _, _ => m

/-- The next instruction of the assembly. -/
def instr (m : Machine) : Option Machine :=
  match m.pc with
  | .code (.asm r i) => (code r)[i]?.bind fun ins => (I.exec m ins).map (note r i)
  | _ => none

/-- The processor enters the handler of the timer interrupt, with the interrupt
frame on the stack.  A frame of the scheduler's is not saved for a task. -/
def enterHandler (m : Machine) : Machine :=
  { if m.currentTaskPtr = I.schedulerTask then m else m.save m.currentTaskPtr with
    pc := .asm .schedulerPreempt 0
    rflags := m.rflags.handlerFlags
    inService := true }

/-- The processor delivers the timer interrupt: the stack is aligned to 16
bytes, and five words are pushed. -/
def deliver (m : Machine) : Option Machine :=
  ([ss, m.rsp, m.rflags, cs, I.address m.pc].foldlM I.push
    { m with rsp := m.rsp &&& ~~~0xf#64 }).map I.enterHandler

/-- What compiled code leaves behind: registers, flags, and bytes on its stack. -/
structure Scratch where
  reg : Reg → Word
  rsp : Word
  rflags : Word
  writes : List (ℕ × UInt8)

/-- Compiled code has run on the stack of `task`. -/
def scratch (task : Word) (x : Scratch) (m : Machine) : Option Machine :=
  if I.stackMap.On task x.rsp ∧ ∀ w ∈ x.writes, I.stackMap.owner w.1 = some task then
    some { m with
      reg := x.reg
      rsp := x.rsp
      rflags := x.rflags
      mem := x.writes.foldl (fun mem w => Function.update mem w.1 w.2) m.mem }
  else none

/-- `ResumedState::resume_kind`. -/
def resumeKind (flags : Word) : ResumeKind :=
  match flags.toNat % 4 with
  | 0 => .blocked
  | 1 => .yielded
  | 2 => .preempted
  | _ => .complete

/-- What can happen. -/
inductive Event where
  /-- The next instruction of the assembly. -/
  | instr
  /-- The timer interrupt. -/
  | timer
  /-- A task, or the boot code, goes on to the address `a`. -/
  | work (x : Scratch) (a : Word)
  /-- A task calls `release_task`. -/
  | callRelease (x : Scratch)
  /-- `spawn_task` has made its task info and its stack, and comes to the assembly. -/
  | callSpawn (x : Scratch) (taskInfo stackPtr taskAddr : Word) (options priority : ℕ)
  /-- `spawn_task` after the assembly. -/
  | spawned (x : Scratch) (a : Word)
  /-- `start_scheduler`. -/
  | start (x : Scratch)
  /-- `resume_scheduler` enables interrupts. -/
  | enter (x : Scratch)
  /-- `resume_scheduler` records the released task. -/
  | record (x : Scratch)
  /-- `run_scheduler`. -/
  | dispatch (x : Scratch)

/-- One step, `none` when the event cannot happen or faults. -/
def step (m : Machine) : Event → Option Machine
  | .instr => I.instr m
  | .timer =>
      if m.started ∧ ¬m.inService ∧ m.rflags.interrupts then I.deliver m else none
  | .work x a =>
      match m.pc with
      | .user _ | .asm .releaseTask 23 =>
          if I.label a = none then
            (I.scratch m.currentTaskPtr x m).map fun m => { m with pc := .user a }
          else none
      | _ => none
  | .callRelease x =>
      match m.pc with
      | .user _ =>
          if m.started ∧ resumeKind (x.reg .rsi) ≠ .preempted then
            (I.scratch m.currentTaskPtr x m).map fun m => { m with pc := .asm .releaseTask 0 }
          else none
      | _ => none
  | .callSpawn x taskInfo stackPtr taskAddr options priority =>
      match m.pc with
      | .user _ =>
          if (options &&& kernelTask = kernelTask ∧ priority < 8 ∧ m.nextTaskId ≤ maxTaskId) ∧
              (taskInfo ∉ m.allocated ∧ taskInfo ≠ 0 ∧ taskInfo ≠ I.schedulerTask) ∧
              I.stackMap.owner (stackPtr.toNat - 1) = some taskInfo ∧ I.label taskAddr = none ∧
              x.reg .rdi = taskAddr ∧ x.reg .rsi = stackPtr then
            (I.scratch m.currentTaskPtr x m).map fun m =>
              { m with
                pc := .asm .spawnTask 0
                info := Function.update m.info taskInfo
                  ⟨stackPtr, .ofNat 64 (makeTaskId options m.nextTaskId priority), false⟩
                nextTaskId := m.nextTaskId + 1
                allocated := taskInfo :: m.allocated
                building := Function.update m.building m.currentTaskPtr (some taskInfo) }
          else none
      | _ => none
  | .spawned x a =>
      match m.pc, m.building m.currentTaskPtr with
      | .asm .spawnTask 18, some taskInfo =>
          if I.label a = none then
            (I.scratch m.currentTaskPtr x m).map fun m' =>
              { m' with
                pc := .user a
                info := Function.update m.info taskInfo { m.info taskInfo with sp := m.reg .rax }
                taskQueue := m.taskQueue ++ [taskInfo]
                building := Function.update m.building m.currentTaskPtr none }
          else none
      | _, _ => none
  | .start x =>
      match m.pc with
      | .user _ =>
          if m.started then none
          else (I.scratch I.schedulerTask x m).map fun m =>
            { m with
              pc := .rust .runScheduler
              currentTaskPtr := I.schedulerTask
              staleTaskPtr := I.schedulerTask
              started := true }
      | _ => none
  | .enter x =>
      if m.pc = .rust .resumeScheduler then
        (I.scratch I.schedulerTask x m).map fun m' =>
          { m' with
            pc := .rust .recording
            released := (m.reg .rdi, resumeKind (m.reg .rsi)) }
      else none
  | .record x =>
      if m.pc = .rust .recording then
        (I.scratch I.schedulerTask x m).map fun m =>
          let taskPtr := m.staleTaskPtr
          { m with
            pc := .rust .runScheduler
            info := Function.update m.info taskPtr
              { m.info taskPtr with
                interrupted := (m.info taskPtr).interrupted || m.released.2 = .preempted
                sp := m.released.1 }
            taskQueue :=
              if m.released.2 = .preempted ∨ m.released.2 = .yielded then m.taskQueue ++ [taskPtr]
              else m.taskQueue }
      else none
  | .dispatch x =>
      if m.pc = .rust .runScheduler then
        (I.scratch I.schedulerTask x m).map fun m =>
          match m.taskQueue with
          | taskPtr :: rest =>
              { m.set .rdi taskPtr with pc := .asm .resumeTask 0, taskQueue := rest }
          | [] => { m with pc := .rust .halted }
      else none

/-- A run. -/
def run (m : Machine) (es : List Event) : Option Machine := es.foldlM I.step m

/-- The machine when the boot code has come to `a`, with `SCHEDULER_TASK` made by
`scheduler::init`. -/
def boot (x : Scratch) (mem : Mem) (a : Word) : Machine where
  pc := .user a
  reg := x.reg
  rsp := x.rsp
  rflags := x.rflags
  mem := mem
  info _ := ⟨I.schedulerSp, .ofNat 64 taskIdScheduler, false⟩
  currentTaskPtr := 0
  staleTaskPtr := 0
  taskQueue := []
  nextTaskId := firstTaskId
  allocated := []
  building _ := none
  released := (0, .blocked)
  started := false
  inService := false
  frames _ := []

end Image

/-! ### A sample image -/

/-- The places of the modelled code. -/
def allLabels : List Label :=
  ([Routine.spawnTask, .releaseTask, .releaseJumpOut, .schedulerPreempt, .preemptJumpOut,
    .resumeTask].flatMap fun r => (List.range ((code r).length + 1)).map (.asm r)) ++
    [.rust .resumeScheduler, .rust .recording, .rust .runScheduler, .rust .halted]

lemma mem_allLabels {l : Label} (h : l.Valid) : l ∈ allLabels := by
  cases l with
  | asm r i =>
      have hi : i ≤ (code r).length := h
      refine List.mem_append_left _ (List.mem_flatMap.mpr ⟨r, by cases r <;> decide, ?_⟩)
      exact List.mem_map_of_mem (List.mem_range.mpr (Nat.lt_succ_of_le hi))
  | rust f => cases f <;> decide

/-- The position of a block in the sample image. -/
def Routine.index : Routine → ℕ
  | .spawnTask => 0
  | .releaseTask => 1
  | .releaseJumpOut => 2
  | .schedulerPreempt => 3
  | .preemptJumpOut => 4
  | .resumeTask => 5

/-- The position of a place of the Rust code in the sample image. -/
def RustPoint.index : RustPoint → ℕ
  | .resumeScheduler => 0
  | .recording => 1
  | .runScheduler => 2
  | .halted => 3

/-- Blocks of 256 bytes from `0x800000` on, and the places of the Rust code after them. -/
def sampleAddr : Label → Word
  | .asm r i => .ofNat 64 (0x800000 + 0x100 * r.index + i)
  | .rust f => .ofNat 64 (0x801000 + f.index)

def sampleLabel (a : Word) : Option Label := allLabels.find? fun l => sampleAddr l = a

lemma sampleLabel_addr {l : Label} (h : l.Valid) : sampleLabel (sampleAddr l) = some l := by
  have hall : ∀ l ∈ allLabels, sampleLabel (sampleAddr l) = some l := by decide +kernel
  exact hall l (mem_allLabels h)

/-- Four stacks of four pages: of the boot code, of the scheduler, and of two tasks. -/
def sampleOwner (b : ℕ) : Option Word :=
  if 0x11000 ≤ b % 0x100000 ∧ b % 0x100000 < 0x15000 then
    ([0, 0x4000, 0x5000, 0x6000] : List Word)[b / 0x100000]?
  else none

lemma sampleOwner_eq_some {b : ℕ} {p : Word} (h : sampleOwner b = some p) :
    (0x11000 ≤ b % 0x100000 ∧ b % 0x100000 < 0x15000) ∧
      ([0, 0x4000, 0x5000, 0x6000] : List Word)[b / 0x100000]? = some p :=
  Option.ite_none_right_eq_some.mp h

/-- An image with two tasks. -/
def sampleImage : Image where
  addr := sampleAddr
  label := sampleLabel
  label_addr _ := sampleLabel_addr
  stackMap :=
    { owner := sampleOwner
      bounds := fun {a p} h => by
        obtain ⟨hin, hp⟩ := sampleOwner_eq_some h
        have hlt := (List.getElem?_eq_some_iff.mp hp).1
        simp only [List.length_cons, List.length_nil] at hlt
        omega
      guard := fun {a b p q} ha hb h1 h2 => by
        obtain ⟨hin, hp⟩ := sampleOwner_eq_some ha
        obtain ⟨hin', hq⟩ := sampleOwner_eq_some hb
        have hdiv : a / 0x100000 = b / 0x100000 := by omega
        rw [hdiv, hq] at hp
        exact (Option.some.inj hp).symm }
  schedulerTask := 0x4000
  schedulerTask_ne := by decide
  hhdmTopAddr := 0x100000
  endTask := 0x802000
  scheduler_stack := Or.inl (by decide +kernel)

/-- Compiled code of the scheduler that leaves nothing behind. -/
def quiet : Image.Scratch where
  reg _ := 0
  rsp := 0x115000
  rflags := 0x202
  writes := []

end Titanium
