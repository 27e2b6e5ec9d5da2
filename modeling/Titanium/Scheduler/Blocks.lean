import Titanium.Scheduler.Exec

/-!
What the blocks of assembly do, when no interrupt comes between.

* `delivered`, `stored`, `jumpedOut`: the states that a preempted task goes
  through, from the interrupt to the call of `resume_scheduler`.
* `releaseFramed`, `releaseStored`, `releaseJumpedOut`: the same for a task that
  calls `release_task`.
* `instrs_of_push`, `instrs_push`, `instrs_of_execs`, `instrs_pop`: straight
  pieces of code, by what they push and pop.
* `instrs_store_push`, `instrs_release_frame`, `instrs_release_push` say what a
  block needs of the stack; `instrs_standard` and `instrs_btr` are the way back
  in `resume_task`.
-/

namespace Titanium

namespace Machine

/-- The stack pointer from which the processor pushes an interrupt frame. -/
def aligned (m : Machine) : Word := m.rsp &&& ~~~0xf#64

/-- The task id of the current task. -/
def currentId (m : Machine) : Word := (m.info m.currentTaskPtr).taskId

/-- `scheduler_preempt` has compared the task ids. -/
def checked (m : Machine) : Machine :=
  { m.pushed [m.rflags, m.reg .rax, m.reg .rcx] with
    pc := .asm .schedulerPreempt 7
    reg := Function.update (Function.update m.reg .r15 m.currentId) .r14
      (.ofNat 64 taskIdScheduler)
    rflags := m.rflags.cmpFlags (.ofNat 64 taskIdScheduler) m.currentId }

end Machine

/-- The registers that `scheduler_preempt` pushes in the branch for tasks. -/
def saveOrder : List Reg :=
  [.rdx, .rsi, .rdi, .r8, .r9, .r10, .r11, .rbx, .rbp, .r12, .r13, .r14, .r15]

@[simp] lemma length_saveOrder : saveOrder.length = 13 := rfl

/-- The registers of the standard frame, in the order of the pops. -/
def standardRegs : List Reg := [.r15, .r14, .r13, .r12, .rbp, .rbx]

/-- The other registers of the preempted frame, in the order of the pops. -/
def scratchRegs : List Reg := [.r11, .r10, .r9, .r8, .rdi, .rsi, .rdx, .rcx, .rax]

namespace Image

variable (I : Image)

/-- The interrupt frame of `m`, its lowest word first. -/
def isf (m : Machine) : List Word := [I.address m.pc, cs, m.rflags, m.rsp, ss]

/-- The machine in which the interrupt has been delivered. -/
def delivered (m : Machine) : Machine :=
  { m with
    pc := .asm .schedulerPreempt 0
    rsp := Word.down m.aligned 5
    rflags := m.rflags.handlerFlags
    mem := m.mem.pushAll m.aligned (I.isf m).reverse
    inService := true
    frames :=
      if m.currentTaskPtr = I.schedulerTask then m.frames
      else Function.update m.frames m.currentTaskPtr
        (⟨Word.down m.aligned 5, I.isf m⟩ :: m.frames m.currentTaskPtr) }

/-- The frame that `scheduler_preempt` makes to get to the stack of the scheduler, in the order
of its pushes. -/
def jumpFrame (m : Machine) : List Word :=
  [ss, I.schedulerSp, m.rflags.addFlags I.hhdmTopAddr (.ofNat 64 schedulerSpOffset), cs,
    I.addr (.asm .preemptJumpOut 0)]

/-- `scheduler_preempt` has saved the registers, and switched to the stack of the scheduler. -/
def stored (m : Machine) : Machine :=
  { m with
    pc := .asm .preemptJumpOut 0
    reg := Function.update (Function.update (Function.update m.reg .rdi (Word.down m.rsp 13)) .rsi
      0b10) .rax (I.addr (.asm .preemptJumpOut 0))
    rsp := I.schedulerSp
    rflags := m.rflags.addFlags I.hhdmTopAddr (.ofNat 64 schedulerSpOffset)
    mem := m.mem.pushAll m.rsp (saveOrder.map m.reg ++ I.jumpFrame m) }

/-- The `scheduler_jump_out` of `scheduler_preempt` has called `resume_scheduler`. -/
def jumpedOut (m : Machine) : Machine :=
  { m.pushed [I.addr (.asm .preemptJumpOut 6)] with
    pc := .rust .resumeScheduler
    reg := Function.update m.reg .rax 0
    rflags := m.rflags.setBit 9 false
    currentTaskPtr := I.schedulerTask
    inService := false }

/-- The interrupt frame that `release_task` pushes, in the order of its pushes. -/
def releaseFrame (m : Machine) : List Word :=
  [ss, m.rsp, m.rflags.setBit 9 false, cs, I.addr (.asm .releaseTask 23)]

/-- The registers of the standard frame, in the order of the pushes. -/
def standardOrder : List Reg := [.rbx, .rbp, .r12, .r13, .r14, .r15]

@[simp] lemma length_standardOrder : standardOrder.length = 6 := rfl

/-- `release_task` has pushed the interrupt frame. -/
def releaseFramed (m : Machine) : Machine :=
  { m with
    pc := .asm .releaseTask 8
    reg := Function.update m.reg .rax (I.addr (.asm .releaseTask 23))
    rsp := Word.down m.rsp 5
    rflags := m.rflags.setBit 9 false
    mem := m.mem.pushAll m.rsp (I.releaseFrame m)
    frames := Function.update m.frames m.currentTaskPtr
      (⟨Word.down m.rsp 5, (I.releaseFrame m).reverse⟩ :: m.frames m.currentTaskPtr) }

/-- The frame that `release_task` makes to get to the stack of the scheduler. -/
def releaseJumpFrame (m : Machine) : List Word :=
  [ss, (m.info I.schedulerTask).sp, m.rflags, cs, I.addr (.asm .releaseJumpOut 0)]

/-- `release_task` has pushed the standard frame, and switched to the stack of the scheduler. -/
def releaseStored (m : Machine) : Machine :=
  { m with
    pc := .asm .releaseJumpOut 0
    reg := Function.update (Function.update m.reg .rdi (Word.down m.rsp 6)) .rax
      (I.addr (.asm .releaseJumpOut 0))
    rsp := (m.info I.schedulerTask).sp
    mem := m.mem.pushAll m.rsp (standardOrder.map m.reg ++ I.releaseJumpFrame m) }

/-- The `scheduler_jump_out` of `release_task` has called `resume_scheduler`. -/
def releaseJumpedOut (m : Machine) : Machine :=
  { m.pushed [I.addr (.asm .releaseJumpOut 4)] with
    pc := .rust .resumeScheduler
    reg := Function.update m.reg .rax I.schedulerTask
    rflags := m.rflags.setBit 9 false
    currentTaskPtr := I.schedulerTask }

variable {I} {m m' : Machine} {p : Word} {n k : ℕ}

/-! ### Pieces -/

lemma instrs_of_push {r : Routine} {i : ℕ} {srcs : List Src}
    (h : I.instrs (n + k) m = some m') (hpc : m.pc = .asm r i)
    (hcode : StraightCode r i (srcs.map .push)) (hn : srcs.length = n) (hsrcs : .rsp ∉ srcs)
    (hon : I.stackMap.On p m.rsp) :
    I.stackMap.Room p m.rsp n ∧
      I.instrs k { m.pushed (srcs.map (I.val m)) with pc := .asm r (i + n) } = some m' := by
  subst hn
  have heq := I.instrs_eq_execs hpc hcode
  rw [List.length_map] at heq
  rw [instrs_add, heq, Option.bind_eq_some_iff] at h
  obtain ⟨m₁, h₁, h⟩ := h
  obtain ⟨hroom, rfl⟩ := (execs_push hon hsrcs).mp h₁
  refine ⟨hroom, ?_⟩
  rw [hpc] at h
  exact h

lemma instrs_push {r : Routine} {i : ℕ} {srcs : List Src} (hpc : m.pc = .asm r i)
    (hcode : StraightCode r i (srcs.map .push)) (hn : srcs.length = n) (hsrcs : .rsp ∉ srcs)
    (hon : I.stackMap.On p m.rsp) (hroom : I.stackMap.Room p m.rsp n) :
    I.instrs n m = some { m.pushed (srcs.map (I.val m)) with pc := .asm r (i + n) } := by
  subst hn
  have heq := I.instrs_eq_execs hpc hcode
  rw [List.length_map] at heq
  rw [heq, (execs_push hon hsrcs).mpr ⟨hroom, rfl⟩, hpc]
  rfl

lemma instrs_of_execs {r : Routine} {i : ℕ} {is : List Instr} {m₁ : Machine}
    (h : I.instrs (n + k) m = some m') (hpc : m.pc = .asm r i) (hcode : StraightCode r i is)
    (hn : is.length = n) (hexec : I.execs m is = some m₁) : I.instrs k m₁ = some m' := by
  subst hn
  rwa [instrs_add, I.instrs_eq_execs hpc hcode, hexec, Option.bind_some] at h

lemma instrs_pop {r : Routine} {i : ℕ} {rs : List Reg} {ws rest : List Word}
    (hpc : m.pc = .asm r i) (hcode : StraightCode r i (rs.map .pop)) (hlen : rs.length = ws.length)
    (hn : rs.length = n) (hw : I.stackMap.Words m.mem p m.rsp (ws ++ rest)) :
    I.instrs n m = some { m with
      pc := .asm r (i + n)
      reg := setAll m.reg rs ws
      rsp := Word.up m.rsp n } := by
  subst hn
  have heq := I.instrs_eq_execs hpc hcode
  rw [List.length_map, execs_pop hlen hw, hpc] at heq
  exact heq

lemma instr_of_iretq {r : Routine} {i : ℕ} {rip rflags rsp : Word} {ws : List Word}
    (hpc : m.pc = .asm r i) (hcode : (code r)[i]? = some .iretq) (hplain : Plain r i)
    (hw : I.stackMap.Words m.mem p m.rsp ([rip, cs, rflags, rsp, ss] ++ ws)) :
    I.instr m = some { m with pc := I.decode rip, rflags := rflags, rsp := rsp } := by
  rw [instr_eq_exec hpc hcode hplain, exec, iretq_eq hw]

/-! ### `scheduler_preempt` -/

lemma enterHandler_pushed (hroom : I.stackMap.Room p m.aligned 5) :
    I.enterHandler ({ m with rsp := m.aligned }.pushed (I.isf m).reverse) = I.delivered m := by
  have hempty : I.stackMap.Words m.mem p m.aligned [] := StackMap.Words.nil
  have hloads : (m.mem.pushAll m.aligned (I.isf m).reverse).loads (Word.down m.aligned 5) 5 =
      I.isf m :=
    (hempty.pushAll hroom rfl).loads_eq rfl
  by_cases hcur : m.currentTaskPtr = I.schedulerTask
  · have hlen : (I.isf m).reverse.length = 5 := rfl
    simp only [enterHandler, delivered, Machine.pushed, hcur, if_true, hlen]
  · have hlen : (I.isf m).reverse.length = 5 := rfl
    simp only [enterHandler, delivered, Machine.pushed, Machine.save, hcur, if_false, hlen, hloads]

lemma deliver_eq_some (hon : I.stackMap.On p m.rsp) :
    I.deliver m = some m' ↔ I.stackMap.Room p m.aligned 5 ∧ m' = I.delivered m := by
  have hpush : ∀ m₁, (I.isf m).reverse.foldlM I.push { m with rsp := m.aligned } = some m₁ ↔ _ :=
    fun m₁ => foldlM_push fun q hq => hon.eq_of_align hq
  rw [deliver, Option.map_eq_some_iff]
  constructor
  · rintro ⟨m₁, h₁, rfl⟩
    obtain ⟨hroom, rfl⟩ := (hpush m₁).mp h₁
    exact ⟨hroom, enterHandler_pushed hroom⟩
  · rintro ⟨hroom, rfl⟩
    exact ⟨_, (hpush _).mpr ⟨hroom, rfl⟩, enterHandler_pushed hroom⟩

lemma step_timer (hstarted : m.started = true) (hack : m.inService = false)
    (hint : m.rflags.interrupts = true) (hon : I.stackMap.On p m.rsp)
    (hroom : I.stackMap.Room p m.aligned 5) : I.step m .timer = some (I.delivered m) := by
  rw [step, if_pos ⟨hstarted, by simp [hack], hint⟩]
  exact (deliver_eq_some hon).mpr ⟨hroom, rfl⟩

lemma instrs_check (hpc : m.pc = .asm .schedulerPreempt 0) (hon : I.stackMap.On p m.rsp)
    (h : I.instrs (7 + k) m = some m') :
    I.stackMap.Room p m.rsp 3 ∧ I.instrs k m.checked = some m' := by
  have hpushes : StraightCode .schedulerPreempt 0
      (([.rflags, .reg .rax, .reg .rcx] : List Src).map .push) :=
    ⟨by decide, by decide, by decide⟩
  rw [show 7 + k = 3 + (4 + k) by omega] at h
  obtain ⟨hroom, h⟩ := instrs_of_push h hpc hpushes rfl (by decide) hon
  have hmovs : StraightCode .schedulerPreempt 3 [.mov .r15 .currentTaskPtr,
      .mov .r15 (.taskId .r15), .mov .r14 (.imm (.ofNat 64 taskIdScheduler)), .cmp .r14 .r15] :=
    ⟨by decide, by decide, by decide⟩
  refine ⟨hroom, instrs_of_execs h rfl hmovs rfl ?_⟩
  simp [execs, exec, Machine.set, Machine.next, val, Pc.next, Machine.checked, Machine.currentId,
    Machine.pushed]

lemma instrs_store_push (h : I.instrs (23 + k) m = some m')
    (hpc : m.pc = .asm .schedulerPreempt 8) (hon : I.stackMap.On p m.rsp) :
    I.stackMap.Room p m.rsp 18 ∧ I.instrs k { I.stored m with
      pc := .asm .schedulerPreempt 31
      rsp := Word.down m.rsp 18 } = some m' := by
  have hregs : StraightCode .schedulerPreempt 8 ((saveOrder.map Src.reg).map .push) :=
    ⟨by decide, by decide, by decide⟩
  rw [show 23 + k = 13 + (2 + (1 + (2 + (3 + (1 + (1 + k)))))) by omega] at h
  obtain ⟨hroom, h⟩ := instrs_of_push h hpc hregs rfl (by decide) hon
  have hargs : StraightCode .schedulerPreempt 21 [.mov .rdi .rsp, .mov .rsi (.imm 0b10)] :=
    ⟨by decide, by decide, by decide⟩
  replace h := instrs_of_execs h rfl hargs rfl rfl
  have hss : StraightCode .schedulerPreempt 23 (([.imm ss] : List Src).map .push) :=
    ⟨by decide, by decide, by decide⟩
  obtain ⟨hroom₁, h⟩ := instrs_of_push h rfl hss rfl (by decide) (hroom.on hon)
  have hsp : StraightCode .schedulerPreempt 24 [.mov .rax .hhdmTopAddr,
      .add .rax (.ofNat 64 schedulerSpOffset)] := ⟨by decide, by decide, by decide⟩
  replace h := instrs_of_execs h rfl hsp rfl rfl
  have hframe : StraightCode .schedulerPreempt 26
      (([.reg .rax, .rflags, .imm cs] : List Src).map .push) := ⟨by decide, by decide, by decide⟩
  obtain ⟨hroom₂, h⟩ := instrs_of_push h rfl hframe rfl (by decide) (hroom₁.on (hroom.on hon))
  have hrip : StraightCode .schedulerPreempt 29 [.mov .rax (.addr (.asm .preemptJumpOut 0))] :=
    ⟨by decide, by decide, by decide⟩
  replace h := instrs_of_execs h rfl hrip rfl rfl
  have hlast : StraightCode .schedulerPreempt 30 (([.reg .rax] : List Src).map .push) :=
    ⟨by decide, by decide, by decide⟩
  obtain ⟨hroom₃, h⟩ := instrs_of_push h rfl hlast rfl (by decide)
    (hroom₂.on (hroom₁.on (hroom.on hon)))
  have h14 : I.stackMap.Room p m.rsp 14 := StackMap.Room.add hroom hroom₁
  have h17 : I.stackMap.Room p m.rsp 17 := StackMap.Room.add h14 (by
    rw [← Word.down_add m.rsp 13 1]
    exact hroom₂)
  have h18 : I.stackMap.Room p m.rsp 18 := StackMap.Room.add h17 (by
    rw [← Word.down_add m.rsp 14 3, ← Word.down_add m.rsp 13 1]
    exact hroom₃)
  refine ⟨h18, ?_⟩
  rw [← h]
  congr 1
  simp [stored, jumpFrame, Machine.pushed, Machine.set, Machine.next, val, Pc.next, Mem.pushAll,
    Mem.pushAll_append, Word.down_add, Function.comp_def, schedulerSp]

lemma instr_store_iretq (hroom : I.stackMap.Room p m.rsp 18) :
    I.instr { I.stored m with pc := .asm .schedulerPreempt 31, rsp := Word.down m.rsp 18 } =
      some (I.stored m) := by
  have hempty : I.stackMap.Words m.mem p m.rsp [] := StackMap.Words.nil
  have hwords : I.stackMap.Words (I.stored m).mem p (Word.down m.rsp 18)
      ([I.addr (.asm .preemptJumpOut 0), cs, (I.stored m).rflags, I.schedulerSp, ss] ++
        (saveOrder.map m.reg).reverse) := by
    have := hempty.pushAll hroom (show (saveOrder.map m.reg ++ I.jumpFrame m).length = 18 from rfl)
    rwa [List.reverse_append, List.append_nil, show (I.jumpFrame m).reverse = [_, _, _, _, _] from
      rfl] at this
  have hdecode : I.decode (I.addr (.asm .preemptJumpOut 0)) = .asm .preemptJumpOut 0 :=
    decode_address (show I.ValidPc (.asm .preemptJumpOut 0) from Nat.zero_le _)
  have hinstr := instr_of_iretq (m := { I.stored m with
    pc := .asm .schedulerPreempt 31
    rsp := Word.down m.rsp 18 }) rfl rfl (by decide) hwords
  rw [hinstr, hdecode]
  rfl

lemma instrs_call {r : Routine} {i : ℕ} {f : RustPoint} (hpc : m.pc = .asm r i)
    (hcode : (code r)[i]? = some (.call f)) (hplain : Plain r i)
    (howner : I.stackMap.wordOwner (m.rsp - 8) = some p) :
    I.instrs 1 m = some { m.pushed [I.addr (.asm r (i + 1))] with pc := .rust f } := by
  rw [instrs, instr_eq_exec hpc hcode hplain, exec, push, if_pos (by rw [howner]; rfl),
    pushed_singleton, hpc]
  rfl

lemma instrs_of_call {r : Routine} {i : ℕ} {f : RustPoint} (h : I.instrs (1 + k) m = some m')
    (hpc : m.pc = .asm r i) (hcode : (code r)[i]? = some (.call f)) (hplain : Plain r i)
    (hon : I.stackMap.On p m.rsp) :
    I.stackMap.wordOwner (m.rsp - 8) = some p ∧
      I.instrs k { m.pushed [I.addr (.asm r (i + 1))] with pc := .rust f } = some m' := by
  rw [Nat.add_comm, instrs, instr_eq_exec hpc hcode hplain, exec, Option.bind_eq_some_iff] at h
  obtain ⟨_, hcall, h⟩ := h
  obtain ⟨m₁, hpush, rfl⟩ := Option.map_eq_some_iff.mp hcall
  obtain ⟨howner, rfl⟩ := (push_eq_some fun q => hon.eq_of_push).mp hpush
  rw [hpc] at h
  exact ⟨howner, h⟩

lemma instrs_jumpOut_call (hpc : m.pc = .asm .preemptJumpOut 0) :
    I.instrs 5 m = some { m with
      pc := .asm .preemptJumpOut 5
      reg := Function.update m.reg .rax 0
      rflags := m.rflags.setBit 9 false
      currentTaskPtr := I.schedulerTask
      inService := false } := by
  have hcode : StraightCode .preemptJumpOut 0 [.cli, .mov .rax .schedulerTask, .storeCurrent .rax,
      .mov .rax (.imm 0), .eoi] := ⟨by decide, by decide, by decide⟩
  refine (instrs_eq_execs hpc hcode).trans ?_
  simp [execs, exec, Machine.set, Machine.next, val, Pc.next, hpc]

/-- The branch of `scheduler_preempt` for the scheduler, up to its `iretq`. -/
lemma instrs_early_pop {w₁ w₂ w₃ : Word} {ws : List Word} (hpc : m.pc = .asm .schedulerPreempt 32)
    (hw : I.stackMap.Words m.mem p m.rsp ([w₁, w₂] ++ (w₃ :: ws))) :
    I.instrs 6 m = some { m with
      pc := .asm .schedulerPreempt 38
      reg := Function.update (Function.update m.reg .rcx w₁) .rax 0
      rflags := w₃.setBit 9 false
      rsp := m.rsp + 8 + 8 + 8
      inService := false } := by
  have hcode : StraightCode .schedulerPreempt 32 [.pop .rcx, .pop .rax, .popfq, .cli,
      .mov .rax (.imm 0), .eoi] := ⟨by decide, by decide, by decide⟩
  refine (instrs_eq_execs hpc hcode).trans ?_
  rw [execs_cons, exec_pop hw, Option.bind_some, execs_cons, exec_pop hw.tail, Option.bind_some,
    execs_cons, exec_popfq hw.tail.tail, Option.bind_some]
  simp [execs, exec, Machine.set, Machine.next, val, Pc.next, hpc]

/-- The branch of `scheduler_preempt` for the scheduler. -/
lemma instrs_early {w₁ w₂ w₃ rip rflags rsp : Word} {ws : List Word}
    (hpc : m.pc = .asm .schedulerPreempt 32)
    (hw : I.stackMap.Words m.mem p m.rsp ([w₁, w₂] ++ (w₃ :: ([rip, cs, rflags, rsp, ss] ++ ws)))) :
    I.instrs 7 m = some { m with
      pc := I.decode rip
      reg := Function.update (Function.update m.reg .rcx w₁) .rax 0
      rflags := rflags
      rsp := rsp
      inService := false } := by
  rw [I.instrs_add 6 1, instrs_early_pop hpc hw, Option.bind_some, instrs,
    instr_of_iretq rfl rfl (by decide) hw.tail.tail.tail]
  rfl

/-! ### `release_task` -/

lemma instr_release_save (hpc : m.pc = .asm .releaseTask 7) (hon : I.stackMap.On p m.rsp)
    (h : I.instr m = some m') : I.stackMap.wordOwner (m.rsp - 8) = some p ∧
      m' = ({ m.pushed [m.reg .rax] with pc := .asm .releaseTask 8 } : Machine).save
        m.currentTaskPtr := by
  rw [instr, hpc] at h
  obtain ⟨m₁, h₁, rfl⟩ := Option.map_eq_some_iff.mp h
  obtain ⟨m₂, h₂, rfl⟩ := Option.map_eq_some_iff.mp h₁
  obtain ⟨howner, rfl⟩ := (push_eq_some fun q => hon.eq_of_push).mp h₂
  refine ⟨howner, ?_⟩
  simp only [note, Machine.next, Machine.pushed, hpc]
  rfl

lemma instrs_release_frame (h : I.instrs (8 + k) m = some m') (hpc : m.pc = .asm .releaseTask 0)
    (hon : I.stackMap.On p m.rsp) :
    I.stackMap.Room p m.rsp 5 ∧ I.instrs k (I.releaseFramed m) = some m' := by
  have hrsp : StraightCode .releaseTask 0 [.cli, .mov .rax .rsp] :=
    ⟨by decide, by decide, by decide⟩
  have hexec : I.execs m [.cli, .mov .rax .rsp] = some { m with
      pc := .asm .releaseTask 2
      reg := Function.update m.reg .rax m.rsp
      rflags := m.rflags.setBit 9 false } := by
    simp [execs, exec, Machine.set, Machine.next, val, Pc.next, hpc]
  rw [show 8 + k = 2 + (4 + (1 + (k + 1))) by omega] at h
  replace h := instrs_of_execs h hpc hrsp rfl hexec
  have hframe : StraightCode .releaseTask 2
      (([.imm ss, .reg .rax, .rflags, .imm cs] : List Src).map .push) :=
    ⟨by decide, by decide, by decide⟩
  obtain ⟨hroom, h⟩ := instrs_of_push h rfl hframe rfl (by decide) hon
  have hrip : StraightCode .releaseTask 6 [.mov .rax (.addr (.asm .releaseTask 23))] :=
    ⟨by decide, by decide, by decide⟩
  replace h := instrs_of_execs h rfl hrip rfl rfl
  obtain ⟨m₁, h₁, h⟩ := Option.bind_eq_some_iff.mp h
  obtain ⟨howner, rfl⟩ := instr_release_save rfl (hroom.on hon) h₁
  have hroom₅ : I.stackMap.Room p m.rsp 5 :=
    StackMap.Room.add hroom (StackMap.room_succ.mpr ⟨howner, StackMap.room_zero⟩)
  have hempty : I.stackMap.Words m.mem p m.rsp [] := StackMap.Words.nil
  have hloads := (hempty.pushAll hroom₅ (show (I.releaseFrame m).length = 5 from rfl)).loads_eq rfl
  rw [List.append_nil] at hloads
  refine ⟨hroom₅, ?_⟩
  rw [← h]
  congr 1
  have hdown : Word.down m.rsp 5 = m.rsp - 8#64 - 8#64 - 8#64 - 8#64 - 8#64 := by
    simp only [Word.down]
    bv_omega
  rw [releaseFramed, ← hloads]
  simp [releaseFrame, Machine.save, Machine.pushed, Machine.set, Machine.next, val, Pc.next,
    Mem.pushAll, Word.down_add, hdown]

lemma instrs_release_push (h : I.instrs (14 + k) m = some m') (hpc : m.pc = .asm .releaseTask 8)
    (hon : I.stackMap.On p m.rsp) :
    I.stackMap.Room p m.rsp 11 ∧ I.instrs k { I.releaseStored m with
      pc := .asm .releaseTask 22
      rsp := Word.down m.rsp 11 } = some m' := by
  have hregs : StraightCode .releaseTask 8 ((standardOrder.map Src.reg).map .push) :=
    ⟨by decide, by decide, by decide⟩
  rw [show 14 + k = 6 + (1 + (1 + (1 + (3 + (1 + (1 + k)))))) by omega] at h
  obtain ⟨hroom, h⟩ := instrs_of_push h hpc hregs rfl (by decide) hon
  have harg : StraightCode .releaseTask 14 [.mov .rdi .rsp] := ⟨by decide, by decide, by decide⟩
  replace h := instrs_of_execs h rfl harg rfl rfl
  have hss : StraightCode .releaseTask 15 (([.imm ss] : List Src).map .push) :=
    ⟨by decide, by decide, by decide⟩
  obtain ⟨hroom₁, h⟩ := instrs_of_push h rfl hss rfl (by decide) (hroom.on hon)
  have hsched : StraightCode .releaseTask 16 [.mov .rax .schedulerTask] :=
    ⟨by decide, by decide, by decide⟩
  replace h := instrs_of_execs h rfl hsched rfl rfl
  have hframe :
      StraightCode .releaseTask 17 (([.sp .rax, .rflags, .imm cs] : List Src).map .push) :=
    ⟨by decide, by decide, by decide⟩
  obtain ⟨hroom₂, h⟩ := instrs_of_push h rfl hframe rfl (by decide) (hroom₁.on (hroom.on hon))
  have hrip : StraightCode .releaseTask 20 [.mov .rax (.addr (.asm .releaseJumpOut 0))] :=
    ⟨by decide, by decide, by decide⟩
  replace h := instrs_of_execs h rfl hrip rfl rfl
  have hlast : StraightCode .releaseTask 21 (([.reg .rax] : List Src).map .push) :=
    ⟨by decide, by decide, by decide⟩
  obtain ⟨hroom₃, h⟩ := instrs_of_push h rfl hlast rfl (by decide)
    (hroom₂.on (hroom₁.on (hroom.on hon)))
  have h7 : I.stackMap.Room p m.rsp 7 := StackMap.Room.add hroom hroom₁
  have h10 : I.stackMap.Room p m.rsp 10 := StackMap.Room.add h7 (by
    rw [← Word.down_add m.rsp 6 1]
    exact hroom₂)
  have h11 : I.stackMap.Room p m.rsp 11 := StackMap.Room.add h10 (by
    rw [← Word.down_add m.rsp 7 3, ← Word.down_add m.rsp 6 1]
    exact hroom₃)
  refine ⟨h11, ?_⟩
  rw [← h]
  congr 1
  simp [releaseStored, releaseJumpFrame, Machine.pushed, Machine.set, Machine.next, val, Pc.next,
    Mem.pushAll, Mem.pushAll_append, Word.down_add, Function.comp_def]

lemma instr_release_iretq (hroom : I.stackMap.Room p m.rsp 11) :
    I.instr { I.releaseStored m with pc := .asm .releaseTask 22, rsp := Word.down m.rsp 11 } =
      some (I.releaseStored m) := by
  have hempty : I.stackMap.Words m.mem p m.rsp [] := StackMap.Words.nil
  have hwords : I.stackMap.Words (I.releaseStored m).mem p (Word.down m.rsp 11)
      ([I.addr (.asm .releaseJumpOut 0), cs, m.rflags, (m.info I.schedulerTask).sp, ss] ++
        (standardOrder.map m.reg).reverse) := by
    have := hempty.pushAll hroom
      (show (standardOrder.map m.reg ++ I.releaseJumpFrame m).length = 11 from rfl)
    rwa [List.reverse_append, List.append_nil, show (I.releaseJumpFrame m).reverse = [_, _, _, _, _]
      from rfl] at this
  have hdecode : I.decode (I.addr (.asm .releaseJumpOut 0)) = .asm .releaseJumpOut 0 :=
    decode_address (show I.ValidPc (.asm .releaseJumpOut 0) from Nat.zero_le _)
  have hinstr := instr_of_iretq (m := { I.releaseStored m with
    pc := .asm .releaseTask 22
    rsp := Word.down m.rsp 11 }) rfl rfl (by decide) hwords
  rw [hinstr, hdecode]
  rfl

lemma instrs_releaseJumpOut_call (hpc : m.pc = .asm .releaseJumpOut 0) :
    I.instrs 3 m = some { m with
      pc := .asm .releaseJumpOut 3
      reg := Function.update m.reg .rax I.schedulerTask
      rflags := m.rflags.setBit 9 false
      currentTaskPtr := I.schedulerTask } := by
  have hcode : StraightCode .releaseJumpOut 0 [.cli, .mov .rax .schedulerTask,
      .storeCurrent .rax] := ⟨by decide, by decide, by decide⟩
  refine (instrs_eq_execs hpc hcode).trans ?_
  simp [execs, exec, Machine.set, Machine.next, val, Pc.next, hpc]

/-! ### `resume_task` -/

/-- `resume_task` up to `sti`. -/
lemma instrs_resume (hpc : m.pc = .asm .resumeTask 0) :
    I.instrs 5 m = some { m with
      pc := .asm .resumeTask 5
      rsp := (m.info (m.reg .rdi)).sp
      rflags := (m.rflags.setBit 9 false).setBit 9 true
      currentTaskPtr := m.reg .rdi
      staleTaskPtr := m.reg .rdi } := by
  have hcode : StraightCode .resumeTask 0 [.cli, .movRsp (.sp .rdi), .storeCurrent .rdi,
      .storeStale .rdi, .sti] := ⟨by decide, by decide, by decide⟩
  rw [show 5 = [Instr.cli, .movRsp (.sp .rdi), .storeCurrent .rdi, .storeStale .rdi, .sti].length
    from rfl, instrs_eq_execs hpc hcode]
  simp [execs, exec, Machine.next, val, Pc.next, hpc]

/-- `resume_task` up to the test of the flag. -/
lemma instrs_standard {ws rest : List Word} (hpc : m.pc = .asm .resumeTask 0)
    (hlen : standardRegs.length = ws.length)
    (hw : I.stackMap.Words m.mem p (m.info (m.reg .rdi)).sp (ws ++ rest)) :
    I.instrs 11 m = some { m with
      pc := .asm .resumeTask 11
      reg := setAll m.reg standardRegs ws
      rsp := Word.up (m.info (m.reg .rdi)).sp 6
      rflags := (m.rflags.setBit 9 false).setBit 9 true
      currentTaskPtr := m.reg .rdi
      staleTaskPtr := m.reg .rdi } := by
  have hpops : StraightCode .resumeTask 5 (standardRegs.map .pop) :=
    ⟨by decide, by decide, by decide⟩
  rw [I.instrs_add 5 6, instrs_resume hpc, Option.bind_some]
  exact instrs_pop rfl hpops hlen rfl hw

/-- The test of the flag. -/
lemma instrs_btr (hpc : m.pc = .asm .resumeTask 11) :
    I.instrs 2 m = some { m with
      pc := if (m.info (m.reg .rdi)).interrupted then .asm .resumeTask 13 else .asm .resumeTask 23
      rflags := m.rflags.setBit 0 (m.info (m.reg .rdi)).interrupted
      info := Function.update m.info (m.reg .rdi)
        { m.info (m.reg .rdi) with interrupted := false } } := by
  have hbtr : (code .resumeTask)[11]? = some (.btr .rdi) := rfl
  have hjnc : (code .resumeTask)[12]? = some (.jnc 23) := rfl
  have hcarry : ∀ b, (m.rflags.setBit 0 b).carry = b := fun b => by
    rw [Word.carry, Word.getLsbD_setBit _ (by norm_num), if_pos rfl]
  rw [instrs, instr_eq_exec hpc hbtr (by decide), exec, Option.bind_some, instrs,
    instr_eq_exec (by rw [Machine.next, hpc]; rfl) hjnc (by decide), exec, Option.bind_some, instrs]
  simp only [Machine.next, hcarry, hpc, Pc.next, Pc.jump]
  split_ifs <;> rfl

/-- The last instruction of `resume_task`. -/
lemma instr_resume_iretq {rip rflags rsp : Word} {w : List Word}
    (hpc : m.pc = .asm .resumeTask 23)
    (hw : I.stackMap.Words m.mem p m.rsp ([rip, cs, rflags, rsp, ss] ++ w)) :
    I.instr m = some { m with
      pc := I.decode rip
      rflags := rflags
      rsp := rsp
      frames := Function.update m.frames m.currentTaskPtr (m.frames m.currentTaskPtr).tail } := by
  rw [instr, hpc]
  simp only []
  rw [show (code .resumeTask)[23]? = some .iretq from rfl, Option.bind_some, exec, iretq_eq hw]
  rfl

end Image

end Titanium
