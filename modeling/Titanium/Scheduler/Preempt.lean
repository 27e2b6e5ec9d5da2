import Titanium.Scheduler.Blocks

/-!
A task that is preempted, from the timer interrupt to the end of `resume_task`.

* `instrs_preempt`: `scheduler_preempt` comes through to `resume_scheduler`.
* `preempted_words`: what it has saved on the stack of the task.
* `instrs_restore`: `resume_task` pops what was saved.
* `preemption_transparent_iff`: **the task goes on as it was, but for `r14` and
  `r15`**, which the handler uses before it saves them.
-/

namespace Titanium

lemma setAll_setAll (reg f : Reg → Word) :
    setAll (setAll reg standardRegs (standardRegs.map f)) scratchRegs (scratchRegs.map f) = f := by
  funext r
  cases r <;> rfl

/-- What a task has in the processor. -/
structure Context where
  pc : Pc
  reg : Reg → Word
  rsp : Word
  rflags : Word

namespace Machine

/-- What the running task has in the processor. -/
def context (m : Machine) : Context := ⟨m.pc, m.reg, m.rsp, m.rflags⟩

/-- The registers that `scheduler_preempt` saves. -/
def clobbered (m : Machine) : Reg → Word :=
  Function.update (Function.update m.reg .r15 m.currentId) .r14 (.ofNat 64 taskIdScheduler)

lemma clobbered_eq_iff (m : Machine) :
    m.clobbered = m.reg ↔ m.reg .r14 = .ofNat 64 taskIdScheduler ∧ m.reg .r15 = m.currentId := by
  refine ⟨fun h => ⟨(congrFun h .r14).symm, (congrFun h .r15).symm⟩, fun ⟨h14, h15⟩ => ?_⟩
  rw [clobbered, ← h15, Function.update_eq_self, ← h14, Function.update_eq_self]

end Machine

namespace Image

variable (I : Image)

/-- The timer interrupt can be delivered to a task, on the stack `stack` with room for what
`scheduler_preempt` saves. -/
structure Preemptible (m : Machine) (stack : Word) : Prop where
  pc_valid : I.ValidPc m.pc
  started : m.started = true
  acknowledged : m.inService = false
  enabled : m.rflags.interrupts = true
  id_ne : m.currentId ≠ .ofNat 64 taskIdScheduler
  stale : m.staleTaskPtr = m.currentTaskPtr
  on : I.stackMap.On stack m.rsp
  stack_ne : stack ≠ I.schedulerTask
  room : I.stackMap.Room stack m.aligned 26
  scheduler_room : I.stackMap.Room I.schedulerTask I.schedulerSp 1

/-- `scheduler_preempt` before the first push of the branch for tasks. -/
def taken (m : Machine) : Machine :=
  { (I.delivered m).checked with pc := .asm .schedulerPreempt 8 }

/-- The task has been preempted, and `resume_scheduler` is called. -/
def preempted (m : Machine) : Machine := I.jumpedOut (I.stored (I.taken m))

/-- What `scheduler_preempt` leaves on the stack of the task. -/
def preemptedWords (m : Machine) : List Word :=
  standardRegs.map m.clobbered ++ (scratchRegs.map m.clobbered ++
    (m.rflags.handlerFlags :: I.isf m))

/-- Nobody has written to the info of `task` or to the stack `stack`. -/
structure Untouched (task stack : Word) (m m' : Machine) : Prop where
  info : m'.info task = m.info task
  mem : ∀ b, I.stackMap.owner b = some stack → m'.mem b = m.mem b

variable {I} {m m' : Machine} {p : Word}

/-! ### Saving -/

section Save

variable {stack : Word}

lemma Preemptible.room_split (h : I.Preemptible m stack) :
    I.stackMap.Room stack m.aligned 5 ∧ I.stackMap.Room stack (Word.down m.aligned 5) 3 ∧
      I.stackMap.Room stack (Word.down m.aligned 8) 18 := by
  obtain ⟨h5, h21⟩ := StackMap.Room.of_add
    (show I.stackMap.Room stack m.aligned (5 + 21) from h.room)
  obtain ⟨h3, h18⟩ := StackMap.Room.of_add
    (show I.stackMap.Room stack (Word.down m.aligned 5) (3 + 18) from h21)
  rw [Word.down_add] at h18
  exact ⟨h5, h3, h18⟩

lemma instrs_checked (h5 : I.stackMap.Room stack m.aligned 5)
    (h3 : I.stackMap.Room stack (Word.down m.aligned 5) 3) :
    I.instrs 7 (I.delivered m) = some (I.delivered m).checked := by
  have hcode : StraightCode .schedulerPreempt 0 ((code .schedulerPreempt).take 7) :=
    ⟨by decide, by decide, by decide⟩
  obtain ⟨m₁, h₁, -⟩ : ∃ m₁, I.instrs 7 (I.delivered m) = some m₁ ∧ _ :=
    instrs_progress rfl hcode rfl rfl (by decide) h3
  obtain ⟨-, hcheck⟩ := instrs_check (k := 0) rfl h5.on_succ h₁
  cases hcheck
  exact h₁

/-- The branch of `scheduler_preempt`. -/
lemma instr_branch (m : Machine) : I.instr (I.delivered m).checked =
    some { (I.delivered m).checked with
      pc := if m.currentId = .ofNat 64 taskIdScheduler then .asm .schedulerPreempt 32
        else .asm .schedulerPreempt 8 } := by
  have hzero : (I.delivered m).checked.rflags.zero =
      decide (.ofNat 64 taskIdScheduler = m.currentId) := Word.zero_cmpFlags _ _ _
  have hje : (code .schedulerPreempt)[7]? = some (.je 32) := rfl
  rw [instr_eq_exec rfl hje (by decide), exec, hzero]
  simp only [decide_eq_true_eq, eq_comm (a := BitVec.ofNat 64 taskIdScheduler)]
  split_ifs <;> rfl

/-- `scheduler_preempt` up to its branch. -/
lemma instrs_branch (h5 : I.stackMap.Room stack m.aligned 5)
    (h3 : I.stackMap.Room stack (Word.down m.aligned 5) 3) :
    I.instrs 8 (I.delivered m) = some { (I.delivered m).checked with
      pc := if m.currentId = .ofNat 64 taskIdScheduler then .asm .schedulerPreempt 32
        else .asm .schedulerPreempt 8 } := by
  rw [I.instrs_add 7 1, instrs_checked h5 h3, Option.bind_some, instrs, instr_branch]
  rfl

lemma instrs_taken (h : I.Preemptible m stack) : I.instrs 8 (I.delivered m) = some (I.taken m) := by
  obtain ⟨h5, h3, -⟩ := h.room_split
  rw [instrs_branch h5 h3, if_neg h.id_ne]
  rfl

lemma instrs_stored (h : I.Preemptible m stack) :
    I.instrs 24 (I.taken m) = some (I.stored (I.taken m)) := by
  obtain ⟨-, h3, h18⟩ := h.room_split
  have hcode : StraightCode .schedulerPreempt 8 (((code .schedulerPreempt).drop 8).take 23) :=
    ⟨by decide, by decide, by decide⟩
  have hrsp : (I.taken m).rsp = Word.down m.aligned 8 := Word.down_add m.aligned 5 3
  obtain ⟨m₁, h₁, -⟩ : ∃ m₁, I.instrs 23 (I.taken m) = some m₁ ∧ _ :=
    instrs_progress rfl hcode rfl rfl (by decide) (hrsp ▸ h18)
  obtain ⟨-, hpush⟩ := instrs_store_push (k := 0) h₁ rfl h3.on_succ
  cases hpush
  rw [I.instrs_add 23 1, h₁, Option.bind_some, instrs, instr_store_iretq (hrsp ▸ h18)]
  rfl

lemma instrs_jumpedOut (h : I.Preemptible m stack) :
    I.instrs 6 (I.stored (I.taken m)) = some (I.preempted m) := by
  obtain ⟨howner, -⟩ := StackMap.room_succ.mp h.scheduler_room
  rw [I.instrs_add 5 1, instrs_jumpOut_call rfl, Option.bind_some]
  exact instrs_call rfl rfl (by decide) howner

/-- **`scheduler_preempt` comes through.** -/
lemma instrs_preempt (h : I.Preemptible m stack) :
    I.instrs 38 (I.delivered m) = some (I.preempted m) := by
  rw [I.instrs_add 8 30, instrs_taken h, Option.bind_some, I.instrs_add 24 6, instrs_stored h,
    Option.bind_some, instrs_jumpedOut h]

lemma run_preempt (h : I.Preemptible m stack) :
    I.run m (.timer :: List.replicate 38 .instr) = some (I.preempted m) := by
  rw [run_cons, step_timer h.started h.acknowledged h.enabled h.on h.room_split.1, Option.bind_some,
    run_replicate]
  exact instrs_preempt h

/-- The words on the stack of a preempted task. -/
lemma preempted_words (h : I.Preemptible m stack) :
    I.stackMap.Words (I.preempted m).mem stack (Word.down m.aligned 21) (I.preemptedWords m) := by
  obtain ⟨h5, h3, h18⟩ := h.room_split
  have hrsp : (I.taken m).rsp = Word.down m.aligned 8 := Word.down_add m.aligned 5 3
  have hempty : I.stackMap.Words m.mem stack m.aligned [] := StackMap.Words.nil
  have hframe := hempty.pushAll h5 (show (I.isf m).reverse.length = 5 from rfl)
  have hthree := hframe.pushAll h3
    (show [m.rflags.handlerFlags, m.reg .rax, m.reg .rcx].length = 3 from rfl)
  rw [Word.down_add] at hthree
  have hall := hthree.pushAll h18
    (show (saveOrder.map m.clobbered ++ I.jumpFrame (I.taken m)).length = 18 from rfl)
  rw [List.reverse_append, List.append_assoc] at hall
  have hwords := (StackMap.Words.append.mp hall).2
  rw [show (I.jumpFrame (I.taken m)).reverse.length = 5 from rfl, Word.down_add,
    Word.up_down_of_le _ (by norm_num)] at hwords
  -- the push of the call goes to the stack of the scheduler
  refine StackMap.Words.congr hwords fun b hb _ => ?_
  have hcall : (I.preempted m).mem b = (I.stored (I.taken m)).mem b :=
    StackMap.pushAll_of_outside h.scheduler_room fun hb' =>
      absurd (Option.some.inj (hb.symm.trans hb')) h.stack_ne
  rw [hcall, stored, hrsp]
  rfl

end Save

/-! ### Restoring -/

/-- The end of `resume_task`, for a preempted task. -/
lemma instrs_restore_rest {ws : List Word} {fl rip rflags rsp : Word}
    (hpc : m.pc = .asm .resumeTask 13) (hlen : scratchRegs.length = ws.length)
    (hw : I.stackMap.Words m.mem p m.rsp (ws ++ [fl, rip, cs, rflags, rsp, ss])) :
    ∃ m', I.instrs 11 m = some m' ∧
      m'.context = ⟨I.decode rip, setAll m.reg scratchRegs ws, rsp, rflags⟩ := by
  have hpops : StraightCode .resumeTask 13 (scratchRegs.map .pop) :=
    ⟨by decide, by decide, by decide⟩
  have hpopfq : (code .resumeTask)[22]? = some .popfq := rfl
  have hrest := (StackMap.Words.append.mp hw).2
  rw [← hlen] at hrest
  have hpop : I.instrs 9 m = some { m with
      pc := .asm .resumeTask 22
      reg := setAll m.reg scratchRegs ws
      rsp := Word.up m.rsp 9 } := instrs_pop hpc hpops hlen rfl hw
  rw [I.instrs_add 9 2, hpop, Option.bind_some, instrs, instr_eq_exec rfl hpopfq (by decide),
    exec_popfq hrest, Option.bind_some, instrs, instr_resume_iretq rfl hrest.tail]
  exact ⟨_, rfl, rfl⟩

/-- **`resume_task` pops what was saved.** -/
lemma instrs_restore {f : Reg → Word} {fl rip rflags rsp : Word}
    (hpc : m.pc = .asm .resumeTask 0) (hint : (m.info (m.reg .rdi)).interrupted = true)
    (hw : I.stackMap.Words m.mem p (m.info (m.reg .rdi)).sp (standardRegs.map f ++
      (scratchRegs.map f ++ [fl, rip, cs, rflags, rsp, ss]))) :
    ∃ m', I.instrs 24 m = some m' ∧ m'.context = ⟨I.decode rip, f, rsp, rflags⟩ := by
  have hrest := (StackMap.Words.append.mp hw).2
  have hreg : (⟨I.decode rip, f, rsp, rflags⟩ : Context) = ⟨I.decode rip,
      setAll (setAll m.reg standardRegs (standardRegs.map f)) scratchRegs (scratchRegs.map f), rsp,
      rflags⟩ := by rw [setAll_setAll]
  rw [I.instrs_add 11 13, instrs_standard hpc rfl hw, Option.bind_some, I.instrs_add 2 11,
    instrs_btr rfl, Option.bind_some, hreg]
  exact instrs_restore_rest (if_pos hint) rfl hrest

/-! ### The whole way -/

lemma step_enter {x : Scratch} (h : I.step m (.enter x) = some m') :
    m.pc = .rust .resumeScheduler ∧ ∃ m₁, I.scratch I.schedulerTask x m = some m₁ ∧
      m' = { m₁ with
        pc := .rust .recording
        released := (m.reg .rdi, resumeKind (m.reg .rsi)) } := by
  obtain ⟨hpc, h⟩ := Option.ite_none_right_eq_some.mp h
  obtain ⟨m₁, h₁, heq⟩ := Option.map_eq_some_iff.mp h
  exact ⟨hpc, m₁, h₁, heq.symm⟩

/-- The infos after `resume_scheduler` has recorded the released task. -/
def recorded (m : Machine) : Word → RawTaskInfo :=
  Function.update m.info m.staleTaskPtr
    { m.info m.staleTaskPtr with
      interrupted := (m.info m.staleTaskPtr).interrupted || m.released.2 = .preempted
      sp := m.released.1 }

lemma recorded_self (m : Machine) : recorded m m.staleTaskPtr =
    { m.info m.staleTaskPtr with
      interrupted := (m.info m.staleTaskPtr).interrupted || m.released.2 = .preempted
      sp := m.released.1 } := Function.update_self ..

lemma step_record {x : Scratch} (h : I.step m (.record x) = some m') :
    m.pc = .rust .recording ∧ ∃ m₁, I.scratch I.schedulerTask x m = some m₁ ∧
      m' = { m₁ with
        pc := .rust .runScheduler
        info := recorded m₁
        taskQueue :=
          if m₁.released.2 = .preempted ∨ m₁.released.2 = .yielded then
            m₁.taskQueue ++ [m₁.staleTaskPtr]
          else m₁.taskQueue } := by
  obtain ⟨hpc, h⟩ := Option.ite_none_right_eq_some.mp h
  obtain ⟨m₁, h₁, heq⟩ := Option.map_eq_some_iff.mp h
  exact ⟨hpc, m₁, h₁, heq.symm⟩

lemma step_dispatch {x : Scratch} (h : I.step m (.dispatch x) = some m') :
    m.pc = .rust .runScheduler ∧ ∃ m₁, I.scratch I.schedulerTask x m = some m₁ ∧
      ((m₁.taskQueue = [] ∧ m' = { m₁ with pc := .rust .halted }) ∨
        ∃ taskPtr rest, m₁.taskQueue = taskPtr :: rest ∧
          m' = { m₁.set .rdi taskPtr with pc := .asm .resumeTask 0, taskQueue := rest }) := by
  obtain ⟨hpc, h⟩ := Option.ite_none_right_eq_some.mp h
  obtain ⟨m₁, h₁, heq⟩ := Option.map_eq_some_iff.mp h
  refine ⟨hpc, m₁, h₁, ?_⟩
  split at heq
  · next taskPtr rest hq => exact Or.inr ⟨taskPtr, rest, hq, heq.symm⟩
  · next hq => exact Or.inl ⟨hq, heq.symm⟩

/-- `run_scheduler` touches no task. -/
lemma Untouched.dispatch {task stack : Word} {x : Scratch} (hne : stack ≠ I.schedulerTask)
    (h : I.step m (.dispatch x) = some m') : I.Untouched task stack m m' := by
  obtain ⟨-, m₁, h₁, hcases⟩ := step_dispatch h
  obtain ⟨-, mem, rfl, hmem⟩ := scratch_spec h₁
  have hmem' : ∀ b, I.stackMap.owner b = some stack → mem b = m.mem b := fun b hb =>
    hmem b fun hb' => hne (Option.some.inj (hb.symm.trans hb'))
  rcases hcases with ⟨-, rfl⟩ | ⟨taskPtr, rest, -, rfl⟩
  · exact ⟨rfl, hmem'⟩
  · exact ⟨rfl, hmem'⟩

/-- What `resume_scheduler` records of the released task; the words on another stack stay. -/
lemma run_record {stack a : Word} {ws : List Word} {x y : Scratch} (hne : stack ≠ I.schedulerTask)
    (hw : I.stackMap.Words m.mem stack a ws) (hrun : I.run m [.enter x, .record y] = some m') :
    m'.info m.staleTaskPtr = ⟨m.reg .rdi, (m.info m.staleTaskPtr).taskId,
        (m.info m.staleTaskPtr).interrupted || resumeKind (m.reg .rsi) = .preempted⟩ ∧
      I.stackMap.Words m'.mem stack a ws := by
  rw [run_cons, Option.bind_eq_some_iff] at hrun
  obtain ⟨m₁, henter, hrecord⟩ := hrun
  rw [run_singleton] at hrecord
  obtain ⟨-, m₃, hx, rfl⟩ := step_enter henter
  obtain ⟨-, mem₃, rfl, hmem₃⟩ := scratch_spec hx
  obtain ⟨-, m₄, hy, rfl⟩ := step_record hrecord
  obtain ⟨-, mem₄, rfl, hmem₄⟩ := scratch_spec hy
  have hstack : ∀ b, I.stackMap.owner b = some stack →
      I.stackMap.owner b ≠ some I.schedulerTask := fun b hb hb' =>
    hne (Option.some.inj (hb.symm.trans hb'))
  refine ⟨?_, hw.congr fun b hb _ => (hmem₄ b (hstack b hb)).trans (hmem₃ b (hstack b hb))⟩
  show recorded _ m.staleTaskPtr = _
  exact recorded_self _

/-- What `resume_scheduler` records of a preempted task. -/
lemma preempted_recorded {stack : Word} (h : I.Preemptible m stack) {x y : Scratch}
    (hrun : I.run (I.preempted m) [.enter x, .record y] = some m') :
    m'.info m.currentTaskPtr = ⟨Word.down m.aligned 21, m.currentId, true⟩ ∧
      I.stackMap.Words m'.mem stack (Word.down m.aligned 21) (I.preemptedWords m) := by
  obtain ⟨hinfo, hwords⟩ := run_record h.stack_ne (preempted_words h) hrun
  refine ⟨?_, hwords⟩
  have hsp : (I.preempted m).reg .rdi = Word.down m.aligned 21 := by
    show Word.down (Word.down (Word.down m.aligned 5) 3) 13 = _
    rw [Word.down_add, Word.down_add]
  have hkind : resumeKind ((I.preempted m).reg .rsi) = .preempted := rfl
  rw [← h.stale, Machine.currentId, ← h.stale]
  refine hinfo.trans ?_
  rw [hsp, hkind, decide_eq_true rfl, Bool.or_true]
  rfl

end Image

/-! ### A sample machine -/

/-- The first task runs at `0x2000`, with the given registers. -/
def sampleMachine (reg : Reg → Word) : Machine where
  pc := .user 0x2000
  reg := reg
  rsp := 0x214f00
  rflags := 0x202
  mem _ := 0
  info := Function.update (fun _ => ⟨0x115000, .ofNat 64 taskIdScheduler, false⟩) 0x5000
    ⟨0x214f00, .ofNat 64 (makeTaskId kernelTask firstTaskId 0), false⟩
  currentTaskPtr := 0x5000
  staleTaskPtr := 0x5000
  taskQueue := []
  nextTaskId := firstTaskId + 1
  allocated := [0x5000]
  building _ := none
  released := (0, .blocked)
  started := true
  inService := false
  frames _ := []

lemma sampleMachine_preemptible (reg : Reg → Word) :
    sampleImage.Preemptible (sampleMachine reg) 0x5000 where
  pc_valid := (by decide +kernel : sampleLabel 0x2000 = none)
  started := rfl
  acknowledged := rfl
  enabled := (by decide : Word.interrupts 0x202 = true)
  id_ne := (by decide :
    BitVec.ofNat 64 (makeTaskId kernelTask firstTaskId 0) ≠ .ofNat 64 taskIdScheduler)
  stale := rfl
  on := (by decide +kernel : sampleImage.stackMap.On 0x5000 0x214f00)
  stack_ne := by decide
  room := (by decide +kernel : sampleImage.stackMap.Room 0x5000 (0x214f00 &&& ~~~0xf#64) 26)
  scheduler_room := (by decide +kernel :
    sampleImage.stackMap.Room 0x4000 (0x100000 + BitVec.ofNat 64 schedulerSpOffset) 1)

namespace Image

variable {I : Image} {m : Machine}

/-- **A preempted task goes on as it was exactly when `r14` and `r15` held the task ids of the
scheduler and of the task.**  The timer interrupt is taken at any place of the code of a task;
`scheduler_preempt` comes through to `resume_scheduler`, which records the task; then anything may
happen that touches neither the info nor the stack of the task, until `resume_task` is called for
it.  The place, `rsp`, `rflags` and the other thirteen registers always come back. -/
theorem preemption_transparent_iff {stack : Word} (h : I.Preemptible m stack) :
    ∃ m₀, I.run m (.timer :: List.replicate 38 .instr) = some m₀ ∧
      m₀.pc = .rust .resumeScheduler ∧
      ∀ x y m₁ es m₂, I.run m₀ [.enter x, .record y] = some m₁ → I.run m₁ es = some m₂ →
        I.Untouched m.currentTaskPtr stack m₁ m₂ → m₂.pc = .asm .resumeTask 0 →
        m₂.reg .rdi = m.currentTaskPtr →
        ∃ m₃, I.run m₂ (List.replicate 24 .instr) = some m₃ ∧
          (m₃.context = m.context ↔
            m.reg .r14 = .ofNat 64 taskIdScheduler ∧ m.reg .r15 = m.currentId) := by
  refine ⟨I.preempted m, run_preempt h, rfl, ?_⟩
  intro x y m₁ es m₂ hrun _ hsame hpc hrdi
  obtain ⟨hinfo, hwords⟩ := preempted_recorded h hrun
  rw [← hsame.info, ← hrdi] at hinfo
  replace hwords := StackMap.Words.congr hwords fun b hb _ => hsame.mem b hb
  have hsaved : I.stackMap.Words m₂.mem stack (m₂.info (m₂.reg .rdi)).sp (I.preemptedWords m) := by
    rwa [hinfo]
  obtain ⟨m₃, h₃, hctx⟩ := instrs_restore hpc (by rw [hinfo]) hsaved
  refine ⟨m₃, (run_replicate 24 m₂).trans h₃, ?_⟩
  rw [hctx, decode_address h.pc_valid, ← m.clobbered_eq_iff]
  exact ⟨fun heq => congrArg Context.reg heq, fun heq => by rw [heq]; rfl⟩

/-- Registers that `scheduler_preempt` does not change. -/
def ownIds : Reg → Word
  | .r14 => .ofNat 64 taskIdScheduler
  | .r15 => .ofNat 64 (makeTaskId kernelTask firstTaskId 0)
  | _ => 7

/-- The timer interrupt, and then nothing but `resume_scheduler` and `run_scheduler`. -/
def switchBack : List Event :=
  .timer :: List.replicate 38 .instr ++ [.enter quiet, .record quiet] ++ [.dispatch quiet]

theorem preemption_transparent_ownIds :
    ∃ m₃, sampleImage.run (sampleMachine ownIds) (switchBack ++ List.replicate 24 .instr) =
        some m₃ ∧ m₃.context = (sampleMachine ownIds).context := by
  obtain ⟨m₀, h₀, -, h⟩ := preemption_transparent_iff (sampleMachine_preemptible ownIds)
  have hrun : (sampleImage.run (sampleMachine ownIds) switchBack).map
      (fun m => (m.pc, m.reg .rdi)) = some (.asm .resumeTask 0, 0x5000) := by decide +kernel
  obtain ⟨m₂, h₂, heq⟩ := Option.map_eq_some_iff.mp hrun
  rw [Prod.mk.injEq] at heq
  have hsplit := h₂
  rw [switchBack, run_append, run_append, h₀, Option.bind_some] at hsplit
  obtain ⟨m₁, h₁, hdisp⟩ := Option.bind_eq_some_iff.mp hsplit
  have hsame : sampleImage.Untouched 0x5000 0x5000 m₁ m₂ :=
    Untouched.dispatch (show (0x5000 : Word) ≠ 0x4000 by decide)
      ((run_singleton m₁ (.dispatch quiet)).symm.trans hdisp)
  obtain ⟨m₃, h₃, hiff⟩ := h quiet quiet m₁ [.dispatch quiet] m₂ h₁ hdisp hsame heq.1 heq.2
  exact ⟨m₃, by rw [run_append, h₂, Option.bind_some, h₃], hiff.mpr ⟨rfl, rfl⟩⟩

/-- With other values in `r14` and `r15` the task finds the task ids in them. -/
theorem preemption_clobbers :
    sampleImage.Preemptible (sampleMachine fun _ => 7) 0x5000 ∧
      (sampleImage.run (sampleMachine fun _ => 7) (switchBack ++ List.replicate 24 .instr)).map
        (fun m => (m.pc, m.rsp, m.rflags, m.reg .r14, m.reg .r15)) =
          some (.user 0x2000, 0x214f00, 0x202, 0x8000ffffffffffff, 0x8000000000000100) :=
  ⟨sampleMachine_preemptible _, by decide +kernel⟩

end Image

end Titanium
