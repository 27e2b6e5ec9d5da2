import Titanium.Scheduler.Preempt

/-!
A task that yields, from the assembly of `release_task` to the place after it.

* `instrs_release`: `release_task` comes through to `resume_scheduler`.
* `released_words`: what it has saved on the stack of the task.
* `instrs_continue`: `resume_task` pops what was saved.
* `yield_transparent_iff`: **the task goes on as it was, but with interrupts
  disabled**: the flags are pushed after the `cli`.
-/

namespace Titanium

namespace Image

variable (I : Image)

/-- A task has come to the assembly of `release_task` from `yield_task`, on the stack `stack` with
room for what is pushed. -/
structure Yielding (m : Machine) (stack : Word) : Prop where
  pc : m.pc = .asm .releaseTask 0
  flags : resumeKind (m.reg .rsi) = .yielded
  stale : m.staleTaskPtr = m.currentTaskPtr
  uninterrupted : (m.info m.currentTaskPtr).interrupted = false
  on : I.stackMap.On stack m.rsp
  stack_ne : stack ≠ I.schedulerTask
  room : I.stackMap.Room stack m.rsp 16
  scheduler_room : I.stackMap.Room I.schedulerTask (m.info I.schedulerTask).sp 1

/-- The task has been released, and `resume_scheduler` is called. -/
def releasedOut (m : Machine) : Machine :=
  I.releaseJumpedOut (I.releaseStored (I.releaseFramed m))

/-- What `release_task` leaves on the stack of the task. -/
def releasedWords (m : Machine) : List Word :=
  standardRegs.map m.reg ++ (I.releaseFrame m).reverse

variable {I} {m m' : Machine} {stack p : Word}

/-! ### Saving -/

lemma Yielding.room_split (h : I.Yielding m stack) :
    I.stackMap.Room stack m.rsp 5 ∧ I.stackMap.Room stack (Word.down m.rsp 5) 11 :=
  StackMap.Room.of_add (show I.stackMap.Room stack m.rsp (5 + 11) from h.room)

lemma instrs_releaseFramed (h : I.Yielding m stack) :
    I.instrs 8 m = some (I.releaseFramed m) := by
  have hcode : StraightCode .releaseTask 0 ((code .releaseTask).take 7) :=
    ⟨by decide, by decide, by decide⟩
  obtain ⟨h4, h1⟩ := StackMap.Room.of_add
    (show I.stackMap.Room stack m.rsp (4 + 1) from h.room_split.1)
  obtain ⟨m₁, h₁, hrsp⟩ : ∃ m₁, I.instrs 7 m = some m₁ ∧ m₁.rsp = Word.down m.rsp 4 :=
    instrs_progress h.pc hcode rfl rfl (by decide) h4
  obtain ⟨hpc₁, -⟩ := instrs_keep h.pc hcode (le_refl 7) h₁
  rw [← hrsp, StackMap.room_succ] at h1
  obtain ⟨m₂, h₂⟩ : ∃ m₂, I.instr m₁ = some m₂ := by
    rw [instr, hpc₁]
    exact ⟨_, congrArg (Option.map (note .releaseTask 7)) (exec_push h1.1)⟩
  have hrun : I.instrs 8 m = some m₂ := by
    rw [I.instrs_add 7 1, h₁, Option.bind_some, instrs, h₂]
    rfl
  obtain ⟨-, hframe⟩ := instrs_release_frame (k := 0) hrun h.pc h.on
  cases hframe
  exact hrun

lemma instrs_releaseStored (h : I.Yielding m stack) :
    I.instrs 15 (I.releaseFramed m) = some (I.releaseStored (I.releaseFramed m)) := by
  have hcode : StraightCode .releaseTask 8 (((code .releaseTask).drop 8).take 14) :=
    ⟨by decide, by decide, by decide⟩
  obtain ⟨h5, h11⟩ := h.room_split
  obtain ⟨m₁, h₁, -⟩ : ∃ m₁, I.instrs 14 (I.releaseFramed m) = some m₁ ∧ _ :=
    instrs_progress rfl hcode rfl rfl (by decide) h11
  obtain ⟨-, hpush⟩ := instrs_release_push (k := 0) h₁ rfl h5.on_succ
  cases hpush
  rw [I.instrs_add 14 1, h₁, Option.bind_some, instrs, instr_release_iretq h11]
  rfl

/-- **`release_task` comes through.** -/
lemma instrs_release (h : I.Yielding m stack) : I.instrs 27 m = some (I.releasedOut m) := by
  obtain ⟨howner, -⟩ := StackMap.room_succ.mp h.scheduler_room
  rw [I.instrs_add 8 19, instrs_releaseFramed h, Option.bind_some, I.instrs_add 15 4,
    instrs_releaseStored h, Option.bind_some, I.instrs_add 3 1, instrs_releaseJumpOut_call rfl,
    Option.bind_some]
  exact instrs_call rfl rfl (by decide) howner

/-- The words on the stack of a released task. -/
lemma released_words (h5 : I.stackMap.Room stack m.rsp 5)
    (h11 : I.stackMap.Room stack (Word.down m.rsp 5) 11)
    (hsched : I.stackMap.Room I.schedulerTask (m.info I.schedulerTask).sp 1)
    (hne : stack ≠ I.schedulerTask) :
    I.stackMap.Words (I.releasedOut m).mem stack (Word.down m.rsp 11) (I.releasedWords m) := by
  have hempty : I.stackMap.Words m.mem stack m.rsp [] := StackMap.Words.nil
  have hframe := hempty.pushAll h5 (show (I.releaseFrame m).length = 5 from rfl)
  rw [List.append_nil] at hframe
  have hall := hframe.pushAll h11 (show (standardOrder.map m.reg ++
    I.releaseJumpFrame (I.releaseFramed m)).length = 11 from rfl)
  rw [List.reverse_append, List.append_assoc] at hall
  have hwords := (StackMap.Words.append.mp hall).2
  rw [show (I.releaseJumpFrame (I.releaseFramed m)).reverse.length = 5 from rfl, Word.down_add,
    Word.up_down_of_le _ (by norm_num)] at hwords
  -- the push of the call goes to the stack of the scheduler
  refine StackMap.Words.congr hwords fun b hb _ => ?_
  exact StackMap.pushAll_of_outside hsched fun hb' =>
    absurd (Option.some.inj (hb.symm.trans hb')) hne

/-- What `resume_scheduler` records of a task that yields. -/
lemma released_recorded (h : I.Yielding m stack) {x y : Scratch}
    (hrun : I.run (I.releasedOut m) [.enter x, .record y] = some m') :
    m'.info m.currentTaskPtr = ⟨Word.down m.rsp 11, m.currentId, false⟩ ∧
      I.stackMap.Words m'.mem stack (Word.down m.rsp 11) (I.releasedWords m) := by
  obtain ⟨hinfo, hwords⟩ := run_record h.stack_ne (released_words h.room_split.1 h.room_split.2
    h.scheduler_room h.stack_ne) hrun
  refine ⟨?_, hwords⟩
  have hsp : (I.releasedOut m).reg .rdi = Word.down m.rsp 11 := Word.down_add m.rsp 5 6
  have hkind : resumeKind ((I.releasedOut m).reg .rsi) = .yielded := h.flags
  have hflag : ((I.releasedOut m).info (I.releasedOut m).staleTaskPtr).interrupted = false := by
    rw [show (I.releasedOut m).staleTaskPtr = m.currentTaskPtr from h.stale]
    exact h.uninterrupted
  rw [← h.stale, Machine.currentId, ← h.stale]
  refine hinfo.trans ?_
  rw [hsp, hkind, hflag]
  rfl

/-! ### Restoring -/

/-- `resume_task` comes to its last instruction, for a task that was not preempted. -/
lemma instrs_continue_pops {ws rest : List Word} (hpc : m.pc = .asm .resumeTask 0)
    (hint : (m.info (m.reg .rdi)).interrupted = false) (hlen : standardRegs.length = ws.length)
    (hw : I.stackMap.Words m.mem p (m.info (m.reg .rdi)).sp (ws ++ rest)) :
    ∃ m₁, I.instrs 13 m = some m₁ ∧ m₁.pc = .asm .resumeTask 23 ∧
      m₁.reg = setAll m.reg standardRegs ws ∧ m₁.mem = m.mem ∧
      I.stackMap.Words m₁.mem p m₁.rsp rest := by
  have hrest := (StackMap.Words.append.mp hw).2
  rw [← hlen] at hrest
  have hrdi := setAll_of_notMem (show Reg.rdi ∉ standardRegs by decide) m.reg ws
  rw [I.instrs_add 11 2, instrs_standard hpc hlen hw, Option.bind_some, instrs_btr rfl]
  refine ⟨_, rfl, if_neg ?_, rfl, rfl, hrest⟩
  show ¬(m.info (setAll m.reg standardRegs ws .rdi)).interrupted = true
  rw [hrdi, hint]
  exact Bool.false_ne_true

/-- **`resume_task` pops what was saved.** -/
lemma instrs_continue {ws : List Word} {rip rflags rsp : Word} (hpc : m.pc = .asm .resumeTask 0)
    (hint : (m.info (m.reg .rdi)).interrupted = false) (hlen : standardRegs.length = ws.length)
    (hw : I.stackMap.Words m.mem p (m.info (m.reg .rdi)).sp (ws ++ [rip, cs, rflags, rsp, ss])) :
    ∃ m', I.instrs 14 m = some m' ∧
      m'.context = ⟨I.decode rip, setAll m.reg standardRegs ws, rsp, rflags⟩ := by
  obtain ⟨m₁, h₁, hpc₁, hreg₁, -, hframe⟩ := instrs_continue_pops hpc hint hlen hw
  rw [I.instrs_add 13 1, h₁, Option.bind_some, instrs, instr_resume_iretq hpc₁ hframe]
  exact ⟨_, rfl, by rw [← hreg₁]; rfl⟩

end Image

namespace Word

/-- Clearing `IF` changes the flags exactly when it was set. -/
lemma setBit_interrupts_eq_self_iff (w : Word) : w.setBit 9 false = w ↔ w.interrupts = false := by
  refine ⟨fun h => ?_, fun h => ?_⟩
  · rw [← h, interrupts_setBit_self]
  · refine BitVec.eq_of_getLsbD_eq fun i _ => ?_
    rw [getLsbD_setBit w (by norm_num)]
    split_ifs with hi
    · rw [hi]
      exact h.symm
    · rfl

end Word

/-- The first task is in `yield_task`, with the given flags. -/
def yieldingMachine (rflags : Word) : Machine :=
  { sampleMachine (Function.update (fun _ => 7) .rsi 1) with
    pc := .asm .releaseTask 0
    rflags := rflags }

lemma yieldingMachine_yielding (rflags : Word) :
    sampleImage.Yielding (yieldingMachine rflags) 0x5000 where
  pc := rfl
  flags := rfl
  stale := rfl
  uninterrupted := rfl
  on := (by decide +kernel : sampleImage.stackMap.On 0x5000 0x214f00)
  stack_ne := by decide
  room := (by decide +kernel : sampleImage.stackMap.Room 0x5000 0x214f00 16)
  scheduler_room := (by decide +kernel : sampleImage.stackMap.Room 0x4000 0x115000 1)

namespace Image

variable {I : Image} {m : Machine} {stack : Word}

/-- **A task that yields goes on as it was exactly when interrupts were disabled.**  Whatever
happens in between that touches neither the info nor the stack of the task, `resume_task` brings
it to the place after the `iretq` of `release_task`, with `rsp` and the six callee-saved registers
as they were. -/
theorem yield_transparent_iff (h : I.Yielding m stack) :
    ∃ m₀, I.run m (List.replicate 27 .instr) = some m₀ ∧ m₀.pc = .rust .resumeScheduler ∧
      ∀ x y m₁ es m₂, I.run m₀ [.enter x, .record y] = some m₁ → I.run m₁ es = some m₂ →
        I.Untouched m.currentTaskPtr stack m₁ m₂ → m₂.pc = .asm .resumeTask 0 →
        m₂.reg .rdi = m.currentTaskPtr →
        ∃ m₃, I.run m₂ (List.replicate 14 .instr) = some m₃ ∧ m₃.pc = .asm .releaseTask 23 ∧
          m₃.rsp = m.rsp ∧ (∀ r ∈ standardRegs, m₃.reg r = m.reg r) ∧
          (m₃.rflags = m.rflags ↔ m.rflags.interrupts = false) := by
  refine ⟨I.releasedOut m, (run_replicate 27 m).trans (instrs_release h), rfl, ?_⟩
  intro x y m₁ es m₂ hrun _ hsame hpc hrdi
  obtain ⟨hinfo, hwords⟩ := released_recorded h hrun
  rw [← hsame.info, ← hrdi] at hinfo
  have hsaved : I.stackMap.Words m₂.mem stack (m₂.info (m₂.reg .rdi)).sp (I.releasedWords m) := by
    rw [hinfo]
    exact hwords.congr fun b hb _ => hsame.mem b hb
  obtain ⟨m₃, h₃, hctx⟩ := instrs_continue hpc (by rw [hinfo]) rfl hsaved
  have hdecode : I.decode (I.addr (.asm .releaseTask 23)) = .asm .releaseTask 23 :=
    decode_address (show I.ValidPc (.asm .releaseTask 23) from le_refl 23)
  refine ⟨m₃, (run_replicate 14 m₂).trans h₃, (congrArg Context.pc hctx).trans hdecode,
    congrArg Context.rsp hctx, ?_, ?_⟩
  · intro r hr
    rw [show m₃.reg = _ from congrArg Context.reg hctx]
    fin_cases hr <;> rfl
  · rw [show m₃.rflags = m.rflags.setBit 9 false from congrArg Context.rflags hctx]
    exact Word.setBit_interrupts_eq_self_iff _

/-- `release_task`, and then nothing but `resume_scheduler` and `run_scheduler`. -/
def yieldBack : List Event :=
  List.replicate 27 .instr ++ [.enter quiet, .record quiet] ++ [.dispatch quiet]

theorem yield_transparent_disabled :
    ∃ m₃, sampleImage.run (yieldingMachine 0x2) (yieldBack ++ List.replicate 14 .instr) =
        some m₃ ∧ m₃.pc = .asm .releaseTask 23 ∧ m₃.rflags = 0x2 := by
  obtain ⟨m₀, h₀, -, h⟩ := yield_transparent_iff (yieldingMachine_yielding 0x2)
  have hrun : (sampleImage.run (yieldingMachine 0x2) yieldBack).map
      (fun m => (m.pc, m.reg .rdi)) = some (.asm .resumeTask 0, 0x5000) := by decide +kernel
  obtain ⟨m₂, h₂, heq⟩ := Option.map_eq_some_iff.mp hrun
  rw [Prod.mk.injEq] at heq
  have hsplit := h₂
  rw [yieldBack, run_append, run_append, h₀, Option.bind_some] at hsplit
  obtain ⟨m₁, h₁, hdisp⟩ := Option.bind_eq_some_iff.mp hsplit
  have hsame : sampleImage.Untouched 0x5000 0x5000 m₁ m₂ :=
    Untouched.dispatch (show (0x5000 : Word) ≠ 0x4000 by decide)
      ((run_singleton m₁ (.dispatch quiet)).symm.trans hdisp)
  obtain ⟨m₃, h₃, hpc, -, -, hiff⟩ :=
    h quiet quiet m₁ [.dispatch quiet] m₂ h₁ hdisp hsame heq.1 heq.2
  exact ⟨m₃, by rw [run_append, h₂, Option.bind_some, h₃], hpc, hiff.mpr (by decide)⟩

/-- A task that yields with interrupts enabled goes on with interrupts disabled. -/
theorem yield_disables_interrupts :
    sampleImage.Yielding (yieldingMachine 0x202) 0x5000 ∧
      (sampleImage.run (yieldingMachine 0x202) (yieldBack ++ List.replicate 14 .instr)).map
        (fun m => (m.pc, m.rsp, m.rflags)) = some (.asm .releaseTask 23, 0x214f00, 0x2) :=
  ⟨yieldingMachine_yielding _, by decide +kernel⟩

end Image

end Titanium
