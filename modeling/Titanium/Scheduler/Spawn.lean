import Titanium.Scheduler.Frames

/-!
How a task starts.

`spawn_task` builds on the new stack the frame that `release_task` would have
left there: the address of `end_task`, an interrupt frame that leads to the task
function, and six zeros.  `resume_task` consumes it like any other.

* `instrs_spawn`: the assembly of `spawn_task` pushes twelve words and comes
  back to its own stack.
* `spawned_words`: what it leaves on the new stack.
* `spawned_task_starts`: **a new task starts at its function**, with the address
  of `end_task` on top of its stack.
-/

namespace Titanium

namespace Image

variable {I : Image} {m m' : Machine} {p t top entry : Word}

/-! ### The assembly of `spawn_task` -/

/-- The push that completes the interrupt frame. -/
lemma instr_spawn_save (hpc : m.pc = .asm .spawnTask 9)
    (howner : I.stackMap.wordOwner (m.rsp - 8) = some p) :
    ∃ frames, I.instr m = some { m.pushed [m.reg .rdi] with
      pc := .asm .spawnTask 10
      frames := frames } := by
  have hcode : (code .spawnTask)[9]? = some (.push (.reg .rdi)) := rfl
  rw [instr, hpc]
  simp only [hcode, Option.bind_some]
  rw [exec_push howner, Option.map_some]
  have hnote : ∀ m₁ : Machine, ∃ frames, note .spawnTask 9 m₁ = { m₁ with frames := frames } := by
    intro m₁
    cases hb : m₁.building m₁.currentTaskPtr with
    | none => exact ⟨m₁.frames, by simp only [note, hb, Option.elim_none]⟩
    | some q => exact ⟨_, by simp only [note, hb, Option.elim_some, Machine.save]; rfl⟩
  obtain ⟨frames, hframes⟩ := hnote (m.pushed [I.val m (.reg .rdi)]).next
  refine ⟨frames, ?_⟩
  rw [hframes]
  simp only [Machine.next, Machine.pushed, hpc, Pc.next, val]

variable (I) in
/-- `spawn_task` has pushed the interrupt frame of the new task, but for its last word. -/
def spawnFramed (m : Machine) : Machine :=
  { m with
    pc := .asm .spawnTask 9
    reg := Function.update (Function.update m.reg .rdx m.rsp) .rax (Word.down (m.reg .rsi) 1)
    rsp := Word.down (m.reg .rsi) 5
    mem := m.mem.pushAll (m.reg .rsi) [I.endTask, ss, Word.down (m.reg .rsi) 1, m.rflags, cs] }

lemma instrs_spawn_frame (hpc : m.pc = .asm .spawnTask 0)
    (h1 : I.stackMap.Room p (m.reg .rsi) 1)
    (h4 : I.stackMap.Room p (Word.down (m.reg .rsi) 1) 4) :
    I.instrs 9 m = some (I.spawnFramed m) := by
  have hon : I.stackMap.On p (m.reg .rsi) := by
    have := StackMap.On.add_eight (StackMap.room_succ.mp h1).1
    rwa [BitVec.sub_add_cancel] at this
  have hmovs :
      StraightCode .spawnTask 0 [.mov .rdx .rsp, .movRsp (.reg .rsi), .mov .rax .endTask] :=
    ⟨by decide, by decide, by decide⟩
  have hfirst : I.instrs 3 m = some { m with
      pc := .asm .spawnTask 3
      reg := Function.update (Function.update m.reg .rdx m.rsp) .rax I.endTask
      rsp := m.reg .rsi } := by
    refine (instrs_eq_execs hpc hmovs).trans ?_
    simp [execs, exec, Machine.set, Machine.next, val, Pc.next, hpc]
  have hend : StraightCode .spawnTask 3 (([.reg .rax] : List Src).map .push) :=
    ⟨by decide, by decide, by decide⟩
  have hrsp : (code .spawnTask)[4]? = some (.mov .rax .rsp) := rfl
  have hframe : StraightCode .spawnTask 5
      (([.imm ss, .reg .rax, .rflags, .imm cs] : List Src).map .push) :=
    ⟨by decide, by decide, by decide⟩
  rw [I.instrs_add 3 6, hfirst, Option.bind_some, I.instrs_add 1 5,
    instrs_push (n := 1) rfl hend rfl (by decide) hon h1, Option.bind_some, instrs,
    instr_eq_exec rfl hrsp (by decide), exec, Option.bind_some,
    instrs_push (n := 4) rfl hframe rfl (by decide) (h1.on hon) h4]
  have hcons := m.mem.pushAll_append (m.reg .rsi) [I.endTask]
    [ss, Word.down (m.reg .rsi) 1, m.rflags, cs]
  rw [List.singleton_append] at hcons
  rw [spawnFramed, hcons]
  simp [Machine.pushed, Machine.set, Machine.next, val, Pc.next, Word.down_add]

/-- The standard frame of the new task, and the way back. -/
lemma instrs_spawn_standard (hpc : m.pc = .asm .spawnTask 10) (hon : I.stackMap.On p m.rsp)
    (hroom : I.stackMap.Room p m.rsp 6) :
    I.instrs 8 m = some { m with
      pc := .asm .spawnTask 18
      reg := Function.update m.reg .rax (Word.down m.rsp 6)
      rsp := m.reg .rdx
      mem := m.mem.pushAll m.rsp (List.replicate 6 0) } := by
  have hzeros : StraightCode .spawnTask 10 ((List.replicate 6 (.imm 0) : List Src).map .push) :=
    ⟨by decide, by decide, by decide⟩
  have hback : StraightCode .spawnTask 16 [.mov .rax .rsp, .movRsp (.reg .rdx)] :=
    ⟨by decide, by decide, by decide⟩
  rw [I.instrs_add 6 2, instrs_push (n := 6) hpc hzeros rfl (by decide) hon hroom, Option.bind_some]
  refine (instrs_eq_execs rfl hback).trans ?_
  simp [execs, exec, Machine.pushed, Machine.set, Machine.next, val, Pc.next]

lemma pushAll_spawnWords (mem : Mem) (e fl : Word) : mem.pushAll top (spawnWords top entry e fl) =
    ((mem.pushAll top [e, ss, Word.down top 1, fl, cs]).pushAll (Word.down top 5) [entry]).pushAll
      (Word.down top 6) (List.replicate 6 0) := by
  have hsplit : spawnWords top entry e fl =
      [e, ss, Word.down top 1, fl, cs] ++ ([entry] ++ List.replicate 6 0) := rfl
  rw [hsplit, Mem.pushAll_append, Mem.pushAll_append, Word.down_add]
  rfl

/-- **The assembly of `spawn_task`** pushes twelve words onto the new stack. -/
lemma instrs_spawn (hpc : m.pc = .asm .spawnTask 0) (hroom : I.stackMap.Room p (m.reg .rsi) 12) :
    ∃ frames, I.instrs 18 m = some { m with
      pc := .asm .spawnTask 18
      reg := Function.update (Function.update m.reg .rdx m.rsp) .rax (Word.down (m.reg .rsi) 12)
      mem := m.mem.pushAll (m.reg .rsi)
        (spawnWords (m.reg .rsi) (m.reg .rdi) I.endTask m.rflags)
      frames := frames } := by
  obtain ⟨h5, h7⟩ : I.stackMap.Room p (m.reg .rsi) 5 ∧
      I.stackMap.Room p (Word.down (m.reg .rsi) 5) 7 := StackMap.Room.of_add hroom
  obtain ⟨h1, h4⟩ : I.stackMap.Room p (m.reg .rsi) 1 ∧
      I.stackMap.Room p (Word.down (m.reg .rsi) 1) 4 := StackMap.Room.of_add h5
  obtain ⟨howner, h6⟩ := StackMap.room_succ.mp h7
  have hsix : Word.down (m.reg .rsi) 5 - 8 = Word.down (m.reg .rsi) 6 := Word.down_sub_eight _ 5
  obtain ⟨frames, hsave⟩ := instr_spawn_save (I := I) (m := I.spawnFramed m) (p := p) rfl howner
  rw [hsix] at howner h6
  have hrsp : ((I.spawnFramed m).pushed [(I.spawnFramed m).reg .rdi]).rsp =
      Word.down (m.reg .rsi) 6 := Word.down_add _ 5 1
  refine ⟨frames, ?_⟩
  rw [I.instrs_add 9 9, instrs_spawn_frame hpc h1 h4, Option.bind_some, instrs, hsave,
    Option.bind_some, instrs_spawn_standard (p := p) rfl ?_ ?_]
  · simp [spawnFramed, Machine.pushed, pushAll_spawnWords, Word.down_add]
  · rw [hrsp]
    exact StackMap.On.of_wordOwner howner
  · rw [hrsp]
    exact h6

/-! ### The first dispatch -/

variable (I) in
/-- The task runs at its function, and a return from it leads to `end_task`. -/
structure Started (m : Machine) (top entry rflags : Word) : Prop where
  pc : m.pc = .user entry
  rsp : m.rsp = top - 8
  return_address : m.mem.load m.rsp = I.endTask
  zeros : ∀ r ∈ standardRegs, m.reg r = 0
  rflags : m.rflags = rflags

/-- The new stack, as `resume_task` pops it. -/
lemma reverse_spawnWords (e fl : Word) : (spawnWords top entry e fl).reverse =
    List.replicate 6 0 ++ ([entry, cs, fl, Word.down top 1, ss] ++ [e]) := rfl

/-- What `spawn_task` leaves on the new stack. -/
lemma spawned_words (mem : Mem) (hroom : I.stackMap.Room p top 12) (e fl : Word) :
    I.stackMap.Words (mem.pushAll top (spawnWords top entry e fl)) p (Word.down top 12)
      (spawnWords top entry e fl).reverse := by
  have hwords : I.stackMap.Words (mem.pushAll top (spawnWords top entry e fl)) p
      (Word.down top 12) ((spawnWords top entry e fl).reverse ++ []) :=
    StackMap.Words.nil.pushAll hroom rfl
  rwa [List.append_nil] at hwords

/-- **`resume_task` consumes what `spawn_task` has built.** -/
lemma instrs_start {fl : Word} (hpc : m.pc = .asm .resumeTask 0) (hlabel : I.label entry = none)
    (hflag : (m.info (m.reg .rdi)).interrupted = false)
    (hsp : (m.info (m.reg .rdi)).sp = Word.down top 12)
    (hw : I.stackMap.Words m.mem p (Word.down top 12) (spawnWords top entry I.endTask fl).reverse) :
    ∃ m₁ m₂, I.instrs 13 m = some m₁ ∧
      m₁.mem.loads m₁.rsp 5 = [entry, 0x08, fl, top - 8, 0x10] ∧
      I.instr m₁ = some m₂ ∧ I.Started m₂ top entry fl ∧ m₂.mem = m.mem := by
  have hend : I.stackMap.Words m.mem p (Word.down top 1) [I.endTask] := by
    have hdrop := hw.drop (n := 11) (by norm_num [spawnWords])
    rwa [Word.up_down_of_le top (by norm_num)] at hdrop
  rw [← hsp, reverse_spawnWords] at hw
  obtain ⟨m₁, h₁, hpc₁, hreg₁, hmem₁, hframe⟩ := instrs_continue_pops hpc hflag rfl hw
  have hiretq := instr_resume_iretq hpc₁ hframe
  refine ⟨m₁, _, h₁, (StackMap.Words.append.mp hframe).1.loads_eq rfl, hiretq, ?_, hmem₁⟩
  exact
    { pc := by simp only [decode, hlabel]
      rsp := rfl
      return_address := by
        show m₁.mem.load (Word.down top 1) = I.endTask
        rw [hmem₁]
        exact hend.load
      zeros := by
        intro r hr
        show m₁.reg r = 0
        rw [hreg₁]
        fin_cases hr <;> rfl
      rflags := rfl }

/-- `spawn_task` after its assembly: it enters the stack pointer. -/
lemma spawned_recorded {y : Scratch} {a : Word} (h : I.step m (.spawned y a) = some m')
    (hb : m.building m.currentTaskPtr = some t) (hne : t ≠ m.currentTaskPtr) :
    m'.info t = { m.info t with sp := m.reg .rax } ∧
      ∀ b, I.stackMap.owner b = some t → m'.mem b = m.mem b := by
  obtain ⟨-, t', hb', -, m₁, hy, rfl⟩ := step_spawned h
  obtain ⟨-, mem, rfl, hmem⟩ := scratch_spec hy
  cases hb.symm.trans hb'
  refine ⟨Function.update_self .., fun b hown => hmem b ?_⟩
  rw [hown]
  exact fun heq => hne (Option.some.inj heq)

/-- **A new task starts at its function.**  The assembly of `spawn_task` writes the twelve words
below the top of the new stack and no others; whatever happens then that touches neither the info
nor the stack of the new task, `resume_task` comes to an interrupt frame with the code and stack
segments of the kernel, and through it to the task function, with the address of `end_task` as its
return address, the six callee-saved registers zero, and the flags of `spawn_task`. -/
theorem spawned_task_starts {x : Scratch} {options priority : ℕ} {m₀ : Machine}
    (hcall : I.step m (.callSpawn x t top entry options priority) = some m₀)
    (hne : t ≠ m.currentTaskPtr) (hroom : I.stackMap.Room t top 12) :
    ∃ m₁, I.run m₀ (List.replicate 18 .instr) = some m₁ ∧
      (∀ b, b < top.toNat - 96 ∨ top.toNat ≤ b → m₁.mem b = m₀.mem b) ∧
      ∀ y a m₂ es m₃, I.step m₁ (.spawned y a) = some m₂ → I.run m₂ es = some m₃ →
        I.Untouched t t m₂ m₃ → m₃.pc = .asm .resumeTask 0 → m₃.reg .rdi = t →
        ∃ m₄ m₅, I.run m₃ (List.replicate 13 .instr) = some m₄ ∧
          m₄.mem.loads m₄.rsp 5 = [entry, 0x08, x.rflags, top - 8, 0x10] ∧
          I.step m₄ .instr = some m₅ ∧ I.Started m₅ top entry x.rflags ∧ m₅.mem = m₃.mem := by
  obtain ⟨-, hargs, m', hx, rfl⟩ := step_callSpawn hcall
  obtain ⟨-, mem, rfl, -⟩ := scratch_spec hx
  obtain ⟨frames, hspawn⟩ := instrs_spawn (I := I) (p := t) (m := spawnCalled m x mem t top
    (.ofNat 64 (makeTaskId options m.nextTaskId priority))) rfl (by rwa [← hargs.rsi] at hroom)
  refine ⟨_, (run_replicate 18 _).trans hspawn, ?_, ?_⟩
  · intro b hb
    have hdown := hroom.toNat_down
    show mem.pushAll (x.reg .rsi) _ b = mem b
    rw [hargs.rsi]
    exact StackMap.pushAll_of_notMem hroom rfl (by omega)
  · intro y a m₂ es m₃ hspawned _ hsame hpc hrdi
    obtain ⟨hinfo, hmem⟩ := spawned_recorded hspawned (Function.update_self ..) hne
    have hwords : I.stackMap.Words m₃.mem t (Word.down top 12)
        (spawnWords top entry I.endTask x.rflags).reverse := by
      refine (spawned_words mem hroom I.endTask x.rflags).congr fun b hb _ => ?_
      rw [hsame.mem b hb, hmem b hb, ← hargs.rsi, ← hargs.rdi]
      rfl
    have hinfo₃ : m₃.info (m₃.reg .rdi) =
        ⟨Word.down top 12, .ofNat 64 (makeTaskId options m.nextTaskId priority), false⟩ := by
      rw [hrdi, hsame.info, hinfo, ← hargs.rsi]
      simp only [spawnCalled, Function.update_self]
    obtain ⟨m₄, m₅, h₄, hframe, h₅, hstarted, hmem₅⟩ :=
      instrs_start hpc hargs.label (by rw [hinfo₃]) (by rw [hinfo₃]) hwords
    exact ⟨m₄, m₅, (run_replicate 13 m₃).trans h₄, hframe, h₅, hstarted, hmem₅⟩

lemma Untouched.start {task stack : Word} {x : Scratch} (hne : stack ≠ I.schedulerTask)
    (h : I.step m (.start x) = some m') : I.Untouched task stack m m' := by
  obtain ⟨-, -, m₁, hx, rfl⟩ := step_start h
  obtain ⟨-, mem, rfl, hmem⟩ := scratch_spec hx
  refine ⟨rfl, fun b hb => hmem b ?_⟩
  rw [hb]
  exact fun heq => hne (Option.some.inj heq)

lemma Untouched.trans {task stack : Word} {m₁ m₂ m₃ : Machine}
    (h : I.Untouched task stack m₁ m₂) (h' : I.Untouched task stack m₂ m₃) :
    I.Untouched task stack m₁ m₃ :=
  ⟨h'.info.trans h.info, fun b hb => (h'.mem b hb).trans (h.mem b hb)⟩

theorem spawned_task_starts_first :
    ∃ m, sampleImage.run sampleBoot firstTask = some m ∧
      sampleImage.Started m 0x215000 0x2000 0x202 := by
  have hcall : (sampleImage.step sampleBoot
      (.callSpawn spawnScratch 0x5000 0x215000 0x2000 kernelTask 0)).isSome := by decide +kernel
  obtain ⟨m₀, h₀⟩ := Option.isSome_iff_exists.mp hcall
  have hroom : sampleImage.stackMap.Room 0x5000 0x215000 12 := by decide +kernel
  obtain ⟨m₁, h₁, -, h⟩ :=
    spawned_task_starts h₀ (show (0x5000 : Word) ≠ sampleBoot.currentTaskPtr by decide) hroom
  have hrun : (sampleImage.run sampleBoot (.callSpawn spawnScratch 0x5000 0x215000 0x2000
      kernelTask 0 :: List.replicate 18 .instr ++
        [.spawned bootScratch 0x1000, .start quiet, .dispatch quiet])).map
          (fun m => (m.pc, m.reg .rdi)) = some (.asm .resumeTask 0, 0x5000) := by decide +kernel
  obtain ⟨m₃, h₃, heq⟩ := Option.map_eq_some_iff.mp hrun
  rw [Prod.mk.injEq] at heq
  have hsplit := h₃
  rw [run_append, run_cons, h₀, Option.bind_some, h₁, Option.bind_some, run_cons] at hsplit
  obtain ⟨m₂, h₂, hrest⟩ := Option.bind_eq_some_iff.mp hsplit
  have hsteps := hrest
  rw [run_cons] at hsteps
  obtain ⟨m', hstart, hdispatch⟩ := Option.bind_eq_some_iff.mp hsteps
  rw [run_singleton] at hdispatch
  have hother : (0x5000 : Word) ≠ sampleImage.schedulerTask := by decide
  have hsame : sampleImage.Untouched 0x5000 0x5000 m₂ m₃ :=
    (Untouched.start hother hstart).trans (Untouched.dispatch hother hdispatch)
  obtain ⟨m₄, m₅, h₄, -, h₅, hstarted, -⟩ :=
    h bootScratch 0x1000 m₂ [.start quiet, .dispatch quiet] m₃ h₂ hrest hsame heq.1 heq.2
  refine ⟨m₅, ?_, hstarted⟩
  rw [firstTask, run_append, h₃, Option.bind_some, List.replicate_succ', run_append, h₄,
    Option.bind_some, run_singleton]
  exact h₅

end Image

end Titanium
