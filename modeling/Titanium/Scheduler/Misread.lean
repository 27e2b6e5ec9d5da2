import Titanium.Scheduler.Suspend

/-!
A timer interrupt between the `sti` of `resume_task` and its test of the flag
`INTERRUPTED`.

The task is saved and resumed once more, and this second `resume_task` clears
the flag that the first one has not yet tested.

* `redispatched`: the scheduler resumes the task at once.
* `instrs_resumed`: the second `resume_task` goes back into the first one, with
  the flag cleared.
* `misread`: **the first `resume_task` takes ten saved registers for the end of
  its frame**: at its last `iretq`, the frame is ten words further up.
-/

namespace Titanium

namespace Image

variable {I : Image} {m m' : Machine} {p stack : Word} {s : Saved} {i : ℕ}

variable (I) in
/-- The current task is interrupted in `resume_task`, before the test of a flag that is set; `s`
is being popped. -/
structure Untimely (m : Machine) (stack : Word) (s : Saved) (i : ℕ) : Prop where
  preemptible : I.Preemptible m stack
  ne_scheduler : m.currentTaskPtr ≠ I.schedulerTask
  queue : m.taskQueue = []
  popping : I.Popping m.mem m.currentTaskPtr stack true m.context s i
  frames : ∃ rest, m.frames m.currentTaskPtr = I.savedFrame s :: rest

variable (I) in
/-- What the scheduler leaves when it resumes the task at once. -/
structure Redispatched (m m' : Machine) (stack : Word) : Prop where
  pc : m'.pc = .asm .resumeTask 0
  rdi : m'.reg .rdi = m.currentTaskPtr
  sp : (m'.info m.currentTaskPtr).sp = Word.down m.aligned 21
  flag : (m'.info m.currentTaskPtr).interrupted = true
  frames : m'.frames = (I.preempted m).frames
  mem : ∀ b, I.stackMap.owner b = some stack → m'.mem b = (I.preempted m).mem b

/-- What `resume_scheduler` leaves of the rest of the machine. -/
lemma run_record_rest {x y : Scratch} (hrun : I.run m [.enter x, .record y] = some m') :
    m'.frames = m.frames ∧
      m'.taskQueue = (if resumeKind (m.reg .rsi) = .preempted ∨ resumeKind (m.reg .rsi) = .yielded
        then m.taskQueue ++ [m.staleTaskPtr] else m.taskQueue) ∧
      ∀ b, I.stackMap.owner b ≠ some I.schedulerTask → m'.mem b = m.mem b := by
  rw [run_cons, Option.bind_eq_some_iff] at hrun
  obtain ⟨m₁, henter, hrecord⟩ := hrun
  rw [run_singleton] at hrecord
  obtain ⟨-, m₂, hx, rfl⟩ := step_enter henter
  obtain ⟨-, mem₂, rfl, hmem₂⟩ := scratch_spec hx
  obtain ⟨-, m₃, hy, rfl⟩ := step_record hrecord
  obtain ⟨-, mem₃, rfl, hmem₃⟩ := scratch_spec hy
  exact ⟨rfl, rfl, fun b hb => (hmem₃ b hb).trans (hmem₂ b hb)⟩

lemma redispatched {x y z : Scratch} (h : I.Untimely m stack s i)
    (hrun : I.run (I.preempted m) ([.enter x, .record y] ++ [.dispatch z]) = some m') :
    I.Redispatched m m' stack := by
  have hpre := h.preemptible
  rw [run_append] at hrun
  obtain ⟨m₁, hrecord, hdispatch⟩ := Option.bind_eq_some_iff.mp hrun
  rw [run_singleton] at hdispatch
  obtain ⟨hinfo, -⟩ := preempted_recorded hpre hrecord
  obtain ⟨hframes, hqueue, hmem⟩ := run_record_rest hrecord
  have hkind : resumeKind ((I.preempted m).reg .rsi) = .preempted := rfl
  have hstale : (I.preempted m).staleTaskPtr = m.currentTaskPtr := hpre.stale
  have hnil : (I.preempted m).taskQueue = [] := h.queue
  rw [if_pos (Or.inl hkind), hnil, hstale, List.nil_append] at hqueue
  obtain ⟨-, m₂, hz, hcases⟩ := step_dispatch hdispatch
  obtain ⟨-, mem₂, rfl, hmem₂⟩ := scratch_spec hz
  have hmem' : ∀ b, I.stackMap.owner b = some stack → mem₂ b = (I.preempted m).mem b := by
    intro b hb
    have hsched : I.stackMap.owner b ≠ some I.schedulerTask := fun hb' =>
      hpre.stack_ne (Option.some.inj (hb.symm.trans hb'))
    exact (hmem₂ b hsched).trans (hmem b hsched)
  rcases hcases with ⟨hempty, -⟩ | ⟨taskPtr, rest, hcons, rfl⟩
  · cases hqueue.symm.trans hempty
  · obtain ⟨rfl, -⟩ := List.cons.inj (hqueue.symm.trans hcons)
    exact ⟨rfl, rfl, congrArg RawTaskInfo.sp hinfo, congrArg RawTaskInfo.interrupted hinfo, hframes,
      hmem'⟩

/-- The second `resume_task` has popped all but its frame. -/
lemma instrs_repopped (h : I.Untimely m stack s i) (hr : I.Redispatched m m' stack) :
    ∃ m₁, I.instrs 23 m' = some m₁ ∧
      I.Popping m₁.mem m.currentTaskPtr stack (m₁.info m.currentTaskPtr).interrupted m₁.context
        (preemptedContext m) 23 ∧ PopStep (switched m') m₁ m.currentTaskPtr := by
  have hwords : I.Popping (switched m').mem m.currentTaskPtr stack true
      (resumption m.currentTaskPtr (Word.down m.aligned 21)) (preemptedContext m) 5 :=
    { preempted_popping h.preemptible with
      words := (preempted_popping (p := m.currentTaskPtr) h.preemptible).words.congr
        fun b hb _ => hr.mem b hb }
  have hpop : I.Popping (switched m').mem m.currentTaskPtr stack
      ((switched m').info m.currentTaskPtr).interrupted (switched m').context (preemptedContext m)
      5 := by
    have hctx := hwords.of_resumption hr.rdi ((m'.rflags.setBit 9 false).setBit 9 true)
    have hflag : ((switched m').info m.currentTaskPtr).interrupted = true := hr.flag
    have hsp : (switched m').rsp = Word.down m.aligned 21 := by
      show (m'.info (m'.reg .rdi)).sp = _
      rw [hr.rdi, hr.sp]
    rw [hflag, Machine.context, hsp]
    exact hctx
  obtain ⟨m₁, h₁, hlast, hstep⟩ := hpop.finish rfl
  refine ⟨m₁, ?_, hlast, hstep⟩
  have hswitch : I.instrs 5 m' = some (switched m') := instrs_resume hr.pc
  rw [I.instrs_add 5 18, hswitch, Option.bind_some]
  exact h₁

variable (I) in
/-- The first `resume_task` goes on, but its flag has been cleared. -/
structure Cleared (m m' : Machine) (stack : Word) : Prop where
  pc : m'.pc = m.pc
  rsp : m'.rsp = m.rsp
  rdi : m'.reg .rdi = m.reg .rdi
  current : m'.currentTaskPtr = m.currentTaskPtr
  flag : (m'.info m.currentTaskPtr).interrupted = false
  frames : m'.frames m.currentTaskPtr = m.frames m.currentTaskPtr
  mem : ∀ b, I.stackMap.owner b = some stack → m.rsp.toNat ≤ b → m'.mem b = m.mem b

lemma instrs_resumed (h : I.Untimely m stack s i) (hr : I.Redispatched m m' stack) :
    ∃ m₁, I.instrs 24 m' = some m₁ ∧ I.Cleared m m₁ stack := by
  obtain ⟨m₁, h₁, hpop, hstep⟩ := instrs_repopped h hr
  have hcur : m₁.currentTaskPtr = m.currentTaskPtr := by
    rw [hstep.eq]
    exact hr.rdi
  have hmem₁ : m₁.mem = m'.mem := by rw [hstep.eq]; rfl
  have hframes₁ : m₁.frames = (I.preempted m).frames := by
    rw [hstep.eq]
    exact hr.frames
  have hinstr := instr_resume_iretq (w := []) (m := m₁) hpop.pc hpop.frame.2
  have hrun : I.instrs 24 m' = I.instr m₁ := by
    rw [I.instrs_add 23 1, h₁]
    exact Option.bind_fun_some _
  refine ⟨_, hrun.trans hinstr, ⟨?_, rfl, ?_, hcur, ?_, ?_, fun b hb hle => ?_⟩⟩
  · exact decode_address h.preemptible.pc_valid
  · exact hpop.regs rfl .rdi (by decide)
  · rw [hpop.flag]
    simp
  · show Function.update m₁.frames m₁.currentTaskPtr _ _ = _
    rw [hcur, Function.update_self, hframes₁]
    show ((if m.currentTaskPtr = I.schedulerTask then m.frames else _) m.currentTaskPtr).tail = _
    rw [if_neg h.ne_scheduler, Function.update_self]
    rfl
  · show m₁.mem b = m.mem b
    rw [hmem₁, hr.mem b hb]
    exact (preempted_suspends h.preemptible h.ne_scheduler).mem b (fun _ => hle) fun hb' =>
      h.preemptible.stack_ne (Option.some.inj (hb.symm.trans hb'))

/-! ### The test -/

lemma Untimely.preempted (h : I.Untimely m stack s i) : s.preempted = true ∧ i ≤ 11 := by
  have hflag := h.popping.flag
  rwa [eq_comm, Bool.and_eq_true, decide_eq_true_eq] at hflag

/-- The pops of the standard frame, from the instruction `i` on. -/
lemma straight_pops (h5 : 5 ≤ i) (h11 : i ≤ 11) :
    StraightCode .resumeTask i ((standardRegs.drop (i - 5)).map .pop) := by
  interval_cases i <;> exact ⟨by decide, by decide, by decide⟩

/-- With its flag cleared, `resume_task` comes to its last `iretq` right after the standard
frame. -/
lemma instrs_unflagged {ws rest : List Word} (hpc : m.pc = .asm .resumeTask i) (h5 : 5 ≤ i)
    (h11 : i ≤ 11) (hflag : (m.info (m.reg .rdi)).interrupted = false)
    (hlen : (standardRegs.drop (i - 5)).length = ws.length)
    (hw : I.stackMap.Words m.mem p m.rsp (ws ++ rest)) :
    ∃ m', I.instrs (11 - i + 2) m = some m' ∧ m'.pc = .asm .resumeTask 23 ∧
      m'.rsp = Word.up m.rsp (11 - i) ∧ m'.currentTaskPtr = m.currentTaskPtr ∧
      m'.frames = m.frames := by
  have hn : (standardRegs.drop (i - 5)).length = 11 - i := by
    rw [List.length_drop]
    show 6 - (i - 5) = 11 - i
    omega
  have hrdi : Reg.rdi ∉ standardRegs.drop (i - 5) := fun hmem =>
    absurd (List.mem_of_mem_drop hmem) (by decide)
  have hpops := instrs_pop hpc (straight_pops h5 h11) hlen hn hw
  have hpc' : Pc.asm .resumeTask (i + (11 - i)) = .asm .resumeTask 11 := by
    rw [Nat.add_sub_cancel' h11]
  rw [hpc'] at hpops
  have hbtr := instrs_btr (I := I) (m := { m with
    pc := .asm .resumeTask 11
    reg := setAll m.reg (standardRegs.drop (i - 5)) ws
    rsp := Word.up m.rsp (11 - i) }) rfl
  have hrun := (I.instrs_add (11 - i) 2 m).trans
    ((congrArg (Option.bind · (I.instrs 2)) hpops).trans hbtr)
  refine ⟨_, hrun, ?_, rfl, rfl, rfl⟩
  have hflag' :
      (m.info (setAll m.reg (standardRegs.drop (i - 5)) ws .rdi)).interrupted = false := by
    rw [setAll_of_notMem hrdi]
    exact hflag
  exact if_neg (by rw [hflag']; decide)

/-- **An interrupt before the test makes `resume_task` miss the frame**: when the scheduler resumes
the task at once, the first `resume_task` comes to its last `iretq` ten words below the frame that
was saved. -/
lemma misread {x y z : Scratch} (h : I.Untimely m stack s i)
    (hrun : I.run (I.preempted m) ([.enter x, .record y] ++ [.dispatch z]) = some m') :
    ∃ m₁, I.instrs (24 + (11 - i + 2)) m' = some m₁ ∧ m₁.pc = .asm .resumeTask 23 ∧
      ∃ f rest, m₁.frames m₁.currentTaskPtr = f :: rest ∧ f.addr = Word.up m₁.rsp 10 := by
  obtain ⟨m₂, h₂, hc⟩ := instrs_resumed h (redispatched h hrun)
  obtain ⟨hpre, h11⟩ := h.preempted
  obtain ⟨rest, hframes⟩ := h.frames
  have h5 := h.popping.lower
  have hw : I.stackMap.Words m₂.mem stack m₂.rsp
      ((standardRegs.map s.ctx.reg).drop (i - 5) ++ (s.general.drop (i - 13) ++
        (I.savedFrame s).words)) := by
    rw [hc.rsp]
    exact h.popping.words.congr fun b hb hle => hc.mem b hb hle
  have hrdi : m₂.reg .rdi = m.currentTaskPtr := hc.rdi.trans (h.popping.rdi h11)
  obtain ⟨m₁, h₁, hpc₁, hrsp₁, hcur₁, hframes₁⟩ :=
    instrs_unflagged (hc.pc.trans h.popping.pc) h5 h11
    (by rw [hrdi]; exact hc.flag) (by rw [List.length_drop, List.length_drop, List.length_map]) hw
  refine ⟨m₁, by rw [instrs_add, h₂, Option.bind_some, h₁], hpc₁, I.savedFrame s, rest, ?_, ?_⟩
  · rw [hframes₁, hcur₁, hc.current, hc.frames, hframes]
  · have hlen : (I.remaining s i).length - 5 = 11 - i + 10 := by
      have hstd : (standardRegs.map s.ctx.reg).length = 6 := rfl
      have hgen : s.general.length = 10 := by
        rw [Saved.general, if_pos hpre]
        rfl
      rw [remaining, show i - 13 = 0 by omega, List.drop_zero, List.length_append,
        List.length_append, List.length_drop, hstd, hgen]
      show 6 - (i - 5) + (10 + 5) - 5 = 11 - i + 10
      omega
    rw [hrsp₁, hc.rsp, Word.up_add, ← hlen]
    exact h.popping.addr.symm

end Image

end Titanium
