import Titanium.Scheduler.Saved

/-!
The invariant of the scheduler between its uninterruptible pieces of code.

* `view`: how a task goes on: as it is in the processor, or by a `resume_task`
  that pops what was saved of it.
* `TaskOk`: what the task goes on with is good, and the ghost frames are those
  of its saved contexts.
* `Settled`: **every task is as it should be**, and the scheduler or one of the
  tasks has control.
* `Local`, `Settled.of_local`: a step of a task on its own stack concerns nobody else.
-/

namespace Titanium

/-- The task was made by `spawn_task`, or is the boot code before `start_scheduler`, and it is
not being built. -/
def Machine.Live (m : Machine) (q : Word) : Prop :=
  (q ∈ m.allocated ∨ q = 0 ∧ m.started = false) ∧ ∀ p, m.building p ≠ some q

/-- A stack that the task uses: its own, and the one that it is building. -/
def Machine.Uses (m : Machine) (q stack : Word) : Prop := stack = q ∨ m.building q = some stack

namespace Image

/-- How a suspended task goes on: `resume_task` has the stack pointer `sp`. -/
def resumption (q sp : Word) : Context := ⟨.asm .resumeTask 5, fun _ => q, sp, 0⟩

/-- The flag `INTERRUPTED` and the context with which the task `q` goes on.  Until
`resume_scheduler` has recorded a released task, they are in its arguments. -/
def view (m : Machine) (q : Word) : Bool × Context :=
  if q = m.currentTaskPtr then ((m.info q).interrupted, m.context)
  else if q = m.staleTaskPtr ∧ m.pc = .rust .resumeScheduler then
    ((m.info q).interrupted || resumeKind (m.reg .rsi) = .preempted, resumption q (m.reg .rdi))
  else if q = m.staleTaskPtr ∧ m.pc = .rust .recording then
    ((m.info q).interrupted || m.released.2 = .preempted, resumption q m.released.1)
  else ((m.info q).interrupted, resumption q (m.info q).sp)

variable (I : Image)

/-- The task `q` is as it should be. -/
def TaskOk (m : Machine) (q : Word) : Prop :=
  ∃ stack L, m.Uses q stack ∧ I.Good m q stack (view m q).1 (view m q).2 L ∧
    m.frames q = L.map I.savedFrame

/-- The places at which the scheduler has control. -/
inductive SchedulerPc (m : Machine) : Prop where
  | resume (hpc : m.pc = .rust .resumeScheduler) (hmask : m.rflags.interrupts = false)
      (hstale : m.Live m.staleTaskPtr)
  | recording (hpc : m.pc = .rust .recording) (hstale : m.Live m.staleTaskPtr)
  | run (hpc : m.pc = .rust .runScheduler)
  | halted (hpc : m.pc = .rust .halted)
  | dispatch (hpc : m.pc = .asm .resumeTask 0) (hrdi : m.Live (m.reg .rdi))

/-- Who has control. -/
inductive Control (m : Machine) : Prop where
  | scheduler (hcur : m.currentTaskPtr = I.schedulerTask) (hstarted : m.started = true)
      (hon : I.stackMap.On I.schedulerTask m.rsp) (hpc : SchedulerPc m)
  | task (hlive : m.Live m.currentTaskPtr) (hstale : m.staleTaskPtr = m.currentTaskPtr)
      (hboot : m.started = false → m.currentTaskPtr = 0)

/-- The task infos and the stacks are in order. -/
structure Statics (m : Machine) : Prop where
  scheduler_id : (m.info I.schedulerTask).taskId = .ofNat 64 taskIdScheduler
  scheduler_sp : (m.info I.schedulerTask).sp = I.schedulerSp
  task_id : ∀ q ∈ m.allocated, (m.info q).taskId ≠ .ofNat 64 taskIdScheduler
  scheduler_notMem : I.schedulerTask ∉ m.allocated
  boot_notMem : 0 ∉ m.allocated
  fresh : ∀ q ∉ m.allocated, q ≠ 0 → m.frames q = []
  built : ∀ p q, m.building p = some q →
    m.Live p ∧ q ∈ m.allocated ∧ ∀ p', m.building p' = some q → p' = p

/-- **The invariant**, outside of the pieces of code that no interrupt can enter. -/
structure Settled (m : Machine) : Prop extends I.Statics m where
  queue : ∀ q ∈ m.taskQueue, q ∈ m.allocated ∧ ∀ p, m.building p ≠ some q
  tasks : ∀ q, m.Live q → I.TaskOk m q
  control : I.Control m

variable {I} {m m' : Machine} {p q stack : Word}

lemma view_current (m : Machine) :
    view m m.currentTaskPtr = ((m.info m.currentTaskPtr).interrupted, m.context) := if_pos rfl

lemma view_suspended (hcur : q ≠ m.currentTaskPtr)
    (hpc : q = m.staleTaskPtr → m.pc ≠ .rust .resumeScheduler ∧ m.pc ≠ .rust .recording) :
    view m q = ((m.info q).interrupted, resumption q (m.info q).sp) := by
  rw [view, if_neg hcur, if_neg fun h => (hpc h.1).1 h.2, if_neg fun h => (hpc h.1).2 h.2]

/-- While a task runs, another one is seen through its task info only. -/
lemma view_congr (hne : q ≠ m.currentTaskPtr) (hstale : m.staleTaskPtr = m.currentTaskPtr)
    (hne' : q ≠ m'.currentTaskPtr) (hstale' : m'.staleTaskPtr = m.staleTaskPtr)
    (hinfo : m'.info q = m.info q) : view m' q = view m q := by
  have hold : q ≠ m.staleTaskPtr := hstale ▸ hne
  have hview' : view m' q = _ := view_suspended hne' fun h => absurd (h.trans hstale') hold
  rw [hview', view_suspended hne fun h => absurd h hold, hinfo]

/-! ### Stacks -/

namespace Statics

/-- Different tasks use different stacks. -/
lemma stack_ne (hS : I.Statics m) (hp : m.Live p) (hq : m.Live q) (hne : q ≠ p) {σ : Word}
    (huses : m.Uses q stack) (huses' : m.Uses p σ) : stack ≠ σ := by
  rintro rfl
  cases huses with
  | inl hq' =>
      subst hq'
      cases huses' with
      | inl h => exact hne h
      | inr h => exact hq.2 p h
  | inr hb =>
      cases huses' with
      | inl h => exact hp.2 q (h ▸ hb)
      | inr h => exact hne ((hS.built p stack h).2.2 q hb)

/-- No task uses the stack of the scheduler. -/
lemma stack_ne_scheduler (hS : I.Statics m) (hq : m.Live q) (huses : m.Uses q stack) :
    stack ≠ I.schedulerTask := by
  rintro rfl
  cases huses with
  | inl h =>
      rcases hq.1 with hmem | ⟨h0, -⟩
      · exact hS.scheduler_notMem (h ▸ hmem)
      · exact I.schedulerTask_ne (h.trans h0)
  | inr hb => exact hS.scheduler_notMem (hS.built q _ hb).2.1

lemma ne_scheduler (hS : I.Statics m) (hq : m.Live q) : q ≠ I.schedulerTask :=
  hS.stack_ne_scheduler hq (Or.inl rfl)

end Statics

lemma live_congr (hall : m'.allocated = m.allocated) (hb : m'.building = m.building)
    (hstarted : m'.started = m.started) : m'.Live q ↔ m.Live q := by
  rw [Machine.Live, Machine.Live, hall, hb, hstarted]

/-- Most steps make no task. -/
lemma Statics.congr (hS : I.Statics m) (hall : m'.allocated = m.allocated)
    (hb : m'.building = m.building) (hstarted : m'.started = m.started)
    (hid : ∀ q, (m'.info q).taskId = (m.info q).taskId)
    (hsp : (m'.info I.schedulerTask).sp = (m.info I.schedulerTask).sp)
    (hframes : ∀ q ∉ m.allocated, q ≠ 0 → m'.frames q = m.frames q) : I.Statics m' := by
  refine ⟨(hid _).trans hS.scheduler_id, hsp.trans hS.scheduler_sp, fun q hq => ?_, ?_, ?_,
    fun q hq h0 => ?_, fun p q hbuild => ?_⟩
  · rw [hid]
    exact hS.task_id q (hall ▸ hq)
  · rw [hall]
    exact hS.scheduler_notMem
  · rw [hall]
    exact hS.boot_notMem
  · rw [hall] at hq
    rw [hframes q hq h0]
    exact hS.fresh q hq h0
  · rw [hb] at hbuild
    rw [live_congr hall hb hstarted, hall, hb]
    exact hS.built p q hbuild

/-! ### Tasks that a step does not concern -/

variable (I) in
/-- A step keeps everything that the task `q` goes on with. -/
structure Keeps (m m' : Machine) (q : Word) : Prop where
  view : view m' q = view m q
  building : m'.building q = m.building q
  frames : ∀ r, m.Uses q r → m'.frames r = m.frames r
  flag : ∀ r, m.building q = some r → (m'.info r).interrupted = (m.info r).interrupted
  mem : ∀ stack, m.Uses q stack → ∀ b, I.stackMap.owner b = some stack → m'.mem b = m.mem b

lemma TaskOk.keep (h : I.TaskOk m q) (hk : I.Keeps m m' q) : I.TaskOk m' q := by
  obtain ⟨stack, L, huses, hgood, hframes⟩ := h
  refine ⟨stack, L, ?_, ?_, (hk.frames q (Or.inl rfl)).trans hframes⟩
  · rw [Machine.Uses, hk.building]
    exact huses
  · rw [hk.view]
    exact hgood.congr hk.building (fun b hb _ => hk.mem stack huses b hb) fun r hr =>
      ⟨hk.frames r (Or.inr hr), hk.flag r hr, fun _ b hb => hk.mem r (Or.inr hr) b hb⟩

/-! ### Steps of a task -/

variable (I) in
/-- A step of the current task, on the stacks that it uses. -/
structure Local (m m' : Machine) : Prop where
  current : m'.currentTaskPtr = m.currentTaskPtr
  stale : m'.staleTaskPtr = m.staleTaskPtr
  queue : m'.taskQueue = m.taskQueue
  allocated : m'.allocated = m.allocated
  building : m'.building = m.building
  started : m'.started = m.started
  info : ∀ q, q ≠ m.currentTaskPtr → m'.info q = m.info q
  id : (m'.info m.currentTaskPtr).taskId = (m.info m.currentTaskPtr).taskId
  frames : ∀ q, ¬m.Uses m.currentTaskPtr q → m'.frames q = m.frames q
  mem : ∀ b, (∀ stack, m.Uses m.currentTaskPtr stack → I.stackMap.owner b ≠ some stack) →
    m'.mem b = m.mem b

lemma Local.live (h : I.Local m m') : m'.Live q ↔ m.Live q :=
  live_congr h.allocated h.building h.started

/-- The others keep what they go on with. -/
lemma Local.keeps (h : I.Local m m') (hS : I.Statics m) (hlive : m.Live m.currentTaskPtr)
    (hstale : m.staleTaskPtr = m.currentTaskPtr) (hq : m.Live q) (hne : q ≠ m.currentTaskPtr) :
    I.Keeps m m' q where
  view := view_congr hne hstale (h.current ▸ hne) h.stale (h.info q hne)
  building := congrFun h.building q
  frames r hr := h.frames r fun hr' => hS.stack_ne hlive hq hne hr hr' rfl
  flag r hr := by
    rw [h.info r]
    rintro rfl
    exact hlive.2 q hr
  mem stack huses b hb := h.mem b fun σ hσ hb' =>
    hS.stack_ne hlive hq hne huses hσ (Option.some.inj (hb.symm.trans hb'))

/-- **A step of a task concerns nobody else.** -/
lemma Settled.of_local (hS : I.Settled m) (hlive : m.Live m.currentTaskPtr)
    (hstale : m.staleTaskPtr = m.currentTaskPtr) (hboot : m.started = false → m.currentTaskPtr = 0)
    (h : I.Local m m') (hok : I.TaskOk m' m.currentTaskPtr) : I.Settled m' := by
  have hsched : I.schedulerTask ≠ m.currentTaskPtr := (hS.ne_scheduler hlive).symm
  refine {
    hS.toStatics.congr h.allocated h.building h.started (fun q => ?_) ?_ fun q hq h0 => ?_ with
    queue := ?_
    tasks := fun q hq => ?_
    control := Control.task ?_ ?_ ?_ }
  · by_cases hcur : q = m.currentTaskPtr
    · rw [hcur, h.id]
    · rw [h.info q hcur]
  · rw [h.info _ hsched]
  · refine h.frames q fun huses => ?_
    cases huses with
    | inl hcur =>
        rcases hlive.1 with hmem | ⟨hzero, -⟩
        · exact hq (hcur ▸ hmem)
        · exact h0 (hcur.trans hzero)
    | inr hb => exact hq (hS.built _ q hb).2.1
  · rw [h.queue, h.building, h.allocated]
    exact hS.queue
  · rw [h.live] at hq
    by_cases hcur : q = m.currentTaskPtr
    · exact hcur ▸ hok
    · exact (hS.tasks q hq).keep (h.keeps hS.toStatics hlive hstale hq hcur)
  · rw [h.live, h.current]
    exact hlive
  · rw [h.stale, h.current]
    exact hstale
  · rw [h.started, h.current]
    exact hboot

/-! ### Instructions of a task -/

lemma TaskOk.of_current {L : List Saved} (hcur : m.currentTaskPtr = q) (huses : m.Uses q stack)
    (hgood : I.Good m q stack (m.info q).interrupted m.context L)
    (hframes : m.frames q = L.map I.savedFrame) : I.TaskOk m q := by
  subst hcur
  refine ⟨stack, L, huses, ?_, hframes⟩
  rw [view_current]
  exact hgood

lemma PopStep.local (h : PopStep m m' m.currentTaskPtr) : I.Local m m' := by
  obtain ⟨f, hinfo⟩ := h.info
  rw [h.eq]
  refine ⟨rfl, rfl, rfl, rfl, rfl, rfl, fun q hq => ?_, ?_, fun _ _ => rfl, fun _ _ => rfl⟩
  · exact (congrFun hinfo q).trans (Function.update_of_ne hq ..)
  · show (m'.info m.currentTaskPtr).taskId = _
    rw [hinfo, Function.update_self]

lemma BuildStep.local (h : I.BuildStep m m' q) (hb : m.building m.currentTaskPtr = some q) :
    I.Local m m' := by
  rw [h.eq]
  exact ⟨rfl, rfl, rfl, rfl, rfl, rfl, fun _ _ => rfl, rfl,
    fun r hr => h.frames r fun hrq => hr (Or.inr (hrq ▸ hb)),
    fun b hb' => h.mem b (hb' q (Or.inr hb))⟩

/-- `resume_task` pops for the current task. -/
lemma taskOk_pop {s : Saved} {L : List Saved} {i : ℕ} (hlive : m.Live m.currentTaskPtr)
    (huses : m.Uses m.currentTaskPtr stack)
    (hpop : I.Popping m.mem m.currentTaskPtr stack (m.info m.currentTaskPtr).interrupted m.context
      s i)
    (hrest : I.Good m m.currentTaskPtr stack false s.ctx L)
    (hframes : m.frames m.currentTaskPtr = (s :: L).map I.savedFrame)
    (hstep : I.instr m = some m') : I.Local m m' ∧ I.TaskOk m' m.currentTaskPtr := by
  have hne : ∀ q, m.building m.currentTaskPtr = some q → q ≠ m.currentTaskPtr := fun q hb hq =>
    hlive.2 m.currentTaskPtr (hq ▸ hb)
  by_cases hi : i = 23
  · subst hi
    have hpc : m.pc = .asm .resumeTask 23 := hpop.pc
    rw [instr_resume_iretq (w := []) hpc hpop.frame.2, decode_address hrest.valid] at hstep
    obtain rfl := Option.some.inj hstep
    refine ⟨⟨rfl, rfl, rfl, rfl, rfl, rfl, fun _ _ => rfl, rfl, fun q hq => ?_, fun _ _ => rfl⟩, ?_⟩
    · exact Function.update_of_ne (fun h => hq (Or.inl h)) ..
    · refine TaskOk.of_current rfl huses ((Good.iretq hpop hrest).congr rfl (fun _ _ _ => rfl)
        fun q hb => ⟨Function.update_of_ne (hne q hb) .., rfl, fun _ _ _ => rfl⟩) ?_
      refine (Function.update_self ..).trans ?_
      rw [hframes]
      rfl
  · obtain ⟨m₁, h₁, hpop', hpops⟩ := hpop.advance hi
    obtain rfl : m' = m₁ := Option.some.inj (hstep.symm.trans h₁)
    obtain ⟨f, hinfo⟩ := hpops.info
    have hcur : m'.currentTaskPtr = m.currentTaskPtr := by rw [hpops.eq]
    have hmem : m'.mem = m.mem := by rw [hpops.eq]
    have hbuild : m'.building = m.building := by rw [hpops.eq]
    have hfr : m'.frames = m.frames := by rw [hpops.eq]
    have huses' : m'.Uses m.currentTaskPtr stack := by
      rw [Machine.Uses, hbuild]
      exact huses
    refine ⟨hpops.local, TaskOk.of_current (L := s :: L) hcur huses'
      ⟨⟨_, hpop'⟩, hrest.congr (congrFun hbuild _) (fun b _ _ => congrFun hmem b)
        fun q hb => ?_⟩ ?_⟩
    · rw [hinfo, Function.update_of_ne (hne q hb), hmem, hfr]
      exact ⟨rfl, rfl, fun _ _ _ => rfl⟩
    · rw [hfr]
      exact hframes

/-- An instruction of `resume_task` or `spawn_task` keeps the current task as it should be. -/
lemma taskOk_instr (hlive : m.Live m.currentTaskPtr) (hok : I.TaskOk m m.currentTaskPtr)
    (hpc : m.pc ≠ .asm .releaseTask 0) (hstep : I.instr m = some m') :
    I.Local m m' ∧ I.TaskOk m' m.currentTaskPtr := by
  obtain ⟨stack, L, huses, hgood, hframes⟩ := hok
  rw [view_current] at hgood
  cases L with
  | nil =>
      cases hgood.2 with
      | own hown hstack hon hb =>
          rcases hown with ⟨a, ha, -⟩ | h23
          · have ha' : m.pc = .user a := ha
            rw [instr, ha'] at hstep
            cases hstep
          · have h23' : m.pc = .asm .releaseTask 23 := h23
            rw [instr, h23'] at hstep
            cases (show (none : Option Machine) = some m' from hstep)
      | release hpc' => exact absurd hpc' hpc
      | @spawn q top entry i hb hne h hstack =>
          obtain ⟨h', hbuild⟩ := h.step hb hstep
          have hb' : m'.building m.currentTaskPtr = some q := by
            rw [hbuild.eq]
            exact hb
          have hcur : m'.currentTaskPtr = m.currentTaskPtr := by rw [hbuild.eq]
          refine ⟨hbuild.local hb, TaskOk.of_current (L := []) hcur ?_
            ⟨?_, Base.spawn hb' hne h' rfl⟩ ?_⟩
          · split_ifs
            · exact Or.inl rfl
            · exact Or.inr hb'
          · rw [hbuild.eq]
            exact hgood.1
          · rw [hbuild.frames _ hne.symm]
            exact hframes
  | cons s L =>
      obtain ⟨⟨i, hpop⟩, hrest⟩ := hgood
      exact taskOk_pop hlive huses hpop hrest hframes hstep

end Image

end Titanium
