import Titanium.Scheduler.EarlyExit
import Titanium.Scheduler.Events
import Titanium.Scheduler.Yield

/-!
The four pieces of code that no interrupt can enter lead back to the invariant:
the beginning of `resume_task`, `scheduler_preempt` in the scheduler and in a
task, and `release_task`.

* `Suspends`, `Settled.of_suspends`: a task has been suspended, for a preemption
  or because it was released.
* `settled_preempted`: **a task that is preempted outside of the window has one
  more saved context**; `settled_released`: the same for a task that releases
  the processor.
-/

namespace Titanium

namespace Image

variable {I : Image} {m m' : Machine} {p q stack : Word} {L : List Saved}

/-! ### The beginning of `resume_task` -/

/-- `resume_task` has switched to the task in `rdi`. -/
def switched (m : Machine) : Machine :=
  { m with
    pc := .asm .resumeTask 5
    rsp := (m.info (m.reg .rdi)).sp
    rflags := (m.rflags.setBit 9 false).setBit 9 true
    currentTaskPtr := m.reg .rdi
    staleTaskPtr := m.reg .rdi }

/-- At its first pop, `resume_task` has read nothing but `rdi`. -/
lemma Popping.of_resumption {f : Bool} {sp : Word} {s : Saved}
    (h : I.Popping m.mem q stack f (resumption q sp) s 5) {reg : Reg → Word} (hrdi : reg .rdi = q)
    (rflags : Word) : I.Popping m.mem q stack f ⟨.asm .resumeTask 5, reg, sp, rflags⟩ s 5 :=
  { h with
    pc := rfl
    rdi := fun _ => hrdi
    carry := by norm_num
    regs := fun _ r hr => absurd hr List.not_mem_nil }

lemma Good.of_resumption {f : Bool} {sp : Word} (h : I.Good m q stack f (resumption q sp) L)
    {reg : Reg → Word} (hrdi : reg .rdi = q) (rflags : Word) :
    I.Good m q stack f ⟨.asm .resumeTask 5, reg, sp, rflags⟩ L := by
  obtain ⟨s, L', rfl, hpop, hrest⟩ := h.popping (i := 5) rfl
  exact ⟨⟨5, hpop.of_resumption hrdi rflags⟩, hrest⟩

lemma settled_switched (hS : I.Settled m) (hpc : m.pc = .asm .resumeTask 0)
    (hcur : m.currentTaskPtr = I.schedulerTask) (hstarted : m.started = true)
    (hrdi : m.Live (m.reg .rdi)) : I.Settled (switched m) := by
  have hview : ∀ q, m.Live q → view m q = ((m.info q).interrupted, resumption q (m.info q).sp) :=
    fun q hq => view_suspended (hS.ne_current hcur hq) fun _ => by simp [hpc]
  refine { hS with
    tasks := fun q hq => ?_
    control := Control.task hrdi rfl fun h => absurd (hstarted.symm.trans h) (by decide) }
  by_cases hq' : q = m.reg .rdi
  · subst hq'
    obtain ⟨stack, L, huses, hgood, hframes⟩ := hS.tasks _ hrdi
    rw [hview _ hrdi] at hgood
    have hgood' : I.Good (switched m) (m.reg .rdi) stack (m.info (m.reg .rdi)).interrupted
        (switched m).context L :=
      (hgood.of_resumption rfl _).congr rfl (fun _ _ _ => rfl) fun _ _ =>
        ⟨rfl, rfl, fun _ _ _ => rfl⟩
    exact TaskOk.of_current rfl huses hgood' hframes
  · refine (hS.tasks q hq).keep ⟨?_, rfl, fun _ _ => rfl, fun _ _ => rfl, fun _ _ _ _ => rfl⟩
    rw [hview q hq]
    exact view_suspended hq' fun hs => absurd hs hq'

/-! ### An interrupt of the scheduler -/

lemma settled_returned (hS : I.Settled m) (h : I.Interruptible m I.schedulerTask)
    (hon : I.stackMap.On I.schedulerTask m.rsp) (hpc : SchedulerPc m) :
    I.Settled (I.returned m) := by
  have hframes : (I.returned m).frames = m.frames := if_pos h.current
  have hmem : ∀ b, I.stackMap.owner b ≠ some I.schedulerTask → (I.returned m).mem b = m.mem b :=
    fun b hb => returned_mem h fun hb' => absurd hb' hb
  have hstatics : I.Statics (I.returned m) :=
    hS.toStatics.congr rfl rfl rfl (fun _ => rfl) rfl fun q _ _ => congrFun hframes q
  have hview : ∀ q, m.Live q → view (I.returned m) q = view m q := by
    intro q hq
    have hne : q ≠ m.currentTaskPtr := hS.ne_current h.current hq
    have hne' : q ≠ (I.returned m).currentTaskPtr := hne
    rw [view, view, if_neg hne, if_neg hne']
    rfl
  refine { hstatics with
    queue := hS.queue
    tasks := fun q hq => (hS.tasks q hq).keep
      (hS.toStatics.keeps hq (hview q hq) rfl hframes (fun _ _ => rfl) hmem)
    control := Control.scheduler h.current h.started hon ?_ }
  cases hpc with
  | resume hpc hmask hstale => exact SchedulerPc.resume hpc hmask hstale
  | recording hpc hstale => exact SchedulerPc.recording hpc hstale
  | run hpc => exact SchedulerPc.run hpc
  | halted hpc => exact SchedulerPc.halted hpc
  | dispatch hpc hrdi => exact SchedulerPc.dispatch hpc hrdi

/-! ### A task is suspended -/

variable (I) in
/-- The current task has been suspended on the stack `stack`, with `sp` in the arguments of
`resume_scheduler`. -/
structure Suspends (m m' : Machine) (stack : Word) : Prop where
  pc : m'.pc = .rust .resumeScheduler
  current : m'.currentTaskPtr = I.schedulerTask
  mask : m'.rflags.interrupts = false
  on : I.stackMap.On I.schedulerTask m'.rsp
  stale : m'.staleTaskPtr = m.staleTaskPtr
  queue : m'.taskQueue = m.taskQueue
  allocated : m'.allocated = m.allocated
  building : m'.building = m.building
  started : m'.started = m.started
  info : m'.info = m.info
  frames : ∀ q, q ≠ m.currentTaskPtr → m'.frames q = m.frames q
  mem : ∀ b, (I.stackMap.owner b = some stack → m.rsp.toNat ≤ b) →
    I.stackMap.owner b ≠ some I.schedulerTask → m'.mem b = m.mem b

/-- The other tasks keep what they go on with. -/
lemma Suspends.keeps (h : I.Suspends m m' stack) (hS : I.Statics m)
    (hlive : m.Live m.currentTaskPtr) (hstale : m.staleTaskPtr = m.currentTaskPtr)
    (huses : m.Uses m.currentTaskPtr stack) (hq : m.Live q) (hne : q ≠ m.currentTaskPtr) :
    I.Keeps m m' q where
  view := view_congr hne hstale (h.current ▸ hS.ne_scheduler hq) h.stale (congrFun h.info q)
  building := congrFun h.building q
  frames r hr := h.frames r fun heq => hS.stack_ne hlive hq hne hr (Or.inl rfl) heq
  flag r _ := by rw [h.info]
  mem σ hσ b hb := h.mem b
    (fun hb' => absurd (Option.some.inj (hb.symm.trans hb')) (hS.stack_ne hlive hq hne hσ huses))
    fun hb' => hS.stack_ne_scheduler hq hσ (Option.some.inj (hb.symm.trans hb'))

lemma Settled.of_suspends (hS : I.Settled m) (h : I.Suspends m m' stack)
    (hlive : m.Live m.currentTaskPtr) (hstarted : m.started = true)
    (hstale : m.staleTaskPtr = m.currentTaskPtr) (huses : m.Uses m.currentTaskPtr stack)
    (hok : I.TaskOk m' m.currentTaskPtr) : I.Settled m' := by
  have hlive' : ∀ q, m'.Live q ↔ m.Live q := fun q =>
    live_congr h.allocated h.building h.started
  have hmem : m.currentTaskPtr ∈ m.allocated :=
    hlive.1.resolve_right fun h0 => absurd (hstarted.symm.trans h0.2) (by decide)
  have hstatics : I.Statics m' := by
    refine hS.toStatics.congr h.allocated h.building h.started (fun q => by rw [h.info])
      (by rw [h.info]) fun q hq _ => h.frames q ?_
    rintro rfl
    exact hq hmem
  refine { hstatics with
    queue := ?_
    tasks := fun q hq => ?_
    control := Control.scheduler h.current (h.started.trans hstarted) h.on
      (SchedulerPc.resume h.pc h.mask ?_) }
  · rw [h.queue, h.allocated, h.building]
    exact hS.queue
  · rw [hlive'] at hq
    by_cases hcur : q = m.currentTaskPtr
    · exact hcur ▸ hok
    · exact (hS.tasks q hq).keep (h.keeps hS.toStatics hlive hstale huses hq hcur)
  · rw [hlive', h.stale, hstale]
    exact hlive

/-- What was saved below stays. -/
lemma Suspends.good (h : I.Suspends m m' stack) (hS : I.Statics m)
    (hlive : m.Live m.currentTaskPtr) (huses : m.Uses m.currentTaskPtr stack) {c : Context}
    (hrsp : c.rsp = m.rsp) (hgood : I.Good m m.currentTaskPtr stack false c L) :
    I.Good m' m.currentTaskPtr stack false c L := by
  refine hgood.congr (congrFun h.building _) (fun b hb hle => ?_) fun q hb => ⟨?_, ?_, ?_⟩
  · refine h.mem b (fun _ => hrsp ▸ hle) fun hb' => ?_
    exact hS.stack_ne_scheduler hlive huses (Option.some.inj (hb.symm.trans hb'))
  · refine h.frames q ?_
    rintro rfl
    exact hlive.2 _ hb
  · rw [h.info]
  · intro hne b hbq
    refine h.mem b (fun hb' => absurd (Option.some.inj (hbq.symm.trans hb')) hne) fun hb' => ?_
    exact hS.stack_ne_scheduler hlive (Or.inr hb) (Option.some.inj (hbq.symm.trans hb'))

/-- **The suspended task is as it should be** when `resume_task` finds the context `s`. -/
lemma Suspends.taskOk (h : I.Suspends m m' stack) (hS : I.Statics m)
    (hlive : m.Live m.currentTaskPtr) (hstale : m.staleTaskPtr = m.currentTaskPtr)
    (huses : m.Uses m.currentTaskPtr stack)
    (hflag : (m.info m.currentTaskPtr).interrupted = false) {s : Saved}
    (hpop : I.Popping m'.mem m.currentTaskPtr stack (decide (resumeKind (m'.reg .rsi) = .preempted))
      (resumption m.currentTaskPtr (m'.reg .rdi)) s 5)
    (hrsp : s.ctx.rsp = m.rsp) (hgood : I.Good m m.currentTaskPtr stack false s.ctx L)
    (hframes : m'.frames m.currentTaskPtr = (s :: L).map I.savedFrame) :
    I.TaskOk m' m.currentTaskPtr := by
  refine ⟨stack, s :: L, ?_, ?_, hframes⟩
  · rw [Machine.Uses, h.building]
    exact huses
  · have hview : view m' m.currentTaskPtr = (decide (resumeKind (m'.reg .rsi) = .preempted),
        resumption m.currentTaskPtr (m'.reg .rdi)) := by
      rw [view, if_neg (h.current ▸ hS.ne_scheduler hlive),
        if_pos ⟨hstale.symm.trans h.stale.symm, h.pc⟩, h.info, hflag, Bool.false_or]
    rw [hview]
    exact ⟨⟨5, hpop⟩, h.good hS hlive huses hrsp hgood⟩

/-! ### Preemption -/

/-- The context that `scheduler_preempt` saves. -/
def preemptedContext (m : Machine) : Saved :=
  ⟨Word.down m.aligned 5, true, m.rflags.handlerFlags, ⟨m.pc, m.clobbered, m.rsp, m.rflags⟩⟩

lemma remaining_preemptedContext (m : Machine) :
    I.remaining (preemptedContext m) 5 = I.preemptedWords m := by
  show standardRegs.map m.clobbered ++ ((scratchRegs.map m.clobbered ++ [_]) ++ I.isf m) = _
  rw [List.append_assoc]
  rfl

lemma aligned_le (m : Machine) : m.aligned.toNat ≤ m.rsp.toNat := by
  rw [Machine.aligned, Word.toNat_align]
  exact Nat.sub_le _ _

lemma preempted_popping (h : I.Preemptible m stack) :
    I.Popping (I.preempted m).mem p stack true (resumption p (Word.down m.aligned 21))
      (preemptedContext m) 5 := by
  have hrem := remaining_preemptedContext (I := I) m
  have hlen : (I.remaining (preemptedContext m) 5).length = 21 := rfl
  have hroom := (StackMap.Room.of_add
    (show I.stackMap.Room stack m.aligned (21 + 5) from h.room)).1.toNat_down
  have haddr : Word.up (Word.down m.aligned 21) 16 = Word.down m.aligned 5 :=
    Word.up_down_of_le _ (by norm_num)
  refine ⟨rfl, le_refl 5, by norm_num, hrem ▸ preempted_words h, ?_, ?_, rfl, fun _ => rfl,
    by norm_num, by norm_num, fun _ r hr => absurd hr List.not_mem_nil, nofun⟩
  · rw [hlen]
    exact haddr
  · rw [hlen]
    show (Word.down m.aligned 21).toNat + 8 * 21 ≤ m.rsp.toNat
    have := aligned_le m
    omega

lemma preempted_suspends (h : I.Preemptible m stack) (hcur : m.currentTaskPtr ≠ I.schedulerTask) :
    I.Suspends m (I.preempted m) stack where
  pc := rfl
  current := rfl
  mask := Word.interrupts_setBit_self _ _
  on := StackMap.On.of_wordOwner (StackMap.room_succ.mp h.scheduler_room).1
  stale := rfl
  queue := rfl
  allocated := rfl
  building := rfl
  started := rfl
  info := rfl
  frames q hq := by
    show (if m.currentTaskPtr = I.schedulerTask then m.frames else _) q = _
    rw [if_neg hcur, Function.update_of_ne hq]
  mem b hb hsched := by
    obtain ⟨h5, h3, h18⟩ := h.room_split
    have hrsp : (I.taken m).rsp = Word.down m.aligned 8 := Word.down_add m.aligned 5 3
    have halign := aligned_le m
    have hd5 := h5.toNat_down
    have hd8 : (Word.down m.aligned 8).toNat + 8 * 3 = (Word.down m.aligned 5).toNat := by
      rw [← h3.toNat_down, Word.down_add]
    calc (I.preempted m).mem b
        = (I.stored (I.taken m)).mem b :=
          StackMap.pushAll_of_outside h.scheduler_room fun hb' => absurd hb' hsched
      _ = (I.taken m).mem b := by
          refine StackMap.pushAll_of_outside (hrsp ▸ h18) fun hb' => ?_
          have := hb hb'
          rw [hrsp]
          omega
      _ = (I.delivered m).mem b := StackMap.pushAll_of_outside h3 fun hb' => by
          have := hb hb'
          show (Word.down m.aligned 5).toNat ≤ b
          omega
      _ = m.mem b := StackMap.pushAll_of_outside h5 fun hb' => halign.trans (hb hb')

/-- **A preempted task has one more saved context**, unless its flag was still set. -/
lemma settled_preempted (hS : I.Settled m) (h : I.Preemptible m stack)
    (hlive : m.Live m.currentTaskPtr) (huses : m.Uses m.currentTaskPtr stack)
    (hflag : (m.info m.currentTaskPtr).interrupted = false)
    (hgood : I.Good m m.currentTaskPtr stack false m.context L)
    (hframes : m.frames m.currentTaskPtr = L.map I.savedFrame) : I.Settled (I.preempted m) := by
  have hcur : m.currentTaskPtr ≠ I.schedulerTask := hS.ne_scheduler hlive
  have hsus := preempted_suspends h hcur
  have hsp : (I.preempted m).reg .rdi = Word.down m.aligned 21 := by
    show Word.down (Word.down (Word.down m.aligned 5) 3) 13 = _
    rw [Word.down_add, Word.down_add]
  -- `r14` and `r15` are clobbered before they are saved, but nothing depends on them
  have hclob : ∀ r ∈ scratchRegs, m.clobbered r = m.reg r := by
    intro r hr
    have hne : r ≠ .r14 ∧ r ≠ .r15 := by
      revert r
      decide
    rw [Machine.clobbered, Function.update_of_ne hne.1, Function.update_of_ne hne.2]
  have hctx : I.Good m m.currentTaskPtr stack false (preemptedContext m).ctx L :=
    hgood.congr_reg hclob
  refine hS.of_suspends hsus hlive h.started h.stale huses
    (hsus.taskOk hS.toStatics hlive h.stale huses hflag ?_ rfl hctx ?_)
  · rw [hsp]
    exact preempted_popping h
  · show (if m.currentTaskPtr = I.schedulerTask then m.frames else _) m.currentTaskPtr = _
    rw [if_neg hcur, Function.update_self, hframes]
    rfl

/-! ### Release -/

/-- The context that `release_task` saves. -/
def releasedContext (m : Machine) : Saved :=
  ⟨Word.down m.rsp 5, false, 0, ⟨.asm .releaseTask 23, m.reg, m.rsp, m.rflags.setBit 9 false⟩⟩

/-- A task has come to the assembly of `release_task`, with room for what is pushed. -/
structure Releasable (I : Image) (m : Machine) : Prop where
  pc : m.pc = .asm .releaseTask 0
  kind : resumeKind (m.reg .rsi) ≠ .preempted
  on : I.stackMap.On m.currentTaskPtr m.rsp
  frame_room : I.stackMap.Room m.currentTaskPtr m.rsp 5
  room : I.stackMap.Room m.currentTaskPtr (Word.down m.rsp 5) 11
  scheduler_room : I.stackMap.Room I.schedulerTask (m.info I.schedulerTask).sp 1

lemma released_popping (h : Releasable I m) (hne : m.currentTaskPtr ≠ I.schedulerTask) :
    I.Popping (I.releasedOut m).mem m.currentTaskPtr m.currentTaskPtr false
      (resumption m.currentTaskPtr (Word.down m.rsp 11)) (releasedContext m) 5 := by
  have hlen : (I.remaining (releasedContext m) 5).length = 11 := rfl
  have haddr : Word.up (Word.down m.rsp 11) 6 = Word.down m.rsp 5 :=
    Word.up_down_of_le _ (by norm_num)
  have hroom := (StackMap.Room.of_add (show I.stackMap.Room m.currentTaskPtr m.rsp (11 + 5) from
    h.frame_room.add h.room)).1.toNat_down
  refine ⟨rfl, le_refl 5, by norm_num, released_words h.frame_room h.room h.scheduler_room hne, ?_,
    ?_, rfl, fun _ => rfl, by norm_num, by norm_num, nofun, fun _ => Or.inr rfl⟩
  · rw [hlen]
    exact haddr
  · rw [hlen]
    exact le_of_eq hroom

lemma released_suspends (h : Releasable I m) :
    I.Suspends m (I.releasedOut m) m.currentTaskPtr where
  pc := rfl
  current := rfl
  mask := Word.interrupts_setBit_self _ _
  on := StackMap.On.of_wordOwner (StackMap.room_succ.mp h.scheduler_room).1
  stale := rfl
  queue := rfl
  allocated := rfl
  building := rfl
  started := rfl
  info := rfl
  frames q hq := Function.update_of_ne hq ..
  mem b hb hsched := by
    have hd5 := h.frame_room.toNat_down
    calc (I.releasedOut m).mem b
        = (I.releaseStored (I.releaseFramed m)).mem b :=
          StackMap.pushAll_of_outside h.scheduler_room fun hb' => absurd hb' hsched
      _ = (I.releaseFramed m).mem b := StackMap.pushAll_of_outside h.room fun hb' => by
          have := hb hb'
          show (Word.down m.rsp 5).toNat ≤ b
          omega
      _ = m.mem b := StackMap.pushAll_of_outside h.frame_room hb

/-- **A task that releases the processor** has one saved context. -/
lemma settled_released (hS : I.Settled m) (h : Releasable I m) (hlive : m.Live m.currentTaskPtr)
    (hstarted : m.started = true) (hstale : m.staleTaskPtr = m.currentTaskPtr)
    (hflag : (m.info m.currentTaskPtr).interrupted = false)
    (hbuild : m.building m.currentTaskPtr = none) (hframes : m.frames m.currentTaskPtr = []) :
    I.Settled (I.releasedOut m) := by
  have hsus := released_suspends h
  have hsp : (I.releasedOut m).reg .rdi = Word.down m.rsp 11 := Word.down_add m.rsp 5 6
  have hkind : resumeKind ((I.releasedOut m).reg .rsi) ≠ .preempted := h.kind
  have hgood : I.Good m m.currentTaskPtr m.currentTaskPtr false (releasedContext m).ctx [] :=
    ⟨rfl, Base.own (Or.inr rfl) rfl h.on hbuild⟩
  refine hS.of_suspends hsus hlive hstarted hstale (Or.inl rfl)
    (hsus.taskOk hS.toStatics hlive hstale (Or.inl rfl) hflag ?_ rfl hgood ?_)
  · rw [hsp, decide_eq_false hkind]
    exact released_popping h (hS.ne_scheduler hlive)
  · show Function.update m.frames _ _ _ = _
    rw [Function.update_self, hframes]
    rfl

end Image

end Titanium
