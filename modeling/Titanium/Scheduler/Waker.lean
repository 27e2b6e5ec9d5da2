import Titanium.Scheduler.Switch

/-!
Wakers (`scheduler/waker.rs`) against the ready queue.

A waker is the raw pointer of its task, and waking pushes that pointer, in
whatever state the task is.  Interrupts are enabled between a release and the
requeue by `resume_scheduler`, and between the pop of `run_scheduler` and the
stores of `resume_task`; these are separate steps here, since a wake can come
between them.

* `Sys.step`: the scheduler with its wakers, one step at a time; `Refinement` puts
  the steps of a switch together again.
* `Sys.Asleep`: a task that is neither queued, nor popped, nor running, nor about
  to be requeued.
* `Awake`: the invariant of the runs in which only sleeping tasks are woken.
* `Parked`: a blocked task that nobody wakes stays out of the queue.
* `queue_sound_of_wakes_asleep`: in such runs the queue has no duplicate and does
  not hold the running task, and a blocked task waits for its wake.
* `wake_running_task`: waking the running task breaks all three.
-/

namespace Titanium

/-! ### Wakers -/

/-- `RawWaker` with `RAW_WAKER_VTABLE`: the pointer it was made from. -/
structure RawWaker where
  taskPtr : TaskPtr
  deriving DecidableEq, Repr

namespace RawWaker

/-- `waker_from_task_info`. -/
def wakerFromTaskInfo (taskInfo : TaskPtr) : RawWaker := ⟨taskInfo⟩

/-- `clone`. -/
def clone (w : RawWaker) : RawWaker := ⟨w.taskPtr⟩

/-- The push that `wake` and `wake_by_ref` consist of. -/
def push (w : RawWaker) (s : Sched) : Sched := { s with taskQueue := s.taskQueue ++ [w.taskPtr] }

/-- `wake`. -/
def wake (w : RawWaker) (s : Sched) : Sched := w.push s

/-- `wake_by_ref`. -/
def wakeByRef (w : RawWaker) (s : Sched) : Sched := w.push s

end RawWaker

namespace Sched

/-- The test at the start of `run_scheduler`: the front of the queue is popped, or the idle loop is
entered. -/
def popTask (s : Sched) : Option TaskPtr × Sched :=
  match s.taskQueue with
  | taskPtr :: rest => (some taskPtr, { s with taskQueue := rest })
  | [] => (none, { s with mode := .halted })

end Sched

/-- The scheduler, the task that `run_scheduler` has popped and not resumed yet, and the wakers
that are alive. -/
structure Sys where
  sched : Sched
  popped : Option TaskPtr
  wakers : List RawWaker

namespace Sys

/-- What can happen.  Every waker goes back to a `waker_from_task_info` on the
pointer that `spawn_task` returned. -/
inductive Event where
  | spawn (options priority finalSp : ℕ)
  | start
  | pop
  | resume
  | release (sp : ℕ) (kind : ResumeKind)
  | timer (sp : ℕ)
  | requeue
  | waker (rawId : ℕ)
  | clone (w : RawWaker)
  | wake (w : RawWaker)
  | wakeByRef (w : RawWaker)
  | drop (w : RawWaker)
  deriving DecidableEq, Repr

/-- One step, `none` when the event cannot happen. -/
def step (s : Sys) : Event → Option Sys
  | .spawn options priority finalSp =>
      match s.sched.mode with
      | .boot => (s.sched.spawnTask options priority finalSp).map fun t => { s with sched := t }
      | .task _ => (s.sched.spawnTask options priority finalSp).map fun t => { s with sched := t }
      | _ => none
  | .start => if s.sched.mode = .boot then some { s with sched := s.sched.startScheduler } else none
  | .pop =>
      if s.sched.mode = .scheduler ∧ s.popped = none then
        some { s with sched := s.sched.popTask.2, popped := s.sched.popTask.1 }
      else none
  | .resume => s.popped.map fun ptr => { s with sched := s.sched.resumeTask ptr, popped := none }
  | .release sp kind =>
      match s.sched.mode with
      | .task _ => some { s with sched := s.sched.releaseTask sp kind }
      | _ => none
  | .timer sp =>
      if s.sched.mode = .boot then none else some { s with sched := s.sched.schedulerPreempt sp }
  | .requeue =>
      match s.sched.mode with
      | .released sp kind => some { s with sched := s.sched.resumeScheduler sp kind }
      | _ => none
  | .waker rawId =>
      if firstTaskId ≤ rawId ∧ rawId < s.sched.nextTaskId then
        some { s with wakers := RawWaker.wakerFromTaskInfo (.task rawId) :: s.wakers }
      else none
  | .clone w => if w ∈ s.wakers then some { s with wakers := w.clone :: s.wakers } else none
  -- `wake` takes the waker by value
  | .wake w =>
      if w ∈ s.wakers then some { s with sched := w.wake s.sched, wakers := s.wakers.erase w }
      else none
  | .wakeByRef w => if w ∈ s.wakers then some { s with sched := w.wakeByRef s.sched } else none
  | .drop w => if w ∈ s.wakers then some { s with wakers := s.wakers.erase w } else none

/-- A run. -/
def run (s : Sys) (es : List Event) : Option Sys := es.foldlM step s

/-- The tasks that a run resumes, in order. -/
def dispatches (s : Sys) : List Event → List TaskPtr
  | [] => []
  | e :: es =>
      (if e = .resume then s.popped.toList else []) ++
        match s.step e with
        | some s' => s'.dispatches es
        | none => []

/-- The state in which `scheduler::init` leaves the scheduler. -/
def boot (sp : ℕ) : Sys := ⟨Sched.boot sp, none, []⟩

/-- The task that an event wakes. -/
def Event.woken : Event → Option TaskPtr
  | .wake w => some w.taskPtr
  | .wakeByRef w => some w.taskPtr
  | _ => none

end Sys

/-! ### Sleeping tasks -/

namespace Sched

/-- The task that is running, or that `resume_scheduler` is about to requeue. -/
def holder (s : Sched) : Option TaskPtr :=
  match s.mode with
  | .task ptr => some ptr
  | .released _ kind =>
      if kind = .preempted ∨ kind = .yielded then some s.staleTaskPtr else none
  | _ => none

/-- The pointer of a task that was spawned. -/
def Spawned (s : Sched) (ptr : TaskPtr) : Prop :=
  ∃ n, firstTaskId ≤ n ∧ n < s.nextTaskId ∧ ptr = .task n

end Sched

namespace Sys

/-- The task that is popped, running, or about to be requeued. -/
def holder (s : Sys) : Option TaskPtr := s.popped.or s.sched.holder

/-- Neither queued, nor popped, nor running, nor about to be requeued. -/
def Asleep (s : Sys) (ptr : TaskPtr) : Prop := ptr ∉ s.sched.taskQueue ∧ s.holder ≠ some ptr

instance (s : Sys) (ptr : TaskPtr) : Decidable (s.Asleep ptr) :=
  inferInstanceAs (Decidable (_ ∧ _))

/-- Along the run, every wake reaches a sleeping task. -/
def WakesAsleep (s : Sys) : List Event → Prop
  | [] => True
  | e :: es => (∀ ptr ∈ e.woken, s.Asleep ptr) ∧
      match s.step e with
      | some s' => s'.WakesAsleep es
      | none => True

instance decidableWakesAsleep : ∀ (s : Sys) (es : List Event), Decidable (s.WakesAsleep es)
  | _, [] => isTrue trivial
  | _, _ :: es =>
      have : ∀ o : Option Sys, Decidable (match o with
          | some s' => s'.WakesAsleep es
          | none => True)
        | some s' => decidableWakesAsleep s' es
        | none => isTrue trivial
      inferInstanceAs (Decidable (_ ∧ _))

/-! ### What a step does -/

/-- What the pointers say about who has control; every step keeps it, whoever is
woken. -/
structure Pointers (s : Sys) : Prop where
  first_le : firstTaskId ≤ s.sched.nextTaskId
  schedulerId : (s.sched.info .schedulerTask).taskId = taskIdScheduler
  taskIds : ∀ ptr, s.sched.Spawned ptr → (s.sched.info ptr).taskId ≠ taskIdScheduler
  queue : ∀ ptr ∈ s.sched.taskQueue, s.sched.Spawned ptr
  wakers : ∀ w ∈ s.wakers, s.sched.Spawned w.taskPtr
  popped : ∀ ptr, s.popped = some ptr → s.sched.mode = .scheduler ∧ s.sched.Spawned ptr
  task : ∀ ptr, s.sched.mode = .task ptr → s.sched.staleTaskPtr = ptr ∧ s.sched.Spawned ptr
  released : ∀ sp kind, s.sched.mode = .released sp kind → s.sched.Spawned s.sched.staleTaskPtr
  current : s.sched.mode = .boot ∨ (∃ ptr, s.sched.mode = .task ptr) ∨
    s.sched.currentTaskPtr = .schedulerTask

/-- What a step does to the queue and to the holder. -/
inductive Effect (s : Sys) (e : Event) (s' : Sys) : Prop where
  /-- A new task is queued. -/
  | spawn (hnext : s'.sched.nextTaskId = s.sched.nextTaskId + 1)
      (hqueue : s'.sched.taskQueue = s.sched.taskQueue ++ [.task s.sched.nextTaskId])
      (hholder : s'.holder = s.holder)
  /-- The front of the queue is popped. -/
  | pop (ptr : TaskPtr) (hnext : s'.sched.nextTaskId = s.sched.nextTaskId)
      (hqueue : s.sched.taskQueue = ptr :: s'.sched.taskQueue)
      (hfree : s.holder = none) (hholder : s'.holder = some ptr)
  /-- The holder goes to the back. -/
  | requeue (ptr : TaskPtr) (hnext : s'.sched.nextTaskId = s.sched.nextTaskId)
      (hqueue : s'.sched.taskQueue = s.sched.taskQueue ++ [ptr])
      (hholder : s.holder = some ptr) (hfree : s'.holder = none)
  /-- A task is woken. -/
  | wake (ptr : TaskPtr) (hnext : s'.sched.nextTaskId = s.sched.nextTaskId)
      (hqueue : s'.sched.taskQueue = s.sched.taskQueue ++ [ptr])
      (hholder : s'.holder = s.holder) (he : e.woken = some ptr)
  /-- The queue stays as it is, and there is no new holder. -/
  | other (hnext : s'.sched.nextTaskId = s.sched.nextTaskId)
      (hqueue : s'.sched.taskQueue = s.sched.taskQueue)
      (hholder : s'.holder = s.holder ∨ s'.holder = none)

variable {s s' : Sys} {e : Event}

lemma taskId_update {info : TaskPtr → TaskInfo} {ptr : TaskPtr} {i : TaskInfo}
    (hid : i.taskId = (info ptr).taskId) (q : TaskPtr) :
    (Function.update info ptr i q).taskId = (info q).taskId := by
  by_cases hq : q = ptr
  · rw [hq, Function.update_self]
    exact hid
  · rw [Function.update_of_ne hq]

lemma pointers_boot (sp : ℕ) : Pointers (boot sp) := by
  refine ⟨le_rfl, rfl, ?_, ?_, ?_, ?_, ?_, ?_, Or.inl rfl⟩
  · rintro ptr ⟨n, h1, h2, -⟩
    exact absurd h2 (not_lt.mpr h1)
  all_goals simp [boot, Sched.boot]

namespace Pointers

/-- Outside `run_scheduler` nothing is popped. -/
lemma popped_eq_none (hP : Pointers s) (hmode : s.sched.mode ≠ .scheduler) : s.popped = none := by
  cases hp : s.popped with
  | none => rfl
  | some ptr => exact absurd (hP.popped ptr hp).1 hmode

lemma spawn (hP : Pointers s) {options priority sp : ℕ} {t : Sched}
    (h : s.sched.spawnTask options priority sp = some t) :
    Pointers { s with sched := t } ∧ Effect s e { s with sched := t } := by
  obtain ⟨⟨-, -, hle⟩, heq⟩ := Option.ite_none_right_eq_some.mp h
  cases heq
  have hmono : ∀ {ptr}, s.sched.Spawned ptr → Sched.Spawned { s.sched with
      nextTaskId := s.sched.nextTaskId + 1 } ptr :=
    fun ⟨n, h1, h2, hp⟩ => ⟨n, h1, Nat.lt_succ_of_lt h2, hp⟩
  refine ⟨⟨Nat.le_succ_of_le hP.first_le, ?_, fun ptr hptr => ?_, fun ptr hptr => ?_,
    fun w hw => hmono (hP.wakers w hw),
    fun ptr hptr => ⟨(hP.popped ptr hptr).1, hmono (hP.popped ptr hptr).2⟩,
    fun ptr hmode => ⟨(hP.task ptr hmode).1, hmono (hP.task ptr hmode).2⟩,
    fun sp kind hmode => hmono (hP.released sp kind hmode), hP.current⟩,
    Effect.spawn rfl rfl rfl⟩
  · show (Function.update s.sched.info _ _ TaskPtr.schedulerTask).taskId = taskIdScheduler
    rw [Function.update_of_ne (by simp)]
    exact hP.schedulerId
  · obtain ⟨n, h1, h2, rfl⟩ := hptr
    show (Function.update s.sched.info _ _ (TaskPtr.task n)).taskId ≠ taskIdScheduler
    by_cases hn : n = s.sched.nextTaskId
    · rw [hn, Function.update_self]
      exact makeTaskId_ne hle
    · rw [Function.update_of_ne fun heq => hn (TaskPtr.task.inj heq)]
      exact hP.taskIds _ ⟨n, h1, lt_of_le_of_ne (Nat.lt_succ_iff.mp h2) hn, rfl⟩
  · cases List.mem_append.mp hptr with
    | inl hmem => exact hmono (hP.queue ptr hmem)
    | inr hmem =>
        exact ⟨s.sched.nextTaskId, hP.first_le, Nat.lt_succ_self _, List.mem_singleton.mp hmem⟩

lemma start (hP : Pointers s) (hmode : s.sched.mode = .boot) :
    Pointers { s with sched := s.sched.startScheduler } ∧
      Effect s .start { s with sched := s.sched.startScheduler } := by
  have hpopped : s.popped = none := hP.popped_eq_none (by simp [hmode])
  refine ⟨⟨hP.first_le, hP.schedulerId, hP.taskIds, hP.queue, hP.wakers, ?_, ?_, ?_,
    Or.inr (Or.inr rfl)⟩, Effect.other rfl rfl (Or.inr ?_)⟩
  · simp [hpopped]
  · simp [Sched.startScheduler]
  · simp [Sched.startScheduler]
  · simp [Sys.holder, hpopped, Sched.holder, Sched.startScheduler]

/-- The pop of `run_scheduler`. -/
lemma pop (hP : Pointers s) (hmode : s.sched.mode = .scheduler) (hpopped : s.popped = none) :
    Pointers { s with sched := s.sched.popTask.2, popped := s.sched.popTask.1 } ∧
      Effect s e { s with sched := s.sched.popTask.2, popped := s.sched.popTask.1 } := by
  have hfree : s.holder = none := by simp [Sys.holder, hpopped, Sched.holder, hmode]
  have hcur : s.sched.currentTaskPtr = .schedulerTask := by simpa [hmode] using hP.current
  cases hq : s.sched.taskQueue with
  | nil =>
      have heq : s.sched.popTask = (none, { s.sched with mode := .halted }) := by
        simp [Sched.popTask, hq]
      rw [heq]
      refine ⟨⟨hP.first_le, hP.schedulerId, hP.taskIds, hP.queue, hP.wakers, ?_, ?_, ?_,
        Or.inr (Or.inr hcur)⟩, Effect.other rfl rfl (Or.inr rfl)⟩ <;> simp
  | cons ptr rest =>
      have heq : s.sched.popTask = (some ptr, { s.sched with taskQueue := rest }) := by
        simp [Sched.popTask, hq]
      have hspawned := hP.queue ptr (hq ▸ List.mem_cons_self ..)
      rw [heq]
      refine ⟨⟨hP.first_le, hP.schedulerId, hP.taskIds,
        fun q hmem => hP.queue q (hq ▸ List.mem_cons_of_mem ptr hmem), hP.wakers, fun q hq' => ?_,
        hP.task, hP.released, hP.current⟩, Effect.pop ptr rfl hq hfree rfl⟩
      cases hq'
      exact ⟨hmode, hspawned⟩

/-- The stores of `resume_task`: the task that was popped runs. -/
lemma resume (hP : Pointers s) {ptr : TaskPtr} (hptr : s.popped = some ptr) :
    Pointers { s with sched := s.sched.resumeTask ptr, popped := none } ∧
      Effect s e { s with sched := s.sched.resumeTask ptr, popped := none } := by
  obtain ⟨-, hspawned⟩ := hP.popped ptr hptr
  refine ⟨⟨hP.first_le, ?_, fun q hq => ?_, hP.queue, hP.wakers, by simp, fun q hmode' => ?_, ?_,
    Or.inr (Or.inl ⟨ptr, rfl⟩)⟩, Effect.other rfl rfl (Or.inl ?_)⟩
  · show (Function.update s.sched.info _ _ TaskPtr.schedulerTask).taskId = taskIdScheduler
    obtain ⟨n, -, -, rfl⟩ := hspawned
    rw [Function.update_of_ne (by simp)]
    exact hP.schedulerId
  · show (Function.update s.sched.info ptr _ q).taskId ≠ taskIdScheduler
    rw [taskId_update]
    · exact hP.taskIds q hq
    · rfl
  · cases hmode'
    exact ⟨rfl, hspawned⟩
  · simp [Sched.resumeTask]
  · simp [Sys.holder, hptr, Sched.holder, Sched.resumeTask]

/-- `scheduler_jump_out`, from `release_task` or from the timer. -/
lemma jumpOut (hP : Pointers s) {ptr : TaskPtr} (hmode : s.sched.mode = .task ptr) {sp : ℕ}
    {kind : ResumeKind} :
    Pointers { s with sched := s.sched.jumpOut sp kind } ∧
      Effect s e { s with sched := s.sched.jumpOut sp kind } := by
  obtain ⟨hstale, hspawned⟩ := hP.task ptr hmode
  have hpopped : s.popped = none := hP.popped_eq_none (by simp [hmode])
  refine ⟨⟨hP.first_le, hP.schedulerId, hP.taskIds, hP.queue, hP.wakers, ?_, ?_, fun _ _ _ => ?_,
    Or.inr (Or.inr rfl)⟩, Effect.other rfl rfl ?_⟩
  · simp [hpopped]
  · simp [Sched.jumpOut]
  · show s.sched.Spawned s.sched.staleTaskPtr
    rw [hstale]
    exact hspawned
  · simp only [Sys.holder, hpopped, Option.none_or, Sched.holder, Sched.jumpOut, hmode, hstale]
    split_ifs <;> simp

lemma timer (hP : Pointers s) {sp : ℕ} (hmode : s.sched.mode ≠ .boot) :
    Pointers { s with sched := s.sched.schedulerPreempt sp } ∧
      Effect s (.timer sp) { s with sched := s.sched.schedulerPreempt sp } := by
  by_cases hid : (s.sched.info s.sched.currentTaskPtr).taskId = taskIdScheduler
  · rw [show s.sched.schedulerPreempt sp = s.sched from if_pos hid]
    exact ⟨hP, Effect.other rfl rfl (Or.inl rfl)⟩
  · rw [show s.sched.schedulerPreempt sp = s.sched.jumpOut sp .preempted from if_neg hid]
    rcases hP.current with hboot | ⟨ptr, htask⟩ | hcur
    · exact absurd hboot hmode
    · exact hP.jumpOut htask
    · exact absurd (hcur ▸ hP.schedulerId) hid

lemma requeue (hP : Pointers s) {sp : ℕ} {kind : ResumeKind}
    (hmode : s.sched.mode = .released sp kind) :
    Pointers { s with sched := s.sched.resumeScheduler sp kind } ∧
      Effect s .requeue { s with sched := s.sched.resumeScheduler sp kind } := by
  have hcur : s.sched.currentTaskPtr = .schedulerTask := by simpa [hmode] using hP.current
  have hstale := hP.released sp kind hmode
  have hpopped : s.popped = none := hP.popped_eq_none (by simp [hmode])
  have hfree : Sys.holder { s with sched := s.sched.resumeScheduler sp kind } = none := by
    simp [Sys.holder, hpopped, Sched.holder, Sched.resumeScheduler]
  refine ⟨⟨hP.first_le, ?_, fun ptr hptr => ?_, fun ptr hptr => ?_, hP.wakers, ?_, ?_, ?_,
    Or.inr (Or.inr hcur)⟩, ?_⟩
  · show (Function.update s.sched.info _ _ TaskPtr.schedulerTask).taskId = taskIdScheduler
    obtain ⟨n, -, -, hn⟩ := hstale
    rw [Function.update_of_ne (by simp [hn])]
    exact hP.schedulerId
  · show (Function.update s.sched.info s.sched.staleTaskPtr _ ptr).taskId ≠ taskIdScheduler
    rw [taskId_update]
    · exact hP.taskIds ptr hptr
    · rfl
  · simp only [Sched.resumeScheduler] at hptr
    split_ifs at hptr with hkind
    · cases List.mem_append.mp hptr with
      | inl hmem => exact hP.queue ptr hmem
      | inr hmem => exact List.mem_singleton.mp hmem ▸ hstale
    · exact hP.queue ptr hptr
  · simp [hpopped]
  · simp [Sched.resumeScheduler]
  · simp [Sched.resumeScheduler]
  · by_cases hkind : kind = .preempted ∨ kind = .yielded
    · exact Effect.requeue s.sched.staleTaskPtr rfl (by simp [Sched.resumeScheduler, hkind])
        (by simp [Sys.holder, hpopped, Sched.holder, hmode, hkind]) hfree
    · exact Effect.other rfl (by simp [Sched.resumeScheduler, hkind]) (Or.inr hfree)

/-- A push by a waker, whatever becomes of the waker. -/
lemma push (hP : Pointers s) {w : RawWaker} (hw : w ∈ s.wakers) {ws : List RawWaker}
    (hws : ws ⊆ s.wakers) (he : e.woken = some w.taskPtr) :
    Pointers { s with sched := w.push s.sched, wakers := ws } ∧
      Effect s e { s with sched := w.push s.sched, wakers := ws } := by
  refine ⟨⟨hP.first_le, hP.schedulerId, hP.taskIds, fun ptr hptr => ?_,
    fun w' hw' => hP.wakers w' (hws hw'), hP.popped, hP.task, hP.released, hP.current⟩,
    Effect.wake w.taskPtr rfl rfl rfl he⟩
  cases List.mem_append.mp hptr with
  | inl hmem => exact hP.queue ptr hmem
  | inr hmem => exact List.mem_singleton.mp hmem ▸ hP.wakers w hw

/-- Making, cloning and dropping wakers. -/
lemma setWakers (hP : Pointers s) {ws : List RawWaker}
    (hws : ∀ w ∈ ws, s.sched.Spawned w.taskPtr) :
    Pointers { s with wakers := ws } ∧ Effect s e { s with wakers := ws } :=
  ⟨⟨hP.first_le, hP.schedulerId, hP.taskIds, hP.queue, hws, hP.popped, hP.task, hP.released,
    hP.current⟩, Effect.other rfl rfl (Or.inl rfl)⟩

/-- **The step lemma.** -/
lemma step (hP : Pointers s) (h : s.step e = some s') : Pointers s' ∧ Effect s e s' := by
  cases e with
  | spawn options priority finalSp =>
      obtain ⟨t, ht, heq⟩ : ∃ t, s.sched.spawnTask options priority finalSp = some t ∧
          { s with sched := t } = s' := by
        simp only [Sys.step] at h
        split at h
        · exact Option.map_eq_some_iff.mp h
        · exact Option.map_eq_some_iff.mp h
        · cases h
      rw [← heq]
      exact hP.spawn ht
  | start =>
      obtain ⟨hmode, heq⟩ := Option.ite_none_right_eq_some.mp h
      cases heq
      exact hP.start hmode
  | pop =>
      obtain ⟨⟨hmode, hpopped⟩, heq⟩ := Option.ite_none_right_eq_some.mp h
      cases heq
      exact hP.pop hmode hpopped
  | resume =>
      obtain ⟨ptr, hptr, heq⟩ := Option.map_eq_some_iff.mp h
      cases heq
      exact hP.resume hptr
  | release sp kind =>
      simp only [Sys.step] at h
      split at h
      case h_1 ptr hmode =>
        cases h
        exact hP.jumpOut hmode
      case h_2 => cases h
  | timer sp =>
      obtain ⟨hmode, heq⟩ := Option.ite_none_left_eq_some.mp h
      cases heq
      exact hP.timer hmode
  | requeue =>
      simp only [Sys.step] at h
      split at h
      case h_1 sp kind hmode =>
        cases h
        exact hP.requeue hmode
      case h_2 => cases h
  | waker rawId =>
      obtain ⟨⟨h1, h2⟩, heq⟩ := Option.ite_none_right_eq_some.mp h
      cases heq
      exact hP.setWakers (List.forall_mem_cons.mpr ⟨⟨rawId, h1, h2, rfl⟩, hP.wakers⟩)
  | clone w =>
      obtain ⟨hw, heq⟩ := Option.ite_none_right_eq_some.mp h
      cases heq
      exact hP.setWakers (List.forall_mem_cons.mpr ⟨hP.wakers w hw, hP.wakers⟩)
  | wake w =>
      obtain ⟨hw, heq⟩ := Option.ite_none_right_eq_some.mp h
      cases heq
      exact hP.push hw List.erase_subset rfl
  | wakeByRef w =>
      obtain ⟨hw, heq⟩ := Option.ite_none_right_eq_some.mp h
      cases heq
      exact hP.push hw (List.Subset.refl _) rfl
  | drop w =>
      obtain ⟨hw, heq⟩ := Option.ite_none_right_eq_some.mp h
      cases heq
      exact hP.setWakers (fun w' hw' => hP.wakers w' (List.mem_of_mem_erase hw'))

lemma run (hP : Pointers s) {es : List Event} (h : s.run es = some s') : Pointers s' := by
  induction es generalizing s with
  | nil =>
      cases h
      exact hP
  | cons e es ih =>
      obtain ⟨s₁, h₁, h⟩ := Option.bind_eq_some_iff.mp h
      exact ih (hP.step h₁).1 h

end Pointers

/-! ### Runs -/

/-- **The invariant** of the runs that wake sleeping tasks only: the queue and
the holder are all different. -/
structure Awake (s : Sys) : Prop where
  pointers : Pointers s
  queue : s.sched.taskQueue.Nodup
  holder : ∀ ptr, s.holder = some ptr → ptr ∉ s.sched.taskQueue

lemma awake_boot (sp : ℕ) : Awake (boot sp) :=
  ⟨pointers_boot sp, List.nodup_nil, fun _ _ => List.not_mem_nil⟩

lemma Pointers.next_notMem (hP : Pointers s) : .task s.sched.nextTaskId ∉ s.sched.taskQueue := by
  intro hmem
  obtain ⟨n, -, hn, heq⟩ := hP.queue _ hmem
  exact absurd (TaskPtr.task.inj heq) (Nat.ne_of_gt hn)

lemma Pointers.schedHolder_spawned (hP : Pointers s) {ptr : TaskPtr}
    (h : s.sched.holder = some ptr) : s.sched.Spawned ptr := by
  cases hmode : s.sched.mode with
  | task q =>
      simp only [Sched.holder, hmode, Option.some.injEq] at h
      exact h ▸ (hP.task q hmode).2
  | released sp kind =>
      simp only [Sched.holder, hmode, Option.ite_none_right_eq_some, Option.some.injEq] at h
      exact h.2 ▸ hP.released sp kind hmode
  | boot => simp [Sched.holder, hmode] at h
  | scheduler => simp [Sched.holder, hmode] at h
  | halted => simp [Sched.holder, hmode] at h

lemma Pointers.holder_spawned (hP : Pointers s) {ptr : TaskPtr} (h : s.holder = some ptr) :
    s.sched.Spawned ptr := by
  rw [Sys.holder] at h
  cases hp : s.popped with
  | some q =>
      rw [hp, Option.some_or] at h
      exact Option.some.inj h ▸ (hP.popped q hp).2
  | none =>
      rw [hp, Option.none_or] at h
      exact hP.schedHolder_spawned h

namespace Awake

lemma step (hA : Awake s) (h : s.step e = some s')
    (hwake : ∀ ptr, e.woken = some ptr → s.Asleep ptr) : Awake s' := by
  obtain ⟨hP', heff⟩ := hA.pointers.step h
  have hnd := hA.queue
  cases heff with
  | spawn hnext hqueue hholder =>
      have hnew := hA.pointers.next_notMem
      refine ⟨hP', ?_, fun ptr hptr hmem => ?_⟩
      · rw [hqueue, ← List.concat_eq_append]
        exact hnd.concat hnew
      · rw [hholder] at hptr
        rw [hqueue, List.mem_append, List.mem_singleton] at hmem
        cases hmem with
        | inl hmem => exact hA.holder ptr hptr hmem
        | inr heq =>
            obtain ⟨n, -, hn, hp⟩ := hA.pointers.holder_spawned hptr
            exact absurd (TaskPtr.task.inj (heq.symm.trans hp)) (Nat.ne_of_gt hn)
  | pop ptr hnext hqueue hfree hholder =>
      rw [hqueue, List.nodup_cons] at hnd
      refine ⟨hP', hnd.2, fun q hq => ?_⟩
      rw [hholder, Option.some.injEq] at hq
      exact hq ▸ hnd.1
  | requeue ptr hnext hqueue hholder hfree =>
      refine ⟨hP', ?_, fun q hq => by simp [hfree] at hq⟩
      rw [hqueue, ← List.concat_eq_append]
      exact hnd.concat (hA.holder ptr hholder)
  | wake ptr hnext hqueue hholder he =>
      obtain ⟨hnot, hne⟩ := hwake ptr he
      refine ⟨hP', ?_, fun q hq hmem => ?_⟩
      · rw [hqueue, ← List.concat_eq_append]
        exact hnd.concat hnot
      · rw [hholder] at hq
        rw [hqueue, List.mem_append, List.mem_singleton] at hmem
        cases hmem with
        | inl hmem => exact hA.holder q hq hmem
        | inr heq => exact hne (heq ▸ hq)
  | other hnext hqueue hholder =>
      refine ⟨hP', hqueue ▸ hnd, fun q hq => ?_⟩
      rw [hqueue]
      cases hholder with
      | inl hsame => exact hA.holder q (hsame ▸ hq)
      | inr hnone => simp [hnone] at hq

lemma run {es : List Event} (hA : Awake s) (hwakes : s.WakesAsleep es)
    (h : s.run es = some s') : Awake s' := by
  induction es generalizing s with
  | nil =>
      cases h
      exact hA
  | cons e es ih =>
      obtain ⟨s₁, h₁, h⟩ := Option.bind_eq_some_iff.mp h
      obtain ⟨hwake, hrest⟩ := hwakes
      rw [h₁] at hrest
      exact ih (hA.step h₁ hwake) hrest h

end Awake

/-- A blocked task: spawned, and asleep. -/
structure Parked (ptr : TaskPtr) (s : Sys) : Prop where
  pointers : Pointers s
  spawned : s.sched.Spawned ptr
  asleep : s.Asleep ptr

namespace Parked

variable {ptr : TaskPtr}

/-- Only a wake of its own gets a blocked task back into the queue. -/
lemma step (hK : Parked ptr s) (h : s.step e = some s') (hwake : e.woken ≠ some ptr) :
    Parked ptr s' := by
  obtain ⟨hP', heff⟩ := hK.pointers.step h
  obtain ⟨hnot, hne⟩ := hK.asleep
  obtain ⟨n, h1, h2, rfl⟩ := hK.spawned
  refine ⟨hP', ?_, ?_⟩
  · cases heff <;> exact ⟨n, h1, by omega, rfl⟩
  · cases heff with
    | spawn hnext hqueue hholder =>
        refine ⟨?_, hholder ▸ hne⟩
        rw [hqueue]
        simp [hnot, Nat.ne_of_lt h2]
    | pop q hnext hqueue hfree hholder =>
        rw [hqueue, List.mem_cons, not_or] at hnot
        refine ⟨hnot.2, ?_⟩
        rw [hholder]
        exact fun heq => hnot.1 (Option.some.inj heq).symm
    | requeue q hnext hqueue hholder hfree =>
        refine ⟨?_, by simp [hfree]⟩
        rw [hqueue, List.mem_append, List.mem_singleton, not_or]
        exact ⟨hnot, fun heq => hne (heq ▸ hholder)⟩
    | wake q hnext hqueue hholder he =>
        refine ⟨?_, hholder ▸ hne⟩
        rw [hqueue, List.mem_append, List.mem_singleton, not_or]
        exact ⟨hnot, fun heq => hwake (heq ▸ he)⟩
    | other hnext hqueue hholder =>
        refine ⟨hqueue ▸ hnot, ?_⟩
        cases hholder with
        | inl hsame => exact hsame ▸ hne
        | inr hnone => simp [hnone]

lemma popped_ne (hK : Parked ptr s) : s.popped ≠ some ptr := by
  intro hp
  refine hK.asleep.2 ?_
  rw [holder, hp, Option.some_or]

lemma notMem_dispatches {es : List Event} (hK : Parked ptr s)
    (hwakes : ∀ e ∈ es, e.woken ≠ some ptr) : ptr ∉ s.dispatches es := by
  induction es generalizing s with
  | nil => exact List.not_mem_nil
  | cons e es ih =>
      rw [List.forall_mem_cons] at hwakes
      rw [dispatches, List.mem_append, not_or]
      refine ⟨fun hmem => ?_, ?_⟩
      · split_ifs at hmem with he
        · exact hK.popped_ne (Option.mem_toList.mp hmem)
        · exact List.not_mem_nil hmem
      · cases hstep : s.step e with
        | none => exact List.not_mem_nil
        | some s' => exact ih (hK.step hstep hwakes.1) hwakes.2

end Parked

/-- **Wakers and the queue.**  In every run whose wakes all reach sleeping
tasks, the queue has no duplicates and holds neither the running task nor the one
that was popped to be run next; and after a task has blocked, it is not
dispatched before it is woken. -/
theorem queue_sound_of_wakes_asleep (sp : ℕ) (es : List Event) (s : Sys)
    (hrun : (boot sp).run es = some s) (hwakes : (boot sp).WakesAsleep es) :
    s.sched.taskQueue.Nodup ∧
    (∀ ptr, s.sched.mode = .task ptr ∨ s.popped = some ptr → ptr ∉ s.sched.taskQueue) ∧
    (∀ ptr sp' s₁ es', s.sched.mode = .task ptr → s.step (.release sp' .blocked) = some s₁ →
      (∀ e ∈ es', e.woken ≠ some ptr) → ptr ∉ s₁.dispatches es') := by
  have hA := (awake_boot sp).run hwakes hrun
  have hpopped : ∀ ptr, s.sched.mode = .task ptr → s.popped = none := fun ptr hmode =>
    hA.pointers.popped_eq_none (by simp [hmode])
  have hrunning : ∀ ptr, s.sched.mode = .task ptr ∨ s.popped = some ptr →
      ptr ∉ s.sched.taskQueue := fun ptr hptr => hA.holder ptr <| by
    cases hptr with
    | inl hmode => simp [holder, hpopped ptr hmode, Sched.holder, hmode]
    | inr hp => simp [holder, hp]
  refine ⟨hA.queue, hrunning, fun ptr sp' s₁ es' hmode hstep hno => ?_⟩
  have hP₁ := (hA.pointers.step hstep).1
  simp only [Sys.step, hmode, Option.some.injEq] at hstep
  refine Parked.notMem_dispatches ⟨hP₁, ?_, ?_⟩ hno
  · rw [← hstep]
    exact (hA.pointers.task ptr hmode).2
  · rw [← hstep]
    refine ⟨hrunning ptr (Or.inl hmode), ?_⟩
    simp [holder, hpopped ptr hmode, Sched.releaseTask, Sched.jumpOut, Sched.holder]

/-- One task blocks, and is woken while the other one is popped and not running yet. -/
def wakeAfterBlock : List Event :=
  [.spawn kernelTask 0 0x1f58, .spawn kernelTask 0 0x3f58, .waker 0x100, .start, .pop, .resume,
    .release 0x1e00 .blocked, .requeue, .pop, .clone ⟨.task 0x100⟩, .wake ⟨.task 0x100⟩, .resume]

theorem queue_sound_of_wakes_asleep_wakeAfterBlock :
    ∃ s s₁, (boot 0).run wakeAfterBlock = some s ∧ s.sched.mode = .task (.task 0x101) ∧
      s.sched.taskQueue = [.task 0x100] ∧ .task 0x101 ∉ s.sched.taskQueue ∧
      s.step (.release 0x3e00 .blocked) = some s₁ ∧
      .task 0x101 ∉ s₁.dispatches
        [.requeue, .pop, .resume, .release 0x1d00 .yielded, .requeue, .pop, .resume] := by
  have hsound := queue_sound_of_wakes_asleep 0 wakeAfterBlock _ rfl (by decide)
  exact ⟨_, _, rfl, rfl, rfl, hsound.2.1 _ (Or.inl rfl), rfl,
    hsound.2.2 _ 0x3e00 _ _ rfl rfl (by decide)⟩

/-- **Waking the running task**: its pointer is queued while it runs, then queued
twice; and after it has blocked it is dispatched again although no wake was
issued since. -/
theorem wake_running_task :
    ∃ s s₁ s₂, (boot 0).run [.spawn kernelTask 0 0x1f58, .waker 0x100, .start, .pop, .resume,
        .wakeByRef ⟨.task 0x100⟩] = some s ∧
      s.sched.mode = .task (.task 0x100) ∧ .task 0x100 ∈ s.sched.taskQueue ∧
      s.step (.wakeByRef ⟨.task 0x100⟩) = some s₁ ∧ ¬ s₁.sched.taskQueue.Nodup ∧
      s.step (.release 0x1e00 .blocked) = some s₂ ∧
      .task 0x100 ∈ s₂.dispatches [.requeue, .pop, .resume] :=
  ⟨_, _, _, rfl, rfl, by decide, rfl, by decide, rfl, by decide⟩

end Sys

end Titanium
