import Titanium.Lib.RoundRobin
import Mathlib.Data.Nat.Bitwise

/-!
The scheduler at the granularity of context switches (`scheduler.rs`).

The state holds the ready queue, the two task pointers and who has control.
`resumeScheduler`, `runScheduler`, `schedulerPreempt` and the others are the
functions of the source without their register work; `step` puts them together
into whole switches.

* `Scheduled`: the invariant.  The pointers agree with who is running, and the
  queue together with the running task is a permutation of what was spawned.
* `step_simulates`: every switch is a move of the abstract round robin
  (`Ring`), or leaves it alone.
* `round_robin`: nothing is lost or duplicated, the task that was running is
  the one that is requeued, and between two dispatches of a task every task
  queued at the first is dispatched exactly once.
-/

namespace Titanium

/-! ### Tasks -/

/-- A `*mut TaskInfo`; tasks are told apart by the number of their `spawn_task`. -/
inductive TaskPtr where
  | null
  | schedulerTask
  | task (rawId : ℕ)
  deriving DecidableEq, Repr

/-- `TaskInfo`; `flags` is the one flag `INTERRUPTED`. -/
structure TaskInfo where
  sp : ℕ
  taskId : ℕ
  interrupted : Bool
  deriving DecidableEq, Repr

/-- `ResumeKind`. -/
inductive ResumeKind where
  | blocked | yielded | preempted | complete
  deriving DecidableEq, Repr

/-- The first value of `NEXT_TASK_ID`. -/
def firstTaskId : ℕ := 0x100

/-- `MAX_TASK_ID`. -/
def maxTaskId : ℕ := 0xfffffffffffe

/-- `TASKID_SCHEDULER`. -/
def taskIdScheduler : ℕ := 0x8000ffffffffffff

/-- `TaskConfig::KERNEL_TASK`. -/
def kernelTask : ℕ := 1 <<< 63

/-- The known bits of `TaskConfig`: `KERNEL_TASK`, `USES_FLOATS`, `SMALL_STACK`. -/
def knownConfig : ℕ := 1 <<< 63 ||| 1 <<< 62 ||| 1 <<< 61

/-- The id that `spawn_task` puts together. -/
def makeTaskId (options rawId priority : ℕ) : ℕ :=
  (options &&& knownConfig) ||| rawId ||| (priority &&& 0x7) <<< 48

/-- The low 48 bits are the number of the task. -/
lemma makeTaskId_mod {options rawId priority : ℕ} (h : rawId < 2 ^ 48) :
    makeTaskId options rawId priority % 2 ^ 48 = rawId := by
  have hconf : (options &&& knownConfig) % 2 ^ 48 = 0 := by
    rw [Nat.and_mod_two_pow, show knownConfig % 2 ^ 48 = 0 by decide, Nat.and_zero]
  have hprio : ((priority &&& 0x7) <<< 48) % 2 ^ 48 = 0 := by
    rw [Nat.shiftLeft_eq]
    exact Nat.mul_mod_left _ _
  simp only [makeTaskId, Nat.or_mod_two_pow, hconf, hprio, Nat.zero_or, Nat.or_zero]
  exact Nat.mod_eq_of_lt h

/-- So no task has those of the scheduler. -/
lemma makeTaskId_mod_ne {options rawId priority : ℕ} (h : rawId ≤ maxTaskId) :
    makeTaskId options rawId priority % 2 ^ 48 ≠ taskIdScheduler % 2 ^ 48 := by
  rw [maxTaskId] at h
  rw [makeTaskId_mod (by omega), taskIdScheduler]
  omega

lemma makeTaskId_ne {options rawId priority : ℕ} (h : rawId ≤ maxTaskId) :
    makeTaskId options rawId priority ≠ taskIdScheduler := fun heq =>
  makeTaskId_mod_ne h (congrArg (· % 2 ^ 48) heq)

/-- The same for the ids as words. -/
lemma ofNat_makeTaskId_ne {options rawId priority : ℕ} (h : rawId ≤ maxTaskId) :
    BitVec.ofNat 64 (makeTaskId options rawId priority) ≠ .ofNat 64 taskIdScheduler := by
  intro heq
  have hmod := congrArg (fun w : BitVec 64 => w.toNat % 2 ^ 48) heq
  simp only [BitVec.toNat_ofNat, Nat.mod_mod_of_dvd _ (show 2 ^ 48 ∣ 2 ^ 64 by norm_num)] at hmod
  exact makeTaskId_mod_ne h hmod

/-! ### The scheduler -/

/-- Who has control: the boot code, a task, `resume_scheduler` with its
arguments, `run_scheduler`, or its loop around `hlt`. -/
inductive Mode where
  | boot
  | task (ptr : TaskPtr)
  | released (releasedStack : ℕ) (kind : ResumeKind)
  | scheduler
  | halted
  deriving DecidableEq, Repr

/-- The statics of `scheduler.rs`, and who has control. -/
structure Sched where
  info : TaskPtr → TaskInfo
  currentTaskPtr : TaskPtr
  staleTaskPtr : TaskPtr
  taskQueue : List TaskPtr
  nextTaskId : ℕ
  mode : Mode

namespace Sched

/-- `spawn_task`, when the stack for the task has been made and its first frame
ends at `finalSp`. -/
def spawnTask (s : Sched) (options priority finalSp : ℕ) : Option Sched :=
  if options &&& kernelTask = kernelTask ∧ priority < 8 ∧ s.nextTaskId ≤ maxTaskId then
    let ptr := TaskPtr.task s.nextTaskId
    some { s with
      info := Function.update s.info ptr ⟨finalSp, makeTaskId options s.nextTaskId priority, false⟩
      taskQueue := s.taskQueue ++ [ptr]
      nextTaskId := s.nextTaskId + 1 }
  else none

/-- `load_task_ptrs`. -/
def loadTaskPtrs (s : Sched) (ptr : TaskPtr) : Sched :=
  { s with staleTaskPtr := ptr, currentTaskPtr := ptr }

/-- `start_scheduler`, up to `run_scheduler`. -/
def startScheduler (s : Sched) : Sched :=
  { s.loadTaskPtrs .schedulerTask with mode := .scheduler }

/-- `scheduler_jump_out`: the scheduler is the current task, and
`resume_scheduler` is called. -/
def jumpOut (s : Sched) (releasedStack : ℕ) (kind : ResumeKind) : Sched :=
  { s with currentTaskPtr := .schedulerTask, mode := .released releasedStack kind }

/-- `release_task`. -/
def releaseTask (s : Sched) (sp : ℕ) (kind : ResumeKind) : Sched := s.jumpOut sp kind

/-- `scheduler_preempt`: an interrupt of the scheduler itself returns at once. -/
def schedulerPreempt (s : Sched) (sp : ℕ) : Sched :=
  if (s.info s.currentTaskPtr).taskId = taskIdScheduler then s else s.jumpOut sp .preempted

/-- `resume_scheduler`, up to `run_scheduler`. -/
def resumeScheduler (s : Sched) (releasedStack : ℕ) (kind : ResumeKind) : Sched :=
  let taskPtr := s.staleTaskPtr
  let taskInfo := s.info taskPtr
  { s with
    info := Function.update s.info taskPtr { taskInfo with
      interrupted := taskInfo.interrupted || kind = .preempted
      sp := releasedStack }
    taskQueue := if kind = .preempted ∨ kind = .yielded then s.taskQueue ++ [taskPtr]
      else s.taskQueue
    mode := .scheduler }

/-- `resume_task`: both pointers name the task, and `btr` clears its flag. -/
def resumeTask (s : Sched) (ptr : TaskPtr) : Sched :=
  { s with
    currentTaskPtr := ptr
    staleTaskPtr := ptr
    info := Function.update s.info ptr { s.info ptr with interrupted := false }
    mode := .task ptr }

/-- `run_scheduler`: with an empty queue it halts and never looks again. -/
def runScheduler (s : Sched) : Sched :=
  match s.taskQueue with
  | taskPtr :: rest => { s with taskQueue := rest }.resumeTask taskPtr
  | [] => { s with mode := .halted }

/-! ### Switches -/

/-- What can happen, one whole switch at a time. -/
inductive Event where
  | spawn (options priority finalSp : ℕ)
  | start
  | dispatch
  | yield (sp : ℕ)
  | timer (sp : ℕ)
  deriving DecidableEq, Repr

/-- The call of `resume_scheduler` that a release leads to. -/
def settle (s : Sched) : Sched :=
  match s.mode with
  | .released sp kind => s.resumeScheduler sp kind
  | _ => s

/-- One switch, `none` when the event cannot happen.  Tasks are spawned by the
boot code and by tasks; the timer only has its handler once the scheduler has
started. -/
def step (s : Sched) : Event → Option Sched
  | .spawn options priority finalSp =>
      match s.mode with
      | .boot => s.spawnTask options priority finalSp
      | .task _ => s.spawnTask options priority finalSp
      | _ => none
  | .start => if s.mode = .boot then some s.startScheduler else none
  | .dispatch => if s.mode = .scheduler then some s.runScheduler else none
  | .yield sp =>
      match s.mode with
      | .task _ => some (s.releaseTask sp .yielded).settle
      | _ => none
  | .timer sp => if s.mode = .boot then none else some (s.schedulerPreempt sp).settle

/-- A run. -/
def run (s : Sched) (es : List Event) : Option Sched := es.foldlM step s

/-- The task that an event dispatches. -/
def dispatched (s : Sched) : Event → List TaskPtr
  | .dispatch => s.taskQueue.head?.toList
  | _ => []

/-- The tasks that a run dispatches, in order. -/
def dispatches (s : Sched) : List Event → List TaskPtr
  | [] => []
  | e :: es => s.dispatched e ++
      match s.step e with
      | some s' => s'.dispatches es
      | none => []

/-- The state in which `scheduler::init` leaves the scheduler. -/
def boot (sp : ℕ) : Sched where
  info _ := ⟨sp, taskIdScheduler, false⟩
  currentTaskPtr := .null
  staleTaskPtr := .null
  taskQueue := []
  nextTaskId := firstTaskId
  mode := .boot

/-! ### Ids -/

/-- `resume_scheduler` keeps the ids. -/
lemma taskId_settle (s : Sched) (ptr : TaskPtr) :
    (s.settle.info ptr).taskId = (s.info ptr).taskId := by
  cases hmode : s.mode with
  | released sp kind =>
      by_cases hp : ptr = s.staleTaskPtr
      · subst hp
        simp [settle, hmode, resumeScheduler]
      · simp [settle, hmode, resumeScheduler, Function.update_of_ne hp]
  | _ => simp [settle, hmode]

/-- So does `run_scheduler`. -/
lemma taskId_runScheduler (s : Sched) (ptr : TaskPtr) :
    (s.runScheduler.info ptr).taskId = (s.info ptr).taskId := by
  cases hq : s.taskQueue with
  | nil => simp [runScheduler, hq]
  | cons next rest =>
      by_cases hp : ptr = next
      · subst hp
        simp [runScheduler, hq, resumeTask]
      · simp [runScheduler, hq, resumeTask, Function.update_of_ne hp]

/-! ### The invariant -/

/-- The task that is running. -/
def running (s : Sched) : Option TaskPtr :=
  match s.mode with
  | .task ptr => some ptr
  | _ => none

/-- The abstract round robin. -/
def ring (s : Sched) : Ring TaskPtr := ⟨s.taskQueue, s.running⟩

/-- The tasks that were spawned. -/
def spawned (s : Sched) : List TaskPtr :=
  (List.range' firstTaskId (s.nextTaskId - firstTaskId)).map .task

lemma mem_spawned {s : Sched} {ptr : TaskPtr} (hfirst : firstTaskId ≤ s.nextTaskId) :
    ptr ∈ s.spawned ↔ ∃ n, firstTaskId ≤ n ∧ n < s.nextTaskId ∧ ptr = .task n := by
  simp only [spawned, List.mem_map, List.mem_range'_1]
  refine ⟨fun ⟨n, hn, hp⟩ => ⟨n, hn.1, by omega, hp.symm⟩, fun ⟨n, h1, h2, hp⟩ =>
    ⟨n, ⟨h1, by omega⟩, hp.symm⟩⟩

lemma nodup_spawned (s : Sched) : s.spawned.Nodup :=
  List.Nodup.map (fun _ _ h => TaskPtr.task.inj h) (List.nodup_range' 1)

lemma spawned_succ {s s' : Sched} (hfirst : firstTaskId ≤ s.nextTaskId)
    (hnext : s'.nextTaskId = s.nextTaskId + 1) :
    s'.spawned = s.spawned ++ [.task s.nextTaskId] := by
  simp only [spawned, hnext, Nat.sub_add_comm hfirst, List.range'_concat, List.map_append,
    List.map_cons, List.map_nil, Nat.one_mul, Nat.add_sub_cancel' hfirst]

/-- **The invariant of a run.** -/
structure Scheduled (s : Sched) : Prop where
  first_le : firstTaskId ≤ s.nextTaskId
  schedulerId : (s.info .schedulerTask).taskId = taskIdScheduler
  taskIds : ∀ n, firstTaskId ≤ n → n < s.nextTaskId →
    (s.info (.task n)).taskId ≠ taskIdScheduler
  holds : s.ring.elements.Perm s.spawned
  running_ptrs : ∀ ptr, s.mode = .task ptr → s.currentTaskPtr = ptr ∧ s.staleTaskPtr = ptr
  scheduler_ptr : s.mode = .scheduler ∨ s.mode = .halted → s.currentTaskPtr = .schedulerTask
  settled : ∀ sp kind, s.mode ≠ .released sp kind

lemma scheduled_boot (sp : ℕ) : Scheduled (boot sp) := by
  have hspawned : (boot sp).spawned = [] := by
    rw [spawned, show (boot sp).nextTaskId - firstTaskId = 0 from Nat.sub_self firstTaskId]
    rfl
  refine ⟨le_rfl, rfl, fun n h1 h2 => absurd h2 (not_lt.mpr h1), List.Perm.of_eq hspawned.symm,
    ?_, ?_, ?_⟩ <;> simp [boot]

namespace Scheduled

variable {s s' : Sched}

/-- A running task is one that was spawned. -/
lemma running_mem (hS : Scheduled s) {ptr : TaskPtr} (h : s.mode = .task ptr) :
    ∃ n, firstTaskId ≤ n ∧ n < s.nextTaskId ∧ ptr = .task n := by
  rw [← mem_spawned hS.first_le, ← hS.holds.mem_iff]
  simp [ring, Ring.elements, running, h]

lemma nodup (hS : Scheduled s) : s.ring.elements.Nodup := hS.holds.nodup_iff.mpr s.nodup_spawned

/-- `spawn_task` enqueues a task that the ring does not hold. -/
lemma spawn (hS : Scheduled s) {options priority sp : ℕ}
    (h : s.spawnTask options priority sp = some s') :
    Scheduled s' ∧ Ring.Step s.ring (.enqueue (.task s.nextTaskId)) s'.ring := by
  obtain ⟨⟨-, -, hle⟩, heq⟩ := Option.ite_none_right_eq_some.mp h
  cases heq
  have hfresh : TaskPtr.task s.nextTaskId ∉ s.ring.elements := by
    rw [hS.holds.mem_iff, mem_spawned hS.first_le]
    rintro ⟨n, -, hn, heq⟩
    exact absurd (TaskPtr.task.inj heq) (by omega)
  have hstep := Ring.Step.enqueue (q := s.taskQueue) (r := s.running) hfresh
  have hfirst := hS.first_le
  refine ⟨⟨Nat.le_succ_of_le hfirst, ?_, fun n h1 h2 => ?_, ?_, hS.running_ptrs,
    hS.scheduler_ptr, hS.settled⟩, hstep⟩
  · show (Function.update s.info _ _ TaskPtr.schedulerTask).taskId = taskIdScheduler
    rw [Function.update_of_ne (by simp)]
    exact hS.schedulerId
  · show (Function.update s.info _ _ (TaskPtr.task n)).taskId ≠ taskIdScheduler
    by_cases hn : n = s.nextTaskId
    · rw [hn, Function.update_self]
      exact makeTaskId_ne hle
    · rw [Function.update_of_ne (fun heq => hn (TaskPtr.task.inj heq))]
      exact hS.taskIds n h1 (lt_of_le_of_ne (Nat.lt_succ_iff.mp h2) hn)
  · refine hstep.perm.trans ?_
    refine (List.Perm.cons _ hS.holds).trans ?_
    exact (List.perm_append_singleton _ _).symm.trans
      (List.Perm.of_eq (spawned_succ hfirst rfl).symm)

/-- Updates that keep the ids keep what is known about them. -/
lemma of_ids (hS : Scheduled s) (hnext : s'.nextTaskId = s.nextTaskId)
    (hids : ∀ ptr, (s'.info ptr).taskId = (s.info ptr).taskId)
    (hring : s'.ring.elements.Perm s.ring.elements)
    (hrun : ∀ ptr, s'.mode = .task ptr → s'.currentTaskPtr = ptr ∧ s'.staleTaskPtr = ptr)
    (hsched : s'.mode = .scheduler ∨ s'.mode = .halted → s'.currentTaskPtr = .schedulerTask)
    (hsettled : ∀ sp kind, s'.mode ≠ .released sp kind) : Scheduled s' :=
  ⟨hnext ▸ hS.first_le, (hids _).trans hS.schedulerId,
    fun n h1 h2 => (hids _).trans_ne (hS.taskIds n h1 (hnext ▸ h2)),
    hring.trans (hS.holds.trans (List.Perm.of_eq (by rw [spawned, spawned, hnext]))), hrun, hsched,
    hsettled⟩

/-- **A release that requeues** puts the task that was running to the back. -/
lemma release (hS : Scheduled s) {ptr : TaskPtr} (hmode : s.mode = .task ptr) {sp : ℕ}
    {kind : ResumeKind} (hkind : kind = .preempted ∨ kind = .yielded) :
    (s.jumpOut sp kind).settle.taskQueue = s.taskQueue ++ [ptr] ∧
      Scheduled (s.jumpOut sp kind).settle ∧
      Ring.Step s.ring .release (s.jumpOut sp kind).settle.ring := by
  have hstale := (hS.running_ptrs ptr hmode).2
  have hqueue : (s.jumpOut sp kind).settle.taskQueue = s.taskQueue ++ [ptr] := by
    simp [settle, jumpOut, resumeScheduler, hkind, hstale]
  have hring : s.ring = ⟨s.taskQueue, some ptr⟩ := by simp [ring, running, hmode]
  have hring' : (s.jumpOut sp kind).settle.ring = ⟨s.taskQueue ++ [ptr], none⟩ := by
    rw [ring, hqueue]
    rfl
  have hstep : Ring.Step s.ring .release (s.jumpOut sp kind).settle.ring := by
    rw [hring, hring']
    exact Ring.Step.release
  refine ⟨hqueue, hS.of_ids rfl (taskId_settle _) hstep.perm ?_ ?_ ?_, hstep⟩
  · simp [settle, jumpOut, resumeScheduler]
  · simp [settle, jumpOut, resumeScheduler]
  · simp [settle, jumpOut, resumeScheduler]

/-- The timer preempts a running task, and leaves the scheduler alone. -/
lemma timer_eq (hS : Scheduled s) {sp : ℕ} :
    (∀ ptr, s.mode = .task ptr → s.schedulerPreempt sp = s.jumpOut sp .preempted) ∧
      (s.mode = .scheduler ∨ s.mode = .halted → s.schedulerPreempt sp = s) := by
  refine ⟨fun ptr hmode => if_neg ?_, fun hmode => if_pos ?_⟩
  · rw [(hS.running_ptrs ptr hmode).1]
    obtain ⟨n, h1, h2, rfl⟩ := hS.running_mem hmode
    exact hS.taskIds n h1 h2
  · rw [hS.scheduler_ptr hmode]
    exact hS.schedulerId

/-- A dispatch takes the front of the queue, or halts. -/
lemma dispatch (hS : Scheduled s) (hmode : s.mode = .scheduler) :
    Scheduled s.runScheduler ∧
      ∃ ms, Ring.Run s.ring ms s.runScheduler.ring ∧
        Ring.dispatches ms = s.taskQueue.head?.toList := by
  have hnone : s.running = none := by simp [running, hmode]
  cases hq : s.taskQueue with
  | nil =>
      have hring : s.runScheduler.ring = s.ring := by
        simp [runScheduler, hq, ring, running, hmode]
      refine ⟨hS.of_ids ?_ s.taskId_runScheduler (List.Perm.of_eq (by rw [hring])) ?_ ?_ ?_, [], ?_,
        rfl⟩
      · simp [runScheduler, hq]
      · simp [runScheduler, hq]
      · simp [runScheduler, hq, hS.scheduler_ptr (Or.inl hmode)]
      · simp [runScheduler, hq]
      · rw [hring]
        exact Ring.Run.nil _
  | cons ptr rest =>
      have hring : s.ring = ⟨ptr :: rest, none⟩ := by rw [ring, hq, hnone]
      have hring' : s.runScheduler.ring = ⟨rest, some ptr⟩ := by
        simp [runScheduler, hq, ring, running, resumeTask]
      have hstep : Ring.Step s.ring (.dispatch ptr) s.runScheduler.ring := by
        rw [hring, hring']
        exact Ring.Step.dispatch
      refine ⟨hS.of_ids ?_ s.taskId_runScheduler hstep.perm ?_ ?_ ?_, [.dispatch ptr],
        Ring.Run.cons hstep (Ring.Run.nil _), rfl⟩
      · simp [runScheduler, hq, resumeTask]
      · simp [runScheduler, hq, resumeTask]
      · simp [runScheduler, hq, resumeTask]
      · simp [runScheduler, hq, resumeTask]

/-- **The step lemma**: a switch keeps the invariant and is a move of the
abstract round robin, or none. -/
lemma step_simulates (hS : Scheduled s) {e : Event} (h : s.step e = some s') :
    Scheduled s' ∧ ∃ ms, Ring.Run s.ring ms s'.ring ∧ Ring.dispatches ms = s.dispatched e := by
  cases e with
  | spawn options priority sp =>
      have hspawn : s.spawnTask options priority sp = some s' := by
        simp only [step] at h
        split at h
        · exact h
        · exact h
        · cases h
      obtain ⟨hS', hstep⟩ := hS.spawn hspawn
      exact ⟨hS', _, Ring.Run.cons hstep (Ring.Run.nil _), rfl⟩
  | start =>
      obtain ⟨hmode, heq⟩ := Option.ite_none_right_eq_some.mp h
      cases heq
      have hring : s.startScheduler.ring = s.ring := by
        simp [startScheduler, loadTaskPtrs, ring, running, hmode]
      refine ⟨hS.of_ids rfl (fun _ => rfl) (List.Perm.of_eq (by rw [hring])) ?_ (fun _ => rfl) ?_,
        [], hring ▸ Ring.Run.nil _, rfl⟩ <;> simp [startScheduler]
  | dispatch =>
      obtain ⟨hmode, heq⟩ := Option.ite_none_right_eq_some.mp h
      cases heq
      exact hS.dispatch hmode
  | yield sp =>
      simp only [step] at h
      split at h
      case h_1 ptr hmode =>
        cases h
        obtain ⟨-, hS', hstep⟩ := hS.release hmode (Or.inr rfl)
        exact ⟨hS', _, Ring.Run.cons hstep (Ring.Run.nil _), rfl⟩
      case h_2 => cases h
  | timer sp =>
      simp only [step] at h
      obtain ⟨hboot, heq⟩ := Option.ite_none_left_eq_some.mp h
      cases heq
      cases hmode : s.mode with
      | boot => exact absurd hmode hboot
      | released sp kind => exact absurd hmode (hS.settled sp kind)
      | task ptr =>
          rw [hS.timer_eq.1 ptr hmode]
          obtain ⟨-, hS', hstep⟩ := hS.release hmode (Or.inl rfl)
          exact ⟨hS', _, Ring.Run.cons hstep (Ring.Run.nil _), rfl⟩
      | scheduler =>
          have heq : s.settle = s := by simp [settle, hmode]
          rw [hS.timer_eq.2 (Or.inl hmode), heq]
          exact ⟨hS, [], Ring.Run.nil _, rfl⟩
      | halted =>
          have heq : s.settle = s := by simp [settle, hmode]
          rw [hS.timer_eq.2 (Or.inr hmode), heq]
          exact ⟨hS, [], Ring.Run.nil _, rfl⟩

/-- The run lemma. -/
lemma run_simulates (hS : Scheduled s) {es : List Event} (h : s.run es = some s') :
    Scheduled s' ∧ ∃ ms, Ring.Run s.ring ms s'.ring ∧ Ring.dispatches ms = s.dispatches es := by
  induction es generalizing s with
  | nil =>
      cases h
      exact ⟨hS, [], Ring.Run.nil _, rfl⟩
  | cons e es ih =>
      obtain ⟨s₁, h₁, h⟩ := Option.bind_eq_some_iff.mp h
      obtain ⟨hS₁, ms₁, hrun₁, hD₁⟩ := hS.step_simulates h₁
      obtain ⟨hS', ms, hrun, hD⟩ := ih hS₁ h
      refine ⟨hS', ms₁ ++ ms, hrun₁.trans hrun, ?_⟩
      rw [Ring.dispatches_append, hD₁, hD, dispatches, h₁]

end Scheduled

/-! ### Round robin -/

/-- The queue, with the task at `STALE_TASK_PTR` when a task is running. -/
def accounted (s : Sched) : List TaskPtr :=
  s.taskQueue ++
    match s.mode with
    | .task _ => [s.staleTaskPtr]
    | _ => []

lemma Scheduled.accounted_eq {s : Sched} (hS : Scheduled s) : s.accounted = s.ring.elements := by
  cases hmode : s.mode <;> simp [accounted, ring, Ring.elements, running, hmode]
  case task ptr => exact (hS.running_ptrs ptr hmode).2

/-- **Round robin, without loss or duplication.**  In every state that a run
from boot reaches:

* every spawned task occurs exactly once in the queue together with the task at
  `STALE_TASK_PTR` when one is running, and nothing else does;
* the running task is not in the queue;
* a yield or a timer interrupt of a running task requeues that task, which is
  not the scheduler's;
* from a dispatch of a task to its next one, every task that was queued at the
  first is dispatched exactly once. -/
theorem round_robin (sp : ℕ) (es : List Event) (s : Sched) (hrun : (boot sp).run es = some s) :
    (∀ n, firstTaskId ≤ n → n < s.nextTaskId → s.accounted.count (.task n) = 1) ∧
    (∀ ptr ∈ s.accounted, ∃ n, firstTaskId ≤ n ∧ n < s.nextTaskId ∧ ptr = .task n) ∧
    (∀ ptr, s.mode = .task ptr → ptr ∉ s.taskQueue) ∧
    (∀ ptr sp' s' e, s.mode = .task ptr → e = .yield sp' ∨ e = .timer sp' → s.step e = some s' →
      s'.taskQueue = s.taskQueue ++ [ptr] ∧ ptr ≠ .schedulerTask) ∧
    (∀ ptr s₁ es' s₂, s.taskQueue.head? = some ptr → s.step .dispatch = some s₁ →
      s₁.run es' = some s₂ → ptr ∉ s₁.dispatches es' → s₂.mode = .scheduler →
      s₂.taskQueue.head? = some ptr →
      ∀ u ∈ s₁.taskQueue, (s₁.dispatches es').count u = 1) := by
  obtain ⟨hS, -⟩ := (scheduled_boot sp).run_simulates hrun
  refine ⟨fun n h1 h2 => ?_, fun ptr hptr => ?_, fun ptr hmode hmem => ?_, ?_, ?_⟩
  · rw [hS.accounted_eq, hS.holds.count_eq]
    exact List.count_eq_one_of_mem s.nodup_spawned ((mem_spawned hS.first_le).mpr ⟨n, h1, h2, rfl⟩)
  · rw [hS.accounted_eq, hS.holds.mem_iff, mem_spawned hS.first_le] at hptr
    exact hptr
  · have hnd := hS.nodup
    simp only [ring, Ring.elements, running, hmode, Option.toList_some] at hnd
    simpa using (List.nodup_append.mp hnd).2.2 ptr hmem ptr (List.mem_singleton_self ptr)
  · intro ptr sp' s' e hmode he hstep
    have hne : ptr ≠ .schedulerTask := by
      obtain ⟨n, -, -, rfl⟩ := hS.running_mem hmode
      simp
    refine ⟨?_, hne⟩
    cases he with
    | inl he =>
        subst he
        simp only [step, hmode, Option.some.injEq] at hstep
        rw [← hstep]
        exact (hS.release hmode (Or.inr rfl)).1
    | inr he =>
        subst he
        simp only [step, hmode, reduceCtorEq, if_false, Option.some.injEq] at hstep
        rw [← hstep, hS.timer_eq.1 ptr hmode]
        exact (hS.release hmode (Or.inl rfl)).1
  · intro ptr s₁ es' s₂ hhead hstep hrun' hnot hmode₂ hhead₂ u hu
    obtain ⟨hS₁, -⟩ := hS.step_simulates hstep
    obtain ⟨hS₂, ms, hms, hD⟩ := hS₁.run_simulates hrun'
    obtain ⟨hmode, heq⟩ := Option.ite_none_right_eq_some.mp hstep
    cases heq
    obtain ⟨rest, hrest⟩ : ∃ rest, s.taskQueue = ptr :: rest := by
      cases hq : s.taskQueue with
      | nil => simp [hq] at hhead
      | cons a rest => exact ⟨rest, by simpa [hq] using hhead⟩
    obtain ⟨rest₂, hrest₂⟩ : ∃ rest, s₂.taskQueue = ptr :: rest := by
      cases hq : s₂.taskQueue with
      | nil => simp [hq] at hhead₂
      | cons a rest => exact ⟨rest, by simpa [hq] using hhead₂⟩
    have hring₁ : s.runScheduler.ring = ⟨s.runScheduler.taskQueue, some ptr⟩ := by
      simp [ring, running, runScheduler, hrest, resumeTask]
    have hring₂ : s₂.ring = ⟨ptr :: rest₂, none⟩ := by simp [ring, running, hmode₂, hrest₂]
    have hnd := hS₁.nodup
    rw [hring₁] at hms hnd
    rw [hring₂] at hms
    rw [← hD] at hnot ⊢
    exact hms.dispatched_once hnot hnd hu

/-- Two tasks are spawned. -/
def twoTasks : List Event := [.spawn kernelTask 0 0x1f58, .spawn kernelTask 7 0x3f58, .start]

/-- The first task is preempted, and the second one yields. -/
def oneTurn : List Event := [.timer 0x1f00, .timer 0, .dispatch, .yield 0x3f00]

theorem round_robin_twoTasks :
    ∃ s s₁ s₂, (boot 0).run twoTasks = some s ∧ s.accounted.count (.task 0x100) = 1 ∧
      s.step .dispatch = some s₁ ∧ s₁.mode = .task (.task 0x100) ∧ s₁.run oneTurn = some s₂ ∧
      (s₁.dispatches oneTurn).count (.task 0x101) = 1 := by
  refine ⟨_, _, _, rfl, ?_, rfl, rfl, rfl, ?_⟩
  · exact (round_robin 0 twoTasks _ rfl).1 0x100 (by decide) (by decide)
  · exact (round_robin 0 twoTasks _ rfl).2.2.2.2 (.task 0x100) _ oneTurn _ rfl rfl rfl (by decide)
      rfl rfl _ (by decide)

end Sched

end Titanium
