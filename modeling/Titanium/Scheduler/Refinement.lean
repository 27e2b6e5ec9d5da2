import Titanium.Lib.Simulation
import Titanium.Scheduler.Frames
import Titanium.Scheduler.Waker

/-!
The models of the scheduler, one over the other.

`Sched` makes whole switches, `Sys` the parts of a switch between which something
else can happen, and the machine of an `Image` instructions.

* `Sys.simulation`: a run of `Sys` without wakes, in which tasks are released by
  yields only, is a run of `Sched`.
* `Image.simulation`: **a run of the machine is a run of `Sys`**, when every
  interrupt comes after a set flag has been tested.
* `machine_refines_switches`: the queue of the machine is the one of `Sys`; so no
  task is queued twice or while it runs.
* `yields_lose_no_task`: through both, when tasks only yield: whenever
  `run_scheduler` looks for a task, it finds all of them.
-/

namespace Titanium

/-! ### Switches and their parts -/

namespace Sys

/-- No task is woken, and tasks are released for reasons in `K` only. -/
def Event.Quiet (K : ResumeKind → Prop) (e : Event) : Prop :=
  e.woken = none ∧ ∀ sp kind, e = .release sp kind → K kind

/-- The scheduler when the switch that is under way has come to its end. -/
def whole (s : Sys) : Sched := s.popped.elim s.sched.settle s.sched.resumeTask

variable {s s' : Sys} {e : Event}

lemma settle_eq {t : Sched} (h : ∀ sp kind, t.mode ≠ .released sp kind) : t.settle = t := by
  rw [Sched.settle]
  split
  · next sp kind hmode => exact absurd hmode (h sp kind)
  · rfl

lemma whole_of_none (hpopped : s.popped = none) : s.whole = s.sched.settle := by
  rw [whole, hpopped, Option.elim_none]

lemma whole_eq (hpopped : s.popped = none) (h : ∀ sp kind, s.sched.mode ≠ .released sp kind) :
    s.whole = s.sched := by
  rw [whole_of_none hpopped, settle_eq h]

/-- **A part of a switch is a whole one or none.** -/
lemma Pointers.step_whole (hP : Pointers s) (hq : e.Quiet (· = .yielded))
    (h : s.step e = some s') : s'.whole = s.whole ∨ ∃ d, s.whole.step d = some s'.whole := by
  obtain ⟨hwoken, hkind⟩ := hq
  cases e with
  | spawn options priority finalSp =>
      have hmode : s.sched.mode = .boot ∨ ∃ ptr, s.sched.mode = .task ptr := by
        simp only [Sys.step] at h
        split at h
        case h_1 hm => exact Or.inl hm
        case h_2 ptr hm => exact Or.inr ⟨ptr, hm⟩
        case h_3 => cases h
      obtain ⟨t, ht, rfl⟩ : ∃ t, s.sched.spawnTask options priority finalSp = some t ∧
          { s with sched := t } = s' := by
        rcases hmode with hm | ⟨ptr, hm⟩ <;> simpa [Sys.step, hm] using h
      have hpopped : s.popped = none := hP.popped_eq_none (by
        rcases hmode with hm | ⟨ptr, hm⟩ <;> simp [hm])
      have htmode : t.mode = s.sched.mode := by
        obtain ⟨-, heq⟩ := Option.ite_none_right_eq_some.mp ht
        cases heq
        rfl
      have hrel : ∀ sp kind, s.sched.mode ≠ .released sp kind := by
        rcases hmode with hm | ⟨ptr, hm⟩ <;> simp [hm]
      refine Or.inr ⟨.spawn options priority finalSp, ?_⟩
      rw [whole_eq hpopped hrel, whole_eq (s := { s with sched := t }) hpopped (htmode ▸ hrel)]
      rcases hmode with hm | ⟨ptr, hm⟩ <;> simpa [Sched.step, hm] using ht
  | start =>
      obtain ⟨hmode, heq⟩ := Option.ite_none_right_eq_some.mp h
      cases heq
      have hpopped : s.popped = none := hP.popped_eq_none (by simp [hmode])
      refine Or.inr ⟨.start, ?_⟩
      rw [whole_eq hpopped (by simp [hmode]),
        whole_of_none (s := { s with sched := s.sched.startScheduler }) hpopped]
      exact if_pos hmode
  | pop =>
      obtain ⟨⟨hmode, hpopped⟩, heq⟩ := Option.ite_none_right_eq_some.mp h
      cases heq
      refine Or.inr ⟨.dispatch, ?_⟩
      rw [whole_eq hpopped (by simp [hmode]), Sched.step, if_pos hmode]
      cases hq : s.sched.taskQueue with
      | nil => simp [whole, Sched.popTask, Sched.runScheduler, Sched.settle, hq]
      | cons ptr rest => simp [whole, Sched.popTask, Sched.runScheduler, hq]
  | resume =>
      obtain ⟨ptr, hptr, heq⟩ := Option.map_eq_some_iff.mp h
      cases heq
      have hwhole : s.whole = s.sched.resumeTask ptr := by rw [whole, hptr, Option.elim_some]
      exact Or.inl hwhole.symm
  | release sp kind =>
      simp only [Sys.step] at h
      split at h
      case h_1 ptr hmode =>
        cases h
        obtain rfl := hkind sp kind rfl
        have hpopped : s.popped = none := hP.popped_eq_none (by simp [hmode])
        refine Or.inr ⟨.yield sp, ?_⟩
        rw [whole_eq hpopped (by simp [hmode])]
        simp [Sched.step, hmode, whole, hpopped]
      case h_2 => cases h
  | timer sp =>
      obtain ⟨hmode, heq⟩ := Option.ite_none_left_eq_some.mp h
      cases heq
      by_cases htask : ∃ ptr, s.sched.mode = .task ptr
      · obtain ⟨ptr, htask⟩ := htask
        have hpopped : s.popped = none := hP.popped_eq_none (by simp [htask])
        refine Or.inr ⟨.timer sp, ?_⟩
        rw [whole_eq hpopped (by simp [htask])]
        simp [Sched.step, htask, whole, hpopped]
      · have hcur : s.sched.currentTaskPtr = .schedulerTask :=
          (hP.current.resolve_left hmode).resolve_left htask
        have hsame : s.sched.schedulerPreempt sp = s.sched := if_pos (hcur ▸ hP.schedulerId)
        rw [hsame]
        exact Or.inl rfl
  | requeue =>
      simp only [Sys.step] at h
      split at h
      case h_1 sp kind hmode =>
        cases h
        have hpopped : s.popped = none := hP.popped_eq_none (by simp [hmode])
        refine Or.inl ?_
        have hsettle : s.sched.settle = s.sched.resumeScheduler sp kind := by
          rw [Sched.settle, hmode]
        rw [whole_of_none hpopped, hsettle,
          whole_of_none (s := { s with sched := s.sched.resumeScheduler sp kind }) hpopped]
        rfl
      case h_2 => cases h
  | waker rawId =>
      obtain ⟨-, heq⟩ := Option.ite_none_right_eq_some.mp h
      cases heq
      exact Or.inl rfl
  | clone w =>
      obtain ⟨-, heq⟩ := Option.ite_none_right_eq_some.mp h
      cases heq
      exact Or.inl rfl
  | wake w => cases hwoken
  | wakeByRef w => cases hwoken
  | drop w =>
      obtain ⟨-, heq⟩ := Option.ite_none_right_eq_some.mp h
      cases heq
      exact Or.inl rfl

/-- Without wakes, every wake reaches a sleeping task. -/
lemma wakesAsleep_of_forall {es : List Event} (h : ∀ e ∈ es, e.woken = none) :
    s.WakesAsleep es := by
  induction es generalizing s with
  | nil => trivial
  | cons e es ih =>
      obtain ⟨he, hes⟩ := List.forall_mem_cons.mp h
      refine ⟨by simp [he], ?_⟩
      cases s.step e with
      | none => trivial
      | some s' => exact ih hes

/-- **The parts of switches simulate whole ones.** -/
lemma simulation : Simulation Sys.step (fun _ => Event.Quiet (· = .yielded)) Sched.step
    (fun _ _ => True) (fun s t => Pointers s ∧ t = s.whole) where
  step := by
    rintro s s' t e ⟨hP, rfl⟩ hq h
    have hP' := (hP.step h).1
    rcases hP.step_whole hq h with hsame | ⟨d, hd⟩
    · exact ⟨[], s.whole, rfl, trivial, hP', hsame.symm⟩
    · refine ⟨[d], s'.whole, ?_, along_singleton trivial, hP', rfl⟩
      rw [List.foldlM_cons, hd]
      rfl

end Sys

/-! ### What an instruction leaves alone -/

/-- `spawn_task` has returned for the task. -/
def Machine.Complete (m : Machine) (q : Word) : Prop :=
  q ∈ m.allocated ∧ ∀ p, m.building p ≠ some q

/-- The queue, the tasks and their stack pointers stay as they are. -/
structure Machine.Fixed (m m' : Machine) : Prop where
  queue : m'.taskQueue = m.taskQueue
  next : m'.nextTaskId = m.nextTaskId
  allocated : m'.allocated = m.allocated
  building : m'.building = m.building
  sp : ∀ q, (m'.info q).sp = (m.info q).sp

namespace Image

variable {I : Image} {m m' : Machine} {p q : Word}

lemma complete_iff (hS : I.Statics m) : m.Complete q ↔ m.Live q ∧ q ≠ 0 := by
  refine ⟨fun hq => ⟨⟨Or.inl hq.1, hq.2⟩, ?_⟩, fun hq => ⟨?_, hq.1.2⟩⟩
  · rintro rfl
    exact hS.boot_notMem hq.1
  · exact hq.1.1.resolve_right fun h0 => hq.2 h0.1

lemma push_fixed {w : Word} (h : I.push m w = some m') : m.Fixed m' := by
  obtain ⟨-, heq⟩ := Option.ite_none_right_eq_some.mp h
  cases heq
  exact ⟨rfl, rfl, rfl, rfl, fun _ => rfl⟩

lemma iretq_fixed (h : I.iretq m = some m') : m.Fixed m' := by
  simp only [iretq, Option.bind_eq_bind, Option.bind_eq_some_iff, Option.ite_none_right_eq_some,
    Option.some.injEq] at h
  obtain ⟨_, -, _, -, _, -, _, -, _, -, -, rfl⟩ := h
  exact ⟨rfl, rfl, rfl, rfl, fun _ => rfl⟩

lemma exec_fixed {ins : Instr} (h : I.exec m ins = some m') : m.Fixed m' := by
  cases ins with
  | push src =>
      obtain ⟨m₁, h₁, rfl⟩ := Option.map_eq_some_iff.mp h
      have hf := push_fixed h₁
      exact ⟨hf.queue, hf.next, hf.allocated, hf.building, hf.sp⟩
  | call f =>
      obtain ⟨m₁, h₁, rfl⟩ := Option.map_eq_some_iff.mp h
      have hf := push_fixed h₁
      exact ⟨hf.queue, hf.next, hf.allocated, hf.building, hf.sp⟩
  | pop r =>
      obtain ⟨w, -, rfl⟩ := Option.map_eq_some_iff.mp h
      exact ⟨rfl, rfl, rfl, rfl, fun _ => rfl⟩
  | popfq =>
      obtain ⟨w, -, rfl⟩ := Option.map_eq_some_iff.mp h
      exact ⟨rfl, rfl, rfl, rfl, fun _ => rfl⟩
  | iretq => exact iretq_fixed h
  | btr r =>
      cases h
      refine ⟨rfl, rfl, rfl, rfl, fun q => ?_⟩
      show (Function.update m.info (m.reg r) _ q).sp = _
      by_cases hq : q = m.reg r
      · rw [hq, Function.update_self]
      · rw [Function.update_of_ne hq]
  | je i =>
      cases h
      split_ifs <;> exact ⟨rfl, rfl, rfl, rfl, fun _ => rfl⟩
  | jnc i =>
      cases h
      split_ifs <;> exact ⟨rfl, rfl, rfl, rfl, fun _ => rfl⟩
  | _ =>
      cases h
      exact ⟨rfl, rfl, rfl, rfl, fun _ => rfl⟩

lemma note_fixed (r : Routine) (i : ℕ) (m : Machine) : m.Fixed (note r i m) := by
  unfold note
  split
  · exact ⟨rfl, rfl, rfl, rfl, fun _ => rfl⟩
  · cases m.building m.currentTaskPtr <;> exact ⟨rfl, rfl, rfl, rfl, fun _ => rfl⟩
  · exact ⟨rfl, rfl, rfl, rfl, fun _ => rfl⟩
  · exact ⟨rfl, rfl, rfl, rfl, fun _ => rfl⟩

lemma instr_fixed (h : I.instr m = some m') : m.Fixed m' := by
  unfold instr at h
  split at h
  · next r i hpc =>
      obtain ⟨ins, -, h⟩ := Option.bind_eq_some_iff.mp h
      obtain ⟨m₁, h₁, rfl⟩ := Option.map_eq_some_iff.mp h
      have hexec := exec_fixed h₁
      have hnote := note_fixed r i m₁
      exact ⟨hnote.queue.trans hexec.queue, hnote.next.trans hexec.next,
        hnote.allocated.trans hexec.allocated, hnote.building.trans hexec.building,
        fun q => (hnote.sp q).trans (hexec.sp q)⟩
  · cases h

/-! ### The machine and the parts of switches -/

variable (I) in
/-- The name of a task in the coarser models: tasks are numbered in the order in which `spawn_task`
has queued them. -/
def name (order : List Word) (q : Word) : TaskPtr :=
  if q = I.schedulerTask then .schedulerTask
  else if q = 0 then .null
  else .task (firstTaskId + order.idxOf q)

variable (I) in
/-- Who has control, and the task that was popped and does not run yet. -/
def modeOf (order : List Word) (m : Machine) : Mode × Option TaskPtr :=
  if m.started = false then (.boot, none)
  else if m.currentTaskPtr ≠ I.schedulerTask then (.task (I.name order m.currentTaskPtr), none)
  else
    match m.pc with
    | .rust .resumeScheduler => (.released (m.reg .rdi).toNat (resumeKind (m.reg .rsi)), none)
    | .rust .recording => (.released m.released.1.toNat m.released.2, none)
    | .rust .halted => (.halted, none)
    | .asm .resumeTask 0 => (.scheduler, some (I.name order (m.reg .rdi)))
    | _ => (.scheduler, none)

variable (I) in
/-- The tasks and the queue are the same in both models. -/
structure Numbered (order : List Word) (m : Machine) (s : Sched) : Prop where
  nodup : order.Nodup
  mem : ∀ q, q ∈ order ↔ m.Complete q
  next : s.nextTaskId = firstTaskId + order.length
  allocated : m.nextTaskId = firstTaskId + m.allocated.length
  le_max : m.nextTaskId ≤ maxTaskId + 1
  queue : s.taskQueue = m.taskQueue.map (I.name order)
  sp : ∀ q ∈ order, (s.info (I.name order q)).sp = (m.info q).sp.toNat

variable (I) in
/-- The same task has control in both models.  The flag of the current task is cleared in the
coarser one, although `resume_task` may not have come to its test yet. -/
structure Matches (order : List Word) (m : Machine) (s : Sys) : Prop where
  mode : (s.sched.mode, s.popped) = I.modeOf order m
  current : s.sched.currentTaskPtr = I.name order m.currentTaskPtr
  stale : s.sched.staleTaskPtr = I.name order m.staleTaskPtr
  flags : ∀ q ∈ order, (s.sched.info (I.name order q)).interrupted =
    ((m.info q).interrupted && decide (q ≠ m.currentTaskPtr))

variable (I) in
/-- The relation between the two models.  While a piece of code that nothing can interrupt is under
way, the coarser model has already made its step. -/
structure Refines (order : List Word) (m : Machine) (s : Sys) : Prop where
  pointers : s.Pointers
  numbered : I.Numbered order m s.sched
  arrives : ∃ n, I.Leads (fun m => I.Settled m ∧ I.Matches order m s) n m

variable {order : List Word} {s : Sys}

lemma Numbered.fixed {t : Sched} (h : I.Numbered order m t) (hf : m.Fixed m') :
    I.Numbered order m' t where
  nodup := h.nodup
  mem q := by
    rw [h.mem, Machine.Complete, Machine.Complete, hf.allocated, hf.building]
  next := h.next
  allocated := by rw [hf.next, hf.allocated, h.allocated]
  le_max := hf.next ▸ h.le_max
  queue := by rw [h.queue, hf.queue]
  sp q hq := by rw [h.sp q hq, hf.sp]

lemma Numbered.sched {t t' : Sched} (h : I.Numbered order m t)
    (hnext : t'.nextTaskId = t.nextTaskId) (hqueue : t'.taskQueue = t.taskQueue)
    (hsp : ∀ ptr, (t'.info ptr).sp = (t.info ptr).sp) : I.Numbered order m t' where
  nodup := h.nodup
  mem := h.mem
  next := hnext.trans h.next
  allocated := h.allocated
  le_max := h.le_max
  queue := hqueue.trans h.queue
  sp q hq := (hsp _).trans (h.sp q hq)

lemma Numbered.mem_of_live {t : Sched} (h : I.Numbered order m t) (hq : m.Live q)
    (hstarted : m.started = true) : q ∈ order := by
  refine (h.mem q).mpr ⟨hq.1.resolve_right fun h0 => ?_, hq.2⟩
  exact absurd (hstarted.symm.trans h0.2) (by decide)

/-! ### Names -/

@[simp] lemma name_schedulerTask : I.name order I.schedulerTask = .schedulerTask := if_pos rfl

lemma name_zero : I.name order 0 = .null := by
  rw [name, if_neg I.schedulerTask_ne.symm, if_pos rfl]

section Names

variable {t : Sched} (hS : I.Statics m) (hN : I.Numbered order m t)

include hS hN

lemma Numbered.ne_scheduler (hq : q ∈ order) : q ≠ I.schedulerTask := by
  rintro rfl
  exact hS.scheduler_notMem ((hN.mem _).mp hq).1

lemma Numbered.ne_zero (hq : q ∈ order) : q ≠ 0 := by
  rintro rfl
  exact hS.boot_notMem ((hN.mem _).mp hq).1

lemma Numbered.name_eq (hq : q ∈ order) : I.name order q = .task (firstTaskId + order.idxOf q) := by
  rw [name, if_neg (hN.ne_scheduler hS hq), if_neg (hN.ne_zero hS hq)]

lemma Numbered.name_inj (hp : p ∈ order) (hq : q ∈ order) :
    I.name order p = I.name order q ↔ p = q := by
  refine ⟨fun h => ?_, congrArg _⟩
  rw [hN.name_eq hS hp, hN.name_eq hS hq] at h
  exact (List.idxOf_inj hp).mp (Nat.add_left_cancel (TaskPtr.task.inj h))

lemma Numbered.spawned (hq : q ∈ order) : t.Spawned (I.name order q) :=
  ⟨_, Nat.le_add_right .., by
    rw [hN.next]
    exact Nat.add_lt_add_left (List.idxOf_lt_length_of_mem hq) _, hN.name_eq hS hq⟩

/-- An update of one task's info is none of another one's. -/
lemma Numbered.update_name (hp : p ∈ order) (hq : q ∈ order) (hne : q ≠ p)
    (info : TaskPtr → TaskInfo) (i : TaskInfo) :
    Function.update info (I.name order p) i (I.name order q) = info (I.name order q) :=
  Function.update_of_ne (fun h => hne ((hN.name_inj hS hq hp).mp h)) ..

end Names

/-! ### A new name -/

section NewName

variable {t : Word}

lemma name_append_of_mem (hq : q ∈ order) : I.name (order ++ [t]) q = I.name order q := by
  rw [name, name, List.idxOf_append_of_mem hq]

lemma name_append_zero : I.name (order ++ [t]) 0 = I.name order 0 := by
  rw [name_zero, name_zero]

lemma name_append_self (hS : I.Statics m) (ht : t ∈ m.allocated) (hnot : t ∉ order) :
    I.name (order ++ [t]) t = .task (firstTaskId + order.length) := by
  have hsched : t ≠ I.schedulerTask := fun h => hS.scheduler_notMem (h ▸ ht)
  have hzero : t ≠ 0 := fun h => hS.boot_notMem (h ▸ ht)
  rw [name, if_neg hsched, if_neg hzero, List.idxOf_append_of_notMem hnot, List.idxOf_cons_self,
    Nat.add_zero]

/-- There is a number for every task that is being built. -/
lemma Numbered.next_le {u : Sched} (hN : I.Numbered order m u) (ht : t ∈ m.allocated)
    (hnot : t ∉ order) : u.nextTaskId ≤ maxTaskId := by
  have hsub : t :: order ⊆ m.allocated :=
    List.cons_subset.mpr ⟨ht, fun q hq => ((hN.mem q).mp hq).1⟩
  have hlen := (List.subperm_of_subset (List.nodup_cons.mpr ⟨hnot, hN.nodup⟩) hsub).length_le
  have hmax := hN.le_max
  rw [hN.allocated] at hmax
  rw [List.length_cons] at hlen
  rw [hN.next]
  omega

end NewName

/-! ### The steps -/

lemma modeOf_task (hne : m.currentTaskPtr ≠ I.schedulerTask) : I.modeOf order m =
    (if m.started = false then .boot else .task (I.name order m.currentTaskPtr), none) := by
  rw [modeOf, if_pos hne]
  split_ifs <;> rfl

lemma Matches.task_mode (hM : I.Matches order m s) (hne : m.currentTaskPtr ≠ I.schedulerTask) :
    s.sched.mode = (if m.started = false then .boot else .task (I.name order m.currentTaskPtr)) ∧
      s.popped = none :=
  Prod.mk.inj (hM.mode.trans (modeOf_task hne))

lemma modeOf_scheduler (hstarted : m.started = true)
    (hcur : m.currentTaskPtr = I.schedulerTask) : I.modeOf order m =
    match m.pc with
    | .rust .resumeScheduler => (.released (m.reg .rdi).toNat (resumeKind (m.reg .rsi)), none)
    | .rust .recording => (.released m.released.1.toNat m.released.2, none)
    | .rust .halted => (.halted, none)
    | .asm .resumeTask 0 => (.scheduler, some (I.name order (m.reg .rdi)))
    | _ => (.scheduler, none) := by
  rw [modeOf, if_neg (by simp [hstarted]), if_neg (not_not.mpr hcur)]

/-- What is assumed of a run: an interrupt comes after a set flag has been tested, and the tasks
that call `release_task` do so for reasons in `K`. -/
def Allowed (K : ResumeKind → Prop) (m : Machine) (e : Event) : Prop :=
  (e.isTimer → ¬Untested m) ∧ (m.pc = .asm .releaseTask 0 → K (resumeKind (m.reg .rsi)))

instance (K : ResumeKind → Prop) [DecidablePred K] (m : Machine) (e : Event) :
    Decidable (Allowed K m e) := inferInstanceAs (Decidable (_ ∧ _))

variable (I) in
/-- The parts of switches come to a state that `m` refines. -/
def Moves (K : ResumeKind → Prop) (s : Sys) (m : Machine) : Prop :=
  ∃ ds s', ds.foldlM Sys.step s = some s' ∧ Along Sys.step (fun _ => Sys.Event.Quiet K) s ds ∧
    ∃ order, I.Refines order m s'

variable {K : ResumeKind → Prop}

lemma Refines.moves (h : I.Refines order m s) : I.Moves K s m := ⟨[], s, rfl, trivial, order, h⟩

lemma moves_one {s' : Sys} {d : Sys.Event} (hP : s.Pointers) (hstep : s.step d = some s')
    (hd : d.Quiet K) (hN : I.Numbered order m s'.sched)
    (h : ∃ n, I.Leads (fun m => I.Settled m ∧ I.Matches order m s') n m) : I.Moves K s m := by
  refine ⟨[d], s', ?_, along_singleton hd, order, (hP.step hstep).1, hN, h⟩
  rw [List.foldlM_cons, hstep]
  rfl

section Steps

variable (hS : I.Settled m) (hP : s.Pointers) (hN : I.Numbered order m s.sched)
  (hM : I.Matches order m s)

/-- A task goes on. -/
lemma Matches.task (hM : I.Matches order m s) (hne : m.currentTaskPtr ≠ I.schedulerTask)
    (hcur : m'.currentTaskPtr = m.currentTaskPtr) (hstale : m'.staleTaskPtr = m.staleTaskPtr)
    (hstarted : m'.started = m.started)
    (hinfo : ∀ q ∈ order, q ≠ m.currentTaskPtr → m'.info q = m.info q) :
    I.Matches order m' s where
  mode := by rw [hM.mode, modeOf_task hne, modeOf_task (hcur ▸ hne), hstarted, hcur]
  current := by rw [hM.current, hcur]
  stale := by rw [hM.stale, hstale]
  flags q hq := by
    rw [hM.flags q hq, hcur]
    by_cases hq' : q = m.currentTaskPtr
    · simp [hq']
    · rw [hinfo q hq hq']

include hS hN in
/-- A task is suspended. -/
lemma Matches.suspend (hM : I.Matches order m s) (hcur : m.currentTaskPtr ∈ order)
    (hflag : (m.info m.currentTaskPtr).interrupted = false) {m₁ : Machine}
    (hpc₁ : m₁.pc = .rust .resumeScheduler) (hcur₁ : m₁.currentTaskPtr = I.schedulerTask)
    (hstale₁ : m₁.staleTaskPtr = m.staleTaskPtr) (hinfo₁ : m₁.info = m.info)
    (hstarted₁ : m₁.started = true) : I.Matches order m₁
      { s with sched := s.sched.jumpOut (m₁.reg .rdi).toNat (resumeKind (m₁.reg .rsi)) } where
  mode := by
    have hmode := hM.task_mode (hN.ne_scheduler hS.toStatics hcur)
    rw [modeOf_scheduler hstarted₁ hcur₁, hpc₁, hmode.2]
    rfl
  current := by
    rw [hcur₁, name_schedulerTask]
    rfl
  stale := by
    rw [hstale₁]
    exact hM.stale
  flags q hq := by
    have hne : q ≠ m₁.currentTaskPtr := hcur₁ ▸ hN.ne_scheduler hS.toStatics hq
    have hold := hM.flags q hq
    rw [hinfo₁, decide_eq_true hne, Bool.and_true]
    refine hold.trans ?_
    by_cases hq' : q = m.currentTaskPtr
    · rw [hq', hflag, Bool.false_and]
    · rw [decide_eq_true hq', Bool.and_true]

include hS hN hM in
/-- `resume_task` has switched to a task. -/
lemma matches_switched (hcur : m.currentTaskPtr = I.schedulerTask) (hstarted : m.started = true)
    (hrdi : m.reg .rdi ∈ order) : I.Matches order (switched m)
      { s with sched := s.sched.resumeTask (I.name order (m.reg .rdi)), popped := none } where
  mode := by
    have hne : (switched m).currentTaskPtr ≠ I.schedulerTask := hN.ne_scheduler hS.toStatics hrdi
    rw [modeOf_task hne, if_neg (by simp [switched, hstarted])]
    rfl
  current := rfl
  stale := rfl
  flags q hq := by
    have hne : q ≠ m.currentTaskPtr := hcur ▸ hN.ne_scheduler hS.toStatics hq
    have hold := hM.flags q hq
    rw [decide_eq_true hne, Bool.and_true] at hold
    show (Function.update s.sched.info (I.name order (m.reg .rdi)) _ (I.name order q)).interrupted =
      ((m.info q).interrupted && decide (q ≠ m.reg .rdi))
    by_cases hq' : q = m.reg .rdi
    · subst hq'
      rw [Function.update_self]
      simp
    · rw [hN.update_name hS.toStatics hrdi hq hq', hold, decide_eq_true hq', Bool.and_true]

include hS hP hN hM in
lemma moves_instr (hK : m.pc = .asm .releaseTask 0 → K (resumeKind (m.reg .rsi)))
    (h : I.instr m = some m') : I.Moves K s m' := by
  have hN' : I.Numbered order m' s.sched := hN.fixed (instr_fixed h)
  cases hS.turn h with
  | resume hpc hcur hstarted hrdi harr =>
      have hmem : m.reg .rdi ∈ order := hN.mem_of_live hrdi hstarted
      have hmode := hM.mode
      rw [modeOf_scheduler hstarted hcur, hpc, Prod.mk.injEq] at hmode
      refine moves_one (d := .resume) hP (congrArg (Option.map _) hmode.2) ⟨rfl, by simp⟩
        (hN'.sched rfl rfl fun ptr => ?_)
        (harr.leads fun hset => ⟨hset, matches_switched hS hN hM hcur hstarted hmem⟩)
      show (Function.update s.sched.info (I.name order (m.reg .rdi)) _ ptr).sp = _
      by_cases hptr : ptr = I.name order (m.reg .rdi)
      · rw [hptr, Function.update_self]
      · rw [Function.update_of_ne hptr]
  | release hlive hstale hstarted hpc hflag harr =>
      have hmem := hN.mem_of_live hlive hstarted
      have hmode := hM.task_mode (hN.ne_scheduler hS.toStatics hmem)
      rw [if_neg (by simp [hstarted])] at hmode
      have hstep : s.step (.release ((I.releasedOut m).reg .rdi).toNat
          (resumeKind ((I.releasedOut m).reg .rsi))) = some { s with
            sched := s.sched.jumpOut ((I.releasedOut m).reg .rdi).toNat
              (resumeKind ((I.releasedOut m).reg .rsi)) } := by
        simp only [Sys.step, hmode.1]
        rfl
      refine moves_one hP hstep ⟨rfl, fun sp kind heq => ?_⟩ (hN'.sched rfl rfl fun _ => rfl)
        (harr.leads fun hset => ⟨hset, hM.suspend hS hN hmem hflag rfl rfl rfl rfl hstarted⟩)
      cases heq
      exact hK hpc
  | task hlive hstale hboot hlocal hset =>
      exact Refines.moves ⟨hP, hN', 0, hset, hM.task (hS.ne_scheduler hlive) hlocal.current
        hlocal.stale hlocal.started fun q _ hq => hlocal.info q hq⟩

include hS hP hN hM in
lemma moves_timer (hne : ¬Untested m) (h : I.step m .timer = some m') : I.Moves K s m' := by
  rcases hS.timer_cases hne h with ⟨hcur, rfl, harr⟩ | ⟨hlive, hstale, hstarted, hflag, rfl, harr⟩
  · have hM' : I.Matches order (I.returned m) s := ⟨hM.mode, hM.current, hM.stale, hM.flags⟩
    exact Refines.moves ⟨hP, hN.fixed ⟨rfl, rfl, rfl, rfl, fun _ => rfl⟩,
      harr.leads fun hset => ⟨hset, hM'⟩⟩
  · have hmem := hN.mem_of_live hlive hstarted
    have hmode := hM.task_mode (hN.ne_scheduler hS.toStatics hmem)
    rw [if_neg (by simp [hstarted])] at hmode
    have hid : (s.sched.info s.sched.currentTaskPtr).taskId ≠ taskIdScheduler :=
      hM.current ▸ hP.taskIds _ (hN.spawned hS.toStatics hmem)
    have hstep : s.step (.timer ((I.preempted m).reg .rdi).toNat) = some { s with
        sched := s.sched.jumpOut ((I.preempted m).reg .rdi).toNat
          (resumeKind ((I.preempted m).reg .rsi)) } := by
      rw [Sys.step, if_neg (by simp [hmode.1]), Sched.schedulerPreempt, if_neg hid]
      rfl
    have hN' : I.Numbered order (I.delivered m) s.sched :=
      hN.fixed ⟨rfl, rfl, rfl, rfl, fun _ => rfl⟩
    exact moves_one hP hstep ⟨rfl, by simp⟩ (hN'.sched rfl rfl fun _ => rfl)
      (harr.leads fun hset => ⟨hset, hM.suspend hS hN hmem hflag rfl rfl rfl rfl hstarted⟩)

include hS hP hN hM in
lemma moves_work {x : Scratch} {a : Word} (h : I.step m (.work x a) = some m') :
    I.Moves K s m' := by
  have hset := hS.work h
  obtain ⟨hpc, -, m₁, hx, rfl⟩ := step_work h
  obtain ⟨-, mem, rfl, -⟩ := scratch_spec hx
  exact Refines.moves ⟨hP, hN.fixed ⟨rfl, rfl, rfl, rfl, fun _ => rfl⟩, 0, hset,
    hM.task (hS.ne_scheduler (hS.own hpc).live) rfl rfl rfl fun _ _ _ => rfl⟩

include hS hP hN hM in
lemma moves_callRelease {x : Scratch} (h : I.step m (.callRelease x) = some m') :
    I.Moves K s m' := by
  have hset := hS.callRelease h
  obtain ⟨hpc, -, m₁, hx, rfl⟩ := step_callRelease h
  obtain ⟨-, mem, rfl, -⟩ := scratch_spec hx
  exact Refines.moves ⟨hP, hN.fixed ⟨rfl, rfl, rfl, rfl, fun _ => rfl⟩, 0, hset,
    hM.task (hS.ne_scheduler (hS.own (Or.inl hpc)).live) rfl rfl rfl fun _ _ _ => rfl⟩

include hS hP hN hM in
/-- A task that is being built is no task of the coarser model yet. -/
lemma moves_callSpawn {x : Scratch} {t top entry : Word} {options priority : ℕ}
    (h : I.step m (.callSpawn x t top entry options priority) = some m') : I.Moves K s m' := by
  have hset := hS.callSpawn h
  obtain ⟨hpc, hargs, m₁, hx, rfl⟩ := step_callSpawn h
  obtain ⟨-, mem, rfl, -⟩ := scratch_spec hx
  have hown := hS.own (Or.inl hpc)
  have hne : ∀ q ∈ order, q ≠ t := by
    rintro q hq rfl
    exact hargs.notMem ((hN.mem q).mp hq).1
  refine Refines.moves ⟨hP, ⟨hN.nodup, fun q => ?_, hN.next, ?_, Nat.succ_le_succ hargs.id,
    hN.queue, fun q hq => ?_⟩, 0, hset, hM.task (hS.ne_scheduler hown.live) rfl rfl rfl
    fun q hq _ => Function.update_of_ne (hne q hq) ..⟩
  · rw [hN.mem, complete_iff hS.toStatics, complete_iff hset.toStatics]
    exact and_congr_left' (live_spawnCalled hown hargs).symm
  · show m.nextTaskId + 1 = firstTaskId + (m.allocated.length + 1)
    rw [hN.allocated, Nat.add_assoc]
  · rw [hN.sp q hq]
    exact congrArg (fun i : RawTaskInfo => i.sp.toNat) (Function.update_of_ne (hne q hq) ..).symm

section Spawned

variable {t a : Word} {x : Scratch} {mem : Mem}

/-- The scheduler of the coarser model after the `spawn_task` of a task with the stack pointer
`sp`. -/
def spawnedSched (u : Sched) (sp : Word) : Sched :=
  { u with
    info := Function.update u.info (.task u.nextTaskId)
      ⟨sp.toNat, makeTaskId kernelTask u.nextTaskId 0, false⟩
    taskQueue := u.taskQueue ++ [.task u.nextTaskId]
    nextTaskId := u.nextTaskId + 1 }

include hS hN in
lemma info_spawnedSched_of_mem (hq : q ∈ order) (sp : Word) :
    (spawnedSched s.sched sp).info (I.name (order ++ [t]) q) =
      s.sched.info (I.name order q) := by
  obtain ⟨n, -, hn, hname⟩ := hN.spawned hS.toStatics hq
  rw [name_append_of_mem hq, hname]
  exact Function.update_of_ne (fun h => absurd (TaskPtr.task.inj h) (Nat.ne_of_lt hn)) ..

include hS hN in
lemma info_spawnedSched_self (ht : t ∈ m.allocated) (hnot : t ∉ order) (sp : Word) :
    (spawnedSched s.sched sp).info (I.name (order ++ [t]) t) =
      ⟨sp.toNat, makeTaskId kernelTask s.sched.nextTaskId 0, false⟩ := by
  rw [name_append_self hS.toStatics ht hnot, ← hN.next]
  exact Function.update_self ..

include hS hN in
lemma numbered_spawnDone (ht : t ∈ m.allocated) (hnot : t ∉ order)
    (hset : I.Settled (spawnDone m x mem t a))
    (hlive : ∀ q, (spawnDone m x mem t a).Live q ↔ q = t ∨ m.Live q) :
    I.Numbered (order ++ [t]) (spawnDone m x mem t a)
      (spawnedSched s.sched (m.reg .rax)) := by
  have hself := name_append_self hS.toStatics ht hnot
  have hzero : t ≠ 0 := fun h => hS.boot_notMem (h ▸ ht)
  refine ⟨?_, fun q => ?_, ?_, hN.allocated, hN.le_max, ?_, fun q hq => ?_⟩
  · rw [← List.concat_eq_append]
    exact hN.nodup.concat hnot
  · rw [List.mem_append, List.mem_singleton, hN.mem, complete_iff hS.toStatics,
      complete_iff hset.toStatics, hlive]
    by_cases hq : q = t
    · subst hq
      exact ⟨fun _ => ⟨Or.inl rfl, hzero⟩, fun _ => Or.inr rfl⟩
    · simp [hq]
  · show s.sched.nextTaskId + 1 = _
    rw [hN.next, List.length_append, List.length_singleton, Nat.add_assoc]
  · show s.sched.taskQueue ++ [.task s.sched.nextTaskId] = (m.taskQueue ++ [t]).map _
    rw [List.map_append, List.map_singleton, hself, hN.queue, hN.next]
    refine congrArg (· ++ _) (List.map_congr_left fun q hq => ?_)
    exact (name_append_of_mem ((hN.mem q).mpr (hS.queue q hq))).symm
  · show _ = (Function.update m.info t _ q).sp.toNat
    rcases List.mem_append.mp hq with hq | hq
    · have hqt : q ≠ t := fun h => hnot (h ▸ hq)
      rw [info_spawnedSched_of_mem hS hN hq, Function.update_of_ne hqt]
      exact hN.sp q hq
    · obtain rfl := List.mem_singleton.mp hq
      rw [info_spawnedSched_self hS hN ht hnot, Function.update_self]

include hS hN hM in
lemma matches_spawnDone (ht : t ∈ m.allocated) (hnot : t ∉ order)
    (hlive : m.Live m.currentTaskPtr) (hstale : m.staleTaskPtr = m.currentTaskPtr)
    (hflag : (m.info t).interrupted = false) : I.Matches (order ++ [t]) (spawnDone m x mem t a)
      { s with sched := spawnedSched s.sched (m.reg .rax) } := by
  have hne := hS.ne_scheduler hlive
  have hname : I.name (order ++ [t]) m.currentTaskPtr = I.name order m.currentTaskPtr := by
    rcases hlive.1 with hmem | ⟨hzero, -⟩
    · exact name_append_of_mem ((hN.mem _).mpr ⟨hmem, hlive.2⟩)
    · rw [hzero, name_append_zero]
  refine ⟨?_, ?_, ?_, fun q hq => ?_⟩
  · rw [modeOf_task (m := spawnDone m x mem t a) hne]
    exact hM.mode.trans ((modeOf_task hne).trans (by rw [← hname]; rfl))
  · exact hM.current.trans hname.symm
  · refine hM.stale.trans ?_
    rw [hstale]
    show _ = I.name (order ++ [t]) m.staleTaskPtr
    rw [hstale, hname]
  · show _ = ((Function.update m.info t _ q).interrupted && decide (q ≠ m.currentTaskPtr))
    rcases List.mem_append.mp hq with hq | hq
    · have hqt : q ≠ t := fun h => hnot (h ▸ hq)
      rw [info_spawnedSched_of_mem hS hN hq, Function.update_of_ne hqt]
      exact hM.flags q hq
    · obtain rfl := List.mem_singleton.mp hq
      rw [info_spawnedSched_self hS hN ht hnot, Function.update_self]
      simp [hflag]

include hS hP hN hM in
/-- The task that was built gets its number when it is queued. -/
lemma moves_spawned (h : I.step m (.spawned x a) = some m') : I.Moves K s m' := by
  have hset := hS.spawned h
  obtain ⟨hpc, t, hb, -, m₁, hx, rfl⟩ := step_spawned h
  obtain ⟨-, mem, rfl, -⟩ := scratch_spec hx
  obtain ⟨top, entry, hsp⟩ := hS.spawned_of_pc hpc hb
  obtain ⟨-, ht, -⟩ := hS.built _ t hb
  have hnot : t ∉ order := fun hmem => ((hN.mem t).mp hmem).2 _ hb
  have hspawn : s.sched.spawnTask kernelTask 0 (m.reg .rax).toNat =
      some (spawnedSched s.sched (m.reg .rax)) :=
    if_pos ⟨by decide, by decide, hN.next_le ht hnot⟩
  have hstep : s.step (.spawn kernelTask 0 (m.reg .rax).toNat) =
      some { s with sched := spawnedSched s.sched (m.reg .rax) } := by
    have hmode := hM.task_mode (hS.ne_scheduler hsp.live)
    cases hstarted : m.started with
    | false => simp [Sys.step, hmode.1, hstarted, hspawn]
    | true => simp [Sys.step, hmode.1, hstarted, hspawn]
  exact moves_one hP hstep ⟨rfl, by simp⟩
    (numbered_spawnDone hS hN ht hnot hset fun q => live_spawnDone hS.toStatics hsp)
    ⟨0, hset, matches_spawnDone hS hN hM ht hnot hsp.live hsp.stale hsp.spawning.flag⟩

end Spawned

include hS hP hN hM in
lemma moves_start {x : Scratch} (h : I.step m (.start x) = some m') : I.Moves K s m' := by
  have hset := hS.start h
  obtain ⟨hpc, hstarted, m₁, hx, rfl⟩ := step_start h
  obtain ⟨-, mem, rfl, -⟩ := scratch_spec hx
  have hown := hS.own (Or.inl hpc)
  have hmode := hM.task_mode (hS.ne_scheduler hown.live)
  rw [if_pos hstarted] at hmode
  refine moves_one (d := .start) hP (if_pos hmode.1) ⟨rfl, by simp⟩
    (.fixed (hN.sched rfl rfl fun _ => rfl) ⟨rfl, rfl, rfl, rfl, fun _ => rfl⟩)
    ⟨0, hset, ?_, name_schedulerTask.symm, name_schedulerTask.symm, fun q hq => ?_⟩
  · rw [modeOf_scheduler rfl rfl, hmode.2]
    rfl
  · have hne : q ≠ m.currentTaskPtr := hown.boot hstarted ▸ hN.ne_zero hS.toStatics hq
    have hne' : q ≠ I.schedulerTask := hN.ne_scheduler hS.toStatics hq
    refine (hM.flags q hq).trans ?_
    rw [decide_eq_true hne, decide_eq_true hne']

include hS hP hN hM in
lemma moves_enter {x : Scratch} (h : I.step m (.enter x) = some m') : I.Moves K s m' := by
  have hset := hS.enter h
  obtain ⟨hpc, m₁, hx, rfl⟩ := step_enter h
  obtain ⟨-, mem, rfl, -⟩ := scratch_spec hx
  obtain ⟨hcur, hstarted, -⟩ := hS.scheduler hpc
  refine Refines.moves ⟨hP, hN.fixed ⟨rfl, rfl, rfl, rfl, fun _ => rfl⟩, 0, hset, ?_, hM.current,
    hM.stale, hM.flags⟩
  refine Eq.trans ?_ (modeOf_scheduler ?_ ?_).symm
  · rw [hM.mode, modeOf_scheduler hstarted hcur, hpc]
  · exact hstarted
  · exact hcur

include hS hN hM in
/-- `resume_scheduler` has recorded the released task. -/
lemma matches_recordDone {x : Scratch} {mem : Mem} (hcur : m.currentTaskPtr = I.schedulerTask)
    (hstarted : m.started = true) (hstale : m.staleTaskPtr ∈ order) (hpopped : s.popped = none) :
    I.Matches order (recordDone m x mem)
      { s with sched := s.sched.resumeScheduler m.released.1.toNat m.released.2 } := by
  refine ⟨?_, hM.current, hM.stale, fun q hq => ?_⟩
  · rw [modeOf_scheduler (m := recordDone m x mem) hstarted hcur, hpopped]
    rfl
  · have hold := hM.flags q hq
    have hne : q ≠ m.currentTaskPtr := hcur ▸ hN.ne_scheduler hS.toStatics hq
    rw [decide_eq_true hne, Bool.and_true] at hold
    show (Function.update s.sched.info s.sched.staleTaskPtr _ _).interrupted =
      ((recorded m q).interrupted && decide (q ≠ m.currentTaskPtr))
    rw [decide_eq_true hne, Bool.and_true, hM.stale]
    by_cases hq' : q = m.staleTaskPtr
    · subst hq'
      rw [Function.update_self, recorded_self, hold]
    · rw [hN.update_name hS.toStatics hstale hq hq', hold, recorded_of_ne hq']

include hS hN hM in
lemma numbered_recordDone {x : Scratch} {mem : Mem} (hstale : m.staleTaskPtr ∈ order) :
    I.Numbered order (recordDone m x mem)
      (s.sched.resumeScheduler m.released.1.toNat m.released.2) := by
  refine ⟨hN.nodup, hN.mem, hN.next, hN.allocated, hN.le_max, ?_, fun q hq => ?_⟩
  · simp only [Sched.resumeScheduler, recordDone, hN.queue, hM.stale]
    split_ifs <;> simp
  · show (Function.update s.sched.info s.sched.staleTaskPtr _ _).sp = (recorded m q).sp.toNat
    rw [hM.stale]
    by_cases hq' : q = m.staleTaskPtr
    · subst hq'
      rw [Function.update_self, recorded_self]
    · rw [hN.update_name hS.toStatics hstale hq hq', hN.sp q hq, recorded_of_ne hq']

include hS hP hN hM in
lemma moves_record {x : Scratch} (h : I.step m (.record x) = some m') : I.Moves K s m' := by
  have hset := hS.record h
  obtain ⟨hpc, m₁, hx, rfl⟩ := step_record h
  obtain ⟨-, mem, rfl, -⟩ := scratch_spec hx
  obtain ⟨hcur, hstarted, hsched⟩ := hS.scheduler hpc
  have hlive : m.Live m.staleTaskPtr := by
    cases hsched <;> simp_all
  have hstale := hN.mem_of_live hlive hstarted
  have hmode := hM.mode
  rw [modeOf_scheduler hstarted hcur, hpc, Prod.mk.injEq] at hmode
  have hstep : s.step .requeue = some { s with
      sched := s.sched.resumeScheduler m.released.1.toNat m.released.2 } := by
    simp only [Sys.step, hmode.1]
  exact moves_one hP hstep ⟨rfl, by simp⟩ (numbered_recordDone hS hN hM hstale)
    ⟨0, hset, matches_recordDone hS hN hM hcur hstarted hstale hmode.2⟩

include hS hP hN hM in
lemma moves_dispatch {x : Scratch} (h : I.step m (.dispatch x) = some m') : I.Moves K s m' := by
  have hset := hS.dispatch h
  obtain ⟨hpc, m₁, hx, hcases⟩ := step_dispatch h
  obtain ⟨-, mem, rfl, -⟩ := scratch_spec hx
  obtain ⟨hcur, hstarted, -⟩ := hS.scheduler hpc
  have hmode := hM.mode
  rw [modeOf_scheduler hstarted hcur, hpc, Prod.mk.injEq] at hmode
  have hpop : s.step .pop = some { s with
      sched := s.sched.popTask.2, popped := s.sched.popTask.1 } := if_pos hmode
  rcases hcases with ⟨hnil, rfl⟩ | ⟨taskPtr, rest, hcons, rfl⟩
  · have hq : s.sched.taskQueue = [] := by
      rw [hN.queue, show m.taskQueue = [] from hnil, List.map_nil]
    have heq : s.sched.popTask = (none, { s.sched with mode := .halted }) := by
      simp [Sched.popTask, hq]
    rw [heq] at hpop
    refine moves_one hP hpop ⟨rfl, by simp⟩
      (.fixed (hN.sched rfl rfl fun _ => rfl) ⟨rfl, rfl, rfl, rfl, fun _ => rfl⟩)
      ⟨0, hset, ?_, hM.current, hM.stale, hM.flags⟩
    exact (modeOf_scheduler (m := { m with pc := .rust .halted }) hstarted hcur).symm
  · have hq : s.sched.taskQueue = I.name order taskPtr :: rest.map (I.name order) := by
      rw [hN.queue, show m.taskQueue = taskPtr :: rest from hcons, List.map_cons]
    have heq : s.sched.popTask = (some (I.name order taskPtr),
        { s.sched with taskQueue := rest.map (I.name order) }) := by
      rw [Sched.popTask, hq]
    rw [heq] at hpop
    refine moves_one hP hpop ⟨rfl, by simp⟩
      ⟨hN.nodup, hN.mem, hN.next, hN.allocated, hN.le_max, rfl, hN.sp⟩
      ⟨0, hset, ?_, hM.current, hM.stale, hM.flags⟩
    refine Eq.trans ?_ (modeOf_scheduler ?_ ?_).symm
    · exact congrArg (·, _) hmode.1
    · exact hstarted
    · exact hcur

end Steps

/-! ### Runs -/

/-- **A step of the machine is a part of a switch**, or none. -/
lemma Refines.step (hR : I.Refines order m s) {e : Event} (hok : Allowed K m e)
    (h : I.step m e = some m') : I.Moves K s m' := by
  obtain ⟨hP, hN, n, hn⟩ := hR
  cases n with
  | succ n =>
      have hinstr := hn.1.step_eq h
      exact Refines.moves ⟨hP, hN.fixed (instr_fixed hinstr), n, hn.2 m' hinstr⟩
  | zero =>
      obtain ⟨hS, hM⟩ := hn
      cases e with
      | instr => exact moves_instr hS hP hN hM hok.2 h
      | timer => exact moves_timer hS hP hN hM (hok.1 rfl) h
      | work x a => exact moves_work hS hP hN hM h
      | callRelease x => exact moves_callRelease hS hP hN hM h
      | callSpawn x t top entry options priority => exact moves_callSpawn hS hP hN hM h
      | spawned x a => exact moves_spawned hS hP hN hM h
      | start x => exact moves_start hS hP hN hM h
      | enter x => exact moves_enter hS hP hN hM h
      | record x => exact moves_record hS hP hN hM h
      | dispatch x => exact moves_dispatch hS hP hN hM h

/-- **The parts of switches simulate the machine.** -/
lemma simulation (I : Image) (K : ResumeKind → Prop) : Simulation I.step (Allowed K) Sys.step
    (fun _ => Sys.Event.Quiet K) (fun m s => ∃ order, I.Refines order m s) where
  step := by
    rintro m m' s e ⟨order, hR⟩ hok h
    exact hR.step hok h

lemma refines_boot {x : Scratch} {mem : Mem} {a : Word} (hon : I.stackMap.On 0 x.rsp)
    (hlabel : I.label a = none) :
    I.Refines [] (I.boot x mem a) (Sys.boot I.schedulerSp.toNat) where
  pointers := Sys.pointers_boot _
  numbered := ⟨List.nodup_nil, fun q => ⟨fun hq => absurd hq List.not_mem_nil,
    fun hq => absurd hq.1 List.not_mem_nil⟩, rfl, rfl, (by decide : firstTaskId ≤ maxTaskId + 1),
    rfl, fun q hq => absurd hq List.not_mem_nil⟩
  arrives := ⟨0, settled_boot hon hlabel, (if_pos rfl).symm, name_zero.symm, name_zero.symm,
    fun q hq => absurd hq List.not_mem_nil⟩

/-- Outside of the pieces of code that nothing can interrupt, the coarser model is where the
machine is. -/
lemma Refines.settled (h : I.Refines order m s) (hpc : ¬Inner m.pc) :
    I.Settled m ∧ I.Matches order m s := by
  obtain ⟨n, hn⟩ := h.arrives
  cases n with
  | zero => exact hn
  | succ n => exact absurd hn.1.inner hpc

/-- The running task is not queued. -/
lemma Refines.current_notMem (h : I.Refines order m s) (hA : s.Awake) (hpc : ¬Inner m.pc) :
    m.currentTaskPtr ∉ m.taskQueue := by
  intro hmem
  obtain ⟨hS, hM⟩ := h.settled hpc
  have hcomplete : m.Complete m.currentTaskPtr := hS.queue _ hmem
  have horder : m.currentTaskPtr ∈ order := (h.numbered.mem _).mpr hcomplete
  have hmode := hM.task_mode (h.numbered.ne_scheduler hS.toStatics horder)
  have hstarted : m.started ≠ false := by
    intro hfalse
    cases hS.control with
    | scheduler hcur => exact h.numbered.ne_scheduler hS.toStatics horder hcur
    | task _ _ hboot => exact h.numbered.ne_zero hS.toStatics horder (hboot hfalse)
  rw [if_neg hstarted] at hmode
  refine hA.holder (I.name order m.currentTaskPtr) ?_ ?_
  · simp [Sys.holder, Sched.holder, hmode]
  · rw [h.numbered.queue]
    exact List.mem_map_of_mem hmem

/-- **The machine refines the parts of switches.**  For every run in which no interrupt comes
between the `sti` of `resume_task` and its test of a set flag, there is a run of the coarser model,
without wakes, that comes to the same tasks, with the same stack pointers, and the same queue; and
outside of the code that nothing can interrupt also to the same task in control.  So no task is
queued twice, and none while it runs. -/
theorem machine_refines_switches {x : Scratch} {mem : Mem} {a : Word} {es : List Event}
    (hon : I.stackMap.On 0 x.rsp) (hlabel : I.label a = none)
    (hok : Along I.step (Allowed K) (I.boot x mem a) es)
    (hrun : I.run (I.boot x mem a) es = some m) :
    (∃ ds s order, (Sys.boot I.schedulerSp.toNat).run ds = some s ∧ (∀ d ∈ ds, d.Quiet K) ∧
      I.Numbered order m s.sched ∧ (¬Inner m.pc → I.Matches order m s)) ∧
    m.taskQueue.Nodup ∧ (¬Inner m.pc → m.currentTaskPtr ∉ m.taskQueue) := by
  obtain ⟨ds, s, hds, hquiet, order, hR⟩ :=
    (simulation I K).run ⟨[], refines_boot hon hlabel⟩ hok hrun
  have hall := hquiet.forall_mem hds
  have hA : s.Awake := (Sys.awake_boot _).run
    (Sys.wakesAsleep_of_forall fun d hd => (hall d hd).1) hds
  refine ⟨⟨ds, s, order, hds, hall, hR.numbered, fun hpc => (hR.settled hpc).2⟩, ?_,
    fun hpc => hR.current_notMem hA hpc⟩
  have hnodup := hA.queue
  rw [hR.numbered.queue] at hnodup
  exact hnodup.of_map

/-- `spawn_task` for a second task, which starts at `0x3000`. -/
def secondScratch : Scratch where
  reg
    | .rdi => 0x3000
    | .rsi => 0x315000
    | _ => 0
  rsp := 0x14f00
  rflags := 0x202
  writes := []

/-- A call of `spawn_task` from `kmain`. -/
def spawnFromBoot (x : Scratch) (t top entry : Word) : List Event :=
  .callSpawn x t top entry kernelTask 0 ::
    (List.replicate 18 .instr ++ [.spawned bootScratch 0x1000])

/-- Two tasks are spawned, and the first one runs. -/
def twoSpawned : List Event :=
  spawnFromBoot spawnScratch 0x5000 0x215000 0x2000 ++
    spawnFromBoot secondScratch 0x6000 0x315000 0x3000 ++
    [.start quiet, .dispatch quiet] ++ List.replicate 14 .instr

theorem machine_refines_switches_twoSpawned :
    ∃ m, sampleImage.run sampleBoot twoSpawned = some m ∧ m.pc = .user 0x2000 ∧
      m.taskQueue = [0x6000] ∧ m.currentTaskPtr ∉ m.taskQueue := by
  have heval : (sampleImage.run sampleBoot twoSpawned).any (fun m =>
      m.pc = .user 0x2000 ∧ m.taskQueue = [0x6000]) = true := by decide +kernel
  simp only [Option.any_eq_true, decide_eq_true_eq] at heval
  obtain ⟨m, hrun, hpc, hqueue⟩ := heval
  obtain ⟨-, -, hnot⟩ := machine_refines_switches (K := fun _ => True) (by decide +kernel)
    (by decide +kernel) (by decide +kernel) hrun
  exact ⟨m, hrun, hpc, hqueue, hnot (by simp [hpc, Inner])⟩

/-- **When tasks only yield, none is lost.**  Whenever `run_scheduler` looks for a task, the queue
holds every task for which `spawn_task` has returned, exactly once, and nothing else. -/
theorem yields_lose_no_task {x : Scratch} {mem : Mem} {a : Word} {es : List Event}
    (hon : I.stackMap.On 0 x.rsp) (hlabel : I.label a = none)
    (hok : Along I.step (Allowed (· = .yielded)) (I.boot x mem a) es)
    (hrun : I.run (I.boot x mem a) es = some m) (hpc : m.pc = .rust .runScheduler) :
    m.taskQueue.Nodup ∧
      ∀ q, q ∈ m.taskQueue ↔ q ∈ m.allocated ∧ ∀ p, m.building p ≠ some q := by
  have hboot : Relation.Comp (fun m s => ∃ order, I.Refines order m s)
      (fun s t => Sys.Pointers s ∧ t = s.whole) (I.boot x mem a)
      (Sched.boot I.schedulerSp.toNat) :=
    ⟨Sys.boot I.schedulerSp.toNat, ⟨[], refines_boot hon hlabel⟩, Sys.pointers_boot _, rfl⟩
  obtain ⟨ds, t, hds, -, s, ⟨order, hR⟩, -, rfl⟩ :=
    ((simulation I _).trans Sys.simulation).run hboot hok hrun
  obtain ⟨hsched, -⟩ := (Sched.scheduled_boot _).run_simulates hds
  obtain ⟨hS, hM⟩ := hR.settled (by simp [hpc, Inner])
  have hN := hR.numbered
  obtain ⟨hcur, hstarted, -⟩ := hS.scheduler hpc
  have hmode := hM.mode
  rw [modeOf_scheduler hstarted hcur, hpc, Prod.mk.injEq] at hmode
  have hwhole : s.whole = s.sched := Sys.whole_eq hmode.2 (by simp [hmode.1])
  have hring : s.sched.ring.elements = m.taskQueue.map (I.name order) := by
    simp [Sched.ring, Sched.running, Ring.elements, hmode.1, hN.queue]
  have hnodup := hsched.nodup
  rw [hwhole, hring] at hnodup
  refine ⟨hnodup.of_map, fun q => ⟨fun hq => hS.queue q hq, fun hq => ?_⟩⟩
  have hmem : q ∈ order := (hN.mem q).mpr hq
  have hspawned : I.name order q ∈ s.sched.ring.elements := by
    rw [← hwhole, hsched.holds.mem_iff, Sched.mem_spawned hsched.first_le, hwhole]
    exact hN.spawned hS.toStatics hmem
  rw [hring] at hspawned
  obtain ⟨q', hq', hname⟩ := List.mem_map.mp hspawned
  have horder' : q' ∈ order := (hN.mem q').mpr (hS.queue q' hq')
  rwa [(hN.name_inj hS.toStatics horder' hmem).mp hname] at hq'

/-- The first of two tasks is preempted. -/
def twoPreempted : List Event :=
  twoSpawned ++ [.timer] ++ List.replicate 38 .instr ++ [.enter quiet, .record quiet]

theorem yields_lose_no_task_twoPreempted :
    ∃ m, sampleImage.run sampleBoot twoPreempted = some m ∧ m.pc = .rust .runScheduler ∧
      m.taskQueue = [0x6000, 0x5000] ∧ ∀ q ∈ m.taskQueue, q ∈ m.allocated := by
  have heval : (sampleImage.run sampleBoot twoPreempted).any (fun m =>
      m.pc = .rust .runScheduler ∧ m.taskQueue = [0x6000, 0x5000]) = true := by decide +kernel
  simp only [Option.any_eq_true, decide_eq_true_eq] at heval
  obtain ⟨m, hrun, hpc, hqueue⟩ := heval
  obtain ⟨-, hmem⟩ := yields_lose_no_task (by decide +kernel) (by decide +kernel)
    (by decide +kernel) hrun hpc
  exact ⟨m, hrun, hpc, hqueue, fun q hq => ((hmem q).mp hq).1⟩

end Image

end Titanium
