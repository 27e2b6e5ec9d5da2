import Titanium.Scheduler.Slices
import Titanium.Scheduler.Waker

/-!
The timer and the queue together.

`Slices` has the timer and leaves open what the queue holds; `Sys` has the queue
and no time.  Here they run side by side: an event of the processor that switches
between the scheduler and a task is an event of both, and whether `run_scheduler`
finds a task is read off the queue.

* `Timed.step`: one event.
* `Tracks`: the invariant; in both models the same has control.
* `Tracks.action`: **whatever the processor does, the scheduler can follow**.
* `preempted_after_slice`: the timer preempts the running task, after its ticks
  and not before, and that task is the last of the queue when `run_scheduler` is
  reached.
-/

namespace Titanium

/-- The processor with its timer, and the scheduler with its queue. -/
structure Timed where
  machine : Slices.Machine
  sys : Sys

namespace Timed

/-- What the processor can do. -/
inductive Action where
  | tick
  /-- The timer's interrupt, which leaves the stack pointer of a task at `sp`. -/
  | irq (sp : ℕ)
  | cpu
  | work (interrupts : Bool)
  | release (sp : ℕ) (kind : ResumeKind)
  | pop
  deriving DecidableEq, Repr

/-- The event of the timer's model. -/
def Action.slices (s : Sys) : Action → Slices.Event
  | .tick => .tick
  | .irq _ => .irq
  | .cpu => .cpu
  | .work interrupts => .work interrupts
  | .release _ _ => .release
  | .pop => .pop (!s.sched.taskQueue.isEmpty)

/-- What an instruction is for the scheduler: the last one on the way from a task is the requeue,
or the start, and the store to `CURRENT_TASK_PTR` on the way to a task resumes it. -/
def instrSwitches (t : Timed) : List Sys.Event :=
  match t.machine.handler, t.machine.point with
  | none, .leave [_] => [if t.sys.sched.mode = .boot then .start else .requeue]
  | none, .enter (.current _ :: _) => [.resume]
  | _, _ => []

/-- The events of the scheduler's model. -/
def switches (t : Timed) : Action → List Sys.Event
  | .tick => []
  | .irq sp => [.timer sp]
  | .cpu => t.instrSwitches
  | .work _ => []
  | .release sp kind => [.release sp kind]
  | .pop => [.pop]

/-- An event that is part of a switch. -/
def isSwitch : Sys.Event → Bool
  | .start | .pop | .resume | .release _ _ | .timer _ | .requeue => true
  | _ => false

/-- What can happen. -/
inductive Event where
  | action (a : Action)
  /-- A task is spawned or woken, or a waker is made or dropped. -/
  | queue (e : Sys.Event)
  deriving DecidableEq, Repr

/-- One event, `none` when it cannot happen; `n` is the count for a slice. -/
def step (n : ℕ) (t : Timed) : Event → Option Timed
  | .action a => do
      let m ← t.machine.step n (a.slices t.sys)
      let s ← t.sys.run (t.switches a)
      some ⟨m, s⟩
  | .queue e => if isSwitch e then none else (t.sys.step e).map fun s => { t with sys := s }

/-- A run. -/
def run (n : ℕ) (t : Timed) (es : List Event) : Option Timed := es.foldlM (step n) t

/-! ### The invariant -/

/-- A task runs. -/
def Runs (s : Sys) : Prop := ∃ ptr, s.sched.mode = .task ptr ∧ s.sched.currentTaskPtr = ptr

/-- Where the scheduler is when the processor is at a point. -/
def Place (s : Sys) (isTask : Bool) : Slices.Point → Prop
  | .task => Runs s
  | .leave _ => s.sched.mode = .boot ∨ ∃ sp kind, s.sched.mode = .released sp kind
  | .body => s.sched.mode = .scheduler ∧ s.popped = none
  | .enter _ => if isTask then Runs s else s.sched.mode = .scheduler ∧ ∃ ptr, s.popped = some ptr
  | .idle => s.sched.mode = .halted

/-- **The invariant**: both models agree on who has control. -/
structure Tracks (n : ℕ) (t : Timed) : Prop where
  inv : Slices.Inv n t.machine
  pointers : t.sys.Pointers
  place : Place t.sys t.machine.isTask t.machine.point

variable {n : ℕ} {m m' : Slices.Machine} {s s' : Sys} {t t' : Timed}

lemma Tracks.at_point (h : Tracks n t) {p : Slices.Point} (hp : t.machine.point = p) :
    Slices.InvAt n t.machine p ∧ Place t.sys t.machine.isTask p :=
  hp ▸ ⟨h.inv, h.place⟩

/-- The scheduler follows the processor to `m'`. -/
def Follows (n : ℕ) (t : Timed) (a : Action) (m' : Slices.Machine) : Prop :=
  ∃ s', t.sys.run (t.switches a) = some s' ∧ Tracks n ⟨m', s'⟩

/-- It has nothing to do. -/
lemma Tracks.stay (h : Tracks n t) {a : Action} (hnil : t.switches a = [])
    (hinv : Slices.Inv n m') (hplace : Place t.sys m'.isTask m'.point) : Follows n t a m' := by
  refine ⟨t.sys, ?_, hinv, h.pointers, hplace⟩
  rw [hnil]
  rfl

/-- It makes one step. -/
lemma Tracks.move (h : Tracks n t) {a : Action} {e : Sys.Event} (hone : t.switches a = [e])
    (hstep : t.sys.step e = some s') (hinv : Slices.Inv n m')
    (hplace : Place s' m'.isTask m'.point) : Follows n t a m' := by
  refine ⟨s', ?_, hinv, (h.pointers.step hstep).1, hplace⟩
  rw [hone, Sys.run, List.foldlM_cons, hstep]
  rfl

/-- While a task runs, the timer preempts it. -/
lemma schedulerPreempt_of_runs (hP : s.Pointers) (h : Runs s) (sp : ℕ) :
    s.step (.timer sp) = some { s with sched := s.sched.jumpOut sp .preempted } := by
  obtain ⟨ptr, hmode, hcur⟩ := h
  have hid : (s.sched.info s.sched.currentTaskPtr).taskId ≠ taskIdScheduler :=
    hcur ▸ hP.taskIds ptr (hP.task ptr hmode).2
  rw [Sys.step, if_neg (by simp [hmode]), Sched.schedulerPreempt, if_neg hid]

/-- The scheduler is not preempted. -/
lemma schedulerPreempt_of_scheduler (hP : s.Pointers)
    (h : s.sched.mode = .scheduler ∨ s.sched.mode = .halted) (sp : ℕ) :
    s.step (.timer sp) = some s := by
  have hboot : s.sched.mode ≠ .boot := by
    rcases h with h | h <;> simp [h]
  have hcur : s.sched.currentTaskPtr = .schedulerTask := by
    rcases h with h | h <;> simpa [h] using hP.current
  rw [Sys.step, if_neg hboot, Sched.schedulerPreempt, if_pos (hcur ▸ hP.schedulerId)]

/-- The interrupt. -/
lemma Tracks.irq (h : Tracks n t) {sp : ℕ} (hn : n < 2 ^ 32)
    (hstep : t.machine.step n .irq = some m') : Follows n t (.irq sp) m' := by
  have hinv := h.inv.step hn hstep
  obtain ⟨hd, hstep⟩ := Option.ite_none_right_eq_some.mp hstep
  split_ifs at hstep with htask
  · cases hstep
    obtain ⟨-, hruns⟩ := h.at_point (h.inv.preempt hd htask).1
    exact h.move rfl (schedulerPreempt_of_runs h.pointers hruns sp) hinv
      (Or.inr ⟨sp, .preempted, rfl⟩)
  · cases hstep
    refine h.move rfl (schedulerPreempt_of_scheduler h.pointers ?_ sp) hinv h.place
    cases hp : t.machine.point with
    | task => exact absurd (h.at_point hp).1.2.1 htask
    | leave rest =>
        obtain ⟨⟨hne, hleaving⟩, -⟩ := h.at_point hp
        rw [hleaving.not_deliverable hne] at hd
        cases hd
    | body => exact Or.inl (h.at_point hp).2.1
    | enter rest =>
        obtain ⟨-, hplace⟩ := h.at_point hp
        rw [Bool.eq_false_iff.mpr htask] at hplace
        exact Or.inl hplace.1
    | idle => exact Or.inr (h.at_point hp).2

lemma exec_isTask {i : Slices.Instr} (h : ∀ isTask, i ≠ .current isTask) :
    (m.exec i).isTask = m.isTask := by
  cases i with
  | current isTask => exact absurd rfl (h isTask)
  | _ => rfl

/-- On the way to a task, the only store to `CURRENT_TASK_PTR` is the one of the task. -/
lemma eq_true_of_mem_enterCode {isTask : Bool} (h : .current isTask ∈ Slices.enterCode n) :
    isTask = true := by
  simpa [Slices.enterCode, Hdint.triggerWrites] using h

/-- The last instruction on the way from a task, or from `start_scheduler`. -/
lemma Tracks.arrive (h : Tracks n t) {i : Slices.Instr} (hhandler : t.machine.handler = none)
    (hp : t.machine.point = .leave [i])
    (hinv : Slices.Inv n { t.machine.exec i with point := .body }) :
    Follows n t .cpu { t.machine.exec i with point := .body } := by
  obtain ⟨-, hplace⟩ := h.at_point hp
  have hone : t.switches .cpu = [if t.sys.sched.mode = .boot then .start else .requeue] := by
    show t.instrSwitches = _
    rw [instrSwitches, hhandler, hp]
  rcases hplace with hmode | ⟨sp, kind, hmode⟩
  · have hpopped := h.pointers.popped_eq_none (by simp [hmode])
    rw [if_pos hmode] at hone
    exact h.move hone (if_pos hmode) hinv ⟨rfl, hpopped⟩
  · have hpopped := h.pointers.popped_eq_none (by simp [hmode])
    rw [if_neg (by simp [hmode])] at hone
    have hstep : t.sys.step .requeue =
        some { t.sys with sched := t.sys.sched.resumeScheduler sp kind } := by
      simp only [Sys.step, hmode]
    exact h.move hone hstep hinv ⟨rfl, hpopped⟩

/-- An instruction on the way to a task, which leads to the point `p`. -/
lemma Tracks.enter (h : Tracks n t) {i : Slices.Instr} {rest : List Slices.Instr} {p : Slices.Point}
    (hhandler : t.machine.handler = none) (hp : t.machine.point = .enter (i :: rest))
    (hnext : rest = [] ∧ p = .task ∨ rest ≠ [] ∧ p = .enter rest)
    (hinv : Slices.Inv n { t.machine.exec i with point := p }) :
    Follows n t .cpu { t.machine.exec i with point := p } := by
  obtain ⟨hent, hplace⟩ := h.at_point hp
  by_cases hstore : ∃ isTask, i = .current isTask
  · obtain ⟨isTask, rfl⟩ := hstore
    obtain rfl := eq_true_of_mem_enterCode (hent.code.subset (List.mem_cons_self ..))
    have hrest : rest ≠ [] := by
      rintro rfl
      have hcode := hent.code
      simp [Slices.enterCode, Hdint.triggerWrites, List.suffix_cons_iff] at hcode
    have hnot : t.machine.isTask = false := by
      rw [hent.isTask, List.length_cons]
      simpa using hrest
    rw [Place, hnot] at hplace
    obtain ⟨-, ptr, hpopped⟩ := hplace
    have hone : t.switches .cpu = [.resume] := by
      show t.instrSwitches = _
      rw [instrSwitches, hhandler, hp]
    rcases hnext with ⟨hnil, -⟩ | ⟨-, rfl⟩
    · exact absurd hnil hrest
    · exact h.move hone (congrArg (Option.map _) hpopped) hinv ⟨ptr, rfl, rfl⟩
  · have hsame : (t.machine.exec i).isTask = t.machine.isTask :=
      exec_isTask fun isTask heq => hstore ⟨isTask, heq⟩
    have hnil : t.switches .cpu = [] := by
      show t.instrSwitches = _
      rw [instrSwitches, hhandler, hp]
      cases i with
      | current isTask => exact absurd ⟨isTask, rfl⟩ hstore
      | _ => rfl
    refine h.stay hnil hinv ?_
    rcases hnext with ⟨rfl, rfl⟩ | ⟨-, rfl⟩
    · rw [Place, hent.isTask] at hplace
      exact hplace
    · show Place t.sys (t.machine.exec i).isTask (.enter rest)
      rw [hsame]
      exact hplace

/-- **Whatever the processor does, the scheduler can follow.** -/
lemma Tracks.action (h : Tracks n t) (hn : n < 2 ^ 32) {a : Action}
    (hstep : t.machine.step n (a.slices t.sys) = some m') : Follows n t a m' := by
  have hinv := h.inv.step hn hstep
  cases a with
  | tick =>
      cases hstep
      exact h.stay rfl hinv h.place
  | irq sp => exact h.irq hn hstep
  | cpu =>
      obtain ⟨-, hstep⟩ := Option.ite_none_left_eq_some.mp hstep
      split at hstep
      case h_1 i rest flag hhandler =>
        cases hstep
        have hne : t.machine.handler ≠ none := by
          rw [hhandler]
          exact Option.some_ne_none _
        obtain ⟨-, hi⟩ := (h.inv.absorbing hne).handled hhandler
        refine h.stay ?_ hinv ?_
        · show t.instrSwitches = _
          rw [instrSwitches, hhandler]
        · have hsame := Slices.same_handled (m := t.machine) hi rest flag
          show Place t.sys (Slices.handled t.machine i rest flag).isTask
            (Slices.handled t.machine i rest flag).point
          rw [hsame.isTask, hsame.point]
          exact h.place
      case h_2 flag hhandler =>
        cases hstep
        refine h.stay ?_ hinv h.place
        show t.instrSwitches = _
        rw [instrSwitches, hhandler]
      case h_3 i hhandler hp =>
        cases hstep
        exact h.arrive hhandler hp hinv
      case h_4 i rest hne hhandler hp =>
        cases hstep
        refine h.stay ?_ hinv (h.at_point hp).2
        show t.instrSwitches = _
        rw [instrSwitches, hhandler, hp]
        cases rest with
        | nil => exact absurd rfl hne
        | cons i' rest => rfl
      case h_5 i hhandler hp =>
        cases hstep
        exact h.enter hhandler hp (Or.inl ⟨rfl, rfl⟩) hinv
      case h_6 i rest hne hhandler hp =>
        cases hstep
        exact h.enter hhandler hp (Or.inr ⟨hne, rfl⟩) hinv
      case h_7 => cases hstep
  | work interrupts =>
      obtain ⟨-, hstep⟩ := Option.ite_none_right_eq_some.mp hstep
      cases hstep
      exact h.stay rfl hinv h.place
  | release sp kind =>
      obtain ⟨⟨-, -, hp⟩, hstep⟩ := Option.ite_none_right_eq_some.mp hstep
      cases hstep
      obtain ⟨-, ptr, hmode, -⟩ := h.at_point hp
      have hrelease : t.sys.step (.release sp kind) =
          some { t.sys with sched := t.sys.sched.releaseTask sp kind } := by
        simp only [Sys.step, hmode]
      exact h.move rfl hrelease hinv (Or.inr ⟨sp, kind, rfl⟩)
  | pop =>
      obtain ⟨⟨-, -, -, -, hp⟩, hstep⟩ := Option.ite_none_right_eq_some.mp hstep
      cases hstep
      obtain ⟨hhalted, hplace⟩ := h.at_point hp
      refine h.move (e := .pop) rfl (if_pos hplace) hinv ?_
      show Place _ t.machine.isTask (if _ then _ else _)
      cases hq : t.sys.sched.taskQueue with
      | nil => simp [Place, Sched.popTask, hq]
      | cons ptr rest => simp [Place, Sched.popTask, hq, hhalted.isTask, hplace.1]

/-- What is no switch leaves who has control as it is. -/
lemma keeps_of_not_isSwitch {e : Sys.Event} (he : isSwitch e = false)
    (h : s.step e = some s') : s'.sched.mode = s.sched.mode ∧ s'.popped = s.popped ∧
      s'.sched.currentTaskPtr = s.sched.currentTaskPtr := by
  cases e with
  | spawn options priority finalSp =>
      obtain ⟨u, hu, rfl⟩ : ∃ u, s.sched.spawnTask options priority finalSp = some u ∧
          { s with sched := u } = s' := by
        simp only [Sys.step] at h
        split at h
        · exact Option.map_eq_some_iff.mp h
        · exact Option.map_eq_some_iff.mp h
        · cases h
      obtain ⟨-, heq⟩ := Option.ite_none_right_eq_some.mp hu
      cases heq
      exact ⟨rfl, rfl, rfl⟩
  | start => cases he
  | pop => cases he
  | resume => cases he
  | release sp kind => cases he
  | timer sp => cases he
  | requeue => cases he
  | waker rawId =>
      obtain ⟨-, heq⟩ := Option.ite_none_right_eq_some.mp h
      cases heq
      exact ⟨rfl, rfl, rfl⟩
  | clone w =>
      obtain ⟨-, heq⟩ := Option.ite_none_right_eq_some.mp h
      cases heq
      exact ⟨rfl, rfl, rfl⟩
  | wake w =>
      obtain ⟨-, heq⟩ := Option.ite_none_right_eq_some.mp h
      cases heq
      exact ⟨rfl, rfl, rfl⟩
  | wakeByRef w =>
      obtain ⟨-, heq⟩ := Option.ite_none_right_eq_some.mp h
      cases heq
      exact ⟨rfl, rfl, rfl⟩
  | drop w =>
      obtain ⟨-, heq⟩ := Option.ite_none_right_eq_some.mp h
      cases heq
      exact ⟨rfl, rfl, rfl⟩

lemma Place.congr {isTask : Bool} {p : Slices.Point} (h : Place s isTask p)
    (hmode : s'.sched.mode = s.sched.mode) (hpopped : s'.popped = s.popped)
    (hcur : s'.sched.currentTaskPtr = s.sched.currentTaskPtr) : Place s' isTask p := by
  have hruns : Runs s' ↔ Runs s := by rw [Runs, Runs, hmode, hcur]
  cases p <;> simpa only [Place, hruns, hmode, hpopped] using h

lemma step_action_eq_some {a : Action} (h : t.step n (.action a) = some t') :
    t.machine.step n (a.slices t.sys) = some t'.machine ∧
      t.sys.run (t.switches a) = some t'.sys := by
  obtain ⟨m, hm, h⟩ := Option.bind_eq_some_iff.mp h
  obtain ⟨s, hs, h⟩ := Option.bind_eq_some_iff.mp h
  cases h
  exact ⟨hm, hs⟩

/-- **Every event keeps the invariant.** -/
lemma Tracks.step (h : Tracks n t) (hn : n < 2 ^ 32) {e : Event} (hstep : t.step n e = some t') :
    Tracks n t' := by
  cases e with
  | action a =>
      obtain ⟨hm, hs⟩ := step_action_eq_some hstep
      obtain ⟨s', hs', htracks⟩ := h.action hn hm
      obtain rfl : t'.sys = s' := Option.some.inj (hs.symm.trans hs')
      exact htracks
  | queue e =>
      obtain ⟨he, hstep⟩ := Option.ite_none_left_eq_some.mp hstep
      obtain ⟨s', hs, rfl⟩ := Option.map_eq_some_iff.mp hstep
      obtain ⟨hmode, hpopped, hcur⟩ := keeps_of_not_isSwitch (Bool.eq_false_iff.mpr he) hs
      exact ⟨h.inv, (h.pointers.step hs).1, h.place.congr hmode hpopped hcur⟩

lemma Tracks.run (h : Tracks n t) (hn : n < 2 ^ 32) {es : List Event}
    (hrun : t.run n es = some t') : Tracks n t' := by
  induction es generalizing t with
  | nil =>
      cases hrun
      exact h
  | cons e es ih =>
      obtain ⟨t₁, h₁, hrun⟩ := Option.bind_eq_some_iff.mp hrun
      exact ih (h.step hn h₁) hrun

lemma tracks_start {l : Hdint.Lapic} (hisr : l.isr = false) (hP : s.Pointers)
    (hmode : s.sched.mode = .boot) : Tracks n ⟨.start l, s⟩ :=
  ⟨Slices.inv_start hisr, hP, Or.inl hmode⟩

/-! ### Preemption -/

/-- A task has control in the one model when it has in the other. -/
lemma Tracks.isTask (h : Tracks n t) {ptr : TaskPtr} (hmode : t.sys.sched.mode = .task ptr) :
    t.machine.isTask = true := by
  cases hp : t.machine.point with
  | task => exact (h.at_point hp).1.2.1
  | leave rest =>
      rcases (h.at_point hp).2 with hboot | ⟨sp, kind, hrel⟩
      · simp [hmode] at hboot
      · simp [hmode] at hrel
  | enter rest =>
      obtain ⟨-, hplace⟩ := h.at_point hp
      by_contra hfalse
      rw [Bool.eq_false_iff.mpr hfalse] at hplace
      simp [Place, hmode] at hplace
  | body =>
      obtain ⟨-, hplace⟩ := h.at_point hp
      simp [Place, hmode] at hplace
  | idle =>
      obtain ⟨-, hplace⟩ := h.at_point hp
      simp [Place, hmode] at hplace

/-- On the way from a task to `run_scheduler`, or just arrived there. -/
def Arriving (s : Sys) (sp : ℕ) (kind : ResumeKind) (t : Timed) : Prop :=
  (∃ rest, t.machine.point = .leave rest) ∧ t.sys = s ∨
    t.machine.point = .body ∧ t.machine.handler = none ∧
      t.sys = { s with sched := s.sched.resumeScheduler sp kind }

lemma exec_handler (m : Slices.Machine) (i : Slices.Instr) : (m.exec i).handler = m.handler := by
  cases i <;> rfl

/-- A tick or an instruction on the way. -/
lemma Arriving.step {sp : ℕ} {kind : ResumeKind} (h : Arriving s sp kind t) (hT : Tracks n t)
    (hmode : s.sched.mode = .released sp kind) {e : Event}
    (he : e = .action .tick ∨ e = .action .cpu) (hstep : t.step n e = some t') :
    Arriving s sp kind t' := by
  obtain ⟨m', s'⟩ := t'
  rcases he with rfl | rfl
  · obtain ⟨hm, hs⟩ := step_action_eq_some hstep
    cases hm
    cases hs
    exact h
  · obtain ⟨hm, hs⟩ := step_action_eq_some hstep
    obtain ⟨-, hm⟩ := Option.ite_none_left_eq_some.mp hm
    rcases h with ⟨⟨rest, hp⟩, rfl⟩ | ⟨hp, hhandler, -⟩
    · obtain ⟨⟨hne, hleaving⟩, -⟩ := hT.at_point hp
      have hhandler := hleaving.handler_eq_none hne
      have hswitches : t.switches .cpu = t.instrSwitches := rfl
      rw [hswitches, instrSwitches, hhandler, hp] at hs
      rw [hhandler, hp] at hm
      cases rest with
      | nil => exact absurd rfl hne
      | cons i rest =>
          cases rest with
          | nil =>
              cases hm
              have hstep : t.sys.step .requeue =
                  some { t.sys with sched := t.sys.sched.resumeScheduler sp kind } := by
                simp only [Sys.step, hmode]
              have hs' : t.sys.run [if t.sys.sched.mode = .boot then .start else .requeue] =
                  some s' := hs
              rw [if_neg (by simp [hmode]), Sys.run, List.foldlM_cons, hstep] at hs'
              cases hs'
              exact Or.inr ⟨rfl, (exec_handler _ _).trans hhandler, rfl⟩
          | cons i' rest =>
              cases hm
              cases hs
              exact Or.inl ⟨⟨_, rfl⟩, rfl⟩
    · rw [hhandler, hp] at hm
      cases hm

lemma Arriving.run {sp : ℕ} {kind : ResumeKind} (h : Arriving s sp kind t) (hT : Tracks n t)
    (hn : n < 2 ^ 32) (hmode : s.sched.mode = .released sp kind) {es : List Event}
    (hes : ∀ e ∈ es, e = .action .tick ∨ e = .action .cpu) (hrun : t.run n es = some t') :
    Arriving s sp kind t' := by
  induction es generalizing t with
  | nil =>
      cases hrun
      exact h
  | cons e es ih =>
      obtain ⟨he, hes⟩ := List.forall_mem_cons.mp hes
      obtain ⟨t₁, h₁, hrun⟩ := Option.bind_eq_some_iff.mp hrun
      exact ih (h.step hT hmode he h₁) (hT.step hn h₁) hes hrun

/-- **The running task is preempted, after its slice, to the back of the queue.**  The count `n` is
that of a slice of `us` microseconds.  Whatever happens in whatever order since the start of the
scheduler: the scheduler can follow whatever the processor does; and when the timer interrupts the
running task, the ticks of its slice are over, and it is behind all the tasks of the queue when
the processor has come to `run_scheduler`. -/
theorem preempted_after_slice (timer : Hdint.LocalTimer) (us : BitVec 32)
    (hn : timer.ticks us = some n) {l : Hdint.Lapic} (hisr : l.isr = false) {sp₀ : ℕ}
    {ds : List Sys.Event} (hboot : (Sys.boot sp₀).run ds = some s)
    (hmode : s.sched.mode = .boot) {es : List Event}
    (hrun : (⟨.start l, s⟩ : Timed).run n es = some t) :
    (∀ a m', t.machine.step n (a.slices t.sys) = some m' →
      ∃ s', t.step n (.action a) = some ⟨m', s'⟩) ∧
    (∀ ptr sp t₁, t.sys.sched.mode = .task ptr → t.step n (.action (.irq sp)) = some t₁ →
      (t.machine.late < n ∧ n ≤ t.machine.elapsed) ∧
      ∀ es' t₂, (∀ e ∈ es', e = .action .tick ∨ e = .action .cpu) → t₁.run n es' = some t₂ →
        t₂.machine.point = .body → t₂.sys.sched.taskQueue = t.sys.sched.taskQueue ++ [ptr]) := by
  have hlt := Slices.ticks_lt hn
  have hT := (tracks_start hisr ((Sys.pointers_boot sp₀).run hboot) hmode).run hlt hrun
  refine ⟨fun a m' hstep => ?_, fun ptr sp t₁ htask hirq => ?_⟩
  · obtain ⟨s', hs', -⟩ := hT.action hlt hstep
    exact ⟨s', by rw [step, hstep, Option.bind_eq_bind, Option.bind_some, hs']; rfl⟩
  · have hT₁ := hT.step hlt hirq
    obtain ⟨m₁, s₁⟩ := t₁
    obtain ⟨hm, hs⟩ := step_action_eq_some hirq
    obtain ⟨hd, hm⟩ := Option.ite_none_right_eq_some.mp hm
    have hisTask := hT.isTask htask
    obtain ⟨⟨hslice, -⟩, hruns⟩ := hT.at_point (hT.inv.preempt hd hisTask).1
    rw [if_pos hisTask] at hm
    cases hm
    have hs' : t.sys.run [.timer sp] = some s₁ := hs
    rw [Sys.run, List.foldlM_cons, schedulerPreempt_of_runs hT.pointers hruns] at hs'
    cases hs'
    refine ⟨hslice.irr.mp (Slices.deliverable_iff.mp hd).2.1, fun es' t₂ hes hrun' hbody => ?_⟩
    have harr : Arriving { t.sys with sched := t.sys.sched.jumpOut sp .preempted } sp .preempted
        ⟨t.machine.preempt, { t.sys with sched := t.sys.sched.jumpOut sp .preempted }⟩ :=
      Or.inl ⟨⟨_, rfl⟩, rfl⟩
    rcases harr.run hT₁ hlt rfl hes hrun' with ⟨⟨rest, hleave⟩, -⟩ | ⟨-, -, hsys⟩
    · rw [hbody] at hleave
      cases hleave
    · have hqueue : ((t.sys.sched.jumpOut sp .preempted).resumeScheduler sp .preempted).taskQueue =
          t.sys.sched.taskQueue ++ [t.sys.sched.staleTaskPtr] := by
        simp [Sched.resumeScheduler, Sched.jumpOut]
      rw [hsys]
      exact hqueue.trans (by rw [(hT.pointers.task ptr htask).1])

/-- Two tasks are spawned. -/
def twoSpawns : List Sys.Event := [.spawn kernelTask 0 0x1f58, .spawn kernelTask 0 0x3f58]

/-- The scheduler starts, and the first task runs for the three ticks of its slice. -/
def threeTicks : List Event :=
  List.replicate 4 (.action .cpu) ++ [.action (.work true), .action .pop] ++
    List.replicate 6 (.action .cpu) ++ .action (.work true) :: List.replicate 3 (.action .tick)

theorem preempted_after_slice_threeTicks :
    ∃ s t t₁ t₂, (Sys.boot 0).run twoSpawns = some s ∧
      (⟨.start Hdint.resetLapic, s⟩ : Timed).run 3 threeTicks = some t ∧
      t.step 3 (.action (.irq 0x1f00)) = some t₁ ∧
      t₁.run 3 (List.replicate 6 (.action .cpu)) = some t₂ ∧
      t₂.sys.sched.taskQueue = [.task 0x101, .task 0x100] := by
  have heval : ((Sys.boot 0).run twoSpawns).any (fun s => s.sched.mode = .boot ∧
      (Timed.run 3 ⟨.start Hdint.resetLapic, s⟩ threeTicks).any (fun t =>
        (t.sys.sched.mode = .task (.task 0x100) ∧ t.sys.sched.taskQueue = [.task 0x101]) ∧
        (t.step 3 (.action (.irq 0x1f00))).any (fun t₁ =>
          (t₁.run 3 (List.replicate 6 (.action .cpu))).any (fun t₂ =>
            t₂.machine.point = .body)))) = true := by
    decide +kernel
  simp only [Option.any_eq_true, decide_eq_true_eq] at heval
  obtain ⟨s, hs, hmode, t, ht, ⟨htask, hqueue⟩, t₁, ht₁, t₂, ht₂, hbody⟩ := heval
  obtain ⟨-, hback⟩ := preempted_after_slice (Hdint.setUp 1000) 3 (by decide)
    (l := Hdint.resetLapic) rfl hs hmode ht
  refine ⟨s, t, t₁, t₂, hs, ht, ht₁, ht₂, ?_⟩
  rw [(hback _ _ t₁ htask ht₁).2 _ t₂ (by simp) ht₂ hbody, hqueue]
  rfl

end Timed

end Titanium
