import Titanium.Scheduler.Waker

/-!
The idle loop of `run_scheduler`.

`run_scheduler` looks at the queue once, and halts in a loop when it is empty.
Nothing leads out of the loop: an interrupt ends one `hlt`, and the loop executes
the next one without looking at the queue again.

* `Cpu.step`: the scheduler with its wakers, and the `hlt` instruction.
* `Cpu.stranded`: the tasks that are woken while the scheduler idles.
* `taskQueue_halted`: in the loop the queue holds exactly these tasks.
* `idles_over_nothing_iff`: no `hlt` is executed over a runnable task exactly when
  no task was woken in the loop before it.
-/

namespace Titanium

/-- The system, and whether the processor is stopped in `hlt`. -/
structure Cpu where
  sys : Sys
  stopped : Bool

namespace Cpu

/-- What can happen: a step of the system, which in the idle loop is an interrupt
that is served, or the `hlt` of the idle loop. -/
inductive Event where
  | sys (e : Sys.Event)
  | hlt
  deriving DecidableEq, Repr

/-- One step, `none` when the event cannot happen. -/
def step (c : Cpu) : Event → Option Cpu
  | .sys e => (c.sys.step e).map (⟨·, false⟩)
  | .hlt =>
      if c.sys.sched.mode = .halted ∧ c.stopped = false then some { c with stopped := true }
      else none

/-- A run. -/
def run (c : Cpu) (es : List Event) : Option Cpu := es.foldlM step c

/-- The state in which `scheduler::init` leaves the processor. -/
def boot (sp : ℕ) : Cpu := ⟨Sys.boot sp, false⟩

/-- The task that an event wakes. -/
def Event.woken : Event → Option TaskPtr
  | .sys e => e.woken
  | .hlt => none

/-- The tasks that the run wakes while the scheduler is in its idle loop. -/
def stranded (c : Cpu) : List Event → List TaskPtr
  | [] => []
  | e :: es =>
      (if c.sys.sched.mode = .halted then e.woken.toList else []) ++
        match c.step e with
        | some c' => c'.stranded es
        | none => []

end Cpu

namespace Sys

variable {s s' : Sys} {e : Event}

/-- Nothing leads out of the idle loop, and only a wake touches the queue there. -/
lemma step_of_halted (hP : Pointers s) (hmode : s.sched.mode = .halted)
    (h : s.step e = some s') :
    s'.sched.mode = .halted ∧ s'.sched.taskQueue = s.sched.taskQueue ++ e.woken.toList := by
  cases e with
  | spawn options priority finalSp => simp [step, hmode] at h
  | start => simp [step, hmode] at h
  | pop => simp [step, hmode] at h
  | resume => simp [step, hP.popped_eq_none (by simp [hmode])] at h
  | release sp kind => simp [step, hmode] at h
  | requeue => simp [step, hmode] at h
  | timer sp =>
      -- the handler sees the scheduler's own task and returns
      have hcur : s.sched.currentTaskPtr = .schedulerTask := by simpa [hmode] using hP.current
      have hsame : s.sched.schedulerPreempt sp = s.sched := if_pos (hcur ▸ hP.schedulerId)
      obtain ⟨-, heq⟩ := Option.ite_none_left_eq_some.mp h
      cases heq
      rw [hsame]
      exact ⟨hmode, (List.append_nil _).symm⟩
  | waker rawId =>
      obtain ⟨-, heq⟩ := Option.ite_none_right_eq_some.mp h
      cases heq
      exact ⟨hmode, (List.append_nil _).symm⟩
  | clone w =>
      obtain ⟨-, heq⟩ := Option.ite_none_right_eq_some.mp h
      cases heq
      exact ⟨hmode, (List.append_nil _).symm⟩
  | drop w =>
      obtain ⟨-, heq⟩ := Option.ite_none_right_eq_some.mp h
      cases heq
      exact ⟨hmode, (List.append_nil _).symm⟩
  | wake w =>
      obtain ⟨-, heq⟩ := Option.ite_none_right_eq_some.mp h
      cases heq
      exact ⟨hmode, rfl⟩
  | wakeByRef w =>
      obtain ⟨-, heq⟩ := Option.ite_none_right_eq_some.mp h
      cases heq
      exact ⟨hmode, rfl⟩

/-- The scheduler enters the idle loop with an empty queue. -/
lemma taskQueue_of_halts (hmode : s.sched.mode ≠ .halted) (h : s.step e = some s')
    (hmode' : s'.sched.mode = .halted) : s'.sched.taskQueue = [] := by
  cases e with
  | pop =>
      obtain ⟨⟨hsched, -⟩, heq⟩ := Option.ite_none_right_eq_some.mp h
      cases heq
      cases hq : s.sched.taskQueue with
      | nil => simp [Sched.popTask, hq]
      | cons ptr rest => simp [Sched.popTask, hq, hsched] at hmode'
  | resume =>
      obtain ⟨ptr, -, heq⟩ := Option.map_eq_some_iff.mp h
      cases heq
      cases hmode'
  | spawn options priority finalSp =>
      obtain ⟨t, ht, heq⟩ : ∃ t, s.sched.spawnTask options priority finalSp = some t ∧
          { s with sched := t } = s' := by
        simp only [step] at h
        split at h
        · exact Option.map_eq_some_iff.mp h
        · exact Option.map_eq_some_iff.mp h
        · cases h
      obtain ⟨-, ht⟩ := Option.ite_none_right_eq_some.mp ht
      cases ht
      cases heq
      exact absurd hmode' hmode
  | release sp kind =>
      simp only [step] at h
      split at h <;> cases h
      cases hmode'
  | requeue =>
      simp only [step] at h
      split at h <;> cases h
      cases hmode'
  | start =>
      obtain ⟨-, heq⟩ := Option.ite_none_right_eq_some.mp h
      cases heq
      cases hmode'
  | timer sp =>
      obtain ⟨-, heq⟩ := Option.ite_none_left_eq_some.mp h
      cases heq
      simp only [Sched.schedulerPreempt] at hmode'
      split at hmode'
      · exact absurd hmode' hmode
      · cases hmode'
  | waker rawId =>
      obtain ⟨-, heq⟩ := Option.ite_none_right_eq_some.mp h
      cases heq
      exact absurd hmode' hmode
  | clone w =>
      obtain ⟨-, heq⟩ := Option.ite_none_right_eq_some.mp h
      cases heq
      exact absurd hmode' hmode
  | drop w =>
      obtain ⟨-, heq⟩ := Option.ite_none_right_eq_some.mp h
      cases heq
      exact absurd hmode' hmode
  | wake w =>
      obtain ⟨-, heq⟩ := Option.ite_none_right_eq_some.mp h
      cases heq
      exact absurd hmode' hmode
  | wakeByRef w =>
      obtain ⟨-, heq⟩ := Option.ite_none_right_eq_some.mp h
      cases heq
      exact absurd hmode' hmode

end Sys

namespace Cpu

variable {c c' : Cpu} {e : Event} {es : List Event}

/-- What holds along a run, `woken` being the tasks that it has woken in the idle loop
so far. -/
structure Idling (woken : List TaskPtr) (c : Cpu) : Prop where
  pointers : c.sys.Pointers
  halted : c.sys.sched.mode = .halted → c.sys.sched.taskQueue = woken
  running : c.sys.sched.mode ≠ .halted → woken = []

lemma idling_boot (sp : ℕ) : Idling [] (boot sp) :=
  ⟨Sys.pointers_boot sp, fun _ => rfl, fun _ => rfl⟩

/-- **The step lemma.** -/
lemma Idling.step {woken : List TaskPtr} (hI : Idling woken c) (h : c.step e = some c') :
    Idling (woken ++ if c.sys.sched.mode = .halted then e.woken.toList else []) c' := by
  cases e with
  | hlt =>
      obtain ⟨-, heq⟩ := Option.ite_none_right_eq_some.mp h
      cases heq
      rw [Event.woken, Option.toList_none, ite_self, List.append_nil]
      exact ⟨hI.pointers, hI.halted, hI.running⟩
  | sys e =>
      obtain ⟨s', hs', heq⟩ := Option.map_eq_some_iff.mp h
      cases heq
      have hP' := (hI.pointers.step hs').1
      by_cases hmode : c.sys.sched.mode = .halted
      · obtain ⟨hmode', hqueue⟩ := Sys.step_of_halted hI.pointers hmode hs'
        rw [if_pos hmode]
        refine ⟨hP', fun _ => ?_, fun hne => absurd hmode' hne⟩
        rw [← hI.halted hmode]
        exact hqueue
      · rw [if_neg hmode, List.append_nil]
        have hnone := hI.running hmode
        refine ⟨hP', fun hmode' => ?_, fun _ => hnone⟩
        rw [hnone]
        exact Sys.taskQueue_of_halts hmode hs' hmode'

/-- **The run lemma.** -/
lemma Idling.run {woken : List TaskPtr} (hI : Idling woken c) (h : c.run es = some c') :
    Idling (woken ++ c.stranded es) c' := by
  induction es generalizing c woken with
  | nil =>
      cases h
      rwa [stranded, List.append_nil]
  | cons e es ih =>
      obtain ⟨c₁, h₁, h⟩ := Option.bind_eq_some_iff.mp h
      have hrest := ih (hI.step h₁) h
      rw [List.append_assoc] at hrest
      rwa [stranded, h₁]

/-- In the idle loop the queue holds exactly the tasks that were woken there. -/
lemma taskQueue_halted {sp : ℕ} (h : (boot sp).run es = some c)
    (hmode : c.sys.sched.mode = .halted) :
    c.sys.sched.taskQueue = (boot sp).stranded es :=
  ((idling_boot sp).run h).halted hmode

/-- The state in which a run executes its `hlt` number `k`. -/
lemma exists_run_take {sp k : ℕ} (hrun : (boot sp).run es = some c) (hk : es[k]? = some .hlt) :
    ∃ c₁, (boot sp).run (es.take k) = some c₁ ∧
      c₁.sys.sched.taskQueue = (boot sp).stranded (es.take k) := by
  obtain ⟨hlt, hget⟩ := List.getElem?_eq_some_iff.mp hk
  rw [← List.take_append_drop k es, List.drop_eq_getElem_cons hlt, hget, run,
    List.foldlM_append] at hrun
  obtain ⟨c₁, h₁, hrest⟩ := Option.bind_eq_some_iff.mp hrun
  obtain ⟨c₂, hhlt, -⟩ := Option.bind_eq_some_iff.mp hrest
  exact ⟨c₁, h₁, taskQueue_halted h₁ (Option.ite_none_right_eq_some.mp hhlt).1.1⟩

/-- **When the scheduler idles over nothing.**  In every run, every `hlt` of the idle loop
finds the queue empty exactly when before none of them a task was woken in the loop. -/
theorem idles_over_nothing_iff (sp : ℕ) (es : List Event) (c : Cpu)
    (hrun : (boot sp).run es = some c) :
    (∀ k c₁, es[k]? = some .hlt → (boot sp).run (es.take k) = some c₁ →
        c₁.sys.sched.taskQueue = []) ↔
      ∀ k, es[k]? = some .hlt → (boot sp).stranded (es.take k) = [] := by
  constructor
  · intro hempty k hk
    obtain ⟨c₁, h₁, hqueue⟩ := exists_run_take hrun hk
    rw [← hqueue]
    exact hempty k c₁ hk h₁
  · intro hquiet k c₁ hk h₁
    obtain ⟨c₂, h₂, hqueue⟩ := exists_run_take hrun hk
    rw [h₁, Option.some.injEq] at h₂
    rw [h₂, hqueue]
    exact hquiet k hk

/-- The only task blocks, and the scheduler halts. -/
def blockAndHalt : List Event :=
  [.sys (.spawn kernelTask 0 0x1f58), .sys (.waker 0x100), .sys .start, .sys .pop, .sys .resume,
    .sys (.release 0x1e00 .blocked), .sys .requeue, .sys .pop, .hlt]

/-- An interrupt that wakes nobody, and the loop halts again. -/
def haltAgain : List Event := blockAndHalt ++ [.sys (.timer 0), .hlt]

theorem idles_over_nothing_haltAgain :
    ∃ c, (boot 0).run haltAgain = some c ∧
      ∀ k c₁, haltAgain[k]? = some .hlt → (boot 0).run (haltAgain.take k) = some c₁ →
        c₁.sys.sched.taskQueue = [] := by
  have hquiet : ∀ k < 11, haltAgain[k]? = some .hlt →
      (boot 0).stranded (haltAgain.take k) = [] := by decide
  exact ⟨_, rfl, (idles_over_nothing_iff 0 haltAgain _ rfl).mpr fun k hk =>
    hquiet k (List.getElem?_eq_some_iff.mp hk).1 hk⟩

/-- **A wake is stranded**: an interrupt wakes the blocked task, and the loop halts again
although the task is in the queue. -/
theorem idles_over_woken_task :
    ∃ c c', (boot 0).run (blockAndHalt ++ [.sys (.wakeByRef ⟨.task 0x100⟩)]) = some c ∧
      c.sys.sched.taskQueue = [.task 0x100] ∧ c.step .hlt = some c' ∧
      c'.sys.sched.taskQueue = [.task 0x100] :=
  ⟨_, _, rfl, rfl, rfl, rfl⟩

end Cpu

end Titanium
