import Mathlib.Tactic
import Mathlib.Data.Real.Basic

/-!
Loops of the form `while more { hlt }` with interrupts.

The test and the `hlt` are two steps, and an interrupt may be handled before each
of them.  A halted processor goes on behind its next interrupt.

* `run_hlt_cases`: **the processor is about to halt in vain only if an interrupt
  was handled between the test and the `hlt`**.
* `TimedRun`: runs with interrupts at the times `φ, φ + T, φ + 2 T, ..`, and at
  least one step of the processor between two of them.
* `Counts`: the loop waits for `n` interrupts.  `TimedRun.bounds`: it returns after
  interrupt `n`, or after the one that follows it.
* `Counts.lasts_iff`: **how long all its runs last**.
-/

namespace Titanium

namespace PollLoop

/-- Where the processor is. -/
inductive Pc where
  /-- Before the test. -/
  | test
  /-- Between the test and the `hlt`. -/
  | hlt
  | halted
  /-- Behind the loop. -/
  | done
  deriving DecidableEq, Repr

/-- What happens next. -/
inductive Event where
  /-- The processor takes a step. -/
  | cpu
  /-- An interrupt is handled. -/
  | irq
  deriving DecidableEq, Repr

/-- The loop and the memory. -/
structure Config (σ : Type*) where
  pc : Pc
  mem : σ

section Step

variable {σ : Type*} (more : σ → Bool) (handler : σ → Option σ)

/-- One event. -/
def step (c : Config σ) : Event → Option (Config σ)
  | .cpu =>
      match c.pc with
      | .test => some ⟨if more c.mem then .hlt else .done, c.mem⟩
      | .hlt => some ⟨.halted, c.mem⟩
      | .halted | .done => none
  | .irq =>
      match c.pc with
      | .test | .halted => (handler c.mem).map (⟨.test, ·⟩)
      | .hlt => (handler c.mem).map (⟨.hlt, ·⟩)
      | .done => none

/-- A sequence of events. -/
def run (c : Config σ) (es : List Event) : Option (Config σ) := es.foldlM (step more handler) c

variable {more handler} {c c' : Config σ}

lemma run_concat (c : Config σ) (es : List Event) (e : Event) :
    run more handler c (es ++ [e]) = (run more handler c es).bind (step more handler · e) := by
  rw [run, List.foldlM_append]
  simp [run]

lemma run_append (c : Config σ) (es fs : List Event) :
    run more handler c (es ++ fs) = (run more handler c es).bind (run more handler · fs) :=
  List.foldlM_append

lemma step_cpu (h : step more handler c .cpu = some c') : c'.mem = c.mem ∧
    (c.pc = .test ∧ more c.mem = true ∧ c'.pc = .hlt ∨
      c.pc = .test ∧ more c.mem = false ∧ c'.pc = .done ∨ c.pc = .hlt ∧ c'.pc = .halted) := by
  obtain ⟨pc, m⟩ := c
  cases pc with
  | test =>
      cases h
      cases hmore : more m <;> simp
  | hlt =>
      cases h
      simp
  | halted => cases h
  | done => cases h

lemma step_irq (h : step more handler c .irq = some c') : handler c.mem = some c'.mem ∧
    ((c.pc = .test ∨ c.pc = .halted) ∧ c'.pc = .test ∨ c.pc = .hlt ∧ c'.pc = .hlt) := by
  obtain ⟨pc, m⟩ := c
  cases pc with
  | done => cases h
  | _ =>
      obtain ⟨m', hm, rfl⟩ := Option.map_eq_some_iff.mp h
      exact ⟨hm, by simp⟩

/-- **Halting in vain.** -/
lemma run_hlt_cases {m : σ} {es : List Event} (h : run more handler ⟨.test, m⟩ es = some c)
    (hpc : c.pc = .hlt) (hmore : more c.mem = false) :
    ∃ fs c₀, es = fs ++ [.irq] ∧ run more handler ⟨.test, m⟩ fs = some c₀ ∧ c₀.pc = .hlt ∧
      handler c₀.mem = some c.mem := by
  rcases es.eq_nil_or_concat with rfl | ⟨fs, e, rfl⟩
  · cases h
    cases hpc
  · rw [List.concat_eq_append, run_concat] at h
    obtain ⟨c₀, h₀, hstep⟩ := Option.bind_eq_some_iff.mp h
    cases e with
    | cpu =>
        -- the test that led here saw what is still in memory
        obtain ⟨hmem, ⟨-, ht, -⟩ | ⟨-, -, hd⟩ | ⟨-, hh⟩⟩ := step_cpu hstep
        · rw [hmem, ht] at hmore
          cases hmore
        · rw [hpc] at hd
          cases hd
        · rw [hpc] at hh
          cases hh
    | irq =>
        obtain ⟨hhandler, ⟨-, ht⟩ | ⟨h₁, -⟩⟩ := step_irq hstep
        · rw [hpc] at ht
          cases ht
        · exact ⟨fs, c₀, List.concat_eq_append, h₀, h₁, hhandler⟩

end Step

/-! ### Periodic interrupts -/

section Timed

variable {σ : Type*} (more : σ → Bool) (handler : σ → Option σ) (φ T : ℝ) (m₀ : σ)

/-- A run from the start of the loop: the configuration, whether the last event was an interrupt,
the number of interrupts, and the time.  The processor takes its steps before the next interrupt
is due. -/
inductive TimedRun : Config σ → Bool → ℕ → ℝ → Prop
  | start : TimedRun ⟨.test, m₀⟩ false 0 0
  | cpu {c c' : Config σ} {b : Bool} {f : ℕ} {t t' : ℝ} : TimedRun c b f t →
      step more handler c .cpu = some c' → t ≤ t' → t' < φ + f * T → TimedRun c' false f t'
  | irq {c c' : Config σ} {f : ℕ} {t : ℝ} : TimedRun c false f t →
      step more handler c .irq = some c' → TimedRun c' true (f + 1) (φ + f * T)

variable {more handler φ T m₀} {c : Config σ} {b : Bool} {f n : ℕ} {t : ℝ}

/-- The time of the last interrupt. -/
def lastIrq (φ T : ℝ) : ℕ → ℝ
  | 0 => 0
  | f + 1 => φ + f * T

/-- The next interrupt comes after the last one. -/
lemma lastIrq_lt (hφ : 0 < φ) (hT : 0 < T) (f : ℕ) : lastIrq φ T f < φ + f * T := by
  cases f with
  | zero => simpa [lastIrq] using hφ
  | succ f =>
      rw [lastIrq, Nat.cast_succ, add_mul, one_mul, ← add_assoc]
      exact lt_add_of_pos_right _ hT

lemma lastIrq_mono (hφ : 0 < φ) (hT : 0 < T) : Monotone (lastIrq φ T) :=
  monotone_nat_of_le_succ fun f => (lastIrq_lt hφ hT f).le

lemma TimedRun.lastIrq_le (h : TimedRun more handler φ T m₀ c b f t) : lastIrq φ T f ≤ t := by
  induction h with
  | start => exact le_rfl
  | cpu _ _ hle _ ih => exact ih.trans hle
  | irq _ _ _ => exact le_rfl

/-- No interrupt is overdue. -/
lemma TimedRun.lt_next (hφ : 0 < φ) (hT : 0 < T) (h : TimedRun more handler φ T m₀ c b f t) :
    t < φ + f * T := by
  cases h with
  | start => simpa using hφ
  | cpu _ _ _ hlt => exact hlt
  | @irq _ _ f _ _ _ =>
      rw [Nat.cast_succ, add_mul, one_mul, ← add_assoc]
      exact lt_add_of_pos_right _ hT

/-- The loop waits for `n` interrupts: `R` relates a memory to the number of interrupts so far. -/
structure Counts (more : σ → Bool) (handler : σ → Option σ) (R : σ → ℕ → Prop) (n : ℕ) : Prop where
  handler : ∀ m f, R m f → f ≤ n → ∃ m', handler m = some m' ∧ R m' (f + 1)
  more_iff : ∀ m f, R m f → f ≤ n + 1 → (more m = true ↔ f < n)

/-- The interrupts that can have been handled. -/
def Within (n : ℕ) : Pc → Bool → ℕ → Prop
  | .test, false, f => f = 0
  | .test, true, f => f ≤ n + 1
  | .hlt, false, f => f < n
  | .hlt, true, f => f ≤ n
  | .halted, _, f => f ≤ n
  | .done, _, f => n ≤ f ∧ f ≤ n + 1

variable {R : σ → ℕ → Prop}

lemma Within.le {pc : Pc} (h : Within n pc b f) : f ≤ n + 1 := by
  cases pc <;> cases b <;> simp only [Within] at h <;> omega

/-- **No more than one interrupt comes too late to be seen.** -/
lemma TimedRun.bounds (hc : Counts more handler R n) (h₀ : R m₀ 0)
    (h : TimedRun more handler φ T m₀ c b f t) : R c.mem f ∧ Within n c.pc b f := by
  induction h with
  | start => exact ⟨h₀, rfl⟩
  | @cpu c c' b f t t' _ hstep _ _ ih =>
      obtain ⟨hR, hwithin⟩ := ih
      have hmore := hc.more_iff _ _ hR hwithin.le
      obtain ⟨hmem, ⟨hpc, ht, hpc'⟩ | ⟨hpc, ht, hpc'⟩ | ⟨hpc, hpc'⟩⟩ := step_cpu hstep
      · rw [hmem, hpc']
        exact ⟨hR, hmore.mp ht⟩
      · rw [hmem, hpc']
        refine ⟨hR, ?_, hwithin.le⟩
        by_contra hlt
        rw [hmore.mpr (not_le.mp hlt)] at ht
        cases ht
      · rw [hpc] at hwithin
        rw [hmem, hpc']
        refine ⟨hR, ?_⟩
        cases b with
        | false => exact le_of_lt hwithin
        | true => exact hwithin
  | @irq c c' f t _ hstep ih =>
      obtain ⟨hR, hwithin⟩ := ih
      have hle : f ≤ n := by
        obtain ⟨-, ⟨hpc | hpc, -⟩ | ⟨hpc, -⟩⟩ := step_irq hstep <;> rw [hpc] at hwithin
        · exact hwithin ▸ Nat.zero_le n
        · exact hwithin
        · exact le_of_lt hwithin
      obtain ⟨hhandler, hpc⟩ := step_irq hstep
      obtain ⟨m', hm', hR'⟩ := hc.handler _ _ hR hle
      rw [hhandler] at hm'
      cases hm'
      refine ⟨hR', ?_⟩
      obtain ⟨-, hpc'⟩ | ⟨hpc, hpc'⟩ := hpc
      · rw [hpc']
        exact Nat.succ_le_succ hle
      · rw [hpc']
        rw [hpc] at hwithin
        exact hwithin

/-- The run in which every interrupt finds the processor halted. -/
lemma Counts.prompt (hc : Counts more handler R n) (h₀ : R m₀ 0) (hφ : 0 < φ) (hT : 0 < T) {f : ℕ}
    (hf : f ≤ n) : ∃ m b, R m f ∧ TimedRun more handler φ T m₀ ⟨.test, m⟩ b f (lastIrq φ T f) := by
  induction f with
  | zero => exact ⟨m₀, false, h₀, .start⟩
  | succ f ih =>
      obtain ⟨m, b, hR, hrun⟩ := ih (by omega)
      have hmore : more m = true := (hc.more_iff m f hR (by omega)).mpr (by omega)
      obtain ⟨m', hm', hR'⟩ := hc.handler m f hR (by omega)
      have htest : step more handler ⟨.test, m⟩ .cpu = some ⟨.hlt, m⟩ := by simp [step, hmore]
      have hirq : step more handler ⟨.halted, m⟩ .irq = some ⟨.test, m'⟩ := by simp [step, hm']
      exact ⟨m', true, hR', .irq (.cpu (.cpu hrun htest le_rfl (lastIrq_lt hφ hT f)) rfl le_rfl
        (lastIrq_lt hφ hT f)) hirq⟩

/-- The loop can return right after interrupt `n`. -/
lemma Counts.returns (hc : Counts more handler R n) (h₀ : R m₀ 0) (hφ : 0 < φ) (hT : 0 < T) :
    ∃ m, R m n ∧ TimedRun more handler φ T m₀ ⟨.done, m⟩ false n (lastIrq φ T n) := by
  obtain ⟨m, b, hR, hrun⟩ := hc.prompt h₀ hφ hT le_rfl
  have hmore : more m = false := by
    rw [Bool.eq_false_iff, Ne, hc.more_iff m n hR (by omega)]
    exact lt_irrefl n
  have htest : step more handler ⟨.test, m⟩ .cpu = some ⟨.done, m⟩ := by simp [step, hmore]
  exact ⟨m, hR, .cpu hrun htest le_rfl (lastIrq_lt hφ hT n)⟩

/-- **The loop lasts as long as it takes to the last interrupt that it needs.** -/
lemma Counts.lasts_iff (hc : Counts more handler R n) (h₀ : R m₀ 0) (hφ : 0 < φ) (hT : 0 < T)
    (d : ℝ) : (∀ c b f t, TimedRun more handler φ T m₀ c b f t → c.pc = .done → d ≤ t) ↔
      d ≤ lastIrq φ T n := by
  constructor
  · intro hall
    obtain ⟨m, -, hrun⟩ := hc.returns h₀ hφ hT
    exact hall _ _ _ _ hrun rfl
  · intro hd c b f t hrun hpc
    have hwithin := (hrun.bounds hc h₀).2
    rw [hpc] at hwithin
    exact hd.trans ((lastIrq_mono hφ hT hwithin.1).trans hrun.lastIrq_le)

end Timed

end PollLoop

end Titanium
