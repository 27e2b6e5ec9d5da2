import Titanium.Hdint.LocalApic
import Titanium.Lib.PollLoop

/-!
Waiting for the timer of the local APIC (`sleep_local_us` in `hdint.rs`).

The timer is armed once.  Its handler clears bit 0 of `TIMER_FLAGS`, which the loop
tests before it halts.

* `lapicHandler_cleared`: what is left after the interrupt.
* `sleep_halts_late_iff`: **the processor halts with nothing left to wake it exactly
  when the timer fires between the test and the `hlt`**.
-/

namespace Titanium

namespace Hdint

open Idt PollLoop

/-- The timer, and whether its interrupt is still to come. -/
structure Sleeper where
  timer : LocalTimer
  pending : Bool

/-- The condition of the loop. -/
def sleepMore (s : Sleeper) : Bool := s.timer.cpu.timerFlags &&& 0x1 != 0

/-- The interrupt of the timer, which comes once. -/
def lapicHandler (rust : Rust) (s : Sleeper) : Option Sleeper :=
  if s.pending then
    (Idt.run rust Handler.lapicClkInterrupt.code s.timer.cpu).map fun cpu =>
      ⟨{ s.timer with cpu := cpu }, false⟩
  else none

/-- `sleep_local_us(us)` after the events `es`, the timer being armed before the first of them. -/
def sleepLocalUs (rust : Rust) (s : LocalTimer) (us : BitVec 32)
    (es : List PollLoop.Event) : Option (Config Sleeper) := do
  let s ← s.sleepStart us
  PollLoop.run sleepMore (lapicHandler rust) ⟨.test, s, true⟩ es

/-- The processor is about to halt though the timer has fired. -/
structure HaltsLate (k : Config Sleeper) : Prop where
  pc : k.pc = .hlt
  cleared : sleepMore k.mem = false
  fired : k.mem.pending = false

variable {rust : Rust} {s : LocalTimer} {us : BitVec 32}

lemma lapicHandler_cleared {m m' : Sleeper} (h : lapicHandler rust m = some m') :
    sleepMore m' = false ∧ m'.pending = false := by
  obtain ⟨-, h⟩ := Option.ite_none_right_eq_some.mp h
  obtain ⟨cpu, hrun, rfl⟩ := Option.map_eq_some_iff.mp h
  obtain ⟨cpu', hrun', -, hflags, -⟩ := run_lapicClkInterrupt rust m.timer.cpu
  cases hrun.symm.trans hrun'
  have hmask : ~~~(1 : BitVec 8) &&& 0x1 = 0 := by decide
  refine ⟨?_, rfl⟩
  show (cpu.timerFlags &&& 0x1 != 0) = false
  rw [hflags, BitVec.and_assoc, hmask]
  simp

lemma sleepLocalUs_append {es fs : List PollLoop.Event} {k : Config Sleeper}
    (h : sleepLocalUs rust s us (es ++ fs) = some k) : ∃ k₁, sleepLocalUs rust s us es = some k₁ ∧
      PollLoop.run sleepMore (lapicHandler rust) k₁ fs = some k := by
  obtain ⟨s', hs, hrun⟩ := Option.bind_eq_some_iff.mp h
  rw [run_append] at hrun
  obtain ⟨k₁, h₁, hrest⟩ := Option.bind_eq_some_iff.mp hrun
  exact ⟨k₁, Option.bind_eq_some_iff.mpr ⟨s', hs, h₁⟩, hrest⟩

/-- A processor that has halted too late stays halted. -/
lemma step_halted {k : Config Sleeper} (hpc : k.pc = .halted) (hfired : k.mem.pending = false)
    (e : PollLoop.Event) : PollLoop.step sleepMore (lapicHandler rust) k e = none := by
  have hhandler : lapicHandler rust k.mem = none := by simp [lapicHandler, hfired]
  cases e <;> simp [PollLoop.step, hpc, hhandler]

lemma HaltsLate.run_cpu {k₁ k : Config Sleeper} (hlate : HaltsLate k₁) {gs : List PollLoop.Event}
    (h : PollLoop.run sleepMore (lapicHandler rust) k₁ (.cpu :: gs) = some k) :
    k.pc = .halted ∧ k.mem.pending = false := by
  obtain ⟨k₂, hstep, hgs⟩ := Option.bind_eq_some_iff.mp h
  have hk₂ : k₂.pc = .halted ∧ k₂.mem.pending = false := by
    obtain ⟨hmem, ⟨hpc, -⟩ | ⟨hpc, -⟩ | ⟨-, hpc⟩⟩ := step_cpu hstep
    · cases hlate.pc.symm.trans hpc
    · cases hlate.pc.symm.trans hpc
    · exact ⟨hpc, hmem ▸ hlate.fired⟩
  cases gs with
  | nil =>
      cases hgs
      exact hk₂
  | cons e gs =>
      obtain ⟨k₃, h₃, -⟩ := Option.bind_eq_some_iff.mp hgs
      rw [step_halted hk₂.1 hk₂.2] at h₃
      cases h₃

/-- **The wake-up is lost exactly when the timer fires between the test and the `hlt`**, and then
the processor does not go on. -/
theorem sleep_halts_late_iff (es : List PollLoop.Event) (k : Config Sleeper)
    (h : sleepLocalUs rust s us es = some k) :
    ((∃ fs gs k₁, es = fs ++ .cpu :: gs ∧ sleepLocalUs rust s us fs = some k₁ ∧ HaltsLate k₁) ↔
      ∃ fs gs k₁, es = fs ++ .irq :: .cpu :: gs ∧ sleepLocalUs rust s us fs = some k₁ ∧
        k₁.pc = .hlt) ∧
    ∀ fs gs k₁, es = fs ++ .cpu :: gs → sleepLocalUs rust s us fs = some k₁ → HaltsLate k₁ →
      k.pc = .halted ∧ ∀ e, sleepLocalUs rust s us (es ++ [e]) = none := by
  refine ⟨⟨?_, ?_⟩, ?_⟩
  · rintro ⟨fs, gs, k₁, rfl, hfs, hlate⟩
    obtain ⟨s', hs, hrun⟩ := Option.bind_eq_some_iff.mp hfs
    obtain ⟨fs, k₀, rfl, h₀, hpc, -⟩ := run_hlt_cases hrun hlate.pc hlate.cleared
    exact ⟨fs, gs, k₀, by simp, Option.bind_eq_some_iff.mpr ⟨s', hs, h₀⟩, hpc⟩
  · rintro ⟨fs, gs, k₁, rfl, hfs, hpc⟩
    have hsplit : fs ++ .irq :: .cpu :: gs = (fs ++ [.irq]) ++ .cpu :: gs := by simp
    rw [hsplit] at h ⊢
    obtain ⟨k₂, h₂, -⟩ := sleepLocalUs_append h
    obtain ⟨k₁', h₁', hirq⟩ := sleepLocalUs_append h₂
    cases hfs.symm.trans h₁'
    obtain ⟨k₂', hstep, hnil⟩ := Option.bind_eq_some_iff.mp hirq
    cases hnil
    obtain ⟨hhandler, ⟨htest | htest, -⟩ | ⟨-, hpc₂⟩⟩ := step_irq hstep
    · rw [hpc] at htest
      cases htest
    · rw [hpc] at htest
      cases htest
    · obtain ⟨hcleared, hfired⟩ := lapicHandler_cleared hhandler
      exact ⟨_, gs, k₂, rfl, h₂, hpc₂, hcleared, hfired⟩
  · rintro fs gs k₁ rfl hfs hlate
    obtain ⟨k₁', h₁', hrest⟩ := sleepLocalUs_append h
    cases hfs.symm.trans h₁'
    obtain ⟨hpc, hfired⟩ := hlate.run_cpu hrest
    refine ⟨hpc, fun e => ?_⟩
    by_contra hne
    obtain ⟨k', hk'⟩ := Option.ne_none_iff_exists'.mp hne
    obtain ⟨k₂, h₂, he⟩ := sleepLocalUs_append hk'
    cases h.symm.trans h₂
    obtain ⟨k₃, h₃, -⟩ := Option.bind_eq_some_iff.mp he
    rw [step_halted hpc hfired] at h₃
    cases h₃

/-- The timer fires while the processor is halted. -/
theorem sleep_wakes : ∃ k,
    sleepLocalUs quietRust (setUp 1000000) 1000 [.cpu, .cpu, .irq, .cpu] = some k ∧
    k.pc = .done ∧
    ¬ ∃ fs gs k₁, [PollLoop.Event.cpu, .cpu, .irq, .cpu] = fs ++ .cpu :: gs ∧
      sleepLocalUs quietRust (setUp 1000000) 1000 fs = some k₁ ∧ HaltsLate k₁ := by
  refine ⟨_, rfl, rfl, ?_⟩
  rw [(sleep_halts_late_iff [.cpu, .cpu, .irq, .cpu] _ rfl).1]
  rintro ⟨fs, gs, k₁, heq, hfs, hpc⟩
  rcases fs with _ | ⟨_, _ | ⟨_, _ | ⟨_, fs⟩⟩⟩
  · cases heq
  · cases heq
  · cases heq
    cases hfs
    cases hpc
  · have hlen := congrArg List.length heq
    simp at hlen
    omega

/-- The timer fires right after the test. -/
theorem sleep_loses_wakeup : ∃ k,
    sleepLocalUs quietRust (setUp 1000000) 1000 [.cpu, .irq] = some k ∧ HaltsLate k ∧
    (sleepLocalUs quietRust (setUp 1000000) 1000 [.cpu, .irq, .cpu]).isSome :=
  ⟨_, rfl, ⟨rfl, rfl, rfl⟩, rfl⟩

end Hdint

end Titanium
