import Mathlib.Tactic

/-!
The events of uACPI (`uacpi_kernel_wait_for_event` and its siblings in `uacpi.rs`).

An event is an atomic counter of sixteen bits.  A wait is a loop of `try_update`: it
reads the counter, fails when it finds 0, and otherwise tries to store one less with
a compare and exchange.  Signals may arrive between any two of these steps.  The
signals and the successful waits since the last reset are counted beside the state.

* `Inv.step`: the counter is their difference modulo 65536.
* `event_wait_iff`: **a wait succeeds when there is a signal left, unless the number
  of signals that are left is a multiple of 65536**.
-/

namespace Titanium

namespace Uacpi

/-- Where a wait is. -/
inductive WaitPc where
  | idle
  /-- Before the compare and exchange, with the value that was read. -/
  | trying (prev : BitVec 16)
  /-- `no event waiting on single threaded code`. -/
  | panicked
  deriving DecidableEq, Repr

/-- An event, with what has happened to it since its last reset. -/
structure EventState where
  counter : BitVec 16
  pc : WaitPc
  signals : ℕ
  waits : ℕ
  deriving DecidableEq, Repr

/-- What can happen to an event. -/
inductive EventStep where
  /-- `uacpi_kernel_signal_event`, at any point. -/
  | signal
  /-- `uacpi_kernel_reset_event`. -/
  | reset
  /-- `uacpi_kernel_wait_for_event` is called, and reads the counter. -/
  | wait
  /-- The compare and exchange of the wait, which may fail without a reason. -/
  | compareExchange (spurious : Bool)
  deriving DecidableEq, Repr

namespace EventState

/-- `uacpi_kernel_create_event`. -/
def create : EventState := ⟨0, .idle, 0, 0⟩

/-- The closure of `try_update` on the counter: it gives no value when the counter is 0. -/
def read (s : EventState) : EventState :=
  if s.counter > 0 then { s with pc := .trying s.counter } else { s with pc := .panicked }

/-- One step. -/
def step (s : EventState) : EventStep → Option EventState
  | .signal =>
      if s.pc = .panicked then none
      else some { s with counter := s.counter + 1, signals := s.signals + 1 }
  | .reset =>
      if s.pc = .idle then some { s with counter := 0, signals := 0, waits := 0 } else none
  | .wait => if s.pc = .idle then some s.read else none
  | .compareExchange spurious =>
      match s.pc with
      | .trying prev =>
          if s.counter = prev ∧ !spurious then
            some { s with counter := prev - 1, pc := .idle, waits := s.waits + 1 }
          else some s.read
      | _ => none

/-- A sequence of steps. -/
def run (s : EventState) (es : List EventStep) : Option EventState := es.foldlM step s

/-- A compare and exchange takes a signal, or the wait reads the counter once more. -/
lemma compareExchange_cases {s s' : EventState} {spurious : Bool}
    (h : s.step (.compareExchange spurious) = some s') : ∃ prev, s.pc = .trying prev ∧
      (s.counter = prev ∧
          s' = { s with counter := s.counter - 1, pc := .idle, waits := s.waits + 1 } ∨
        s' = s.read) := by
  cases hpc : s.pc with
  | idle => simp [step, hpc] at h
  | panicked => simp [step, hpc] at h
  | trying prev =>
      simp only [step, hpc] at h
      split_ifs at h with hsame
      · cases h
        exact ⟨prev, rfl, Or.inl ⟨hsame.1, by rw [hsame.1]⟩⟩
      · cases h
        exact ⟨prev, rfl, Or.inr rfl⟩

/-- What the counter stands for. -/
structure Inv (s : EventState) : Prop where
  le : s.waits ≤ s.signals
  counter : s.counter.toNat = (s.signals - s.waits) % 65536
  /-- A compare and exchange never stores a value below 0. -/
  trying : ∀ prev, s.pc = .trying prev → prev ≠ 0

lemma inv_create : Inv create := ⟨le_rfl, rfl, fun _ h => nomatch h⟩

lemma Inv.read {s : EventState} (h : Inv s) : Inv s.read := by
  unfold EventState.read
  split_ifs with hpos
  · refine ⟨h.le, h.counter, ?_⟩
    rintro prev heq hzero
    cases heq
    rw [hzero] at hpos
    exact absurd hpos (by decide)
  · exact ⟨h.le, h.counter, fun _ heq => nomatch heq⟩

/-- **No step loses a signal or counts one twice**, modulo 65536. -/
lemma Inv.step {s s' : EventState} {e : EventStep} (h : Inv s) (hstep : s.step e = some s') :
    Inv s' := by
  obtain ⟨hle, hcounter, htrying⟩ := h
  have hone : BitVec.toNat (1 : BitVec 16) = 1 := rfl
  cases e with
  | signal =>
      obtain ⟨-, heq⟩ := Option.ite_none_left_eq_some.mp hstep
      cases heq
      refine ⟨hle.trans (Nat.le_succ _), ?_, htrying⟩
      rw [BitVec.toNat_add, hcounter, hone]
      dsimp only
      omega
  | reset =>
      obtain ⟨-, heq⟩ := Option.ite_none_right_eq_some.mp hstep
      cases heq
      exact ⟨le_rfl, rfl, htrying⟩
  | wait =>
      obtain ⟨-, heq⟩ := Option.ite_none_right_eq_some.mp hstep
      cases heq
      exact Inv.read ⟨hle, hcounter, htrying⟩
  | compareExchange spurious =>
      obtain ⟨prev, hpc, ⟨hsame, rfl⟩ | rfl⟩ := compareExchange_cases hstep
      · have hpos : s.counter.toNat ≠ 0 :=
          fun h => htrying prev hpc (hsame ▸ BitVec.eq_of_toNat_eq h)
        have hlt := s.counter.isLt
        refine ⟨?_, ?_, fun _ heq => nomatch heq⟩
        · dsimp only
          omega
        · rw [BitVec.toNat_sub, hone]
          dsimp only
          omega
      · exact Inv.read ⟨hle, hcounter, htrying⟩

lemma Inv.run {s s' : EventState} {es : List EventStep} (h : Inv s) (hrun : s.run es = some s') :
    Inv s' := by
  induction es generalizing s with
  | nil =>
      cases hrun
      exact h
  | cons e es ih =>
      obtain ⟨s₁, hstep, hrest⟩ := Option.bind_eq_some_iff.mp hrun
      exact ih (h.step hstep) hrest

/-- The signals that no wait has taken. -/
def left (s : EventState) : ℕ := s.signals - s.waits

/-- How a step ends a wait, if it does: the wait has taken a signal, or it has found none. -/
def outcome (s s' : EventState) : Option Bool :=
  if s'.waits = s.waits + 1 then some true else if s'.pc = .panicked then some false else none

lemma Inv.dvd_left_iff {s : EventState} (h : Inv s) : 65536 ∣ s.left ↔ s.counter = 0 := by
  rw [Nat.dvd_iff_mod_eq_zero, left, ← h.counter, ← BitVec.toNat_inj]
  rfl

/-- A wait that reads the counter ends if it finds 0. -/
lemma outcome_read {s : EventState} {ok : Bool} (h : Inv s) (hout : s.outcome s.read = some ok) :
    ok = true ↔ ¬ 65536 ∣ s.left := by
  rw [h.dvd_left_iff]
  by_cases hpos : s.counter > 0
  · rw [read, if_pos hpos] at hout
    simp [outcome] at hout
  · have hzero : s.counter = 0 := by simpa using hpos
    rw [read, if_neg hpos] at hout
    simp only [outcome, Nat.left_eq_add, one_ne_zero, if_false, if_true, Option.some.injEq] at hout
    simp [← hout, hzero]

/-- **A wait is decided by the counter.** -/
lemma outcome_step {s s' : EventState} {e : EventStep} {ok : Bool} (h : Inv s)
    (hstep : s.step e = some s') (hout : s.outcome s' = some ok) :
    ok = true ↔ ¬ 65536 ∣ s.left := by
  cases e with
  | signal =>
      obtain ⟨hpc, heq⟩ := Option.ite_none_left_eq_some.mp hstep
      cases heq
      simp [outcome, hpc] at hout
  | reset =>
      obtain ⟨hpc, heq⟩ := Option.ite_none_right_eq_some.mp hstep
      cases heq
      simp [outcome, hpc] at hout
  | wait =>
      obtain ⟨-, heq⟩ := Option.ite_none_right_eq_some.mp hstep
      cases heq
      exact outcome_read h hout
  | compareExchange spurious =>
      obtain ⟨prev, hpc, ⟨hsame, rfl⟩ | rfl⟩ := compareExchange_cases hstep
      · have hne : s.counter ≠ 0 := hsame ▸ h.trying prev hpc
        simp only [outcome, if_true, Option.some.injEq] at hout
        rw [h.dvd_left_iff]
        exact iff_of_true hout.symm hne
      · exact outcome_read h hout

/-- A wait that is not interrupted. -/
lemma run_wait {s : EventState} (hpc : s.pc = .idle) (hne : s.counter ≠ 0) :
    s.run [.wait, .compareExchange false] =
      some { s with counter := s.counter - 1, pc := .idle, waits := s.waits + 1 } := by
  have hpos : s.counter > 0 := by simpa [BitVec.pos_iff_ne_zero] using hne
  have hwait : s.step .wait = some { s with pc := .trying s.counter } := by
    rw [step, if_pos hpc, read, if_pos hpos]
  have htry : step { s with pc := .trying s.counter } (.compareExchange false) =
      some { s with counter := s.counter - 1, pc := .idle, waits := s.waits + 1 } := by
    simp [step]
  rw [run, List.foldlM_cons, hwait]
  show (step _ _).bind _ = _
  rw [htry]
  rfl

/-- **A wait succeeds exactly when a signal is left, unless the signals that are left wrap the
counter.**  Without interrupts a wait needs one try. -/
theorem event_wait_iff {es : List EventStep} {s : EventState} (hrun : create.run es = some s) :
    (∀ e s' ok, s.step e = some s' → s.outcome s' = some ok →
      ((ok = true ↔ s.waits < s.signals) ↔ ¬ (0 < s.left ∧ 65536 ∣ s.left))) ∧
    (s.pc = .idle → ¬ 65536 ∣ s.left →
      ∃ s', s.run [.wait, .compareExchange false] = some s' ∧ s'.waits = s.waits + 1) := by
  have hinv := inv_create.run hrun
  refine ⟨fun e s' ok hstep hout => ?_, fun hpc hleft => ?_⟩
  · have hlt : s.waits < s.signals ↔ 0 < s.left := by
      unfold left
      omega
    rw [outcome_step hinv hstep hout, hlt]
    rcases Nat.eq_zero_or_pos s.left with hzero | hpos
    · simp [hzero]
    · simp [hpos]
  · exact ⟨_, run_wait hpc (mt hinv.dvd_left_iff.mpr hleft), rfl⟩

theorem event_signalled_once : ∃ s s', create.run [.signal, .wait] = some s ∧
    s.step (.compareExchange false) = some s' ∧ s.outcome s' = some true ∧
    s.waits < s.signals := by
  refine ⟨_, _, rfl, rfl, rfl, ?_⟩
  have hiff := (@event_wait_iff [.signal, .wait] _ rfl).1 (.compareExchange false) _ true rfl rfl
  exact (hiff.mpr (by decide)).mp rfl

lemma run_signals (n : ℕ) {s : EventState} (hpc : s.pc ≠ .panicked) :
    s.run (.replicate n .signal) =
      some { s with counter := s.counter + .ofNat 16 n, signals := s.signals + n } := by
  induction n generalizing s with
  | zero => simp [run]
  | succ n ih =>
      have hstep : s.step .signal =
          some { s with counter := s.counter + 1, signals := s.signals + 1 } := if_neg hpc
      rw [List.replicate_succ, run, List.foldlM_cons, hstep]
      have hcounter : s.counter + 1 + .ofNat 16 n = s.counter + .ofNat 16 (n + 1) := by
        rw [Nat.add_comm n 1, BitVec.ofNat_add, BitVec.add_assoc]
        rfl
      have hsignals : s.signals + 1 + n = s.signals + (n + 1) := by omega
      refine (@ih { s with counter := s.counter + 1, signals := s.signals + 1 } hpc).trans ?_
      simp only [hcounter, hsignals]

/-- After 65536 signals a wait finds nothing. -/
theorem event_signals_lost : ∃ s s', create.run (.replicate 65536 .signal) = some s ∧
    s.waits = 0 ∧ s.signals = 65536 ∧ s.step .wait = some s' ∧ s'.pc = .panicked :=
  ⟨_, _, run_signals 65536 (by decide), rfl, rfl, rfl, rfl⟩

end EventState

end Uacpi

end Titanium
