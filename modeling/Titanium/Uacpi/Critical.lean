import Titanium.Scheduler.Machine

/-!
Critical sections of uACPI: spinlocks and disabled interrupts (`uacpi.rs`).

Taking a lock and disabling interrupts return the flags from before; the matching
call enables interrupts if these flags had them enabled, and never disables them.
Programs are trees of sections, so every call gets the flags of the one that it
matches.

* `fromBits_read`: flags that were read are accepted.
* `Prog.exec_spec`: the induction over programs; a section starts with `IF` clear
  and hands it on as it got it.
* `critical_sections_restore`: **no call panics, `IF` is clear in every section, and
  locks and `IF` are as they were at the end**.
-/

namespace Titanium

namespace Uacpi

/-! ### Flags -/

/-- The flags that `RFlags` knows. -/
def knownFlags : Word :=
  [0, 2, 4, 6, 7, 8, 9, 10, 11, 12, 13, 14, 16, 17, 18, 19, 20, 21].foldl
    (fun w i => w ||| 1#64 <<< i) 0

/-- `rflags::read`. -/
def readFlags (rflags : Word) : Word := rflags &&& knownFlags

/-- `RFlags::from_bits`. -/
def fromBits (bits : Word) : Option Word := if bits &&& ~~~knownFlags = 0 then some bits else none

lemma fromBits_read (rflags : Word) : fromBits (readFlags rflags) = some (readFlags rflags) := by
  have hknown : knownFlags &&& ~~~knownFlags = 0 := by decide
  have hzero : readFlags rflags &&& ~~~knownFlags = 0 := by
    rw [readFlags, BitVec.and_assoc, hknown]
    exact BitVec.and_zero
  rw [fromBits, if_pos hzero]

lemma interrupts_read (rflags : Word) : (readFlags rflags).interrupts = rflags.interrupts := by
  have hknown : knownFlags.getLsbD 9 = true := by decide
  rw [Word.interrupts, readFlags, BitVec.getLsbD_and, hknown, Bool.and_true, Word.interrupts]

/-! ### The calls -/

variable {ι : Type}

/-- The flags of the processor, and which locks are taken. -/
structure LockState (ι : Type) where
  rflags : Word
  locked : ι → Bool

namespace LockState

/-- `interrupts::disable`. -/
def cli (k : LockState ι) : LockState ι := { k with rflags := k.rflags.setBit 9 false }

/-- `interrupts::enable`. -/
def sti (k : LockState ι) : LockState ι := { k with rflags := k.rflags.setBit 9 true }

/-- `IF`. -/
def interrupts (k : LockState ι) : Bool := k.rflags.interrupts

/-- `uacpi_kernel_disable_interrupts`. -/
def disableInterrupts (k : LockState ι) : Word × LockState ι := (readFlags k.rflags, k.cli)

/-- `uacpi_kernel_restore_interrupts`. -/
def restoreInterrupts (k : LockState ι) (state : Word) : Option (LockState ι) := do
  let flags ← fromBits state
  some (if flags.interrupts then k.sti else k)

/-- `uacpi_kernel_lock_spinlock`. -/
def lockSpinlock [DecidableEq ι] (k : LockState ι) (l : ι) : Option (Word × LockState ι) :=
  let flags := readFlags k.rflags
  let k := k.cli
  if k.locked l then none else some (flags, { k with locked := Function.update k.locked l true })

/-- `uacpi_kernel_unlock_spinlock`. -/
def unlockSpinlock [DecidableEq ι] (k : LockState ι) (l : ι) (state : Word) :
    Option (LockState ι) := do
  let flags ← fromBits state
  let k := { k with locked := Function.update k.locked l false }
  some (if flags.interrupts then k.sti else k)

end LockState

/-! ### Programs -/

/-- Code that leaves `IF` as it is. -/
structure Body where
  run : Word → Word
  interrupts_run : ∀ w, (run w).interrupts = w.interrupts

/-- Well-nested programs. -/
inductive Prog (ι : Type) where
  | body (b : Body)
  | seq (p q : Prog ι)
  /-- A lock is taken and released. -/
  | locked (l : ι) (p : Prog ι)
  /-- Interrupts are disabled and restored. -/
  | masked (p : Prog ι)

namespace Prog

/-- No lock is taken twice, the locks `held` being taken already. -/
def Nested (held : Set ι) : Prog ι → Prop
  | body _ => True
  | seq p q => p.Nested held ∧ q.Nested held
  | locked l p => l ∉ held ∧ p.Nested (insert l held)
  | masked p => p.Nested held

/-- A program at nesting depth `d`, with the states that it goes through and their depths. -/
def exec [DecidableEq ι] (d : ℕ) (k : LockState ι) :
    Prog ι → Option (LockState ι × List (ℕ × LockState ι))
  | body b =>
      let k' := { k with rflags := b.run k.rflags }
      some (k', [(d, k), (d, k')])
  | seq p q => do
      let (k, visited) ← p.exec d k
      let (k, visited') ← q.exec d k
      some (k, visited ++ visited')
  | locked l p => do
      let (flags, k₁) ← k.lockSpinlock l
      let (k₂, visited) ← p.exec (d + 1) k₁
      let k₃ ← k₂.unlockSpinlock l flags
      some (k₃, (d + 1, k₁) :: visited ++ [(d + 1, k₂)])
  | masked p => do
      let (state, k₁) := k.disableInterrupts
      let (k₂, visited) ← p.exec (d + 1) k₁
      let k₃ ← k₂.restoreInterrupts state
      some (k₃, (d + 1, k₁) :: visited ++ [(d + 1, k₂)])

/-- What a program does. -/
structure Restores (k k' : LockState ι) (visited : List (ℕ × LockState ι)) : Prop where
  clear : ∀ x ∈ visited, 0 < x.1 → x.2.interrupts = false
  locked : k'.locked = k.locked
  interrupts : k'.interrupts = k.interrupts

end Prog

namespace LockState

variable (k : LockState ι)

@[simp] lemma interrupts_cli : k.cli.interrupts = false := by
  rw [interrupts, Word.interrupts, cli, Word.getLsbD_setBit _ (by norm_num), if_pos rfl]

@[simp] lemma interrupts_sti : k.sti.interrupts = true := by
  rw [interrupts, Word.interrupts, sti, Word.getLsbD_setBit _ (by norm_num), if_pos rfl]

/-- `sti`, if the flags say so. -/
def restored (flags : Word) : LockState ι := if flags.interrupts then k.sti else k

lemma locked_restored (flags : Word) : (k.restored flags).locked = k.locked := by
  rw [restored]
  split_ifs <;> rfl

variable {k}

/-- **The matching call gives `IF` its old value**, since it was cleared in between. -/
lemma interrupts_restored {k' : LockState ι} (hclear : k'.interrupts = false) :
    (k'.restored (readFlags k.rflags)).interrupts = k.interrupts := by
  rw [restored, interrupts_read]
  cases hif : k.rflags.interrupts with
  | false => exact hclear.trans hif.symm
  | true => exact (interrupts_sti k').trans hif.symm

lemma restoreInterrupts_read (k' : LockState ι) :
    k'.restoreInterrupts (readFlags k.rflags) = some (k'.restored (readFlags k.rflags)) := by
  rw [restoreInterrupts, fromBits_read]
  rfl

lemma lockSpinlock_free [DecidableEq ι] {l : ι} (hl : k.locked l = false) :
    k.lockSpinlock l =
      some (readFlags k.rflags, { k.cli with locked := Function.update k.locked l true }) := by
  simp [lockSpinlock, cli, hl]

lemma unlockSpinlock_read [DecidableEq ι] (k' : LockState ι) (l : ι) :
    k'.unlockSpinlock l (readFlags k.rflags) =
      some (restored { k' with locked := Function.update k'.locked l false }
        (readFlags k.rflags)) := by
  rw [unlockSpinlock, fromBits_read]
  rfl

end LockState

namespace Prog

/-- The states of a section: behind the first call, inside, and before the second. -/
lemma clear_section {d : ℕ} {k₁ k₂ : LockState ι} {visited : List (ℕ × LockState ι)}
    (h₁ : k₁.interrupts = false) (h : Restores k₁ k₂ visited) :
    ∀ x ∈ (d + 1, k₁) :: visited ++ [(d + 1, k₂)], 0 < x.1 → x.2.interrupts = false := by
  intro x hx hpos
  simp only [List.cons_append, List.mem_cons, List.mem_append, List.not_mem_nil, or_false] at hx
  rcases hx with rfl | hx | rfl
  · exact h₁
  · exact h.clear x hx hpos
  · exact h.interrupts.trans h₁

/-- **A program restores what it found**, by induction over the program: the locks that are not held
are free, and inside a section `IF` is clear. -/
lemma exec_spec [DecidableEq ι] (p : Prog ι) {held : Set ι} {d : ℕ} {k : LockState ι}
    (hp : p.Nested held) (hfree : ∀ l ∉ held, k.locked l = false)
    (hclear : 0 < d → k.interrupts = false) :
    ∃ k' visited, p.exec d k = some (k', visited) ∧ Restores k k' visited := by
  induction p generalizing held d k with
  | body b =>
      have hkept : LockState.interrupts { k with rflags := b.run k.rflags } = k.interrupts :=
        b.interrupts_run k.rflags
      refine ⟨_, _, rfl, fun x hx hpos => ?_, rfl, hkept⟩
      rcases List.mem_pair.mp hx with rfl | rfl
      · exact hclear hpos
      · exact hkept.trans (hclear hpos)
  | seq p q ihp ihq =>
      obtain ⟨k₁, visited₁, hexec₁, h₁⟩ := ihp hp.1 hfree hclear
      obtain ⟨k₂, visited₂, hexec₂, h₂⟩ := ihq (k := k₁) hp.2 (h₁.locked ▸ hfree)
        fun hd => h₁.interrupts.trans (hclear hd)
      refine ⟨k₂, visited₁ ++ visited₂, ?_, fun x hx => ?_, h₂.locked.trans h₁.locked,
        h₂.interrupts.trans h₁.interrupts⟩
      · simp only [exec, hexec₁, hexec₂, Option.bind_eq_bind, Option.bind_some]
      · exact (List.mem_append.mp hx).elim (h₁.clear x) (h₂.clear x)
  | locked l p ih =>
      obtain ⟨hnot, hp⟩ := hp
      have hl : k.locked l = false := hfree l hnot
      let k₁ : LockState ι := { k.cli with locked := Function.update k.locked l true }
      have hk₁ : k₁.interrupts = false := k.interrupts_cli
      have hfree₁ : ∀ l' ∉ insert l held, k₁.locked l' = false := by
        intro l' hl'
        obtain ⟨hne, hheld⟩ := not_or.mp hl'
        exact (Function.update_of_ne hne _ _).trans (hfree l' hheld)
      obtain ⟨k₂, visited, hexec, h⟩ := ih (d := d + 1) hp hfree₁ fun _ => hk₁
      let k₃ : LockState ι := { k₂ with locked := Function.update k₂.locked l false }
      have hlocked : k₃.locked = k.locked := by
        show Function.update k₂.locked l false = k.locked
        rw [h.locked, Function.update_idem, ← hl, Function.update_eq_self]
      have hexec' : (locked l p).exec d k = some (k₃.restored (readFlags k.rflags),
          (d + 1, k₁) :: visited ++ [(d + 1, k₂)]) := by
        simp only [exec, LockState.lockSpinlock_free hl, Option.bind_eq_bind, Option.bind_some]
        rw [hexec]
        simp only [Option.bind_some, LockState.unlockSpinlock_read, k₃, k₁]
      exact ⟨_, _, hexec', clear_section hk₁ h, (k₃.locked_restored _).trans hlocked,
        LockState.interrupts_restored (h.interrupts.trans hk₁)⟩
  | masked p ih =>
      have hk₁ : k.cli.interrupts = false := k.interrupts_cli
      obtain ⟨k₂, visited, hexec, h⟩ := ih (d := d + 1) (k := k.cli) hp hfree fun _ => hk₁
      have hexec' : (masked p).exec d k = some (k₂.restored (readFlags k.rflags),
          (d + 1, k.cli) :: visited ++ [(d + 1, k₂)]) := by
        simp only [exec, LockState.disableInterrupts, hexec, Option.bind_eq_bind, Option.bind_some,
          LockState.restoreInterrupts_read]
      exact ⟨_, _, hexec', clear_section hk₁ h, (k₂.locked_restored _).trans h.locked,
        LockState.interrupts_restored (h.interrupts.trans hk₁)⟩

end Prog

/-- **Critical sections restore what they found.** -/
theorem critical_sections_restore [DecidableEq ι] (p : Prog ι) (hp : p.Nested ∅)
    (k : LockState ι) (hfree : ∀ l, k.locked l = false) :
    ∃ k' visited, p.exec 0 k = some (k', visited) ∧
      (∀ x ∈ visited, 0 < x.1 → x.2.interrupts = false) ∧ (∀ l, k'.locked l = false) ∧
      k'.interrupts = k.interrupts := by
  obtain ⟨k', visited, hexec, h⟩ := p.exec_spec hp (fun l _ => hfree l) (absurd · (lt_irrefl 0))
  exact ⟨k', visited, hexec, h.clear, fun l => h.locked ▸ hfree l, h.interrupts⟩

/-- Two locks, with interrupts disabled once more between them. -/
theorem two_locks_restore : ∃ k' visited,
    (Prog.locked true (.masked (.locked false (.body ⟨id, fun _ => rfl⟩)))).exec 0
      ⟨0x202, fun _ => false⟩ = some (k', visited) ∧
    (∀ x ∈ visited, 0 < x.1 → x.2.interrupts = false) ∧ k'.interrupts = true := by
  obtain ⟨k', visited, hexec, hclear, -, hinterrupts⟩ := critical_sections_restore
    (.locked true (.masked (.locked false (.body ⟨id, fun _ => rfl⟩)))) (by simp [Prog.Nested])
    ⟨0x202, fun _ => false⟩ (fun _ => rfl)
  exact ⟨k', visited, hexec, hclear, hinterrupts⟩

end Uacpi

end Titanium
