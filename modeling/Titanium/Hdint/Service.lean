import Titanium.Idt
import Titanium.Lib.InterruptController

/-!
Interrupts and their acknowledgement (`idt.rs`, the handlers of `hdint.rs`, and
`scheduler_preempt` in `scheduler.rs`).

The local APIC holds back an interrupt while another one of its level is in service, and
takes any write to its register `EOI` for the greatest one in service.  So a handler that
did not write it would block all others, and one that wrote it at the wrong time would
end the service of another.  `scheduler_preempt` makes this delicate: its gate leaves
interrupts enabled, and in a task the write is made by the scheduler.

Of the code only what touches the interrupt flag, `CURRENT_TASK_PTR` or `EOI` is kept.

* `Effect`, `Machine.gate`: the handlers.
* `Machine.step`: devices, handlers, and the code that they interrupt.
* `quiet`: a handler has not acknowledged its interrupt, or runs with interrupts disabled.
* `inv_run`: **this holds throughout every run**.
* `interrupts_served`: **handlers do not nest, each ends the service of its own interrupt
  and no other, no interrupt is blocked or lost, and every handler comes to its end**.
-/

namespace Titanium

namespace Service

/-! ### The handlers -/

/-- What matters of an instruction. -/
inductive Effect where
  | plain
  | pushf
  /-- The flags are popped, by `popf` or by `iretq`. -/
  | popf
  | cli
  /-- A store of the scheduler to `CURRENT_TASK_PTR`. -/
  | current
  | eoi
  deriving DecidableEq, Repr

/-- The interrupt flag and the flags on the stack after an instruction. -/
def Effect.flags : Effect → Bool → List Bool → Option (Bool × List Bool)
  | .pushf, interrupts, flags => some (interrupts, interrupts :: flags)
  | .popf, _, [] => none
  | .popf, _, interrupts :: flags => some (interrupts, flags)
  | .cli, _, flags => some (false, flags)
  | _, interrupts, flags => some (interrupts, flags)

/-- The instructions of `idt.rs`, `hdint.rs` and `hdint/pit.rs`.  The Rust functions that handlers
of interrupts call do not touch the flag. -/
def ofOp : Idt.Op → Effect
  | .pushf => .pushf
  | .popf | .iretq => .popf
  | .storeEoi _ => .eoi
  | _ => .plain

/-- The instructions of `scheduler.rs`. -/
def ofInstr : Instr → Effect
  | .push .rflags => .pushf
  | .popfq | .iretq => .popf
  | .cli => .cli
  | .storeCurrent _ => .current
  | .eoi => .eoi
  | _ => .plain

/-- `scheduler_preempt` in a task, up to the call of `resume_scheduler`. -/
def preemptCode : List Effect :=
  ((code .schedulerPreempt).take 32 ++ code .preemptJumpOut).map ofInstr

/-- `scheduler_preempt` in the scheduler. -/
def absorbCode : List Effect :=
  ((code .schedulerPreempt).take 8 ++ (code .schedulerPreempt).drop 32).map ofInstr

/-- `Options::is_trap`. -/
def isTrap (opts : BitVec 16) : Bool := opts &&& 1 <<< 8 != 0

/-- A vector as the local APIC knows it. -/
def vector (irq : BitVec 8) : Fin 256 := irq.toFin

/-- What the processor finds in the table. -/
structure Gate where
  code : List Effect
  /-- The interrupt flag is left as it is. -/
  trap : Bool
  /-- The handler returns to what it interrupted. -/
  returns : Bool
  deriving DecidableEq, Repr

/-- A gate of `idt::init`. -/
def initGate (v : Fin 256) : Option Gate :=
  (Idt.Handlers.installs.find? fun x => vector x.1 = v).map fun x =>
    ⟨x.2.1.code.map ofOp, isTrap (Idt.Entry.gate 0 0 x.2.2).opts, true⟩

/-- The gate of `scheduler_preempt`, by `CURRENT_TASK_PTR`. -/
def preemptGate (isTask : Bool) : Gate :=
  ⟨if isTask then preemptCode else absorbCode, isTrap (Idt.Entry.gate 0 0 (some true)).opts,
    !isTask⟩

/-- The vectors that devices are told to use. -/
def vectors : Finset (Fin 256) :=
  {vector Idt.irqLapicClk, vector Idt.irqPit, vector Idt.irqRtc, vector Idt.irqHpet}

/-- The level of a vector. -/
def level (v : Fin 256) : ℕ := v.val / 16

/-! ### The machine -/

/-- A handler that has not come to its end. -/
structure Frame where
  vector : Fin 256
  rest : List Effect
  /-- The interrupt flags that lie on its stack. -/
  flags : List Bool
  returns : Bool
  deriving DecidableEq, Repr

/-- The processor and its local APIC.  The last four fields are history. -/
structure Machine where
  apic : InterruptController (Fin 256)
  /-- The interrupt flag. -/
  interrupts : Bool
  /-- `start_scheduler` has loaded `scheduler_preempt`. -/
  loaded : Bool
  /-- `CURRENT_TASK_PTR` names a task. -/
  isTask : Bool
  /-- The innermost first. -/
  handlers : List Frame
  requested : Fin 256 → ℕ
  taken : Fin 256 → ℕ
  /-- Requests that came while another one was waiting. -/
  merged : Fin 256 → ℕ
  /-- The writes to `EOI`: by whom, and what they ended. -/
  ended : List (Fin 256 × Finset (Fin 256))

/-- What can happen. -/
inductive Event where
  /-- A device requests an interrupt. -/
  | request (v : Fin 256)
  /-- The processor takes an interrupt. -/
  | take (v : Fin 256)
  /-- The next instruction of the handler. -/
  | cpu
  /-- Other code sets or clears the interrupt flag. -/
  | flag (interrupts : Bool)
  /-- `start_scheduler` loads `scheduler_preempt`. -/
  | load
  /-- `resume_task` or `scheduler_jump_out` sets `CURRENT_TASK_PTR`. -/
  | current (isTask : Bool)
  deriving DecidableEq, Repr

namespace Machine

/-- What the table leads to. -/
def gate (m : Machine) (v : Fin 256) : Option Gate :=
  if m.loaded && v = vector Idt.irqLapicClk then some (preemptGate m.isTask) else initGate v

/-- One instruction of the handler `f`, which goes on or comes to its end. -/
def exec (m : Machine) (f : Frame) (e : Effect) (rest : List Effect) (fs : List Frame) :
    Option Machine :=
  (e.flags m.interrupts f.flags).map fun x => { m with
    apic := if e = .eoi then m.apic.eoi else m.apic
    interrupts := x.1
    isTask := m.isTask && e ≠ .current
    handlers := if rest = [] then fs else { f with rest, flags := x.2 } :: fs
    ended := if e = .eoi then m.ended ++ [(f.vector, m.apic.ended)] else m.ended }

/-- One event, `none` when it cannot happen. -/
def step (m : Machine) : Event → Option Machine
  | .request v =>
      if v ∈ vectors then
        some { m with
          apic := m.apic.request v
          requested := Function.update m.requested v (m.requested v + 1)
          merged := if v ∈ m.apic.irr then Function.update m.merged v (m.merged v + 1)
            else m.merged }
      else none
  | .take v =>
      if m.interrupts = true ∧ m.apic.Accepts level v then
        (m.gate v).map fun g => { m with
          apic := m.apic.accept v
          interrupts := g.trap
          handlers := ⟨v, g.code, [true], g.returns⟩ :: m.handlers
          taken := Function.update m.taken v (m.taken v + 1) }
      else none
  | .cpu =>
      match m.handlers with
      | f :: fs =>
          match f.rest with
          | e :: rest => m.exec f e rest fs
          | [] => none
      | [] => none
  | .flag interrupts => if m.handlers = [] then some { m with interrupts } else none
  | .load =>
      if m.handlers = [] ∧ m.interrupts = false then some { m with loaded := true } else none
  | .current isTask =>
      if m.handlers = [] ∧ m.interrupts = false then some { m with isTask } else none

/-- A run. -/
def run (m : Machine) (es : List Event) : Option Machine := es.foldlM step m

/-- No interrupt is in service; some may be requested. -/
def start (irr : Finset (Fin 256)) (interrupts : Bool) : Machine where
  apic := ⟨irr, ∅⟩
  interrupts
  loaded := false
  isTask := false
  handlers := []
  requested v := if v ∈ irr then 1 else 0
  taken _ := 0
  merged _ := 0
  ended := []

end Machine

/-! ### Handlers by themselves -/

/-- Up to the write to `EOI` the handler is in service, and from there on interrupts are disabled.
It is written once, and the flag at the end is `exit`. -/
def quiet (exit : Bool) : Bool → List Bool → List Effect → Bool
  | interrupts, _, [] => interrupts = exit
  | interrupts, flags, e :: rest => (.eoi ∈ e :: rest || !interrupts) &&
      (e ≠ .eoi || .eoi ∉ rest) &&
      (e.flags interrupts flags).any fun x => quiet exit x.1 x.2 rest

lemma quiet_cons {exit interrupts : Bool} {flags : List Bool} {e : Effect} {rest : List Effect} :
    quiet exit interrupts flags (e :: rest) = true ↔ (.eoi ∈ e :: rest ∨ interrupts = false) ∧
      (e = .eoi → .eoi ∉ rest) ∧
      ∃ x, e.flags interrupts flags = some x ∧ quiet exit x.1 x.2 rest = true := by
  rw [quiet, Bool.and_eq_true, Bool.and_eq_true, Option.any_eq_true, and_assoc]
  simp [imp_iff_not_or]

/-- **All handlers of interrupts are like this**, and `scheduler_preempt` is in both its ways. -/
lemma quiet_initGate {v : Fin 256} (hv : v ∈ vectors) : ∃ g, initGate v = some g ∧
    g.returns = true ∧ .eoi ∈ g.code ∧ quiet g.returns g.trap [true] g.code = true := by
  simp only [vectors, Finset.mem_insert, Finset.mem_singleton] at hv
  obtain rfl | rfl | rfl | rfl := hv
  all_goals exact ⟨_, rfl, rfl, by decide, by decide⟩

lemma quiet_preemptGate (isTask : Bool) : .eoi ∈ (preemptGate isTask).code ∧
    quiet (!isTask) (preemptGate isTask).trap [true] (preemptGate isTask).code = true ∧
    (isTask = true → .current ∈ (preemptGate isTask).code) := by
  revert isTask
  decide

/-! ### The invariant -/

/-- A handler that runs. -/
structure Serving (m : Machine) (f : Frame) : Prop where
  vector : f.vector ∈ vectors
  rest : f.rest ≠ []
  serves : m.apic.Serves level (if .eoi ∈ f.rest then [f.vector] else [])
  quiet : quiet f.returns m.interrupts f.flags f.rest = true
  leaves : f.returns = false → .current ∈ f.rest ∨ m.isTask = false

/-- There is at most one handler, and it is like the above. -/
def Handling (m : Machine) : List Frame → Prop
  | [] => m.apic.Serves level []
  | [f] => Serving m f
  | _ => False

/-- What holds in every run. -/
structure Inv (m : Machine) : Prop where
  irr : m.apic.irr ⊆ vectors
  handling : Handling m m.handlers
  requested : ∀ v, m.requested v = m.taken v + m.merged v + if v ∈ m.apic.irr then 1 else 0
  ended : ∀ x ∈ m.ended, x.2 = {x.1}

variable {m m' : Machine} {f : Frame}

lemma level_monotone : Monotone level := fun _ _ h => Nat.div_le_div_right h

/-- All interrupts of the kernel have the same level. -/
lemma level_eq {v : Fin 256} (hv : v ∈ vectors) : level v = 3 := by
  simp only [vectors, Finset.mem_insert, Finset.mem_singleton] at hv
  obtain rfl | rfl | rfl | rfl := hv
  all_goals rfl

lemma inv_start {irr : Finset (Fin 256)} (h : irr ⊆ vectors) (interrupts : Bool) :
    Inv (.start irr interrupts) where
  irr := h
  handling := ⟨rfl, List.Pairwise.nil⟩
  requested _ := (Nat.zero_add _).symm
  ended _ hx := absurd hx List.not_mem_nil

/-- Another request changes nothing for the handler. -/
lemma Handling.congr {fs : List Frame} (h : Handling m fs) (hisr : m'.apic.isr = m.apic.isr)
    (hinterrupts : m'.interrupts = m.interrupts) (hisTask : m'.isTask = m.isTask) :
    Handling m' fs := by
  have hserves : ∀ {hs}, m.apic.Serves level hs → m'.apic.Serves level hs := fun hs =>
    ⟨hisr.trans hs.isr, hs.nested⟩
  rcases fs with _ | ⟨f, _ | ⟨f', fs⟩⟩
  · exact hserves h
  · have hserving : Serving m f := h
    refine ⟨hserving.vector, hserving.rest, hserves hserving.serves, ?_, ?_⟩
    · rw [hinterrupts]
      exact hserving.quiet
    · rw [hisTask]
      exact hserving.leaves
  · exact h.elim

/-- The flag tells that the handler is in service. -/
lemma Serving.eoi_mem (h : Serving m f) (hinterrupts : m.interrupts = true) : .eoi ∈ f.rest := by
  have hquiet := h.quiet
  cases hrest : f.rest with
  | nil => exact absurd hrest h.rest
  | cons e rest =>
      rw [hrest] at hquiet
      refine (quiet_cons.mp hquiet).1.resolve_right ?_
      simp [hinterrupts]

/-- **An interrupt is only taken outside of handlers.** -/
lemma Inv.handlers_eq_nil (h : Inv m) {v : Fin 256} (hinterrupts : m.interrupts = true)
    (hv : m.apic.Accepts level v) : m.handlers = [] := by
  have hhandling := h.handling
  rcases hfs : m.handlers with _ | ⟨f, _ | ⟨f', fs⟩⟩
  · rfl
  · -- the handler is in service, and the other interrupt has no higher level
    rw [hfs] at hhandling
    have hserving : Serving m f := hhandling
    have hserves := hserving.serves
    rw [if_pos (hserving.eoi_mem hinterrupts)] at hserves
    have hlt : level f.vector < level v :=
      (List.pairwise_cons.mp (hserves.accept hv).nested).1 _ (List.mem_singleton_self _)
    rw [level_eq hserving.vector, level_eq (h.irr hv.1)] at hlt
    exact absurd hlt (lt_irrefl _)
  · rw [hfs] at hhandling
    exact hhandling.elim

/-! ### One instruction of a handler -/

/-- What an instruction of the handler does. -/
structure Executed (m m' : Machine) (f : Frame) (rest : List Effect) : Prop where
  irr : m'.apic.irr = m.apic.irr
  requested : m'.requested = m.requested
  taken : m'.taken = m.taken
  merged : m'.merged = m.merged
  ended : ∀ x ∈ m'.ended, x ∈ m.ended ∨ x.2 = {x.1}
  next : rest ≠ [] →
    ∃ flags, m'.handlers = [{ f with rest, flags }] ∧ Serving m' { f with rest, flags }
  last : rest = [] → m'.handlers = [] ∧ m'.apic.Serves level [] ∧ m'.interrupts = f.returns ∧
    (f.returns = false → m'.isTask = false)

/-- The interrupt is in service until the handler writes `EOI`, which ends it. -/
lemma Serving.exec_serves {e : Effect} {rest : List Effect} (h : Serving m f)
    (hrest : f.rest = e :: rest) (honce : e = .eoi → .eoi ∉ rest) :
    (if e = .eoi then m.apic.eoi else m.apic).Serves level
      (if .eoi ∈ rest then [f.vector] else []) := by
  have hserves := h.serves
  rw [hrest] at hserves
  by_cases he : e = .eoi
  · rw [if_pos (List.mem_cons.mpr (.inl he.symm))] at hserves
    rw [if_pos he, if_neg (honce he)]
    exact hserves.eoi level_monotone
  · have hmem : .eoi ∈ e :: rest ↔ .eoi ∈ rest := by simp [Ne.symm he]
    rw [if_neg he]
    simpa only [hmem] using hserves

/-- **One instruction of a handler.** -/
lemma Serving.exec {e : Effect} {rest : List Effect} (h : Serving m f)
    (hrest : f.rest = e :: rest) :
    ∃ m', m.exec f e rest [] = some m' ∧ Executed m m' f rest := by
  have hquiet := h.quiet
  rw [hrest] at hquiet
  obtain ⟨-, honce, x, hflags, hquiet⟩ := quiet_cons.mp hquiet
  have hserves := h.exec_serves hrest honce
  have hleaves : f.returns = false →
      .current ∈ rest ∨ (m.isTask && decide (e ≠ .current)) = false := by
    intro hreturns
    have hcurrent := h.leaves hreturns
    rw [hrest, List.mem_cons] at hcurrent
    obtain (rfl | hmem) | htask := hcurrent
    · exact .inr (Bool.and_false _)
    · exact .inl hmem
    · rw [htask]
      exact .inr rfl
  refine ⟨_, Option.map_eq_some_iff.mpr ⟨x, hflags, rfl⟩, ⟨?_, rfl, rfl, rfl, ?_, ?_, ?_⟩⟩
  · dsimp only
    split_ifs <;> rfl
  · intro y hy
    by_cases he : e = .eoi
    · simp only [if_pos he, List.mem_append, List.mem_singleton] at hy
      obtain hy | rfl := hy
      · exact .inl hy
      · have hbefore := h.serves
        rw [hrest, if_pos (List.mem_cons.mpr (.inl he.symm))] at hbefore
        exact .inr (hbefore.ended level_monotone)
    · simp only [if_neg he] at hy
      exact .inl hy
  · intro hne
    exact ⟨x.2, if_neg hne, h.vector, hne, hserves, hquiet, hleaves⟩
  · intro hnil
    subst hnil
    refine ⟨rfl, hserves, of_decide_eq_true hquiet, fun hreturns => ?_⟩
    exact (hleaves hreturns).resolve_left List.not_mem_nil

lemma Executed.inv {rest : List Effect} (h : Executed m m' f rest) (hinv : Inv m) : Inv m' := by
  refine ⟨?_, ?_, ?_, ?_⟩
  · rw [h.irr]
    exact hinv.irr
  · by_cases hrest : rest = []
    · obtain ⟨hhandlers, hserves, -⟩ := h.last hrest
      rw [hhandlers]
      exact hserves
    · obtain ⟨flags, hhandlers, hserving⟩ := h.next hrest
      rw [hhandlers]
      exact hserving
  · rw [h.requested, h.taken, h.merged, h.irr]
    exact hinv.requested
  · exact fun x hx => (h.ended x hx).elim (hinv.ended x) id

/-- What the handler does next. -/
lemma Inv.cpu (h : Inv m) (hhandlers : m.handlers = [f]) : ∃ e rest m', f.rest = e :: rest ∧
    m.step .cpu = some m' ∧ Executed m m' f rest := by
  have hhandling := h.handling
  rw [hhandlers] at hhandling
  have hserving : Serving m f := hhandling
  obtain ⟨e, rest, hrest⟩ := List.exists_cons_of_ne_nil hserving.rest
  obtain ⟨m', hexec, hexecuted⟩ := hserving.exec hrest
  refine ⟨e, rest, m', hrest, ?_, hexecuted⟩
  simp only [Machine.step, hhandlers, hrest, hexec]

/-! ### Runs -/

/-- **A handler starts as it should.** -/
lemma Inv.take {v : Fin 256} (h : Inv m) (hinterrupts : m.interrupts = true)
    (hv : m.apic.Accepts level v) : ∃ m', m.step (.take v) = some m' ∧ Inv m' := by
  have hvectors := h.irr hv.1
  have hnil := h.handlers_eq_nil hinterrupts hv
  obtain ⟨g, hgate, heoi, hquiet, hleaves⟩ : ∃ g, m.gate v = some g ∧ .eoi ∈ g.code ∧
      quiet g.returns g.trap [true] g.code = true ∧
      (g.returns = false → .current ∈ g.code) := by
    rw [Machine.gate]
    split_ifs with hload
    · obtain ⟨heoi, hquiet, hcurrent⟩ := quiet_preemptGate m.isTask
      exact ⟨_, rfl, heoi, hquiet, fun hreturns => hcurrent (by simpa [preemptGate] using hreturns)⟩
    · obtain ⟨g, hgate, hreturns, heoi, hquiet⟩ := quiet_initGate hvectors
      exact ⟨g, hgate, heoi, hquiet, fun hfalse => by simp [hreturns] at hfalse⟩
  have hhandling := h.handling
  rw [hnil] at hhandling
  have hserves : m.apic.Serves level [] := hhandling
  refine ⟨_, (if_pos ⟨hinterrupts, hv⟩).trans (Option.map_eq_some_iff.mpr ⟨g, hgate, rfl⟩),
    (Finset.erase_subset _ _).trans h.irr, ?_, fun w => ?_, h.ended⟩
  · rw [hnil]
    refine ⟨hvectors, List.ne_nil_of_mem heoi, ?_, hquiet, fun hreturns => .inl (hleaves hreturns)⟩
    rw [if_pos heoi]
    exact hserves.accept hv
  · have hw := h.requested w
    by_cases hwv : w = v
    · subst hwv
      rw [if_pos hv.1] at hw
      simp only [InterruptController.accept, Function.update_self, Finset.notMem_erase, if_false]
      omega
    · simp only [InterruptController.accept, Function.update_of_ne hwv, Finset.mem_erase, hwv,
        ne_eq, not_false_eq_true, true_and]
      exact hw

lemma Inv.request {v : Fin 256} (h : Inv m) (hstep : m.step (.request v) = some m') : Inv m' := by
  obtain ⟨hv, heq⟩ := Option.ite_none_right_eq_some.mp hstep
  cases heq
  refine ⟨Finset.insert_subset hv h.irr, h.handling.congr rfl rfl rfl, fun w => ?_, h.ended⟩
  have hw := h.requested w
  by_cases hwv : w = v
  · subst hwv
    simp only [InterruptController.request, Function.update_self, Finset.mem_insert_self, if_true]
    split_ifs with hmem
    · rw [if_pos hmem] at hw
      rw [Function.update_self]
      omega
    · rw [if_neg hmem] at hw
      omega
  · have hmerged : (if v ∈ m.apic.irr then Function.update m.merged v (m.merged v + 1)
        else m.merged) w = m.merged w := by
      split_ifs
      · exact Function.update_of_ne hwv _ _
      · rfl
    simp only [InterruptController.request, Function.update_of_ne hwv, Finset.mem_insert, hwv,
      false_or, hmerged]
    exact hw

/-- One event. -/
lemma inv_step {e : Event} (h : Inv m) (hstep : m.step e = some m') : Inv m' := by
  cases e with
  | request v => exact h.request hstep
  | take v =>
      obtain ⟨⟨hinterrupts, hv⟩, -⟩ := Option.ite_none_right_eq_some.mp hstep
      obtain ⟨m₁, hstep₁, hinv⟩ := h.take hinterrupts hv
      cases hstep.symm.trans hstep₁
      exact hinv
  | cpu =>
      have hhandling := h.handling
      rcases hfs : m.handlers with _ | ⟨f, _ | ⟨f', fs⟩⟩
      · simp [Machine.step, hfs] at hstep
      · obtain ⟨e, rest, m₁, -, hstep₁, hexecuted⟩ := h.cpu hfs
        cases hstep.symm.trans hstep₁
        exact hexecuted.inv h
      · rw [hfs] at hhandling
        exact hhandling.elim
  | flag interrupts =>
      obtain ⟨hnil, heq⟩ := Option.ite_none_right_eq_some.mp hstep
      cases heq
      have hhandling := h.handling
      rw [hnil] at hhandling
      refine ⟨h.irr, ?_, h.requested, h.ended⟩
      rw [hnil]
      exact hhandling
  | load =>
      obtain ⟨-, heq⟩ := Option.ite_none_right_eq_some.mp hstep
      cases heq
      exact ⟨h.irr, h.handling.congr rfl rfl rfl, h.requested, h.ended⟩
  | current isTask =>
      obtain ⟨⟨hnil, -⟩, heq⟩ := Option.ite_none_right_eq_some.mp hstep
      cases heq
      have hhandling := h.handling
      rw [hnil] at hhandling
      refine ⟨h.irr, ?_, h.requested, h.ended⟩
      rw [hnil]
      exact hhandling

/-- **Every run.** -/
lemma inv_run {es : List Event} (h : Inv m) (hrun : m.run es = some m') : Inv m' := by
  induction es generalizing m with
  | nil =>
      cases hrun
      exact h
  | cons e es ih =>
      obtain ⟨m₁, hstep, hrest⟩ := Option.bind_eq_some_iff.mp hrun
      exact ih (inv_step h hstep) hrest

/-- **A handler comes to its end**, by as many instructions as are left of it. -/
lemma Inv.finishes {n : ℕ} (h : Inv m) (hhandlers : m.handlers = [f]) (hn : f.rest.length = n) :
    ∃ m', m.run (List.replicate n .cpu) = some m' ∧ m'.handlers = [] ∧ m'.apic.isr = ∅ ∧
      m'.apic.irr = m.apic.irr ∧ m'.interrupts = f.returns ∧
      (f.returns = false → m'.isTask = false) := by
  induction n generalizing m f with
  | zero =>
      obtain ⟨e, rest, -, hrest, -⟩ := h.cpu hhandlers
      rw [hrest] at hn
      exact absurd hn (Nat.succ_ne_zero _)
  | succ n ih =>
      obtain ⟨e, rest, m₁, hrest, hstep, hexecuted⟩ := h.cpu hhandlers
      rw [hrest, List.length_cons, Nat.add_right_cancel_iff] at hn
      rw [List.replicate_succ]
      by_cases hnil : rest = []
      · subst hnil
        obtain rfl : n = 0 := hn.symm
        obtain ⟨hend, hserves, hflag, htask⟩ := hexecuted.last rfl
        exact ⟨m₁, by rw [Machine.run, List.foldlM_cons, hstep]; rfl, hend, hserves.isr,
          hexecuted.irr, hflag, htask⟩
      · obtain ⟨flags, hnext, -⟩ := hexecuted.next hnil
        obtain ⟨m', hrun, hend, hisr, hirr, hflag, htask⟩ := ih (hexecuted.inv h) hnext hn
        refine ⟨m', ?_, hend, hisr, hirr.trans hexecuted.irr, hflag, htask⟩
        rw [Machine.run, List.foldlM_cons, hstep]
        exact hrun

/-- **Interrupts are served.**  Handlers do not nest, although `scheduler_preempt` leaves
interrupts enabled; in service is what the handler has not acknowledged, and nothing else; each
write to `EOI` ends the interrupt of the handler that makes it; every request has been taken, is
waiting, or came while another one was waiting; outside of handlers nothing blocks a request; and a
handler comes to its end, with interrupts enabled again or, out of a task, in the scheduler. -/
theorem interrupts_served {irr : Finset (Fin 256)} (hirr : irr ⊆ vectors) (interrupts : Bool)
    {es : List Event} (hrun : (Machine.start irr interrupts).run es = some m) :
    m.handlers.length ≤ 1 ∧
    (∀ v, v ∈ m.apic.isr ↔ ∃ f ∈ m.handlers, .eoi ∈ f.rest ∧ f.vector = v) ∧
    (∀ x ∈ m.ended, x.2 = {x.1}) ∧
    (∀ v, m.requested v = m.taken v + m.merged v + if v ∈ m.apic.irr then 1 else 0) ∧
    (m.handlers = [] → m.interrupts = true → ∀ v ∈ m.apic.irr,
      ∃ w, v ≤ w ∧ (m.step (.take w)).isSome = true) ∧
    ∀ f ∈ m.handlers, ∃ m', m.run (List.replicate f.rest.length .cpu) = some m' ∧
      m'.handlers = [] ∧ m'.apic.isr = ∅ ∧ m'.apic.irr = m.apic.irr ∧ m'.interrupts = f.returns ∧
      (f.returns = false → m'.isTask = false) := by
  have hinv : Inv m := inv_run (inv_start hirr interrupts) hrun
  have hhandling := hinv.handling
  refine ⟨?_, fun v => ?_, hinv.ended, hinv.requested, fun hnil hinterrupts v hv => ?_,
    fun f hf => ?_⟩
  · rcases hfs : m.handlers with _ | ⟨f, _ | ⟨f', fs⟩⟩
    · exact Nat.zero_le 1
    · exact le_refl 1
    · rw [hfs] at hhandling
      exact hhandling.elim
  · rcases hfs : m.handlers with _ | ⟨f, _ | ⟨f', fs⟩⟩
    · rw [hfs] at hhandling
      have hserves : m.apic.Serves level [] := hhandling
      simp [hserves.isr]
    · rw [hfs] at hhandling
      have hserving : Serving m f := hhandling
      rw [hserving.serves.isr]
      split_ifs with heoi
      · simp [heoi, eq_comm]
      · simp [heoi]
    · rw [hfs] at hhandling
      exact hhandling.elim
  · rw [hnil] at hhandling
    have hserves : m.apic.Serves level [] := hhandling
    obtain ⟨w, hle, hw⟩ := InterruptController.exists_accepts level hserves.isr hv
    obtain ⟨m', hstep, -⟩ := hinv.take hinterrupts hw
    exact ⟨w, hle, Option.isSome_iff_exists.mpr ⟨m', hstep⟩⟩
  · rcases hfs : m.handlers with _ | ⟨g, _ | ⟨g', fs⟩⟩
    · rw [hfs] at hf
      exact absurd hf List.not_mem_nil
    · rw [hfs, List.mem_singleton] at hf
      subst hf
      exact hinv.finishes hfs rfl
    · rw [hfs] at hhandling
      exact hhandling.elim

/-- The interrupt of the timer is taken in a task, and the one of the PIT, which has been served
once, is requested while `scheduler_preempt` still has interrupts enabled. -/
def preemptedRun : List Event :=
  [Event.request (vector Idt.irqPit), .take (vector Idt.irqPit)] ++ List.replicate 13 Event.cpu ++
    [Event.flag false, .load, .current true, .flag true, .request (vector Idt.irqLapicClk),
      .take (vector Idt.irqLapicClk)] ++ List.replicate 5 Event.cpu ++
    [Event.request (vector Idt.irqPit)]

theorem interrupts_served_preempted : ∃ m f m', (Machine.start ∅ true).run preemptedRun = some m ∧
    m.interrupts = true ∧ vector Idt.irqPit ∈ m.apic.irr ∧ m.handlers = [f] ∧
    m.run (List.replicate f.rest.length .cpu) = some m' ∧ m'.handlers = [] ∧ m'.apic.isr = ∅ ∧
    m'.interrupts = f.returns := by
  have heval : ((Machine.start ∅ true).run preemptedRun).any (fun m =>
      m.interrupts = true ∧ vector Idt.irqPit ∈ m.apic.irr ∧ m.handlers.length = 1) = true := by
    decide +kernel
  simp only [Option.any_eq_true, decide_eq_true_eq] at heval
  obtain ⟨m, hrun, hinterrupts, hpending, hlength⟩ := heval
  obtain ⟨f, hf⟩ := List.length_eq_one_iff.mp hlength
  obtain ⟨-, -, -, -, -, hends⟩ := interrupts_served (Finset.empty_subset _) true hrun
  obtain ⟨m', hrun', hend, hisr, -, hflag, -⟩ := hends f (hf ▸ List.mem_singleton_self f)
  exact ⟨m, f, m', hrun, hinterrupts, hpending, hf, hrun', hend, hisr, hflag⟩

end Service

end Titanium
