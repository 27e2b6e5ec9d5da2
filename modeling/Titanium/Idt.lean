import Titanium.Lib.BitField
import Titanium.Scheduler.Machine

/-!
The interrupt descriptor table and its handlers (`idt.rs`, with the naked
functions of `hdint.rs` and `hdint/pit.rs`).

A handler is a list of instructions.  The Rust functions that the wrappers call
are not given: they may do whatever the System V calling convention allows
(`Allowed`).  `TIMER_COUNTER` and `TIMER_FLAGS` do not lie on stacks, so they are
fields of the processor's state.

* `init_installs`: `idt::init` returns, and every vector it sets leads to the
  handler it was set to.
* `run_lapicClkInterrupt`, `run_pitInterrupt`: what the two handlers without a
  Rust part do.
* `handlers_preserve_iff`: **these two are the only ones that leave the registers
  of the interrupted code as they were**.
-/

namespace Titanium

namespace Idt

/-! ### Vectors -/

/-- `IRQ_LAPIC_CLK`. -/
def irqLapicClk : BitVec 8 := 0x32

/-- `IRQ_PIT`. -/
def irqPit : BitVec 8 := 0x33

/-- `IRQ_RTC`. -/
def irqRtc : BitVec 8 := 0x34

/-- `IRQ_HPET`. -/
def irqHpet : BitVec 8 := 0x35

/-! ### Handlers -/

/-- The Rust functions that handlers call. -/
inductive RustFn where
  | breakpointHandler | invOpcodeHandler | doubleFaultHandler | tssInvHandler | snpHandler
  | ssFaultHandler | gpFaultHandler | pageFaultHandler | rtcInterrupt | hpetInterrupt
  deriving DecidableEq, Repr

/-- The instructions that the handlers use. -/
inductive Op where
  | push (r : Reg)
  | pushf
  | pop (r : Reg)
  | popf
  /-- `mov r, rsp`. -/
  | movRsp (r : Reg)
  | movImm (r : Reg) (w : Word)
  | add (a b : Reg)
  /-- `mov r, TIMER_COUNTER`. -/
  | loadTimer (r : Reg)
  /-- `mov TIMER_COUNTER, r`. -/
  | storeTimer (r : Reg)
  /-- `lock and byte ptr TIMER_FLAGS, mask`. -/
  | andFlags (mask : BitVec 8)
  /-- `movabs [LAPIC_EOI_ADDR], r`. -/
  | storeEoi (r : Reg)
  | call (f : RustFn)
  | iretq
  deriving DecidableEq, Repr

/-- What the table can be set to: `handler!`, `handler_from_lapic!` and
`handler_with_ec!` of a Rust function, and the two naked functions. -/
inductive Handler where
  | handler (f : RustFn)
  | handlerFromLapic (f : RustFn)
  | handlerWithEc (f : RustFn)
  | lapicClkInterrupt
  | pitInterrupt
  deriving DecidableEq, Repr

/-- `PIT_INTERVAL`: the microseconds between two interrupts, with 24 fractional bits. -/
def pitInterval : ℕ := 0x1f6db68b1

/-- The assembly of a handler. -/
def Handler.code : Handler → List Op
  | handler f => [.movRsp .rdi, .call f, .iretq]
  | handlerFromLapic f => [.movRsp .rdi, .call f, .movImm .rax 0, .storeEoi .rax, .iretq]
  | handlerWithEc f => [.pop .rsi, .movRsp .rdi, .call f, .iretq]
  | lapicClkInterrupt =>
      [.push .rax, .andFlags (~~~0x1), .movImm .rax 0, .storeEoi .rax, .pop .rax, .iretq]
  | pitInterrupt =>
      [.push .rax, .push .rbx, .pushf, .loadTimer .rax, .movImm .rbx (.ofNat 64 pitInterval),
        .add .rax .rbx, .storeTimer .rax, .movImm .rax 0, .storeEoi .rax, .popf, .pop .rbx,
        .pop .rax, .iretq]

/-! ### The processor -/

/-- The processor in a handler, with the statics that handlers use. -/
structure Cpu where
  reg : Reg → Word
  rsp : Word
  rflags : Word
  mem : Mem
  /-- `TIMER_COUNTER`. -/
  timerCounter : Word
  /-- `TIMER_FLAGS`. -/
  timerFlags : BitVec 8
  /-- The interrupt has not been acknowledged. -/
  inService : Bool

namespace Cpu

def push (c : Cpu) (w : Word) : Cpu := { c with rsp := c.rsp - 8, mem := c.mem.store (c.rsp - 8) w }

def set (c : Cpu) (r : Reg) (w : Word) : Cpu := { c with reg := Function.update c.reg r w }

/-- One instruction that stays in the handler. -/
def exec (c : Cpu) : Op → Cpu
  | .push r => c.push (c.reg r)
  | .pushf => c.push c.rflags
  | .pop r => { c with rsp := c.rsp + 8 }.set r (c.mem.load c.rsp)
  | .popf => { c with rsp := c.rsp + 8, rflags := c.mem.load c.rsp }
  | .movRsp r => c.set r c.rsp
  | .movImm r w => c.set r w
  | .add a b =>
      { c with rflags := c.rflags.addFlags (c.reg a) (c.reg b) }.set a (c.reg a + c.reg b)
  | .loadTimer r => c.set r c.timerCounter
  | .storeTimer r => { c with timerCounter := c.reg r }
  | .andFlags mask => { c with timerFlags := c.timerFlags &&& mask }
  | .storeEoi _ => { c with inService := false }
  | .call _ | .iretq => c

end Cpu

/-- What the Rust functions do, up to their return. -/
abbrev Rust := RustFn → Cpu → Option Cpu

/-- From the entry of a handler to its `iretq`. -/
def run (rust : Rust) : List Op → Cpu → Option Cpu
  | [], _ => none
  | .iretq :: _, c => some c
  | .call f :: ops, c => (rust f c).bind (run rust ops)
  | op :: ops, c => run rust ops (c.exec op)

/-- The registers that a function keeps. -/
def calleeSaved : List Reg := [.rbx, .rbp, .r12, .r13, .r14, .r15]

/-- **What the calling convention allows**: the callee-saved registers and the stack pointer are
kept, and everything else may change. -/
def Allowed (rust : Rust) : Prop :=
  ∀ f c c', rust f c = some c' → (∀ r ∈ calleeSaved, c'.reg r = c.reg r) ∧ c'.rsp = c.rsp

/-! ### The table -/

/-- `Options::empty`. -/
def Options.empty : BitVec 16 := 0b111 <<< 9

/-- `Options::new`. -/
def Options.new : BitVec 16 := Options.empty ||| 1 <<< 15

/-- `Options::with_trap`. -/
def Options.withTrap (opts : BitVec 16) (trapped : Bool) : BitVec 16 :=
  opts &&& ~~~(1#16 <<< 8) ||| (if trapped then 1#16 else 0#16) <<< 8

/-- `Options::is_present`. -/
def Options.isPresent (opts : BitVec 16) : Bool := opts &&& 1 <<< 15 != 0

/-- An entry of the table. -/
structure Entry where
  ptrLow : BitVec 16
  gdtSel : BitVec 16
  opts : BitVec 16
  ptrMid : BitVec 16
  ptrTop : BitVec 32

/-- `Entry::empty`. -/
def Entry.empty : Entry := ⟨0, 0, Options.empty, 0, 0⟩

/-- `Entry::new`. -/
def Entry.new (gdtSel : BitVec 16) (ptr : Word) : Entry :=
  ⟨ptr.setWidth 16, gdtSel, Options.new, (ptr >>> 16).setWidth 16, (ptr >>> 32).setWidth 32⟩

/-- Where the processor goes. -/
def Entry.offset (e : Entry) : Word := e.ptrTop ++ (e.ptrMid ++ e.ptrLow)

lemma Entry.offset_new (gdtSel : BitVec 16) (ptr : Word) : (Entry.new gdtSel ptr).offset = ptr := by
  have hlow : (ptr >>> 16).setWidth 16 ++ ptr.setWidth 16 = ptr.setWidth 32 :=
    BitField.append_setWidth ptr 16 16
  have hall : (ptr >>> 32).setWidth 32 ++ ptr.setWidth 32 = ptr.setWidth 64 :=
    BitField.append_setWidth ptr 32 32
  rw [offset, new, hlow, hall, BitVec.setWidth_eq]

/-- The entry after `set_handler(_, handler)`, and `with_trap(trapped)` on the options that it
returns. -/
def Entry.gate (gdtSel : BitVec 16) (handler : Word) : Option Bool → Entry
  | none => Entry.new gdtSel handler
  | some trapped =>
      { Entry.new gdtSel handler with
        opts := Options.withTrap (Entry.new gdtSel handler).opts trapped }

lemma Entry.offset_opts (e : Entry) (opts : BitVec 16) : { e with opts }.offset = e.offset := rfl

lemma Entry.offset_gate (gdtSel : BitVec 16) (handler : Word) (trapped : Option Bool) :
    (Entry.gate gdtSel handler trapped).offset = handler := by
  cases trapped with
  | none => rw [gate, offset_new]
  | some b => rw [gate, offset_opts, offset_new]

lemma Entry.isPresent_gate (gdtSel : BitVec 16) (handler : Word) (trapped : Option Bool) :
    Options.isPresent (Entry.gate gdtSel handler trapped).opts = true := by
  have hnew : Options.isPresent Options.new = true := by decide
  have htrap : ∀ b, Options.isPresent (Options.withTrap Options.new b) = true := by decide
  cases trapped with
  | none => exact hnew
  | some b => exact htrap b

/-- The table. -/
structure InterruptDescriptorTable where
  entries : Fin 64 → Entry

/-- `InterruptDescriptorTable::new`. -/
def InterruptDescriptorTable.new : InterruptDescriptorTable := ⟨fun _ => Entry.empty⟩

/-- `set_handler`, with `with_trap`.  An entry of 64 or more is out of range. -/
def InterruptDescriptorTable.setHandler (t : InterruptDescriptorTable) (gdtSel : BitVec 16)
    (entry : BitVec 8) (handler : Word) (trapped : Option Bool) :
    Option InterruptDescriptorTable :=
  if h : entry.toNat < 64 then
    some ⟨Function.update t.entries ⟨entry.toNat, h⟩ (Entry.gate gdtSel handler trapped)⟩
  else none

/-- Where the handlers lie in memory. -/
structure Handlers where
  addr : Handler → Word
  handlerAt : Word → Option Handler
  handlerAt_addr : ∀ h, handlerAt (addr h) = some h

/-- The naked functions, and the wrappers of the Rust functions behind them, one byte for each. -/
def rowOfHandlers : Handlers where
  addr
    | .lapicClkInterrupt => 0
    | .pitInterrupt => 1
    | .handler f => .ofNat 64 (3 * f.ctorIdx + 2)
    | .handlerFromLapic f => .ofNat 64 (3 * f.ctorIdx + 3)
    | .handlerWithEc f => .ofNat 64 (3 * f.ctorIdx + 4)
  handlerAt w := (.lapicClkInterrupt :: .pitInterrupt ::
    [RustFn.breakpointHandler, .invOpcodeHandler, .doubleFaultHandler, .tssInvHandler, .snpHandler,
      .ssFaultHandler, .gpFaultHandler, .pageFaultHandler, .rtcInterrupt, .hpetInterrupt].flatMap
      fun f => [.handler f, .handlerFromLapic f, .handlerWithEc f])[w.toNat]?
  handlerAt_addr h := by
    rcases h with f | f | f | _ | _
    all_goals first | rfl | cases f <;> rfl

namespace Handlers

variable (I : Handlers)

/-- The handler that the processor enters for a vector. -/
def dispatch (t : InterruptDescriptorTable) (v : BitVec 8) : Option Handler :=
  if h : v.toNat < 64 then
    let e := t.entries ⟨v.toNat, h⟩
    if Options.isPresent e.opts then I.handlerAt e.offset else none
  else none

/-- The calls of `set_handler` in `init`. -/
def installs : List (BitVec 8 × Handler × Option Bool) := [
  (3, .handler .breakpointHandler, some false),
  (6, .handler .invOpcodeHandler, some false),
  (8, .handlerWithEc .doubleFaultHandler, some true),
  (10, .handlerWithEc .tssInvHandler, some true),
  (11, .handlerWithEc .snpHandler, some true),
  (12, .handlerWithEc .ssFaultHandler, some true),
  (13, .handlerWithEc .gpFaultHandler, some true),
  (14, .handlerWithEc .pageFaultHandler, some true),
  (irqLapicClk, .lapicClkInterrupt, none),
  (irqPit, .pitInterrupt, none),
  (irqRtc, .handlerFromLapic .rtcInterrupt, none),
  (irqHpet, .handlerFromLapic .hpetInterrupt, none)]

/-- `idt::init`, with the selector that `CS` holds. -/
def init (cs : BitVec 16) : Option InterruptDescriptorTable :=
  installs.foldlM (fun t x => t.setHandler cs x.1 (I.addr x.2.1) x.2.2) .new

variable {I} in
/-- **A vector leads to what it was set to**, and the others lead where they did. -/
lemma dispatch_setHandler {cs : BitVec 16} {v : BitVec 8} (hv : v.toNat < 64)
    (t : InterruptDescriptorTable) (h : Handler) (trapped : Option Bool) :
    ∃ t', t.setHandler cs v (I.addr h) trapped = some t' ∧
      ∀ u, I.dispatch t' u = if u = v then some h else I.dispatch t u := by
  refine ⟨_, dif_pos hv, fun u => ?_⟩
  by_cases hu : u = v
  · subst hu
    rw [if_pos rfl, dispatch, dif_pos hv]
    simp only [Function.update_self, Entry.isPresent_gate, Entry.offset_gate, if_true,
      I.handlerAt_addr]
  · rw [if_neg hu, dispatch, dispatch]
    by_cases hlt : u.toNat < 64
    · have hne : (⟨u.toNat, hlt⟩ : Fin 64) ≠ ⟨v.toNat, hv⟩ := fun heq =>
        hu (BitVec.eq_of_toNat_eq (Fin.mk.inj heq))
      simp only [dif_pos hlt, Function.update_of_ne hne]
    · simp only [dif_neg hlt]

variable {I} in
/-- Different vectors do not get into each other's way. -/
lemma dispatch_installs {cs : BitVec 16} (xs : List (BitVec 8 × Handler × Option Bool))
    (hlt : ∀ x ∈ xs, x.1.toNat < 64) (hne : (xs.map Prod.fst).Nodup)
    (t : InterruptDescriptorTable) :
    ∃ t', xs.foldlM (fun t x => t.setHandler cs x.1 (I.addr x.2.1) x.2.2) t = some t' ∧
      (∀ x ∈ xs, I.dispatch t' x.1 = some x.2.1) ∧
      ∀ u, u ∉ xs.map Prod.fst → I.dispatch t' u = I.dispatch t u := by
  induction xs generalizing t with
  | nil => exact ⟨t, rfl, by simp, fun _ _ => rfl⟩
  | cons x xs ih =>
      obtain ⟨hx, hxs⟩ := List.forall_mem_cons.mp hlt
      obtain ⟨hnot, hne⟩ := List.nodup_cons.mp hne
      obtain ⟨t₁, h₁, hd₁⟩ := dispatch_setHandler hx t x.2.1 x.2.2
      obtain ⟨t', h', hd', hother⟩ := ih hxs hne t₁
      refine ⟨t', by rw [List.foldlM_cons, h₁]; exact h', List.forall_mem_cons.mpr ⟨?_, hd'⟩,
        fun u hu => ?_⟩
      · rw [hother x.1 hnot, hd₁, if_pos rfl]
      · obtain ⟨hux, hu⟩ := not_or.mp (mt List.mem_cons.mpr hu)
        rw [hother u hu, hd₁, if_neg hux]

/-- **`idt::init` installs its handlers.** -/
lemma init_installs (cs : BitVec 16) :
    ∃ t, I.init cs = some t ∧ ∀ x ∈ installs, I.dispatch t x.1 = some x.2.1 := by
  obtain ⟨t, ht, hall, -⟩ := @dispatch_installs I cs installs (by decide) (by decide) .new
  exact ⟨t, ht, hall⟩

end Handlers

/-! ### Registers at `iretq` -/

/-- The registers and the stack pointer are as they were. -/
structure Kept (c c' : Cpu) : Prop where
  reg : ∀ r, c'.reg r = c.reg r
  rsp : c'.rsp = c.rsp

/-- Whatever the called function does, the handler keeps the registers of the code that it
interrupts. -/
def Preserves (h : Handler) : Prop :=
  ∀ rust, Allowed rust → ∀ c c', run rust h.code c = some c' → Kept c c'

/-- `lapic_clk_interrupt` clears bit 0 of `TIMER_FLAGS`. -/
lemma run_lapicClkInterrupt (rust : Rust) (c : Cpu) :
    ∃ c', run rust Handler.lapicClkInterrupt.code c = some c' ∧ Kept c c' ∧
      c'.timerFlags = c.timerFlags &&& ~~~1 ∧ c'.timerCounter = c.timerCounter ∧
      c'.inService = false := by
  refine ⟨_, rfl, ⟨fun r => ?_, BitVec.sub_add_cancel c.rsp 8⟩, rfl, rfl, rfl⟩
  show Function.update (Function.update c.reg .rax 0) .rax
    ((c.mem.store (c.rsp - 8) (c.reg .rax)).load (c.rsp - 8)) r = c.reg r
  rw [Mem.load_store, Function.update_idem, Function.update_eq_self]

/-- `pit_interrupt` adds `PIT_INTERVAL` to `TIMER_COUNTER`. -/
lemma run_pitInterrupt (rust : Rust) (c : Cpu) :
    ∃ c', run rust Handler.pitInterrupt.code c = some c' ∧ Kept c c' ∧
      c'.timerCounter = c.timerCounter + .ofNat 64 pitInterval ∧ c'.timerFlags = c.timerFlags ∧
      c'.inService = false := by
  have hrbx : c.rsp - 8 - 8 - 8 + 8 = c.rsp - 8 - 8 := BitVec.sub_add_cancel ..
  have hrax : c.rsp - 8 - 8 + 8 = c.rsp - 8 := BitVec.sub_add_cancel ..
  set saved := ((c.mem.store (c.rsp - 8) (c.reg .rax)).store (c.rsp - 8 - 8) (c.reg .rbx)).store
    (c.rsp - 8 - 8 - 8) c.rflags with hsaved
  have hloadBx : saved.load (c.rsp - 8 - 8 - 8 + 8) = c.reg .rbx := by
    rw [hrbx, hsaved, Mem.load_store_of_disjoint (by bv_omega), Mem.load_store]
  have hloadAx : saved.load (c.rsp - 8 - 8 - 8 + 8 + 8) = c.reg .rax := by
    rw [hrbx, hrax, hsaved, Mem.load_store_of_disjoint (by bv_omega),
      Mem.load_store_of_disjoint (by bv_omega), Mem.load_store]
  refine ⟨_, rfl, ⟨fun r => ?_, ?_⟩, rfl, rfl, rfl⟩
  · by_cases hax : r = .rax
    · rw [hax]
      exact hloadAx
    · by_cases hbx : r = .rbx
      · rw [hbx]
        exact hloadBx
      -- no other register is written
      · cases r <;> first | exact absurd rfl hax | exact absurd rfl hbx | rfl
  · show c.rsp - 8 - 8 - 8 + 8 + 8 + 8 = c.rsp
    rw [hrbx, hrax, BitVec.sub_add_cancel]

/-! ### The wrappers -/

/-- The callee-saved registers and the stack pointer are as they were. -/
structure KeptSaved (c c' : Cpu) : Prop where
  reg : ∀ r ∈ calleeSaved, c'.reg r = c.reg r
  rsp : c'.rsp = c.rsp

lemma Kept.saved {c c' : Cpu} (h : Kept c c') : KeptSaved c c' := ⟨fun r _ => h.reg r, h.rsp⟩

lemma KeptSaved.trans {c c₁ c₂ : Cpu} (h₁ : KeptSaved c c₁) (h₂ : KeptSaved c₁ c₂) :
    KeptSaved c c₂ :=
  ⟨fun r hr => (h₂.reg r hr).trans (h₁.reg r hr), h₂.rsp.trans h₁.rsp⟩

/-- A scratch register may be written. -/
lemma keptSaved_set (c : Cpu) {r : Reg} (hr : r ∉ calleeSaved) (w : Word) :
    KeptSaved c (c.set r w) := by
  refine ⟨fun s hs => ?_, rfl⟩
  have hne : s ≠ r := fun h => hr (h ▸ hs)
  exact Function.update_of_ne hne w c.reg

lemma Allowed.saved {rust : Rust} (h : Allowed rust) {f : RustFn} {c c' : Cpu}
    (hf : rust f c = some c') : KeptSaved c c' :=
  ⟨(h f c c' hf).1, (h f c c' hf).2⟩

lemma keptSaved_handler {rust : Rust} (h : Allowed rust) {f : RustFn}
    {c c' : Cpu} (hrun : run rust (Handler.handler f).code c = some c') : KeptSaved c c' := by
  obtain ⟨c₁, hf, heq⟩ := Option.bind_eq_some_iff.mp hrun
  cases heq
  exact (keptSaved_set c (by decide) c.rsp).trans (h.saved hf)

lemma keptSaved_handlerFromLapic {rust : Rust} (h : Allowed rust) {f : RustFn}
    {c c' : Cpu} (hrun : run rust (Handler.handlerFromLapic f).code c = some c') :
    KeptSaved c c' := by
  obtain ⟨c₁, hf, heq⟩ := Option.bind_eq_some_iff.mp hrun
  cases heq
  refine ((keptSaved_set c (by decide) c.rsp).trans (h.saved hf)).trans ?_
  exact ⟨(keptSaved_set c₁ (by decide : Reg.rax ∉ calleeSaved) 0).reg, rfl⟩

/-- Rust functions that change nothing. -/
def quietRust : Rust := fun _ c => some c

lemma allowed_quietRust : Allowed quietRust := by
  intro f c c' h
  cases h
  exact ⟨fun _ _ => rfl, rfl⟩

/-- The processor at the entry of a handler, with the registers zero: the interrupt frame lies at
the top of the first small kernel stack. -/
def zeroCpu : Cpu := ⟨fun _ => 0, 0xffff800000161fd8, 0, fun _ => 0, 0, 0, true⟩

/-- `mov rdi, rsp` is not undone. -/
lemma not_preserves_handler (f : RustFn) : ¬ Preserves (.handler f) := by
  intro h
  have hkept := h quietRust allowed_quietRust zeroCpu _ rfl
  exact absurd (hkept.reg .rdi) (by decide)

lemma not_preserves_handlerFromLapic (f : RustFn) : ¬ Preserves (.handlerFromLapic f) := by
  intro h
  have hkept := h quietRust allowed_quietRust zeroCpu _ rfl
  exact absurd (hkept.reg .rdi) (by decide)

lemma preserves_lapicClkInterrupt : Preserves .lapicClkInterrupt := by
  intro rust _ c c' hrun
  obtain ⟨c₁, h₁, hkept, -⟩ := run_lapicClkInterrupt rust c
  cases hrun.symm.trans h₁
  exact hkept

lemma preserves_pitInterrupt : Preserves .pitInterrupt := by
  intro rust _ c c' hrun
  obtain ⟨c₁, h₁, hkept, -⟩ := run_pitInterrupt rust c
  cases hrun.symm.trans h₁
  exact hkept

/-- What holds of a handler for every behaviour of the functions that it calls. -/
structure Returns (h : Handler) (preserves : Prop) : Prop where
  saved : ∀ rust, Allowed rust → ∀ c c', run rust h.code c = some c' → KeptSaved c c'
  iff : Preserves h ↔ preserves

/-- The vectors whose handlers come back. -/
def returningVectors : List (BitVec 8) := [3, irqLapicClk, irqPit, irqRtc, irqHpet]

/-- **Which handlers keep the registers of the code that they interrupt**: those of the two timers,
which save every register that they use.  All keep the stack pointer and the callee-saved
registers. -/
theorem handlers_preserve_iff (I : Handlers) (cs : BitVec 16) : ∃ t, I.init cs = some t ∧
    ∀ v ∈ returningVectors, ∃ h, I.dispatch t v = some h ∧
      Returns h (v = irqLapicClk ∨ v = irqPit) := by
  obtain ⟨t, ht, hall⟩ := I.init_installs cs
  refine ⟨t, ht, ?_⟩
  have hwrapper : ∀ h (v : BitVec 8), (∀ rust, Allowed rust → ∀ c c', run rust h.code c = some c' →
      KeptSaved c c') → ¬ Preserves h → ¬ (v = irqLapicClk ∨ v = irqPit) →
      Returns h (v = irqLapicClk ∨ v = irqPit) :=
    fun h v hsaved hnot hv => ⟨hsaved, iff_of_false hnot hv⟩
  have hnaked : ∀ h (v : BitVec 8), Preserves h → v = irqLapicClk ∨ v = irqPit →
      Returns h (v = irqLapicClk ∨ v = irqPit) :=
    fun h v hp hv => ⟨fun rust hr c c' hrun => (hp rust hr c c' hrun).saved, iff_of_true hp hv⟩
  intro v hv
  simp only [returningVectors, List.mem_cons, List.not_mem_nil, or_false] at hv
  rcases hv with rfl | rfl | rfl | rfl | rfl
  · exact ⟨_, hall (3, .handler .breakpointHandler, some false) (by decide),
      hwrapper _ _ (fun _ hr _ _ => keptSaved_handler hr) (not_preserves_handler _) (by decide)⟩
  · exact ⟨_, hall (irqLapicClk, .lapicClkInterrupt, none) (by decide),
      hnaked _ _ preserves_lapicClkInterrupt (Or.inl rfl)⟩
  · exact ⟨_, hall (irqPit, .pitInterrupt, none) (by decide),
      hnaked _ _ preserves_pitInterrupt (Or.inr rfl)⟩
  · exact ⟨_, hall (irqRtc, .handlerFromLapic .rtcInterrupt, none) (by decide),
      hwrapper _ _ (fun _ hr _ _ => keptSaved_handlerFromLapic hr)
        (not_preserves_handlerFromLapic _) (by decide)⟩
  · exact ⟨_, hall (irqHpet, .handlerFromLapic .hpetInterrupt, none) (by decide),
      hwrapper _ _ (fun _ hr _ _ => keptSaved_handlerFromLapic hr)
        (not_preserves_handlerFromLapic _) (by decide)⟩

/-- The real time clock interrupts code that has 0 in `rdi`.  It goes on with the stack pointer
there, though `rtc_interrupt` changed nothing. -/
theorem rtc_changes_rdi : ∃ t, rowOfHandlers.init 8 = some t ∧
    rowOfHandlers.dispatch t irqRtc = some (.handlerFromLapic .rtcInterrupt) ∧
    Allowed quietRust ∧
    ∃ c', run quietRust (Handler.handlerFromLapic .rtcInterrupt).code zeroCpu = some c' ∧
      zeroCpu.reg .rdi = 0 ∧ c'.reg .rdi = 0xffff800000161fd8 := by
  obtain ⟨t, ht, hall⟩ := rowOfHandlers.init_installs 8
  exact ⟨t, ht, hall (irqRtc, .handlerFromLapic .rtcInterrupt, none) (by decide),
    allowed_quietRust, _, rfl, rfl, rfl⟩

end Idt

end Titanium
