import Titanium.Idt
import Titanium.Lib.BitField
import Titanium.Lib.Checked
import Titanium.Paging.Allocator

/-!
The redirection table of the IOAPIC (`hdint.rs`).

The device is an index register and a file of data registers.  Entry `i` of the
table is the pair of registers from `0x10 + 2 * i` on; register numbers have eight
bits, so indices that differ by 128 are the same pin.

* `getEntry_eq_some`, `setEntry_eq_some`: what reading and writing an entry does.
* `call_eq_some`: a call replaces the entry that it addresses.
* `isMasked_calls`: the mask after a sequence of calls is that of the last request.
* `masking_iff`: **`disable_pit` is the call that does not do what it asks for**.
-/

namespace Titanium

namespace Hdint

open Idt (irqPit irqRtc irqHpet)

/-! ### Redirection entries -/

/-- `RedirectionEntry`. -/
abbrev RedirectionEntry := BitVec 64

namespace RedirectionEntry

/-- `is_masked`. -/
def isMasked (e : RedirectionEntry) : Bool := BitField.bit e 16

/-- `set_mask`. -/
def setMask (e : RedirectionEntry) (b : Bool) : RedirectionEntry := BitField.setBit e 16 b

/-- `set_vector`. -/
def setVector (e : RedirectionEntry) (v : BitVec 8) : RedirectionEntry :=
  BitField.setBitRange e 7 0 (v.setWidth 64)

/-- `set_active_low`. -/
def setActiveLow (e : RedirectionEntry) (b : Bool) : RedirectionEntry := BitField.setBit e 13 b

/-- `set_level_triggered`. -/
def setLevelTriggered (e : RedirectionEntry) (b : Bool) : RedirectionEntry :=
  BitField.setBit e 15 b

lemma isMasked_eq (e : RedirectionEntry) : e.isMasked = e.getLsbD 16 :=
  BitField.bit_eq (by decide) e

lemma getLsbD_setMask (e : RedirectionEntry) (b : Bool) (j : ℕ) :
    (e.setMask b).getLsbD j = if j = 16 then b else e.getLsbD j :=
  BitField.getLsbD_setBit (by decide) e b j

lemma getLsbD_setVector (e : RedirectionEntry) (v : BitVec 8) {j : ℕ} (hj : 8 ≤ j) :
    (e.setVector v).getLsbD j = e.getLsbD j :=
  (BitField.getLsbD_setBitRange (by decide) e 0 _ j).trans (if_neg (by omega))

lemma getLsbD_setActiveLow (e : RedirectionEntry) (b : Bool) {j : ℕ} (hj : j ≠ 13) :
    (e.setActiveLow b).getLsbD j = e.getLsbD j :=
  (BitField.getLsbD_setBit (by decide) e b j).trans (if_neg hj)

lemma getLsbD_setLevelTriggered (e : RedirectionEntry) (b : Bool) {j : ℕ} (hj : j ≠ 15) :
    (e.setLevelTriggered b).getLsbD j = e.getLsbD j :=
  (BitField.getLsbD_setBit (by decide) e b j).trans (if_neg hj)

end RedirectionEntry

/-! ### The registers -/

/-- The device behind the window. -/
structure Device where
  /-- What was last written at the base. -/
  index : BitVec 8
  /-- What is read and written at `base + 0x10`, for each index. -/
  regs : BitVec 8 → BitVec 32

namespace Device

/-- `IOApic::read`. -/
def read (d : Device) (reg : ℕ) : BitVec 32 × Device :=
  (d.regs (.ofNat 8 reg), { d with index := .ofNat 8 reg })

/-- `IOApic::write`. -/
def write (d : Device) (reg : ℕ) (value : BitVec 32) : Device :=
  ⟨.ofNat 8 reg, Function.update d.regs (.ofNat 8 reg) value⟩

/-- `0x10 + index as u32 * 2`. -/
def entryReg (index : ℕ) : Option ℕ := do
  checkedAdd 32 0x10 (← checkedMul 32 (index % 2 ^ 32) 2)

/-- `IOApic::get_entry`. -/
def getEntry (d : Device) (index : ℕ) : Option (RedirectionEntry × Device) := do
  let reg ← entryReg index
  let (botHalf, d) := d.read reg
  let (topHalf, d) := d.read (← checkedAdd 32 reg 1)
  some (topHalf.setWidth 64 <<< 32 ||| botHalf.setWidth 64, d)

/-- `IOApic::set_entry`. -/
def setEntry (d : Device) (index : ℕ) (entry : RedirectionEntry) : Option Device := do
  let botHalf := (entry &&& 0xffff_ffff).setWidth 32
  let topHalf := (entry >>> 32).setWidth 32
  let reg ← entryReg index
  let d := d.write reg botHalf
  some (d.write (← checkedAdd 32 reg 1) topHalf)

/-- `get_entry`, a change, and `set_entry`. -/
def updateEntry (d : Device) (index : ℕ) (f : RedirectionEntry → RedirectionEntry) :
    Option Device := do
  let (entry, d) ← d.getEntry index
  d.setEntry index (f entry)

/-- The register of the lower half of a pin's entry. -/
def lo (pin : ℕ) : BitVec 8 := .ofNat 8 (0x10 + 2 * pin)

lemma lo_eq_iff {p q : ℕ} : lo p = lo q ↔ p % 128 = q % 128 := by
  rw [lo, lo, ← BitVec.toNat_inj, BitVec.toNat_ofNat, BitVec.toNat_ofNat]
  omega

lemma lo_ne_lo_add_one (p q : ℕ) : lo p ≠ lo q + 1 := by
  rw [lo, lo, Ne, ← BitVec.toNat_inj, BitVec.toNat_add, BitVec.toNat_ofNat, BitVec.toNat_ofNat]
  simp
  omega

/-- The redirection entry of a pin. -/
def entry (d : Device) (pin : ℕ) : RedirectionEntry := d.regs (lo pin + 1) ++ d.regs (lo pin)

/-- The device with the entry of a pin replaced. -/
def put (d : Device) (pin : ℕ) (e : RedirectionEntry) : Device where
  index := lo pin + 1
  regs := Function.update (Function.update d.regs (lo pin) (e.setWidth 32)) (lo pin + 1)
    ((e >>> 32).setWidth 32)

/-- Nothing is different but the bits `fields` of the entry of one pin. -/
structure OnlyChanges (d d' : Device) (pin : ℕ) (fields : List ℕ) : Prop where
  other : ∀ q, q % 128 ≠ pin % 128 → d'.entry q = d.entry q
  bits : ∀ j, j ∉ fields → (d'.entry pin).getLsbD j = (d.entry pin).getLsbD j

/-- The indices whose register numbers fit into 32 bits. -/
def InRange (index : ℕ) : Prop := index % 2 ^ 32 < 2 ^ 31 - 8

instance (index : ℕ) : Decidable (InRange index) := inferInstanceAs (Decidable (_ < _))

lemma entry_congr (d : Device) {p q : ℕ} (h : p % 128 = q % 128) : d.entry p = d.entry q := by
  rw [entry, entry, lo_eq_iff.mpr h]

lemma put_congr (d : Device) {p q : ℕ} (h : p % 128 = q % 128) (e : RedirectionEntry) :
    d.put p e = d.put q e := by
  rw [put, put, lo_eq_iff.mpr h]

lemma put_inj {d : Device} {p q : ℕ} {e e' : RedirectionEntry} (h : d.put p e = d.put q e') :
    p % 128 = q % 128 := by
  have hindex : lo p + 1 = lo q + 1 := congrArg Device.index h
  exact lo_eq_iff.mp (by simpa using hindex)

lemma append_halves (e : RedirectionEntry) : (e >>> 32).setWidth 32 ++ e.setWidth 32 = e :=
  (BitField.append_setWidth e 32 32).trans (BitVec.setWidth_eq e)

lemma or_halves (top bot : BitVec 32) :
    top.setWidth 64 <<< 32 ||| bot.setWidth 64 = top ++ bot := by
  refine BitVec.eq_of_getLsbD_eq fun i hi => ?_
  rw [BitVec.getLsbD_append]
  by_cases h : i < 32
  · simp [h, hi]
  · simp [h, hi, BitVec.getLsbD_of_ge bot i (by omega)]

lemma botHalf_eq (e : RedirectionEntry) :
    (e &&& 0xffff_ffff).setWidth 32 = e.setWidth 32 := by
  refine BitVec.eq_of_toNat_eq ?_
  have hmask : BitVec.toNat (0xffff_ffff : RedirectionEntry) = 2 ^ 32 - 1 := rfl
  rw [BitVec.toNat_setWidth, BitVec.toNat_setWidth, BitVec.toNat_and, hmask,
    Nat.and_two_pow_sub_one_eq_mod, Nat.mod_mod]

lemma entry_put (d : Device) (p q : ℕ) (e : RedirectionEntry) :
    (d.put p e).entry q = if q % 128 = p % 128 then e else d.entry q := by
  by_cases h : q % 128 = p % 128
  · rw [if_pos h, entry_congr _ h, entry, put]
    simp only [Function.update_self, Function.update_of_ne (lo_ne_lo_add_one p p)]
    exact append_halves e
  · have hlo : lo q ≠ lo p := fun heq => h (lo_eq_iff.mp heq)
    have hhi : lo q + 1 ≠ lo p + 1 := by simpa using hlo
    rw [if_neg h, entry, put, entry]
    simp only [Function.update_of_ne hhi, Function.update_of_ne (lo_ne_lo_add_one p q).symm,
      Function.update_of_ne (lo_ne_lo_add_one q p), Function.update_of_ne hlo]

lemma put_entry_regs (d : Device) (p : ℕ) : (d.put p (d.entry p)).regs = d.regs := by
  have hbot : (d.entry p).setWidth 32 = d.regs (lo p) := by
    refine BitVec.eq_of_getLsbD_eq fun i hi => ?_
    rw [BitVec.getLsbD_setWidth, entry, BitVec.getLsbD_append]
    simp [hi]
  have htop : ((d.entry p) >>> 32).setWidth 32 = d.regs (lo p + 1) := by
    refine BitVec.eq_of_getLsbD_eq fun i hi => ?_
    rw [BitVec.getLsbD_setWidth, BitVec.getLsbD_ushiftRight, entry, BitVec.getLsbD_append]
    simp [hi]
  rw [put, hbot, htop]
  simp only [Function.update_eq_self]

lemma entryReg_eq_some {i r : ℕ} :
    entryReg i = some r ↔ InRange i ∧ r = 0x10 + i % 2 ^ 32 * 2 := by
  simp only [entryReg, Option.bind_eq_bind, Option.bind_eq_some_iff, checkedMul_eq_some,
    checkedAdd_eq_some, InRange]
  constructor
  · rintro ⟨_, ⟨-, rfl⟩, hlt, rfl⟩
    exact ⟨by omega, rfl⟩
  · rintro ⟨hlt, rfl⟩
    exact ⟨_, ⟨by omega, rfl⟩, by omega, rfl⟩

lemma entryReg_of_inRange {i : ℕ} (h : InRange i) :
    ∃ r, entryReg i = some r ∧ .ofNat 8 r = lo i ∧ checkedAdd 32 r 1 = some (r + 1) := by
  have hlt : i % 2 ^ 32 < 2 ^ 31 - 8 := h
  refine ⟨_, entryReg_eq_some.mpr ⟨h, rfl⟩, ?_, checkedAdd_eq_some.mpr ⟨by omega, rfl⟩⟩
  rw [lo, ← BitVec.toNat_inj, BitVec.toNat_ofNat, BitVec.toNat_ofNat]
  omega

lemma entryReg_of_not_inRange {i : ℕ} (h : ¬ InRange i) : entryReg i = none :=
  Option.eq_none_iff_forall_ne_some.mpr fun _ hr => h (entryReg_eq_some.mp hr).1

lemma ofNat_add_one (r : ℕ) : BitVec.ofNat 8 (r + 1) = .ofNat 8 r + 1 := BitVec.ofNat_add ..

lemma getEntry_of_inRange (d : Device) {i : ℕ} (h : InRange i) :
    d.getEntry i = some (d.entry i, { d with index := lo i + 1 }) := by
  obtain ⟨r, hr, hlo, hadd⟩ := entryReg_of_inRange h
  simp only [getEntry, hr, hadd, Option.bind_eq_bind, Option.bind_some, read, ofNat_add_one, hlo,
    or_halves]
  rfl

lemma setEntry_of_inRange (d : Device) {i : ℕ} (h : InRange i) (e : RedirectionEntry) :
    d.setEntry i e = some (d.put i e) := by
  obtain ⟨r, hr, hlo, hadd⟩ := entryReg_of_inRange h
  simp only [setEntry, hr, hadd, Option.bind_eq_bind, Option.bind_some, write, ofNat_add_one, hlo,
    botHalf_eq]
  rfl

lemma getEntry_eq_some {d d' : Device} {i : ℕ} {e : RedirectionEntry} :
    d.getEntry i = some (e, d') ↔
      InRange i ∧ e = d.entry i ∧ d' = { d with index := lo i + 1 } := by
  by_cases h : InRange i
  · rw [d.getEntry_of_inRange h, Option.some.injEq, Prod.mk.injEq]
    exact ⟨fun heq => ⟨h, heq.1.symm, heq.2.symm⟩, fun heq => ⟨heq.2.1.symm, heq.2.2.symm⟩⟩
  · rw [getEntry, entryReg_of_not_inRange h]
    simp [h]

lemma setEntry_eq_some {d d' : Device} {i : ℕ} {e : RedirectionEntry} :
    d.setEntry i e = some d' ↔ InRange i ∧ d' = d.put i e := by
  by_cases h : InRange i
  · rw [d.setEntry_of_inRange h, Option.some.injEq]
    exact ⟨fun heq => ⟨h, heq.symm⟩, fun heq => heq.2.symm⟩
  · rw [setEntry, entryReg_of_not_inRange h]
    simp [h]

/-- What was written is read. -/
lemma getEntry_setEntry {d d' : Device} {i : ℕ} {e : RedirectionEntry}
    (h : d.setEntry i e = some d') :
    ∃ d'', d'.getEntry i = some (e, d'') ∧ d''.regs = d'.regs := by
  obtain ⟨hin, rfl⟩ := setEntry_eq_some.mp h
  refine ⟨_, getEntry_eq_some.mpr ⟨hin, ?_, rfl⟩, rfl⟩
  rw [entry_put, if_pos rfl]

/-- Writing back what was read changes nothing. -/
lemma setEntry_getEntry {d d' : Device} {i : ℕ} {e : RedirectionEntry}
    (h : d.getEntry i = some (e, d')) :
    ∃ d'', d'.setEntry i e = some d'' ∧ d''.regs = d.regs := by
  obtain ⟨hin, rfl, rfl⟩ := getEntry_eq_some.mp h
  exact ⟨_, setEntry_eq_some.mpr ⟨hin, rfl⟩, put_entry_regs d i⟩

lemma updateEntry_eq_some {d d' : Device} {i : ℕ} {f : RedirectionEntry → RedirectionEntry} :
    d.updateEntry i f = some d' ↔ InRange i ∧ d' = d.put i (f (d.entry i)) := by
  constructor
  · intro h
    obtain ⟨⟨e, d₁⟩, hget, hset⟩ := Option.bind_eq_some_iff.mp h
    obtain ⟨hin, rfl, rfl⟩ := getEntry_eq_some.mp hget
    exact setEntry_eq_some.mp hset
  · rintro ⟨hin, rfl⟩
    exact Option.bind_eq_some_iff.mpr
      ⟨_, getEntry_eq_some.mpr ⟨hin, rfl, rfl⟩, setEntry_eq_some.mpr ⟨hin, rfl⟩⟩

end Device

/-! ### Overrides -/

/-- `ApicIRQPolarity`. -/
inductive ApicIRQPolarity where
  | noOverride | activeHi | reserved | activeLo
  deriving DecidableEq, Repr

/-- `ApicIRQTrigger`. -/
inductive ApicIRQTrigger where
  | noOverride | edge | reserved | level
  deriving DecidableEq, Repr

/-- `ApicIRQFlags::polarity`. -/
def polarity (flags : BitVec 16) : ApicIRQPolarity :=
  match (flags >>> 0 &&& 0b11).toNat with
  | 0b00 => .noOverride
  | 0b01 => .activeHi
  | 0b10 => .reserved
  | _ => .activeLo

/-- `ApicIRQFlags::trigger`. -/
def trigger (flags : BitVec 16) : ApicIRQTrigger :=
  match (flags >>> 2 &&& 0b11).toNat with
  | 0b00 => .noOverride
  | 0b01 => .edge
  | 0b10 => .reserved
  | _ => .level

/-- What `register_override` reads of an `IOApicOverrideEntry`. -/
structure IOApicOverrideEntry where
  irqSource : BitVec 8
  gsi : BitVec 32
  flags : BitVec 16
  deriving DecidableEq, Repr

/-- The `match` on the polarity. -/
def ApicIRQPolarity.set (redentry : RedirectionEntry) : ApicIRQPolarity → Option RedirectionEntry
  | noOverride => some redentry
  | activeLo => some (redentry.setActiveLow true)
  | activeHi => some (redentry.setActiveLow false)
  | reserved => none

/-- The `match` on the trigger mode. -/
def ApicIRQTrigger.set (redentry : RedirectionEntry) : ApicIRQTrigger → Option RedirectionEntry
  | noOverride => some redentry
  | level => some (redentry.setLevelTriggered true)
  | edge => some (redentry.setLevelTriggered false)
  | reserved => none

lemma ApicIRQPolarity.getLsbD_set {q : ApicIRQPolarity} {e e' : RedirectionEntry}
    (h : q.set e = some e') {j : ℕ} (hj : q ≠ noOverride → j ≠ 13) :
    e'.getLsbD j = e.getLsbD j := by
  cases q with
  | noOverride => rw [Option.some.inj h]
  | activeHi => exact Option.some.inj h ▸ e.getLsbD_setActiveLow _ (hj (by decide))
  | reserved => cases h
  | activeLo => exact Option.some.inj h ▸ e.getLsbD_setActiveLow _ (hj (by decide))

lemma ApicIRQTrigger.getLsbD_set {q : ApicIRQTrigger} {e e' : RedirectionEntry}
    (h : q.set e = some e') {j : ℕ} (hj : q ≠ noOverride → j ≠ 15) :
    e'.getLsbD j = e.getLsbD j := by
  cases q with
  | noOverride => rw [Option.some.inj h]
  | edge => exact Option.some.inj h ▸ e.getLsbD_setLevelTriggered _ (hj (by decide))
  | reserved => cases h
  | level => exact Option.some.inj h ▸ e.getLsbD_setLevelTriggered _ (hj (by decide))

/-! ### `IOApic` -/

/-- `IOApic`. -/
structure IOApic where
  id : BitVec 8
  interruptBase : BitVec 32
  base : ℕ
  irqs : Fin 32 → ℕ

namespace IOApic

/-- The end of `IOApic::new`: every `irqs[i]` is set to `i`. -/
def init (id : BitVec 8) (interruptBase : BitVec 32) (base : ℕ) : IOApic :=
  (List.finRange 32).foldl (fun a i => { a with irqs := Function.update a.irqs i i })
    ⟨id, interruptBase, base, fun _ => 0⟩

/-- The loop of `IOApic::new`. -/
lemma init_foldl (is : List (Fin 32)) (a : IOApic) :
    is.foldl (fun a i => { a with irqs := Function.update a.irqs i i }) a =
      { a with irqs := fun k => if k ∈ is then k.val else a.irqs k } := by
  induction is generalizing a with
  | nil => rfl
  | cons i is ih =>
      rw [List.foldl_cons, ih]
      congr 1
      funext k
      by_cases hk : k = i
      · subst hk
        simp
      · simp [hk]

/-- Every interrupt has its own number. -/
lemma init_eq (id : BitVec 8) (b : BitVec 32) (base : ℕ) :
    init id b base = ⟨id, b, base, fun k => k⟩ := by
  rw [init, init_foldl]
  simp only [List.mem_finRange, if_true]

/-- An index into `irqs`. -/
def irqIndex (i : ℕ) : Option (Fin 32) := if h : i < 32 then some ⟨i, h⟩ else none

/-- `register_override`. -/
def registerOverride (a : IOApic) (d : Device) (ovr : IOApicOverrideEntry) :
    Option (IOApic × Device) := do
  let source ← irqIndex ovr.irqSource.toNat
  let a := { a with irqs := Function.update a.irqs source ovr.gsi.toNat }
  let (redentry, d) ← d.getEntry ovr.gsi.toNat
  let redentry ← (polarity ovr.flags).set redentry
  let redentry ← (trigger ovr.flags).set redentry
  let d ← d.setEntry ovr.gsi.toNat redentry
  some (a, d)

/-- `GLOBAL_PIT`. -/
def globalPit : Fin 32 := 0

/-- `GLOBAL_RTC`. -/
def globalRtc : Fin 32 := 8

/-- `enable_pit`. -/
def enablePit (a : IOApic) (d : Device) : Option Device :=
  d.updateEntry (a.irqs globalPit) fun entry => (entry.setMask false).setVector irqPit

/-- `disable_pit`. -/
def disablePit (a : IOApic) (d : Device) : Option Device :=
  d.updateEntry (a.irqs globalPit) fun entry => entry.setMask false

/-- `enable_rtc`. -/
def enableRtc (a : IOApic) (d : Device) : Option Device :=
  d.updateEntry (a.irqs globalRtc) fun entry => (entry.setMask false).setVector irqRtc

/-- `init_hpet`, with the interrupts that timer 0 can be routed to. -/
def initHpet (a : IOApic) (d : Device) (irqCapabilities : BitVec 32) : Option Device := do
  let onIrq ← irqIndex (← lowestOne irqCapabilities.toNat)
  d.updateEntry (a.irqs onIrq) fun entry => (entry.setMask true).setVector irqHpet

end IOApic

/-! ### Calls -/

/-- The calls that reach the redirection table. -/
inductive Call where
  | enablePit
  | disablePit
  | enableRtc
  | initHpet (irqCapabilities : BitVec 32)
  | registerOverride (ovr : IOApicOverrideEntry)
  deriving DecidableEq, Repr

/-- One call. -/
def call : IOApic × Device → Call → Option (IOApic × Device)
  | (a, d), .enablePit => (a.enablePit d).map (a, ·)
  | (a, d), .disablePit => (a.disablePit d).map (a, ·)
  | (a, d), .enableRtc => (a.enableRtc d).map (a, ·)
  | (a, d), .initHpet caps => (a.initHpet d caps).map (a, ·)
  | (a, d), .registerOverride ovr => a.registerOverride d ovr

/-- A sequence of calls. -/
def calls (s : IOApic × Device) (cs : List Call) : Option (IOApic × Device) := cs.foldlM call s

namespace Call

/-- The interrupt that a call enables or disables. -/
def irq : Call → Option (Fin 32)
  | enablePit | disablePit => some IOApic.globalPit
  | enableRtc => some IOApic.globalRtc
  | initHpet caps => do IOApic.irqIndex (← lowestOne caps.toNat)
  | registerOverride _ => none

/-- The index of the entry that a call reads and writes. -/
def index (a : IOApic) : Call → Option ℕ
  | registerOverride ovr => some ovr.gsi.toNat
  | c => c.irq.map a.irqs

/-- What a call does to the entry. -/
def update : Call → RedirectionEntry → Option RedirectionEntry
  | enablePit, e => some ((e.setMask false).setVector irqPit)
  | disablePit, e => some (e.setMask false)
  | enableRtc, e => some ((e.setMask false).setVector irqRtc)
  | initHpet _, e => some ((e.setMask true).setVector irqHpet)
  | registerOverride ovr, e => (polarity ovr.flags).set e >>= (trigger ovr.flags).set

/-- The bits that a call sets: 16 is the mask, 7 to 0 are the vector, 13 is the polarity and 15 the
trigger mode. -/
def fields : Call → List ℕ
  | disablePit => [16]
  | enablePit | enableRtc | initHpet _ => 16 :: List.range 8
  | registerOverride ovr =>
      (if polarity ovr.flags = .noOverride then [] else [13]) ++
        if trigger ovr.flags = .noOverride then [] else [15]

/-- The table of interrupts after a call. -/
def irqs (a : IOApic) : Call → Option IOApic
  | registerOverride ovr =>
      (IOApic.irqIndex ovr.irqSource.toNat).map fun source =>
        { a with irqs := Function.update a.irqs source ovr.gsi.toNat }
  | _ => some a

end Call

lemma registerOverride_eq_some {a a' : IOApic} {d d' : Device} {ovr : IOApicOverrideEntry} :
    a.registerOverride d ovr = some (a', d') ↔ ∃ e, Device.InRange ovr.gsi.toNat ∧
      (Call.registerOverride ovr).update (d.entry ovr.gsi.toNat) = some e ∧
      d' = d.put ovr.gsi.toNat e ∧ (Call.registerOverride ovr).irqs a = some a' := by
  constructor
  · intro h
    obtain ⟨source, hsource, h⟩ := Option.bind_eq_some_iff.mp h
    obtain ⟨⟨e, d₁⟩, hget, h⟩ := Option.bind_eq_some_iff.mp h
    obtain ⟨hin, rfl, rfl⟩ := Device.getEntry_eq_some.mp hget
    obtain ⟨e₁, hpolarity, h⟩ := Option.bind_eq_some_iff.mp h
    obtain ⟨e₂, htrigger, h⟩ := Option.bind_eq_some_iff.mp h
    obtain ⟨d₂, hset, h⟩ := Option.bind_eq_some_iff.mp h
    obtain ⟨-, rfl⟩ := Device.setEntry_eq_some.mp hset
    cases h
    exact ⟨e₂, hin, Option.bind_eq_some_iff.mpr ⟨e₁, hpolarity, htrigger⟩, rfl,
      Option.map_eq_some_iff.mpr ⟨source, hsource, rfl⟩⟩
  · rintro ⟨e, hin, hupdate, rfl, hirqs⟩
    obtain ⟨e₁, hpolarity, htrigger⟩ := Option.bind_eq_some_iff.mp hupdate
    obtain ⟨source, hsource, rfl⟩ := Option.map_eq_some_iff.mp hirqs
    simp only [IOApic.registerOverride, hsource, d.getEntry_of_inRange hin, Option.bind_eq_bind,
      Option.bind_some, hpolarity, htrigger, Device.setEntry_of_inRange _ hin]
    rfl

/-- **A call replaces the entry that it addresses**, and changes nothing else of the device. -/
lemma call_eq_some {a a' : IOApic} {d d' : Device} {c : Call} :
    call (a, d) c = some (a', d') ↔ ∃ i e, c.index a = some i ∧ Device.InRange i ∧
      c.update (d.entry i) = some e ∧ d' = d.put i e ∧ c.irqs a = some a' := by
  have hrequest : ∀ (k : Option (Fin 32)) (f : RedirectionEntry → RedirectionEntry),
      (k.bind fun k => d.updateEntry (a.irqs k) f).map (a, ·) = some (a', d') ↔
        ∃ i e, k.map a.irqs = some i ∧ Device.InRange i ∧ some (f (d.entry i)) = some e ∧
          d' = d.put i e ∧ some a = some a' := by
    intro k f
    cases k with
    | none => simp
    | some k =>
        simp only [Option.bind_some, Option.map_eq_some_iff, Device.updateEntry_eq_some,
          Option.map_some, Option.some.injEq, Prod.mk.injEq]
        constructor
        · rintro ⟨_, ⟨hin, rfl⟩, ha, rfl⟩
          exact ⟨_, _, rfl, hin, rfl, rfl, ha⟩
        · rintro ⟨_, _, rfl, hin, rfl, rfl, ha⟩
          exact ⟨_, ⟨hin, rfl⟩, ha, rfl⟩
  cases c with
  | enablePit => exact hrequest (some IOApic.globalPit) _
  | disablePit => exact hrequest (some IOApic.globalPit) _
  | enableRtc => exact hrequest (some IOApic.globalRtc) _
  | initHpet caps =>
      have hbind : a.initHpet d caps = (Call.initHpet caps).irq.bind fun k =>
          d.updateEntry (a.irqs k) fun e => (e.setMask true).setVector irqHpet :=
        (Option.bind_assoc ..).symm
      rw [call, hbind]
      exact hrequest (Call.initHpet caps).irq _
  | registerOverride ovr =>
      rw [call, registerOverride_eq_some]
      constructor
      · rintro ⟨e, h⟩
        exact ⟨_, e, rfl, h⟩
      · rintro ⟨i, e, hindex, h⟩
        cases hindex
        exact ⟨e, h⟩

/-- Only the bits that a call sets are different. -/
lemma Call.getLsbD_update {c : Call} {e e' : RedirectionEntry} (h : c.update e = some e') {j : ℕ}
    (hj : j ∉ c.fields) : e'.getLsbD j = e.getLsbD j := by
  have hrequest : ∀ (b : Bool) (v : BitVec 8), j ∉ 16 :: List.range 8 →
      ((e.setMask b).setVector v).getLsbD j = e.getLsbD j := by
    intro b v hj
    obtain ⟨hmask, hvector⟩ := not_or.mp (mt List.mem_cons.mpr hj)
    rw [RedirectionEntry.getLsbD_setVector _ _ (by simpa using hvector),
      RedirectionEntry.getLsbD_setMask, if_neg hmask]
  cases c with
  | enablePit => exact (Option.some.inj h) ▸ hrequest _ _ hj
  | disablePit =>
      rw [← Option.some.inj h, RedirectionEntry.getLsbD_setMask,
        if_neg (by simpa [fields] using hj)]
  | enableRtc => exact (Option.some.inj h) ▸ hrequest _ _ hj
  | initHpet caps => exact (Option.some.inj h) ▸ hrequest _ _ hj
  | registerOverride ovr =>
      obtain ⟨e₁, hpolarity, htrigger⟩ := Option.bind_eq_some_iff.mp h
      obtain ⟨h13, h15⟩ := not_or.mp (mt List.mem_append.mpr hj)
      rw [ApicIRQTrigger.getLsbD_set htrigger fun hne heq => h15 (by simp [hne, heq]),
        ApicIRQPolarity.getLsbD_set hpolarity fun hne heq => h13 (by simp [hne, heq])]

lemma Call.onlyChanges_put {c : Call} {d : Device} {i : ℕ} {e : RedirectionEntry}
    (h : c.update (d.entry i) = some e) : d.OnlyChanges (d.put i e) i c.fields where
  other q hq := by rw [Device.entry_put, if_neg hq]
  bits j hj := by rw [Device.entry_put, if_pos rfl, Call.getLsbD_update h hj]

/-! ### Masking -/

namespace Call

/-- The mask that a request leaves. -/
def leaves : Call → Option Bool
  | enablePit | disablePit | enableRtc => some false
  | initHpet _ => some true
  | registerOverride _ => none

/-- The call enables or disables the pin. -/
def requests (a : IOApic) (p : ℕ) (c : Call) : Bool :=
  (c.irq.map a.irqs).any fun i => i % 128 == p % 128

end Call

/-- The last call that enables or disables the pin. -/
def lastRequest (p : ℕ) : IOApic × Device → List Call → Option Call
  | _, [] => none
  | s, c :: cs =>
      ((call s c).bind fun s' => lastRequest p s' cs).or (if c.requests s.1 p then some c else none)

lemma Call.isMasked_update {c : Call} {e e' : RedirectionEntry} (h : c.update e = some e') :
    e'.isMasked = c.leaves.getD e.isMasked := by
  have hrequest : ∀ (b : Bool) (v : BitVec 8), ((e.setMask b).setVector v).isMasked = b := by
    intro b v
    rw [RedirectionEntry.isMasked_eq, RedirectionEntry.getLsbD_setVector _ _ (by omega),
      RedirectionEntry.getLsbD_setMask, if_pos rfl]
  cases c with
  | enablePit => exact (Option.some.inj h) ▸ hrequest _ _
  | disablePit =>
      rw [← Option.some.inj h, RedirectionEntry.isMasked_eq, RedirectionEntry.getLsbD_setMask,
        if_pos rfl]
      rfl
  | enableRtc => exact (Option.some.inj h) ▸ hrequest _ _
  | initHpet caps => exact (Option.some.inj h) ▸ hrequest _ _
  | registerOverride ovr =>
      rw [RedirectionEntry.isMasked_eq, Call.getLsbD_update h, RedirectionEntry.isMasked_eq]
      · rfl
      · simp only [fields]
        split_ifs <;> decide

lemma Call.requests_eq {c : Call} {a : IOApic} {i : ℕ} (h : c.index a = some i) (p : ℕ) :
    c.requests a p = (c.leaves.isSome && i % 128 == p % 128) := by
  have hrequest : c.irq.map a.irqs = some i → c.requests a p = (i % 128 == p % 128) := by
    intro hirq
    rw [requests, hirq, Option.any_some]
  cases c with
  | registerOverride ovr => rfl
  | _ => exact hrequest h

lemma isMasked_call {s s' : IOApic × Device} {c : Call} (h : call s c = some s') (p : ℕ) :
    (s'.2.entry p).isMasked = ((if c.requests s.1 p then some c else none).bind Call.leaves).getD
      (s.2.entry p).isMasked := by
  obtain ⟨i, e, hindex, -, hupdate, hput, -⟩ := call_eq_some.mp h
  rw [hput, Device.entry_put, Call.requests_eq hindex]
  by_cases hp : p % 128 = i % 128
  · rw [if_pos hp, Call.isMasked_update hupdate, s.2.entry_congr hp, beq_iff_eq.mpr hp.symm,
      Bool.and_true]
    cases hleaves : c.leaves with
    | none => rfl
    | some b => simp [hleaves]
  · have hne : (i % 128 == p % 128) = false := beq_eq_false_iff_ne.mpr (Ne.symm hp)
    rw [if_neg hp, hne, Bool.and_false]
    rfl

/-- A request leaves a mask that does not depend on the one before. -/
lemma leaves_lastRequest {p : ℕ} {s : IOApic × Device} {cs : List Call} {c : Call}
    (h : lastRequest p s cs = some c) : ∃ b, c.leaves = some b := by
  induction cs generalizing s with
  | nil => cases h
  | cons c₁ cs ih =>
      rcases Option.or_eq_some_iff.mp h with hlater | ⟨-, hnow⟩
      · obtain ⟨s₁, -, hlater⟩ := Option.bind_eq_some_iff.mp hlater
        exact ih hlater
      · obtain ⟨hreq, heq⟩ := Option.ite_none_right_eq_some.mp hnow
        cases heq
        cases c with
        | registerOverride ovr => cases hreq
        | _ => exact ⟨_, rfl⟩

/-- **The mask of a pin is what its last request left.** -/
lemma isMasked_calls {s s' : IOApic × Device} {cs : List Call} (h : calls s cs = some s') (p : ℕ) :
    (s'.2.entry p).isMasked =
      ((lastRequest p s cs).bind Call.leaves).getD (s.2.entry p).isMasked := by
  induction cs generalizing s with
  | nil =>
      cases h
      rfl
  | cons c cs ih =>
      obtain ⟨s₁, hcall, hrest⟩ := Option.bind_eq_some_iff.mp h
      rw [ih hrest, isMasked_call hcall, lastRequest, hcall, Option.bind_some]
      cases hlater : lastRequest p s₁ cs with
      | none => rfl
      | some c' =>
          obtain ⟨b, hb⟩ := leaves_lastRequest hlater
          simp [hb]

/-- **The masks follow the requests, but for `disable_pit`**, which unmasks its pin.  Entries are
read as they were written, and a call changes nothing but the fields that it sets. -/
theorem masking_iff {s s' : IOApic × Device} {cs : List Call} (h : calls s cs = some s') :
    (∀ (d d' : Device) i e, d.setEntry i e = some d' →
      ∃ d'', d'.getEntry i = some (e, d'') ∧ d''.regs = d'.regs) ∧
    (∀ (d d' : Device) i e, d.getEntry i = some (e, d') →
      ∃ d'', d'.setEntry i e = some d'' ∧ d''.regs = d.regs) ∧
    (∀ s c s', call s c = some s' →
      ∃ i, c.index s.1 = some i ∧ s.2.OnlyChanges s'.2 i c.fields) ∧
    ∀ p c, lastRequest p s cs = some c →
      (((s'.2.entry p).isMasked = false ↔ c = .enablePit ∨ c = .enableRtc) ∧
        ((s'.2.entry p).isMasked = true ↔ c = .disablePit ∨ ∃ caps, c = .initHpet caps) ↔
          c ≠ .disablePit) := by
  refine ⟨fun _ _ _ _ hset => Device.getEntry_setEntry hset,
    fun _ _ _ _ hget => Device.setEntry_getEntry hget, fun s c s' hcall => ?_,
    fun p c hlast => ?_⟩
  · obtain ⟨i, e, hindex, -, hupdate, hput, -⟩ := call_eq_some.mp hcall
    exact ⟨i, hindex, hput ▸ Call.onlyChanges_put hupdate⟩
  · obtain ⟨b, hb⟩ := leaves_lastRequest hlast
    have hmask : (s'.2.entry p).isMasked = b := by
      rw [isMasked_calls h, hlast, Option.bind_some, hb, Option.getD_some]
    rw [hmask]
    cases c with
    | registerOverride ovr => cases hb
    | _ =>
        cases hb
        simp

/-- An IOAPIC with pins from 0 on, before any call. -/
def fresh : IOApic × Device := (IOApic.init 0 0 0, ⟨0, fun _ => 0⟩)

/-- The same, with all pins masked as after a reset. -/
def reset : IOApic × Device := (IOApic.init 0 0 0, ⟨0, fun _ => 0x10000⟩)

/-- Pin 8 is shared: an override puts the timer there, the clock is there, and the HPET is routed to
it. -/
def sharedPin : List Call :=
  [.registerOverride ⟨0, 8, 0⟩, .enableRtc, .initHpet 0x100]

theorem enablePit_unmasks : ∃ s s', calls reset sharedPin = some s ∧
    lastRequest 8 reset sharedPin = some (.initHpet 0x100) ∧ (s.2.entry 8).isMasked = true ∧
    calls reset (sharedPin ++ [.enablePit]) = some s' ∧
    lastRequest 8 reset (sharedPin ++ [.enablePit]) = some .enablePit ∧
    (s'.2.entry 8).isMasked = false := by
  refine ⟨_, _, rfl, rfl, ?_, rfl, rfl, ?_⟩
  · exact (((@masking_iff reset _ sharedPin rfl).2.2.2 8 _ rfl).mpr (by decide)).2.mpr
      (Or.inr ⟨0x100, rfl⟩)
  · exact (((@masking_iff reset _ (sharedPin ++ [.enablePit]) rfl).2.2.2 8 _ rfl).mpr
      (by decide)).1.mpr (Or.inl rfl)

/-- After `disable_pit` the timer goes on interrupting. -/
theorem disablePit_unmasks : ∃ s', calls fresh [.enablePit, .disablePit] = some s' ∧
    lastRequest 0 fresh [.enablePit, .disablePit] = some .disablePit ∧
    (s'.2.entry 0).isMasked = false :=
  ⟨_, rfl, rfl, by decide⟩

end Hdint

end Titanium
