import Titanium.Idt
import Titanium.Lib.Uniprocessor

/-!
Handlers that are exchanged while the kernel runs (`load_handler` in `idt.rs`).

An entry is stored field by field, in whatever order the compiler chose, so there are
times at which it is half of the old and half of the new one.  `load_handler` disables
interrupts for that time; exceptions it cannot disable, but it refuses to touch their
vectors.

* `next`: `load_handler`, one store at a time.
* `gateAfter`: the entry of a vector after some calls.
* `loadRule`: what holds of the table while a context is in the middle of a call.
* `handlers_exchanged`: **an interrupt always finds the whole entry that was loaded
  last, an exception the one of `init`, at any time**.
-/

namespace Titanium

namespace LoadHandler

open Idt (Entry InterruptDescriptorTable)
open Uniprocessor

/-! ### The code -/

/-- The fields of an entry. -/
inductive Field where
  | ptrLow
  | gdtSel
  | opts
  | ptrMid
  | ptrTop
  deriving DecidableEq, Repr

/-- A field of `new` is stored in `e`. -/
def Field.copy (new e : Entry) : Field → Entry
  | .ptrLow => { e with ptrLow := new.ptrLow }
  | .gdtSel => { e with gdtSel := new.gdtSel }
  | .opts => { e with opts := new.opts }
  | .ptrMid => { e with ptrMid := new.ptrMid }
  | .ptrTop => { e with ptrTop := new.ptrTop }

/-- A call of `load_handler`. -/
structure Load where
  irq : BitVec 8
  handler : Word
  trapping : Bool
  deriving DecidableEq, Repr

/-- Where a context is in `load_handler`. -/
inductive Point where
  | outside
  /-- The interrupt flag has been read. -/
  | saved (reenable : Bool) (load : Load)
  /-- Interrupts are disabled; these fields are still to be stored. -/
  | storing (reenable : Bool) (load : Load) (rest : List Field)
  | restoring (reenable : Bool)
  deriving DecidableEq, Repr

/-- `IDT`, and the calls that are through with it. -/
structure Loaded where
  table : InterruptDescriptorTable
  loads : List Load

/-- What the running context does. -/
inductive Action where
  | load (load : Load)
  /-- Code outside of `load_handler` enables or disables interrupts. -/
  | flag (interrupts : Bool)
  /-- The next step of `load_handler`. -/
  | next
  deriving DecidableEq, Repr

/-- The table with another entry for a vector, `none` when it has no such vector. -/
def modify (t : InterruptDescriptorTable) (v : BitVec 8) (f : Entry → Entry) :
    Option InterruptDescriptorTable :=
  if h : v.toNat < 64 then
    some ⟨Function.update t.entries ⟨v.toNat, h⟩ (f (t.entries ⟨v.toNat, h⟩))⟩
  else none

section Code

variable (cs : BitVec 16) (order : List Field)

/-- One step of `load_handler`, with the selector that `CS` holds and the order in which the fields
are stored. -/
def next : Action → Point → Bool → Loaded → Option (Point × Bool × Loaded)
  | .load l, .outside, interrupts, s =>
      if 31 < l.irq.toNat then some (.saved interrupts l, interrupts, s) else none
  | .flag interrupts, .outside, _, s => some (.outside, interrupts, s)
  | .next, .saved reenable l, _, s => some (.storing reenable l order, false, s)
  | .next, .storing reenable l (f :: rest), interrupts, s =>
      (modify s.table l.irq fun e => f.copy (Entry.new cs l.handler) e).map fun t =>
        (.storing reenable l rest, interrupts, { s with table := t })
  | .next, .storing reenable l [], interrupts, s =>
      -- `with_trap`
      (modify s.table l.irq fun e => { e with opts := Idt.Options.withTrap e.opts l.trapping }).map
        fun t => (.restoring reenable, interrupts, ⟨t, s.loads ++ [l]⟩)
  | .next, .restoring reenable, interrupts, s =>
      some (.outside, if reenable then true else interrupts, s)
  | _, _, _, _ => none

/-- The code of all contexts. -/
def code : Code Action Point Loaded := ⟨fun p => p = .outside, next cs order⟩

/-- Nobody loads a handler. -/
def start (t : InterruptDescriptorTable) (flags : ℕ → Bool) (interrupts : Bool) :
    Config Point Loaded :=
  ⟨fun _ => .outside, flags, 0, interrupts, ⟨t, []⟩⟩

/-- The entry of a vector after the calls, the last of which counts. -/
def gateAfter (t : InterruptDescriptorTable) (loads : List Load) (v : Fin 64) : Entry :=
  loads.foldl
    (fun e l => if l.irq.toNat = v.val then Entry.gate cs l.handler (some l.trapping) else e)
    (t.entries v)

end Code

variable {cs : BitVec 16} {order : List Field} {t₀ t t' : InterruptDescriptorTable}

lemma gateAfter_concat (loads : List Load) (l : Load) (v : Fin 64) :
    gateAfter cs t₀ (loads ++ [l]) v =
      if l.irq.toNat = v.val then Entry.gate cs l.handler (some l.trapping)
      else gateAfter cs t₀ loads v := by
  rw [gateAfter, List.foldl_append]
  rfl

/-- Calls that are about other vectors. -/
lemma gateAfter_of_ne {loads : List Load} {v : Fin 64} (h : ∀ l ∈ loads, l.irq.toNat ≠ v.val) :
    gateAfter cs t₀ loads v = t₀.entries v := by
  induction loads using List.reverseRecOn with
  | nil => rfl
  | append_singleton loads l ih =>
      rw [gateAfter_concat, if_neg (h l (by simp))]
      exact ih fun l' hl' => h l' (List.mem_append_left _ hl')

lemma entries_modify {v : BitVec 8} {f : Entry → Entry} (h : modify t v f = some t') (u : Fin 64) :
    t'.entries u = if v.toNat = u.val then f (t.entries u) else t.entries u := by
  rw [modify] at h
  split_ifs at h with hv
  cases h
  by_cases hu : v.toNat = u.val
  · obtain rfl : (⟨v.toNat, hv⟩ : Fin 64) = u := Fin.ext hu
    simp
  · have hne : u ≠ ⟨v.toNat, hv⟩ := fun heq => hu (congrArg Fin.val heq).symm
    simp only [if_neg hu, Function.update_of_ne hne]

/-! ### The invariant -/

/-- The field has been stored. -/
def Field.Stored (new e : Entry) : Field → Prop
  | .ptrLow => e.ptrLow = new.ptrLow
  | .gdtSel => e.gdtSel = new.gdtSel
  | .opts => e.opts = new.opts
  | .ptrMid => e.ptrMid = new.ptrMid
  | .ptrTop => e.ptrTop = new.ptrTop

lemma Field.stored_copy {new e : Entry} (f g : Field) (h : g = f ∨ g.Stored new e) :
    g.Stored new (f.copy new e) := by
  cases f <;> cases g <;> simp_all [Field.copy, Field.Stored]

/-- An entry of which all fields have been stored. -/
lemma eq_of_stored {new e : Entry} (h : ∀ f : Field, f.Stored new e) : e = new := by
  have hlow : e.ptrLow = new.ptrLow := h .ptrLow
  have hsel : e.gdtSel = new.gdtSel := h .gdtSel
  have hopts : e.opts = new.opts := h .opts
  have hmid : e.ptrMid = new.ptrMid := h .ptrMid
  have htop : e.ptrTop = new.ptrTop := h .ptrTop
  cases e
  cases new
  subst hlow hsel hopts hmid htop
  rfl

section Invariant

variable (cs : BitVec 16) (t₀ : InterruptDescriptorTable)

/-- Nobody stores: all entries are whole. -/
structure Whole (s : Loaded) : Prop where
  loads : ∀ l ∈ s.loads, 31 < l.irq.toNat
  table : ∀ v, s.table.entries v = gateAfter cs t₀ s.loads v

/-- One entry is being stored. -/
structure Storing (s : Loaded) (l : Load) (rest : List Field) : Prop where
  loads : ∀ l ∈ s.loads, 31 < l.irq.toNat
  irq : 31 < l.irq.toNat
  table : ∀ v : Fin 64, l.irq.toNat ≠ v.val → s.table.entries v = gateAfter cs t₀ s.loads v
  stored : ∀ v : Fin 64, l.irq.toNat = v.val → ∀ f,
    f ∈ rest ∨ f.Stored (Entry.new cs l.handler) (s.table.entries v)

/-- The running context. -/
def Running : Point → Bool → Loaded → Prop
  | .outside, _, s => Whole cs t₀ s
  | .saved reenable l, interrupts, s => interrupts = reenable ∧ 31 < l.irq.toNat ∧ Whole cs t₀ s
  | .storing _ l rest, interrupts, s => interrupts = false ∧ Storing cs t₀ s l rest
  | .restoring _, interrupts, s => interrupts = false ∧ Whole cs t₀ s

/-- A context that waits: it may only have read the interrupt flag, which was set. -/
def Waiting : Point → Bool → Prop
  | .outside, _ => True
  | .saved reenable l, interrupts => reenable = true ∧ interrupts = true ∧ 31 < l.irq.toNat
  | _, _ => False

end Invariant

variable {s : Loaded} {l : Load}

/-- Another field is stored. -/
lemma Storing.store {f : Field} {rest : List Field} (h : Storing cs t₀ s l (f :: rest))
    (ht : modify s.table l.irq (fun e => f.copy (Entry.new cs l.handler) e) = some t) :
    Storing cs t₀ { s with table := t } l rest where
  loads := h.loads
  irq := h.irq
  table v hv := by
    rw [entries_modify ht, if_neg hv, h.table v hv]
  stored v hv g := by
    rw [entries_modify ht, if_pos hv]
    by_cases hg : g ∈ rest
    · exact .inl hg
    · refine .inr (f.stored_copy g ?_)
      rcases h.stored v hv g with hmem | hstored
      · exact .inl ((List.mem_cons.mp hmem).resolve_right hg)
      · exact .inr hstored

/-- **The last step makes the entry whole again.** -/
lemma Storing.whole (h : Storing cs t₀ s l [])
    (ht : modify s.table l.irq
      (fun e => { e with opts := Idt.Options.withTrap e.opts l.trapping }) = some t) :
    Whole cs t₀ ⟨t, s.loads ++ [l]⟩ where
  loads l' hl' := by
    rcases List.mem_append.mp hl' with hl' | hl'
    · exact h.loads l' hl'
    · rw [List.mem_singleton.mp hl']
      exact h.irq
  table v := by
    rw [entries_modify ht, gateAfter_concat]
    split_ifs with hv
    · have hnew := eq_of_stored fun f => (h.stored v hv f).resolve_left List.not_mem_nil
      rw [hnew]
      rfl
    · exact h.table v hv

lemma running_next (hall : ∀ f, f ∈ order) {a : Action} {p p' : Point} {i i' : Bool}
    {s s' : Loaded} (h : Running cs t₀ p i s) (hnext : next cs order a p i s = some (p', i', s')) :
    Running cs t₀ p' i' s' := by
  unfold next at hnext
  split at hnext
  case h_1 =>
    obtain ⟨hirq, heq⟩ := Option.ite_none_right_eq_some.mp hnext
    cases heq
    exact ⟨rfl, hirq, h⟩
  case h_2 =>
    cases hnext
    exact h
  case h_3 =>
    obtain ⟨-, hirq, hwhole⟩ := h
    cases hnext
    exact ⟨rfl, hwhole.loads, hirq, fun v _ => hwhole.table v, fun _ _ f => .inl (hall f)⟩
  case h_4 =>
    obtain ⟨t, ht, heq⟩ := Option.map_eq_some_iff.mp hnext
    cases heq
    exact ⟨h.1, h.2.store ht⟩
  case h_5 =>
    obtain ⟨t, ht, heq⟩ := Option.map_eq_some_iff.mp hnext
    cases heq
    exact ⟨h.1, h.2.whole ht⟩
  case h_6 =>
    cases hnext
    exact h.2
  case h_7 => cases hnext

/-- Whoever stores keeps the processor. -/
lemma waiting_of_running {p : Point} {i : Bool} (h : Running cs t₀ p i s)
    (hswitch : i = true ∨ (code cs order).outside p = true) : Waiting p i ∧ Whole cs t₀ s := by
  have hflag : p ≠ .outside → i = true := by
    intro hne
    rcases hswitch with hi | hout
    · exact hi
    · exact absurd (of_decide_eq_true hout) hne
  cases p with
  | outside => exact ⟨trivial, h⟩
  | saved reenable l =>
      have hi := hflag nofun
      exact ⟨⟨h.1.symm.trans hi, hi, h.2.1⟩, h.2.2⟩
  | storing reenable l rest => exact absurd (hflag nofun) (by rw [h.1]; exact nofun)
  | restoring reenable => exact absurd (hflag nofun) (by rw [h.1]; exact nofun)

lemma running_of_waiting {p : Point} {i : Bool} (h : Waiting p i) (hs : Whole cs t₀ s) :
    Running cs t₀ p i s := by
  cases p with
  | outside => exact hs
  | saved reenable l => exact ⟨h.2.1.trans h.1.symm, h.2.2, hs⟩
  | storing reenable l rest => exact h.elim
  | restoring reenable => exact h.elim

/-- **Only the running context stores, with interrupts disabled.** -/
def loadRule (cs : BitVec 16) (t₀ : InterruptDescriptorTable) (hall : ∀ f, f ∈ order) :
    Rule (code cs order) where
  Running := Running cs t₀
  Waiting := Waiting
  Free := Whole cs t₀
  act := running_next hall
  wait := waiting_of_running
  resume := running_of_waiting
  outside {p i j} hout h := by
    obtain rfl : p = .outside := of_decide_eq_true hout
    exact h

/-- The entries of exceptions are never touched. -/
lemma Running.exceptions {p : Point} {i : Bool} (h : Running cs t₀ p i s) {v : Fin 64}
    (hv : v.val < 32) : s.table.entries v = t₀.entries v := by
  have hloads : (∀ l ∈ s.loads, 31 < l.irq.toNat) → gateAfter cs t₀ s.loads v = t₀.entries v := by
    intro hgt
    refine gateAfter_of_ne fun l hl heq => ?_
    have := hgt l hl
    omega
  have hwhole : Whole cs t₀ s → s.table.entries v = t₀.entries v := by
    intro hs
    rw [hs.table, hloads hs.loads]
  cases p with
  | outside => exact hwhole h
  | saved reenable l => exact hwhole h.2.2
  | storing reenable l rest =>
      obtain ⟨-, hs⟩ := h
      have hirq := hs.irq
      rw [hs.table v (by omega), hloads hs.loads]
  | restoring reenable => exact hwhole h.2

/-- **Handlers are exchanged at once.**  Whoever calls `load_handler`, and whenever they are
interrupted: an exception finds the entry of `t₀` at any time; when an interrupt can come, or
nobody is in the middle of a call, each entry is that of the last call for its vector that is
through with the table, or that of `t₀`; and a call ends with the interrupt flag that it
found. -/
theorem handlers_exchanged (cs : BitVec 16) (hall : ∀ f, f ∈ order)
    (t₀ : InterruptDescriptorTable) (flags : ℕ → Bool) (interrupts : Bool)
    {es : List (Event Action)} {c : Config Point Loaded}
    (hrun : run (code cs order) (start t₀ flags interrupts) es = some c) :
    (∀ v : Fin 64, v.val < 32 → c.shared.table.entries v = t₀.entries v) ∧
    (c.interrupts = true ∨ c.contexts c.running = .outside →
      ∀ v, c.shared.table.entries v = gateAfter cs t₀ c.shared.loads v) ∧
    (∀ d, d ≠ c.running →
      c.contexts d = .outside ∨ c.flags d = true ∧ ∃ l, c.contexts d = .saved true l) ∧
    ∀ reenable, c.contexts c.running = .restoring reenable →
      ∃ c', step (code cs order) c (.act .next) = some c' ∧
        c'.contexts c.running = .outside ∧ c'.interrupts = reenable := by
  have hstart : (loadRule cs t₀ hall).Holds (start t₀ flags interrupts) :=
    ⟨⟨fun _ h => absurd h List.not_mem_nil, fun _ => rfl⟩, fun _ _ => trivial⟩
  have hholds := Rule.holds_run hstart hrun
  have hrunning : Running cs t₀ (c.contexts c.running) c.interrupts c.shared := hholds.running
  refine ⟨fun v hv => hrunning.exceptions hv, fun hfree => ?_, fun d hd => ?_, fun r hp => ?_⟩
  · have hswitch : c.interrupts = true ∨ (code cs order).outside (c.contexts c.running) = true :=
      hfree.imp_right fun hout => decide_eq_true hout
    exact (waiting_of_running hrunning hswitch).2.table
  · have hwaiting : Waiting (c.contexts d) (c.flags d) := hholds.waiting d hd
    cases hp : c.contexts d with
    | outside => exact .inl rfl
    | saved reenable l =>
        rw [hp] at hwaiting
        obtain ⟨rfl, hflag, -⟩ := hwaiting
        exact .inr ⟨hflag, l, rfl⟩
    | storing reenable l rest =>
        rw [hp] at hwaiting
        exact hwaiting.elim
    | restoring reenable =>
        rw [hp] at hwaiting
        exact hwaiting.elim
  · rw [hp] at hrunning
    have hflag : c.interrupts = false := hrunning.1
    refine ⟨{ c with
      contexts := Function.update c.contexts c.running .outside
      interrupts := if r then true else c.interrupts }, ?_, Function.update_self .., ?_⟩
    · rw [step, hp]
      rfl
    · show (if r then true else c.interrupts) = r
      rw [hflag]
      cases r <;> rfl

/-- The order of the fields in memory. -/
def fieldsInOrder : List Field := [.ptrLow, .gdtSel, .opts, .ptrMid, .ptrTop]

lemma mem_fieldsInOrder (f : Field) : f ∈ fieldsInOrder := by
  cases f <;> decide

/-- A context that is about to load a handler for the local timer is interrupted by another one,
which loads one too, and then goes on. -/
def nestedLoads : List (Event Action) :=
  [Event.act (Action.load ⟨Idt.irqLapicClk, 0x1000, true⟩), Event.switch 1 true,
    Event.act (Action.load ⟨Idt.irqLapicClk, 0x2000, false⟩)] ++
    List.replicate 8 (Event.act Action.next) ++ [Event.switch 0 true] ++
    List.replicate 8 (Event.act Action.next)

theorem handlers_exchanged_nested : ∃ c,
    run (code 8 fieldsInOrder) (start .new (fun _ => false) true) nestedLoads = some c ∧
    c.shared.table.entries 0x32 = Entry.gate 8 0x1000 (some true) := by
  have heval : (run (code 8 fieldsInOrder) (start .new (fun _ => false) true) nestedLoads).any
      (fun c => c.interrupts = true ∧ c.shared.loads =
        [⟨Idt.irqLapicClk, 0x2000, false⟩, ⟨Idt.irqLapicClk, 0x1000, true⟩]) = true := by
    decide +kernel
  simp only [Option.any_eq_true, decide_eq_true_eq] at heval
  obtain ⟨c, hrun, hflag, hloads⟩ := heval
  obtain ⟨-, hwhole, -⟩ := handlers_exchanged 8 mem_fieldsInOrder .new (fun _ => false) true
    hrun
  refine ⟨c, hrun, ?_⟩
  rw [hwhole (.inl hflag), hloads]
  rfl

end LoadHandler

end Titanium
