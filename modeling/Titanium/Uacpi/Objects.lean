import Titanium.Heap.Objects
import Titanium.Uacpi
import Titanium.Uacpi.Critical

/-!
The objects that uACPI keeps on the kernel heap (`uacpi.rs`).

Mutexes, events and spinlocks are boxes with one atomic cell; `uacpi_kernel_alloc`
hands out memory.  They lie side by side in the bytes of the kernel heap, which has
other users as well.

* `Kernel.exec`: the calls, on the bytes of the heap and the flags of the processor.
* `Spec`: what the calls are about.  A store of objects, in which a call concerns one
  object only; `Spec.Step` says what it may answer, `Spec.Panics` when it does not.
* `exec_cases`: one call of the kernel is one step of the store.
* `objects_refine`: **along every sequence of calls with live handles the kernel
  answers as the store does**, and panics exactly when the store does or the heap has
  no block left.
-/

namespace Titanium

namespace Uacpi

/-! ### The objects -/

/-- A size that `uacpi_kernel_alloc` has a layout for. -/
structure MallocSize where
  size : ℕ
  size_le : size + 16 ≤ 2 ^ 63

/-- The layout for a size, with its header. -/
def MallocSize.layout (n : MallocSize) : Layout := ⟨n.size + 8, 8, eight_eq_two_pow, n.size_le⟩

lemma MallocSize.mallocLayout_eq (n : MallocSize) : mallocLayout n.size = some n.layout := by
  have hle := n.size_le
  have hadd : usizeAdd n.size sizeOfU64 = some (n.size + 8) := if_pos (by rw [sizeOfU64]; omega)
  rw [mallocLayout, hadd]
  exact dif_pos hle

lemma one_eq_two_pow : ∃ k, 1 = 2 ^ k := ⟨0, rfl⟩

lemma two_eq_two_pow : ∃ k, 2 = 2 ^ k := ⟨1, rfl⟩

lemma boolLayout_le : 1 + 1 ≤ 2 ^ 63 := by norm_num

lemma u16Layout_le : 2 + 2 ≤ 2 ^ 63 := by norm_num

/-- `Layout::new::<Atomic<bool>>()`. -/
def boolLayout : Layout := ⟨1, 1, one_eq_two_pow, boolLayout_le⟩

/-- `Layout::new::<Atomic<u16>>()`. -/
def u16Layout : Layout := ⟨2, 2, two_eq_two_pow, u16Layout_le⟩

/-- The objects on the heap. -/
inductive Object where
  | mutex (held : Bool)
  | event (count : BitVec 16)
  | spinlock (held : Bool)
  /-- What `uacpi_kernel_alloc` has handed out. -/
  | memory (n : MallocSize) (contents : ℕ → UInt8)
  /-- A block of another user of the heap. -/
  | other (layout : Layout) (size_pos : 1 ≤ layout.size)

namespace Object

def layout : Object → Layout
  | mutex _ => boolLayout
  | event _ => u16Layout
  | spinlock _ => boolLayout
  | memory n _ => n.layout
  | other layout _ => layout

lemma size_pos (o : Object) : 1 ≤ o.layout.size := by
  cases o with
  | mutex => exact le_rfl
  | event => exact one_le_two
  | spinlock => exact le_rfl
  | memory n => exact Nat.le_add_left 1 (n.size + 7)
  | other _ h => exact h

/-- What the bytes of a block say.  The size of memory stands in front of it. -/
def Encoded : Object → Mem → ℕ → Prop
  | mutex held, mem, p => mem.readLE 1 p = held.toNat
  | event count, mem, p => mem.readLE 2 p = count.toNat
  | spinlock held, mem, p => mem.readLE 1 p = held.toNat
  | memory n contents, mem, p =>
      mem.read64 p = n.size ∧ ∀ i < n.size, mem (p + 8 + i) = contents i
  | other _ _, _, _ => True

lemma encoded_congr {o : Object} {p : ℕ} {mem mem' : Mem}
    (h : ∀ a ∈ Block.bytes (p, o.layout), mem' a = mem a) (henc : o.Encoded mem p) :
    o.Encoded mem' p := by
  cases o with
  | mutex held => exact (Mem.readLE_congr h).trans henc
  | event count => exact (Mem.readLE_congr h).trans henc
  | spinlock held => exact (Mem.readLE_congr h).trans henc
  | memory n contents =>
      have hin : ∀ a, p ≤ a → a < p + (n.size + 8) → mem' a = mem a := fun a h₁ h₂ =>
        h a (Finset.mem_Ico.mpr ⟨h₁, h₂⟩)
      refine ⟨(Mem.read64_congr fun a ha => ?_).trans henc.1, fun i hi => ?_⟩
      · rw [Finset.mem_Ico] at ha
        exact hin a ha.1 (by omega)
      · rw [← henc.2 i hi]
        exact hin _ (by omega) (by omega)
  | other => trivial

end Object

/-- The objects, as objects on the global allocator. -/
def objectKind : ObjectKind where
  Obj := Object
  layout := Object.layout
  size_pos := Object.size_pos
  Encoded := Object.Encoded
  encoded_congr := Object.encoded_congr

/-! ### The calls -/

/-- A call, or what an owner does with its memory. -/
inductive Call where
  | alloc (size : ℕ)
  | free (p : ℕ)
  | createMutex
  | freeMutex (p : ℕ)
  | acquireMutex (p : ℕ) (timeout : BitVec 16)
  | releaseMutex (p : ℕ)
  | createEvent
  | freeEvent (p : ℕ)
  | waitForEvent (p : ℕ) (timeout : BitVec 16)
  | signalEvent (p : ℕ)
  | resetEvent (p : ℕ)
  | createSpinlock
  | freeSpinlock (p : ℕ)
  | lockSpinlock (p : ℕ)
  | unlockSpinlock (p : ℕ) (flags : Word)
  | disableInterrupts
  | restoreInterrupts (state : Word)
  /-- uACPI reads a byte of its memory. -/
  | read (p i : ℕ)
  /-- uACPI writes a byte of its memory. -/
  | write (p i : ℕ) (b : UInt8)
  /-- Another user of the heap. -/
  | heapAlloc (layout : Layout)
  | heapDealloc (p : ℕ) (layout : Layout)
  | heapWrite (a : ℕ) (b : UInt8)

/-- What a call answers. -/
inductive Ret where
  | unit
  | handle (p : ℕ)
  /-- `UACPI_STATUS_OK`, or `true`. -/
  | ok
  | flags (w : Word)
  | byte (b : UInt8)
  deriving DecidableEq

/-- The heap, and the flags of the processor. -/
structure Kernel (A : GlobalAllocator) where
  state : A.State
  mem : Mem
  rflags : Word

namespace Kernel

variable {A : GlobalAllocator} (k : Kernel A)

/-- `(&*p.cast::<Atomic<T>>()).load(..)`, which panics when `p` is null or misaligned. -/
def load (layout : Layout) (p : ℕ) : Option ℕ :=
  if p ≠ 0 ∧ layout.align ∣ p then some (k.mem.readLE layout.size p) else none

/-- `(&*p.cast::<Atomic<T>>()).store(v, ..)`. -/
def store (layout : Layout) (p v : ℕ) : Option (Kernel A) :=
  if p ≠ 0 ∧ layout.align ∣ p then some { k with mem := k.mem.writeLE layout.size p v } else none

/-- `compare_exchange(old, new, ..).is_ok()`. -/
def compareExchange (layout : Layout) (p old new : ℕ) : Option (Bool × Kernel A) := do
  if (← k.load layout p) = old then return (true, ← k.store layout p new) else return (false, k)

/-- `Box::into_raw(Box::new(Atomic::new(v)))`; `Box::new` panics when the allocator returns null. -/
def boxNew (layout : Layout) (v : ℕ) : Option (ℕ × Kernel A) :=
  let r := A.alloc k.state k.mem layout
  if r.1 = 0 then none
  else some (r.1, { k with state := r.2.1, mem := r.2.2.writeLE layout.size r.1 v })

/-- `drop(Box::from_raw(p.cast::<Atomic<T>>()))`. -/
def boxDrop (layout : Layout) (p : ℕ) : Option (Kernel A) :=
  (A.dealloc k.state k.mem p layout).map fun r => { k with state := r.1, mem := r.2 }

/-- `interrupts::disable`. -/
def cli : Kernel A := { k with rflags := k.rflags.setBit 9 false }

/-- `interrupts::enable`, if the flags say so. -/
def restored (flags : Word) : Kernel A :=
  if flags.interrupts then { k with rflags := k.rflags.setBit 9 true } else k

/-- `uacpi_kernel_create_mutex`. -/
def createMutex : Option (ℕ × Kernel A) := k.boxNew boolLayout 0

/-- `uacpi_kernel_free_mutex`. -/
def freeMutex (p : ℕ) : Option (Kernel A) := k.boxDrop boolLayout p

/-- `uacpi_kernel_acquire_mutex`. -/
def acquireMutex (p : ℕ) (_timeout : BitVec 16) : Option (Kernel A) := do
  let (ok, k) ← k.compareExchange boolLayout p 0 1
  -- otherwise: `mutex already locked on single threaded code`
  if ok then return k else none

/-- `uacpi_kernel_release_mutex`. -/
def releaseMutex (p : ℕ) : Option (Kernel A) := k.store boolLayout p 0

/-- `uacpi_kernel_create_event`. -/
def createEvent : Option (ℕ × Kernel A) := k.boxNew u16Layout 0

/-- `uacpi_kernel_free_event`. -/
def freeEvent (p : ℕ) : Option (Kernel A) := k.boxDrop u16Layout p

/-- `uacpi_kernel_wait_for_event`, with nothing between its loads and stores. -/
def waitForEvent (p : ℕ) (_timeout : BitVec 16) : Option (Kernel A) := do
  let v ← k.load u16Layout p
  -- otherwise: `no event waiting on single threaded code`
  if v > 0 then k.store u16Layout p (v - 1) else none

/-- `uacpi_kernel_signal_event`; `fetch_add` wraps around. -/
def signalEvent (p : ℕ) : Option (Kernel A) := do
  let v ← k.load u16Layout p
  k.store u16Layout p ((v + 1) % 2 ^ 16)

/-- `uacpi_kernel_reset_event`. -/
def resetEvent (p : ℕ) : Option (Kernel A) := k.store u16Layout p 0

/-- `uacpi_kernel_create_spinlock`. -/
def createSpinlock : Option (ℕ × Kernel A) := k.boxNew boolLayout 0

/-- `uacpi_kernel_free_spinlock`. -/
def freeSpinlock (p : ℕ) : Option (Kernel A) := k.boxDrop boolLayout p

/-- `uacpi_kernel_lock_spinlock`. -/
def lockSpinlock (p : ℕ) : Option (Word × Kernel A) := do
  let flags := readFlags k.rflags
  let (ok, k) ← k.cli.compareExchange boolLayout p 0 1
  -- otherwise: `spinlock unable to be unlocked in single-threaded, uninterrupted code`
  if ok then return (flags, k) else none

/-- `uacpi_kernel_unlock_spinlock`. -/
def unlockSpinlock (p : ℕ) (state : Word) : Option (Kernel A) := do
  let flags ← fromBits state
  let k ← k.store boolLayout p 0
  return k.restored flags

/-- `uacpi_kernel_restore_interrupts`. -/
def restoreInterrupts (state : Word) : Option (Kernel A) := do
  let flags ← fromBits state
  return k.restored flags

/-- A call, with its answer. -/
def exec : Call → Option (Ret × Kernel A)
  | .alloc size => (uacpiKernelAlloc A k.state k.mem size).map fun r =>
      (.handle r.1, { k with state := r.2.1, mem := r.2.2 })
  | .free p => (uacpiKernelFree A k.state k.mem p).map fun r =>
      (.unit, { k with state := r.1, mem := r.2 })
  | .createMutex => k.createMutex.map fun r => (.handle r.1, r.2)
  | .freeMutex p => (k.freeMutex p).map fun k => (.unit, k)
  | .acquireMutex p timeout => (k.acquireMutex p timeout).map fun k => (.ok, k)
  | .releaseMutex p => (k.releaseMutex p).map fun k => (.unit, k)
  | .createEvent => k.createEvent.map fun r => (.handle r.1, r.2)
  | .freeEvent p => (k.freeEvent p).map fun k => (.unit, k)
  | .waitForEvent p timeout => (k.waitForEvent p timeout).map fun k => (.ok, k)
  | .signalEvent p => (k.signalEvent p).map fun k => (.unit, k)
  | .resetEvent p => (k.resetEvent p).map fun k => (.unit, k)
  | .createSpinlock => k.createSpinlock.map fun r => (.handle r.1, r.2)
  | .freeSpinlock p => (k.freeSpinlock p).map fun k => (.unit, k)
  | .lockSpinlock p => (k.lockSpinlock p).map fun r => (.flags r.1, r.2)
  | .unlockSpinlock p flags => (k.unlockSpinlock p flags).map fun k => (.unit, k)
  | .disableInterrupts => some (.flags (readFlags k.rflags), k.cli)
  | .restoreInterrupts state => (k.restoreInterrupts state).map fun k => (.unit, k)
  | .read p i => some (.byte (k.mem (p + i)), k)
  | .write p i b => some (.unit, { k with mem := Function.update k.mem (p + i) b })
  | .heapAlloc layout =>
      let r := A.alloc k.state k.mem layout
      some (.handle r.1, { k with state := r.2.1, mem := r.2.2 })
  | .heapDealloc p layout => (k.boxDrop layout p).map fun k => (.unit, k)
  | .heapWrite a b => some (.unit, { k with mem := Function.update k.mem a b })

end Kernel

/-! ### The store of objects -/

/-- The live objects by the addresses of their blocks, and the flags of the processor. -/
structure Spec where
  objects : ℕ → Option Object
  rflags : Word

namespace Spec

variable (σ : Spec)

def put (p : ℕ) (o : Object) : Spec := { σ with objects := Function.update σ.objects p (some o) }

@[simp] lemma put_objects_self (p : ℕ) (o : Object) : (σ.put p o).objects p = some o :=
  Function.update_self ..

def remove (p : ℕ) : Spec := { σ with objects := Function.update σ.objects p none }

def cli : Spec := { σ with rflags := σ.rflags.setBit 9 false }

def restored (flags : Word) : Spec :=
  if flags.interrupts then { σ with rflags := σ.rflags.setBit 9 true } else σ

/-- **What a call may answer**, and what it does to the objects. -/
inductive Step : Spec → Call → Ret → Spec → Prop where
  | alloc {σ : Spec} {p : ℕ} (n : MallocSize) (contents : ℕ → UInt8) (hp : p ≠ 0)
      (hfresh : σ.objects p = none) :
      Step σ (.alloc n.size) (.handle (p + 8)) (σ.put p (.memory n contents))
  | free {σ : Spec} {p : ℕ} {n : MallocSize} {contents : ℕ → UInt8}
      (hp : σ.objects p = some (.memory n contents)) : Step σ (.free (p + 8)) .unit (σ.remove p)
  | createMutex {σ : Spec} {p : ℕ} (hp : p ≠ 0) (hfresh : σ.objects p = none) :
      Step σ .createMutex (.handle p) (σ.put p (.mutex false))
  | freeMutex {σ : Spec} {p : ℕ} {held : Bool} (hp : σ.objects p = some (.mutex held)) :
      Step σ (.freeMutex p) .unit (σ.remove p)
  | acquireMutex {σ : Spec} {p : ℕ} (timeout : BitVec 16)
      (hp : σ.objects p = some (.mutex false)) :
      Step σ (.acquireMutex p timeout) .ok (σ.put p (.mutex true))
  | releaseMutex {σ : Spec} {p : ℕ} {held : Bool} (hp : σ.objects p = some (.mutex held)) :
      Step σ (.releaseMutex p) .unit (σ.put p (.mutex false))
  | createEvent {σ : Spec} {p : ℕ} (hp : p ≠ 0) (hfresh : σ.objects p = none) :
      Step σ .createEvent (.handle p) (σ.put p (.event 0))
  | freeEvent {σ : Spec} {p : ℕ} {count : BitVec 16} (hp : σ.objects p = some (.event count)) :
      Step σ (.freeEvent p) .unit (σ.remove p)
  | waitForEvent {σ : Spec} {p : ℕ} {count : BitVec 16} (timeout : BitVec 16)
      (hp : σ.objects p = some (.event count)) (hpos : count ≠ 0) :
      Step σ (.waitForEvent p timeout) .ok (σ.put p (.event (count - 1)))
  | signalEvent {σ : Spec} {p : ℕ} {count : BitVec 16} (hp : σ.objects p = some (.event count)) :
      Step σ (.signalEvent p) .unit (σ.put p (.event (count + 1)))
  | resetEvent {σ : Spec} {p : ℕ} {count : BitVec 16} (hp : σ.objects p = some (.event count)) :
      Step σ (.resetEvent p) .unit (σ.put p (.event 0))
  | createSpinlock {σ : Spec} {p : ℕ} (hp : p ≠ 0) (hfresh : σ.objects p = none) :
      Step σ .createSpinlock (.handle p) (σ.put p (.spinlock false))
  | freeSpinlock {σ : Spec} {p : ℕ} {held : Bool} (hp : σ.objects p = some (.spinlock held)) :
      Step σ (.freeSpinlock p) .unit (σ.remove p)
  | lockSpinlock {σ : Spec} {p : ℕ} (hp : σ.objects p = some (.spinlock false)) :
      Step σ (.lockSpinlock p) (.flags (readFlags σ.rflags)) (σ.cli.put p (.spinlock true))
  | unlockSpinlock {σ : Spec} {p : ℕ} {held : Bool} {state flags : Word}
      (hp : σ.objects p = some (.spinlock held)) (hflags : fromBits state = some flags) :
      Step σ (.unlockSpinlock p state) .unit ((σ.put p (.spinlock false)).restored flags)
  | disableInterrupts {σ : Spec} :
      Step σ .disableInterrupts (.flags (readFlags σ.rflags)) σ.cli
  | restoreInterrupts {σ : Spec} {state flags : Word} (hflags : fromBits state = some flags) :
      Step σ (.restoreInterrupts state) .unit (σ.restored flags)
  | read {σ : Spec} {p i : ℕ} {n : MallocSize} {contents : ℕ → UInt8}
      (hp : σ.objects p = some (.memory n contents)) (hi : i < n.size) :
      Step σ (.read (p + 8) i) (.byte (contents i)) σ
  | write {σ : Spec} {p i : ℕ} {n : MallocSize} {contents : ℕ → UInt8} (b : UInt8)
      (hp : σ.objects p = some (.memory n contents)) (hi : i < n.size) :
      Step σ (.write (p + 8) i b) .unit (σ.put p (.memory n (Function.update contents i b)))
  | heapAlloc {σ : Spec} {p : ℕ} (layout : Layout) (hsize : 1 ≤ layout.size) (hp : p ≠ 0)
      (hfresh : σ.objects p = none) :
      Step σ (.heapAlloc layout) (.handle p) (σ.put p (.other layout hsize))
  | heapNull {σ : Spec} (layout : Layout) : Step σ (.heapAlloc layout) (.handle 0) σ
  | heapDealloc {σ : Spec} {p : ℕ} {layout : Layout} {hsize : 1 ≤ layout.size}
      (hp : σ.objects p = some (.other layout hsize)) :
      Step σ (.heapDealloc p layout) .unit (σ.remove p)
  | heapWrite {σ : Spec} {p a : ℕ} {layout : Layout} {hsize : 1 ≤ layout.size} (b : UInt8)
      (hp : σ.objects p = some (.other layout hsize)) (ha : a ∈ Block.bytes (p, layout)) :
      Step σ (.heapWrite a b) .unit σ

/-- **When a call panics**, apart from a heap without a block for it. -/
inductive Panics : Spec → Call → Prop where
  | alloc {σ : Spec} {size : ℕ} (h : ¬ size + 16 ≤ 2 ^ 63) : Panics σ (.alloc size)
  | acquireMutex {σ : Spec} {p : ℕ} (timeout : BitVec 16)
      (hp : σ.objects p = some (.mutex true)) : Panics σ (.acquireMutex p timeout)
  | waitForEvent {σ : Spec} {p : ℕ} (timeout : BitVec 16) (hp : σ.objects p = some (.event 0)) :
      Panics σ (.waitForEvent p timeout)
  | lockSpinlock {σ : Spec} {p : ℕ} (hp : σ.objects p = some (.spinlock true)) :
      Panics σ (.lockSpinlock p)
  | unlockSpinlock {σ : Spec} {p : ℕ} {state : Word} (hflags : fromBits state = none) :
      Panics σ (.unlockSpinlock p state)
  | restoreInterrupts {σ : Spec} {state : Word} (hflags : fromBits state = none) :
      Panics σ (.restoreInterrupts state)

/-- The caller keeps to the interface: a handle is the handle of a live object of the right kind,
and memory is read and written by its owner. -/
def Legal : Call → Prop
  | .free q => ∃ p n contents, q = p + 8 ∧ σ.objects p = some (.memory n contents)
  | .freeMutex p | .acquireMutex p _ | .releaseMutex p => ∃ held, σ.objects p = some (.mutex held)
  | .freeEvent p | .waitForEvent p _ | .signalEvent p | .resetEvent p =>
      ∃ count, σ.objects p = some (.event count)
  | .freeSpinlock p | .lockSpinlock p | .unlockSpinlock p _ =>
      ∃ held, σ.objects p = some (.spinlock held)
  | .read q i | .write q i _ =>
      ∃ p n contents, q = p + 8 ∧ σ.objects p = some (.memory n contents) ∧ i < n.size
  | .heapAlloc layout => 1 ≤ layout.size
  | .heapDealloc p layout => ∃ hsize, σ.objects p = some (.other layout hsize)
  | .heapWrite a _ =>
      ∃ p layout hsize, σ.objects p = some (.other layout hsize) ∧ a ∈ Block.bytes (p, layout)
  | .alloc _ | .createMutex | .createEvent | .createSpinlock | .disableInterrupts
  | .restoreInterrupts _ => True

lemma Step.not_panics {σ σ' : Spec} {c : Call} {r : Ret} (h : σ.Step c r σ') : ¬ σ.Panics c := by
  intro hpanics
  cases hpanics with
  | alloc hsize =>
      cases h with
      | alloc n => exact hsize n.size_le
  | acquireMutex timeout hheld =>
      cases h with
      | acquireMutex _ hp => cases hp.symm.trans hheld
  | waitForEvent timeout hzero =>
      cases h with
      | waitForEvent _ hp hpos =>
          cases hp.symm.trans hzero
          exact hpos rfl
  | lockSpinlock hheld =>
      cases h with
      | lockSpinlock hp => cases hp.symm.trans hheld
  | unlockSpinlock hnone =>
      cases h with
      | unlockSpinlock _ hflags => cases hflags.symm.trans hnone
  | restoreInterrupts hnone =>
      cases h with
      | restoreInterrupts hflags => cases hflags.symm.trans hnone

end Spec

/-! ### One call -/

/-- **The kernel holds the objects of the store.** -/
structure Represents {A : GlobalAllocator} (σ : Spec) (k : Kernel A) : Prop where
  stored : Stored A objectKind σ.objects k.state k.mem
  rflags : k.rflags = σ.rflags

/-- The layout of the block that a call cannot do without. -/
def Call.asks : Call → Option Layout
  | .alloc size => mallocLayout size
  | .createMutex | .createSpinlock => some boolLayout
  | .createEvent => some u16Layout
  | _ => none

/-- The heap has no block for the call. -/
def Kernel.Exhausted {A : GlobalAllocator} (k : Kernel A) (c : Call) : Prop :=
  ∃ layout, c.asks = some layout ∧ (A.alloc k.state k.mem layout).1 = 0

/-- What a call has to do: answer as the store does, or panic for one of the two reasons. -/
def Refines {A : GlobalAllocator} (σ : Spec) (k : Kernel A) (c : Call) : Prop :=
  (∃ r k' σ', k.exec c = some (r, k') ∧ σ.Step c r σ' ∧ Represents σ' k') ∨
    k.exec c = none ∧ (σ.Panics c ∨ k.Exhausted c)

namespace Represents

variable {A : GlobalAllocator} {σ : Spec} {k : Kernel A} {p v : ℕ} {o x : Object}

lemma load (h : Represents σ k) (hp : σ.objects p = some o) :
    k.load o.layout p = some (k.mem.readLE o.layout.size p) := if_pos (h.stored.placed hp)

/-- A cell is stored. -/
lemma store (h : Represents σ k) (hp : σ.objects p = some o) (hlayout : x.layout = o.layout)
    (henc : ∀ mem : Mem, mem.readLE o.layout.size p = v % 256 ^ o.layout.size → x.Encoded mem p) :
    ∃ k', k.store o.layout p v = some k' ∧ Represents (σ.put p x) k' := by
  refine ⟨_, if_pos (h.stored.placed hp), ?_, h.rflags⟩
  exact h.stored.update hp hlayout (fun a ha => Mem.writeLE_of_notMem ha)
    (henc _ (Mem.readLE_writeLE _ _ _ _))

/-- A byte of a block is written by its owner. -/
lemma write (h : Represents σ k) {a : ℕ} {b : UInt8} (hp : σ.objects p = some o)
    (hlayout : x.layout = o.layout) (ha : a ∈ Block.bytes (p, o.layout))
    (henc : x.Encoded (Function.update k.mem a b) p) :
    Represents (σ.put p x) { k with mem := Function.update k.mem a b } := by
  refine ⟨h.stored.update hp hlayout (fun c hc => Function.update_of_ne ?_ _ _) henc, h.rflags⟩
  rintro rfl
  exact hc ha

lemma cli (h : Represents σ k) : Represents σ.cli k.cli := by
  refine ⟨h.stored, ?_⟩
  rw [Kernel.cli, Spec.cli, h.rflags]

lemma restored (h : Represents σ k) (flags : Word) :
    Represents (σ.restored flags) (k.restored flags) := by
  rw [Spec.restored, Kernel.restored]
  split_ifs
  · exact ⟨h.stored, congrArg (·.setBit 9 true) h.rflags⟩
  · exact h

/-- A lock that is free is taken. -/
lemma compareExchange_free (h : Represents σ k) (hp : σ.objects p = some o)
    (hlayout : o.layout = boolLayout) (hfree : k.mem.readLE 1 p = 0) (hx : x.layout = boolLayout)
    (henc : ∀ mem : Mem, mem.readLE 1 p = 1 → x.Encoded mem p) :
    ∃ k', k.compareExchange boolLayout p 0 1 = some (true, k') ∧ Represents (σ.put p x) k' := by
  have hload := h.load hp
  obtain ⟨k', hstore, hR⟩ := h.store (v := 1) hp (hx.trans hlayout.symm)
    (by rw [hlayout]; exact henc)
  rw [hlayout] at hload hstore
  refine ⟨k', ?_, hR⟩
  have hzero : k.load boolLayout p = some 0 := hload.trans (congrArg some hfree)
  simp [Kernel.compareExchange, hzero, hstore]

/-- A lock that is taken is left alone. -/
lemma compareExchange_taken (h : Represents σ k) (hp : σ.objects p = some o)
    (hlayout : o.layout = boolLayout) (htaken : k.mem.readLE 1 p = 1) :
    k.compareExchange boolLayout p 0 1 = some (false, k) := by
  have hload := h.load hp
  rw [hlayout] at hload
  have hone : k.load boolLayout p = some 1 := hload.trans (congrArg some htaken)
  simp [Kernel.compareExchange, hone]

/-- **An object is made** in a block that the allocator returns. -/
lemma insert (h : Represents σ k) {st' : A.State} {mem₁ mem₂ : Mem}
    (halloc : A.alloc k.state k.mem o.layout = (p, st', mem₁)) (hp : p ≠ 0)
    (hmem : ∀ a ∉ Block.bytes (p, o.layout), mem₂ a = mem₁ a) (henc : o.Encoded mem₂ p) :
    σ.objects p = none ∧ Represents (σ.put p o) ⟨st', mem₂, k.rflags⟩ := by
  obtain ⟨hv, hkeep, ⟨hzero, -⟩ | ⟨⟨-, halign, -⟩, hfresh, hhanded⟩⟩ :=
    A.alloc_spec h.stored.valid o.size_pos halloc
  · exact absurd hzero hp
  have hfresh' : ∀ B ∈ A.handed k.state,
      Disjoint (objectKind.block p o).bytes (Block.bytes B) := hfresh
  refine ⟨h.stored.eq_none_of_fresh hfresh', ?_, h.rflags⟩
  refine h.stored.insert (A.valid_write hv fun a ha => hmem a (ha _ ?_)) ⟨hp, halign⟩ hfresh'
    hhanded (fun B hB a ha => ?_) henc
  · rw [hhanded]
    exact Finset.mem_insert_self _ _
  · exact (hmem a (Finset.disjoint_right.mp (hfresh B hB) ha)).trans (hkeep B hB a ha)

/-- A box is made, unless the allocator returns null. -/
lemma boxNew (h : Represents σ k)
    (henc : ∀ (mem : Mem) p, mem.readLE o.layout.size p = v % 256 ^ o.layout.size →
      o.Encoded mem p) :
    k.boxNew o.layout v = none ∧ (A.alloc k.state k.mem o.layout).1 = 0 ∨
      ∃ p k', k.boxNew o.layout v = some (p, k') ∧ p ≠ 0 ∧ σ.objects p = none ∧
        Represents (σ.put p o) k' := by
  rcases halloc : A.alloc k.state k.mem o.layout with ⟨p, st', mem₁⟩
  by_cases hp : p = 0
  · exact Or.inl ⟨by rw [Kernel.boxNew, halloc]; exact if_pos hp, hp⟩
  · obtain ⟨hfresh, hR⟩ := h.insert halloc hp (fun a ha => Mem.writeLE_of_notMem ha)
      (henc _ p (Mem.readLE_writeLE mem₁ o.layout.size p v))
    exact Or.inr ⟨p, _, by rw [Kernel.boxNew, halloc]; exact if_neg hp, hp, hfresh, hR⟩

/-- A box is dropped. -/
lemma boxDrop (h : Represents σ k) (hp : σ.objects p = some o) :
    ∃ k', k.boxDrop o.layout p = some k' ∧ Represents (σ.remove p) k' := by
  obtain ⟨st', mem', hret, hS⟩ := h.stored.erase hp
  exact ⟨_, congrArg (Option.map _) hret, hS, h.rflags⟩

/-! The families of calls. -/

variable {c : Call} {r : Ret} {σ' : Spec} {k' : Kernel A}

lemma refines (hexec : k.exec c = some (r, k')) (hstep : σ.Step c r σ') (hR : Represents σ' k') :
    Refines σ k c := Or.inl ⟨r, k', σ', hexec, hstep, hR⟩

lemma refines_create (h : Represents σ k)
    (hexec : k.exec c = (k.boxNew o.layout v).map fun r => (Ret.handle r.1, r.2))
    (hasks : c.asks = some o.layout)
    (henc : ∀ (mem : Mem) p, mem.readLE o.layout.size p = v % 256 ^ o.layout.size →
      o.Encoded mem p)
    (hstep : ∀ p, p ≠ 0 → σ.objects p = none → σ.Step c (.handle p) (σ.put p o)) :
    Refines σ k c := by
  obtain ⟨hnone, hnull⟩ | ⟨p, k', hsome, hp, hfresh, hR⟩ := h.boxNew henc
  · exact Or.inr ⟨by rw [hexec, hnone]; rfl, Or.inr ⟨_, hasks, hnull⟩⟩
  · exact refines (by rw [hexec, hsome]; rfl) (hstep p hp hfresh) hR

lemma refines_drop (h : Represents σ k) (hp : σ.objects p = some o)
    (hexec : k.exec c = (k.boxDrop o.layout p).map fun k => (Ret.unit, k))
    (hstep : σ.Step c .unit (σ.remove p)) : Refines σ k c := by
  obtain ⟨k', hret, hR⟩ := h.boxDrop hp
  exact refines (by rw [hexec, hret]; rfl) hstep hR

lemma refines_store (h : Represents σ k) (hp : σ.objects p = some o)
    (hexec : k.exec c = (k.store o.layout p v).map fun k => (r, k))
    (hlayout : x.layout = o.layout)
    (henc : ∀ mem : Mem, mem.readLE o.layout.size p = v % 256 ^ o.layout.size → x.Encoded mem p)
    (hstep : σ.Step c r (σ.put p x)) : Refines σ k c := by
  obtain ⟨k', hret, hR⟩ := h.store hp hlayout henc
  exact refines (by rw [hexec, hret]; rfl) hstep hR

/-! The calls that do something of their own. -/

lemma refines_alloc (h : Represents σ k) (size : ℕ) : Refines σ k (.alloc size) := by
  by_cases hsize : size + 16 ≤ 2 ^ 63
  · let n : MallocSize := ⟨size, hsize⟩
    have hl : mallocLayout size = some n.layout := n.mallocLayout_eq
    rcases halloc : A.alloc k.state k.mem n.layout with ⟨p, st', mem₁⟩
    have hv := h.stored.valid
    obtain ⟨-, -, ⟨hzero, -⟩ | ⟨⟨hp, halign, -⟩, -⟩⟩ :=
      A.alloc_spec hv (Nat.le_add_left 1 (size + 7)) halloc
    · -- a null pointer is written through
      refine Or.inr ⟨?_, Or.inr ⟨_, hl, by rw [halloc]; exact hzero⟩⟩
      have hnone : uacpiKernelAlloc A k.state k.mem size = none := by
        refine Option.eq_none_iff_forall_ne_some.mpr fun r hr => ?_
        obtain ⟨layout, ptr, mem₂, hl', halloc', ⟨hptr, -⟩, -⟩ := uacpiKernelAlloc_eq_some.mp hr
        cases hl.symm.trans hl'
        cases halloc.symm.trans halloc'
        exact hptr hzero
      rw [Kernel.exec, hnone]
      rfl
    · have hret := uacpiKernelAlloc_eq_some.mpr
        ⟨n.layout, p, mem₁, hl, halloc, ⟨hp, halign⟩, rfl, rfl⟩
      let o : Object := .memory n fun i => mem₁.write64 p size (p + 8 + i)
      have hhead : ∀ a ∉ Block.bytes (p, o.layout), mem₁.write64 p size a = mem₁ a := by
        intro a ha
        refine Mem.write64_of_notMem fun hin => ha ?_
        exact Finset.Ico_subset_Ico_right (Nat.add_le_add_left (Nat.le_add_left 8 size) p) hin
      have henc : o.Encoded (mem₁.write64 p size) p :=
        ⟨Mem.read64_write64 _ (by omega), fun _ _ => rfl⟩
      obtain ⟨hfresh, hR⟩ := h.insert (o := o) halloc hp hhead henc
      exact refines (by rw [Kernel.exec, hret]; rfl) (.alloc n _ hp hfresh) hR
  · refine Or.inr ⟨?_, Or.inl (.alloc hsize)⟩
    have hnone : uacpiKernelAlloc A k.state k.mem size = none := by
      refine Option.eq_none_iff_forall_ne_some.mpr fun r hr => ?_
      obtain ⟨layout, -, -, hl, -⟩ := uacpiKernelAlloc_eq_some.mp hr
      exact hsize (mallocLayout_eq_some hl).2.2
    rw [Kernel.exec, hnone]
    rfl

lemma refines_free (h : Represents σ k) {n : MallocSize} {contents : ℕ → UInt8}
    (hp : σ.objects p = some (.memory n contents)) : Refines σ k (.free (p + 8)) := by
  obtain ⟨st', mem', hret, hS⟩ := h.stored.erase hp
  obtain ⟨hnull, halign⟩ := h.stored.placed hp
  have hread : readU64 k.mem p = some n.size :=
    (if_pos ⟨hnull, halign⟩).trans (congrArg some (h.stored.encoded hp).1)
  have hfree : uacpiKernelFree A k.state k.mem (p + 8) = some (st', mem') := by
    have hret' : A.dealloc k.state k.mem p n.layout = some (st', mem') := hret
    rw [uacpiKernelFree, if_neg (by rw [sizeOfU64]; omega)]
    simp only [sizeOfU64, Nat.add_sub_cancel, hread, n.mallocLayout_eq, Option.bind_eq_bind,
      Option.bind_some, hret']
  have hR : Represents (σ.remove p) ⟨st', mem', k.rflags⟩ := ⟨hS, h.rflags⟩
  exact refines (by rw [Kernel.exec, hfree]; rfl) (.free hp) hR

lemma refines_acquire (h : Represents σ k) {held : Bool} (timeout : BitVec 16)
    (hp : σ.objects p = some (.mutex held)) : Refines σ k (.acquireMutex p timeout) := by
  have hread : k.mem.readLE 1 p = held.toNat := h.stored.encoded hp
  cases held with
  | false =>
      obtain ⟨k', hret, hR⟩ := h.compareExchange_free (x := .mutex true) hp rfl hread rfl
        fun mem hmem => hmem
      exact refines (by simp [Kernel.exec, Kernel.acquireMutex, hret]) (.acquireMutex timeout hp) hR
  | true =>
      have hret := h.compareExchange_taken hp rfl hread
      refine Or.inr ⟨?_, Or.inl (.acquireMutex timeout hp)⟩
      simp [Kernel.exec, Kernel.acquireMutex, hret]

lemma refines_lock (h : Represents σ k) {held : Bool} (hp : σ.objects p = some (.spinlock held)) :
    Refines σ k (.lockSpinlock p) := by
  have hread : k.cli.mem.readLE 1 p = held.toNat := h.stored.encoded hp
  have hp' : σ.cli.objects p = some (.spinlock held) := hp
  cases held with
  | false =>
      obtain ⟨k', hret, hR⟩ := h.cli.compareExchange_free (x := .spinlock true) hp' rfl hread rfl
        fun mem hmem => hmem
      refine refines ?_ (.lockSpinlock hp) hR
      simp [Kernel.exec, Kernel.lockSpinlock, hret, h.rflags]
  | true =>
      have hret := h.cli.compareExchange_taken hp' rfl hread
      refine Or.inr ⟨?_, Or.inl (.lockSpinlock hp)⟩
      simp [Kernel.exec, Kernel.lockSpinlock, hret]

lemma refines_unlock (h : Represents σ k) {held : Bool} (hp : σ.objects p = some (.spinlock held))
    (state : Word) : Refines σ k (.unlockSpinlock p state) := by
  cases hflags : fromBits state with
  | none =>
      refine Or.inr ⟨?_, Or.inl (.unlockSpinlock hflags)⟩
      simp [Kernel.exec, Kernel.unlockSpinlock, hflags]
  | some flags =>
      obtain ⟨k', hret, hR⟩ := h.store (x := .spinlock false) (v := 0) hp rfl fun mem hmem => hmem
      have hret' : k.store boolLayout p 0 = some k' := hret
      refine refines ?_ (.unlockSpinlock hp hflags) (hR.restored flags)
      simp [Kernel.exec, Kernel.unlockSpinlock, hflags, hret']

/-- The counter of an event, as a load finds it. -/
lemma load_event (h : Represents σ k) {count : BitVec 16} (hp : σ.objects p = some (.event count)) :
    k.load u16Layout p = some count.toNat :=
  (h.load hp).trans (congrArg some (h.stored.encoded hp))

lemma refines_wait (h : Represents σ k) {count : BitVec 16} (timeout : BitVec 16)
    (hp : σ.objects p = some (.event count)) : Refines σ k (.waitForEvent p timeout) := by
  have hload := h.load_event hp
  by_cases hzero : count = 0
  · subst hzero
    refine Or.inr ⟨?_, Or.inl (.waitForEvent timeout hp)⟩
    simp [Kernel.exec, Kernel.waitForEvent, hload]
  · have hpos : count.toNat > 0 := Nat.pos_of_ne_zero fun h => hzero (BitVec.eq_of_toNat_eq h)
    have hlt := count.isLt
    refine h.refines_store (x := .event (count - 1)) (v := count.toNat - 1) hp ?_ rfl
      (fun mem hmem => ?_) (.waitForEvent timeout hp hzero)
    · simp only [Kernel.exec, Kernel.waitForEvent, hload, Option.bind_eq_bind, Option.bind_some,
        if_pos hpos]
      rfl
    · have hone : BitVec.toNat (1 : BitVec 16) = 1 := rfl
      refine hmem.trans ?_
      rw [BitVec.toNat_sub, hone]
      show (count.toNat - 1) % 256 ^ 2 = _
      omega

lemma refines_signal (h : Represents σ k) {count : BitVec 16}
    (hp : σ.objects p = some (.event count)) : Refines σ k (.signalEvent p) := by
  have hload := h.load_event hp
  refine h.refines_store (x := .event (count + 1)) (v := (count.toNat + 1) % 2 ^ 16) hp ?_ rfl
    (fun mem hmem => ?_) (.signalEvent hp)
  · simp only [Kernel.exec, Kernel.signalEvent, hload, Option.bind_eq_bind, Option.bind_some]
    rfl
  · have hone : BitVec.toNat (1 : BitVec 16) = 1 := rfl
    refine hmem.trans ?_
    rw [BitVec.toNat_add, hone]
    show (count.toNat + 1) % 2 ^ 16 % 256 ^ 2 = _
    omega

lemma refines_write (h : Represents σ k) {i : ℕ} {n : MallocSize} {contents : ℕ → UInt8}
    (b : UInt8) (hp : σ.objects p = some (.memory n contents)) (hi : i < n.size) :
    Refines σ k (.write (p + 8) i b) := by
  obtain ⟨hhead, hcontents⟩ := h.stored.encoded hp
  refine refines rfl (.write b hp hi) (h.write hp rfl ?_ ⟨?_, fun j hj => ?_⟩)
  · refine Finset.mem_Ico.mpr ⟨?_, ?_⟩
    · show p ≤ p + 8 + i
      omega
    · show p + 8 + i < p + (n.size + 8)
      omega
  · refine (Mem.read64_congr fun a ha => Function.update_of_ne ?_ _ _).trans hhead
    rw [Finset.mem_Ico] at ha
    omega
  · by_cases hji : j = i
    · subst hji
      rw [Function.update_self, Function.update_self]
    · rw [Function.update_of_ne (by omega), Function.update_of_ne hji]
      exact hcontents j hj

lemma refines_heapAlloc (h : Represents σ k) (layout : Layout) (hsize : 1 ≤ layout.size) :
    Refines σ k (.heapAlloc layout) := by
  rcases halloc : A.alloc k.state k.mem layout with ⟨p, st', mem₁⟩
  have hexec : k.exec (.heapAlloc layout) = some (.handle p, ⟨st', mem₁, k.rflags⟩) := by
    rw [Kernel.exec, halloc]
  by_cases hp : p = 0
  · subst hp
    obtain ⟨hv, hkeep, ⟨-, hhanded⟩ | ⟨⟨hne, -⟩, -⟩⟩ := A.alloc_spec h.stored.valid hsize halloc
    · have hS := h.stored.of_kept hv (fun B hB => hhanded ▸ hB) hkeep
      exact refines hexec (.heapNull layout) ⟨hS, h.rflags⟩
    · exact absurd rfl hne
  · obtain ⟨hfresh, hR⟩ := h.insert (o := .other layout hsize) halloc hp (fun _ _ => rfl) trivial
    exact refines hexec (.heapAlloc layout hsize hp hfresh) hR

lemma refines_heapWrite (h : Represents σ k) {a : ℕ} {layout : Layout} {hsize : 1 ≤ layout.size}
    (b : UInt8) (hp : σ.objects p = some (.other layout hsize))
    (ha : a ∈ Block.bytes (p, layout)) : Refines σ k (.heapWrite a b) := by
  have hR := h.write (b := b) hp rfl ha trivial
  have hsame : σ.put p (.other layout hsize) = σ := by
    rw [Spec.put, ← hp, Function.update_eq_self]
  rw [hsame] at hR
  exact refines rfl (.heapWrite b hp ha) hR

end Represents

/-- **One call of the kernel is one step of the store**, or it panics for one of the two reasons. -/
lemma exec_cases {A : GlobalAllocator} {σ : Spec} {k : Kernel A} (h : Represents σ k) {c : Call}
    (hc : σ.Legal c) : Refines σ k c := by
  cases c with
  | alloc size => exact h.refines_alloc size
  | free q =>
      obtain ⟨p, n, contents, rfl, hp⟩ := hc
      exact h.refines_free hp
  | createMutex =>
      exact h.refines_create (o := .mutex false) rfl rfl (fun mem p hmem => hmem)
        fun p hp hfresh => .createMutex hp hfresh
  | freeMutex p =>
      obtain ⟨held, hp⟩ := hc
      exact h.refines_drop hp rfl (.freeMutex hp)
  | acquireMutex p timeout =>
      obtain ⟨held, hp⟩ := hc
      exact h.refines_acquire timeout hp
  | releaseMutex p =>
      obtain ⟨held, hp⟩ := hc
      exact h.refines_store (x := .mutex false) hp rfl rfl (fun mem hmem => hmem) (.releaseMutex hp)
  | createEvent =>
      exact h.refines_create (o := .event 0) rfl rfl (fun mem p hmem => hmem)
        fun p hp hfresh => .createEvent hp hfresh
  | freeEvent p =>
      obtain ⟨count, hp⟩ := hc
      exact h.refines_drop hp rfl (.freeEvent hp)
  | waitForEvent p timeout =>
      obtain ⟨count, hp⟩ := hc
      exact h.refines_wait timeout hp
  | signalEvent p =>
      obtain ⟨count, hp⟩ := hc
      exact h.refines_signal hp
  | resetEvent p =>
      obtain ⟨count, hp⟩ := hc
      exact h.refines_store (x := .event 0) hp rfl rfl (fun mem hmem => hmem) (.resetEvent hp)
  | createSpinlock =>
      exact h.refines_create (o := .spinlock false) rfl rfl (fun mem p hmem => hmem)
        fun p hp hfresh => .createSpinlock hp hfresh
  | freeSpinlock p =>
      obtain ⟨held, hp⟩ := hc
      exact h.refines_drop hp rfl (.freeSpinlock hp)
  | lockSpinlock p =>
      obtain ⟨held, hp⟩ := hc
      exact h.refines_lock hp
  | unlockSpinlock p state =>
      obtain ⟨held, hp⟩ := hc
      exact h.refines_unlock hp state
  | disableInterrupts =>
      refine Represents.refines ?_ .disableInterrupts h.cli
      rw [Kernel.exec, h.rflags]
  | restoreInterrupts state =>
      cases hflags : fromBits state with
      | none =>
          refine Or.inr ⟨?_, Or.inl (.restoreInterrupts hflags)⟩
          simp [Kernel.exec, Kernel.restoreInterrupts, hflags]
      | some flags =>
          refine Represents.refines ?_ (.restoreInterrupts hflags) (h.restored flags)
          simp [Kernel.exec, Kernel.restoreInterrupts, hflags]
  | read q i =>
      obtain ⟨p, n, contents, rfl, hp, hi⟩ := hc
      refine Represents.refines ?_ (.read hp hi) h
      rw [Kernel.exec, (h.stored.encoded hp).2 i hi]
  | write q i b =>
      obtain ⟨p, n, contents, rfl, hp, hi⟩ := hc
      exact h.refines_write b hp hi
  | heapAlloc layout => exact h.refines_heapAlloc layout hc
  | heapDealloc p layout =>
      obtain ⟨hsize, hp⟩ := hc
      exact h.refines_drop hp rfl (.heapDealloc hp)
  | heapWrite a b =>
      obtain ⟨p, layout, hsize, hp, ha⟩ := hc
      exact h.refines_heapWrite b hp ha

/-- A call without a block for it does not answer. -/
lemma exec_eq_none_of_exhausted {A : GlobalAllocator} {k : Kernel A} {c : Call}
    (h : k.Exhausted c) : k.exec c = none := by
  obtain ⟨layout, hasks, hnull⟩ := h
  have hbox : ∀ v, k.boxNew layout v = none := fun v => if_pos hnull
  cases c with
  | alloc size =>
      have hnone : uacpiKernelAlloc A k.state k.mem size = none := by
        refine Option.eq_none_iff_forall_ne_some.mpr fun r hr => ?_
        obtain ⟨layout', ptr, mem₁, hl, halloc, ⟨hptr, -⟩, -⟩ := uacpiKernelAlloc_eq_some.mp hr
        cases hasks.symm.trans hl
        rw [halloc] at hnull
        exact hptr hnull
      rw [Kernel.exec, hnone]
      rfl
  | createMutex =>
      cases hasks
      exact congrArg (Option.map _) (hbox 0)
  | createEvent =>
      cases hasks
      exact congrArg (Option.map _) (hbox 0)
  | createSpinlock =>
      cases hasks
      exact congrArg (Option.map _) (hbox 0)
  | _ => cases hasks

/-! ### Sequences of calls -/

/-- The kernel answers a sequence of calls. -/
inductive Kernel.Answers {A : GlobalAllocator} :
    Kernel A → List (Call × Ret) → Kernel A → Prop where
  | nil {k : Kernel A} : Answers k [] k
  | cons {k k₁ k' : Kernel A} {c : Call} {r : Ret} {trace : List (Call × Ret)}
      (hcall : k.exec c = some (r, k₁)) (hrest : Answers k₁ trace k') :
      Answers k ((c, r) :: trace) k'

/-- The store answers a sequence of calls. -/
inductive Spec.Answers : Spec → List (Call × Ret) → Spec → Prop where
  | nil {σ : Spec} : Answers σ [] σ
  | cons {σ σ₁ σ' : Spec} {c : Call} {r : Ret} {trace : List (Call × Ret)}
      (hstep : σ.Step c r σ₁) (hrest : Answers σ₁ trace σ') : Answers σ ((c, r) :: trace) σ'

/-- The callers keep to the interface, whatever they are answered. -/
def Spec.Disciplined : Spec → List (Call × Ret) → Prop
  | _, [] => True
  | σ, (c, r) :: trace => σ.Legal c ∧ ∀ σ', σ.Step c r σ' → σ'.Disciplined trace

/-- **The run lemma**: what the kernel has answered, the store may answer. -/
lemma Represents.run {A : GlobalAllocator} {σ : Spec} {k k' : Kernel A} {trace : List (Call × Ret)}
    (h : Represents σ k) (hrun : k.Answers trace k') (hd : σ.Disciplined trace) :
    ∃ σ', σ.Answers trace σ' ∧ Represents σ' k' := by
  induction hrun generalizing σ with
  | nil => exact ⟨σ, .nil, h⟩
  | @cons k k₁ k' c r trace hcall _ ih =>
      obtain ⟨hlegal, hd⟩ := hd
      obtain ⟨r', k₂, σ₁, hexec, hstep, hR⟩ | ⟨hnone, -⟩ := exec_cases h hlegal
      · cases hcall.symm.trans hexec
        obtain ⟨σ', hσ, hR'⟩ := ih hR (hd σ₁ hstep)
        exact ⟨σ', .cons hstep hσ, hR'⟩
      · cases hcall.symm.trans hnone

/-- **The objects of uACPI on the kernel heap refine a store of objects.**  Along every sequence of
calls that keeps to the interface, on any allocator that meets its contract and with any other users
of the heap, the kernel answers as the store does; the live objects lie in blocks that are apart;
and a call panics exactly when the store says so or the heap has no block for it. -/
theorem objects_refine (A : GlobalAllocator) (k₀ k : Kernel A) (hv : A.Valid k₀.state k₀.mem)
    (trace : List (Call × Ret)) (hrun : k₀.Answers trace k)
    (hd : Spec.Disciplined ⟨fun _ => none, k₀.rflags⟩ trace) :
    ∃ σ, Spec.Answers ⟨fun _ => none, k₀.rflags⟩ trace σ ∧
      (∀ p q o o', σ.objects p = some o → σ.objects q = some o' → p ≠ q →
        Disjoint (Block.bytes (p, o.layout)) (Block.bytes (q, o'.layout))) ∧
      (∀ p o, σ.objects p = some o → o.Encoded k.mem p) ∧
      ∀ c, σ.Legal c → (k.exec c = none ↔ σ.Panics c ∨ k.Exhausted c) := by
  have h₀ : Represents ⟨fun _ => none, k₀.rflags⟩ k₀ := ⟨Stored.empty hv, rfl⟩
  obtain ⟨σ, hσ, hR⟩ := h₀.run hrun hd
  refine ⟨σ, hσ, fun p q o o' hp hq hne => hR.stored.apart hp hq hne,
    fun p o hp => hR.stored.encoded hp, fun c hc => ⟨fun hnone => ?_, fun h => ?_⟩⟩
  · obtain ⟨r, k', σ', hexec, -⟩ | ⟨-, hwhy⟩ := exec_cases hR hc
    · cases hnone.symm.trans hexec
    · exact hwhy
  · cases h with
    | inr hex => exact exec_eq_none_of_exhausted hex
    | inl hpanics =>
        obtain ⟨r, k', σ', -, hstep, -⟩ | ⟨hnone, -⟩ := exec_cases hR hc
        · exact absurd hpanics hstep.not_panics
        · exact hnone

/-- The kernel before the first call. -/
def kernelStart : Kernel bumpAllocator := ⟨uacpiStart.state, uacpiStart.mem, 0x202⟩

/-- A mutex is made and acquired; acquiring it once more would panic. -/
theorem objects_refine_mutex : ∃ k : Kernel bumpAllocator,
    kernelStart.Answers
      [(.createMutex, .handle heapStart), (.acquireMutex heapStart 0, .ok)] k ∧
      k.exec (.acquireMutex heapStart 0) = none := by
  have hcreate : (kernelStart.exec .createMutex).map Prod.fst = some (.handle heapStart) := by
    decide +kernel
  obtain ⟨⟨r₁, k₁⟩, hcall₁, rfl⟩ := Option.map_eq_some_iff.mp hcreate
  have hacquire : ((kernelStart.exec .createMutex).bind fun r =>
      (r.2.exec (.acquireMutex heapStart 0)).map Prod.fst) = some .ok := by decide +kernel
  rw [hcall₁, Option.bind_some] at hacquire
  obtain ⟨⟨r₂, k₂⟩, hcall₂, rfl⟩ := Option.map_eq_some_iff.mp hacquire
  have hrun : kernelStart.Answers
      [(.createMutex, .handle heapStart), (.acquireMutex heapStart 0, .ok)] k₂ :=
    .cons hcall₁ (.cons hcall₂ .nil)
  have hd : Spec.Disciplined ⟨fun _ => none, kernelStart.rflags⟩
      [(.createMutex, .handle heapStart), (.acquireMutex heapStart 0, .ok)] := by
    refine ⟨trivial, fun σ₁ hstep => ?_⟩
    cases hstep
    exact ⟨⟨false, Spec.put_objects_self ..⟩, fun _ _ => trivial⟩
  obtain ⟨σ, hσ, -, -, hpanics⟩ :=
    objects_refine bumpAllocator kernelStart k₂ uacpiStart_start.valid _ hrun hd
  have htaken : σ.objects heapStart = some (.mutex true) := by
    cases hσ with
    | cons hstep₁ hrest =>
        cases hrest with
        | cons hstep₂ hrest =>
            cases hrest
            cases hstep₂
            exact Spec.put_objects_self ..
  have hpanic : k₂.exec (.acquireMutex heapStart 0) = none :=
    (hpanics (.acquireMutex heapStart 0) ⟨true, htaken⟩).mpr (Or.inl (.acquireMutex 0 htaken))
  exact ⟨k₂, hrun, hpanic⟩

end Uacpi

end Titanium
