import Mathlib.Data.Finset.Max
import Mathlib.Tactic

/-!
An interrupt controller with priorities.

Interrupts have vectors, and a vector has a level.  A request waits until no interrupt of its level
or a higher one is in service.  The processor says that it is done by an acknowledgement that names
no vector: the controller takes it for the greatest one in service.

* `request`, `accept`, `eoi`: the controller.
* `Serves`: the interrupts in service are those of some handlers, one inside the other.
* `Serves.accept`, `Serves.eoi`: **an acknowledgement by the innermost handler is taken for its
  own interrupt**.
-/

namespace Titanium

/-- The vectors that are requested, and those that are in service. -/
structure InterruptController (V : Type*) where
  irr : Finset V
  isr : Finset V

namespace InterruptController

variable {V : Type*} [LinearOrder V] (level : V → ℕ) (c : InterruptController V)

/-- A device requests an interrupt.  A second request is not told from the first. -/
def request (v : V) : InterruptController V := { c with irr := insert v c.irr }

/-- The processor is given the interrupt: it is the greatest that is requested, and its level is
above those in service. -/
def Accepts (v : V) : Prop :=
  v ∈ c.irr ∧ (∀ w ∈ c.irr, w ≤ v) ∧ ∀ w ∈ c.isr, level w < level v

instance (v : V) : Decidable (c.Accepts level v) :=
  inferInstanceAs (Decidable (_ ∧ (∀ w ∈ c.irr, w ≤ v) ∧ ∀ w ∈ c.isr, level w < level v))

/-- The processor takes the interrupt. -/
def accept (v : V) : InterruptController V := ⟨c.irr.erase v, insert v c.isr⟩

/-- The processor acknowledges an interrupt. -/
def eoi : InterruptController V := { c with isr := c.isr.filter fun v => ∃ w ∈ c.isr, v < w }

/-- What an acknowledgement is taken for. -/
def ended : Finset V := c.isr \ c.eoi.isr

/-- These handlers are unfinished, the innermost first. -/
structure Serves (hs : List V) : Prop where
  isr : c.isr = hs.toFinset
  nested : hs.Pairwise fun v w => level w < level v

variable {level c} {v : V} {hs : List V}

variable (level) in
/-- A greatest request is accepted when nothing is in service. -/
lemma exists_accepts (hisr : c.isr = ∅) (hv : v ∈ c.irr) : ∃ w, v ≤ w ∧ c.Accepts level w := by
  have hne : c.irr.Nonempty := ⟨v, hv⟩
  refine ⟨c.irr.max' hne, c.irr.le_max' v hv, c.irr.max'_mem hne, c.irr.le_max', ?_⟩
  rw [hisr]
  exact fun w hw => absurd hw (Finset.notMem_empty w)

lemma Serves.accept (h : c.Serves level hs) (hv : c.Accepts level v) :
    (c.accept v).Serves level (v :: hs) := by
  refine ⟨?_, List.pairwise_cons.mpr ⟨fun w hw => hv.2.2 w ?_, h.nested⟩⟩
  · rw [InterruptController.accept, h.isr, List.toFinset_cons]
  · rwa [h.isr, List.mem_toFinset]

lemma Serves.lt (hlevel : Monotone level) (h : c.Serves level (v :: hs)) {w : V} (hw : w ∈ hs) :
    w < v :=
  hlevel.reflect_lt ((List.pairwise_cons.mp h.nested).1 w hw)

lemma Serves.eoi (hlevel : Monotone level) (h : c.Serves level (v :: hs)) :
    c.eoi.Serves level hs := by
  refine ⟨?_, (List.pairwise_cons.mp h.nested).2⟩
  ext w
  simp only [InterruptController.eoi, h.isr, Finset.mem_filter, List.mem_toFinset, List.mem_cons]
  constructor
  · rintro ⟨rfl | hw, u, rfl | hu, hlt⟩
    · exact absurd hlt (lt_irrefl _)
    · exact absurd hlt (h.lt hlevel hu).asymm
    · exact hw
    · exact hw
  · intro hw
    exact ⟨.inr hw, v, .inl rfl, h.lt hlevel hw⟩

/-- **The innermost handler ends its own interrupt.** -/
lemma Serves.ended (hlevel : Monotone level) (h : c.Serves level (v :: hs)) : c.ended = {v} := by
  rw [InterruptController.ended, (h.eoi hlevel).isr, h.isr, List.toFinset_cons]
  ext w
  simp only [Finset.mem_sdiff, Finset.mem_insert, List.mem_toFinset, Finset.mem_singleton]
  constructor
  · rintro ⟨rfl | hw, hnot⟩
    · rfl
    · exact absurd hw hnot
  · rintro rfl
    exact ⟨.inl rfl, fun hw => lt_irrefl _ (h.lt hlevel hw)⟩

end InterruptController

end Titanium
