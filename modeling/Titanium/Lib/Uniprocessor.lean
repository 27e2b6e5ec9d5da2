import Mathlib.Tactic

/-!
Many contexts on one processor.

The contexts share a state, and one of them is running.  Another one gets the
processor when interrupts are enabled, or when the running context gives it up,
which it only does outside of the code that is looked at.  A context that goes on
finds the interrupt flag as it left it; one that is outside of the code may have
changed it since.

* `step`, `run`: any interleaving.
* `Rule`: what holds of the running context, of one that waits, and of the shared
  state when the processor may change hands.
* `Rule.holds_run`: **what these say holds in every run**.
-/

namespace Titanium

namespace Uniprocessor

/-- The contexts and what they share. -/
structure Config (π σ : Type*) where
  contexts : ℕ → π
  /-- The interrupt flags of the contexts that wait. -/
  flags : ℕ → Bool
  running : ℕ
  /-- The interrupt flag. -/
  interrupts : Bool
  shared : σ

/-- The code of all contexts. -/
structure Code (α π σ : Type*) where
  /-- The context is outside of the code. -/
  outside : π → Bool
  /-- A step of the running context, with the interrupt flag. -/
  next : α → π → Bool → σ → Option (π × Bool × σ)

/-- What can happen. -/
inductive Event (α : Type*) where
  | act (a : α)
  /-- Another context gets the processor, with this flag if it is outside of the code. -/
  | switch (d : ℕ) (flag : Bool)

variable {α π σ : Type*} (K : Code α π σ)

/-- One event, `none` when it cannot happen. -/
def step (c : Config π σ) : Event α → Option (Config π σ)
  | .act a =>
      (K.next a (c.contexts c.running) c.interrupts c.shared).map fun x =>
        { c with
          contexts := Function.update c.contexts c.running x.1
          interrupts := x.2.1
          shared := x.2.2 }
  | .switch d flag =>
      if d ≠ c.running ∧ (c.interrupts = true ∨ K.outside (c.contexts c.running) = true) then
        some { c with
          flags := Function.update c.flags c.running c.interrupts
          running := d
          interrupts := if K.outside (c.contexts d) then flag else c.flags d }
      else none

/-- A run. -/
def run (c : Config π σ) (es : List (Event α)) : Option (Config π σ) := es.foldlM (step K) c

/-- Conditions on contexts and the shared state that all steps keep. -/
structure Rule where
  /-- Of the running context. -/
  Running : π → Bool → σ → Prop
  /-- Of a context that waits. -/
  Waiting : π → Bool → Prop
  /-- Of the shared state when the processor changes hands. -/
  Free : σ → Prop
  act : ∀ {a p i s p' i' s'}, Running p i s → K.next a p i s = some (p', i', s') → Running p' i' s'
  wait : ∀ {p i s}, Running p i s → i = true ∨ K.outside p = true → Waiting p i ∧ Free s
  resume : ∀ {p i s}, Waiting p i → Free s → Running p i s
  outside : ∀ {p i j}, K.outside p = true → Waiting p i → Waiting p j

variable {K} (R : Rule K)

/-- The conditions hold. -/
structure Rule.Holds (c : Config π σ) : Prop where
  running : R.Running (c.contexts c.running) c.interrupts c.shared
  waiting : ∀ d, d ≠ c.running → R.Waiting (c.contexts d) (c.flags d)

variable {R} {c c' : Config π σ}

/-- One event keeps the conditions. -/
lemma Rule.Holds.step {e : Event α} (h : R.Holds c) (hstep : step K c e = some c') :
    R.Holds c' := by
  cases e with
  | act a =>
      obtain ⟨⟨p, i, s⟩, hnext, rfl⟩ := Option.map_eq_some_iff.mp hstep
      refine ⟨?_, fun d hd => ?_⟩
      · simp only [Function.update_self]
        exact R.act h.running hnext
      · simp only [Function.update_of_ne hd]
        exact h.waiting d hd
  | switch d flag =>
      obtain ⟨⟨hd, hswitch⟩, heq⟩ := Option.ite_none_right_eq_some.mp hstep
      cases heq
      obtain ⟨hwait, hfree⟩ := R.wait h.running hswitch
      refine ⟨R.resume ?_ hfree, fun e he => ?_⟩
      · have hd' := h.waiting d hd
        cases hout : K.outside (c.contexts d) with
        | true =>
            rw [if_pos rfl]
            exact R.outside hout hd'
        | false => simpa using hd'
      · by_cases her : e = c.running
        · rw [her]
          simpa using hwait
        · simp only [Function.update_of_ne her]
          exact h.waiting e her

/-- **Every run keeps the conditions.** -/
lemma Rule.holds_run {es : List (Event α)} (h : R.Holds c) (hrun : run K c es = some c') :
    R.Holds c' := by
  induction es generalizing c with
  | nil =>
      cases hrun
      exact h
  | cons e es ih =>
      obtain ⟨c₁, hstep, hrest⟩ := Option.bind_eq_some_iff.mp hrun
      exact ih (h.step hstep) hrest

end Uniprocessor

end Titanium
