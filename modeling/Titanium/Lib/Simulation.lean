import Mathlib.Data.List.Basic
import Mathlib.Logic.Relation

/-!
Forward simulation between systems whose events may be impossible.

A system is its step function, `none` for an event that cannot happen; what is
assumed of its events is a predicate that may look at the state.

* `Along`: every event of a run is as assumed.
* `Simulation`: a step of the first system is a run of the second one.
* `Simulation.run`: **so is every run**; `Simulation.trans`: simulations compose.
-/

namespace Titanium

variable {σ τ υ ε δ γ : Type*}

section Along

variable (step : σ → ε → Option σ) (ok : σ → ε → Prop)

/-- Along the run, every event is as assumed. -/
def Along (s : σ) : List ε → Prop
  | [] => True
  | e :: es => ok s e ∧
      match step s e with
      | some s' => Along s' es
      | none => True

instance decidableAlong [∀ s e, Decidable (ok s e)] :
    ∀ (s : σ) (es : List ε), Decidable (Along step ok s es)
  | _, [] => isTrue trivial
  | _, _ :: es =>
      have : ∀ o : Option σ, Decidable (match o with
          | some s' => Along step ok s' es
          | none => True)
        | some s' => decidableAlong s' es
        | none => isTrue trivial
      inferInstanceAs (Decidable (_ ∧ _))

variable {step ok} {s s' : σ} {e : ε} {es es' : List ε}

lemma along_cons_of_step (h : step s e = some s') :
    Along step ok s (e :: es) ↔ ok s e ∧ Along step ok s' es := by
  rw [Along, h]

lemma along_singleton (h : ok s e) : Along step ok s [e] := by
  refine ⟨h, ?_⟩
  cases step s e <;> trivial

lemma Along.append (h : Along step ok s es) (hrun : es.foldlM step s = some s')
    (h' : Along step ok s' es') : Along step ok s (es ++ es') := by
  induction es generalizing s with
  | nil =>
      cases hrun
      exact h'
  | cons e es ih =>
      obtain ⟨s₁, h₁, hrun⟩ := Option.bind_eq_some_iff.mp hrun
      rw [along_cons_of_step h₁] at h
      rw [List.cons_append, along_cons_of_step h₁]
      exact ⟨h.1, ih h.2 hrun⟩

/-- What is assumed of the events in every state holds of each of them. -/
lemma Along.forall_mem {good : ε → Prop} (h : Along step (fun _ => good) s es)
    (hrun : es.foldlM step s = some s') : ∀ e ∈ es, good e := by
  induction es generalizing s with
  | nil => exact List.forall_mem_nil _
  | cons e es ih =>
      obtain ⟨s₁, h₁, hrun⟩ := Option.bind_eq_some_iff.mp hrun
      rw [along_cons_of_step h₁] at h
      exact List.forall_mem_cons.mpr ⟨h.1, ih h.2 hrun⟩

end Along

/-- **A step of the first system is a run of the second one**, in related states. -/
structure Simulation (step : σ → ε → Option σ) (ok : σ → ε → Prop)
    (step' : τ → δ → Option τ) (ok' : τ → δ → Prop) (R : σ → τ → Prop) : Prop where
  step : ∀ {s s' t e}, R s t → ok s e → step s e = some s' →
    ∃ ds t', ds.foldlM step' t = some t' ∧ Along step' ok' t ds ∧ R s' t'

namespace Simulation

variable {step : σ → ε → Option σ} {ok : σ → ε → Prop} {step' : τ → δ → Option τ}
  {ok' : τ → δ → Prop} {R : σ → τ → Prop}

/-- **A run of the first system is a run of the second one.** -/
theorem run (h : Simulation step ok step' ok' R) {s s' : σ} {t : τ} {es : List ε} (hR : R s t)
    (hok : Along step ok s es) (hrun : es.foldlM step s = some s') :
    ∃ ds t', ds.foldlM step' t = some t' ∧ Along step' ok' t ds ∧ R s' t' := by
  induction es generalizing s t with
  | nil =>
      cases hrun
      exact ⟨[], t, rfl, trivial, hR⟩
  | cons e es ih =>
      obtain ⟨s₁, h₁, hrun⟩ := Option.bind_eq_some_iff.mp hrun
      rw [along_cons_of_step h₁] at hok
      obtain ⟨ds₁, t₁, hds₁, hok₁, hR₁⟩ := h.step hR hok.1 h₁
      obtain ⟨ds, t', hds, hok', hR'⟩ := ih hR₁ hok.2 hrun
      refine ⟨ds₁ ++ ds, t', ?_, hok₁.append hds₁ hok', hR'⟩
      rw [List.foldlM_append, hds₁]
      exact hds

/-- Simulations compose. -/
theorem trans {step'' : υ → γ → Option υ} {ok'' : υ → γ → Prop} {R' : τ → υ → Prop}
    (h : Simulation step ok step' ok' R) (h' : Simulation step' ok' step'' ok'' R') :
    Simulation step ok step'' ok'' (Relation.Comp R R') where
  step := by
    rintro s s' u e ⟨t, hR, hR'⟩ hok hstep
    obtain ⟨ds, t', hds, hok', hRt⟩ := h.step hR hok hstep
    obtain ⟨gs, u', hgs, hok'', hRu⟩ := h'.run hR' hok' hds
    exact ⟨gs, u', hgs, hok'', t', hRt, hRu⟩

end Simulation

end Titanium
