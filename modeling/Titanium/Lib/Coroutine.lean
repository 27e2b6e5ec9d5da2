import Mathlib.Logic.Relation
import Mathlib.Tactic

/-!
Iterators made from coroutines.

A coroutine that is resumed in a state ends, panics, or yields a value and is
then in another state.

* `run`: what the iterator yields in so many turns; `Yields.run_eq`: how many are
  enough.
* `Reaches`: the states it comes to; `reaches_yielded`, `reaches_stopped`: what one
  turn adds to them.
* `terminates_of_measure`, `not_terminates_of_self`: it ends when every turn
  brings it closer to its end, and does not when a turn leads back to its state.
-/

namespace Titanium

/-- What a coroutine does when it is resumed. -/
inductive Turn (α σ : Type*) where
  | ended
  | panicked
  | yielded (a : α) (s : σ)

/-- How an iteration stands after some turns. -/
inductive Outcome where
  | ended
  | panicked
  | running
  deriving DecidableEq

namespace Turn

variable {α σ : Type*} (turn : σ → Turn α σ)

/-- The values yielded in `n` turns. -/
def run : ℕ → σ → List α × Outcome
  | 0, _ => ([], .running)
  | n + 1, s =>
      match turn s with
      | .ended => ([], .ended)
      | .panicked => ([], .panicked)
      | .yielded a s' => (a :: (run n s').1, (run n s').2)

/-- A turn that yields leads from `s` to `s'`. -/
def Next (s s' : σ) : Prop := ∃ a, turn s = .yielded a s'

/-- The states that turns lead to. -/
def Reaches : σ → σ → Prop := Relation.ReflTransGen (Next turn)

/-- The iteration is over after finitely many turns. -/
def Terminates (s : σ) : Prop := ∃ n, (run turn n s).2 ≠ .running

/-- The iterator yields `as`, and then ends. -/
def Yields (s : σ) (as : List α) : Prop := ∃ n, run turn n s = (as, .ended)

variable {turn} {s s' : σ} {a : α} {as : List α}

lemma run_ended (h : turn s = .ended) (n : ℕ) : run turn (n + 1) s = ([], .ended) := by
  rw [run, h]

lemma run_panicked (h : turn s = .panicked) (n : ℕ) : run turn (n + 1) s = ([], .panicked) := by
  rw [run, h]

lemma run_yielded (h : turn s = .yielded a s') (n : ℕ) :
    run turn (n + 1) s = (a :: (run turn n s').1, (run turn n s').2) := by
  rw [run, h]

/-! ### What is reached -/

lemma reaches_yielded {t : σ} (h : turn s = .yielded a s') :
    Reaches turn s t ↔ t = s ∨ Reaches turn s' t := by
  constructor
  · intro hreach
    obtain heq | ⟨next, ⟨b, hnext⟩, hrest⟩ := Relation.ReflTransGen.cases_head hreach
    · exact Or.inl heq.symm
    · rw [h] at hnext
      cases hnext
      exact Or.inr hrest
  · rintro (rfl | hreach)
    · exact .refl
    · exact .head ⟨a, h⟩ hreach

lemma reaches_stopped {t : σ} (h : ∀ a s', turn s ≠ .yielded a s') : Reaches turn s t ↔ t = s := by
  constructor
  · intro hreach
    obtain heq | ⟨next, ⟨b, hnext⟩, -⟩ := Relation.ReflTransGen.cases_head hreach
    · exact heq.symm
    · exact absurd hnext (h b next)
  · rintro rfl
    exact .refl

/-! ### What is yielded -/

lemma yields_nil (h : turn s = .ended) : Yields turn s [] := ⟨1, run_ended h 0⟩

lemma not_yields (h : turn s = .panicked) : ¬ Yields turn s as := by
  rintro ⟨n, hrun⟩
  cases n with
  | zero => cases hrun
  | succ n =>
      rw [run_panicked h] at hrun
      cases hrun

lemma yields_cons (h : turn s = .yielded a s') : Yields turn s (a :: as) ↔ Yields turn s' as := by
  constructor
  · rintro ⟨n, hrun⟩
    cases n with
    | zero => cases hrun
    | succ n =>
        rw [run_yielded h] at hrun
        obtain ⟨has, hend⟩ := Prod.mk.inj hrun
        exact ⟨n, Prod.ext (List.cons.inj has).2 hend⟩
  · rintro ⟨n, hrun⟩
    exact ⟨n + 1, by rw [run_yielded h, hrun]⟩

/-- The first turn either ends the iteration, or yields the first value. -/
lemma Yields.first (h : Yields turn s as) : turn s = .ended ∧ as = [] ∨
    ∃ a s' bs, turn s = .yielded a s' ∧ as = a :: bs ∧ Yields turn s' bs := by
  obtain ⟨n, hrun⟩ := h
  cases n with
  | zero => cases hrun
  | succ n =>
      cases hturn : turn s with
      | ended =>
          rw [run_ended hturn] at hrun
          exact Or.inl ⟨rfl, (Prod.mk.inj hrun).1.symm⟩
      | panicked => exact absurd ⟨_, hrun⟩ (not_yields hturn)
      | yielded a s' =>
          rw [run_yielded hturn] at hrun
          obtain ⟨has, hend⟩ := Prod.mk.inj hrun
          exact Or.inr ⟨a, s', _, rfl, has.symm, n, Prod.ext rfl hend⟩

/-- **More turns than values are enough turns.** -/
lemma Yields.run_eq (h : Yields turn s as) {n : ℕ} (hn : as.length < n) :
    run turn n s = (as, .ended) := by
  induction n generalizing s as with
  | zero => exact absurd hn (Nat.not_lt_zero _)
  | succ n ih =>
      obtain ⟨hturn, rfl⟩ | ⟨a, s', bs, hturn, rfl, hbs⟩ := h.first
      · exact run_ended hturn n
      · rw [run_yielded hturn, ih hbs (Nat.lt_of_succ_lt_succ hn)]

/-! ### Termination -/

lemma Yields.terminates (h : Yields turn s as) : Terminates turn s := by
  obtain ⟨n, hrun⟩ := h
  exact ⟨n, by rw [hrun]; exact nofun⟩

lemma terminates_next (h : turn s = .yielded a s') : Terminates turn s ↔ Terminates turn s' := by
  constructor
  · rintro ⟨n, hrun⟩
    cases n with
    | zero => exact absurd rfl hrun
    | succ n =>
        rw [run_yielded h] at hrun
        exact ⟨n, hrun⟩
  · rintro ⟨n, hrun⟩
    exact ⟨n + 1, by rwa [run_yielded h]⟩

lemma Reaches.terminates (h : Reaches turn s s') : Terminates turn s ↔ Terminates turn s' := by
  induction h with
  | refl => rfl
  | tail _ hnext ih =>
      obtain ⟨a, hturn⟩ := hnext
      exact ih.trans (terminates_next hturn)

/-- **A turn that leads nowhere is repeated for ever.** -/
lemma not_terminates_of_self (h : turn s = .yielded a s) : ¬ Terminates turn s := by
  rintro ⟨n, hrun⟩
  refine hrun ?_
  clear hrun
  induction n with
  | zero => rfl
  | succ n ih => rw [run_yielded h, ih]

/-- **The iteration ends when every turn comes closer to the end.** -/
lemma terminates_of_measure (μ : σ → ℕ)
    (h : ∀ t a t', Reaches turn s t → turn t = .yielded a t' → μ t' < μ t) :
    Terminates turn s := by
  induction hn : μ s using Nat.strong_induction_on generalizing s with
  | _ n ih =>
      cases hturn : turn s with
      | ended => exact ⟨1, by rw [run_ended hturn]; exact nofun⟩
      | panicked => exact ⟨1, by rw [run_panicked hturn]; exact nofun⟩
      | yielded a s' =>
          rw [terminates_next hturn]
          refine ih _ (hn ▸ h s a s' .refl hturn) (fun t b t' hreach => ?_) rfl
          exact h t b t' (.head ⟨a, hturn⟩ hreach)

end Turn

end Titanium
