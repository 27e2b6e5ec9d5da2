import Mathlib.Tactic
import Mathlib.Data.List.Nodup

/-!
Round robin over a FIFO queue, abstractly.

A `Ring` is a queue together with what has been dispatched from it and not yet
been released.  The moves put a new element at the back, dispatch the front, and
put what was dispatched back to the back.

* `Ring.Run.nodup`: no element is lost or duplicated along a run.
* `Ring.Run.dispatches_eq`: what is dispatched before an element that waits in
  the queue is exactly what waits in front of it.
* `Ring.Run.dispatched_once`: between two dispatches of an element everything
  that was queued at the first one is dispatched exactly once.
-/

namespace Titanium

variable {α : Type*}

/-- A queue, and the element that is dispatched. -/
structure Ring (α : Type*) where
  queue : List α
  running : Option α

namespace Ring

/-- The moves. -/
inductive Move (α : Type*) where
  | enqueue (a : α)
  | dispatch (a : α)
  | release

/-- Everything the ring holds. -/
def elements (s : Ring α) : List α := s.queue ++ s.running.toList

/-- One move; only what the ring does not hold is enqueued. -/
inductive Step : Ring α → Move α → Ring α → Prop where
  | enqueue {q : List α} {r : Option α} {a : α} (h : a ∉ (⟨q, r⟩ : Ring α).elements) :
      Step ⟨q, r⟩ (.enqueue a) ⟨q ++ [a], r⟩
  | dispatch {q : List α} {a : α} : Step ⟨a :: q, none⟩ (.dispatch a) ⟨q, some a⟩
  | release {q : List α} {a : α} : Step ⟨q, some a⟩ .release ⟨q ++ [a], none⟩

/-- A sequence of moves. -/
inductive Run : Ring α → List (Move α) → Ring α → Prop where
  | nil (s : Ring α) : Run s [] s
  | cons {s s₁ s' : Ring α} {m : Move α} {ms : List (Move α)} (h : Step s m s₁)
      (hrun : Run s₁ ms s') : Run s (m :: ms) s'

/-- The elements that the moves dispatch, in order. -/
def dispatches : List (Move α) → List α
  | [] => []
  | .dispatch a :: ms => a :: dispatches ms
  | _ :: ms => dispatches ms

@[simp] lemma dispatches_append (ms ms' : List (Move α)) :
    dispatches (ms ++ ms') = dispatches ms ++ dispatches ms' := by
  induction ms with
  | nil => rfl
  | cons m ms ih => cases m <;> simp [dispatches, ih]

/-- What a move brings into the ring. -/
def Move.enqueued : Move α → List α
  | .enqueue a => [a]
  | _ => []

/-- **A move loses nothing and duplicates nothing.** -/
lemma Step.perm {s s' : Ring α} {m : Move α} (h : Step s m s') :
    s'.elements.Perm (m.enqueued ++ s.elements) := by
  cases h <;> simp [elements, Move.enqueued]

lemma Step.nodup {s s' : Ring α} {m : Move α} (h : Step s m s') (hs : s.elements.Nodup) :
    s'.elements.Nodup := by
  refine h.perm.nodup_iff.mpr ?_
  cases h with
  | enqueue ha => exact List.nodup_cons.mpr ⟨ha, hs⟩
  | dispatch => exact hs
  | release => exact hs

namespace Run

variable {s s₁ s' : Ring α} {ms ms' : List (Move α)}

lemma nodup (h : Run s ms s') (hs : s.elements.Nodup) : s'.elements.Nodup := by
  induction h with
  | nil => exact hs
  | cons hstep _ ih => exact ih (hstep.nodup hs)

lemma trans (h : Run s ms s₁) (h' : Run s₁ ms' s') : Run s (ms ++ ms') s' := by
  induction h with
  | nil => exact h'
  | cons hstep _ ih => exact Run.cons hstep (ih h')

/-- **While an element waits**, what is dispatched is exactly what is in front
of it. -/
lemma dispatches_eq {a : α} {q' : List α} (h : Run s ms ⟨a :: q', none⟩)
    (hms : a ∉ dispatches ms) {front back : List α} (hq : s.queue = front ++ a :: back)
    (ha : a ∉ front) : dispatches ms = front := by
  induction ms generalizing s front back with
  | nil =>
      cases h
      cases front with
      | nil => rfl
      | cons b front =>
          obtain ⟨rfl, -⟩ := List.cons.inj hq
          exact absurd (List.mem_cons_self ..) ha
  | cons m ms ih =>
      cases h with
      | cons hstep hrun =>
          cases hstep with
          | @enqueue q r b hb =>
              have hq' : q ++ [b] = front ++ a :: (back ++ [b]) := by
                rw [show q = front ++ a :: back from hq]
                simp
              exact ih hrun hms hq' ha
          | @release q b =>
              have hq' : q ++ [b] = front ++ a :: (back ++ [b]) := by
                rw [show q = front ++ a :: back from hq]
                simp
              exact ih hrun hms hq' ha
          | @dispatch q b =>
              simp only [dispatches, List.mem_cons, not_or] at hms
              cases front with
              | nil =>
                  obtain ⟨rfl, -⟩ := List.cons.inj hq
                  exact absurd rfl hms.1
              | cons c front =>
                  obtain ⟨rfl, hq'⟩ := List.cons.inj hq
                  rw [dispatches, ih hrun hms.2 hq' fun h' => ha (List.mem_cons_of_mem b h')]

/-- **From one dispatch of an element to the next**: first everything queued is
dispatched, then what was enqueued while the element was running. -/
lemma prefix_dispatches {a : α} {q q' : List α} (h : Run ⟨q, some a⟩ ms ⟨a :: q', none⟩)
    (hms : a ∉ dispatches ms) (hnd : (q ++ [a]).Nodup) :
    q <+: dispatches ms ∧ (dispatches ms).Nodup := by
  induction ms generalizing q with
  | nil => cases h
  | cons m ms ih =>
      cases h with
      | cons hstep hrun =>
          have hnd' := hstep.nodup hnd
          cases hstep with
          | @enqueue _ _ b hb =>
              obtain ⟨hpre, hD⟩ := ih hrun hms hnd'
              exact ⟨(List.prefix_append q [b]).trans hpre, hD⟩
          | release =>
              have haq : a ∉ q := fun h' => by
                simpa using (List.nodup_append.mp hnd).2.2 a h' a (List.mem_singleton_self a)
              have heq : dispatches ms = q :=
                hrun.dispatches_eq hms (show q ++ [a] = q ++ a :: [] from rfl) haq
              show q <+: dispatches ms ∧ (dispatches ms).Nodup
              rw [heq]
              exact ⟨List.prefix_rfl, (List.nodup_append.mp hnd).1⟩

/-- **Exactly once.** -/
theorem dispatched_once [DecidableEq α] {a : α} {q q' : List α}
    (h : Run ⟨q, some a⟩ ms ⟨a :: q', none⟩) (hms : a ∉ dispatches ms) (hnd : (q ++ [a]).Nodup)
    {b : α} (hb : b ∈ q) : (dispatches ms).count b = 1 := by
  obtain ⟨hpre, hD⟩ := h.prefix_dispatches hms hnd
  exact List.count_eq_one_of_mem hD (hpre.subset hb)

end Run

end Ring

end Titanium
