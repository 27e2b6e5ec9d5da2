import Mathlib.Tactic

/-!
Computations that log what they do, and may panic.

A panic ends the computation, but what was logged before stays.

* `Logged.Follows`: the computation does what a list says, or panics on the way.
* `Follows.bind`, `Follows.forM`, `Follows.foldlM_range`: the rules for sequences and
  loops.
* `Follows.mem`, `Follows.log_eq`: what is known of the log, of any run and of a run
  that returns.
-/

namespace Titanium

/-- A computation with its log.  The result is `none` after a panic. -/
structure Logged (ε α : Type) where
  log : List ε
  result : Option α
  deriving DecidableEq

namespace Logged

variable {ε α β : Type}

/-- The rest of a computation runs if the first part returns. -/
def andThen (m : Logged ε α) (f : α → Logged ε β) : Logged ε β :=
  match m.result with
  | none => ⟨m.log, none⟩
  | some a => ⟨m.log ++ (f a).log, (f a).result⟩

instance : Monad (Logged ε) where
  pure a := ⟨[], some a⟩
  bind := andThen

instance : LawfulMonad (Logged ε) := LawfulMonad.mk' _
  (fun m => by
    show andThen m _ = m
    obtain ⟨log, _ | a⟩ := m
    · rfl
    · exact congrArg (fun l => Logged.mk l (some a)) (List.append_nil log))
  (fun _ _ => rfl)
  (fun m f g => by
    show andThen (andThen m f) g = andThen m fun a => andThen (f a) g
    obtain ⟨log, _ | a⟩ := m
    · rfl
    · simp only [andThen]
      cases (f a).result with
      | none => rfl
      | some b => simp only [List.append_assoc])

/-- A step that may panic and logs nothing. -/
instance : MonadLift Option (Logged ε) := ⟨fun o => ⟨[], o⟩⟩

/-- One entry of the log. -/
def emit (e : ε) : Logged ε Unit := ⟨[e], some ()⟩

/-! ### Results -/

@[simp] lemma result_pure (a : α) : (pure a : Logged ε α).result = some a := rfl

@[simp] lemma result_lift (o : Option α) : (liftM o : Logged ε α).result = o := rfl

@[simp] lemma result_emit (e : ε) : (emit e).result = some () := rfl

@[simp] lemma result_bind (m : Logged ε α) (f : α → Logged ε β) :
    (m >>= f).result = m.result.bind fun a => (f a).result := by
  show (andThen m f).result = _
  unfold andThen
  cases m.result <;> rfl

lemma result_forM {f : α → Logged ε PUnit} {l : List α}
    (h : ∀ x ∈ l, (f x).result = some ⟨⟩) : (l.forM f).result = some ⟨⟩ := by
  induction l with
  | nil => rfl
  | cons x l ih =>
      obtain ⟨hx, hl⟩ := List.forall_mem_cons.mp h
      show (f x >>= fun _ => l.forM f).result = _
      rw [result_bind, hx, Option.bind_some, ih hl]

lemma result_foldlM_range {f : α → ℕ → Logged ε α} {acc : ℕ → α} {n : ℕ}
    (h : ∀ i < n, (f (acc i) i).result = some (acc (i + 1))) :
    ((List.range n).foldlM f (acc 0)).result = some (acc n) := by
  induction n with
  | zero => rfl
  | succ n ih =>
      rw [List.range_succ, List.foldlM_append, result_bind, ih fun i hi => h i (by omega),
        Option.bind_some]
      simp [h n (by omega)]

/-! ### Following a list -/

/-- The computation does what `l` says and returns `a`, or it panics on the way. -/
structure Follows (m : Logged ε α) (l : List ε) (a : α) : Prop where
  log_prefix : m.log <+: l
  returns : ∀ x, m.result = some x → m.log = l ∧ x = a

namespace Follows

variable {m : Logged ε α} {l l' : List ε} {a : α}

lemma pure (a : α) : (pure a : Logged ε α).Follows [] a :=
  ⟨List.prefix_rfl, fun _ h => ⟨rfl, (Option.some.inj h).symm⟩⟩

lemma emit (e : ε) : (emit e).Follows [e] () := ⟨List.prefix_rfl, fun _ _ => ⟨rfl, rfl⟩⟩

lemma lift {o : Option α} (h : ∀ x, o = some x → x = a) : (liftM o : Logged ε α).Follows [] a :=
  ⟨List.prefix_rfl, fun x hx => ⟨rfl, h x hx⟩⟩

lemma bind {f : α → Logged ε β} {b : β} (hm : m.Follows l a) (hf : (f a).Follows l' b) :
    (m >>= f).Follows (l ++ l') b := by
  show (andThen m f).Follows (l ++ l') b
  unfold andThen
  cases hresult : m.result with
  | none => exact ⟨hm.log_prefix.trans (List.prefix_append l l'), fun x hx => nomatch hx⟩
  | some x =>
      obtain ⟨hlog, rfl⟩ := hm.returns x hresult
      refine ⟨?_, fun y hy => ?_⟩
      · rw [hlog]
        exact (List.prefix_append_right_inj l).mpr hf.log_prefix
      · obtain ⟨hlog', rfl⟩ := hf.returns y hy
        exact ⟨congrArg₂ (· ++ ·) hlog hlog', rfl⟩

/-- A step that logs nothing. -/
lemma lift_bind {o : Option α} {f : α → Logged ε β} {b : β} (h : ∀ x, o = some x → x = a)
    (hf : (f a).Follows l b) : ((liftM o : Logged ε α) >>= f).Follows l b :=
  (lift h).bind hf

lemma bind_pure {g : α → β} (h : m.Follows l a) :
    (m >>= fun x => Pure.pure (g x)).Follows l (g a) := by
  rw [← List.append_nil l]
  exact h.bind (pure (g a))

/-- A loop without a state. -/
lemma forM {γ : Type} {f : γ → Logged ε PUnit} {g : γ → List ε} {xs : List γ}
    (h : ∀ x ∈ xs, (f x).Follows (g x) ⟨⟩) : (xs.forM f).Follows (xs.flatMap g) ⟨⟩ := by
  induction xs with
  | nil => exact pure _
  | cons x xs ih =>
      obtain ⟨hx, hxs⟩ := List.forall_mem_cons.mp h
      show (f x >>= fun _ => xs.forM f).Follows _ _
      rw [List.flatMap_cons]
      exact hx.bind (ih hxs)

/-- A counting loop, with the states that it goes through. -/
lemma foldlM_range {f : α → ℕ → Logged ε α} {acc : ℕ → α} {g : ℕ → List ε} {n : ℕ}
    (h : ∀ i < n, (f (acc i) i).Follows (g i) (acc (i + 1))) :
    ((List.range n).foldlM f (acc 0)).Follows ((List.range n).flatMap g) (acc n) := by
  induction n with
  | zero => exact pure _
  | succ n ih =>
      have hlast : ([n].foldlM f (acc n)).Follows (g n) (acc (n + 1)) := by
        rw [List.foldlM_cons]
        exact (h n (by omega)).bind_pure
      rw [List.range_succ, List.foldlM_append, List.flatMap_append, List.flatMap_singleton]
      exact (ih fun i hi => h i (by omega)).bind hlast

/-- Whatever happens, nothing else is done. -/
lemma mem (h : m.Follows l a) {e : ε} (he : e ∈ m.log) : e ∈ l := h.log_prefix.subset he

lemma log_eq (h : m.Follows l a) (hresult : m.result = some a) : m.log = l :=
  (h.returns a hresult).1

end Follows

end Logged

end Titanium
