import Titanium.Lib.Memory

/-!
Stacks of 64-bit words that grow downwards in byte memory.

A `StackMap` says which bytes belong to which stack; between two stacks lie
guard bytes that belong to none, so a push that runs off a stack hits no other.

* `Words`: the words on top of a stack, as a list.
* `Room`: how many words can still be pushed.
* `Words.pushAll`, `pushAll_of_outside`: pushing puts the words on top, and
  changes nothing but bytes of the same stack below the old top.
-/

namespace Titanium

/-- A machine word. -/
abbrev Word := BitVec 64

namespace Word

/-- `n` words further up. -/
def up (a : Word) (n : ℕ) : Word := a + BitVec.ofNat 64 (8 * n)

/-- `n` words further down. -/
def down (a : Word) (n : ℕ) : Word := a - BitVec.ofNat 64 (8 * n)

@[simp] lemma up_zero (a : Word) : up a 0 = a := by simp [up]

@[simp] lemma down_zero (a : Word) : down a 0 = a := by simp [down]

lemma up_succ (a : Word) (n : ℕ) : up a (n + 1) = up (a + 8) n := by
  simp only [up]
  bv_omega

lemma up_add (a : Word) (m n : ℕ) : up (up a m) n = up a (m + n) := by
  simp only [up]
  bv_omega

lemma down_succ (a : Word) (n : ℕ) : down a (n + 1) = down (a - 8) n := by
  simp only [down]
  bv_omega

@[simp] lemma down_sub_eight (a : Word) (n : ℕ) : down a n - 8#64 = down a (n + 1) := by
  simp only [down]
  bv_omega

lemma down_add (a : Word) (m n : ℕ) : down (down a m) n = down a (m + n) := by
  simp only [down]
  bv_omega

@[simp] lemma up_down (a : Word) (n : ℕ) : up (down a n) n = a := by
  simp only [up, down]
  bv_omega

lemma up_down_of_le (a : Word) {m n : ℕ} (h : m ≤ n) : up (down a n) m = down a (n - m) := by
  simp only [up, down]
  bv_omega

lemma toNat_align (a : Word) : (a &&& ~~~0xf#64).toNat = a.toNat - a.toNat % 16 := by
  have hdisj : (a &&& ~~~0xf#64) &&& (a &&& 0xf#64) = 0#64 := by
    ext i hi
    simp only [BitVec.getElem_and, BitVec.getElem_not, BitVec.getElem_zero]
    cases a[i] <;> cases (0xf#64)[i] <;> rfl
  have hsum : (a &&& ~~~0xf#64) + (a &&& 0xf#64) = a := by
    rw [BitVec.add_eq_or_of_and_eq_zero _ _ hdisj]
    ext i hi
    simp only [BitVec.getElem_or, BitVec.getElem_and, BitVec.getElem_not]
    cases a[i] <;> cases (0xf#64)[i] <;> rfl
  have hlow : (a &&& 0xf#64).toNat = a.toNat % 16 := by
    rw [BitVec.toNat_and]
    exact Nat.and_two_pow_sub_one_eq_mod a.toNat 4
  have hle : (a &&& ~~~0xf#64).toNat ≤ a.toNat := by
    rw [BitVec.toNat_and]
    exact Nat.and_le_left
  have h := congrArg BitVec.toNat hsum
  rw [BitVec.toNat_add, hlow] at h
  have := a.isLt
  omega

/-- The word with bit `i` set to `b`. -/
def setBit (w : Word) (i : ℕ) (b : Bool) : Word :=
  if b then w ||| BitVec.twoPow 64 i else w &&& ~~~BitVec.twoPow 64 i

lemma getLsbD_setBit (w : Word) {i : ℕ} (hi : i < 64) (b : Bool) (j : ℕ) :
    (w.setBit i b).getLsbD j = if j = i then b else w.getLsbD j := by
  by_cases hj : j < 64
  · cases b <;> by_cases h : j = i <;> simp [setBit, h, hj, hi]
  · rw [if_neg (by omega), BitVec.getLsbD_of_ge _ j (by omega), BitVec.getLsbD_of_ge w j (by omega)]

end Word

/-! ### Words in memory -/

namespace Mem

/-- The word at `a`. -/
def load (mem : Mem) (a : Word) : Word := BitVec.ofNat 64 (mem.read64 a.toNat)

/-- The memory with the word `w` at `a`. -/
def store (mem : Mem) (a w : Word) : Mem := mem.write64 a.toNat w.toNat

@[simp] lemma load_store (mem : Mem) (a w : Word) : (mem.store a w).load a = w := by
  rw [load, store, read64_write64 mem w.isLt, BitVec.ofNat_toNat, BitVec.setWidth_eq]

lemma store_of_notMem {mem : Mem} {a w : Word} {b : ℕ}
    (h : b < a.toNat ∨ a.toNat + 8 ≤ b) : mem.store a w b = mem b :=
  write64_of_notMem (by rw [Finset.mem_Ico]; omega)

lemma load_congr {mem mem' : Mem} {a : Word}
    (h : ∀ b, a.toNat ≤ b → b < a.toNat + 8 → mem' b = mem b) : mem'.load a = mem.load a := by
  rw [load, load, read64_congr fun b hb => h b (Finset.mem_Ico.mp hb).1 (Finset.mem_Ico.mp hb).2]

lemma load_store_of_disjoint {mem : Mem} {a b w : Word}
    (h : a.toNat + 8 ≤ b.toNat ∨ b.toNat + 8 ≤ a.toNat) : (mem.store b w).load a = mem.load a :=
  load_congr fun _ h1 h2 => store_of_notMem (by omega)

/-- The `n` words from `a` on. -/
def loads (mem : Mem) (a : Word) : ℕ → List Word
  | 0 => []
  | n + 1 => mem.load a :: mem.loads (a + 8) n

/-- The memory after pushes at `a`, in this order. -/
def pushAll (mem : Mem) (a : Word) : List Word → Mem
  | [] => mem
  | w :: ws => (mem.store (a - 8) w).pushAll (a - 8) ws

end Mem

lemma Mem.pushAll_append (mem : Mem) (a : Word) (ws ws' : List Word) :
    mem.pushAll a (ws ++ ws') = (mem.pushAll a ws).pushAll (Word.down a ws.length) ws' := by
  induction ws generalizing mem a with
  | nil => simp [Mem.pushAll]
  | cons w ws ih => rw [List.cons_append, pushAll, ih, List.length_cons, Word.down_succ, pushAll]

/-! ### Stacks -/

/-- Which stack a byte belongs to.  Stacks keep a distance of a page from each
other, and from both ends of the address space. -/
structure StackMap (σ : Type*) where
  owner : ℕ → Option σ
  bounds : ∀ {a p}, owner a = some p → 0x1000 ≤ a ∧ a + 0x1000 ≤ 2 ^ 64
  guard : ∀ {a b p q}, owner a = some p → owner b = some q → a < b + 0x1000 → b < a + 0x1000 →
    p = q

namespace StackMap

variable {σ : Type*} [DecidableEq σ] (S : StackMap σ)

/-- The stack that holds all bytes of the word at `a`. -/
def wordOwner (a : Word) : Option σ :=
  (S.owner a.toNat).filter fun p => (List.range 8).all fun j => S.owner (a.toNat + j) = some p

/-- `a` is the top of the stack, or an address of it. -/
def On (p : σ) (a : Word) : Prop := S.owner (a.toNat - 1) = some p ∨ S.owner a.toNat = some p

instance (p : σ) (a : Word) : Decidable (S.On p a) := inferInstanceAs (Decidable (_ ∨ _))

/-- There is room for `n` words below `a`. -/
def Room (p : σ) (a : Word) : ℕ → Prop
  | 0 => True
  | n + 1 => S.wordOwner (a - 8) = some p ∧ Room p (a - 8) n

/-- The words on top of the stack. -/
def Words (mem : Mem) (p : σ) (a : Word) : List Word → Prop
  | [] => True
  | w :: ws => (S.wordOwner a = some p ∧ mem.load a = w) ∧ Words mem p (a + 8) ws

instance decidableRoom (p : σ) : ∀ (a : Word) (n : ℕ), Decidable (S.Room p a n)
  | _, 0 => isTrue trivial
  | a, n + 1 =>
      have := decidableRoom p (a - 8) n
      inferInstanceAs (Decidable (_ ∧ _))

variable {S} {mem mem' : Mem} {p q : σ} {a : Word} {ws ws' : List Word} {n : ℕ}

lemma room_zero : S.Room p a 0 := trivial

lemma room_succ : S.Room p a (n + 1) ↔ S.wordOwner (a - 8) = some p ∧ S.Room p (a - 8) n := Iff.rfl

namespace Words

lemma nil : S.Words mem p a [] := trivial

lemma owner {w : Word} (h : S.Words mem p a (w :: ws)) : S.wordOwner a = some p := h.1.1

lemma load {w : Word} (h : S.Words mem p a (w :: ws)) : mem.load a = w := h.1.2

lemma tail {w : Word} (h : S.Words mem p a (w :: ws)) : S.Words mem p (a + 8) ws := h.2

end Words

lemma wordOwner_eq_some :
    S.wordOwner a = some p ↔ ∀ j < 8, S.owner (a.toNat + j) = some p := by
  simp only [wordOwner, Option.filter_eq_some_iff, List.all_eq_true, List.mem_range,
    decide_eq_true_eq]
  exact ⟨fun h => h.2, fun h => ⟨h 0 (by norm_num), h⟩⟩

lemma toNat_add_eight (h : S.wordOwner a = some p) : (a + 8).toNat = a.toNat + 8 := by
  have hb := S.bounds (wordOwner_eq_some.mp h 0 (by norm_num))
  bv_omega

lemma toNat_sub_eight (h : S.wordOwner (a - 8) = some p) : (a - 8).toNat + 8 = a.toNat := by
  have hadd := toNat_add_eight h
  rwa [BitVec.sub_add_cancel, eq_comm] at hadd

namespace On

lemma of_wordOwner (h : S.wordOwner a = some p) : S.On p a :=
  Or.inr (wordOwner_eq_some.mp h 0 (by norm_num))

lemma add_eight (h : S.wordOwner a = some p) : S.On p (a + 8) := by
  refine Or.inl ?_
  rw [toNat_add_eight h]
  exact wordOwner_eq_some.mp h 7 (by norm_num)

/-- A word near the stack pointer belongs to the same stack. -/
lemma eq_of_near (h : S.On p a) {b : Word} (hb : S.wordOwner b = some q)
    (h1 : a.toNat ≤ b.toNat + 0x100) (h2 : b.toNat ≤ a.toNat + 0x100) : q = p := by
  have hq := wordOwner_eq_some.mp hb 0 (by norm_num)
  cases h with
  | inl h => exact S.guard hq h (by omega) (by omega)
  | inr h => exact S.guard hq h (by omega) (by omega)

/-- A push after aligning the stack pointer stays on the stack. -/
lemma eq_of_align (h : S.On p a) (hq : S.wordOwner ((a &&& ~~~0xf#64) - 8) = some q) : q = p := by
  have hsub := toNat_sub_eight hq
  have halign : (a &&& ~~~0xf#64).toNat = a.toNat - a.toNat % 16 := Word.toNat_align a
  exact h.eq_of_near hq (by omega) (by omega)

/-- A push stays on the stack. -/
lemma eq_of_push (h : S.On p a) (hq : S.wordOwner (a - 8) = some q) : q = p :=
  h.eq_of_near hq (by have := toNat_sub_eight hq; omega) (by have := toNat_sub_eight hq; omega)

end On

lemma Room.of_add {m : ℕ} (h : S.Room p a (n + m)) : S.Room p a n ∧ S.Room p (Word.down a n) m := by
  induction n generalizing a with
  | zero => exact ⟨trivial, by simpa using h⟩
  | succ n ih =>
      rw [Nat.succ_add] at h
      obtain ⟨hn, hm⟩ := ih h.2
      exact ⟨⟨h.1, hn⟩, by rwa [Word.down_succ]⟩

lemma Room.add {m : ℕ} (h : S.Room p a n) (h' : S.Room p (Word.down a n) m) :
    S.Room p a (n + m) := by
  induction n generalizing a with
  | zero => simpa using h'
  | succ n ih =>
      rw [Nat.succ_add]
      exact ⟨h.1, ih h.2 (by rwa [Word.down_succ] at h')⟩

lemma Room.toNat_down (h : S.Room p a n) : (Word.down a n).toNat + 8 * n = a.toNat := by
  induction n generalizing a with
  | zero => simp
  | succ n ih =>
      have h1 := ih h.2
      have h2 := toNat_sub_eight h.1
      rw [Word.down_succ]
      omega

lemma Room.on (h : S.Room p a n) (ha : S.On p a) : S.On p (Word.down a n) := by
  induction n generalizing a with
  | zero => simpa using ha
  | succ n ih =>
      rw [Word.down_succ]
      exact ih h.2 (On.of_wordOwner h.1)

lemma Room.on_succ (h : S.Room p a (n + 1)) : S.On p (Word.down a (n + 1)) := by
  rw [Word.down_succ]
  exact Room.on h.2 (On.of_wordOwner h.1)

namespace Words

/-- Only bytes of the stack at or above `a` matter. -/
lemma congr (h : S.Words mem p a ws)
    (hmem : ∀ b, S.owner b = some p → a.toNat ≤ b → mem' b = mem b) : S.Words mem' p a ws := by
  induction ws generalizing a with
  | nil => trivial
  | cons w ws ih =>
      obtain ⟨⟨howner, hload⟩, hrest⟩ := h
      have hbytes := wordOwner_eq_some.mp howner
      refine ⟨⟨howner, ?_⟩, ih hrest fun b hb hle => hmem b hb ?_⟩
      · rw [Mem.load_congr fun b h1 h2 => hmem b ?_ h1, hload]
        have := hbytes (b - a.toNat) (by omega)
        rwa [Nat.add_sub_cancel' h1] at this
      · rw [toNat_add_eight howner] at hle
        omega

lemma append : S.Words mem p a (ws ++ ws') ↔
    S.Words mem p a ws ∧ S.Words mem p (Word.up a ws.length) ws' := by
  induction ws generalizing a with
  | nil => simp [Words]
  | cons w ws ih =>
      rw [List.cons_append, List.length_cons, Word.up_succ, Words, Words, ih, ← and_assoc]

lemma drop (h : S.Words mem p a ws) (hn : n ≤ ws.length) :
    S.Words mem p (Word.up a n) (ws.drop n) := by
  rw [← List.take_append_drop n ws, append, List.length_take_of_le hn] at h
  exact h.2

lemma toNat_up (h : S.Words mem p a ws) (hn : n ≤ ws.length) :
    (Word.up a n).toNat = a.toNat + 8 * n := by
  induction n generalizing a ws with
  | zero => simp
  | succ n ih =>
      cases ws with
      | nil => exact absurd hn (Nat.not_succ_le_zero n)
      | cons w ws =>
          rw [Word.up_succ, ih h.tail (Nat.le_of_succ_le_succ hn), toNat_add_eight h.owner]
          ring

lemma loads_eq (h : S.Words mem p a ws) (hn : ws.length = n) : mem.loads a n = ws := by
  subst hn
  induction ws generalizing a with
  | nil => rfl
  | cons w ws ih => rw [List.length_cons, Mem.loads, h.1.2, ih h.2]

lemma push {w : Word} (h : S.Words mem p a ws) (hroom : S.wordOwner (a - 8) = some p) :
    S.Words (mem.store (a - 8) w) p (a - 8) (w :: ws) := by
  refine ⟨⟨hroom, Mem.load_store mem (a - 8) w⟩, ?_⟩
  rw [BitVec.sub_add_cancel]
  have := toNat_sub_eight hroom
  exact h.congr fun b _ hb => Mem.store_of_notMem (Or.inr (by omega))

/-- **Pushing puts the words on top.** -/
lemma pushAll (h : S.Words mem p a ws') (hroom : S.Room p a n) (hn : ws.length = n) :
    S.Words (mem.pushAll a ws) p (Word.down a n) (ws.reverse ++ ws') := by
  subst hn
  induction ws generalizing mem a ws' with
  | nil => simpa [Mem.pushAll] using h
  | cons w ws ih =>
      have := ih (h.push (w := w) hroom.1) hroom.2
      rwa [Mem.pushAll, List.length_cons, Word.down_succ, List.reverse_cons, List.append_assoc,
        List.singleton_append]

end Words

/-- A word of a stack does not reach beyond it. -/
lemma store_of_outside (h : S.wordOwner a = some p) {w : Word} {b : ℕ} (hb : S.owner b ≠ some p) :
    mem.store a w b = mem b := by
  refine Mem.store_of_notMem ?_
  by_contra hin
  have howner := wordOwner_eq_some.mp h (b - a.toNat) (by omega)
  rw [Nat.add_sub_cancel' (by omega)] at howner
  exact hb howner

/-- **Pushing changes nothing but bytes of the stack below its top.** -/
lemma pushAll_of_outside (hroom : S.Room p a ws.length) {b : ℕ}
    (hb : S.owner b = some p → a.toNat ≤ b) : mem.pushAll a ws b = mem b := by
  induction ws generalizing mem a with
  | nil => rfl
  | cons w ws ih =>
      have hsub := toNat_sub_eight hroom.1
      rw [Mem.pushAll, ih hroom.2 fun h => by have := hb h; omega]
      refine Mem.store_of_notMem ?_
      by_contra hin
      have howner := wordOwner_eq_some.mp hroom.1 (b - (a - 8).toNat) (by omega)
      rw [Nat.add_sub_cancel' (by omega)] at howner
      have := hb howner
      omega

/-- Pushes write the words between the old stack pointer and the new one. -/
lemma pushAll_of_notMem (hroom : S.Room p a n) (hn : ws.length = n) {b : ℕ}
    (hb : b < (Word.down a n).toNat ∨ a.toNat ≤ b) : mem.pushAll a ws b = mem b := by
  subst hn
  induction ws generalizing mem a with
  | nil => rfl
  | cons w ws ih =>
      have hsub := toNat_sub_eight hroom.1
      have hdown := Room.toNat_down hroom.2
      rw [List.length_cons, Word.down_succ] at hb
      rw [Mem.pushAll, ih hroom.2 (by omega)]
      exact Mem.store_of_notMem (by omega)

attribute [irreducible] Room Words Mem.pushAll

end StackMap

end Titanium
