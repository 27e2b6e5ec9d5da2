import Mathlib.Tactic
import Mathlib.Data.Nat.Digits.Defs

/-!
Byte memory with words of eight bytes, and linked lists that live in it.

A word at `p` is stored in the bytes `p` to `p + 7`, the lowest byte first.  An
intrusive list keeps in the first word of each node the address of the next
one, and ends with the null pointer; `Linked` relates such a chain to the list
of the addresses it visits.

* `read64_write64`: a word written is the word read.
* `read64_congr`, `Linked.congr`: memory changed elsewhere changes neither a
  word nor a list.
* `readLE_of_holds`, `readLE_writeLE`: the same for numbers of any size, when
  memory `Holds` their bytes, or when they were written.
-/

namespace Titanium

/-- A memory of bytes. -/
abbrev Mem := ℕ → UInt8

namespace Mem

/-- The word at `p`. -/
def read64 (mem : Mem) (p : ℕ) : ℕ :=
  Nat.ofDigits 256 ((List.range 8).map fun i => (mem (p + i)).toNat)

/-- The memory with the word `v` at `p`. -/
def write64 (mem : Mem) (p v : ℕ) : Mem := fun a =>
  if p ≤ a ∧ a < p + 8 then UInt8.ofNat (v / 256 ^ (a - p)) else mem a

lemma write64_of_notMem {mem : Mem} {p v a : ℕ} (h : a ∉ Finset.Ico p (p + 8)) :
    mem.write64 p v a = mem a :=
  if_neg fun h' => h (Finset.mem_Ico.mpr h')

lemma write64_byte (mem : Mem) (p v : ℕ) {i : ℕ} (hi : i < 8) :
    (mem.write64 p v (p + i)).toNat = v / 256 ^ i % 256 := by
  rw [write64, if_pos ⟨by omega, by omega⟩, Nat.add_sub_cancel_left, UInt8.toNat_ofNat']

/-- **A word written is the word read.** -/
lemma read64_write64 (mem : Mem) {p v : ℕ} (hv : v < 2 ^ 64) :
    (mem.write64 p v).read64 p = v := by
  have hbytes : (List.range 8).map (fun i => (mem.write64 p v (p + i)).toNat) =
      (List.range 8).map fun i => v / 256 ^ i % 256 :=
    List.map_congr_left fun i hi => write64_byte mem p v (List.mem_range.mp hi)
  rw [read64, hbytes]
  clear hbytes
  norm_num [List.range, List.range.loop, Nat.ofDigits]
  omega

lemma read64_congr {mem mem' : Mem} {p : ℕ} (h : ∀ a ∈ Finset.Ico p (p + 8), mem' a = mem a) :
    mem'.read64 p = mem.read64 p := by
  have hbytes : (List.range 8).map (fun i => (mem' (p + i)).toNat) =
      (List.range 8).map fun i => (mem (p + i)).toNat := by
    refine List.map_congr_left fun i hi => ?_
    rw [h (p + i) (Finset.mem_Ico.mpr ⟨by omega, by have := List.mem_range.mp hi; omega⟩)]
  rw [read64, read64, hbytes]

/-! ### Bytes in a row -/

/-- The bytes from `p` on are `bs`. -/
def Holds (mem : Mem) (p : ℕ) : List UInt8 → Prop
  | [] => True
  | b :: bs => mem p = b ∧ mem.Holds (p + 1) bs

instance decidableHolds (mem : Mem) : ∀ (p : ℕ) (bs : List UInt8), Decidable (mem.Holds p bs)
  | _, [] => isTrue trivial
  | p, _ :: bs =>
      have := mem.decidableHolds (p + 1) bs
      inferInstanceAs (Decidable (_ ∧ _))

/-- The number in the `n` bytes from `p` on, the lowest byte first. -/
def readLE (mem : Mem) : ℕ → ℕ → ℕ
  | 0, _ => 0
  | n + 1, p => (mem p).toNat + 256 * mem.readLE n (p + 1)

/-- The lowest `n` bytes of a number. -/
def leBytes : ℕ → ℕ → List UInt8
  | 0, _ => []
  | n + 1, v => UInt8.ofNat v :: leBytes n (v / 256)

section Holds

variable {mem : Mem} {p : ℕ} {bs bs' : List UInt8}

lemma holds_append :
    mem.Holds p (bs ++ bs') ↔ mem.Holds p bs ∧ mem.Holds (p + bs.length) bs' := by
  induction bs generalizing p with
  | nil => simp [Holds]
  | cons b bs ih =>
      rw [List.cons_append, Holds, Holds, ih, and_assoc, List.length_cons, Nat.add_right_comm,
        Nat.add_assoc]

/-- **A number written is the number read.** -/
lemma readLE_of_holds {n v : ℕ} (h : mem.Holds p (leBytes n v)) :
    mem.readLE n p = v % 256 ^ n := by
  induction n generalizing p v with
  | zero => rw [readLE, pow_zero, Nat.mod_one]
  | succ n ih =>
      have hlow : (UInt8.ofNat v).toNat = v % 256 := UInt8.toNat_ofNat'
      rw [readLE, h.1, ih h.2, hlow, pow_succ', Nat.mod_mul]

@[simp]
lemma length_leBytes (n v : ℕ) : (leBytes n v).length = n := by
  induction n generalizing v with
  | zero => rfl
  | succ n ih => rw [leBytes, List.length_cons, ih]

lemma leBytes_add (m n v : ℕ) : leBytes (m + n) v = leBytes m v ++ leBytes n (v / 256 ^ m) := by
  induction m generalizing v with
  | zero => simp [leBytes]
  | succ m ih =>
      rw [Nat.succ_add, leBytes, leBytes, ih, List.cons_append, pow_succ', Nat.div_div_eq_div_mul]

lemma readLE_add (m n : ℕ) :
    mem.readLE (m + n) p = mem.readLE m p + 256 ^ m * mem.readLE n (p + m) := by
  induction m generalizing p with
  | zero => simp [readLE]
  | succ m ih =>
      rw [Nat.succ_add, readLE, readLE, ih, pow_succ', Nat.succ_add_eq_add_succ p m]
      ring

lemma readLE_lt (n : ℕ) : mem.readLE n p < 256 ^ n := by
  induction n generalizing p with
  | zero => exact Nat.one_pos
  | succ n ih =>
      have hb := (mem p).toNat_lt
      have hrest := ih (p := p + 1)
      rw [readLE, pow_succ']
      omega

lemma readLE_congr {mem' : Mem} {n : ℕ} (h : ∀ a ∈ Finset.Ico p (p + n), mem' a = mem a) :
    mem'.readLE n p = mem.readLE n p := by
  induction n generalizing p with
  | zero => rfl
  | succ n ih =>
      have hrest : mem'.readLE n (p + 1) = mem.readLE n (p + 1) := by
        refine ih fun a ha => h a ?_
        rw [Finset.mem_Ico] at ha ⊢
        omega
      rw [readLE, readLE, hrest, h p (Finset.mem_Ico.mpr ⟨le_rfl, by omega⟩)]

end Holds

/-- The memory with the lowest `n` bytes of a number from `p` on. -/
def writeLE (mem : Mem) : ℕ → ℕ → ℕ → Mem
  | 0, _, _ => mem
  | n + 1, p, v => Function.update (mem.writeLE n (p + 1) (v / 256)) p (UInt8.ofNat v)

lemma writeLE_of_notMem {mem : Mem} {n p v a : ℕ} (h : a ∉ Finset.Ico p (p + n)) :
    mem.writeLE n p v a = mem a := by
  induction n generalizing p v with
  | zero => rfl
  | succ n ih =>
      rw [Finset.mem_Ico] at h
      rw [writeLE, Function.update_of_ne (by omega)]
      refine ih fun hin => ?_
      rw [Finset.mem_Ico] at hin
      omega

/-- **The number read is the number written.** -/
lemma readLE_writeLE (mem : Mem) (n p v : ℕ) : (mem.writeLE n p v).readLE n p = v % 256 ^ n := by
  induction n generalizing p v with
  | zero => rw [readLE, pow_zero, Nat.mod_one]
  | succ n ih =>
      have hlow : (UInt8.ofNat v).toNat = v % 256 := UInt8.toNat_ofNat'
      have hrest : (mem.writeLE (n + 1) p v).readLE n (p + 1) =
          (mem.writeLE n (p + 1) (v / 256)).readLE n (p + 1) := by
        refine readLE_congr fun a ha => ?_
        rw [Finset.mem_Ico] at ha
        rw [writeLE, Function.update_of_ne (by omega)]
      rw [readLE, hrest, ih, writeLE, Function.update_self, hlow, pow_succ', Nat.mod_mul]

end Mem

/-- The chain of nodes from `head` visits the addresses `xs`, in this order. -/
inductive Linked (mem : Mem) : ℕ → List ℕ → Prop where
  | nil : Linked mem 0 []
  | cons {p : ℕ} {xs : List ℕ} (hp : p ≠ 0) (h : Linked mem (mem.read64 p) xs) :
      Linked mem p (p :: xs)

namespace Linked

variable {mem mem' : Mem} {head : ℕ} {xs : List ℕ}

/-- The chain only depends on the first word of the nodes it visits. -/
lemma congr (h : Linked mem head xs)
    (hmem : ∀ p ∈ xs, ∀ a ∈ Finset.Ico p (p + 8), mem' a = mem a) : Linked mem' head xs := by
  induction h with
  | nil => exact Linked.nil
  | @cons p xs hp _ ih =>
      refine Linked.cons hp ?_
      rw [Mem.read64_congr (hmem p (List.mem_cons_self ..))]
      exact ih fun q hq => hmem q (List.mem_cons_of_mem p hq)

/-- The first node, and the chain after it. -/
lemma exists_cons (h : Linked mem head xs) (hne : head ≠ 0) :
    ∃ ys, xs = head :: ys ∧ Linked mem (mem.read64 head) ys := by
  cases h with
  | nil => exact absurd rfl hne
  | cons _ h => exact ⟨_, rfl, h⟩

lemma eq_nil (h : Linked mem head xs) (hnull : head = 0) : xs = [] := by
  cases h with
  | nil => rfl
  | cons hp _ => exact absurd hnull hp

end Linked

end Titanium
