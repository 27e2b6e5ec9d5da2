import Titanium.Scheduler.Preempt

/-!
What is saved of a task that is suspended.

A task can be suspended while `resume_task` is still popping what was saved of
it before, so the contexts of a task nest.

* `Saved`: a context that was saved, by `scheduler_preempt`, by `release_task`
  or by `spawn_task`; `remaining`: what of it is still on the stack.
* `Popping`: `resume_task` at one of its instructions, with the saved context it
  is popping.
* `Spawning`: the assembly of `spawn_task`, which builds such a context on the
  stack of another task.
* `Good`: a context of a task, over the contexts it returns to.  Only the bytes
  above its stack pointer matter (`Good.congr`), and only the registers that
  `scheduler_preempt` saves (`Good.congr_reg`).
-/

namespace Titanium

/-- A saved context: the address of its interrupt frame, whether it was saved by
`scheduler_preempt`, and the flags that were pushed then. -/
structure Saved where
  addr : Word
  preempted : Bool
  flags : Word
  ctx : Context

namespace Saved

/-- The words that are popped only for a preempted task. -/
def general (s : Saved) : List Word :=
  if s.preempted then scratchRegs.map s.ctx.reg ++ [s.flags] else []

end Saved

namespace Image

variable (I : Image)

/-- The interrupt frame. -/
def savedFrame (s : Saved) : SavedFrame :=
  ⟨s.addr, [I.address s.ctx.pc, cs, s.ctx.rflags, s.ctx.rsp, ss]⟩

/-- What is on the stack when `resume_task` comes to its instruction `i`. -/
def remaining (s : Saved) (i : ℕ) : List Word :=
  (standardRegs.map s.ctx.reg).drop (i - 5) ++ (s.general.drop (i - 13) ++ (I.savedFrame s).words)

/-- The code of the task itself, and the end of `release_task`. -/
def OwnCode (pc : Pc) : Prop :=
  (∃ a, pc = .user a ∧ I.label a = none) ∨ pc = .asm .releaseTask 23

/-- `resume_task` is about to execute its instruction `i` for the task `p`, whose flag
`INTERRUPTED` is `f`, and pops `s` from the stack. -/
structure Popping (mem : Mem) (p stack : Word) (f : Bool) (c : Context) (s : Saved) (i : ℕ) :
    Prop where
  pc : c.pc = .asm .resumeTask i
  lower : 5 ≤ i
  upper : i ≤ 23
  words : I.stackMap.Words mem stack c.rsp (I.remaining s i)
  addr : Word.up c.rsp ((I.remaining s i).length - 5) = s.addr
  below : c.rsp.toNat + 8 * (I.remaining s i).length ≤ s.ctx.rsp.toNat
  flag : f = (s.preempted && decide (i ≤ 11))
  rdi : i ≤ 11 → c.reg .rdi = p
  carry : i = 12 → c.rflags.carry = s.preempted
  general : 13 ≤ i → i ≤ 22 → s.preempted = true
  regs : s.preempted = true → ∀ r ∈ scratchRegs.take (i - 13), c.reg r = s.ctx.reg r
  own : s.preempted = false → I.OwnCode s.ctx.pc

/-- The number of words that `spawn_task` has pushed before its instruction `i`. -/
def spawnDepth (i : ℕ) : ℕ := ((code .spawnTask).take i).countP Instr.isPush

/-- The words that `spawn_task` pushes, in this order. -/
def spawnWords (top entry e fl : Word) : List Word :=
  [e, ss, Word.down top 1, fl, cs, entry, 0, 0, 0, 0, 0, 0]

/-- `spawn_task` is about to execute the instruction `i` of its assembly for the task `p`, and
builds the stack of `q` from `top` down. -/
structure Spawning (m : Machine) (p q : Word) (c : Context) (i : ℕ) (top entry : Word) : Prop where
  pc : c.pc = .asm .spawnTask i
  upper : i ≤ 18
  on_top : I.stackMap.On q top
  label_entry : I.label entry = none
  rdi : i ≤ 9 → c.reg .rdi = entry
  rsi : i ≤ 1 → c.reg .rsi = top
  rdx : 1 ≤ i → i ≤ 17 → I.stackMap.On p (c.reg .rdx)
  own : i ≤ 1 ∨ i = 18 → I.stackMap.On p c.rsp
  rsp : 2 ≤ i → i ≤ 17 → c.rsp = Word.down top (spawnDepth i)
  rax : i = 5 ∨ i = 6 → c.reg .rax = Word.down top 1
  final : 17 ≤ i → c.reg .rax = Word.down top 12
  words : ∃ e fl, I.stackMap.Words m.mem q (Word.down top (spawnDepth i))
      ((spawnWords top entry e fl).take (spawnDepth i)).reverse ∧
    (10 ≤ i → m.frames q = [⟨Word.down top 6, [entry, cs, fl, Word.down top 1, ss]⟩])
  frames : i ≤ 9 → m.frames q = []
  flag : (m.info q).interrupted = false

/-- A context of the task `p` under which no other is saved, on the stack `stack`. -/
inductive Base (m : Machine) (p stack : Word) (c : Context) : Prop where
  | own (hpc : I.OwnCode c.pc) (hstack : stack = p) (hon : I.stackMap.On p c.rsp)
      (hb : m.building p = none)
  | release (hpc : c.pc = .asm .releaseTask 0) (hkind : resumeKind (c.reg .rsi) ≠ .preempted)
      (hstack : stack = p) (hon : I.stackMap.On p c.rsp) (hb : m.building p = none) (hp : p ≠ 0)
  | spawn {q top entry : Word} {i : ℕ} (hb : m.building p = some q) (hne : q ≠ p)
      (h : I.Spawning m p q c i top entry)
      (hstack : stack = if i ≤ 1 ∨ i = 18 then p else q)

/-- **A context of the task `p`** with the flag `f`, over the saved contexts `L`. -/
def Good (m : Machine) (p stack : Word) : Bool → Context → List Saved → Prop
  | f, c, [] => f = false ∧ I.Base m p stack c
  | f, c, s :: L => (∃ i, I.Popping m.mem p stack f c s i) ∧ Good m p stack false s.ctx L

variable {I} {m m' : Machine} {p stack : Word} {f : Bool} {c : Context} {s : Saved} {L : List Saved}
  {i : ℕ} {r : Reg}

/-! ### What remains on the stack -/

lemma length_remaining : 5 ≤ (I.remaining s i).length := by
  simp only [remaining, savedFrame, List.length_append, List.length_cons, List.length_nil]
  omega

lemma pop_cases (h : (code .resumeTask)[i]? = some (.pop r)) :
    5 ≤ i ∧ i < 11 ∧ standardRegs[i - 5]? = some r ∨
      13 ≤ i ∧ i < 22 ∧ scratchRegs[i - 13]? = some r := by
  have hi : i < 24 := (List.getElem?_eq_some_iff.mp h).1
  interval_cases i <;> simp only [code, List.getElem?_cons_zero, List.getElem?_cons_succ,
    Option.some.injEq, Instr.pop.injEq, reduceCtorEq] at h
  all_goals
    subst h
    decide

/-- A pop takes the register's word off. -/
lemma remaining_pop (h : (code .resumeTask)[i]? = some (.pop r))
    (hgen : 13 ≤ i → s.preempted = true) :
    I.remaining s i = s.ctx.reg r :: I.remaining s (i + 1) := by
  have hdrop : ∀ {rs : List Reg} {j : ℕ}, rs[j]? = some r →
      (rs.map s.ctx.reg).drop j = s.ctx.reg r :: (rs.map s.ctx.reg).drop (j + 1) := by
    intro rs j hj
    obtain ⟨hlt, hget⟩ := List.getElem?_eq_some_iff.mp hj
    rw [List.drop_eq_getElem_cons (by rwa [List.length_map]), List.getElem_map, hget]
  rcases pop_cases h with ⟨h5, h11, hr⟩ | ⟨h13, h22, hr⟩
  · rw [remaining, remaining, hdrop hr, show i - 13 = i + 1 - 13 by omega,
      show i - 5 + 1 = i + 1 - 5 by omega, List.cons_append]
  · have hlen : i - 13 + 1 ≤ (scratchRegs.map s.ctx.reg).length := by
      rw [List.length_map]
      exact Nat.succ_le_of_lt (List.getElem?_eq_some_iff.mp hr).1
    have hstd : ∀ k, 6 ≤ k → (standardRegs.map s.ctx.reg).drop k = [] := fun k hk =>
      List.drop_eq_nil_of_le hk
    rw [remaining, remaining, hstd _ (by omega), hstd _ (by omega), Saved.general,
      if_pos (hgen h13), List.drop_append_of_le_length (by omega), hdrop hr,
      show i + 1 - 13 = i - 13 + 1 by omega, List.drop_append_of_le_length hlen]
    rfl

lemma remaining_popfq (h : s.preempted = true) :
    I.remaining s 22 = s.flags :: I.remaining s 23 := by
  simp [remaining, Saved.general, h, scratchRegs, standardRegs]

lemma remaining_jump (h : s.preempted = false) : I.remaining s 23 = I.remaining s 12 := by
  simp [remaining, Saved.general, h, standardRegs]

lemma remaining_last : I.remaining s 23 = (I.savedFrame s).words := by
  have hlen : s.general.length ≤ 10 := by
    unfold Saved.general
    split_ifs
    · exact le_refl 10
    · exact Nat.zero_le 10
  rw [remaining, List.drop_eq_nil_of_le hlen]
  rfl

/-! ### Contexts -/

lemma OwnCode.valid {pc : Pc} (h : I.OwnCode pc) : I.ValidPc pc := by
  rcases h with ⟨a, rfl, hlabel⟩ | rfl
  · exact hlabel
  · exact le_refl 23

lemma spawnDepth_le (h : i ≤ 18) : spawnDepth i ≤ 12 := by
  interval_cases i <;> decide

lemma Spawning.on {q top entry : Word} (h : I.Spawning m p q c i top entry) :
    I.stackMap.On q (Word.down top (spawnDepth i)) := by
  obtain ⟨e, fl, hw, -⟩ := h.words
  cases hws : ((spawnWords top entry e fl).take (spawnDepth i)).reverse with
  | nil =>
      have hlen := congrArg List.length hws
      have hle := spawnDepth_le h.upper
      simp only [List.length_reverse, List.length_take, spawnWords, List.length_cons,
        List.length_nil] at hlen
      rw [show spawnDepth i = 0 by omega, Word.down_zero]
      exact h.on_top
  | cons w ws =>
      rw [hws] at hw
      exact StackMap.On.of_wordOwner hw.owner

lemma Popping.on (h : I.Popping m.mem p stack f c s i) : I.stackMap.On stack c.rsp := by
  have hw := h.words
  have hlen : 5 ≤ (I.remaining s i).length := length_remaining
  cases hws : I.remaining s i with
  | nil =>
      rw [hws] at hlen
      exact absurd hlen (by norm_num)
  | cons w ws =>
      rw [hws] at hw
      exact StackMap.On.of_wordOwner hw.owner

lemma Base.on (h : I.Base m p stack c) : I.stackMap.On stack c.rsp := by
  cases h with
  | own hpc hstack hon hb => exact hstack ▸ hon
  | release hpc hkind hstack hon hb hp => exact hstack ▸ hon
  | @spawn q top entry i hb hne h hstack =>
      split_ifs at hstack with hi
      · exact hstack ▸ h.own hi
      · rw [not_or] at hi
        have hle := h.upper
        rw [hstack, h.rsp (by omega) (by omega)]
        exact h.on

lemma Base.valid (h : I.Base m p stack c) : I.ValidPc c.pc := by
  cases h with
  | own hpc hstack hon hb => exact hpc.valid
  | release hpc hkind hstack hon hb hp =>
      rw [hpc]
      exact Nat.zero_le _
  | spawn hb hne h hstack =>
      rw [h.pc]
      exact h.upper

/-- The places of such a context. -/
lemma Base.pc_cases (h : I.Base m p stack c) :
    I.OwnCode c.pc ∨ c.pc = .asm .releaseTask 0 ∨ ∃ i, c.pc = .asm .spawnTask i := by
  cases h with
  | own hpc hstack hon hb => exact Or.inl hpc
  | release hpc hkind hstack hon hb hp => exact Or.inr (Or.inl hpc)
  | @spawn q top entry i hb hne h hstack => exact Or.inr (Or.inr ⟨i, h.pc⟩)

lemma OwnCode.ne_resume {pc : Pc} (h : I.OwnCode pc) (i : ℕ) : pc ≠ .asm .resumeTask i := by
  rintro rfl
  simp [OwnCode] at h

/-- The base of a context in the code of a task says nothing about the registers. -/
lemma Base.of_ownCode (h : I.Base m p stack c) (hpc : I.OwnCode c.pc) (reg : Reg → Word)
    (rflags : Word) : I.Base m p stack ⟨c.pc, reg, c.rsp, rflags⟩ := by
  cases h with
  | own hpc hstack hon hb => exact Base.own hpc hstack hon hb
  | release hpc' hkind hstack hon hb hp => simp [OwnCode, hpc'] at hpc
  | spawn hb hne h hstack => simp [OwnCode, h.pc] at hpc

namespace Good

lemma on (h : I.Good m p stack f c L) : I.stackMap.On stack c.rsp := by
  cases L with
  | nil => exact h.2.on
  | cons s L =>
      obtain ⟨⟨i, hpop⟩, -⟩ := h
      exact hpop.on

lemma valid (h : I.Good m p stack f c L) : I.ValidPc c.pc := by
  cases L with
  | nil => exact h.2.valid
  | cons s L =>
      obtain ⟨⟨i, hpop⟩, -⟩ := h
      rw [hpop.pc]
      exact hpop.upper.trans (by decide)

/-- In the pops of `resume_task`, a saved context is being popped. -/
lemma popping (h : I.Good m p stack f c L) (hpc : c.pc = .asm .resumeTask i) :
    ∃ s L', L = s :: L' ∧ I.Popping m.mem p stack f c s i ∧ I.Good m p stack false s.ctx L' := by
  cases L with
  | nil =>
      rcases h.2.pc_cases with hown | hpc' | ⟨j, hpc'⟩
      · simp [OwnCode, hpc] at hown
      · simp [hpc] at hpc'
      · simp [hpc] at hpc'
  | cons s L =>
      obtain ⟨⟨j, hpop⟩, hrest⟩ := h
      obtain rfl : i = j := by simpa [hpc] using hpop.pc
      exact ⟨s, L, rfl, hpop, hrest⟩

/-- Elsewhere nothing is saved. -/
lemma base (h : I.Good m p stack f c L) (hpc : ∀ i, c.pc ≠ .asm .resumeTask i) :
    L = [] ∧ f = false ∧ I.Base m p stack c := by
  cases L with
  | nil => exact ⟨rfl, h⟩
  | cons s L =>
      obtain ⟨⟨i, hpop⟩, -⟩ := h
      exact absurd hpop.pc (hpc i)

lemma pc_ne_rust (h : I.Good m p stack f c L) (g : RustPoint) : c.pc ≠ .rust g := by
  intro hpc
  obtain ⟨-, -, hbase⟩ := h.base fun i => by simp [hpc]
  rcases hbase.pc_cases with hown | hpc' | ⟨j, hpc'⟩
  · simp [OwnCode, hpc] at hown
  · simp [hpc] at hpc'
  · simp [hpc] at hpc'

/-- The flag is set only before `resume_task` has tested it. -/
lemma window (h : I.Good m p stack true c L) : ∃ i, 5 ≤ i ∧ i ≤ 11 ∧ c.pc = .asm .resumeTask i := by
  cases L with
  | nil => exact absurd h.1 (by decide)
  | cons s L =>
      obtain ⟨⟨i, hpop⟩, -⟩ := h
      have hflag := hpop.flag
      rw [eq_comm, Bool.and_eq_true, decide_eq_true_eq] at hflag
      exact ⟨i, hpop.lower, hflag.2, hpop.pc⟩

/-- Only the registers matter that `scheduler_preempt` saves. -/
lemma congr_reg (h : I.Good m p stack f c L) {reg : Reg → Word}
    (hreg : ∀ r ∈ scratchRegs, reg r = c.reg r) :
    I.Good m p stack f ⟨c.pc, reg, c.rsp, c.rflags⟩ L := by
  cases L with
  | nil =>
      refine ⟨h.1, ?_⟩
      cases h.2 with
      | own hpc hstack hon hb => exact Base.own hpc hstack hon hb
      | release hpc hkind hstack hon hb hp =>
          have hrsi : reg .rsi = c.reg .rsi := hreg _ (by decide)
          exact Base.release hpc (by simpa only [hrsi] using hkind) hstack hon hb hp
      | spawn hb hne h hstack =>
          have hrdx : reg .rdx = c.reg .rdx := hreg _ (by decide)
          exact Base.spawn hb hne { h with
            rdi := fun hi => (hreg _ (by decide)).trans (h.rdi hi)
            rsi := fun hi => (hreg _ (by decide)).trans (h.rsi hi)
            rdx := fun h1 h2 => by simpa only [hrdx] using h.rdx h1 h2
            rax := fun hi => (hreg _ (by decide)).trans (h.rax hi)
            final := fun hi => (hreg _ (by decide)).trans (h.final hi) } hstack
  | cons s L =>
      obtain ⟨⟨i, hpop⟩, hrest⟩ := h
      refine ⟨⟨i, { hpop with
        rdi := fun hi => (hreg _ (by decide)).trans (hpop.rdi hi)
        regs := fun hpre r hr => ?_ }⟩, hrest⟩
      exact (hreg r (List.mem_of_mem_take hr)).trans (hpop.regs hpre r hr)

/-- Only the stack above the stack pointer matters, and what is being built. -/
lemma congr (h : I.Good m p stack f c L) (hb : m'.building p = m.building p)
    (hmem : ∀ b, I.stackMap.owner b = some stack → c.rsp.toNat ≤ b → m'.mem b = m.mem b)
    (hbuilt : ∀ q, m.building p = some q → m'.frames q = m.frames q ∧
      (m'.info q).interrupted = (m.info q).interrupted ∧
      (q ≠ stack → ∀ b, I.stackMap.owner b = some q → m'.mem b = m.mem b)) :
    I.Good m' p stack f c L := by
  induction L generalizing f c with
  | nil =>
      refine ⟨h.1, ?_⟩
      cases h.2 with
      | own hpc hstack hon hb' => exact Base.own hpc hstack hon (hb.trans hb')
      | release hpc hkind hstack hon hb' hp =>
          exact Base.release hpc hkind hstack hon (hb.trans hb') hp
      | @spawn q top entry i hb' hne h hstack =>
          obtain ⟨hframes, hflag, hq⟩ := hbuilt q hb'
          obtain ⟨e, fl, hw, hfr⟩ := h.words
          refine Base.spawn (hb.trans hb') hne { h with
            words := ⟨e, fl, ?_, fun hi => hframes.trans (hfr hi)⟩
            frames := fun hi => hframes.trans (h.frames hi)
            flag := hflag.trans h.flag } hstack
          refine hw.congr fun b hbq hle => ?_
          split_ifs at hstack with hi
          · exact hq (hstack ▸ hne) b hbq
          · rw [not_or] at hi
            have hupper := h.upper
            refine hmem b (hstack ▸ hbq) ?_
            rwa [h.rsp (by omega) (by omega)]
  | cons s L ih =>
      obtain ⟨⟨i, hpop⟩, hrest⟩ := h
      refine ⟨⟨i, { hpop with words := hpop.words.congr hmem }⟩, ih hrest fun b hbo hle => ?_⟩
      have := hpop.below
      exact hmem b hbo (by omega)

end Good

/-! ### Instructions of `resume_task` -/

lemma Popping.remaining_eq (h : I.Popping m.mem p stack f c s i)
    (hcode : (code .resumeTask)[i]? = some (.pop r)) :
    I.remaining s i = s.ctx.reg r :: I.remaining s (i + 1) := by
  refine remaining_pop hcode fun h13 => ?_
  rcases pop_cases hcode with ⟨-, h11, -⟩ | ⟨-, h22, -⟩
  · omega
  · exact h.general h13 h22.le

/-- A word is taken off the stack. -/
lemma addr_of_cons {a addr w : Word} {ws : List Word} (hlen : 5 ≤ ws.length)
    (h : Word.up a ((w :: ws).length - 5) = addr) : Word.up (a + 8) (ws.length - 5) = addr := by
  rwa [List.length_cons, Nat.succ_sub hlen, Word.up_succ] at h

lemma Popping.pop (h : I.Popping m.mem p stack f c s i)
    (hcode : (code .resumeTask)[i]? = some (.pop r)) :
    I.Popping m.mem p stack f ⟨.asm .resumeTask (i + 1), Function.update c.reg r (s.ctx.reg r),
      c.rsp + 8, c.rflags⟩ s (i + 1) := by
  have hw := h.words
  have haddr := h.addr
  have hbelow := h.below
  rw [h.remaining_eq hcode] at hw haddr hbelow
  refine ⟨rfl, by have := h.lower; omega, ?_, hw.tail, addr_of_cons length_remaining haddr, ?_, ?_,
    ?_, ?_, ?_, ?_, h.own⟩
  · rcases pop_cases hcode with ⟨-, h11, -⟩ | ⟨-, h22, -⟩ <;> omega
  · rw [StackMap.toNat_add_eight hw.owner]
    rw [List.length_cons] at hbelow
    omega
  · rw [h.flag]
    congr 1
    rw [decide_eq_decide]
    rcases pop_cases hcode with ⟨-, h11, -⟩ | ⟨h13, -, -⟩ <;> omega
  · intro hi
    rcases pop_cases hcode with ⟨-, -, hr⟩ | ⟨h13, -, -⟩
    · have hne : ∀ r ∈ standardRegs, Reg.rdi ≠ r := by decide
      exact (Function.update_of_ne (hne r (List.mem_of_getElem? hr)) ..).trans (h.rdi (by omega))
    · omega
  · intro hi
    rcases pop_cases hcode with ⟨-, h11, -⟩ | ⟨h13, -, -⟩ <;> omega
  · intro h13 h22
    rcases pop_cases hcode with ⟨-, h11, -⟩ | ⟨h13, -, -⟩
    · omega
    · exact h.general h13 (by omega)
  · intro hpre r' hr'
    rcases pop_cases hcode with ⟨-, h11, -⟩ | ⟨h13, -, hr⟩
    · rw [show i + 1 - 13 = 0 by omega] at hr'
      exact absurd hr' List.not_mem_nil
    · by_cases hrr : r' = r
      · subst hrr
        exact Function.update_self ..
      · refine (Function.update_of_ne hrr ..).trans (h.regs hpre r' ?_)
        rw [show i + 1 - 13 = i - 13 + 1 by omega, List.take_add_one, hr, List.mem_append] at hr'
        rcases hr' with hr' | hr'
        · exact hr'
        · exact absurd (List.mem_singleton.mp hr') hrr

/-- `btr` clears the flag. -/
lemma Popping.btr (h : I.Popping m.mem p stack f c s 11) :
    I.Popping m.mem p stack false
      ⟨.asm .resumeTask 12, c.reg, c.rsp, c.rflags.setBit 0 f⟩ s 12 := by
  refine ⟨rfl, by norm_num, by norm_num, h.words, h.addr, h.below, by simp, by norm_num, ?_,
    by norm_num, fun _ r hr => absurd hr List.not_mem_nil, h.own⟩
  intro _
  rw [Word.carry, Word.getLsbD_setBit _ (by norm_num), if_pos rfl, h.flag]
  simp

/-- `jnc` skips the general registers when they were not saved. -/
lemma Popping.jnc (h : I.Popping m.mem p stack f c s 12) :
    I.Popping m.mem p stack f ⟨.asm .resumeTask (if c.rflags.carry then 13 else 23), c.reg, c.rsp,
      c.rflags⟩ s (if c.rflags.carry then 13 else 23) := by
  have hflag := h.flag
  rw [h.carry rfl]
  cases hpre : s.preempted with
  | true =>
      rw [hpre] at hflag
      exact ⟨rfl, by norm_num, by norm_num, h.words, h.addr, h.below, by simpa [hpre] using hflag,
        by norm_num, by norm_num, fun _ _ => hpre, fun _ r hr => absurd hr List.not_mem_nil, h.own⟩
  | false =>
      rw [hpre] at hflag
      have hrem : I.remaining s 23 = I.remaining s 12 := remaining_jump hpre
      refine ⟨rfl, by norm_num, by norm_num, ?_, ?_, ?_, by simpa [hpre] using hflag, by norm_num,
        by norm_num, by norm_num, fun h => absurd h (by rw [hpre]; decide), h.own⟩
      · exact hrem ▸ h.words
      · exact hrem ▸ h.addr
      · exact hrem ▸ h.below

lemma Popping.popfq (h : I.Popping m.mem p stack f c s 22) :
    I.Popping m.mem p stack f ⟨.asm .resumeTask 23, c.reg, c.rsp + 8, s.flags⟩ s 23 := by
  have hpre := h.general (by norm_num) (by norm_num)
  have hw := h.words
  have haddr := h.addr
  have hbelow := h.below
  rw [remaining_popfq hpre] at hw haddr hbelow
  refine ⟨rfl, by norm_num, by norm_num, hw.tail, addr_of_cons length_remaining haddr, ?_, h.flag,
    by norm_num, by norm_num, by norm_num, h.regs, h.own⟩
  rw [StackMap.toNat_add_eight hw.owner]
  rw [List.length_cons] at hbelow
  omega

/-- The frame that the last `iretq` pops. -/
lemma Popping.frame (h : I.Popping m.mem p stack f c s 23) :
    c.rsp = s.addr ∧ I.stackMap.Words m.mem stack c.rsp (I.savedFrame s).words := by
  have haddr := h.addr
  have hw := h.words
  rw [remaining_last] at haddr hw
  exact ⟨(Word.up_zero c.rsp).symm.trans haddr, hw⟩

/-- **The last `iretq` goes on with the saved context.** -/
lemma Good.iretq (h : I.Popping m.mem p stack f c s 23) (hrest : I.Good m p stack false s.ctx L) :
    I.Good m p stack f ⟨s.ctx.pc, c.reg, s.ctx.rsp, s.ctx.rflags⟩ L := by
  have hf : f = false := by
    rw [h.flag]
    simp
  subst hf
  cases hpre : s.preempted with
  | true => exact hrest.congr_reg fun r hr => h.regs hpre r hr
  | false =>
      have hown := h.own hpre
      obtain ⟨rfl, -, hbase⟩ := hrest.base hown.ne_resume
      exact ⟨rfl, hbase.of_ownCode hown _ _⟩

/-- What an instruction of `resume_task` for the task `p` can change, but for the last one. -/
structure PopStep (m m' : Machine) (p : Word) : Prop where
  eq : m' = { m with
    pc := m'.pc, reg := m'.reg, rsp := m'.rsp, rflags := m'.rflags, info := m'.info }
  info : ∃ f, m'.info = Function.update m.info p { m.info p with interrupted := f }

lemma resume_code (h5 : 5 ≤ i) (h22 : i ≤ 22) :
    i = 11 ∨ i = 12 ∨ i = 22 ∨ ∃ r, (code .resumeTask)[i]? = some (.pop r) := by
  interval_cases i
  case «11» => exact Or.inl rfl
  case «12» => exact Or.inr (Or.inl rfl)
  case «22» => exact Or.inr (Or.inr (Or.inl rfl))
  all_goals exact Or.inr (Or.inr (Or.inr ⟨_, rfl⟩))

/-- The instruction of `resume_task` after its instruction `i`. -/
def nextPop (s : Saved) (i : ℕ) : ℕ := if i = 12 ∧ s.preempted = false then 23 else i + 1

/-- **An instruction of `resume_task`**, but for the last one. -/
lemma Popping.advance (h : I.Popping m.mem p stack (m.info p).interrupted m.context s i)
    (hne : i ≠ 23) : ∃ m', I.instr m = some m' ∧
      I.Popping m'.mem p stack (m'.info p).interrupted m'.context s (nextPop s i) ∧
      PopStep m m' p := by
  have hpc : m.pc = .asm .resumeTask i := h.pc
  have hupper := h.upper
  have hsame : ∃ f, m.info = Function.update m.info p { m.info p with interrupted := f } :=
    ⟨_, (Function.update_eq_self p m.info).symm⟩
  have hplain : Plain .resumeTask i := by
    simp only [Plain, List.mem_cons, Prod.mk.injEq, List.not_mem_nil, reduceCtorEq, false_and,
      true_and, or_false, false_or]
    exact hne
  rcases resume_code h.lower (by omega) with rfl | rfl | rfl | ⟨r, hcode⟩
  · have hrdi : m.reg .rdi = p := h.rdi (le_refl 11)
    refine ⟨_, instr_eq_exec hpc rfl hplain, ?_, rfl, false, by simp only [Machine.next, hrdi]⟩
    have hbtr := h.btr
    simp only [Machine.next, Machine.context, hpc, Pc.next, hrdi, Function.update_self]
    exact hbtr
  · have hjnc := h.jnc
    have hnext : (if m.context.rflags.carry then 13 else 23) = nextPop s 12 := by
      rw [h.carry rfl, nextPop]
      cases s.preempted <;> rfl
    have hif : (if m.rflags.carry then m.next else { m with pc := m.pc.jump 23 }) = { m with
        pc := .asm .resumeTask (nextPop s 12) } := by
      rw [← hnext]
      simp only [Machine.next, Machine.context, hpc, Pc.next, Pc.jump]
      split_ifs <;> rfl
    rw [hnext] at hjnc
    exact ⟨_, (instr_eq_exec hpc rfl hplain).trans (congrArg some hif), hjnc, rfl, hsame⟩
  · have hw := h.words
    rw [remaining_popfq (h.general (by norm_num) (by norm_num))] at hw
    refine ⟨_, (instr_eq_exec hpc rfl hplain).trans (exec_popfq hw), ?_, rfl, hsame⟩
    simp only [Machine.next, Machine.context, hpc, Pc.next]
    exact h.popfq
  · have hw := h.words
    rw [h.remaining_eq hcode] at hw
    have hnext : nextPop s i = i + 1 := if_neg fun h12 => by
      rw [h12.1] at hcode
      cases hcode
    refine ⟨_, (instr_eq_exec hpc hcode hplain).trans (exec_pop hw), ?_, rfl, hsame⟩
    rw [hnext]
    simp only [Machine.next, Machine.context, Machine.set, hpc, Pc.next]
    exact h.pop hcode

lemma PopStep.refl (m : Machine) (p : Word) : PopStep m m p :=
  ⟨rfl, _, (Function.update_eq_self p m.info).symm⟩

lemma PopStep.trans {m'' : Machine} (h : PopStep m m' p) (h' : PopStep m' m'' p) :
    PopStep m m'' p := by
  obtain ⟨f, hf⟩ := h.info
  obtain ⟨f', hf'⟩ := h'.info
  refine ⟨?_, f', ?_⟩
  · rw [h'.eq, h.eq]
  · rw [hf', hf, Function.update_idem, Function.update_self]

/-- **`resume_task` pops a preempted context** and comes to its last instruction. -/
lemma Popping.finish (h : I.Popping m.mem p stack (m.info p).interrupted m.context s i)
    (hpre : s.preempted = true) : ∃ m', I.instrs (23 - i) m = some m' ∧
      I.Popping m'.mem p stack (m'.info p).interrupted m'.context s 23 ∧ PopStep m m' p := by
  induction hk : 23 - i generalizing m i with
  | zero =>
      obtain rfl : i = 23 := by
        have := h.upper
        omega
      exact ⟨m, rfl, h, PopStep.refl m p⟩
  | succ k ih =>
      obtain ⟨m₁, h₁, hpop, hstep⟩ := h.advance (by omega)
      have hnext : nextPop s i = i + 1 := if_neg fun h12 => by simp [hpre] at h12
      rw [hnext] at hpop
      obtain ⟨m', h', hlast, hstep'⟩ := ih hpop (by omega)
      refine ⟨m', ?_, hlast, hstep.trans hstep'⟩
      rw [instrs, h₁]
      exact h'

/-! ### Instructions of `spawn_task` -/

section Spawn

variable {q top entry w : Word} {src : Src}

lemma spawn_push (h : (code .spawnTask)[i]? = some (.push src)) :
    3 ≤ i ∧ i ≤ 15 ∧ i ≠ 4 ∧ spawnDepth (i + 1) = spawnDepth i + 1 := by
  have hi : i < 18 := (List.getElem?_eq_some_iff.mp h).1
  interval_cases i <;> simp only [code, List.getElem?_cons_zero, List.getElem?_cons_succ,
    Option.some.injEq, reduceCtorEq] at h
  all_goals decide

/-- A push of `spawn_task`, onto the stack of the new task. -/
lemma Spawning.push (h : I.Spawning m p q c i top entry)
    (hcode : (code .spawnTask)[i]? = some (.push src))
    (hwords : ∃ e fl, I.stackMap.Words m'.mem q (Word.down top (spawnDepth (i + 1)))
        ((spawnWords top entry e fl).take (spawnDepth (i + 1))).reverse ∧
      (10 ≤ i + 1 → m'.frames q = [⟨Word.down top 6, [entry, cs, fl, Word.down top 1, ss]⟩]))
    (hframes : i + 1 ≤ 9 → m'.frames q = m.frames q)
    (hflag : (m'.info q).interrupted = (m.info q).interrupted) :
    I.Spawning m' p q ⟨.asm .spawnTask (i + 1), c.reg, c.rsp - 8, c.rflags⟩ (i + 1) top entry := by
  obtain ⟨h3, h15, h4, hdepth⟩ := spawn_push hcode
  refine ⟨rfl, by omega, h.on_top, h.label_entry, fun hi => h.rdi (by omega), by omega,
    fun _ _ => h.rdx (by omega) (by omega), by omega, fun _ _ => ?_, fun hi => h.rax (by omega),
    by omega, hwords, fun hi => (hframes hi).trans (h.frames (by omega)), hflag.trans h.flag⟩
  rw [hdepth, ← Word.down_sub_eight, ← h.rsp (by omega) (by omega)]
  rfl

/-- The words after a push. -/
lemma Spawning.words_push (h : I.Spawning m p q c i top entry)
    (hcode : (code .spawnTask)[i]? = some (.push src)) {ws : List Word}
    (hw : I.stackMap.Words m.mem q (Word.down top (spawnDepth i)) ws)
    (howner : I.stackMap.wordOwner (c.rsp - 8) = some q) :
    I.stackMap.Words (m.mem.store (c.rsp - 8) w) q (Word.down top (spawnDepth (i + 1)))
      (w :: ws) := by
  obtain ⟨h3, h15, -, hdepth⟩ := spawn_push hcode
  have hrsp : c.rsp = Word.down top (spawnDepth i) := h.rsp (by omega) (by omega)
  rw [hrsp] at howner ⊢
  have hpush := hw.push (w := w) howner
  rw [hdepth, ← Word.down_sub_eight]
  exact hpush

variable (I) in
/-- What an instruction of `spawn_task` for the task `q` can change. -/
structure BuildStep (m m' : Machine) (q : Word) : Prop where
  eq : m' = { m with
    pc := m'.pc, reg := m'.reg, rsp := m'.rsp, mem := m'.mem, frames := m'.frames }
  frames : ∀ r, r ≠ q → m'.frames r = m.frames r
  mem : ∀ b, I.stackMap.owner b ≠ some q → m'.mem b = m.mem b

/-- The pushes of `spawn_task`, but for the one that completes the interrupt frame. -/
lemma Spawning.step_push (h : I.Spawning m p q m.context i top entry) (hne : i ≠ 9)
    (hcode : (code .spawnTask)[i]? = some (.push src))
    (hword : ∀ e fl, ∃ e' fl', I.val m src :: ((spawnWords top entry e fl).take
      (spawnDepth i)).reverse = ((spawnWords top entry e' fl').take (spawnDepth (i + 1))).reverse ∧
        (10 ≤ i → fl' = fl))
    (hstep : I.instr m = some m') :
    I.Spawning m' p q m'.context (i + 1) top entry ∧ I.BuildStep m m' q := by
  obtain ⟨h3, h15, h4, hdepth⟩ := spawn_push hcode
  have hplain : Plain .spawnTask i := by
    simp only [Plain, List.mem_cons, Prod.mk.injEq, List.not_mem_nil, reduceCtorEq, false_and,
      true_and, or_false, false_or]
    exact hne
  have hpc : m.pc = .asm .spawnTask i := h.pc
  have hrsp : m.rsp = Word.down top (spawnDepth i) := h.rsp (by omega) (by omega)
  have hon : I.stackMap.On q m.rsp := hrsp ▸ h.on
  rw [instr_eq_exec hpc hcode hplain] at hstep
  obtain ⟨m₁, hpush, rfl⟩ := Option.map_eq_some_iff.mp hstep
  obtain ⟨howner, rfl⟩ := (push_eq_some fun r => hon.eq_of_push).mp hpush
  rw [pushed_singleton]
  have hctx : ({ m with
      rsp := m.rsp - 8, mem := m.mem.store (m.rsp - 8) (I.val m src) } : Machine).next.context =
      ⟨.asm .spawnTask (i + 1), m.reg, m.rsp - 8, m.rflags⟩ := by
    simp only [Machine.next, Machine.context, hpc, Pc.next]
  refine ⟨?_, rfl, fun _ _ => rfl, fun b hb => StackMap.store_of_outside howner hb⟩
  rw [hctx]
  obtain ⟨e, fl, hw, hfr⟩ := h.words
  obtain ⟨e', fl', heq, hfl⟩ := hword e fl
  refine h.push hcode ⟨e', fl', heq ▸ h.words_push hcode hw howner, fun hi => ?_⟩ (fun _ => rfl) rfl
  have h10 : 10 ≤ i := by omega
  rw [hfl h10]
  exact hfr h10

/-- The push that completes the interrupt frame. -/
lemma Spawning.step_save (h : I.Spawning m p q m.context 9 top entry)
    (hb : m.building m.currentTaskPtr = some q) (hstep : I.instr m = some m') :
    I.Spawning m' p q m'.context 10 top entry ∧ I.BuildStep m m' q := by
  have hcode : (code .spawnTask)[9]? = some (.push (.reg .rdi)) := rfl
  have hpc : m.pc = .asm .spawnTask 9 := h.pc
  have hrsp : m.rsp = Word.down top 5 := h.rsp (by norm_num) (by norm_num)
  have hon : I.stackMap.On q m.rsp := hrsp ▸ h.on
  have hrdi : m.reg .rdi = entry := h.rdi (by norm_num)
  rw [instr, hpc] at hstep
  obtain ⟨m₁, h₁, rfl⟩ := Option.map_eq_some_iff.mp hstep
  obtain ⟨m₂, h₂, rfl⟩ := Option.map_eq_some_iff.mp h₁
  obtain ⟨howner, rfl⟩ := (push_eq_some fun r => hon.eq_of_push).mp h₂
  obtain ⟨e, fl, hw, -⟩ := h.words
  have hdown : m.rsp - 8 = Word.down top 6 := by
    rw [hrsp]
    exact Word.down_sub_eight top 5
  have hwords : I.stackMap.Words (m.mem.store (m.rsp - 8) (m.reg .rdi)) q (Word.down top 6)
      (m.reg .rdi :: [cs, fl, Word.down top 1, ss, e]) := h.words_push hcode hw howner
  rw [hrdi] at hwords
  have hloads : (m.mem.store (m.rsp - 8) entry).loads (Word.down top 6) 5 =
      [entry, cs, fl, Word.down top 1, ss] :=
    (StackMap.Words.append.mp (show I.stackMap.Words _ q _
      ([entry, cs, fl, Word.down top 1, ss] ++ [e]) from hwords)).1.loads_eq rfl
  have hnote : note .spawnTask 9 (m.pushed [I.val m (.reg .rdi)]).next = { m with
      pc := .asm .spawnTask 10
      rsp := m.rsp - 8
      mem := m.mem.store (m.rsp - 8) entry
      frames := Function.update m.frames q
        (⟨Word.down top 6, [entry, cs, fl, Word.down top 1, ss]⟩ :: m.frames q) } := by
    rw [← hloads, ← hdown]
    simp only [note, pushed_singleton, Machine.next, hb, Option.elim_some, Machine.save, hpc,
      Pc.next, val, hrdi]
  rw [hnote]
  refine ⟨h.push hcode ⟨e, fl, hwords, fun _ => ?_⟩ (by norm_num) rfl, rfl,
    fun r hr => Function.update_of_ne hr .., fun b hb => StackMap.store_of_outside howner hb⟩
  refine (Function.update_self ..).trans ?_
  rw [h.frames (by norm_num)]

lemma spawn_mov : ∀ i ∈ [0, 1, 2, 4, 16, 17], spawnDepth (i + 1) = spawnDepth i ∧ i ≤ 17 ∧ i ≠ 5 ∧
    (10 ≤ i + 1 → 10 ≤ i) := by decide

/-- An instruction of `spawn_task` that pushes nothing. -/
lemma Spawning.move (h : I.Spawning m p q m.context i top entry) (hi : i ∈ [0, 1, 2, 4, 16, 17])
    {reg : Reg → Word} {rsp : Word}
    (heq : m' = { m with pc := .asm .spawnTask (i + 1), reg := reg, rsp := rsp })
    (hrdi : reg .rdi = m.reg .rdi) (hrsi : reg .rsi = m.reg .rsi)
    (hrdx : i ≤ 16 → I.stackMap.On p (reg .rdx)) (hown : i = 0 ∨ i = 17 → I.stackMap.On p rsp)
    (hrsp : i ≠ 0 → i ≠ 17 → rsp = Word.down top (spawnDepth i))
    (hrax : i = 4 → reg .rax = Word.down top 1) (hfinal : 16 ≤ i → reg .rax = Word.down top 12) :
    I.Spawning m' p q m'.context (i + 1) top entry ∧ I.BuildStep m m' q := by
  obtain ⟨hdepth, h17, h5, h10⟩ := spawn_mov i hi
  obtain ⟨e, fl, hw, hfr⟩ := h.words
  subst heq
  refine ⟨⟨rfl, by omega, h.on_top, h.label_entry, fun hi => hrdi.trans (h.rdi (by omega)),
    fun hi => hrsi.trans (h.rsi (by omega)), fun _ _ => hrdx (by omega), fun hi => hown (by omega),
    fun _ _ => ?_, fun hi => hrax (by omega), fun hi => hfinal (by omega),
    ⟨e, fl, hdepth ▸ hw, fun hi => hfr (h10 hi)⟩, fun hi => h.frames (by omega), h.flag⟩,
    rfl, fun _ _ => rfl, fun _ _ => rfl⟩
  rw [hdepth]
  exact hrsp (by omega) (by omega)

lemma Spawning.step_mov (h : I.Spawning m p q m.context i top entry)
    (hi : i ∈ [0, 1, 2, 4, 16, 17]) (hstep : I.instr m = some m') :
    I.Spawning m' p q m'.context (i + 1) top entry ∧ I.BuildStep m m' q := by
  have hpc : m.pc = .asm .spawnTask i := h.pc
  have hexec : ∀ {ins}, ∀ reg rsp, (code .spawnTask)[i]? = some ins → Plain .spawnTask i →
      I.exec m ins = some { m with pc := m.pc.next, reg := reg, rsp := rsp } →
      m' = { m with pc := .asm .spawnTask (i + 1), reg := reg, rsp := rsp } := by
    intro ins reg rsp hcode hplain hexec
    rw [instr_eq_exec hpc hcode hplain, hexec, hpc] at hstep
    exact (Option.some.inj hstep).symm
  have hcases : i = 0 ∨ i = 1 ∨ i = 2 ∨ i = 4 ∨ i = 16 ∨ i = 17 := by simpa using hi
  rcases hcases with rfl | rfl | rfl | rfl | rfl | rfl
  · exact h.move hi (hexec (Function.update m.reg .rdx m.rsp) m.rsp rfl (by decide) rfl) rfl rfl
      (fun _ => h.own (by norm_num)) (fun _ => h.own (by norm_num)) (by norm_num) (by norm_num)
      (by norm_num)
  · have hrsi : m.reg .rsi = top := h.rsi (by norm_num)
    exact h.move hi (hexec m.reg (m.reg .rsi) rfl (by decide) rfl) rfl rfl
      (fun _ => h.rdx (by norm_num) (by norm_num)) (by norm_num)
      (fun _ _ => hrsi.trans (Word.down_zero top).symm) (by norm_num) (by norm_num)
  · exact h.move hi (hexec (Function.update m.reg .rax I.endTask) m.rsp rfl (by decide) rfl) rfl rfl
      (fun _ => h.rdx (by norm_num) (by norm_num)) (by norm_num)
      (fun _ _ => h.rsp (by norm_num) (by norm_num)) (by norm_num) (by norm_num)
  · have hrsp : m.rsp = Word.down top 1 := h.rsp (by norm_num) (by norm_num)
    exact h.move hi (hexec (Function.update m.reg .rax m.rsp) m.rsp rfl (by decide) rfl) rfl rfl
      (fun _ => h.rdx (by norm_num) (by norm_num)) (by norm_num) (fun _ _ => hrsp) (fun _ => hrsp)
      (by norm_num)
  · have hrsp : m.rsp = Word.down top 12 := h.rsp (by norm_num) (by norm_num)
    exact h.move hi (hexec (Function.update m.reg .rax m.rsp) m.rsp rfl (by decide) rfl) rfl rfl
      (fun _ => h.rdx (by norm_num) (by norm_num)) (by norm_num) (fun _ _ => hrsp) (by norm_num)
      (fun _ => hrsp)
  · exact h.move hi (hexec m.reg (m.reg .rdx) rfl (by decide) rfl) rfl rfl (by norm_num)
      (fun _ => h.rdx (by norm_num) (by norm_num)) (by norm_num) (by norm_num)
      (fun _ => h.final (by norm_num))

/-- **An instruction of `spawn_task`.** -/
lemma Spawning.step (h : I.Spawning m p q m.context i top entry)
    (hb : m.building m.currentTaskPtr = some q) (hstep : I.instr m = some m') :
    I.Spawning m' p q m'.context (i + 1) top entry ∧ I.BuildStep m m' q := by
  have hpush : ∀ {s}, i ≠ 9 → (code .spawnTask)[i]? = some (.push s) → _ → _ :=
    fun hne hcode hword => h.step_push hne hcode hword hstep
  have hmov : i ∈ [0, 1, 2, 4, 16, 17] → _ := fun hi => h.step_mov hi hstep
  have hle := h.upper
  interval_cases i
  · exact hmov (by decide)
  · exact hmov (by decide)
  · exact hmov (by decide)
  · exact hpush (by norm_num) rfl fun e fl => ⟨m.reg .rax, fl, rfl, by norm_num⟩
  · exact hmov (by decide)
  · exact hpush (by norm_num) rfl fun e fl => ⟨e, fl, rfl, by norm_num⟩
  · have hrax : m.reg .rax = Word.down top 1 := h.rax (by norm_num)
    exact hpush (s := .reg .rax) (by norm_num) rfl fun e fl =>
      ⟨e, fl, congrArg (List.cons · _) hrax, by norm_num⟩
  · exact hpush (by norm_num) rfl fun e fl => ⟨e, m.rflags, rfl, by norm_num⟩
  · exact hpush (by norm_num) rfl fun e fl => ⟨e, fl, rfl, by norm_num⟩
  · exact h.step_save hb hstep
  -- the six zeros of the standard frame
  iterate 6 exact hpush (by norm_num) rfl fun e fl => ⟨e, fl, rfl, fun _ => rfl⟩
  · exact hmov (by decide)
  · exact hmov (by decide)
  · have hpc : m.pc = .asm .spawnTask 18 := h.pc
    rw [instr, hpc] at hstep
    cases (show (none : Option Machine) = some m' from hstep)

end Spawn

end Image

end Titanium
