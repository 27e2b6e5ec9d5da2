import Titanium.Scheduler.Machine

/-!
Running the assembly.

* `instrs`: so many instructions in a row, without an interrupt.
* `execs`: a straight piece of code, instruction by instruction;
  `instrs_eq_execs` leads from the one to the other.
* `execs_push`, `execs_pop`, `iretq_eq`: rows of pushes and of pops, and the
  return from an interrupt, each in one step.
* `instrs_keep`: a straight piece keeps the masks of the timer interrupt that it
  does not touch.
* `instrs_progress`: with room for its pushes it does not fault.
* `scratch_spec`: what compiled code can change.
-/

namespace Titanium

/-- So many instructions further. -/
def Pc.skip (n : ℕ) : Pc → Pc
  | .code (.asm r i) => .asm r (i + n)
  | pc => pc

@[simp] lemma Pc.skip_zero (pc : Pc) : pc.skip 0 = pc := by
  unfold skip
  split <;> rfl

lemma Pc.skip_succ (pc : Pc) (n : ℕ) : pc.skip (n + 1) = pc.next.skip n := by
  unfold skip next
  split
  · simp [Nat.add_assoc, Nat.add_comm 1]
  · split <;> simp_all

/-- The words are pushed. -/
def Machine.pushed (m : Machine) (ws : List Word) : Machine :=
  { m with rsp := Word.down m.rsp ws.length, mem := m.mem.pushAll m.rsp ws }

/-- Several registers are written. -/
def setAll (reg : Reg → Word) : List Reg → List Word → Reg → Word
  | r :: rs, w :: ws => setAll (Function.update reg r w) rs ws
  | _, _ => reg

lemma setAll_of_notMem {r : Reg} {rs : List Reg} (h : r ∉ rs) (reg : Reg → Word) (ws : List Word) :
    setAll reg rs ws r = reg r := by
  induction rs generalizing reg ws with
  | nil => rfl
  | cons r' rs ih =>
      rw [List.mem_cons, not_or] at h
      cases ws with
      | nil => rfl
      | cons w ws => rw [setAll, ih h.2, Function.update_of_ne h.1]

namespace Instr

/-- Instructions after which the next one follows. -/
def straight : Instr → Bool
  | .je _ | .jnc _ | .iretq | .call _ => false
  | _ => true

/-- Instructions that can set `IF`. -/
def enables : Instr → Bool
  | .popfq | .sti | .iretq => true
  | _ => false

def isPush : Instr → Bool
  | .push _ => true
  | _ => false

/-- Straight instructions that use the stack for pushes only. -/
def steady : Instr → Bool
  | .pop _ | .popfq | .movRsp _ | .je _ | .jnc _ | .iretq | .call _ => false
  | _ => true

end Instr

namespace Image

variable (I : Image) {m m' : Machine} {p : Word} {ws : List Word}

/-- So many instructions. -/
def instrs : ℕ → Machine → Option Machine
  | 0, m => some m
  | n + 1, m => (I.instr m).bind (instrs n)

/-- A piece of code. -/
def execs (m : Machine) (is : List Instr) : Option Machine := is.foldlM I.exec m

lemma instrs_add (n k : ℕ) (m : Machine) :
    I.instrs (n + k) m = (I.instrs n m).bind (I.instrs k) := by
  induction n generalizing m with
  | zero => simp [instrs]
  | succ n ih =>
      rw [Nat.succ_add]
      simp only [instrs, Option.bind_assoc]
      exact congrArg _ (funext fun m₁ => ih m₁)

/-! ### Pushes and pops -/

variable {I}

lemma pushed_singleton (m : Machine) (w : Word) :
    m.pushed [w] = { m with rsp := m.rsp - 8, mem := m.mem.store (m.rsp - 8) w } := by
  simp only [Machine.pushed, List.length_singleton, Mem.pushAll]
  rfl

lemma push_eq_some (hon : ∀ q, I.stackMap.wordOwner (m.rsp - 8) = some q → q = p) {w : Word} :
    I.push m w = some m' ↔ I.stackMap.wordOwner (m.rsp - 8) = some p ∧ m' = m.pushed [w] := by
  rw [push, Option.ite_none_right_eq_some, Option.some.injEq, Option.isSome_iff_exists,
    pushed_singleton]
  refine ⟨fun ⟨⟨q, hq⟩, heq⟩ => ⟨hon q hq ▸ hq, heq.symm⟩, fun ⟨hq, heq⟩ => ⟨⟨p, hq⟩, heq.symm⟩⟩

lemma pushed_cons (m : Machine) (w : Word) (ws : List Word) :
    m.pushed (w :: ws) = (m.pushed [w]).pushed ws := by
  simp only [Machine.pushed, Mem.pushAll, List.length_cons, List.length_nil, Word.down_succ,
    Word.down_zero]

/-- Pushes onto the stack of `p`. -/
lemma foldlM_push (hon : ∀ q, I.stackMap.wordOwner (m.rsp - 8) = some q → q = p) :
    ws.foldlM I.push m = some m' ↔ I.stackMap.Room p m.rsp ws.length ∧ m' = m.pushed ws := by
  induction ws generalizing m with
  | nil => simp [Machine.pushed, Mem.pushAll, StackMap.room_zero, eq_comm]
  | cons w ws ih =>
      rw [List.foldlM_cons, Option.bind_eq_bind, Option.bind_eq_some_iff]
      constructor
      · rintro ⟨m₁, h₁, h⟩
        obtain ⟨howner, rfl⟩ := (push_eq_some hon).mp h₁
        have hon₁ : I.stackMap.On p (m.pushed [w]).rsp := StackMap.On.of_wordOwner howner
        obtain ⟨hroom, rfl⟩ := (ih fun q => hon₁.eq_of_push).mp h
        exact ⟨StackMap.room_succ.mpr ⟨howner, hroom⟩, (pushed_cons m w ws).symm⟩
      · rintro ⟨hroom, rfl⟩
        obtain ⟨howner, hroom⟩ := StackMap.room_succ.mp hroom
        refine ⟨m.pushed [w], (push_eq_some hon).mpr ⟨howner, rfl⟩, ?_⟩
        have hon₁ : I.stackMap.On p (m.pushed [w]).rsp := StackMap.On.of_wordOwner howner
        exact (ih fun q => hon₁.eq_of_push).mpr ⟨hroom, pushed_cons m w ws⟩

/-- A row of pushes. -/
lemma execs_push (hon : I.stackMap.On p m.rsp) {srcs : List Src} (hsrcs : .rsp ∉ srcs) :
    I.execs m (srcs.map .push) = some m' ↔ I.stackMap.Room p m.rsp srcs.length ∧
      m' = { m.pushed (srcs.map (I.val m)) with pc := m.pc.skip srcs.length } := by
  induction srcs generalizing m with
  | nil => simp [execs, Machine.pushed, Mem.pushAll, StackMap.room_zero, eq_comm]
  | cons src srcs ih =>
      rw [List.mem_cons, not_or] at hsrcs
      have hval : srcs.map (I.val (m.pushed [I.val m src]).next) = srcs.map (I.val m) := by
        refine List.map_congr_left fun s hs => ?_
        cases s <;> first | rfl | exact absurd hs hsrcs.2
      have hpushed : (m.pushed [I.val m src]).next.pushed (srcs.map (I.val m)) =
          { m.pushed ((src :: srcs).map (I.val m)) with pc := m.pc.next } := by
        rw [List.map_cons, pushed_cons m (I.val m src) (srcs.map (I.val m))]
        rfl
      rw [execs, List.map_cons, List.foldlM_cons, Option.bind_eq_bind, Option.bind_eq_some_iff]
      simp only [exec, Option.map_eq_some_iff]
      constructor
      · rintro ⟨_, ⟨m₁, h₁, rfl⟩, h⟩
        obtain ⟨howner, rfl⟩ := (push_eq_some fun q => hon.eq_of_push).mp h₁
        obtain ⟨hroom, rfl⟩ := (ih (StackMap.On.of_wordOwner howner) hsrcs.2).mp h
        refine ⟨StackMap.room_succ.mpr ⟨howner, hroom⟩, ?_⟩
        rw [hval, hpushed, List.length_cons, Pc.skip_succ]
        rfl
      · rintro ⟨hroom, rfl⟩
        obtain ⟨howner, hroom⟩ := StackMap.room_succ.mp hroom
        refine ⟨_, ⟨_, (push_eq_some fun q => hon.eq_of_push).mpr ⟨howner, rfl⟩, rfl⟩, ?_⟩
        refine (ih (StackMap.On.of_wordOwner howner) hsrcs.2).mpr ⟨hroom, ?_⟩
        rw [hval, hpushed, List.length_cons, Pc.skip_succ]
        rfl

lemma read_eq {a w : Word} (h : I.stackMap.Words m.mem p a (w :: ws)) : I.read m a = some w := by
  rw [read, if_pos (by rw [h.owner]; rfl), h.load]

lemma execs_cons (m : Machine) (ins : Instr) (is : List Instr) :
    I.execs m (ins :: is) = (I.exec m ins).bind fun m' => I.execs m' is := rfl

lemma exec_pop {r : Reg} {w : Word} (h : I.stackMap.Words m.mem p m.rsp (w :: ws)) :
    I.exec m (.pop r) = some ({ m with rsp := m.rsp + 8 }.set r w).next := by
  rw [exec, read_eq h]
  rfl

lemma exec_popfq {w : Word} (h : I.stackMap.Words m.mem p m.rsp (w :: ws)) :
    I.exec m .popfq = some { m with rsp := m.rsp + 8, rflags := w }.next := by
  rw [exec, read_eq h]
  rfl

/-- A row of pops. -/
lemma execs_pop {rs : List Reg} {rest : List Word} (hlen : rs.length = ws.length)
    (h : I.stackMap.Words m.mem p m.rsp (ws ++ rest)) :
    I.execs m (rs.map .pop) = some { m with
      pc := m.pc.skip rs.length
      reg := setAll m.reg rs ws
      rsp := Word.up m.rsp rs.length } := by
  induction rs generalizing m ws with
  | nil => simp [execs, setAll]
  | cons r rs ih =>
      cases ws with
      | nil => cases hlen
      | cons w ws =>
          rw [List.map_cons, execs_cons, exec_pop h, Option.bind_some]
          refine (ih (Nat.succ.inj hlen) h.tail).trans ?_
          rw [List.length_cons, Pc.skip_succ, Word.up_succ]
          rfl

/-- A return to code of the kernel. -/
lemma iretq_eq {rip rflags rsp : Word}
    (h : I.stackMap.Words m.mem p m.rsp ([rip, cs, rflags, rsp, ss] ++ ws)) :
    I.iretq m = some { m with pc := I.decode rip, rflags := rflags, rsp := rsp } := by
  simp only [iretq, Option.bind_eq_bind, read_eq h, read_eq h.tail, read_eq h.tail.tail,
    read_eq h.tail.tail.tail, read_eq h.tail.tail.tail.tail, Option.bind_some, and_self, if_true]

/-! ### Places -/

lemma decode_address {pc : Pc} (h : I.ValidPc pc) : I.decode (I.address pc) = pc := by
  cases pc with
  | code l => simp only [decode, address, I.label_addr l h]
  | user a =>
      have hnone : I.label a = none := h
      simp only [decode, address, hnone]

/-! ### Straight code -/

/-- The places where `note` does nothing. -/
def Plain (r : Routine) (i : ℕ) : Prop :=
  (r, i) ∉ [(Routine.releaseTask, 7), (.spawnTask, 9), (.resumeTask, 23)]

instance (r : Routine) (i : ℕ) : Decidable (Plain r i) := inferInstanceAs (Decidable (¬ _))

lemma note_of_plain {r : Routine} {i : ℕ} (h : Plain r i) (m : Machine) : note r i m = m := by
  unfold note
  split
  · exact absurd h (by decide)
  · exact absurd h (by decide)
  · exact absurd h (by decide)
  · rfl

end Image

namespace Word

lemma interrupts_setBit (w : Word) {i : ℕ} (hi : i < 64) (hne : i ≠ 9) (b : Bool) :
    (w.setBit i b).interrupts = w.interrupts := by
  rw [interrupts, getLsbD_setBit w hi, if_neg (Ne.symm hne), interrupts]

lemma interrupts_setBit_self (w : Word) (b : Bool) : (w.setBit 9 b).interrupts = b := by
  rw [interrupts, getLsbD_setBit w (by norm_num), if_pos rfl]

lemma interrupts_arith (w res : Word) (cf af of : Bool) :
    (w.arith res cf af of).interrupts = w.interrupts := by
  rw [arith, interrupts_setBit _ (by norm_num) (by norm_num),
    interrupts_setBit _ (by norm_num) (by norm_num),
    interrupts_setBit _ (by norm_num) (by norm_num),
    interrupts_setBit _ (by norm_num) (by norm_num),
    interrupts_setBit _ (by norm_num) (by norm_num),
    interrupts_setBit _ (by norm_num) (by norm_num)]

lemma zero_cmpFlags (w a b : Word) : (w.cmpFlags a b).zero = decide (a = b) := by
  rw [cmpFlags, arith, zero, getLsbD_setBit _ (by norm_num), if_neg (by norm_num),
    getLsbD_setBit _ (by norm_num), if_neg (by norm_num), getLsbD_setBit _ (by norm_num),
    if_pos rfl, decide_eq_decide]
  exact ⟨fun h => by bv_omega, fun h => by bv_omega⟩

end Word

namespace Image

variable {I : Image} {m m' : Machine} {p : Word}

/-- What a straight instruction does to the place and to the masks of the timer. -/
structure StraightStep (m m' : Machine) (ins : Instr) : Prop where
  pc : m'.pc = m.pc.next
  inService : ins ≠ .eoi → m'.inService = m.inService
  interrupts : ins.enables = false → m.rflags.interrupts = false → m'.rflags.interrupts = false

lemma exec_straight {ins : Instr} (hs : ins.straight) (h : I.exec m ins = some m') :
    StraightStep m m' ins := by
  cases ins with
  | push src =>
      obtain ⟨m₁, h₁, rfl⟩ := Option.map_eq_some_iff.mp h
      obtain ⟨-, heq⟩ := Option.ite_none_right_eq_some.mp h₁
      cases heq
      exact ⟨rfl, fun _ => rfl, fun _ => id⟩
  | pop r =>
      obtain ⟨w, -, rfl⟩ := Option.map_eq_some_iff.mp h
      exact ⟨rfl, fun _ => rfl, fun _ => id⟩
  | popfq =>
      obtain ⟨w, -, rfl⟩ := Option.map_eq_some_iff.mp h
      exact ⟨rfl, fun _ => rfl, nofun⟩
  | add r w =>
      cases h
      exact ⟨rfl, fun _ => rfl, fun _ => (Word.interrupts_arith ..).trans⟩
  | cmp a b =>
      cases h
      exact ⟨rfl, fun _ => rfl, fun _ => (Word.interrupts_arith ..).trans⟩
  | btr r =>
      cases h
      exact ⟨rfl, fun _ => rfl,
        fun _ => (Word.interrupts_setBit _ (by norm_num) (by norm_num) _).trans⟩
  | cli =>
      cases h
      exact ⟨rfl, fun _ => rfl, fun _ _ => Word.interrupts_setBit_self _ _⟩
  | sti =>
      cases h
      exact ⟨rfl, fun _ => rfl, nofun⟩
  | eoi =>
      cases h
      exact ⟨rfl, fun hne => absurd rfl hne, fun _ => id⟩
  | je i => cases hs
  | jnc i => cases hs
  | iretq => cases hs
  | call f => cases hs
  | _ =>
      cases h
      exact ⟨rfl, fun _ => rfl, fun _ => id⟩

/-- A piece of the code of `r` from `i` on, without jumps, in which no frame is
saved or consumed. -/
structure StraightCode (r : Routine) (i : ℕ) (is : List Instr) : Prop where
  code_eq : is <+: (code r).drop i
  straight : ∀ ins ∈ is, ins.straight
  plain : ∀ k < is.length, Plain r (i + k)

lemma StraightCode.tail {r : Routine} {i : ℕ} {ins : Instr} {is : List Instr}
    (h : StraightCode r i (ins :: is)) :
    (code r)[i]? = some ins ∧ StraightCode r (i + 1) is := by
  obtain ⟨rest, hrest⟩ := h.code_eq
  refine ⟨?_, ⟨rest, ?_⟩, fun x hx => h.straight x (List.mem_cons_of_mem ins hx), fun k hk => ?_⟩
  · have hget : ((code r).drop i)[0]? = (code r)[i]? := by rw [List.getElem?_drop, Nat.add_zero]
    rw [← hget, ← hrest]
    rfl
  · rw [← List.tail_drop, ← hrest]
    rfl
  · rw [show i + 1 + k = i + (k + 1) by omega]
    exact h.plain (k + 1) (Nat.succ_lt_succ hk)

lemma instr_eq_exec {r : Routine} {i : ℕ} {ins : Instr} (hpc : m.pc = .asm r i)
    (hcode : (code r)[i]? = some ins) (hplain : Plain r i) : I.instr m = I.exec m ins := by
  have hnote : note r i = id := funext fun m => note_of_plain hplain m
  rw [instr, hpc]
  simp only [hcode, Option.bind_some, hnote, Option.map_id, id]

lemma instrs_eq_execs {r : Routine} {i : ℕ} {is : List Instr} (hpc : m.pc = .asm r i)
    (h : StraightCode r i is) : I.instrs is.length m = I.execs m is := by
  induction is generalizing m i with
  | nil => rfl
  | cons ins is ih =>
      obtain ⟨hcode, htail⟩ := h.tail
      have hinstr := I.instr_eq_exec hpc hcode (h.plain 0 (Nat.succ_pos _))
      rw [List.length_cons, instrs, execs, List.foldlM_cons, hinstr, Option.bind_eq_bind]
      refine Option.bind_congr fun m₁ h₁ => ih ?_ htail
      rw [(exec_straight (h.straight ins (List.mem_cons_self ..)) h₁).pc, hpc]
      rfl

/-- Inside a straight piece, the masks of the timer stay as they are. -/
lemma instrs_keep {r : Routine} {i k : ℕ} {is : List Instr} (hpc : m.pc = .asm r i)
    (h : StraightCode r i is) (hk : k ≤ is.length) (hrun : I.instrs k m = some m') :
    m'.pc = .asm r (i + k) ∧ (.eoi ∉ is → m'.inService = m.inService) ∧
      ((∀ ins ∈ is, ins.enables = false) → m.rflags.interrupts = false →
        m'.rflags.interrupts = false) := by
  induction is generalizing m i k with
  | nil =>
      obtain rfl : k = 0 := Nat.le_zero.mp hk
      cases hrun
      exact ⟨hpc, fun _ => rfl, fun _ => id⟩
  | cons ins is ih =>
      cases k with
      | zero =>
          cases hrun
          exact ⟨hpc, fun _ => rfl, fun _ => id⟩
      | succ k =>
          obtain ⟨hcode, htail⟩ := h.tail
          obtain ⟨m₁, h₁, hrun⟩ := Option.bind_eq_some_iff.mp hrun
          rw [I.instr_eq_exec hpc hcode (h.plain 0 (Nat.succ_pos _))] at h₁
          have hstep := exec_straight (h.straight ins (List.mem_cons_self ..)) h₁
          have hpc₁ : m₁.pc = .asm r (i + 1) := by
            rw [hstep.pc, hpc]
            rfl
          obtain ⟨hpc', hserv, hint⟩ := ih hpc₁ htail (Nat.le_of_succ_le_succ hk) hrun
          refine ⟨by rw [hpc', Nat.add_assoc, Nat.add_comm 1], fun hno => ?_, fun hno hm => ?_⟩
          · rw [List.mem_cons, not_or] at hno
            rw [hserv hno.2, hstep.inService (Ne.symm hno.1)]
          · rw [List.forall_mem_cons] at hno
            exact hint hno.2 (hstep.interrupts hno.1 hm)

/-! ### Progress -/

lemma exec_steady {ins : Instr} (hs : ins.steady) (hpush : ins.isPush = false) :
    ∃ m', I.exec m ins = some m' ∧ m'.rsp = m.rsp := by
  cases ins with
  | push src => cases hpush
  | pop r => cases hs
  | popfq => cases hs
  | movRsp src => cases hs
  | je i => cases hs
  | jnc i => cases hs
  | iretq => cases hs
  | call f => cases hs
  | _ => exact ⟨_, rfl, rfl⟩

lemma exec_push {src : Src} (h : I.stackMap.wordOwner (m.rsp - 8) = some p) :
    I.exec m (.push src) = some (m.pushed [I.val m src]).next := by
  rw [exec, push, if_pos (by rw [h]; rfl), pushed_singleton]
  rfl

/-- With room for its pushes, a piece of code does not fault. -/
lemma execs_progress {is : List Instr} (hs : ∀ ins ∈ is, ins.steady)
    (hroom : I.stackMap.Room p m.rsp (is.countP Instr.isPush)) :
    ∃ m', I.execs m is = some m' ∧ m'.rsp = Word.down m.rsp (is.countP Instr.isPush) := by
  induction is generalizing m with
  | nil => exact ⟨m, rfl, by simp⟩
  | cons ins is ih =>
      obtain ⟨hins, his⟩ := List.forall_mem_cons.mp hs
      cases hpush : ins.isPush with
      | false =>
          rw [List.countP_cons_of_neg (by simp [hpush])] at hroom ⊢
          obtain ⟨m₁, h₁, hrsp⟩ := I.exec_steady (m := m) hins hpush
          obtain ⟨m', h, hrsp'⟩ := ih his (hrsp ▸ hroom)
          exact ⟨m', by rw [execs_cons, h₁, Option.bind_some, h], by rw [hrsp', hrsp]⟩
      | true =>
          rw [List.countP_cons_of_pos (by simp [hpush]), StackMap.room_succ] at hroom
          rw [List.countP_cons_of_pos (by simp [hpush])]
          cases ins with
          | push src =>
              have hrsp₁ : (m.pushed [I.val m src]).next.rsp = m.rsp - 8 := by
                rw [pushed_singleton]
                rfl
              obtain ⟨m', h, hrsp'⟩ := ih his (hrsp₁ ▸ hroom.2)
              refine ⟨m', by rw [execs_cons, exec_push hroom.1, Option.bind_some, h], ?_⟩
              rw [hrsp', hrsp₁, Word.down_succ]
          | _ => cases hpush

lemma instrs_progress {r : Routine} {i n pushes : ℕ} {is : List Instr} (hpc : m.pc = .asm r i)
    (hcode : StraightCode r i is) (hn : is.length = n) (hpushes : is.countP Instr.isPush = pushes)
    (hs : ∀ ins ∈ is, ins.steady) (hroom : I.stackMap.Room p m.rsp pushes) :
    ∃ m', I.instrs n m = some m' ∧ m'.rsp = Word.down m.rsp pushes := by
  subst hn hpushes
  rw [instrs_eq_execs hpc hcode]
  exact execs_progress hs hroom

/-! ### Runs -/

lemma run_replicate (n : ℕ) (m : Machine) : I.run m (List.replicate n .instr) = I.instrs n m := by
  induction n generalizing m with
  | zero => rfl
  | succ n ih =>
      rw [List.replicate_succ, run, List.foldlM_cons, instrs]
      exact Option.bind_congr fun m₁ _ => ih m₁

lemma run_cons (m : Machine) (e : Event) (es : List Event) :
    I.run m (e :: es) = (I.step m e).bind fun m' => I.run m' es := rfl

lemma run_singleton (m : Machine) (e : Event) : I.run m [e] = I.step m e := by
  rw [run_cons]
  exact Option.bind_fun_some _

lemma run_append (m : Machine) (es es' : List Event) :
    I.run m (es ++ es') = (I.run m es).bind fun m' => I.run m' es' := List.foldlM_append

/-- Compiled code that runs on the stack of `task` leaves the other stacks alone. -/
lemma scratch_spec {task : Word} {x : Scratch} (h : I.scratch task x m = some m') :
    I.stackMap.On task x.rsp ∧ ∃ mem,
      m' = { m with reg := x.reg, rsp := x.rsp, rflags := x.rflags, mem := mem } ∧
        ∀ b, I.stackMap.owner b ≠ some task → mem b = m.mem b := by
  rw [scratch, Option.ite_none_right_eq_some] at h
  obtain ⟨⟨hon, hwrites⟩, heq⟩ := h
  refine ⟨hon, _, (Option.some.inj heq).symm, fun b hb => ?_⟩
  have hmem : ∀ (ws : List (ℕ × UInt8)) (mem : Mem), (∀ w ∈ ws, I.stackMap.owner w.1 = some task) →
      ws.foldl (fun mem w => Function.update mem w.1 w.2) mem b = mem b := by
    intro ws
    induction ws with
    | nil => exact fun _ _ => rfl
    | cons w ws ih =>
        intro mem hws
        rw [List.foldl_cons, ih _ fun w' hw' => hws w' (List.mem_cons_of_mem w hw'),
          Function.update_of_ne]
        rintro rfl
        exact hb (hws w (List.mem_cons_self ..))
  exact hmem x.writes m.mem hwrites

end Image

end Titanium
