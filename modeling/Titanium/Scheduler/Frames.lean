import Titanium.Scheduler.Misread

/-!
The interrupt frames that `resume_task` pops, along whole runs.

The pieces of code between `cli` and `sti`, and the handler of the timer
interrupt, are entered by no interrupt; everywhere else the invariant holds.

* `Leads`: the code comes through to a state with a property, and no interrupt
  can be delivered before.
* `Reached`: the invariant of all states that a run reaches.
* `PopsSaved`: `resume_task` pops the frame that was saved.
* `frames_popped_of_tested`: **when no interrupt comes before a set flag has been
  tested, `resume_task` always pops the frame that was saved**.
-/

namespace Titanium

namespace Image

/-- No timer interrupt can be delivered. -/
def Masked (m : Machine) : Prop := m.inService = true ∨ m.rflags.interrupts = false

/-- The code that the scheduler runs through with interrupts masked. -/
def Inner : Pc → Prop
  | .code (.asm .schedulerPreempt _) | .code (.asm .preemptJumpOut _)
  | .code (.asm .releaseJumpOut _) => True
  | .code (.asm .releaseTask i) => 1 ≤ i ∧ i ≤ 22
  | .code (.asm .resumeTask i) => 1 ≤ i ∧ i ≤ 4
  | _ => False

instance : DecidablePred Inner := fun pc => by
  unfold Inner
  split <;> infer_instance

/-- Neither an interrupt nor Rust code can come between. -/
structure Shielded (m : Machine) : Prop where
  masked : Masked m
  inner : Inner m.pc

variable (I : Image)

/-- After `n` instructions the code comes to a state with `P`, if it does not fault. -/
def Leads (P : Machine → Prop) : ℕ → Machine → Prop
  | 0, m => P m
  | n + 1, m => Shielded m ∧ ∀ m', I.instr m = some m' → Leads P n m'

variable {I} {P : Machine → Prop} {m m' : Machine} {p q stack : Word} {n k : ℕ}

lemma leads_add : I.Leads P (n + k) m ↔ I.Leads (I.Leads P k) n m := by
  induction n generalizing m with
  | zero => rw [Nat.zero_add, Leads]
  | succ n ih =>
      rw [Nat.succ_add, Leads, Leads]
      simp only [ih]

lemma Leads.mono {Q : Machine → Prop} (h : I.Leads P n m) (hPQ : ∀ m, P m → Q m) :
    I.Leads Q n m := by
  induction n generalizing m with
  | zero => exact hPQ m h
  | succ n ih => exact ⟨h.1, fun m' h' => ih (h.2 m' h')⟩

lemma leads_one (h : Shielded m) (hP : ∀ m', I.instr m = some m' → P m') : I.Leads P 1 m := ⟨h, hP⟩

/-- A piece of straight code that is masked up to its last instruction. -/
lemma leads_straight {r : Routine} {i : ℕ} {is : List Instr} (hpc : m.pc = .asm r i)
    (hcode : StraightCode r i is) (hn : is.length = n) (hinner : ∀ k < n, Inner (.asm r (i + k)))
    (hmask : m.inService = true ∧ .eoi ∉ is.dropLast ∨
      m.rflags.interrupts = false ∧ ∀ ins ∈ is.dropLast, ins.enables = false)
    (hP : ∀ m', I.instrs n m = some m' → P m') : I.Leads P n m := by
  subst hn
  induction is generalizing m i with
  | nil => exact hP m rfl
  | cons ins is ih =>
      obtain ⟨hget, htail⟩ := hcode.tail
      have hinstr := I.instr_eq_exec hpc hget (hcode.plain 0 (Nat.succ_pos _))
      refine ⟨⟨hmask.imp And.left And.left, ?_⟩, fun m₁ h₁ => ?_⟩
      · rw [hpc]
        exact hinner 0 (Nat.succ_pos _)
      · rw [hinstr] at h₁
        have hstep := exec_straight (hcode.straight ins (List.mem_cons_self ..)) h₁
        have hpc₁ : m₁.pc = .asm r (i + 1) := by
          rw [hstep.pc, hpc]
          rfl
        cases is with
        | nil =>
            refine hP m₁ ?_
            rw [List.length_singleton, instrs, hinstr, h₁]
            rfl
        | cons ins' is =>
            rw [List.dropLast_cons_cons] at hmask
            refine ih hpc₁ htail ?_ (fun k hk => ?_) fun m' h' => hP m' ?_
            · rcases hmask with ⟨hs, he⟩ | ⟨hf, he⟩
              · rw [List.mem_cons, not_or] at he
                exact Or.inl ⟨(hstep.inService (Ne.symm he.1)).trans hs, he.2⟩
              · obtain ⟨h0, he⟩ := List.forall_mem_cons.mp he
                exact Or.inr ⟨hstep.interrupts h0 hf, he⟩
            · have hnext := hinner (k + 1) (Nat.succ_lt_succ hk)
              rwa [show i + 1 + k = i + (k + 1) by omega]
            · rw [List.length_cons, instrs, hinstr, h₁]
              exact h'

lemma instrs_one (h : I.instr m = some m') : I.instrs 1 m = some m' := by
  rw [instrs, h]
  rfl

/-! ### The pieces of code -/

/-- `resume_task` comes to its pops. -/
lemma leads_resume (hpc : m.pc = .asm .resumeTask 0) (h : I.instr m = some m')
    (hP : P (switched m)) : I.Leads P 4 m' := by
  have hcode : StraightCode .resumeTask 1 [.movRsp (.sp .rdi), .storeCurrent .rdi, .storeStale .rdi,
      .sti] := ⟨by decide, by decide, by decide⟩
  have hall : I.instrs 5 m = some (switched m) := instrs_resume hpc
  rw [instrs, h, Option.bind_some] at hall
  rw [instr_eq_exec hpc rfl (by decide)] at h
  obtain rfl := Option.some.inj h
  refine leads_straight (by rw [Machine.next, hpc]; rfl) hcode rfl (by decide)
    (Or.inr ⟨Word.interrupts_setBit_self _ _, by decide⟩) fun m₁ h₁ => ?_
  obtain rfl := Option.some.inj (hall.symm.trans h₁)
  exact hP

lemma straight_check : StraightCode .schedulerPreempt 0 ((code .schedulerPreempt).take 7) :=
  ⟨by decide, by decide, by decide⟩

/-- `scheduler_preempt` comes to its branch. -/
lemma leads_branch (h5 : I.stackMap.Room stack m.aligned 5)
    (hP : I.stackMap.Room stack (Word.down m.aligned 5) 3 → P { (I.delivered m).checked with
      pc := if m.currentId = .ofNat 64 taskIdScheduler then .asm .schedulerPreempt 32
        else .asm .schedulerPreempt 8 }) : I.Leads P 8 (I.delivered m) := by
  refine (leads_add (n := 7) (k := 1)).mpr (leads_straight (m := I.delivered m) rfl straight_check
    rfl (fun _ _ => trivial) (Or.inl ⟨rfl, by decide⟩) fun m₁ h₁ => ?_)
  obtain ⟨h3, hchecked⟩ := instrs_check (k := 0) rfl h5.on_succ h₁
  obtain rfl := Option.some.inj hchecked
  refine leads_one ⟨Or.inl rfl, trivial⟩ fun m₂ h₂ => ?_
  rw [instr_branch] at h₂
  obtain rfl := Option.some.inj h₂
  exact hP h3

/-- An interrupt of the scheduler comes back to it. -/
lemma leads_return (hS : I.Settled m) (hcur : m.currentTaskPtr = I.schedulerTask)
    (hstarted : m.started = true) (hon : I.stackMap.On I.schedulerTask m.rsp) (hpc : SchedulerPc m)
    (hack : m.inService = false) (hint : m.rflags.interrupts = true)
    (h5 : I.stackMap.Room I.schedulerTask m.aligned 5)
    (hP : I.Settled (I.returned m) → P (I.returned m)) : I.Leads P 15 (I.delivered m) := by
  have hid : m.currentId = .ofNat 64 taskIdScheduler := by
    rw [Machine.currentId, hcur]
    exact hS.scheduler_id
  have hvalid : I.ValidPc m.pc := by
    cases hpc with
    | dispatch hpc _ =>
        rw [hpc]
        exact Nat.zero_le _
    | _ hpc =>
        rw [hpc]
        trivial
  refine (leads_add (n := 8) (k := 7)).mpr (leads_branch h5 fun h3 => ?_)
  rw [if_pos hid]
  have h : I.Interruptible m I.schedulerTask :=
    ⟨hvalid, hstarted, hack, hint, hcur, hS.scheduler_id, hon, h5.add h3⟩
  have hcode : StraightCode .schedulerPreempt 32 (((code .schedulerPreempt).drop 32).take 6) :=
    ⟨by decide, by decide, by decide⟩
  refine (leads_add (n := 6) (k := 1)).mpr (leads_straight (m := I.spared m) rfl hcode rfl
    (fun _ _ => trivial) (Or.inl ⟨rfl, by decide⟩) fun m₁ h₁ => leads_one ?_ fun m₂ h₂ => ?_)
  · have hpop := instrs_early_pop (m := I.spared m) rfl (spared_words h)
    obtain rfl := Option.some.inj (hpop.symm.trans h₁)
    exact ⟨Or.inr (Word.interrupts_setBit_self _ _), trivial⟩
  · have hreturn := instrs_returned h
    rw [I.instrs_add 6 1, h₁, Option.bind_some, instrs_one h₂] at hreturn
    obtain rfl := Option.some.inj hreturn
    exact hP (settled_returned hS h hon hpc)

/-- A preempted task comes to `resume_scheduler`. -/
lemma leads_preempt (hS : I.Settled m) (hlive : m.Live m.currentTaskPtr)
    (hstale : m.staleTaskPtr = m.currentTaskPtr) (hstarted : m.started = true)
    (hack : m.inService = false) (hint : m.rflags.interrupts = true)
    (huses : m.Uses m.currentTaskPtr stack)
    (hflag : (m.info m.currentTaskPtr).interrupted = false) {L : List Saved}
    (hgood : I.Good m m.currentTaskPtr stack false m.context L)
    (hframes : m.frames m.currentTaskPtr = L.map I.savedFrame)
    (h5 : I.stackMap.Room stack m.aligned 5)
    (hP : I.Settled (I.preempted m) → P (I.preempted m)) : I.Leads P 38 (I.delivered m) := by
  have hmem : m.currentTaskPtr ∈ m.allocated :=
    hlive.1.resolve_right fun h0 => absurd (hstarted.symm.trans h0.2) (by decide)
  have hid : m.currentId ≠ .ofNat 64 taskIdScheduler := hS.task_id _ hmem
  refine (leads_add (n := 8) (k := 30)).mpr (leads_branch h5 fun h3 => ?_)
  rw [if_neg hid]
  have hsave : StraightCode .schedulerPreempt 8 (((code .schedulerPreempt).drop 8).take 23) :=
    ⟨by decide, by decide, by decide⟩
  refine (leads_add (n := 23) (k := 7)).mpr (leads_straight (m := I.taken m) rfl hsave rfl
    (fun _ _ => trivial) (Or.inl ⟨rfl, by decide⟩) fun m₁ h₁ => ?_)
  obtain ⟨h18, hpushed⟩ := instrs_store_push (k := 0) h₁ rfl h3.on_succ
  obtain rfl := Option.some.inj hpushed
  refine (leads_add (n := 1) (k := 6)).mpr (leads_one ⟨Or.inl rfl, trivial⟩ fun m₂ h₂ => ?_)
  rw [instr_store_iretq h18] at h₂
  obtain rfl := Option.some.inj h₂
  have hout : StraightCode .preemptJumpOut 0 ((code .preemptJumpOut).take 5) :=
    ⟨by decide, by decide, by decide⟩
  refine (leads_add (n := 5) (k := 1)).mpr (leads_straight (m := I.stored (I.taken m)) rfl hout rfl
    (fun _ _ => trivial) (Or.inl ⟨rfl, by decide⟩) fun m₃ h₃ => ?_)
  rw [instrs_jumpOut_call rfl] at h₃
  obtain rfl := Option.some.inj h₃
  refine leads_one ⟨Or.inr (Word.interrupts_setBit_self _ _), trivial⟩ fun m₄ h₄ => ?_
  obtain ⟨howner, hcall⟩ := instrs_of_call (k := 0) (instrs_one h₄) rfl rfl (by decide)
    I.scheduler_stack
  obtain rfl := Option.some.inj hcall
  have hrsp : (I.taken m).rsp = Word.down m.aligned 8 := Word.down_add m.aligned 5 3
  have h : I.Preemptible m stack :=
    ⟨hgood.valid, hstarted, hack, hint, hid, hstale, hgood.on,
      hS.stack_ne_scheduler hlive huses,
      (h5.add h3 : I.stackMap.Room stack m.aligned 8).add (hrsp ▸ h18),
      StackMap.room_succ.mpr ⟨howner, StackMap.room_zero⟩⟩
  exact hP (settled_preempted hS h hlive huses hflag hgood hframes)

/-- A task that releases the processor comes to `resume_scheduler`. -/
lemma leads_release (hS : I.Settled m) (hlive : m.Live m.currentTaskPtr)
    (hstale : m.staleTaskPtr = m.currentTaskPtr) (hstarted : m.started = true)
    (hpc : m.pc = .asm .releaseTask 0) (hkind : resumeKind (m.reg .rsi) ≠ .preempted)
    (hon : I.stackMap.On m.currentTaskPtr m.rsp) (hbuild : m.building m.currentTaskPtr = none)
    (hflag : (m.info m.currentTaskPtr).interrupted = false)
    (hframes : m.frames m.currentTaskPtr = []) (h : I.instr m = some m')
    (hP : I.Settled (I.releasedOut m) → P (I.releasedOut m)) : I.Leads P 26 m' := by
  have hrun : ∀ n, I.instrs (n + 1) m = I.instrs n m' := fun n => by
    rw [instrs, h]
    rfl
  rw [instr_eq_exec hpc rfl (by decide)] at h
  obtain rfl := Option.some.inj h
  have hframe : StraightCode .releaseTask 1 (((code .releaseTask).drop 1).take 6) :=
    ⟨by decide, by decide, by decide⟩
  have hpc₀ : ({ m with rflags := m.rflags.setBit 9 false }.next : Machine).pc =
      .asm .releaseTask 1 := by
    rw [Machine.next, hpc]
    rfl
  refine (leads_add (n := 6) (k := 20)).mpr (leads_straight hpc₀ hframe rfl (by decide)
    (Or.inr ⟨Word.interrupts_setBit_self _ _, by decide⟩) fun m₁ h₁ => ?_)
  obtain ⟨hpc₁, -, hmask₁⟩ := instrs_keep hpc₀ hframe (le_refl 6) h₁
  refine (leads_add (n := 1) (k := 19)).mpr (leads_one ⟨Or.inr (hmask₁ (by decide)
    (Word.interrupts_setBit_self _ _)), by rw [hpc₁]; decide⟩ fun m₂ h₂ => ?_)
  have h₂' : I.instrs 8 m = some m₂ := by
    rw [hrun 7, I.instrs_add 6 1, h₁]
    exact instrs_one h₂
  obtain ⟨h5, hframed⟩ := instrs_release_frame (k := 0) h₂' hpc hon
  obtain rfl := Option.some.inj hframed
  have hsave : StraightCode .releaseTask 8 (((code .releaseTask).drop 8).take 14) :=
    ⟨by decide, by decide, by decide⟩
  refine (leads_add (n := 14) (k := 5)).mpr (leads_straight (m := I.releaseFramed m) rfl hsave rfl
    (by decide) (Or.inr ⟨Word.interrupts_setBit_self _ _, by decide⟩) fun m₃ h₃ => ?_)
  obtain ⟨h11, hpushed⟩ := instrs_release_push (k := 0) h₃ rfl h5.on_succ
  obtain rfl := Option.some.inj hpushed
  refine (leads_add (n := 1) (k := 4)).mpr (leads_one
    ⟨Or.inr (Word.interrupts_setBit_self _ _), (by decide : Inner (.asm .releaseTask 22))⟩
    fun m₄ h₄ => ?_)
  rw [instr_release_iretq h11] at h₄
  obtain rfl := Option.some.inj h₄
  have hout : StraightCode .releaseJumpOut 0 ((code .releaseJumpOut).take 3) :=
    ⟨by decide, by decide, by decide⟩
  refine (leads_add (n := 3) (k := 1)).mpr (leads_straight
    (m := I.releaseStored (I.releaseFramed m)) rfl hout rfl (fun _ _ => trivial)
    (Or.inr ⟨Word.interrupts_setBit_self _ _, by decide⟩) fun m₅ h₅ => ?_)
  rw [instrs_releaseJumpOut_call rfl] at h₅
  obtain rfl := Option.some.inj h₅
  refine leads_one ⟨Or.inr (Word.interrupts_setBit_self _ _), trivial⟩ fun m₆ h₆ => ?_
  have hsched : I.stackMap.On I.schedulerTask (m.info I.schedulerTask).sp := by
    rw [hS.scheduler_sp]
    exact I.scheduler_stack
  obtain ⟨howner, hcall⟩ := instrs_of_call (k := 0) (instrs_one h₆) rfl rfl (by decide) hsched
  obtain rfl := Option.some.inj hcall
  have hrel : Releasable I m := ⟨hpc, hkind, hon, h5, h11,
    StackMap.room_succ.mpr ⟨howner, StackMap.room_zero⟩⟩
  exact hP (settled_released hS hrel hlive hstarted hstale hflag hbuild hframes)

/-! ### Runs -/

/-- `resume_task` has not yet tested a flag `INTERRUPTED` that is set. -/
def Untested (m : Machine) : Prop :=
  (m.info m.currentTaskPtr).interrupted = true ∧
    m.pc ∈ (List.range' 5 7).map (Pc.asm .resumeTask)

instance : DecidablePred Untested := fun _ => inferInstanceAs (Decidable (_ ∧ _))

/-- The timer interrupt. -/
def Event.isTimer : Event → Bool
  | .timer => true
  | _ => false

variable (I) in
/-- Along the run, no timer interrupt is delivered to a task before `resume_task` has tested its
flag. -/
def InterruptsTested (m : Machine) : List Event → Prop
  | [] => True
  | e :: es => (e.isTimer → ¬Untested m) ∧
      match I.step m e with
      | some m' => InterruptsTested m' es
      | none => True

instance decidableInterruptsTested :
    ∀ (m : Machine) (es : List Event), Decidable (I.InterruptsTested m es)
  | _, [] => isTrue trivial
  | _, _ :: es =>
      have : ∀ o : Option Machine, Decidable (match o with
          | some m' => I.InterruptsTested m' es
          | none => True)
        | some m' => decidableInterruptsTested m' es
        | none => isTrue trivial
      inferInstanceAs (Decidable (_ ∧ _))

variable (I) in
/-- The states that a run reaches: the invariant holds, or will hold after some instructions that
nothing can interrupt. -/
def Reached (m : Machine) : Prop := ∃ n, I.Leads I.Settled n m

lemma Settled.reached (hS : I.Settled m) : I.Reached m := ⟨0, hS⟩

variable (I) in
/-- The code comes to the state `m₁`, and the invariant holds there. -/
def Arrives (m₁ m : Machine) : Prop :=
  ∃ n, I.Leads (fun m => m = m₁ ∧ I.Settled m) n m

lemma Arrives.leads {m₁ : Machine} (h : I.Arrives m₁ m) (hP : I.Settled m₁ → P m₁) :
    ∃ n, I.Leads P n m := by
  obtain ⟨n, hn⟩ := h
  exact ⟨n, hn.mono fun m hm => hm.1 ▸ hP (hm.1 ▸ hm.2)⟩

lemma Arrives.reached {m₁ : Machine} (h : I.Arrives m₁ m) : I.Reached m := h.leads id

variable (I) in
/-- What an instruction does: `resume_task` switches to a task, a task releases the processor, or
a task goes on. -/
inductive Turn (m m' : Machine) : Prop where
  | resume (hpc : m.pc = .asm .resumeTask 0) (hcur : m.currentTaskPtr = I.schedulerTask)
      (hstarted : m.started = true) (hrdi : m.Live (m.reg .rdi)) (h : I.Arrives (switched m) m')
  | release (hlive : m.Live m.currentTaskPtr) (hstale : m.staleTaskPtr = m.currentTaskPtr)
      (hstarted : m.started = true) (hpc : m.pc = .asm .releaseTask 0)
      (hflag : (m.info m.currentTaskPtr).interrupted = false) (h : I.Arrives (I.releasedOut m) m')
  | task (hlive : m.Live m.currentTaskPtr) (hstale : m.staleTaskPtr = m.currentTaskPtr)
      (hboot : m.started = false → m.currentTaskPtr = 0) (hlocal : I.Local m m')
      (h : I.Settled m')

lemma Settled.turn (hS : I.Settled m) (h : I.instr m = some m') : I.Turn m m' := by
  cases hS.control with
  | scheduler hcur hstarted hon hpc =>
      cases hpc with
      | dispatch hpc hrdi =>
          exact Turn.resume hpc hcur hstarted hrdi ⟨4, leads_resume hpc h
            ⟨rfl, settled_switched hS hpc hcur hstarted hrdi⟩⟩
      | _ hpc =>
          rw [instr, hpc] at h
          cases h
  | task hlive hstale hboot =>
      by_cases hpc : m.pc = .asm .releaseTask 0
      · obtain ⟨stack, L, huses, hgood, hframes⟩ := hS.tasks _ hlive
        rw [view_current] at hgood
        obtain ⟨rfl, hflag, hbase⟩ := hgood.base fun i => by simp [Machine.context, hpc]
        cases hbase with
        | own hown hstack hon hb => simp [OwnCode, Machine.context, hpc] at hown
        | release hpc' hkind hstack hon hb hp =>
            have hstarted : m.started = true := by
              by_contra hfalse
              exact hp (hboot (Bool.not_eq_true _ ▸ hfalse))
            exact Turn.release hlive hstale hstarted hpc hflag ⟨26, leads_release hS hlive hstale
              hstarted hpc hkind hon hb hflag hframes h fun hset => ⟨rfl, hset⟩⟩
        | spawn hb hne h hstack =>
            have hpc' := h.pc
            simp [Machine.context, hpc] at hpc'
      · obtain ⟨hlocal, hok⟩ := taskOk_instr hlive (hS.tasks _ hlive) hpc h
        exact Turn.task hlive hstale hboot hlocal (hS.of_local hlive hstale hboot hlocal hok)

lemma Settled.step_instr (hS : I.Settled m) (h : I.instr m = some m') : I.Reached m' := by
  cases hS.turn h with
  | resume _ _ _ _ h => exact h.reached
  | release _ _ _ _ _ h => exact h.reached
  | task _ _ _ _ h => exact h.reached

/-- An interrupt comes back to the scheduler, or preempts a task. -/
lemma Settled.timer_cases (hS : I.Settled m) (hne : ¬Untested m)
    (h : I.step m .timer = some m') :
    m.currentTaskPtr = I.schedulerTask ∧ m' = I.delivered m ∧ I.Arrives (I.returned m) m' ∨
      m.Live m.currentTaskPtr ∧ m.staleTaskPtr = m.currentTaskPtr ∧ m.started = true ∧
        (m.info m.currentTaskPtr).interrupted = false ∧ m' = I.delivered m ∧
        I.Arrives (I.preempted m) m' := by
  obtain ⟨⟨hstarted, hack, hint⟩, h⟩ := Option.ite_none_right_eq_some.mp h
  rw [Bool.not_eq_true] at hack
  cases hS.control with
  | scheduler hcur _ hon hpc =>
      obtain ⟨h5, rfl⟩ := (deliver_eq_some hon).mp h
      exact Or.inl ⟨hcur, rfl, 15, leads_return hS hcur hstarted hon hpc hack hint h5
        fun hset => ⟨rfl, hset⟩⟩
  | task hlive hstale hboot =>
      obtain ⟨stack, L, huses, hgood, hframes⟩ := hS.tasks _ hlive
      rw [view_current] at hgood
      obtain ⟨h5, rfl⟩ := (deliver_eq_some hgood.on).mp h
      have hflag : (m.info m.currentTaskPtr).interrupted = false := by
        by_contra hset
        rw [Bool.not_eq_false] at hset
        refine hne ⟨hset, ?_⟩
        rw [hset] at hgood
        obtain ⟨i, h5, h11, hpc⟩ := hgood.window
        refine List.mem_map.mpr ⟨i, ?_, hpc.symm⟩
        rw [List.mem_range'_1]
        omega
      rw [hflag] at hgood
      exact Or.inr ⟨hlive, hstale, hstarted, hflag, rfl, 38, leads_preempt hS hlive hstale hstarted
        hack hint huses hflag hgood hframes h5 fun hset => ⟨rfl, hset⟩⟩

lemma Settled.step_timer (hS : I.Settled m) (hne : ¬Untested m)
    (h : I.step m .timer = some m') : I.Reached m' := by
  rcases hS.timer_cases hne h with ⟨-, -, h⟩ | ⟨-, -, -, -, -, h⟩
  · exact h.reached
  · exact h.reached

lemma Settled.step (hS : I.Settled m) {e : Event} (hne : e.isTimer → ¬Untested m)
    (h : I.step m e = some m') : I.Reached m' := by
  cases e with
  | instr => exact hS.step_instr h
  | timer => exact hS.step_timer (hne rfl) h
  | work x a => exact (hS.work h).reached
  | callRelease x => exact (hS.callRelease h).reached
  | callSpawn x taskInfo stackPtr taskAddr options priority => exact (hS.callSpawn h).reached
  | spawned x a => exact (hS.spawned h).reached
  | start x => exact (hS.start h).reached
  | enter x => exact (hS.enter h).reached
  | record x => exact (hS.record h).reached
  | dispatch x => exact (hS.dispatch h).reached

/-- Nothing but the next instruction can happen. -/
lemma Shielded.step_eq (h : Shielded m) {e : Event} (hstep : I.step m e = some m') :
    I.instr m = some m' := by
  have huser : ∀ {b}, m.pc ≠ .user b := fun hpc => by simpa [hpc, Inner] using h.inner
  have hrust : ∀ {f}, m.pc ≠ .rust f := fun hpc => by simpa [hpc, Inner] using h.inner
  cases e with
  | instr => exact hstep
  | timer =>
      obtain ⟨⟨-, hack, hint⟩, -⟩ := Option.ite_none_right_eq_some.mp hstep
      rcases h.masked with hserv | hmask
      · exact absurd hserv hack
      · exact absurd (hint.symm.trans hmask) (by decide)
  | work x a =>
      rcases step_work_pc hstep with ⟨b, hpc⟩ | hpc
      · exact absurd hpc huser
      · have hinner := h.inner
        rw [hpc] at hinner
        exact absurd hinner (by decide)
  | callRelease x =>
      obtain ⟨⟨b, hpc⟩, -⟩ := step_callRelease hstep
      exact absurd hpc huser
  | callSpawn x taskInfo stackPtr taskAddr options priority =>
      obtain ⟨⟨b, hpc⟩, -⟩ := step_callSpawn hstep
      exact absurd hpc huser
  | spawned x a =>
      obtain ⟨hpc, -⟩ := step_spawned hstep
      have hinner := h.inner
      rw [hpc] at hinner
      exact absurd hinner (by decide)
  | start x =>
      obtain ⟨⟨b, hpc⟩, -⟩ := step_start hstep
      exact absurd hpc huser
  | enter x => exact absurd (step_enter hstep).1 hrust
  | record x => exact absurd (step_record hstep).1 hrust
  | dispatch x => exact absurd (step_dispatch hstep).1 hrust

lemma Reached.step (h : I.Reached m) {e : Event} (hne : e.isTimer → ¬Untested m)
    (hstep : I.step m e = some m') : I.Reached m' := by
  obtain ⟨n, hn⟩ := h
  cases n with
  | zero => exact Settled.step hn hne hstep
  | succ n => exact ⟨n, hn.2 m' (hn.1.step_eq hstep)⟩

lemma Reached.run {es : List Event} (h : I.Reached m) (htested : I.InterruptsTested m es)
    (hrun : I.run m es = some m') : I.Reached m' := by
  induction es generalizing m with
  | nil =>
      cases hrun
      exact h
  | cons e es ih =>
      obtain ⟨m₁, h₁, hrun⟩ := Option.bind_eq_some_iff.mp hrun
      obtain ⟨hne, hrest⟩ := htested
      rw [h₁] at hrest
      exact ih (h.step hne h₁) hrest hrun

lemma settled_boot {x : Scratch} {mem : Mem} {a : Word} (hon : I.stackMap.On 0 x.rsp)
    (hlabel : I.label a = none) : I.Settled (I.boot x mem a) where
  scheduler_id := rfl
  scheduler_sp := rfl
  task_id _ hq := absurd hq List.not_mem_nil
  scheduler_notMem := List.not_mem_nil
  boot_notMem := List.not_mem_nil
  fresh _ _ _ := rfl
  built _ _ hb := nomatch hb
  queue _ hq := absurd hq List.not_mem_nil
  tasks q hq := by
    obtain rfl : q = 0 := (hq.1.resolve_left List.not_mem_nil).1
    exact TaskOk.of_current (L := []) rfl (Or.inl rfl)
      ⟨rfl, Base.own (Or.inl ⟨a, rfl, hlabel⟩) rfl hon rfl⟩ rfl
  control := Control.task ⟨Or.inr ⟨rfl, rfl⟩, fun _ hb => nomatch hb⟩ rfl fun _ => rfl

/-! ### The frames that are popped -/

/-- What `resume_task` finds for the current task: at its test, the flag tells how far the frame is
that was saved for the suspension being resumed; at its last `iretq`, `rsp` is at that frame. -/
structure PopsSaved (m : Machine) : Prop where
  flag : m.pc = .asm .resumeTask 11 → ∃ f rest, m.frames m.currentTaskPtr = f :: rest ∧
    f.addr = Word.up m.rsp (if (m.info (m.reg .rdi)).interrupted then 10 else 0)
  frame : m.pc = .asm .resumeTask 23 → ∃ f rest, m.frames m.currentTaskPtr = f :: rest ∧
    m.rsp = f.addr ∧ m.mem.loads m.rsp 5 = f.words

/-- In the pops of `resume_task`, the current task has control. -/
lemma Reached.popping (h : I.Reached m) {i : ℕ} (hpc : m.pc = .asm .resumeTask i) (h5 : 5 ≤ i) :
    ∃ stack s L, I.Popping m.mem m.currentTaskPtr stack (m.info m.currentTaskPtr).interrupted
      m.context s i ∧ m.frames m.currentTaskPtr = (s :: L).map I.savedFrame := by
  obtain ⟨n, hn⟩ := h
  cases n with
  | succ n =>
      have hinner := hn.1.inner
      rw [hpc] at hinner
      have hle : i ≤ 4 := hinner.2
      omega
  | zero =>
      have hS : I.Settled m := hn
      cases hS.control with
      | scheduler hcur hstarted hon hsched =>
          cases hsched with
          | dispatch hpc' _ =>
              have : i = 0 := by simpa [hpc] using hpc'
              omega
          | _ hpc' => simp [hpc] at hpc'
      | task hlive hstale hboot =>
          obtain ⟨stack, L, huses, hgood, hframes⟩ := hS.tasks _ hlive
          rw [view_current] at hgood
          obtain ⟨s, L', rfl, hpop, -⟩ := hgood.popping hpc
          exact ⟨stack, s, L', hpop, hframes⟩

lemma length_remaining_test {s : Saved} :
    (I.remaining s 11).length - 5 = if s.preempted then 10 else 0 := by
  cases hpre : s.preempted <;>
  simp [remaining, Saved.general, hpre, standardRegs, scratchRegs, savedFrame]

lemma Reached.popsSaved (h : I.Reached m) : PopsSaved m where
  flag hpc := by
    obtain ⟨stack, s, L, hpop, hframes⟩ := h.popping hpc (by norm_num)
    refine ⟨I.savedFrame s, L.map I.savedFrame, hframes, ?_⟩
    have hrdi : m.reg .rdi = m.currentTaskPtr := hpop.rdi (le_refl 11)
    have hflag : (m.info m.currentTaskPtr).interrupted = s.preempted :=
      hpop.flag.trans (Bool.and_true _)
    rw [hrdi, hflag, ← length_remaining_test (I := I)]
    exact hpop.addr.symm
  frame hpc := by
    obtain ⟨stack, s, L, hpop, hframes⟩ := h.popping hpc (by norm_num)
    obtain ⟨haddr, hwords⟩ := hpop.frame
    exact ⟨I.savedFrame s, L.map I.savedFrame, hframes, haddr, hwords.loads_eq rfl⟩

/-- **`resume_task` always pops the frame that was saved**, in every run in which no timer interrupt
is delivered between the `sti` of `resume_task` and its test of a set flag. -/
theorem frames_popped_of_tested {x : Scratch} {mem : Mem} {a : Word} {es : List Event}
    (hon : I.stackMap.On 0 x.rsp) (hlabel : I.label a = none)
    (htested : I.InterruptsTested (I.boot x mem a) es)
    (hrun : I.run (I.boot x mem a) es = some m) : PopsSaved m :=
  ((settled_boot hon hlabel).reached.run htested hrun).popsSaved

/-! ### A sample run -/

/-- Compiled code of the boot code that leaves nothing behind. -/
def bootScratch : Scratch where
  reg _ := 0
  rsp := 0x14f00
  rflags := 0x202
  writes := []

/-- `spawn_task` for the first task, which starts at `0x2000`. -/
def spawnScratch : Scratch where
  reg
    | .rdi => 0x2000
    | .rsi => 0x215000
    | _ => 0
  rsp := 0x14f00
  rflags := 0x202
  writes := []

/-- The boot code at `0x1000`. -/
def sampleBoot : Machine := sampleImage.boot bootScratch (fun _ => 0) 0x1000

/-- A task is spawned, and runs. -/
def firstTask : List Event :=
  .callSpawn spawnScratch 0x5000 0x215000 0x2000 kernelTask 0 :: List.replicate 18 .instr ++
    [.spawned bootScratch 0x1000, .start quiet, .dispatch quiet] ++ List.replicate 14 .instr

/-- The first task is preempted, and `resume_task` is called for it again. -/
def preemptOnce : List Event := firstTask ++ switchBack

theorem frames_popped_preemptOnce :
    ∃ m, sampleImage.run sampleBoot (preemptOnce ++ List.replicate 23 .instr) = some m ∧
      m.pc = .asm .resumeTask 23 ∧ PopsSaved m := by
  have hrun : (sampleImage.run sampleBoot (preemptOnce ++ List.replicate 23 .instr)).map
      (fun m => m.pc) = some (.asm .resumeTask 23) := by decide +kernel
  obtain ⟨m, hm, hpc⟩ := Option.map_eq_some_iff.mp hrun
  exact ⟨m, hm, hpc, frames_popped_of_tested (by decide +kernel) (by decide +kernel)
    (by decide +kernel) hm⟩

/-- `resume_task` has popped one register, and the flag is set. -/
def OnePopped (m : Machine) : Prop :=
  (m.pc = .asm .resumeTask 6 ∧ m.rsp = 0x214f50 ∧ m.rflags = 0x202) ∧
    (m.currentTaskPtr = 0x5000 ∧ m.staleTaskPtr = 0x5000 ∧ m.taskQueue = []) ∧
    (m.started = true ∧ m.inService = false) ∧
    m.info 0x5000 = ⟨0x214f48, .ofNat 64 (makeTaskId kernelTask firstTaskId 0), true⟩

instance : DecidablePred OnePopped := fun _ => inferInstanceAs (Decidable (_ ∧ _))

lemma OnePopped.preemptible {m : Machine} (h : OnePopped m) :
    sampleImage.Preemptible m 0x5000 := by
  obtain ⟨⟨hpc, hrsp, hrflags⟩, ⟨hcur, hstale, -⟩, ⟨hstarted, hack⟩, hinfo⟩ := h
  refine ⟨?_, hstarted, hack, ?_, ?_, hstale.trans hcur.symm, ?_, by decide, ?_, by decide +kernel⟩
  · rw [hpc]
    exact (by decide : 6 ≤ (code .resumeTask).length)
  · rw [hrflags]
    decide
  · rw [Machine.currentId, hcur, hinfo]
    decide
  · rw [hrsp]
    decide +kernel
  · rw [Machine.aligned, hrsp]
    decide +kernel

/-- The first pop of the second `resume_task` is interrupted. -/
lemma OnePopped.untimely {m : Machine} (h : OnePopped m) (hr : sampleImage.Reached m) :
    ∃ s, sampleImage.Untimely m 0x5000 s 6 := by
  have hpre := h.preemptible
  obtain ⟨⟨hpc, hrsp, -⟩, ⟨hcur, -, hqueue⟩, -, hinfo⟩ := h
  obtain ⟨stack, s, L, hpop, hframes⟩ := hr.popping hpc (by norm_num)
  have hflag : (m.info m.currentTaskPtr).interrupted = true := by rw [hcur, hinfo]
  obtain rfl : stack = 0x5000 := by
    have hon : sampleImage.stackMap.On stack m.rsp := hpop.on
    rw [hrsp] at hon
    rcases hon with hon | hon
    · exact Option.some.inj (hon.symm.trans (by decide +kernel))
    · exact Option.some.inj (hon.symm.trans (by decide +kernel))
  rw [hflag] at hpop
  exact ⟨s, hpre, by rw [hcur]; decide, hqueue, hpop, L.map _, hframes⟩

/-- The run with an interrupt before the test of the flag. -/
def untimelyRun : List Event :=
  preemptOnce ++ List.replicate 6 .instr ++ switchBack ++ List.replicate 31 .instr

/-- When the timer interrupt comes between two pops of `resume_task` for a preempted task, it comes
to its last `iretq` ten words below the saved frame. -/
theorem resume_misses_frame :
    ∃ m f rest, sampleImage.run sampleBoot untimelyRun = some m ∧ m.pc = .asm .resumeTask 23 ∧
      m.frames m.currentTaskPtr = f :: rest ∧ f.addr = Word.up m.rsp 10 ∧ ¬PopsSaved m := by
  have hrun : (sampleImage.run sampleBoot (preemptOnce ++ List.replicate 6 .instr)).map
      (fun m => decide (OnePopped m)) = some true := by decide +kernel
  obtain ⟨m, hm, hone⟩ := Option.map_eq_some_iff.mp hrun
  have hone : OnePopped m := of_decide_eq_true hone
  have hreached : sampleImage.Reached m := (settled_boot (by decide +kernel)
    (by decide +kernel)).reached.run (by decide +kernel) hm
  obtain ⟨s, hs⟩ := hone.untimely hreached
  have hback : (sampleImage.run sampleBoot
      (preemptOnce ++ List.replicate 6 .instr ++ switchBack)).isSome := by decide +kernel
  obtain ⟨m', hm'⟩ := Option.isSome_iff_exists.mp hback
  have hsplit := hm'
  rw [run_append, hm, Option.bind_some, switchBack, List.append_assoc, run_append,
    run_preempt hone.preemptible, Option.bind_some] at hsplit
  obtain ⟨m₁, h₁, hpc, f, rest, hframes, haddr⟩ := misread hs hsplit
  refine ⟨m₁, f, rest, ?_, hpc, hframes, haddr, fun hpops => ?_⟩
  · rw [untimelyRun, run_append, hm', Option.bind_some, run_replicate]
    exact h₁
  · obtain ⟨f', rest', hframes', hrsp, -⟩ := hpops.frame hpc
    obtain ⟨rfl, -⟩ := List.cons.inj (hframes'.symm.trans hframes)
    rw [haddr] at hrsp
    exact absurd hrsp (by simp only [Word.up]; bv_omega)

end Image

end Titanium
