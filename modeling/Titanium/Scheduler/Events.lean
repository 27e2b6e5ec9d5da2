import Titanium.Scheduler.Settled

/-!
What happens in Rust code keeps the invariant of the scheduler: tasks that run
and call `release_task` or `spawn_task`, `start_scheduler`, and the scheduler
that records a released task and takes the next one.
-/

namespace Titanium

namespace Image

variable {I : Image} {m m' : Machine} {p q stack : Word}

/-! ### What an event does -/

lemma step_work_pc {x : Scratch} {a : Word} (h : I.step m (.work x a) = some m') :
    (∃ b, m.pc = .user b) ∨ m.pc = .asm .releaseTask 23 := by
  unfold step at h
  dsimp only at h
  cases hpc : m.pc with
  | user b => exact Or.inl ⟨b, rfl⟩
  | code l =>
      rw [hpc] at h
      cases l with
      | rust f => cases h
      | asm r i =>
          cases r with
          | releaseTask =>
              rcases lt_trichotomy i 23 with hi | rfl | hi
              · interval_cases i <;> cases h
              · exact Or.inr rfl
              · obtain ⟨j, rfl⟩ := Nat.exists_eq_add_of_le' (Nat.succ_le_of_lt hi)
                cases h
          | _ => cases h

lemma step_work {x : Scratch} {a : Word} (h : I.step m (.work x a) = some m') :
    ((∃ b, m.pc = .user b) ∨ m.pc = .asm .releaseTask 23) ∧ I.label a = none ∧
      ∃ m₁, I.scratch m.currentTaskPtr x m = some m₁ ∧ m' = { m₁ with pc := .user a } := by
  have hpc := step_work_pc h
  have h' : (if I.label a = none then
      (I.scratch m.currentTaskPtr x m).map fun m => { m with pc := .user a } else none) =
      some m' := by
    unfold step at h
    rcases hpc with ⟨b, hb⟩ | hb <;> rw [hb] at h <;> exact h
  obtain ⟨hlabel, h'⟩ := Option.ite_none_right_eq_some.mp h'
  obtain ⟨m₁, h₁, heq⟩ := Option.map_eq_some_iff.mp h'
  exact ⟨hpc, hlabel, m₁, h₁, heq.symm⟩

lemma step_callRelease {x : Scratch} (h : I.step m (.callRelease x) = some m') :
    (∃ b, m.pc = .user b) ∧ (m.started = true ∧ resumeKind (x.reg .rsi) ≠ .preempted) ∧
      ∃ m₁, I.scratch m.currentTaskPtr x m = some m₁ ∧
        m' = { m₁ with pc := .asm .releaseTask 0 } := by
  unfold step at h
  dsimp only at h
  split at h
  · next b hb =>
      obtain ⟨hcond, h⟩ := Option.ite_none_right_eq_some.mp h
      obtain ⟨m₁, h₁, heq⟩ := Option.map_eq_some_iff.mp h
      exact ⟨⟨b, hb⟩, hcond, m₁, h₁, heq.symm⟩
  · cases h

lemma step_start {x : Scratch} (h : I.step m (.start x) = some m') :
    (∃ b, m.pc = .user b) ∧ m.started = false ∧ ∃ m₁, I.scratch I.schedulerTask x m = some m₁ ∧
      m' = { m₁ with
        pc := .rust .runScheduler
        currentTaskPtr := I.schedulerTask
        staleTaskPtr := I.schedulerTask
        started := true } := by
  unfold step at h
  dsimp only at h
  split at h
  · next b hb =>
      split_ifs at h with hstarted
      obtain ⟨m₁, h₁, heq⟩ := Option.map_eq_some_iff.mp h
      exact ⟨⟨b, hb⟩, Bool.not_eq_true _ ▸ hstarted, m₁, h₁, heq.symm⟩
  · cases h

/-- What `spawn_task` checks and gets before its assembly. -/
structure SpawnArgs (I : Image) (m : Machine) (x : Scratch)
    (taskInfo stackPtr taskAddr : Word) : Prop where
  id : m.nextTaskId ≤ maxTaskId
  notMem : taskInfo ∉ m.allocated
  ne_zero : taskInfo ≠ 0
  ne_scheduler : taskInfo ≠ I.schedulerTask
  top : I.stackMap.owner (stackPtr.toNat - 1) = some taskInfo
  label : I.label taskAddr = none
  rdi : x.reg .rdi = taskAddr
  rsi : x.reg .rsi = stackPtr

lemma step_callSpawn {x : Scratch} {taskInfo stackPtr taskAddr : Word} {options priority : ℕ}
    (h : I.step m (.callSpawn x taskInfo stackPtr taskAddr options priority) = some m') :
    (∃ b, m.pc = .user b) ∧ SpawnArgs I m x taskInfo stackPtr taskAddr ∧
      ∃ m₁, I.scratch m.currentTaskPtr x m = some m₁ ∧ m' = { m₁ with
        pc := .asm .spawnTask 0
        info := Function.update m₁.info taskInfo
          ⟨stackPtr, .ofNat 64 (makeTaskId options m₁.nextTaskId priority), false⟩
        nextTaskId := m₁.nextTaskId + 1
        allocated := taskInfo :: m₁.allocated
        building := Function.update m₁.building m₁.currentTaskPtr (some taskInfo) } := by
  unfold step at h
  dsimp only at h
  split at h
  · next b hb =>
      obtain ⟨⟨⟨-, -, hid⟩, ⟨hmem, h0, hsched⟩, htop, hlabel, hrdi, hrsi⟩, h⟩ :=
        Option.ite_none_right_eq_some.mp h
      obtain ⟨m₁, h₁, heq⟩ := Option.map_eq_some_iff.mp h
      exact ⟨⟨b, hb⟩, ⟨hid, hmem, h0, hsched, htop, hlabel, hrdi, hrsi⟩, m₁, h₁, heq.symm⟩
  · cases h

lemma step_spawned {x : Scratch} {a : Word} (h : I.step m (.spawned x a) = some m') :
    m.pc = .asm .spawnTask 18 ∧ ∃ taskInfo, m.building m.currentTaskPtr = some taskInfo ∧
      I.label a = none ∧ ∃ m₁, I.scratch m.currentTaskPtr x m = some m₁ ∧ m' = { m₁ with
        pc := .user a
        info := Function.update m.info taskInfo { m.info taskInfo with sp := m.reg .rax }
        taskQueue := m.taskQueue ++ [taskInfo]
        building := Function.update m.building m.currentTaskPtr none } := by
  have hpc : m.pc = .asm .spawnTask 18 := by
    unfold step at h
    dsimp only at h
    cases hpc : m.pc with
    | user b =>
        rw [hpc] at h
        cases h
    | code l =>
        rw [hpc] at h
        cases l with
        | rust f => cases h
        | asm r i =>
            cases r with
            | spawnTask =>
                rcases lt_trichotomy i 18 with hi | rfl | hi
                · interval_cases i <;> cases h
                · rfl
                · obtain ⟨j, rfl⟩ := Nat.exists_eq_add_of_le' (Nat.succ_le_of_lt hi)
                  cases h
            | _ => cases h
  refine ⟨hpc, ?_⟩
  unfold step at h
  rw [hpc] at h
  cases hb : m.building m.currentTaskPtr with
  | none =>
      rw [hb] at h
      cases h
  | some taskInfo =>
      rw [hb] at h
      obtain ⟨hlabel, h⟩ := Option.ite_none_right_eq_some.mp h
      obtain ⟨m₁, h₁, heq⟩ := Option.map_eq_some_iff.mp h
      exact ⟨taskInfo, rfl, hlabel, m₁, h₁, heq.symm⟩

/-! ### Who has control -/

/-- In the code of a task, the task has control and nothing is saved of it. -/
structure Settled.Own (I : Image) (m : Machine) : Prop where
  live : m.Live m.currentTaskPtr
  stale : m.staleTaskPtr = m.currentTaskPtr
  boot : m.started = false → m.currentTaskPtr = 0
  building : m.building m.currentTaskPtr = none
  frames : m.frames m.currentTaskPtr = []
  flag : (m.info m.currentTaskPtr).interrupted = false

lemma Settled.own (hS : I.Settled m)
    (hpc : (∃ b, m.pc = .user b) ∨ m.pc = .asm .releaseTask 23) : Settled.Own I m := by
  cases hS.control with
  | scheduler hcur hstarted hon hsched => cases hsched <;> simp_all
  | task hlive hstale hboot =>
      obtain ⟨stack, L, huses, hgood, hframes⟩ := hS.tasks _ hlive
      rw [view_current] at hgood
      obtain ⟨rfl, hflag, hbase⟩ := hgood.base fun i hpc' => by
        have hpc' : m.pc = .asm .resumeTask i := hpc'
        simp [hpc'] at hpc
      cases hbase with
      | own hown hstack hon hb => exact ⟨hlive, hstale, hboot, hb, hframes, hflag⟩
      | release hpc' hkind hstack hon hb hp =>
          have hpc' : m.pc = .asm .releaseTask 0 := hpc'
          simp [hpc'] at hpc
      | spawn hb hne h hstack =>
          have hpc' : m.pc = .asm .spawnTask _ := h.pc
          simp [hpc'] at hpc

/-! ### Tasks that run -/

/-- Compiled code of a task has run on its stack, and comes to the place `pc`. -/
lemma Settled.of_scratch (hS : I.Settled m) (hown : Settled.Own I m) {x : Scratch} {pc : Pc}
    {m₁ : Machine} (hx : I.scratch m.currentTaskPtr x m = some m₁)
    (hpc : I.OwnCode pc ∨
      pc = .asm .releaseTask 0 ∧ resumeKind (x.reg .rsi) ≠ .preempted ∧ m.currentTaskPtr ≠ 0) :
    I.Settled { m₁ with pc := pc } := by
  obtain ⟨hon, mem, rfl, hmem⟩ := scratch_spec hx
  refine hS.of_local hown.live hown.stale hown.boot ⟨rfl, rfl, rfl, rfl, rfl, rfl, fun _ _ => rfl,
    rfl, fun _ _ => rfl, fun b hb => hmem b (hb _ (Or.inl rfl))⟩ ?_
  refine TaskOk.of_current (L := []) rfl (Or.inl rfl) ⟨hown.flag, ?_⟩ hown.frames
  rcases hpc with hpc | ⟨hpc, hkind, hp⟩
  · exact Base.own hpc rfl hon hown.building
  · exact Base.release hpc hkind rfl hon hown.building hp

lemma Settled.work (hS : I.Settled m) {x : Scratch} {a : Word}
    (h : I.step m (.work x a) = some m') : I.Settled m' := by
  obtain ⟨hpc, hlabel, m₁, hx, rfl⟩ := step_work h
  exact hS.of_scratch (hS.own hpc) hx (Or.inl (Or.inl ⟨a, rfl, hlabel⟩))

lemma Settled.callRelease (hS : I.Settled m) {x : Scratch}
    (h : I.step m (.callRelease x) = some m') : I.Settled m' := by
  obtain ⟨hpc, ⟨hstarted, hkind⟩, m₁, hx, rfl⟩ := step_callRelease h
  have hown := hS.own (Or.inl hpc)
  refine hS.of_scratch hown hx (Or.inr ⟨rfl, hkind, fun h0 => ?_⟩)
  rcases hown.live.1 with hmem | ⟨-, hfalse⟩
  · exact hS.boot_notMem (h0 ▸ hmem)
  · exact absurd (hstarted.symm.trans hfalse) (by decide)

/-! ### `spawn_task` -/

section CallSpawn

variable {x : Scratch} {t top entry : Word}

/-- A new task is none of the old ones. -/
lemma SpawnArgs.ne_of_live (h : SpawnArgs I m x t top entry) (hq : m.Live q) : q ≠ t := by
  rintro rfl
  rcases hq.1 with hmem | ⟨h0, -⟩
  · exact h.notMem hmem
  · exact h.ne_zero h0

/-- The machine in which `spawn_task` has come to its assembly. -/
def spawnCalled (m : Machine) (x : Scratch) (mem : Mem) (t top id : Word) : Machine :=
  { m with
    pc := .asm .spawnTask 0
    reg := x.reg
    rsp := x.rsp
    rflags := x.rflags
    mem := mem
    info := Function.update m.info t ⟨top, id, false⟩
    nextTaskId := m.nextTaskId + 1
    allocated := t :: m.allocated
    building := Function.update m.building m.currentTaskPtr (some t) }

variable {mem : Mem} {id : Word}

lemma building_spawnCalled (hb : (spawnCalled m x mem t top id).building p = some q) :
    p = m.currentTaskPtr ∧ q = t ∨ p ≠ m.currentTaskPtr ∧ m.building p = some q := by
  by_cases hp : p = m.currentTaskPtr
  · subst hp
    have hself : (spawnCalled m x mem t top id).building m.currentTaskPtr = some t :=
      Function.update_self ..
    exact Or.inl ⟨rfl, Option.some.inj (hb.symm.trans hself)⟩
  · exact Or.inr ⟨hp, (Function.update_of_ne hp ..).symm.trans hb⟩

lemma live_spawnCalled (hown : Settled.Own I m) (h : SpawnArgs I m x t top entry) :
    (spawnCalled m x mem t top id).Live q ↔ m.Live q := by
  constructor
  · intro hq
    have hqt : q ≠ t := fun heq => hq.2 m.currentTaskPtr (heq ▸ Function.update_self ..)
    refine ⟨hq.1.imp_left fun hmem => (List.mem_cons.mp hmem).resolve_left hqt, fun p hb => ?_⟩
    have hp : p ≠ m.currentTaskPtr := by
      rintro rfl
      rw [hown.building] at hb
      cases hb
    exact hq.2 p ((Function.update_of_ne hp ..).trans hb)
  · intro hq
    refine ⟨hq.1.imp_left (List.mem_cons_of_mem t), fun p hb => ?_⟩
    rcases building_spawnCalled hb with ⟨-, heq⟩ | ⟨-, hb⟩
    · exact h.ne_of_live hq heq
    · exact hq.2 p hb

lemma statics_spawnCalled (hS : I.Statics m) (hown : Settled.Own I m)
    (h : SpawnArgs I m x t top entry) (hid : id ≠ .ofNat 64 taskIdScheduler) :
    I.Statics (spawnCalled m x mem t top id) := by
  have hsched : (spawnCalled m x mem t top id).info I.schedulerTask = m.info I.schedulerTask :=
    Function.update_of_ne h.ne_scheduler.symm ..
  refine ⟨?_, ?_, fun q hq => ?_, ?_, ?_, fun q hq h0 => ?_, fun p q hb => ?_⟩
  · rw [hsched]
    exact hS.scheduler_id
  · rw [hsched]
    exact hS.scheduler_sp
  · show (Function.update m.info t _ q).taskId ≠ _
    by_cases hqt : q = t
    · rw [hqt, Function.update_self]
      exact hid
    · rw [Function.update_of_ne hqt]
      exact hS.task_id q ((List.mem_cons.mp hq).resolve_left hqt)
  · exact fun hmem => (List.mem_cons.mp hmem).elim h.ne_scheduler.symm hS.scheduler_notMem
  · exact fun hmem => (List.mem_cons.mp hmem).elim h.ne_zero.symm hS.boot_notMem
  · exact hS.fresh q (fun hmem => hq (List.mem_cons_of_mem t hmem)) h0
  · rw [live_spawnCalled hown h]
    rcases building_spawnCalled hb with ⟨rfl, rfl⟩ | ⟨hp, hb⟩
    · refine ⟨hown.live, List.mem_cons_self .., fun p' hb' => ?_⟩
      rcases building_spawnCalled hb' with ⟨rfl, -⟩ | ⟨-, hb'⟩
      · rfl
      · exact absurd (hS.built p' q hb').2.1 h.notMem
    · obtain ⟨hlive, hmem, huniq⟩ := hS.built p q hb
      refine ⟨hlive, List.mem_cons_of_mem t hmem, fun p' hb' => ?_⟩
      rcases building_spawnCalled hb' with ⟨-, rfl⟩ | ⟨-, hb'⟩
      · exact absurd hmem h.notMem
      · exact huniq p' hb'

lemma keeps_spawnCalled (hS : I.Statics m) (hown : Settled.Own I m)
    (h : SpawnArgs I m x t top entry)
    (hmem : ∀ b, I.stackMap.owner b ≠ some m.currentTaskPtr → mem b = m.mem b)
    (hq : m.Live q) (hne : q ≠ m.currentTaskPtr) :
    I.Keeps m (spawnCalled m x mem t top id) q where
  view := view_congr hne hown.stale hne rfl (Function.update_of_ne (h.ne_of_live hq) ..)
  building := Function.update_of_ne hne ..
  frames _ _ := rfl
  flag r hr := by
    have hrt : r ≠ t := by
      rintro rfl
      exact h.notMem (hS.built q r hr).2.1
    exact congrArg RawTaskInfo.interrupted (Function.update_of_ne hrt ..)
  mem stack huses b hb := hmem b fun hb' => hS.stack_ne hown.live hq hne huses (Or.inl rfl)
    (Option.some.inj (hb.symm.trans hb'))

lemma taskOk_spawnCalled (hS : I.Statics m) (hown : Settled.Own I m)
    (h : SpawnArgs I m x t top entry) (hon : I.stackMap.On m.currentTaskPtr x.rsp) :
    I.TaskOk (spawnCalled m x mem t top id) m.currentTaskPtr := by
  have hne : t ≠ m.currentTaskPtr := (h.ne_of_live hown.live).symm
  have hflag : ((spawnCalled m x mem t top id).info m.currentTaskPtr).interrupted = false :=
    (congrArg RawTaskInfo.interrupted (Function.update_of_ne hne.symm ..)).trans hown.flag
  have hinfo : (spawnCalled m x mem t top id).info t = ⟨top, id, false⟩ := Function.update_self ..
  have hspawn : I.Spawning (spawnCalled m x mem t top id) m.currentTaskPtr t
      ⟨.asm .spawnTask 0, x.reg, x.rsp, x.rflags⟩ 0 top entry :=
    ⟨rfl, Nat.zero_le _, Or.inl h.top, h.label, fun _ => h.rdi, fun _ => h.rsi, by norm_num,
      fun _ => hon, by norm_num, by norm_num, by norm_num,
      ⟨0, 0, StackMap.Words.nil, by norm_num⟩, fun _ => hS.fresh t h.notMem h.ne_zero,
      by rw [hinfo]⟩
  exact TaskOk.of_current (L := []) rfl (Or.inl rfl)
    ⟨hflag, Base.spawn (Function.update_self ..) hne hspawn rfl⟩ hown.frames

lemma settled_spawnCalled (hS : I.Settled m) (hown : Settled.Own I m)
    (h : SpawnArgs I m x t top entry) (hid : id ≠ .ofNat 64 taskIdScheduler)
    (hon : I.stackMap.On m.currentTaskPtr x.rsp)
    (hmem : ∀ b, I.stackMap.owner b ≠ some m.currentTaskPtr → mem b = m.mem b) :
    I.Settled (spawnCalled m x mem t top id) := by
  refine { statics_spawnCalled hS.toStatics hown h hid with
    queue := fun q hq => ⟨List.mem_cons_of_mem t (hS.queue q hq).1, fun p hb => ?_⟩
    tasks := fun q hq => ?_
    control := Control.task ((live_spawnCalled hown h).mpr hown.live) hown.stale hown.boot }
  · rcases building_spawnCalled hb with ⟨-, rfl⟩ | ⟨-, hb⟩
    · exact h.notMem (hS.queue q hq).1
    · exact (hS.queue q hq).2 p hb
  · rw [live_spawnCalled hown h] at hq
    by_cases hcur : q = m.currentTaskPtr
    · subst hcur
      exact taskOk_spawnCalled hS.toStatics hown h hon
    · exact (hS.tasks q hq).keep (keeps_spawnCalled hS.toStatics hown h hmem hq hcur)

lemma Settled.callSpawn (hS : I.Settled m) {options priority : ℕ}
    (h : I.step m (.callSpawn x t top entry options priority) = some m') : I.Settled m' := by
  obtain ⟨hpc, hargs, m₁, hx, rfl⟩ := step_callSpawn h
  obtain ⟨hon, mem, rfl, hmem⟩ := scratch_spec hx
  have hset : I.Settled (spawnCalled m x mem t top
      (.ofNat 64 (makeTaskId options m.nextTaskId priority))) :=
    settled_spawnCalled hS (hS.own (Or.inl hpc)) hargs (ofNat_makeTaskId_ne hargs.id) hon hmem
  exact hset

end CallSpawn

section Spawned

variable {x : Scratch} {mem : Mem} {t top entry a : Word}

/-- The machine in which `spawn_task` has returned to `a`. -/
def spawnDone (m : Machine) (x : Scratch) (mem : Mem) (t a : Word) : Machine :=
  { m with
    pc := .user a
    reg := x.reg
    rsp := x.rsp
    rflags := x.rflags
    mem := mem
    info := Function.update m.info t { m.info t with sp := m.reg .rax }
    taskQueue := m.taskQueue ++ [t]
    building := Function.update m.building m.currentTaskPtr none }

variable (I) in
/-- `spawn_task` has come to the end of its assembly, for the new task `t`. -/
structure Spawned (m : Machine) (t top entry : Word) : Prop where
  live : m.Live m.currentTaskPtr
  stale : m.staleTaskPtr = m.currentTaskPtr
  boot : m.started = false → m.currentTaskPtr = 0
  building : m.building m.currentTaskPtr = some t
  ne : t ≠ m.currentTaskPtr
  frames : m.frames m.currentTaskPtr = []
  flag : (m.info m.currentTaskPtr).interrupted = false
  spawning : I.Spawning m m.currentTaskPtr t m.context 18 top entry

lemma Settled.spawned_of_pc (hS : I.Settled m) (hpc : m.pc = .asm .spawnTask 18)
    (hb : m.building m.currentTaskPtr = some t) : ∃ top entry, I.Spawned m t top entry := by
  cases hS.control with
  | scheduler hcur hstarted hon hsched => cases hsched <;> simp_all
  | task hlive hstale hboot =>
      obtain ⟨stack, L, huses, hgood, hframes⟩ := hS.tasks _ hlive
      rw [view_current] at hgood
      obtain ⟨rfl, hflag, hbase⟩ := hgood.base fun i => by simp [Machine.context, hpc]
      cases hbase with
      | own hown hstack hon hb => simp [OwnCode, Machine.context, hpc] at hown
      | release hpc' hkind hstack hon hb hp => simp [Machine.context, hpc] at hpc'
      | @spawn q top entry i hb' hne h hstack =>
          obtain rfl : q = t := Option.some.inj (hb'.symm.trans hb)
          obtain rfl : i = 18 := by simpa [Machine.context, hpc, eq_comm] using h.pc
          exact ⟨top, entry, hlive, hstale, hboot, hb, hne, hframes, hflag, h⟩

lemma building_spawnDone (hb : (spawnDone m x mem t a).building p = some q) :
    p ≠ m.currentTaskPtr ∧ m.building p = some q := by
  by_cases hp : p = m.currentTaskPtr
  · subst hp
    have hself : (spawnDone m x mem t a).building m.currentTaskPtr = none := Function.update_self ..
    cases hself.symm.trans hb
  · exact ⟨hp, (Function.update_of_ne hp ..).symm.trans hb⟩

/-- Only the new task becomes live. -/
lemma live_spawnDone (hS : I.Statics m) (h : I.Spawned m t top entry) :
    (spawnDone m x mem t a).Live q ↔ q = t ∨ m.Live q := by
  constructor
  · intro hq
    by_cases hqt : q = t
    · exact Or.inl hqt
    · refine Or.inr ⟨hq.1, fun p hb => ?_⟩
      by_cases hp : p = m.currentTaskPtr
      · rw [hp, h.building] at hb
        exact hqt (Option.some.inj hb).symm
      · exact hq.2 p ((Function.update_of_ne hp ..).trans hb)
  · rintro (rfl | hq)
    · obtain ⟨-, hmem, huniq⟩ := hS.built _ q h.building
      refine ⟨Or.inl hmem, fun p hb => ?_⟩
      obtain ⟨hp, hb⟩ := building_spawnDone hb
      exact hp (huniq p hb)
    · exact ⟨hq.1, fun p hb => hq.2 p (building_spawnDone hb).2⟩

lemma statics_spawnDone (hS : I.Statics m) (h : I.Spawned m t top entry) :
    I.Statics (spawnDone m x mem t a) := by
  obtain ⟨-, hmem, -⟩ := hS.built _ t h.building
  have hid : ∀ q, ((spawnDone m x mem t a).info q).taskId = (m.info q).taskId := fun q => by
    show (Function.update m.info t _ q).taskId = _
    by_cases hqt : q = t
    · rw [hqt, Function.update_self]
    · rw [Function.update_of_ne hqt]
  have hsched : I.schedulerTask ≠ t := fun heq => hS.scheduler_notMem (heq ▸ hmem)
  refine ⟨(hid _).trans hS.scheduler_id, ?_, fun q hq => ?_, hS.scheduler_notMem, hS.boot_notMem,
    hS.fresh, fun p q hb => ?_⟩
  · exact (congrArg RawTaskInfo.sp (Function.update_of_ne hsched ..)).trans hS.scheduler_sp
  · rw [hid]
    exact hS.task_id q hq
  · obtain ⟨hp, hb⟩ := building_spawnDone hb
    obtain ⟨hlive, hq, huniq⟩ := hS.built p q hb
    exact ⟨(live_spawnDone hS h).mpr (Or.inr hlive), hq, fun p' hb' =>
      huniq p' (building_spawnDone hb').2⟩

lemma keeps_spawnDone (hS : I.Statics m) (h : I.Spawned m t top entry)
    (hmem : ∀ b, I.stackMap.owner b ≠ some m.currentTaskPtr → mem b = m.mem b)
    (hq : m.Live q) (hne : q ≠ m.currentTaskPtr) : I.Keeps m (spawnDone m x mem t a) q where
  view := by
    have hqt : q ≠ t := fun heq => hq.2 _ (heq ▸ h.building)
    exact view_congr hne h.stale hne rfl (Function.update_of_ne hqt ..)
  building := Function.update_of_ne hne ..
  frames _ _ := rfl
  flag r hr := by
    have hrt : r ≠ t := by
      rintro rfl
      exact hne ((hS.built _ r h.building).2.2 q hr)
    exact congrArg RawTaskInfo.interrupted (Function.update_of_ne hrt ..)
  mem stack huses b hb := hmem b fun hb' => hS.stack_ne h.live hq hne huses (Or.inl rfl)
    (Option.some.inj (hb.symm.trans hb'))

/-- The context that `spawn_task` builds. -/
def builtContext (top entry fl : Word) : Saved :=
  ⟨Word.down top 6, false, 0, ⟨.user entry, fun _ => 0, Word.down top 1, fl⟩⟩

/-- **The new task is as it should be**: `resume_task` finds the context that was built. -/
lemma taskOk_spawnDone (hS : I.Statics m) (h : I.Spawned m t top entry)
    (hmem : ∀ b, I.stackMap.owner b ≠ some m.currentTaskPtr → mem b = m.mem b) :
    I.TaskOk (spawnDone m x mem t a) t := by
  obtain ⟨e, fl, hw, hframes⟩ := h.spawning.words
  have hrax : m.reg .rax = Word.down top 12 := h.spawning.final (by norm_num)
  have hself : (spawnDone m x mem t a).info t = { m.info t with sp := m.reg .rax } :=
    Function.update_self ..
  have hbuild : m.building t = none := by
    by_contra hsome
    obtain ⟨r, hr⟩ := Option.ne_none_iff_exists'.mp hsome
    exact (hS.built t r hr).1.2 _ h.building
  have hall : I.stackMap.Words mem t (Word.down top 12)
      (I.remaining (builtContext top entry fl) 5 ++ [e]) :=
    StackMap.Words.congr hw fun b hb _ => hmem b fun hb' =>
      h.ne (Option.some.inj (hb.symm.trans hb'))
  obtain ⟨hwords, hlast⟩ := StackMap.Words.append.mp hall
  have hlen : (I.remaining (builtContext top entry fl) 5).length = 11 := rfl
  have hup : (Word.up (Word.down top 12) 11).toNat = (Word.down top 12).toNat + 8 * 11 :=
    hwords.toNat_up (le_of_eq hlen.symm)
  rw [Word.up_down_of_le _ (by norm_num)] at hup
  rw [hlen, Word.up_down_of_le _ (by norm_num)] at hlast
  have haddr : Word.up (Word.down top 12) 6 = Word.down top 6 := Word.up_down_of_le _ (by norm_num)
  have hpop : I.Popping mem t t false (resumption t (Word.down top 12)) (builtContext top entry fl)
      5 :=
    ⟨rfl, le_refl 5, by norm_num, hwords, haddr, le_of_eq hup.symm, rfl,
      fun _ => rfl, by norm_num, by norm_num, fun _ r hr => absurd hr List.not_mem_nil,
      fun _ => Or.inl ⟨entry, rfl, h.spawning.label_entry⟩⟩
  have hview : view (spawnDone m x mem t a) t = _ :=
    view_suspended h.ne fun hs => absurd (hs.trans h.stale) h.ne
  refine ⟨t, [builtContext top entry fl], Or.inl rfl, ?_, hframes (by norm_num)⟩
  rw [hview, hself, hrax, show (m.info t).interrupted = false from h.spawning.flag]
  exact ⟨⟨5, hpop⟩, rfl, Base.own (Or.inl ⟨entry, rfl, h.spawning.label_entry⟩) rfl
    (StackMap.On.of_wordOwner hlast.owner) ((Function.update_of_ne h.ne ..).trans hbuild)⟩

lemma Settled.spawned (hS : I.Settled m) (h : I.step m (.spawned x a) = some m') :
    I.Settled m' := by
  obtain ⟨hpc, t, hb, hlabel, m₁, hx, rfl⟩ := step_spawned h
  obtain ⟨hon, mem, rfl, hmem⟩ := scratch_spec hx
  obtain ⟨top, entry, hsp⟩ := hS.spawned_of_pc hpc hb
  obtain ⟨-, hmem_t, huniq⟩ := hS.built _ t hb
  have hlive : ∀ q, (spawnDone m x mem t a).Live q ↔ q = t ∨ m.Live q := fun q =>
    live_spawnDone hS.toStatics hsp
  have hset : I.Settled (spawnDone m x mem t a) := by
    refine { statics_spawnDone hS.toStatics hsp with
      queue := fun q hq => ?_
      tasks := fun q hq => ?_
      control := Control.task ((hlive _).mpr (Or.inr hsp.live)) hsp.stale hsp.boot }
    · rcases List.mem_append.mp hq with hq | hq
      · exact ⟨(hS.queue q hq).1, fun p hb' => (hS.queue q hq).2 p (building_spawnDone hb').2⟩
      · obtain rfl := List.mem_singleton.mp hq
        exact ⟨hmem_t, ((hlive _).mpr (Or.inl rfl)).2⟩
    · rcases (hlive q).mp hq with rfl | hq
      · exact taskOk_spawnDone hS.toStatics hsp hmem
      · by_cases hcur : q = m.currentTaskPtr
        · subst hcur
          refine TaskOk.of_current (L := []) rfl (Or.inl rfl) ⟨?_, Base.own
            (Or.inl ⟨a, rfl, hlabel⟩) rfl hon (Function.update_self ..)⟩ hsp.frames
          exact (congrArg RawTaskInfo.interrupted
            (Function.update_of_ne hsp.ne.symm ..)).trans hsp.flag
        · exact (hS.tasks q hq).keep (keeps_spawnDone hS.toStatics hsp hmem hq hcur)
  exact hset

end Spawned

/-! ### The scheduler -/

/-- Code on the stack of the scheduler. -/
lemma Statics.keeps (hS : I.Statics m) (hq : m.Live q) (hview : view m' q = view m q)
    (hb : m'.building = m.building) (hframes : m'.frames = m.frames)
    (hflag : ∀ r, m.building q = some r → (m'.info r).interrupted = (m.info r).interrupted)
    (hmem : ∀ b, I.stackMap.owner b ≠ some I.schedulerTask → m'.mem b = m.mem b) :
    I.Keeps m m' q where
  view := hview
  building := congrFun hb q
  frames r _ := congrFun hframes r
  flag := hflag
  mem _ huses b hb := hmem b fun hb' =>
    hS.stack_ne_scheduler hq huses (Option.some.inj (hb.symm.trans hb'))

/-- In the Rust code of the scheduler, the scheduler has control. -/
lemma Settled.scheduler (hS : I.Settled m) {f : RustPoint} (hpc : m.pc = .rust f) :
    m.currentTaskPtr = I.schedulerTask ∧ m.started = true ∧ SchedulerPc m := by
  cases hS.control with
  | scheduler hcur hstarted hon hsched => exact ⟨hcur, hstarted, hsched⟩
  | task hlive hstale hboot =>
      obtain ⟨stack, L, huses, hgood, hframes⟩ := hS.tasks _ hlive
      rw [view_current] at hgood
      exact absurd hpc (hgood.pc_ne_rust f)

lemma Settled.ne_current (hS : I.Settled m) (hcur : m.currentTaskPtr = I.schedulerTask)
    (hq : m.Live q) : q ≠ m.currentTaskPtr := hcur ▸ hS.ne_scheduler hq

lemma Settled.start (hS : I.Settled m) {x : Scratch} (h : I.step m (.start x) = some m') :
    I.Settled m' := by
  obtain ⟨hpc, hstarted, m₁, hx, rfl⟩ := step_start h
  have hown := hS.own (Or.inl hpc)
  obtain ⟨hon, mem, rfl, hmem⟩ := scratch_spec hx
  have hzero : m.currentTaskPtr = 0 := hown.boot hstarted
  refine { hS with
    built := fun p q hb => ?_
    tasks := fun q hq => ?_
    control := Control.scheduler rfl rfl hon (SchedulerPc.run rfl) }
  · obtain ⟨⟨hlive, hnb⟩, hrest⟩ := hS.built p q hb
    refine ⟨⟨Or.inl (hlive.resolve_right fun h0 => ?_), hnb⟩, hrest⟩
    have hnone := hown.building
    rw [hzero, ← h0.1] at hnone
    cases hnone.symm.trans hb
  · have hmem_q : q ∈ m.allocated := hq.1.resolve_right fun h => absurd h.2 (by simp)
    have hlive : m.Live q := ⟨Or.inl hmem_q, hq.2⟩
    have hne : q ≠ m.currentTaskPtr := fun heq => hS.boot_notMem (hzero ▸ heq ▸ hmem_q)
    have hsched : q ≠ I.schedulerTask := hS.ne_scheduler hlive
    refine (hS.tasks q hlive).keep (hS.toStatics.keeps hlive ?_ rfl rfl (fun _ _ => rfl) hmem)
    rw [view_suspended hne fun hs => absurd (hs.trans hown.stale) hne]
    exact view_suspended hsched fun hs => absurd hs hsched

lemma Settled.enter (hS : I.Settled m) {x : Scratch} (h : I.step m (.enter x) = some m') :
    I.Settled m' := by
  obtain ⟨hpc, m₁, hx, rfl⟩ := step_enter h
  obtain ⟨hcur, hstarted, hsched⟩ := hS.scheduler hpc
  obtain ⟨hon, mem, rfl, hmem⟩ := scratch_spec hx
  have hstale : m.Live m.staleTaskPtr := by
    cases hsched <;> simp_all
  refine { hS with
    tasks := fun q hq => ?_
    control := Control.scheduler hcur hstarted hon (SchedulerPc.recording rfl hstale) }
  refine (hS.tasks q hq).keep (hS.toStatics.keeps hq ?_ rfl rfl (fun _ _ => rfl) hmem)
  have hne := hS.ne_current hcur hq
  simp [view, hne, hpc]

lemma recorded_of_ne (hne : q ≠ m.staleTaskPtr) : recorded m q = m.info q :=
  Function.update_of_ne hne ..

lemma recorded_taskId (m : Machine) (q : Word) : (recorded m q).taskId = (m.info q).taskId := by
  by_cases hq : q = m.staleTaskPtr
  · rw [hq, recorded_self]
  · rw [recorded_of_ne hq]

/-- The machine in which `resume_scheduler` has recorded the released task. -/
def recordDone (m : Machine) (x : Scratch) (mem : Mem) : Machine :=
  { m with
    pc := .rust .runScheduler
    reg := x.reg
    rsp := x.rsp
    rflags := x.rflags
    mem := mem
    info := recorded m
    taskQueue :=
      if m.released.2 = .preempted ∨ m.released.2 = .yielded then m.taskQueue ++ [m.staleTaskPtr]
      else m.taskQueue }

/-- What was in the arguments of `resume_scheduler` is now in the task info. -/
lemma view_recordDone {x : Scratch} {mem : Mem} (hpc : m.pc = .rust .recording)
    (hne : q ≠ m.currentTaskPtr) : view (recordDone m x mem) q = view m q := by
  have hview : view (recordDone m x mem) q =
      ((recorded m q).interrupted, resumption q (recorded m q).sp) :=
    view_suspended hne fun _ => ⟨nofun, nofun⟩
  rw [hview]
  by_cases hqs : q = m.staleTaskPtr
  · rw [hqs, recorded_self]
    simp [view, ← hqs, hne, hpc]
  · rw [recorded_of_ne hqs]
    simp [view, hqs, hne]

lemma statics_recordDone {x : Scratch} {mem : Mem} (hS : I.Statics m)
    (hstale : m.Live m.staleTaskPtr) : I.Statics (recordDone m x mem) :=
  hS.congr rfl rfl rfl (recorded_taskId m)
    (congrArg RawTaskInfo.sp (recorded_of_ne (hS.ne_scheduler hstale).symm)) fun _ _ _ => rfl

lemma Settled.record (hS : I.Settled m) {x : Scratch} (h : I.step m (.record x) = some m') :
    I.Settled m' := by
  obtain ⟨hpc, m₁, hx, rfl⟩ := step_record h
  obtain ⟨hcur, hstarted, hsched⟩ := hS.scheduler hpc
  obtain ⟨hon, mem, rfl, hmem⟩ := scratch_spec hx
  have hstale : m.Live m.staleTaskPtr := by
    cases hsched <;> simp_all
  have hset : I.Settled (recordDone m x mem) := by
    refine { statics_recordDone hS.toStatics hstale with
      queue := fun q hq => ?_
      tasks := fun q hq => ?_
      control := Control.scheduler hcur hstarted hon (SchedulerPc.run rfl) }
    · have hcases : q ∈ m.taskQueue ∨ q = m.staleTaskPtr := by
        simp only [recordDone] at hq
        split_ifs at hq
        · simpa using hq
        · exact Or.inl hq
      rcases hcases with hq | rfl
      · exact hS.queue q hq
      · exact ⟨hstale.1.resolve_right fun h0 => absurd (hstarted.symm.trans h0.2) (by decide),
          hstale.2⟩
    · refine (hS.tasks q hq).keep (hS.toStatics.keeps hq (view_recordDone hpc
        (hS.ne_current hcur hq)) rfl rfl (fun r hr => ?_) hmem)
      refine congrArg RawTaskInfo.interrupted (recorded_of_ne ?_)
      rintro rfl
      exact hstale.2 q hr
  exact hset

lemma Settled.dispatch (hS : I.Settled m) {x : Scratch} (h : I.step m (.dispatch x) = some m') :
    I.Settled m' := by
  obtain ⟨hpc, m₁, hx, hcases⟩ := step_dispatch h
  obtain ⟨hcur, hstarted, -⟩ := hS.scheduler hpc
  obtain ⟨hon, mem, rfl, hmem⟩ := scratch_spec hx
  have hview : ∀ q, m.Live q → view m q = ((m.info q).interrupted, resumption q (m.info q).sp) :=
    fun q hq => view_suspended (hS.ne_current hcur hq) fun _ => by simp [hpc]
  rcases hcases with ⟨hnil, rfl⟩ | ⟨taskPtr, rest, hcons, rfl⟩
  · refine { hS with
      tasks := fun q hq => ?_
      control := Control.scheduler hcur hstarted hon (SchedulerPc.halted rfl) }
    refine (hS.tasks q hq).keep (hS.toStatics.keeps hq ?_ rfl rfl (fun _ _ => rfl) hmem)
    rw [hview q hq]
    exact view_suspended (hS.ne_current hcur hq) fun _ => ⟨nofun, nofun⟩
  · have hqueue : m.taskQueue = taskPtr :: rest := hcons
    obtain ⟨hmem_t, hnb⟩ := hS.queue taskPtr (by rw [hqueue]; exact List.mem_cons_self ..)
    refine { hS with
      queue := fun q hq => hS.queue q (by rw [hqueue]; exact List.mem_cons_of_mem _ hq)
      tasks := fun q hq => ?_
      control := Control.scheduler hcur hstarted hon
        (SchedulerPc.dispatch rfl ⟨Or.inl ?_, ?_⟩) }
    · refine (hS.tasks q hq).keep (hS.toStatics.keeps hq ?_ rfl rfl (fun _ _ => rfl) hmem)
      rw [hview q hq]
      exact view_suspended (hS.ne_current hcur hq) fun _ => ⟨nofun, nofun⟩
    · exact hmem_t
    · exact hnb

end Image

end Titanium
