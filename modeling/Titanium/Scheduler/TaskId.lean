import Titanium.Scheduler.Switch
import Titanium.Util

/-!
Task ids (`scheduler.rs`), and the accessors of their bit fields (`util.rs`).

A `TaskId` packs three fields into one word: the number of the task in bits 0 to
47, its priority in bits 48 to 50, and the flags of its `TaskConfig` in bits 56
to 63.  `scheduler_preempt` tells the scheduler from a task by this word alone.

* `taskId_makeTaskId`, `priority_makeTaskId`, `asFlags_makeTaskId`: the getters
  read back what `spawn_task` put together.
* `taskIds_run`: along a run the ids are those of the calls, numbered from the
  first value of the counter on.
* `task_ids_decode`: **ids are unique and decode to what was asked for**.
* `set_flags_iff`: **setting flags changes none**, and when the macro behind it
  obeys the laws of a field.
-/

namespace Titanium

/-- `TASKID_IDLE`. -/
def taskIdIdle : ℕ := 0x8007000000000000

/-- The known flags of a `TaskConfig`, as a word. -/
def knownFlagBits : BitVec 64 := .ofNat 64 knownConfig

namespace TaskId

/-- `priority`. -/
def priority (id : ℕ) : ℕ := (BitField.bitRange (BitVec.ofNat 64 id) 50 48).toNat

/-- `task_id`. -/
def taskId (id : ℕ) : ℕ := (BitField.bitRange (BitVec.ofNat 64 id) 47 0).toNat

/-- `as_flags`; the macro's mask has room for this field. -/
def asFlags (id : ℕ) : ℕ :=
  ((Util.bitflagsBitRange knownFlagBits (.ofNat 64 id) 63 56).map BitVec.toNat).getD 0

end TaskId

/-! ### The getters -/

lemma TaskId.priority_eq (id : ℕ) : TaskId.priority id = id / 2 ^ 48 % 2 ^ 3 := by
  rw [TaskId.priority, BitField.toNat_bitRange (by norm_num) (by norm_num), BitVec.toNat_ofNat]
  omega

lemma TaskId.taskId_eq (id : ℕ) : TaskId.taskId id = id % 2 ^ 48 := by
  rw [TaskId.taskId, BitField.toNat_bitRange (by norm_num) (by norm_num), BitVec.toNat_ofNat]
  omega

/-- The flags are the known ones. -/
lemma TaskId.asFlags_eq (id : ℕ) : TaskId.asFlags id = id &&& knownConfig := by
  have hmask : Util.fieldMask 64 63 56 = some (0xff#64 <<< 56) := by decide
  have hknown : (0xff#64 <<< 56).toNat &&& knownFlagBits.toNat = knownConfig := by decide
  have hword : (2 ^ 64 - 1) &&& knownConfig = knownConfig := by decide
  rw [TaskId.asFlags, Util.bitflagsBitRange, hmask]
  show (BitVec.ofNat 64 id &&& 0xff#64 <<< 56 &&& knownFlagBits).toNat = _
  rw [BitVec.toNat_and, BitVec.toNat_and, Nat.and_assoc, hknown, BitVec.toNat_ofNat,
    ← Nat.and_two_pow_sub_one_eq_mod, Nat.and_assoc, hword]

/-- The known flags are above everything else. -/
lemma and_knownConfig_of_lt {x : ℕ} (h : x < 2 ^ 61) : x &&& knownConfig = 0 := by
  refine Nat.eq_of_testBit_eq fun i => ?_
  rw [Nat.testBit_and, Nat.zero_testBit, show knownConfig = 7 <<< 61 by decide,
    Nat.testBit_shiftLeft, Bool.and_eq_false_iff]
  by_cases hi : i < 61
  · exact Or.inr (by simp [hi])
  · refine Or.inl (Nat.testBit_lt_two_pow (h.trans_le ?_))
    exact Nat.pow_le_pow_right (by norm_num) (not_lt.mp hi)

section

variable {options rawId priority : ℕ}

lemma taskId_makeTaskId (h : rawId < 2 ^ 48) :
    TaskId.taskId (makeTaskId options rawId priority) = rawId := by
  rw [TaskId.taskId_eq]
  exact makeTaskId_mod h

lemma priority_makeTaskId (h : rawId < 2 ^ 48) (hp : priority < 8) :
    TaskId.priority (makeTaskId options rawId priority) = priority := by
  have hconf : (options &&& knownConfig) >>> 48 % 2 ^ 3 = 0 := by
    rw [Nat.shiftRight_and_distrib, Nat.and_mod_two_pow,
      show knownConfig >>> 48 % 2 ^ 3 = 0 by decide, Nat.and_zero]
  have hraw : rawId >>> 48 = 0 := Nat.shiftRight_eq_zero _ _ h
  have hprio : ((priority &&& 0x7) <<< 48) >>> 48 % 2 ^ 3 = priority := by
    rw [Nat.shiftLeft_shiftRight, show 0x7 = 2 ^ 3 - 1 by norm_num,
      Nat.and_two_pow_sub_one_eq_mod, Nat.mod_mod, Nat.mod_eq_of_lt hp]
  calc TaskId.priority (makeTaskId options rawId priority)
      = makeTaskId options rawId priority >>> 48 % 2 ^ 3 := by
        rw [TaskId.priority_eq, Nat.shiftRight_eq_div_pow]
    _ = priority := by
        rw [makeTaskId, Nat.shiftRight_or_distrib, Nat.shiftRight_or_distrib, Nat.or_mod_two_pow,
          Nat.or_mod_two_pow, hconf, hraw, hprio, Nat.zero_mod, Nat.zero_or, Nat.zero_or]

lemma asFlags_makeTaskId (h : rawId < 2 ^ 48) (ho : options &&& knownConfig = options) :
    TaskId.asFlags (makeTaskId options rawId priority) = options := by
  have hprio : (priority &&& 0x7) <<< 48 < 2 ^ 61 := by
    have hle : priority &&& 0x7 ≤ 0x7 := Nat.and_le_right
    rw [Nat.shiftLeft_eq]
    omega
  calc TaskId.asFlags (makeTaskId options rawId priority)
      = makeTaskId options rawId priority &&& knownConfig := TaskId.asFlags_eq _
    _ = options := by
        rw [makeTaskId, Nat.and_or_distrib_right, Nat.and_or_distrib_right, Nat.and_assoc,
          Nat.and_self, ho, and_knownConfig_of_lt (h.trans (by norm_num)),
          and_knownConfig_of_lt hprio, Nat.or_zero, Nat.or_zero]

end

/-! ### Runs -/

namespace Sched

/-- What a call of `spawn_task` asks for: options and priority. -/
def Event.spawnArgs : Event → List (ℕ × ℕ)
  | .spawn options priority _ => [(options, priority)]
  | _ => []

/-- The calls of `spawn_task` of a run, in order. -/
def spawnArgs (es : List Event) : List (ℕ × ℕ) := es.flatMap Event.spawnArgs

/-- The ids of the tasks that were spawned, in order. -/
def taskIds (s : Sched) : List ℕ := s.spawned.map fun ptr => (s.info ptr).taskId

/-- A call asserted what it was asked for, and got the number `rawId`. -/
structure Asserted (rawId : ℕ) (a : ℕ × ℕ) : Prop where
  kernel : a.1 &&& kernelTask = kernelTask
  priority : a.2 < 8
  rawId_le : rawId ≤ maxTaskId

/-- What an event means for the ids: `spawn_task` appends one. -/
structure IdStep (s : Sched) (e : Event) (s' : Sched) : Prop where
  next : s'.nextTaskId = s.nextTaskId + e.spawnArgs.length
  asserted : ∀ a ∈ e.spawnArgs, Asserted s.nextTaskId a
  ids : s'.taskIds = s.taskIds ++ e.spawnArgs.map fun a => makeTaskId a.1 s.nextTaskId a.2

/-- The other events keep the ids. -/
lemma IdStep.keep {s s' : Sched} {e : Event} (hargs : e.spawnArgs = [])
    (hnext : s'.nextTaskId = s.nextTaskId)
    (hids : ∀ ptr, (s'.info ptr).taskId = (s.info ptr).taskId) : IdStep s e s' where
  next := by rw [hargs, hnext, List.length_nil, Nat.add_zero]
  asserted := by simp [hargs]
  ids := by
    rw [hargs, List.map_nil, List.append_nil, taskIds, taskIds, spawned, spawned, hnext]
    exact List.map_congr_left fun ptr _ => hids ptr

lemma IdStep.spawn {s s' : Sched} {options priority sp : ℕ} (hfirst : firstTaskId ≤ s.nextTaskId)
    (h : s.spawnTask options priority sp = some s') :
    IdStep s (.spawn options priority sp) s' := by
  obtain ⟨⟨hkernel, hprio, hle⟩, heq⟩ := Option.ite_none_right_eq_some.mp h
  cases heq
  refine ⟨rfl, ?_, ?_⟩
  · intro a ha
    obtain rfl := List.mem_singleton.mp ha
    exact ⟨hkernel, hprio, hle⟩
  · rw [taskIds, spawned_succ hfirst rfl, List.map_append]
    refine congrArg₂ (· ++ ·) ?_ ?_
    · refine List.map_congr_left fun ptr hptr => ?_
      obtain ⟨n, -, hn, rfl⟩ := (mem_spawned hfirst).mp hptr
      have hne : TaskPtr.task n ≠ .task s.nextTaskId := by simp [hn.ne]
      simp [Function.update_of_ne hne]
    · simp [Event.spawnArgs]

/-- **The step lemma.** -/
lemma idStep {s s' : Sched} {e : Event} (hfirst : firstTaskId ≤ s.nextTaskId)
    (h : s.step e = some s') : IdStep s e s' := by
  cases e with
  | spawn options priority sp =>
      simp only [step] at h
      split at h
      · exact IdStep.spawn hfirst h
      · exact IdStep.spawn hfirst h
      · cases h
  | start =>
      obtain ⟨-, heq⟩ := Option.ite_none_right_eq_some.mp h
      cases heq
      exact IdStep.keep rfl rfl fun _ => rfl
  | dispatch =>
      obtain ⟨-, heq⟩ := Option.ite_none_right_eq_some.mp h
      cases heq
      refine IdStep.keep rfl ?_ s.taskId_runScheduler
      cases hq : s.taskQueue <;> simp [runScheduler, hq, resumeTask]
  | yield sp =>
      simp only [step] at h
      split at h
      · cases h
        exact IdStep.keep rfl rfl (taskId_settle _)
      · cases h
  | timer sp =>
      simp only [step] at h
      obtain ⟨-, heq⟩ := Option.ite_none_left_eq_some.mp h
      cases heq
      unfold schedulerPreempt
      split_ifs
      · refine IdStep.keep rfl ?_ s.taskId_settle
        cases hmode : s.mode <;> simp [settle, hmode, resumeScheduler]
      · exact IdStep.keep rfl rfl (taskId_settle _)

/-- **The run lemma**: the calls are numbered by the counter. -/
lemma taskIds_run {s s' : Sched} {es : List Event} (hfirst : firstTaskId ≤ s.nextTaskId)
    (h : s.run es = some s') :
    s'.taskIds = s.taskIds ++
        (spawnArgs es).mapIdx (fun i a => makeTaskId a.1 (s.nextTaskId + i) a.2) ∧
      ∀ i a, (spawnArgs es)[i]? = some a → Asserted (s.nextTaskId + i) a := by
  induction es generalizing s with
  | nil =>
      cases h
      simp [spawnArgs]
  | cons e es ih =>
      obtain ⟨s₁, h₁, h⟩ := Option.bind_eq_some_iff.mp h
      obtain ⟨hnext, hassert, hids⟩ := idStep hfirst h₁
      obtain ⟨hids', hassert'⟩ := ih (by omega) h
      have hargs : spawnArgs (e :: es) = e.spawnArgs ++ spawnArgs es := List.flatMap_cons ..
      have hlen : e.spawnArgs.length ≤ 1 := by cases e <;> simp [Event.spawnArgs]
      rw [hids', hids, hargs, List.append_assoc]
      -- a step makes at most one call
      match hcall : e.spawnArgs, hlen with
      | [], _ =>
          rw [hcall] at hnext
          rw [hnext] at hassert' ⊢
          exact ⟨by simp, by simpa using hassert'⟩
      | [a], _ =>
          rw [hcall] at hnext hassert
          rw [hnext] at hassert' ⊢
          refine ⟨?_, fun i b hb => ?_⟩
          · simp [List.mapIdx_cons, Nat.add_assoc, Nat.add_comm 1]
          · cases i with
            | zero =>
                obtain rfl : a = b := by simpa using hb
                exact hassert a (List.mem_singleton_self a)
            | succ i =>
                have := hassert' i b (by simpa using hb)
                rwa [List.length_singleton, Nat.add_assoc, Nat.add_comm 1] at this

/-- The ids of a run from boot. -/
lemma taskIds_boot {sp : ℕ} {es : List Event} {s : Sched} (hrun : (boot sp).run es = some s) :
    s.taskIds = (spawnArgs es).mapIdx (fun i a => makeTaskId a.1 (firstTaskId + i) a.2) ∧
      ∀ i a, (spawnArgs es)[i]? = some a → Asserted (firstTaskId + i) a := by
  obtain ⟨hids, hassert⟩ := taskIds_run (s := boot sp) (le_refl firstTaskId) hrun
  refine ⟨?_, hassert⟩
  rw [hids]
  simp [taskIds, spawned, boot]

lemma Asserted.lt {rawId : ℕ} {a : ℕ × ℕ} (h : Asserted rawId a) : rawId < 2 ^ 48 :=
  h.rawId_le.trans_lt (by norm_num [maxTaskId])

/-- The ids carry the values of the counter. -/
lemma map_taskId_boot {sp : ℕ} {es : List Event} {s : Sched} (hrun : (boot sp).run es = some s) :
    s.taskIds.map TaskId.taskId = List.range' firstTaskId (spawnArgs es).length := by
  obtain ⟨hids, hassert⟩ := taskIds_boot hrun
  refine List.ext_getElem (by simp [hids]) fun i hi _ => ?_
  have hi : i < (spawnArgs es).length := by simpa [hids] using hi
  have hlt := (hassert i _ (List.getElem?_eq_getElem hi)).lt
  simp [hids, taskId_makeTaskId hlt]

/-- **Task ids are unique and decode to what was asked for.**  In every state that
a run from boot reaches, with options made of the declared flags:

* there is one id for each call of `spawn_task`, and the numbers in them differ;
* no id is that of the scheduler or of the idle task;
* the getters give the value of the counter, the priority and the options. -/
theorem task_ids_decode (sp : ℕ) (es : List Event) (s : Sched) (hrun : (boot sp).run es = some s)
    (hknown : ∀ a ∈ spawnArgs es, a.1 &&& knownConfig = a.1) :
    (s.taskIds.length = (spawnArgs es).length ∧ (s.taskIds.map TaskId.taskId).Nodup) ∧
      (taskIdScheduler ∉ s.taskIds ∧ taskIdIdle ∉ s.taskIds) ∧
      ∀ i id, s.taskIds[i]? = some id → ∃ options priority,
        (spawnArgs es)[i]? = some (options, priority) ∧ TaskId.taskId id = firstTaskId + i ∧
          TaskId.priority id = priority ∧ TaskId.asFlags id = options := by
  obtain ⟨hids, hassert⟩ := taskIds_boot hrun
  have hdecode : ∀ i id, s.taskIds[i]? = some id → ∃ options priority,
      (spawnArgs es)[i]? = some (options, priority) ∧ TaskId.taskId id = firstTaskId + i ∧
        TaskId.priority id = priority ∧ TaskId.asFlags id = options := by
    intro i id hid
    rw [hids, List.getElem?_mapIdx, Option.map_eq_some_iff] at hid
    obtain ⟨⟨options, priority⟩, harg, rfl⟩ := hid
    have hraw := (hassert i _ harg).lt
    exact ⟨options, priority, harg, taskId_makeTaskId hraw,
      priority_makeTaskId hraw (hassert i _ harg).priority,
      asFlags_makeTaskId hraw (hknown _ (List.mem_of_getElem? harg))⟩
  have hbounds : ∀ id ∈ s.taskIds,
      firstTaskId ≤ TaskId.taskId id ∧ TaskId.taskId id ≤ maxTaskId := by
    intro id hid
    obtain ⟨i, hi⟩ := List.mem_iff_getElem?.mp hid
    obtain ⟨options, priority, harg, htask, -⟩ := hdecode i id hi
    rw [htask]
    exact ⟨Nat.le_add_right _ _, (hassert i _ harg).rawId_le⟩
  refine ⟨⟨by rw [hids, List.length_mapIdx], ?_⟩, ⟨fun hmem => ?_, fun hmem => ?_⟩, hdecode⟩
  · rw [map_taskId_boot hrun]
    exact List.nodup_range' 1
  · exact absurd (hbounds _ hmem).2 (by decide)
  · exact absurd (hbounds _ hmem).1 (by decide)

theorem task_ids_decode_twoTasks : ∃ s, (boot 0).run twoTasks = some s ∧
    s.taskIds = [0x8000000000000100, 0x8007000000000101] ∧
    (s.taskIds.map TaskId.taskId).Nodup := by
  refine ⟨_, rfl, by decide, ?_⟩
  exact (task_ids_decode 0 twoTasks _ rfl (by decide)).1.2

end Sched

/-! ### Setting flags -/

/-- `set_flags`. -/
def TaskId.setFlags (id flags : BitVec 64) : Option (BitVec 64) :=
  Util.bitflagsSetBitRange knownFlagBits id 63 56 flags

lemma isField_flags : Util.IsField 64 63 56 := ⟨by norm_num, by norm_num, by norm_num⟩

/-- The flags are the three highest bits. -/
lemma asFlags_congr {x y : ℕ} (h : ∀ i, 61 ≤ i → x.testBit i = y.testBit i) :
    TaskId.asFlags x = TaskId.asFlags y := by
  refine Nat.eq_of_testBit_eq fun i => ?_
  rw [TaskId.asFlags_eq, TaskId.asFlags_eq, show knownConfig = 7 <<< 61 by decide,
    Nat.testBit_and, Nat.testBit_and, Nat.testBit_shiftLeft]
  by_cases hi : 61 ≤ i
  · rw [h i hi]
  · simp [hi]

/-- **Setting flags changes no flag**, no priority and no number: of the bits that a `TaskId` uses
the setter writes none. -/
lemma setFlags_spec (id flags : BitVec 64) : ∃ id', TaskId.setFlags id flags = some id' ∧
    TaskId.asFlags id'.toNat = TaskId.asFlags id.toNat ∧
    TaskId.priority id'.toNat = TaskId.priority id.toNat ∧
    TaskId.taskId id'.toNat = TaskId.taskId id.toNat := by
  obtain ⟨id', hset, hbits⟩ :=
    Util.bitflags_setBitRange_eq isField_flags knownFlagBits id flags
  have hsame : ∀ i, i ≠ 56 → i < 64 → id'.getLsbD i = id.getLsbD i := by
    intro i hne hlt
    exact (hbits i).trans (if_neg (by omega))
  have hfield : ∀ msb lsb, msb < 56 →
      BitField.bitRange (BitVec.ofNat 64 id'.toNat) msb lsb =
        BitField.bitRange (BitVec.ofNat 64 id.toNat) msb lsb := by
    intro msb lsb hmsb
    rw [BitVec.ofNat_toNat, BitVec.ofNat_toNat, BitVec.setWidth_eq, BitVec.setWidth_eq]
    exact BitField.bitRange_congr (by omega) fun i _ hi => hsame i (by omega) (by omega)
  refine ⟨id', hset, asFlags_congr fun i hi => ?_,
    congrArg BitVec.toNat (hfield 50 48 (by norm_num)),
    congrArg BitVec.toNat (hfield 47 0 (by norm_num))⟩
  by_cases hlt : i < 64
  · exact hsame i (by omega) hlt
  · have hge := Nat.pow_le_pow_right (show 0 < 2 by norm_num) (not_lt.mp hlt)
    rw [Nat.testBit_lt_two_pow (id'.isLt.trans_le hge),
      Nat.testBit_lt_two_pow (id.isLt.trans_le hge)]

/-- **Fields of `bitfield_bitflags_bitrange!` obey the laws exactly when the write has nothing to
do**, except for the lowest bit of the field: the mask of the setter covers that bit and the one
behind the field.  The flags of a `TaskId` cannot be set at all. -/
theorem set_flags_iff (known x v : BitVec 64) (msb lsb : ℕ) (hfield : Util.IsField 64 msb lsb)
    (hv : Util.FlagsInside known msb lsb v) :
    ((Util.bitflags known msb lsb).Laws msb lsb (Util.FlagsInside known msb lsb) x v ↔
      v &&& known = v ∧
      (∀ i, lsb < i → i ≤ msb → known.getLsbD i = true → x.getLsbD i = v.getLsbD i) ∧
      x.getLsbD (msb + 1) = false) ∧
    ∀ id flags : BitVec 64, ∃ id', TaskId.setFlags id flags = some id' ∧
      (TaskId.asFlags id'.toNat = flags.toNat ↔ TaskId.asFlags id.toNat = flags.toNat) ∧
      TaskId.priority id'.toNat = TaskId.priority id.toNat ∧
      TaskId.taskId id'.toNat = TaskId.taskId id.toNat := by
  refine ⟨Util.bitflags_laws_iff hfield known x hv, fun id flags => ?_⟩
  obtain ⟨id', hset, hflags, hpriority, htask⟩ := setFlags_spec id flags
  exact ⟨id', hset, by rw [hflags], hpriority, htask⟩

/-- A flag in bit 0. -/
theorem set_flags_lowest_bit :
    (Util.bitflags 1#64 0 0).Laws 0 0 (Util.FlagsInside 1#64 0 0) 0 1#64 := by
  have hinside : Util.FlagsInside 1#64 0 0 1#64 := by
    intro i hi
    rw [BitVec.and_self, BitVec.getLsbD_one] at hi
    have hzero : i = 0 := by simpa using hi
    omega
  exact (set_flags_iff 1#64 0 1#64 0 0 ⟨le_refl _, by norm_num, by norm_num⟩ hinside).1.mpr
    ⟨by decide, fun i hlo hhi => absurd hlo (not_lt.mpr hhi), by decide⟩

/-- A task id keeps the flags that it has: `KERNEL_TASK` is not set.  And in a field of one bit the
bit behind it is lost. -/
theorem set_flags_ignored :
    TaskId.setFlags 0x100 (1#64 <<< 63) = some 0x100 ∧ TaskId.asFlags 0x100 = 0 ∧
      (Util.bitflags 1#64 0 0).set 0b10 1 = some 0b01 :=
  ⟨by decide, by decide, by decide⟩

end Titanium
