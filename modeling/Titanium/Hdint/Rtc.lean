import Titanium.Lib.Uniprocessor

/-!
The registers of the real-time clock (`hdint/rtc.rs`).

They are reached through an index port and a data port, so that a register is
changed in four accesses.  The handler of the clock's interrupt sets the index
too.  `enable_int` and `set_rate` disable interrupts for their accesses; the
handler is behind an interrupt gate.

* `Op`: the accesses; `enableIntCode`, `setRateCode`, `interruptCode`.
* `Rtc`: what the calls are for, each in one step.
* `clockRule`: a call that has begun will end as it should.
* `clock_linearizable`: **whatever interrupts what, the registers are those that
  the calls give one after the other, and no other register is written**.
-/

namespace Titanium

namespace Rtc

open Uniprocessor

/-! ### The clock as it is meant -/

/-- The two registers that the driver writes, and `TICKS_SINCE_BOOT`. -/
structure Clock where
  regA : BitVec 8
  regB : BitVec 8
  ticks : BitVec 64
  deriving DecidableEq, Repr

/-- What the driver is asked for. -/
inductive Request where
  | enableInt
  | setRate (rate : BitVec 8)
  /-- The clock's interrupt. -/
  | interrupt
  deriving DecidableEq, Repr

/-- A request, in one step. -/
def Clock.apply (r : Clock) : Request → Clock
  | .enableInt => { r with regB := r.regB ||| 0x40 }
  | .setRate rate => { r with ticks := 0, regA := (r.regA &&& 0xf0) ||| (rate &&& 0x0f) }
  | .interrupt => { r with ticks := r.ticks + 1 }

/-! ### The code -/

/-- Accesses to ports and to `TICKS_SINCE_BOOT`. -/
inductive Op where
  /-- Write to the index port. -/
  | select (index : BitVec 8)
  /-- Read the data port. -/
  | load
  /-- Write to the data port what `f` makes of the byte that was read. -/
  | store (f : BitVec 8 → BitVec 8)
  | ticks (f : BitVec 64 → BitVec 64)

/-- `enable_int` between its `cli` and its `sti`. -/
def enableIntCode : List Op :=
  [.select 0x8b, .load, .select 0x8b, .store (· ||| 0x40)]

/-- `set_rate` between its `cli` and its `sti`. -/
def setRateCode (rate : BitVec 8) : List Op :=
  [.ticks fun _ => 0, .select 0x8a, .load, .select 0x8a,
    .store fun data => (data &&& 0xf0) ||| (rate &&& 0x0f)]

/-- `rtc_interrupt`. -/
def interruptCode : List Op := [.ticks (· + 1), .select 0x0c, .load]

/-- The code for a request. -/
def Request.code : Request → List Op
  | .enableInt => enableIntCode
  | .setRate rate => setRateCode rate
  | .interrupt => interruptCode

/-- The ports and the memory.  Registers other than the two are the clock's own. -/
structure Ports where
  index : BitVec 8
  clock : Clock
  /-- Another register was written. -/
  stray : Bool
  /-- The clock as it is meant. -/
  wanted : Clock
  deriving DecidableEq, Repr

/-- Where a context is: outside, or with accesses to make and the byte that it read last. -/
inductive Point where
  | outside
  | inside (rest : List Op) (data : BitVec 8) (enable : Bool)

/-- The register that the index names; its upper bit is not part of the index. -/
def Ports.read (s : Ports) : BitVec 8 :=
  if s.index &&& 0x7f = 0x0a then s.clock.regA
  else if s.index &&& 0x7f = 0x0b then s.clock.regB
  else 0

def Ports.write (s : Ports) (v : BitVec 8) : Ports :=
  if s.index &&& 0x7f = 0x0a then { s with clock.regA := v }
  else if s.index &&& 0x7f = 0x0b then { s with clock.regB := v }
  else { s with stray := true }

/-- One access. -/
def exec (data : BitVec 8) (s : Ports) : Op → BitVec 8 × Ports
  | .select index => (data, { s with index })
  | .load => (s.read, s)
  | .store f => (data, s.write (f data))
  | .ticks f => (data, { s with clock.ticks := f s.clock.ticks })

/-- What the running context does. -/
inductive Action where
  | call (r : Request)
  /-- Code outside of this module enables or disables interrupts. -/
  | flag (interrupts : Bool)
  | next

/-- One step. -/
def next : Action → Point → Bool → Ports → Option (Point × Bool × Ports)
  | .call r, .outside, interrupts, s =>
      -- the request counts from here on
      let s' := { s with wanted := s.wanted.apply r }
      match r with
      | .enableInt => some (.inside enableIntCode 0 true, false, s')
      | .setRate rate =>
          if 2 < rate ∧ rate < 16 then some (.inside (setRateCode rate) 0 true, false, s') else none
      | .interrupt =>
          if interrupts then none else some (.inside interruptCode 0 false, false, s')
  | .flag interrupts, .outside, _, s => some (.outside, interrupts, s)
  | .next, .inside (op :: rest) data enable, interrupts, s =>
      some (.inside rest (exec data s op).1 enable, interrupts, (exec data s op).2)
  | .next, .inside [] _ enable, interrupts, s => some (.outside, interrupts || enable, s)
  | _, _, _, _ => none

/-- The code of all contexts. -/
def code : Code Action Point Ports where
  outside
    | .outside => true
    | .inside .. => false
  next := next

/-- The clock `r`, and no context in the driver. -/
def start (r : Clock) (index : BitVec 8) (flags : ℕ → Bool) (interrupts : Bool) :
    Config Point Ports :=
  ⟨fun _ => .outside, flags, 0, interrupts, ⟨index, r, false, r⟩⟩

/-! ### The invariant -/

/-- The registers are as they should be. -/
structure Ports.Matches (s : Ports) : Prop where
  clock : s.clock = s.wanted
  stray : s.stray = false

/-- All accesses that are left. -/
def finish (data : BitVec 8) (s : Ports) : List Op → Ports
  | [] => s
  | op :: rest => finish (exec data s op).1 (exec data s op).2 rest

/-- **A request that is not interrupted is done as it is meant.** -/
lemma matches_finish {s : Ports} (h : s.Matches) (r : Request) (data : BitVec 8) :
    (finish data { s with wanted := s.wanted.apply r } r.code).Matches := by
  obtain ⟨hclock, hstray⟩ := h
  cases r with
  | enableInt =>
      refine ⟨?_, ?_⟩
      · simp [Request.code, enableIntCode, finish, exec, Ports.read, Ports.write, Clock.apply,
          hclock]
      · simp [Request.code, enableIntCode, finish, exec, Ports.read, Ports.write, hstray]
  | setRate rate =>
      refine ⟨?_, ?_⟩
      · simp [Request.code, setRateCode, finish, exec, Ports.read, Ports.write, Clock.apply, hclock]
      · simp [Request.code, setRateCode, finish, exec, Ports.read, Ports.write, hstray]
  | interrupt =>
      refine ⟨?_, ?_⟩
      · simp [Request.code, interruptCode, finish, exec, Clock.apply, hclock]
      · simp [Request.code, interruptCode, finish, exec, hstray]

/-- The running context: what it has begun will end well, and is not interrupted. -/
def Running : Point → Bool → Ports → Prop
  | .outside, _, s => s.Matches
  | .inside rest data _, interrupts, s => interrupts = false ∧ (finish data s rest).Matches

/-- Contexts that wait are outside. -/
def Waiting : Point → Bool → Prop
  | .outside, _ => True
  | .inside .., _ => False

lemma running_call {r : Request} {p p' : Point} {i i' : Bool} {s s' : Ports} (h : Running p i s)
    (hnext : next (.call r) p i s = some (p', i', s')) : Running p' i' s' := by
  cases p with
  | inside => cases hnext
  | outside =>
      have hfinish := matches_finish h r 0
      cases r with
      | enableInt =>
          cases hnext
          exact ⟨rfl, hfinish⟩
      | setRate rate =>
          obtain ⟨-, heq⟩ := Option.ite_none_right_eq_some.mp hnext
          cases heq
          exact ⟨rfl, hfinish⟩
      | interrupt =>
          obtain ⟨-, heq⟩ := Option.ite_none_left_eq_some.mp hnext
          cases heq
          exact ⟨rfl, hfinish⟩

lemma running_next {a : Action} {p p' : Point} {i i' : Bool} {s s' : Ports} (h : Running p i s)
    (hnext : next a p i s = some (p', i', s')) : Running p' i' s' := by
  cases a with
  | call r => exact running_call h hnext
  | flag interrupts =>
      cases p with
      | outside =>
          cases hnext
          exact h
      | inside => cases hnext
  | next =>
      cases p with
      | outside => cases hnext
      | inside rest data enable =>
          cases rest with
          | nil =>
              cases hnext
              exact h.2
          | cons op rest =>
              cases hnext
              exact h

/-- **The accesses of one request stay together.** -/
def clockRule : Rule code where
  Running := Running
  Waiting := Waiting
  Free := Ports.Matches
  act := running_next
  wait {p i s} h hswitch := by
    cases p with
    | outside => exact ⟨trivial, h⟩
    | inside rest data enable =>
        rcases hswitch with hi | hout
        · rw [h.1] at hi
          cases hi
        · cases hout
  resume {p i s} h hs := by
    cases p with
    | outside => exact hs
    | inside => exact h.elim
  outside {p i j} hout h := by
    cases p with
    | outside => exact trivial
    | inside => exact h.elim

lemma clockRule_start (r : Clock) (index : BitVec 8) (flags : ℕ → Bool) (interrupts : Bool) :
    clockRule.Holds (start r index flags interrupts) :=
  ⟨⟨rfl, rfl⟩, fun _ _ => trivial⟩

/-! ### Requests -/

/-- The request that an event makes. -/
def request : Event Action → Option Request
  | .act (.call r) => some r
  | _ => none

lemma wanted_exec (data : BitVec 8) (s : Ports) (op : Op) :
    (exec data s op).2.wanted = s.wanted := by
  cases op with
  | store f =>
      simp only [exec, Ports.write]
      split_ifs <;> rfl
  | _ => rfl

lemma wanted_finish (data : BitVec 8) (s : Ports) (rest : List Op) :
    (finish data s rest).wanted = s.wanted := by
  induction rest generalizing data s with
  | nil => rfl
  | cons op rest ih => rw [finish, ih, wanted_exec]

/-- A register that was written by mistake stays written. -/
lemma stray_of_finish {data : BitVec 8} {s : Ports} {rest : List Op}
    (h : (finish data s rest).stray = false) : s.stray = false := by
  induction rest generalizing data s with
  | nil => exact h
  | cons op rest ih =>
      have hstray := ih h
      cases op with
      | store f =>
          simp only [exec, Ports.write] at hstray
          split_ifs at hstray
          · exact hstray
          · exact hstray
      | _ => exact hstray

lemma wanted_next {a : Action} {p p' : Point} {i i' : Bool} {s s' : Ports}
    (h : next a p i s = some (p', i', s')) :
    s'.wanted = (request (.act a)).toList.foldl Clock.apply s.wanted := by
  cases p with
  | outside =>
      cases a with
      | call r =>
          cases r with
          | enableInt =>
              cases h
              rfl
          | setRate rate =>
              obtain ⟨-, heq⟩ := Option.ite_none_right_eq_some.mp h
              cases heq
              rfl
          | interrupt =>
              obtain ⟨-, heq⟩ := Option.ite_none_left_eq_some.mp h
              cases heq
              rfl
      | flag interrupts =>
          cases h
          rfl
      | next => cases h
  | inside rest data enable =>
      cases a with
      | next =>
          cases rest with
          | nil =>
              cases h
              rfl
          | cons op rest =>
              cases h
              exact wanted_exec data s op
      | _ => cases h

lemma wanted_step {c c' : Config Point Ports} {e : Event Action} (h : step code c e = some c') :
    c'.shared.wanted = (request e).toList.foldl Clock.apply c.shared.wanted := by
  cases e with
  | switch d flag =>
      obtain ⟨-, heq⟩ := Option.ite_none_right_eq_some.mp h
      cases heq
      rfl
  | act a =>
      obtain ⟨⟨p, i, s⟩, hnext, rfl⟩ := Option.map_eq_some_iff.mp h
      exact wanted_next hnext

/-- The clock as it is meant is the one that the requests give, in their order. -/
lemma wanted_run {c c' : Config Point Ports} {es : List (Event Action)}
    (h : run code c es = some c') :
    c'.shared.wanted = (es.filterMap request).foldl Clock.apply c.shared.wanted := by
  induction es generalizing c with
  | nil =>
      cases h
      rfl
  | cons e es ih =>
      obtain ⟨c₁, hstep, hrest⟩ := Option.bind_eq_some_iff.mp h
      rw [ih hrest, wanted_step hstep]
      cases hr : request e <;> simp [hr]

/-- A request changes the rate, the bit that enables the interrupt, and nothing else. -/
lemma apply_keeps (r : Clock) (q : Request) : (r.apply q).regA &&& 0xf0 = r.regA &&& 0xf0 ∧
    (r.apply q).regB &&& 0xbf = r.regB &&& 0xbf := by
  have hrate : ∀ x rate : BitVec 8,
      ((x &&& 0xf0) ||| (rate &&& 0x0f)) &&& 0xf0 = x &&& 0xf0 := by
    intro x rate
    ext j hj
    interval_cases j <;> simp
  have hbit : ∀ x : BitVec 8, (x ||| 0x40) &&& 0xbf = x &&& 0xbf := by
    intro x
    ext j hj
    interval_cases j <;> simp
  cases q with
  | enableInt => exact ⟨rfl, hbit _⟩
  | setRate rate => exact ⟨hrate _ _, rfl⟩
  | interrupt => exact ⟨rfl, rfl⟩

lemma foldl_apply_keeps (r : Clock) (qs : List Request) :
    (qs.foldl Clock.apply r).regA &&& 0xf0 = r.regA &&& 0xf0 ∧
      (qs.foldl Clock.apply r).regB &&& 0xbf = r.regB &&& 0xbf := by
  induction qs generalizing r with
  | nil => exact ⟨rfl, rfl⟩
  | cons q qs ih =>
      obtain ⟨hA, hB⟩ := apply_keeps r q
      obtain ⟨hA', hB'⟩ := ih (r.apply q)
      exact ⟨hA'.trans hA, hB'.trans hB⟩

/-- **The clock is linearizable.**  Whoever uses it, and whenever they are interrupted: when no
request is under way, the two registers and the ticks are what the requests give one after the
other, in the order in which they were made; the bits of the registers that no request is about are
as they were; a request that is under way has the processor to itself; and no other register is
written, at any time. -/
theorem clock_linearizable (r : Clock) (index : BitVec 8) (flags : ℕ → Bool) (interrupts : Bool)
    {es : List (Event Action)} {c : Config Point Ports}
    (hrun : run code (start r index flags interrupts) es = some c) :
    (∀ d, d ≠ c.running → c.contexts d = .outside) ∧ c.shared.stray = false ∧
      (c.contexts c.running = .outside →
        c.shared.clock = (es.filterMap request).foldl Clock.apply r ∧
        c.shared.clock.regA &&& 0xf0 = r.regA &&& 0xf0 ∧
        c.shared.clock.regB &&& 0xbf = r.regB &&& 0xbf) ∧
      ∀ rest data enable, c.contexts c.running = .inside rest data enable →
        c.interrupts = false ∧
        (finish data c.shared rest).clock = (es.filterMap request).foldl Clock.apply r := by
  have hholds := Rule.holds_run (clockRule_start r index flags interrupts) hrun
  have hwanted := wanted_run hrun
  have hrunning : Running (c.contexts c.running) c.interrupts c.shared := hholds.running
  refine ⟨fun d hd => ?_, ?_, fun hp => ?_, fun rest data enable hp => ?_⟩
  · have hwaiting : Waiting (c.contexts d) (c.flags d) := hholds.waiting d hd
    cases hp : c.contexts d with
    | outside => rfl
    | inside rest data enable =>
        rw [hp] at hwaiting
        exact hwaiting.elim
  · cases hp : c.contexts c.running with
    | outside =>
        rw [hp] at hrunning
        exact hrunning.stray
    | inside rest data enable =>
        rw [hp] at hrunning
        exact stray_of_finish hrunning.2.stray
  · rw [hp] at hrunning
    have hclock := hrunning.clock.trans hwanted
    rw [hclock]
    exact ⟨rfl, foldl_apply_keeps r _⟩
  · rw [hp] at hrunning
    refine ⟨hrunning.1, hrunning.2.clock.trans ?_⟩
    rw [wanted_finish]
    exact hwanted

/-- `set_rate` is called, and then the clock's interrupt comes twice. -/
def sampleEvents : List (Event Action) :=
  [Event.act (Action.call (.setRate 6))] ++ List.replicate 6 (Event.act Action.next) ++
    [Event.switch 1 false, Event.act (Action.call .interrupt)] ++
    List.replicate 4 (Event.act Action.next) ++ [Event.act (Action.call .interrupt)] ++
    List.replicate 4 (Event.act Action.next)

theorem clock_linearizable_rate : ∃ c,
    run code (start ⟨0x26, 0x02, 7⟩ 0 (fun _ => false) true) sampleEvents = some c ∧
    c.shared.clock = ⟨0x26, 0x02, 2⟩ := by
  have heval : (run code (start ⟨0x26, 0x02, 7⟩ 0 (fun _ => false) true) sampleEvents).any
      (fun c => code.outside (c.contexts c.running)) = true := by
    decide +kernel
  simp only [Option.any_eq_true] at heval
  obtain ⟨c, hrun, hout⟩ := heval
  have hp : c.contexts c.running = .outside := by
    cases hp : c.contexts c.running with
    | outside => rfl
    | inside rest data enable =>
        rw [hp] at hout
        cases hout
  obtain ⟨-, -, hclock, -⟩ := clock_linearizable ⟨0x26, 0x02, 7⟩ 0 (fun _ => false) true hrun
  refine ⟨c, hrun, (hclock hp).1.trans ?_⟩
  decide

end Rtc

end Titanium
