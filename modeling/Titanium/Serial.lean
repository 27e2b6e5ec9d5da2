import Titanium.Lib.Uniprocessor

/-!
The serial console (`serial.rs`).

Tasks, the scheduler and interrupt handlers all print, and any of them can be
interrupted by another that prints too.  `_print` disables interrupts while it
holds the lock of the port; `debug_dot` does not, but it only runs in
`hpet_interrupt`, behind an interrupt gate.

* `Point`: where a context is in `_print` or `debug_dot`.
* `printRule`: who may hold the lock, and what is on the line.
* `console_prints_whole`: **texts come out whole and one after the other, `lock`
  never waits, and `_print` leaves the interrupt flag as it found it**.

Faults are left out: a handler for one that prints waits for a lock that the
interrupted code holds.
-/

namespace Titanium

namespace Serial

open Uniprocessor

/-! ### The code -/

/-- Where a context is.  A text is the list of its bytes. -/
inductive Point where
  | outside
  /-- In `_print`, which has read the interrupt flag. -/
  | saved (reenable : Bool) (text : List UInt8)
  /-- In `_print`, with interrupts disabled, before `lock`. -/
  | locking (reenable : Bool) (text : List UInt8)
  /-- In `debug_dot`, before `try_lock`. -/
  | trying
  /-- With the lock, and with the bytes of the text that are still to be sent. -/
  | writing (reenable : Bool) (text rest : List UInt8)
  /-- In `_print`, without the lock. -/
  | restoring (reenable : Bool)
  deriving DecidableEq, Repr

/-- `SERIAL1`, and the line behind it. -/
structure Port where
  locked : Bool
  /-- The bytes that were sent. -/
  output : List UInt8
  /-- The texts that were written, as they gave up the lock. -/
  texts : List (List UInt8)
  deriving DecidableEq, Repr

/-- What the running context does. -/
inductive Action where
  | print (text : List UInt8)
  /-- `debug_dot`. -/
  | dot
  /-- Code outside of this module enables or disables interrupts. -/
  | flag (interrupts : Bool)
  /-- The next step of `_print` or `debug_dot`. -/
  | next
  deriving DecidableEq, Repr

/-- One step. -/
def next : Action → Point → Bool → Port → Option (Point × Bool × Port)
  | .print text, .outside, interrupts, port => some (.saved interrupts text, interrupts, port)
  | .dot, .outside, false, port => some (.trying, false, port)
  | .flag interrupts, .outside, _, port => some (.outside, interrupts, port)
  | .next, .saved reenable text, _, port => some (.locking reenable text, false, port)
  | .next, .locking reenable text, interrupts, port =>
      -- a lock that is taken is waited for
      if port.locked then none
      else some (.writing reenable text text, interrupts, { port with locked := true })
  | .next, .trying, interrupts, port =>
      if port.locked then some (.outside, interrupts, port)
      else some (.writing false [0x2e] [0x2e], interrupts, { port with locked := true })
  | .next, .writing reenable text (b :: rest), interrupts, port =>
      some (.writing reenable text rest, interrupts, { port with output := port.output ++ [b] })
  | .next, .writing reenable text [], interrupts, port =>
      some (.restoring reenable, interrupts,
        { port with locked := false, texts := port.texts ++ [text] })
  | .next, .restoring reenable, interrupts, port =>
      some (.outside, if reenable then true else interrupts, port)
  | _, _, _, _ => none

/-- The code of all contexts. -/
def code : Code Action Point Port := ⟨fun p => p = .outside, next⟩

/-- Nobody prints, and nothing was printed. -/
def start (flags : ℕ → Bool) (interrupts : Bool) : Config Point Port :=
  ⟨fun _ => .outside, flags, 0, interrupts, ⟨false, [], []⟩⟩

/-! ### The invariant -/

/-- Nobody writes: all that is on the line are whole texts. -/
structure Port.Whole (port : Port) : Prop where
  locked : port.locked = false
  output : port.output = port.texts.flatten

/-- The running context. -/
def Running : Point → Bool → Port → Prop
  | .outside, _, port => port.Whole
  | .saved reenable _, interrupts, port => interrupts = reenable ∧ port.Whole
  | .locking _ _, interrupts, port => interrupts = false ∧ port.Whole
  | .trying, interrupts, port => interrupts = false ∧ port.Whole
  | .writing _ text rest, interrupts, port => interrupts = false ∧ port.locked = true ∧
      ∃ done, text = done ++ rest ∧ port.output = port.texts.flatten ++ done
  | .restoring _, interrupts, port => interrupts = false ∧ port.Whole

/-- A context that waits: it may only have read the interrupt flag, which was set. -/
def Waiting : Point → Bool → Prop
  | .outside, _ => True
  | .saved reenable _, interrupts => reenable = true ∧ interrupts = true
  | _, _ => False

lemma running_next {a : Action} {p p' : Point} {i i' : Bool} {s s' : Port} (h : Running p i s)
    (hnext : next a p i s = some (p', i', s')) : Running p' i' s' := by
  unfold next at hnext
  split at hnext
  case h_1 =>
    cases hnext
    exact ⟨rfl, h⟩
  case h_2 =>
    cases hnext
    exact ⟨rfl, h⟩
  case h_3 =>
    cases hnext
    exact h
  case h_4 =>
    cases hnext
    exact ⟨rfl, h.2⟩
  case h_5 =>
    obtain ⟨-, heq⟩ := Option.ite_none_left_eq_some.mp hnext
    cases heq
    exact ⟨h.1, rfl, [], rfl, h.2.output.trans (List.append_nil _).symm⟩
  case h_6 =>
    rw [if_neg (by rw [h.2.locked]; exact nofun)] at hnext
    cases hnext
    exact ⟨h.1, rfl, [], rfl, h.2.output.trans (List.append_nil _).symm⟩
  case h_7 reenable text b rest =>
    obtain ⟨hif, hlocked, done, htext, houtput⟩ := h
    cases hnext
    refine ⟨hif, hlocked, done ++ [b], ?_, ?_⟩
    · rw [htext, List.append_assoc, List.singleton_append]
    · show _ ++ [b] = _
      rw [houtput, List.append_assoc]
  case h_8 =>
    obtain ⟨hif, -, done, htext, houtput⟩ := h
    cases hnext
    refine ⟨hif, rfl, ?_⟩
    rw [List.append_nil] at htext
    rw [houtput, htext, List.flatten_concat]
  case h_9 =>
    cases hnext
    exact h.2
  case h_10 => cases hnext

/-- Whoever holds the lock keeps the processor. -/
lemma waiting_of_running {p : Point} {i : Bool} {s : Port} (h : Running p i s)
    (hswitch : i = true ∨ code.outside p = true) : Waiting p i ∧ s.Whole := by
  have hflag : p ≠ .outside → i = true := by
    intro hne
    rcases hswitch with hi | hout
    · exact hi
    · exact absurd (of_decide_eq_true hout) hne
  cases p with
  | outside => exact ⟨trivial, h⟩
  | saved reenable text =>
      have hi := hflag nofun
      exact ⟨⟨h.1.symm.trans hi, hi⟩, h.2⟩
  | writing reenable text rest => exact absurd (hflag nofun) (by rw [h.1]; exact nofun)
  | _ => exact absurd (hflag nofun) (by rw [h.1]; exact nofun)

lemma running_of_waiting {p : Point} {i : Bool} {s : Port} (h : Waiting p i) (hs : s.Whole) :
    Running p i s := by
  cases p with
  | outside => exact hs
  | saved reenable text => exact ⟨h.2.trans h.1.symm, hs⟩
  | _ => exact h.elim

/-- **Who may hold the lock, and what is on the line.** -/
def printRule : Rule code where
  Running := Running
  Waiting := Waiting
  Free := Port.Whole
  act := running_next
  wait := waiting_of_running
  resume := running_of_waiting
  outside {p i j} hout h := by
    obtain rfl : p = .outside := of_decide_eq_true hout
    exact h

lemma printRule_start (flags : ℕ → Bool) (interrupts : Bool) :
    printRule.Holds (start flags interrupts) :=
  ⟨⟨rfl, rfl⟩, fun _ _ => trivial⟩

/-- The running context goes on, and ends `_print` with the interrupt flag that it read. -/
lemma exists_next {p : Point} {i : Bool} {s : Port} (h : Running p i s) (hp : p ≠ .outside) :
    ∃ p' i' s', next .next p i s = some (p', i', s') ∧
      ∀ reenable, p = .restoring reenable → p' = .outside ∧ i' = reenable := by
  cases p with
  | outside => exact absurd rfl hp
  | saved reenable text => exact ⟨_, _, _, rfl, nofun⟩
  | locking reenable text =>
      refine ⟨_, _, _, if_neg ?_, nofun⟩
      rw [h.2.locked]
      exact nofun
  | trying =>
      refine ⟨_, _, _, if_neg ?_, nofun⟩
      rw [h.2.locked]
      exact nofun
  | writing reenable text rest =>
      cases rest with
      | nil => exact ⟨_, _, _, rfl, nofun⟩
      | cons b rest => exact ⟨_, _, _, rfl, nofun⟩
  | restoring reenable =>
      refine ⟨_, _, _, rfl, fun r hr => ⟨rfl, ?_⟩⟩
      cases hr
      rw [h.1]
      cases reenable <;> rfl

/-! ### The console -/

/-- **Texts come out whole.**  Whoever prints, and whenever they are interrupted: what is on the
line are whole texts, and behind them the first part of at most one more, which the running context
is writing with interrupts disabled; no context that waits has the lock; the running context
always gets on, `lock` included; and when it comes to the end of `_print`, the interrupt flag is
the one that it read at its start. -/
theorem console_prints_whole (flags : ℕ → Bool) (interrupts : Bool)
    {es : List (Event Action)} {c : Config Point Port}
    (hrun : run code (start flags interrupts) es = some c) :
    (∃ part, c.shared.output = c.shared.texts.flatten ++ part ∧
      (part = [] ∨ c.interrupts = false ∧ ∃ reenable rest,
        c.contexts c.running = .writing reenable (part ++ rest) rest)) ∧
    (∀ d, d ≠ c.running →
      c.contexts d = .outside ∨ c.flags d = true ∧ ∃ text, c.contexts d = .saved true text) ∧
    (c.contexts c.running ≠ .outside → ∃ c', step code c (.act .next) = some c' ∧
      ∀ reenable, c.contexts c.running = .restoring reenable →
        c'.contexts c.running = .outside ∧ c'.interrupts = reenable) := by
  have hholds := Rule.holds_run (printRule_start flags interrupts) hrun
  refine ⟨?_, fun d hd => ?_, fun hne => ?_⟩
  · have hrunning : Running (c.contexts c.running) c.interrupts c.shared := hholds.running
    cases hp : c.contexts c.running with
    | writing reenable text rest =>
        rw [hp] at hrunning
        obtain ⟨hif, -, done, rfl, houtput⟩ := hrunning
        exact ⟨done, houtput, Or.inr ⟨hif, reenable, rest, rfl⟩⟩
    | outside =>
        rw [hp] at hrunning
        exact ⟨[], hrunning.output.trans (List.append_nil _).symm, Or.inl rfl⟩
    | _ =>
        rw [hp] at hrunning
        exact ⟨[], hrunning.2.output.trans (List.append_nil _).symm, Or.inl rfl⟩
  · have hwaiting : Waiting (c.contexts d) (c.flags d) := hholds.waiting d hd
    cases hp : c.contexts d with
    | outside => exact Or.inl rfl
    | saved reenable text =>
        rw [hp] at hwaiting
        obtain ⟨rfl, hflag⟩ := hwaiting
        exact Or.inr ⟨hflag, text, rfl⟩
    | _ =>
        rw [hp] at hwaiting
        exact hwaiting.elim
  · obtain ⟨p', i', s', hnext, hend⟩ := exists_next hholds.running hne
    refine ⟨_, Option.map_eq_some_iff.mpr ⟨_, hnext, rfl⟩, fun reenable hp => ?_⟩
    obtain ⟨rfl, rfl⟩ := hend reenable hp
    exact ⟨Function.update_self .., rfl⟩

/-- A context that has read the interrupt flag for the text "ab" is interrupted by another one,
which prints "c"; then it goes on up to the middle of its text. -/
def nestedPrints : List (Event Action) :=
  [Event.act (Action.print [0x61, 0x62]), Event.switch 1 false, Event.act (Action.print [0x63])] ++
    List.replicate 5 (Event.act Action.next) ++ [Event.switch 0 false] ++
    List.replicate 3 (Event.act Action.next)

theorem console_prints_whole_nested : ∃ c c',
    run code (start (fun _ => false) true) nestedPrints = some c ∧
    c.shared.output = [0x63] ++ [0x61] ∧ step code c (.act .next) = some c' := by
  have heval : (run code (start (fun _ => false) true) nestedPrints).any (fun c =>
      c.shared.output = [0x63] ++ [0x61] ∧ c.contexts c.running ≠ .outside) = true := by
    decide +kernel
  simp only [Option.any_eq_true, decide_eq_true_eq] at heval
  obtain ⟨c, hrun, houtput, hne⟩ := heval
  obtain ⟨-, -, hgo⟩ := console_prints_whole (fun _ => false) true hrun
  obtain ⟨c', hstep, -⟩ := hgo hne
  exact ⟨c, c', hrun, houtput, hstep⟩

end Serial

end Titanium
