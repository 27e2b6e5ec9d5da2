import Titanium.Hdint.IoApic

/-!
Interrupt source overrides and the pins of the IOAPIC (`hdint.rs`, `main.rs`).

An override gives an interrupt a global number.  The pin of a global number is its
distance from the interrupt base of the IOAPIC, but the code takes the number
itself for the pin.

* `irqs_registerAll`: an interrupt has the number of its last override.
* `overrides_route_iff`: **interrupts reach their pins when the base is a multiple
  of 128**, since then the two register numbers agree in their lower eight bits.
-/

namespace Titanium

namespace Hdint

/-! ### Routing -/

/-- The overrides of an IOAPIC with 24 pins whose interrupts are numbered from `b` on. -/
structure IOApicOverrideEntry.Valid (ovr : IOApicOverrideEntry) (b : ℕ) : Prop where
  source : ovr.irqSource.toNat < 32
  le_gsi : b ≤ ovr.gsi.toNat
  gsi_lt : ovr.gsi.toNat < b + 24
  polarity : polarity ovr.flags ≠ .reserved
  trigger : trigger ovr.flags ≠ .reserved

/-- The last override of an interrupt. -/
def lastOverride (ovrs : List IOApicOverrideEntry) (k : Fin 32) : Option IOApicOverrideEntry :=
  ovrs.reverse.find? fun ovr => ovr.irqSource.toNat == k

/-- The global number of an interrupt of the IOAPIC. -/
def globalInterrupt (b : ℕ) (ovrs : List IOApicOverrideEntry) (k : Fin 32) : Option ℕ :=
  match lastOverride ovrs k with
  | some ovr => some ovr.gsi.toNat
  | none => if b ≤ k then some k else none

/-- The call reads and writes the entry of the pin. -/
def Uses (s : IOApic × Device) (c : Call) (pin : ℕ) : Prop :=
  ∃ s' e, call s c = some s' ∧ c.update (s.2.entry pin) = some e ∧ s'.2 = s.2.put pin e

lemma Uses.pin_eq {s : IOApic × Device} {c : Call} {p i : ℕ} (h : Uses s c p)
    (hindex : c.index s.1 = some i) : i % 128 = p % 128 := by
  obtain ⟨s', e, hcall, -, hput⟩ := h
  obtain ⟨j, e', hj, -, -, hput', -⟩ := call_eq_some.mp hcall
  cases hindex.symm.trans hj
  exact Device.put_inj (hput'.symm.trans hput)

/-- A request uses every pin that its index stands for. -/
lemma uses_of_irq {s : IOApic × Device} {c : Call} {k : Fin 32} (hk : c.irq = some k)
    (hin : Device.InRange (s.1.irqs k)) {p : ℕ} (hp : s.1.irqs k % 128 = p % 128) :
    Uses s c p := by
  have hrequest : ∀ e, c.update (s.2.entry (s.1.irqs k)) = some e →
      c.index s.1 = c.irq.map s.1.irqs → c.irqs s.1 = some s.1 → Uses s c p := by
    intro e hupdate hindex hirqs
    refine ⟨(s.1, s.2.put (s.1.irqs k) e), e,
      call_eq_some.mpr ⟨s.1.irqs k, e, ?_, hin, hupdate, rfl, hirqs⟩,
      s.2.entry_congr hp ▸ hupdate, s.2.put_congr hp e⟩
    rw [hindex, hk, Option.map_some]
  cases c with
  | registerOverride ovr => cases hk
  | _ => exact hrequest _ rfl rfl rfl

lemma ApicIRQPolarity.exists_set {q : ApicIRQPolarity} (h : q ≠ reserved) (e : RedirectionEntry) :
    ∃ e', q.set e = some e' := by
  cases q with
  | reserved => exact absurd rfl h
  | _ => exact ⟨_, rfl⟩

lemma ApicIRQTrigger.exists_set {q : ApicIRQTrigger} (h : q ≠ reserved) (e : RedirectionEntry) :
    ∃ e', q.set e = some e' := by
  cases q with
  | reserved => exact absurd rfl h
  | _ => exact ⟨_, rfl⟩

lemma call_registerOverride {ovr : IOApicOverrideEntry} {b : ℕ} (h : ovr.Valid b)
    (hin : Device.InRange ovr.gsi.toNat) (s : IOApic × Device) :
    ∃ s', call s (.registerOverride ovr) = some s' := by
  obtain ⟨e₁, he₁⟩ := ApicIRQPolarity.exists_set h.polarity (s.2.entry ovr.gsi.toNat)
  obtain ⟨e₂, he₂⟩ := ApicIRQTrigger.exists_set h.trigger e₁
  have hupdate : (Call.registerOverride ovr).update (s.2.entry ovr.gsi.toNat) = some e₂ :=
    Option.bind_eq_some_iff.mpr ⟨e₁, he₁, he₂⟩
  have hsource : IOApic.irqIndex ovr.irqSource.toNat = some ⟨_, h.source⟩ := dif_pos h.source
  exact ⟨(_, _), call_eq_some.mpr ⟨_, e₂, rfl, hin, hupdate, rfl,
    Option.map_eq_some_iff.mpr ⟨_, hsource, rfl⟩⟩⟩

/-- Registering overrides in order. -/
abbrev registerAll (s : IOApic × Device) (ovrs : List IOApicOverrideEntry) :
    Option (IOApic × Device) :=
  calls s (ovrs.map .registerOverride)

lemma registerAll_concat (s : IOApic × Device) (ovrs : List IOApicOverrideEntry)
    (ovr : IOApicOverrideEntry) : registerAll s (ovrs ++ [ovr]) =
      (registerAll s ovrs).bind fun s' => call s' (.registerOverride ovr) := by
  rw [registerAll, List.map_append, calls, List.foldlM_append]
  simp [calls]

lemma inRange_of_registerAll {s s' : IOApic × Device} {ovrs : List IOApicOverrideEntry}
    (h : registerAll s ovrs = some s') : ∀ ovr ∈ ovrs, Device.InRange ovr.gsi.toNat := by
  induction ovrs using List.reverseRecOn generalizing s' with
  | nil => simp
  | append_singleton ovrs ovr ih =>
      rw [registerAll_concat] at h
      obtain ⟨s₁, h₁, hcall⟩ := Option.bind_eq_some_iff.mp h
      obtain ⟨i, e, hindex, hin, -⟩ := call_eq_some.mp hcall
      cases hindex
      intro o ho
      rcases List.mem_append.mp ho with ho | ho
      · exact ih h₁ o ho
      · rwa [List.mem_singleton.mp ho]

lemma exists_registerAll {b : ℕ} {ovrs : List IOApicOverrideEntry}
    (hvalid : ∀ ovr ∈ ovrs, ovr.Valid b) (hin : ∀ ovr ∈ ovrs, Device.InRange ovr.gsi.toNat)
    (s : IOApic × Device) : ∃ s', registerAll s ovrs = some s' := by
  induction ovrs generalizing s with
  | nil => exact ⟨s, rfl⟩
  | cons ovr ovrs ih =>
      obtain ⟨hv, hvalid⟩ := List.forall_mem_cons.mp hvalid
      obtain ⟨hi, hin⟩ := List.forall_mem_cons.mp hin
      obtain ⟨s₁, h₁⟩ := call_registerOverride hv hi s
      obtain ⟨s', h'⟩ := ih hvalid hin s₁
      exact ⟨s', Option.bind_eq_some_iff.mpr ⟨s₁, h₁, h'⟩⟩

lemma lastOverride_concat (ovrs : List IOApicOverrideEntry) (ovr : IOApicOverrideEntry)
    (k : Fin 32) : lastOverride (ovrs ++ [ovr]) k =
      if ovr.irqSource.toNat = k then some ovr else lastOverride ovrs k := by
  rw [lastOverride, List.reverse_concat, List.find?_cons]
  by_cases hk : ovr.irqSource.toNat = k
  · simp [hk]
  · rw [if_neg hk, beq_eq_false_iff_ne.mpr hk]
    rfl

/-- **An interrupt goes where its last override says.** -/
lemma irqs_registerAll {s s' : IOApic × Device} {ovrs : List IOApicOverrideEntry}
    (h : registerAll s ovrs = some s') (k : Fin 32) : s'.1.irqs k =
      ((lastOverride ovrs k).map fun ovr => ovr.gsi.toNat).getD (s.1.irqs k) := by
  induction ovrs using List.reverseRecOn generalizing s' with
  | nil =>
      cases h
      rfl
  | append_singleton ovrs ovr ih =>
      rw [registerAll_concat] at h
      obtain ⟨s₁, h₁, hcall⟩ := Option.bind_eq_some_iff.mp h
      obtain ⟨i, e, -, -, -, -, hirqs⟩ := call_eq_some.mp hcall
      obtain ⟨source, hsource, heq⟩ := Option.map_eq_some_iff.mp hirqs
      obtain ⟨hlt, hsource⟩ := Option.dite_none_right_eq_some.mp hsource
      cases hsource
      rw [← heq, lastOverride_concat]
      by_cases hk : ovr.irqSource.toNat = k.val
      · have hsame : k = ⟨ovr.irqSource.toNat, hlt⟩ := Fin.ext hk.symm
        rw [if_pos hk, hsame]
        exact Function.update_self ..
      · have hne : k ≠ ⟨ovr.irqSource.toNat, hlt⟩ := fun heq => hk (congrArg Fin.val heq).symm
        rw [if_neg hk, ← ih h₁]
        exact Function.update_of_ne hne ..

/-- `init_hpet` can get any interrupt. -/
lemma irq_initHpet : ∀ k : Fin 32, (Call.initHpet (1#32 <<< k.val)).irq = some k := by decide

lemma Call.fields_registerOverride (ovr : IOApicOverrideEntry) :
    (Call.registerOverride ovr).fields ⊆ [13, 15] := by
  rw [Call.fields]
  split_ifs <;> simp

lemma Device.OnlyChanges.mono {d d' : Device} {p q : ℕ} {fields fields' : List ℕ}
    (h : d.OnlyChanges d' p fields) (hpq : p % 128 = q % 128) (hsub : fields ⊆ fields') :
    d.OnlyChanges d' q fields' where
  other r hr := h.other r (hpq ▸ hr)
  bits j hj := by
    rw [← d.entry_congr hpq, ← d'.entry_congr hpq]
    exact h.bits j (mt (@hsub j) hj)

lemma gsi_mod_eq_iff {b g : ℕ} (h : b ≤ g) : g % 128 = (g - b) % 128 ↔ 128 ∣ b := by omega

lemma mem_of_lastOverride {ovrs : List IOApicOverrideEntry} {k : Fin 32}
    {ovr : IOApicOverrideEntry} (h : lastOverride ovrs k = some ovr) : ovr ∈ ovrs :=
  List.mem_reverse.mp (List.mem_of_find?_eq_some h)

/-- Global numbers come from overrides, or are those of the interrupts themselves. -/
lemma globalInterrupt_cases {b : ℕ} {ovrs : List IOApicOverrideEntry} {k : Fin 32} {g : ℕ}
    (h : globalInterrupt b ovrs k = some g) :
    (∃ ovr, lastOverride ovrs k = some ovr ∧ ovr.gsi.toNat = g) ∨
      lastOverride ovrs k = none ∧ b ≤ k ∧ k.val = g := by
  unfold globalInterrupt at h
  cases hlast : lastOverride ovrs k with
  | none =>
      rw [hlast] at h
      obtain ⟨hle, heq⟩ := Option.ite_none_right_eq_some.mp h
      exact Or.inr ⟨rfl, hle, Option.some.inj heq⟩
  | some ovr =>
      rw [hlast] at h
      exact Or.inl ⟨ovr, rfl, Option.some.inj h⟩

section Route

variable {id : BitVec 8} {b : BitVec 32} {base : ℕ} {d : Device}
  {ovrs : List IOApicOverrideEntry} {s : IOApic × Device}

/-- The entry of an interrupt is the one with its global number: the base is not subtracted. -/
lemma irqs_eq_globalInterrupt (hs : registerAll (IOApic.init id b base, d) ovrs = some s)
    {k : Fin 32} {g : ℕ} (hg : globalInterrupt b.toNat ovrs k = some g) : s.1.irqs k = g := by
  rw [irqs_registerAll hs, IOApic.init_eq]
  rcases globalInterrupt_cases hg with ⟨ovr, hlast, rfl⟩ | ⟨hlast, -, rfl⟩
  · rw [hlast, Option.map_some, Option.getD_some]
  · rw [hlast, Option.map_none, Option.getD_none]

lemma le_globalInterrupt (hvalid : ∀ ovr ∈ ovrs, ovr.Valid b.toNat) {k : Fin 32} {g : ℕ}
    (hg : globalInterrupt b.toNat ovrs k = some g) : b.toNat ≤ g := by
  rcases globalInterrupt_cases hg with ⟨ovr, hlast, rfl⟩ | ⟨-, hle, rfl⟩
  · exact (hvalid ovr (mem_of_lastOverride hlast)).le_gsi
  · exact hle

lemma inRange_globalInterrupt (hin : ∀ ovr ∈ ovrs, Device.InRange ovr.gsi.toNat) {k : Fin 32}
    {g : ℕ} (hg : globalInterrupt b.toNat ovrs k = some g) : Device.InRange g := by
  rcases globalInterrupt_cases hg with ⟨ovr, hlast, rfl⟩ | ⟨-, -, rfl⟩
  · exact hin ovr (mem_of_lastOverride hlast)
  · rw [Device.InRange]
    omega

/-- If one interrupt is routed to its pin, the base is a multiple of 128. -/
lemma dvd_of_uses (hvalid : ∀ ovr ∈ ovrs, ovr.Valid b.toNat)
    (hs : registerAll (IOApic.init id b base, d) ovrs = some s)
    (huses : ∀ c k g, c.irq = some k → globalInterrupt b.toNat ovrs k = some g →
      Uses s c (g - b.toNat))
    {k : Fin 32} {g : ℕ} (hg : globalInterrupt b.toNat ovrs k = some g) : 128 ∣ b.toNat := by
  have hindex : (Call.initHpet (1#32 <<< k.val)).index s.1 = some g := by
    show (Call.initHpet (1#32 <<< k.val)).irq.map s.1.irqs = some g
    rw [irq_initHpet, Option.map_some, irqs_eq_globalInterrupt hs hg]
  have hpin := (huses _ k g (irq_initHpet k) hg).pin_eq hindex
  exact (gsi_mod_eq_iff (le_globalInterrupt hvalid hg)).mp hpin

end Route

/-- **Overrides are routed to their pins exactly when the interrupt base is a multiple of 128**, or
when the IOAPIC has nothing to route; global numbers near 2³¹ are out of range. -/
theorem overrides_route_iff (id : BitVec 8) (b : BitVec 32) (base : ℕ) (d : Device)
    (ovrs : List IOApicOverrideEntry) (hvalid : ∀ ovr ∈ ovrs, ovr.Valid b.toNat) :
    (∃ s, registerAll (IOApic.init id b base, d) ovrs = some s ∧
      (∀ c k g, c.irq = some k → globalInterrupt b.toNat ovrs k = some g →
        Uses s c (g - b.toNat)) ∧
      ∀ pre ovr post s₁ s₂, ovrs = pre ++ ovr :: post →
        registerAll (IOApic.init id b base, d) pre = some s₁ →
        call s₁ (.registerOverride ovr) = some s₂ →
        s₁.2.OnlyChanges s₂.2 (ovr.gsi.toNat - b.toNat) [13, 15]) ↔
    (∀ ovr ∈ ovrs, ovr.gsi.toNat < 2 ^ 31 - 8) ∧
      (128 ∣ b.toNat ∨ ovrs = [] ∧ 32 ≤ b.toNat) := by
  have hrange : ∀ ovr : IOApicOverrideEntry,
      Device.InRange ovr.gsi.toNat ↔ ovr.gsi.toNat < 2 ^ 31 - 8 := by
    intro ovr
    rw [Device.InRange, Nat.mod_eq_of_lt ovr.gsi.isLt]
  constructor
  · rintro ⟨s, hs, huses, -⟩
    refine ⟨fun ovr ho => (hrange ovr).mp (inRange_of_registerAll hs ovr ho), ?_⟩
    rcases ovrs.eq_nil_or_concat with rfl | ⟨ovrs, ovr, rfl⟩
    · by_cases hb : 32 ≤ b.toNat
      · exact Or.inr ⟨rfl, hb⟩
      · exact Or.inl (dvd_of_uses hvalid hs huses (k := 31) (if_pos (by simp; omega)))
    · have hsource := (hvalid ovr (by simp)).source
      refine Or.inl (dvd_of_uses hvalid hs huses (k := ⟨_, hsource⟩) (g := ovr.gsi.toNat) ?_)
      rw [globalInterrupt, List.concat_eq_append, lastOverride_concat, if_pos rfl]
  · rintro ⟨hlt, hbase⟩
    have hin : ∀ ovr ∈ ovrs, Device.InRange ovr.gsi.toNat := fun ovr ho =>
      (hrange ovr).mpr (hlt ovr ho)
    obtain ⟨s, hs⟩ := exists_registerAll hvalid hin (IOApic.init id b base, d)
    refine ⟨s, hs, fun c k g hk hg => ?_, fun pre ovr post s₁ s₂ heq _ hcall => ?_⟩
    · have hirq := irqs_eq_globalInterrupt hs hg
      have hdvd : 128 ∣ b.toNat := by
        rcases hbase with hdvd | ⟨rfl, hb⟩
        · exact hdvd
        · -- no interrupt reaches an IOAPIC above number 31 without an override
          have hle := (Option.ite_none_right_eq_some.mp hg).1
          omega
      refine uses_of_irq hk (hirq ▸ inRange_globalInterrupt hin hg) ?_
      rw [hirq]
      exact (gsi_mod_eq_iff (le_globalInterrupt hvalid hg)).mpr hdvd
    · have hmem : ovr ∈ ovrs := by rw [heq]; simp
      have hdvd : 128 ∣ b.toNat := hbase.resolve_right fun h => by simp [h.1] at hmem
      obtain ⟨i, e, hindex, -, hupdate, hput, -⟩ := call_eq_some.mp hcall
      cases hindex
      rw [hput]
      exact (Call.onlyChanges_put hupdate).mono
        ((gsi_mod_eq_iff (hvalid ovr hmem).le_gsi).mpr hdvd) (Call.fields_registerOverride ovr)

/-- The usual override: the timer is interrupt 2. -/
theorem timer_override_routes : ∃ s,
    registerAll (IOApic.init 0 0 0, ⟨0, fun _ => 0⟩) [⟨0, 2, 0⟩] = some s ∧
    Uses s .enablePit 2 := by
  obtain ⟨s, hs, huses, -⟩ := (overrides_route_iff 0 0 0 ⟨0, fun _ => 0⟩ [⟨0, 2, 0⟩]
    (by rintro _ (_ | ⟨_, ⟨⟩⟩); exact ⟨by decide, by decide, by decide, by decide, by decide⟩)).mpr
    ⟨by decide, Or.inl (by decide)⟩
  exact ⟨s, hs, huses .enablePit 0 2 rfl rfl⟩

/-- A second IOAPIC has the interrupts from 24 on, and the timer at 26, which is its pin 2.
`enable_pit` writes to pin 26. -/
theorem second_ioapic_misroutes : ∃ s s',
    IOApicOverrideEntry.Valid ⟨0, 26, 0⟩ 24 ∧
    registerAll (IOApic.init 0 24 0, ⟨0, fun _ => 0⟩) [⟨0, 26, 0⟩] = some s ∧
    globalInterrupt 24 [⟨0, 26, 0⟩] IOApic.globalPit = some 26 ∧
    call s .enablePit = some s' ∧ s'.2.entry (26 - 24) = 0 ∧ s'.2.entry 26 = 0x33 :=
  ⟨_, _, ⟨by decide, by decide, by decide, by decide, by decide⟩, rfl, rfl, rfl, by decide,
    by decide⟩

end Hdint

end Titanium
