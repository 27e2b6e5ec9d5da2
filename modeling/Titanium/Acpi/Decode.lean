import Titanium.Acpi.Madt

/-!
The fields of the records of the MADT.

The firmware writes the fields of a record where the ACPI specification puts
them; the kernel reads them where `repr(C, packed(2))` puts the fields of its
structs.

* `AcpiRecord.encode`: a record, as the firmware writes it.
* `MADTEntry.read`: the fields of an entry, as the kernel reads them.
* `madt_decodes_iff`: **records of the types 0, 1, 2 and 5 are read as they were
  written**; those of type 4 only when the flags and the byte behind the record
  repeat the line, and those of type 9 only when all their fields are zero.
-/

namespace Titanium

namespace Acpi

/-- The fields of a record. -/
inductive AcpiRecord where
  | localApic (processorId apicId : UInt8) (flags : UInt32)
  | ioApic (id : UInt8) (address gsiBase : UInt32)
  | ioApicOverride (bus irq : UInt8) (gsi : UInt32) (flags : UInt16)
  | localApicNonmaskable (processorId : UInt8) (flags : UInt16) (lint : UInt8)
  | localApicOverride (address : UInt64)
  | localx2Apic (x2apicId flags processorUid : UInt32)
  deriving DecidableEq

/-- The variant of `MADTEntry` for a record. -/
def AcpiRecord.kind : AcpiRecord → EntryKind
  | .localApic .. => .localApic
  | .ioApic .. => .ioApic
  | .ioApicOverride .. => .ioApicOverride
  | .localApicNonmaskable .. => .localApicNonmaskable
  | .localApicOverride .. => .localApicOverride
  | .localx2Apic .. => .localx2Apic

open Mem (leBytes)

/-- A record as the specification lays it out; reserved bytes are zero. -/
def AcpiRecord.encode : AcpiRecord → List UInt8
  | .localApic processorId apicId flags => [0, 8, processorId, apicId] ++ leBytes 4 flags.toNat
  | .ioApic id address gsiBase =>
      [1, 12, id, 0] ++ (leBytes 4 address.toNat ++ leBytes 4 gsiBase.toNat)
  | .ioApicOverride bus irq gsi flags =>
      [2, 10, bus, irq] ++ (leBytes 4 gsi.toNat ++ leBytes 2 flags.toNat)
  | .localApicNonmaskable processorId flags lint =>
      [4, 6, processorId] ++ (leBytes 2 flags.toNat ++ [lint])
  | .localApicOverride address => [5, 12, 0, 0] ++ leBytes 8 address.toNat
  | .localx2Apic x2apicId flags processorUid =>
      [9, 16, 0, 0] ++ (leBytes 4 x2apicId.toNat ++ (leBytes 4 flags.toNat ++
        leBytes 4 processorUid.toNat))

/-! ### Reading -/

namespace MADTEntry

variable (mem : Mem) (e : MADTEntry)

/-- Field `i` of the struct. -/
def u8 (i : ℕ) : UInt8 := .ofNat (mem.readLE 1 (e.addr + e.kind.struct.offset i))

def u16 (i : ℕ) : UInt16 := .ofNat (mem.readLE 2 (e.addr + e.kind.struct.offset i))

def u32 (i : ℕ) : UInt32 := .ofNat (mem.readLE 4 (e.addr + e.kind.struct.offset i))

def u64 (i : ℕ) : UInt64 := .ofNat (mem.readLE 8 (e.addr + e.kind.struct.offset i))

/-- The fields of an entry. -/
def read : Option AcpiRecord :=
  match e.kind with
  | .localApic => some (.localApic (e.u8 mem 1) (e.u8 mem 2) (e.u32 mem 3))
  | .ioApic => some (.ioApic (e.u8 mem 1) (e.u32 mem 3) (e.u32 mem 4))
  | .ioApicOverride =>
      some (.ioApicOverride (e.u8 mem 1) (e.u8 mem 2) (e.u32 mem 3) (e.u16 mem 4))
  | .ioApicNonmaskable => none
  | .localApicNonmaskable =>
      some (.localApicNonmaskable (e.u8 mem 1) (e.u16 mem 2) (e.u8 mem 3))
  | .localApicOverride => some (.localApicOverride (e.u64 mem 2))
  | .localx2Apic => some (.localx2Apic (e.u32 mem 1) (e.u32 mem 2) (e.u32 mem 3))

end MADTEntry

/-- When a record is read as it was written; `b` is the byte six behind its start. -/
def AcpiRecord.Agrees (b : UInt8) : AcpiRecord → Prop
  | .localApicNonmaskable _ flags lint => flags.toNat = 257 * lint.toNat ∧ b = lint
  | .localx2Apic x2apicId flags processorUid => x2apicId = 0 ∧ flags = 0 ∧ processorUid = 0
  | _ => True

section Fields

variable {mem : Mem} {p : ℕ}

lemma ofNat_u8 {v : UInt8} (h : mem p = v) : UInt8.ofNat (mem.readLE 1 p) = v := by
  rw [Mem.readLE, h, Mem.readLE, Nat.mul_zero, Nat.add_zero, UInt8.ofNat_toNat]

lemma ofNat_u16 {v : UInt16} (h : mem.Holds p (leBytes 2 v.toNat)) :
    UInt16.ofNat (mem.readLE 2 p) = v := by
  have hlt : v.toNat < 256 ^ 2 := v.toNat_lt
  rw [Mem.readLE_of_holds h, Nat.mod_eq_of_lt hlt, UInt16.ofNat_toNat]

lemma ofNat_u32 {v : UInt32} (h : mem.Holds p (leBytes 4 v.toNat)) :
    UInt32.ofNat (mem.readLE 4 p) = v := by
  have hlt : v.toNat < 256 ^ 4 := v.toNat_lt
  rw [Mem.readLE_of_holds h, Nat.mod_eq_of_lt hlt, UInt32.ofNat_toNat]

lemma ofNat_u64 {v : UInt64} (h : mem.Holds p (leBytes 8 v.toNat)) :
    UInt64.ofNat (mem.readLE 8 p) = v := by
  have hlt : v.toNat < 256 ^ 8 := v.toNat_lt
  rw [Mem.readLE_of_holds h, Nat.mod_eq_of_lt hlt, UInt64.ofNat_toNat]

lemma ofNat_u16_eq_iff (v : UInt16) : UInt16.ofNat (mem.readLE 2 p) = v ↔
    mem.readLE 2 p = v.toNat := by
  have hlt : mem.readLE 2 p < UInt16.size := Mem.readLE_lt 2
  refine ⟨fun h => ?_, fun h => by rw [h, UInt16.ofNat_toNat]⟩
  rw [← h, UInt16.toNat_ofNat_of_lt' hlt]

lemma ofNat_u32_eq_iff (v : UInt32) : UInt32.ofNat (mem.readLE 4 p) = v ↔
    mem.readLE 4 p = v.toNat := by
  have hlt : mem.readLE 4 p < UInt32.size := Mem.readLE_lt 4
  refine ⟨fun h => ?_, fun h => by rw [h, UInt32.ofNat_toNat]⟩
  rw [← h, UInt32.toNat_ofNat_of_lt' hlt]

/-- Two bytes too early, a number is read together with the one before it. -/
lemma readLE_between {v w : ℕ} (h : mem.Holds p (leBytes 4 v ++ leBytes 4 w)) :
    mem.readLE 4 (p + 2) = v / 65536 % 65536 + 65536 * (w % 65536) := by
  have hsplit : mem.readLE 4 (p + 2) = mem.readLE 2 (p + 2) + 65536 * mem.readLE 2 (p + 4) :=
    Mem.readLE_add 2 2
  rw [show leBytes 4 v = leBytes 2 v ++ leBytes 2 (v / 65536) from Mem.leBytes_add 2 2 v,
    show leBytes 4 w = leBytes 2 w ++ leBytes 2 (w / 65536) from Mem.leBytes_add 2 2 w] at h
  obtain ⟨hv, hw⟩ := Mem.holds_append.mp h
  have hlow := Mem.readLE_of_holds (Mem.holds_append.mp hv).2
  have hhigh := Mem.readLE_of_holds (Mem.holds_append.mp hw).1
  rw [hsplit]
  exact congrArg₂ (· + 65536 * ·) hlow hhigh

/-- Only zero is its own lower half, shifted up. -/
lemma eq_zero_of_shifted {v : ℕ} (hv : v < 2 ^ 32) (h : 65536 * (v % 65536) = v) : v = 0 := by
  omega

end Fields

/-! ### Where the fields are read -/

lemma offset_localApicEntry : localApicEntry.offset 1 = 2 ∧ localApicEntry.offset 2 = 3 ∧
    localApicEntry.offset 3 = 4 := ⟨rfl, rfl, rfl⟩

lemma offset_ioApicEntry : ioApicEntry.offset 1 = 2 ∧ ioApicEntry.offset 3 = 4 ∧
    ioApicEntry.offset 4 = 8 := ⟨rfl, rfl, rfl⟩

lemma offset_ioApicOverrideEntry : ioApicOverrideEntry.offset 1 = 2 ∧
    ioApicOverrideEntry.offset 2 = 3 ∧ ioApicOverrideEntry.offset 3 = 4 ∧
    ioApicOverrideEntry.offset 4 = 8 := ⟨rfl, rfl, rfl, rfl⟩

/-- The flags are aligned to 2, one byte behind their place, and the line lies behind the record. -/
lemma offset_localApicNonmaskableEntry : localApicNonmaskableEntry.offset 1 = 2 ∧
    localApicNonmaskableEntry.offset 2 = 4 ∧ localApicNonmaskableEntry.offset 3 = 6 :=
  ⟨rfl, rfl, rfl⟩

lemma offset_localApicOverrideEntry : localApicOverrideEntry.offset 2 = 4 := rfl

/-- Without the reserved field all fields lie two bytes before their place. -/
lemma offset_localx2ApicEntry : localx2ApicEntry.offset 1 = 2 ∧ localx2ApicEntry.offset 2 = 6 ∧
    localx2ApicEntry.offset 3 = 10 := ⟨rfl, rfl, rfl⟩

/-- The type of a record is that of its variant. -/
lemma AcpiRecord.entryKind_of_holds {mem : Mem} {p : ℕ} {r : AcpiRecord}
    (h : mem.Holds p r.encode) : entryKind (mem p) = some r.kind := by
  cases r <;> · rw [h.1]; rfl

section Read

variable {mem : Mem} {p : ℕ}

lemma read_localApic {processorId apicId : UInt8} {flags : UInt32}
    (h : mem.Holds p (AcpiRecord.localApic processorId apicId flags).encode) :
    MADTEntry.read mem ⟨.localApic, p⟩ = some (.localApic processorId apicId flags) := by
  obtain ⟨⟨-, -, hprocessor, hapic, -⟩, hflags⟩ := Mem.holds_append.mp h
  have h2 : mem (p + 2) = processorId := hprocessor
  have h3 : mem (p + 3) = apicId := hapic
  have h4 : mem.Holds (p + 4) (leBytes 4 flags.toNat) := hflags
  simp only [MADTEntry.read, MADTEntry.u8, MADTEntry.u32, EntryKind.struct, offset_localApicEntry,
    ofNat_u8 h2, ofNat_u8 h3, ofNat_u32 h4]

lemma read_ioApic {id : UInt8} {address gsiBase : UInt32}
    (h : mem.Holds p (AcpiRecord.ioApic id address gsiBase).encode) :
    MADTEntry.read mem ⟨.ioApic, p⟩ = some (.ioApic id address gsiBase) := by
  obtain ⟨⟨-, -, hid, -⟩, hrest⟩ := Mem.holds_append.mp h
  obtain ⟨haddress, hgsi⟩ := Mem.holds_append.mp hrest
  have h2 : mem (p + 2) = id := hid
  have h4 : mem.Holds (p + 4) (leBytes 4 address.toNat) := haddress
  have h8 : mem.Holds (p + 8) (leBytes 4 gsiBase.toNat) := hgsi
  simp only [MADTEntry.read, MADTEntry.u8, MADTEntry.u32, EntryKind.struct, offset_ioApicEntry,
    ofNat_u8 h2, ofNat_u32 h4, ofNat_u32 h8]

lemma read_ioApicOverride {bus irq : UInt8} {gsi : UInt32} {flags : UInt16}
    (h : mem.Holds p (AcpiRecord.ioApicOverride bus irq gsi flags).encode) :
    MADTEntry.read mem ⟨.ioApicOverride, p⟩ = some (.ioApicOverride bus irq gsi flags) := by
  obtain ⟨⟨-, -, hbus, hirq, -⟩, hrest⟩ := Mem.holds_append.mp h
  obtain ⟨hgsi, hflags⟩ := Mem.holds_append.mp hrest
  have h2 : mem (p + 2) = bus := hbus
  have h3 : mem (p + 3) = irq := hirq
  have h4 : mem.Holds (p + 4) (leBytes 4 gsi.toNat) := hgsi
  have h8 : mem.Holds (p + 8) (leBytes 2 flags.toNat) := hflags
  simp only [MADTEntry.read, MADTEntry.u8, MADTEntry.u16, MADTEntry.u32, EntryKind.struct,
    offset_ioApicOverrideEntry, ofNat_u8 h2, ofNat_u8 h3, ofNat_u32 h4, ofNat_u16 h8]

lemma read_localApicOverride {address : UInt64}
    (h : mem.Holds p (AcpiRecord.localApicOverride address).encode) :
    MADTEntry.read mem ⟨.localApicOverride, p⟩ = some (.localApicOverride address) := by
  have h4 : mem.Holds (p + 4) (leBytes 8 address.toNat) := (Mem.holds_append.mp h).2
  simp only [MADTEntry.read, MADTEntry.u64, EntryKind.struct, offset_localApicOverrideEntry,
    ofNat_u64 h4]

/-- The flags are read from the high byte of the flags and the line, the line from the byte behind
the record. -/
lemma read_localApicNonmaskable_iff {processorId lint : UInt8} {flags : UInt16}
    (h : mem.Holds p (AcpiRecord.localApicNonmaskable processorId flags lint).encode) :
    MADTEntry.read mem ⟨.localApicNonmaskable, p⟩ =
        some (.localApicNonmaskable processorId flags lint) ↔
      flags.toNat = 257 * lint.toNat ∧ mem (p + 6) = lint := by
  obtain ⟨⟨-, -, hprocessor, -⟩, -, hhigh, hlint, -⟩ := Mem.holds_append.mp h
  have h2 : mem (p + 2) = processorId := hprocessor
  have hflags : flags.toNat / 256 < 256 := Nat.div_lt_of_lt_mul flags.toNat_lt
  have h4 : (mem (p + 4)).toNat = flags.toNat / 256 := by
    rw [show mem (p + 4) = _ from hhigh]
    exact UInt8.toNat_ofNat_of_lt' hflags
  have h5 : mem (p + 5) = lint := hlint
  have hread : mem.readLE 2 (p + 4) = flags.toNat / 256 + 256 * lint.toNat := by
    rw [Mem.readLE, Mem.readLE, Mem.readLE, h4, show p + 4 + 1 = p + 5 from rfl, h5]
    rfl
  have hbyte : lint.toNat < 2 ^ 8 := lint.toNat_lt
  simp only [MADTEntry.read, MADTEntry.u8, MADTEntry.u16, EntryKind.struct,
    offset_localApicNonmaskableEntry, ofNat_u8 h2, ofNat_u8 rfl, Option.some.injEq,
    AcpiRecord.localApicNonmaskable.injEq, true_and, ofNat_u16_eq_iff]
  rw [hread]
  refine and_congr_left fun _ => ?_
  omega

/-- The fields are read from the halves of neighbouring fields. -/
lemma read_localx2Apic_iff {x2apicId flags processorUid : UInt32}
    (h : mem.Holds p (AcpiRecord.localx2Apic x2apicId flags processorUid).encode) :
    MADTEntry.read mem ⟨.localx2Apic, p⟩ = some (.localx2Apic x2apicId flags processorUid) ↔
      x2apicId = 0 ∧ flags = 0 ∧ processorUid = 0 := by
  -- the header and the reserved field are one number more
  have hhead : ([9, 16, 0, 0] : List UInt8) = leBytes 4 4105 := by decide
  rw [AcpiRecord.encode, hhead] at h
  obtain ⟨h0, hrest⟩ := Mem.holds_append.mp h
  obtain ⟨h4, hrest'⟩ := Mem.holds_append.mp hrest
  obtain ⟨h8, h12⟩ := Mem.holds_append.mp hrest'
  have hid : mem.readLE 4 (p + 2) = 65536 * (x2apicId.toNat % 65536) :=
    (readLE_between (Mem.holds_append.mpr ⟨h0, h4⟩)).trans (Nat.zero_add _)
  have hflags : mem.readLE 4 (p + 6) =
      x2apicId.toNat / 65536 % 65536 + 65536 * (flags.toNat % 65536) :=
    readLE_between (Mem.holds_append.mpr ⟨h4, h8⟩)
  have huid : mem.readLE 4 (p + 10) =
      flags.toNat / 65536 % 65536 + 65536 * (processorUid.toNat % 65536) :=
    readLE_between (Mem.holds_append.mpr ⟨h8, h12⟩)
  simp only [MADTEntry.read, MADTEntry.u32, EntryKind.struct, offset_localx2ApicEntry,
    Option.some.injEq, AcpiRecord.localx2Apic.injEq, ofNat_u32_eq_iff]
  rw [hid, hflags, huid, ← UInt32.toNat_inj, ← UInt32.toNat_inj, ← UInt32.toNat_inj]
  constructor
  · rintro ⟨hid', hflags', huid'⟩
    have hzero := eq_zero_of_shifted x2apicId.toNat_lt hid'
    rw [hzero, Nat.zero_div, Nat.zero_mod, Nat.zero_add] at hflags'
    have hzero' := eq_zero_of_shifted flags.toNat_lt hflags'
    rw [hzero', Nat.zero_div, Nat.zero_mod, Nat.zero_add] at huid'
    exact ⟨hzero, hzero', eq_zero_of_shifted processorUid.toNat_lt huid'⟩
  · rintro ⟨hzero, hzero', hzero''⟩
    rw [hzero, hzero', hzero'']
    exact ⟨rfl, rfl, rfl⟩

end Read

/-- **When the fields of a record are read as they were written.** -/
lemma read_eq_some_iff {mem : Mem} {p : ℕ} {r : AcpiRecord} (h : mem.Holds p r.encode) :
    MADTEntry.read mem ⟨r.kind, p⟩ = some r ↔ r.Agrees (mem (p + 6)) := by
  cases r with
  | localApic => exact iff_of_true (read_localApic h) trivial
  | ioApic => exact iff_of_true (read_ioApic h) trivial
  | ioApicOverride => exact iff_of_true (read_ioApicOverride h) trivial
  | localApicNonmaskable => exact read_localApicNonmaskable_iff h
  | localApicOverride => exact iff_of_true (read_localApicOverride h) trivial
  | localx2Apic => exact read_localx2Apic_iff h

/-- **Which records are decoded.**  The entry that the walk yields for a record of the types 0, 1, 2
or 5 always reads as the record was written; for the types 4 and 9 it does only for the
values in `Agrees`. -/
theorem madt_decodes_iff (T : MADT) (r : AcpiRecord) (ptr next : ℕ) (e : MADTEntry)
    (hbytes : T.mem.Holds ptr r.encode) (hturn : T.turn ptr = .yielded e next) :
    e.read T.mem = some r ↔ r.Agrees (T.mem (ptr + 6)) := by
  obtain ⟨-, hkind, -, haddr, -⟩ := MADT.turn_eq_yielded.mp hturn
  have hkind' : e.kind = r.kind :=
    Option.some.inj (hkind.symm.trans (AcpiRecord.entryKind_of_holds hbytes))
  obtain rfl : e = ⟨r.kind, ptr⟩ := by rw [← hkind', ← haddr]
  exact read_eq_some_iff hbytes

/-- The record of a processor. -/
def sampleLocalApic : AcpiRecord := .localApic 1 2 1

theorem madt_decodes_localApic :
    MADTEntry.read (MADT.ofBytes sampleLocalApic.encode).mem ⟨.localApic, 0x102c⟩ =
      some sampleLocalApic := by
  have hturn : (MADT.ofBytes sampleLocalApic.encode).turn 0x102c =
      .yielded ⟨.localApic, 0x102c⟩ 0x1034 :=
    MADT.turn_of_kind (by decide +kernel) (by decide +kernel) (by decide)
  exact (madt_decodes_iff _ sampleLocalApic _ _ _ (by decide +kernel) hturn).mpr trivial

/-- The line 1 of all processors, in a table of its own. -/
def sampleNmi : AcpiRecord := .localApicNonmaskable 0xff 5 1

/-- A processor with a large id. -/
def sampleX2Apic : AcpiRecord := .localx2Apic 0x100 1 7

/-- The flags 5 and the line 1 are read as 256 and 0; a processor is read with the id
`0x1000000`. -/
theorem madt_decodes_wrong :
    ((MADT.ofBytes sampleNmi.encode).mem.Holds 0x102c sampleNmi.encode ∧
      (MADT.ofBytes sampleNmi.encode).turn 0x102c =
        .yielded ⟨.localApicNonmaskable, 0x102c⟩ 0x1032 ∧
      MADTEntry.read (MADT.ofBytes sampleNmi.encode).mem ⟨.localApicNonmaskable, 0x102c⟩ =
        some (.localApicNonmaskable 0xff 256 0)) ∧
    (MADT.ofBytes sampleX2Apic.encode).mem.Holds 0x102c sampleX2Apic.encode ∧
      (MADT.ofBytes sampleX2Apic.encode).turn 0x102c = .yielded ⟨.localx2Apic, 0x102c⟩ 0x103c ∧
      MADTEntry.read (MADT.ofBytes sampleX2Apic.encode).mem ⟨.localx2Apic, 0x102c⟩ =
        some (.localx2Apic 0x1000000 0x10000 0x70000) := by
  refine ⟨⟨by decide +kernel, ?_, by decide +kernel⟩, by decide +kernel, ?_, by decide +kernel⟩
  · exact MADT.turn_of_kind (by decide +kernel) (by decide +kernel) (by decide)
  · exact MADT.turn_of_kind (by decide +kernel) (by decide +kernel) (by decide)

end Acpi

end Titanium
