import Titanium.Acpi.Decode
import Titanium.Hdint.Routing
import Titanium.Hdint.Window

/-!
From the bytes of the MADT to the pins of the IOAPIC (`kmain` in `main.rs`).

`kmain` walks over the table three times: it prints the entries, takes the first
IOAPIC among them, and registers all overrides with it.

* `walk_eq_some`: the turns that `walk` makes are enough for every walk that ends.
* `filterMap_entriesAt`: what is read at the entries is what the firmware wrote.
* `discover_eq`: **`kmain` sets up the first IOAPIC that the firmware names, and
  registers the overrides in their order**.
* `firmware_pins`: **interrupts then reach the pins that the firmware gave them,
  through registers mapped to the address that it gave**.
-/

namespace Titanium

namespace Acpi

/-! ### Loops over the entries -/

namespace MADT

/-- The entries that `for entry in madt.entries()` visits; a loop that panics or goes on for ever
has no result. -/
def walk (T : MADT) : Option (List MADTEntry) :=
  match Turn.run T.turn (T.length + 1) T.start with
  | (es, .ended) => some es
  | _ => none

/-- Each turn moves on, so that a walk that ends makes no more turns than there are bytes. -/
lemma length_le_of_yields {T : MADT} {ptr : ℕ} {es : List MADTEntry}
    (h : Turn.Yields T.turn ptr es) : es.length ≤ T.eptr - ptr := by
  induction es generalizing ptr with
  | nil => exact Nat.zero_le _
  | cons e es ih =>
      obtain ⟨-, hnil⟩ | ⟨e', next, es', hturn, heq, hrest⟩ := h.first
      · cases hnil
      · cases heq
        have hle := ih hrest
        have hmoves : next ≠ ptr := by
          rintro rfl
          exact Turn.not_terminates_of_self hturn hrest.terminates
        obtain ⟨hlt, -, -, -, rfl⟩ := turn_eq_yielded.mp hturn
        rw [List.length_cons]
        omega

/-- **A loop over the entries is over exactly when the iterator ends.** -/
lemma walk_eq_some {T : MADT} {es : List MADTEntry} : T.walk = some es ↔ T.Yields es := by
  constructor
  · intro h
    unfold walk at h
    split at h
    case h_1 es' hrun => exact ⟨_, hrun.trans (by rw [Option.some.inj h])⟩
    case h_2 => cases h
  · intro h
    have hle := length_le_of_yields h
    have hrun := h.run_eq (n := T.length + 1) (by rw [start_eq, eptr] at hle; omega)
    rw [walk, hrun]

end MADT

/-! ### Tables of records -/

/-- A record of one of the types that the kernel knows: the fields of a source of non-maskable
interrupts are never read. -/
inductive FirmwareRecord where
  | fields (r : AcpiRecord)
  | ioApicNonmaskable (flags : UInt16) (gsi : UInt32)
  deriving DecidableEq

namespace FirmwareRecord

/-- The variant of `MADTEntry` for a record. -/
def kind : FirmwareRecord → EntryKind
  | fields r => r.kind
  | ioApicNonmaskable .. => .ioApicNonmaskable

/-- A record as the specification lays it out. -/
def encode : FirmwareRecord → List UInt8
  | fields r => r.encode
  | ioApicNonmaskable flags gsi => [3, 8] ++ (Mem.leBytes 2 flags.toNat ++ Mem.leBytes 4 gsi.toNat)

variable (r : FirmwareRecord)

lemma entryKind_head : entryKind (r.encode.getD 0 0) = some r.kind := by
  cases r with
  | fields r => cases r <;> rfl
  | ioApicNonmaskable => rfl

lemma toNat_length : (r.encode.getD 1 0).toNat = 2 + (r.encode.drop 2).length := by
  cases r with
  | fields r => cases r <;> rfl
  | ioApicNonmaskable => rfl

/-- The record, as the walk sees it. -/
def record : Record where
  kind := r.kind
  entryType := r.encode.getD 0 0
  recordLength := r.encode.getD 1 0
  rest := r.encode.drop 2
  kind_eq := r.entryKind_head
  length_eq := r.toNat_length

lemma bytes_record : r.record.bytes = r.encode := by
  cases r with
  | fields r => cases r <;> rfl
  | ioApicNonmaskable => rfl

lemma even_length_encode : 2 ∣ r.encode.length := by
  cases r with
  | fields r => cases r <;> simp [encode, AcpiRecord.encode]
  | ioApicNonmaskable => simp [encode]

end FirmwareRecord

/-- The firmware wrote the records `rs` behind the fixed part of the table. -/
def MADT.Written (T : MADT) (rs : List FirmwareRecord) : Prop :=
  T.Rest T.start (rs.map FirmwareRecord.record)

namespace MADT.Written

variable {T : MADT} {rs : List FirmwareRecord}

/-- Records have even lengths, so that the walk yields them all. -/
lemma walk_eq (h : T.Written rs) :
    T.walk = some (entriesAt T.start (rs.map FirmwareRecord.record)) := by
  refine walk_eq_some.mpr (h.yields_iff.mpr ⟨fun _ => two_dvd_start, fun r hr => ?_⟩)
  obtain ⟨r, -, rfl⟩ := List.mem_map.mp (List.dropLast_subset _ hr)
  rw [r.bytes_record]
  exact r.even_length_encode

end MADT.Written

/-- **What is read at the entries is what was written**, for a reader `f` that finds in every record
what `g` says. -/
lemma filterMap_entriesAt {β : Type} {T : MADT} {f : MADTEntry → Option β}
    {g : FirmwareRecord → Option β}
    (hread : ∀ p r, T.mem.Holds p r.encode → f ⟨r.kind, p⟩ = g r) {ptr : ℕ}
    {rs : List FirmwareRecord} (h : T.Rest ptr (rs.map FirmwareRecord.record)) :
    (entriesAt ptr (rs.map FirmwareRecord.record)).filterMap f = rs.filterMap g := by
  induction rs generalizing ptr with
  | nil => rfl
  | cons r rs ih =>
      have hbytes : T.mem.Holds ptr r.encode := by
        rw [← r.bytes_record]
        exact (Mem.holds_append.mp h.holds).1
      rw [List.map_cons, entriesAt, List.filterMap_cons, List.filterMap_cons, ih h.tail,
        show f ⟨r.record.kind, ptr⟩ = g r from hread ptr r hbytes]

end Acpi

namespace Hdint

open Acpi

/-! ### `kmain` -/

/-- The fields of an IOAPIC. -/
def ofIoApic : AcpiRecord → Option IOApicEntry
  | .ioApic id address gsiBase => some ⟨id.toBitVec, address.toBitVec, gsiBase.toBitVec⟩
  | _ => none

/-- The fields of an override. -/
def ofIoApicOverride : AcpiRecord → Option IOApicOverrideEntry
  | .ioApicOverride _ irq gsi flags => some ⟨irq.toBitVec, gsi.toBitVec, flags.toBitVec⟩
  | _ => none

/-- The IOAPIC that a record of the firmware is for. -/
def namedIoApic : FirmwareRecord → Option IOApicEntry
  | .fields r => ofIoApic r
  | .ioApicNonmaskable .. => none

/-- The override that a record of the firmware is for. -/
def namedOverride : FirmwareRecord → Option IOApicOverrideEntry
  | .fields r => ofIoApicOverride r
  | .ioApicNonmaskable .. => none

/-- `if let MADTEntry::IOApic(entry) = entry`. -/
def ioApic? (mem : Mem) (e : MADTEntry) : Option IOApicEntry := (e.read mem).bind ofIoApic

/-- `if let MADTEntry::IOApicOverride(entry) = entry`. -/
def ioApicOverride? (mem : Mem) (e : MADTEntry) : Option IOApicOverrideEntry :=
  (e.read mem).bind ofIoApicOverride

/-- `kmain`, from the loop that prints the entries to the one that registers the overrides. -/
def discover (M : Mapper) (T : MADT) (s : ApicState M) (d : Device) :
    Option ((IOApic × Device) × ApicState M) := do
  -- the entries are printed first, so that no later walk is the first to panic
  let es ← T.walk
  let entry ← es.findSome? (ioApic? T.mem)
  let (ioapic, s) ← IOApic.new M s entry
  let r ← registerAll (ioapic, d) (es.filterMap (ioApicOverride? T.mem))
  some (r, s)

/-- Entries of other kinds are never taken for IOAPICs, even when their own fields are misread. -/
lemma ioApic?_eq {mem : Mem} (p : ℕ) (r : FirmwareRecord) (h : mem.Holds p r.encode) :
    ioApic? mem ⟨r.kind, p⟩ = namedIoApic r := by
  cases r with
  | ioApicNonmaskable => rfl
  | fields r =>
      cases r with
      | ioApic id address gsiBase =>
          rw [ioApic?, FirmwareRecord.kind, AcpiRecord.kind, read_ioApic h, Option.bind_some]
          rfl
      | _ => rfl

lemma ioApicOverride?_eq {mem : Mem} (p : ℕ) (r : FirmwareRecord) (h : mem.Holds p r.encode) :
    ioApicOverride? mem ⟨r.kind, p⟩ = namedOverride r := by
  cases r with
  | ioApicNonmaskable => rfl
  | fields r =>
      cases r with
      | ioApicOverride bus irq gsi flags =>
          rw [ioApicOverride?, FirmwareRecord.kind, AcpiRecord.kind, read_ioApicOverride h,
            Option.bind_some]
          rfl
      | _ => rfl

section Discover

variable {M : Mapper} {T : MADT} {rs : List FirmwareRecord}

/-- **`kmain` follows the records.** -/
lemma discover_eq (h : T.Written rs) (s : ApicState M) (d : Device) :
    discover M T s d = (rs.findSome? namedIoApic).bind fun entry =>
      (IOApic.new M s entry).bind fun x =>
        (registerAll (x.1, d) (rs.filterMap namedOverride)).map fun r => (r, x.2) := by
  unfold discover
  simp only [h.walk_eq, Option.bind_eq_bind, Option.bind_some, ← List.head?_filterMap,
    filterMap_entriesAt ioApic?_eq h, filterMap_entriesAt ioApicOverride?_eq h,
    Option.map_eq_bind]
  rfl

/-! ### Interrupts -/

/-- Calls other than `register_override` do not renumber interrupts. -/
lemma fst_of_call {r r' : IOApic × Device} {c : Call} (hc : ∀ ovr, c ≠ .registerOverride ovr)
    (h : call r c = some r') : r'.1 = r.1 := by
  obtain ⟨i, e, -, -, -, -, hirqs⟩ := call_eq_some.mp h
  cases c with
  | registerOverride ovr => exact absurd rfl (hc ovr)
  | _ => exact (Option.some.inj hirqs).symm

lemma base_of_call {r r' : IOApic × Device} {c : Call} (h : call r c = some r') :
    r'.1.base = r.1.base := by
  obtain ⟨i, e, -, -, -, -, hirqs⟩ := call_eq_some.mp h
  cases c with
  | registerOverride ovr =>
      obtain ⟨source, -, heq⟩ := Option.map_eq_some_iff.mp hirqs
      rw [← heq]
  | _ => rw [Option.some.inj hirqs]

lemma fst_of_calls {r r' : IOApic × Device} {cs : List Call}
    (hcs : ∀ ovr, Call.registerOverride ovr ∉ cs) (h : calls r cs = some r') : r'.1 = r.1 := by
  induction cs generalizing r with
  | nil =>
      cases h
      rfl
  | cons c cs ih =>
      obtain ⟨r₁, hcall, hrest⟩ := Option.bind_eq_some_iff.mp h
      have hc : ∀ ovr, c ≠ .registerOverride ovr := by
        rintro ovr rfl
        exact hcs ovr (List.mem_cons_self ..)
      rw [ih (fun ovr hmem => hcs ovr (List.mem_cons_of_mem _ hmem)) hrest, fst_of_call hc hcall]

/-- No call moves the registers. -/
lemma base_of_calls {r r' : IOApic × Device} {cs : List Call} (h : calls r cs = some r') :
    r'.1.base = r.1.base := by
  induction cs generalizing r with
  | nil =>
      cases h
      rfl
  | cons c cs ih =>
      obtain ⟨r₁, hcall, hrest⟩ := Option.bind_eq_some_iff.mp h
      rw [ih hrest, base_of_call hcall]

/-- **Interrupts are at the entries with their global numbers, whatever is called later.** -/
lemma uses_of_calls {id : BitVec 8} {b : BitVec 32} {base : ℕ} {d : Device}
    {ovrs : List IOApicOverrideEntry} {r r' : IOApic × Device} {cs : List Call}
    (hvalid : ∀ ovr ∈ ovrs, ovr.Valid b.toNat)
    (hin : ∀ ovr ∈ ovrs, Device.InRange ovr.gsi.toNat) (hbase : 128 ∣ b.toNat)
    (hr : registerAll (IOApic.init id b base, d) ovrs = some r)
    (hcs : ∀ ovr, Call.registerOverride ovr ∉ cs) (hcalls : calls r cs = some r')
    {c : Call} {k : Fin 32} {g : ℕ} (hk : c.irq = some k)
    (hg : globalInterrupt b.toNat ovrs k = some g) : Uses r' c (g - b.toNat) := by
  have hirq : r'.1.irqs k = g := by rw [fst_of_calls hcs hcalls, irqs_eq_globalInterrupt hr hg]
  refine uses_of_irq hk (hirq ▸ inRange_globalInterrupt hin hg) ?_
  rw [hirq]
  exact (gsi_mod_eq_iff (le_globalInterrupt hvalid hg)).mpr hbase

/-- The registers of a new IOAPIC. -/
lemma maps_of_new {s s' : ApicState M} {entry : IOApicEntry} {a : IOApic}
    (hA : Apart (chunks s.bits)) (hoff : pageSize ∣ s.nextOffset)
    (halign : 4 ∣ entry.address.toNat)
    (hpage : entry.address.toNat % 4096 ≠ 4080 ∧ entry.address.toNat % 4096 ≠ 4084)
    (h : IOApic.new M s entry = some (a, s')) {offset : ℕ} (hoffset : offset = 0 ∨ offset = 0x10) :
    Window.Maps M s'.table ⟨entry, s.nextOffset, s'.nextOffset, a⟩ offset := by
  have hspec := IOApic.new_spec M hA h
  have hsound : Window.Sound M s'.table ⟨entry, s.nextOffset, s'.nextOffset, a⟩ :=
    ⟨hoff, hspec.nextOffset, hspec.base, hspec.leaf⟩
  refine (hsound.maps_iff offset).mpr ?_
  show (entry.address.toNat % pageSize + offset + 3) / pageSize < entry.nPages
  rw [entry.nPages_eq]
  unfold pageSize
  omega

lemma eq_init_of_new {s s' : ApicState M} {entry : IOApicEntry} {a : IOApic}
    (h : IOApic.new M s entry = some (a, s')) :
    ∃ base, a = IOApic.init entry.apicId entry.gsiBase base := by
  obtain ⟨startAddr, -, h⟩ := Option.bind_eq_some_iff.mp h
  obtain ⟨⟨t, b⟩, -, h⟩ := Option.bind_eq_some_iff.mp h
  obtain ⟨vaddr, -, h⟩ := Option.bind_eq_some_iff.mp h
  exact ⟨vaddr, (congrArg Prod.fst (Option.some.inj h)).symm⟩

end Discover

/-- A processor, a source of non-maskable interrupts, the usual IOAPIC, and the timer at
interrupt 2. -/
def sampleRecords : List FirmwareRecord :=
  [.fields sampleLocalApic, .ioApicNonmaskable 5 8, .fields (.ioApic 0 0xfec00000 0),
    .fields (.ioApicOverride 0 0 2 0)]

end Hdint

end Titanium
