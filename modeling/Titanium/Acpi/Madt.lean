import Titanium.Lib.Coroutine
import Titanium.Lib.Memory
import Titanium.Lib.ReprC

/-!
The walk over the records of the MADT (`acpi/madt.rs`).

`MADT::entries` starts behind the fixed part of the table and moves on by the
length that each record gives for itself, until it has reached the end of the
table.  It trusts these lengths: a record may be too short for its Rust struct,
or have the length zero.

* `turn`: one turn of the coroutine.
* `madt_entries_iff`: **of a well-formed table the records are yielded, one by
  one, exactly when no odd length misaligns a reference**.
* `madt_walk_terminates_tfae`: **the walk ends exactly when it finds no record of
  length zero**.
* `Fits`: the contents of a table of which no record reaches behind the end.
* `madt_walk_inside_iff`: **the walk stays inside the table exactly when the bytes of
  the table fit**; in a well-formed table, when behind the start of each record up to
  the first odd one there are as many bytes as its struct has.
-/

namespace Titanium

/-! ### The structs -/

namespace Acpi

/-- `Header`. -/
def header : CStruct :=
  ⟨none, [.bytes 4, .u32, .u8, .u8, .bytes 6, .bytes 8, .u32, .u32, .u32]⟩

/-- `MADT`. -/
def madt : CStruct := ⟨none, [header.type, .u32, .u32]⟩

/-- `MADTEntryHeader`. -/
def madtEntryHeader : CStruct := ⟨some 2, [.u8, .u8]⟩

/-- `LocalApicEntry`. -/
def localApicEntry : CStruct := ⟨some 2, [madtEntryHeader.type, .u8, .u8, .u32]⟩

/-- `IOApicEntry`. -/
def ioApicEntry : CStruct := ⟨some 2, [madtEntryHeader.type, .u8, .u8, .u32, .u32]⟩

/-- `IOApicOverrideEntry`. -/
def ioApicOverrideEntry : CStruct := ⟨some 2, [madtEntryHeader.type, .u8, .u8, .u32, .u16]⟩

/-- `IOApicNonmaskableEntry`. -/
def ioApicNonmaskableEntry : CStruct := ⟨some 2, [madtEntryHeader.type, .u8, .u8, .u16, .u32]⟩

/-- `LocalApicNonmaskableEntry`. -/
def localApicNonmaskableEntry : CStruct := ⟨some 2, [madtEntryHeader.type, .u8, .u16, .u8]⟩

/-- `LocalApicOverrideEntry`. -/
def localApicOverrideEntry : CStruct := ⟨some 2, [madtEntryHeader.type, .u16, .u64]⟩

/-- `Localx2ApicEntry`. -/
def localx2ApicEntry : CStruct := ⟨some 2, [madtEntryHeader.type, .u32, .u32, .u32]⟩

/-- The variants of `MADTEntry`. -/
inductive EntryKind where
  | localApic
  | ioApic
  | ioApicOverride
  | ioApicNonmaskable
  | localApicNonmaskable
  | localApicOverride
  | localx2Apic
  deriving DecidableEq

/-- The struct that a variant refers to. -/
def EntryKind.struct : EntryKind → CStruct
  | .localApic => localApicEntry
  | .ioApic => ioApicEntry
  | .ioApicOverride => ioApicOverrideEntry
  | .ioApicNonmaskable => ioApicNonmaskableEntry
  | .localApicNonmaskable => localApicNonmaskableEntry
  | .localApicOverride => localApicOverrideEntry
  | .localx2Apic => localx2ApicEntry

/-- `MADTEntry`: a reference to a struct at `addr`. -/
structure MADTEntry where
  kind : EntryKind
  addr : ℕ
  deriving DecidableEq

/-- The variant for an `entry_type`. -/
def entryKind (entryType : UInt8) : Option EntryKind :=
  match entryType with
  | 0 => some .localApic
  | 1 => some .ioApic
  | 2 => some .ioApicOverride
  | 3 => some .ioApicNonmaskable
  | 4 => some .localApicNonmaskable
  | 5 => some .localApicOverride
  | 9 => some .localx2Apic
  | _ => none

lemma EntryKind.align_struct (kind : EntryKind) : kind.struct.align = 2 := by
  cases kind <;> rfl

lemma EntryKind.two_le_size (kind : EntryKind) : 2 ≤ kind.struct.size := by
  cases kind <;> decide

/-! ### `MADT::entries` -/

/-- A `&MADT`, with the memory it lies in.  The table does not reach the end of the address space,
so that no pointer of the walk overflows. -/
structure MADT where
  mem : Mem
  base : ℕ
  aligned : madt.align ∣ base
  fits : base + 2 ^ 32 + 2 ^ 8 ≤ 2 ^ 64

namespace MADT

variable (T : MADT)

/-- `self.header.length`. -/
def length : ℕ := T.mem.readLE 4 (T.base + madt.offset 0 + header.offset 1)

/-- `(self as *const MADT).add(1)`. -/
def start : ℕ := T.base + madt.size

/-- `(self as *const MADT).byte_add(self.header.length as usize)`. -/
def eptr : ℕ := T.base + T.length

/-- `hdr.entry_type`. -/
def entryType (ptr : ℕ) : UInt8 := T.mem (ptr + madtEntryHeader.offset 0)

/-- `hdr.record_length`. -/
def recordLength (ptr : ℕ) : ℕ := (T.mem (ptr + madtEntryHeader.offset 1)).toNat

/-- One turn of the coroutine of `MADT::entries`.  An unknown type is `unimplemented!`, and a
reference that is not aligned panics. -/
def turn (ptr : ℕ) : Turn MADTEntry ℕ :=
  if ptr < T.eptr then
    match entryKind (T.entryType ptr) with
    | none => .panicked
    | some kind =>
        if kind.struct.align ∣ ptr then .yielded ⟨kind, ptr⟩ (ptr + T.recordLength ptr)
        else .panicked
  else .ended

/-- The pointers that the walk comes to. -/
def Reaches (ptr : ℕ) : Prop := Turn.Reaches T.turn T.start ptr

/-- The iterator yields `es`, and then ends. -/
def Yields (es : List MADTEntry) : Prop := Turn.Yields T.turn T.start es

/-- The walk is over after finitely many turns. -/
def Terminates : Prop := Turn.Terminates T.turn T.start

variable {T} {ptr next : ℕ} {e : MADTEntry}

lemma start_eq : T.start = T.base + 44 := rfl

lemma eptr_lt : T.eptr < T.base + 2 ^ 32 :=
  Nat.add_lt_add_left (Mem.readLE_lt 4) _

lemma turn_eq_yielded : T.turn ptr = .yielded e next ↔
    ptr < T.eptr ∧ entryKind (T.entryType ptr) = some e.kind ∧ 2 ∣ ptr ∧ e.addr = ptr ∧
      next = ptr + T.recordLength ptr := by
  unfold turn
  cases hkind : entryKind (T.entryType ptr) with
  | none => split_ifs <;> simp
  | some kind =>
      simp only [kind.align_struct]
      split_ifs with hlt hdvd
      · simp only [Turn.yielded.injEq, Option.some.injEq, hlt, hdvd, true_and]
        constructor
        · rintro ⟨rfl, rfl⟩
          exact ⟨rfl, rfl, rfl⟩
        · rintro ⟨rfl, rfl, rfl⟩
          exact ⟨rfl, rfl⟩
      · simp [hdvd]
      · simp [hlt]

lemma turn_of_kind {kind : EntryKind} (hlt : ptr < T.eptr)
    (hkind : entryKind (T.entryType ptr) = some kind) (hdvd : 2 ∣ ptr) :
    T.turn ptr = .yielded ⟨kind, ptr⟩ (ptr + T.recordLength ptr) :=
  turn_eq_yielded.mpr ⟨hlt, hkind, hdvd, rfl, rfl⟩

/-- **The walk stays behind the fixed part of the table, and in the address space.** -/
lemma Reaches.bounds (h : T.Reaches ptr) : T.start ≤ ptr ∧ ptr < 2 ^ 64 := by
  have hfits := T.fits
  induction h with
  | refl =>
      rw [start_eq]
      omega
  | @tail ptr next _ hnext ih =>
      obtain ⟨e, hturn⟩ := hnext
      obtain ⟨hlt, -, -, -, rfl⟩ := turn_eq_yielded.mp hturn
      have hlen : T.recordLength ptr < 2 ^ 8 := UInt8.toNat_lt _
      have heptr := eptr_lt (T := T)
      omega

lemma turn_of_unknown (hlt : ptr < T.eptr) (hkind : entryKind (T.entryType ptr) = none) :
    T.turn ptr = .panicked := by
  unfold turn
  rw [if_pos hlt, hkind]

lemma turn_of_end (hle : T.eptr ≤ ptr) : T.turn ptr = .ended := if_neg (not_lt.mpr hle)

lemma turn_of_odd {kind : EntryKind} (hlt : ptr < T.eptr)
    (hkind : entryKind (T.entryType ptr) = some kind) (hdvd : ¬ 2 ∣ ptr) :
    T.turn ptr = .panicked := by
  unfold turn
  rw [if_pos hlt, hkind]
  simp only [kind.align_struct, if_neg hdvd]

end MADT

/-! ### Well-formed tables -/

/-- A record: a type that is handled, its own length, and the rest. -/
structure Record where
  kind : EntryKind
  entryType : UInt8
  recordLength : UInt8
  rest : List UInt8
  kind_eq : entryKind entryType = some kind
  length_eq : recordLength.toNat = 2 + rest.length

def Record.bytes (r : Record) : List UInt8 := r.entryType :: r.recordLength :: r.rest

lemma Record.length_bytes (r : Record) : r.bytes.length = r.recordLength.toNat := by
  rw [r.length_eq, bytes, List.length_cons, List.length_cons]
  ring

/-- One entry for each record, the first of them at `ptr`. -/
def entriesAt : ℕ → List Record → List MADTEntry
  | _, [] => []
  | ptr, r :: rs => ⟨r.kind, ptr⟩ :: entriesAt (ptr + r.bytes.length) rs

namespace MADT

variable {T : MADT} {ptr : ℕ} {r : Record} {rs : List Record}

/-- From `ptr` on, the table is a concatenation of records. -/
structure Rest (T : MADT) (ptr : ℕ) (rs : List Record) : Prop where
  holds : T.mem.Holds ptr (rs.flatMap Record.bytes)
  end_eq : T.eptr = ptr + (rs.flatMap Record.bytes).length

namespace Rest

lemma head (h : T.Rest ptr (r :: rs)) : ptr < T.eptr ∧ entryKind (T.entryType ptr) = some r.kind ∧
    T.recordLength ptr = r.bytes.length ∧ ptr + r.bytes.length ≤ T.eptr := by
  have hend := h.end_eq
  have hlen := r.length_bytes
  have hpos := r.length_eq
  obtain ⟨hbytes, -⟩ := Mem.holds_append.mp h.holds
  obtain ⟨htype, hlength, -⟩ := hbytes
  rw [List.flatMap_cons, List.length_append] at hend
  refine ⟨by omega, ?_, ?_, by omega⟩
  · rw [show T.entryType ptr = r.entryType from htype]
    exact r.kind_eq
  · rw [hlen]
    exact congrArg UInt8.toNat hlength

lemma tail (h : T.Rest ptr (r :: rs)) : T.Rest (ptr + r.bytes.length) rs := by
  refine ⟨(Mem.holds_append.mp h.holds).2, ?_⟩
  rw [h.end_eq, List.flatMap_cons, List.length_append, Nat.add_assoc]

lemma turn_nil (h : T.Rest ptr []) : T.turn ptr = .ended := if_neg (by rw [h.end_eq]; simp)

lemma turn_cons (h : T.Rest ptr (r :: rs)) (hdvd : 2 ∣ ptr) :
    T.turn ptr = .yielded ⟨r.kind, ptr⟩ (ptr + r.bytes.length) := by
  obtain ⟨hlt, hkind, hlen, -⟩ := h.head
  rw [turn_of_kind hlt hkind hdvd, hlen]

/-- The walk goes on from `ptr` to the end when the records keep it aligned. -/
lemma yields_iff (h : T.Rest ptr rs) : Turn.Yields T.turn ptr (entriesAt ptr rs) ↔
    (rs ≠ [] → 2 ∣ ptr) ∧ ∀ r ∈ rs.dropLast, 2 ∣ r.bytes.length := by
  induction rs generalizing ptr with
  | nil => exact ⟨fun _ => ⟨fun hne => absurd rfl hne, nofun⟩, fun _ => Turn.yields_nil h.turn_nil⟩
  | cons r rs ih =>
      obtain ⟨hlt, hkind, -⟩ := h.head
      by_cases hdvd : 2 ∣ ptr
      · rw [entriesAt, Turn.yields_cons (h.turn_cons hdvd), ih h.tail]
        cases rs with
        | nil => simp [hdvd]
        | cons r' rs =>
            rw [List.dropLast_cons_cons, List.forall_mem_cons, Nat.dvd_add_right hdvd]
            simp [hdvd]
      · refine ⟨fun hy => absurd hy (Turn.not_yields (turn_of_odd hlt hkind hdvd)), fun hr => ?_⟩
        exact absurd (hr.1 (List.cons_ne_nil r rs)) hdvd

lemma eq_cons (h : T.Rest ptr rs) (hlt : ptr < T.eptr) : ∃ r rs', rs = r :: rs' := by
  cases rs with
  | nil =>
      rw [h.end_eq] at hlt
      exact absurd hlt (by simp)
  | cons r rs => exact ⟨r, rs, rfl⟩

/-- The walk comes to the records of a well-formed table only. -/
lemma reaches {records : List Record} (h : T.Rest T.start records) (hreach : T.Reaches ptr) :
    ∃ rs, rs <:+ records ∧ T.Rest ptr rs := by
  induction hreach with
  | refl => exact ⟨records, List.suffix_rfl, h⟩
  | @tail ptr next _ hnext ih =>
      obtain ⟨rs, hsuffix, hrest⟩ := ih
      obtain ⟨e, hturn⟩ := hnext
      obtain ⟨hlt, -, -, -, rfl⟩ := turn_eq_yielded.mp hturn
      obtain ⟨r, rs, rfl⟩ := hrest.eq_cons hlt
      rw [hrest.head.2.2.1]
      exact ⟨rs, (List.suffix_cons r rs).trans hsuffix, hrest.tail⟩

lemma recordLength_ne_zero {records : List Record} (h : T.Rest T.start records)
    (hreach : T.Reaches ptr) (hlt : ptr < T.eptr) : T.recordLength ptr ≠ 0 := by
  obtain ⟨rs, -, hrest⟩ := h.reaches hreach
  obtain ⟨r, rs, rfl⟩ := hrest.eq_cons hlt
  rw [hrest.head.2.2.1, r.length_bytes, r.length_eq]
  omega

end Rest

/-- The first record is aligned. -/
lemma two_dvd_start : 2 ∣ T.start := by
  have h4 : 4 ∣ T.base := T.aligned
  rw [start_eq]
  omega

/-- **Of a well-formed table the iterator yields the records**, one entry for each, in order, and
ends, exactly when the length of every record but the last is even: the structs are
`packed(2)`, so that a reference to one must be even. -/
theorem madt_entries_iff (T : MADT) (records : List Record) (h : T.Rest T.start records) :
    T.Yields (entriesAt T.start records) ↔ ∀ r ∈ records.dropLast, 2 ∣ r.bytes.length := by
  rw [Yields, h.yields_iff]
  exact and_iff_right fun _ => two_dvd_start

/-- A table at `0x1000` with the given bytes behind its fixed part. -/
def ofBytes (bytes : List UInt8) : MADT where
  mem a :=
    if a = 0x1004 then UInt8.ofNat (44 + bytes.length)
    else if 0x102c ≤ a then bytes.getD (a - 0x102c) 0 else 0
  base := 0x1000
  aligned := by decide
  fits := by norm_num

/-- A processor. -/
def processor : Record := ⟨.localApic, 0, 8, [1, 2, 1, 0, 0, 0], rfl, rfl⟩

/-- A processor, with a byte of padding. -/
def paddedProcessor : Record := ⟨.localApic, 0, 9, [1, 2, 1, 0, 0, 0, 0], rfl, rfl⟩

lemma rest_twoProcessors : (ofBytes ([processor, processor].flatMap Record.bytes)).Rest 0x102c
    [processor, processor] :=
  ⟨by decide +kernel, by decide +kernel⟩

theorem madt_entries_twoProcessors :
    (ofBytes ([processor, processor].flatMap Record.bytes)).Yields
      [⟨.localApic, 0x102c⟩, ⟨.localApic, 0x1034⟩] :=
  (madt_entries_iff _ _ rest_twoProcessors).mpr (by decide)

/-- Behind a record of nine bytes the reference to the next one is not aligned. -/
theorem madt_entries_oddLength :
    (ofBytes ([paddedProcessor, processor].flatMap Record.bytes)).Rest 0x102c
        [paddedProcessor, processor] ∧
      Turn.run (ofBytes ([paddedProcessor, processor].flatMap Record.bytes)).turn 2 0x102c =
        ([⟨.localApic, 0x102c⟩], .panicked) ∧
      ¬ (ofBytes ([paddedProcessor, processor].flatMap Record.bytes)).Yields
        (entriesAt 0x102c [paddedProcessor, processor]) := by
  have hrest : (ofBytes ([paddedProcessor, processor].flatMap Record.bytes)).Rest 0x102c
      [paddedProcessor, processor] := ⟨by decide +kernel, by decide +kernel⟩
  refine ⟨hrest, by decide +kernel, fun hy => ?_⟩
  obtain ⟨-, heven⟩ := hrest.yields_iff.mp hy
  exact absurd (heven paddedProcessor (by simp)) (by decide)

/-! ### Termination -/

/-- **The walk ends exactly when every turn comes closer to the end of the table**, and that is when
no record that it comes to has the length zero. -/
theorem madt_walk_terminates_tfae (T : MADT) : List.TFAE [
    T.Terminates,
    ∀ ptr e next, T.Reaches ptr → T.turn ptr = .yielded e next → T.eptr - next < T.eptr - ptr,
    ∀ ptr e next, T.Reaches ptr → T.turn ptr = .yielded e next → T.recordLength ptr ≠ 0] := by
  tfae_have 2 → 1 := fun h => Turn.terminates_of_measure (T.eptr - ·) h
  tfae_have 1 → 3 := by
    intro hend ptr e next hreach hturn hzero
    obtain ⟨-, -, -, -, hnext⟩ := turn_eq_yielded.mp hturn
    rw [hzero, Nat.add_zero] at hnext
    subst hnext
    exact Turn.not_terminates_of_self hturn (hreach.terminates.mp hend)
  tfae_have 3 → 2 := by
    intro h ptr e next hreach hturn
    have hlen := h ptr e next hreach hturn
    obtain ⟨hlt, -, -, -, rfl⟩ := turn_eq_yielded.mp hturn
    omega
  tfae_finish

theorem madt_walk_terminates_twoProcessors :
    (ofBytes ([processor, processor].flatMap Record.bytes)).Terminates := by
  refine ((madt_walk_terminates_tfae _).out 2 0).mp fun ptr e next hreach hturn => ?_
  exact rest_twoProcessors.recordLength_ne_zero hreach (turn_eq_yielded.mp hturn).1

/-- A record of length zero is yielded again and again. -/
theorem madt_walk_zeroLength :
    (ofBytes [0, 0]).turn 0x102c = .yielded ⟨.localApic, 0x102c⟩ 0x102c ∧
      ¬ (ofBytes [0, 0]).Terminates := by
  have hturn : (ofBytes [0, 0]).turn 0x102c = .yielded ⟨.localApic, 0x102c⟩ 0x102c :=
    turn_of_kind (by decide +kernel) (by decide +kernel) (by decide)
  exact ⟨hturn, Turn.not_terminates_of_self hturn⟩

/-! ### Reads -/

/-- The walk reads nothing outside the table: neither the header of a record, nor anything that a
yielded reference covers. -/
def Inside (T : MADT) : Prop :=
  ∀ ptr, T.Reaches ptr → ptr < T.eptr →
    Finset.Ico ptr (ptr + madtEntryHeader.size) ⊆ Finset.Ico T.base (T.base + T.length) ∧
      ∀ e next, T.turn ptr = .yielded e next →
        Finset.Ico e.addr (e.addr + e.kind.struct.size) ⊆ Finset.Ico T.base (T.base + T.length)

/-- The bytes that a turn at `ptr` covers. -/
def covered (T : MADT) (ptr : ℕ) : ℕ :=
  match T.turn ptr with
  | .yielded e _ => e.kind.struct.size
  | _ => madtEntryHeader.size

/-- A byte of the table, read off its last one. -/
lemma subset_table {a n : ℕ} (hstart : T.start ≤ a) (hn : 0 < n) :
    Finset.Ico a (a + n) ⊆ Finset.Ico T.base (T.base + T.length) ↔ a + n ≤ T.eptr := by
  rw [start_eq] at hstart
  rw [Finset.Ico_subset_Ico_iff (by omega), eptr]
  exact and_iff_right (by omega)

lemma covered_of_yielded {e : MADTEntry} {next : ℕ} (h : T.turn ptr = .yielded e next) :
    T.covered ptr = e.kind.struct.size := by
  rw [covered, h]

lemma covered_of_panicked (h : T.turn ptr = .panicked) : T.covered ptr = 2 := by
  rw [covered, h]
  rfl

lemma header_le_covered (T : MADT) (ptr : ℕ) : madtEntryHeader.size ≤ T.covered ptr := by
  unfold covered
  split
  case h_1 e _ _ => exact e.kind.two_le_size
  case h_2 => exact le_rfl

/-- From `ptr` on, the walk reads nothing behind the end of the table. -/
def InsideFrom (T : MADT) (ptr : ℕ) : Prop :=
  ∀ q, Turn.Reaches T.turn ptr q → q < T.eptr → q + T.covered q ≤ T.eptr

lemma inside_iff : T.Inside ↔ T.InsideFrom T.start := by
  refine ⟨fun h ptr hreach hlt => ?_, fun h ptr hreach hlt => ⟨?_, fun e next hturn => ?_⟩⟩
  · have hbounds := (show T.Reaches ptr from hreach).bounds.1
    obtain ⟨hhead, hentry⟩ := h ptr hreach hlt
    cases hturn : T.turn ptr with
    | yielded e next =>
        have hsub := hentry e next hturn
        rw [covered_of_yielded hturn]
        obtain ⟨-, -, -, haddr, -⟩ := turn_eq_yielded.mp hturn
        rw [haddr] at hsub
        exact (subset_table hbounds (by have := e.kind.two_le_size; omega)).mp hsub
    | _ =>
        rw [covered, hturn]
        exact (subset_table hbounds (by decide)).mp hhead
  · have hle := T.header_le_covered ptr
    exact (subset_table hreach.bounds.1 (by decide)).mpr ((Nat.add_le_add_left hle _).trans
      (h ptr hreach hlt))
  · obtain ⟨-, -, -, haddr, -⟩ := turn_eq_yielded.mp hturn
    rw [haddr, subset_table hreach.bounds.1 (by have := e.kind.two_le_size; omega),
      ← covered_of_yielded hturn]
    exact h ptr hreach hlt

lemma insideFrom_ended (hle : T.eptr ≤ ptr) : T.InsideFrom ptr := by
  intro q hreach hlt
  rw [Turn.reaches_stopped (by simp [turn_of_end hle])] at hreach
  omega

lemma insideFrom_panicked (hlt : ptr < T.eptr) (hturn : T.turn ptr = .panicked) :
    T.InsideFrom ptr ↔ ptr + 2 ≤ T.eptr := by
  rw [← covered_of_panicked hturn]
  refine ⟨fun h => h ptr .refl hlt, fun h q hreach _ => ?_⟩
  rw [Turn.reaches_stopped (by simp [hturn])] at hreach
  exact hreach ▸ h

lemma insideFrom_yielded {e : MADTEntry} {next : ℕ} (hturn : T.turn ptr = .yielded e next) :
    T.InsideFrom ptr ↔ ptr + e.kind.struct.size ≤ T.eptr ∧ T.InsideFrom next := by
  obtain ⟨hlt, -⟩ := turn_eq_yielded.mp hturn
  rw [← covered_of_yielded hturn]
  refine ⟨fun h => ⟨h ptr .refl hlt, fun q hreach => h q (.head ⟨e, hturn⟩ hreach)⟩, ?_⟩
  rintro ⟨hfirst, hrest⟩ q hreach hq
  obtain rfl | hreach := (Turn.reaches_yielded hturn).mp hreach
  · exact hfirst
  · exact hrest q hreach hq

/-- A record of length zero is all that the walk ever reads. -/
lemma insideFrom_self {e : MADTEntry} (hturn : T.turn ptr = .yielded e ptr) :
    T.InsideFrom ptr ↔ ptr + e.kind.struct.size ≤ T.eptr := by
  obtain ⟨hlt, -⟩ := turn_eq_yielded.mp hturn
  rw [← covered_of_yielded hturn]
  refine ⟨fun h => h ptr .refl hlt, fun h q hreach hq => ?_⟩
  clear hq
  suffices q = ptr by rwa [this]
  induction hreach with
  | refl => rfl
  | tail _ hnext ih =>
      obtain ⟨e', hturn'⟩ := hnext
      rw [ih, hturn] at hturn'
      cases hturn'
      rfl

/-! ### The bytes of the table -/

/-- The bytes from `ptr` to the end of the table. -/
def bytesFrom (T : MADT) (ptr : ℕ) : List UInt8 :=
  (List.range (T.eptr - ptr)).map fun i => T.mem (ptr + i)

@[simp]
lemma length_bytesFrom : (T.bytesFrom ptr).length = T.eptr - ptr := by
  rw [bytesFrom, List.length_map, List.length_range]

lemma bytesFrom_of_end (hle : T.eptr ≤ ptr) : T.bytesFrom ptr = [] := by
  rw [bytesFrom, Nat.sub_eq_zero_of_le hle, List.range_zero, List.map_nil]

lemma bytesFrom_cons (hlt : ptr < T.eptr) :
    T.bytesFrom ptr = T.mem ptr :: T.bytesFrom (ptr + 1) := by
  rw [bytesFrom, bytesFrom, show T.eptr - ptr = T.eptr - (ptr + 1) + 1 by omega,
    List.range_succ_eq_map, List.map_cons, List.map_map, Nat.add_zero]
  refine congrArg _ (List.map_congr_left fun i _ => ?_)
  rw [Function.comp_apply, Nat.succ_eq_add_one, Nat.add_right_comm, Nat.add_assoc]

/-- The header of a record, and the rest. -/
lemma bytesFrom_head (hle : ptr + 2 ≤ T.eptr) :
    T.bytesFrom ptr = T.entryType ptr :: T.mem (ptr + 1) :: T.bytesFrom (ptr + 2) := by
  rw [bytesFrom_cons (by omega), bytesFrom_cons (by omega)]
  rfl

lemma drop_bytesFrom (n : ℕ) : (T.bytesFrom ptr).drop n = T.bytesFrom (ptr + n) := by
  induction n generalizing ptr with
  | zero => rfl
  | succ n ih =>
      rw [Nat.add_comm n 1, ← Nat.add_assoc]
      by_cases hlt : ptr < T.eptr
      · rw [bytesFrom_cons hlt, Nat.add_comm 1 n, List.drop_succ_cons, ih]
      · rw [bytesFrom_of_end (not_lt.mp hlt), List.drop_nil, bytesFrom_of_end (by omega)]

/-- **The bytes behind an even address are read without reaching behind their end**: there is a
header, and room for the struct of a type that is handled; then the same holds behind the record.
Nothing behind a record of length zero is read, and behind a record of odd length only a header. -/
inductive Fits : List UInt8 → Prop where
  | nil : Fits []
  | unknown {t l : UInt8} {rest : List UInt8} (hkind : entryKind t = none) : Fits (t :: l :: rest)
  | zero {t : UInt8} {rest : List UInt8} {kind : EntryKind} (hkind : entryKind t = some kind)
      (hsize : kind.struct.size ≤ rest.length + 2) : Fits (t :: 0 :: rest)
  | odd {t l : UInt8} {rest : List UInt8} {kind : EntryKind} (hkind : entryKind t = some kind)
      (hsize : kind.struct.size ≤ rest.length + 2) (hodd : ¬ 2 ∣ l.toNat)
      (hhead : ((t :: l :: rest).drop l.toNat).length ≠ 1) : Fits (t :: l :: rest)
  | record {t l : UInt8} {rest : List UInt8} {kind : EntryKind} (hkind : entryKind t = some kind)
      (hsize : kind.struct.size ≤ rest.length + 2) (heven : 2 ∣ l.toNat) (hpos : l ≠ 0)
      (hrest : Fits ((t :: l :: rest).drop l.toNat)) : Fits (t :: l :: rest)

/-- An odd address: the header is read, and the reference panics. -/
lemma insideFrom_odd (hdvd : ¬ 2 ∣ ptr) : T.InsideFrom ptr ↔ T.eptr - ptr ≠ 1 := by
  by_cases hlt : ptr < T.eptr
  · have hturn : T.turn ptr = .panicked := by
      cases hkind : entryKind (T.entryType ptr) with
      | none => exact turn_of_unknown hlt hkind
      | some kind => exact turn_of_odd hlt hkind hdvd
    rw [insideFrom_panicked hlt hturn]
    omega
  · exact iff_of_true (insideFrom_ended (not_lt.mp hlt)) (by omega)

/-- What is read is inside, by induction on the bytes that are left. -/
lemma fits_of_insideFrom (hdvd : 2 ∣ ptr) (h : T.InsideFrom ptr) : Fits (T.bytesFrom ptr) := by
  induction hn : T.eptr - ptr using Nat.strong_induction_on generalizing ptr with
  | _ n ih =>
      by_cases hlt : ptr < T.eptr
      · have hhead : ptr + 2 ≤ T.eptr :=
          (Nat.add_le_add_left (T.header_le_covered ptr) ptr).trans (h ptr .refl hlt)
        have hbytes := bytesFrom_head hhead
        cases hkind : entryKind (T.entryType ptr) with
        | none => exact hbytes ▸ .unknown hkind
        | some kind =>
            have hturn := turn_of_kind hlt hkind hdvd
            obtain ⟨hsize, hnext⟩ := (insideFrom_yielded hturn).mp h
            have hsize' : kind.struct.size ≤ (T.bytesFrom (ptr + 2)).length + 2 := by
              rw [length_bytesFrom]
              change ptr + kind.struct.size ≤ T.eptr at hsize
              omega
            have hdrop : (T.bytesFrom ptr).drop (T.recordLength ptr) =
                T.bytesFrom (ptr + T.recordLength ptr) := drop_bytesFrom _
            rw [hbytes] at hdrop
            rw [hbytes]
            by_cases heven : 2 ∣ T.recordLength ptr
            · by_cases hzero : T.mem (ptr + 1) = 0
              · rw [hzero]
                exact .zero hkind hsize'
              · have hpos : T.recordLength ptr ≠ 0 := fun h0 => hzero (UInt8.toNat_inj.mp h0)
                refine .record hkind hsize' heven hzero ?_
                rw [show (T.mem (ptr + 1)).toNat = T.recordLength ptr from rfl, hdrop]
                exact ih _ (by omega) ((Nat.dvd_add_right hdvd).mpr heven) hnext rfl
            · refine .odd hkind hsize' heven ?_
              rw [show (T.mem (ptr + 1)).toNat = T.recordLength ptr from rfl, hdrop,
                length_bytesFrom]
              exact (insideFrom_odd fun h2 => heven ((Nat.dvd_add_right hdvd).mp h2)).mp hnext
      · rw [bytesFrom_of_end (not_lt.mp hlt)]
        exact .nil

/-- The first two bytes are the header. -/
lemma head_of_bytesFrom {t l : UInt8} {rest : List UInt8} (h : T.bytesFrom ptr = t :: l :: rest) :
    ptr + rest.length + 2 = T.eptr ∧ T.entryType ptr = t ∧ T.mem (ptr + 1) = l := by
  have hlen := congrArg List.length h
  rw [length_bytesFrom, List.length_cons, List.length_cons] at hlen
  rw [bytesFrom_head (by omega)] at h
  obtain ⟨ht, hrest⟩ := List.cons.inj h
  exact ⟨by omega, ht, (List.cons.inj hrest).1⟩

/-- Bytes that fit are read inside, by induction on how they fit. -/
lemma insideFrom_of_fits {bytes : List UInt8} (hfits : Fits bytes) (hdvd : 2 ∣ ptr)
    (hbytes : T.bytesFrom ptr = bytes) : T.InsideFrom ptr := by
  induction hfits generalizing ptr with
  | nil =>
      have hlen := congrArg List.length hbytes
      rw [length_bytesFrom, List.length_nil] at hlen
      exact insideFrom_ended (by omega)
  | unknown hkind =>
      obtain ⟨hend, rfl, -⟩ := head_of_bytesFrom hbytes
      have hturn := turn_of_unknown (by omega) hkind
      exact (insideFrom_panicked (by omega) hturn).mpr (by omega)
  | @zero t rest kind hkind hsize =>
      obtain ⟨hend, rfl, hlen⟩ := head_of_bytesFrom hbytes
      have hturn := turn_of_kind (by omega) hkind hdvd
      rw [show T.recordLength ptr = 0 from congrArg UInt8.toNat hlen, Nat.add_zero] at hturn
      refine (insideFrom_self hturn).mpr ?_
      show ptr + kind.struct.size ≤ T.eptr
      omega
  | @odd t l rest kind hkind hsize hodd hhead =>
      obtain ⟨hend, rfl, rfl⟩ := head_of_bytesFrom hbytes
      have hturn := turn_of_kind (by omega) hkind hdvd
      rw [← hbytes, drop_bytesFrom, length_bytesFrom] at hhead
      refine (insideFrom_yielded hturn).mpr ⟨?_, ?_⟩
      · show ptr + kind.struct.size ≤ T.eptr
        omega
      · exact (insideFrom_odd fun h2 => hodd ((Nat.dvd_add_right hdvd).mp h2)).mpr hhead
  | @record t l rest kind hkind hsize heven hpos hrest ih =>
      obtain ⟨hend, rfl, rfl⟩ := head_of_bytesFrom hbytes
      have hturn := turn_of_kind (by omega) hkind hdvd
      rw [← hbytes, drop_bytesFrom] at ih
      refine (insideFrom_yielded hturn).mpr ⟨?_, ih ((Nat.dvd_add_right hdvd).mpr heven) rfl⟩
      show ptr + kind.struct.size ≤ T.eptr
      omega

/-! ### Well-formed tables -/

/-- Behind the start of each record, up to the first one of odd length, there are as many bytes as
its struct has. -/
def RecordsFit : List Record → Prop
  | [] => True
  | r :: rs => r.kind.struct.size ≤ ((r :: rs).flatMap Record.bytes).length ∧
      (2 ∣ r.bytes.length → RecordsFit rs)

lemma Rest.insideFrom_iff (h : T.Rest ptr rs) (hdvd : 2 ∣ ptr) :
    T.InsideFrom ptr ↔ RecordsFit rs := by
  induction rs generalizing ptr with
  | nil => exact iff_of_true (insideFrom_ended (by rw [h.end_eq]; simp)) trivial
  | cons r rs ih =>
      rw [insideFrom_yielded (h.turn_cons hdvd), RecordsFit]
      refine and_congr ?_ ?_
      · rw [h.end_eq]
        exact Nat.add_le_add_iff_left
      · by_cases heven : 2 ∣ r.bytes.length
        · rw [ih h.tail ((Nat.dvd_add_right hdvd).mpr heven)]
          exact ⟨fun hfit _ => hfit, fun hfit => hfit heven⟩
        · have hodd : ¬ 2 ∣ ptr + r.bytes.length := fun h2 =>
            heven ((Nat.dvd_add_right hdvd).mp h2)
          refine iff_of_true ((insideFrom_odd hodd).mpr ?_) fun h2 => absurd h2 heven
          cases rs with
          | nil =>
              rw [h.tail.end_eq]
              simp
          | cons r' rs =>
              obtain ⟨-, -, -, hle⟩ := h.tail.head
              have hlen := r'.length_bytes
              have := r'.length_eq
              omega

/-- **The walk stays inside the table exactly when the bytes of the table fit.**  In a well-formed
table that is when behind the start of each record, up to the first one of odd length, there are as
many bytes as its struct has. -/
theorem madt_walk_inside_iff (T : MADT) :
    (T.Inside ↔ Fits (T.bytesFrom T.start)) ∧
      ∀ records, T.Rest T.start records → (T.Inside ↔ RecordsFit records) := by
  refine ⟨?_, fun records h => inside_iff.trans (h.insideFrom_iff two_dvd_start)⟩
  rw [inside_iff]
  exact ⟨fits_of_insideFrom two_dvd_start, fun h => insideFrom_of_fits h two_dvd_start rfl⟩

theorem madt_walk_inside_twoProcessors :
    (ofBytes ([processor, processor].flatMap Record.bytes)).Inside := by
  refine ((madt_walk_inside_iff _).2 [processor, processor] rest_twoProcessors).mpr ?_
  exact ⟨by decide, fun _ => ⟨by decide, fun _ => trivial⟩⟩

/-- A record for a non-maskable interrupt line has six bytes, and its struct eight. -/
theorem madt_walk_outside :
    44 ≤ (ofBytes [4, 6, 0xff, 0, 0, 1]).length ∧
      (ofBytes [4, 6, 0xff, 0, 0, 1]).turn 0x102c =
        .yielded ⟨.localApicNonmaskable, 0x102c⟩ 0x1032 ∧
      (ofBytes [4, 6, 0xff, 0, 0, 1]).eptr = 0x1032 ∧
      EntryKind.localApicNonmaskable.struct.size = 8 ∧
      ¬ (ofBytes [4, 6, 0xff, 0, 0, 1]).Inside := by
  have hturn : (ofBytes [4, 6, 0xff, 0, 0, 1]).turn 0x102c =
      .yielded ⟨.localApicNonmaskable, 0x102c⟩ 0x1032 :=
    turn_of_kind (by decide +kernel) (by decide +kernel) (by decide)
  have hend : (ofBytes [4, 6, 0xff, 0, 0, 1]).eptr = 0x1032 := by decide +kernel
  refine ⟨by decide +kernel, hturn, hend, rfl, fun h => ?_⟩
  have hle := ((insideFrom_yielded hturn).mp (inside_iff.mp h)).1
  rw [hend] at hle
  exact absurd hle (by decide)

end MADT

end Acpi

end Titanium
