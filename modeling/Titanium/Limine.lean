import Titanium.Lib.ReprC
import Titanium.Lib.Memory
import Titanium.Paging.New

/-!
What the bootloader hands over (`limine.rs`, `limine/memmap.rs`).

The kernel places requests in memory, and the bootloader writes the address of a response
into each.  Two of the responses are tables of pointers, to the entries of the memory map
and to the framebuffers.

* `requested`: the elements of such a table, as the kernel reads them; `Answered`: what
  the bootloader writes.
* `requested_eq`: **what was written is read**.
* `boot_frames_usable`: **the frames that the allocator ever hands out are those that the
  bootloader marked as usable**, from the bytes in memory to any run of requests that are
  allowed.
-/

namespace Titanium

namespace Limine

open CType

/-! ### Layouts -/

/-- `RequestHeader`: the magic, the id, the revision and the response. -/
def requestHeader : CStruct := ⟨none, [⟨16, 8⟩, ⟨16, 8⟩, u64, u64]⟩

/-- `MemmapResponse` and `FramebufferResponse`: the header, the number of elements and the table of
pointers to them. -/
def tableResponse : CStruct := ⟨none, [u64, u64, u64]⟩

/-- `MemmapEntry`. -/
def memmapEntry : CStruct := ⟨none, [u64, u64, u64]⟩

/-- `Framebuffer`. -/
def framebuffer : CStruct :=
  ⟨none, [u64, u64, u64, u64, u16, u8, u8, u8, u8, u8, u8, u8, bytes 7, u64, u64]⟩

/-! ### Reading -/

section Read

variable (mem : Mem) (request : ℕ)

/-- `header.response`. -/
def response : ℕ := mem.readLE 8 (request + requestHeader.offset 3)

/-- The slice of references behind a response, each read by `read`. -/
def elements {α : Type} (read : ℕ → Option α) (r : ℕ) : Option (List α) :=
  let count := mem.readLE 8 (r + tableResponse.offset 1)
  let table := mem.readLE 8 (r + tableResponse.offset 2)
  (List.range count).mapM fun i => read (mem.readLE 8 (table + 8 * i))

/-- The elements of a response, `none` in the inner option if there is none. -/
def requested {α : Type} (read : ℕ → Option α) : Option (Option (List α)) :=
  if response mem request = 0 then some none
  else (elements mem read (response mem request)).map some

/-- A `MemmapType`; any other number is no value of the type. -/
def memmapType (n : ℕ) : Option MemmapType :=
  [MemmapType.usable, .reserved, .acpiReclaimable, .acpiNvs, .badMemory, .bootloaderReclaimable,
    .executableAndModules, .framebuffer, .reservedMapped][n]?

/-- The entry behind a reference. -/
def readMemmapEntry (p : ℕ) : Option MemmapEntry := do
  let ty ← memmapType (mem.readLE 8 (p + memmapEntry.offset 2))
  return ⟨mem.readLE 8 (p + memmapEntry.offset 0), mem.readLE 8 (p + memmapEntry.offset 1), ty⟩

/-- `memmap_entries`. -/
def memmapEntries : Option (Option (List MemmapEntry)) :=
  requested mem request (readMemmapEntry mem)

/-- The fields of a framebuffer that the kernel uses. -/
structure FramebufferInfo where
  address : ℕ
  width : ℕ
  height : ℕ
  pitch : ℕ
  deriving DecidableEq, Repr

def readFramebuffer (p : ℕ) : FramebufferInfo :=
  ⟨mem.readLE 8 (p + framebuffer.offset 0), mem.readLE 8 (p + framebuffer.offset 1),
    mem.readLE 8 (p + framebuffer.offset 2), mem.readLE 8 (p + framebuffer.offset 3)⟩

/-- `framebuffers`. -/
def framebuffers : Option (Option (List FramebufferInfo)) :=
  requested mem request fun p => some (readFramebuffer mem p)

end Read

/-! ### Writing -/

open Mem (leBytes)

/-- An entry of the memory map, as the protocol lays it out. -/
def encodeEntry (entry : MemmapEntry) : List UInt8 :=
  leBytes 8 entry.base ++ (leBytes 8 entry.length ++ leBytes 8 entry.ty.ctorIdx)

/-- A framebuffer, up to the fields that the kernel uses. -/
def encodeFramebuffer (info : FramebufferInfo) : List UInt8 :=
  leBytes 8 info.address ++ (leBytes 8 info.width ++ (leBytes 8 info.height ++
    leBytes 8 info.pitch))

/-- The bootloader has answered a request with a table of elements. -/
structure Answered {α : Type} (mem : Mem) (request : ℕ) (encode : α → List UInt8)
    (xs : List α) : Prop where
  response_ne : mem.readLE 8 (request + 40) ≠ 0
  count : mem.readLE 8 (mem.readLE 8 (request + 40) + 8) = xs.length
  elements : ∀ i x, xs[i]? = some x → mem.Holds
    (mem.readLE 8 (mem.readLE 8 (mem.readLE 8 (request + 40) + 16) + 8 * i)) (encode x)

section Decode

variable {mem : Mem} {request : ℕ}

lemma mapM_range_eq_some {α : Type} {f : ℕ → Option α} (xs : List α)
    (h : ∀ i x, xs[i]? = some x → f i = some x) : (List.range xs.length).mapM f = some xs := by
  induction xs using List.reverseRecOn with
  | nil => rfl
  | append_singleton xs x ih =>
      have hinit : (List.range xs.length).mapM f = some xs := by
        refine ih fun i y hy => h i y ?_
        rw [List.getElem?_append_left (List.getElem?_eq_some_iff.mp hy).1, hy]
      have hlast : f xs.length = some x := h _ _ (by simp)
      rw [List.length_append, List.length_singleton, List.range_succ, List.mapM_append, hinit]
      simp [hlast]

/-- **A table is read as it was written.** -/
lemma requested_eq {α : Type} {encode : α → List UInt8} {read : ℕ → Option α} {xs : List α}
    (h : Answered mem request encode xs)
    (hread : ∀ x ∈ xs, ∀ p, mem.Holds p (encode x) → read p = some x) :
    requested mem request read = some (some xs) := by
  have hresponse : response mem request = mem.readLE 8 (request + 40) := rfl
  have helements : elements mem read (response mem request) = some xs := by
    have hmapM := mapM_range_eq_some xs fun i x hx =>
      hread x (List.mem_of_getElem? hx) _ (h.elements i x hx)
    rwa [← h.count] at hmapM
  rw [requested, if_neg (hresponse ▸ h.response_ne), helements]
  rfl

lemma memmapType_ctorIdx (ty : MemmapType) : memmapType ty.ctorIdx = some ty := by
  cases ty <;> rfl

/-- A number of eight bytes. -/
lemma readLE_eight {p v : ℕ} (hv : v < 2 ^ 64) (h : mem.Holds p (leBytes 8 v)) :
    mem.readLE 8 p = v := by
  rw [Mem.readLE_of_holds h]
  exact Nat.mod_eq_of_lt hv

/-- The numbers of an entry fit into their fields. -/
def Fits (entry : MemmapEntry) : Prop := entry.base < 2 ^ 64 ∧ entry.length < 2 ^ 64

lemma readMemmapEntry_eq {entry : MemmapEntry} (hfits : Fits entry) {p : ℕ}
    (h : mem.Holds p (encodeEntry entry)) : readMemmapEntry mem p = some entry := by
  simp only [encodeEntry, Mem.holds_append, Mem.length_leBytes] at h
  obtain ⟨hbase, hlength, hty⟩ := h
  have hlt : entry.ty.ctorIdx < 2 ^ 64 := by
    cases entry.ty <;> decide
  have hbase' : mem.readLE 8 (p + memmapEntry.offset 0) = entry.base := readLE_eight hfits.1 hbase
  have hlength' : mem.readLE 8 (p + memmapEntry.offset 1) = entry.length :=
    readLE_eight hfits.2 hlength
  have hty' : mem.readLE 8 (p + memmapEntry.offset 2) = entry.ty.ctorIdx := readLE_eight hlt hty
  rw [readMemmapEntry, hbase', hlength', hty', memmapType_ctorIdx]
  rfl

/-- `memmap_entries` gives the memory map. -/
lemma memmapEntries_eq {map : List MemmapEntry} (hfits : ∀ entry ∈ map, Fits entry)
    (h : Answered mem request encodeEntry map) : memmapEntries mem request = some (some map) :=
  requested_eq h fun entry hentry _ => readMemmapEntry_eq (hfits entry hentry)

/-- The numbers of a framebuffer fit into their fields. -/
def FramebufferInfo.Fits (info : FramebufferInfo) : Prop :=
  info.address < 2 ^ 64 ∧ info.width < 2 ^ 64 ∧ info.height < 2 ^ 64 ∧ info.pitch < 2 ^ 64

/-- `framebuffers` gives the framebuffers. -/
lemma framebuffers_eq {infos : List FramebufferInfo} (hfits : ∀ info ∈ infos, info.Fits)
    (h : Answered mem request encodeFramebuffer infos) :
    framebuffers mem request = some (some infos) := by
  refine requested_eq h fun info hinfo p hp => ?_
  obtain ⟨hfa, hfw, hfh, hfp⟩ := hfits info hinfo
  simp only [encodeFramebuffer, Mem.holds_append, Mem.length_leBytes] at hp
  obtain ⟨haddress, hwidth, hheight, hpitch⟩ := hp
  have haddress' : mem.readLE 8 (p + framebuffer.offset 0) = info.address :=
    readLE_eight hfa haddress
  have hwidth' : mem.readLE 8 (p + framebuffer.offset 1) = info.width := readLE_eight hfw hwidth
  have hheight' : mem.readLE 8 (p + framebuffer.offset 2) = info.height :=
    readLE_eight hfh hheight
  have hpitch' : mem.readLE 8 (p + framebuffer.offset 3) = info.pitch := readLE_eight hfp hpitch
  rw [readFramebuffer, haddress', hwidth', hheight', hpitch']

end Decode

/-! ### The allocator -/

/-- The frame allocator, as `kmain` makes it. -/
def bootAllocator (mem : Mem) (request : ℕ) : Option BuddyBits := do
  let entries ← memmapEntries mem request
  -- `expect`
  let entries ← entries
  RuneFrameAllocator.new (BitArr.zeroed _) entries

/-- **Only usable frames are handed out, and each of them can be.**  The bootloader has written a
memory map whose usable entries end below 64 GiB and share no frame.  Then the allocator is
made, and in every state of every run of allowed requests (frames of both sizes are allocated, up to
`2^16` contiguous ones are picked off, and outstanding ones are given back one by one) the frames
that are free or handed out are those of the usable entries, and none is both. -/
theorem boot_frames_usable {mem : Mem} {request : ℕ} {map : List MemmapEntry}
    (hfits : ∀ entry ∈ map, Fits entry) (hmap : Answered mem request encodeEntry map)
    (hbelow : ∀ entry ∈ usableEntries map, entry.Below)
    (hdisjoint : (usableEntries map).Pairwise fun x y => Disjoint x.frames y.frames) :
    ∃ b₀, bootAllocator mem request = some b₀ ∧
      ∀ s, Relation.ReflTransGen AllocStep ⟨b₀, ∅⟩ s →
        Disjoint (freeFrames s.bits) s.outstanding ∧
        ∀ f, f ∈ freeFrames s.bits ∪ s.outstanding ↔
          ∃ entry ∈ map, entry.ty = .usable ∧ f ∈ entry.frames := by
  have hnone : freeFrames (BitArr.zeroed totalBuddyBits) = ∅ := by
    rw [freeFrames, chunks_zeroed]
    rfl
  obtain ⟨b₀, hnew, hapart, hfree⟩ := addEntries_free (b := BitArr.zeroed _) apart_empty hbelow
    hdisjoint fun x _ => hnone ▸ Finset.disjoint_empty_left _
  refine ⟨b₀, ?_, fun s hrun => ?_⟩
  · rw [bootAllocator, memmapEntries_eq hfits hmap]
    exact hnew
  · have hconserves := conserves_of_run hapart hrun
    refine ⟨hconserves.disjoint, fun f => ?_⟩
    rw [hconserves.union_eq, hfree, hnone]
    simp only [Finset.notMem_empty, false_or, usableEntries, List.mem_filter, decide_eq_true_eq,
      and_assoc]

/-- A request at 4096, its response, the table of two pointers and the two entries, one behind the
other. -/
def sampleMem : Mem := fun a =>
  (List.replicate 40 0 ++ leBytes 8 0x1030 ++
    (leBytes 8 0 ++ leBytes 8 2 ++ leBytes 8 0x1048) ++ (leBytes 8 0x1058 ++ leBytes 8 0x1070) ++
    (encodeEntry ⟨0x3000, 0x5000, .usable⟩ ++ encodeEntry ⟨0x8000, 0x1000, .reserved⟩)).getD
    (a - 0x1000) 0

theorem boot_frames_usable_sample : ∃ b₀, bootAllocator sampleMem 0x1000 = some b₀ ∧
    ∀ s, Relation.ReflTransGen AllocStep ⟨b₀, ∅⟩ s → 8 ∉ s.outstanding := by
  have hanswered : Answered sampleMem 0x1000 encodeEntry
      [⟨0x3000, 0x5000, .usable⟩, ⟨0x8000, 0x1000, .reserved⟩] := by
    refine ⟨by decide +kernel, by decide +kernel, fun i x hx => ?_⟩
    rcases i with _ | _ | i
    · cases hx
      decide +kernel
    · cases hx
      decide +kernel
    · cases hx
  have husable : usableEntries [⟨0x3000, 0x5000, .usable⟩, ⟨0x8000, 0x1000, .reserved⟩] =
      [⟨0x3000, 0x5000, .usable⟩] := by decide
  obtain ⟨b₀, hboot, hruns⟩ := boot_frames_usable (by simp [Fits]) hanswered
    (by rw [husable]; decide) (by rw [husable]; exact List.pairwise_singleton _ _)
  refine ⟨b₀, hboot, fun s hrun hmem => ?_⟩
  obtain ⟨entry, hentry, hty, hframe⟩ :=
    ((hruns s hrun).2 8).mp (Finset.mem_union_right _ hmem)
  rcases List.mem_pair.mp hentry with rfl | rfl
  · exact absurd hframe (by decide)
  · cases hty

end Limine

end Titanium
