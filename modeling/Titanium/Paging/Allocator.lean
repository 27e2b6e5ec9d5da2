import Titanium.Paging.Layout
import Titanium.Lib.Checked
import Mathlib.Data.Nat.Log

/-!
`RuneFrameAllocator` (`paging.rs`), statement by statement.

Every function takes the bitmap and returns it.  The outer `Option` is the
panic (an access out of range, a failed `unwrap`, an overflow); an inner
`Option` is the source's own.  Addresses are numbers; a frame is given by its
start address.
-/

namespace Titanium

/-! ### Integer operations of `usize` -/

/-- `next_power_of_two`, which panics when the result needs more than 64 bits. -/
def nextPowerOfTwo (n : ℕ) : Option ℕ := if n ≤ 2 ^ 63 then some (2 ^ Nat.clog 2 n) else none

/-- `lowest_one`: the position of the lowest bit that is set. -/
def lowestOne (n : ℕ) : Option ℕ := (List.range 64).find? n.testBit

/-- `highest_one`: the position of the highest bit that is set. -/
def highestOne (n : ℕ) : Option ℕ := if n = 0 then none else some (Nat.log 2 n)

/-! ### `allocate_chunk_from_level` -/

/-- The splitting loop, with `d` of the levels `(min_level..level).rev()` to go:
the chunk in hand is `i` on level `min_level + d`. -/
def splitDown (minLevel : ℕ) : ℕ → ℕ → BuddyBits → Option (ℕ × BuddyBits)
  | 0, i, b => some (i, b)
  | d + 1, i, b => do
      let lowerOffset ← levelOffsets (minLevel + d)
      let offset ← levelOffsets (minLevel + d + 1)
      let b ← b.write (i + offset) false
      let i := i <<< 1
      let b ← b.write (i + lowerOffset + 1) true
      splitDown minLevel d i b

/-- `allocate_chunk_from_level`. -/
def allocateChunkFromLevel (b : BuddyBits) (minLevel : ℕ) : Option (Option ℕ × BuddyBits) := do
  let offset ← levelOffsets minLevel
  match ← b.firstOneFrom offset with
  | none => return (none, b)
  | some absI =>
      let (bitI, level) ← absoluteToRelative (absI + offset)
      let (i, b) ← splitDown minLevel (level - minLevel) bitI b
      let b ← b.write (i + offset) false
      return (some (relativeIndexToAddr (i, minLevel)), b)

/-! ### `merge_up_from` -/

/-- The merging loop, with `d` of the levels `level..BUDDY_LEVELS - 1` to go. -/
def mergeLoop : ℕ → ℕ → ℕ → BuddyBits → Option BuddyBits
  | 0, _, _, b => some b
  | d + 1, level, i, b => do
      -- `i & !1`
      let i := i / 2 * 2
      let lower ← b.read i
      let both ← if lower then b.read (i + 1) else some false
      if both then
        let b ← b.write i false
        let b ← b.write (i + 1) false
        let localI ← checkedSub i (← levelOffsets level)
        let i := (localI >>> 1) + (← levelOffsets (level + 1))
        let b ← b.write i true
        mergeLoop d (level + 1) i b
      else some b

/-- `merge_up_from`. -/
def mergeUpFrom (b : BuddyBits) : ℕ × ℕ → Option BuddyBits
  | (index, level) => do
      let i ← relativeToAbsolute (index, level)
      mergeLoop (buddyLevels - 1 - level) level i b

/-! ### `pick_off_contiguous` -/

/-- The loop over `(minimum_level..=target_level).rev()`: every turn asks for a
chunk of `target_level`. -/
def firstFit (targetLevel : ℕ) : List ℕ → BuddyBits → Option (Option (ℕ × ℕ) × BuddyBits)
  | [], b => some (none, b)
  | level :: rest, b => do
      match ← allocateChunkFromLevel b targetLevel with
      | (some addr, b) => return (some (addr, level), b)
      | (none, b) => firstFit targetLevel rest b

/-- The loop that marks the unused tail as usable, from the highest bit of
`overflow` to the lowest. -/
def giveBack (overflow overboundIndex overboundLevel : ℕ) (b : BuddyBits) : Option BuddyBits :=
  match _h : highestOne overflow with
  | none => some b
  | some level => do
      let shift ← checkedSub overboundLevel level
      let overboundIndex ← checkedSub (overboundIndex <<< shift) 1
      let absI ← relativeToAbsolute (overboundIndex, level)
      let b ← b.write absI true
      -- `overflow & !(1 << level)`: the bit is set
      giveBack (overflow - 1 <<< level) overboundIndex level b
termination_by overflow
decreasing_by
  have hne : overflow ≠ 0 := fun h0 => by simp [highestOne, h0] at _h
  have := Nat.one_shiftLeft level ▸ Nat.two_pow_pos level
  omega

/-- `pick_off_contiguous` from the fit on: the chunk of `level` at `frame_addr`
is marked used and its tail past `n_frames` given back. -/
def settlePick (nFrames frameAddr level : ℕ) (b : BuddyBits) :
    Option (Option (ℕ × ℕ) × BuddyBits) := do
  let relIndex := addrToRelativeIndex frameAddr level
  let b ← b.write (← relativeToAbsolute (relIndex, level)) false
  let nMapped := 1 <<< level
  -- `saturating_sub`
  let overflow := nMapped - nFrames
  let b ← giveBack overflow (relIndex + 1) level b
  return (some (frameAddr, min nMapped nFrames), b)

/-- `pick_off_contiguous`. -/
def pickOffContiguous (b : BuddyBits) (nFrames minFrames : ℕ) :
    Option (Option (ℕ × ℕ) × BuddyBits) := do
  let alignedN ← nextPowerOfTwo nFrames
  let targetLevel ← lowestOne alignedN
  let minimumLevel ← lowestOne (← nextPowerOfTwo minFrames)
  let levels := (List.range' minimumLevel (targetLevel + 1 - minimumLevel)).reverse
  match ← firstFit targetLevel levels b with
  | (none, b) => return (none, b)
  | (some (frameAddr, level), b) => settlePick nFrames frameAddr level b

/-! ### `FrameAllocator` and `FrameDeallocator` -/

/-- `allocate_frame::<Size4KiB>`. -/
def allocateFrame4KiB (b : BuddyBits) : Option (Option ℕ × BuddyBits) :=
  allocateChunkFromLevel b 0

/-- `allocate_frame::<Size2MiB>`. -/
def allocateFrame2MiB (b : BuddyBits) : Option (Option ℕ × BuddyBits) :=
  allocateChunkFromLevel b level2MiB

/-- `deallocate_frame::<Size4KiB>`. -/
def deallocateFrame4KiB (b : BuddyBits) (frame : ℕ) : Option BuddyBits := do
  let index := addrToRelativeIndex frame 0
  let b ← b.write index true
  mergeUpFrom b (index, 0)

/-- `deallocate_frame::<Size2MiB>`. -/
def deallocateFrame2MiB (b : BuddyBits) (frame : ℕ) : Option BuddyBits := do
  let index := addrToRelativeIndex frame level2MiB
  let b ← b.write index true
  mergeUpFrom b (index, level2MiB)

/-! ### `new` -/

/-- `limine::MemmapType`. -/
inductive MemmapType where
  | usable | reserved | acpiReclaimable | acpiNvs | badMemory | bootloaderReclaimable
  | executableAndModules | framebuffer | reservedMapped
  deriving DecidableEq, Repr

/-- `limine::MemmapEntry`. -/
structure MemmapEntry where
  base : ℕ
  length : ℕ
  ty : MemmapType
  deriving DecidableEq, Repr

/-- `if cond { buddy_bytes.set(i, true) }`. -/
def markIf (cond : Prop) [Decidable cond] (i : ℕ) (b : BuddyBits) : Option BuddyBits :=
  if cond then b.write i true else some b

/-- The loop over the levels of one entry, with `d` levels below the top to go;
past them the top level is filled.  Meeting ends are `continue 'entries`. -/
def climb : ℕ → ℕ → ℕ → ℕ → BuddyBits → Option BuddyBits
  | 0, _, lI, lEi, b => do
      let offset ← levelOffsets (buddyLevels - 1)
      b.fill (offset + lI) (offset + lEi)
  | d + 1, level, lI, lEi, b => do
      let offset ← levelOffsets level
      if lI = lEi then some b
      else
        let b ← markIf (lI % 2 ≠ 0) (offset + lI) b
        -- `+1` to round upwards
        let lI := if lI % 2 ≠ 0 then lI + 1 else lI
        let b ← markIf (lEi % 2 ≠ 0) (offset + lEi - 1) b
        climb d (level + 1) (lI >>> 1) (lEi >>> 1) b

/-- The body of `'entries` for one usable entry. -/
def addEntry (b : BuddyBits) (entry : MemmapEntry) : Option BuddyBits :=
  let nPages := entry.length / pageSize
  let rawFrameI := entry.base / pageSize
  let rawFrameEi := (entry.base + nPages * pageSize) / pageSize
  climb (buddyLevels - 1) 0 rawFrameI rawFrameEi b

/-- `RuneFrameAllocator::new`, on the bitmap that the static holds. -/
def RuneFrameAllocator.new (b : BuddyBits) (memmapEntries : List MemmapEntry) : Option BuddyBits :=
  (memmapEntries.filter (·.ty = .usable)).foldlM addEntry b

end Titanium
