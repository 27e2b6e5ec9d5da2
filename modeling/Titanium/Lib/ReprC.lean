import Mathlib.Tactic

/-!
The layout of structs with `repr(C)` and `repr(C, packed(n))`.

The fields lie in the order of their declaration, each at the next offset that
its alignment divides; `packed(n)` lowers alignments that are larger than `n`.
-/

namespace Titanium

/-- The size and the alignment of a type. -/
structure CType where
  size : ℕ
  align : ℕ

namespace CType

def u8 : CType := ⟨1, 1⟩

def u16 : CType := ⟨2, 2⟩

def u32 : CType := ⟨4, 4⟩

def u64 : CType := ⟨8, 8⟩

/-- `[u8; n]`. -/
def bytes (n : ℕ) : CType := ⟨n, 1⟩

end CType

/-- The next multiple of `a`. -/
def roundUp (a n : ℕ) : ℕ := (n + a - 1) / a * a

/-- A struct; `pack` is the argument of `packed`. -/
structure CStruct where
  pack : Option ℕ
  fields : List CType

namespace CStruct

variable (S : CStruct)

/-- The alignment of a field. -/
def fieldAlign (t : CType) : ℕ := S.pack.elim t.align (min t.align)

/-- The offsets of fields that are placed from `cur` on, and where they end. -/
def place : ℕ → List CType → List ℕ × ℕ
  | cur, [] => ([], cur)
  | cur, t :: ts =>
      let offset := roundUp (S.fieldAlign t) cur
      let (offsets, stop) := place (offset + t.size) ts
      (offset :: offsets, stop)

/-- The offset of field `i`. -/
def offset (i : ℕ) : ℕ := (S.place 0 S.fields).1.getD i 0

/-- The alignment of the struct. -/
def align : ℕ := (S.fields.map S.fieldAlign).foldr max 1

/-- The size of the struct. -/
def size : ℕ := roundUp S.align (S.place 0 S.fields).2

/-- The struct as the type of a field. -/
def type : CType := ⟨S.size, S.align⟩

end CStruct

end Titanium
