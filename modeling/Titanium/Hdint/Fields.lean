import Titanium.Hdint.IoApic
import Titanium.Util

/-!
Fields that hold an enum: the two modes of a redirection entry (`hdint.rs`), the
polarity and the trigger mode of an override (`madt.rs`).

The enums of the MADT have the type of the word that holds them; the modes are `u8` in
a word of 64 bits, with a cast in each direction.

* `polarity_eq`, `trigger_eq`: the getters of an override are those of the macro.
* `getLsbD_setDeliveryMode`, `getLsbD_setDestinationMode`: a mode can be set, and its
  neighbours stay as they are.
* `cenum_field_laws`: **both forms of the macro obey the laws of a field**.
-/

namespace Titanium

namespace Hdint

/-! ### The enums -/

/-- `DeliveryMode`. -/
inductive DeliveryMode where
  | normal | lowPriority | systemManagement | nonMaskable | init | external
  deriving DecidableEq, Repr

namespace DeliveryMode

/-- The discriminants. -/
def toRepr : DeliveryMode → BitVec 8
  | normal => 0
  | lowPriority => 1
  | systemManagement => 2
  | nonMaskable => 4
  | init => 5
  | external => 7

/-- 3 and 6 are no delivery modes. -/
def cenum : Util.CEnum DeliveryMode 8 :=
  .ofList toRepr [normal, lowPriority, systemManagement, nonMaskable, init, external]
    (by intro m; cases m <;> decide) (by intro m m'; cases m <;> cases m' <;> decide)

end DeliveryMode

/-- `DestinationMode`. -/
inductive DestinationMode where
  | physical | logical
  deriving DecidableEq, Repr

namespace DestinationMode

def toRepr : DestinationMode → BitVec 8
  | physical => 0
  | logical => 1

def cenum : Util.CEnum DestinationMode 8 :=
  .ofList toRepr [physical, logical] (by intro m; cases m <;> decide)
    (by intro m m'; cases m <;> cases m' <;> decide)

end DestinationMode

namespace ApicIRQPolarity

def toRepr : ApicIRQPolarity → BitVec 16
  | noOverride => 0b00
  | activeHi => 0b01
  | reserved => 0b10
  | activeLo => 0b11

def cenum : Util.CEnum ApicIRQPolarity 16 :=
  .ofList toRepr [noOverride, activeHi, reserved, activeLo] (by intro q; cases q <;> decide)
    (by intro q q'; cases q <;> cases q' <;> decide)

end ApicIRQPolarity

namespace ApicIRQTrigger

def toRepr : ApicIRQTrigger → BitVec 16
  | noOverride => 0b00
  | edge => 0b01
  | reserved => 0b10
  | level => 0b11

def cenum : Util.CEnum ApicIRQTrigger 16 :=
  .ofList toRepr [noOverride, edge, reserved, level] (by intro q; cases q <;> decide)
    (by intro q q'; cases q <;> cases q' <;> decide)

end ApicIRQTrigger

/-! ### The fields -/

/-- Two bits of the flags have four values, and each is a discriminant. -/
lemma exists_two_bits (x : BitVec 16) : ∃ k < 4, x &&& 0b11 = .ofNat 16 k := by
  refine ⟨(x &&& 0b11).toNat, ?_, ?_⟩
  · rw [BitVec.toNat_and]
    exact Nat.and_lt_two_pow _ (show (0b11#16).toNat < 2 ^ 2 by decide)
  · rw [BitVec.ofNat_toNat, BitVec.setWidth_eq]

lemma polarity_eq (flags : BitVec 16) :
    Util.cenumBitRange ApicIRQPolarity.cenum flags 1 0 = some (polarity flags) := by
  obtain ⟨k, hk, hbits⟩ := exists_two_bits (flags >>> 0)
  have hread : Util.cenumBitRange ApicIRQPolarity.cenum flags 1 0 =
      ApicIRQPolarity.cenum.ofRepr (flags >>> 0 &&& 0b11) := rfl
  rw [hread, polarity, hbits]
  interval_cases k <;> rfl

lemma trigger_eq (flags : BitVec 16) :
    Util.cenumBitRange ApicIRQTrigger.cenum flags 3 2 = some (trigger flags) := by
  obtain ⟨k, hk, hbits⟩ := exists_two_bits (flags >>> 2)
  have hread : Util.cenumBitRange ApicIRQTrigger.cenum flags 3 2 =
      ApicIRQTrigger.cenum.ofRepr (flags >>> 2 &&& 0b11) := rfl
  rw [hread, trigger, hbits]
  interval_cases k <;> rfl

/-- `delivery_mode`. -/
def RedirectionEntry.deliveryMode (e : RedirectionEntry) : Option DeliveryMode :=
  Util.cenumReprBitRange DeliveryMode.cenum e 10 8

/-- `set_delivery_mode`. -/
def RedirectionEntry.setDeliveryMode (e : RedirectionEntry) (m : DeliveryMode) :
    Option RedirectionEntry :=
  Util.cenumReprSetBitRange DeliveryMode.cenum e 10 8 m

/-- `destination_mode`. -/
def RedirectionEntry.destinationMode (e : RedirectionEntry) : Option DestinationMode :=
  Util.cenumReprBitRange DestinationMode.cenum e 11 11

/-- `set_destination_mode`. -/
def RedirectionEntry.setDestinationMode (e : RedirectionEntry) (m : DestinationMode) :
    Option RedirectionEntry :=
  Util.cenumReprSetBitRange DestinationMode.cenum e 11 11 m

/-- The neighbours of the delivery mode stay as they are. -/
lemma RedirectionEntry.getLsbD_setDeliveryMode (e : RedirectionEntry) (m : DeliveryMode) :
    ∃ e', e.setDeliveryMode m = some e' ∧ e'.deliveryMode = some m ∧
      ∀ i, ¬ (8 ≤ i ∧ i ≤ 10) → e'.getLsbD i = e.getLsbD i :=
  Util.cenum_set_spec ⟨by norm_num, by norm_num, by norm_num⟩ DeliveryMode.cenum e
    (by cases m <;> decide)

/-- The neighbours of the destination mode stay as they are. -/
lemma RedirectionEntry.getLsbD_setDestinationMode (e : RedirectionEntry) (m : DestinationMode) :
    ∃ e', e.setDestinationMode m = some e' ∧ e'.destinationMode = some m ∧
      ∀ i, ¬ (11 ≤ i ∧ i ≤ 11) → e'.getLsbD i = e.getLsbD i :=
  Util.cenum_set_spec ⟨by norm_num, by norm_num, by norm_num⟩ DestinationMode.cenum e
    (by cases m <;> decide)

/-! ### The laws -/

/-- **Fields of `bitfield_cenum_bitrange!` obey the laws**, in both forms: a value whose
discriminant fits is read back, the bits outside the field stay as they are, later writes override
earlier ones, and writing back what is read then changes nothing.  In a word that was not written
before, a value is written back unchanged unless the cast to the type of the enum cuts it off. -/
theorem cenum_field_laws {E E' : Type} {w r msb lsb : ℕ} (h : Util.IsField w msb lsb)
    (e : Util.CEnum E w) (e' : Util.CEnum E' r) (x : BitVec w) :
    ((∀ v, (e.toRepr v).toNat < 2 ^ (msb - lsb + 1) →
        (Util.cenum e msb lsb).Laws msb lsb
          (fun v => (e.toRepr v).toNat < 2 ^ (msb - lsb + 1)) x v ∧
        (((Util.cenum e msb lsb).set x v).bind fun x' =>
          ((Util.cenum e msb lsb).get x').bind ((Util.cenum e msb lsb).set x')) =
            (Util.cenum e msb lsb).set x v) ∧
      ∀ v, (Util.cenum e msb lsb).get x = some v → (Util.cenum e msb lsb).set x v = some x) ∧
    (∀ v, (e'.toRepr v).toNat < 2 ^ (msb - lsb + 1) →
        (Util.cenumRepr w e' msb lsb).Laws msb lsb
          (fun v => (e'.toRepr v).toNat < 2 ^ (msb - lsb + 1)) x v ∧
        (((Util.cenumRepr w e' msb lsb).set x v).bind fun x' =>
          ((Util.cenumRepr w e' msb lsb).get x').bind ((Util.cenumRepr w e' msb lsb).set x')) =
            (Util.cenumRepr w e' msb lsb).set x v) ∧
      ∀ v, (Util.cenumRepr w e' msb lsb).get x = some v →
        ((Util.cenumRepr w e' msb lsb).set x v = some x ↔
          (BitField.bitRange x msb lsb).toNat < 2 ^ r) := by
  rw [Util.cenum_eq_cenumRepr]
  refine ⟨⟨fun v hv => ?_, fun v hget => ?_⟩, fun v hv => ?_, fun v hget => ?_⟩
  · have hlaws := Util.cenum_laws h e x hv
    exact ⟨hlaws, hlaws.write_back hv⟩
  · exact (Util.cenum_write_back_iff h e hget).mpr (BitVec.isLt _)
  · have hlaws := Util.cenum_laws h e' x hv
    exact ⟨hlaws, hlaws.write_back hv⟩
  · exact Util.cenum_write_back_iff h e' hget

/-- Either enum in the bits 8 to 10 of a word of 16 bits. -/
theorem cenum_fields_external :
    (Util.cenum ApicIRQPolarity.cenum 10 8).Laws 10 8
        (fun v => (ApicIRQPolarity.cenum.toRepr v).toNat < 2 ^ (10 - 8 + 1)) 0x2033 .activeLo ∧
      (Util.cenumRepr 16 DeliveryMode.cenum 10 8).Laws 10 8
        (fun v => (DeliveryMode.cenum.toRepr v).toNat < 2 ^ (10 - 8 + 1)) 0x2033 .external := by
  have hfield : Util.IsField 16 10 8 := ⟨by norm_num, by norm_num, by norm_num⟩
  have hlaws := cenum_field_laws hfield ApicIRQPolarity.cenum DeliveryMode.cenum 0x2033
  exact ⟨(hlaws.1.1 .activeLo (by decide)).1, (hlaws.2.1 .external (by decide)).1⟩

end Hdint

end Titanium
