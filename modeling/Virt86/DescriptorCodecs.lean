import Virt86.DescriptorTables

/-!
# The 8-byte descriptors as codecs

A segment descriptor is the concatenation of its fields, so that `GDTDescriptor::Set` is known from
the fields it leaves and a descriptor is known from its own. The entries of the interrupt
descriptor table have other fields in the same word.
-/

namespace Virt86

open BitSlices

/-- The values of the enumeration, whose underlying type is `uint8_t`. -/
inductive IDTType where
  | Null00 | Task32 | Intr32 | Trap32
  deriving DecidableEq, Repr

def IDTType.value : IDTType → U8
  | .Null00 => 0x0
  | .Task32 => 0x5
  | .Intr32 => 0xE
  | .Trap32 => 0xF

namespace IDTEntry

def offsetLow (d : IDTEntry) : U16 := d.extractLsb' 0 16
def selector (d : IDTEntry) : U16 := d.extractLsb' 16 16
def zero (d : IDTEntry) : U8 := d.extractLsb' 32 8
def type (d : IDTEntry) : BitVec 4 := d.extractLsb' 40 4
def storageSegment (d : IDTEntry) : BitVec 1 := d.extractLsb' 44 1
def privilegeLevel (d : IDTEntry) : BitVec 2 := d.extractLsb' 45 2
def present (d : IDTEntry) : BitVec 1 := d.extractLsb' 47 1
def offsetHigh (d : IDTEntry) : U16 := d.extractLsb' 48 16

def setOffset (d : IDTEntry) (offset : U32) : IDTEntry :=
  let d := setSlice d 0 ((offset &&& 0xFFFF).setWidth 16)
  setSlice d 48 ((offset >>> 16).setWidth 16)

/-- `type` is the value of the enumeration that is passed. -/
def set (offset : U32) (selector : U16) (type attributes : U8) : IDTEntry :=
  let d : IDTEntry := 0
  let d := setSlice d 0 ((offset &&& 0xFFFF).setWidth 16)
  let d := setSlice d 48 ((offset >>> 16).setWidth 16)
  let d := setSlice d 16 selector
  let d := setSlice d 40 ((type &&& 0xF).setWidth 4)
  let d := setSlice d 44 ((attributes &&& 0x1).setWidth 1)
  let d := setSlice d 45 (((attributes >>> 1) &&& 0x3).setWidth 2)
  setSlice d 47 (((attributes >>> 3) &&& 0x1).setWidth 1)

def getOffset (d : IDTEntry) : U32 :=
  (offsetLow d).setWidth 32 ||| ((offsetHigh d).setWidth 32 <<< 16)

end IDTEntry

/-! ## Segment descriptors -/

namespace GDTDescriptor

open SegmentFields

/-- The fields in the order of their bits, the highest first. -/
theorem append_fields (d : GDTDescriptor) :
    baseHigh d ++ flags d ++ limitHigh d ++ access d ++ baseMid d ++ baseLow d ++ limitLow d =
      d := by
  have happend {s m n : ℕ} : d.extractLsb' (s + n) m ++ d.extractLsb' s n =
      d.extractLsb' s (m + n) := BitVec.extractLsb'_append_extractLsb'_eq_extractLsb' rfl
  have htop : baseHigh d ++ flags d = d.extractLsb' 52 12 := happend (s := 52)
  have hlimit : baseHigh d ++ flags d ++ limitHigh d = d.extractLsb' 48 16 := by
    rw [htop]
    exact happend (s := 48)
  have haccess : baseHigh d ++ flags d ++ limitHigh d ++ access d = d.extractLsb' 40 24 := by
    rw [hlimit]
    exact happend (s := 40)
  have hmid : baseHigh d ++ flags d ++ limitHigh d ++ access d ++ baseMid d =
      d.extractLsb' 32 32 := by
    rw [haccess]
    exact happend (s := 32)
  have hlow : baseHigh d ++ flags d ++ limitHigh d ++ access d ++ baseMid d ++ baseLow d =
      d.extractLsb' 16 48 := by
    rw [hmid]
    exact happend (s := 16)
  rw [hlow]
  exact (happend (s := 0)).trans BitVec.extractLsb'_eq_self

section Layout

variable (base limit : U32) (access flags : U8)

/-- `Set` cuts the base at bits 16 and 24 and the limit at bit 16. -/
theorem set_eq_append : set base limit access flags =
    (base >>> 24).setWidth 8 ++ flags.setWidth 4 ++ (limit >>> 16).setWidth 4 ++ access ++
      (base >>> 16).setWidth 8 ++ base.setWidth 16 ++ limit.setWidth 16 := by
  rw [← append_fields (set base limit access flags), set,
    baseHigh_set _ _ _ _ _ (by omega), flags_set _ _ _ _ _ (by omega),
    limitHigh_set _ _ _ _ _ (by omega), access_set _ _ _ _ _ (by omega),
    baseMid_set _ _ _ _ _ (by omega) (by omega), baseLow_set _ _ _ _ _ (by omega) (by omega),
    limitLow_set _ _ _ _ _ (by omega)]

/-- The layout of the architecture, in which the low 24 bits of the base are one field. -/
theorem set_layout : set base limit access flags =
    base.extractLsb' 24 8 ++ flags.extractLsb' 0 4 ++ limit.extractLsb' 16 4 ++ access ++
      base.extractLsb' 0 24 ++ limit.extractLsb' 0 16 := by
  rw [set_eq_append]
  apply BitVec.eq_of_getLsbD_eq
  intro i hi
  simp only [BitVec.getLsbD_append, BitVec.getLsbD_setWidth, BitVec.getLsbD_ushiftRight,
    BitVec.getLsbD_extractLsb', Nat.zero_add]
  grind

end Layout

/-- The 20 bits of the limit, which `GetLimit` scales. -/
def rawLimit (d : GDTDescriptor) : U32 := (limitHigh d ++ limitLow d).setWidth 32

theorem base_parts (d : GDTDescriptor) :
    (getBase d >>> 24).setWidth 8 = baseHigh d ∧ (getBase d >>> 16).setWidth 8 = baseMid d ∧
      (getBase d).setWidth 16 = baseLow d := by
  refine ⟨?_, ?_, ?_⟩
  all_goals
    apply BitVec.eq_of_getLsbD_eq
    intro i hi
    simp only [getBase, SegmentFields.base, BitVec.getLsbD_setWidth, BitVec.getLsbD_ushiftRight,
      BitVec.getLsbD_or, BitVec.getLsbD_shiftLeft]
    grind

theorem limit_parts (d : GDTDescriptor) :
    (rawLimit d >>> 16).setWidth 4 = limitHigh d ∧ (rawLimit d).setWidth 16 = limitLow d := by
  constructor
  all_goals
    apply BitVec.eq_of_getLsbD_eq
    intro i hi
    simp only [rawLimit, BitVec.getLsbD_setWidth, BitVec.getLsbD_ushiftRight,
      BitVec.getLsbD_append]
    grind

/-- `Set` puts back together what the fields of a descriptor say. -/
theorem set_fields (d : GDTDescriptor) :
    set (getBase d) (rawLimit d) (SegmentFields.access d) ((SegmentFields.flags d).setWidth 8) =
      d := by
  obtain ⟨hhigh, hmid, hlow⟩ := base_parts d
  obtain ⟨hlimitHigh, hlimitLow⟩ := limit_parts d
  have hflags : ((SegmentFields.flags d).setWidth 8).setWidth 4 = SegmentFields.flags d := by
    rw [BitVec.setWidth_setWidth_of_le _ (by omega), BitVec.setWidth_eq]
  rw [set_eq_append, hhigh, hmid, hlow, hlimitHigh, hlimitLow, hflags, append_fields]

section Values

variable (base limit : U32) (access flags : U8)

/-- The limit of a descriptor is `limit mod 2^20`, or the last byte of that page. -/
theorem toNat_getLimit_set : (set base limit access flags).getLimit.toNat =
    if flags.getLsbD 3 then limit.toNat % 2 ^ 20 * 4096 + 4095 else limit.toNat % 2 ^ 20 := by
  have hmask : (limit &&& 0xFFFFF).toNat = limit.toNat % 2 ^ 20 := by
    rw [BitVec.toNat_and]
    exact Nat.and_two_pow_sub_one_eq_mod limit.toNat 20
  rw [getLimit_set, scaledLimit]
  split_ifs
  · rw [BitVec.toNat_add, BitVec.toNat_mul, hmask, show (4096 : U32).toNat = 4096 from rfl,
      show (4095 : U32).toNat = 4095 from rfl]
    omega
  · exact hmask

theorem toNat_getAttributes_set : (set base limit access flags).getAttributes.toNat =
    access.toNat ||| (flags.toNat % 16) <<< 12 := by
  have hmask : (flags &&& 0xF).toNat = flags.toNat % 16 := by
    rw [BitVec.toNat_and]
    exact Nat.and_two_pow_sub_one_eq_mod flags.toNat 4
  have hfits : (flags.toNat % 16) <<< 12 < 2 ^ 16 := by
    rw [Nat.shiftLeft_eq]
    omega
  rw [getAttributes_set, attributes, BitVec.toNat_or, BitVec.toNat_shiftLeft,
    BitVec.toNat_setWidth_of_le (by omega), BitVec.toNat_setWidth_of_le (by omega), hmask,
    Nat.mod_eq_of_lt hfits]

end Values

end GDTDescriptor

/-! ## Entries of the interrupt descriptor table -/

namespace IDTEntry

section SetOffset

variable (d : IDTEntry) (offset : U32)

theorem getOffset_of_halves {d : IDTEntry} {offset : U32} (hlow : offsetLow d = offset.setWidth 16)
    (hhigh : offsetHigh d = (offset >>> 16).setWidth 16) : getOffset d = offset := by
  rw [getOffset, hlow, hhigh, NonTaskGateDescriptor.or_shiftLeft_words]

theorem getOffset_setOffset : getOffset (setOffset d offset) = offset := by
  apply getOffset_of_halves
  · simp (disch := omega) only [offsetLow, setOffset, extractLsb'_setSlice,
      extractLsb'_setSlice_of_disjoint]
    exact setWidth_and_ofNat offset (by omega)
  · simp (disch := omega) only [offsetHigh, setOffset, extractLsb'_setSlice]

/-- The 32 bits between the two halves of the offset. -/
theorem middle_setOffset : (setOffset d offset).extractLsb' 16 32 = d.extractLsb' 16 32 := by
  simp (disch := omega) only [setOffset, extractLsb'_setSlice_of_disjoint]

end SetOffset

section Set

variable (offset : U32) (selector : U16) (type attributes : U8)

theorem getOffset_set : getOffset (set offset selector type attributes) = offset := by
  apply getOffset_of_halves
  · simp (disch := omega) only [offsetLow, set, extractLsb'_setSlice,
      extractLsb'_setSlice_of_disjoint]
    exact setWidth_and_ofNat offset (by omega)
  · simp (disch := omega) only [offsetHigh, set, extractLsb'_setSlice,
      extractLsb'_setSlice_of_disjoint]

theorem selector_set : IDTEntry.selector (set offset selector type attributes) = selector := by
  simp (disch := omega) only [IDTEntry.selector, set, extractLsb'_setSlice,
    extractLsb'_setSlice_of_disjoint]

theorem zero_set : zero (set offset selector type attributes) = 0 := by
  simp (disch := omega) only [zero, set, extractLsb'_setSlice_of_disjoint]
  rfl

theorem type_set : IDTEntry.type (set offset selector type attributes) = type.setWidth 4 := by
  simp (disch := omega) only [IDTEntry.type, set, extractLsb'_setSlice,
    extractLsb'_setSlice_of_disjoint]
  exact setWidth_and_ofNat type (by omega)

theorem storageSegment_set :
    storageSegment (set offset selector type attributes) = attributes.extractLsb' 0 1 := by
  simp (disch := omega) only [storageSegment, set, extractLsb'_setSlice,
    extractLsb'_setSlice_of_disjoint]
  exact setWidth_and_ofNat attributes (by omega)

theorem privilegeLevel_set :
    privilegeLevel (set offset selector type attributes) = attributes.extractLsb' 1 2 := by
  simp (disch := omega) only [privilegeLevel, set, extractLsb'_setSlice,
    extractLsb'_setSlice_of_disjoint]
  exact setWidth_and_ofNat (attributes >>> 1) (by omega)

theorem present_set :
    present (set offset selector type attributes) = attributes.extractLsb' 3 1 := by
  simp (disch := omega) only [present, set, extractLsb'_setSlice]
  exact setWidth_and_ofNat (attributes >>> 3) (by omega)

/-- The four bits of the field hold every value of the enumeration. -/
theorem type_set_value (type : IDTType) :
    (IDTEntry.type (set offset selector type.value attributes)).setWidth 8 = type.value := by
  rw [type_set]
  cases type <;> rfl

end Set

end IDTEntry

/-- The descriptor that `Set` makes is the one of the architecture, and its accessors return what
was passed, the limit in bytes. -/
structure SegmentCodec (base limit : U32) (access flags : U8) : Prop where
  layout : GDTDescriptor.set base limit access flags =
    base.extractLsb' 24 8 ++ flags.extractLsb' 0 4 ++ limit.extractLsb' 16 4 ++ access ++
      base.extractLsb' 0 24 ++ limit.extractLsb' 0 16
  getBase_eq : (GDTDescriptor.set base limit access flags).getBase = base
  getLimit_eq : (GDTDescriptor.set base limit access flags).getLimit.toNat =
    if flags.getLsbD 3 then limit.toNat % 2 ^ 20 * 4096 + 4095 else limit.toNat % 2 ^ 20
  getAttributes_eq : (GDTDescriptor.set base limit access flags).getAttributes.toNat =
    access.toNat ||| (flags.toNat % 16) <<< 12

/-- What `Set` puts into an entry is what its accessor and its fields return. The attributes are S,
DPL and present from bit 0 up. -/
structure GateCodec (offset : U32) (selector : U16) (type attributes : U8) (d : IDTEntry) :
    Prop where
  getOffset_eq : d.getOffset = offset
  selector_eq : d.selector = selector
  type_eq : d.type = type.setWidth 4
  storageSegment_eq : d.storageSegment = attributes.extractLsb' 0 1
  privilegeLevel_eq : d.privilegeLevel = attributes.extractLsb' 1 2
  present_eq : d.present = attributes.extractLsb' 3 1
  zero_eq : d.zero = 0

theorem segmentCodec (base limit : U32) (access flags : U8) :
    SegmentCodec base limit access flags :=
  ⟨GDTDescriptor.set_layout base limit access flags,
    GDTDescriptor.getBase_set base limit access flags,
    GDTDescriptor.toNat_getLimit_set base limit access flags,
    GDTDescriptor.toNat_getAttributes_set base limit access flags⟩

section Gate

open IDTEntry

variable (offset : U32) (selector : U16) (type attributes : U8)

theorem gateCodec :
    GateCodec offset selector type attributes (set offset selector type attributes) :=
  ⟨getOffset_set offset selector type attributes, selector_set offset selector type attributes,
    type_set offset selector type attributes, storageSegment_set offset selector type attributes,
    privilegeLevel_set offset selector type attributes, present_set offset selector type attributes,
    zero_set offset selector type attributes⟩

end Gate

/-- For every base, limit, access byte and flags, for every descriptor, and for every offset,
selector, type and attributes: the codecs of both tables are inverse on the fields, where the four
bits of the type hold all of the enumeration, and a new offset leaves the rest of an entry alone. -/
theorem descriptors_codec (base limit : U32) (access flags : U8) (d : GDTDescriptor)
    (offset : U32) (selector : U16) (type attributes : U8) (kind : IDTType) (entry : IDTEntry) :
    SegmentCodec base limit access flags ∧
      GDTDescriptor.set (GDTDescriptor.getBase d) (GDTDescriptor.rawLimit d)
        (SegmentFields.access d) ((SegmentFields.flags d).setWidth 8) = d ∧
      GateCodec offset selector type attributes (IDTEntry.set offset selector type attributes) ∧
      (IDTEntry.set offset selector kind.value attributes).type.setWidth 8 = kind.value ∧
      (IDTEntry.setOffset entry offset).getOffset = offset ∧
      (IDTEntry.setOffset entry offset).extractLsb' 16 32 = entry.extractLsb' 16 32 :=
  ⟨segmentCodec base limit access flags, GDTDescriptor.set_fields d,
    gateCodec offset selector type attributes,
    IDTEntry.type_set_value offset selector attributes kind,
    IDTEntry.getOffset_setOffset entry offset, IDTEntry.middle_setOffset entry offset⟩

end Virt86
