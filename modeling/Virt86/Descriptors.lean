import Virt86.Registers

/-!
# Entries of the global descriptor table

The unions of `gdt.hpp` as little-endian words, with their bit-fields, and the functions that
scatter addresses and limits over them and put them together again. Fields narrower than `int` are
promoted to it before they are shifted.
-/

namespace Virt86

open BitSlices

def GDT_FL_GRANULARITY : U8 := 1#8 <<< 3
def GDT_FL_SIZE : U8 := 1#8 <<< 2
def GDT_FL_LONG : U8 := 1#8 <<< 1

/-! ## The part shared by segment, LDT and TSS descriptors -/

namespace SegmentFields

variable {w n : ℕ}

def limitLow (d : BitVec w) : U16 := d.extractLsb' 0 16
def baseLow (d : BitVec w) : U16 := d.extractLsb' 16 16
def baseMid (d : BitVec w) : U8 := d.extractLsb' 32 8
def access (d : BitVec w) : U8 := d.extractLsb' 40 8
def limitHigh (d : BitVec w) : BitVec 4 := d.extractLsb' 48 4
def flags (d : BitVec w) : BitVec 4 := d.extractLsb' 52 4
def baseHigh (d : BitVec w) : U8 := d.extractLsb' 56 8

/-- The assignments that the two `Set` functions have in common. -/
def set (d : BitVec w) (base : BitVec n) (limit : U32) (access flags : U8) : BitVec w :=
  let d := setSlice d 16 ((base &&& 0xFFFF).setWidth 16)
  let d := setSlice d 32 (((base >>> 16) &&& 0xFF).setWidth 8)
  let d := setSlice d 56 ((base >>> 24).setWidth 8)
  let d := setSlice d 0 ((limit &&& 0xFFFF).setWidth 16)
  let d := setSlice d 48 (((limit >>> 16) &&& 0xF).setWidth 4)
  let d := setSlice d 40 access
  setSlice d 52 ((flags &&& 0xF).setWidth 4)

/-- `data.baseLow | (data.baseMid << 16) | (data.baseHigh << 24)`, as an `int`. -/
def base (d : BitVec w) : U32 :=
  (baseLow d).setWidth 32 ||| ((baseMid d).setWidth 32 <<< 16) |||
    ((baseHigh d).setWidth 32 <<< 24)

def getLimit (d : BitVec w) : U32 :=
  let limit : U32 := (limitLow d).setWidth 32 ||| ((limitHigh d).setWidth 32 <<< 16)
  if (flags d).setWidth 8 &&& GDT_FL_GRANULARITY ≠ 0 then (limit <<< 12) ||| 0xFFF else limit

def getAttributes (d : BitVec w) : U16 :=
  ((access d).setWidth 32 ||| ((flags d).setWidth 32 <<< 12)).setWidth 16

end SegmentFields

/-- `GenericGDTDescriptor`. -/
abbrev GenericGDTDescriptor := U64

def GenericGDTDescriptor.type (d : GenericGDTDescriptor) : BitVec 4 := d.extractLsb' 40 4
def GenericGDTDescriptor.system (d : GenericGDTDescriptor) : BitVec 1 := d.extractLsb' 44 1

abbrev GDTDescriptor := U64

namespace GDTDescriptor

def set (base limit : U32) (access flags : U8) : GDTDescriptor :=
  SegmentFields.set 0 base limit access flags

def getBase (d : GDTDescriptor) : U32 := SegmentFields.base d
def getLimit (d : GDTDescriptor) : U32 := SegmentFields.getLimit d
def getAttributes (d : GDTDescriptor) : U16 := SegmentFields.getAttributes d

end GDTDescriptor

abbrev LDTDescriptor := BitVec 128

namespace LDTDescriptor

def baseTop (d : LDTDescriptor) : U32 := d.extractLsb' 64 32

def set (base : U64) (limit : U32) (access flags : U8) : LDTDescriptor :=
  setSlice (SegmentFields.set 0 base limit access flags) 64 ((base >>> 32).setWidth 32)

/-- The `int` is converted to `uint64_t` for the last `|`. -/
def getBase (d : LDTDescriptor) : U64 :=
  (SegmentFields.base d).signExtend 64 ||| ((baseTop d).setWidth 64 <<< 32)

def getLimit (d : LDTDescriptor) : U32 := SegmentFields.getLimit d
def getAttributes (d : LDTDescriptor) : U16 := SegmentFields.getAttributes d

end LDTDescriptor

abbrev TSSDescriptor := LDTDescriptor

abbrev NonTaskGateDescriptor := BitVec 128

namespace NonTaskGateDescriptor

def offsetLow (d : NonTaskGateDescriptor) : U16 := d.extractLsb' 0 16
def csSelector (d : NonTaskGateDescriptor) : U16 := d.extractLsb' 16 16
def params (d : NonTaskGateDescriptor) : U8 := d.extractLsb' 32 8
def access (d : NonTaskGateDescriptor) : U8 := d.extractLsb' 40 8
def offsetHigh (d : NonTaskGateDescriptor) : U16 := d.extractLsb' 48 16
def offsetTop (d : NonTaskGateDescriptor) : U32 := d.extractLsb' 64 32
def reserved (d : NonTaskGateDescriptor) : U32 := d.extractLsb' 96 32

def setOffset (d : NonTaskGateDescriptor) (offset : U64) : NonTaskGateDescriptor :=
  let d := setSlice d 0 ((offset &&& 0xFFFF).setWidth 16)
  let d := setSlice d 48 (((offset >>> 16) &&& 0xFFFF).setWidth 16)
  setSlice d 64 ((offset >>> 32).setWidth 32)

/-- `offsetLow | (offsetHigh << 16)` is an `int`, which is converted to `uint64_t`. -/
def getOffset (d : NonTaskGateDescriptor) : U64 :=
  ((offsetLow d).setWidth 32 ||| ((offsetHigh d).setWidth 32 <<< 16)).signExtend 64 |||
    ((offsetTop d).setWidth 64 <<< 32)

end NonTaskGateDescriptor

/-- The union `GDTEntry`. -/
abbrev GDTEntry := BitVec 128

namespace GDTEntry

def generic (e : GDTEntry) : GenericGDTDescriptor := e.extractLsb' 0 64
def gdt (e : GDTEntry) : GDTDescriptor := e.extractLsb' 0 64
def ldt (e : GDTEntry) : LDTDescriptor := e
def tss (e : GDTEntry) : TSSDescriptor := e

end GDTEntry

/-! ## What is stored in the fields comes back -/

namespace SegmentFields

variable {w n : ℕ}

section Low

variable (d : BitVec w)

theorem base_low : base (d.extractLsb' 0 64) = base d := by
  simp (disch := omega) only [base, baseLow, baseMid, baseHigh,
    BitVec.extractLsb'_extractLsb'_of_le]

theorem getLimit_low : getLimit (d.extractLsb' 0 64) = getLimit d := by
  have hflags : flags (d.extractLsb' 0 64) = flags d :=
    BitVec.extractLsb'_extractLsb'_of_le (by omega)
  have hlow : limitLow (d.extractLsb' 0 64) = limitLow d :=
    BitVec.extractLsb'_extractLsb'_of_le (by omega)
  have hhigh : limitHigh (d.extractLsb' 0 64) = limitHigh d :=
    BitVec.extractLsb'_extractLsb'_of_le (by omega)
  simp only [getLimit, hflags, hlow, hhigh]

theorem getAttributes_low :
    getAttributes (d.extractLsb' 0 64) = getAttributes d := by
  simp (disch := omega) only [getAttributes, access, flags, BitVec.extractLsb'_extractLsb'_of_le]

end Low

/-- What the limit of a descriptor stands for: its low 20 bits, counted in pages of 4 KiB under the
granularity flag. -/
def scaledLimit (limit : U32) (flags : U8) : U32 :=
  if flags.getLsbD 3 then (limit &&& 0xFFFFF) * 4096 + 4095 else limit &&& 0xFFFFF

def attributes (access flags : U8) : U16 :=
  access.setWidth 16 ||| ((flags &&& 0xF).setWidth 16 <<< 12)

theorem or_shiftLeft_parts (x : U32) :
    ((x.setWidth 16).setWidth 32 ||| (((x >>> 16).setWidth 8).setWidth 32 <<< 16) |||
      (((x >>> 24).setWidth 8).setWidth 32 <<< 24) : U32) = x := by
  apply BitVec.eq_of_getLsbD_eq
  intro i hi
  simp only [BitVec.getLsbD_or, BitVec.getLsbD_shiftLeft, BitVec.getLsbD_setWidth,
    BitVec.getLsbD_ushiftRight]
  rcases Nat.lt_or_ge i 16 with h16 | h16
  · simp [h16, hi, show i < 24 by omega]
  · rcases Nat.lt_or_ge i 24 with h24 | h24
    · simp [h24, hi, show ¬ i < 16 by omega, show i - 16 < 8 by omega,
        show i - 16 < 32 by omega, show 16 + (i - 16) = i by omega]
    · simp [show ¬ i < 24 by omega, show ¬ i < 16 by omega, hi, show ¬ i - 16 < 8 by omega,
        show i - 24 < 8 by omega, show i - 24 < 32 by omega, show 24 + (i - 24) = i by omega]

/-- A slice of the low 32 bits, written as a shift and a truncation. -/
theorem setWidth_shiftRight_setWidth (x : BitVec n) {s k : ℕ} (h : s + k ≤ 32) :
    ((x.setWidth 32) >>> s).setWidth k = (x >>> s).setWidth k := by
  apply BitVec.eq_of_getLsbD_eq
  intro i hi
  simp only [BitVec.getLsbD_setWidth, BitVec.getLsbD_ushiftRight]
  simp [hi, show s + i < 32 by omega]

section Set

variable (d : BitVec w) (base : BitVec n) (limit : U32) (access flags : U8)

theorem baseLow_set (h : 64 ≤ w) (hn : 16 ≤ n) :
    baseLow (set d base limit access flags) = base.setWidth 16 := by
  simp (disch := omega) only [baseLow, set, extractLsb'_setSlice, extractLsb'_setSlice_of_disjoint]
  exact setWidth_and_ofNat base hn

theorem baseMid_set (h : 64 ≤ w) (hn : 16 ≤ n) :
    baseMid (set d base limit access flags) = (base >>> 16).setWidth 8 := by
  simp (disch := omega) only [baseMid, set, extractLsb'_setSlice, extractLsb'_setSlice_of_disjoint]
  exact setWidth_and_ofNat (base >>> 16) (by omega)

theorem baseHigh_set (h : 64 ≤ w) :
    baseHigh (set d base limit access flags) = (base >>> 24).setWidth 8 := by
  simp (disch := omega) only [baseHigh, set, extractLsb'_setSlice, extractLsb'_setSlice_of_disjoint]

theorem limitLow_set (h : 64 ≤ w) :
    limitLow (set d base limit access flags) = limit.setWidth 16 := by
  simp (disch := omega) only [limitLow, set, extractLsb'_setSlice, extractLsb'_setSlice_of_disjoint]
  exact setWidth_and_ofNat limit (by omega)

theorem limitHigh_set (h : 64 ≤ w) :
    limitHigh (set d base limit access flags) = (limit >>> 16).setWidth 4 := by
  simp (disch := omega) only [limitHigh, set, extractLsb'_setSlice,
    extractLsb'_setSlice_of_disjoint]
  exact setWidth_and_ofNat (limit >>> 16) (by omega)

theorem base_set (h : 64 ≤ w) (hn : 16 ≤ n) :
    SegmentFields.base (set d base limit access flags) = base.setWidth 32 := by
  have hlow : baseLow (set d base limit access flags) = (base.setWidth 32).setWidth 16 := by
    rw [baseLow_set d base limit access flags h hn, BitVec.setWidth_setWidth_of_le _ (by omega)]
  have hmid : baseMid (set d base limit access flags) = ((base.setWidth 32) >>> 16).setWidth 8 := by
    rw [baseMid_set d base limit access flags h hn, setWidth_shiftRight_setWidth base (by omega)]
  have hhigh : baseHigh (set d base limit access flags) =
      ((base.setWidth 32) >>> 24).setWidth 8 := by
    rw [baseHigh_set d base limit access flags h, setWidth_shiftRight_setWidth base (by omega)]
  rw [SegmentFields.base, hlow, hmid, hhigh, or_shiftLeft_parts]

theorem flags_set (h : 64 ≤ w) :
    SegmentFields.flags (set d base limit access flags) = flags.setWidth 4 := by
  simp (disch := omega) only [SegmentFields.flags, set, extractLsb'_setSlice]
  exact setWidth_and_ofNat flags (by omega)

theorem access_set (h : 64 ≤ w) :
    SegmentFields.access (set d base limit access flags) = access := by
  simp (disch := omega) only [SegmentFields.access, set, extractLsb'_setSlice,
    extractLsb'_setSlice_of_disjoint]

theorem getAttributes_set (h : 64 ≤ w) :
    getAttributes (set d base limit access flags) = attributes access flags := by
  have hflags : flags &&& 0xF = (flags.setWidth 4).setWidth 8 := and_ofNat_mask flags 4
  rw [getAttributes, access_set d base limit access flags h, flags_set d base limit access flags h,
    attributes, hflags]
  apply BitVec.eq_of_getLsbD_eq
  intro i hi
  simp only [BitVec.getLsbD_setWidth, BitVec.getLsbD_or, BitVec.getLsbD_shiftLeft]
  rcases Nat.lt_or_ge i 12 with hlow | hhigh
  · simp [hi, hlow, show i < 32 by omega]
  · simp [hi, show ¬ i < 12 by omega, show i < 32 by omega, show i - 12 < 4 by omega,
      show i - 12 < 32 by omega, show i - 12 < 16 by omega, show i - 12 < 8 by omega]

theorem shiftLeft_or_mask (x : U32) : (x <<< 12) ||| 0xFFF = x * 4096 + 4095 := by
  have hdisjoint : (x <<< 12) &&& 0xFFF = 0 := by
    rw [show x <<< 12 &&& (0xFFF : U32) = ((x <<< 12).setWidth 12).setWidth 32 from
      and_ofNat_mask (x <<< 12) 12]
    apply BitVec.eq_of_getLsbD_eq
    intro i hi
    simp only [BitVec.getLsbD_setWidth, BitVec.getLsbD_shiftLeft]
    by_cases hlow : i < 12
    · simp [hlow]
    · simp [hlow]
  rw [← BitVec.add_eq_or_of_and_eq_zero _ _ hdisjoint, BitVec.shiftLeft_eq_mul_twoPow]
  rfl

theorem getLimit_set (h : 64 ≤ w) :
    getLimit (set d base limit access flags) = scaledLimit limit flags := by
  have hlimit : ((limit.setWidth 16).setWidth 32 |||
      (((limit >>> 16).setWidth 4).setWidth 32 <<< 16) : U32) = limit &&& 0xFFFFF := by
    rw [show limit &&& 0xFFFFF = (limit.setWidth 20).setWidth 32 from and_ofNat_mask limit 20]
    apply BitVec.eq_of_getLsbD_eq
    intro i hi
    simp only [BitVec.getLsbD_or, BitVec.getLsbD_shiftLeft, BitVec.getLsbD_setWidth,
      BitVec.getLsbD_ushiftRight]
    rcases Nat.lt_or_ge i 16 with h16 | h16
    · simp [h16, hi, show i < 20 by omega]
    · simp [hi, show ¬ i < 16 by omega, show 16 + (i - 16) = i by omega,
        show i - 16 < 32 by omega, show i - 16 < 4 ↔ i < 20 by omega]
  have hflag : (flags.setWidth 4).setWidth 8 &&& GDT_FL_GRANULARITY ≠ 0 ↔
      flags.getLsbD 3 = true := by
    rw [GDT_FL_GRANULARITY, ne_eq, and_bit_eq_zero_iff _ (by omega), Bool.not_eq_false]
    simp
  rw [getLimit, flags_set d base limit access flags h, limitLow_set d base limit access flags h,
    limitHigh_set d base limit access flags h, scaledLimit]
  simp only [hflag, hlimit, shiftLeft_or_mask]

end Set

end SegmentFields

namespace GDTDescriptor

variable (base limit : U32) (access flags : U8)

theorem getBase_set : (set base limit access flags).getBase = base := by
  rw [getBase, set, SegmentFields.base_set _ _ _ _ _ (by omega) (by omega), BitVec.setWidth_eq]

theorem getLimit_set :
    (set base limit access flags).getLimit = SegmentFields.scaledLimit limit flags :=
  SegmentFields.getLimit_set _ _ _ _ _ (by omega)

theorem getAttributes_set :
    (set base limit access flags).getAttributes = SegmentFields.attributes access flags :=
  SegmentFields.getAttributes_set _ _ _ _ _ (by omega)

end GDTDescriptor

/-- The sign of the low half is that of the whole: bit 31 is clear, or the upper 32 bits are all
set. -/
def UpperHalfSurvives (x : U64) : Prop :=
  x.getLsbD 31 = false ∨ x.extractLsb' 32 32 = BitVec.allOnes 32

theorem or_halves_eq_iff (x : U64) :
    (x.setWidth 32).signExtend 64 ||| (((x >>> 32).setWidth 32).setWidth 64 <<< 32) = x ↔
      UpperHalfSurvives x := by
  have hlow : x.setWidth 32 = x.extractLsb' 0 32 := BitVec.setWidth_eq_extractLsb' (by omega)
  have hhigh : (x >>> 32).setWidth 32 = x.extractLsb' 32 32 := rfl
  have hparts : x.extractLsb' 32 32 ++ x.extractLsb' 0 32 = x :=
    BitVec.extractLsb'_append_extractLsb'
  have hsign : (x.extractLsb' 0 32).msb = x.getLsbD 31 := by
    simp [BitVec.msb_eq_getLsbD_last]
  have hjoin (y : U32) : y ++ x.extractLsb' 0 32 = x ↔ y = x.extractLsb' 32 32 := by
    have hinj : y ++ x.extractLsb' 0 32 = x.extractLsb' 32 32 ++ x.extractLsb' 0 32 ↔
        y = x.extractLsb' 32 32 := BitVec.append_left_inj _
    rwa [hparts] at hinj
  rw [hlow, hhigh, signExtend_or_shiftLeft, hsign, UpperHalfSurvives, hjoin]
  cases x.getLsbD 31 with
  | false => simp
  | true => simp [eq_comm]

namespace LDTDescriptor

variable (base : U64) (limit : U32) (access flags : U8)

theorem low_set : (set base limit access flags).extractLsb' 0 64 =
    (SegmentFields.set (0 : LDTDescriptor) base limit access flags).extractLsb' 0 64 :=
  extractLsb'_setSlice_of_disjoint _ _ (by omega) (by omega)

theorem base_set : SegmentFields.base (set base limit access flags) = base.setWidth 32 := by
  rw [← SegmentFields.base_low, low_set, SegmentFields.base_low,
    SegmentFields.base_set _ _ _ _ _ (by omega) (by omega)]

theorem baseTop_set : baseTop (set base limit access flags) = (base >>> 32).setWidth 32 :=
  extractLsb'_setSlice _ _ _ (by omega)

theorem getLimit_set :
    getLimit (set base limit access flags) = SegmentFields.scaledLimit limit flags := by
  rw [getLimit, ← SegmentFields.getLimit_low, low_set,
    SegmentFields.getLimit_low, SegmentFields.getLimit_set _ _ _ _ _ (by omega)]

theorem getAttributes_set :
    getAttributes (set base limit access flags) = SegmentFields.attributes access flags := by
  rw [getAttributes, ← SegmentFields.getAttributes_low, low_set,
    SegmentFields.getAttributes_low,
    SegmentFields.getAttributes_set _ _ _ _ _ (by omega)]

/-- The accessors return what was passed to `Set`. -/
structure RoundTrip : Prop where
  getBase_eq : (set base limit access flags).getBase = base
  getLimit_eq : (set base limit access flags).getLimit = SegmentFields.scaledLimit limit flags
  getAttributes_eq : (set base limit access flags).getAttributes =
    SegmentFields.attributes access flags

theorem roundTrip_iff : RoundTrip base limit access flags ↔ UpperHalfSurvives base := by
  have hbase : (set base limit access flags).getBase =
      (base.setWidth 32).signExtend 64 ||| (((base >>> 32).setWidth 32).setWidth 64 <<< 32) := by
    rw [getBase, base_set, baseTop_set]
  rw [← or_halves_eq_iff, ← hbase]
  refine ⟨fun h => h.getBase_eq, fun h => ⟨h, ?_, ?_⟩⟩
  · exact getLimit_set base limit access flags
  · exact getAttributes_set base limit access flags

end LDTDescriptor

namespace NonTaskGateDescriptor

variable (d : NonTaskGateDescriptor) (offset : U64)

/-- The offset passed to `SetOffset` comes back, and the other fields are as before. -/
structure OffsetRoundTrip : Prop where
  getOffset_eq : (setOffset d offset).getOffset = offset
  csSelector_eq : (setOffset d offset).csSelector = d.csSelector
  params_eq : (setOffset d offset).params = d.params
  access_eq : (setOffset d offset).access = d.access
  reserved_eq : (setOffset d offset).reserved = d.reserved

theorem or_shiftLeft_words (x : U32) :
    ((x.setWidth 16).setWidth 32 ||| (((x >>> 16).setWidth 16).setWidth 32 <<< 16) : U32) = x := by
  apply BitVec.eq_of_getLsbD_eq
  intro i hi
  simp only [BitVec.getLsbD_or, BitVec.getLsbD_shiftLeft, BitVec.getLsbD_setWidth,
    BitVec.getLsbD_ushiftRight]
  rcases Nat.lt_or_ge i 16 with hlow | hhigh
  · simp [hlow, hi]
  · simp [hi, show ¬ i < 16 by omega, show i - 16 < 16 by omega, show i - 16 < 32 by omega,
      show 16 + (i - 16) = i by omega]

theorem getOffset_setOffset :
    (setOffset d offset).getOffset = (offset.setWidth 32).signExtend 64 |||
      (((offset >>> 32).setWidth 32).setWidth 64 <<< 32) := by
  have hlow : offsetLow (setOffset d offset) = (offset.setWidth 32).setWidth 16 := by
    simp (disch := omega) only [offsetLow, setOffset, extractLsb'_setSlice,
      extractLsb'_setSlice_of_disjoint]
    rw [BitVec.setWidth_setWidth_of_le _ (by omega)]
    exact setWidth_and_ofNat offset (by omega)
  have hhigh : offsetHigh (setOffset d offset) = ((offset.setWidth 32) >>> 16).setWidth 16 := by
    simp (disch := omega) only [offsetHigh, setOffset, extractLsb'_setSlice,
      extractLsb'_setSlice_of_disjoint, SegmentFields.setWidth_shiftRight_setWidth]
    exact setWidth_and_ofNat (offset >>> 16) (by omega)
  have htop : offsetTop (setOffset d offset) = (offset >>> 32).setWidth 32 := by
    rw [offsetTop, setOffset, extractLsb'_setSlice _ _ _ (by omega)]
  rw [getOffset, hlow, hhigh, htop, or_shiftLeft_words]

theorem offsetRoundTrip_iff : OffsetRoundTrip d offset ↔ UpperHalfSurvives offset := by
  rw [← or_halves_eq_iff, ← getOffset_setOffset d offset]
  refine ⟨fun h => h.getOffset_eq, fun h => ⟨h, ?_, ?_, ?_, ?_⟩⟩
  all_goals
    simp (disch := omega) only [setOffset, csSelector, params, access, reserved,
      extractLsb'_setSlice_of_disjoint]

end NonTaskGateDescriptor

/-- For every base, limit, access byte and flags, and every gate and offset: what is set comes back,
the limit scaled by the granularity flag, and the rest of the gate is unchanged, exactly when the
`int` that the low half of the base, or of the offset, is put together in has no sign to lose. -/
theorem descriptor_roundTrip_iff (base : U64) (limit : U32) (access flags : U8)
    (gate : NonTaskGateDescriptor) (offset : U64) :
    (LDTDescriptor.RoundTrip base limit access flags ↔ UpperHalfSurvives base) ∧
      (gate.OffsetRoundTrip offset ↔ UpperHalfSurvives offset) :=
  ⟨LDTDescriptor.roundTrip_iff base limit access flags,
    NonTaskGateDescriptor.offsetRoundTrip_iff gate offset⟩

/-- A base of 2 GiB comes back with its upper half set, and so does an offset. -/
theorem getBase_set_signExtends :
    ¬ LDTDescriptor.RoundTrip 0x80000000 0xFFF 0x89 0 ∧
      ¬ NonTaskGateDescriptor.OffsetRoundTrip 0 0x80000000 := by
  constructor
  · intro h
    exact absurd h.getBase_eq (by decide)
  · intro h
    exact absurd h.getOffset_eq (by decide)

end Virt86
