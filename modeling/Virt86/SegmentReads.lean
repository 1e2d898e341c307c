import Virt86.DescriptorTables
import Virt86.PageAlignment

/-!
# Segments read from system descriptors

Outside IA-32e mode `GetGDTEntry` fetches 8 of the 16 bytes of an LDT or TSS descriptor, and
`ReadSegment` takes the upper half of the base from the other 8, which are those of its own
variable.
-/

namespace Virt86

open BitSlices

/-- The types of the descriptors that describe a segment: LDT, and available and busy TSS of 16 and
32 bits. -/
def systemSegmentTypes : List (BitVec 4) := [0b0010, 0b0001, 0b0011, 0b1001, 0b1011]

/-- The segment a descriptor of 8 bytes describes, its base extended by zeros. -/
def RegValue.setSegmentFrom (value : RegValue) (selector : U16) (d : GenericGDTDescriptor) :
    RegValue :=
  value.setSegment selector ((SegmentFields.base d).setWidth 64) (SegmentFields.getLimit d)
    (SegmentFields.getAttributes d)

section SetSegment

variable (value : RegValue) (selector : U16) (base : U64) (limit : U32) (attributes : U16)

theorem RegValue.segmentBase_setSegment :
    (value.setSegment selector base limit attributes).segmentBase = base := by
  simp (disch := omega) only [segmentBase, setSegment, setSegmentSelector, setSegmentBase,
    setSegmentLimit, setSegmentAttributes, extractLsb'_setSlice, extractLsb'_setSlice_of_disjoint]

theorem RegValue.segmentLimit_setSegment :
    (value.setSegment selector base limit attributes).segmentLimit = limit := by
  simp (disch := omega) only [segmentLimit, setSegment, setSegmentSelector, setSegmentBase,
    setSegmentLimit, setSegmentAttributes, extractLsb'_setSlice, extractLsb'_setSlice_of_disjoint]

theorem RegValue.segmentAttributes_setSegment :
    (value.setSegment selector base limit attributes).segmentAttributes = attributes := by
  simp (disch := omega) only [segmentAttributes, setSegment, setSegmentAttributes,
    extractLsb'_setSlice]

end SetSegment

theorem LDTDescriptor.getBase_eq (d : LDTDescriptor) :
    d.getBase = (if (SegmentFields.base d).msb then BitVec.allOnes 32 else d.baseTop) ++
      SegmentFields.base d :=
  signExtend_or_shiftLeft (SegmentFields.base d) d.baseTop

section Halves

variable (lo hi hi' : U32)

theorem joined_eq_setWidth_iff :
    (if lo.msb then BitVec.allOnes 32 else hi) ++ lo = lo.setWidth 64 ↔
      lo.msb = false ∧ hi = 0 := by
  have hzero : lo.setWidth 64 = 0#32 ++ lo := by
    rw [BitVec.setWidth_eq_append (by omega)]
    rfl
  rw [hzero, BitVec.append_left_inj]
  cases lo.msb with
  | false => simp
  | true => simp

theorem joined_inj :
    (if lo.msb then BitVec.allOnes 32 else hi) ++ lo =
        (if lo.msb then BitVec.allOnes 32 else hi') ++ lo ↔
      lo.msb = true ∨ hi = hi' := by
  rw [BitVec.append_left_inj]
  cases lo.msb with
  | false => simp
  | true => simp

end Halves

namespace GDTEntry

variable (e : GDTEntry) (d : GenericGDTDescriptor)

/-! An entry whose first 8 bytes have been filled. -/

theorem generic_setSlice : GDTEntry.generic (setSlice e 0 d) = d :=
  extractLsb'_setSlice e 0 d (by omega)

theorem base_setSlice : SegmentFields.base (setSlice e 0 d) = SegmentFields.base d := by
  rw [← SegmentFields.base_low]
  exact congrArg SegmentFields.base (generic_setSlice e d)

theorem getLimit_setSlice : SegmentFields.getLimit (setSlice e 0 d) = SegmentFields.getLimit d := by
  rw [← SegmentFields.getLimit_low]
  exact congrArg SegmentFields.getLimit (generic_setSlice e d)

theorem getAttributes_setSlice :
    SegmentFields.getAttributes (setSlice e 0 d) = SegmentFields.getAttributes d := by
  rw [← SegmentFields.getAttributes_low]
  exact congrArg SegmentFields.getAttributes (generic_setSlice e d)

theorem baseTop_setSlice : LDTDescriptor.baseTop (setSlice e 0 d) = LDTDescriptor.baseTop e :=
  extractLsb'_setSlice_of_disjoint e d (by omega) (by omega)

theorem getBase_setSlice : LDTDescriptor.getBase (setSlice e 0 d) =
    (if (SegmentFields.base d).msb then BitVec.allOnes 32 else LDTDescriptor.baseTop e) ++
      SegmentFields.base d := by
  rw [LDTDescriptor.getBase_eq, base_setSlice, baseTop_setSlice]

end GDTEntry

namespace Guest

variable {g : Guest} {mem : HostMemory} {selector : U16}
  {gdt : RegValue} {c : MemCopy} {d : GenericGDTDescriptor}

/-- What `GetGDTEntry` does once the first 8 bytes are there. -/
theorem getGDTEntry_of_copy (hregions : PageAlignedRegions g.regions)
    (hgdt : g.regRead .GDTR = .ok gdt) (h : selector.toNat + 8 ≤ gdt.tableLimit.toNat)
    (hcopy : memCopy g.regions (gdt.tableBase + selector.setWidth 64) 8 = some c)
    (hd : mem.wordAt c.host 64 = d) (e : GDTEntry) :
    g.getGDTEntry mem selector e =
      afterFirst (g.readInto mem) gdt selector (setSlice e 0 d) (g.descriptorKind d) := by
  have hcount : 8 * c.count.toNat = 64 := memCopy_bits_of_aligned hregions (by decide) hcopy
  have hfirst : g.readInto mem (gdt.tableBase + selector.setWidth 64) 8 e =
      (true, setSlice e 0 d) := by
    rw [readInto_of_some hcopy hcount rfl, hd]
  rw [getGDTEntry, gdtAccess_of_first hgdt h hfirst, id, GDTEntry.generic_setSlice]

theorem descriptorKind_of_systemSegment (hmode : g.isIA32eMode = false) (hsystem : d.system = 0)
    (htype : d.type ∈ systemSegmentTypes) : g.descriptorKind d = .plain := by
  have hnot : ∀ t : BitVec 4, t ∈ systemSegmentTypes → t ∉ reservedTypes := by decide
  rw [descriptorKind, if_neg (by simp [hsystem]), if_neg (by simp [hmode]), if_neg (hnot _ htype)]

theorem loadSegment_of_systemSegment {e : GDTEntry} (selector : U16)
    (hmode : g.isIA32eMode = false)
    (hsystem : e.generic.system = 0) (htype : e.generic.type ∈ systemSegmentTypes)
    (value : RegValue) :
    g.loadSegment selector e value = (.OK, value.setSegment selector (LDTDescriptor.getBase e)
      (SegmentFields.getLimit e) (SegmentFields.getAttributes e)) := by
  simp only [systemSegmentTypes, List.mem_cons, List.not_mem_nil, or_false] at htype
  simp only [loadSegment, if_pos hsystem, hmode]
  by_cases hldt : e.generic.type = 0b0010
  · rw [if_pos hldt]
    rfl
  · rw [if_neg hldt, if_pos (htype.resolve_left hldt), if_neg (by simp)]
    rfl

/-- Outside IA-32e mode, with an LDT or TSS descriptor in memory. -/
theorem readSegment_of_systemSegment (hregions : PageAlignedRegions g.regions)
    (hgdt : g.regRead .GDTR = .ok gdt) (h : selector.toNat + 8 ≤ gdt.tableLimit.toNat)
    (hcopy : memCopy g.regions (gdt.tableBase + selector.setWidth 64) 8 = some c)
    (hd : mem.wordAt c.host 64 = d) (hmode : g.isIA32eMode = false) (hsystem : d.system = 0)
    (htype : d.type ∈ systemSegmentTypes) (e : GDTEntry) (value : RegValue) :
    g.readSegment mem e selector value =
      ⟨.OK, [⟨gdt.tableBase + selector.setWidth 64, 8, true⟩], value.setSegment selector
        ((if (SegmentFields.base d).msb then BitVec.allOnes 32 else LDTDescriptor.baseTop e) ++
          SegmentFields.base d) (SegmentFields.getLimit d) (SegmentFields.getAttributes d)⟩ := by
  have hentry : g.getGDTEntry mem selector e =
      ⟨.OK, [⟨gdt.tableBase + selector.setWidth 64, 8, true⟩], setSlice e 0 d⟩ := by
    rw [getGDTEntry_of_copy hregions hgdt h hcopy hd,
      descriptorKind_of_systemSegment hmode hsystem htype]
    rfl
  have hload := loadSegment_of_systemSegment selector hmode
    (by rw [GDTEntry.generic_setSlice e d, hsystem]) (by rwa [GDTEntry.generic_setSlice e d]) value
  rw [GDTEntry.getBase_setSlice, GDTEntry.getLimit_setSlice, GDTEntry.getAttributes_setSlice]
    at hload
  simp only [readSegment, hentry, hload]
  rfl

/-- For every guest outside IA-32e mode and every selector that addresses an LDT or TSS descriptor
within the limit: what `ReadSegment` returns is the segment that the 8 bytes in memory describe
exactly when bit 31 of the base is clear and the variable for the entry happens to hold zeros where
the upper half of the base would be. Two contents of that variable give the same results exactly
when bit 31 of the base is set or they agree there. -/
theorem readSegment_determined_iff (g : Guest) (hregions : PageAlignedRegions g.regions)
    (mem : HostMemory) {selector : U16} {gdt : RegValue} {c : MemCopy} {d : GenericGDTDescriptor}
    (hgdt : g.regRead .GDTR = .ok gdt) (h : selector.toNat + 8 ≤ gdt.tableLimit.toNat)
    (hcopy : memCopy g.regions (gdt.tableBase + selector.setWidth 64) 8 = some c)
    (hd : mem.wordAt c.host 64 = d) (hmode : g.isIA32eMode = false) (hsystem : d.system = 0)
    (htype : d.type ∈ systemSegmentTypes) (value : RegValue) :
    (∀ e, g.readSegment mem e selector value =
        ⟨.OK, [⟨gdt.tableBase + selector.setWidth 64, 8, true⟩],
          value.setSegmentFrom selector d⟩ ↔
      (SegmentFields.base d).msb = false ∧ LDTDescriptor.baseTop e = 0) ∧
    ∀ e e', g.readSegment mem e selector value = g.readSegment mem e' selector value ↔
      (SegmentFields.base d).msb = true ∨ LDTDescriptor.baseTop e = LDTDescriptor.baseTop e' := by
  have hread := readSegment_of_systemSegment hregions hgdt h hcopy hd hmode hsystem htype
  have hinj (base base' : U64) : value.setSegment selector base (SegmentFields.getLimit d)
      (SegmentFields.getAttributes d) = value.setSegment selector base' (SegmentFields.getLimit d)
      (SegmentFields.getAttributes d) ↔ base = base' := by
    refine ⟨fun heq => ?_, fun heq => by rw [heq]⟩
    simpa only [RegValue.segmentBase_setSegment] using congrArg RegValue.segmentBase heq
  constructor
  · intro e
    rw [hread, TableOutcome.mk.injEq, RegValue.setSegmentFrom, hinj, joined_eq_setWidth_iff]
    simp
  · intro e e'
    rw [hread, hread, TableOutcome.mk.injEq, hinj, joined_inj]
    simp

theorem tablePage_aligned (limit : U16) (cr0 efer : U64) :
    PageAlignedRegions (tablePage limit cr0 efer).regions := by
  intro r hr
  rw [List.mem_singleton.mp hr]
  exact ⟨rfl, rfl, rfl⟩

/-- A page whose first table entry but one is an available TSS of base 0 and limit 0. -/
def tssMemory : HostMemory := fun a => if a = 0x1000D then 0x89 else 0

theorem readSegment_determined_tss :
    (∀ e, (tablePage 0x17 0 0).readSegment tssMemory e 8 0 =
        ⟨.OK, [⟨0x1008, 8, true⟩], RegValue.setSegmentFrom 0 8 0x890000000000⟩ ↔
      (SegmentFields.base 0x890000000000#64).msb = false ∧ LDTDescriptor.baseTop e = 0) ∧
    ∀ e e', (tablePage 0x17 0 0).readSegment tssMemory e 8 0 =
        (tablePage 0x17 0 0).readSegment tssMemory e' 8 0 ↔
      (SegmentFields.base 0x890000000000#64).msb = true ∨
        LDTDescriptor.baseTop e = LDTDescriptor.baseTop e' := by
  have haddr : (tableValue 0x17).tableBase + (8 : U16).setWidth 64 = 0x1008 := by
    have hbase : (tableValue 0x17).tableBase = 0x1000 := RegValue.tableBase_setTable 0 0x1000 0x17
    rw [hbase]
    rfl
  have hcopy : memCopy (tablePage 0x17 0 0).regions
      ((tableValue 0x17).tableBase + (8 : U16).setWidth 64) 8 =
        some ⟨⟨0x1000, 0x1000, 0x10000⟩, 0x10008, 8⟩ := by
    rw [haddr]
    rfl
  have hd : tssMemory.wordAt 0x10008 64 = 0x890000000000 := by decide +kernel
  have hiff := readSegment_determined_iff (tablePage 0x17 0 0) (tablePage_aligned 0x17 0 0)
    tssMemory rfl (by decide +kernel) hcopy hd (by decide +kernel) (by decide +kernel)
    (by decide +kernel) 0
  rwa [haddr] at hiff

/-- For a base of 0, what the variable held where the upper half belongs comes back as the upper
half of the base. -/
theorem readSegment_returns_stack :
    let g := tablePage 0x17 0 0
    (g.readSegment tssMemory 0 8 0).state.segmentBase = 0 ∧
      (g.readSegment tssMemory (setSlice 0 64 0xDEADBEEF#32) 8 0).state.segmentBase =
        0xDEADBEEF00000000 := by
  decide +kernel

end Guest

end Virt86
