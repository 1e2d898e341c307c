import Virt86.Descriptors
import Virt86.LinearMemory

/-!
# The descriptor tables of a guest

`GetGDTEntry` and `SetGDTEntry` run through the same checks and differ in the physical access they
make, and so do `GetIDTEntry` and `SetIDTEntry`. Each pair is one body over that access.
`ReadSegment` and `GetSegmentSize` stand on `GetGDTEntry`. Variables that a function declares
without a value are arguments here.
-/

namespace Virt86

open BitSlices

def CR0_PE : U64 := 1#64 <<< 0
def RFLAGS_VM : U64 := 1#64 <<< 17
def EFER_LMA : U64 := 1#64 <<< 10

inductive CPUExecutionMode where
  | Unknown | RealAddress | Virtual8086 | Protected | IA32e
  deriving DecidableEq, Repr

inductive SegmentSize where
  | Invalid | _16 | _32 | _64
  deriving DecidableEq, Repr

/-- A call of `MemRead` or `MemWrite`, and whether it returned true. -/
structure TableAccess where
  paddr : U64
  size : U64
  succeeded : Bool
  deriving DecidableEq, Repr

/-- The status a call returned, the physical accesses it made and the state it left. -/
structure TableOutcome (σ : Type) where
  status : VPOperationStatus
  issued : List TableAccess
  state : σ

/-- The descriptor types that take up 16 bytes in IA-32e mode, where all others are reserved: LDT,
available and busy TSS, call gate, interrupt gate and trap gate. -/
def extendedTypes : List (BitVec 4) := [0b0010, 0b1001, 0b1011, 0b1100, 0b1110, 0b1111]

/-- The descriptor types that are reserved outside IA-32e mode. -/
def reservedTypes : List (BitVec 4) := [0b0000, 0b1000, 0b1010, 0b1101]

/-- `IDTEntry`. -/
abbrev IDTEntry := U64

namespace Guest

variable (g : Guest)

def getExecutionMode : CPUExecutionMode :=
  match g.regRead .CR0, g.regRead .RFLAGS, g.regRead .EFER with
  | .ok cr0, .ok rflags, .ok efer =>
    if cr0.u64 &&& CR0_PE = 0 then .RealAddress
    else if rflags.u64 &&& RFLAGS_VM ≠ 0 then .Virtual8086
    else if efer.u64 &&& EFER_LMA ≠ 0 then .IA32e
    else .Protected
  | _, _, _ => .Unknown

def isIA32eMode : Bool := g.getExecutionMode = .IA32e

def computeSegmentSize (value : RegValue) : SegmentSize :=
  let attributes := SegmentAttributes.ofBits value.segmentAttributes
  if g.isIA32eMode ∧ attributes.longMode ≠ 0 then ._64
  else if attributes.defaultSize ≠ 0 then ._32
  else ._16

section Accesses

variable {σ : Type} (access : (paddr size : U64) → σ → Bool × σ)

/-- The body shared by `GetGDTEntry` and `SetGDTEntry`. `entry` is the entry whose type they look
at after the first access. -/
def gdtAccess (entry : σ → GDTEntry) (selector : U16) (s : σ) : TableOutcome σ :=
  match g.regRead .GDTR with
  | .error status => ⟨status, [], s⟩
  | .ok gdt =>
    if selector.toNat + 8 > gdt.tableLimit.toNat then ⟨.InvalidSelector, [], s⟩
    else
      let paddr := gdt.tableBase + selector.setWidth 64
      let (result, s) := access paddr 8 s
      let issued := [⟨paddr, 8, result⟩]
      if result = false then ⟨.Failed, issued, s⟩
      else if (entry s).generic.system ≠ 0 then ⟨.OK, issued, s⟩
      else if g.isIA32eMode then
        if (entry s).generic.type ∈ extendedTypes then
          if selector.toNat + 16 > gdt.tableLimit.toNat then ⟨.InvalidSelector, issued, s⟩
          else
            let (result, s) := access paddr 16 s
            let issued := issued ++ [⟨paddr, 16, result⟩]
            if result = false then ⟨.Failed, issued, s⟩ else ⟨.OK, issued, s⟩
        else ⟨.InvalidSelector, issued, s⟩
      else if (entry s).generic.type ∈ reservedTypes then ⟨.InvalidSelector, issued, s⟩
      else ⟨.OK, issued, s⟩

/-- The body shared by `GetIDTEntry` and `SetIDTEntry`. -/
def idtAccess (vector : U8) (s : σ) : TableOutcome σ :=
  match g.regRead .IDTR with
  | .error status => ⟨status, [], s⟩
  | .ok idt =>
    if vector.toNat * 8 > idt.tableLimit.toNat then ⟨.InvalidSelector, [], s⟩
    else
      let paddr := idt.tableBase + vector.setWidth 64 * 8
      let (result, s) := access paddr 8 s
      let issued := [⟨paddr, 8, result⟩]
      if result = false then ⟨.Failed, issued, s⟩ else ⟨.OK, issued, s⟩

end Accesses

/-- `MemRead` into a variable that takes up `w / 8` bytes. -/
def readInto {w : ℕ} (mem : HostMemory) (paddr size : U64) (x : BitVec w) : Bool × BitVec w :=
  let (result, bytes) := memReadEffect mem g.regions paddr size (toBytes x)
  (result, ofBytes w bytes (w / 8))

/-- `MemWrite` from a variable. -/
def writeFrom {w : ℕ} (x : BitVec w) (paddr size : U64) (mem : HostMemory) : Bool × HostMemory :=
  memWriteEffect mem g.regions paddr size (toBytes x)

def getGDTEntry (mem : HostMemory) (selector : U16) (entry : GDTEntry) : TableOutcome GDTEntry :=
  g.gdtAccess (g.readInto mem) id selector entry

def setGDTEntry (selector : U16) (entry : GDTEntry) (mem : HostMemory) : TableOutcome HostMemory :=
  g.gdtAccess (g.writeFrom entry) (fun _ => entry) selector mem

def getIDTEntry (mem : HostMemory) (vector : U8) (entry : IDTEntry) : TableOutcome IDTEntry :=
  g.idtAccess (g.readInto mem) vector entry

def setIDTEntry (vector : U8) (entry : IDTEntry) (mem : HostMemory) : TableOutcome HostMemory :=
  g.idtAccess (g.writeFrom entry) vector mem

end Guest

/-- The four assignments to `value.segment`. -/
def RegValue.setSegment (value : RegValue) (selector : U16) (base : U64) (limit : U32)
    (attributes : U16) : RegValue :=
  let value := value.setSegmentSelector selector
  let value := value.setSegmentBase base
  let value := value.setSegmentLimit limit
  value.setSegmentAttributes attributes

namespace Guest

variable (g : Guest)

/-- What `ReadSegment` does once it has the descriptor. -/
def loadSegment (selector : U16) (gdtEntry : GDTEntry) (value : RegValue) :
    VPOperationStatus × RegValue :=
  let type := gdtEntry.generic.type
  if gdtEntry.generic.system = 0 then
    if type = 0b0010 then
      (.OK, value.setSegment selector gdtEntry.ldt.getBase gdtEntry.ldt.getLimit
        gdtEntry.ldt.getAttributes)
    else if type = 0b0001 ∨ type = 0b0011 ∨ type = 0b1001 ∨ type = 0b1011 then
      if type &&& 0b1000 = 0 ∧ g.isIA32eMode then (.InvalidSelector, value)
      else
        (.OK, value.setSegment selector gdtEntry.tss.getBase gdtEntry.tss.getLimit
          gdtEntry.tss.getAttributes)
    else (.InvalidSelector, value)
  else
    (.OK, value.setSegment selector (gdtEntry.gdt.getBase.setWidth 64) gdtEntry.gdt.getLimit
      gdtEntry.gdt.getAttributes)

/-- `ReadSegment`; `gdtEntry` is what its variable of that name holds at first. -/
def readSegment (mem : HostMemory) (gdtEntry : GDTEntry) (selector : U16) (value : RegValue) :
    TableOutcome RegValue :=
  let o := g.getGDTEntry mem selector gdtEntry
  if o.status ≠ .OK then ⟨o.status, o.issued, value⟩
  else
    let (status, value) := g.loadSegment selector o.state value
    ⟨status, o.issued, value⟩

/-- `GetSegmentSize` of a selector; `gdtEntry` and `value` are what the variables of these names
hold at first. -/
def getSegmentSize (mem : HostMemory) (gdtEntry : GDTEntry) (value : RegValue) (selector : U16)
    (size : SegmentSize) : TableOutcome SegmentSize :=
  let o := g.readSegment mem gdtEntry selector value
  if o.status ≠ .OK then ⟨o.status, o.issued, size⟩
  else ⟨.OK, o.issued, g.computeSegmentSize o.state⟩

end Guest

/-! ## The exits of the shared bodies -/

/-- What the checks of an entry's type make of it. -/
inductive DescriptorKind where
  | plain | extended | reserved
  deriving DecidableEq, Repr

namespace Guest

def descriptorKind (g : Guest) (d : GenericGDTDescriptor) : DescriptorKind :=
  if d.system ≠ 0 then .plain
  else if g.isIA32eMode then if d.type ∈ extendedTypes then .extended else .reserved
  else if d.type ∈ reservedTypes then .reserved
  else .plain

/-- The rest of `GetGDTEntry` and `SetGDTEntry` after a first access that returned true and left the
state `s`, by what the checks of the type make of the entry. -/
def afterFirst {σ : Type} (access : (paddr size : U64) → σ → Bool × σ) (gdt : RegValue)
    (selector : U16) (s : σ) : DescriptorKind → TableOutcome σ
  | .plain => ⟨.OK, [⟨gdt.tableBase + selector.setWidth 64, 8, true⟩], s⟩
  | .reserved => ⟨.InvalidSelector, [⟨gdt.tableBase + selector.setWidth 64, 8, true⟩], s⟩
  | .extended =>
    let paddr := gdt.tableBase + selector.setWidth 64
    if gdt.tableLimit.toNat < selector.toNat + 16 then
      ⟨.InvalidSelector, [⟨paddr, 8, true⟩], s⟩
    else
      ⟨if (access paddr 16 s).1 then .OK else .Failed,
        [⟨paddr, 8, true⟩, ⟨paddr, 16, (access paddr 16 s).1⟩], (access paddr 16 s).2⟩

variable {g : Guest} {σ : Type} {access : (paddr size : U64) → σ → Bool × σ} {entry : σ → GDTEntry}
  {gdt idt : RegValue} {selector : U16} {vector : U8} {s s₁ s₂ : σ} {result : Bool}

theorem gdtAccess_of_error {status : VPOperationStatus} (hgdt : g.regRead .GDTR = .error status) :
    g.gdtAccess access entry selector s = ⟨status, [], s⟩ := by
  simp only [gdtAccess, hgdt]

theorem gdtAccess_of_beyond (hgdt : g.regRead .GDTR = .ok gdt)
    (h : gdt.tableLimit.toNat < selector.toNat + 8) :
    g.gdtAccess access entry selector s = ⟨.InvalidSelector, [], s⟩ := by
  simp only [gdtAccess, hgdt]
  rw [if_pos h]

section Within

variable (hgdt : g.regRead .GDTR = .ok gdt) (h : selector.toNat + 8 ≤ gdt.tableLimit.toNat)

include hgdt h

theorem gdtAccess_of_fault
    (hfirst : access (gdt.tableBase + selector.setWidth 64) 8 s = (false, s₁)) :
    g.gdtAccess access entry selector s =
      ⟨.Failed, [⟨gdt.tableBase + selector.setWidth 64, 8, false⟩], s₁⟩ := by
  simp only [gdtAccess, hgdt, hfirst, if_true]
  rw [if_neg (Nat.not_lt.mpr h)]

variable (hfirst : access (gdt.tableBase + selector.setWidth 64) 8 s = (true, s₁))

include hfirst

theorem gdtAccess_of_first : g.gdtAccess access entry selector s =
    afterFirst access gdt selector s₁ (g.descriptorKind (entry s₁).generic) := by
  simp only [gdtAccess, hgdt, hfirst, descriptorKind]
  rw [if_neg (Nat.not_lt.mpr h), if_neg (by simp)]
  split_ifs with hsystem hmode htype hlimit hsecond hreserved
  · rfl
  · simp only [afterFirst, if_pos hlimit]
  · simp only [afterFirst, if_neg hlimit, hsecond, if_neg Bool.false_ne_true]
    rfl
  · simp only [afterFirst, if_neg hlimit, Bool.not_eq_false] at hsecond ⊢
    rw [hsecond]
    rfl
  · rfl
  · rfl
  · rfl

end Within

theorem idtAccess_of_beyond (hidt : g.regRead .IDTR = .ok idt)
    (h : idt.tableLimit.toNat < vector.toNat * 8) :
    g.idtAccess access vector s = ⟨.InvalidSelector, [], s⟩ := by
  simp only [idtAccess, hidt]
  rw [if_pos h]

theorem idtAccess_of_within (hidt : g.regRead .IDTR = .ok idt)
    (h : vector.toNat * 8 ≤ idt.tableLimit.toNat)
    (haccess : access (idt.tableBase + vector.setWidth 64 * 8) 8 s = (result, s₁)) :
    g.idtAccess access vector s = ⟨if result then .OK else .Failed,
      [⟨idt.tableBase + vector.setWidth 64 * 8, 8, result⟩], s₁⟩ := by
  simp only [idtAccess, hidt, haccess]
  rw [if_neg (Nat.not_lt.mpr h)]
  cases result with
  | false => rfl
  | true => rfl

end Guest

/-! ## Variables in memory -/

/-- The word of `w` bits whose bytes start at a host address. -/
def HostMemory.wordAt (mem : HostMemory) (host : U64) (w : ℕ) : BitVec w :=
  ofBytes w (fun i => mem (host + BitVec.ofNat 64 i)) (w / 8)

theorem HostMemory.wordAt_eq {w len : ℕ} {mem : HostMemory} {host : U64} {x : BitVec w}
    (hlen : 8 * (len / 8) = len)
    (h : ∀ i < len / 8, mem (host + BitVec.ofNat 64 i) = toBytes x i) :
    mem.wordAt host len = x.extractLsb' 0 len := by
  apply BitVec.eq_of_getLsbD_eq
  intro i hi
  rw [HostMemory.wordAt, getLsbD_ofBytes _ _ hi, h _ (by omega), toBytes,
    BitVec.getLsbD_extractLsb', BitVec.getLsbD_extractLsb', Nat.div_add_mod, Nat.zero_add]
  simp [hi, show i < 8 * (len / 8) by omega, Nat.mod_lt]

/-- Bytes that were stored are read back. -/
theorem HostMemory.wordAt_store {w len : ℕ} (mem : HostMemory) (host count : U64) (x : BitVec w)
    (hcount : 8 * count.toNat = len) :
    (mem.store host (toBytes x) count).wordAt host len = x.extractLsb' 0 len :=
  wordAt_eq (by omega) fun i hi => store_window (by omega)

namespace Guest

variable {g : Guest} {mem : HostMemory} {paddr size : U64} {c : MemCopy} {w len : ℕ}

/-- Bytes that are read replace the low part of the variable. -/
theorem readInto_of_some (h : memCopy g.regions paddr size = some c)
    (hcount : 8 * c.count.toNat = len) (hw : 8 * (w / 8) = w) (x : BitVec w) :
    g.readInto mem paddr size x = (true, setSlice x 0 (mem.wordAt c.host len)) := by
  suffices hword : ofBytes w (mem.load c.host c.count (toBytes x)) (w / 8) =
      setSlice x 0 (mem.wordAt c.host len) by
    rw [readInto, memReadEffect_of_some h]
    exact congrArg (Prod.mk true) hword
  apply BitVec.eq_of_getLsbD_eq
  intro i hi
  rw [getLsbD_ofBytes _ _ hi, getLsbD_setSlice _ _ _ hi, HostMemory.load, Nat.zero_add,
    Nat.sub_zero]
  by_cases hlow : i < len
  · rw [if_pos (show i / 8 < c.count.toNat by omega), if_pos (by omega), HostMemory.wordAt,
      getLsbD_ofBytes _ _ hlow]
    simp [show i < 8 * (w / 8) by omega, show i < 8 * (len / 8) by omega]
  · rw [if_neg (show ¬ i / 8 < c.count.toNat by omega), if_neg (by omega), toBytes,
      BitVec.getLsbD_extractLsb', Nat.div_add_mod]
    simp [show i < 8 * (w / 8) by omega, Nat.mod_lt]

theorem writeFrom_of_some (h : memCopy g.regions paddr size = some c) (x : BitVec w) :
    g.writeFrom x paddr size mem = (true, mem.store c.host (toBytes x) c.count) :=
  memWriteEffect_of_some h

theorem writeFrom_of_none (h : memCopy g.regions paddr size = none) (x : BitVec w) :
    g.writeFrom x paddr size mem = (false, mem) :=
  memWriteEffect_of_none h

end Guest

section Tables

variable (value : RegValue) (base : U64) (limit : U16)

theorem RegValue.tableBase_setTable :
    ((value.setTableBase base).setTableLimit limit).tableBase = base := by
  simp (disch := omega) only [tableBase, setTableBase, setTableLimit, extractLsb'_setSlice,
    extractLsb'_setSlice_of_disjoint]

theorem RegValue.tableLimit_setTable :
    ((value.setTableBase base).setTableLimit limit).tableLimit = limit := by
  simp (disch := omega) only [tableLimit, setTableLimit, extractLsb'_setSlice]

end Tables

/-- A table at 0x1000. -/
def tableValue (limit : U16) : RegValue :=
  RegValue.setTableLimit (RegValue.setTableBase 0 0x1000) limit

/-- A guest of one page at 0x1000, where both of its tables start. -/
def tablePage (limit : U16) (cr0 efer : U64) : Guest where
  regions := [⟨0x1000, 0x1000, 0x10000⟩]
  regRead
    | .GDTR | .IDTR => .ok (tableValue limit)
    | .CR0 => .ok (RegValue.setU64 0 cr0)
    | .EFER => .ok (RegValue.setU64 0 efer)
    | _ => .ok 0
  entry _ := 0

end Virt86
