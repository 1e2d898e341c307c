import Virt86.BatchedWrites
import Virt86.Registers

/-!
# The registers of a WHPX virtual processor

The hypervisor keeps the registers of a processor under names of its own, each a union of 128 bits.
Several names of `Reg` are views of one of them. A write fetches the registers that it names, puts
the new values into what it fetched and stores the results.
-/

namespace Virt86

namespace Whpx

open BitSlices

/-- `VersionInfo`: the components share their bytes with the word that comparisons look at. -/
structure VersionInfo where
  major : U16
  minor : U16
  build : U16
  revision : U16
  deriving DecidableEq, Repr

def VersionInfo.ver (v : VersionInfo) : U64 := v.revision ++ v.build ++ v.minor ++ v.major

/-- The names of `WHV_REGISTER_NAME` that registers translate to, without `WHvX64Register`. -/
inductive WhvRegisterName where
  | Cs | Ss | Ds | Es | Fs | Gs | Ldtr | Tr
  | Gdtr | Idtr
  | Rax | Rcx | Rdx | Rbx | Rsp | Rbp | Rsi | Rdi
  | R8 | R9 | R10 | R11 | R12 | R13 | R14 | R15
  | Rip | Rflags
  | Cr0 | Cr2 | Cr3 | Cr4 | Cr8
  | Efer | XCr0
  | Dr0 | Dr1 | Dr2 | Dr3 | Dr6 | Dr7
  | FpMmx0 | FpMmx1 | FpMmx2 | FpMmx3 | FpMmx4 | FpMmx5 | FpMmx6 | FpMmx7
  | Xmm0 | Xmm1 | Xmm2 | Xmm3 | Xmm4 | Xmm5 | Xmm6 | Xmm7
  | Xmm8 | Xmm9 | Xmm10 | Xmm11 | Xmm12 | Xmm13 | Xmm14 | Xmm15
  deriving DecidableEq, Repr

/-- `TranslateRegisterName` under the version `g_whpxVersion`, without a name where it answers
`Unsupported`. -/
def translateRegisterName (whpxVersion : VersionInfo) : Reg → Option WhvRegisterName
  | .CS => some .Cs
  | .SS => some .Ss
  | .DS => some .Ds
  | .ES => some .Es
  | .FS => some .Fs
  | .GS => some .Gs
  | .LDTR => some .Ldtr
  | .TR => some .Tr
  | .GDTR => some .Gdtr
  | .IDTR => some .Idtr
  | .AL | .AH | .AX | .EAX | .RAX => some .Rax
  | .CL | .CH | .CX | .ECX | .RCX => some .Rcx
  | .DL | .DH | .DX | .EDX | .RDX => some .Rdx
  | .BL | .BH | .BX | .EBX | .RBX => some .Rbx
  | .SPL | .SP | .ESP | .RSP => some .Rsp
  | .BPL | .BP | .EBP | .RBP => some .Rbp
  | .SIL | .SI | .ESI | .RSI => some .Rsi
  | .DIL | .DI | .EDI | .RDI => some .Rdi
  | .R8B | .R8W | .R8D | .R8 => some .R8
  | .R9B | .R9W | .R9D | .R9 => some .R9
  | .R10B | .R10W | .R10D | .R10 => some .R10
  | .R11B | .R11W | .R11D | .R11 => some .R11
  | .R12B | .R12W | .R12D | .R12 => some .R12
  | .R13B | .R13W | .R13D | .R13 => some .R13
  | .R14B | .R14W | .R14D | .R14 => some .R14
  | .R15B | .R15W | .R15D | .R15 => some .R15
  | .IP | .EIP | .RIP => some .Rip
  | .FLAGS | .EFLAGS | .RFLAGS => some .Rflags
  | .CR0 => some .Cr0
  | .CR2 => some .Cr2
  | .CR3 => some .Cr3
  | .CR4 => some .Cr4
  | .CR8 => some .Cr8
  | .EFER => some .Efer
  | .XCR0 => if whpxVersion.ver ≥ (VersionInfo.mk 10 0 17763 0).ver then some .XCr0 else none
  | .DR0 => some .Dr0
  | .DR1 => some .Dr1
  | .DR2 => some .Dr2
  | .DR3 => some .Dr3
  | .DR6 => some .Dr6
  | .DR7 => some .Dr7
  | .ST0 | .MM0 => some .FpMmx0
  | .ST1 | .MM1 => some .FpMmx1
  | .ST2 | .MM2 => some .FpMmx2
  | .ST3 | .MM3 => some .FpMmx3
  | .ST4 | .MM4 => some .FpMmx4
  | .ST5 | .MM5 => some .FpMmx5
  | .ST6 | .MM6 => some .FpMmx6
  | .ST7 | .MM7 => some .FpMmx7
  | .XMM0 => some .Xmm0
  | .XMM1 => some .Xmm1
  | .XMM2 => some .Xmm2
  | .XMM3 => some .Xmm3
  | .XMM4 => some .Xmm4
  | .XMM5 => some .Xmm5
  | .XMM6 => some .Xmm6
  | .XMM7 => some .Xmm7
  | .XMM8 => some .Xmm8
  | .XMM9 => some .Xmm9
  | .XMM10 => some .Xmm10
  | .XMM11 => some .Xmm11
  | .XMM12 => some .Xmm12
  | .XMM13 => some .Xmm13
  | .XMM14 => some .Xmm14
  | .XMM15 => some .Xmm15
  | _ => none

/-- The 16 bytes of the union `WHV_REGISTER_VALUE`, as one little-endian word. -/
abbrev WhvRegisterValue := BitVec 128

namespace WhvRegisterValue

def reg64 (v : WhvRegisterValue) : U64 := v.extractLsb' 0 64
def setReg64 (v : WhvRegisterValue) (x : U64) : WhvRegisterValue := setSlice v 0 x

def segmentBase (v : WhvRegisterValue) : U64 := v.extractLsb' 0 64
def segmentLimit (v : WhvRegisterValue) : U32 := v.extractLsb' 64 32
def segmentSelector (v : WhvRegisterValue) : U16 := v.extractLsb' 96 16
def segmentAttributes (v : WhvRegisterValue) : U16 := v.extractLsb' 112 16

def setSegmentBase (v : WhvRegisterValue) (x : U64) : WhvRegisterValue := setSlice v 0 x
def setSegmentLimit (v : WhvRegisterValue) (x : U32) : WhvRegisterValue := setSlice v 64 x
def setSegmentSelector (v : WhvRegisterValue) (x : U16) : WhvRegisterValue := setSlice v 96 x
def setSegmentAttributes (v : WhvRegisterValue) (x : U16) : WhvRegisterValue := setSlice v 112 x

/-- The limit of a table comes before its base, after 48 bits of padding. -/
def tableLimit (v : WhvRegisterValue) : U16 := v.extractLsb' 48 16
def tableBase (v : WhvRegisterValue) : U64 := v.extractLsb' 64 64

def setTableLimit (v : WhvRegisterValue) (x : U16) : WhvRegisterValue := setSlice v 48 x
def setTableBase (v : WhvRegisterValue) (x : U64) : WhvRegisterValue := setSlice v 64 x

def fpMantissa (v : WhvRegisterValue) : U64 := v.extractLsb' 0 64
def fpBiasedExponent (v : WhvRegisterValue) : BitVec 15 := v.extractLsb' 64 15
def fpSign (v : WhvRegisterValue) : BitVec 1 := v.extractLsb' 79 1

def setFpMantissa (v : WhvRegisterValue) (x : U64) : WhvRegisterValue := setSlice v 0 x
def setFpBiasedExponent (v : WhvRegisterValue) (x : BitVec 15) : WhvRegisterValue := setSlice v 64 x
def setFpSign (v : WhvRegisterValue) (x : BitVec 1) : WhvRegisterValue := setSlice v 79 x

def reg128Low64 (v : WhvRegisterValue) : U64 := v.extractLsb' 0 64
def reg128High64 (v : WhvRegisterValue) : U64 := v.extractLsb' 64 64

def setReg128Low64 (v : WhvRegisterValue) (x : U64) : WhvRegisterValue := setSlice v 0 x
def setReg128High64 (v : WhvRegisterValue) (x : U64) : WhvRegisterValue := setSlice v 64 x

end WhvRegisterValue

/-- The groups of labels in `TranslateRegisterValue`. -/
inductive RegisterView where
  | segment | table | lowByte | highByte | lowWord | dword | qword | st | mm | xmm | other
  deriving DecidableEq, Repr

def registerView : Reg → RegisterView
  | .CS | .SS | .DS | .ES | .FS | .GS | .LDTR | .TR => .segment
  | .GDTR | .IDTR => .table
  | .EFER => .qword
  | .AL | .CL | .DL | .BL | .SPL | .BPL | .SIL | .DIL
  | .R8B | .R9B | .R10B | .R11B | .R12B | .R13B | .R14B | .R15B => .lowByte
  | .AH | .CH | .DH | .BH => .highByte
  | .AX | .CX | .DX | .BX | .SP | .BP | .SI | .DI
  | .R8W | .R9W | .R10W | .R11W | .R12W | .R13W | .R14W | .R15W
  | .IP | .FLAGS => .lowWord
  | .EAX | .ECX | .EDX | .EBX | .ESP | .EBP | .ESI | .EDI
  | .R8D | .R9D | .R10D | .R11D | .R12D | .R13D | .R14D | .R15D
  | .EIP | .EFLAGS => .dword
  | .RAX | .RCX | .RDX | .RBX | .RSP | .RBP | .RSI | .RDI
  | .R8 | .R9 | .R10 | .R11 | .R12 | .R13 | .R14 | .R15
  | .RIP | .RFLAGS
  | .CR0 | .CR2 | .CR3 | .CR4 | .CR8
  | .DR0 | .DR1 | .DR2 | .DR3 | .DR6 | .DR7
  | .XCR0 => .qword
  | .ST0 | .ST1 | .ST2 | .ST3 | .ST4 | .ST5 | .ST6 | .ST7 => .st
  | .MM0 | .MM1 | .MM2 | .MM3 | .MM4 | .MM5 | .MM6 | .MM7 => .mm
  | .XMM0 | .XMM1 | .XMM2 | .XMM3 | .XMM4 | .XMM5 | .XMM6 | .XMM7
  | .XMM8 | .XMM9 | .XMM10 | .XMM11 | .XMM12 | .XMM13 | .XMM14 | .XMM15 => .xmm
  | _ => .other

/-- The statements under a group of labels. -/
def RegisterView.store (value : RegValue) (output : WhvRegisterValue) :
    RegisterView → WhvRegisterValue
  | .segment =>
    (((output.setSegmentSelector value.segmentSelector).setSegmentBase
      value.segmentBase).setSegmentLimit value.segmentLimit).setSegmentAttributes
      value.segmentAttributes
  | .table => (output.setTableBase value.tableBase).setTableLimit value.tableLimit
  | .lowByte => output.setReg64 (setLowByte output.reg64 value.u8)
  | .highByte => output.setReg64 (setHighByte output.reg64 value.u8)
  | .lowWord => output.setReg64 (setLowWord output.reg64 value.u16)
  | .dword => output.setReg64 (value.u32.setWidth 64)
  | .qword => output.setReg64 value.u64
  | .st =>
    ((output.setFpMantissa value.stSignificand).setFpBiasedExponent
      ((value.stExponentSign &&& 0x7FFF).setWidth 15)).setFpSign
      ((value.stExponentSign >>> 15).setWidth 1)
  | .mm => output.setReg64 value.mmI64
  | .xmm => (output.setReg128Low64 value.xmmI64Low).setReg128High64 value.xmmI64High
  | .other => output

/-- `TranslateRegisterValue` for a write: puts `value` into what was fetched. -/
def translateRegisterValue (reg : Reg) (value : RegValue) (output : WhvRegisterValue) :
    WhvRegisterValue :=
  (registerView reg).store value output

/-- What a read makes of a register, by the groups of labels of a write. The views of a register of
64 bits are one group for it. -/
def RegisterView.load (value : WhvRegisterValue) : RegisterView → RegValue
  | .segment =>
    ((((0 : RegValue).setSegmentSelector value.segmentSelector).setSegmentBase
      value.segmentBase).setSegmentLimit value.segmentLimit).setSegmentAttributes
      value.segmentAttributes
  | .table => ((0 : RegValue).setTableBase value.tableBase).setTableLimit value.tableLimit
  | .lowByte | .highByte | .lowWord | .dword | .qword => (0 : RegValue).setU64 value.reg64
  | .st =>
    ((0 : RegValue).setStSignificand value.fpMantissa).setStExponentSign
      (value.fpBiasedExponent.setWidth 16 ||| (value.fpSign.setWidth 16 <<< 15))
  | .mm => (0 : RegValue).setMmI64 value.reg64
  | .xmm =>
    ((0 : RegValue).setXmmI64Low value.reg128Low64).setXmmI64High value.reg128High64
  | .other => 0

/-- `TranslateRegisterValue` for a read. -/
def translateRegisterValueRead (reg : Reg) (value : WhvRegisterValue) : RegValue :=
  (registerView reg).load value

/-! ## The bits that a write replaces -/

/-- The bits under a group of labels that are replaced. -/
def RegisterView.Writes : RegisterView → ℕ → Prop
  | .segment, _ | .xmm, _ => True
  | .table, i => 48 ≤ i
  | .lowByte, i => i < 8
  | .highByte, i => 8 ≤ i ∧ i < 16
  | .lowWord, i => i < 16
  | .dword, i | .qword, i | .mm, i => i < 64
  | .st, i => i < 80
  | .other, _ => False

instance : DecidableRel RegisterView.Writes
  | .segment, _ | .xmm, _ => instDecidableTrue
  | .table, i => inferInstanceAs (Decidable (48 ≤ i))
  | .lowByte, i => inferInstanceAs (Decidable (i < 8))
  | .highByte, i => inferInstanceAs (Decidable (8 ≤ i ∧ i < 16))
  | .lowWord, i => inferInstanceAs (Decidable (i < 16))
  | .dword, i | .qword, i | .mm, i => inferInstanceAs (Decidable (i < 64))
  | .st, i => inferInstanceAs (Decidable (i < 80))
  | .other, _ => instDecidableFalse

theorem getLsbD_setReg64_setSlice {len start : ℕ} (x : WhvRegisterValue) (v : BitVec len)
    (h : start + len ≤ 64) {i : ℕ} (hi : i < 128) :
    (x.setReg64 (setSlice x.reg64 start v)).getLsbD i =
      if start ≤ i ∧ i < start + len then v.getLsbD (i - start) else x.getLsbD i := by
  rw [WhvRegisterValue.setReg64, WhvRegisterValue.reg64, setSlice_zero_setSlice x v h,
    getLsbD_setSlice x start v hi]

/-- A store puts the bits of `value` where the view writes, whatever was there. -/
theorem RegisterView.getLsbD_store (view : RegisterView) (value : RegValue)
    (output : WhvRegisterValue) {i : ℕ} (hi : i < 128) :
    (view.store value output).getLsbD i =
      if view.Writes i then (view.store value 0).getLsbD i else output.getLsbD i := by
  cases view with
  | segment =>
    simp only [RegisterView.store, RegisterView.Writes, WhvRegisterValue.setSegmentSelector,
      WhvRegisterValue.setSegmentBase, WhvRegisterValue.setSegmentLimit,
      WhvRegisterValue.setSegmentAttributes, getLsbD_setSlice _ _ _ hi]
    grind
  | table =>
    simp only [RegisterView.store, RegisterView.Writes, WhvRegisterValue.setTableBase,
      WhvRegisterValue.setTableLimit, getLsbD_setSlice _ _ _ hi]
    grind
  | lowByte =>
    simp only [RegisterView.store, RegisterView.Writes, setLowByte_eq_setSlice,
      getLsbD_setReg64_setSlice _ value.u8 (show 0 + 8 ≤ 64 by omega) hi]
    grind
  | highByte =>
    simp only [RegisterView.store, RegisterView.Writes, setHighByte_eq_setSlice,
      getLsbD_setReg64_setSlice _ value.u8 (show 8 + 8 ≤ 64 by omega) hi]
    grind
  | lowWord =>
    simp only [RegisterView.store, RegisterView.Writes, setLowWord_eq_setSlice,
      getLsbD_setReg64_setSlice _ value.u16 (show 0 + 16 ≤ 64 by omega) hi]
    grind
  | dword | qword | mm =>
    simp only [RegisterView.store, RegisterView.Writes, WhvRegisterValue.setReg64,
      getLsbD_setSlice _ _ _ hi]
    grind
  | st =>
    simp only [RegisterView.store, RegisterView.Writes, WhvRegisterValue.setFpMantissa,
      WhvRegisterValue.setFpBiasedExponent, WhvRegisterValue.setFpSign,
      getLsbD_setSlice _ _ _ hi]
    grind
  | xmm =>
    simp only [RegisterView.store, RegisterView.Writes, WhvRegisterValue.setReg128Low64,
      WhvRegisterValue.setReg128High64, getLsbD_setSlice _ _ _ hi]
    grind
  | other => simp [RegisterView.store, RegisterView.Writes]

/-! ## Register accesses -/

/-- A processor and the hypervisor behind it. `answers` tells which of the coming calls succeed,
all of them once the list ends. -/
structure WhpxRegisterState where
  whpxVersion : VersionInfo
  registers : WhvRegisterName → WhvRegisterValue
  answers : List Bool

namespace WhpxRegisterState

def answer (s : WhpxRegisterState) : Bool × WhpxRegisterState :=
  match s.answers with
  | [] => (true, s)
  | ok :: answers => (ok, { s with answers })

/-- `WHvGetVirtualProcessorRegisters`. -/
def getVirtualProcessorRegisters (s : WhpxRegisterState) (names : List WhvRegisterName) :
    Option (List WhvRegisterValue) × WhpxRegisterState :=
  match s.answer with
  | (true, s) => (some (names.map s.registers), s)
  | (false, s) => (none, s)

/-- `WHvSetVirtualProcessorRegisters`, which stores the listed values in order. -/
def setVirtualProcessorRegisters (s : WhpxRegisterState)
    (values : List (WhvRegisterName × WhvRegisterValue)) : Bool × WhpxRegisterState :=
  match s.answer with
  | (true, s) => (true, { s with registers := BatchedWrites.storeAll s.registers values })
  | (false, s) => (false, s)

/-- `RegRead` for an array of registers and the array of their values. -/
def regReadBulk (s : WhpxRegisterState) (regs : List (Reg × RegValue)) :
    (VPOperationStatus × List RegValue) × WhpxRegisterState :=
  match regs.mapM fun entry => translateRegisterName s.whpxVersion entry.1 with
  | none => ((.Unsupported, regs.map Prod.snd), s)
  | some whvRegs =>
    match s.getVirtualProcessorRegisters whvRegs with
    | (none, s) => ((.Failed, regs.map Prod.snd), s)
    | (some whvVals, s) =>
      ((.OK, List.zipWith (fun entry value => translateRegisterValueRead entry.1 value)
        regs whvVals), s)

/-- `RegRead` for one register. -/
def regRead (s : WhpxRegisterState) (reg : Reg) (value : RegValue) :
    (VPOperationStatus × RegValue) × WhpxRegisterState :=
  let ((status, values), s) := s.regReadBulk [(reg, value)]
  ((status, values.headD value), s)

/-- `RegWrite` for an array of registers. -/
def regWriteBulk (s : WhpxRegisterState) (regs : List (Reg × RegValue)) :
    VPOperationStatus × WhpxRegisterState :=
  match regs.mapM fun entry => translateRegisterName s.whpxVersion entry.1 with
  | none => (.Unsupported, s)
  | some whvRegs =>
    match s.getVirtualProcessorRegisters whvRegs with
    | (none, s) => (.Failed, s)
    | (some whvVals, s) =>
      let whvVals := List.zipWith
        (fun entry output => translateRegisterValue entry.1 entry.2 output) regs whvVals
      match s.setVirtualProcessorRegisters (whvRegs.zip whvVals) with
      | (true, s) => (.OK, s)
      | (false, s) => (.Failed, s)

/-- `RegWrite` for one register. -/
def regWrite (s : WhpxRegisterState) (reg : Reg) (value : RegValue) :
    VPOperationStatus × WhpxRegisterState :=
  s.regWriteBulk [(reg, value)]

/-- `RegWrite` for an array of registers as `VirtualProcessor` has it. -/
def regWriteLoop : List (Reg × RegValue) → WhpxRegisterState →
    VPOperationStatus × WhpxRegisterState
  | [], s => (.OK, s)
  | (reg, value) :: rest, s =>
    match s.regWrite reg value with
    | (.OK, s) => regWriteLoop rest s
    | (status, s) => (status, s)

end WhpxRegisterState

end Whpx

end Virt86
