import Mathlib.Logic.Function.Basic
import Virt86.HostInterface

/-!
# The register files of a HAXM virtual processor

The HAXM driver keeps the registers of a processor in two files, the processor state and the FPU
state. The processor object has a copy of each with a flag that tells that the copy was changed,
and one flag that tells that both copies are out of date.
-/

namespace Virt86

namespace Haxm

open BitSlices

/-- `segment_desc_t`. -/
structure SegmentDesc where
  selector : U16
  limit : U32
  base : U64
  ar : U32
  deriving DecidableEq, Repr, Inhabited

/-- `vcpu_state_t`; a union of narrower views of a register is the 64-bit register. -/
structure VcpuState where
  rax : U64
  rcx : U64
  rdx : U64
  rbx : U64
  rsp : U64
  rbp : U64
  rsi : U64
  rdi : U64
  r8 : U64
  r9 : U64
  r10 : U64
  r11 : U64
  r12 : U64
  r13 : U64
  r14 : U64
  r15 : U64
  rip : U64
  rflags : U64
  cs : SegmentDesc
  ss : SegmentDesc
  ds : SegmentDesc
  es : SegmentDesc
  fs : SegmentDesc
  gs : SegmentDesc
  ldt : SegmentDesc
  tr : SegmentDesc
  gdt : SegmentDesc
  idt : SegmentDesc
  cr0 : U64
  cr2 : U64
  cr3 : U64
  cr4 : U64
  dr0 : U64
  dr1 : U64
  dr2 : U64
  dr3 : U64
  dr6 : U64
  dr7 : U64
  pde : U64
  efer : U32
  sysenter_cs : U32
  sysenter_eip : U64
  sysenter_esp : U64
  activity_state : U32
  interruptibility_state : U64
  deriving DecidableEq, Repr, Inhabited

/-- `fx_layout`; the 16 bytes of a register are one little-endian word. -/
structure FxLayout where
  fcw : U16
  fsw : U16
  ftw : U8
  fop : U16
  fip : U32
  fcs : U16
  fdp : U32
  fds : U16
  mxcsr : U32
  mxcsr_mask : U32
  st_mm : Vector (BitVec 128) 8
  mmx_1 : Vector (BitVec 128) 8
  mmx_2 : Vector (BitVec 128) 8
  deriving DecidableEq, Repr, Inhabited

def loadSegment (value : RegValue) (segment : SegmentDesc) : RegValue :=
  (((value.setSegmentSelector segment.selector).setSegmentBase segment.base).setSegmentLimit
    segment.limit).setSegmentAttributes (segment.ar.setWidth 16)

def storeSegment (value : RegValue) (segment : SegmentDesc) : SegmentDesc :=
  { segment with
    selector := value.segmentSelector
    base := value.segmentBase
    limit := value.segmentLimit
    ar := value.segmentAttributes.setWidth 32 }

def loadTable (value : RegValue) (table : SegmentDesc) : RegValue :=
  (value.setTableBase table.base).setTableLimit (table.limit.setWidth 16)

def storeTable (value : RegValue) (table : SegmentDesc) : SegmentDesc :=
  { table with base := value.tableBase, limit := value.tableLimit.setWidth 32 }

def loadSTRegister (value : RegValue) (index : ℕ) (fpuRegs : FxLayout) : RegValue :=
  let st := fpuRegs.st_mm[index]?.getD 0
  (value.setStSignificand (st.extractLsb' 0 64)).setStExponentSign (st.extractLsb' 64 16)

def storeSTRegister (value : RegValue) (index : ℕ) (fpuRegs : FxLayout) : FxLayout :=
  let st := fpuRegs.st_mm[index]?.getD 0
  { fpuRegs with
    st_mm := fpuRegs.st_mm.setIfInBounds index
      (setSlice (setSlice st 0 value.stSignificand) 64 value.stExponentSign) }

def loadMMRegister (value : RegValue) (index : ℕ) (fpuRegs : FxLayout) : RegValue :=
  value.setMmI64 ((fpuRegs.st_mm[index]?.getD 0).extractLsb' 0 64)

def storeMMRegister (value : RegValue) (index : ℕ) (fpuRegs : FxLayout) : FxLayout :=
  { fpuRegs with
    st_mm := fpuRegs.st_mm.setIfInBounds index
      (setSlice (fpuRegs.st_mm[index]?.getD 0) 0 value.mmI64) }

/-- The first eight registers are in `mmx_1`, the others in `mmx_2`. -/
def loadXMMRegister (value : RegValue) (index : ℕ) (fpuRegs : FxLayout) : RegValue :=
  match if index < 8 then fpuRegs.mmx_1[index]? else fpuRegs.mmx_2[index - 8]? with
  | some xmm => (value.setXmmI64Low (xmm.extractLsb' 0 64)).setXmmI64High (xmm.extractLsb' 64 64)
  | none => value

def storeXMMRegister (value : RegValue) (index : ℕ) (fpuRegs : FxLayout) : FxLayout :=
  let xmm := value.xmmI64High ++ value.xmmI64Low
  if index < 8 then { fpuRegs with mmx_1 := fpuRegs.mmx_1.setIfInBounds index xmm }
  else { fpuRegs with mmx_2 := fpuRegs.mmx_2.setIfInBounds (index - 8) xmm }

/-- The bits of the flags that are fixed on every processor. -/
def fixupFlags (flags : U64) : U64 := (flags ||| 0x2) &&& ~~~0x8028

/-- The two register files. -/
structure HaxmRegisterFiles where
  regs : VcpuState
  fpuRegs : FxLayout
  deriving DecidableEq, Repr, Inhabited

/-- The copies of the register files in `HaxmVirtualProcessor` and their flags. -/
structure HaxmRegisterCache where
  files : HaxmRegisterFiles
  regsDirty : Bool
  regsChanged : Bool
  fpuRegsChanged : Bool
  deriving DecidableEq, Repr, Inhabited

namespace HaxmRegisterCache

def modifyRegs (c : HaxmRegisterCache) (edit : VcpuState → VcpuState) : HaxmRegisterCache :=
  { c with files := { c.files with regs := edit c.files.regs }, regsChanged := true }

def modifyFpuRegs (c : HaxmRegisterCache) (edit : FxLayout → FxLayout) : HaxmRegisterCache :=
  { c with files := { c.files with fpuRegs := edit c.files.fpuRegs }, fpuRegsChanged := true }

end HaxmRegisterCache

/-- `HaxmRegRead` on the cached files, for the registers they hold. -/
def haxmRegRead (files : HaxmRegisterFiles) (reg : Reg) (value : RegValue) :
    VPOperationStatus × RegValue :=
  match reg with
  | .CS => (.OK, loadSegment value files.regs.cs)
  | .SS => (.OK, loadSegment value files.regs.ss)
  | .DS => (.OK, loadSegment value files.regs.ds)
  | .ES => (.OK, loadSegment value files.regs.es)
  | .FS => (.OK, loadSegment value files.regs.fs)
  | .GS => (.OK, loadSegment value files.regs.gs)
  | .LDTR => (.OK, loadSegment value files.regs.ldt)
  | .TR => (.OK, loadSegment value files.regs.tr)
  | .GDTR => (.OK, loadTable value files.regs.gdt)
  | .IDTR => (.OK, loadTable value files.regs.idt)
  | .AH => (.OK, value.setU8 (files.regs.rax.extractLsb' 8 8))
  | .AL => (.OK, value.setU8 (files.regs.rax.extractLsb' 0 8))
  | .CH => (.OK, value.setU8 (files.regs.rcx.extractLsb' 8 8))
  | .CL => (.OK, value.setU8 (files.regs.rcx.extractLsb' 0 8))
  | .DH => (.OK, value.setU8 (files.regs.rdx.extractLsb' 8 8))
  | .DL => (.OK, value.setU8 (files.regs.rdx.extractLsb' 0 8))
  | .BH => (.OK, value.setU8 (files.regs.rbx.extractLsb' 8 8))
  | .BL => (.OK, value.setU8 (files.regs.rbx.extractLsb' 0 8))
  | .SPL => (.OK, value.setU8 ((files.regs.rsp.extractLsb' 0 16).setWidth 8))
  | .BPL => (.OK, value.setU8 ((files.regs.rbp.extractLsb' 0 16).setWidth 8))
  | .SIL => (.OK, value.setU8 ((files.regs.rsi.extractLsb' 0 16).setWidth 8))
  | .DIL => (.OK, value.setU8 ((files.regs.rdi.extractLsb' 0 16).setWidth 8))
  | .R8B => (.OK, value.setU8 (files.regs.r8.setWidth 8))
  | .R9B => (.OK, value.setU8 (files.regs.r9.setWidth 8))
  | .R10B => (.OK, value.setU8 (files.regs.r10.setWidth 8))
  | .R11B => (.OK, value.setU8 (files.regs.r11.setWidth 8))
  | .R12B => (.OK, value.setU8 (files.regs.r12.setWidth 8))
  | .R13B => (.OK, value.setU8 (files.regs.r13.setWidth 8))
  | .R14B => (.OK, value.setU8 (files.regs.r14.setWidth 8))
  | .R15B => (.OK, value.setU8 (files.regs.r15.setWidth 8))
  | .AX => (.OK, value.setU16 (files.regs.rax.extractLsb' 0 16))
  | .CX => (.OK, value.setU16 (files.regs.rcx.extractLsb' 0 16))
  | .DX => (.OK, value.setU16 (files.regs.rdx.extractLsb' 0 16))
  | .BX => (.OK, value.setU16 (files.regs.rbx.extractLsb' 0 16))
  | .SI => (.OK, value.setU16 (files.regs.rsi.extractLsb' 0 16))
  | .DI => (.OK, value.setU16 (files.regs.rdi.extractLsb' 0 16))
  | .SP => (.OK, value.setU16 (files.regs.rsp.extractLsb' 0 16))
  | .BP => (.OK, value.setU16 (files.regs.rbp.extractLsb' 0 16))
  | .R8W => (.OK, value.setU16 (files.regs.r8.setWidth 16))
  | .R9W => (.OK, value.setU16 (files.regs.r9.setWidth 16))
  | .R10W => (.OK, value.setU16 (files.regs.r10.setWidth 16))
  | .R11W => (.OK, value.setU16 (files.regs.r11.setWidth 16))
  | .R12W => (.OK, value.setU16 (files.regs.r12.setWidth 16))
  | .R13W => (.OK, value.setU16 (files.regs.r13.setWidth 16))
  | .R14W => (.OK, value.setU16 (files.regs.r14.setWidth 16))
  | .R15W => (.OK, value.setU16 (files.regs.r15.setWidth 16))
  | .IP => (.OK, value.setU16 ((files.regs.rip.extractLsb' 0 32).setWidth 16))
  | .FLAGS => (.OK, value.setU16 ((files.regs.rflags.extractLsb' 0 32).setWidth 16))
  | .EAX => (.OK, value.setU32 (files.regs.rax.extractLsb' 0 32))
  | .ECX => (.OK, value.setU32 (files.regs.rcx.extractLsb' 0 32))
  | .EDX => (.OK, value.setU32 (files.regs.rdx.extractLsb' 0 32))
  | .EBX => (.OK, value.setU32 (files.regs.rbx.extractLsb' 0 32))
  | .ESI => (.OK, value.setU32 (files.regs.rsi.extractLsb' 0 32))
  | .EDI => (.OK, value.setU32 (files.regs.rdi.extractLsb' 0 32))
  | .ESP => (.OK, value.setU32 (files.regs.rsp.extractLsb' 0 32))
  | .EBP => (.OK, value.setU32 (files.regs.rbp.extractLsb' 0 32))
  | .R8D => (.OK, value.setU32 (files.regs.r8.setWidth 32))
  | .R9D => (.OK, value.setU32 (files.regs.r9.setWidth 32))
  | .R10D => (.OK, value.setU32 (files.regs.r10.setWidth 32))
  | .R11D => (.OK, value.setU32 (files.regs.r11.setWidth 32))
  | .R12D => (.OK, value.setU32 (files.regs.r12.setWidth 32))
  | .R13D => (.OK, value.setU32 (files.regs.r13.setWidth 32))
  | .R14D => (.OK, value.setU32 (files.regs.r14.setWidth 32))
  | .R15D => (.OK, value.setU32 (files.regs.r15.setWidth 32))
  | .EIP => (.OK, value.setU32 (files.regs.rip.extractLsb' 0 32))
  | .EFLAGS => (.OK, value.setU32 (files.regs.rflags.extractLsb' 0 32))
  | .RAX => (.OK, value.setU64 files.regs.rax)
  | .RCX => (.OK, value.setU64 files.regs.rcx)
  | .RDX => (.OK, value.setU64 files.regs.rdx)
  | .RBX => (.OK, value.setU64 files.regs.rbx)
  | .RSI => (.OK, value.setU64 files.regs.rsi)
  | .RDI => (.OK, value.setU64 files.regs.rdi)
  | .RSP => (.OK, value.setU64 files.regs.rsp)
  | .RBP => (.OK, value.setU64 files.regs.rbp)
  | .R8 => (.OK, value.setU64 files.regs.r8)
  | .R9 => (.OK, value.setU64 files.regs.r9)
  | .R10 => (.OK, value.setU64 files.regs.r10)
  | .R11 => (.OK, value.setU64 files.regs.r11)
  | .R12 => (.OK, value.setU64 files.regs.r12)
  | .R13 => (.OK, value.setU64 files.regs.r13)
  | .R14 => (.OK, value.setU64 files.regs.r14)
  | .R15 => (.OK, value.setU64 files.regs.r15)
  | .RIP => (.OK, value.setU64 files.regs.rip)
  | .RFLAGS => (.OK, value.setU64 files.regs.rflags)
  | .CR0 => (.OK, value.setU64 files.regs.cr0)
  | .CR2 => (.OK, value.setU64 files.regs.cr2)
  | .CR3 => (.OK, value.setU64 files.regs.cr3)
  | .CR4 => (.OK, value.setU64 files.regs.cr4)
  | .DR0 => (.OK, value.setU64 files.regs.dr0)
  | .DR1 => (.OK, value.setU64 files.regs.dr1)
  | .DR2 => (.OK, value.setU64 files.regs.dr2)
  | .DR3 => (.OK, value.setU64 files.regs.dr3)
  | .DR6 => (.OK, value.setU64 files.regs.dr6)
  | .DR7 => (.OK, value.setU64 files.regs.dr7)
  | .EFER => (.OK, value.setU64 (files.regs.efer.setWidth 64))
  | .ST0 | .ST1 | .ST2 | .ST3 | .ST4 | .ST5 | .ST6 | .ST7 =>
    (.OK, loadSTRegister value (regOffset .ST0 reg) files.fpuRegs)
  | .MM0 | .MM1 | .MM2 | .MM3 | .MM4 | .MM5 | .MM6 | .MM7 =>
    (.OK, loadMMRegister value (regOffset .MM0 reg) files.fpuRegs)
  | .XMM0 | .XMM1 | .XMM2 | .XMM3 | .XMM4 | .XMM5 | .XMM6 | .XMM7
  | .XMM8 | .XMM9 | .XMM10 | .XMM11 | .XMM12 | .XMM13 | .XMM14 | .XMM15 =>
    (.OK, loadXMMRegister value (regOffset .XMM0 reg) files.fpuRegs)
  | _ => (.Unsupported, value)

/-- `HaxmRegWrite` on the copies, for the registers they hold. -/
def haxmRegWrite (c : HaxmRegisterCache) (reg : Reg) (value : RegValue) :
    VPOperationStatus × HaxmRegisterCache :=
  match reg with
  | .CS => (.OK, c.modifyRegs fun r => { r with cs := storeSegment value r.cs })
  | .SS => (.OK, c.modifyRegs fun r => { r with ss := storeSegment value r.ss })
  | .DS => (.OK, c.modifyRegs fun r => { r with ds := storeSegment value r.ds })
  | .ES => (.OK, c.modifyRegs fun r => { r with es := storeSegment value r.es })
  | .FS => (.OK, c.modifyRegs fun r => { r with fs := storeSegment value r.fs })
  | .GS => (.OK, c.modifyRegs fun r => { r with gs := storeSegment value r.gs })
  | .LDTR => (.OK, c.modifyRegs fun r => { r with ldt := storeSegment value r.ldt })
  | .TR => (.OK, c.modifyRegs fun r => { r with tr := storeSegment value r.tr })
  | .GDTR => (.OK, c.modifyRegs fun r => { r with gdt := storeTable value r.gdt })
  | .IDTR => (.OK, c.modifyRegs fun r => { r with idt := storeTable value r.idt })
  | .AH => (.OK, c.modifyRegs fun r => { r with rax := setSlice r.rax 8 value.u8 })
  | .AL => (.OK, c.modifyRegs fun r => { r with rax := setSlice r.rax 0 value.u8 })
  | .CH => (.OK, c.modifyRegs fun r => { r with rcx := setSlice r.rcx 8 value.u8 })
  | .CL => (.OK, c.modifyRegs fun r => { r with rcx := setSlice r.rcx 0 value.u8 })
  | .DH => (.OK, c.modifyRegs fun r => { r with rdx := setSlice r.rdx 8 value.u8 })
  | .DL => (.OK, c.modifyRegs fun r => { r with rdx := setSlice r.rdx 0 value.u8 })
  | .BH => (.OK, c.modifyRegs fun r => { r with rbx := setSlice r.rbx 8 value.u8 })
  | .BL => (.OK, c.modifyRegs fun r => { r with rbx := setSlice r.rbx 0 value.u8 })
  | .SPL => (.OK, c.modifyRegs fun r => { r with rsp := setSlice r.rsp 0 (value.u8.setWidth 16) })
  | .BPL => (.OK, c.modifyRegs fun r => { r with rbp := setSlice r.rbp 0 (value.u8.setWidth 16) })
  | .SIL => (.OK, c.modifyRegs fun r => { r with rsi := setSlice r.rsi 0 (value.u8.setWidth 16) })
  | .DIL => (.OK, c.modifyRegs fun r => { r with rdi := setSlice r.rdi 0 (value.u8.setWidth 16) })
  | .R8B => (.OK, c.modifyRegs fun r => { r with r8 := setLowByte r.r8 value.u8 })
  | .R9B => (.OK, c.modifyRegs fun r => { r with r9 := setLowByte r.r9 value.u8 })
  | .R10B => (.OK, c.modifyRegs fun r => { r with r10 := setLowByte r.r10 value.u8 })
  | .R11B => (.OK, c.modifyRegs fun r => { r with r11 := setLowByte r.r11 value.u8 })
  | .R12B => (.OK, c.modifyRegs fun r => { r with r12 := setLowByte r.r12 value.u8 })
  | .R13B => (.OK, c.modifyRegs fun r => { r with r13 := setLowByte r.r13 value.u8 })
  | .R14B => (.OK, c.modifyRegs fun r => { r with r14 := setLowByte r.r14 value.u8 })
  | .R15B => (.OK, c.modifyRegs fun r => { r with r15 := setLowByte r.r15 value.u8 })
  | .AX => (.OK, c.modifyRegs fun r => { r with rax := setSlice r.rax 0 value.u16 })
  | .CX => (.OK, c.modifyRegs fun r => { r with rcx := setSlice r.rcx 0 value.u16 })
  | .DX => (.OK, c.modifyRegs fun r => { r with rdx := setSlice r.rdx 0 value.u16 })
  | .BX => (.OK, c.modifyRegs fun r => { r with rbx := setSlice r.rbx 0 value.u16 })
  | .SI => (.OK, c.modifyRegs fun r => { r with rsi := setSlice r.rsi 0 value.u16 })
  | .DI => (.OK, c.modifyRegs fun r => { r with rdi := setSlice r.rdi 0 value.u16 })
  | .SP => (.OK, c.modifyRegs fun r => { r with rsp := setSlice r.rsp 0 value.u16 })
  | .BP => (.OK, c.modifyRegs fun r => { r with rbp := setSlice r.rbp 0 value.u16 })
  | .R8W => (.OK, c.modifyRegs fun r => { r with r8 := setLowWord r.r8 value.u16 })
  | .R9W => (.OK, c.modifyRegs fun r => { r with r9 := setLowWord r.r9 value.u16 })
  | .R10W => (.OK, c.modifyRegs fun r => { r with r10 := setLowWord r.r10 value.u16 })
  | .R11W => (.OK, c.modifyRegs fun r => { r with r11 := setLowWord r.r11 value.u16 })
  | .R12W => (.OK, c.modifyRegs fun r => { r with r12 := setLowWord r.r12 value.u16 })
  | .R13W => (.OK, c.modifyRegs fun r => { r with r13 := setLowWord r.r13 value.u16 })
  | .R14W => (.OK, c.modifyRegs fun r => { r with r14 := setLowWord r.r14 value.u16 })
  | .R15W => (.OK, c.modifyRegs fun r => { r with r15 := setLowWord r.r15 value.u16 })
  | .IP => (.OK, c.modifyRegs fun r => { r with rip := setSlice r.rip 0 (value.u16.setWidth 32) })
  | .FLAGS => (.OK, c.modifyRegs fun r => { r with
      rflags := setSlice r.rflags 0 ((fixupFlags (value.u16.setWidth 64)).setWidth 32) })
  | .EAX => (.OK, c.modifyRegs fun r => { r with rax := value.u32.setWidth 64 })
  | .ECX => (.OK, c.modifyRegs fun r => { r with rcx := value.u32.setWidth 64 })
  | .EDX => (.OK, c.modifyRegs fun r => { r with rdx := value.u32.setWidth 64 })
  | .EBX => (.OK, c.modifyRegs fun r => { r with rbx := value.u32.setWidth 64 })
  | .ESI => (.OK, c.modifyRegs fun r => { r with rsi := value.u32.setWidth 64 })
  | .EDI => (.OK, c.modifyRegs fun r => { r with rdi := value.u32.setWidth 64 })
  | .ESP => (.OK, c.modifyRegs fun r => { r with rsp := value.u32.setWidth 64 })
  | .EBP => (.OK, c.modifyRegs fun r => { r with rbp := value.u32.setWidth 64 })
  | .R8D => (.OK, c.modifyRegs fun r => { r with r8 := value.u32.setWidth 64 })
  | .R9D => (.OK, c.modifyRegs fun r => { r with r9 := value.u32.setWidth 64 })
  | .R10D => (.OK, c.modifyRegs fun r => { r with r10 := value.u32.setWidth 64 })
  | .R11D => (.OK, c.modifyRegs fun r => { r with r11 := value.u32.setWidth 64 })
  | .R12D => (.OK, c.modifyRegs fun r => { r with r12 := value.u32.setWidth 64 })
  | .R13D => (.OK, c.modifyRegs fun r => { r with r13 := value.u32.setWidth 64 })
  | .R14D => (.OK, c.modifyRegs fun r => { r with r14 := value.u32.setWidth 64 })
  | .R15D => (.OK, c.modifyRegs fun r => { r with r15 := value.u32.setWidth 64 })
  | .EIP => (.OK, c.modifyRegs fun r => { r with rip := setSlice r.rip 0 value.u32 })
  | .EFLAGS => (.OK, c.modifyRegs fun r => { r with
      rflags := setSlice r.rflags 0 ((fixupFlags (value.u32.setWidth 64)).setWidth 32) })
  | .RAX => (.OK, c.modifyRegs fun r => { r with rax := value.u64 })
  | .RCX => (.OK, c.modifyRegs fun r => { r with rcx := value.u64 })
  | .RDX => (.OK, c.modifyRegs fun r => { r with rdx := value.u64 })
  | .RBX => (.OK, c.modifyRegs fun r => { r with rbx := value.u64 })
  | .RSI => (.OK, c.modifyRegs fun r => { r with rsi := value.u64 })
  | .RDI => (.OK, c.modifyRegs fun r => { r with rdi := value.u64 })
  | .RSP => (.OK, c.modifyRegs fun r => { r with rsp := value.u64 })
  | .RBP => (.OK, c.modifyRegs fun r => { r with rbp := value.u64 })
  | .R8 => (.OK, c.modifyRegs fun r => { r with r8 := value.u64 })
  | .R9 => (.OK, c.modifyRegs fun r => { r with r9 := value.u64 })
  | .R10 => (.OK, c.modifyRegs fun r => { r with r10 := value.u64 })
  | .R11 => (.OK, c.modifyRegs fun r => { r with r11 := value.u64 })
  | .R12 => (.OK, c.modifyRegs fun r => { r with r12 := value.u64 })
  | .R13 => (.OK, c.modifyRegs fun r => { r with r13 := value.u64 })
  | .R14 => (.OK, c.modifyRegs fun r => { r with r14 := value.u64 })
  | .R15 => (.OK, c.modifyRegs fun r => { r with r15 := value.u64 })
  | .RIP => (.OK, c.modifyRegs fun r => { r with rip := value.u64 })
  | .RFLAGS => (.OK, c.modifyRegs fun r => { r with rflags := fixupFlags value.u64 })
  | .CR0 => (.OK, c.modifyRegs fun r => { r with cr0 := value.u64 })
  | .CR2 => (.OK, c.modifyRegs fun r => { r with cr2 := value.u64 })
  | .CR3 => (.OK, c.modifyRegs fun r => { r with cr3 := value.u64 })
  | .CR4 => (.OK, c.modifyRegs fun r => { r with cr4 := value.u64 })
  | .DR0 => (.OK, c.modifyRegs fun r => { r with dr0 := value.u64 })
  | .DR1 => (.OK, c.modifyRegs fun r => { r with dr1 := value.u64 })
  | .DR2 => (.OK, c.modifyRegs fun r => { r with dr2 := value.u64 })
  | .DR3 => (.OK, c.modifyRegs fun r => { r with dr3 := value.u64 })
  | .DR6 => (.OK, c.modifyRegs fun r => { r with dr6 := value.u64 })
  | .DR7 => (.OK, c.modifyRegs fun r => { r with dr7 := value.u64 })
  | .EFER => (.OK, c.modifyRegs fun r => { r with efer := value.u32 })
  | .ST0 | .ST1 | .ST2 | .ST3 | .ST4 | .ST5 | .ST6 | .ST7 =>
    (.OK, c.modifyFpuRegs fun f => storeSTRegister value (regOffset .ST0 reg) f)
  | .MM0 | .MM1 | .MM2 | .MM3 | .MM4 | .MM5 | .MM6 | .MM7 =>
    (.OK, c.modifyFpuRegs fun f => storeMMRegister value (regOffset .MM0 reg) f)
  | .XMM0 | .XMM1 | .XMM2 | .XMM3 | .XMM4 | .XMM5 | .XMM6 | .XMM7
  | .XMM8 | .XMM9 | .XMM10 | .XMM11 | .XMM12 | .XMM13 | .XMM14 | .XMM15 =>
    (.OK, c.modifyFpuRegs fun f => storeXMMRegister value (regOffset .XMM0 reg) f)
  | _ => (.Unsupported, c)

/-! ## The file of a register -/

inductive HaxmFile where
  | regs | fpuRegs
  deriving DecidableEq, Repr

abbrev HaxmFile.Data : HaxmFile → Type
  | .regs => VcpuState
  | .fpuRegs => FxLayout

def HaxmRegisterFiles.get (files : HaxmRegisterFiles) : (i : HaxmFile) → i.Data
  | .regs => files.regs
  | .fpuRegs => files.fpuRegs

def HaxmRegisterCache.changed (c : HaxmRegisterCache) : HaxmFile → Bool
  | .regs => c.regsChanged
  | .fpuRegs => c.fpuRegsChanged

def HaxmRegisterCache.modify (c : HaxmRegisterCache) : (i : HaxmFile) → (i.Data → i.Data) →
    HaxmRegisterCache
  | .regs, edit => c.modifyRegs edit
  | .fpuRegs, edit => c.modifyFpuRegs edit

theorem regsDirty_modify (c : HaxmRegisterCache) (i : HaxmFile) (edit : i.Data → i.Data) :
    (c.modify i edit).regsDirty = c.regsDirty := by
  cases i <;> rfl

/-- The file in which the code looks for a register, if it supports the register. -/
def registerFile : Reg → Option HaxmFile
  | .ST0 | .ST1 | .ST2 | .ST3 | .ST4 | .ST5 | .ST6 | .ST7
  | .MM0 | .MM1 | .MM2 | .MM3 | .MM4 | .MM5 | .MM6 | .MM7
  | .XMM0 | .XMM1 | .XMM2 | .XMM3 | .XMM4 | .XMM5 | .XMM6 | .XMM7
  | .XMM8 | .XMM9 | .XMM10 | .XMM11 | .XMM12 | .XMM13 | .XMM14 | .XMM15 => some .fpuRegs
  | .CR8 | .XCR0 => none
  | reg => if reg.ctorIdx < Reg.ST0.ctorIdx then some .regs else none

/-- Files with the given contents in one of them. -/
def HaxmRegisterFiles.only : (i : HaxmFile) → i.Data → HaxmRegisterFiles
  | .regs, regs => { (default : HaxmRegisterFiles) with regs }
  | .fpuRegs, fpuRegs => { (default : HaxmRegisterFiles) with fpuRegs }

/-- What a register write does to a file. -/
def registerEdit (i : HaxmFile) (reg : Reg) (value : RegValue) (x : i.Data) : i.Data :=
  (haxmRegWrite { (default : HaxmRegisterCache) with files := .only i x } reg value).2.files.get i

theorem haxmRegWrite_of_file (reg : Reg) (value : RegValue) :
    match registerFile reg with
    | none => ∀ c, haxmRegWrite c reg value = (.Unsupported, c)
    | some i => ∀ c, haxmRegWrite c reg value = (.OK, c.modify i (registerEdit i reg value)) := by
  cases reg <;> exact fun _ => rfl

/-- A register is written to its file, and the changed flag of that file is raised. -/
theorem haxmRegWrite_spec (reg : Reg) (value : RegValue) :
    (∀ c, haxmRegWrite c reg value = (.Unsupported, c)) ∨
      ∃ i, ∀ c, haxmRegWrite c reg value = (.OK, c.modify i (registerEdit i reg value)) := by
  have hwrite := haxmRegWrite_of_file reg value
  cases hfile : registerFile reg with
  | none => exact .inl (by simpa only [hfile] using hwrite)
  | some i => exact .inr ⟨i, by simpa only [hfile] using hwrite⟩

end Haxm

end Virt86
