import Mathlib.Logic.Function.Basic
import Virt86.HostInterface

/-!
# The register files of a KVM virtual processor

KVM keeps the registers of a processor in four files, each read and written as a whole. The
processor object has a copy of each with a flag that tells that the copy was changed, and one
flag that tells that all copies are out of date.
-/

namespace Virt86

namespace Kvm

open BitSlices

/-- `kvm_regs`. -/
structure KvmRegs where
  rax : U64
  rbx : U64
  rcx : U64
  rdx : U64
  rsi : U64
  rdi : U64
  rsp : U64
  rbp : U64
  r8 : U64
  r9 : U64
  r10 : U64
  r11 : U64
  r12 : U64
  r13 : U64
  r14 : U64
  r15 : U64
  rip : U64
  rflags : U64
  deriving DecidableEq, Repr, Inhabited

/-- `kvm_segment`. -/
structure KvmSegment where
  base : U64
  limit : U32
  selector : U16
  type : U8
  present : U8
  dpl : U8
  db : U8
  s : U8
  l : U8
  g : U8
  avl : U8
  unusable : U8
  deriving DecidableEq, Repr, Inhabited

/-- `kvm_dtable`. -/
structure KvmDtable where
  base : U64
  limit : U16
  deriving DecidableEq, Repr, Inhabited

/-- `kvm_sregs`. -/
structure KvmSregs where
  cs : KvmSegment
  ds : KvmSegment
  es : KvmSegment
  fs : KvmSegment
  gs : KvmSegment
  ss : KvmSegment
  tr : KvmSegment
  ldt : KvmSegment
  gdt : KvmDtable
  idt : KvmDtable
  cr0 : U64
  cr2 : U64
  cr3 : U64
  cr4 : U64
  cr8 : U64
  efer : U64
  apic_base : U64
  interrupt_bitmap : BitVec 256
  deriving DecidableEq, Repr, Inhabited

/-- `kvm_debugregs`. -/
structure KvmDebugregs where
  db0 : U64
  db1 : U64
  db2 : U64
  db3 : U64
  dr6 : U64
  dr7 : U64
  flags : U64
  deriving DecidableEq, Repr, Inhabited

/-- `kvm_fpu`; the 16 bytes of a register are one little-endian word. -/
structure KvmFpu where
  fpr : Vector (BitVec 128) 8
  fcw : U16
  fsw : U16
  ftwx : U8
  last_opcode : U16
  last_ip : U64
  last_dp : U64
  xmm : Vector (BitVec 128) 16
  mxcsr : U32
  deriving DecidableEq, Repr, Inhabited

def loadSegment (value : RegValue) (segment : KvmSegment) : RegValue :=
  let attributes : SegmentAttributes :=
    { type := segment.type.setWidth 4
      present := segment.present.setWidth 1
      privilegeLevel := segment.dpl.setWidth 2
      system := segment.s.setWidth 1
      defaultSize := segment.db.setWidth 1
      longMode := segment.l.setWidth 1
      granularity := segment.g.setWidth 1
      available := segment.avl.setWidth 1 }
  (((value.setSegmentSelector segment.selector).setSegmentBase segment.base).setSegmentLimit
    segment.limit).setSegmentAttributes attributes.toBits

def storeSegment (value : RegValue) (segment : KvmSegment) : KvmSegment :=
  let attributes := SegmentAttributes.ofBits value.segmentAttributes
  { segment with
    selector := value.segmentSelector
    base := value.segmentBase
    limit := value.segmentLimit
    type := attributes.type.setWidth 8
    present := attributes.present.setWidth 8
    dpl := attributes.privilegeLevel.setWidth 8
    db := attributes.defaultSize.setWidth 8
    s := attributes.system.setWidth 8
    l := attributes.longMode.setWidth 8
    g := attributes.granularity.setWidth 8
    avl := attributes.available.setWidth 8 }

def loadTable (value : RegValue) (table : KvmDtable) : RegValue :=
  (value.setTableBase table.base).setTableLimit table.limit

def storeTable (value : RegValue) (table : KvmDtable) : KvmDtable :=
  { table with base := value.tableBase, limit := value.tableLimit }

def loadSTRegister (value : RegValue) (index : ℕ) (fpuRegs : KvmFpu) : RegValue :=
  let fpr := fpuRegs.fpr[index]?.getD 0
  (value.setStSignificand (fpr.extractLsb' 0 64)).setStExponentSign (fpr.extractLsb' 64 16)

def storeSTRegister (value : RegValue) (index : ℕ) (fpuRegs : KvmFpu) : KvmFpu :=
  let fpr := fpuRegs.fpr[index]?.getD 0
  { fpuRegs with
    fpr := fpuRegs.fpr.setIfInBounds index
      (setSlice (setSlice fpr 0 value.stSignificand) 64 value.stExponentSign) }

def loadMMRegister (value : RegValue) (index : ℕ) (fpuRegs : KvmFpu) : RegValue :=
  value.setMmI64 ((fpuRegs.fpr[index]?.getD 0).extractLsb' 0 64)

def storeMMRegister (value : RegValue) (index : ℕ) (fpuRegs : KvmFpu) : KvmFpu :=
  { fpuRegs with
    fpr := fpuRegs.fpr.setIfInBounds index
      (setSlice (fpuRegs.fpr[index]?.getD 0) 0 value.mmI64) }

def loadXMMRegister (value : RegValue) (index : ℕ) (fpuRegs : KvmFpu) : RegValue :=
  match fpuRegs.xmm[index]? with
  | some xmm => (value.setXmmI64Low (xmm.extractLsb' 0 64)).setXmmI64High (xmm.extractLsb' 64 64)
  | none => value

def storeXMMRegister (value : RegValue) (index : ℕ) (fpuRegs : KvmFpu) : KvmFpu :=
  { fpuRegs with
    xmm := fpuRegs.xmm.setIfInBounds index (value.xmmI64High ++ value.xmmI64Low) }

/-- The four register files. -/
structure KvmRegisterFiles where
  regs : KvmRegs
  sregs : KvmSregs
  debugRegs : KvmDebugregs
  fpuRegs : KvmFpu
  deriving DecidableEq, Repr, Inhabited

/-- The copies of the register files in `KvmVirtualProcessor` and their flags. -/
structure KvmRegisterCache where
  files : KvmRegisterFiles
  regsDirty : Bool
  regsChanged : Bool
  sregsChanged : Bool
  debugRegsChanged : Bool
  fpuRegsChanged : Bool
  deriving DecidableEq, Repr, Inhabited

namespace KvmRegisterCache

def modifyRegs (c : KvmRegisterCache) (edit : KvmRegs → KvmRegs) : KvmRegisterCache :=
  { c with files := { c.files with regs := edit c.files.regs }, regsChanged := true }

def modifySregs (c : KvmRegisterCache) (edit : KvmSregs → KvmSregs) : KvmRegisterCache :=
  { c with files := { c.files with sregs := edit c.files.sregs }, sregsChanged := true }

def modifyDebugRegs (c : KvmRegisterCache) (edit : KvmDebugregs → KvmDebugregs) :
    KvmRegisterCache :=
  { c with files := { c.files with debugRegs := edit c.files.debugRegs }, debugRegsChanged := true }

def modifyFpuRegs (c : KvmRegisterCache) (edit : KvmFpu → KvmFpu) : KvmRegisterCache :=
  { c with files := { c.files with fpuRegs := edit c.files.fpuRegs }, fpuRegsChanged := true }

end KvmRegisterCache

/-- `KvmRegRead` on the cached files. -/
def kvmRegRead (files : KvmRegisterFiles) (reg : Reg) (value : RegValue) :
    VPOperationStatus × RegValue :=
  match reg with
  | .CS => (.OK, loadSegment value files.sregs.cs)
  | .SS => (.OK, loadSegment value files.sregs.ss)
  | .DS => (.OK, loadSegment value files.sregs.ds)
  | .ES => (.OK, loadSegment value files.sregs.es)
  | .FS => (.OK, loadSegment value files.sregs.fs)
  | .GS => (.OK, loadSegment value files.sregs.gs)
  | .LDTR => (.OK, loadSegment value files.sregs.ldt)
  | .TR => (.OK, loadSegment value files.sregs.tr)
  | .GDTR => (.OK, loadTable value files.sregs.gdt)
  | .IDTR => (.OK, loadTable value files.sregs.idt)
  | .AH => (.OK, value.setU8 ((files.regs.rax >>> 8).setWidth 8))
  | .AL => (.OK, value.setU8 (files.regs.rax.setWidth 8))
  | .CH => (.OK, value.setU8 ((files.regs.rcx >>> 8).setWidth 8))
  | .CL => (.OK, value.setU8 (files.regs.rcx.setWidth 8))
  | .DH => (.OK, value.setU8 ((files.regs.rdx >>> 8).setWidth 8))
  | .DL => (.OK, value.setU8 (files.regs.rdx.setWidth 8))
  | .BH => (.OK, value.setU8 ((files.regs.rbx >>> 8).setWidth 8))
  | .BL => (.OK, value.setU8 (files.regs.rbx.setWidth 8))
  | .SPL => (.OK, value.setU8 (files.regs.rsp.setWidth 8))
  | .BPL => (.OK, value.setU8 (files.regs.rbp.setWidth 8))
  | .SIL => (.OK, value.setU8 (files.regs.rsi.setWidth 8))
  | .DIL => (.OK, value.setU8 (files.regs.rdi.setWidth 8))
  | .R8B => (.OK, value.setU8 (files.regs.r8.setWidth 8))
  | .R9B => (.OK, value.setU8 (files.regs.r9.setWidth 8))
  | .R10B => (.OK, value.setU8 (files.regs.r10.setWidth 8))
  | .R11B => (.OK, value.setU8 (files.regs.r11.setWidth 8))
  | .R12B => (.OK, value.setU8 (files.regs.r12.setWidth 8))
  | .R13B => (.OK, value.setU8 (files.regs.r13.setWidth 8))
  | .R14B => (.OK, value.setU8 (files.regs.r14.setWidth 8))
  | .R15B => (.OK, value.setU8 (files.regs.r15.setWidth 8))
  | .AX => (.OK, value.setU16 (files.regs.rax.setWidth 16))
  | .CX => (.OK, value.setU16 (files.regs.rcx.setWidth 16))
  | .DX => (.OK, value.setU16 (files.regs.rdx.setWidth 16))
  | .BX => (.OK, value.setU16 (files.regs.rbx.setWidth 16))
  | .SI => (.OK, value.setU16 (files.regs.rsi.setWidth 16))
  | .DI => (.OK, value.setU16 (files.regs.rdi.setWidth 16))
  | .SP => (.OK, value.setU16 (files.regs.rsp.setWidth 16))
  | .BP => (.OK, value.setU16 (files.regs.rbp.setWidth 16))
  | .R8W => (.OK, value.setU16 (files.regs.r8.setWidth 16))
  | .R9W => (.OK, value.setU16 (files.regs.r9.setWidth 16))
  | .R10W => (.OK, value.setU16 (files.regs.r10.setWidth 16))
  | .R11W => (.OK, value.setU16 (files.regs.r11.setWidth 16))
  | .R12W => (.OK, value.setU16 (files.regs.r12.setWidth 16))
  | .R13W => (.OK, value.setU16 (files.regs.r13.setWidth 16))
  | .R14W => (.OK, value.setU16 (files.regs.r14.setWidth 16))
  | .R15W => (.OK, value.setU16 (files.regs.r15.setWidth 16))
  | .IP => (.OK, value.setU16 (files.regs.rip.setWidth 16))
  | .FLAGS => (.OK, value.setU16 (files.regs.rflags.setWidth 16))
  | .EAX => (.OK, value.setU32 (files.regs.rax.setWidth 32))
  | .ECX => (.OK, value.setU32 (files.regs.rcx.setWidth 32))
  | .EDX => (.OK, value.setU32 (files.regs.rdx.setWidth 32))
  | .EBX => (.OK, value.setU32 (files.regs.rbx.setWidth 32))
  | .ESI => (.OK, value.setU32 (files.regs.rsi.setWidth 32))
  | .EDI => (.OK, value.setU32 (files.regs.rdi.setWidth 32))
  | .ESP => (.OK, value.setU32 (files.regs.rsp.setWidth 32))
  | .EBP => (.OK, value.setU32 (files.regs.rbp.setWidth 32))
  | .R8D => (.OK, value.setU32 (files.regs.r8.setWidth 32))
  | .R9D => (.OK, value.setU32 (files.regs.r9.setWidth 32))
  | .R10D => (.OK, value.setU32 (files.regs.r10.setWidth 32))
  | .R11D => (.OK, value.setU32 (files.regs.r11.setWidth 32))
  | .R12D => (.OK, value.setU32 (files.regs.r12.setWidth 32))
  | .R13D => (.OK, value.setU32 (files.regs.r13.setWidth 32))
  | .R14D => (.OK, value.setU32 (files.regs.r14.setWidth 32))
  | .R15D => (.OK, value.setU32 (files.regs.r15.setWidth 32))
  | .EIP => (.OK, value.setU32 (files.regs.rip.setWidth 32))
  | .EFLAGS => (.OK, value.setU32 (files.regs.rflags.setWidth 32))
  | .RAX => (.OK, value.setU64 files.regs.rax)
  | .RCX => (.OK, value.setU64 files.regs.rcx)
  | .RDX => (.OK, value.setU64 files.regs.rdx)
  | .RBX => (.OK, value.setU64 files.regs.rbx)
  | .RSI => (.OK, value.setU64 files.regs.rsi)
  | .RDI => (.OK, value.setU64 files.regs.rdi)
  | .RSP => (.OK, value.setU64 files.regs.rsp)
  | .RBP => (.OK, value.setU64 files.regs.rbp)
  | .R8 => (.OK, value.setU64 files.regs.r8)
  | .R9 => (.OK, value.setU64 files.regs.r9)
  | .R10 => (.OK, value.setU64 files.regs.r10)
  | .R11 => (.OK, value.setU64 files.regs.r11)
  | .R12 => (.OK, value.setU64 files.regs.r12)
  | .R13 => (.OK, value.setU64 files.regs.r13)
  | .R14 => (.OK, value.setU64 files.regs.r14)
  | .R15 => (.OK, value.setU64 files.regs.r15)
  | .RIP => (.OK, value.setU64 files.regs.rip)
  | .RFLAGS => (.OK, value.setU64 files.regs.rflags)
  | .CR0 => (.OK, value.setU64 files.sregs.cr0)
  | .CR2 => (.OK, value.setU64 files.sregs.cr2)
  | .CR3 => (.OK, value.setU64 files.sregs.cr3)
  | .CR4 => (.OK, value.setU64 files.sregs.cr4)
  | .DR0 => (.OK, value.setU64 files.debugRegs.db0)
  | .DR1 => (.OK, value.setU64 files.debugRegs.db1)
  | .DR2 => (.OK, value.setU64 files.debugRegs.db2)
  | .DR3 => (.OK, value.setU64 files.debugRegs.db3)
  | .DR6 => (.OK, value.setU64 files.debugRegs.dr6)
  | .DR7 => (.OK, value.setU64 files.debugRegs.dr7)
  | .EFER => (.OK, value.setU64 files.sregs.efer)
  | .ST0 | .ST1 | .ST2 | .ST3 | .ST4 | .ST5 | .ST6 | .ST7 =>
    (.OK, loadSTRegister value (regOffset .ST0 reg) files.fpuRegs)
  | .MM0 | .MM1 | .MM2 | .MM3 | .MM4 | .MM5 | .MM6 | .MM7 =>
    (.OK, loadMMRegister value (regOffset .MM0 reg) files.fpuRegs)
  | .XMM0 | .XMM1 | .XMM2 | .XMM3 | .XMM4 | .XMM5 | .XMM6 | .XMM7
  | .XMM8 | .XMM9 | .XMM10 | .XMM11 | .XMM12 | .XMM13 | .XMM14 | .XMM15 =>
    (.OK, loadXMMRegister value (regOffset .XMM0 reg) files.fpuRegs)
  | _ => (.Unsupported, value)

/-- `KvmRegWrite`. -/
def kvmRegWrite (c : KvmRegisterCache) (reg : Reg) (value : RegValue) :
    VPOperationStatus × KvmRegisterCache :=
  match reg with
  | .CS => (.OK, c.modifySregs fun s => { s with cs := storeSegment value s.cs })
  | .SS => (.OK, c.modifySregs fun s => { s with ss := storeSegment value s.ss })
  | .DS => (.OK, c.modifySregs fun s => { s with ds := storeSegment value s.ds })
  | .ES => (.OK, c.modifySregs fun s => { s with es := storeSegment value s.es })
  | .FS => (.OK, c.modifySregs fun s => { s with fs := storeSegment value s.fs })
  | .GS => (.OK, c.modifySregs fun s => { s with gs := storeSegment value s.gs })
  | .LDTR => (.OK, c.modifySregs fun s => { s with ldt := storeSegment value s.ldt })
  | .TR => (.OK, c.modifySregs fun s => { s with tr := storeSegment value s.tr })
  | .GDTR => (.OK, c.modifySregs fun s => { s with gdt := storeTable value s.gdt })
  | .IDTR => (.OK, c.modifySregs fun s => { s with idt := storeTable value s.idt })
  | .AH => (.OK, c.modifyRegs fun r => { r with rax := setHighByte r.rax value.u8 })
  | .AL => (.OK, c.modifyRegs fun r => { r with rax := setLowByte r.rax value.u8 })
  | .CH => (.OK, c.modifyRegs fun r => { r with rcx := setHighByte r.rcx value.u8 })
  | .CL => (.OK, c.modifyRegs fun r => { r with rcx := setLowByte r.rcx value.u8 })
  | .DH => (.OK, c.modifyRegs fun r => { r with rdx := setHighByte r.rdx value.u8 })
  | .DL => (.OK, c.modifyRegs fun r => { r with rdx := setLowByte r.rdx value.u8 })
  | .BH => (.OK, c.modifyRegs fun r => { r with rbx := setHighByte r.rbx value.u8 })
  | .BL => (.OK, c.modifyRegs fun r => { r with rbx := setLowByte r.rbx value.u8 })
  | .SPL => (.OK, c.modifyRegs fun r => { r with rsp := setLowByte r.rsp value.u8 })
  | .BPL => (.OK, c.modifyRegs fun r => { r with rbp := setLowByte r.rbp value.u8 })
  | .SIL => (.OK, c.modifyRegs fun r => { r with rsi := setLowByte r.rsi value.u8 })
  | .DIL => (.OK, c.modifyRegs fun r => { r with rdi := setLowByte r.rdi value.u8 })
  | .R8B => (.OK, c.modifyRegs fun r => { r with r8 := setLowByte r.r8 value.u8 })
  | .R9B => (.OK, c.modifyRegs fun r => { r with r9 := setLowByte r.r9 value.u8 })
  | .R10B => (.OK, c.modifyRegs fun r => { r with r10 := setLowByte r.r10 value.u8 })
  | .R11B => (.OK, c.modifyRegs fun r => { r with r11 := setLowByte r.r11 value.u8 })
  | .R12B => (.OK, c.modifyRegs fun r => { r with r12 := setLowByte r.r12 value.u8 })
  | .R13B => (.OK, c.modifyRegs fun r => { r with r13 := setLowByte r.r13 value.u8 })
  | .R14B => (.OK, c.modifyRegs fun r => { r with r14 := setLowByte r.r14 value.u8 })
  | .R15B => (.OK, c.modifyRegs fun r => { r with r15 := setLowByte r.r15 value.u8 })
  | .AX => (.OK, c.modifyRegs fun r => { r with rax := setLowWord r.rax value.u16 })
  | .CX => (.OK, c.modifyRegs fun r => { r with rcx := setLowWord r.rcx value.u16 })
  | .DX => (.OK, c.modifyRegs fun r => { r with rdx := setLowWord r.rdx value.u16 })
  | .BX => (.OK, c.modifyRegs fun r => { r with rbx := setLowWord r.rbx value.u16 })
  | .SI => (.OK, c.modifyRegs fun r => { r with rsi := setLowWord r.rsi value.u16 })
  | .DI => (.OK, c.modifyRegs fun r => { r with rdi := setLowWord r.rdi value.u16 })
  | .SP => (.OK, c.modifyRegs fun r => { r with rsp := setLowWord r.rsp value.u16 })
  | .BP => (.OK, c.modifyRegs fun r => { r with rbp := setLowWord r.rbp value.u16 })
  | .R8W => (.OK, c.modifyRegs fun r => { r with r8 := setLowWord r.r8 value.u16 })
  | .R9W => (.OK, c.modifyRegs fun r => { r with r9 := setLowWord r.r9 value.u16 })
  | .R10W => (.OK, c.modifyRegs fun r => { r with r10 := setLowWord r.r10 value.u16 })
  | .R11W => (.OK, c.modifyRegs fun r => { r with r11 := setLowWord r.r11 value.u16 })
  | .R12W => (.OK, c.modifyRegs fun r => { r with r12 := setLowWord r.r12 value.u16 })
  | .R13W => (.OK, c.modifyRegs fun r => { r with r13 := setLowWord r.r13 value.u16 })
  | .R14W => (.OK, c.modifyRegs fun r => { r with r14 := setLowWord r.r14 value.u16 })
  | .R15W => (.OK, c.modifyRegs fun r => { r with r15 := setLowWord r.r15 value.u16 })
  | .IP => (.OK, c.modifyRegs fun r => { r with rip := value.u16.setWidth 64 })
  | .FLAGS => (.OK, c.modifyRegs fun r => { r with rflags := value.u16.setWidth 64 })
  | .EAX => (.OK, c.modifyRegs fun r => { r with rax := value.u32.setWidth 64 })
  | .ECX => (.OK, c.modifyRegs fun r => { r with rcx := value.u32.setWidth 64 })
  | .EDX => (.OK, c.modifyRegs fun r => { r with rdx := value.u32.setWidth 64 })
  | .EBX => (.OK, c.modifyRegs fun r => { r with rbx := value.u32.setWidth 64 })
  | .ESI => (.OK, c.modifyRegs fun r => { r with rsi := value.u32.setWidth 64 })
  | .EDI => (.OK, c.modifyRegs fun r => { r with rdi := value.u32.setWidth 64 })
  | .ESP => (.OK, c.modifyRegs fun r => { r with rsp := value.u32.setWidth 64 })
  | .EBP => (.OK, c.modifyRegs fun r => { r with rbp := value.u32.setWidth 64 })
  | .R8D => (.OK, c.modifyRegs fun r => { r with r8 := value.u32.setWidth 64 })
  | .R9D => (.OK, c.modifyRegs fun r => { r with r9 := value.u32.setWidth 64 })
  | .R10D => (.OK, c.modifyRegs fun r => { r with r10 := value.u32.setWidth 64 })
  | .R11D => (.OK, c.modifyRegs fun r => { r with r11 := value.u32.setWidth 64 })
  | .R12D => (.OK, c.modifyRegs fun r => { r with r12 := value.u32.setWidth 64 })
  | .R13D => (.OK, c.modifyRegs fun r => { r with r13 := value.u32.setWidth 64 })
  | .R14D => (.OK, c.modifyRegs fun r => { r with r14 := value.u32.setWidth 64 })
  | .R15D => (.OK, c.modifyRegs fun r => { r with r15 := value.u32.setWidth 64 })
  | .EIP => (.OK, c.modifyRegs fun r => { r with rip := value.u32.setWidth 64 })
  | .EFLAGS => (.OK, c.modifyRegs fun r => { r with rflags := value.u32.setWidth 64 })
  | .EFER => (.OK, c.modifySregs fun s => { s with efer := value.u32.setWidth 64 })
  | .RAX => (.OK, c.modifyRegs fun r => { r with rax := value.u64 })
  | .RCX => (.OK, c.modifyRegs fun r => { r with rcx := value.u64 })
  | .RDX => (.OK, c.modifyRegs fun r => { r with rdx := value.u64 })
  | .RBX => (.OK, c.modifyRegs fun r => { r with rbx := value.u64 })
  | .RSI => (.OK, c.modifyRegs fun r => { r with rsi := value.u64 })
  | .RDI => (.OK, c.modifyRegs fun r => { r with rdi := value.u64 })
  | .RSP => (.OK, c.modifyRegs fun r => { r with rsp := value.u64 })
  | .RBP => (.OK, c.modifyRegs fun r => { r with rbp := value.u64 })
  | .R8 => (.OK, c.modifyRegs fun r => { r with r8 := value.u64 })
  | .R9 => (.OK, c.modifyRegs fun r => { r with r9 := value.u64 })
  | .R10 => (.OK, c.modifyRegs fun r => { r with r10 := value.u64 })
  | .R11 => (.OK, c.modifyRegs fun r => { r with r11 := value.u64 })
  | .R12 => (.OK, c.modifyRegs fun r => { r with r12 := value.u64 })
  | .R13 => (.OK, c.modifyRegs fun r => { r with r13 := value.u64 })
  | .R14 => (.OK, c.modifyRegs fun r => { r with r14 := value.u64 })
  | .R15 => (.OK, c.modifyRegs fun r => { r with r15 := value.u64 })
  | .RIP => (.OK, c.modifyRegs fun r => { r with rip := value.u64 })
  | .RFLAGS => (.OK, c.modifyRegs fun r => { r with rflags := value.u64 })
  | .CR0 => (.OK, c.modifySregs fun s => { s with cr0 := value.u64 })
  | .CR2 => (.OK, c.modifySregs fun s => { s with cr2 := value.u64 })
  | .CR3 => (.OK, c.modifySregs fun s => { s with cr3 := value.u64 })
  | .CR4 => (.OK, c.modifySregs fun s => { s with cr4 := value.u64 })
  | .DR0 => (.OK, c.modifyDebugRegs fun d => { d with db0 := value.u64 })
  | .DR1 => (.OK, c.modifyDebugRegs fun d => { d with db1 := value.u64 })
  | .DR2 => (.OK, c.modifyDebugRegs fun d => { d with db2 := value.u64 })
  | .DR3 => (.OK, c.modifyDebugRegs fun d => { d with db3 := value.u64 })
  | .DR6 => (.OK, c.modifyDebugRegs fun d => { d with dr6 := value.u64 })
  | .DR7 => (.OK, c.modifyDebugRegs fun d => { d with dr7 := value.u64 })
  | .ST0 | .ST1 | .ST2 | .ST3 | .ST4 | .ST5 | .ST6 | .ST7 =>
    (.OK, c.modifyFpuRegs fun f => storeSTRegister value (regOffset .ST0 reg) f)
  | .MM0 | .MM1 | .MM2 | .MM3 | .MM4 | .MM5 | .MM6 | .MM7 =>
    (.OK, c.modifyFpuRegs fun f => storeMMRegister value (regOffset .MM0 reg) f)
  | .XMM0 | .XMM1 | .XMM2 | .XMM3 | .XMM4 | .XMM5 | .XMM6 | .XMM7
  | .XMM8 | .XMM9 | .XMM10 | .XMM11 | .XMM12 | .XMM13 | .XMM14 | .XMM15 =>
    (.OK, c.modifyFpuRegs fun f => storeXMMRegister value (regOffset .XMM0 reg) f)
  | _ => (.Unsupported, c)

/-! ## The file of a register -/

inductive KvmFile where
  | regs | sregs | debugRegs | fpuRegs
  deriving DecidableEq, Repr

abbrev KvmFile.Data : KvmFile → Type
  | .regs => KvmRegs
  | .sregs => KvmSregs
  | .debugRegs => KvmDebugregs
  | .fpuRegs => KvmFpu

def KvmRegisterFiles.get (files : KvmRegisterFiles) : (i : KvmFile) → i.Data
  | .regs => files.regs
  | .sregs => files.sregs
  | .debugRegs => files.debugRegs
  | .fpuRegs => files.fpuRegs

def KvmRegisterCache.changed (c : KvmRegisterCache) : KvmFile → Bool
  | .regs => c.regsChanged
  | .sregs => c.sregsChanged
  | .debugRegs => c.debugRegsChanged
  | .fpuRegs => c.fpuRegsChanged

def KvmRegisterCache.modify (c : KvmRegisterCache) : (i : KvmFile) → (i.Data → i.Data) →
    KvmRegisterCache
  | .regs, edit => c.modifyRegs edit
  | .sregs, edit => c.modifySregs edit
  | .debugRegs, edit => c.modifyDebugRegs edit
  | .fpuRegs, edit => c.modifyFpuRegs edit

theorem regsDirty_modify (c : KvmRegisterCache) (i : KvmFile) (edit : i.Data → i.Data) :
    (c.modify i edit).regsDirty = c.regsDirty := by
  cases i <;> rfl

/-- The file in which the code looks for a register, if it supports the register. -/
def registerFile : Reg → Option KvmFile
  | .CS | .SS | .DS | .ES | .FS | .GS | .LDTR | .TR | .GDTR | .IDTR
  | .CR0 | .CR2 | .CR3 | .CR4 | .EFER => some .sregs
  | .DR0 | .DR1 | .DR2 | .DR3 | .DR6 | .DR7 => some .debugRegs
  | .ST0 | .ST1 | .ST2 | .ST3 | .ST4 | .ST5 | .ST6 | .ST7
  | .MM0 | .MM1 | .MM2 | .MM3 | .MM4 | .MM5 | .MM6 | .MM7
  | .XMM0 | .XMM1 | .XMM2 | .XMM3 | .XMM4 | .XMM5 | .XMM6 | .XMM7
  | .XMM8 | .XMM9 | .XMM10 | .XMM11 | .XMM12 | .XMM13 | .XMM14 | .XMM15 => some .fpuRegs
  | reg => if reg.ctorIdx < Reg.CR0.ctorIdx then some .regs else none

/-- Files with the given contents in one of them. -/
def KvmRegisterFiles.only : (i : KvmFile) → i.Data → KvmRegisterFiles
  | .regs, regs => { (default : KvmRegisterFiles) with regs }
  | .sregs, sregs => { (default : KvmRegisterFiles) with sregs }
  | .debugRegs, debugRegs => { (default : KvmRegisterFiles) with debugRegs }
  | .fpuRegs, fpuRegs => { (default : KvmRegisterFiles) with fpuRegs }

/-- The value of a register in a file. -/
def registerLoad (i : KvmFile) (reg : Reg) (value : RegValue) (x : i.Data) : RegValue :=
  (kvmRegRead (.only i x) reg value).2

/-- What a register write does to a file. -/
def registerEdit (i : KvmFile) (reg : Reg) (value : RegValue) (x : i.Data) : i.Data :=
  (kvmRegWrite { (default : KvmRegisterCache) with files := .only i x } reg value).2.files.get i

/-- A register is read from its file. -/
theorem kvmRegRead_spec (reg : Reg) (value : RegValue) :
    (registerFile reg = none ∧ ∀ files, kvmRegRead files reg value = (.Unsupported, value)) ∨
      ∃ i, registerFile reg = some i ∧ ∀ files, kvmRegRead files reg value =
        (.OK, registerLoad i reg value (files.get i)) := by
  have hread : match registerFile reg with
      | none => ∀ files, kvmRegRead files reg value = (.Unsupported, value)
      | some i => ∀ files, kvmRegRead files reg value =
          (.OK, registerLoad i reg value (files.get i)) := by
    cases reg <;> exact fun _ => rfl
  cases hfile : registerFile reg with
  | none => exact .inl ⟨rfl, by simpa only [hfile] using hread⟩
  | some i => exact .inr ⟨i, rfl, by simpa only [hfile] using hread⟩

/-- A register is written to its file, and the changed flag of that file is raised. -/
theorem kvmRegWrite_spec (reg : Reg) (value : RegValue) :
    (registerFile reg = none ∧ ∀ c, kvmRegWrite c reg value = (.Unsupported, c)) ∨
      ∃ i, registerFile reg = some i ∧ ∀ c, kvmRegWrite c reg value =
        (.OK, c.modify i (registerEdit i reg value)) := by
  have hwrite : match registerFile reg with
      | none => ∀ c, kvmRegWrite c reg value = (.Unsupported, c)
      | some i => ∀ c, kvmRegWrite c reg value = (.OK, c.modify i (registerEdit i reg value)) := by
    cases reg <;> exact fun _ => rfl
  cases hfile : registerFile reg with
  | none => exact .inl ⟨rfl, by simpa only [hfile] using hwrite⟩
  | some i => exact .inr ⟨i, rfl, by simpa only [hfile] using hwrite⟩

end Kvm

end Virt86
