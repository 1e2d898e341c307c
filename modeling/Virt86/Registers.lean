import Virt86.BitSlices

/-!
# Registers, register values and status codes of a virtual processor
-/

namespace Virt86

open BitSlices

/-- The registers of `Reg`, in the source's order. The aliases `R0B` to `R7` are left out: they
name registers of the list. -/
inductive Reg where
  | CS | SS | DS | ES | FS | GS
  | LDTR | TR
  | GDTR | IDTR
  | AL | AH | CL | CH | DL | DH | BL | BH
  | SPL | BPL | SIL | DIL
  | R8B | R9B | R10B | R11B | R12B | R13B | R14B | R15B
  | AX | CX | DX | BX
  | SP | BP | SI | DI
  | R8W | R9W | R10W | R11W | R12W | R13W | R14W | R15W
  | IP
  | FLAGS
  | EAX | ECX | EDX | EBX
  | ESP | EBP | ESI | EDI
  | R8D | R9D | R10D | R11D | R12D | R13D | R14D | R15D
  | EIP
  | EFLAGS
  | RAX | RCX | RDX | RBX
  | RSP | RBP | RSI | RDI
  | R8 | R9 | R10 | R11 | R12 | R13 | R14 | R15
  | RIP
  | RFLAGS
  | CR0 | CR2 | CR3 | CR4 | CR8
  | EFER
  | XCR0
  | DR0 | DR1 | DR2 | DR3 | DR6 | DR7
  | ST0 | ST1 | ST2 | ST3 | ST4 | ST5 | ST6 | ST7
  | MM0 | MM1 | MM2 | MM3 | MM4 | MM5 | MM6 | MM7
  | XMM0 | XMM1 | XMM2 | XMM3 | XMM4 | XMM5 | XMM6 | XMM7
  | XMM8 | XMM9 | XMM10 | XMM11 | XMM12 | XMM13 | XMM14 | XMM15
  | XMM16 | XMM17 | XMM18 | XMM19 | XMM20 | XMM21 | XMM22 | XMM23
  | XMM24 | XMM25 | XMM26 | XMM27 | XMM28 | XMM29 | XMM30 | XMM31
  | YMM0 | YMM1 | YMM2 | YMM3 | YMM4 | YMM5 | YMM6 | YMM7
  | YMM8 | YMM9 | YMM10 | YMM11 | YMM12 | YMM13 | YMM14 | YMM15
  | YMM16 | YMM17 | YMM18 | YMM19 | YMM20 | YMM21 | YMM22 | YMM23
  | YMM24 | YMM25 | YMM26 | YMM27 | YMM28 | YMM29 | YMM30 | YMM31
  | ZMM0 | ZMM1 | ZMM2 | ZMM3 | ZMM4 | ZMM5 | ZMM6 | ZMM7
  | ZMM8 | ZMM9 | ZMM10 | ZMM11 | ZMM12 | ZMM13 | ZMM14 | ZMM15
  | ZMM16 | ZMM17 | ZMM18 | ZMM19 | ZMM20 | ZMM21 | ZMM22 | ZMM23
  | ZMM24 | ZMM25 | ZMM26 | ZMM27 | ZMM28 | ZMM29 | ZMM30 | ZMM31
  deriving DecidableEq, Repr

def regOffset (base reg : Reg) : ℕ := reg.ctorIdx - base.ctorIdx

/-- The 64 bytes of the union `RegValue`, as one little-endian word. A store through one of its
members leaves the bytes outside that member as they were. -/
abbrev RegValue := BitVec 512

namespace RegValue

def u8 (v : RegValue) : U8 := v.extractLsb' 0 8
def u16 (v : RegValue) : U16 := v.extractLsb' 0 16
def u32 (v : RegValue) : U32 := v.extractLsb' 0 32
def u64 (v : RegValue) : U64 := v.extractLsb' 0 64

def setU8 (v : RegValue) (x : U8) : RegValue := setSlice v 0 x
def setU16 (v : RegValue) (x : U16) : RegValue := setSlice v 0 x
def setU32 (v : RegValue) (x : U32) : RegValue := setSlice v 0 x
def setU64 (v : RegValue) (x : U64) : RegValue := setSlice v 0 x

def segmentSelector (v : RegValue) : U16 := v.extractLsb' 0 16
def segmentBase (v : RegValue) : U64 := v.extractLsb' 64 64
def segmentLimit (v : RegValue) : U32 := v.extractLsb' 128 32
def segmentAttributes (v : RegValue) : U16 := v.extractLsb' 160 16

def setSegmentSelector (v : RegValue) (x : U16) : RegValue := setSlice v 0 x
def setSegmentBase (v : RegValue) (x : U64) : RegValue := setSlice v 64 x
def setSegmentLimit (v : RegValue) (x : U32) : RegValue := setSlice v 128 x
def setSegmentAttributes (v : RegValue) (x : U16) : RegValue := setSlice v 160 x

def tableBase (v : RegValue) : U64 := v.extractLsb' 0 64
def tableLimit (v : RegValue) : U16 := v.extractLsb' 64 16

def setTableBase (v : RegValue) (x : U64) : RegValue := setSlice v 0 x
def setTableLimit (v : RegValue) (x : U16) : RegValue := setSlice v 64 x

def stSignificand (v : RegValue) : U64 := v.extractLsb' 0 64
def stExponentSign (v : RegValue) : U16 := v.extractLsb' 64 16

def setStSignificand (v : RegValue) (x : U64) : RegValue := setSlice v 0 x
def setStExponentSign (v : RegValue) (x : U16) : RegValue := setSlice v 64 x

def mmI64 (v : RegValue) : U64 := v.extractLsb' 0 64
def setMmI64 (v : RegValue) (x : U64) : RegValue := setSlice v 0 x

def xmmI64Low (v : RegValue) : U64 := v.extractLsb' 0 64
def xmmI64High (v : RegValue) : U64 := v.extractLsb' 64 64

def setXmmI64Low (v : RegValue) (x : U64) : RegValue := setSlice v 0 x
def setXmmI64High (v : RegValue) (x : U64) : RegValue := setSlice v 64 x

end RegValue

/-- The bit-fields of `segment.attributes`; bits 8 to 11 belong to none. -/
structure SegmentAttributes where
  type : BitVec 4
  system : BitVec 1
  privilegeLevel : BitVec 2
  present : BitVec 1
  available : BitVec 1
  longMode : BitVec 1
  defaultSize : BitVec 1
  granularity : BitVec 1
  deriving DecidableEq, Repr

def SegmentAttributes.ofBits (u16 : U16) : SegmentAttributes where
  type := u16.extractLsb' 0 4
  system := u16.extractLsb' 4 1
  privilegeLevel := u16.extractLsb' 5 2
  present := u16.extractLsb' 7 1
  available := u16.extractLsb' 12 1
  longMode := u16.extractLsb' 13 1
  defaultSize := u16.extractLsb' 14 1
  granularity := u16.extractLsb' 15 1

def SegmentAttributes.toBits (a : SegmentAttributes) : U16 :=
  a.granularity ++ a.defaultSize ++ a.longMode ++ a.available ++ 0#4 ++ a.present ++
    a.privilegeLevel ++ a.system ++ a.type

/-- The FPU control registers; `ip` and `dp` are the low halves of `rip` and `rdp`. -/
structure FPUControl where
  cw : U16
  sw : U16
  tw : U16
  op : U16
  cs : U16
  rip : U64
  ds : U16
  rdp : U64
  deriving DecidableEq, Repr

def FPUControl.ip (c : FPUControl) : U32 := c.rip.extractLsb' 0 32

def FPUControl.dp (c : FPUControl) : U32 := c.rdp.extractLsb' 0 32

abbrev MXCSR := U32

def CR0_PG : U64 := 1#64 <<< 31
def CR4_PSE : U64 := 1#64 <<< 4
def CR4_PAE : U64 := 1#64 <<< 5
def EFER_LME : U64 := 1#64 <<< 8

inductive VPExecutionStatus where
  | OK | Failed | Unsupported
  deriving DecidableEq, Repr

inductive VPOperationStatus where
  | OK | Failed | InvalidArguments | InvalidSelector | InvalidRegister | BreakpointNeverHit
  | Unsupported
  deriving DecidableEq, Repr

inductive VMExitReason where
  | Normal | Cancelled | Interrupt | Pio | Mmio | Step | SoftwareBreakpoint | HardwareBreakpoint
  | HLT | CPUID | MSRAccess | Exception | Shutdown | Error | Unhandled
  deriving DecidableEq, Repr

def setLowByte (lhs : U64) (rhs : U8) : U64 := (lhs &&& 0xFFFFFFFFFFFFFF00) ||| rhs.setWidth 64

def setHighByte (lhs : U64) (rhs : U8) : U64 :=
  (lhs &&& 0xFFFFFFFFFFFF00FF) ||| (rhs.setWidth 64 <<< 8)

def setLowWord (lhs : U64) (rhs : U16) : U64 := (lhs &&& 0xFFFFFFFFFFFF0000) ||| rhs.setWidth 64

theorem setLowByte_eq_setSlice (x : U64) (v : U8) : setLowByte x v = setSlice x 0 v := by
  rw [setSlice, BitVec.shiftLeft_zero, BitVec.shiftLeft_zero]
  rfl

theorem setHighByte_eq_setSlice (x : U64) (v : U8) : setHighByte x v = setSlice x 8 v := rfl

theorem setLowWord_eq_setSlice (x : U64) (v : U16) : setLowWord x v = setSlice x 0 v := by
  rw [setSlice, BitVec.shiftLeft_zero, BitVec.shiftLeft_zero]
  rfl

end Virt86
