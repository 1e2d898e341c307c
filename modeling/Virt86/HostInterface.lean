import Virt86.Registers

/-!
# The host's side of a virtual processor

Register accesses of the host, the I/O handlers it registers and the buffers in which port
accesses pass their data. A handler may access the registers of the processor that called it.
-/

namespace Virt86

open BitSlices

/-- The register accessors of `VirtualProcessor`. Output arguments come with the contents they
have before the call, and an array of registers comes with the array of its values. -/
inductive HostAccess where
  | regRead (reg : Reg) (value : RegValue)
  | regWrite (reg : Reg) (value : RegValue)
  | regReadBulk (regs : List (Reg × RegValue))
  | regWriteBulk (regs : List (Reg × RegValue))
  | getFPUControl (value : FPUControl)
  | setFPUControl (value : FPUControl)
  | getMXCSR (value : MXCSR)
  | setMXCSR (value : MXCSR)
  | getMXCSRMask (value : MXCSR)
  | setMXCSRMask (value : MXCSR)
  deriving DecidableEq, Repr

/-- The output arguments of an access after the call. -/
inductive AccessOutput where
  | nothing
  | values (values : List RegValue)
  | fpuControl (value : FPUControl)
  | mxcsr (value : MXCSR)
  deriving DecidableEq, Repr

abbrev AccessResult := VPOperationStatus × AccessOutput

/-- The output arguments of an access before the call. -/
def HostAccess.arguments : HostAccess → AccessOutput
  | .regRead _ value => .values [value]
  | .regReadBulk regs => .values (regs.map Prod.snd)
  | .getFPUControl value => .fpuControl value
  | .getMXCSR value | .getMXCSRMask value => .mxcsr value
  | _ => .nothing

/-- The registers an access names, in order. -/
def HostAccess.registers : HostAccess → List Reg
  | .regRead reg _ | .regWrite reg _ => [reg]
  | .regReadBulk regs | .regWriteBulk regs => regs.map Prod.fst
  | _ => []

/-- The handlers of `IOHandlers`. Each returns its value, the accesses it makes to the registers
of the calling processor, and the device afterwards. -/
structure IOHandlers (D : Type) where
  ioRead : (port : U16) → (size : ℕ) → D → U32 × List HostAccess × D
  ioWrite : (port : U16) → (size : ℕ) → (value : U32) → D → List HostAccess × D
  mmioRead : (address : U64) → (size : ℕ) → D → U64 × List HostAccess × D
  mmioWrite : (address : U64) → (size : ℕ) → (value : U64) → D → List HostAccess × D

/-- Every access that the handlers make is in `P`. -/
structure IOHandlers.Only {D : Type} (io : IOHandlers D) (P : HostAccess → Prop) : Prop where
  ioRead : ∀ port size d, ∀ a ∈ (io.ioRead port size d).2.1, P a
  ioWrite : ∀ port size value d, ∀ a ∈ (io.ioWrite port size value d).1, P a
  mmioRead : ∀ address size d, ∀ a ∈ (io.mmioRead address size d).2.1, P a
  mmioWrite : ∀ address size value d, ∀ a ∈ (io.mmioWrite address size value d).1, P a

/-- The handlers leave the registers of the processor alone. -/
def IOHandlers.Silent {D : Type} (io : IOHandlers D) : Prop := io.Only fun _ => False

theorem IOHandlers.Silent.only {D : Type} {io : IOHandlers D} (h : io.Silent)
    (P : HostAccess → Prop) : io.Only P where
  ioRead port size d a ha := (h.ioRead port size d a ha).elim
  ioWrite port size value d a ha := (h.ioWrite port size value d a ha).elim
  mmioRead address size d a ha := (h.mmioRead address size d a ha).elim
  mmioWrite address size value d a ha := (h.mmioWrite address size value d a ha).elim

/-- Handlers without a device behind them. -/
def IOHandlers.none : IOHandlers Unit where
  ioRead _ _ _ := (0, [], ())
  ioWrite _ _ _ _ := ([], ())
  mmioRead _ _ _ := (0, [], ())
  mmioWrite _ _ _ _ := ([], ())

theorem IOHandlers.none_only (P : HostAccess → Prop) : IOHandlers.none.Only P := by
  constructor <;> intros <;> simp_all [IOHandlers.none]

/-- The widths of a port access; the handlers assert that there is no other. -/
inductive PortSize where
  | byte | word | dword
  deriving DecidableEq, Repr

def PortSize.bytes : PortSize → ℕ
  | .byte => 1
  | .word => 2
  | .dword => 4

inductive PortDirection where
  | input | output
  deriving DecidableEq, Repr

/-- A buffer shared with the hypervisor, by byte offset. -/
abbrev SharedBytes := ℕ → U8

def SharedBytes.load (buffer : SharedBytes) (offset size w : ℕ) : BitVec w :=
  BitVec.ofNat w (littleEndian ((List.range size).map fun k => buffer (offset + k)))

def SharedBytes.store {w : ℕ} (buffer : SharedBytes) (offset size : ℕ) (value : BitVec w) :
    SharedBytes :=
  fun k => if offset ≤ k ∧ k < offset + size then value.extractLsb' (8 * (k - offset)) 8
    else buffer k

/-- One port access, for the element at `offset` of the buffer, with the register accesses of the
handler. -/
def portAccess {D : Type} (io : IOHandlers D) (direction : PortDirection) (size : PortSize)
    (port : U16) (offset : ℕ) (buffer : SharedBytes) (device : D) :
    List HostAccess × SharedBytes × D :=
  match direction with
  | .output =>
    let value : U32 := buffer.load offset size.bytes 32
    let (accesses, device) := io.ioWrite port size.bytes value device
    (accesses, buffer, device)
  | .input =>
    let (value, accesses, device) := io.ioRead port size.bytes device
    (accesses, buffer.store offset size.bytes value, device)

/-- The loop of `HandleIO` over the offsets of the elements. -/
def portLoop {D : Type} (io : IOHandlers D) (direction : PortDirection) (size : PortSize)
    (port : U16) : List ℕ → SharedBytes → D → List HostAccess × SharedBytes × D
  | [], buffer, device => ([], buffer, device)
  | offset :: offsets, buffer, device =>
    let (accesses, buffer, device) := portAccess io direction size port offset buffer device
    let (more, buffer, device) := portLoop io direction size port offsets buffer device
    (accesses ++ more, buffer, device)

/-- The handlers make only accesses of `P` in the loop. -/
theorem portLoop_only {D : Type} {io : IOHandlers D} {P : HostAccess → Prop} (hio : io.Only P)
    (direction : PortDirection) (size : PortSize) (port : U16) (offsets : List ℕ) :
    ∀ (buffer : SharedBytes) (device : D),
      ∀ a ∈ (portLoop io direction size port offsets buffer device).1, P a := by
  induction offsets with
  | nil => exact fun _ _ a ha => absurd ha List.not_mem_nil
  | cons offset offsets ih =>
    intro buffer device a ha
    rcases List.mem_append.mp ha with hmem | hmem
    · cases direction with
      | output => exact hio.ioWrite _ _ _ _ a hmem
      | input => exact hio.ioRead _ _ _ a hmem
    · exact ih _ _ a hmem

def executionStatus (ok : Bool) : VPExecutionStatus := if ok then .OK else .Failed

/-- `VMExitInfo` with the details that the modelled exits fill in. -/
structure VMExitInfo where
  reason : VMExitReason
  exceptionCode : U32
  deriving DecidableEq, Repr

end Virt86
