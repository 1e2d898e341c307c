import Virt86.KvmRegisters
import Virt86.RunEngines

/-!
# The KVM virtual processor

`KvmVirtualProcessor` with the kernel behind it. The kernel holds the register files, answers
the calls made on the processor's file descriptor with success or failure, and does to the
register files what the guest does when it is run.
-/

namespace Virt86

namespace Kvm

/-- What `KVM_RUN` tells about the exit in the shared `kvm_run`, by exit reason. The element count
of a port access is below 2^16, the bound of the 16-bit counter that runs over it. -/
inductive KvmExit where
  | HLT
  | INTR
  | IRQ_WINDOW_OPEN
  | EXCEPTION (exception : U32)
  | SHUTDOWN
  | UNKNOWN
  | Io (direction : PortDirection) (size : PortSize) (port : U16) (count : U16)
  | Mmio (phys_addr : U64) (len : ℕ) (is_write : Bool)
  | DEBUG (dr6 : U64) (pc : U64)
  | OTHER (exit_reason : U32)
  deriving DecidableEq, Repr

/-- The shared `kvm_run`; `data` holds the bytes at `io.data_offset` of a port access and those of
`mmio.data` of a memory access. -/
structure KvmRun where
  exit : KvmExit
  data : SharedBytes

/-- `kvm_guest_debug`. -/
structure KvmGuestDebug where
  control : U32
  debugreg : Vector U64 8
  deriving DecidableEq, Repr

def KVM_GUESTDBG_ENABLE : U32 := 0x00000001
def KVM_GUESTDBG_SINGLESTEP : U32 := 0x00000002

/-- The kernel's side of a processor. `answers` tells which of the coming calls other than
`KVM_RUN` succeed, all of them once the list ends; `entered` holds the register files of each
`KVM_RUN` so far, the latest first. -/
structure KvmKernel where
  files : KvmRegisterFiles
  guestDebug : KvmGuestDebug
  answers : List Bool
  entered : List KvmRegisterFiles

def KvmKernel.answer (kernel : KvmKernel) : Bool × KvmKernel :=
  match kernel.answers with
  | [] => (true, kernel)
  | ok :: answers => (ok, { kernel with answers })

/-- What one `KVM_RUN` leaves behind. -/
structure KvmRunAnswer where
  ok : Bool
  files : KvmRegisterFiles
  kvmRun : KvmRun

/-- What a `KVM_RUN` does, by the register files it is entered with. -/
abbrev KvmGuest := KvmRegisterFiles → KvmRunAnswer

/-- The register copies of a processor and the kernel behind them. -/
structure KvmRegisterState where
  cache : KvmRegisterCache
  kernel : KvmKernel

/-- What `HandleExecResult` works on besides the registers: the shared `kvm_run`, `m_exitInfo`, the
I/O handlers of the machine and their device. -/
structure KvmExits (D : Type) where
  kvmRun : KvmRun
  exitInfo : VMExitInfo
  io : IOHandlers D
  device : D

/-- `KvmVirtualProcessor`. -/
structure KvmVirtualProcessor (D : Type) where
  registers : KvmRegisterState
  exits : KvmExits D
  debug : KvmGuestDebug

def KvmRegisterFiles.set (files : KvmRegisterFiles) : (i : KvmFile) → i.Data → KvmRegisterFiles
  | .regs, regs => { files with regs }
  | .sregs, sregs => { files with sregs }
  | .debugRegs, debugRegs => { files with debugRegs }
  | .fpuRegs, fpuRegs => { files with fpuRegs }

def KvmRegisterCache.clearChanged (c : KvmRegisterCache) : KvmFile → KvmRegisterCache
  | .regs => { c with regsChanged := false }
  | .sregs => { c with sregsChanged := false }
  | .debugRegs => { c with debugRegsChanged := false }
  | .fpuRegs => { c with fpuRegsChanged := false }

/-- The order in which the files are stored and fetched. -/
def allFiles : List KvmFile := [.regs, .sregs, .debugRegs, .fpuRegs]

/-! ## Accesses to the cached registers -/

namespace KvmRegisterCache

/-- The loop of the bulk `RegRead`. -/
def regReadLoop (files : KvmRegisterFiles) : List (Reg × RegValue) →
    VPOperationStatus × List RegValue
  | [] => (.OK, [])
  | (reg, value) :: rest =>
    match kvmRegRead files reg value with
    | (.OK, value) => ((regReadLoop files rest).1, value :: (regReadLoop files rest).2)
    | (status, value) => (status, value :: rest.map Prod.snd)

/-- The loop of the bulk `RegWrite`. -/
def regWriteLoop (c : KvmRegisterCache) : List (Reg × RegValue) →
    VPOperationStatus × KvmRegisterCache
  | [] => (.OK, c)
  | (reg, value) :: rest =>
    match kvmRegWrite c reg value with
    | (.OK, c) => regWriteLoop c rest
    | (status, c) => (status, c)

def getFPUControl (files : KvmRegisterFiles) : FPUControl where
  cw := files.fpuRegs.fcw
  sw := files.fpuRegs.fsw
  tw := files.fpuRegs.ftwx.setWidth 16
  op := files.fpuRegs.last_opcode
  cs := 0
  rip := files.fpuRegs.last_ip
  ds := 0
  rdp := files.fpuRegs.last_dp

/-- The control registers of the FPU file replaced by `value`. -/
def storeFPUControl (value : FPUControl) (fpuRegs : KvmFpu) : KvmFpu :=
  { fpuRegs with
    fcw := value.cw
    fsw := value.sw
    ftwx := value.tw.setWidth 8
    last_opcode := value.op
    last_ip := value.rip
    last_dp := value.rdp }

/-- `SetFPUControl`, which changes the copy but raises no flag. -/
def setFPUControl (c : KvmRegisterCache) (value : FPUControl) : KvmRegisterCache :=
  { c with files := { c.files with fpuRegs := storeFPUControl value c.files.fpuRegs } }

def setMXCSR (c : KvmRegisterCache) (value : MXCSR) : KvmRegisterCache :=
  c.modifyFpuRegs fun f => { f with mxcsr := value }

/-- The part of an accessor after `REFRESH_REGISTERS`. -/
def access (c : KvmRegisterCache) : HostAccess → AccessResult × KvmRegisterCache
  | .regRead reg value =>
    let (status, value) := kvmRegRead c.files reg value
    ((status, .values [value]), c)
  | .regWrite reg value =>
    let (status, c) := kvmRegWrite c reg value
    ((status, .nothing), c)
  | .regReadBulk regs =>
    let (status, values) := regReadLoop c.files regs
    ((status, .values values), c)
  | .regWriteBulk regs =>
    let (status, c) := c.regWriteLoop regs
    ((status, .nothing), c)
  | .getFPUControl _ => ((.OK, .fpuControl (getFPUControl c.files)), c)
  | .setFPUControl value => ((.OK, .nothing), c.setFPUControl value)
  | .getMXCSR _ => ((.OK, .mxcsr c.files.fpuRegs.mxcsr), c)
  | .setMXCSR value => ((.OK, .nothing), c.setMXCSR value)
  | .getMXCSRMask value => ((.Unsupported, .mxcsr value), c)
  | .setMXCSRMask _ => ((.Unsupported, .nothing), c)

end KvmRegisterCache

namespace KvmRegisterState

/-- Does `step` for each file in order until it fails. -/
def forFiles (step : KvmFile → KvmRegisterState → Bool × KvmRegisterState) :
    List KvmFile → KvmRegisterState → Bool × KvmRegisterState
  | [], s => (true, s)
  | i :: is, s =>
    match step i s with
    | (true, s) => forFiles step is s
    | (false, s) => (false, s)

/-- Stores a changed file with its `KVM_SET` call. -/
def storeFile (i : KvmFile) (s : KvmRegisterState) : Bool × KvmRegisterState :=
  if s.cache.changed i then
    match s.kernel.answer with
    | (true, kernel) => (true,
        { cache := s.cache.clearChanged i
          kernel := { kernel with files := kernel.files.set i (s.cache.files.get i) } })
    | (false, kernel) => (false, { s with kernel })
  else (true, s)

/-- Fetches a file with its `KVM_GET` call. -/
def fetchFile (i : KvmFile) (s : KvmRegisterState) : Bool × KvmRegisterState :=
  match s.kernel.answer with
  | (true, kernel) => (true,
      { cache := { s.cache with files := s.cache.files.set i (kernel.files.get i) }
        kernel })
  | (false, kernel) => (false, { s with kernel })

def updateRegisters (s : KvmRegisterState) : Bool × KvmRegisterState :=
  forFiles storeFile allFiles s

def refreshRegisters (s : KvmRegisterState) : Bool × KvmRegisterState :=
  if s.cache.regsDirty then
    match forFiles fetchFile allFiles s with
    | (true, s) => (true, { s with cache := { s.cache with regsDirty := false } })
    | (false, s) => (false, s)
  else (true, s)

/-- A register accessor. The accessors of the MXCSR mask do not even refresh the registers. -/
def access (s : KvmRegisterState) (a : HostAccess) : AccessResult × KvmRegisterState :=
  match a with
  | .getMXCSRMask _ | .setMXCSRMask _ => ((.Unsupported, a.arguments), s)
  | _ =>
    match s.refreshRegisters with
    | (true, s) => ((s.cache.access a).1, { s with cache := (s.cache.access a).2 })
    | (false, s) => ((.Failed, a.arguments), s)

/-- The accesses of the I/O handlers. -/
def accessAll (s : KvmRegisterState) (accesses : List HostAccess) : KvmRegisterState :=
  accesses.foldl (fun s a => (s.access a).2) s

def markDirty (s : KvmRegisterState) : KvmRegisterState :=
  { s with cache := { s.cache with regsDirty := true } }

/-- The kernel runs the guest. -/
def enterGuest (s : KvmRegisterState) (guest : KvmGuest) : KvmRegisterState :=
  { s with
    kernel := { s.kernel with
      files := (guest s.kernel.files).files
      entered := s.kernel.files :: s.kernel.entered } }

end KvmRegisterState

theorem regsDirty_refreshRegisters {s : KvmRegisterState} (h : s.refreshRegisters.1 = true) :
    s.refreshRegisters.2.cache.regsDirty = false := by
  cases hdirty : s.cache.regsDirty with
  | false => simp [KvmRegisterState.refreshRegisters, hdirty]
  | true =>
    simp only [KvmRegisterState.refreshRegisters, hdirty, if_true] at h ⊢
    cases hfetch : KvmRegisterState.forFiles KvmRegisterState.fetchFile allFiles s with
    | mk ok s' =>
      cases ok with
      | false => simp [hfetch] at h
      | true => rfl

/-! ## Handling an exit -/

namespace KvmExits

variable {D : Type}

def setReason (e : KvmExits D) (reason : VMExitReason) : KvmExits D :=
  { e with exitInfo := { e.exitInfo with reason } }

def handleException (e : KvmExits D) (exception : U32) : KvmExits D :=
  { e with exitInfo := { reason := .Exception, exceptionCode := exception } }

def handleIO (e : KvmExits D) (direction : PortDirection) (size : PortSize) (port : U16)
    (count : U16) : List HostAccess × KvmExits D :=
  let e := e.setReason .Pio
  let offsets := (List.range count.toNat).map (· * size.bytes)
  let (accesses, data, device) :=
    portLoop e.io direction size port offsets e.kvmRun.data e.device
  (accesses, { e with device, kvmRun := { e.kvmRun with data } })

def handleMMIO (e : KvmExits D) (phys_addr : U64) (len : ℕ) (is_write : Bool) :
    List HostAccess × KvmExits D :=
  let e := e.setReason .Mmio
  if is_write then
    let (accesses, device) := e.io.mmioWrite phys_addr len (e.kvmRun.data.load 0 8 64) e.device
    (accesses, { e with device })
  else
    let (value, accesses, device) := e.io.mmioRead phys_addr len e.device
    match len with
    | 1 | 2 | 4 | 8 =>
      let data := e.kvmRun.data.store 0 len value
      (accesses, { e with device, kvmRun := { e.kvmRun with data } })
    | _ => (accesses, { e with device })

/-- `HandleExecResult` after it marked the registers dirty. -/
def handleExit (e : KvmExits D) : List HostAccess × KvmExits D :=
  match e.kvmRun.exit with
  | .HLT => ([], e.setReason .HLT)
  | .INTR => ([], e.setReason .Normal)
  | .IRQ_WINDOW_OPEN => ([], e.setReason .Interrupt)
  | .EXCEPTION exception => ([], e.handleException exception)
  | .SHUTDOWN => ([], e.setReason .Shutdown)
  | .UNKNOWN => ([], e.setReason .Error)
  | .Io direction size port count => e.handleIO direction size port count
  | .Mmio phys_addr len is_write => e.handleMMIO phys_addr len is_write
  | .DEBUG dr6 _ =>
    ([], e.setReason (if dr6 &&& 0xf ≠ 0 then .HardwareBreakpoint else .SoftwareBreakpoint))
  | .OTHER _ => ([], e.setReason .Unhandled)

end KvmExits

/-! ## Running the processor -/

namespace KvmVirtualProcessor

variable {D : Type}

def handleExecResult (vp : KvmVirtualProcessor D) : VPExecutionStatus × KvmVirtualProcessor D :=
  let registers := vp.registers.markDirty
  let (accesses, exits) := vp.exits.handleExit
  (.OK, { vp with registers := registers.accessAll accesses, exits })

def runImpl (vp : KvmVirtualProcessor D) (guest : KvmGuest) :
    VPExecutionStatus × KvmVirtualProcessor D :=
  match vp.registers.updateRegisters with
  | (false, registers) => (.Failed, { vp with registers })
  | (true, registers) =>
    let answer := guest registers.kernel.files
    let vp := { vp with
      registers := registers.enterGuest guest
      exits := { vp.exits with kvmRun := answer.kvmRun } }
    if answer.ok then vp.handleExecResult else (.Failed, vp)

def setDebug (vp : KvmVirtualProcessor D) : Bool × KvmVirtualProcessor D :=
  let enable := vp.debug.control &&& ~~~KVM_GUESTDBG_ENABLE ≠ 0
  let debug := { vp.debug with
    control := if enable then vp.debug.control ||| KVM_GUESTDBG_ENABLE
      else vp.debug.control &&& ~~~KVM_GUESTDBG_ENABLE }
  match vp.registers.kernel.answer with
  | (true, kernel) => (true, { vp with
      debug
      registers := { vp.registers with kernel := { kernel with guestDebug := debug } } })
  | (false, kernel) => (false, { vp with debug, registers := { vp.registers with kernel } })

/-- The single-step bit of `m_debug`, before it is handed to the kernel. -/
def withSingleStep (vp : KvmVirtualProcessor D) (on : Bool) : KvmVirtualProcessor D :=
  { vp with debug := { vp.debug with
      control := if on then vp.debug.control ||| KVM_GUESTDBG_SINGLESTEP
        else vp.debug.control &&& ~~~KVM_GUESTDBG_SINGLESTEP } }

def stepImpl (vp : KvmVirtualProcessor D) (guest : KvmGuest) :
    VPExecutionStatus × KvmVirtualProcessor D :=
  match (vp.withSingleStep true).setDebug with
  | (false, vp) => (.Failed, vp)
  | (true, vp) =>
    let (status, vp) := vp.runImpl guest
    match (vp.withSingleStep false).setDebug with
    | (false, vp) => (.Failed, vp)
    | (true, vp) =>
      if status = .OK then
        let (result, vp) := vp.handleExecResult
        (result, if vp.exits.exitInfo.reason = .SoftwareBreakpoint then
          { vp with exits := vp.exits.setReason .Step } else vp)
      else (status, vp)

/-- A processor after its constructor and `Initialize`. The constructor zeroes three of the four
copies, leaves `m_debugRegs` as it finds it, and starts with all flags down. -/
def create (debugRegs : KvmDebugregs) (exits : KvmExits D) (kernel : KvmKernel) :
    KvmVirtualProcessor D where
  registers :=
    { cache :=
        { files := { regs := default, sregs := default, debugRegs, fpuRegs := default }
          regsDirty := false
          regsChanged := false
          sregsChanged := false
          debugRegsChanged := false
          fpuRegsChanged := false }
      kernel }
  exits := exits
  debug := { control := 0, debugreg := Vector.replicate 8 0 }

end KvmVirtualProcessor

/-- The operations of the host on a processor. -/
inductive KvmOp where
  | access (a : HostAccess)
  | run (guest : KvmGuest)
  | step (guest : KvmGuest)

abbrev KvmOpResult := AccessResult ⊕ VPExecutionStatus

def KvmVirtualProcessor.perform {D : Type} (vp : KvmVirtualProcessor D) :
    KvmOp → KvmOpResult × KvmVirtualProcessor D
  | .access a =>
    (.inl (vp.registers.access a).1, { vp with registers := (vp.registers.access a).2 })
  | .run guest => (.inr (vp.runImpl guest).1, (vp.runImpl guest).2)
  | .step guest => (.inr (vp.stepImpl guest).1, (vp.stepImpl guest).2)

section Engine

variable {D : Type}

/-- The parts of `RunImpl` and `StepImpl`. -/
def KvmVirtualProcessor.engine : RunEngine (KvmVirtualProcessor D) KvmGuest where
  prepare vp :=
    (vp.registers.updateRegisters.1, { vp with registers := vp.registers.updateRegisters.2 })
  enter guest vp :=
    ((guest vp.registers.kernel.files).ok, { vp with
      registers := vp.registers.enterGuest guest
      exits := { vp.exits with kvmRun := (guest vp.registers.kernel.files).kvmRun } })
  handle vp := vp.handleExecResult.2
  singleStep on vp := (vp.withSingleStep on).setDebug
  finish vp := if vp.exits.exitInfo.reason = .SoftwareBreakpoint then
    { vp with exits := vp.exits.setReason .Step } else vp

theorem runImpl_eq (vp : KvmVirtualProcessor D) (guest : KvmGuest) :
    vp.runImpl guest = (executionStatus (KvmVirtualProcessor.engine.run guest vp).1,
      (KvmVirtualProcessor.engine.run guest vp).2) := by
  simp only [KvmVirtualProcessor.runImpl, RunEngine.run, KvmVirtualProcessor.engine]
  cases vp.registers.updateRegisters with
  | mk ok registers =>
    cases ok with
    | false => rfl
    | true =>
      cases hok : (guest registers.kernel.files).ok with
      | false =>
        simp only [hok]
        rfl
      | true =>
        simp only [hok]
        rfl

theorem stepImpl_eq (vp : KvmVirtualProcessor D) (guest : KvmGuest) :
    vp.stepImpl guest = (executionStatus (KvmVirtualProcessor.engine.step guest vp).1,
      (KvmVirtualProcessor.engine.step guest vp).2) := by
  have hsingleStep : ∀ on (vp : KvmVirtualProcessor D),
      KvmVirtualProcessor.engine.singleStep on vp = (vp.withSingleStep on).setDebug :=
    fun _ _ => rfl
  simp only [KvmVirtualProcessor.stepImpl, RunEngine.step, runImpl_eq, hsingleStep]
  cases (vp.withSingleStep true).setDebug with
  | mk ok vp₁ =>
    cases ok with
    | false => rfl
    | true =>
      cases hdebug :
          ((KvmVirtualProcessor.engine.run guest vp₁).2.withSingleStep false).setDebug with
      | mk ok vp₂ =>
        simp only [hdebug]
        cases ok with
        | false => rfl
        | true => cases (KvmVirtualProcessor.engine.run guest vp₁).1 <;> rfl

end Engine

end Kvm

end Virt86
