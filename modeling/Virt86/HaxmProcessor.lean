import Virt86.HaxmRegisters
import Virt86.RunEngines

/-!
# The HAXM virtual processor

`HaxmVirtualProcessor` with the driver behind it. The driver holds the register files, answers
the calls made on the processor with success or failure, and does to the register files what the
guest does when it is run.
-/

namespace Virt86

namespace Haxm

/-- The exit that the driver reports in the tunnel, by exit status. The `hax_fastmmio` that the
I/O tunnel holds then comes with its exit. -/
inductive HaxExit where
  | HLT
  | INTERRUPT
  | PAUSED
  | Mmio
  | REALMODE
  | UNKNOWN
  | STATECHANGE
  | Io (direction : PortDirection) (df : Bool) (size : PortSize) (port : U16) (count : U16)
  | FastMmio (gpa : U64) (value : U64) (size : U8) (direction : U8)
  | DEBUG (rip : U64) (dr6 : U64) (dr7 : U64)
  | OTHER (exit_status : U32)
  deriving DecidableEq, Repr

/-- The tunnel, with the bytes of port accesses in the I/O tunnel. -/
structure HaxTunnel where
  exit : HaxExit
  ioTunnel : SharedBytes

/-- `hax_debug_t`. -/
structure HaxDebug where
  control : U32
  dr : Vector U64 8
  deriving DecidableEq, Repr

def HAX_IO_IN : U8 := 1
def HAX_DEBUG_ENABLE : U32 := 1#32 <<< 0
def HAX_DEBUG_STEP : U32 := 1#32 <<< 1

/-- The driver's side of a processor. `answers` tells which of the coming calls other than `Run`
succeed, all of them once the list ends; `entered` holds the register files of each `Run` so far,
the latest first. -/
structure HaxmDriver where
  files : HaxmRegisterFiles
  eferMSR : U64
  debug : HaxDebug
  answers : List Bool
  entered : List HaxmRegisterFiles

def HaxmDriver.answer (driver : HaxmDriver) : Bool × HaxmDriver :=
  match driver.answers with
  | [] => (true, driver)
  | ok :: answers => (ok, { driver with answers })

/-- What one `Run` leaves behind. -/
structure HaxmRunAnswer where
  ok : Bool
  files : HaxmRegisterFiles
  tunnel : HaxTunnel

/-- What a `Run` does, by the register files it is entered with. -/
abbrev HaxmGuest := HaxmRegisterFiles → HaxmRunAnswer

/-- The register copies of a processor and the driver behind them. -/
structure HaxmRegisterState where
  cache : HaxmRegisterCache
  useEferMSR : Bool
  driver : HaxmDriver

/-- What `HandleExecResult` works on besides the registers. -/
structure HaxmExits (D : Type) where
  tunnel : HaxTunnel
  exitInfo : VMExitInfo
  io : IOHandlers D
  device : D

/-- `HaxmVirtualProcessor`. -/
structure HaxmVirtualProcessor (D : Type) where
  registers : HaxmRegisterState
  exits : HaxmExits D
  debug : HaxDebug

def HaxmRegisterFiles.set (files : HaxmRegisterFiles) : (i : HaxmFile) → i.Data → HaxmRegisterFiles
  | .regs, regs => { files with regs }
  | .fpuRegs, fpuRegs => { files with fpuRegs }

def HaxmRegisterCache.clearChanged (c : HaxmRegisterCache) : HaxmFile → HaxmRegisterCache
  | .regs => { c with regsChanged := false }
  | .fpuRegs => { c with fpuRegsChanged := false }

/-! ## Accesses to the registers -/

namespace HaxmRegisterState

/-- Stores a changed file. The answer of the driver is not looked at. -/
def storeFile (i : HaxmFile) (s : HaxmRegisterState) : HaxmRegisterState :=
  if s.cache.changed i then
    let (ok, driver) := s.driver.answer
    { s with
      cache := s.cache.clearChanged i
      driver := if ok then { driver with files := driver.files.set i (s.cache.files.get i) }
        else driver }
  else s

/-- Fetches a file. -/
def fetchFile (i : HaxmFile) (s : HaxmRegisterState) : Bool × HaxmRegisterState :=
  match s.driver.answer with
  | (true, driver) => (true, { s with
      cache := { s.cache with files := s.cache.files.set i (driver.files.get i) }
      driver })
  | (false, driver) => (false, { s with driver })

def updateRegisters (s : HaxmRegisterState) : HaxmRegisterState :=
  (s.storeFile .regs).storeFile .fpuRegs

def refreshRegisters (s : HaxmRegisterState) : Bool × HaxmRegisterState :=
  if s.cache.regsDirty then
    match s.fetchFile .regs with
    | (false, s) => (false, s)
    | (true, s) =>
      match s.fetchFile .fpuRegs with
      | (false, s) => (false, s)
      | (true, s) => (true, { s with cache := { s.cache with regsDirty := false } })
  else (true, s)

/-- `HaxmRegRead`. Where `EFER` is read from its MSR, a failure goes unnoticed. -/
def regRead (s : HaxmRegisterState) (reg : Reg) (value : RegValue) :
    (VPOperationStatus × RegValue) × HaxmRegisterState :=
  if reg = .EFER ∧ s.useEferMSR then
    let (ok, driver) := s.driver.answer
    ((.OK, if ok then value.setU64 driver.eferMSR else value), { s with driver })
  else (haxmRegRead s.cache.files reg value, s)

/-- `HaxmRegWrite`. Where `EFER` is written to its MSR, a failure goes unnoticed. -/
def regWrite (s : HaxmRegisterState) (reg : Reg) (value : RegValue) :
    VPOperationStatus × HaxmRegisterState :=
  if reg = .EFER ∧ s.useEferMSR then
    let (ok, driver) := s.driver.answer
    (.OK, { s with driver := if ok then { driver with eferMSR := value.u64 } else driver })
  else
    let (status, cache) := haxmRegWrite s.cache reg value
    (status, { s with cache })

/-- The loop of the bulk `RegRead`. -/
def regReadLoop : List (Reg × RegValue) → HaxmRegisterState →
    (VPOperationStatus × List RegValue) × HaxmRegisterState
  | [], s => ((.OK, []), s)
  | (reg, value) :: rest, s =>
    match s.regRead reg value with
    | ((.OK, value), s) =>
      let ((status, values), s) := regReadLoop rest s
      ((status, value :: values), s)
    | ((status, value), s) => ((status, value :: rest.map Prod.snd), s)

/-- The loop of the bulk `RegWrite`. -/
def regWriteLoop : List (Reg × RegValue) → HaxmRegisterState →
    VPOperationStatus × HaxmRegisterState
  | [], s => (.OK, s)
  | (reg, value) :: rest, s =>
    match s.regWrite reg value with
    | (.OK, s) => regWriteLoop rest s
    | (status, s) => (status, s)

def getFPUControl (fpuRegs : FxLayout) : FPUControl where
  cw := fpuRegs.fcw
  sw := fpuRegs.fsw
  tw := fpuRegs.ftw.setWidth 16
  op := fpuRegs.fop
  cs := fpuRegs.fcs
  rip := fpuRegs.fip.setWidth 64
  ds := fpuRegs.fds
  rdp := fpuRegs.fdp.setWidth 64

/-- The control registers of the FPU file replaced by `value`. -/
def storeFPUControl (value : FPUControl) (fpuRegs : FxLayout) : FxLayout :=
  { fpuRegs with
    fcw := value.cw
    fsw := value.sw
    ftw := value.tw.setWidth 8
    fop := value.op
    fcs := value.cs
    fip := value.ip
    fds := value.ds
    fdp := value.dp }

def modifyFpuRegs (s : HaxmRegisterState) (edit : FxLayout → FxLayout) : HaxmRegisterState :=
  { s with cache := s.cache.modifyFpuRegs edit }

/-- The part of an accessor after `REFRESH_REGISTERS`. -/
def accessFresh (s : HaxmRegisterState) : HostAccess → AccessResult × HaxmRegisterState
  | .regRead reg value =>
    let ((status, value), s) := s.regRead reg value
    ((status, .values [value]), s)
  | .regWrite reg value =>
    let (status, s) := s.regWrite reg value
    ((status, .nothing), s)
  | .regReadBulk regs =>
    let ((status, values), s) := s.regReadLoop regs
    ((status, .values values), s)
  | .regWriteBulk regs =>
    let (status, s) := s.regWriteLoop regs
    ((status, .nothing), s)
  | .getFPUControl _ => ((.OK, .fpuControl (getFPUControl s.cache.files.fpuRegs)), s)
  | .setFPUControl value => ((.OK, .nothing), s.modifyFpuRegs (storeFPUControl value))
  | .getMXCSR _ => ((.OK, .mxcsr s.cache.files.fpuRegs.mxcsr), s)
  | .setMXCSR value => ((.OK, .nothing), s.modifyFpuRegs fun f => { f with mxcsr := value })
  | .getMXCSRMask _ => ((.OK, .mxcsr s.cache.files.fpuRegs.mxcsr_mask), s)
  | .setMXCSRMask value =>
    ((.OK, .nothing), s.modifyFpuRegs fun f => { f with mxcsr_mask := value })

/-- A register accessor. -/
def access (s : HaxmRegisterState) (a : HostAccess) : AccessResult × HaxmRegisterState :=
  match s.refreshRegisters with
  | (true, s) => s.accessFresh a
  | (false, s) => ((.Failed, a.arguments), s)

/-- The accesses of the I/O handlers. -/
def accessAll (s : HaxmRegisterState) (accesses : List HostAccess) : HaxmRegisterState :=
  accesses.foldl (fun s a => (s.access a).2) s

def markDirty (s : HaxmRegisterState) : HaxmRegisterState :=
  { s with cache := { s.cache with regsDirty := true } }

/-- The driver runs the guest. -/
def enterGuest (s : HaxmRegisterState) (guest : HaxmGuest) : HaxmRegisterState :=
  { s with
    driver := { s.driver with
      files := (guest s.driver.files).files
      entered := s.driver.files :: s.driver.entered } }

end HaxmRegisterState

theorem regRead_of_ne_efer (s : HaxmRegisterState) {reg : Reg} (hreg : reg ≠ .EFER)
    (value : RegValue) : s.regRead reg value = (haxmRegRead s.cache.files reg value, s) := by
  rw [HaxmRegisterState.regRead, if_neg fun h => hreg h.1]

theorem regWrite_of_ne_efer (s : HaxmRegisterState) {reg : Reg} (hreg : reg ≠ .EFER)
    (value : RegValue) : s.regWrite reg value =
      ((haxmRegWrite s.cache reg value).1,
        { s with cache := (haxmRegWrite s.cache reg value).2 }) := by
  rw [HaxmRegisterState.regWrite, if_neg fun h => hreg h.1]

theorem regsDirty_refreshRegisters {s : HaxmRegisterState} (h : s.refreshRegisters.1 = true) :
    s.refreshRegisters.2.cache.regsDirty = false := by
  cases hdirty : s.cache.regsDirty with
  | false => simp [HaxmRegisterState.refreshRegisters, hdirty]
  | true =>
    simp only [HaxmRegisterState.refreshRegisters, hdirty, if_true] at h ⊢
    split at h
    · simp at h
    · split at h
      · simp at h
      · simp_all

/-! ## Handling an exit -/

namespace HaxmExits

variable {D : Type}

def setReason (e : HaxmExits D) (reason : VMExitReason) : HaxmExits D :=
  { e with exitInfo := { e.exitInfo with reason } }

/-- `HandleIO`, which goes through the elements backwards when the direction flag is set. -/
def handleIO (e : HaxmExits D) (direction : PortDirection) (df : Bool) (size : PortSize)
    (port : U16) (count : U16) : List HostAccess × HaxmExits D :=
  let e := e.setReason .Pio
  let indices := if df then (List.range count.toNat).reverse else List.range count.toNat
  let (accesses, ioTunnel, device) :=
    portLoop e.io direction size port (indices.map (· * size.bytes)) e.tunnel.ioTunnel e.device
  (accesses, { e with device, tunnel := { e.tunnel with ioTunnel } })

def handleFastMMIO (e : HaxmExits D) (gpa value : U64) (size direction : U8) :
    List HostAccess × HaxmExits D :=
  let e := e.setReason .Mmio
  if direction < 2 then
    if direction = HAX_IO_IN then
      let (accesses, device) := e.io.mmioWrite gpa size.toNat value e.device
      (accesses, { e with device })
    else
      let (value, accesses, device) := e.io.mmioRead gpa size.toNat e.device
      (accesses, { e with
        device, tunnel := { e.tunnel with exit := .FastMmio gpa value size direction } })
  else
    -- `gpa2` shares its bytes with `value`
    let (data, accesses, device) := e.io.mmioRead gpa size.toNat e.device
    let (more, device) := e.io.mmioWrite value size.toNat data device
    (accesses ++ more, { e with device })

/-- `HandleExecResult` after it marked the registers dirty. -/
def handleExit (e : HaxmExits D) : List HostAccess × HaxmExits D :=
  match e.tunnel.exit with
  | .HLT => ([], e.setReason .HLT)
  | .INTERRUPT => ([], e.setReason .Interrupt)
  | .PAUSED => ([], e.setReason .Normal)
  | .Mmio => ([], e.setReason .Error)
  | .REALMODE => ([], e.setReason .Error)
  | .UNKNOWN => ([], e.setReason .Error)
  | .STATECHANGE => ([], e.setReason .Shutdown)
  | .Io direction df size port count => e.handleIO direction df size port count
  | .FastMmio gpa value size direction => e.handleFastMMIO gpa value size direction
  | .DEBUG _ dr6 _ =>
    ([], e.setReason (if dr6 &&& 0xf ≠ 0 then .HardwareBreakpoint else .SoftwareBreakpoint))
  | .OTHER _ => ([], e.setReason .Unhandled)

end HaxmExits

/-! ## Running the processor -/

namespace HaxmVirtualProcessor

variable {D : Type}

def handleExecResult (vp : HaxmVirtualProcessor D) : VPExecutionStatus × HaxmVirtualProcessor D :=
  let registers := vp.registers.markDirty
  let (accesses, exits) := vp.exits.handleExit
  (.OK, { vp with registers := registers.accessAll accesses, exits })

def runImpl (vp : HaxmVirtualProcessor D) (guest : HaxmGuest) :
    VPExecutionStatus × HaxmVirtualProcessor D :=
  let registers := vp.registers.updateRegisters
  let answer := guest registers.driver.files
  let vp := { vp with
    registers := registers.enterGuest guest
    exits := { vp.exits with tunnel := answer.tunnel } }
  if answer.ok then vp.handleExecResult else (.Failed, vp)

def setDebug (vp : HaxmVirtualProcessor D) : Bool × HaxmVirtualProcessor D :=
  let enable := vp.debug.control &&& ~~~HAX_DEBUG_ENABLE ≠ 0
  let debug := { vp.debug with
    control := if enable then vp.debug.control ||| HAX_DEBUG_ENABLE
      else vp.debug.control &&& ~~~HAX_DEBUG_ENABLE }
  match vp.registers.driver.answer with
  | (true, driver) => (true, { vp with
      debug
      registers := { vp.registers with driver := { driver with debug } } })
  | (false, driver) => (false, { vp with debug, registers := { vp.registers with driver } })

/-- The single-step bit of `m_debug`, before it is handed to the driver. -/
def withSingleStep (vp : HaxmVirtualProcessor D) (on : Bool) : HaxmVirtualProcessor D :=
  { vp with debug := { vp.debug with
      control := if on then vp.debug.control ||| HAX_DEBUG_STEP
        else vp.debug.control &&& ~~~HAX_DEBUG_STEP } }

def stepImpl (vp : HaxmVirtualProcessor D) (guest : HaxmGuest) :
    VPExecutionStatus × HaxmVirtualProcessor D :=
  match (vp.withSingleStep true).setDebug with
  | (false, vp) => (.Failed, vp)
  | (true, vp) =>
    let (status, vp) := vp.runImpl guest
    match (vp.withSingleStep false).setDebug with
    | (false, vp) => (.Failed, vp)
    | (true, vp) =>
      if status = .OK then
        let (result, vp) := vp.handleExecResult
        (result, if vp.exits.exitInfo.reason = .SoftwareBreakpoint then
          { vp with exits := vp.exits.setReason .Step } else vp)
      else (status, vp)

/-- A processor after its constructor and `Initialize`. The constructor's test for the way to
access `EFER` may leave anything in the copies, which start out of date. -/
def create (files : HaxmRegisterFiles) (useEferMSR : Bool) (exits : HaxmExits D)
    (driver : HaxmDriver) : HaxmVirtualProcessor D where
  registers :=
    { cache := { files, regsDirty := true, regsChanged := false, fpuRegsChanged := false }
      useEferMSR
      driver }
  exits := exits
  debug := { control := 0, dr := Vector.replicate 8 0 }

end HaxmVirtualProcessor

/-- The operations of the host on a processor. -/
inductive HaxmOp where
  | access (a : HostAccess)
  | run (guest : HaxmGuest)
  | step (guest : HaxmGuest)

abbrev HaxmOpResult := AccessResult ⊕ VPExecutionStatus

def HaxmVirtualProcessor.perform {D : Type} (vp : HaxmVirtualProcessor D) :
    HaxmOp → HaxmOpResult × HaxmVirtualProcessor D
  | .access a =>
    (.inl (vp.registers.access a).1, { vp with registers := (vp.registers.access a).2 })
  | .run guest => (.inr (vp.runImpl guest).1, (vp.runImpl guest).2)
  | .step guest => (.inr (vp.stepImpl guest).1, (vp.stepImpl guest).2)

section Engine

variable {D : Type}

/-- The parts of `RunImpl` and `StepImpl`. -/
def HaxmVirtualProcessor.engine : RunEngine (HaxmVirtualProcessor D) HaxmGuest where
  prepare vp := (true, { vp with registers := vp.registers.updateRegisters })
  enter guest vp :=
    ((guest vp.registers.driver.files).ok, { vp with
      registers := vp.registers.enterGuest guest
      exits := { vp.exits with tunnel := (guest vp.registers.driver.files).tunnel } })
  handle vp := vp.handleExecResult.2
  singleStep on vp := (vp.withSingleStep on).setDebug
  finish vp := if vp.exits.exitInfo.reason = .SoftwareBreakpoint then
    { vp with exits := vp.exits.setReason .Step } else vp

theorem runImpl_eq (vp : HaxmVirtualProcessor D) (guest : HaxmGuest) :
    vp.runImpl guest = (executionStatus (HaxmVirtualProcessor.engine.run guest vp).1,
      (HaxmVirtualProcessor.engine.run guest vp).2) := by
  simp only [HaxmVirtualProcessor.runImpl, RunEngine.run, HaxmVirtualProcessor.engine]
  cases (guest vp.registers.updateRegisters.driver.files).ok with
  | false => rfl
  | true => rfl

theorem stepImpl_eq (vp : HaxmVirtualProcessor D) (guest : HaxmGuest) :
    vp.stepImpl guest = (executionStatus (HaxmVirtualProcessor.engine.step guest vp).1,
      (HaxmVirtualProcessor.engine.step guest vp).2) := by
  have hsingleStep : ∀ on (vp : HaxmVirtualProcessor D),
      HaxmVirtualProcessor.engine.singleStep on vp = (vp.withSingleStep on).setDebug :=
    fun _ _ => rfl
  simp only [HaxmVirtualProcessor.stepImpl, RunEngine.step, runImpl_eq, hsingleStep]
  cases (vp.withSingleStep true).setDebug with
  | mk ok vp₁ =>
    cases ok with
    | false => rfl
    | true =>
      cases hdebug :
          ((HaxmVirtualProcessor.engine.run guest vp₁).2.withSingleStep false).setDebug with
      | mk ok vp₂ =>
        simp only [hdebug]
        cases ok with
        | false => rfl
        | true => cases (HaxmVirtualProcessor.engine.run guest vp₁).1 <;> rfl

end Engine

end Haxm

end Virt86
