import Virt86.DeviceAccesses
import Virt86.Dialogues
import Virt86.WhpxFloatingControl

/-!
# Runs of a WHPX processor

The hypervisor leaves port and memory accesses to an instruction emulator of its own, which asks the
processor through callbacks: for registers, for the translation of addresses, and for the accesses
themselves. What it asks, and in which order, is not known, so it may be any dialogue.
-/

namespace Virt86

namespace Whpx

/-! ## The processor -/

def WHV_IO_IN : U8 := 0

/-- `WHV_EMULATOR_IO_ACCESS_INFO`. -/
structure IoAccessInfo where
  direction : U8
  port : U16
  accessSize : U16
  data : U32
  deriving DecidableEq, Repr

/-- `WHV_EMULATOR_MEMORY_ACCESS_INFO`, of whose data there are eight bytes. -/
structure MemoryAccessInfo where
  gpaAddress : U64
  direction : U8
  accessSize : U8
  data : SharedBytes

/-- What the emulator asks through `WHV_EMULATOR_CALLBACKS`. -/
inductive EmulatorQuestion where
  | getVirtualProcessorRegisters (names : List WhvRegisterName)
  | setVirtualProcessorRegisters (values : List (WhvRegisterName × WhvRegisterValue))
  | translateGvaPage (gva : U64) (translateFlags : U32)
  | ioPort (access : IoAccessInfo)
  | memory (access : MemoryAccessInfo)

/-- The arguments that the callbacks fill in; nothing where they fail. -/
abbrev EmulatorAnswer : EmulatorQuestion → Type
  | .getVirtualProcessorRegisters _ => Option (List WhvRegisterValue)
  | .setVirtualProcessorRegisters _ => Bool
  | .translateGvaPage _ _ => Option (U32 × U64)
  | .ioPort _ => IoAccessInfo
  | .memory _ => MemoryAccessInfo

/-- What the emulator returns, and its `WHV_EMULATOR_STATUS`. -/
structure EmulatorResult where
  ok : Bool
  emulationSuccessful : Bool
  deriving DecidableEq, Repr

abbrev Emulation := Dialogue EmulatorQuestion EmulatorAnswer EmulatorResult

/-- `m_exitContext`. The emulator takes an access to ports or memory from there. -/
inductive WhpxExit where
  | X64Halt
  | X64MsrAccess (isWrite : Bool) (msrNumber : U32) (rax rdx : U64)
  | X64Cpuid (rax rcx rdx rbx defaultResultRax defaultResultRcx defaultResultRdx
      defaultResultRbx : U64)
  | X64IoPortAccess (emulation : Emulation)
  | MemoryAccess (emulation : Emulation)
  | X64InterruptWindow
  | Canceled
  | None
  | Exception
  | UnsupportedFeature
  | InvalidVpRegisterValue
  | UnrecoverableException
  | OTHER (reason : U32)

/-- The details in `VMExitInfo`, which share their bytes. -/
inductive VMExitDetails where
  | msr (isWrite : Bool) (msrNumber : U32) (rax rdx : U64)
  | cpuid (rax rcx rdx rbx defaultRax defaultRcx defaultRdx defaultRbx : U64)
  deriving DecidableEq, Repr

structure WhpxExitInfo where
  reason : VMExitReason
  details : Option VMExitDetails
  deriving DecidableEq, Repr

/-- A processor with what the hypervisor has of it. -/
structure WhpxVirtualProcessor (D : Type) where
  registers : WhpxRegisterState
  control : WhvControlRegisters
  exitInfo : WhpxExitInfo
  io : IOHandlers D
  device : D

/-- What a run of the guest makes of its registers, and how it ends. -/
structure WhpxRun where
  ok : Bool
  registers : WhvRegisterName → WhvRegisterValue
  control : WhvControlRegisters
  exit : WhpxExit

/-- The guest, and the translation of addresses that the hypervisor does for it. -/
structure WhpxGuest where
  run : (WhvRegisterName → WhvRegisterValue) → WhvControlRegisters → WhpxRun
  translateGva : (WhvRegisterName → WhvRegisterValue) → U64 → U32 → Option (U32 × U64)

namespace WhpxVirtualProcessor

variable {D : Type}

/-- The hypervisor's answer to a call for the control registers. -/
def controlAnswer (vp : WhpxVirtualProcessor D) : Bool × WhpxVirtualProcessor D :=
  (vp.registers.answer.1, { vp with registers := vp.registers.answer.2 })

/-- A register accessor. -/
def access (vp : WhpxVirtualProcessor D) : HostAccess → AccessResult × WhpxVirtualProcessor D
  | .regRead reg value =>
    let r := vp.registers.regRead reg value
    ((r.1.1, .values [r.1.2]), { vp with registers := r.2 })
  | .regWrite reg value =>
    let r := vp.registers.regWrite reg value
    ((r.1, .nothing), { vp with registers := r.2 })
  | .regReadBulk regs =>
    let r := vp.registers.regReadBulk regs
    ((r.1.1, .values r.1.2), { vp with registers := r.2 })
  | .regWriteBulk regs =>
    let r := vp.registers.regWriteBulk regs
    ((r.1, .nothing), { vp with registers := r.2 })
  | .getFPUControl value =>
    let r := vp.control.getFPUControl vp.controlAnswer.1 value
    ((r.1, .fpuControl r.2), vp.controlAnswer.2)
  | .setFPUControl value =>
    let r := vp.control.setFPUControl vp.controlAnswer.1 value
    ((r.1, .nothing), { vp.controlAnswer.2 with control := r.2 })
  | .getMXCSR value =>
    let r := vp.control.getMXCSR vp.controlAnswer.1 value
    ((r.1, .mxcsr r.2), vp.controlAnswer.2)
  | .setMXCSR value =>
    let r := vp.control.setMXCSR vp.controlAnswer.1 value
    ((r.1, .nothing), { vp.controlAnswer.2 with control := r.2 })
  | .getMXCSRMask value =>
    let r := vp.control.getMXCSRMask vp.controlAnswer.1 value
    ((r.1, .mxcsr r.2), vp.controlAnswer.2)
  | .setMXCSRMask value =>
    let r := vp.control.setMXCSRMask vp.controlAnswer.1 value
    ((r.1, .nothing), { vp.controlAnswer.2 with control := r.2 })

/-- The accesses of the I/O handlers. -/
def accessAll (vp : WhpxVirtualProcessor D) (accesses : List HostAccess) :
    WhpxVirtualProcessor D :=
  accesses.foldl (fun vp a => (vp.access a).2) vp

/-- After a handler returned, its accesses are made. -/
def afterHandler (vp : WhpxVirtualProcessor D) (accesses : List HostAccess) (device : D) :
    WhpxVirtualProcessor D :=
  { vp with device }.accessAll accesses

def setReason (vp : WhpxVirtualProcessor D) (reason : VMExitReason) : WhpxVirtualProcessor D :=
  { vp with exitInfo := { vp.exitInfo with reason } }

/-! ## The callbacks of the emulator -/

/-- `IoPortCallback`, with the `HandleIO` that it calls. -/
def ioPortCallback (vp : WhpxVirtualProcessor D) (ioAccess : IoAccessInfo) :
    IoAccessInfo × WhpxVirtualProcessor D :=
  if ioAccess.direction = WHV_IO_IN then
    let r := vp.io.ioRead ioAccess.port ioAccess.accessSize.toNat vp.device
    ({ ioAccess with data := r.1 }, vp.afterHandler r.2.1 r.2.2)
  else
    let r := vp.io.ioWrite ioAccess.port ioAccess.accessSize.toNat ioAccess.data vp.device
    (ioAccess, vp.afterHandler r.1 r.2)

/-- The sizes that `HandleMMIO` knows; it asserts that there are no others. -/
def knownSize (size : ℕ) : Bool := [1, 2, 4, 8].contains size

/-- `MemoryCallback`, with the `HandleMMIO` that it calls. -/
def memoryCallback (vp : WhpxVirtualProcessor D) (memoryAccess : MemoryAccessInfo) :
    MemoryAccessInfo × WhpxVirtualProcessor D :=
  let size := memoryAccess.accessSize.toNat
  if memoryAccess.direction = WHV_IO_IN then
    let r := vp.io.mmioRead memoryAccess.gpaAddress size vp.device
    (if knownSize size then
        { memoryAccess with data := memoryAccess.data.store 0 size r.1 }
      else memoryAccess,
      vp.afterHandler r.2.1 r.2.2)
  else if knownSize size then
    let r := vp.io.mmioWrite memoryAccess.gpaAddress size (memoryAccess.data.load 0 size 64)
      vp.device
    (memoryAccess, vp.afterHandler r.1 r.2)
  else (memoryAccess, vp)

def callbacks (guest : WhpxGuest) :
    Server EmulatorQuestion EmulatorAnswer (WhpxVirtualProcessor D)
  | .getVirtualProcessorRegisters names, vp =>
    ((vp.registers.getVirtualProcessorRegisters names).1,
      { vp with registers := (vp.registers.getVirtualProcessorRegisters names).2 })
  | .setVirtualProcessorRegisters values, vp =>
    ((vp.registers.setVirtualProcessorRegisters values).1,
      { vp with registers := (vp.registers.setVirtualProcessorRegisters values).2 })
  | .translateGvaPage gva flags, vp => (guest.translateGva vp.registers.registers gva flags, vp)
  | .ioPort ioAccess, vp => vp.ioPortCallback ioAccess
  | .memory memoryAccess, vp => vp.memoryCallback memoryAccess

/-! ## Running -/

/-- `HandleIO` and `HandleMMIO` of an exit. -/
def handleEmulation (guest : WhpxGuest) (emulation : Emulation) (reason : VMExitReason)
    (vp : WhpxVirtualProcessor D) : VPExecutionStatus × WhpxVirtualProcessor D :=
  let r := emulation.run (callbacks guest) vp
  if !r.2.1.ok then (.Failed, r.2.2)
  else if !r.2.1.emulationSuccessful then (.Failed, r.2.2)
  else (.OK, r.2.2.setReason reason)

def handleIO (guest : WhpxGuest) (emulation : Emulation) (vp : WhpxVirtualProcessor D) :
    VPExecutionStatus × WhpxVirtualProcessor D :=
  handleEmulation guest emulation .Pio vp

def handleMMIO (guest : WhpxGuest) (emulation : Emulation) (vp : WhpxVirtualProcessor D) :
    VPExecutionStatus × WhpxVirtualProcessor D :=
  handleEmulation guest emulation .Mmio vp

def handleMSRAccess (isWrite : Bool) (msrNumber : U32) (rax rdx : U64)
    (vp : WhpxVirtualProcessor D) : WhpxVirtualProcessor D :=
  { vp with exitInfo := ⟨.MSRAccess, some (.msr isWrite msrNumber rax rdx)⟩ }

def handleCPUIDAccess (rax rcx rdx rbx defaultRax defaultRcx defaultRdx defaultRbx : U64)
    (vp : WhpxVirtualProcessor D) : WhpxVirtualProcessor D :=
  { vp with exitInfo :=
      ⟨.CPUID, some (.cpuid rax rcx rdx rbx defaultRax defaultRcx defaultRdx defaultRbx)⟩ }

def handleExit (guest : WhpxGuest) (vp : WhpxVirtualProcessor D) :
    WhpxExit → VPExecutionStatus × WhpxVirtualProcessor D
  | .X64Halt => (.OK, vp.setReason .HLT)
  | .X64MsrAccess isWrite msrNumber rax rdx =>
    (.OK, vp.handleMSRAccess isWrite msrNumber rax rdx)
  | .X64Cpuid rax rcx rdx rbx defaultRax defaultRcx defaultRdx defaultRbx =>
    (.OK, vp.handleCPUIDAccess rax rcx rdx rbx defaultRax defaultRcx defaultRdx defaultRbx)
  | .X64IoPortAccess emulation => vp.handleIO guest emulation
  | .MemoryAccess emulation => vp.handleMMIO guest emulation
  | .X64InterruptWindow => (.OK, vp.setReason .Interrupt)
  | .Canceled => (.OK, vp.setReason .Cancelled)
  | .None => (.OK, vp.setReason .Normal)
  | .Exception => (.OK, vp.setReason .Exception)
  | .UnsupportedFeature => (.OK, vp.setReason .Error)
  | .InvalidVpRegisterValue => (.OK, vp.setReason .Error)
  | .UnrecoverableException => (.OK, vp.setReason .Error)
  | .OTHER _ => (.OK, vp.setReason .Unhandled)

/-- The hypervisor runs the guest. -/
def enterGuest (guest : WhpxGuest) (vp : WhpxVirtualProcessor D) : WhpxVirtualProcessor D :=
  let answer := guest.run vp.registers.registers vp.control
  { vp with
    registers := { vp.registers with registers := answer.registers }
    control := answer.control }

def runImpl (vp : WhpxVirtualProcessor D) (guest : WhpxGuest) :
    VPExecutionStatus × WhpxVirtualProcessor D :=
  let answer := guest.run vp.registers.registers vp.control
  if answer.ok then (vp.enterGuest guest).handleExit guest answer.exit
  else (.Failed, vp.enterGuest guest)

/-- The `StepImpl` of `VirtualProcessor`. -/
def stepImpl (vp : WhpxVirtualProcessor D) : VPExecutionStatus × WhpxVirtualProcessor D :=
  (.Unsupported, vp)

end WhpxVirtualProcessor

/-- What the host does with a processor. -/
inductive WhpxOp where
  | access (a : HostAccess)
  | run (guest : WhpxGuest)
  | step (guest : WhpxGuest)

abbrev WhpxOpResult := AccessResult ⊕ VPExecutionStatus

def WhpxVirtualProcessor.perform {D : Type} (vp : WhpxVirtualProcessor D) :
    WhpxOp → WhpxOpResult × WhpxVirtualProcessor D
  | .access a => (.inl (vp.access a).1, (vp.access a).2)
  | .run guest => (.inr (vp.runImpl guest).1, (vp.runImpl guest).2)
  | .step _ => (.inr vp.stepImpl.1, vp.stepImpl.2)

/-! ## Device accesses -/

/-- The invocation that a port access asks for. -/
def IoAccessInfo.described (ioAccess : IoAccessInfo) : DeviceAccess :=
  if ioAccess.direction = WHV_IO_IN then .ioRead ioAccess.port ioAccess.accessSize.toNat
  else .ioWrite ioAccess.port ioAccess.accessSize.toNat ioAccess.data

/-- A write of another size than those of the processor is lost. -/
def MemoryAccessInfo.described (memoryAccess : MemoryAccessInfo) : List DeviceAccess :=
  let size := memoryAccess.accessSize.toNat
  if memoryAccess.direction = WHV_IO_IN then [.mmioRead memoryAccess.gpaAddress size]
  else if WhpxVirtualProcessor.knownSize size then
    [.mmioWrite memoryAccess.gpaAddress size (memoryAccess.data.load 0 size 64)]
  else []

def EmulatorQuestion.described : EmulatorQuestion → List DeviceAccess
  | .ioPort ioAccess => [ioAccess.described]
  | .memory memoryAccess => memoryAccess.described
  | _ => []

namespace WhpxVirtualProcessor

variable {D : Type}

/-- The accesses that the emulator asks for in a run, in order. -/
def asked (guest : WhpxGuest) (vp : WhpxVirtualProcessor D) : WhpxExit → List DeviceAccess
  | .X64IoPortAccess emulation | .MemoryAccess emulation =>
    (emulation.run (callbacks guest) vp).1.flatMap fun exchange => exchange.1.described
  | _ => []

/-- The accesses that the exit of an operation asks for. -/
def due (vp : WhpxVirtualProcessor D) : WhpxOp → List DeviceAccess
  | .run guest =>
    let answer := guest.run vp.registers.registers vp.control
    if answer.ok then asked guest (vp.enterGuest guest) answer.exit else []
  | _ => []

/-- The processor with the invocations of its handlers recorded from now on. -/
def record (vp : WhpxVirtualProcessor D) : WhpxVirtualProcessor (D × List DeviceAccess) where
  registers := vp.registers
  control := vp.control
  exitInfo := vp.exitInfo
  io := vp.io.recorded
  device := (vp.device, [])

/-- The processor with the plain handlers `io` in the place of the recorded ones. -/
def withoutRecord (io : IOHandlers D) (vp : WhpxVirtualProcessor (D × List DeviceAccess)) :
    WhpxVirtualProcessor D where
  registers := vp.registers
  control := vp.control
  exitInfo := vp.exitInfo
  io := io
  device := vp.device.1

/-- The invocations of the handlers along a run of operations. -/
def accessTrace (vp : WhpxVirtualProcessor D) (ops : List WhpxOp) : List DeviceAccess :=
  (runAll perform vp.record ops).2.device.2

/-! ## Frames -/

/-- Register accesses leave the devices and the exit information alone. -/
theorem access_frame (vp : WhpxVirtualProcessor D) (a : HostAccess) :
    (vp.access a).2.io = vp.io ∧ (vp.access a).2.device = vp.device ∧
      (vp.access a).2.exitInfo = vp.exitInfo := by
  cases a <;> exact ⟨rfl, rfl, rfl⟩

theorem accessAll_frame (vp : WhpxVirtualProcessor D) (accesses : List HostAccess) :
    (vp.accessAll accesses).io = vp.io ∧ (vp.accessAll accesses).device = vp.device ∧
      (vp.accessAll accesses).exitInfo = vp.exitInfo := by
  induction accesses generalizing vp with
  | nil => exact ⟨rfl, rfl, rfl⟩
  | cons a accesses ih =>
    obtain ⟨hio, hdevice, hexit⟩ := vp.access_frame a
    obtain ⟨hios, hdevices, hexits⟩ := ih (vp.access a).2
    exact ⟨hios.trans hio, hdevices.trans hdevice, hexits.trans hexit⟩

theorem afterHandler_frame (vp : WhpxVirtualProcessor D) (accesses : List HostAccess) (d : D) :
    (vp.afterHandler accesses d).io = vp.io ∧ (vp.afterHandler accesses d).device = d ∧
      (vp.afterHandler accesses d).exitInfo = vp.exitInfo :=
  accessAll_frame { vp with device := d } accesses

/-- The callbacks leave the handlers and the exit information alone. -/
theorem callbacks_frame (guest : WhpxGuest) (question : EmulatorQuestion)
    (vp : WhpxVirtualProcessor D) :
    (callbacks guest question vp).2.io = vp.io ∧
      (callbacks guest question vp).2.exitInfo = vp.exitInfo := by
  have hafter (accesses : List HostAccess) (d : D) :
      (vp.afterHandler accesses d).io = vp.io ∧
        (vp.afterHandler accesses d).exitInfo = vp.exitInfo :=
    ⟨(vp.afterHandler_frame accesses d).1, (vp.afterHandler_frame accesses d).2.2⟩
  cases question with
  | ioPort ioAccess =>
    simp only [callbacks, ioPortCallback]
    split_ifs
    · exact hafter _ _
    · exact hafter _ _
  | memory memoryAccess =>
    simp only [callbacks, memoryCallback]
    split_ifs
    · exact hafter _ _
    · exact hafter _ _
    · exact hafter _ _
    · exact ⟨rfl, rfl⟩
  | _ => exact ⟨rfl, rfl⟩

theorem exitInfo_emulation (guest : WhpxGuest) (emulation : Emulation)
    (vp : WhpxVirtualProcessor D) :
    (emulation.run (callbacks guest) vp).2.2.exitInfo = vp.exitInfo := by
  have hkept (question : EmulatorQuestion) (vp' : WhpxVirtualProcessor D)
      (h : vp'.exitInfo = vp.exitInfo) :
      (callbacks guest question vp').2.exitInfo = vp.exitInfo :=
    (callbacks_frame guest question vp').2.trans h
  exact Dialogue.run_preserves hkept emulation rfl

section Recorded

variable {io : IOHandlers D} {vp : WhpxVirtualProcessor (D × List DeviceAccess)}

theorem access_withoutRecord (a : HostAccess) :
    (vp.withoutRecord io).access a = ((vp.access a).1, (vp.access a).2.withoutRecord io) := by
  cases a <;> rfl

theorem accessAll_withoutRecord (accesses : List HostAccess) :
    (vp.withoutRecord io).accessAll accesses = (vp.accessAll accesses).withoutRecord io := by
  induction accesses generalizing vp with
  | nil => rfl
  | cons a accesses ih =>
    have hnext : ((vp.withoutRecord io).access a).2 = (vp.access a).2.withoutRecord io :=
      congrArg Prod.snd (access_withoutRecord a)
    rw [accessAll, List.foldl_cons, hnext]
    exact ih

variable (h : vp.io = io.recorded)

include h

theorem afterHandler_recorded (accesses : List HostAccess) (d : D × List DeviceAccess) :
    (vp.afterHandler accesses d).io = io.recorded ∧ (vp.afterHandler accesses d).device.2 = d.2 ∧
      (vp.withoutRecord io).afterHandler accesses d.1 =
        (vp.afterHandler accesses d).withoutRecord io := by
  obtain ⟨hio, hdevice, -⟩ := vp.afterHandler_frame accesses d
  have hplain : (withoutRecord io { vp with device := d }).accessAll accesses =
      (accessAll { vp with device := d } accesses).withoutRecord io :=
    accessAll_withoutRecord accesses
  exact ⟨hio.trans h, congrArg Prod.snd hdevice, hplain⟩

/-- A port access invokes its handler once, and the record changes nothing in it. -/
theorem ioPortCallback_recorded (ioAccess : IoAccessInfo) :
    (vp.ioPortCallback ioAccess).2.io = io.recorded ∧
      (vp.ioPortCallback ioAccess).2.device.2 = vp.device.2 ++ [ioAccess.described] ∧
      (vp.withoutRecord io).ioPortCallback ioAccess =
        ((vp.ioPortCallback ioAccess).1, (vp.ioPortCallback ioAccess).2.withoutRecord io) := by
  unfold ioPortCallback IoAccessInfo.described
  simp only [h]
  split_ifs
  · obtain ⟨hio, hlog, hplain⟩ := afterHandler_recorded h _
      (io.recorded.ioRead ioAccess.port ioAccess.accessSize.toNat vp.device).2.2
    exact ⟨hio, hlog, Prod.ext rfl hplain⟩
  · obtain ⟨hio, hlog, hplain⟩ := afterHandler_recorded h _
      (io.recorded.ioWrite ioAccess.port ioAccess.accessSize.toNat ioAccess.data vp.device).2
    exact ⟨hio, hlog, Prod.ext rfl hplain⟩

theorem memoryCallback_recorded (memoryAccess : MemoryAccessInfo) :
    (vp.memoryCallback memoryAccess).2.io = io.recorded ∧
      (vp.memoryCallback memoryAccess).2.device.2 = vp.device.2 ++ memoryAccess.described ∧
      (vp.withoutRecord io).memoryCallback memoryAccess =
        ((vp.memoryCallback memoryAccess).1,
          (vp.memoryCallback memoryAccess).2.withoutRecord io) := by
  unfold memoryCallback MemoryAccessInfo.described
  simp only [h]
  by_cases hdirection : memoryAccess.direction = WHV_IO_IN
  · simp only [hdirection, if_true]
    obtain ⟨hio, hlog, hplain⟩ := afterHandler_recorded h _
      (io.recorded.mmioRead memoryAccess.gpaAddress memoryAccess.accessSize.toNat vp.device).2.2
    exact ⟨hio, hlog, Prod.ext rfl hplain⟩
  · simp only [hdirection, if_false]
    split_ifs
    · obtain ⟨hio, hlog, hplain⟩ := afterHandler_recorded h _
        (io.recorded.mmioWrite memoryAccess.gpaAddress memoryAccess.accessSize.toNat
          (memoryAccess.data.load 0 memoryAccess.accessSize.toNat 64) vp.device).2
      exact ⟨hio, hlog, Prod.ext rfl hplain⟩
    · exact ⟨h, (List.append_nil _).symm, rfl⟩

/-- So does every callback. -/
theorem callbacks_recorded (guest : WhpxGuest) (question : EmulatorQuestion) :
    (callbacks guest question vp).2.io = io.recorded ∧
      (callbacks guest question vp).2.device.2 = vp.device.2 ++ question.described ∧
      callbacks guest question (vp.withoutRecord io) =
        ((callbacks guest question vp).1, (callbacks guest question vp).2.withoutRecord io) := by
  cases question with
  | ioPort ioAccess => exact ioPortCallback_recorded h ioAccess
  | memory memoryAccess => exact memoryCallback_recorded h memoryAccess
  | getVirtualProcessorRegisters names => exact ⟨h, (List.append_nil _).symm, rfl⟩
  | setVirtualProcessorRegisters values => exact ⟨h, (List.append_nil _).symm, rfl⟩
  | translateGvaPage gva flags => exact ⟨h, (List.append_nil _).symm, rfl⟩

/-- The emulator's accesses are those of its dialogue. -/
theorem emulation_recorded (guest : WhpxGuest) (emulation : Emulation) :
    (emulation.run (callbacks guest) vp).2.2.io = io.recorded ∧
      (emulation.run (callbacks guest) vp).2.2.device.2 = vp.device.2 ++
        (emulation.run (callbacks guest) vp).1.flatMap (fun exchange => exchange.1.described) ∧
      emulation.run (callbacks guest) (vp.withoutRecord io) =
        ((emulation.run (callbacks guest) vp).1, (emulation.run (callbacks guest) vp).2.1,
          (emulation.run (callbacks guest) vp).2.2.withoutRecord io) := by
  have hkept (question : EmulatorQuestion) (vp : WhpxVirtualProcessor (D × List DeviceAccess))
      (h : vp.io = io.recorded) : (callbacks guest question vp).2.io = io.recorded :=
    (callbacks_recorded h guest question).1
  have hplain (question : EmulatorQuestion) (vp : WhpxVirtualProcessor (D × List DeviceAccess))
      (plain : WhpxVirtualProcessor D) (h : vp.io = io.recorded ∧ plain = vp.withoutRecord io) :
      (callbacks guest question vp).1 = (callbacks guest question plain).1 ∧
        (callbacks guest question vp).2.io = io.recorded ∧
        (callbacks guest question plain).2 = (callbacks guest question vp).2.withoutRecord io := by
    obtain ⟨hio, -, hsame⟩ := callbacks_recorded h.1 guest question
    rw [h.2, hsame]
    exact ⟨rfl, hio, rfl⟩
  obtain ⟨hexchanges, hresult, -, hlast⟩ :=
    Dialogue.run_simulates hplain emulation ⟨h, rfl⟩
  refine ⟨Dialogue.run_preserves hkept emulation h, ?_, ?_⟩
  · exact Dialogue.run_log (fun vp => vp.device.2) (fun exchange => exchange.1.described) hkept
      (fun question vp h => (callbacks_recorded h guest question).2.1) emulation h
  · exact Prod.ext hexchanges.symm (Prod.ext hresult.symm hlast)

theorem handleEmulation_recorded (guest : WhpxGuest) (emulation : Emulation)
    (reason : VMExitReason) :
    (handleEmulation guest emulation reason vp).2.io = io.recorded ∧
      (handleEmulation guest emulation reason vp).2.device.2 = vp.device.2 ++
        (emulation.run (callbacks guest) vp).1.flatMap (fun exchange => exchange.1.described) ∧
      handleEmulation guest emulation reason (vp.withoutRecord io) =
        ((handleEmulation guest emulation reason vp).1,
          (handleEmulation guest emulation reason vp).2.withoutRecord io) := by
  obtain ⟨hio, hlog, hplain⟩ := emulation_recorded h guest emulation
  unfold handleEmulation
  rw [hplain]
  dsimp only
  split_ifs
  · exact ⟨hio, hlog, rfl⟩
  · exact ⟨hio, hlog, rfl⟩
  · exact ⟨hio, hlog, rfl⟩

theorem handleExit_recorded (guest : WhpxGuest) (exit : WhpxExit) :
    (handleExit guest vp exit).2.io = io.recorded ∧
      (handleExit guest vp exit).2.device.2 = vp.device.2 ++ asked guest vp exit ∧
      handleExit guest (vp.withoutRecord io) exit =
        ((handleExit guest vp exit).1, (handleExit guest vp exit).2.withoutRecord io) := by
  cases exit with
  | X64IoPortAccess emulation => exact handleEmulation_recorded h guest emulation .Pio
  | MemoryAccess emulation => exact handleEmulation_recorded h guest emulation .Mmio
  | _ => exact ⟨h, (List.append_nil _).symm, rfl⟩

/-- What the host does with a processor invokes the handlers for the accesses that are due. -/
theorem perform_recorded (op : WhpxOp) :
    (vp.perform op).2.io = io.recorded ∧
      (vp.perform op).2.device.2 = vp.device.2 ++ vp.due op ∧
      (vp.withoutRecord io).perform op =
        ((vp.perform op).1, (vp.perform op).2.withoutRecord io) := by
  cases op with
  | access a =>
    obtain ⟨hio, hdevice, -⟩ := vp.access_frame a
    refine ⟨hio.trans h, ?_, ?_⟩
    · rw [perform, hdevice]
      exact (List.append_nil _).symm
    · rw [perform, access_withoutRecord]
      rfl
  | run guest =>
    have hentered : (vp.enterGuest guest).io = io.recorded := h
    obtain ⟨hio, hlog, hplain⟩ := handleExit_recorded hentered guest
      (guest.run vp.registers.registers vp.control).exit
    have hguest : guest.run (vp.withoutRecord io).registers.registers
        (vp.withoutRecord io).control = guest.run vp.registers.registers vp.control := rfl
    have henter : (vp.withoutRecord io).enterGuest guest =
        (vp.enterGuest guest).withoutRecord io := rfl
    simp only [perform, runImpl, due, hguest, henter, hplain]
    split_ifs
    · exact ⟨hio, hlog, rfl⟩
    · exact ⟨h, (List.append_nil _).symm, rfl⟩
  | step guest => exact ⟨h, (List.append_nil _).symm, rfl⟩

end Recorded

/-- The reason that belongs to an exit. -/
def exitReason : WhpxExit → VMExitReason
  | .X64Halt => .HLT
  | .X64MsrAccess .. => .MSRAccess
  | .X64Cpuid .. => .CPUID
  | .X64IoPortAccess _ => .Pio
  | .MemoryAccess _ => .Mmio
  | .X64InterruptWindow => .Interrupt
  | .Canceled => .Cancelled
  | .None => .Normal
  | .Exception => .Exception
  | .UnsupportedFeature | .InvalidVpRegisterValue | .UnrecoverableException => .Error
  | .OTHER _ => .Unhandled

/-- The reason of the exit of an operation that ran the guest and did not fail. -/
def reported (vp : WhpxVirtualProcessor D) : WhpxOp → Option VMExitReason
  | .run guest =>
    if (vp.runImpl guest).1 = .OK then
      some (exitReason (guest.run vp.registers.registers vp.control).exit)
    else none
  | _ => none

theorem handleEmulation_reason (guest : WhpxGuest) (emulation : Emulation)
    (reason : VMExitReason) (vp : WhpxVirtualProcessor D) :
    (handleEmulation guest emulation reason vp).2.exitInfo.reason =
      if (handleEmulation guest emulation reason vp).1 = .OK then reason
      else vp.exitInfo.reason := by
  have hkept := congrArg WhpxExitInfo.reason (exitInfo_emulation guest emulation vp)
  unfold handleEmulation
  dsimp only
  generalize emulation.run (callbacks guest) vp = r at hkept ⊢
  obtain ⟨exchanges, ⟨ok, emulationSuccessful⟩, vp'⟩ := r
  cases ok with
  | false => exact hkept
  | true =>
    cases emulationSuccessful with
    | false => exact hkept
    | true => rfl

theorem handleExit_reason (guest : WhpxGuest) (vp : WhpxVirtualProcessor D) (exit : WhpxExit) :
    (handleExit guest vp exit).2.exitInfo.reason =
      if (handleExit guest vp exit).1 = .OK then exitReason exit else vp.exitInfo.reason := by
  cases exit with
  | X64IoPortAccess emulation => exact handleEmulation_reason guest emulation .Pio vp
  | MemoryAccess emulation => exact handleEmulation_reason guest emulation .Mmio vp
  | _ => rfl

theorem perform_reason (vp : WhpxVirtualProcessor D) (op : WhpxOp) :
    (vp.perform op).2.exitInfo.reason = (vp.reported op).getD vp.exitInfo.reason := by
  cases op with
  | access a => exact congrArg WhpxExitInfo.reason (vp.access_frame a).2.2
  | run guest =>
    have hentered : (vp.enterGuest guest).exitInfo.reason = vp.exitInfo.reason := rfl
    have hexit := handleExit_reason guest (vp.enterGuest guest)
      (guest.run vp.registers.registers vp.control).exit
    simp only [perform, reported, runImpl]
    split_ifs with hok hhandled hfailed
    · rw [hexit, if_pos hhandled]
      rfl
    · rw [hexit, if_neg hhandled]
      rfl
    · cases hfailed
    · rfl
  | step guest => rfl

/-- The processor reports the last reason, or the `first` if there was none. -/
def Reports (first : VMExitReason) (last : Option VMExitReason) (vp : WhpxVirtualProcessor D) :
    Prop :=
  vp.exitInfo.reason = last.getD first

/-- After any sequence of register accesses, runs and steps, the processor reports the reason of the
exit of the last run that did not fail. -/
theorem whpx_reports_last_run (vp : WhpxVirtualProcessor D) (ops : List WhpxOp) :
    (runAll perform vp ops).2.exitInfo.reason =
      (collect perform (fun vp op => (reported vp op).toList) vp ops).getLast?.getD
        vp.exitInfo.reason := by
  have hstep {s : WhpxVirtualProcessor D} (op : WhpxOp) {last : Option VMExitReason}
      (h : Reports vp.exitInfo.reason last s) :
      Reports vp.exitInfo.reason ((s.reported op).or last) (s.perform op).2 := by
    rw [Reports, perform_reason, h]
    cases s.reported op with
    | none => rfl
    | some reason => rfl
  have hfirst : Reports vp.exitInfo.reason none vp := rfl
  have hlast := runAll_last reported hstep hfirst ops
  rw [Option.or_none] at hlast
  exact hlast

end WhpxVirtualProcessor

end Whpx

end Virt86
