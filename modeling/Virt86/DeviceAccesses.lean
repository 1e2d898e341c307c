import Virt86.HaxmProcessor
import Virt86.KvmCacheRefinement

/-!
# Device accesses of virtual machine exits

An exit for a port or a memory access describes the accesses that the host owes to its devices. The
I/O handlers are given a record in which each of their invocations is noted, so that the invocations
along a run of operations can be compared with the accesses that the exits describe.
-/

namespace Virt86

/-- An invocation of an I/O handler. -/
inductive DeviceAccess where
  | ioRead (port : U16) (size : ℕ)
  | ioWrite (port : U16) (size : ℕ) (value : U32)
  | mmioRead (address : U64) (size : ℕ)
  | mmioWrite (address : U64) (size : ℕ) (value : U64)
  deriving DecidableEq, Repr

variable {D : Type}

/-- The handlers, with a record of their invocations beside the device. -/
def IOHandlers.recorded (io : IOHandlers D) : IOHandlers (D × List DeviceAccess) where
  ioRead port size d :=
    let (value, accesses, device) := io.ioRead port size d.1
    (value, accesses, device, d.2 ++ [.ioRead port size])
  ioWrite port size value d :=
    let (accesses, device) := io.ioWrite port size value d.1
    (accesses, device, d.2 ++ [.ioWrite port size value])
  mmioRead address size d :=
    let (value, accesses, device) := io.mmioRead address size d.1
    (value, accesses, device, d.2 ++ [.mmioRead address size])
  mmioWrite address size value d :=
    let (accesses, device) := io.mmioWrite address size value d.1
    (accesses, device, d.2 ++ [.mmioWrite address size value])

/-- The access that a port exit describes for the element at an offset of its buffer. -/
def describedPortAccess (direction : PortDirection) (size : PortSize) (port : U16)
    (buffer : SharedBytes) (offset : ℕ) : DeviceAccess :=
  match direction with
  | .output => .ioWrite port size.bytes (buffer.load offset size.bytes 32)
  | .input => .ioRead port size.bytes

/-- The loop of `HandleIO` does what it does without the record and notes one invocation for each
element, in order. Reading from a port changes the buffer, but then the handler is not given
anything from it. -/
theorem portLoop_recorded (io : IOHandlers D) (direction : PortDirection) (size : PortSize)
    (port : U16) (offsets : List ℕ) (buffer : SharedBytes) (d : D × List DeviceAccess) :
    portLoop io.recorded direction size port offsets buffer d =
      ((portLoop io direction size port offsets buffer d.1).1,
        (portLoop io direction size port offsets buffer d.1).2.1,
        (portLoop io direction size port offsets buffer d.1).2.2,
        d.2 ++ offsets.map (describedPortAccess direction size port buffer)) := by
  induction offsets generalizing buffer d with
  | nil => simp [portLoop]
  | cons offset offsets ih =>
    simp only [portLoop, ih, List.map_cons]
    cases direction with
    | output => simp [portAccess, IOHandlers.recorded, describedPortAccess]
    | input => simp [portAccess, IOHandlers.recorded, describedPortAccess]

namespace Kvm

/-- How many accesses an exit describes. -/
def KvmExit.accessCount : KvmExit → ℕ
  | .Io _ _ _ count => count.toNat
  | .Mmio .. => 1
  | _ => 0

namespace KvmExits

/-- The exits of a processor with the plain handlers `io` in the place of the recorded ones. -/
def withoutRecord (io : IOHandlers D) (e : KvmExits (D × List DeviceAccess)) : KvmExits D where
  kvmRun := e.kvmRun
  exitInfo := e.exitInfo
  io := io
  device := e.device.1

/-- The accesses an exit describes, in order. -/
def described (e : KvmExits D) : List DeviceAccess :=
  match e.kvmRun.exit with
  | .Io direction size port count =>
    (List.range count.toNat).map fun k =>
      describedPortAccess direction size port e.kvmRun.data (k * size.bytes)
  | .Mmio phys_addr len is_write =>
    if is_write then [.mmioWrite phys_addr len (e.kvmRun.data.load 0 8 64)]
    else [.mmioRead phys_addr len]
  | _ => []

theorem length_described (e : KvmExits D) :
    e.described.length = e.kvmRun.exit.accessCount := by
  simp only [described, KvmExit.accessCount]
  split
  · simp
  · split_ifs <;> rfl
  · rfl

section Recorded

variable {io : IOHandlers D} {e : KvmExits (D × List DeviceAccess)} (h : e.io = io.recorded)

include h

theorem handleIO_recorded (direction : PortDirection) (size : PortSize) (port count : U16) :
    (e.handleIO direction size port count).2.device.2 = e.device.2 ++
      (List.range count.toNat).map fun k =>
        describedPortAccess direction size port e.kvmRun.data (k * size.bytes) := by
  simp only [KvmExits.handleIO, setReason, h, portLoop_recorded, List.map_map]
  rfl

theorem handleMMIO_recorded (phys_addr : U64) (len : ℕ) (is_write : Bool) :
    (e.handleMMIO phys_addr len is_write).2.io = e.io ∧
      (e.handleMMIO phys_addr len is_write).2.kvmRun.exit = e.kvmRun.exit ∧
      (e.handleMMIO phys_addr len is_write).2.device.2 = e.device.2 ++
        if is_write then [.mmioWrite phys_addr len (e.kvmRun.data.load 0 8 64)]
        else [.mmioRead phys_addr len] := by
  cases is_write with
  | true =>
    refine ⟨rfl, rfl, ?_⟩
    simp only [KvmExits.handleMMIO, setReason, h, if_true]
    rfl
  | false =>
    simp only [KvmExits.handleMMIO, setReason, h, Bool.false_eq_true, if_false]
    split <;> exact ⟨rfl, rfl, rfl⟩

/-- The record changes nothing in how an exit is handled. -/
theorem handleExit_withoutRecord :
    (e.withoutRecord io).handleExit = (e.handleExit.1, e.handleExit.2.withoutRecord io) := by
  cases hexit : e.kvmRun.exit with
  | Io direction size port count =>
    simp only [handleExit, withoutRecord, hexit, KvmExits.handleIO, setReason, h, portLoop_recorded]
  | Mmio phys_addr len is_write =>
    simp only [handleExit, withoutRecord, hexit, KvmExits.handleMMIO, setReason, h]
    split_ifs
    · rfl
    · split <;> rfl
  | _ =>
    simp only [handleExit, withoutRecord, hexit]
    rfl

/-- Handling an exit once invokes the handlers for the accesses it describes. -/
theorem handleExit_recorded :
    e.handleExit.2.io = io.recorded ∧ e.handleExit.2.kvmRun.exit = e.kvmRun.exit ∧
      e.handleExit.2.device.2 = e.device.2 ++ e.described := by
  cases hexit : e.kvmRun.exit with
  | Io direction size port count =>
    simp only [handleExit, described, hexit]
    exact ⟨h, hexit, handleIO_recorded h direction size port count⟩
  | Mmio phys_addr len is_write =>
    obtain ⟨hio, hsame, hdevice⟩ := handleMMIO_recorded h phys_addr len is_write
    simp only [handleExit, described, hexit]
    exact ⟨hio.trans h, hsame.trans hexit, hdevice⟩
  | _ =>
    simp only [handleExit, described, hexit, List.append_nil]
    exact ⟨h, hexit, rfl⟩

end Recorded

end KvmExits

namespace KvmVirtualProcessor

/-- The processor with the invocations of its handlers recorded from now on. -/
def record (vp : KvmVirtualProcessor D) : KvmVirtualProcessor (D × List DeviceAccess) where
  registers := vp.registers
  exits :=
    { kvmRun := vp.exits.kvmRun
      exitInfo := vp.exits.exitInfo
      io := vp.exits.io.recorded
      device := (vp.exits.device, []) }
  debug := vp.debug

theorem singleStep_exits (on : Bool) (vp : KvmVirtualProcessor D) :
    (engine.singleStep on vp).2.exits = vp.exits := by
  simp only [engine, setDebug]
  cases (vp.withSingleStep on).registers.kernel.answer with
  | mk ok kernel => cases ok <;> rfl

variable {io : IOHandlers D}

/-- Only the handling of exits invokes the handlers. -/
theorem engine_records : RunEngine.Records
    (engine : RunEngine (KvmVirtualProcessor (D × List DeviceAccess)) KvmGuest)
    (fun vp => vp.exits.io = io.recorded) (fun vp => vp.exits.device.2)
    (fun vp => vp.exits.described) where
  prepare h := ⟨h, rfl⟩
  enter _ h := ⟨h, rfl⟩
  handle h := by
    obtain ⟨hio, -, hdevice⟩ := KvmExits.handleExit_recorded h
    exact ⟨hio, hdevice⟩
  singleStep on h := by
    rw [singleStep_exits]
    exact ⟨h, rfl⟩
  finish h := by
    simp only [engine]
    split_ifs
    · exact ⟨h, rfl⟩
    · exact ⟨h, rfl⟩
  again h := by
    obtain ⟨-, hexit, -⟩ := KvmExits.handleExit_recorded h
    rw [← List.length_eq_zero_iff, ← List.length_eq_zero_iff, singleStep_exits,
      KvmExits.length_described, KvmExits.length_described]
    exact iff_of_eq (congrArg (fun exit => exit.accessCount = 0) hexit)

/-- The accesses that the exit of an operation describes. -/
def due (vp : KvmVirtualProcessor D) : KvmOp → List DeviceAccess
  | .access _ => []
  | .run guest => (engine.exitOfRun guest vp).elim [] fun vp => vp.exits.described
  | .step guest => (engine.exitOfStep guest vp).elim [] fun vp => vp.exits.described

/-- The invocations of the handlers beyond those. -/
def excess (vp : KvmVirtualProcessor D) : KvmOp → List DeviceAccess
  | .step guest => engine.repeated (fun vp => vp.exits.described) guest vp
  | _ => []

/-- A step reports no exit, or one without an access, or it fails to leave single stepping. -/
def AccessesOnce (vp : KvmVirtualProcessor D) : KvmOp → Prop
  | .step guest => engine.StepsOnce (fun vp => vp.exits.described) guest vp
  | _ => True

theorem perform_recorded {vp : KvmVirtualProcessor (D × List DeviceAccess)} (op : KvmOp)
    (h : vp.exits.io = io.recorded) :
    (vp.perform op).2.exits.io = io.recorded ∧
      (vp.perform op).2.exits.device.2 = vp.exits.device.2 ++ vp.due op ++ vp.excess op ∧
      (vp.excess op = [] ↔ vp.AccessesOnce op) := by
  cases op with
  | access a => exact ⟨h, by simp [perform, due, excess], by simp [excess, AccessesOnce]⟩
  | run guest =>
    obtain ⟨hio, hlog⟩ := engine_records.run_log h guest
    simp only [perform, runImpl_eq, due, excess, AccessesOnce, List.append_nil]
    exact ⟨hio, hlog, by simp⟩
  | step guest =>
    obtain ⟨hio, hlog⟩ := engine_records.step_log h guest
    simp only [perform, stepImpl_eq, due, excess, AccessesOnce]
    exact ⟨hio, hlog, engine_records.repeated_eq_nil_iff h guest⟩

/-- The processor with the plain handlers `io` in the place of the recorded ones. -/
def withoutRecord (io : IOHandlers D) (vp : KvmVirtualProcessor (D × List DeviceAccess)) :
    KvmVirtualProcessor D where
  registers := vp.registers
  exits := vp.exits.withoutRecord io
  debug := vp.debug

/-- The record changes nothing in what the parts of a run do. -/
theorem engine_withoutRecord : RunEngine.Lockstep
    (engine : RunEngine (KvmVirtualProcessor (D × List DeviceAccess)) KvmGuest)
    (engine : RunEngine (KvmVirtualProcessor D) KvmGuest)
    (fun recorded vp => recorded.exits.io = io.recorded ∧ vp = recorded.withoutRecord io) where
  prepare := by
    rintro recorded _ ⟨hio, rfl⟩
    exact ⟨_, _, _, rfl, rfl, hio, rfl⟩
  enter {recorded _} g := by
    rintro ⟨hio, rfl⟩
    exact ⟨_, _, _, rfl, rfl, hio, rfl⟩
  handle := by
    rintro recorded _ ⟨hio, rfl⟩
    have hexit := KvmExits.handleExit_withoutRecord hio
    refine ⟨(KvmExits.handleExit_recorded hio).1, ?_⟩
    simp only [engine, handleExecResult, withoutRecord, hexit]
  singleStep {recorded _} on := by
    rintro ⟨hio, rfl⟩
    have hanswer : ((recorded.withoutRecord io).withSingleStep on).registers.kernel.answer =
        (recorded.withSingleStep on).registers.kernel.answer := rfl
    simp only [engine, setDebug, hanswer]
    cases (recorded.withSingleStep on).registers.kernel.answer with
    | mk ok kernel =>
      cases ok with
      | false => exact ⟨_, _, _, rfl, rfl, hio, rfl⟩
      | true => exact ⟨_, _, _, rfl, rfl, hio, rfl⟩
  finish := by
    rintro recorded _ ⟨hio, rfl⟩
    have hreason : (recorded.withoutRecord io).exits.exitInfo.reason =
        recorded.exits.exitInfo.reason := rfl
    simp only [engine, hreason]
    split_ifs
    · exact ⟨hio, rfl⟩
    · exact ⟨hio, rfl⟩

/-- The invocations of the handlers along a run of operations. -/
def accessTrace (vp : KvmVirtualProcessor D) (ops : List KvmOp) : List DeviceAccess :=
  (runAll perform vp.record ops).2.exits.device.2

theorem perform_withoutRecord {recorded : KvmVirtualProcessor (D × List DeviceAccess)}
    (h : recorded.exits.io = io.recorded) (op : KvmOp) :
    (recorded.withoutRecord io).perform op =
      ((recorded.perform op).1, (recorded.perform op).2.withoutRecord io) := by
  cases op with
  | access a => rfl
  | run guest =>
    obtain ⟨ok, _, _, hrecorded, hplain, -, rfl⟩ := engine_withoutRecord.run ⟨h, rfl⟩ guest
    simp only [perform, runImpl_eq, hrecorded, hplain]
  | step guest =>
    obtain ⟨ok, _, _, hrecorded, hplain, -, rfl⟩ := engine_withoutRecord.step ⟨h, rfl⟩ guest
    simp only [perform, stepImpl_eq, hrecorded, hplain]

/-- A run with the record has the results and the last state of the run without it. -/
theorem runAll_record (vp : KvmVirtualProcessor D) (ops : List KvmOp) :
    runAll perform vp ops =
      ((runAll perform vp.record ops).1,
        (runAll perform vp.record ops).2.withoutRecord vp.exits.io) :=
  runAll_projection (s := vp.record) (withoutRecord vp.exits.io)
    (fun recorded : KvmVirtualProcessor (D × List DeviceAccess) =>
      recorded.exits.io = vp.exits.io.recorded)
    (fun op hio => ⟨(perform_recorded op hio).1, perform_withoutRecord hio op⟩) rfl ops

theorem accessTrace_eq_iff (vp : KvmVirtualProcessor D) (ops : List KvmOp) :
    vp.accessTrace ops = collect perform due vp.record ops ↔
      Along perform AccessesOnce vp.record ops :=
  log_eq_due_iff
    (fun recorded : KvmVirtualProcessor (D × List DeviceAccess) =>
      recorded.exits.io = vp.exits.io.recorded)
    (fun recorded => recorded.exits.device.2) perform_recorded rfl ops

end KvmVirtualProcessor

end Kvm

namespace Haxm

/-- How many accesses an exit describes. A transfer is a read and a write. -/
def HaxExit.accessCount : HaxExit → ℕ
  | .Io _ _ _ _ count => count.toNat
  | .FastMmio _ _ _ direction => if direction < 2 then 1 else 2
  | _ => 0

namespace HaxmExits

/-- The exits of a processor with the plain handlers `io` in the place of the recorded ones. -/
def withoutRecord (io : IOHandlers D) (e : HaxmExits (D × List DeviceAccess)) : HaxmExits D where
  tunnel := e.tunnel
  exitInfo := e.exitInfo
  io := io
  device := e.device.1

/-- The accesses an exit describes, in order. A transfer writes what its read returned. -/
def described (e : HaxmExits D) : List DeviceAccess :=
  match e.tunnel.exit with
  | .Io direction df size port count =>
    (if df then (List.range count.toNat).reverse else List.range count.toNat).map fun k =>
      describedPortAccess direction size port e.tunnel.ioTunnel (k * size.bytes)
  | .FastMmio gpa value size direction =>
    if direction < 2 then
      if direction = HAX_IO_IN then [.mmioWrite gpa size.toNat value]
      else [.mmioRead gpa size.toNat]
    else [.mmioRead gpa size.toNat,
      .mmioWrite value size.toNat (e.io.mmioRead gpa size.toNat e.device).1]
  | _ => []

theorem length_described (e : HaxmExits D) :
    e.described.length = e.tunnel.exit.accessCount := by
  simp only [described, HaxExit.accessCount]
  split
  · split_ifs <;> simp
  · split_ifs <;> rfl
  · rfl

section Recorded

variable {io : IOHandlers D} {e : HaxmExits (D × List DeviceAccess)} (h : e.io = io.recorded)

include h

theorem handleIO_recorded (direction : PortDirection) (df : Bool) (size : PortSize)
    (port count : U16) :
    (e.handleIO direction df size port count).2.device.2 = e.device.2 ++
      (if df then (List.range count.toNat).reverse else List.range count.toNat).map fun k =>
        describedPortAccess direction size port e.tunnel.ioTunnel (k * size.bytes) := by
  simp only [HaxmExits.handleIO, setReason, h, portLoop_recorded, List.map_map]
  rfl

theorem handleFastMMIO_recorded (gpa value : U64) (size direction : U8)
    (hexit : e.tunnel.exit = .FastMmio gpa value size direction) :
    (e.handleFastMMIO gpa value size direction).2.io = e.io ∧
      (e.handleFastMMIO gpa value size direction).2.tunnel.exit.accessCount =
        e.tunnel.exit.accessCount ∧
      (e.handleFastMMIO gpa value size direction).2.device.2 = e.device.2 ++ e.described := by
  simp only [HaxmExits.handleFastMMIO, described, hexit, setReason, h, HaxExit.accessCount]
  split_ifs with hone hwrite
  · exact ⟨rfl, by simp only [hexit, if_pos hone], rfl⟩
  · exact ⟨rfl, if_pos hone, rfl⟩
  · refine ⟨rfl, by simp only [hexit, if_neg hone], ?_⟩
    simp [IOHandlers.recorded]

/-- The record changes nothing in how an exit is handled. -/
theorem handleExit_withoutRecord :
    (e.withoutRecord io).handleExit = (e.handleExit.1, e.handleExit.2.withoutRecord io) := by
  cases hexit : e.tunnel.exit with
  | Io direction df size port count =>
    simp only [handleExit, withoutRecord, hexit, HaxmExits.handleIO, setReason, h,
      portLoop_recorded]
  | FastMmio gpa value size direction =>
    simp only [handleExit, withoutRecord, hexit, HaxmExits.handleFastMMIO, setReason, h]
    split_ifs <;> rfl
  | _ =>
    simp only [handleExit, withoutRecord, hexit]
    rfl

/-- Handling an exit once invokes the handlers for the accesses it describes. -/
theorem handleExit_recorded :
    e.handleExit.2.io = io.recorded ∧
      e.handleExit.2.tunnel.exit.accessCount = e.tunnel.exit.accessCount ∧
      e.handleExit.2.device.2 = e.device.2 ++ e.described := by
  cases hexit : e.tunnel.exit with
  | Io direction df size port count =>
    simp only [handleExit, described, hexit]
    exact ⟨h, congrArg HaxExit.accessCount hexit, handleIO_recorded h direction df size port count⟩
  | FastMmio gpa value size direction =>
    obtain ⟨hio, hcount, hdevice⟩ := handleFastMMIO_recorded h gpa value size direction hexit
    simp only [handleExit, hexit]
    exact ⟨hio.trans h, by rw [hcount, hexit], hdevice⟩
  | _ =>
    simp only [handleExit, described, hexit, List.append_nil]
    exact ⟨h, congrArg HaxExit.accessCount hexit, rfl⟩

end Recorded

end HaxmExits

namespace HaxmVirtualProcessor

/-- The processor with the invocations of its handlers recorded from now on. -/
def record (vp : HaxmVirtualProcessor D) : HaxmVirtualProcessor (D × List DeviceAccess) where
  registers := vp.registers
  exits :=
    { tunnel := vp.exits.tunnel
      exitInfo := vp.exits.exitInfo
      io := vp.exits.io.recorded
      device := (vp.exits.device, []) }
  debug := vp.debug

theorem singleStep_exits (on : Bool) (vp : HaxmVirtualProcessor D) :
    (engine.singleStep on vp).2.exits = vp.exits := by
  simp only [engine, setDebug]
  cases (vp.withSingleStep on).registers.driver.answer with
  | mk ok driver => cases ok <;> rfl

variable {io : IOHandlers D}

/-- Only the handling of exits invokes the handlers. -/
theorem engine_records : RunEngine.Records
    (engine : RunEngine (HaxmVirtualProcessor (D × List DeviceAccess)) HaxmGuest)
    (fun vp => vp.exits.io = io.recorded) (fun vp => vp.exits.device.2)
    (fun vp => vp.exits.described) where
  prepare h := ⟨h, rfl⟩
  enter _ h := ⟨h, rfl⟩
  handle h := by
    obtain ⟨hio, -, hdevice⟩ := HaxmExits.handleExit_recorded h
    exact ⟨hio, hdevice⟩
  singleStep on h := by
    rw [singleStep_exits]
    exact ⟨h, rfl⟩
  finish h := by
    simp only [engine]
    split_ifs
    · exact ⟨h, rfl⟩
    · exact ⟨h, rfl⟩
  again h := by
    obtain ⟨-, hcount, -⟩ := HaxmExits.handleExit_recorded h
    rw [← List.length_eq_zero_iff, ← List.length_eq_zero_iff, singleStep_exits,
      HaxmExits.length_described, HaxmExits.length_described]
    exact iff_of_eq (congrArg (· = 0) hcount)

/-- The accesses that the exit of an operation describes. -/
def due (vp : HaxmVirtualProcessor D) : HaxmOp → List DeviceAccess
  | .access _ => []
  | .run guest => (engine.exitOfRun guest vp).elim [] fun vp => vp.exits.described
  | .step guest => (engine.exitOfStep guest vp).elim [] fun vp => vp.exits.described

/-- The invocations of the handlers beyond those. -/
def excess (vp : HaxmVirtualProcessor D) : HaxmOp → List DeviceAccess
  | .step guest => engine.repeated (fun vp => vp.exits.described) guest vp
  | _ => []

/-- A step reports no exit, or one without an access, or it fails to leave single stepping. -/
def AccessesOnce (vp : HaxmVirtualProcessor D) : HaxmOp → Prop
  | .step guest => engine.StepsOnce (fun vp => vp.exits.described) guest vp
  | _ => True

theorem perform_recorded {vp : HaxmVirtualProcessor (D × List DeviceAccess)} (op : HaxmOp)
    (h : vp.exits.io = io.recorded) :
    (vp.perform op).2.exits.io = io.recorded ∧
      (vp.perform op).2.exits.device.2 = vp.exits.device.2 ++ vp.due op ++ vp.excess op ∧
      (vp.excess op = [] ↔ vp.AccessesOnce op) := by
  cases op with
  | access a => exact ⟨h, by simp [perform, due, excess], by simp [excess, AccessesOnce]⟩
  | run guest =>
    obtain ⟨hio, hlog⟩ := engine_records.run_log h guest
    simp only [perform, runImpl_eq, due, excess, AccessesOnce, List.append_nil]
    exact ⟨hio, hlog, by simp⟩
  | step guest =>
    obtain ⟨hio, hlog⟩ := engine_records.step_log h guest
    simp only [perform, stepImpl_eq, due, excess, AccessesOnce]
    exact ⟨hio, hlog, engine_records.repeated_eq_nil_iff h guest⟩

/-- The processor with the plain handlers `io` in the place of the recorded ones. -/
def withoutRecord (io : IOHandlers D) (vp : HaxmVirtualProcessor (D × List DeviceAccess)) :
    HaxmVirtualProcessor D where
  registers := vp.registers
  exits := vp.exits.withoutRecord io
  debug := vp.debug

/-- The record changes nothing in what the parts of a run do. -/
theorem engine_withoutRecord : RunEngine.Lockstep
    (engine : RunEngine (HaxmVirtualProcessor (D × List DeviceAccess)) HaxmGuest)
    (engine : RunEngine (HaxmVirtualProcessor D) HaxmGuest)
    (fun recorded vp => recorded.exits.io = io.recorded ∧ vp = recorded.withoutRecord io) where
  prepare := by
    rintro recorded _ ⟨hio, rfl⟩
    exact ⟨_, _, _, rfl, rfl, hio, rfl⟩
  enter {recorded _} g := by
    rintro ⟨hio, rfl⟩
    exact ⟨_, _, _, rfl, rfl, hio, rfl⟩
  handle := by
    rintro recorded _ ⟨hio, rfl⟩
    have hexit := HaxmExits.handleExit_withoutRecord hio
    refine ⟨(HaxmExits.handleExit_recorded hio).1, ?_⟩
    simp only [engine, handleExecResult, withoutRecord, hexit]
  singleStep {recorded _} on := by
    rintro ⟨hio, rfl⟩
    have hanswer : ((recorded.withoutRecord io).withSingleStep on).registers.driver.answer =
        (recorded.withSingleStep on).registers.driver.answer := rfl
    simp only [engine, setDebug, hanswer]
    cases (recorded.withSingleStep on).registers.driver.answer with
    | mk ok driver =>
      cases ok with
      | false => exact ⟨_, _, _, rfl, rfl, hio, rfl⟩
      | true => exact ⟨_, _, _, rfl, rfl, hio, rfl⟩
  finish := by
    rintro recorded _ ⟨hio, rfl⟩
    have hreason : (recorded.withoutRecord io).exits.exitInfo.reason =
        recorded.exits.exitInfo.reason := rfl
    simp only [engine, hreason]
    split_ifs
    · exact ⟨hio, rfl⟩
    · exact ⟨hio, rfl⟩

/-- The invocations of the handlers along a run of operations. -/
def accessTrace (vp : HaxmVirtualProcessor D) (ops : List HaxmOp) : List DeviceAccess :=
  (runAll perform vp.record ops).2.exits.device.2

theorem perform_withoutRecord {recorded : HaxmVirtualProcessor (D × List DeviceAccess)}
    (h : recorded.exits.io = io.recorded) (op : HaxmOp) :
    (recorded.withoutRecord io).perform op =
      ((recorded.perform op).1, (recorded.perform op).2.withoutRecord io) := by
  cases op with
  | access a => rfl
  | run guest =>
    obtain ⟨ok, _, _, hrecorded, hplain, -, rfl⟩ := engine_withoutRecord.run ⟨h, rfl⟩ guest
    simp only [perform, runImpl_eq, hrecorded, hplain]
  | step guest =>
    obtain ⟨ok, _, _, hrecorded, hplain, -, rfl⟩ := engine_withoutRecord.step ⟨h, rfl⟩ guest
    simp only [perform, stepImpl_eq, hrecorded, hplain]

/-- A run with the record has the results and the last state of the run without it. -/
theorem runAll_record (vp : HaxmVirtualProcessor D) (ops : List HaxmOp) :
    runAll perform vp ops =
      ((runAll perform vp.record ops).1,
        (runAll perform vp.record ops).2.withoutRecord vp.exits.io) :=
  runAll_projection (s := vp.record) (withoutRecord vp.exits.io)
    (fun recorded : HaxmVirtualProcessor (D × List DeviceAccess) =>
      recorded.exits.io = vp.exits.io.recorded)
    (fun op hio => ⟨(perform_recorded op hio).1, perform_withoutRecord hio op⟩) rfl ops

theorem accessTrace_eq_iff (vp : HaxmVirtualProcessor D) (ops : List HaxmOp) :
    vp.accessTrace ops = collect perform due vp.record ops ↔
      Along perform AccessesOnce vp.record ops :=
  log_eq_due_iff
    (fun recorded : HaxmVirtualProcessor (D × List DeviceAccess) =>
      recorded.exits.io = vp.exits.io.recorded)
    (fun recorded => recorded.exits.device.2) perform_recorded rfl ops

end HaxmVirtualProcessor

end Haxm

/-- In every sequence of register accesses, runs and steps of a KVM or a HAXM processor, the
invocations of the I/O handlers are the accesses of the exits in order if and only if every step
reports no exit, or one that describes no access, or fails to leave single stepping. -/
theorem device_accesses_once_iff {D E : Type} (kvm : Kvm.KvmVirtualProcessor D)
    (kvmOps : List Kvm.KvmOp) (haxm : Haxm.HaxmVirtualProcessor E) (haxmOps : List Haxm.HaxmOp) :
    (kvm.accessTrace kvmOps =
        collect Kvm.KvmVirtualProcessor.perform Kvm.KvmVirtualProcessor.due kvm.record kvmOps ↔
      Along Kvm.KvmVirtualProcessor.perform Kvm.KvmVirtualProcessor.AccessesOnce kvm.record
        kvmOps) ∧
    (haxm.accessTrace haxmOps =
        collect Haxm.HaxmVirtualProcessor.perform Haxm.HaxmVirtualProcessor.due haxm.record
          haxmOps ↔
      Along Haxm.HaxmVirtualProcessor.perform Haxm.HaxmVirtualProcessor.AccessesOnce haxm.record
        haxmOps) :=
  ⟨kvm.accessTrace_eq_iff kvmOps, haxm.accessTrace_eq_iff haxmOps⟩

/-- The guest writes a byte to a port. -/
private def portWriteGuest : Kvm.KvmGuest := fun files =>
  ⟨true, files, ⟨.Io .output .byte 0x3F8 1, fun _ => 0x41⟩⟩

/-- A step over one port write makes the host write the port twice. -/
theorem stepped_port_write_repeats :
    let vp := Kvm.KvmVirtualProcessor.create default Kvm.idleExits Kvm.resetKernel
    vp.accessTrace [.step portWriteGuest] = [.ioWrite 0x3F8 1 0x41, .ioWrite 0x3F8 1 0x41] ∧
      collect Kvm.KvmVirtualProcessor.perform Kvm.KvmVirtualProcessor.due vp.record
        [.step portWriteGuest] = [.ioWrite 0x3F8 1 0x41] :=
  ⟨rfl, rfl⟩

end Virt86
