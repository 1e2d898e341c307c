import Virt86.MMIOTransfers
import Virt86.PortBuffers
import Virt86.WhpxEmulation

/-!
# Devices on the three backends

A guest asks its devices in turn, with requests that may depend on what it was answered. KVM and
HAXM report each request by an exit, WHPX by callbacks. If the handlers look at no more bytes of a
value than the size of the access, the guest is answered alike on all of them.
-/

namespace Virt86

open BitSlices

/-! ## Requests -/

/-- The sizes of a memory access. -/
inductive MemorySize where
  | byte | word | dword | qword
  deriving DecidableEq, Repr

def MemorySize.bytes : MemorySize → ℕ
  | .byte => 1
  | .word => 2
  | .dword => 4
  | .qword => 8

/-- The elements of a port access, of which an exit tells the number in 16 bits. -/
structure PortValues where
  values : List U32
  length_lt : values.length < 2 ^ 16

/-- What a guest asks of its devices. -/
inductive DeviceRequest where
  | portIn (size : PortSize) (port : U16) (count : U16)
  | portOut (size : PortSize) (port : U16) (values : PortValues)
  | load (size : MemorySize) (address : U64)
  | store (size : MemorySize) (address value : U64)

abbrev DeviceAnswer : DeviceRequest → Type
  | .portIn _ _ _ => List U32
  | .portOut _ _ _ => Unit
  | .load _ _ => U64
  | .store _ _ _ => Unit

abbrev GuestProgram (R : Type) := Dialogue DeviceRequest DeviceAnswer R

/-- The low bytes of a value, in its own width. -/
def lowBytes {w : ℕ} (size : ℕ) (value : BitVec w) : BitVec w :=
  (value.setWidth (8 * size)).setWidth w

/-- The handlers look at no more bytes of a value than the size of the access. -/
structure IOHandlers.UsesLowBytes {D : Type} (io : IOHandlers D) : Prop where
  ioWrite : ∀ port size value d, io.ioWrite port size value d =
    io.ioWrite port size (lowBytes size value) d
  mmioWrite : ∀ address size value d, io.mmioWrite address size value d =
    io.mmioWrite address size (lowBytes size value) d

variable {D R : Type}

/-- Reads from a port. -/
def readPort (io : IOHandlers D) (size : PortSize) (port : U16) : ℕ → D → List U32 × D
  | 0, d => ([], d)
  | n + 1, d =>
    let r := io.ioRead port size.bytes d
    let rest := readPort io size port n r.2.2
    (lowBytes size.bytes r.1 :: rest.1, rest.2)

/-- Writes to a port. -/
def writePort (io : IOHandlers D) (size : PortSize) (port : U16) (values : List U32) (d : D) : D :=
  values.foldl (fun d value => (io.ioWrite port size.bytes value d).2) d

/-- The devices without a hypervisor between them and the guest. -/
def devices (io : IOHandlers D) : Server DeviceRequest DeviceAnswer D
  | .portIn size port count, d => readPort io size port count.toNat d
  | .portOut size port values, d =>
    ((), writePort io size port (values.values.map (lowBytes size.bytes)) d)
  | .load size address, d =>
    let r := io.mmioRead address size.bytes d
    (lowBytes size.bytes r.1, r.2.2)
  | .store size address value, d =>
    ((), (io.mmioWrite address size.bytes (lowBytes size.bytes value) d).2)

/-! ## Bytes -/

theorem getLsbD_lowBytes {w : ℕ} (size : ℕ) (value : BitVec w) (i : ℕ) :
    (lowBytes size value).getLsbD i = (decide (i < 8 * size) && value.getLsbD i) := by
  rw [lowBytes, BitVec.getLsbD_setWidth, BitVec.getLsbD_setWidth]
  by_cases hi : i < w
  · simp [hi]
  · simp [hi, BitVec.getLsbD_of_ge value i (Nat.le_of_not_lt hi)]

theorem lowBytes_lowBytes {w : ℕ} (size : ℕ) (value : BitVec w) :
    lowBytes size (lowBytes size value) = lowBytes size value := by
  apply BitVec.eq_of_getLsbD_eq
  intro i _
  simp [getLsbD_lowBytes]

/-- What is loaded from the bytes of a value are its low bytes. -/
theorem SharedBytes.load_of_bytes {w : ℕ} {buffer : SharedBytes} {offset size : ℕ}
    {value : BitVec w} (h : ∀ j < size, buffer (offset + j) = value.extractLsb' (8 * j) 8) :
    buffer.load offset size w = lowBytes size value := by
  apply BitVec.eq_of_getLsbD_eq
  intro i hi
  rw [SharedBytes.getLsbD_load buffer offset size hi, getLsbD_lowBytes]
  by_cases hsize : i < 8 * size
  · have hbit : 8 * (i / 8) + i % 8 = i := Nat.div_add_mod i 8
    rw [h (i / 8) (by omega), BitVec.getLsbD_extractLsb', hbit]
    simp [Nat.mod_lt i (by decide : 0 < 8)]
  · simp [hsize]

theorem SharedBytes.load_store {w : ℕ} (buffer : SharedBytes) (size : ℕ) (value : BitVec w) :
    (buffer.store 0 size value).load 0 size w = lowBytes size value := by
  refine load_of_bytes fun j hj => ?_
  rw [SharedBytes.store, if_pos (by omega), Nat.zero_add, Nat.sub_zero]

/-- More bytes than are used make no difference. -/
theorem SharedBytes.lowBytes_load (buffer : SharedBytes) (size : ℕ) :
    lowBytes size (buffer.load 0 8 64 : U64) = lowBytes size (buffer.load 0 size 64) := by
  apply BitVec.eq_of_getLsbD_eq
  intro i hi
  rw [getLsbD_lowBytes, getLsbD_lowBytes, getLsbD_load buffer 0 8 hi, getLsbD_load buffer 0 size hi]
  by_cases hsize : i < 8 * size
  · simp [hsize, hi]
  · simp [hsize]

/-! ## Elements of a buffer -/

section Elements

variable {io : IOHandlers D} {size : PortSize} {port : U16} {offsets : List ℕ}

theorem readPort_fst (n : ℕ) (d : D) :
    (readPort io size port n d).1 =
      (ioReadResults io port size.bytes n d).map (lowBytes size.bytes) := by
  induction n generalizing d with
  | zero => rfl
  | succ n ih => rw [readPort, ioReadResults, List.map_cons, ← ih]

theorem device_portLoop_input (buffer : SharedBytes) (d : D) :
    (portLoop io .input size port offsets buffer d).2.2 =
      (readPort io size port offsets.length d).2 := by
  induction offsets generalizing buffer d with
  | nil => rfl
  | cons offset offsets ih => exact ih _ _

theorem device_portLoop_output (buffer : SharedBytes) (d : D) :
    (portLoop io .output size port offsets buffer d).2.2 =
      writePort io size port (offsets.map fun offset => buffer.load offset size.bytes 32) d := by
  induction offsets generalizing d with
  | nil => rfl
  | cons offset offsets ih => exact ih _

theorem length_ioReadResults (n : ℕ) (d : D) :
    (ioReadResults io port size.bytes n d).length = n := by
  induction n generalizing d with
  | zero => rfl
  | succ n ih => rw [ioReadResults, List.length_cons, ih]

/-- What is in the elements after reads from a port. -/
theorem map_load_portLoop (hdisjoint : offsets.Pairwise fun o o' =>
      o + size.bytes ≤ o' ∨ o' + size.bytes ≤ o) (buffer : SharedBytes) (d : D) :
    (offsets.map fun offset =>
        (portLoop io .input size port offsets buffer d).2.1.load offset size.bytes 32) =
      (readPort io size port offsets.length d).1 := by
  have hlength : (ioReadResults io port size.bytes offsets.length d).length = offsets.length :=
    length_ioReadResults _ _
  have hbytes : ∀ p ∈ offsets.zip (ioReadResults io port size.bytes offsets.length d),
      ∀ j < size.bytes, (portLoop io .input size port offsets buffer d).2.1 (p.1 + j) =
        p.2.extractLsb' (8 * j) 8 := portLoop_input hdisjoint
  generalize (portLoop io .input size port offsets buffer d).2.1 = filled at hbytes ⊢
  rw [readPort_fst]
  generalize ioReadResults io port size.bytes offsets.length d = results at hlength hbytes ⊢
  have hfst : (offsets.zip results).map Prod.fst = offsets := List.map_fst_zip hlength.ge
  have hsnd : (offsets.zip results).map Prod.snd = results := List.map_snd_zip hlength.le
  calc (offsets.map fun offset => filled.load offset size.bytes 32)
      = ((offsets.zip results).map Prod.fst).map fun offset =>
          filled.load offset size.bytes 32 := by rw [hfst]
    _ = ((offsets.zip results).map Prod.snd).map (lowBytes size.bytes) := by
        rw [List.map_map, List.map_map]
        exact List.map_congr_left fun p hp => SharedBytes.load_of_bytes (hbytes p hp)
    _ = results.map (lowBytes size.bytes) := by rw [hsnd]

/-- A port exit with its elements in the order of the accesses reads what the devices return. -/
theorem portLoop_portIn (io : IOHandlers D) (size : PortSize) (port : U16) (df : Bool)
    (count : U16) (buffer : SharedBytes) (d : D) :
    ((portOffsets df size count.toNat).map fun offset =>
        (portLoop io .input size port (portOffsets df size count.toNat) buffer d).2.1.load offset
          size.bytes 32) = (devices io (.portIn size port count) d).1 ∧
      (portLoop io .input size port (portOffsets df size count.toNat) buffer d).2.2 =
        (devices io (.portIn size port count) d).2 := by
  have hlength : (portOffsets df size count.toNat).length = count.toNat := length_portOffsets _
  have hloads : ((portOffsets df size count.toNat).map fun offset =>
      (portLoop io .input size port (portOffsets df size count.toNat) buffer d).2.1.load offset
        size.bytes 32) = (readPort io size port (portOffsets df size count.toNat).length d).1 :=
    map_load_portLoop (portOffsets_apart _) buffer d
  have hdevice : (portLoop io .input size port (portOffsets df size count.toNat) buffer d).2.2 =
      (readPort io size port (portOffsets df size count.toNat).length d).2 :=
    device_portLoop_input buffer d
  rw [hlength] at hloads hdevice
  exact ⟨hloads, hdevice⟩

theorem portLoop_portOut {df : Bool} {values : PortValues} {buffer : SharedBytes}
    (hvalues : ((portOffsets df size values.values.length).map fun offset =>
      buffer.load offset size.bytes 32) = values.values.map (lowBytes size.bytes)) (d : D) :
    (portLoop io .output size port (portOffsets df size values.values.length) buffer d).2.2 =
      (devices io (.portOut size port values) d).2 := by
  rw [device_portLoop_output, hvalues]
  rfl

theorem portOffsets_eq (df : Bool) (size : PortSize) (n : ℕ) :
    portOffsets df size n =
      (if df then (List.range n).reverse else List.range n).map (· * size.bytes) := by
  rw [portOffsets, portElements_eq]

theorem portOffsets_false (size : PortSize) (n : ℕ) :
    portOffsets false size n = (List.range n).map (· * size.bytes) :=
  portOffsets_eq false size n

/-- The number of elements that an exit tells. -/
theorem PortValues.toNat_length (values : PortValues) :
    (BitVec.ofNat 16 values.values.length).toNat = values.values.length := by
  rw [BitVec.toNat_ofNat, Nat.mod_eq_of_lt values.length_lt]

end Elements

/-! ## KVM -/

namespace Kvm

/-- `kvm_run` tells of a request as documented. What the access does not use of the data may be
anything. -/
def Presents : DeviceRequest → KvmRun → Prop
  | .portIn size port count, run => run.exit = .Io .input size port count
  | .portOut size port values, run =>
    run.exit = .Io .output size port (BitVec.ofNat 16 values.values.length) ∧
      ((portOffsets false size values.values.length).map fun offset =>
        run.data.load offset size.bytes 32) = values.values.map (lowBytes size.bytes)
  | .load size address, run => run.exit = .Mmio address size.bytes false
  | .store size address value, run =>
    run.exit = .Mmio address size.bytes true ∧
      run.data.load 0 size.bytes 64 = lowBytes size.bytes value

/-- What the guest is answered by the data in `kvm_run` when it is run again. -/
def reply (run : KvmRun) : (request : DeviceRequest) → DeviceAnswer request
  | .portIn size _ count =>
    (portOffsets false size count.toNat).map fun offset => run.data.load offset size.bytes 32
  | .portOut _ _ _ => ()
  | .load size _ => run.data.load 0 size.bytes 64
  | .store _ _ _ => ()

/-- The exit for a request, and the answer. -/
def serve (present : DeviceRequest → KvmRun → KvmRun) :
    Server DeviceRequest DeviceAnswer (KvmExits D) :=
  fun request e =>
    let e' := ({ e with kvmRun := present request e.kvmRun } : KvmExits D).handleExit.2
    (reply e'.kvmRun request, e')

/-- KVM serves a request as the devices do. -/
theorem serve_devices {io : IOHandlers D} (hio : io.UsesLowBytes)
    {present : DeviceRequest → KvmRun → KvmRun}
    (hpresent : ∀ request run, Presents request (present request run)) (request : DeviceRequest)
    {e : KvmExits D} {d : D} (he : e.io = io ∧ e.device = d) :
    (serve present request e).1 = (devices io request d).1 ∧
      (serve present request e).2.io = io ∧
      (serve present request e).2.device = (devices io request d).2 := by
  obtain ⟨rfl, rfl⟩ := he
  have hpresents := hpresent request e.kvmRun
  unfold serve
  generalize present request e.kvmRun = run at hpresents ⊢
  cases request with
  | portIn size port count =>
    have hexit : run.exit = .Io .input size port count := hpresents
    obtain ⟨hanswer, hdevice⟩ := portLoop_portIn e.io size port false count run.data
      e.device
    simp only [KvmExits.handleExit, hexit, KvmExits.handleIO, KvmExits.setReason,
      ← portOffsets_false, reply, true_and]
    exact ⟨hanswer, hdevice⟩
  | portOut size port values =>
    obtain ⟨hexit, hvalues⟩ := hpresents
    simp only [KvmExits.handleExit, hexit, KvmExits.handleIO, KvmExits.setReason,
      ← portOffsets_false, values.toNat_length, reply, true_and]
    exact portLoop_portOut hvalues e.device
  | load size address =>
    have hexit : run.exit = .Mmio address size.bytes false := hpresents
    simp only [KvmExits.handleExit, hexit, KvmExits.handleMMIO, KvmExits.setReason, reply,
      devices, Bool.false_eq_true, if_false]
    cases size with
    | byte => exact ⟨SharedBytes.load_store _ _ _, rfl, rfl⟩
    | word => exact ⟨SharedBytes.load_store _ _ _, rfl, rfl⟩
    | dword => exact ⟨SharedBytes.load_store _ _ _, rfl, rfl⟩
    | qword => exact ⟨SharedBytes.load_store _ _ _, rfl, rfl⟩
  | store size address value =>
    obtain ⟨hexit, hvalue⟩ := hpresents
    have hwrite : e.io.mmioWrite address size.bytes (run.data.load 0 8 64) e.device =
        e.io.mmioWrite address size.bytes (lowBytes size.bytes value) e.device := by
      rw [hio.mmioWrite, SharedBytes.lowBytes_load, hvalue, lowBytes_lowBytes]
    simp only [KvmExits.handleExit, hexit, KvmExits.handleMMIO, KvmExits.setReason, reply,
      devices, if_true, true_and]
    exact congrArg Prod.snd hwrite

end Kvm

/-! ## HAXM -/

namespace Haxm

/-- The tunnels tell of a request as documented, with fast MMIO. With the direction flag set, the
elements of a port access are used from the last to the first. -/
def Presents : DeviceRequest → HaxTunnel → Prop
  | .portIn size port count, tunnel => ∃ df, tunnel.exit = .Io .input df size port count
  | .portOut size port values, tunnel =>
    ∃ df, tunnel.exit = .Io .output df size port (BitVec.ofNat 16 values.values.length) ∧
      ((portOffsets df size values.values.length).map fun offset =>
        tunnel.ioTunnel.load offset size.bytes 32) = values.values.map (lowBytes size.bytes)
  | .load size address, tunnel =>
    ∃ value, tunnel.exit = .FastMmio address value (BitVec.ofNat 8 size.bytes) 0
  | .store size address value, tunnel =>
    ∃ value', tunnel.exit = .FastMmio address value' (BitVec.ofNat 8 size.bytes) 1 ∧
      lowBytes size.bytes value' = lowBytes size.bytes value

/-- What the guest is answered by the tunnels when it is run again. -/
def reply (tunnel : HaxTunnel) : (request : DeviceRequest) → DeviceAnswer request
  | .portIn size _ count =>
    match tunnel.exit with
    | .Io _ df _ _ _ =>
      (portOffsets df size count.toNat).map fun offset =>
        tunnel.ioTunnel.load offset size.bytes 32
    | _ => []
  | .portOut _ _ _ => ()
  | .load size _ =>
    match tunnel.exit with
    | .FastMmio _ value _ _ => lowBytes size.bytes value
    | _ => 0
  | .store _ _ _ => ()

/-- The exit for a request, and the answer. -/
def serve (present : DeviceRequest → HaxTunnel → HaxTunnel) :
    Server DeviceRequest DeviceAnswer (HaxmExits D) :=
  fun request e =>
    let e' := ({ e with tunnel := present request e.tunnel } : HaxmExits D).handleExit.2
    (reply e'.tunnel request, e')

/-- HAXM serves a request as the devices do. -/
theorem serve_devices {io : IOHandlers D} (hio : io.UsesLowBytes)
    {present : DeviceRequest → HaxTunnel → HaxTunnel}
    (hpresent : ∀ request tunnel, Presents request (present request tunnel))
    (request : DeviceRequest) {e : HaxmExits D} {d : D} (he : e.io = io ∧ e.device = d) :
    (serve present request e).1 = (devices io request d).1 ∧
      (serve present request e).2.io = io ∧
      (serve present request e).2.device = (devices io request d).2 := by
  obtain ⟨rfl, rfl⟩ := he
  have hpresents := hpresent request e.tunnel
  unfold serve
  generalize present request e.tunnel = tunnel at hpresents ⊢
  cases request with
  | portIn size port count =>
    obtain ⟨df, hexit⟩ := hpresents
    obtain ⟨hanswer, hdevice⟩ := portLoop_portIn e.io size port df count tunnel.ioTunnel e.device
    simp only [HaxmExits.handleExit, hexit, HaxmExits.handleIO, HaxmExits.setReason,
      ← portOffsets_eq, reply, true_and]
    exact ⟨hanswer, hdevice⟩
  | portOut size port values =>
    obtain ⟨df, hexit, hvalues⟩ := hpresents
    simp only [HaxmExits.handleExit, hexit, HaxmExits.handleIO, HaxmExits.setReason,
      ← portOffsets_eq, values.toNat_length, reply, true_and]
    exact portLoop_portOut hvalues e.device
  | load size address =>
    obtain ⟨value, hexit⟩ := hpresents
    have hsize : (BitVec.ofNat 8 size.bytes).toNat = size.bytes := by cases size <;> rfl
    simp only [HaxmExits.handleExit, hexit, HaxmExits.handleFastMMIO, HaxmExits.setReason, hsize]
    exact ⟨rfl, rfl, rfl⟩
  | store size address value =>
    obtain ⟨value', hexit, hvalue⟩ := hpresents
    have hsize : (BitVec.ofNat 8 size.bytes).toNat = size.bytes := by cases size <;> rfl
    have hwrite : e.io.mmioWrite address size.bytes value' e.device =
        e.io.mmioWrite address size.bytes (lowBytes size.bytes value) e.device := by
      rw [hio.mmioWrite, hvalue]
    simp only [HaxmExits.handleExit, hexit, HaxmExits.handleFastMMIO, HaxmExits.setReason, hsize]
    exact ⟨trivial, rfl, congrArg Prod.snd hwrite⟩

end Haxm

/-! ## WHPX -/

namespace Whpx

/-- The callbacks by which the emulator may perform a request. What an access does not use of its
data may be anything. -/
def Presents : DeviceRequest → List EmulatorQuestion → Prop
  | .portIn size port count, questions =>
    ∃ unused : List U32, unused.length = count.toNat ∧
      questions = unused.map fun data =>
        .ioPort ⟨WHV_IO_IN, port, BitVec.ofNat 16 size.bytes, data⟩
  | .portOut size port values, questions =>
    ∃ (direction : U8) (data : List U32), direction ≠ WHV_IO_IN ∧
      data.map (lowBytes size.bytes) = values.values.map (lowBytes size.bytes) ∧
      questions = data.map fun data =>
        .ioPort ⟨direction, port, BitVec.ofNat 16 size.bytes, data⟩
  | .load size address, questions =>
    ∃ data, questions = [.memory ⟨address, WHV_IO_IN, BitVec.ofNat 8 size.bytes, data⟩]
  | .store size address value, questions =>
    ∃ (direction : U8) (data : SharedBytes), direction ≠ WHV_IO_IN ∧
      data.load 0 size.bytes 64 = lowBytes size.bytes value ∧
      questions = [.memory ⟨address, direction, BitVec.ofNat 8 size.bytes, data⟩]

/-- The data of an answered port access. -/
def portData (size : PortSize) : Exchange EmulatorQuestion EmulatorAnswer → U32
  | ⟨.ioPort _, ioAccess⟩ => lowBytes size.bytes ioAccess.data
  | _ => 0

/-- The data of an answered memory access. -/
def memoryData (size : MemorySize) : Exchange EmulatorQuestion EmulatorAnswer → U64
  | ⟨.memory _, memoryAccess⟩ => memoryAccess.data.load 0 size.bytes 64
  | _ => 0

/-- What the guest is answered by the answers to the callbacks. -/
def reply (exchanges : List (Exchange EmulatorQuestion EmulatorAnswer)) :
    (request : DeviceRequest) → DeviceAnswer request
  | .portIn size _ _ => exchanges.map (portData size)
  | .portOut _ _ _ => ()
  | .load size _ => (exchanges.map (memoryData size)).headD 0
  | .store _ _ _ => ()

/-- The emulator asks for registers and translations too. -/
def EmulatorQuestion.Idle : EmulatorQuestion → Prop
  | .ioPort _ | .memory _ => False
  | _ => True

/-- The emulator performs a request. -/
def Emulates (request : DeviceRequest)
    (emulation : Dialogue EmulatorQuestion EmulatorAnswer (DeviceAnswer request)) : Prop :=
  ∃ questions, Presents request questions ∧
    Dialogue.Asks EmulatorQuestion.Idle (fun exchanges => reply exchanges request) questions []
      emulation

/-- The dialogue for a request, and the answer. -/
def serve (emulate : (request : DeviceRequest) →
      Dialogue EmulatorQuestion EmulatorAnswer (DeviceAnswer request)) (guest : WhpxGuest) :
    Server DeviceRequest DeviceAnswer (WhpxVirtualProcessor D) :=
  fun request vp => ((emulate request).run (WhpxVirtualProcessor.callbacks guest) vp).2

/-- What the callbacks for accesses do to the devices. -/
def deviceCallbacks (io : IOHandlers D) : Server EmulatorQuestion EmulatorAnswer D
  | .ioPort ioAccess, d =>
    if ioAccess.direction = WHV_IO_IN then
      let r := io.ioRead ioAccess.port ioAccess.accessSize.toNat d
      ({ ioAccess with data := r.1 }, r.2.2)
    else
      (ioAccess, (io.ioWrite ioAccess.port ioAccess.accessSize.toNat ioAccess.data d).2)
  | .memory memoryAccess, d =>
    let size := memoryAccess.accessSize.toNat
    if memoryAccess.direction = WHV_IO_IN then
      let r := io.mmioRead memoryAccess.gpaAddress size d
      (if WhpxVirtualProcessor.knownSize size then
        { memoryAccess with data := memoryAccess.data.store 0 size r.1 }
      else memoryAccess, r.2.2)
    else if WhpxVirtualProcessor.knownSize size then
      (memoryAccess,
        (io.mmioWrite memoryAccess.gpaAddress size (memoryAccess.data.load 0 size 64) d).2)
    else (memoryAccess, d)
  | .getVirtualProcessorRegisters _, d => (none, d)
  | .setVirtualProcessorRegisters _, d => (false, d)
  | .translateGvaPage _ _, d => (none, d)

theorem device_callbacks_idle (guest : WhpxGuest) {question : EmulatorQuestion}
    (hidle : question.Idle) (vp : WhpxVirtualProcessor D) :
    (WhpxVirtualProcessor.callbacks guest question vp).2.device = vp.device := by
  cases question with
  | ioPort ioAccess => exact hidle.elim
  | memory memoryAccess => exact hidle.elim
  | _ => rfl

theorem callbacks_devices (guest : WhpxGuest) {question : EmulatorQuestion}
    (hasked : ¬ question.Idle) (vp : WhpxVirtualProcessor D) :
    (WhpxVirtualProcessor.callbacks guest question vp).1 =
        (deviceCallbacks vp.io question vp.device).1 ∧
      (WhpxVirtualProcessor.callbacks guest question vp).2.device =
        (deviceCallbacks vp.io question vp.device).2 := by
  have hafter (accesses : List HostAccess) (d : D) : (vp.afterHandler accesses d).device = d :=
    (vp.afterHandler_frame accesses d).2.1
  cases question with
  | ioPort ioAccess =>
    simp only [WhpxVirtualProcessor.callbacks, WhpxVirtualProcessor.ioPortCallback,
      deviceCallbacks]
    split_ifs
    · exact ⟨rfl, hafter _ _⟩
    · exact ⟨rfl, hafter _ _⟩
  | memory memoryAccess =>
    simp only [WhpxVirtualProcessor.callbacks, WhpxVirtualProcessor.memoryCallback,
      deviceCallbacks]
    split_ifs
    · exact ⟨rfl, hafter _ _⟩
    · exact ⟨rfl, hafter _ _⟩
    · exact ⟨rfl, hafter _ _⟩
    · exact ⟨rfl, rfl⟩
  | getVirtualProcessorRegisters names => exact (hasked trivial).elim
  | setVirtualProcessorRegisters values => exact (hasked trivial).elim
  | translateGvaPage gva flags => exact (hasked trivial).elim

theorem toNat_portSize (size : PortSize) : (BitVec.ofNat 16 size.bytes).toNat = size.bytes := by
  cases size <;> rfl

theorem toNat_memorySize (size : MemorySize) :
    (BitVec.ofNat 8 size.bytes).toNat = size.bytes := by
  cases size <;> rfl

theorem knownSize_bytes (size : MemorySize) :
    WhpxVirtualProcessor.knownSize size.bytes = true := by
  cases size <;> rfl

section Requests

variable {io : IOHandlers D} (size : PortSize) (port : U16)

theorem askAll_portIn (unused : List U32) (d : D) :
    ((Dialogue.askAll (deviceCallbacks io) (unused.map fun data =>
        .ioPort ⟨WHV_IO_IN, port, BitVec.ofNat 16 size.bytes, data⟩) d).1.map (portData size) =
      (readPort io size port unused.length d).1) ∧
    (Dialogue.askAll (deviceCallbacks io) (unused.map fun data =>
        .ioPort ⟨WHV_IO_IN, port, BitVec.ofNat 16 size.bytes, data⟩) d).2 =
      (readPort io size port unused.length d).2 := by
  induction unused generalizing d with
  | nil => exact ⟨rfl, rfl⟩
  | cons data unused ih =>
    obtain ⟨hanswers, hdevice⟩ := ih (io.ioRead port size.bytes d).2.2
    simp only [List.map_cons, Dialogue.askAll, deviceCallbacks, if_true, toNat_portSize,
      List.length_cons, readPort, portData]
    exact ⟨congrArg _ hanswers, hdevice⟩

theorem askAll_portOut (hio : io.UsesLowBytes) {direction : U8} (hdirection : direction ≠ WHV_IO_IN)
    (data : List U32) (d : D) :
    (Dialogue.askAll (deviceCallbacks io) (data.map fun data =>
        .ioPort ⟨direction, port, BitVec.ofNat 16 size.bytes, data⟩) d).2 =
      writePort io size port (data.map (lowBytes size.bytes)) d := by
  induction data generalizing d with
  | nil => rfl
  | cons value data ih =>
    have hwrite := congrArg Prod.snd (hio.ioWrite port size.bytes value d)
    simp only [List.map_cons, Dialogue.askAll, deviceCallbacks, if_neg hdirection, toNat_portSize]
    rw [hwrite]
    exact ih _

end Requests

theorem not_idle_of_presents {request : DeviceRequest} {questions : List EmulatorQuestion}
    (h : Presents request questions) : ∀ question ∈ questions, ¬ question.Idle := by
  intro question hquestion
  cases request with
  | portIn size port count =>
    obtain ⟨unused, -, rfl⟩ := h
    obtain ⟨data, -, rfl⟩ := List.mem_map.mp hquestion
    exact id
  | portOut size port values =>
    obtain ⟨direction, data, -, -, rfl⟩ := h
    obtain ⟨value, -, rfl⟩ := List.mem_map.mp hquestion
    exact id
  | load size address =>
    obtain ⟨data, rfl⟩ := h
    obtain rfl := List.mem_singleton.mp hquestion
    exact id
  | store size address value =>
    obtain ⟨direction, data, -, -, rfl⟩ := h
    obtain rfl := List.mem_singleton.mp hquestion
    exact id

/-- What the answers to the callbacks for a request tell, and what they leave of the devices. -/
theorem askAll_devices {io : IOHandlers D} (hio : io.UsesLowBytes) {request : DeviceRequest}
    {questions : List EmulatorQuestion} (h : Presents request questions) (d : D) :
    reply (Dialogue.askAll (deviceCallbacks io) questions d).1 request =
        (devices io request d).1 ∧
      (Dialogue.askAll (deviceCallbacks io) questions d).2 = (devices io request d).2 := by
  cases request with
  | portIn size port count =>
    obtain ⟨unused, hlength, rfl⟩ := h
    have hanswers := @askAll_portIn D io size port unused d
    rw [hlength] at hanswers
    exact hanswers
  | portOut size port values =>
    obtain ⟨direction, data, hdirection, hdata, rfl⟩ := h
    refine ⟨rfl, ?_⟩
    rw [askAll_portOut size port hio hdirection, hdata]
    rfl
  | load size address =>
    obtain ⟨data, rfl⟩ := h
    simp only [Dialogue.askAll, deviceCallbacks, if_true, toNat_memorySize, knownSize_bytes, reply,
      List.map_cons, List.headD_cons, memoryData, devices, and_true]
    exact SharedBytes.load_store _ _ _
  | store size address value =>
    obtain ⟨direction, data, hdirection, hdata, rfl⟩ := h
    have hwrite : io.mmioWrite address size.bytes (data.load 0 size.bytes 64) d =
        io.mmioWrite address size.bytes (lowBytes size.bytes value) d := by rw [hdata]
    simp only [Dialogue.askAll, deviceCallbacks, if_neg hdirection, toNat_memorySize,
      knownSize_bytes, if_true, true_and]
    exact congrArg Prod.snd hwrite

/-- WHPX serves a request as the devices do. -/
theorem serve_devices {io : IOHandlers D} (hio : io.UsesLowBytes)
    {emulate : (request : DeviceRequest) →
      Dialogue EmulatorQuestion EmulatorAnswer (DeviceAnswer request)}
    (hemulate : ∀ request, Emulates request (emulate request)) (guest : WhpxGuest)
    (request : DeviceRequest) {vp : WhpxVirtualProcessor D} {d : D}
    (hvp : vp.io = io ∧ vp.device = d) :
    (serve emulate guest request vp).1 = (devices io request d).1 ∧
      (serve emulate guest request vp).2.io = io ∧
      (serve emulate guest request vp).2.device = (devices io request d).2 := by
  obtain ⟨rfl, rfl⟩ := hvp
  obtain ⟨questions, hpresents, hasks⟩ := hemulate request
  have hinv (question : EmulatorQuestion) (vp' : WhpxVirtualProcessor D) (h : vp'.io = vp.io) :
      (WhpxVirtualProcessor.callbacks guest question vp').2.io = vp.io :=
    (vp'.callbacks_frame guest question).1.trans h
  have hidle (question : EmulatorQuestion) (vp' : WhpxVirtualProcessor D) (_ : vp'.io = vp.io)
      (h : question.Idle) :
      (WhpxVirtualProcessor.callbacks guest question vp').2.device = vp'.device :=
    device_callbacks_idle guest h vp'
  have hasked (question : EmulatorQuestion) (vp' : WhpxVirtualProcessor D) (hio' : vp'.io = vp.io)
      (h : ¬ question.Idle) :
      (WhpxVirtualProcessor.callbacks guest question vp').1 =
          (deviceCallbacks vp.io question vp'.device).1 ∧
        (WhpxVirtualProcessor.callbacks guest question vp').2.device =
          (deviceCallbacks vp.io question vp'.device).2 := by
    rw [← hio']
    exact callbacks_devices guest h vp'
  obtain ⟨hresult, hdevice⟩ := hasks.run (fun vp => vp.device) hinv hidle hasked
    (not_idle_of_presents hpresents) rfl
  obtain ⟨hreply, hlast⟩ := askAll_devices hio hpresents vp.device
  refine ⟨hresult.trans hreply, ?_, hdevice.trans hlast⟩
  exact Dialogue.run_preserves hinv (emulate request) rfl

end Whpx

/-! ## Guests -/

/-- A guest was answered as by the devices themselves, and left them in the same state. -/
structure ServedDirectly {S : Type} (io : IOHandlers D) (program : GuestProgram R) (d : D)
    (device : S → D) (served : List (Exchange DeviceRequest DeviceAnswer) × R × S) : Prop where
  exchanges : served.1 = (program.run (devices io) d).1
  result : served.2.1 = (program.run (devices io) d).2.1
  device : device served.2.2 = (program.run (devices io) d).2.2

/-- A server that serves every request as the devices do leads a guest to the same answers. -/
theorem servedDirectly_run {S : Type} {server : Server DeviceRequest DeviceAnswer S}
    {io : IOHandlers D} {handlers : S → IOHandlers D} {device : S → D}
    (hserver : ∀ request {s d}, handlers s = io ∧ device s = d →
      (server request s).1 = (devices io request d).1 ∧ handlers (server request s).2 = io ∧
        device (server request s).2 = (devices io request d).2)
    (program : GuestProgram R) {s : S} {d : D} (hs : handlers s = io ∧ device s = d) :
    ServedDirectly io program d device (program.run server s) := by
  have hrel (request : DeviceRequest) (s : S) (d : D) (h : handlers s = io ∧ device s = d) :
      (server request s).1 = (devices io request d).1 ∧
        handlers (server request s).2 = io ∧
        device (server request s).2 = (devices io request d).2 :=
    hserver request h
  obtain ⟨hexchanges, hresult, -, hlast⟩ := Dialogue.run_simulates hrel program hs
  exact ⟨hexchanges, hresult, hlast⟩

/-- A guest is answered by KVM, HAXM and WHPX as by the devices themselves, in any sequence of
requests that each may depend on the answers before it, and they leave the devices in the same
state. This holds whatever is in the bytes that an access does not use and whatever else the
emulator of WHPX asks, if the handlers look at no more bytes than the size of an access. -/
theorem backends_serve_same_devices {io : IOHandlers D} (hio : io.UsesLowBytes)
    {kvmPresent : DeviceRequest → Kvm.KvmRun → Kvm.KvmRun}
    (hkvm : ∀ request run, Kvm.Presents request (kvmPresent request run))
    {haxmPresent : DeviceRequest → Haxm.HaxTunnel → Haxm.HaxTunnel}
    (hhaxm : ∀ request tunnel, Haxm.Presents request (haxmPresent request tunnel))
    {emulate : (request : DeviceRequest) →
      Dialogue Whpx.EmulatorQuestion Whpx.EmulatorAnswer (DeviceAnswer request)}
    (hwhpx : ∀ request, Whpx.Emulates request (emulate request)) (guest : Whpx.WhpxGuest)
    (program : GuestProgram R) {kvm : Kvm.KvmExits D} {haxm : Haxm.HaxmExits D}
    {whpx : Whpx.WhpxVirtualProcessor D} {d : D} (hkvmDevices : kvm.io = io ∧ kvm.device = d)
    (hhaxmDevices : haxm.io = io ∧ haxm.device = d)
    (hwhpxDevices : whpx.io = io ∧ whpx.device = d) :
    ServedDirectly io program d Kvm.KvmExits.device (program.run (Kvm.serve kvmPresent) kvm) ∧
      ServedDirectly io program d Haxm.HaxmExits.device
        (program.run (Haxm.serve haxmPresent) haxm) ∧
      ServedDirectly io program d Whpx.WhpxVirtualProcessor.device
        (program.run (Whpx.serve emulate guest) whpx) := by
  refine ⟨?_, ?_, ?_⟩
  · exact servedDirectly_run (fun request _ _ => Kvm.serve_devices hio hkvm request) program
      hkvmDevices
  · exact servedDirectly_run (fun request _ _ => Haxm.serve_devices hio hhaxm request) program
      hhaxmDevices
  · exact servedDirectly_run (fun request _ _ => Whpx.serve_devices hio hwhpx guest request)
      program hwhpxDevices

/-! ## Hypervisors that clear what they do not use -/

/-- The bytes of elements. -/
def elementBytes (size : PortSize) (values : List U32) : SharedBytes := fun k =>
  (values.getD (k / size.bytes) 0).extractLsb' (8 * (k % size.bytes)) 8

theorem map_load_elementBytes (size : PortSize) (values : List U32) :
    ((portOffsets false size values.length).map fun offset =>
      (elementBytes size values).load offset size.bytes 32) =
        values.map (lowBytes size.bytes) := by
  have hpos : 0 < size.bytes := by cases size <;> decide
  rw [portOffsets_false, List.map_map]
  refine List.ext_getElem (by simp) fun i hi _ => ?_
  have hlt : i < values.length := by simpa using hi
  have hvalue : values.getD i 0 = values[i] := by simp [hlt]
  rw [List.getElem_map, List.getElem_map, List.getElem_range, Function.comp_apply]
  refine SharedBytes.load_of_bytes fun j hj => ?_
  rw [elementBytes, Nat.mul_comm i, Nat.mul_add_div hpos, Nat.mul_add_mod, Nat.div_eq_of_lt hj,
    Nat.mod_eq_of_lt hj, Nat.add_zero, hvalue]

/-- A kernel that tells of requests as documented. -/
def Kvm.present : DeviceRequest → Kvm.KvmRun → Kvm.KvmRun
  | .portIn size port count, run => { run with exit := .Io .input size port count }
  | .portOut size port values, _ =>
    ⟨.Io .output size port (BitVec.ofNat 16 values.values.length),
      elementBytes size values.values⟩
  | .load size address, run => { run with exit := .Mmio address size.bytes false }
  | .store size address value, run =>
    ⟨.Mmio address size.bytes true, run.data.store 0 size.bytes value⟩

theorem Kvm.presents_present (request : DeviceRequest) (run : Kvm.KvmRun) :
    Kvm.Presents request (Kvm.present request run) := by
  cases request with
  | portIn size port count => rfl
  | portOut size port values => exact ⟨rfl, map_load_elementBytes size values.values⟩
  | load size address => rfl
  | store size address value => exact ⟨rfl, SharedBytes.load_store _ _ _⟩

/-- A driver that does. -/
def Haxm.present : DeviceRequest → Haxm.HaxTunnel → Haxm.HaxTunnel
  | .portIn size port count, tunnel => { tunnel with exit := .Io .input false size port count }
  | .portOut size port values, _ =>
    ⟨.Io .output false size port (BitVec.ofNat 16 values.values.length),
      elementBytes size values.values⟩
  | .load size address, tunnel =>
    { tunnel with exit := .FastMmio address 0 (BitVec.ofNat 8 size.bytes) 0 }
  | .store size address value, tunnel =>
    { tunnel with exit := .FastMmio address value (BitVec.ofNat 8 size.bytes) 1 }

theorem Haxm.presents_present (request : DeviceRequest) (tunnel : Haxm.HaxTunnel) :
    Haxm.Presents request (Haxm.present request tunnel) := by
  cases request with
  | portIn size port count => exact ⟨false, rfl⟩
  | portOut size port values => exact ⟨false, rfl, map_load_elementBytes size values.values⟩
  | load size address => exact ⟨0, rfl⟩
  | store size address value => exact ⟨value, rfl, rfl⟩

/-- The callbacks for a request. -/
def Whpx.questions : DeviceRequest → List Whpx.EmulatorQuestion
  | .portIn size port count =>
    (List.replicate count.toNat 0).map fun data =>
      .ioPort ⟨Whpx.WHV_IO_IN, port, BitVec.ofNat 16 size.bytes, data⟩
  | .portOut size port values =>
    values.values.map fun data => .ioPort ⟨1, port, BitVec.ofNat 16 size.bytes, data⟩
  | .load size address =>
    [.memory ⟨address, Whpx.WHV_IO_IN, BitVec.ofNat 8 size.bytes, fun _ => 0⟩]
  | .store size address value =>
    [.memory ⟨address, 1, BitVec.ofNat 8 size.bytes,
      SharedBytes.store (fun _ => 0) 0 size.bytes value⟩]

/-- An emulator that asks for nothing else. -/
def Whpx.emulate (request : DeviceRequest) :
    Dialogue Whpx.EmulatorQuestion Whpx.EmulatorAnswer (DeviceAnswer request) :=
  Dialogue.inTurn (fun exchanges => Whpx.reply exchanges request) (Whpx.questions request) []

theorem Whpx.emulates_emulate (request : DeviceRequest) :
    Whpx.Emulates request (Whpx.emulate request) := by
  refine ⟨Whpx.questions request, ?_, Dialogue.asks_inTurn _ _ _ _⟩
  cases request with
  | portIn size port count => exact ⟨_, List.length_replicate, rfl⟩
  | portOut size port values => exact ⟨1, values.values, by decide, rfl, rfl⟩
  | load size address => exact ⟨_, rfl⟩
  | store size address value => exact ⟨1, _, by decide, SharedBytes.load_store _ _ _, rfl⟩

/-- A device that keeps the last value that was written to it. -/
def latch : IOHandlers U64 where
  ioRead _ _ d := (d.setWidth 32, [], d)
  ioWrite _ size value _ := ([], (lowBytes size value).setWidth 64)
  mmioRead _ _ d := (d, [], d)
  mmioWrite _ size value _ := ([], lowBytes size value)

theorem latch_usesLowBytes : latch.UsesLowBytes where
  ioWrite _ size value _ := by simp only [latch, lowBytes_lowBytes]
  mmioWrite _ size value _ := by simp only [latch, lowBytes_lowBytes]

/-- Two bytes are written to a port, and the last is read and stored as a word. -/
def latchProgram : GuestProgram U64 :=
  .ask (.portOut .byte 0x3F8 ⟨[0x41, 0x142], by decide⟩) fun _ =>
    .ask (.portIn .byte 0x3F8 1) fun values =>
      .ask (.store .word 0xFEE00000 ((values.headD 0).setWidth 64)) fun _ =>
        .ask (.load .word 0xFEE00000) fun value => .done value

theorem backends_serve_same_devices_latch :
    let guest : Whpx.WhpxGuest :=
      ⟨fun registers control => ⟨true, registers, control, .X64Halt⟩, fun _ _ _ => none⟩
    let whpx : Whpx.WhpxVirtualProcessor U64 :=
      ⟨⟨⟨10, 0, 17763, 0⟩, fun _ => 0, []⟩, ⟨0, 0⟩, ⟨.Normal, none⟩, latch, 0⟩
    ServedDirectly latch latchProgram 0 Kvm.KvmExits.device
        (latchProgram.run (Kvm.serve Kvm.present)
          ⟨⟨.INTR, fun _ => 0xFF⟩, ⟨.Normal, 0⟩, latch, 0⟩) ∧
      ServedDirectly latch latchProgram 0 Haxm.HaxmExits.device
        (latchProgram.run (Haxm.serve Haxm.present)
          ⟨⟨.PAUSED, fun _ => 0xFF⟩, ⟨.Normal, 0⟩, latch, 0⟩) ∧
      ServedDirectly latch latchProgram 0 Whpx.WhpxVirtualProcessor.device
        (latchProgram.run (Whpx.serve Whpx.emulate guest) whpx) := by
  intro guest whpx
  exact backends_serve_same_devices latch_usesLowBytes Kvm.presents_present
    Haxm.presents_present Whpx.emulates_emulate guest latchProgram ⟨rfl, rfl⟩ ⟨rfl, rfl⟩ ⟨rfl, rfl⟩

end Virt86
