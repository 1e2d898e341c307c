import Virt86.FileTables
import Virt86.HaxmDeviceNames
import Virt86.HaxmRegisters
import Virt86.HaxmVersions
import Virt86.PlatformMachines
import Virt86.Specifications

/-!
# Descriptors of HAXM on Linux

The platform opens the device of the driver. A machine is created through that, and opened by its
name, and its processors are created through the machine and opened by theirs. All are closed once,
except that the platform takes the descriptor 0 for none.
-/

namespace Virt86

namespace HaxmLifetimes

open FileTables Haxm ModuleFiles

/-- The requests on the device, on those of machines and processors, and on a file that is read. -/
inductive HaxRequest where
  | HAX_IOCTL_VERSION
  | HAX_IOCTL_CAPABILITY
  | HAX_IOCTL_CREATE_VM
  | HAX_VM_IOCTL_NOTIFY_QEMU_VERSION (cur_version least_version : U32)
  | HAX_VM_IOCTL_VCPU_CREATE (vcpuID : U32)
  | HAX_VCPU_IOCTL_SETUP_TUNNEL
  | HAX_VCPU_GET_REGS
  | HAX_VCPU_SET_REGS (registers : VcpuState)
  | fstat
  | mmap (length : U64)
  | other (request : U32)
  deriving DecidableEq, Repr

/-- What a call leaves in its argument; `contents` is what is mapped. -/
structure HaxData where
  wstatus : U16
  winfo : U16
  vmID : U32
  registers : VcpuState
  va : U64
  io_va : U64
  st_size : U64
  contents : List U8
  deriving DecidableEq, Repr, Inhabited

abbrev HaxKernel := Kernel HaxRequest HaxData

/-! ## The platform -/

def pathString (path : List U8) : String := String.ofList (path.map fun b => Char.ofNat b.toNat)

/-- `readFile`. -/
def readFile (kernel : HaxKernel) (filename : List U8) (p : Process HaxRequest) :
    Option (List U8) × Process HaxRequest :=
  let file := p.openPath kernel (pathString filename)
  if file.1 < 0 then (none, file.2) else
  let st := file.2.request kernel file.1 .fstat
  if st.1.result < 0 then (none, st.2.close file.1) else
  let data := st.2.request kernel file.1 (.mmap st.1.data.st_size)
  (if data.1.result < 0 then none else some data.1.data.contents, data.2.close file.1)

/-- `GetVersion`, with the release of the kernel and what is in the bits of the version that its
constructor leaves. -/
def getVersion (kernel : HaxKernel) (release : List U8) (unset : U16) (p : Process HaxRequest) :
    Option (HaxmVersion × Process HaxRequest) :=
  let dep := readFile kernel (getModulesPath release ++ slash :: modulesDep) p
  dep.1.bind fun data =>
    (moduleFilename (getModulesPath release) haxm (mappingRest data.length) data).bind fun found =>
      found.bind fun filename =>
        let kmFile := readFile kernel filename dep.2
        kmFile.1.bind fun bytes => (versionOfModule unset bytes).map fun version =>
          (version, kmFile.2)

/-- The features that the driver tells. -/
structure HaxmFeatures where
  unrestrictedGuest : Bool
  extendedPageTables : Bool
  guestDebugging : Bool
  guestMemoryProtection : Bool
  largeMemoryAllocation : Bool
  partialMMIOInstructions : Bool
  deriving DecidableEq, Repr

def HaxmFeatures.none : HaxmFeatures := ⟨false, false, false, false, false, false⟩

def HAX_CAP_STATUS_WORKING : U16 := 1 <<< 0
def HAX_CAP_EPT : U16 := 1 <<< 0
def HAX_CAP_FASTMMIO : U16 := 1 <<< 1
def HAX_CAP_UG : U16 := 1 <<< 2
def HAX_CAP_64BIT_SETRAM : U16 := 1 <<< 4
def HAX_CAP_RAM_PROTECTION : U16 := 1 <<< 6
def HAX_CAP_DEBUG : U16 := 1 <<< 7

/-- `HaxmPlatform`, with the descriptor of its `HaxmPlatformSysImpl`. -/
structure HaxmPlatform where
  m_fd : ℤ
  winfo : U16
  m_initStatus : PlatformInitStatus
  m_features : HaxmFeatures
  deriving DecidableEq, Repr

namespace HaxmPlatform

/-- `HaxmPlatformSysImpl::Initialize`: the status, the descriptor and the capabilities. -/
def initializeSys (kernel : HaxKernel) (p : Process HaxRequest) :
    PlatformInitStatus × ℤ × HaxData × Process HaxRequest :=
  let device := p.openPath kernel "/dev/HAX"
  if device.1 < 0 then (.Unavailable, device.1, default, device.2) else
  let haxVer := device.2.request kernel device.1 .HAX_IOCTL_VERSION
  if haxVer.1.result < 0 then (.Failed, -1, default, haxVer.2.close device.1) else
  let haxCaps := haxVer.2.request kernel device.1 .HAX_IOCTL_CAPABILITY
  if haxCaps.1.result < 0 then (.Failed, -1, haxCaps.1.data, haxCaps.2.close device.1) else
  (.OK, device.1, haxCaps.1.data, haxCaps.2)

/-- The constructor. `none` is the read of a null pointer or outside the file of the module. -/
def construct (kernel : HaxKernel) (release : List U8) (unset unset' : U16)
    (p : Process HaxRequest) : Option (HaxmPlatform × Process HaxRequest) :=
  let init := initializeSys kernel p
  let caps := init.2.2.1
  if init.1 ≠ .OK then some (⟨init.2.1, caps.winfo, init.1, .none⟩, init.2.2.2) else
  (getVersion kernel release unset init.2.2.2).map fun version =>
    if caps.wstatus &&& HAX_CAP_STATUS_WORKING ≠ 0 then
      (⟨init.2.1, caps.winfo, .OK,
        { unrestrictedGuest := caps.winfo &&& HAX_CAP_UG ≠ 0
          extendedPageTables := caps.winfo &&& HAX_CAP_EPT ≠ 0
          guestDebugging := caps.winfo &&& HAX_CAP_DEBUG ≠ 0
          guestMemoryProtection := caps.winfo &&& HAX_CAP_RAM_PROTECTION ≠ 0
          largeMemoryAllocation := caps.winfo &&& HAX_CAP_64BIT_SETRAM ≠ 0
          partialMMIOInstructions := partialMMIOInstructions version.1 unset' }⟩, version.2)
    else (⟨init.2.1, caps.winfo, .Unsupported, .none⟩, version.2)

/-- The destructor of `HaxmPlatformSysImpl`. -/
def destroySys (platform : HaxmPlatform) (p : Process HaxRequest) : Process HaxRequest :=
  if platform.m_fd > 0 then p.close platform.m_fd else p

end HaxmPlatform

/-! ## Processors -/

/-- `HaxmVirtualProcessor`, with the descriptor of its `HaxmVirtualProcessorSysImpl`. -/
structure HaxmVirtualProcessor where
  m_vcpuID : U32
  m_fd : ℤ
  m_regs : VcpuState
  m_useEferMSR : Bool
  m_tunnel : U64
  m_ioTunnel : U64
  deriving DecidableEq, Repr

namespace HaxmVirtualProcessor

def EFER_LME : U32 := 1 <<< 8

/-- The constructor. It asks the driver whether the EFER in the register state can be changed. -/
def construct (kernel : HaxKernel) (id : U32) (p : Process HaxRequest) :
    HaxmVirtualProcessor × Process HaxRequest :=
  let vp : HaxmVirtualProcessor := ⟨id, -1, default, true, 0, 0⟩
  let got := p.request kernel vp.m_fd .HAX_VCPU_GET_REGS
  if got.1.result ≥ 0 then
    let oldEfer := got.1.data.registers.efer
    let vp := { vp with m_regs := { got.1.data.registers with efer := oldEfer ^^^ EFER_LME } }
    let set := got.2.request kernel vp.m_fd (.HAX_VCPU_SET_REGS vp.m_regs)
    if set.1.result ≥ 0 then
      let again := set.2.request kernel vp.m_fd .HAX_VCPU_GET_REGS
      let vp :=
        if again.1.result ≥ 0 then
          { vp with
            m_regs := again.1.data.registers
            m_useEferMSR := if oldEfer ≠ again.1.data.registers.efer then false
              else vp.m_useEferMSR }
        else vp
      let vp := { vp with m_regs := { vp.m_regs with efer := oldEfer } }
      let restored := again.2.request kernel vp.m_fd (.HAX_VCPU_SET_REGS vp.m_regs)
      (vp, restored.2)
    else (vp, set.2)
  else (vp, got.2)

/-- `Initialize`, with the identifier and the descriptor of the machine. `none` is a name that is
longer than the array for it. -/
def initializeVP (kernel : HaxKernel) (vmID : U32) (fdVM : ℤ) (vp : HaxmVirtualProcessor)
    (p : Process HaxRequest) : Option (Bool × HaxmVirtualProcessor × Process HaxRequest) :=
  let created := p.request kernel fdVM (.HAX_VM_IOCTL_VCPU_CREATE vp.m_vcpuID)
  if created.1.result < 0 then some (false, vp, created.2) else
  (vcpuName vmID vp.m_vcpuID).map fun name =>
    let opened := created.2.openPath kernel name
    let vp := { vp with m_fd := opened.1 }
    if vp.m_fd < 0 then (false, vp, opened.2) else
    let tunnelInfo := opened.2.request kernel vp.m_fd .HAX_VCPU_IOCTL_SETUP_TUNNEL
    if tunnelInfo.1.result < 0 then (false, { vp with m_fd := -1 }, tunnelInfo.2.close vp.m_fd) else
    (true, { vp with m_tunnel := tunnelInfo.1.data.va, m_ioTunnel := tunnelInfo.1.data.io_va },
      tunnelInfo.2)

def destroy (vp : HaxmVirtualProcessor) (p : Process HaxRequest) : Process HaxRequest :=
  p.release vp.m_fd

end HaxmVirtualProcessor

/-! ## Machines -/

/-- `HaxmVirtualMachine`, with the descriptor of its `HaxmVirtualMachineSysImpl`. -/
structure HaxmVirtualMachine where
  m_fd : ℤ
  m_vmID : U32
  m_fastMMIO : Bool
  m_vps : List HaxmVirtualProcessor
  deriving DecidableEq, Repr

/-- The calls that the other functions of a machine and its processors make. -/
inductive HaxCall where
  | onVM (request : HaxRequest)
  | onVP (index : ℕ) (request : HaxRequest)
  deriving DecidableEq, Repr

namespace HaxmVirtualMachine

/-- The descriptors of a machine. -/
def descriptors (vm : HaxmVirtualMachine) : List ℤ :=
  (vm.m_vps.map HaxmVirtualProcessor.m_fd).flatMap held ++ held vm.m_fd

variable (kernel : HaxKernel) (platform : HaxmPlatform)

/-- The loop over the processors, for a number of rounds. Its variable has 32 bits and the number of
processors 64. -/
def createVPs (specifications : VMSpecifications) :
    ℕ → U32 → HaxmVirtualMachine → Process HaxRequest →
      Option (Bool × HaxmVirtualMachine × Process HaxRequest)
  | 0, _, _, _ => none
  | rounds + 1, id, vm, p =>
    if id.setWidth 64 < specifications.numProcessors then
      let constructed := HaxmVirtualProcessor.construct kernel id p
      (constructed.1.initializeVP kernel vm.m_vmID vm.m_fd constructed.2).bind fun vp =>
        if !vp.1 then
          -- the machine is closed before the processor that failed is destroyed
          some (false, { vm with m_fd := -1 }, vp.2.1.destroy (vp.2.2.release vm.m_fd))
        else
          createVPs specifications rounds (id + 1) { vm with m_vps := vm.m_vps ++ [vp.2.1] } vp.2.2
    else some (true, vm, p)

/-- `Initialize`, with that of `HaxmVirtualMachineSysImpl`. -/
def initializeVM (rounds : ℕ) (specifications : VMSpecifications) (p : Process HaxRequest) :
    Option (Bool × HaxmVirtualMachine × Process HaxRequest) :=
  let vm : HaxmVirtualMachine := ⟨-1, 0xFFFFFFFF, false, []⟩
  let created := p.request kernel platform.m_fd .HAX_IOCTL_CREATE_VM
  if created.1.result = -1 then some (false, vm, created.2) else
  let vmID := created.1.data.vmID
  (vmName vmID).bind fun name =>
    let opened := created.2.openPath kernel name
    if opened.1 = -1 then some (false, { vm with m_fd := opened.1 }, opened.2) else
    let vm := { vm with m_fd := opened.1, m_vmID := vmID }
    if platform.winfo &&& HAX_CAP_FASTMMIO ≠ 0 then
      let reported := opened.2.request kernel vm.m_fd (.HAX_VM_IOCTL_NOTIFY_QEMU_VERSION 4 4)
      createVPs kernel specifications rounds 0 { vm with m_fastMMIO := reported.1.result ≥ 0 }
        reported.2
    else createVPs kernel specifications rounds 0 vm opened.2

/-- The destructors of `HaxmVirtualMachine`, with `DestroyVPs`, and `HaxmVirtualMachineSysImpl`. -/
def destroy (vm : HaxmVirtualMachine) (p : Process HaxRequest) : Process HaxRequest :=
  (vm.m_vps.foldl (fun p vp => vp.destroy p) p).release vm.m_fd

def createVMImpl (rounds : ℕ) (specifications : VMSpecifications) (p : Process HaxRequest) :
    Option (Option HaxmVirtualMachine × Process HaxRequest) :=
  (initializeVM kernel platform rounds specifications p).map fun r =>
    if r.1 then (some r.2.1, r.2.2) else (none, r.2.1.destroy r.2.2)

def call (call : HaxCall) (vm : HaxmVirtualMachine) (p : Process HaxRequest) :
    HaxmVirtualMachine × Process HaxRequest :=
  match call with
  | .onVM request => (vm, (p.request kernel vm.m_fd request).2)
  | .onVP index request =>
    match vm.m_vps[index]? with
    | some vp => (vm, (p.request kernel vp.m_fd request).2)
    | none => (vm, p)

/-- What HAXM implements for a platform. -/
def impl (rounds : ℕ) :
    PlatformImpl HaxmVirtualMachine (Process HaxRequest) VMSpecifications HaxCall :=
  ⟨createVMImpl kernel platform rounds, call kernel, destroy⟩

end HaxmVirtualMachine

/-- The destructor of the platform. -/
def destroyPlatform (kernel : HaxKernel) (rounds : ℕ) (platform : HaxmPlatform)
    (state : Platform HaxmVirtualMachine × Process HaxRequest) : Process HaxRequest :=
  platform.destroySys
    (state.1.destroyVMs (HaxmVirtualMachine.impl kernel platform rounds) state.2).2

/-! ## What is open -/

section Rules

variable {kernel : HaxKernel} {p : Process HaxRequest} {owned : List ℤ}

/-- A file that is read is closed. -/
theorem holds_readFile (h : Holds p owned) (kernel : HaxKernel) (filename : List U8) :
    Holds (readFile kernel filename p).2 owned := by
  have hopened := h.openPath kernel (pathString filename)
  have hnone := openPath_of_neg kernel p (pathString filename)
  unfold readFile
  dsimp only
  generalize p.openPath kernel (pathString filename) = file at hopened hnone ⊢
  by_cases hfailed : file.1 < 0
  · rw [if_pos hfailed]
    rw [hnone hfailed] at hopened
    exact hopened
  · rw [if_neg hfailed]
    rw [held_of_ne (show file.1 ≠ -1 by omega)] at hopened
    have hmem : file.1 = -1 ∨ file.1 ∈ [file.1] ++ owned := .inr List.mem_cons_self
    split_ifs
    · exact (hopened.request kernel hmem .fstat).close
    · exact ((hopened.request kernel hmem .fstat).request kernel hmem _).close
    · exact ((hopened.request kernel hmem .fstat).request kernel hmem _).close

theorem holds_getVersion (h : Holds p owned) {release : List U8} {unset : U16}
    {r : HaxmVersion × Process HaxRequest} (hr : getVersion kernel release unset p = some r) :
    Holds r.2 owned := by
  have hdep := holds_readFile h kernel (getModulesPath release ++ slash :: modulesDep)
  simp only [getVersion, Option.bind_eq_some_iff, Option.map_eq_some_iff] at hr
  obtain ⟨data, -, found, -, filename, -, bytes, -, version, -, rfl⟩ := hr
  exact holds_readFile hdep kernel filename

/-- The platform is left with its own descriptor. -/
theorem holds_initializeSys (h : Holds p owned) (kernel : HaxKernel) :
    Holds (HaxmPlatform.initializeSys kernel p).2.2.2
      (held (HaxmPlatform.initializeSys kernel p).2.1 ++ owned) := by
  have hopened := h.openPath kernel "/dev/HAX"
  unfold HaxmPlatform.initializeSys
  dsimp only
  generalize p.openPath kernel "/dev/HAX" = device at hopened ⊢
  by_cases hfailed : device.1 < 0
  · rw [if_pos hfailed]
    exact hopened
  · rw [if_neg hfailed]
    have hheld : held device.1 = [device.1] := held_of_ne (by omega)
    rw [hheld] at hopened
    have hmem : device.1 = -1 ∨ device.1 ∈ [device.1] ++ owned := .inr List.mem_cons_self
    have hversion := hopened.request kernel hmem .HAX_IOCTL_VERSION
    split_ifs
    · exact hversion.close
    · exact (hversion.request kernel hmem _).close
    · rw [hheld]
      exact hversion.request kernel hmem _

theorem holds_construct (h : Holds p owned) {release : List U8} {unset unset' : U16}
    {r : HaxmPlatform × Process HaxRequest}
    (hr : HaxmPlatform.construct kernel release unset unset' p = some r) :
    Holds r.2 (held r.1.m_fd ++ owned) := by
  have hinit := holds_initializeSys h kernel
  simp only [HaxmPlatform.construct] at hr
  generalize HaxmPlatform.initializeSys kernel p = init at hinit hr
  by_cases hstatus : init.1 ≠ .OK
  · rw [if_pos hstatus] at hr
    obtain rfl := Option.some.inj hr
    exact hinit
  · rw [if_neg hstatus, Option.map_eq_some_iff] at hr
    obtain ⟨version, hversion, heq⟩ := hr
    have hlast := holds_getVersion hinit hversion
    split_ifs at heq
    · rw [← heq]
      exact hlast
    · rw [← heq]
      exact hlast

/-- The descriptor that is asked for the registers is still the -1 it is constructed with, so the
answer is that of a call that fails, and EFER is left to the MSR. -/
theorem construct_eq (h : Holds p owned) (kernel : HaxKernel) (id : U32) :
    HaxmVirtualProcessor.construct kernel id p =
      (⟨id, -1, default, true, 0, 0⟩, (p.request kernel (-1) .HAX_VCPU_GET_REGS).2) := by
  have hresult := request_neg_one kernel h.nonneg .HAX_VCPU_GET_REGS
  unfold HaxmVirtualProcessor.construct
  dsimp only
  rw [hresult, if_neg (by decide)]

theorem holds_initializeVP (h : Holds p owned) {fdVM : ℤ} (hfdVM : fdVM = -1 ∨ fdVM ∈ owned)
    {vmID : U32} {vp : HaxmVirtualProcessor} (hvp : vp.m_fd = -1)
    {r : Bool × HaxmVirtualProcessor × Process HaxRequest}
    (hr : vp.initializeVP kernel vmID fdVM p = some r) :
    Holds r.2.2 (held r.2.1.m_fd ++ owned) := by
  have hcreated := h.request kernel hfdVM (.HAX_VM_IOCTL_VCPU_CREATE vp.m_vcpuID)
  simp only [HaxmVirtualProcessor.initializeVP] at hr
  generalize p.request kernel fdVM (.HAX_VM_IOCTL_VCPU_CREATE vp.m_vcpuID) = created
    at hcreated hr
  by_cases hrefused : created.1.result < 0
  · rw [if_pos hrefused] at hr
    obtain rfl := Option.some.inj hr
    rw [hvp]
    exact hcreated
  rw [if_neg hrefused, Option.map_eq_some_iff] at hr
  obtain ⟨name, -, rfl⟩ := hr
  have hopened := hcreated.openPath kernel name
  generalize created.2.openPath kernel name = opened at hopened ⊢
  by_cases hfailed : opened.1 < 0
  · rw [if_pos hfailed]
    exact hopened
  · rw [if_neg hfailed]
    have hheld : held opened.1 = [opened.1] := held_of_ne (by omega)
    rw [hheld] at hopened
    have hmem : opened.1 = -1 ∨ opened.1 ∈ [opened.1] ++ owned := .inr List.mem_cons_self
    split_ifs
    · exact (hopened.request kernel hmem _).close
    · rw [hheld]
      exact hopened.request kernel hmem _

namespace HaxmVirtualMachine

variable {platform : HaxmPlatform} {vm : HaxmVirtualMachine}

theorem holds_createVP (h : Holds p (vm.descriptors ++ owned)) {id : U32}
    {r : Bool × HaxmVirtualProcessor × Process HaxRequest}
    (hr : (HaxmVirtualProcessor.construct kernel id p).1.initializeVP kernel vm.m_vmID vm.m_fd
      (HaxmVirtualProcessor.construct kernel id p).2 = some r) :
    Holds r.2.2 (held r.2.1.m_fd ++ (vm.descriptors ++ owned)) := by
  have hfdVM : vm.m_fd = -1 ∨ vm.m_fd ∈ vm.descriptors ++ owned :=
    held_subset_cases (List.subset_append_right _ _) owned
  rw [construct_eq h] at hr
  exact holds_initializeVP (h.request kernel (.inl rfl) .HAX_VCPU_GET_REGS) hfdVM rfl hr

theorem holds_append {vp : HaxmVirtualProcessor}
    (h : Holds p (held vp.m_fd ++ (vm.descriptors ++ owned))) :
    Holds p ({ vm with m_vps := vm.m_vps ++ [vp] }.descriptors ++ owned) := by
  refine h.of_perm ?_
  simp only [descriptors, List.map_append, List.map_cons, List.map_nil, List.flatMap_append,
    List.flatMap_cons, List.flatMap_nil, List.append_nil, List.append_assoc]
  exact List.perm_append_comm_assoc _ _ _

theorem holds_createVPs (h : Holds p (vm.descriptors ++ owned)) {specifications : VMSpecifications}
    {rounds : ℕ} {id : U32} {r : Bool × HaxmVirtualMachine × Process HaxRequest}
    (hr : createVPs kernel specifications rounds id vm p = some r) :
    Holds r.2.2 (r.2.1.descriptors ++ owned) := by
  induction rounds generalizing id vm p with
  | zero => cases hr
  | succ rounds ih =>
    simp only [createVPs] at hr
    by_cases hmore : id.setWidth 64 < specifications.numProcessors
    · rw [if_pos hmore, Option.bind_eq_some_iff] at hr
      obtain ⟨vp, hvp, hr⟩ := hr
      have hholds := holds_createVP h hvp
      split_ifs at hr with hfailed
      · obtain rfl := Option.some.inj hr
        have hclosed : (HaxmVirtualMachine.mk (-1) vm.m_vmID vm.m_fastMMIO vm.m_vps).descriptors =
            (vm.m_vps.map HaxmVirtualProcessor.m_fd).flatMap held := List.append_nil _
        rw [descriptors, ← List.append_assoc, ← List.append_assoc] at hholds
        have hvm := hholds.of_perm (List.perm_append_comm.append_right owned)
        rw [List.append_assoc, List.append_assoc] at hvm
        rw [hclosed]
        exact hvm.release.release
      · exact ih (holds_append hholds) hr
    · rw [if_neg hmore] at hr
      obtain rfl := Option.some.inj hr
      exact h

theorem holds_initializeVM (h : Holds p owned) (hfd : platform.m_fd = -1 ∨ platform.m_fd ∈ owned)
    {rounds : ℕ} {specifications : VMSpecifications}
    {r : Bool × HaxmVirtualMachine × Process HaxRequest}
    (hr : initializeVM kernel platform rounds specifications p = some r) :
    Holds r.2.2 (r.2.1.descriptors ++ owned) := by
  have hcreated := h.request kernel hfd .HAX_IOCTL_CREATE_VM
  simp only [initializeVM] at hr
  generalize p.request kernel platform.m_fd .HAX_IOCTL_CREATE_VM = created at hcreated hr
  by_cases hrefused : created.1.result = -1
  · rw [if_pos hrefused] at hr
    obtain rfl := Option.some.inj hr
    exact hcreated
  rw [if_neg hrefused, Option.bind_eq_some_iff] at hr
  obtain ⟨name, -, hr⟩ := hr
  have hopened := hcreated.openPath kernel name
  generalize created.2.openPath kernel name = opened at hopened hr
  split_ifs at hr with hfailed hfast
  · obtain rfl := Option.some.inj hr
    exact hopened
  · refine holds_createVPs ?_ hr
    exact hopened.request kernel (held_subset_cases (List.Subset.refl _) owned) _
  · exact holds_createVPs hopened hr

theorem holds_destroy (h : Holds p (vm.descriptors ++ owned)) : Holds (vm.destroy p) owned := by
  have hfold : vm.m_vps.foldl (fun p vp => vp.destroy p) p =
      (vm.m_vps.map HaxmVirtualProcessor.m_fd).foldl Process.release p := by
    rw [List.foldl_map]
    rfl
  rw [descriptors, List.append_assoc] at h
  rw [destroy, hfold]
  exact h.releases.release

theorem holds_call (h : Holds p (vm.descriptors ++ owned)) (c : HaxCall) :
    Holds (call kernel c vm p).2 ((call kernel c vm p).1.descriptors ++ owned) := by
  cases c with
  | onVM request =>
    exact h.request kernel (held_subset_cases (List.subset_append_right _ _) owned) request
  | onVP index request =>
    cases hvp : vm.m_vps[index]? with
    | none =>
      simp only [call, hvp]
      exact h
    | some vp =>
      simp only [call, hvp]
      refine h.request kernel (held_subset_cases (fun fd hfd => ?_) owned) request
      rw [descriptors, List.mem_append, List.mem_flatMap]
      exact .inl ⟨vp.m_fd, List.mem_map_of_mem (List.mem_of_getElem? hvp), hfd⟩

/-- HAXM keeps account of the descriptors of its machines, next to that of the platform. -/
theorem accounts (kernel : HaxKernel) (platform : HaxmPlatform) (rounds : ℕ) (others : List ℤ) :
    Accounts (impl kernel platform rounds) Holds descriptors (held platform.m_fd ++ others) where
  of_perm h hperm := h.of_perm hperm
  create := by
    intro p a specifications r p' h hcreate
    have hfd : platform.m_fd = -1 ∨ platform.m_fd ∈ a ++ (held platform.m_fd ++ others) :=
      (held_subset_cases (List.Subset.refl _) others).imp_right (List.mem_append_right _)
    simp only [impl, createVMImpl, Option.map_eq_some_iff] at hcreate
    obtain ⟨created, hcreated, heq⟩ := hcreate
    have hholds := holds_initializeVM h hfd hcreated
    split_ifs at heq with hok
    · obtain ⟨rfl, rfl⟩ := Prod.mk.inj heq
      exact hholds
    · obtain ⟨rfl, rfl⟩ := Prod.mk.inj heq
      exact holds_destroy hholds
  call c h := holds_call h c
  destroy h := holds_destroy h

end HaxmVirtualMachine

/-- The destructor of the platform closes its descriptor, if that is not 0. -/
theorem holds_destroySys {platform : HaxmPlatform} {others : List ℤ}
    (h : Holds p (held platform.m_fd ++ others)) :
    Holds (platform.destroySys p) (if platform.m_fd = 0 then 0 :: others else others) := by
  by_cases hne : platform.m_fd = -1
  · rw [hne, held_neg_one, List.nil_append] at h
    rw [HaxmPlatform.destroySys, hne, if_neg (by decide), if_neg (by decide)]
    exact h
  · rw [held_of_ne hne] at h
    have hnonneg : 0 ≤ platform.m_fd := h.nonneg _ (h.perm.mem_iff.mpr List.mem_cons_self)
    rw [HaxmPlatform.destroySys]
    by_cases hzero : platform.m_fd = 0
    · rw [if_pos hzero, if_neg (by omega)]
      rw [hzero] at h
      exact h
    · rw [if_neg hzero, if_pos (by omega)]
      exact h.close

/-! ## Runs -/

/-- The constructor keeps the identifier. -/
theorem m_vcpuID_construct (kernel : HaxKernel) (id : U32) (p : Process HaxRequest) :
    (HaxmVirtualProcessor.construct kernel id p).1.m_vcpuID = id := by
  unfold HaxmVirtualProcessor.construct
  dsimp only
  split_ifs <;> rfl

theorem initializeVP_isSome (kernel : HaxKernel) {vmID : U32} {vp : HaxmVirtualProcessor}
    (hvm : TwoDigits vmID) (hvp : TwoDigits vp.m_vcpuID) (fdVM : ℤ) (p : Process HaxRequest) :
    (vp.initializeVP kernel vmID fdVM p).isSome = true := by
  unfold HaxmVirtualProcessor.initializeVP
  dsimp only
  split_ifs
  · rfl
  · rw [Option.isSome_map]
    exact (isSome_vcpuName_iff _ _).mpr ⟨hvm, hvp⟩

/-- The loop is over after as many rounds as there are processors, and one more. -/
theorem createVPs_isSome {specifications : VMSpecifications}
    (hbound : specifications.numProcessors.toNat ≤ 100) {rounds : ℕ} {id : U32}
    (hrounds : specifications.numProcessors.toNat - id.toNat < rounds) {vm : HaxmVirtualMachine}
    (hvm : TwoDigits vm.m_vmID) (p : Process HaxRequest) :
    (HaxmVirtualMachine.createVPs kernel specifications rounds id vm p).isSome = true := by
  induction rounds generalizing id vm p with
  | zero => omega
  | succ rounds ih =>
    simp only [HaxmVirtualMachine.createVPs]
    split_ifs with hmore
    · rw [BitVec.lt_def, BitVec.toNat_setWidth] at hmore
      have hid : TwoDigits id := by
        rw [TwoDigits, BitVec.toInt_eq_toNat_of_lt (by omega)]
        omega
      have hvp : TwoDigits (HaxmVirtualProcessor.construct kernel id p).1.m_vcpuID :=
        (m_vcpuID_construct kernel id p).symm ▸ hid
      obtain ⟨vp, hvp⟩ := Option.isSome_iff_exists.mp (initializeVP_isSome kernel hvm hvp
        vm.m_fd (HaxmVirtualProcessor.construct kernel id p).2)
      rw [hvp, Option.bind_some]
      split_ifs
      · rfl
      · refine ih ?_ ?_ _
        · rw [BitVec.toNat_add]
          change specifications.numProcessors.toNat - (id.toNat + 1) % 2 ^ 32 < rounds
          omega
        · exact hvm
    · rfl

/-- A machine is created, or is not, when the driver numbers it with two digits. -/
theorem createVMImpl_isSome (hids : ∀ calls, TwoDigits (kernel.answer calls).data.vmID)
    {platform : HaxmPlatform} {specifications : VMSpecifications}
    (hbound : specifications.numProcessors.toNat ≤ 100) (p : Process HaxRequest) :
    (HaxmVirtualMachine.createVMImpl kernel platform (2 ^ 32) specifications p).isSome = true := by
  have hid : TwoDigits (p.request kernel platform.m_fd .HAX_IOCTL_CREATE_VM).1.data.vmID := by
    unfold Process.request
    dsimp only
    split_ifs
    · exact hids _
    · exact hids _
  unfold HaxmVirtualMachine.createVMImpl HaxmVirtualMachine.initializeVM
  dsimp only
  rw [Option.isSome_map]
  by_cases hrefused : (p.request kernel platform.m_fd .HAX_IOCTL_CREATE_VM).1.result = -1
  · rw [if_pos hrefused]
    rfl
  obtain ⟨name, hname⟩ := Option.isSome_iff_exists.mp ((isSome_vmName_iff _).mpr hid)
  rw [if_neg hrefused, hname, Option.bind_some]
  have hrounds : specifications.numProcessors.toNat - (0 : U32).toNat < 2 ^ 32 := by omega
  split_ifs
  · rfl
  · exact createVPs_isSome hbound hrounds hid _
  · exact createVPs_isSome hbound hrounds hid _

variable {others : List ℤ}

/-- Every call of the platform returns when the driver numbers the machines with two digits and none
has more than 100 processors. -/
theorem run_isSome (hids : ∀ calls, TwoDigits (kernel.answer calls).data.vmID)
    (platform : HaxmPlatform) {calls : List (PlatformCall VMSpecifications HaxCall)}
    (hbounded : ∀ specifications, .createVM specifications ∈ calls →
      specifications.numProcessors.toNat ≤ 100)
    (state : Platform HaxmVirtualMachine × Process HaxRequest) :
    (runSome (Platform.exec (HaxmVirtualMachine.impl kernel platform (2 ^ 32))) state
      calls).isSome = true := by
  refine Platform.run_isSome (fun specifications hmem p => ?_) state
  exact createVMImpl_isSome hids (hbounded specifications hmem) p

/-- `"x/haxm.ko: "`. -/
def moduleLines : List DepLine :=
  [.entry ⟨[0x78, 0x2F] ++ haxm.chars ++ [0x2E, 0x6B, 0x6F], by decide, by decide, by decide,
    by decide⟩ ⟨[0x20], by decide, by decide⟩]

/-- A driver that refuses nothing, and numbers every machine 7. The second file that is opened is
`modules.dep`. -/
def acceptingDriver : HaxKernel where
  answer calls :=
    let opened := calls.countP fun
      | .openPath _ => true
      | _ => false
    ⟨0, { (default : HaxData) with
      wstatus := HAX_CAP_STATUS_WORKING
      vmID := 7
      contents := if opened = 2 then depFile moduleLines else moduleFile.bytes }⟩
  fresh := above
  fresh_nonneg := above_nonneg
  fresh_notMem := above_notMem

theorem construct_acceptingDriver :
    (HaxmPlatform.construct acceptingDriver [0x35] 0 0 ⟨[2, 1, 0], false, []⟩).isSome = true := by
  decide +kernel

theorem twoDigits_acceptingDriver (calls : List (Syscall HaxRequest)) :
    TwoDigits (acceptingDriver.answer calls).data.vmID :=
  show TwoDigits 7 by decide

/-- What the creation of a machine leaves. -/
structure Created (vm : HaxmVirtualMachine) : Prop where
  opened : vm.m_fd ≠ -1
  numbered : vm.m_vps.map HaxmVirtualProcessor.m_vcpuID =
    (List.range vm.m_vps.length).map (BitVec.ofNat 32)
  processors : ∀ vp ∈ vm.m_vps, 0 ≤ vp.m_fd ∧ vp.m_useEferMSR = true

/-- A processor that was initialized keeps its identifier and what it found of the MSR. -/
theorem initializeVP_eq {vmID : U32} {fdVM : ℤ} {vp : HaxmVirtualProcessor}
    {r : Bool × HaxmVirtualProcessor × Process HaxRequest}
    (hr : vp.initializeVP kernel vmID fdVM p = some r) (hok : r.1 = true) :
    0 ≤ r.2.1.m_fd ∧ r.2.1.m_vcpuID = vp.m_vcpuID ∧ r.2.1.m_useEferMSR = vp.m_useEferMSR := by
  simp only [HaxmVirtualProcessor.initializeVP] at hr
  generalize p.request kernel fdVM (.HAX_VM_IOCTL_VCPU_CREATE vp.m_vcpuID) = created at hr
  by_cases hrefused : created.1.result < 0
  · rw [if_pos hrefused] at hr
    obtain rfl := Option.some.inj hr
    cases hok
  rw [if_neg hrefused, Option.map_eq_some_iff] at hr
  obtain ⟨name, -, rfl⟩ := hr
  generalize created.2.openPath kernel name = opened at hok ⊢
  by_cases hfailed : opened.1 < 0
  · rw [if_pos hfailed] at hok
    cases hok
  · rw [if_neg hfailed] at hok ⊢
    split_ifs at hok ⊢
    exact ⟨Int.not_lt.mp hfailed, rfl, rfl⟩

theorem created_createVPs (vm : HaxmVirtualMachine) (h : Holds p (vm.descriptors ++ owned))
    (hvm : Created vm) {specifications : VMSpecifications} {rounds : ℕ} {id : U32}
    (hid : id = BitVec.ofNat 32 vm.m_vps.length)
    {r : Bool × HaxmVirtualMachine × Process HaxRequest}
    (hr : HaxmVirtualMachine.createVPs kernel specifications rounds id vm p = some r)
    (hok : r.1 = true) : Created r.2.1 := by
  induction rounds generalizing id vm p with
  | zero => cases hr
  | succ rounds ih =>
    simp only [HaxmVirtualMachine.createVPs] at hr
    by_cases hmore : id.setWidth 64 < specifications.numProcessors
    · rw [if_pos hmore, Option.bind_eq_some_iff] at hr
      obtain ⟨vp, hvp, hr⟩ := hr
      have hholds := HaxmVirtualMachine.holds_createVP h hvp
      split_ifs at hr with hfailed
      · obtain rfl := Option.some.inj hr
        cases hok
      · have hready := initializeVP_eq hvp (by simpa using hfailed)
        rw [construct_eq h] at hready
        refine ih _ (HaxmVirtualMachine.holds_append hholds) ⟨hvm.opened, ?_, ?_⟩ ?_ hr
        · rw [List.map_append, hvm.numbered, List.length_append, List.length_singleton,
            List.range_succ, List.map_append, List.map_singleton, List.map_singleton,
            hready.2.1, hid]
        · intro vp' hvp'
          rw [List.mem_append, List.mem_singleton] at hvp'
          rcases hvp' with hvp' | rfl
          · exact hvm.processors vp' hvp'
          · exact ⟨hready.1, hready.2.2⟩
        · rw [List.length_append, List.length_singleton, hid]
          exact (BitVec.ofNat_add _ _).symm
    · rw [if_neg hmore] at hr
      obtain rfl := Option.some.inj hr
      exact hvm

theorem created_createVMImpl (h : Holds p owned) {platform : HaxmPlatform}
    (hfd : platform.m_fd = -1 ∨ platform.m_fd ∈ owned) {rounds : ℕ}
    {specifications : VMSpecifications} {vm : HaxmVirtualMachine} {p' : Process HaxRequest}
    (hr : HaxmVirtualMachine.createVMImpl kernel platform rounds specifications p =
      some (some vm, p')) : Created vm := by
  have hcreated := h.request kernel hfd .HAX_IOCTL_CREATE_VM
  simp only [HaxmVirtualMachine.createVMImpl, HaxmVirtualMachine.initializeVM,
    Option.map_eq_some_iff] at hr
  obtain ⟨r, hr, heq⟩ := hr
  generalize p.request kernel platform.m_fd .HAX_IOCTL_CREATE_VM = created at hcreated hr
  by_cases hok : r.1 = true
  · rw [if_pos hok] at heq
    obtain rfl := Option.some.inj (Prod.mk.inj heq).1
    by_cases hrefused : created.1.result = -1
    · rw [if_pos hrefused] at hr
      obtain rfl := Option.some.inj hr
      cases hok
    rw [if_neg hrefused, Option.bind_eq_some_iff] at hr
    obtain ⟨name, -, hr⟩ := hr
    have hopened := hcreated.openPath kernel name
    generalize created.2.openPath kernel name = opened at hopened hr
    split_ifs at hr with hfailed hfast
    · obtain rfl := Option.some.inj hr
      cases hok
    · have hreported := hopened.request kernel (held_subset_cases (List.Subset.refl _) owned)
        (.HAX_VM_IOCTL_NOTIFY_QEMU_VERSION 4 4)
      refine created_createVPs _ hreported ⟨hfailed, rfl, List.forall_mem_nil _⟩ ?_ hr hok
      rfl
    · refine created_createVPs _ hopened ⟨hfailed, rfl, List.forall_mem_nil _⟩ ?_ hr hok
      rfl
  · rw [if_neg hok] at heq
    cases heq

/-- Whatever the driver answers and whatever machines are created, used and freed, every machine of
the platform has a descriptor, its processors have theirs and are numbered in their order, and EFER
is left to its MSR: the question whether the register state can hold it is asked before a processor
has a descriptor, so it is never answered. -/
theorem haxmMachines_created (h : Holds p others) {release : List U8} {unset unset' : U16}
    {platform : HaxmPlatform × Process HaxRequest}
    (hplatform : HaxmPlatform.construct kernel release unset unset' p = some platform)
    (rounds : ℕ) {calls : List (PlatformCall VMSpecifications HaxCall)}
    {results : List PlatformResult} {state : Platform HaxmVirtualMachine × Process HaxRequest}
    (hrun : runSome (Platform.exec (HaxmVirtualMachine.impl kernel platform.1 rounds))
      (.initial, platform.2) calls = some (results, state)) :
    ∀ it ∈ state.1.m_vms, Created it.2 := by
  have haccounts := HaxmVirtualMachine.accounts kernel platform.1 rounds others
  refine haccounts.run_forall ?_ ?_ (holds_construct h hplatform) (fun it hit => ?_) hrun
  · intro p a specifications vm p' hholds hcreate
    refine created_createVMImpl hholds ?_ hcreate
    exact (held_subset_cases (List.Subset.refl _) others).imp_right (List.mem_append_right _)
  · intro vm call p hvm
    cases call with
    | onVM request => exact hvm
    | onVP index request =>
      simp only [HaxmVirtualMachine.impl, HaxmVirtualMachine.call]
      cases vm.m_vps[index]? with
      | none => exact hvm
      | some vp => exact hvm
  · cases hit

/-- The machine of two processors. -/
theorem haxmMachines_created_accepting :
    ∃ platform, HaxmPlatform.construct acceptingDriver [0x35] 0 0 ⟨[2, 1, 0], false, []⟩ =
        some platform ∧
      ∃ results state,
        runSome (Platform.exec (HaxmVirtualMachine.impl acceptingDriver platform.1 (2 ^ 32)))
          (.initial, platform.2) [.createVM ⟨2, 0, [], 0, []⟩] = some (results, state) ∧
        ∀ it ∈ state.1.m_vms, Created it.2 := by
  have h : Holds (⟨[2, 1, 0], false, []⟩ : Process HaxRequest) [2, 1, 0] :=
    ⟨rfl, by decide, by decide, List.Perm.refl _⟩
  obtain ⟨platform, hplatform⟩ := Option.isSome_iff_exists.mp construct_acceptingDriver
  have hbounded : ∀ specifications : VMSpecifications,
      PlatformCall.createVM specifications ∈ ([.createVM ⟨2, 0, [], 0, []⟩] :
        List (PlatformCall VMSpecifications HaxCall)) →
      specifications.numProcessors.toNat ≤ 100 := by
    intro specifications hmem
    simp only [List.mem_cons, PlatformCall.createVM.injEq, List.not_mem_nil, or_false] at hmem
    subst hmem
    decide
  have hreturns := run_isSome twoDigits_acceptingDriver platform.1 hbounded (.initial, platform.2)
  obtain ⟨⟨results, state⟩, hrun⟩ := Option.isSome_iff_exists.mp hreturns
  exact ⟨platform, hplatform, results, state, hrun, haxmMachines_created h hplatform _ hrun⟩

end Rules

end HaxmLifetimes

end Virt86
