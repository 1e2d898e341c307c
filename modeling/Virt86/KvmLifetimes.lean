import Virt86.KvmPlatforms

/-!
# Descriptors of KVM

A machine has a descriptor from the platform's, and each of its processors has one from the
machine's. Whatever the kernel answers, each is closed once, by the branch of a call that fails or
by a destructor, and no call is made on one after it.
-/

namespace Virt86

namespace KvmLifetimes

open FileTables Kvm

structure KvmVMSpecifications extends VMSpecifications where
  identityMapPageAddress : U32
  deriving DecidableEq, Repr

/-! ## Processors -/

structure KvmVirtualProcessor where
  m_vcpuID : U32
  m_fd : ℤ
  m_kvmRun : U64
  m_kvmRunMmapSize : ℤ
  deriving DecidableEq, Repr

/-- The address that `mmap` returns when it fails. -/
def MAP_FAILED : U64 := -1

/-- What `mmap` returns. -/
def mmapAddress (answer : Answer KvmData) : U64 :=
  if answer.result < 0 then MAP_FAILED else answer.data.address

namespace KvmVirtualProcessor

def construct (vcpuID : U32) : KvmVirtualProcessor := ⟨vcpuID, -1, 0, 0⟩

/-- `Initialize`, with the descriptors of the machine and of the platform. -/
def initializeVP (kernel : KvmModule) (features : KvmFeatures)
    (specifications : KvmVMSpecifications) (fdVM fdKVM : ℤ) (vp : KvmVirtualProcessor)
    (p : Process KvmRequest) : Bool × KvmVirtualProcessor × Process KvmRequest :=
  let created := p.requestFile kernel fdVM (.KVM_CREATE_VCPU vp.m_vcpuID)
  let vp := { vp with m_fd := created.1 }
  if vp.m_fd < 0 then (false, vp, created.2) else
  let mmapSize := created.2.request kernel fdKVM .KVM_GET_VCPU_MMAP_SIZE
  let vp := { vp with m_kvmRunMmapSize := mmapSize.1.result }
  if vp.m_kvmRunMmapSize < 0 then
    (false, { vp with m_fd := -1 }, mmapSize.2.close vp.m_fd)
  else
  let mapped := mmapSize.2.request kernel vp.m_fd (.mmap vp.m_kvmRunMmapSize)
  let vp := { vp with m_kvmRun := mmapAddress mapped.1 }
  -- no address is below the null pointer
  if vp.m_kvmRun < 0 then (false, { vp with m_fd := -1 }, mapped.2.close vp.m_fd) else
  if features.customCPUIDs then
    let cpuid := initializeCpuids specifications.CPUIDResults features.supportedCustomCPUIDs
    let set := mapped.2.request kernel vp.m_fd (.KVM_SET_CPUID2 cpuid)
    if set.1.result < 0 then (false, { vp with m_fd := -1 }, set.2.close vp.m_fd)
    else (true, vp, set.2)
  else (true, vp, mapped.2)

def destroy (vp : KvmVirtualProcessor) (p : Process KvmRequest) : Process KvmRequest :=
  p.release vp.m_fd

variable {kernel : KvmModule} {p : Process KvmRequest} {owned : List ℤ}

/-- Either way the processor owns its descriptor, if it has one. -/
theorem holds_initializeVP (h : Holds p owned) (kernel : KvmModule) (features : KvmFeatures)
    (specifications : KvmVMSpecifications) {fdVM fdKVM : ℤ} (hfdVM : fdVM = -1 ∨ fdVM ∈ owned)
    (hfdKVM : fdKVM = -1 ∨ fdKVM ∈ owned) (vp : KvmVirtualProcessor) :
    Holds (vp.initializeVP kernel features specifications fdVM fdKVM p).2.2
      (held (vp.initializeVP kernel features specifications fdVM fdKVM p).2.1.m_fd ++ owned) := by
  have hcreated := h.requestFile kernel hfdVM (.KVM_CREATE_VCPU vp.m_vcpuID)
  unfold initializeVP
  dsimp only
  generalize p.requestFile kernel fdVM (.KVM_CREATE_VCPU vp.m_vcpuID) = created at hcreated ⊢
  by_cases hfailed : created.1 < 0
  · rw [if_pos hfailed]
    exact hcreated
  rw [if_neg hfailed]
  have hfd : fdKVM = -1 ∨ fdKVM ∈ held created.1 ++ owned :=
    hfdKVM.imp_right (List.mem_append_right _)
  have hmmapSize := hcreated.request kernel hfd .KVM_GET_VCPU_MMAP_SIZE
  have hheld : held created.1 = [created.1] := held_of_ne (by omega)
  rw [hheld] at hmmapSize
  generalize created.2.request kernel fdKVM .KVM_GET_VCPU_MMAP_SIZE = mmapSize at hmmapSize ⊢
  have hmem : created.1 = -1 ∨ created.1 ∈ [created.1] ++ owned := .inr List.mem_cons_self
  split_ifs
  · exact hmmapSize.close
  · exact (hmmapSize.request kernel hmem _).close
  · exact ((hmmapSize.request kernel hmem _).request kernel hmem _).close
  · rw [hheld]
    exact (hmmapSize.request kernel hmem _).request kernel hmem _
  · rw [hheld]
    exact hmmapSize.request kernel hmem _

theorem holds_destroy {vp : KvmVirtualProcessor} (h : Holds p (held vp.m_fd ++ owned)) :
    Holds (vp.destroy p) owned :=
  h.release

end KvmVirtualProcessor

/-! ## Machines -/

structure KvmVirtualMachine where
  m_fd : ℤ
  m_vps : List KvmVirtualProcessor
  deriving DecidableEq, Repr

/-- The calls that the other functions of a machine and its processors make. -/
inductive KvmCall where
  | onVM (request : KvmRequest)
  | onVP (index : ℕ) (request : KvmRequest)
  deriving DecidableEq, Repr

namespace KvmVirtualMachine

/-- The descriptors of a machine. -/
def descriptors (vm : KvmVirtualMachine) : List ℤ :=
  (vm.m_vps.map KvmVirtualProcessor.m_fd).flatMap held ++ held vm.m_fd

variable (kernel : KvmModule) (platform : KvmPlatform)

/-- The loop over the processors, for a number of rounds. Its variable has 32 bits and the number of
processors 64. -/
def createVPs (specifications : KvmVMSpecifications) :
    ℕ → U32 → KvmVirtualMachine → Process KvmRequest →
      Option (Bool × KvmVirtualMachine × Process KvmRequest)
  | 0, _, _, _ => none
  | rounds + 1, id, vm, p =>
    if id.setWidth 64 < specifications.numProcessors then
      let vp := (KvmVirtualProcessor.construct id).initializeVP kernel platform.m_features
        specifications vm.m_fd platform.m_fd p
      -- the processor that fails has not been registered
      if !vp.1 then some (false, vm, vp.2.1.destroy vp.2.2)
      else createVPs specifications rounds (id + 1) { vm with m_vps := vm.m_vps ++ [vp.2.1] } vp.2.2
    else some (true, vm, p)

def initializeVM (rounds : ℕ) (specifications : KvmVMSpecifications) (p : Process KvmRequest) :
    Option (Bool × KvmVirtualMachine × Process KvmRequest) :=
  let created := p.requestFile kernel platform.m_fd .KVM_CREATE_VM
  let vm : KvmVirtualMachine := ⟨created.1, []⟩
  if vm.m_fd < 0 then some (false, vm, created.2) else
  let identityMapAddr := specifications.identityMapPageAddress.setWidth 64
  let identityMap :=
    created.2.request kernel vm.m_fd (.KVM_SET_IDENTITY_MAP_ADDR identityMapAddr)
  if identityMap.1.result < 0 then
    some (false, { vm with m_fd := -1 }, identityMap.2.close vm.m_fd)
  else createVPs kernel platform specifications rounds 0 vm identityMap.2

/-- The destructor, with `DestroyVPs`. -/
def destroy (vm : KvmVirtualMachine) (p : Process KvmRequest) : Process KvmRequest :=
  (vm.m_vps.foldl (fun p vp => vp.destroy p) p).release vm.m_fd

def createVMImpl (rounds : ℕ) (specifications : KvmVMSpecifications) (p : Process KvmRequest) :
    Option (Option KvmVirtualMachine × Process KvmRequest) :=
  (initializeVM kernel platform rounds specifications p).map fun r =>
    if r.1 then (some r.2.1, r.2.2) else (none, r.2.1.destroy r.2.2)

def call (call : KvmCall) (vm : KvmVirtualMachine) (p : Process KvmRequest) :
    KvmVirtualMachine × Process KvmRequest :=
  match call with
  | .onVM request => (vm, (p.request kernel vm.m_fd request).2)
  | .onVP index request =>
    match vm.m_vps[index]? with
    | some vp => (vm, (p.request kernel vp.m_fd request).2)
    | none => (vm, p)

/-- What KVM implements for a platform. -/
def impl (rounds : ℕ) :
    PlatformImpl KvmVirtualMachine (Process KvmRequest) KvmVMSpecifications KvmCall :=
  ⟨createVMImpl kernel platform rounds, call kernel, destroy⟩

variable {kernel platform} {vm : KvmVirtualMachine} {p : Process KvmRequest} {owned : List ℤ}

theorem holds_createVPs (h : Holds p (vm.descriptors ++ owned))
    (hfd : platform.m_fd = -1 ∨ platform.m_fd ∈ owned) {specifications : KvmVMSpecifications}
    {rounds : ℕ} {id : U32} {r : Bool × KvmVirtualMachine × Process KvmRequest}
    (hr : createVPs kernel platform specifications rounds id vm p = some r) :
    Holds r.2.2 (r.2.1.descriptors ++ owned) := by
  induction rounds generalizing id vm p with
  | zero => cases hr
  | succ rounds ih =>
    have hfdVM : vm.m_fd = -1 ∨ vm.m_fd ∈ vm.descriptors ++ owned :=
      held_subset_cases (List.subset_append_right _ _) owned
    have hvp := KvmVirtualProcessor.holds_initializeVP h kernel platform.m_features specifications
      hfdVM (hfd.imp_right (List.mem_append_right _)) (.construct id)
    simp only [createVPs] at hr
    split_ifs at hr with hmore hfailed
    · obtain rfl := Option.some.inj hr
      exact KvmVirtualProcessor.holds_destroy hvp
    · refine ih (hvp.of_perm ?_) hr
      simp only [descriptors, List.map_append, List.map_cons, List.map_nil, List.flatMap_append,
        List.flatMap_cons, List.flatMap_nil, List.append_nil, List.append_assoc]
      exact List.perm_append_comm_assoc _ _ _
    · obtain rfl := Option.some.inj hr
      exact h

/-- The loop is over after as many rounds as there are processors, and one more. -/
theorem createVPs_isSome {specifications : KvmVMSpecifications}
    (hbound : specifications.numProcessors.toNat < 2 ^ 32) {rounds : ℕ} {id : U32}
    (hrounds : specifications.numProcessors.toNat - id.toNat < rounds) (vm : KvmVirtualMachine)
    (p : Process KvmRequest) :
    (createVPs kernel platform specifications rounds id vm p).isSome = true := by
  induction rounds generalizing id vm p with
  | zero => omega
  | succ rounds ih =>
    simp only [createVPs]
    split_ifs with hmore
    · rfl
    · rw [BitVec.lt_def, BitVec.toNat_setWidth] at hmore
      refine ih ?_ _ _
      rw [BitVec.toNat_add]
      change specifications.numProcessors.toNat - (id.toNat + 1) % 2 ^ 32 < rounds
      omega
    · rfl

theorem createVMImpl_isSome {specifications : KvmVMSpecifications}
    (hbound : specifications.numProcessors.toNat < 2 ^ 32) (p : Process KvmRequest) :
    (createVMImpl kernel platform (2 ^ 32) specifications p).isSome = true := by
  rw [createVMImpl, Option.isSome_map, initializeVM]
  dsimp only
  split_ifs
  · rfl
  · rfl
  · exact createVPs_isSome hbound (by omega) _ _

theorem holds_initializeVM (h : Holds p owned) (hfd : platform.m_fd = -1 ∨ platform.m_fd ∈ owned)
    {rounds : ℕ} {specifications : KvmVMSpecifications}
    {r : Bool × KvmVirtualMachine × Process KvmRequest}
    (hr : initializeVM kernel platform rounds specifications p = some r) :
    Holds r.2.2 (r.2.1.descriptors ++ owned) := by
  have hcreated := h.requestFile kernel hfd .KVM_CREATE_VM
  simp only [initializeVM] at hr
  generalize p.requestFile kernel platform.m_fd .KVM_CREATE_VM = created at hcreated hr
  split_ifs at hr with hfailed hidentity
  · obtain rfl := Option.some.inj hr
    exact hcreated
  · obtain rfl := Option.some.inj hr
    rw [held_of_ne (show created.1 ≠ -1 by omega)] at hcreated
    exact (hcreated.request kernel (.inr List.mem_cons_self) _).close
  · refine holds_createVPs ?_ hfd hr
    have hheld : held created.1 = [created.1] := held_of_ne (by omega)
    have hvm : (KvmVirtualMachine.mk created.1 []).descriptors = [created.1] := hheld
    rw [hheld] at hcreated
    rw [hvm]
    exact hcreated.request kernel (.inr List.mem_cons_self) _

theorem holds_destroy (h : Holds p (vm.descriptors ++ owned)) : Holds (vm.destroy p) owned := by
  have hfold : vm.m_vps.foldl (fun p vp => vp.destroy p) p =
      (vm.m_vps.map KvmVirtualProcessor.m_fd).foldl Process.release p := by
    rw [List.foldl_map]
    rfl
  rw [descriptors, List.append_assoc] at h
  rw [destroy, hfold]
  exact h.releases.release

theorem holds_call (h : Holds p (vm.descriptors ++ owned)) (c : KvmCall) :
    Holds (call kernel c vm p).2 ((call kernel c vm p).1.descriptors ++ owned) := by
  cases c with
  | onVM request =>
    exact h.request kernel (held_subset_cases (List.subset_append_right _ _) owned) request
  | onVP index request =>
    cases hvp : vm.m_vps[index]? with
    | none =>
      simp only [call, hvp]
      exact h
    | some vp =>
      simp only [call, hvp]
      refine h.request kernel (held_subset_cases (fun fd hfd => ?_) owned) request
      rw [descriptors, List.mem_append, List.mem_flatMap]
      exact .inl ⟨vp.m_fd, List.mem_map_of_mem (List.mem_of_getElem? hvp), hfd⟩

/-- KVM keeps account of the descriptors of its machines, next to that of the platform. -/
theorem accounts (kernel : KvmModule) (platform : KvmPlatform) (rounds : ℕ) (others : List ℤ) :
    Accounts (impl kernel platform rounds) Holds descriptors (held platform.m_fd ++ others) where
  of_perm h hperm := h.of_perm hperm
  create := by
    intro p a specifications r p' h hcreate
    have hfd : platform.m_fd = -1 ∨ platform.m_fd ∈ a ++ (held platform.m_fd ++ others) :=
      (held_subset_cases (List.Subset.refl _) others).imp_right (List.mem_append_right _)
    simp only [impl, createVMImpl, Option.map_eq_some_iff] at hcreate
    obtain ⟨created, hcreated, heq⟩ := hcreate
    have hholds := holds_initializeVM h hfd hcreated
    split_ifs at heq with hok
    · obtain ⟨rfl, rfl⟩ := Prod.mk.inj heq
      exact hholds
    · obtain ⟨rfl, rfl⟩ := Prod.mk.inj heq
      exact holds_destroy hholds
  call c h := holds_call h c
  destroy h := holds_destroy h

end KvmVirtualMachine

/-! ## Platforms -/

/-- The destructor of the platform. -/
def destroyPlatform (kernel : KvmModule) (rounds : ℕ) (platform : KvmPlatform)
    (state : Platform KvmVirtualMachine × Process KvmRequest) : Process KvmRequest :=
  (state.1.destroyVMs (KvmVirtualMachine.impl kernel platform rounds) state.2).2.release
    platform.m_fd

section Lifetimes

variable {kernel : KvmModule} {p p' : Process KvmRequest} {others : List ℤ}

theorem holds_getSupportedCpuid (h : Holds p others) {m_fd : ℤ} (hfd : m_fd = -1 ∨ m_fd ∈ others)
    {attempts : ℕ} {count : U32} {r : Option KvmCpuid2 × Process KvmRequest}
    (hr : KvmPlatform.getSupportedCpuid kernel m_fd attempts count p = some r) :
    Holds r.2 others := by
  induction attempts generalizing count p with
  | zero => cases hr
  | succ attempts ih =>
    have hasked := h.request kernel hfd (.KVM_GET_SUPPORTED_CPUID count)
    simp only [KvmPlatform.getSupportedCpuid] at hr
    split_ifs at hr
    · exact ih hasked hr
    · exact ih hasked hr
    · obtain rfl := Option.some.inj hr
      exact hasked
    · obtain rfl := Option.some.inj hr
      exact hasked

theorem holds_publish (kernel : KvmModule) (h : Holds p others) {m_fd : ℤ}
    (hfd : m_fd = -1 ∨ m_fd ∈ others) :
    Holds (KvmPlatform.publish kernel m_fd p).2 others := by
  have hcounts := (h.request kernel hfd (.KVM_CHECK_EXTENSION .KVM_CAP_NR_VCPUS)).request kernel hfd
    (.KVM_CHECK_EXTENSION .KVM_CAP_MAX_VCPUS)
  simp only [KvmPlatform.publish]
  split_ifs
  · exact ((hcounts.request kernel hfd _).request kernel hfd _).request kernel hfd _
  · exact (hcounts.request kernel hfd _).request kernel hfd _

/-- Whether it succeeds or not, the constructor leaves the platform with its own descriptor. -/
theorem holds_construct (h : Holds p others) {attempts : ℕ}
    {r : KvmPlatform × Process KvmRequest}
    (hr : KvmPlatform.construct kernel attempts p = some r) :
    Holds r.2 (held r.1.m_fd ++ others) := by
  have hopened := h.openPath kernel "/dev/kvm"
  simp only [KvmPlatform.construct] at hr
  generalize p.openPath kernel "/dev/kvm" = device at hopened hr
  by_cases hfailed : device.1 < 0
  · rw [if_pos hfailed] at hr
    obtain rfl := Option.some.inj hr
    exact hopened
  rw [if_neg hfailed] at hr
  have hfd : device.1 = -1 ∨ device.1 ∈ held device.1 ++ others := by
    rw [held_of_ne (show device.1 ≠ -1 by omega)]
    exact .inr List.mem_cons_self
  have hversion := hopened.request kernel hfd .KVM_GET_API_VERSION
  generalize device.2.request kernel device.1 .KVM_GET_API_VERSION = version at hversion hr
  have hmemory := hversion.request kernel hfd (.KVM_CHECK_EXTENSION .KVM_CAP_USER_MEMORY)
  generalize version.2.request kernel device.1 (.KVM_CHECK_EXTENSION .KVM_CAP_USER_MEMORY) =
    userMemory at hmemory hr
  have hidentity :=
    hmemory.request kernel hfd (.KVM_CHECK_EXTENSION .KVM_CAP_SET_IDENTITY_MAP_ADDR)
  generalize userMemory.2.request kernel device.1
    (.KVM_CHECK_EXTENSION .KVM_CAP_SET_IDENTITY_MAP_ADDR) = identityMap at hidentity hr
  have hpublished := holds_publish kernel hidentity hfd
  generalize KvmPlatform.publish kernel device.1 identityMap.2 = features at hpublished hr
  split_ifs at hr
  · obtain rfl := Option.some.inj hr
    exact hversion
  · obtain rfl := Option.some.inj hr
    exact hmemory
  · obtain rfl := Option.some.inj hr
    exact hidentity
  · rw [Option.map_eq_some_iff] at hr
    obtain ⟨⟨found, p'⟩, hfound, rfl⟩ := hr
    have hlast := holds_getSupportedCpuid hpublished hfd hfound
    cases found with
    | none => exact hlast
    | some cpuid2 => exact hlast
  · obtain rfl := Option.some.inj hr
    exact hpublished

/-- Every call of the platform returns when no machine has 2^32 processors. -/
theorem run_isSome (kernel : KvmModule) (platform : KvmPlatform)
    {calls : List (PlatformCall KvmVMSpecifications KvmCall)}
    (hbounded : ∀ specifications, .createVM specifications ∈ calls →
      specifications.numProcessors.toNat < 2 ^ 32)
    (state : Platform KvmVirtualMachine × Process KvmRequest) :
    (runSome (Platform.exec (KvmVirtualMachine.impl kernel platform (2 ^ 32))) state
      calls).isSome = true := by
  refine Platform.run_isSome (fun specifications hmem p => ?_) state
  exact KvmVirtualMachine.createVMImpl_isSome (hbounded specifications hmem) p

/-- A kernel that refuses the second processor of a machine. -/
def refusingSecond : KvmModule :=
  .ofCall (fun
    | .request _ .KVM_GET_API_VERSION => ⟨12, ⟨.other, ⟨0, []⟩, 0⟩⟩
    | .request _ (.KVM_CHECK_EXTENSION .KVM_CAP_EXT_CPUID) => ⟨0, ⟨.other, ⟨0, []⟩, 0⟩⟩
    | .request _ (.KVM_CREATE_VCPU vcpuID) => ⟨if vcpuID = 1 then -1 else 0, ⟨.other, ⟨0, []⟩, 0⟩⟩
    | _ => ⟨1, ⟨.other, ⟨0, []⟩, 0⟩⟩) ⟨-1, ⟨.other, ⟨0, []⟩, 0⟩⟩

end Lifetimes

end KvmLifetimes

end Virt86
