import Virt86.MemoryRegions
import Virt86.Simulations

/-!
# The memory slots of a KVM virtual machine

`KvmVirtualMachine` keeps a vector of the slots it has handed to the kernel beside the vector of
regions its base class keeps. Mapping adds a slot before the kernel is asked and searches for it
again when the kernel refuses. The class does not override `UnmapGuestMemoryImpl`.
-/

namespace Virt86

inductive DirtyPageTrackingStatus where
  | OK | Unsupported | MisalignedAddress | MisalignedSize | MisalignedBitmap | EmptyRange
  | BitmapTooSmall | NotEnabled | InvalidRange | Failed
  deriving DecidableEq, Repr

namespace MemoryFlags

def Write : MemoryFlags := 1 <<< 1
def DirtyPageTracking : MemoryFlags := 1 <<< 3

def anyOf (value mask : MemoryFlags) : Bool := value &&& mask != 0
def noneOf (value mask : MemoryFlags) : Bool := value &&& mask == 0

end MemoryFlags

def KVM_MEM_LOG_DIRTY_PAGES : U32 := 1 <<< 0
def KVM_MEM_READONLY : U32 := 1 <<< 1

/-- `kvm_userspace_memory_region` -/
structure KvmMemoryRegion where
  slot : U32
  flags : U32
  guestPhysAddr : U64
  memorySize : U64
  userspaceAddr : U64
  deriving DecidableEq, Repr

namespace KvmMemoryRegion

def regionEquals (rgn : KvmMemoryRegion) (baseAddress size : U64) : Bool :=
  rgn.guestPhysAddr == baseAddress && rgn.memorySize == size

/-- The region of the base class that a slot backs. -/
def region (rgn : KvmMemoryRegion) : MemoryRegion :=
  ⟨rgn.guestPhysAddr, rgn.memorySize, rgn.userspaceAddr⟩

end KvmMemoryRegion

structure KvmVirtualMachine extends VirtualMachine where
  memSlot : U32
  kvmMemoryRegions : List KvmMemoryRegion
  deriving DecidableEq, Repr

namespace KvmVirtualMachine

/-- The constructor. -/
def create (gpa : HostGPA) (features : PlatformFeatures) : KvmVirtualMachine :=
  { gpa, features, memoryRegions := [], memSlot := 0, kvmMemoryRegions := [] }

def kvmFlags (flags : MemoryFlags) : U32 :=
  (if flags.noneOf .Write then KVM_MEM_READONLY else 0) |||
    (if flags.anyOf .DirtyPageTracking then KVM_MEM_LOG_DIRTY_PAGES else 0)

variable (kvm : KvmVirtualMachine)

/-- The slot that the next call asks the kernel for. -/
def newRegion (baseAddress size : U64) (flags : MemoryFlags) (memory : U64) : KvmMemoryRegion :=
  { slot := kvm.memSlot, flags := kvmFlags flags, guestPhysAddr := baseAddress
    memorySize := size, userspaceAddr := memory }

/-- `ioctl` is the kernel's answer to `KVM_SET_USER_MEMORY_REGION`. -/
def mapGuestMemoryImpl (ioctl : KvmMemoryRegion → Bool) (baseAddress size : U64)
    (flags : MemoryFlags) (memory : U64) : MemoryMappingStatus × KvmVirtualMachine :=
  let memoryRegion := kvm.newRegion baseAddress size flags memory
  let regions := kvm.kvmMemoryRegions ++ [memoryRegion]
  let kvm := { kvm with memSlot := kvm.memSlot + 1, kvmMemoryRegions := regions }
  if ioctl memoryRegion then (.OK, kvm)
  else
    (.Failed, { kvm with kvmMemoryRegions := regions.eraseP (·.slot == memoryRegion.slot) })

def mapGuestMemory (ioctl : KvmMemoryRegion → Bool) (baseAddress size : U64)
    (flags : MemoryFlags) (memory : U64) : MemoryMappingStatus × KvmVirtualMachine :=
  match kvm.mapRefusal baseAddress size memory with
  | some status => (status, kvm)
  | none =>
    match kvm.mapGuestMemoryImpl ioctl baseAddress size flags memory with
    | (.OK, kvm) =>
      (.OK, { kvm with memoryRegions := kvm.memoryRegions ++ [⟨baseAddress, size, memory⟩] })
    | (status, kvm) => (status, kvm)

def unmapGuestMemory (baseAddress size : U64) : MemoryMappingStatus × KvmVirtualMachine :=
  match kvm.rangeRefusal baseAddress size with
  | some status => (status, kvm)
  | none => (VirtualMachine.unmapGuestMemoryImpl baseAddress size, kvm)

/-- The first slot that covers exactly the range. -/
def findRegion (baseAddress size : U64) : Option KvmMemoryRegion :=
  kvm.kvmMemoryRegions.find? (·.regionEquals baseAddress size)

/-- Gives the flags to the first slot that covers exactly the range. -/
def storeFlags (baseAddress size : U64) (flags : U32) : List KvmMemoryRegion → List KvmMemoryRegion
  | [] => []
  | rgn :: rest =>
    if rgn.regionEquals baseAddress size then { rgn with flags := flags } :: rest
    else rgn :: storeFlags baseAddress size flags rest

/-- The code passes the kernel the address of its iterator and not of the record, so what the
kernel is asked is not determined here: `ioctl` is its answer. -/
def setGuestMemoryFlagsImpl (ioctl : Bool) (baseAddress size : U64) (flags : MemoryFlags) :
    MemoryMappingStatus × KvmVirtualMachine :=
  match kvm.findRegion baseAddress size with
  | none => (.InvalidRange, kvm)
  | some _ =>
    let regions := storeFlags baseAddress size (kvmFlags flags) kvm.kvmMemoryRegions
    let kvm := { kvm with kvmMemoryRegions := regions }
    if ioctl then (.OK, kvm) else (.Failed, kvm)

def setGuestMemoryFlags (ioctl : Bool) (baseAddress size : U64) (flags : MemoryFlags) :
    MemoryMappingStatus × KvmVirtualMachine :=
  match kvm.rangeRefusal baseAddress size with
  | some status => (status, kvm)
  | none => kvm.setGuestMemoryFlagsImpl ioctl baseAddress size flags

/-- `ioctl` is the kernel's answer to `KVM_GET_DIRTY_LOG` for a slot. -/
def queryDirtyPagesImpl (ioctl : U32 → Bool) (baseAddress size : U64) : DirtyPageTrackingStatus :=
  match kvm.findRegion baseAddress size with
  | none => .InvalidRange
  | some memoryRegion => if ioctl memoryRegion.slot then .OK else .Failed

def queryDirtyPages (ioctl : U32 → Bool) (baseAddress size bitmap bitmapSize : U64) :
    DirtyPageTrackingStatus :=
  if baseAddress &&& 0xFFF ≠ 0 then .MisalignedAddress
  else if size = 0 then .EmptyRange
  else if size &&& 0xFFF ≠ 0 then .MisalignedSize
  else if bitmap &&& 0x7 ≠ 0 then .MisalignedBitmap
  else if bitmapSize < (size / 4096 + 8 - 1) / 8 then .BitmapTooSmall
  else kvm.queryDirtyPagesImpl ioctl baseAddress size

/-- `ClearDirtyPagesImpl` queries the pages into a bitmap of its own. -/
def clearDirtyPages (ioctl : U32 → Bool) (baseAddress size : U64) : DirtyPageTrackingStatus :=
  if baseAddress &&& 0xFFF ≠ 0 then .MisalignedAddress
  else if size = 0 then .EmptyRange
  else if size &&& 0xFFF ≠ 0 then .MisalignedSize
  else kvm.queryDirtyPagesImpl ioctl baseAddress size

end KvmVirtualMachine

/-- A call about the guest's memory, with the kernel's answer. -/
inductive KvmMemoryCall where
  | map (ioctl : KvmMemoryRegion → Bool) (baseAddress size : U64) (flags : MemoryFlags)
      (memory : U64)
  | unmap (baseAddress size : U64)
  | setFlags (ioctl : Bool) (baseAddress size : U64) (flags : MemoryFlags)
  | queryDirty (ioctl : U32 → Bool) (baseAddress size bitmap bitmapSize : U64)
  | clearDirty (ioctl : U32 → Bool) (baseAddress size : U64)

namespace KvmMemoryCall

def exec (kvm : KvmVirtualMachine) :
    KvmMemoryCall → (MemoryMappingStatus ⊕ DirtyPageTrackingStatus) × KvmVirtualMachine
  | map ioctl baseAddress size flags memory =>
      (kvm.mapGuestMemory ioctl baseAddress size flags memory).map .inl id
  | unmap baseAddress size => (kvm.unmapGuestMemory baseAddress size).map .inl id
  | setFlags ioctl baseAddress size flags =>
      (kvm.setGuestMemoryFlags ioctl baseAddress size flags).map .inl id
  | queryDirty ioctl baseAddress size bitmap bitmapSize =>
      (.inr (kvm.queryDirtyPages ioctl baseAddress size bitmap bitmapSize), kvm)
  | clearDirty ioctl baseAddress size => (.inr (kvm.clearDirtyPages ioctl baseAddress size), kvm)

def isMap : KvmMemoryCall → Bool
  | map .. => true
  | _ => false

end KvmMemoryCall

namespace KvmVirtualMachine

variable {kvm : KvmVirtualMachine} {baseAddress size memory : U64} {flags : MemoryFlags}

/-! ## What the calls do -/

/-- The region list of the base class follows the base class's own `MapGuestMemory`. -/
theorem mapGuestMemory_base (kvm : KvmVirtualMachine) (ioctl : KvmMemoryRegion → Bool)
    (baseAddress size : U64) (flags : MemoryFlags) (memory : U64) :
    kvm.toVirtualMachine.mapGuestMemory
        (fun b s f m => (kvm.mapGuestMemoryImpl ioctl b s f m).1) baseAddress size flags memory =
      (kvm.mapGuestMemory ioctl baseAddress size flags memory).map id (·.toVirtualMachine) := by
  cases hrefusal : kvm.mapRefusal baseAddress size memory with
  | some status =>
    rw [VirtualMachine.mapGuestMemory_of_refusal hrefusal, mapGuestMemory, hrefusal]
    rfl
  | none =>
    rw [VirtualMachine.mapGuestMemory_of_accepted hrefusal, mapGuestMemory, hrefusal]
    simp only [mapGuestMemoryImpl]
    split_ifs <;> simp_all

theorem unmapGuestMemory_base (kvm : KvmVirtualMachine) (baseAddress size : U64) :
    kvm.toVirtualMachine.unmapGuestMemory VirtualMachine.unmapGuestMemoryImpl baseAddress size =
      some ((kvm.unmapGuestMemory baseAddress size).map id (·.toVirtualMachine)) := by
  cases hrefusal : kvm.rangeRefusal baseAddress size with
  | some status =>
    rw [VirtualMachine.unmapGuestMemory_of_refusal hrefusal, unmapGuestMemory, hrefusal]
    rfl
  | none =>
    rw [VirtualMachine.unmapGuestMemory_of_accepted hrefusal, unmapGuestMemory, hrefusal]
    rfl

theorem mapGuestMemory_cases (kvm : KvmVirtualMachine) (ioctl : KvmMemoryRegion → Bool)
    (baseAddress size : U64) (flags : MemoryFlags) (memory : U64) :
    (∃ status, kvm.mapRefusal baseAddress size memory = some status ∧ status ≠ .OK ∧
      kvm.mapGuestMemory ioctl baseAddress size flags memory = (status, kvm)) ∨
    (kvm.mapRefusal baseAddress size memory = none ∧
      ioctl (kvm.newRegion baseAddress size flags memory) = true ∧
      kvm.mapGuestMemory ioctl baseAddress size flags memory = (.OK,
        { kvm with
          memoryRegions := kvm.memoryRegions ++ [⟨baseAddress, size, memory⟩]
          memSlot := kvm.memSlot + 1
          kvmMemoryRegions :=
            kvm.kvmMemoryRegions ++ [kvm.newRegion baseAddress size flags memory] })) ∨
    (kvm.mapRefusal baseAddress size memory = none ∧
      ioctl (kvm.newRegion baseAddress size flags memory) = false ∧
      kvm.mapGuestMemory ioctl baseAddress size flags memory = (.Failed,
        { kvm with
          memSlot := kvm.memSlot + 1
          kvmMemoryRegions :=
            (kvm.kvmMemoryRegions ++ [kvm.newRegion baseAddress size flags memory]).eraseP
              (·.slot == kvm.memSlot) })) := by
  cases hrefusal : kvm.mapRefusal baseAddress size memory with
  | some status =>
    refine .inl ⟨status, rfl, VirtualMachine.mapRefusal_ne_OK hrefusal, ?_⟩
    rw [mapGuestMemory, hrefusal]
  | none =>
    cases hioctl : ioctl (kvm.newRegion baseAddress size flags memory) with
    | true =>
      refine .inr (.inl ⟨rfl, rfl, ?_⟩)
      simp only [mapGuestMemory, hrefusal, mapGuestMemoryImpl, hioctl, if_true]
    | false =>
      refine .inr (.inr ⟨rfl, rfl, ?_⟩)
      simp only [mapGuestMemory, hrefusal, mapGuestMemoryImpl, hioctl]
      rfl

theorem unmapGuestMemory_cases (kvm : KvmVirtualMachine) (baseAddress size : U64) :
    ∃ status, status ≠ .OK ∧ kvm.unmapGuestMemory baseAddress size = (status, kvm) := by
  rw [unmapGuestMemory]
  cases hrefusal : kvm.rangeRefusal baseAddress size with
  | some status => exact ⟨status, VirtualMachine.rangeRefusal_ne_OK hrefusal, rfl⟩
  | none => exact ⟨.Unsupported, by decide, rfl⟩

theorem setGuestMemoryFlags_cases (kvm : KvmVirtualMachine) (ioctl : Bool)
    (baseAddress size : U64) (flags : MemoryFlags) :
    (∃ status, status ≠ .OK ∧
      kvm.setGuestMemoryFlags ioctl baseAddress size flags = (status, kvm) ∧
      (kvm.rangeRefusal baseAddress size = none → kvm.findRegion baseAddress size = none)) ∨
    (∃ rgn, kvm.rangeRefusal baseAddress size = none ∧
      kvm.findRegion baseAddress size = some rgn ∧
      kvm.setGuestMemoryFlags ioctl baseAddress size flags = (if ioctl then .OK else .Failed,
        { kvm with
          kvmMemoryRegions :=
            storeFlags baseAddress size (kvmFlags flags) kvm.kvmMemoryRegions })) := by
  rw [setGuestMemoryFlags]
  cases hrefusal : kvm.rangeRefusal baseAddress size with
  | some status => exact .inl ⟨status, VirtualMachine.rangeRefusal_ne_OK hrefusal, rfl, by simp⟩
  | none =>
    simp only [setGuestMemoryFlagsImpl]
    cases hfind : kvm.findRegion baseAddress size with
    | none => exact .inl ⟨.InvalidRange, by decide, rfl, fun _ => rfl⟩
    | some rgn =>
      refine .inr ⟨rgn, trivial, rfl, ?_⟩
      cases ioctl <;> rfl

/-! ## The stored flags -/

section Flags

variable (baseAddress size : U64) (newFlags : U32) (rgns : List KvmMemoryRegion)

/-- Storing flags keeps everything else of every slot. -/
theorem map_storeFlags {A : Type} (f : KvmMemoryRegion → A)
    (hf : ∀ rgn, f { rgn with flags := newFlags } = f rgn) :
    (storeFlags baseAddress size newFlags rgns).map f = rgns.map f := by
  induction rgns with
  | nil => rfl
  | cons rgn rest ih =>
    rw [storeFlags]
    split_ifs
    · rw [List.map_cons, List.map_cons, hf]
    · rw [List.map_cons, List.map_cons, ih]

theorem storeFlags_eq_iff : storeFlags baseAddress size newFlags rgns = rgns ↔
    ∀ rgn, rgns.find? (·.regionEquals baseAddress size) = some rgn → rgn.flags = newFlags := by
  induction rgns with
  | nil => simp [storeFlags]
  | cons rgn rest ih =>
    rw [storeFlags]
    split_ifs with h
    · have hfind : (rgn :: rest).find? (·.regionEquals baseAddress size) = some rgn :=
        List.find?_cons_of_pos h
      rw [hfind]
      constructor
      · rintro heq _ ⟨⟩
        exact (congrArg KvmMemoryRegion.flags (List.cons.inj heq).1).symm
      · intro hflags
        rw [← hflags rgn rfl]
    · have hfind : (rgn :: rest).find? (·.regionEquals baseAddress size) =
          rest.find? (·.regionEquals baseAddress size) := List.find?_cons_of_neg h
      rw [hfind, List.cons_inj_right, ih]

end Flags

/-! ## Two lists in step -/

/-- The slots back the regions of the base class one by one. -/
structure InStep (kvm : KvmVirtualMachine) : Prop where
  regions : kvm.kvmMemoryRegions.map (·.region) = kvm.memoryRegions
  nodup : (kvm.kvmMemoryRegions.map (·.slot)).Nodup
  below : ∀ rgn ∈ kvm.kvmMemoryRegions, rgn.slot < kvm.memSlot

theorem InStep.create (gpa : HostGPA) (features : PlatformFeatures) :
    (create gpa features).InStep where
  regions := rfl
  nodup := List.nodup_nil
  below := fun _ h => absurd h List.not_mem_nil

/-- The slot that was just added is the only one with its number. -/
theorem InStep.eraseP_newRegion (h : kvm.InStep) (baseAddress size : U64) (flags : MemoryFlags)
    (memory : U64) :
    (kvm.kvmMemoryRegions ++ [kvm.newRegion baseAddress size flags memory]).eraseP
      (·.slot == kvm.memSlot) = kvm.kvmMemoryRegions := by
  have hother : ∀ rgn ∈ kvm.kvmMemoryRegions, ¬ (rgn.slot == kvm.memSlot) = true := by
    intro rgn hrgn
    have hslot := h.below rgn hrgn
    rw [beq_iff_eq]
    bv_omega
  rw [List.eraseP_append_right _ hother]
  simp [newRegion]

/-- A counter that does not wrap stays above the slots. -/
theorem InStep.below_succ (h : kvm.InStep) (hwrap : kvm.memSlot.toNat + 1 < 2 ^ 32) :
    ∀ rgn ∈ kvm.kvmMemoryRegions, rgn.slot < kvm.memSlot + 1 := by
  intro rgn hrgn
  have hslot := h.below rgn hrgn
  bv_omega

theorem InStep.mapGuestMemory (h : kvm.InStep) (hwrap : kvm.memSlot.toNat + 1 < 2 ^ 32)
    (ioctl : KvmMemoryRegion → Bool) (baseAddress size : U64) (flags : MemoryFlags)
    (memory : U64) : (kvm.mapGuestMemory ioctl baseAddress size flags memory).2.InStep := by
  obtain ⟨_, -, -, heq⟩ | ⟨-, -, heq⟩ | ⟨-, -, heq⟩ :=
    kvm.mapGuestMemory_cases ioctl baseAddress size flags memory
  · rw [heq]
    exact h
  · rw [heq]
    constructor
    · rw [List.map_append, h.regions]
      rfl
    · rw [List.map_append, List.map_singleton, List.nodup_append]
      refine ⟨h.nodup, List.pairwise_singleton _ _, ?_⟩
      intro slot hslot slot' hslot'
      obtain ⟨rgn, hrgn, rfl⟩ := List.mem_map.mp hslot
      rw [List.mem_singleton] at hslot'
      have hbelow := h.below rgn hrgn
      simp only [newRegion] at hslot'
      bv_omega
    · intro rgn hrgn
      rcases List.mem_append.mp hrgn with hrgn | hrgn
      · exact h.below_succ hwrap rgn hrgn
      · rw [List.mem_singleton] at hrgn
        simp only [hrgn, newRegion]
        bv_omega
  · rw [heq, h.eraseP_newRegion]
    exact ⟨h.regions, h.nodup, h.below_succ hwrap⟩

theorem InStep.setGuestMemoryFlags (h : kvm.InStep) (ioctl : Bool) (baseAddress size : U64)
    (flags : MemoryFlags) : (kvm.setGuestMemoryFlags ioctl baseAddress size flags).2.InStep := by
  obtain ⟨_, -, heq, -⟩ | ⟨_, -, -, heq⟩ :=
    kvm.setGuestMemoryFlags_cases ioctl baseAddress size flags
  · rw [heq]
    exact h
  · rw [heq]
    have hslots := map_storeFlags baseAddress size (kvmFlags flags) kvm.kvmMemoryRegions (·.slot)
      fun _ => rfl
    refine ⟨?_, ?_, ?_⟩
    · exact (map_storeFlags _ _ _ _ _ fun _ => rfl).trans h.regions
    · rw [hslots]
      exact h.nodup
    · intro rgn hrgn
      have hslot := List.mem_map_of_mem (f := (·.slot)) hrgn
      rw [hslots] at hslot
      obtain ⟨rgn', hrgn', heq'⟩ := List.mem_map.mp hslot
      rw [← heq']
      exact h.below rgn' hrgn'

/-- A slot found for a range backs a region of the base class with that range. -/
theorem InStep.findRegion (h : kvm.InStep) {rgn : KvmMemoryRegion}
    (hfind : kvm.findRegion baseAddress size = some rgn) :
    ⟨baseAddress, size, rgn.userspaceAddr⟩ ∈ kvm.memoryRegions := by
  have hequals := List.find?_some hfind
  simp only [KvmMemoryRegion.regionEquals, Bool.and_eq_true, beq_iff_eq] at hequals
  rw [← h.regions, ← hequals.1, ← hequals.2]
  exact List.mem_map_of_mem (List.mem_of_find?_eq_some hfind)

/-- One call: the lists stay in step, and the counter moves by the call's own slot at most. -/
theorem InStep.exec (h : kvm.InStep) (c : KvmMemoryCall)
    (hwrap : kvm.memSlot.toNat + c.isMap.toNat < 2 ^ 32) :
    (c.exec kvm).2.InStep ∧
      (c.exec kvm).2.memSlot.toNat ≤ kvm.memSlot.toNat + c.isMap.toNat := by
  cases c with
  | map ioctl baseAddress size flags memory =>
    refine ⟨h.mapGuestMemory hwrap ioctl baseAddress size flags memory, ?_⟩
    have hcases := kvm.mapGuestMemory_cases ioctl baseAddress size flags memory
    simp only [KvmMemoryCall.isMap, Bool.toNat_true] at hwrap ⊢
    simp only [KvmMemoryCall.exec, Prod.map_snd, id_eq]
    obtain ⟨_, -, -, heq⟩ | ⟨-, -, heq⟩ | ⟨-, -, heq⟩ := hcases
    all_goals rw [heq]; bv_omega
  | unmap baseAddress size =>
    obtain ⟨status, -, heq⟩ := kvm.unmapGuestMemory_cases baseAddress size
    rw [KvmMemoryCall.exec, heq]
    exact ⟨h, Nat.le_add_right _ _⟩
  | setFlags ioctl baseAddress size flags =>
    refine ⟨h.setGuestMemoryFlags ioctl baseAddress size flags, ?_⟩
    have hcases := kvm.setGuestMemoryFlags_cases ioctl baseAddress size flags
    simp only [KvmMemoryCall.exec, Prod.map_snd, id_eq]
    obtain ⟨_, -, heq, -⟩ | ⟨_, -, -, heq⟩ := hcases
    all_goals rw [heq]; exact Nat.le_add_right _ _
  | queryDirty => exact ⟨h, Nat.le_add_right _ _⟩
  | clearDirty => exact ⟨h, Nat.le_add_right _ _⟩

theorem InStep.runAll {calls : List KvmMemoryCall} (h : kvm.InStep)
    (hwrap : kvm.memSlot.toNat + calls.countP (·.isMap) < 2 ^ 32) :
    (runAll KvmMemoryCall.exec kvm calls).2.InStep := by
  induction calls generalizing kvm with
  | nil => exact h
  | cons c calls ih =>
    have hcount : (c :: calls).countP (·.isMap) = calls.countP (·.isMap) + c.isMap.toNat := by
      rw [List.countP_cons]
      cases c.isMap <;> rfl
    rw [hcount] at hwrap
    obtain ⟨hnext, hslot⟩ := h.exec c (by omega)
    exact ih hnext (by omega)

/-- After any calls of which fewer than `2 ^ 32` map memory, whatever the kernel answered, the two
lists agree element by element, and the slots are distinct and below the counter. -/
theorem runAll_inStep (gpa : HostGPA) (features : PlatformFeatures) (calls : List KvmMemoryCall)
    (hcalls : calls.countP (·.isMap) < 2 ^ 32) :
    (Virt86.runAll KvmMemoryCall.exec (create gpa features) calls).2.InStep := by
  refine (InStep.create gpa features).runAll ?_
  simpa [create] using hcalls

/-- A refused call between two granted ones. -/
theorem runAll_inStep_refused :
    let calls : List KvmMemoryCall := [.map (fun _ => true) 0x1000 0x1000 3 0x10000,
      .map (fun _ => false) 0x2000 0x1000 3 0x20000, .map (fun _ => true) 0x3000 0x1000 3 0x30000]
    calls.countP (·.isMap) < 2 ^ 32 ∧
      (Virt86.runAll KvmMemoryCall.exec (create ⟨36⟩ ⟨false, false⟩) calls).2.InStep :=
  ⟨by decide, runAll_inStep ⟨36⟩ ⟨false, false⟩ _ (by decide)⟩

/-! ## Failed calls -/

/-- A call that does not return `OK` leaves the machine as it was. -/
def FailsUnchanged (kvm : KvmVirtualMachine) (c : KvmMemoryCall) : Prop :=
  (c.exec kvm).1 ≠ .inl .OK → (c.exec kvm).2 = kvm

/-- The kernel grants the slot that a mapping has got past the checks for. The flags it refuses for
a slot are those the slot has. -/
def Harmless (kvm : KvmVirtualMachine) : KvmMemoryCall → Prop
  | .map ioctl baseAddress size flags memory => kvm.mapRefusal baseAddress size memory = none →
      ioctl (kvm.newRegion baseAddress size flags memory) = true
  | .setFlags ioctl baseAddress size flags => kvm.rangeRefusal baseAddress size = none →
      ioctl = false → ∀ rgn, kvm.findRegion baseAddress size = some rgn → rgn.flags = kvmFlags flags
  | _ => True

/-- The counter shows a refused mapping even if the lists do not. -/
theorem failsUnchanged_map_iff (kvm : KvmVirtualMachine) (ioctl : KvmMemoryRegion → Bool)
    (baseAddress size : U64) (flags : MemoryFlags) (memory : U64) :
    kvm.FailsUnchanged (.map ioctl baseAddress size flags memory) ↔
      kvm.Harmless (.map ioctl baseAddress size flags memory) := by
  simp only [FailsUnchanged, Harmless, KvmMemoryCall.exec, Prod.map_fst, Prod.map_snd, id_eq]
  obtain ⟨_, hrefusal, -, heq⟩ | ⟨-, hioctl, heq⟩ | ⟨hrefusal, hioctl, heq⟩ :=
    kvm.mapGuestMemory_cases ioctl baseAddress size flags memory
  · simp [heq, hrefusal]
  · simp [heq, hioctl]
  · simp only [heq, hrefusal, hioctl]
    refine iff_of_false ?_ (by simp)
    intro hunchanged
    have hslot := congrArg KvmVirtualMachine.memSlot (hunchanged (by simp))
    simp at hslot

theorem failsUnchanged_setFlags_iff (kvm : KvmVirtualMachine) (ioctl : Bool)
    (baseAddress size : U64) (flags : MemoryFlags) :
    kvm.FailsUnchanged (.setFlags ioctl baseAddress size flags) ↔
      kvm.Harmless (.setFlags ioctl baseAddress size flags) := by
  simp only [FailsUnchanged, Harmless, KvmMemoryCall.exec, Prod.map_fst, Prod.map_snd, id_eq]
  obtain ⟨_, -, heq, hfind⟩ | ⟨rgn, hrefusal, hfind, heq⟩ :=
    kvm.setGuestMemoryFlags_cases ioctl baseAddress size flags
  · simp only [heq, implies_true, true_iff]
    intro hrefusal _ rgn hrgn
    rw [hfind hrefusal] at hrgn
    cases hrgn
  · cases ioctl with
    | true => simp [heq]
    | false =>
      have hstore := storeFlags_eq_iff baseAddress size (kvmFlags flags) kvm.kvmMemoryRegions
      rw [← findRegion, hfind] at hstore
      simp only [heq, hrefusal, hfind, ← hstore]
      constructor
      · intro hunchanged _ _
        exact congrArg kvmMemoryRegions (hunchanged (by simp))
      · intro hflags _
        rw [hflags trivial trivial]

theorem failsUnchanged_iff (kvm : KvmVirtualMachine) (c : KvmMemoryCall) :
    kvm.FailsUnchanged c ↔ kvm.Harmless c := by
  cases c with
  | map ioctl baseAddress size flags memory => exact kvm.failsUnchanged_map_iff ..
  | unmap baseAddress size =>
    obtain ⟨status, -, heq⟩ := kvm.unmapGuestMemory_cases baseAddress size
    simp [FailsUnchanged, Harmless, KvmMemoryCall.exec, heq]
  | setFlags ioctl baseAddress size flags => exact kvm.failsUnchanged_setFlags_iff ..
  | queryDirty => exact iff_of_true (fun _ => rfl) trivial
  | clearDirty => exact iff_of_true (fun _ => rfl) trivial

/-- Failed calls of which none leaves a trace leave none together. -/
theorem runAll_failed {calls : List KvmMemoryCall}
    (hunchanged : Along KvmMemoryCall.exec FailsUnchanged kvm calls)
    (hfailed : ∀ r ∈ (Virt86.runAll KvmMemoryCall.exec kvm calls).1, r ≠ .inl .OK) :
    (Virt86.runAll KvmMemoryCall.exec kvm calls).2 = kvm := by
  induction calls generalizing kvm with
  | nil => rfl
  | cons c calls ih =>
    rw [Virt86.runAll, List.forall_mem_cons] at hfailed
    have hnext := hunchanged.1 hfailed.1
    have hrest := ih hunchanged.2 hfailed.2
    rw [Virt86.runAll, hrest, hnext]

/-- The calls of a run that fail leave the machine as it was if and only if the kernel refuses no
slot and no change of flags. Any number of failed calls then leaves no trace. -/
theorem failsUnchanged_along (kvm : KvmVirtualMachine) (calls : List KvmMemoryCall) :
    (Along KvmMemoryCall.exec FailsUnchanged kvm calls ↔
      Along KvmMemoryCall.exec Harmless kvm calls) ∧
    (Along KvmMemoryCall.exec Harmless kvm calls →
      (∀ r ∈ (Virt86.runAll KvmMemoryCall.exec kvm calls).1, r ≠ .inl .OK) →
      (Virt86.runAll KvmMemoryCall.exec kvm calls).2 = kvm) := by
  have hiff : Along KvmMemoryCall.exec FailsUnchanged kvm calls ↔
      Along KvmMemoryCall.exec Harmless kvm calls := along_congr failsUnchanged_iff
  exact ⟨hiff, fun hharmless => runAll_failed (hiff.mpr hharmless)⟩

/-- The kernel refuses a slot and later the flags of another: a slot number is used up, and the
record says that the guest may not write. -/
theorem failsUnchanged_refused :
    let calls : List KvmMemoryCall := [.map (fun _ => false) 0x1000 0x1000 3 0x10000,
      .map (fun _ => true) 0x2000 0x1000 3 0x20000, .setFlags false 0x2000 0x1000 1]
    let kvm := create ⟨36⟩ ⟨false, false⟩
    (Virt86.runAll KvmMemoryCall.exec kvm (calls.take 1)) =
      ([.inl .Failed], { kvm with memSlot := 1 }) ∧
    (Virt86.runAll KvmMemoryCall.exec kvm calls) = ([.inl .Failed, .inl .OK, .inl .Failed],
      { kvm with
        memoryRegions := [⟨0x2000, 0x1000, 0x20000⟩]
        memSlot := 2
        kvmMemoryRegions := [⟨1, KVM_MEM_READONLY, 0x2000, 0x1000, 0x20000⟩] }) ∧
    ¬ Along KvmMemoryCall.exec FailsUnchanged kvm (calls.take 1) := by
  refine ⟨by decide, by decide, fun halong => ?_⟩
  have hslot := congrArg memSlot (halong.1 (by decide))
  revert hslot
  decide

end KvmVirtualMachine

end Virt86
