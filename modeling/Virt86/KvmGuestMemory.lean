import Virt86.GuestMemory

/-!
# The guest's memory on KVM

The kernel keeps the slots it granted. A request for a slot it has replaces that slot, so that the
numbers of the slots must not repeat. `SetGuestMemoryFlags` passes the kernel something else than a
slot, and the memory after it is not determined here.
-/

namespace Virt86

open RightsMaps

namespace KvmVirtualMachine

/-- The kernel's slots after it granted a request. -/
def setUserMemoryRegion (slots : List KvmMemoryRegion) (rgn : KvmMemoryRegion) :
    List KvmMemoryRegion :=
  slots.filter (·.slot != rgn.slot) ++ [rgn]

/-- What the guest sees of a slot. -/
def slotTranslate (rgn : KvmMemoryRegion) (a : U64) : Option (U64 × U32) :=
  (rgn.region.translate a).map fun host => (host, rgn.flags)

/-- What the guest sees of the kernel's slots. -/
def slotsMemory (slots : List KvmMemoryRegion) : U64 → Option (U64 × U32) :=
  LayeredMaps.lookup slotTranslate slots

end KvmVirtualMachine

/-- A call about the guest's memory, with the kernel's answer. -/
structure KvmGuestCall where
  call : GuestMemoryCall
  ioctl : KvmMemoryRegion → Bool

namespace KvmGuestCall

open KvmVirtualMachine

/-- The virtual machine and the kernel's slots after a call. -/
def exec (s : KvmVirtualMachine × List KvmMemoryRegion) (o : KvmGuestCall) :
    Option (MemoryMappingStatus × KvmVirtualMachine × List KvmMemoryRegion) :=
  match o.call with
  | .map baseAddress size flags memory =>
    let result := s.1.mapGuestMemory o.ioctl baseAddress size flags memory
    let memoryRegion := s.1.newRegion baseAddress size flags memory
    some (result.1, result.2, if s.1.mapRefusal baseAddress size memory = none ∧
        o.ioctl memoryRegion = true then setUserMemoryRegion s.2 memoryRegion else s.2)
  | .unmap baseAddress size =>
    let result := s.1.unmapGuestMemory baseAddress size
    some (result.1, result.2, s.2)
  | .setFlags .. => none

/-- A call that maps or unmaps a range that ends within the address space. -/
def Orderly (o : KvmGuestCall) : Prop :=
  match o.call with
  | .map baseAddress size _ _ => RangeFits baseAddress size
  | .unmap .. => True
  | .setFlags .. => False

end KvmGuestCall

namespace KvmVirtualMachine

variable {kvm : KvmVirtualMachine} {slots : List KvmMemoryRegion}

/-- A slot with a new number comes beside the others. -/
theorem setUserMemoryRegion_of_new {rgn : KvmMemoryRegion}
    (h : ∀ other ∈ slots, other.slot < rgn.slot) :
    setUserMemoryRegion slots rgn = slots ++ [rgn] := by
  rw [setUserMemoryRegion, List.filter_eq_self.mpr]
  intro other hother
  have hslot := h other hother
  simp only [bne_iff_ne, ne_eq]
  bv_omega

theorem slotTranslate_of_mem {rgn : KvmMemoryRegion} {a : U64}
    (h : a ∈ addressRange rgn.guestPhysAddr rgn.memorySize) :
    slotTranslate rgn a = some (rgn.userspaceAddr + (a - rgn.guestPhysAddr), rgn.flags) := by
  have htranslate := MemoryRegion.translate_of_mem (r := rgn.region) h
  rw [slotTranslate, htranslate]
  rfl

theorem slotTranslate_of_notMem {rgn : KvmMemoryRegion} {a : U64}
    (h : a ∉ addressRange rgn.guestPhysAddr rgn.memorySize) : slotTranslate rgn a = none := by
  have htranslate := MemoryRegion.translate_of_notMem (r := rgn.region) h
  rw [slotTranslate, htranslate]
  rfl

/-- A new slot shows the guest its block. -/
theorem slotsMemory_append (kvm : KvmVirtualMachine) (slots : List KvmMemoryRegion)
    (baseAddress size : U64) (flags : MemoryFlags) (memory : U64) :
    slotsMemory (slots ++ [kvm.newRegion baseAddress size flags memory]) =
      (GuestMemoryCall.change kvmFlags (.map baseAddress size flags memory, .OK)).apply
        (slotsMemory slots) :=
  LayeredMaps.lookup_append_eq_overwrite slotTranslate slots _ (addressRange baseAddress size)
    (fun a => (memory + (a - baseAddress), kvmFlags flags))
    (fun _ ha => slotTranslate_of_mem ha) (fun _ ha => slotTranslate_of_notMem ha)

/-- The virtual machine's slots are the kernel's, their numbers are below a counter that counts the
calls at most, and the region list and the guest's memory have followed the calls. -/
structure KvmFollows (s : KvmVirtualMachine × List KvmMemoryRegion)
    (log : List (GuestMemoryCall × MemoryMappingStatus)) : Prop where
  inStep : s.1.InStep
  counter : s.1.memSlot.toNat ≤ log.length
  slots : s.2 = s.1.kvmMemoryRegions
  memory : GuestFollows kvmFlags s.1.toVirtualMachine (slotsMemory s.2) log

namespace KvmFollows

variable {s : KvmVirtualMachine × List KvmMemoryRegion}
  {log : List (GuestMemoryCall × MemoryMappingStatus)} {baseAddress size : U64}

/-- The region list and the guest's memory as the base class's function leaves them. -/
theorem memory_map (h : KvmFollows s log) {ioctl : KvmMemoryRegion → Bool} {flags : MemoryFlags}
    {memory : U64} (hfits : RangeFits baseAddress size) {status : MemoryMappingStatus}
    {kvm' : KvmVirtualMachine}
    (heq : s.1.mapGuestMemory ioctl baseAddress size flags memory = (status, kvm')) :
    GuestFollows kvmFlags kvm'.toVirtualMachine
      ((GuestMemoryCall.change kvmFlags (.map baseAddress size flags memory, status)).apply
        (slotsMemory s.2)) (log ++ [(.map baseAddress size flags memory, status)]) := by
  have hbase := s.1.mapGuestMemory_base ioctl baseAddress size flags memory
  rw [heq] at hbase
  exact h.memory.map _ flags hfits hbase

theorem map (h : KvmFollows s log) (hlength : log.length + 1 < 2 ^ 32)
    (ioctl : KvmMemoryRegion → Bool) (flags : MemoryFlags) (memory : U64)
    (hfits : RangeFits baseAddress size) :
    ∃ status s', KvmGuestCall.exec s ⟨.map baseAddress size flags memory, ioctl⟩ =
        some (status, s') ∧
      KvmFollows s' (log ++ [(.map baseAddress size flags memory, status)]) := by
  have hcounter := h.counter
  have hwrap : s.1.memSlot.toNat + 1 < 2 ^ 32 := by omega
  have hinStep := h.inStep.mapGuestMemory hwrap ioctl baseAddress size flags memory
  have hnew : ∀ other ∈ s.2, other.slot < (s.1.newRegion baseAddress size flags memory).slot := by
    rw [h.slots]
    exact h.inStep.below
  have hlog : ∀ status, (log ++ [(GuestMemoryCall.map baseAddress size flags memory,
      status)]).length = log.length + 1 := by simp
  refine ⟨_, _, rfl, ?_⟩
  obtain ⟨status, hrefusal, hstatus, heq⟩ | ⟨hrefusal, hioctl, heq⟩ | ⟨hrefusal, hioctl, heq⟩ :=
    s.1.mapGuestMemory_cases ioctl baseAddress size flags memory
  · have hmemory := h.memory_map hfits heq
    rw [GuestMemoryCall.change_map_failed _ _ _ _ _ hstatus] at hmemory
    have hrefused : ¬ (s.1.mapRefusal baseAddress size memory = none ∧
        ioctl (s.1.newRegion baseAddress size flags memory) = true) := by simp [hrefusal]
    simp only [heq, if_neg hrefused]
    refine ⟨h.inStep, ?_, h.slots, hmemory⟩
    rw [hlog]
    exact Nat.le_succ_of_le hcounter
  · have hmemory := h.memory_map hfits heq
    rw [heq] at hinStep
    simp only [heq, if_pos (And.intro hrefusal hioctl), setUserMemoryRegion_of_new hnew]
    refine ⟨hinStep, ?_, ?_, ?_⟩
    · rw [hlog]
      simp only
      bv_omega
    · simp only [h.slots]
    · simp only [slotsMemory_append]
      exact hmemory
  · have hmemory := h.memory_map hfits heq
    have hrefused : ¬ (s.1.mapRefusal baseAddress size memory = none ∧
        ioctl (s.1.newRegion baseAddress size flags memory) = true) := by simp [hioctl]
    rw [heq] at hinStep
    simp only [heq, if_neg hrefused]
    refine ⟨hinStep, ?_, ?_, hmemory⟩
    · rw [hlog]
      simp only
      bv_omega
    · simp only [h.slots]
      exact (h.inStep.eraseP_newRegion baseAddress size flags memory).symm

theorem unmap (h : KvmFollows s log) (ioctl : KvmMemoryRegion → Bool) (baseAddress size : U64) :
    ∃ status s', KvmGuestCall.exec s ⟨.unmap baseAddress size, ioctl⟩ = some (status, s') ∧
      KvmFollows s' (log ++ [(.unmap baseAddress size, status)]) := by
  obtain ⟨status, hstatus, heq⟩ := s.1.unmapGuestMemory_cases baseAddress size
  refine ⟨status, s, ?_, h.inStep, ?_, h.slots, h.memory.failed ?_⟩
  · simp only [KvmGuestCall.exec, heq]
  · rw [List.length_append]
    exact Nat.le_add_right_of_le h.counter
  · exact GuestMemoryCall.change_unmap_failed _ _ _ hstatus

/-- One call of a run that has not used up the slots. -/
theorem exec {o : KvmGuestCall} (hlength : log.length + 1 < 2 ^ 32)
    (ho : o.Orderly) (h : KvmFollows s log) :
    ∃ status s', o.exec s = some (status, s') ∧ KvmFollows s' (log ++ [(o.call, status)]) := by
  obtain ⟨call, ioctl⟩ := o
  cases call with
  | map baseAddress size flags memory => exact h.map hlength ioctl flags memory ho
  | unmap baseAddress size => exact h.unmap ioctl baseAddress size
  | setFlags baseAddress size flags => exact ho.elim

/-- A run of fewer than `2 ^ 32` calls from a new machine, and everything follows it. -/
theorem run (gpa : HostGPA) (features : PlatformFeatures) {calls : List KvmGuestCall}
    (hcount : calls.length < 2 ^ 32) (horderly : ∀ o ∈ calls, o.Orderly) (n : ℕ) :
    ∃ statuses s, runSome KvmGuestCall.exec (create gpa features, []) (calls.take n) =
        some (statuses, s) ∧
      KvmFollows s (((calls.take n).map KvmGuestCall.call).zip statuses) := by
  have hstart : KvmFollows (create gpa features, []) [] :=
    ⟨.create gpa features, le_rfl, rfl, .empty _ gpa features⟩
  have htake := List.length_take_le' n calls
  exact runSome_invariant KvmGuestCall.call KvmFollows
    (fun hlength ho h => h.exec ((Nat.succ_le_of_lt hlength).trans_lt (htake.trans_lt hcount)) ho)
    ((alongSome_of_forall KvmGuestCall.exec horderly (create gpa features, [])).take n) hstart
    (Nat.zero_add (calls.take n).length).le

end KvmFollows

/-- A refused call between two granted ones, and an unmap call. -/
private def kvmRefusedCalls : List KvmGuestCall :=
  [⟨.map 0x1000 0x1000 3 0x10000, fun _ => true⟩, ⟨.map 0x2000 0x1000 3 0x20000, fun _ => false⟩,
    ⟨.map 0x3000 0x1000 1 0x30000, fun _ => true⟩, ⟨.unmap 0x1000 0x1000, fun _ => true⟩]

end KvmVirtualMachine

end Virt86
