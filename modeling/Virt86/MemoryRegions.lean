import Virt86.BitSlices

/-!
# Guest memory regions of a virtual machine

The base `VirtualMachine` records every host block mapped into the guest in a vector, in
mapping order. Mapping appends a region. Unmapping walks the vector with an iterator and
erases, trims or splits the regions it visits. All addresses are 64-bit words and all their
arithmetic wraps, host pointers included.
-/

namespace Virt86

inductive MemoryMappingStatus where
  | OK | Unsupported | MisalignedHostMemory | MisalignedAddress | MisalignedSize | EmptyRange
  | PartialUnmapUnsupported | AlreadyAllocated | InvalidFlags | InvalidRange | Failed | OutOfBounds
  deriving DecidableEq, Repr

abbrev MemoryFlags := BitVec 32

structure MemoryRegion where
  baseAddress : U64
  size : U64
  hostMemory : U64
  deriving DecidableEq, Repr

/-- The limits `HostInfo::GPA` computes from the number of guest physical address bits. -/
structure HostGPA where
  maxBits : U8
  deriving DecidableEq, Repr

def HostGPA.maxAddress (gpa : HostGPA) : U64 := 1#64 <<< gpa.maxBits

def HostGPA.mask (gpa : HostGPA) : U64 := gpa.maxAddress - 1

structure PlatformFeatures where
  largeMemoryAllocation : Bool
  guestDebugging : Bool
  deriving DecidableEq, Repr

structure VirtualMachine where
  gpa : HostGPA
  features : PlatformFeatures
  memoryRegions : List MemoryRegion
  deriving DecidableEq, Repr

namespace MemoryRegion

/-- The inclusive final address, as the code computes it. -/
def finalAddress (r : MemoryRegion) : U64 := r.baseAddress + r.size - 1

def NonWrapping (r : MemoryRegion) : Prop := r.baseAddress.toNat + r.size.toNat ≤ 2 ^ 64

def NonEmpty (r : MemoryRegion) : Prop := 0 < r.size.toNat

/-- The addresses `[baseAddress, baseAddress + size)` of a region. -/
def Contains (r : MemoryRegion) (a : U64) : Prop :=
  r.baseAddress.toNat ≤ a.toNat ∧ a.toNat < r.baseAddress.toNat + r.size.toNat

instance (r : MemoryRegion) (a : U64) : Decidable (r.Contains a) :=
  inferInstanceAs (Decidable (_ ∧ _))

instance (r : MemoryRegion) : Decidable r.NonWrapping := inferInstanceAs (Decidable (_ ≤ _))

instance (r : MemoryRegion) : Decidable r.NonEmpty := inferInstanceAs (Decidable (_ < _))

/-- The host byte a region assigns to a guest physical address. -/
def hostAddress (r : MemoryRegion) (a : U64) : U64 := r.hostMemory + (a - r.baseAddress)

/-- The partial map from guest physical to host addresses that one region stands for. -/
def translate (r : MemoryRegion) (a : U64) : Option U64 :=
  if r.Contains a then some (r.hostAddress a) else none

end MemoryRegion

/-- One iteration of the `while` loop of `SubtractMemoryRange` at the region `r`: what is left
before the advanced iterator, and what the iterator still has to visit in place of `r`. Only a
range inside the region leaves something to visit: the second portion is inserted in front
and skipped, so the shortened first portion comes next. -/
def subtractRegion (baseAddress size : U64) (r : MemoryRegion) :
    List MemoryRegion × List MemoryRegion :=
  let finalAddress := baseAddress + size - 1
  let finalRegionAddress := r.baseAddress + r.size - 1
  if baseAddress ≤ r.baseAddress ∧ finalAddress ≥ finalRegionAddress then
    ([], [])
  else if baseAddress > r.baseAddress ∧ finalAddress ≥ finalRegionAddress then
    ([{ r with size := baseAddress - r.baseAddress }], [])
  else if baseAddress ≤ r.baseAddress ∧ finalAddress < finalRegionAddress then
    let baseAddressDelta := (finalAddress + 1) - r.baseAddress
    ([{ baseAddress := finalAddress + 1, size := finalRegionAddress - finalAddress,
        hostMemory := r.hostMemory + baseAddressDelta }], [])
  else
    let first := { r with size := baseAddress - r.baseAddress }
    ([{ baseAddress := finalAddress + 1, size := finalRegionAddress - finalAddress,
        hostMemory := r.hostMemory + first.size + size }], [first])

/-- The loop of `SubtractMemoryRange` from the iterator on; `none` when the fuel runs out. -/
def subtractLoop (baseAddress size : U64) : ℕ → List MemoryRegion → Option (List MemoryRegion)
  | _, [] => some []
  | 0, _ :: _ => none
  | fuel + 1, r :: rest =>
    let (before, again) := subtractRegion baseAddress size r
    (subtractLoop baseAddress size fuel (again ++ rest)).map (before ++ ·)

/-- `SubtractMemoryRange`, with two visits for each region. `none` stands for a loop that has
not ended by then. -/
def subtractMemoryRange (regions : List MemoryRegion) (baseAddress size : U64) :
    Option (List MemoryRegion) :=
  subtractLoop baseAddress size (2 * regions.length) regions

namespace VirtualMachine

/-- `MapGuestMemory`; `impl` is the platform's `MapGuestMemoryImpl`. -/
def mapGuestMemory (vm : VirtualMachine)
    (impl : U64 → U64 → MemoryFlags → U64 → MemoryMappingStatus)
    (baseAddress size : U64) (flags : MemoryFlags) (memory : U64) :
    MemoryMappingStatus × VirtualMachine :=
  if memory &&& 0xFFF ≠ 0 then (.MisalignedHostMemory, vm)
  else if baseAddress &&& 0xFFF ≠ 0 then (.MisalignedAddress, vm)
  else if size = 0 then (.EmptyRange, vm)
  else if size &&& 0xFFF ≠ 0 then (.MisalignedSize, vm)
  else if size > 0xFFFFFFFF ∧ vm.features.largeMemoryAllocation = false then (.Unsupported, vm)
  else if baseAddress &&& ~~~vm.gpa.mask ≠ 0 ∨
      (baseAddress + size - 1) &&& ~~~vm.gpa.mask ≠ 0 then (.OutOfBounds, vm)
  else match impl baseAddress size flags memory with
    | .OK => (.OK, { vm with memoryRegions := vm.memoryRegions ++ [⟨baseAddress, size, memory⟩] })
    | status => (status, vm)

/-- `UnmapGuestMemory`; `impl` is the platform's `UnmapGuestMemoryImpl`. `none` stands for a
call that does not return. -/
def unmapGuestMemory (vm : VirtualMachine) (impl : U64 → U64 → MemoryMappingStatus)
    (baseAddress size : U64) : Option (MemoryMappingStatus × VirtualMachine) :=
  if baseAddress &&& 0xFFF ≠ 0 then some (.MisalignedAddress, vm)
  else if size = 0 then some (.EmptyRange, vm)
  else if size &&& 0xFFF ≠ 0 then some (.MisalignedSize, vm)
  else if size > 0xFFFFFFFF ∧ vm.features.largeMemoryAllocation = false then
    some (.Unsupported, vm)
  else match impl baseAddress size with
    | .OK => (subtractMemoryRange vm.memoryRegions baseAddress size).map
        fun regions => (.OK, { vm with memoryRegions := regions })
    | status => some (status, vm)

/-- What a call of `MapGuestMemory` can do: append the region, or fail and change nothing. -/
theorem mapGuestMemory_cases (vm : VirtualMachine)
    (impl : U64 → U64 → MemoryFlags → U64 → MemoryMappingStatus)
    (baseAddress size : U64) (flags : MemoryFlags) (memory : U64) :
    (0 < size.toNat ∧ vm.mapGuestMemory impl baseAddress size flags memory = (.OK,
        { vm with memoryRegions := vm.memoryRegions ++ [⟨baseAddress, size, memory⟩] })) ∨
      ∃ status, status ≠ .OK ∧
        vm.mapGuestMemory impl baseAddress size flags memory = (status, vm) := by
  unfold mapGuestMemory
  split_ifs with h₁ h₂ h₃ h₄ h₅ h₆
  · exact .inr ⟨_, by simp, rfl⟩
  · exact .inr ⟨_, by simp, rfl⟩
  · exact .inr ⟨_, by simp, rfl⟩
  · exact .inr ⟨_, by simp, rfl⟩
  · exact .inr ⟨_, by simp, rfl⟩
  · exact .inr ⟨_, by simp, rfl⟩
  · cases h : impl baseAddress size flags memory
    case OK => exact .inl ⟨by bv_omega, rfl⟩
    all_goals exact .inr ⟨_, by simp, rfl⟩

/-- What a call of `UnmapGuestMemory` can do: fail and change nothing, or subtract the range. -/
theorem unmapGuestMemory_cases (vm : VirtualMachine) (impl : U64 → U64 → MemoryMappingStatus)
    (baseAddress size : U64) :
    (0 < size.toNat ∧ impl baseAddress size = .OK ∧ vm.unmapGuestMemory impl baseAddress size =
        (subtractMemoryRange vm.memoryRegions baseAddress size).map
          fun regions => (.OK, { vm with memoryRegions := regions })) ∨
      ∃ status, status ≠ .OK ∧
        vm.unmapGuestMemory impl baseAddress size = some (status, vm) := by
  unfold unmapGuestMemory
  split_ifs with h₁ h₂ h₃ h₄
  · exact .inr ⟨_, by simp, rfl⟩
  · exact .inr ⟨_, by simp, rfl⟩
  · exact .inr ⟨_, by simp, rfl⟩
  · exact .inr ⟨_, by simp, rfl⟩
  · cases h : impl baseAddress size
    case OK => exact .inl ⟨by bv_omega, rfl, rfl⟩
    all_goals exact .inr ⟨_, by simp, rfl⟩

/-! ## The checks before the platform is asked -/

/-- The checks of `MapGuestMemory`: the status of the first one that fails. -/
def mapRefusal (vm : VirtualMachine) (baseAddress size memory : U64) :
    Option MemoryMappingStatus :=
  if memory &&& 0xFFF ≠ 0 then some .MisalignedHostMemory
  else if baseAddress &&& 0xFFF ≠ 0 then some .MisalignedAddress
  else if size = 0 then some .EmptyRange
  else if size &&& 0xFFF ≠ 0 then some .MisalignedSize
  else if size > 0xFFFFFFFF ∧ vm.features.largeMemoryAllocation = false then some .Unsupported
  else if baseAddress &&& ~~~vm.gpa.mask ≠ 0 ∨
      (baseAddress + size - 1) &&& ~~~vm.gpa.mask ≠ 0 then some .OutOfBounds
  else none

/-- The checks that `UnmapGuestMemory` and `SetGuestMemoryFlags` share. -/
def rangeRefusal (vm : VirtualMachine) (baseAddress size : U64) : Option MemoryMappingStatus :=
  if baseAddress &&& 0xFFF ≠ 0 then some .MisalignedAddress
  else if size = 0 then some .EmptyRange
  else if size &&& 0xFFF ≠ 0 then some .MisalignedSize
  else if size > 0xFFFFFFFF ∧ vm.features.largeMemoryAllocation = false then some .Unsupported
  else none

/-- The default of the base class. -/
def unmapGuestMemoryImpl (_baseAddress _size : U64) : MemoryMappingStatus := .Unsupported

theorem mapRefusal_ne_OK {vm : VirtualMachine} {baseAddress size memory : U64}
    {status : MemoryMappingStatus} (h : vm.mapRefusal baseAddress size memory = some status) :
    status ≠ .OK := by
  rintro rfl
  simp only [mapRefusal] at h
  split_ifs at h <;> simp at h

theorem rangeRefusal_ne_OK {vm : VirtualMachine} {baseAddress size : U64}
    {status : MemoryMappingStatus} (h : vm.rangeRefusal baseAddress size = some status) :
    status ≠ .OK := by
  rintro rfl
  simp only [rangeRefusal] at h
  split_ifs at h <;> simp at h

theorem rangeRefusal_eq_none_iff {vm : VirtualMachine} {baseAddress size : U64} :
    vm.rangeRefusal baseAddress size = none ↔ baseAddress &&& 0xFFF = 0 ∧ size ≠ 0 ∧
      size &&& 0xFFF = 0 ∧ ¬ (size > 0xFFFFFFFF ∧ vm.features.largeMemoryAllocation = false) := by
  simp only [rangeRefusal]
  split_ifs <;> simp_all

theorem mapGuestMemory_of_refusal {vm : VirtualMachine} {baseAddress size memory : U64}
    {status : MemoryMappingStatus} (h : vm.mapRefusal baseAddress size memory = some status)
    (impl : U64 → U64 → MemoryFlags → U64 → MemoryMappingStatus) (flags : MemoryFlags) :
    vm.mapGuestMemory impl baseAddress size flags memory = (status, vm) := by
  simp only [mapRefusal] at h
  unfold mapGuestMemory
  split_ifs at h ⊢ <;> simp_all

theorem mapGuestMemory_of_accepted {vm : VirtualMachine} {baseAddress size memory : U64}
    (h : vm.mapRefusal baseAddress size memory = none)
    (impl : U64 → U64 → MemoryFlags → U64 → MemoryMappingStatus) (flags : MemoryFlags) :
    vm.mapGuestMemory impl baseAddress size flags memory =
      (impl baseAddress size flags memory,
        if impl baseAddress size flags memory = .OK then
          { vm with memoryRegions := vm.memoryRegions ++ [⟨baseAddress, size, memory⟩] }
        else vm) := by
  simp only [mapRefusal] at h
  unfold mapGuestMemory
  split_ifs at h ⊢ with h₁ h₂ h₃ h₄ h₅ h₆ hok
  · rw [hok]
  · cases hs : impl baseAddress size flags memory
    case OK => exact absurd hs hok
    all_goals rfl

theorem unmapGuestMemory_of_refusal {vm : VirtualMachine} {baseAddress size : U64}
    {status : MemoryMappingStatus} (h : vm.rangeRefusal baseAddress size = some status)
    (impl : U64 → U64 → MemoryMappingStatus) :
    vm.unmapGuestMemory impl baseAddress size = some (status, vm) := by
  simp only [rangeRefusal] at h
  unfold unmapGuestMemory
  split_ifs at h ⊢ <;> simp_all

theorem unmapGuestMemory_of_accepted {vm : VirtualMachine} {baseAddress size : U64}
    (h : vm.rangeRefusal baseAddress size = none) (impl : U64 → U64 → MemoryMappingStatus) :
    vm.unmapGuestMemory impl baseAddress size =
      if impl baseAddress size = .OK then
        (subtractMemoryRange vm.memoryRegions baseAddress size).map
          fun regions => (.OK, { vm with memoryRegions := regions })
      else some (impl baseAddress size, vm) := by
  simp only [rangeRefusal] at h
  unfold unmapGuestMemory
  split_ifs at h ⊢ with h₁ h₂ h₃ h₄ hok
  · rw [hok]
  · cases hs : impl baseAddress size
    case OK => exact absurd hs hok
    all_goals rfl

end VirtualMachine

end Virt86
