import Virt86.RegionBounds
import Virt86.UnmappedRanges

/-!
# Unmapping guest memory on HAXM

The driver has two requests to unmap a range, with a 32-bit and with a 64-bit size. The function
that chooses between them does not return after the first one succeeds.
-/

namespace Virt86

def HAX_CAP_64BIT_SETRAM : U16 := 1 <<< 4
def HAX_RAM_INFO_INVALID : U8 := 0x80

/-- The requests `HAX_VM_IOCTL_SET_RAM` and `HAX_VM_IOCTL_SET_RAM2`. -/
inductive HaxSetRam where
  | setRam (pa_start : U64) (size : U32) (flags : U8) (va : U64)
  | setRam2 (pa_start size va : U64) (flags reserved1 : U32) (reserved2 : U64)
  deriving DecidableEq, Repr

namespace HaxSetRam

def paStart : HaxSetRam → U64
  | setRam pa_start .. => pa_start
  | setRam2 pa_start .. => pa_start

def bytes : HaxSetRam → ℕ
  | setRam _ size _ _ => size.toNat
  | setRam2 _ size .. => size.toNat

/-- The guest addresses that the request is about. -/
def Covers (r : HaxSetRam) (a : U64) : Prop :=
  r.paStart.toNat ≤ a.toNat ∧ a.toNat < r.paStart.toNat + r.bytes

instance (r : HaxSetRam) (a : U64) : Decidable (r.Covers a) := inferInstanceAs (Decidable (_ ∧ _))

end HaxSetRam

/-- What the driver has mapped, and the requests it got with its answers. -/
structure HaxDriver where
  mapping : U64 → Option U64
  requests : List (HaxSetRam × Bool)

/-- The driver answers a request to unmap a range, and forgets the range when it grants it. -/
def HaxDriver.unmap (driver : HaxDriver) (ioctl : HaxSetRam → Bool) (r : HaxSetRam) :
    Bool × HaxDriver :=
  (ioctl r,
    { mapping := fun a => if ioctl r ∧ r.Covers a then none else driver.mapping a
      requests := driver.requests ++ [(r, ioctl r)] })

theorem HaxDriver.unmap_rejected (driver : HaxDriver) {ioctl : HaxSetRam → Bool} {r : HaxSetRam}
    (h : ioctl r = false) :
    driver.unmap ioctl r = (false, ⟨driver.mapping, driver.requests ++ [(r, false)]⟩) := by
  simp [unmap, h]

theorem HaxDriver.unmap_granted (driver : HaxDriver) {ioctl : HaxSetRam → Bool} {r : HaxSetRam}
    (h : ioctl r = true) :
    driver.unmap ioctl r = (true,
      ⟨fun a => if r.Covers a then none else driver.mapping a,
        driver.requests ++ [(r, true)]⟩) := by
  simp [unmap, h]

/-- The parts of `hax_module_version` and `hax_capabilityinfo` that unmapping looks at. -/
structure HaxPlatform where
  cur_version : U32
  winfo : U16
  deriving DecidableEq, Repr

namespace HaxmVirtualMachine

def unmapRequest (baseAddress : U64) (size : U32) : HaxSetRam :=
  .setRam baseAddress size HAX_RAM_INFO_INVALID 0

def unmapRequestLarge (baseAddress size : U64) : HaxSetRam :=
  .setRam2 baseAddress size 0 (HAX_RAM_INFO_INVALID.setWidth 32) 0 0

variable (platform : HaxPlatform) (ioctl : HaxSetRam → Bool) (driver : HaxDriver)
  (baseAddress size : U64)

/-- The part of `UnmapGuestMemoryImpl` from the capability test on. -/
def unmapGuestMemoryLarge : MemoryMappingStatus × HaxDriver :=
  if platform.winfo &&& HAX_CAP_64BIT_SETRAM = 0 then (.Unsupported, driver)
  else match driver.unmap ioctl (unmapRequestLarge baseAddress size) with
    | (false, driver) => (.Failed, driver)
    | (true, driver) => (.OK, driver)

def unmapGuestMemoryImpl : MemoryMappingStatus × HaxDriver :=
  if platform.cur_version < 4 then (.Unsupported, driver)
  else if size ≤ 0xFFFFFFFF then
    match driver.unmap ioctl (unmapRequest baseAddress (size.setWidth 32)) with
    | (false, driver) => (.Failed, driver)
    -- the request was granted, and the code goes on to the other one
    | (true, driver) => unmapGuestMemoryLarge platform ioctl driver baseAddress size
  else unmapGuestMemoryLarge platform ioctl driver baseAddress size

/-- `VirtualMachine::UnmapGuestMemory` over the driver; `none` for a call that does not return. -/
def unmapGuestMemory (vm : VirtualMachine) :
    Option (MemoryMappingStatus × VirtualMachine × HaxDriver) :=
  match vm.rangeRefusal baseAddress size with
  | some status => some (status, vm, driver)
  | none =>
    match unmapGuestMemoryImpl platform ioctl driver baseAddress size with
    | (.OK, driver) => (subtractMemoryRange vm.memoryRegions baseAddress size).map
        fun regions => (.OK, { vm with memoryRegions := regions }, driver)
    | (status, driver) => some (status, vm, driver)

/-- The request that is right for the size. -/
def properRequest : HaxSetRam :=
  if size ≤ 0xFFFFFFFF then unmapRequest baseAddress (size.setWidth 32)
  else unmapRequestLarge baseAddress size

/-- `OK` says that the driver unmapped the range on one request of the right form, any other
status that it mapped what it did before. -/
structure AllOrNothing : Prop where
  unmapped_iff : ∃ issued,
    (unmapGuestMemoryImpl platform ioctl driver baseAddress size).2.requests =
      driver.requests ++ issued ∧
    ((unmapGuestMemoryImpl platform ioctl driver baseAddress size).1 = .OK ↔
      ∃ r, (r, true) ∈ issued) ∧
    ((unmapGuestMemoryImpl platform ioctl driver baseAddress size).1 = .OK →
      issued = [(properRequest baseAddress size, true)])
  unchanged : (unmapGuestMemoryImpl platform ioctl driver baseAddress size).1 ≠ .OK →
    (unmapGuestMemoryImpl platform ioctl driver baseAddress size).2.mapping = driver.mapping

/-- The region list and the driver agree on whether the addresses of the range are mapped. -/
def AgreeOn (vm : VirtualMachine) (driver : HaxDriver) (baseAddress size : U64) : Prop :=
  ∀ a ∈ addressRange baseAddress size,
    (∃ r ∈ vm.memoryRegions, r.Contains a) ↔ (driver.mapping a).isSome

/-- A call that finds the region list and the driver in agreement leaves them so. -/
def KeepsAgreement : Prop :=
  ∀ (vm : VirtualMachine) (driver : HaxDriver), WellFormed vm.memoryRegions →
    AgreeOn vm driver baseAddress size →
    ∃ status vm' driver', unmapGuestMemory platform ioctl driver baseAddress size vm =
      some (status, vm', driver') ∧ AgreeOn vm' driver' baseAddress size

/-- No request with a 32-bit size is granted. A range that one with a 64-bit size unmaps ends
within the address space. -/
structure Clean : Prop where
  small : ¬ platform.cur_version < 4 → size ≤ 0xFFFFFFFF →
    ioctl (unmapRequest baseAddress (size.setWidth 32)) = false
  large : ¬ platform.cur_version < 4 → ¬ size ≤ 0xFFFFFFFF →
    platform.winfo &&& HAX_CAP_64BIT_SETRAM ≠ 0 →
    ioctl (unmapRequestLarge baseAddress size) = true →
    baseAddress &&& 0xFFF = 0 → size &&& 0xFFF = 0 → RangeFits baseAddress size

variable {platform ioctl driver baseAddress size}

/-! ## One call of the platform's function -/

theorem unmapGuestMemoryLarge_unsupported (h : platform.winfo &&& HAX_CAP_64BIT_SETRAM = 0) :
    unmapGuestMemoryLarge platform ioctl driver baseAddress size = (.Unsupported, driver) :=
  if_pos h

theorem unmapGuestMemoryLarge_supported (h : platform.winfo &&& HAX_CAP_64BIT_SETRAM ≠ 0) :
    unmapGuestMemoryLarge platform ioctl driver baseAddress size =
      (if ioctl (unmapRequestLarge baseAddress size) then .OK else .Failed,
        (driver.unmap ioctl (unmapRequestLarge baseAddress size)).2) := by
  rw [unmapGuestMemoryLarge, if_neg h]
  cases hioctl : ioctl (unmapRequestLarge baseAddress size) with
  | false =>
    rw [driver.unmap_rejected hioctl]
    rfl
  | true =>
    rw [driver.unmap_granted hioctl]
    rfl

theorem unmapGuestMemoryImpl_small (hversion : ¬ platform.cur_version < 4)
    (hsize : size ≤ 0xFFFFFFFF) :
    unmapGuestMemoryImpl platform ioctl driver baseAddress size =
      if ioctl (unmapRequest baseAddress (size.setWidth 32)) then
        unmapGuestMemoryLarge platform ioctl
          (driver.unmap ioctl (unmapRequest baseAddress (size.setWidth 32))).2 baseAddress size
      else (.Failed, (driver.unmap ioctl (unmapRequest baseAddress (size.setWidth 32))).2) := by
  rw [unmapGuestMemoryImpl, if_neg hversion, if_pos hsize]
  cases hioctl : ioctl (unmapRequest baseAddress (size.setWidth 32)) with
  | false =>
    rw [driver.unmap_rejected hioctl]
    rfl
  | true =>
    rw [driver.unmap_granted hioctl]
    rfl

theorem unmapGuestMemoryImpl_large (hversion : ¬ platform.cur_version < 4)
    (hsize : ¬ size ≤ 0xFFFFFFFF) :
    unmapGuestMemoryImpl platform ioctl driver baseAddress size =
      unmapGuestMemoryLarge platform ioctl driver baseAddress size := by
  rw [unmapGuestMemoryImpl, if_neg hversion, if_neg hsize]

theorem unmapGuestMemoryImpl_granted (hversion : ¬ platform.cur_version < 4)
    (hsize : ¬ size ≤ 0xFFFFFFFF) (hcap : platform.winfo &&& HAX_CAP_64BIT_SETRAM ≠ 0)
    (hioctl : ioctl (unmapRequestLarge baseAddress size) = true) :
    unmapGuestMemoryImpl platform ioctl driver baseAddress size =
      (.OK, (driver.unmap ioctl (unmapRequestLarge baseAddress size)).2) := by
  rw [unmapGuestMemoryImpl_large hversion hsize, unmapGuestMemoryLarge_supported hcap, hioctl]
  rfl

/-- What a call does that does not go on after a granted request. -/
theorem unmapGuestMemoryImpl_cases (driver : HaxDriver) (hsmall : ¬ platform.cur_version < 4 →
    size ≤ 0xFFFFFFFF → ioctl (unmapRequest baseAddress (size.setWidth 32)) = false) :
    (∃ status issued, status ≠ .OK ∧ (∀ r, (r, true) ∉ issued) ∧
      unmapGuestMemoryImpl platform ioctl driver baseAddress size =
        (status, ⟨driver.mapping, driver.requests ++ issued⟩)) ∨
    (¬ platform.cur_version < 4 ∧ ¬ size ≤ 0xFFFFFFFF ∧
      platform.winfo &&& HAX_CAP_64BIT_SETRAM ≠ 0 ∧
      ioctl (unmapRequestLarge baseAddress size) = true) := by
  by_cases hversion : platform.cur_version < 4
  · refine .inl ⟨.Unsupported, [], by decide, by simp, ?_⟩
    rw [unmapGuestMemoryImpl, if_pos hversion, List.append_nil]
  by_cases hsize : size ≤ 0xFFFFFFFF
  · have hioctl := hsmall hversion hsize
    refine .inl ⟨.Failed, [(unmapRequest baseAddress (size.setWidth 32), false)], by decide,
      by simp, ?_⟩
    rw [unmapGuestMemoryImpl_small hversion hsize, hioctl, driver.unmap_rejected hioctl]
    rfl
  by_cases hcap : platform.winfo &&& HAX_CAP_64BIT_SETRAM = 0
  · refine .inl ⟨.Unsupported, [], by decide, by simp, ?_⟩
    rw [unmapGuestMemoryImpl_large hversion hsize, unmapGuestMemoryLarge_unsupported hcap,
      List.append_nil]
  cases hioctl : ioctl (unmapRequestLarge baseAddress size) with
  | false =>
    refine .inl ⟨.Failed, [(unmapRequestLarge baseAddress size, false)], by decide, by simp, ?_⟩
    rw [unmapGuestMemoryImpl_large hversion hsize, unmapGuestMemoryLarge_supported hcap, hioctl,
      driver.unmap_rejected hioctl]
    rfl
  | true => exact .inr ⟨hversion, hsize, hcap, rfl⟩

/-- A call that goes on after a granted request is not all or nothing. -/
theorem AllOrNothing.not_granted (h : AllOrNothing platform ioctl driver baseAddress size)
    (hversion : ¬ platform.cur_version < 4) (hsize : size ≤ 0xFFFFFFFF) :
    ioctl (unmapRequest baseAddress (size.setWidth 32)) = false := by
  obtain ⟨⟨issued, hrequests, hok, hone⟩, -⟩ := h
  by_contra hgranted
  rw [Bool.not_eq_false] at hgranted
  rw [unmapGuestMemoryImpl_small hversion hsize, if_pos hgranted,
    driver.unmap_granted hgranted] at hrequests hok hone
  by_cases hcap : platform.winfo &&& HAX_CAP_64BIT_SETRAM = 0
  · -- the first request is in the driver's list, and the status denies it
    rw [unmapGuestMemoryLarge_unsupported hcap] at hrequests hok
    have hissued := List.append_cancel_left hrequests
    rw [← hissued] at hok
    exact absurd (hok.mpr ⟨_, List.mem_singleton_self _⟩) (by simp)
  · -- both requests are in the driver's list
    rw [unmapGuestMemoryLarge_supported hcap] at hrequests hok hone
    simp only [HaxDriver.unmap, List.append_assoc, List.singleton_append] at hrequests
    have hissued := List.append_cancel_left hrequests
    have hstatus := hok.mpr ⟨unmapRequest baseAddress (size.setWidth 32), by simp [← hissued]⟩
    have hlength := congrArg List.length (hone hstatus)
    simp [← hissued] at hlength

theorem allOrNothing_of_not_granted (driver : HaxDriver) (hsmall : ¬ platform.cur_version < 4 →
    size ≤ 0xFFFFFFFF → ioctl (unmapRequest baseAddress (size.setWidth 32)) = false) :
    AllOrNothing platform ioctl driver baseAddress size := by
  obtain ⟨status, issued, hstatus, hissued, heq⟩ | ⟨hversion, hsize, hcap, hioctl⟩ :=
    unmapGuestMemoryImpl_cases driver hsmall
  · constructor
    · rw [heq]
      refine ⟨issued, rfl, iff_of_false hstatus ?_, fun h => absurd h hstatus⟩
      rintro ⟨r, hr⟩
      exact hissued r hr
    · rw [heq]
      exact fun _ => rfl
  · constructor
    · rw [unmapGuestMemoryImpl_granted hversion hsize hcap hioctl, driver.unmap_granted hioctl]
      refine ⟨[(unmapRequestLarge baseAddress size, true)], rfl, ?_, ?_⟩
      · exact iff_of_true rfl ⟨_, List.mem_singleton_self _⟩
      · rw [properRequest, if_neg hsize]
        exact fun _ => rfl
    · rw [unmapGuestMemoryImpl_granted hversion hsize hcap hioctl]
      exact fun h => absurd rfl h

/-! ## The region list and the driver -/

/-- The base class's own function, over the status of the platform's. -/
theorem unmapGuestMemory_base (vm : VirtualMachine) :
    vm.unmapGuestMemory
        (fun b s => (unmapGuestMemoryImpl platform ioctl driver b s).1) baseAddress size =
      (unmapGuestMemory platform ioctl driver baseAddress size vm).map
        fun result => (result.1, result.2.1) := by
  cases hrefusal : vm.rangeRefusal baseAddress size with
  | some status =>
    rw [VirtualMachine.unmapGuestMemory_of_refusal hrefusal, unmapGuestMemory, hrefusal]
    rfl
  | none =>
    rw [VirtualMachine.unmapGuestMemory_of_accepted hrefusal, unmapGuestMemory, hrefusal]
    obtain ⟨status, driver'⟩ := unmapGuestMemoryImpl platform ioctl driver baseAddress size
    cases status
    case OK => cases h : subtractMemoryRange vm.memoryRegions baseAddress size <;> simp
    all_goals rfl

theorem Clean.keepsAgreement (h : Clean platform ioctl baseAddress size) :
    KeepsAgreement platform ioctl baseAddress size := by
  intro vm driver hwf hagree
  rw [unmapGuestMemory]
  cases hrefusal : vm.rangeRefusal baseAddress size with
  | some status => exact ⟨status, vm, driver, rfl, hagree⟩
  | none =>
    obtain ⟨hbase, hsize₀, haligned, -⟩ := VirtualMachine.rangeRefusal_eq_none_iff.mp hrefusal
    obtain ⟨status, issued, hstatus, -, heq⟩ | ⟨hversion, hsize, hcap, hioctl⟩ :=
      unmapGuestMemoryImpl_cases driver h.small
    · refine ⟨status, vm, ⟨driver.mapping, driver.requests ++ issued⟩, ?_, hagree⟩
      rw [heq]
      cases status <;> first | rfl | exact absurd rfl hstatus
    · have hfits := h.large hversion hsize hcap hioctl hbase haligned
      obtain ⟨regions, hregions, hnone, -⟩ :=
        subtractMemoryRange_complete_idempotent vm.memoryRegions hwf baseAddress size hsize₀ hfits
      refine ⟨.OK, { vm with memoryRegions := regions },
        (driver.unmap ioctl (unmapRequestLarge baseAddress size)).2, ?_, ?_⟩
      · rw [unmapGuestMemoryImpl_granted hversion hsize hcap hioctl]
        simp only [hregions]
        rfl
      · intro a ha
        have hcovers : (unmapRequestLarge baseAddress size).Covers a := ha
        simp only [driver.unmap_granted hioctl, if_pos hcovers, Option.isSome_none,
          Bool.false_eq_true, iff_false]
        rintro ⟨r, hr, hcontains⟩
        exact hnone r hr a ha hcontains

/-- A range that wraps moves a page at its base down, and leaves the page's old addresses in. -/
theorem subtractMemoryRange_of_wraps (hbase : baseAddress.toNat % 4096 = 0)
    (hsize : 0x1000 ≤ size.toNat) (hwraps : ¬ RangeFits baseAddress size) :
    ∃ r : MemoryRegion, subtractMemoryRange [⟨baseAddress, 0x1000, 0⟩] baseAddress size = some [r] ∧
      r.Contains baseAddress := by
  rw [RangeFits] at hwraps
  have hfinal : (baseAddress + size - 1).toNat = baseAddress.toNat + size.toNat - 1 - 2 ^ 64 := by
    bv_omega
  have hlast : (baseAddress + 0x1000 - 1).toNat = baseAddress.toNat + 0xFFF := by bv_omega
  refine ⟨⟨baseAddress + size - 1 + 1, baseAddress + 0x1000 - 1 - (baseAddress + size - 1),
    0 + (baseAddress + size - 1 + 1 - baseAddress)⟩, ?_, ?_⟩
  · have hcover : ¬ (baseAddress ≤ baseAddress ∧
        baseAddress + size - 1 ≥ baseAddress + 0x1000 - 1) := by
      rw [ge_iff_le, BitVec.le_def, BitVec.le_def, hfinal, hlast]
      omega
    have hbelow : ¬ (baseAddress > baseAddress ∧
        baseAddress + size - 1 ≥ baseAddress + 0x1000 - 1) := fun h => BitVec.lt_irrefl _ h.1
    have habove : baseAddress ≤ baseAddress ∧
        baseAddress + size - 1 < baseAddress + 0x1000 - 1 := by
      rw [BitVec.le_def, BitVec.lt_def, hfinal, hlast]
      omega
    simp only [subtractMemoryRange, List.length_singleton, subtractLoop, subtractRegion]
    rw [if_neg hcover, if_neg hbelow, if_pos habove]
    rfl
  · simp only [MemoryRegion.Contains]
    bv_omega

theorem agreeOn_page (gpa : HostGPA) (features : PlatformFeatures) (page : MemoryRegion) :
    AgreeOn ⟨gpa, features, [page]⟩ ⟨page.translate, []⟩ baseAddress size := by
  intro a _
  simp only [List.mem_singleton, exists_eq_left, MemoryRegion.translate]
  split_ifs with ha <;> simp [ha]

/-- A range that wraps and is unmapped puts the region list and the driver at odds. -/
theorem KeepsAgreement.fits (h : KeepsAgreement platform ioctl baseAddress size)
    (hversion : ¬ platform.cur_version < 4) (hsize : ¬ size ≤ 0xFFFFFFFF)
    (hcap : platform.winfo &&& HAX_CAP_64BIT_SETRAM ≠ 0)
    (hioctl : ioctl (unmapRequestLarge baseAddress size) = true)
    (hbase : baseAddress &&& 0xFFF = 0) (haligned : size &&& 0xFFF = 0) :
    RangeFits baseAddress size := by
  by_contra hwraps
  have hmod := (and_pageMask_eq_zero_iff baseAddress).mp hbase
  have hlarge : 0x1000 ≤ size.toNat := by bv_omega
  obtain ⟨r, hsubtract, hcontains⟩ := subtractMemoryRange_of_wraps hmod hlarge hwraps
  let page : MemoryRegion := ⟨baseAddress, 0x1000, 0⟩
  let vm : VirtualMachine := ⟨⟨64⟩, ⟨true, false⟩, [page]⟩
  let driver : HaxDriver := ⟨page.translate, []⟩
  have hwf : WellFormed vm.memoryRegions := by
    intro r' hr'
    obtain rfl := List.mem_singleton.mp hr'
    exact ⟨by simp [MemoryRegion.NonEmpty, page],
      by simp only [MemoryRegion.NonWrapping, page]; bv_omega⟩
  have hrefusal : vm.rangeRefusal baseAddress size = none := by
    rw [VirtualMachine.rangeRefusal_eq_none_iff]
    exact ⟨hbase, by bv_omega, haligned, fun hfeature => by simp [vm] at hfeature⟩
  obtain ⟨status, vm', driver', hcall, hagree⟩ := h vm driver hwf (agreeOn_page _ _ page)
  rw [unmapGuestMemory, hrefusal, unmapGuestMemoryImpl_granted hversion hsize hcap hioctl] at hcall
  simp only [vm, page, hsubtract, Option.map_some, Option.some.injEq, Prod.mk.injEq] at hcall
  obtain ⟨-, rfl, rfl⟩ := hcall
  have hmem : baseAddress ∈ addressRange baseAddress size := ⟨le_rfl, by omega⟩
  have hmapped := (hagree baseAddress hmem).mp ⟨r, List.mem_singleton_self r, hcontains⟩
  have hcovers : (unmapRequestLarge baseAddress size).Covers baseAddress := hmem
  rw [driver.unmap_granted hioctl] at hmapped
  simp only [if_pos hcovers] at hmapped
  cases hmapped

/-- Unmapping is all or nothing in every state of the driver, and keeps the region list and the
driver in agreement about the range, if and only if no 32-bit request is granted and no granted
64-bit request is about a range that wraps. -/
theorem unmapGuestMemory_allOrNothing_iff (platform : HaxPlatform) (ioctl : HaxSetRam → Bool)
    (baseAddress size : U64) :
    ((∀ driver, AllOrNothing platform ioctl driver baseAddress size) ∧
      KeepsAgreement platform ioctl baseAddress size) ↔
    Clean platform ioctl baseAddress size := by
  constructor
  · rintro ⟨hall, hkeeps⟩
    constructor
    · exact (hall ⟨fun _ => none, []⟩).not_granted
    · exact hkeeps.fits
  · intro hclean
    exact ⟨fun driver => allOrNothing_of_not_granted driver hclean.small, hclean.keepsAgreement⟩

/-- A driver without 64-bit requests unmaps a page on its 32-bit request. The call reports that it
is unsupported, and the region list keeps the page. -/
theorem unmapGuestMemory_unsupported_unmapped :
    let vm : VirtualMachine := ⟨⟨36⟩, ⟨false, false⟩, [⟨0x1000, 0x1000, 0x10000⟩]⟩
    let driver : HaxDriver := ⟨(⟨0x1000, 0x1000, 0x10000⟩ : MemoryRegion).translate, []⟩
    ∃ driver', unmapGuestMemory ⟨4, 0⟩ (fun _ => true) driver 0x1000 0x1000 vm =
        some (.Unsupported, vm, driver') ∧
      driver.mapping 0x1000 = some 0x10000 ∧ driver'.mapping 0x1000 = none ∧
      ¬ AllOrNothing ⟨4, 0⟩ (fun _ => true) driver 0x1000 0x1000 := by
  refine ⟨_, rfl, by decide, by decide, fun h => ?_⟩
  have hrefused := h.not_granted (by decide) (by decide)
  cases hrefused

end HaxmVirtualMachine

end Virt86
