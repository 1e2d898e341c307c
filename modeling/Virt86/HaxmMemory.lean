import Mathlib.Data.List.Chain
import Virt86.GuestMemory
import Virt86.HaxmUnmapping

/-!
# The guest's memory on HAXM

Mapping registers the host block with the driver and then maps it, in requests with a 32-bit or a
64-bit size. That a block could not be registered is taken to mean that it was registered before.
The driver keeps what the guest sees: host bytes, which of them the guest may write, and a
protection that is set apart from the mapping.
-/

namespace Virt86

open RightsMaps

def HAX_CAP_64BIT_RAMBLOCK : U16 := 1 <<< 3
def HAX_CAP_RAM_PROTECTION : U16 := 1 <<< 6
def HAX_RAM_INFO_ROM : U8 := 0x01
def HAX_RAM_PERM_RWX : U32 := 0x7

namespace HaxSetRam

def va : HaxSetRam → U64
  | setRam _ _ _ va => va
  | setRam2 _ _ va .. => va

/-- The request is to unmap its range. -/
def invalid : HaxSetRam → Bool
  | setRam _ _ flags _ => flags &&& HAX_RAM_INFO_INVALID != 0
  | setRam2 _ _ _ flags .. => flags &&& HAX_RAM_INFO_INVALID.setWidth 32 != 0

def rom : HaxSetRam → Bool
  | setRam _ _ flags _ => flags &&& HAX_RAM_INFO_ROM != 0
  | setRam2 _ _ _ flags .. => flags &&& HAX_RAM_INFO_ROM.setWidth 32 != 0

/-- What the driver makes of the guest's memory when it grants the request. -/
def grant (ram : U64 → Option (U64 × Bool)) (r : HaxSetRam) : U64 → Option (U64 × Bool) :=
  fun a =>
    if r.Covers a then if r.invalid then none else some (r.va + (a - r.paStart), !r.rom)
    else ram a

end HaxSetRam

/-- The requests to the driver about memory. -/
inductive HaxMemoryRequest where
  | allocRam (size : U32) (va : U64)
  | addRamblock (start_va size reserved : U64)
  | setRam (request : HaxSetRam)
  | protectRam (pa_start size : U64) (flags : U32)
  deriving DecidableEq, Repr

/-- What the guest sees, and the requests the driver got with its answers. A byte of the guest's
memory is the host's byte and whether the guest may write it. -/
structure HaxGuest where
  ram : U64 → Option (U64 × Bool)
  protection : U64 → U32
  requests : List (HaxMemoryRequest × Bool)

namespace HaxGuest

def initial : HaxGuest := ⟨fun _ => none, fun _ => HAX_RAM_PERM_RWX, []⟩

/-- The protection after a granted request about a range. -/
def protect (protection : U64 → U32) (pa_start size : U64) (flags : U32) : U64 → U32 := fun a =>
  if pa_start.toNat ≤ a.toNat ∧ a.toNat < pa_start.toNat + size.toNat then flags else protection a

/-- The driver after it answered a request. -/
def answered (guest : HaxGuest) (r : HaxMemoryRequest) (granted : Bool) : HaxGuest where
  ram := match r, granted with
    | .setRam request, true => request.grant guest.ram
    | _, _ => guest.ram
  protection := match r, granted with
    | .protectRam pa_start size flags, true => protect guest.protection pa_start size flags
    | _, _ => guest.protection
  requests := guest.requests ++ [(r, granted)]

/-- The driver after it answered requests to map and unmap in order. -/
def followed (guest : HaxGuest) (requests : List (HaxSetRam × Bool)) : HaxGuest :=
  requests.foldl (fun guest entry => guest.answered (.setRam entry.1) entry.2) guest

end HaxGuest

/-! ## The requests of the Linux module -/

namespace HaxmVirtualMachineSysImpl

variable (guest : HaxGuest) (ioctl : HaxMemoryRequest → Bool)

def mapHostMemory (memory : U64) (size : U32) : MemoryMappingStatus × HaxGuest :=
  let memInfo := .allocRam size memory
  (if ioctl memInfo then .OK else .AlreadyAllocated, guest.answered memInfo (ioctl memInfo))

def mapHostMemoryLarge (memory size : U64) : MemoryMappingStatus × HaxGuest :=
  let memInfo := .addRamblock memory size 0
  (if ioctl memInfo then .OK else .AlreadyAllocated, guest.answered memInfo (ioctl memInfo))

def ramFlags (flags : MemoryFlags) : U8 := if flags.anyOf .Write then 0 else HAX_RAM_INFO_ROM

def mapRequest (baseAddress : U64) (size : U32) (flags : MemoryFlags) (memory : U64) :
    HaxSetRam :=
  .setRam baseAddress size (ramFlags flags) memory

def mapRequestLarge (baseAddress size : U64) (flags : MemoryFlags) (memory : U64) : HaxSetRam :=
  .setRam2 baseAddress size memory ((ramFlags flags).setWidth 32) 0 0

/-- `MapGuestMemory` and `MapGuestMemoryLarge`, which differ in the request. -/
def mapGuestMemory (setMemInfo : HaxSetRam) : MemoryMappingStatus × HaxGuest :=
  let request := .setRam setMemInfo
  (if ioctl request then .OK else .Failed, guest.answered request (ioctl request))

def setGuestMemoryFlagsLarge (baseAddress size : U64) (flags : MemoryFlags) : Bool × HaxGuest :=
  let protectInfo := .protectRam baseAddress size flags
  (ioctl protectInfo, guest.answered protectInfo (ioctl protectInfo))

end HaxmVirtualMachineSysImpl

namespace HaxmVirtualMachine

open HaxmVirtualMachineSysImpl

variable (platform : HaxPlatform) (ioctl : HaxMemoryRequest → Bool) (guest : HaxGuest)

def mapGuestMemoryImpl (baseAddress size : U64) (flags : MemoryFlags) (memory : U64) :
    MemoryMappingStatus × HaxGuest :=
  if size ≤ 0xFFFFFFFF then
    let result := mapHostMemory guest ioctl memory (size.setWidth 32)
    if result.1 ≠ .OK ∧ result.1 ≠ .AlreadyAllocated then result
    else
      HaxmVirtualMachineSysImpl.mapGuestMemory result.2 ioctl
        (mapRequest baseAddress (size.setWidth 32) flags memory)
  else if platform.winfo &&& (HAX_CAP_64BIT_SETRAM ||| HAX_CAP_64BIT_RAMBLOCK) = 0 then
    (.Unsupported, guest)
  else
    let result := mapHostMemoryLarge guest ioctl memory size
    if result.1 ≠ .OK ∧ result.1 ≠ .AlreadyAllocated then result
    else
      HaxmVirtualMachineSysImpl.mapGuestMemory result.2 ioctl
        (mapRequestLarge baseAddress size flags memory)

def setGuestMemoryFlagsImpl (baseAddress size : U64) (flags : MemoryFlags) :
    MemoryMappingStatus × HaxGuest :=
  if platform.winfo &&& HAX_CAP_RAM_PROTECTION = 0 then (.Unsupported, guest)
  else
    let result := setGuestMemoryFlagsLarge guest ioctl baseAddress size flags
    if result.1 then (.OK, result.2) else (.Failed, result.2)

/-- `VirtualMachine::MapGuestMemory` over the driver. -/
def mapGuestMemory (vm : VirtualMachine) (baseAddress size : U64) (flags : MemoryFlags)
    (memory : U64) : MemoryMappingStatus × VirtualMachine × HaxGuest :=
  match vm.mapRefusal baseAddress size memory with
  | some status => (status, vm, guest)
  | none =>
    match mapGuestMemoryImpl platform ioctl guest baseAddress size flags memory with
    | (.OK, guest) =>
      (.OK, { vm with memoryRegions := vm.memoryRegions ++ [⟨baseAddress, size, memory⟩] }, guest)
    | (status, guest) => (status, vm, guest)

/-- `VirtualMachine::SetGuestMemoryFlags` over the driver. -/
def setGuestMemoryFlags (vm : VirtualMachine) (baseAddress size : U64) (flags : MemoryFlags) :
    MemoryMappingStatus × VirtualMachine × HaxGuest :=
  match vm.rangeRefusal baseAddress size with
  | some status => (status, vm, guest)
  | none =>
    ((setGuestMemoryFlagsImpl platform ioctl guest baseAddress size flags).1, vm,
      (setGuestMemoryFlagsImpl platform ioctl guest baseAddress size flags).2)

end HaxmVirtualMachine

/-- A call about the guest's memory, with the driver's answers. -/
structure HaxMemoryCall where
  call : GuestMemoryCall
  ioctl : HaxMemoryRequest → Bool

namespace HaxMemoryCall

open HaxmVirtualMachine

variable (platform : HaxPlatform)

def exec (s : VirtualMachine × HaxGuest) (o : HaxMemoryCall) :
    Option (MemoryMappingStatus × VirtualMachine × HaxGuest) :=
  match o.call with
  | .map baseAddress size flags memory =>
    some (mapGuestMemory platform o.ioctl s.2 s.1 baseAddress size flags memory)
  | .unmap baseAddress size =>
    (unmapGuestMemory platform (fun r => o.ioctl (.setRam r)) ⟨host s.2.ram, []⟩ baseAddress size
      s.1).map fun result => (result.1, result.2.1, s.2.followed result.2.2.requests)
  | .setFlags baseAddress size flags =>
    some (setGuestMemoryFlags platform o.ioctl s.2 s.1 baseAddress size flags)

end HaxMemoryCall

/-! ## What a granted request does -/

namespace HaxSetRam

/-- The request maps a range to a host block, with the right to write that the flags ask for. -/
structure Maps (r : HaxSetRam) (baseAddress size : U64) (flags : MemoryFlags) (memory : U64) :
    Prop where
  paStart_eq : r.paStart = baseAddress
  bytes_eq : r.bytes = size.toNat
  va_eq : r.va = memory
  invalid_eq : r.invalid = false
  rom_eq : r.rom = !flags.anyOf .Write

variable {r : HaxSetRam} {baseAddress size memory : U64} {flags : MemoryFlags}

theorem Maps.covers_iff (h : r.Maps baseAddress size flags memory) (a : U64) :
    r.Covers a ↔ a ∈ addressRange baseAddress size := by
  rw [Covers, h.paStart_eq, h.bytes_eq]
  rfl

/-- A granted request to map shows the guest the block. -/
theorem Maps.grant_eq (h : r.Maps baseAddress size flags memory)
    (ram : U64 → Option (U64 × Bool)) :
    r.grant ram = (GuestMemoryCall.change (·.anyOf .Write)
      (.map baseAddress size flags memory, .OK)).apply ram := by
  funext a
  simp only [GuestMemoryCall.change, Change.apply]
  by_cases ha : a ∈ addressRange baseAddress size
  · rw [LayeredMaps.overwrite_of_mem _ _ ha, grant, if_pos ((h.covers_iff a).mpr ha),
      h.invalid_eq, h.rom_eq, h.va_eq, h.paStart_eq, Bool.not_not]
    rfl
  · rw [LayeredMaps.overwrite_of_notMem _ _ ha, grant, if_neg (mt (h.covers_iff a).mp ha)]

theorem maps_mapRequest (hsize : size ≤ 0xFFFFFFFF) :
    (HaxmVirtualMachineSysImpl.mapRequest baseAddress (size.setWidth 32) flags memory).Maps
      baseAddress size flags memory where
  paStart_eq := rfl
  bytes_eq := by
    simp only [HaxmVirtualMachineSysImpl.mapRequest, bytes]
    bv_omega
  va_eq := rfl
  invalid_eq := by
    cases hwrite : flags.anyOf .Write <;>
      simp [invalid, HaxmVirtualMachineSysImpl.mapRequest, HaxmVirtualMachineSysImpl.ramFlags,
        hwrite, HAX_RAM_INFO_INVALID, HAX_RAM_INFO_ROM]
  rom_eq := by
    cases hwrite : flags.anyOf .Write <;>
      simp [rom, HaxmVirtualMachineSysImpl.mapRequest, HaxmVirtualMachineSysImpl.ramFlags,
        hwrite, HAX_RAM_INFO_ROM]

theorem maps_mapRequestLarge (baseAddress size : U64) (flags : MemoryFlags) (memory : U64) :
    (HaxmVirtualMachineSysImpl.mapRequestLarge baseAddress size flags memory).Maps
      baseAddress size flags memory where
  paStart_eq := rfl
  bytes_eq := rfl
  va_eq := rfl
  invalid_eq := by
    cases hwrite : flags.anyOf .Write <;>
      simp [invalid, HaxmVirtualMachineSysImpl.mapRequestLarge,
        HaxmVirtualMachineSysImpl.ramFlags, hwrite, HAX_RAM_INFO_INVALID, HAX_RAM_INFO_ROM]
  rom_eq := by
    cases hwrite : flags.anyOf .Write <;>
      simp [rom, HaxmVirtualMachineSysImpl.mapRequestLarge,
        HaxmVirtualMachineSysImpl.ramFlags, hwrite, HAX_RAM_INFO_ROM]

/-- A granted request to unmap takes the range from the guest. -/
theorem grant_of_invalid (hinvalid : r.invalid = true) (hstart : r.paStart = baseAddress)
    (hbytes : r.bytes = size.toNat) (ram : U64 → Option (U64 × Bool)) :
    r.grant ram = LayeredMaps.erase ram (addressRange baseAddress size) := by
  have hcovers : ∀ a, r.Covers a ↔ a ∈ addressRange baseAddress size := by
    intro a
    rw [Covers, hstart, hbytes]
    rfl
  funext a
  by_cases ha : a ∈ addressRange baseAddress size
  · rw [LayeredMaps.erase_of_mem _ ha, grant, if_pos ((hcovers a).mpr ha), if_pos hinvalid]
  · rw [LayeredMaps.erase_of_notMem _ ha, grant, if_neg (mt (hcovers a).mp ha)]

theorem grant_unmapRequest (hsize : size ≤ 0xFFFFFFFF) (ram : U64 → Option (U64 × Bool)) :
    (HaxmVirtualMachine.unmapRequest baseAddress (size.setWidth 32)).grant ram =
      LayeredMaps.erase ram (addressRange baseAddress size) := by
  refine grant_of_invalid rfl rfl ?_ ram
  simp only [HaxmVirtualMachine.unmapRequest, bytes]
  bv_omega

theorem grant_unmapRequestLarge (baseAddress size : U64) (ram : U64 → Option (U64 × Bool)) :
    (HaxmVirtualMachine.unmapRequestLarge baseAddress size).grant ram =
      LayeredMaps.erase ram (addressRange baseAddress size) :=
  grant_of_invalid rfl rfl rfl ram

end HaxSetRam

/-! ## What the calls do -/

/-- The request makes the host block of another known to the driver. -/
def HaxMemoryRequest.Registers : HaxMemoryRequest → HaxSetRam → Prop
  | .allocRam size va, r => va = r.va ∧ size.toNat = r.bytes
  | .addRamblock start_va size _, r => start_va = r.va ∧ size.toNat = r.bytes
  | _, _ => False

/-- The request is not one to map a block. -/
def HaxMemoryRequest.MapsNothing (request : HaxMemoryRequest) : Prop :=
  ∀ r, request = .setRam r → r.invalid = true

/-- Each request to map comes right after the one that registers its block. -/
structure Registered (requests : List (HaxMemoryRequest × Bool)) : Prop where
  chain : requests.IsChain fun before entry =>
    ∀ r, entry.1 = .setRam r → r.invalid = false → before.1.Registers r
  head : ∀ entry ∈ requests.head?, entry.1.MapsNothing

namespace Registered

variable {requests : List (HaxMemoryRequest × Bool)}

theorem nil : Registered [] := ⟨List.isChain_nil, by simp⟩

theorem append (h : Registered requests) {request : HaxMemoryRequest}
    (hrequest : request.MapsNothing) (granted : Bool) :
    Registered (requests ++ [(request, granted)]) where
  chain := by
    rw [List.isChain_append]
    refine ⟨h.chain, List.isChain_singleton _, ?_⟩
    rintro before - entry hentry r hr hvalid
    simp only [List.head?_cons, Option.mem_def, Option.some.injEq] at hentry
    subst hentry
    rw [hrequest r hr] at hvalid
    cases hvalid
  head := by
    intro entry hentry
    cases requests with
    | nil =>
      simp only [List.nil_append, List.head?_cons, Option.mem_def, Option.some.injEq] at hentry
      subst hentry
      exact hrequest
    | cons first rest => exact h.head entry hentry

theorem append_map (h : Registered requests) {registration : HaxMemoryRequest} {r : HaxSetRam}
    (hregisters : registration.Registers r) (hnothing : registration.MapsNothing)
    (registered granted : Bool) :
    Registered (requests ++ [(registration, registered)] ++ [(.setRam r, granted)]) where
  chain := by
    rw [List.isChain_append]
    refine ⟨(h.append hnothing registered).chain, List.isChain_singleton _, ?_⟩
    intro before hbefore entry hentry r' hr' _
    simp only [List.getLast?_append, List.getLast?_singleton, Option.some_or, Option.mem_def,
      Option.some.injEq] at hbefore
    simp only [List.head?_cons, Option.mem_def, Option.some.injEq] at hentry
    subst hbefore hentry
    obtain rfl := HaxMemoryRequest.setRam.inj hr'
    exact hregisters
  head := by
    intro entry hentry
    refine (h.append hnothing registered).head entry ?_
    cases requests <;> exact hentry

end Registered

namespace HaxmVirtualMachine

open HaxmVirtualMachineSysImpl

variable {platform : HaxPlatform} {ioctl : HaxMemoryRequest → Bool} {guest : HaxGuest}

/-- That the driver refuses to register a block does not end a call. -/
theorem mapHostMemory_tolerated (guest : HaxGuest) (ioctl : HaxMemoryRequest → Bool)
    (memory : U64) (size : U32) :
    ¬ ((mapHostMemory guest ioctl memory size).1 ≠ .OK ∧
      (mapHostMemory guest ioctl memory size).1 ≠ .AlreadyAllocated) := by
  rw [mapHostMemory]
  cases ioctl (.allocRam size memory) <;> simp

theorem mapHostMemoryLarge_tolerated (guest : HaxGuest) (ioctl : HaxMemoryRequest → Bool)
    (memory size : U64) :
    ¬ ((mapHostMemoryLarge guest ioctl memory size).1 ≠ .OK ∧
      (mapHostMemoryLarge guest ioctl memory size).1 ≠ .AlreadyAllocated) := by
  rw [mapHostMemoryLarge]
  cases ioctl (.addRamblock memory size 0) <;> simp

/-- What the platform's part of a map call does: nothing, or it registers the block and asks for
the mapping. -/
theorem mapGuestMemoryImpl_cases (platform : HaxPlatform) (ioctl : HaxMemoryRequest → Bool)
    (guest : HaxGuest) (baseAddress size : U64) (flags : MemoryFlags) (memory : U64) :
    mapGuestMemoryImpl platform ioctl guest baseAddress size flags memory = (.Unsupported, guest) ∨
    ∃ registration r, registration.Registers r ∧ registration.MapsNothing ∧
      r.Maps baseAddress size flags memory ∧
      mapGuestMemoryImpl platform ioctl guest baseAddress size flags memory =
        (if ioctl (.setRam r) then .OK else .Failed,
          (guest.answered registration (ioctl registration)).answered (.setRam r)
            (ioctl (.setRam r))) := by
  have hnothing : ∀ {registration : HaxMemoryRequest},
      (∀ r, registration ≠ .setRam r) → registration.MapsNothing := by
    intro registration hregistration r hr
    exact absurd hr (hregistration r)
  by_cases hsize : size ≤ 0xFFFFFFFF
  · right
    refine ⟨.allocRam (size.setWidth 32) memory,
      mapRequest baseAddress (size.setWidth 32) flags memory, ⟨rfl, rfl⟩, hnothing (by simp),
      HaxSetRam.maps_mapRequest hsize, ?_⟩
    rw [mapGuestMemoryImpl, if_pos hsize]
    exact if_neg (mapHostMemory_tolerated guest ioctl memory (size.setWidth 32))
  by_cases hcap : platform.winfo &&& (HAX_CAP_64BIT_SETRAM ||| HAX_CAP_64BIT_RAMBLOCK) = 0
  · left
    rw [mapGuestMemoryImpl, if_neg hsize, if_pos hcap]
  · right
    refine ⟨.addRamblock memory size 0, mapRequestLarge baseAddress size flags memory,
      ⟨rfl, rfl⟩, hnothing (by simp), HaxSetRam.maps_mapRequestLarge baseAddress size flags memory,
      ?_⟩
    rw [mapGuestMemoryImpl, if_neg hsize, if_neg hcap]
    exact if_neg (mapHostMemoryLarge_tolerated guest ioctl memory size)

/-- The base class's own function, over the status of the platform's. -/
theorem mapGuestMemory_base (platform : HaxPlatform) (ioctl : HaxMemoryRequest → Bool)
    (guest : HaxGuest) (vm : VirtualMachine) (baseAddress size : U64) (flags : MemoryFlags)
    (memory : U64) :
    vm.mapGuestMemory (fun b s f m => (mapGuestMemoryImpl platform ioctl guest b s f m).1)
        baseAddress size flags memory =
      ((mapGuestMemory platform ioctl guest vm baseAddress size flags memory).1,
        (mapGuestMemory platform ioctl guest vm baseAddress size flags memory).2.1) := by
  cases hrefusal : vm.mapRefusal baseAddress size memory with
  | some status =>
    rw [VirtualMachine.mapGuestMemory_of_refusal hrefusal, mapGuestMemory, hrefusal]
  | none =>
    rw [VirtualMachine.mapGuestMemory_of_accepted hrefusal, mapGuestMemory, hrefusal]
    obtain ⟨status, guest'⟩ := mapGuestMemoryImpl platform ioctl guest baseAddress size flags memory
    cases status <;> rfl

/-- The driver after a map call: as it was, or as the platform's part left it. -/
theorem mapGuestMemory_guest (platform : HaxPlatform) (ioctl : HaxMemoryRequest → Bool)
    (guest : HaxGuest) (vm : VirtualMachine) (baseAddress size : U64) (flags : MemoryFlags)
    (memory : U64) :
    (mapGuestMemory platform ioctl guest vm baseAddress size flags memory).1 ≠ .OK ∧
        (mapGuestMemory platform ioctl guest vm baseAddress size flags memory).2.2 = guest ∨
      (mapGuestMemory platform ioctl guest vm baseAddress size flags memory).1 =
          (mapGuestMemoryImpl platform ioctl guest baseAddress size flags memory).1 ∧
        (mapGuestMemory platform ioctl guest vm baseAddress size flags memory).2.2 =
          (mapGuestMemoryImpl platform ioctl guest baseAddress size flags memory).2 := by
  rw [mapGuestMemory]
  cases hrefusal : vm.mapRefusal baseAddress size memory with
  | some status => exact .inl ⟨VirtualMachine.mapRefusal_ne_OK hrefusal, rfl⟩
  | none =>
    obtain ⟨status, guest'⟩ := mapGuestMemoryImpl platform ioctl guest baseAddress size flags memory
    cases status <;> exact .inr ⟨rfl, rfl⟩

/-- The requests of an unmap call that is not left half done: one that is refused at most, or
granted ones about the range. -/
def UnmapRequests (baseAddress size : U64) (status : MemoryMappingStatus)
    (requests : List (HaxSetRam × Bool)) : Prop :=
  (status ≠ .OK ∧ (requests = [] ∨ ∃ r : HaxSetRam, r.invalid = true ∧ requests = [(r, false)])) ∨
  (status = .OK ∧ (requests = [(unmapRequestLarge baseAddress size, true)] ∨
    (size ≤ 0xFFFFFFFF ∧ requests = [(unmapRequest baseAddress (size.setWidth 32), true),
      (unmapRequestLarge baseAddress size, true)])))

/-- A granted request with a 32-bit size is followed by a granted one with a 64-bit size. -/
def Whole (platform : HaxPlatform) (ioctl : HaxMemoryRequest → Bool) (baseAddress size : U64) :
    Prop :=
  ¬ platform.cur_version < 4 → size ≤ 0xFFFFFFFF →
    ioctl (.setRam (unmapRequest baseAddress (size.setWidth 32))) = true →
    platform.winfo &&& HAX_CAP_64BIT_SETRAM ≠ 0 ∧
      ioctl (.setRam (unmapRequestLarge baseAddress size)) = true

instance (platform : HaxPlatform) (ioctl : HaxMemoryRequest → Bool) (baseAddress size : U64) :
    Decidable (Whole platform ioctl baseAddress size) :=
  inferInstanceAs (Decidable (_ → _ → _ → _))

theorem unmapGuestMemoryLarge_requests (platform : HaxPlatform) (ioctl : HaxSetRam → Bool)
    (driver : HaxDriver) (baseAddress size : U64) :
    (unmapGuestMemoryLarge platform ioctl driver baseAddress size).2.requests =
        driver.requests ++ (if platform.winfo &&& HAX_CAP_64BIT_SETRAM = 0 then []
          else [(unmapRequestLarge baseAddress size, ioctl (unmapRequestLarge baseAddress size))]) ∧
      ((unmapGuestMemoryLarge platform ioctl driver baseAddress size).1 = .OK ↔
        platform.winfo &&& HAX_CAP_64BIT_SETRAM ≠ 0 ∧
          ioctl (unmapRequestLarge baseAddress size) = true) := by
  by_cases hcap : platform.winfo &&& HAX_CAP_64BIT_SETRAM = 0
  · rw [unmapGuestMemoryLarge_unsupported hcap, if_pos hcap, List.append_nil]
    exact ⟨rfl, by simp [hcap]⟩
  · rw [unmapGuestMemoryLarge_supported hcap, if_neg hcap]
    refine ⟨rfl, ?_⟩
    rw [and_iff_right hcap]
    cases ioctl (unmapRequestLarge baseAddress size) <;> simp

theorem unmapGuestMemoryImpl_requests {baseAddress size : U64}
    (hwhole : Whole platform ioctl baseAddress size) (mapping : U64 → Option U64) :
    UnmapRequests baseAddress size
      (unmapGuestMemoryImpl platform (fun r => ioctl (.setRam r)) ⟨mapping, []⟩ baseAddress size).1
      (unmapGuestMemoryImpl platform (fun r => ioctl (.setRam r)) ⟨mapping, []⟩ baseAddress
        size).2.requests := by
  by_cases hversion : platform.cur_version < 4
  · rw [unmapGuestMemoryImpl, if_pos hversion]
    exact .inl ⟨by simp, .inl rfl⟩
  by_cases hsize : size ≤ 0xFFFFFFFF
  · rw [unmapGuestMemoryImpl_small hversion hsize]
    cases hsmall : ioctl (.setRam (unmapRequest baseAddress (size.setWidth 32))) with
    | false =>
      rw [HaxDriver.unmap_rejected _ hsmall]
      exact .inl ⟨by simp, .inr ⟨_, rfl, rfl⟩⟩
    | true =>
      obtain ⟨hcap, hlarge⟩ := hwhole hversion hsize hsmall
      rw [HaxDriver.unmap_granted _ hsmall]
      obtain ⟨hrequests, hok⟩ := unmapGuestMemoryLarge_requests platform
        (fun r => ioctl (.setRam r)) ⟨fun a => if (unmapRequest baseAddress
          (size.setWidth 32)).Covers a then none else mapping a, [] ++ [(unmapRequest baseAddress
          (size.setWidth 32), true)]⟩ baseAddress size
      rw [if_neg hcap, hlarge] at hrequests
      exact .inr ⟨hok.mpr ⟨hcap, hlarge⟩, .inr ⟨hsize, hrequests⟩⟩
  · rw [unmapGuestMemoryImpl_large hversion hsize]
    obtain ⟨hrequests, hok⟩ := unmapGuestMemoryLarge_requests platform
      (fun r => ioctl (.setRam r)) ⟨mapping, []⟩ baseAddress size
    by_cases hcap : platform.winfo &&& HAX_CAP_64BIT_SETRAM = 0
    · rw [if_pos hcap] at hrequests
      exact .inl ⟨by simp [hok, hcap], .inl hrequests⟩
    rw [if_neg hcap] at hrequests
    cases hlarge : ioctl (.setRam (unmapRequestLarge baseAddress size)) with
    | false =>
      rw [hlarge] at hrequests
      exact .inl ⟨by simp [hok, hlarge], .inr ⟨_, rfl, hrequests⟩⟩
    | true =>
      rw [hlarge] at hrequests
      exact .inr ⟨hok.mpr ⟨hcap, hlarge⟩, .inl hrequests⟩

/-- The requests of an unmap call of the virtual machine. -/
theorem unmapGuestMemory_requests {baseAddress size : U64}
    (hwhole : Whole platform ioctl baseAddress size) (mapping : U64 → Option U64)
    {vm vm' : VirtualMachine} {status : MemoryMappingStatus} {driver : HaxDriver}
    (h : unmapGuestMemory platform (fun r => ioctl (.setRam r)) ⟨mapping, []⟩ baseAddress size vm =
      some (status, vm', driver)) : UnmapRequests baseAddress size status driver.requests := by
  rw [unmapGuestMemory] at h
  cases hrefusal : vm.rangeRefusal baseAddress size with
  | some refused =>
    rw [hrefusal] at h
    simp only [Option.some.injEq, Prod.mk.injEq] at h
    obtain ⟨rfl, -, rfl⟩ := h
    exact .inl ⟨VirtualMachine.rangeRefusal_ne_OK hrefusal, .inl rfl⟩
  | none =>
    rw [hrefusal] at h
    have hrequests := unmapGuestMemoryImpl_requests hwhole mapping
    generalize unmapGuestMemoryImpl platform (fun r => ioctl (.setRam r)) ⟨mapping, []⟩ baseAddress
      size = result at h hrequests
    obtain ⟨status', driver'⟩ := result
    have hresult : status = status' ∧ driver = driver' := by
      cases status'
      case OK =>
        simp only [Option.map_eq_some_iff, Prod.mk.injEq] at h
        obtain ⟨_, -, rfl, -, rfl⟩ := h
        exact ⟨rfl, rfl⟩
      all_goals
        simp only [Option.some.injEq, Prod.mk.injEq] at h
        exact ⟨h.1.symm, h.2.2.symm⟩
    obtain ⟨rfl, rfl⟩ := hresult
    exact hrequests

theorem unmapRequest_mapsNothing (baseAddress : U64) (size : U32) :
    (HaxMemoryRequest.setRam (unmapRequest baseAddress size)).MapsNothing := by
  rintro r ⟨⟩
  rfl

theorem unmapRequestLarge_mapsNothing (baseAddress size : U64) :
    (HaxMemoryRequest.setRam (unmapRequestLarge baseAddress size)).MapsNothing := by
  rintro r ⟨⟩
  rfl

/-- What the driver makes of the requests of an unmap call. -/
theorem followed_unmap {baseAddress size : U64} {status : MemoryMappingStatus}
    {requests : List (HaxSetRam × Bool)} (h : UnmapRequests baseAddress size status requests)
    (guest : HaxGuest) (hregistered : Registered guest.requests) :
    (guest.followed requests).ram = (GuestMemoryCall.change (·.anyOf .Write)
        (.unmap baseAddress size, status)).apply guest.ram ∧
      (guest.followed requests).protection = guest.protection ∧
      Registered (guest.followed requests).requests := by
  obtain ⟨hstatus, hrequests⟩ | ⟨rfl, hrequests⟩ := h
  · rw [GuestMemoryCall.change_unmap_failed _ _ _ hstatus]
    obtain rfl | ⟨r, hinvalid, rfl⟩ := hrequests
    · exact ⟨rfl, rfl, hregistered⟩
    · refine ⟨rfl, rfl, hregistered.append ?_ false⟩
      rintro r' ⟨⟩
      exact hinvalid
  · obtain rfl | ⟨hsize, rfl⟩ := hrequests
    · refine ⟨HaxSetRam.grant_unmapRequestLarge baseAddress size guest.ram, rfl, ?_⟩
      exact hregistered.append (unmapRequestLarge_mapsNothing baseAddress size) true
    · refine ⟨?_, rfl, ?_⟩
      · refine (HaxSetRam.grant_unmapRequestLarge baseAddress size
          ((unmapRequest baseAddress (size.setWidth 32)).grant guest.ram)).trans ?_
        rw [HaxSetRam.grant_unmapRequest hsize, LayeredMaps.erase_erase]
        rfl
      · exact (hregistered.append (unmapRequest_mapsNothing baseAddress _) true).append
          (unmapRequestLarge_mapsNothing baseAddress size) true

end HaxmVirtualMachine

/-! ## Runs -/

/-- The protection after calls that returned the given statuses. -/
def guestProtection (log : List (GuestMemoryCall × MemoryMappingStatus)) : U64 → U32 :=
  log.foldl (fun protection entry => match entry with
    | (.setFlags baseAddress size flags, .OK) => HaxGuest.protect protection baseAddress size flags
    | _ => protection) fun _ => HAX_RAM_PERM_RWX

theorem guestProtection_append_map (log : List (GuestMemoryCall × MemoryMappingStatus))
    (baseAddress size : U64) (flags : MemoryFlags) (memory : U64) (status : MemoryMappingStatus) :
    guestProtection (log ++ [(.map baseAddress size flags memory, status)]) =
      guestProtection log := by
  rw [guestProtection, List.foldl_append]
  rfl

theorem guestProtection_append_unmap (log : List (GuestMemoryCall × MemoryMappingStatus))
    (baseAddress size : U64) (status : MemoryMappingStatus) :
    guestProtection (log ++ [(.unmap baseAddress size, status)]) = guestProtection log := by
  rw [guestProtection, List.foldl_append]
  rfl

theorem guestProtection_append_setFlags (log : List (GuestMemoryCall × MemoryMappingStatus))
    (baseAddress size : U64) (flags : MemoryFlags) (status : MemoryMappingStatus) :
    guestProtection (log ++ [(.setFlags baseAddress size flags, status)]) =
      if status = .OK then HaxGuest.protect (guestProtection log) baseAddress size flags
      else guestProtection log := by
  rw [guestProtection, List.foldl_append]
  cases status <;> rfl

/-- The region list, what the guest sees and the driver's requests have all followed the calls. -/
structure HaxmFollows (s : VirtualMachine × HaxGuest)
    (log : List (GuestMemoryCall × MemoryMappingStatus)) : Prop where
  memory : GuestFollows (·.anyOf .Write) s.1 s.2.ram log
  protection : s.2.protection = guestProtection log
  registered : Registered s.2.requests

namespace HaxMemoryCall

open HaxmVirtualMachine

variable {platform : HaxPlatform} {s : VirtualMachine × HaxGuest}
  {log : List (GuestMemoryCall × MemoryMappingStatus)}

/-- The ranges end within the address space. An unmap call is not left half done, and when it is
granted it adjoins every region. -/
def Orderly (platform : HaxPlatform) (s : VirtualMachine × HaxGuest) (o : HaxMemoryCall) : Prop :=
  match o.call with
  | .map baseAddress size _ _ => RangeFits baseAddress size
  | .unmap baseAddress size => RangeFits baseAddress size ∧
      Whole platform o.ioctl baseAddress size ∧
      ∀ r ∈ s.1.memoryRegions, r.Adjoins baseAddress size
  | .setFlags .. => True

/-- The driver after a map call. -/
theorem mapGuestMemory_driver (platform : HaxPlatform) (ioctl : HaxMemoryRequest → Bool)
    (guest : HaxGuest) (vm : VirtualMachine) (baseAddress size : U64) (flags : MemoryFlags)
    (memory : U64) (hregistered : Registered guest.requests) :
    let result := mapGuestMemory platform ioctl guest vm baseAddress size flags memory
    result.2.2.ram = (GuestMemoryCall.change (·.anyOf .Write)
        (.map baseAddress size flags memory, result.1)).apply guest.ram ∧
      result.2.2.protection = guest.protection ∧ Registered result.2.2.requests := by
  intro result
  obtain ⟨hstatus, hguest⟩ | ⟨hstatus, hguest⟩ :=
    mapGuestMemory_guest platform ioctl guest vm baseAddress size flags memory
  · rw [GuestMemoryCall.change_map_failed _ _ _ _ _ hstatus, hguest]
    exact ⟨rfl, rfl, hregistered⟩
  obtain himpl | ⟨registration, r, hregisters, hnothing, hmaps, himpl⟩ :=
    mapGuestMemoryImpl_cases platform ioctl guest baseAddress size flags memory
  · rw [hstatus, hguest, himpl]
    exact ⟨rfl, rfl, hregistered⟩
  · have hram : (guest.answered registration (ioctl registration)).ram = guest.ram := by
      cases registration with
      | setRam request => cases hregisters
      | _ => rfl
    have hprotection : (guest.answered registration (ioctl registration)).protection =
        guest.protection := by
      cases registration with
      | protectRam => cases hregisters
      | _ => rfl
    have hchain := hregistered.append_map hregisters hnothing (ioctl registration)
      (ioctl (.setRam r))
    rw [hstatus, hguest, himpl]
    refine ⟨?_, hprotection, hchain⟩
    cases ioctl (.setRam r) with
    | false => exact hram
    | true =>
      refine (hmaps.grant_eq _).trans ?_
      rw [hram]
      rfl

theorem exec_map (h : HaxmFollows s log) (ioctl : HaxMemoryRequest → Bool)
    {baseAddress size : U64} (flags : MemoryFlags) (memory : U64)
    (hfits : RangeFits baseAddress size) :
    HaxmFollows (mapGuestMemory platform ioctl s.2 s.1 baseAddress size flags memory).2
      (log ++ [(.map baseAddress size flags memory,
        (mapGuestMemory platform ioctl s.2 s.1 baseAddress size flags memory).1)]) := by
  have hmemory := h.memory.map _ flags hfits
    (mapGuestMemory_base platform ioctl s.2 s.1 baseAddress size flags memory)
  obtain ⟨hram, hprotection, hregistered⟩ := mapGuestMemory_driver platform ioctl s.2 s.1
    baseAddress size flags memory h.registered
  constructor
  · rw [hram]
    exact hmemory
  · rw [hprotection, h.protection, guestProtection_append_map]
  · exact hregistered

theorem exec_unmap (h : HaxmFollows s log) {ioctl : HaxMemoryRequest → Bool}
    {baseAddress size : U64} (hfits : RangeFits baseAddress size)
    (hwhole : Whole platform ioctl baseAddress size)
    (hadj : ∀ r ∈ s.1.memoryRegions, r.Adjoins baseAddress size) :
    ∃ status s', exec platform s ⟨.unmap baseAddress size, ioctl⟩ = some (status, s') ∧
      HaxmFollows s' (log ++ [(.unmap baseAddress size, status)]) := by
  obtain ⟨status, vm', hcall, hmemory⟩ := h.memory.unmap
    (fun b n => (unmapGuestMemoryImpl platform (fun r => ioctl (.setRam r)) ⟨host s.2.ram, []⟩
      b n).1) hfits (fun _ => hadj)
  rw [unmapGuestMemory_base, Option.map_eq_some_iff] at hcall
  obtain ⟨⟨status', vm'', driver⟩, hunmap, heq⟩ := hcall
  rw [Prod.mk.injEq] at heq
  obtain ⟨rfl, rfl⟩ := heq
  obtain ⟨hram, hprotection, hregistered⟩ := followed_unmap
    (unmapGuestMemory_requests hwhole _ hunmap) s.2 h.registered
  refine ⟨status', (vm'', s.2.followed driver.requests), ?_, ?_, ?_, hregistered⟩
  · simp only [exec, hunmap, Option.map_some]
  · rw [hram]
    exact hmemory
  · rw [hprotection, h.protection, guestProtection_append_unmap]

theorem setGuestMemoryFlagsImpl_supported
    (hcap : platform.winfo &&& HAX_CAP_RAM_PROTECTION ≠ 0) (ioctl : HaxMemoryRequest → Bool)
    (guest : HaxGuest) (baseAddress size : U64) (flags : MemoryFlags) :
    setGuestMemoryFlagsImpl platform ioctl guest baseAddress size flags =
      (if ioctl (.protectRam baseAddress size flags) then .OK else .Failed,
        guest.answered (.protectRam baseAddress size flags)
          (ioctl (.protectRam baseAddress size flags))) := by
  rw [setGuestMemoryFlagsImpl, if_neg hcap]
  by_cases hioctl : ioctl (.protectRam baseAddress size flags) = true
  · rw [if_pos hioctl]
    exact if_pos hioctl
  · rw [if_neg hioctl]
    exact if_neg hioctl

theorem exec_setFlags (h : HaxmFollows s log) (ioctl : HaxMemoryRequest → Bool)
    (baseAddress size : U64) (flags : MemoryFlags) :
    HaxmFollows (setGuestMemoryFlags platform ioctl s.2 s.1 baseAddress size flags).2
      (log ++ [(.setFlags baseAddress size flags,
        (setGuestMemoryFlags platform ioctl s.2 s.1 baseAddress size flags).1)]) := by
  have hmemory := fun status => h.memory.setFlags baseAddress size flags status
  have hunchanged : ∀ {status : MemoryMappingStatus}, status ≠ .OK →
      HaxmFollows s (log ++ [(.setFlags baseAddress size flags, status)]) := by
    intro status hstatus
    refine ⟨hmemory status, ?_, h.registered⟩
    rw [guestProtection_append_setFlags, if_neg hstatus, h.protection]
  rw [setGuestMemoryFlags]
  cases hrefusal : s.1.rangeRefusal baseAddress size with
  | some status => exact hunchanged (VirtualMachine.rangeRefusal_ne_OK hrefusal)
  | none =>
    by_cases hcap : platform.winfo &&& HAX_CAP_RAM_PROTECTION = 0
    · simp only [setGuestMemoryFlagsImpl, if_pos hcap]
      exact hunchanged (by simp)
    have hnothing : (HaxMemoryRequest.protectRam baseAddress size flags).MapsNothing := by
      rintro r ⟨⟩
    have hchain := h.registered.append hnothing (ioctl (.protectRam baseAddress size flags))
    simp only [setGuestMemoryFlagsImpl_supported hcap]
    refine ⟨hmemory _, ?_, hchain⟩
    rw [guestProtection_append_setFlags, ← h.protection]
    cases ioctl (.protectRam baseAddress size flags) <;> rfl

/-- One call: it returns, and everything follows it. -/
theorem exec_follows {o : HaxMemoryCall} (ho : Orderly platform s o) (h : HaxmFollows s log) :
    ∃ status s', exec platform s o = some (status, s') ∧
      HaxmFollows s' (log ++ [(o.call, status)]) := by
  obtain ⟨call, ioctl⟩ := o
  cases call with
  | map baseAddress size flags memory => exact ⟨_, _, rfl, exec_map h ioctl flags memory ho⟩
  | unmap baseAddress size => exact exec_unmap h ho.1 ho.2.1 ho.2.2
  | setFlags baseAddress size flags =>
    exact ⟨_, _, rfl, exec_setFlags h ioctl baseAddress size flags⟩

end HaxMemoryCall

/-- An orderly run from an empty machine returns, and everything follows it. -/
theorem HaxmFollows.run (platform : HaxPlatform) (gpa : HostGPA) (features : PlatformFeatures)
    {calls : List HaxMemoryCall} (horderly : AlongSome (HaxMemoryCall.exec platform)
      (HaxMemoryCall.Orderly platform) (⟨gpa, features, []⟩, .initial) calls) (n : ℕ) :
    ∃ statuses s, runSome (HaxMemoryCall.exec platform) (⟨gpa, features, []⟩, .initial)
        (calls.take n) = some (statuses, s) ∧
      HaxmFollows s (((calls.take n).map HaxMemoryCall.call).zip statuses) := by
  have hstart : HaxmFollows (⟨gpa, features, []⟩, .initial) [] :=
    ⟨.empty _ gpa features, rfl, .nil⟩
  exact runSome_invariant HaxMemoryCall.call HaxmFollows
    (fun _ ho h => HaxMemoryCall.exec_follows ho h) (horderly.take n) hstart le_rfl

namespace HaxmVirtualMachine

/-- Two read-only pages are mapped, and the first of them is unmapped by both requests. -/
private def haxmTrimCalls : List HaxMemoryCall :=
  [⟨.map 0x1000 0x2000 1 0x10000, fun _ => true⟩, ⟨.unmap 0x1000 0x1000, fun _ => true⟩]

end HaxmVirtualMachine

end Virt86
