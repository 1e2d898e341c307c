import Virt86.DirtyBitmaps
import Virt86.GuestMemory
import Virt86.WhpxRegisters

/-!
# The guest's memory on WHPX

A partition maps ranges of guest physical addresses to host memory with rights of its own. The
dispatch function for dirty pages is missing on older systems, and it takes the size of its buffer
as a 32-bit number of bytes.
-/

namespace Virt86

open RightsMaps

namespace MemoryFlags

def Read : MemoryFlags := 1 <<< 0
def Execute : MemoryFlags := 1 <<< 2

end MemoryFlags

def WHvMapGpaRangeFlagNone : U32 := 0
def WHvMapGpaRangeFlagRead : U32 := 1
def WHvMapGpaRangeFlagWrite : U32 := 2
def WHvMapGpaRangeFlagExecute : U32 := 4
def WHvMapGpaRangeFlagTrackDirtyPages : U32 := 8

namespace Whpx

def toWHVFlags (whpxVersion : VersionInfo) (flags : MemoryFlags) : U32 :=
  WHvMapGpaRangeFlagNone |||
    (if flags.anyOf .Read then WHvMapGpaRangeFlagRead else 0) |||
    (if flags.anyOf .Write then WHvMapGpaRangeFlagWrite else 0) |||
    (if flags.anyOf .Execute then WHvMapGpaRangeFlagExecute else 0) |||
    (if flags.anyOf .DirtyPageTracking ∧ whpxVersion.ver ≥ (VersionInfo.mk 10 0 17763 0).ver then
      WHvMapGpaRangeFlagTrackDirtyPages else 0)

/-- The memory of a partition: host bytes and the rights to them. -/
abbrev GpaMap := U64 → Option (U64 × U32)

/-- `WHvMapGpaRange` when it succeeds. -/
def mapGpaRange (gpa : GpaMap) (sourceAddress guestAddress sizeInBytes : U64) (flags : U32) :
    GpaMap := fun a =>
  if guestAddress.toNat ≤ a.toNat ∧ a.toNat < guestAddress.toNat + sizeInBytes.toNat then
    some (sourceAddress + (a - guestAddress), flags)
  else gpa a

/-- `WHvUnmapGpaRange` when it succeeds. -/
def unmapGpaRange (gpa : GpaMap) (guestAddress sizeInBytes : U64) : GpaMap := fun a =>
  if guestAddress.toNat ≤ a.toNat ∧ a.toNat < guestAddress.toNat + sizeInBytes.toNat then none
  else gpa a

section Memory

variable (whpxVersion : VersionInfo) (gpa : GpaMap) (vm : VirtualMachine) (hr : Bool)
  (baseAddress size : U64)

def mapGuestMemoryImpl (flags : MemoryFlags) (memory : U64) : MemoryMappingStatus × GpaMap :=
  let whvFlags := toWHVFlags whpxVersion flags
  if whvFlags = WHvMapGpaRangeFlagNone then (.InvalidFlags, gpa)
  else if hr then (.OK, mapGpaRange gpa memory baseAddress size whvFlags)
  else (.Failed, gpa)

def unmapGuestMemoryImpl : MemoryMappingStatus × GpaMap :=
  if hr then (.OK, unmapGpaRange gpa baseAddress size) else (.Failed, gpa)

/-- `VirtualMachine::MapGuestMemory` over a partition. -/
def mapGuestMemory (flags : MemoryFlags) (memory : U64) :
    MemoryMappingStatus × VirtualMachine × GpaMap :=
  match vm.mapRefusal baseAddress size memory with
  | some status => (status, vm, gpa)
  | none =>
    match mapGuestMemoryImpl whpxVersion gpa hr baseAddress size flags memory with
    | (.OK, gpa) =>
      (.OK, { vm with memoryRegions := vm.memoryRegions ++ [⟨baseAddress, size, memory⟩] }, gpa)
    | (status, gpa) => (status, vm, gpa)

/-- `VirtualMachine::UnmapGuestMemory` over a partition. -/
def unmapGuestMemory : Option (MemoryMappingStatus × VirtualMachine × GpaMap) :=
  match vm.rangeRefusal baseAddress size with
  | some status => some (status, vm, gpa)
  | none =>
    match unmapGuestMemoryImpl gpa hr baseAddress size with
    | (.OK, gpa) => (subtractMemoryRange vm.memoryRegions baseAddress size).map
        fun regions => (.OK, { vm with memoryRegions := regions }, gpa)
    | (status, gpa) => some (status, vm, gpa)

/-- `SetGuestMemoryFlags`, whose platform part is the base class's. -/
def setGuestMemoryFlags : MemoryMappingStatus :=
  match vm.rangeRefusal baseAddress size with
  | some status => status
  | none => .Unsupported

end Memory

/-- A call about the guest's memory, with the hypervisor's answer. -/
structure WhpxMemoryCall where
  call : GuestMemoryCall
  hr : Bool

def WhpxMemoryCall.exec (whpxVersion : VersionInfo) (s : VirtualMachine × GpaMap)
    (o : WhpxMemoryCall) : Option (MemoryMappingStatus × VirtualMachine × GpaMap) :=
  match o.call with
  | .map baseAddress size flags memory =>
    some (mapGuestMemory whpxVersion s.2 s.1 o.hr baseAddress size flags memory)
  | .unmap baseAddress size => unmapGuestMemory s.2 s.1 o.hr baseAddress size
  | .setFlags baseAddress size _ => some (setGuestMemoryFlags s.1 baseAddress size, s)

/-! ## What the calls do -/

section Calls

variable {whpxVersion : VersionInfo} {gpa : GpaMap} {vm : VirtualMachine} {hr : Bool}
  {baseAddress size : U64} {flags : MemoryFlags} {memory : U64}

theorem mapGpaRange_eq (gpa : GpaMap) (baseAddress size : U64) (flags : MemoryFlags)
    (memory : U64) :
    mapGpaRange gpa memory baseAddress size (toWHVFlags whpxVersion flags) =
      (GuestMemoryCall.change (toWHVFlags whpxVersion)
        (.map baseAddress size flags memory, .OK)).apply gpa := by
  funext a
  simp only [GuestMemoryCall.change, Change.apply]
  by_cases ha : a ∈ addressRange baseAddress size
  · rw [LayeredMaps.overwrite_of_mem _ _ ha]
    exact if_pos ha
  · rw [LayeredMaps.overwrite_of_notMem _ _ ha]
    exact if_neg ha

theorem unmapGpaRange_eq (gpa : GpaMap) (baseAddress size : U64) :
    unmapGpaRange gpa baseAddress size = (GuestMemoryCall.change (toWHVFlags whpxVersion)
      (.unmap baseAddress size, .OK)).apply gpa := by
  funext a
  simp only [GuestMemoryCall.change, Change.apply]
  by_cases ha : a ∈ addressRange baseAddress size
  · rw [LayeredMaps.erase_of_mem _ ha]
    exact if_pos ha
  · rw [LayeredMaps.erase_of_notMem _ ha]
    exact if_neg ha

/-- The base class's own function, over the status of the platform's. -/
theorem mapGuestMemory_base (whpxVersion : VersionInfo) (gpa : GpaMap) (vm : VirtualMachine)
    (hr : Bool) (baseAddress size : U64) (flags : MemoryFlags) (memory : U64) :
    vm.mapGuestMemory (fun b s f m => (mapGuestMemoryImpl whpxVersion gpa hr b s f m).1)
        baseAddress size flags memory =
      ((mapGuestMemory whpxVersion gpa vm hr baseAddress size flags memory).1,
        (mapGuestMemory whpxVersion gpa vm hr baseAddress size flags memory).2.1) := by
  cases hrefusal : vm.mapRefusal baseAddress size memory with
  | some status =>
    rw [VirtualMachine.mapGuestMemory_of_refusal hrefusal, mapGuestMemory, hrefusal]
  | none =>
    rw [VirtualMachine.mapGuestMemory_of_accepted hrefusal, mapGuestMemory, hrefusal]
    obtain ⟨status, gpa'⟩ := mapGuestMemoryImpl whpxVersion gpa hr baseAddress size flags memory
    cases status <;> rfl

theorem unmapGuestMemory_base (gpa : GpaMap) (vm : VirtualMachine) (hr : Bool)
    (baseAddress size : U64) :
    vm.unmapGuestMemory (fun b s => (unmapGuestMemoryImpl gpa hr b s).1) baseAddress size =
      (unmapGuestMemory gpa vm hr baseAddress size).map fun result => (result.1, result.2.1) := by
  cases hrefusal : vm.rangeRefusal baseAddress size with
  | some status =>
    rw [VirtualMachine.unmapGuestMemory_of_refusal hrefusal, unmapGuestMemory, hrefusal]
    rfl
  | none =>
    rw [VirtualMachine.unmapGuestMemory_of_accepted hrefusal, unmapGuestMemory, hrefusal]
    obtain ⟨status, gpa'⟩ := unmapGuestMemoryImpl gpa hr baseAddress size
    cases status
    case OK => cases subtractMemoryRange vm.memoryRegions baseAddress size <;> rfl
    all_goals rfl

/-- The partition after a map call: as it was, or with the range mapped with some right. -/
theorem mapGuestMemory_cases (whpxVersion : VersionInfo) (gpa : GpaMap) (vm : VirtualMachine)
    (hr : Bool) (baseAddress size : U64) (flags : MemoryFlags) (memory : U64) :
    ((mapGuestMemory whpxVersion gpa vm hr baseAddress size flags memory).1 ≠ .OK ∧
      (mapGuestMemory whpxVersion gpa vm hr baseAddress size flags memory).2.2 = gpa) ∨
    ((mapGuestMemory whpxVersion gpa vm hr baseAddress size flags memory).1 = .OK ∧
      toWHVFlags whpxVersion flags ≠ WHvMapGpaRangeFlagNone ∧
      (mapGuestMemory whpxVersion gpa vm hr baseAddress size flags memory).2.2 =
        mapGpaRange gpa memory baseAddress size (toWHVFlags whpxVersion flags)) := by
  rw [mapGuestMemory]
  cases hrefusal : vm.mapRefusal baseAddress size memory with
  | some status => exact .inl ⟨VirtualMachine.mapRefusal_ne_OK hrefusal, rfl⟩
  | none =>
    simp only [mapGuestMemoryImpl]
    by_cases hflags : toWHVFlags whpxVersion flags = WHvMapGpaRangeFlagNone
    · rw [if_pos hflags]
      exact .inl ⟨by simp, rfl⟩
    rw [if_neg hflags]
    cases hr with
    | false => exact .inl ⟨by simp, rfl⟩
    | true => exact .inr ⟨rfl, hflags, rfl⟩

theorem unmapGuestMemory_gpa (whpxVersion : VersionInfo) {status : MemoryMappingStatus}
    {vm' : VirtualMachine} {gpa' : GpaMap}
    (h : unmapGuestMemory gpa vm hr baseAddress size = some (status, vm', gpa')) :
    gpa' = (GuestMemoryCall.change (toWHVFlags whpxVersion)
      (.unmap baseAddress size, status)).apply gpa := by
  rw [unmapGuestMemory] at h
  cases hrefusal : vm.rangeRefusal baseAddress size with
  | some refused =>
    rw [hrefusal] at h
    simp only [Option.some.injEq, Prod.mk.injEq] at h
    obtain ⟨rfl, -, rfl⟩ := h
    rw [GuestMemoryCall.change_unmap_failed _ _ _ (VirtualMachine.rangeRefusal_ne_OK hrefusal)]
    rfl
  | none =>
    rw [hrefusal] at h
    cases hr with
    | false =>
      simp only [unmapGuestMemoryImpl, Bool.false_eq_true, if_false, Option.some.injEq,
        Prod.mk.injEq] at h
      obtain ⟨rfl, -, rfl⟩ := h
      rfl
    | true =>
      simp only [unmapGuestMemoryImpl, if_true, Option.map_eq_some_iff, Prod.mk.injEq] at h
      obtain ⟨-, -, rfl, -, rfl⟩ := h
      exact unmapGpaRange_eq gpa baseAddress size

end Calls

/-! ## Runs -/

/-- The ranges end within the address space, and a granted unmap call adjoins every region. -/
def Orderly (s : VirtualMachine × GpaMap) (o : WhpxMemoryCall) : Prop :=
  match o.call with
  | .map baseAddress size _ _ => RangeFits baseAddress size
  | .unmap baseAddress size => RangeFits baseAddress size ∧
      (o.hr = true → ∀ r ∈ s.1.memoryRegions, r.Adjoins baseAddress size)
  | .setFlags .. => True

/-- The region list and the partition have followed the calls, and nothing is mapped without any
right. -/
structure WhpxFollows (whpxVersion : VersionInfo) (s : VirtualMachine × GpaMap)
    (log : List (GuestMemoryCall × MemoryMappingStatus)) : Prop where
  memory : GuestFollows (toWHVFlags whpxVersion) s.1 s.2 log
  rights : ∀ a host whvFlags, s.2 a = some (host, whvFlags) → whvFlags ≠ WHvMapGpaRangeFlagNone

namespace WhpxFollows

variable {whpxVersion : VersionInfo} {s : VirtualMachine × GpaMap}
  {log : List (GuestMemoryCall × MemoryMappingStatus)} {baseAddress size : U64}

theorem map (h : WhpxFollows whpxVersion s log) (hr : Bool) (flags : MemoryFlags) (memory : U64)
    (hfits : RangeFits baseAddress size) :
    WhpxFollows whpxVersion
      (mapGuestMemory whpxVersion s.2 s.1 hr baseAddress size flags memory).2
      (log ++ [(.map baseAddress size flags memory,
        (mapGuestMemory whpxVersion s.2 s.1 hr baseAddress size flags memory).1)]) := by
  have hmemory := h.memory.map _ flags hfits
    (mapGuestMemory_base whpxVersion s.2 s.1 hr baseAddress size flags memory)
  obtain ⟨hstatus, hgpa⟩ | ⟨hstatus, hflags, hgpa⟩ :=
    mapGuestMemory_cases whpxVersion s.2 s.1 hr baseAddress size flags memory
  · rw [GuestMemoryCall.change_map_failed _ _ _ _ _ hstatus] at hmemory
    constructor
    · rw [hgpa]
      exact hmemory
    · rw [hgpa]
      exact h.rights
  · constructor
    · rw [hgpa, mapGpaRange_eq]
      rw [hstatus] at hmemory ⊢
      exact hmemory
    · intro a host whvFlags
      rw [hgpa, mapGpaRange]
      split_ifs
      · rw [Option.some.injEq, Prod.mk.injEq]
        rintro ⟨-, rfl⟩
        exact hflags
      · exact h.rights a host whvFlags

theorem unmap (h : WhpxFollows whpxVersion s log) {hr : Bool}
    (hfits : RangeFits baseAddress size)
    (hadj : hr = true → ∀ r ∈ s.1.memoryRegions, r.Adjoins baseAddress size) :
    ∃ status s', unmapGuestMemory s.2 s.1 hr baseAddress size = some (status, s') ∧
      WhpxFollows whpxVersion s' (log ++ [(.unmap baseAddress size, status)]) := by
  have hok : (unmapGuestMemoryImpl s.2 hr baseAddress size).1 = .OK → hr = true := by
    cases hr with
    | false => exact fun hfalse => absurd hfalse (by simp [unmapGuestMemoryImpl])
    | true => exact fun _ => rfl
  obtain ⟨status, vm', hcall, hmemory⟩ := h.memory.unmap
    (fun b n => (unmapGuestMemoryImpl s.2 hr b n).1) hfits fun hgranted => hadj (hok hgranted)
  rw [unmapGuestMemory_base, Option.map_eq_some_iff] at hcall
  obtain ⟨⟨status', vm'', gpa'⟩, hunmap, heq⟩ := hcall
  rw [Prod.mk.injEq] at heq
  obtain ⟨rfl, rfl⟩ := heq
  have hgpa := unmapGuestMemory_gpa whpxVersion hunmap
  refine ⟨_, (vm'', gpa'), hunmap, ?_, ?_⟩
  · rw [hgpa]
    exact hmemory
  · intro a host whvFlags ha
    refine h.rights a host whvFlags ?_
    rw [hgpa] at ha
    by_cases hstatus : status' = .OK
    · subst hstatus
      simp only [GuestMemoryCall.change, Change.apply] at ha
      by_cases hmem : a ∈ addressRange baseAddress size
      · rw [LayeredMaps.erase_of_mem _ hmem] at ha
        cases ha
      · rw [LayeredMaps.erase_of_notMem _ hmem] at ha
        exact ha
    · rw [GuestMemoryCall.change_unmap_failed _ _ _ hstatus] at ha
      exact ha

/-- One call: it returns, and everything follows it. -/
theorem exec {o : WhpxMemoryCall} (ho : Orderly s o) (h : WhpxFollows whpxVersion s log) :
    ∃ status s', o.exec whpxVersion s = some (status, s') ∧
      WhpxFollows whpxVersion s' (log ++ [(o.call, status)]) := by
  obtain ⟨call, hr⟩ := o
  cases call with
  | map baseAddress size flags memory => exact ⟨_, _, rfl, h.map hr flags memory ho⟩
  | unmap baseAddress size => exact h.unmap ho.1 ho.2
  | setFlags baseAddress size flags =>
    exact ⟨_, s, rfl, h.memory.setFlags baseAddress size flags _, h.rights⟩

/-- An orderly run from an empty machine returns, and everything follows it. -/
theorem run (whpxVersion : VersionInfo) (gpa : HostGPA) (features : PlatformFeatures)
    {calls : List WhpxMemoryCall} (horderly : AlongSome (WhpxMemoryCall.exec whpxVersion) Orderly
      (⟨gpa, features, []⟩, fun _ => none) calls) (n : ℕ) :
    ∃ statuses s, runSome (WhpxMemoryCall.exec whpxVersion) (⟨gpa, features, []⟩, fun _ => none)
        (calls.take n) = some (statuses, s) ∧
      WhpxFollows whpxVersion s (((calls.take n).map WhpxMemoryCall.call).zip statuses) := by
  have hstart : WhpxFollows whpxVersion (⟨gpa, features, []⟩, fun _ => none) [] :=
    ⟨.empty _ gpa features, fun _ _ _ h => by cases h⟩
  exact runSome_invariant WhpxMemoryCall.call (WhpxFollows whpxVersion) (fun _ ho h => h.exec ho)
    (horderly.take n) hstart le_rfl

end WhpxFollows

/-- A page is mapped for reading and one for reading and writing, and the first is unmapped. -/
private def whpxTrimCalls : List WhpxMemoryCall :=
  [⟨.map 0x1000 0x1000 1 0x10000, true⟩, ⟨.map 0x2000 0x1000 3 0x20000, true⟩,
    ⟨.unmap 0x1000 0x1000, true⟩]

/-- The answers of `WHvQueryGpaRangeDirtyBitmap` that are told apart. -/
inductive QueryResult where
  | S_OK | WHV_E_GPA_RANGE_NOT_FOUND | failed
  deriving DecidableEq, Repr

/-- A call of `WHvQueryGpaRangeDirtyBitmap`. -/
structure DirtyBitmapQuery where
  guestAddress : U64
  rangeSizeInBytes : U64
  bitmap : U64
  bitmapSizeInBytes : U32
  deriving DecidableEq, Repr

def queryStatus : QueryResult → DirtyPageTrackingStatus
  | .S_OK => .OK
  | .WHV_E_GPA_RANGE_NOT_FOUND => .NotEnabled
  | .failed => .Failed

/-- `available` says whether the dispatch table has the function. -/
def queryDirtyPagesImpl (available : Bool) (hr : DirtyBitmapQuery → QueryResult)
    (baseAddress size bitmap bitmapSize : U64) :
    DirtyPageTrackingStatus × List DirtyBitmapQuery :=
  if available = false then (.Unsupported, [])
  else if bitmapSize &&& 0x7 ≠ 0 then (.MisalignedBitmap, [])
  else
    let query := ⟨baseAddress, size, bitmap, bitmapSize.setWidth 32⟩
    (queryStatus (hr query), [query])

/-- `VirtualMachine::QueryDirtyPages`, with the calls of the dispatch function. -/
def queryDirtyPages (available : Bool) (hr : DirtyBitmapQuery → QueryResult)
    (baseAddress size bitmap bitmapSize : U64) :
    DirtyPageTrackingStatus × List DirtyBitmapQuery :=
  if baseAddress &&& 0xFFF ≠ 0 then (.MisalignedAddress, [])
  else if size = 0 then (.EmptyRange, [])
  else if size &&& 0xFFF ≠ 0 then (.MisalignedSize, [])
  else if bitmap &&& 0x7 ≠ 0 then (.MisalignedBitmap, [])
  else if bitmapSize < (size / 4096 + 8 - 1) / 8 then (.BitmapTooSmall, [])
  else queryDirtyPagesImpl available hr baseAddress size bitmap bitmapSize

end Whpx

end Virt86
