import Virt86.KvmMemorySlots
import Virt86.MemoryMapRefinement
import Virt86.PartialRuns
import Virt86.RightsMaps

/-!
# The guest's memory under a hypervisor

Beside the region list of the base class there is the memory the hypervisor shows to the guest: for
a guest physical address the host byte behind it, and what the guest may do with it. Both are meant
to follow the calls that were granted.
-/

namespace Virt86

open RightsMaps

/-- A request about the guest's memory. -/
inductive GuestMemoryCall where
  | map (baseAddress size : U64) (flags : MemoryFlags) (memory : U64)
  | unmap (baseAddress size : U64)
  | setFlags (baseAddress size : U64) (flags : MemoryFlags)
  deriving DecidableEq, Repr

variable {ρ ρ' : Type}

namespace GuestMemoryCall

/-- What a call that returned a status does to the guest's memory. -/
def change (rights : MemoryFlags → ρ) :
    GuestMemoryCall × MemoryMappingStatus → Change U64 U64 ρ
  | (map baseAddress size flags memory, .OK) =>
      .overwrite (addressRange baseAddress size) (fun a => memory + (a - baseAddress))
        (rights flags)
  | (unmap baseAddress size, .OK) => .erase (addressRange baseAddress size)
  | _ => .keep

theorem change_map_failed (rights : MemoryFlags → ρ) (baseAddress size : U64)
    (flags : MemoryFlags) (memory : U64) {status : MemoryMappingStatus} (h : status ≠ .OK) :
    change rights (map baseAddress size flags memory, status) = .keep := by
  cases status <;> first | rfl | exact absurd rfl h

theorem change_unmap_failed (rights : MemoryFlags → ρ) (baseAddress size : U64)
    {status : MemoryMappingStatus} (h : status ≠ .OK) :
    change rights (unmap baseAddress size, status) = .keep := by
  cases status <;> first | rfl | exact absurd rfl h

theorem mapRights_change (rights : MemoryFlags → ρ) (f : ρ → ρ')
    (entry : GuestMemoryCall × MemoryMappingStatus) :
    (change rights entry).mapRights f = change (fun flags => f (rights flags)) entry := by
  obtain ⟨c, status⟩ := entry
  cases c <;> cases status <;> rfl

end GuestMemoryCall

/-- The guest's memory after calls that returned the given statuses. -/
noncomputable def guestMemory (rights : MemoryFlags → ρ)
    (log : List (GuestMemoryCall × MemoryMappingStatus)) : U64 → Option (U64 × ρ) :=
  replay (fun _ => none) (log.map (GuestMemoryCall.change rights))

theorem guestMemory_append (rights : MemoryFlags → ρ)
    (log : List (GuestMemoryCall × MemoryMappingStatus))
    (entry : GuestMemoryCall × MemoryMappingStatus) :
    guestMemory rights (log ++ [entry]) =
      (GuestMemoryCall.change rights entry).apply (guestMemory rights log) := by
  rw [guestMemory, List.map_append, List.map_singleton, replay_append]
  rfl

/-- Other rights for the same calls. -/
theorem mapRights_guestMemory (rights : MemoryFlags → ρ) (f : ρ → ρ')
    (log : List (GuestMemoryCall × MemoryMappingStatus)) :
    mapRights f (guestMemory rights log) = guestMemory (fun flags => f (rights flags)) log := by
  rw [guestMemory, mapRights_replay, List.map_map, guestMemory]
  have hchanges : (Change.mapRights f ∘ GuestMemoryCall.change rights) =
      GuestMemoryCall.change fun flags => f (rights flags) :=
    funext fun entry => GuestMemoryCall.mapRights_change rights f entry
  rw [hchanges]
  rfl

/-- The region list and the guest's memory have both followed the calls. -/
structure GuestFollows (rights : MemoryFlags → ρ) (vm : VirtualMachine)
    (guest : U64 → Option (U64 × ρ)) (log : List (GuestMemoryCall × MemoryMappingStatus)) :
    Prop where
  regions : Represents vm (host guest)
  guest_eq : guest = guestMemory rights log

namespace GuestFollows

variable {rights : MemoryFlags → ρ} {vm : VirtualMachine} {guest : U64 → Option (U64 × ρ)}
  {log : List (GuestMemoryCall × MemoryMappingStatus)} {baseAddress size memory : U64}

theorem empty (rights : MemoryFlags → ρ) (gpa : HostGPA) (features : PlatformFeatures) :
    GuestFollows rights ⟨gpa, features, []⟩ (fun _ => none) [] where
  regions := ⟨fun _ hr => absurd hr List.not_mem_nil, rfl⟩
  guest_eq := rfl

theorem failed (h : GuestFollows rights vm guest log)
    {entry : GuestMemoryCall × MemoryMappingStatus}
    (hkeep : GuestMemoryCall.change rights entry = .keep) :
    GuestFollows rights vm guest (log ++ [entry]) where
  regions := h.regions
  guest_eq := by
    rw [guestMemory_append, hkeep]
    exact h.guest_eq

theorem setFlags (h : GuestFollows rights vm guest log) (baseAddress size : U64)
    (flags : MemoryFlags) (status : MemoryMappingStatus) :
    GuestFollows rights vm guest (log ++ [(.setFlags baseAddress size flags, status)]) := by
  refine h.failed ?_
  cases status <;> rfl

theorem map (h : GuestFollows rights vm guest log)
    (impl : U64 → U64 → MemoryFlags → U64 → MemoryMappingStatus) (flags : MemoryFlags)
    (hfits : RangeFits baseAddress size) {status : MemoryMappingStatus} {vm' : VirtualMachine}
    (heq : vm.mapGuestMemory impl baseAddress size flags memory = (status, vm')) :
    GuestFollows rights vm' ((GuestMemoryCall.change rights
        (.map baseAddress size flags memory, status)).apply guest)
      (log ++ [(.map baseAddress size flags memory, status)]) := by
  obtain ⟨hsize, hgranted⟩ | ⟨status', hstatus, hrefused⟩ :=
    vm.mapGuestMemory_cases impl baseAddress size flags memory
  · rw [hgranted, Prod.mk.injEq] at heq
    obtain ⟨rfl, rfl⟩ := heq
    constructor
    · rw [host_apply]
      exact h.regions.map memory hsize hfits
    · rw [guestMemory_append, ← h.guest_eq]
  · rw [hrefused, Prod.mk.injEq] at heq
    obtain ⟨rfl, rfl⟩ := heq
    have hkeep := GuestMemoryCall.change_map_failed rights baseAddress size flags memory hstatus
    rw [hkeep]
    exact h.failed hkeep

theorem unmap (h : GuestFollows rights vm guest log) (impl : U64 → U64 → MemoryMappingStatus)
    (hfits : RangeFits baseAddress size) (hadj : impl baseAddress size = .OK →
      ∀ r ∈ vm.memoryRegions, r.Adjoins baseAddress size) :
    ∃ status vm', vm.unmapGuestMemory impl baseAddress size = some (status, vm') ∧
      GuestFollows rights vm' ((GuestMemoryCall.change rights
          (.unmap baseAddress size, status)).apply guest)
        (log ++ [(.unmap baseAddress size, status)]) := by
  obtain ⟨hsize, hok, hgranted⟩ | ⟨status, hstatus, hrefused⟩ :=
    vm.unmapGuestMemory_cases impl baseAddress size
  · rw [subtractMemoryRange_eq hsize hfits] at hgranted
    refine ⟨_, _, hgranted, ?_, ?_⟩
    · rw [host_apply]
      exact h.regions.unmap hsize hfits (hadj hok)
    · rw [guestMemory_append, ← h.guest_eq]
  · refine ⟨_, _, hrefused, ?_⟩
    have hkeep := GuestMemoryCall.change_unmap_failed rights baseAddress size hstatus
    rw [hkeep]
    exact h.failed hkeep

/-- At every address the region list and the guest's memory name the same host byte. -/
theorem hostTranslation_eq (h : GuestFollows rights vm guest log) (a : U64) :
    hostTranslation vm.memoryRegions a = (guest a).map Prod.fst :=
  congrFun h.regions.translation a

end GuestFollows

end Virt86
