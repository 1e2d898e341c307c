import Virt86.HaxmMemory
import Virt86.KvmGuestMemory
import Virt86.WhpxMemory

/-!
# The guest's memory on the three backends

Each hypervisor has rights of its own: KVM marks a slot as read-only, HAXM a range as ROM, and WHPX
grants the right to write. The guest may write the same bytes under all of them.
-/

namespace Virt86

open RightsMaps

/-- The rights that let the guest write. -/
def kvmWritable (flags : U32) : Bool := flags &&& KVM_MEM_READONLY == 0

def whpxWritable (whvFlags : U32) : Bool := whvFlags &&& WHvMapGpaRangeFlagWrite != 0

theorem kvmWritable_kvmFlags (flags : MemoryFlags) :
    kvmWritable (KvmVirtualMachine.kvmFlags flags) = flags.anyOf .Write := by
  have hnone : flags.noneOf .Write = !flags.anyOf .Write := by
    rw [MemoryFlags.noneOf, MemoryFlags.anyOf, bne, Bool.not_not]
  rw [KvmVirtualMachine.kvmFlags, hnone]
  generalize flags.anyOf .Write = writes
  generalize flags.anyOf .DirtyPageTracking = tracks
  cases writes <;> cases tracks <;> rfl

theorem whpxWritable_toWHVFlags (whpxVersion : Whpx.VersionInfo) (flags : MemoryFlags) :
    whpxWritable (Whpx.toWHVFlags whpxVersion flags) = flags.anyOf .Write := by
  simp only [whpxWritable, Whpx.toWHVFlags]
  generalize flags.anyOf .Write = writes
  split_ifs <;> simp_all <;> decide

/-- The calls of the three runs return. Where two backends' calls returned the same statuses, they
show the guest the same host bytes, let it write the same of them, and have region lists that
translate alike. -/
def ShowSameMemory (platform : HaxPlatform) (whpxVersion : Whpx.VersionInfo) (gpa : HostGPA)
    (features : PlatformFeatures) (kvmCalls : List KvmGuestCall) (haxmCalls : List HaxMemoryCall)
    (whpxCalls : List Whpx.WhpxMemoryCall) : Prop :=
  ∃ kvmStatuses kvm slots haxmStatuses haxm guest whpxStatuses whpx partition,
    runSome KvmGuestCall.exec (KvmVirtualMachine.create gpa features, []) kvmCalls =
      some (kvmStatuses, kvm, slots) ∧
    runSome (HaxMemoryCall.exec platform) (⟨gpa, features, []⟩, .initial) haxmCalls =
      some (haxmStatuses, haxm, guest) ∧
    runSome (Whpx.WhpxMemoryCall.exec whpxVersion) (⟨gpa, features, []⟩, fun _ => none)
      whpxCalls = some (whpxStatuses, whpx, partition) ∧
    (kvmStatuses = haxmStatuses →
      mapRights kvmWritable (KvmVirtualMachine.slotsMemory slots) = guest.ram ∧
      ∀ a, hostTranslation kvm.memoryRegions a = hostTranslation haxm.memoryRegions a) ∧
    (haxmStatuses = whpxStatuses →
      guest.ram = mapRights whpxWritable partition ∧
      ∀ a, hostTranslation haxm.memoryRegions a = hostTranslation whpx.memoryRegions a)

private def sharedRequests : List GuestMemoryCall :=
  [.map 0x1000 0x1000 3 0x10000, .map 0x2000 0x1000 1 0x20000]

end Virt86
