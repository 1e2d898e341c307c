import Virt86.MemoryTransfers
import Virt86.RegionBounds

/-!
# Accesses to page-aligned regions

`MapGuestMemory` takes regions whose base, size and host pointer are multiples of the page size, and
`UnmapGuestMemory` leaves such pieces of them, so every region of a virtual machine is page-aligned.
A request of at most a page is then copied whole, and its host address has the page offset of its
guest address: two requests for one guest address agree on their windows byte for byte, or do not
meet, even when they select different regions over the same host memory.
-/

namespace Virt86

structure MemoryRegion.PageAligned (r : MemoryRegion) : Prop where
  baseAddress : r.baseAddress.toNat % 4096 = 0
  size : r.size.toNat % 4096 = 0
  hostMemory : r.hostMemory.toNat % 4096 = 0

def PageAlignedRegions (regions : List MemoryRegion) : Prop := ∀ r ∈ regions, r.PageAligned

theorem add_mod_page {a b : U64} (ha : a.toNat % 4096 = 0) (hb : b.toNat % 4096 = 0) :
    (a + b).toNat % 4096 = 0 := by
  rw [BitVec.toNat_add]
  omega

theorem sub_mod_page {a b : U64} (ha : a.toNat % 4096 = 0) (hb : b.toNat % 4096 = 0) :
    (a - b).toNat % 4096 = 0 := by
  rw [BitVec.toNat_sub]
  omega

/-- Whatever is done to a page-aligned region by subtracting pages leaves it page-aligned. -/
theorem MemoryRegion.PageAligned.pieces {r : MemoryRegion} (h : r.PageAligned)
    {baseAddress size : U64} (hbase : baseAddress.toNat % 4096 = 0)
    (hsize : size.toNat % 4096 = 0) :
    ∀ p ∈ WorklistLoops.pieces (subtractRegion baseAddress size) r, p.PageAligned := by
  obtain ⟨hb, hs, hh⟩ := h
  have hend : (baseAddress + size - 1 + 1).toNat % 4096 = 0 := by
    rw [BitVec.sub_add_cancel]
    exact add_mod_page hbase hsize
  have hrest : (r.baseAddress + r.size - 1 - (baseAddress + size - 1)).toNat % 4096 = 0 := by
    have hends : r.baseAddress + r.size - 1 - (baseAddress + size - 1) =
        r.baseAddress + r.size - (baseAddress + size) := by grind
    rw [hends]
    exact sub_mod_page (add_mod_page hb hs) (add_mod_page hbase hsize)
  have hlow : (baseAddress - r.baseAddress).toNat % 4096 = 0 := sub_mod_page hbase hb
  intro p hp
  simp only [WorklistLoops.pieces, subtractRegion] at hp
  split_ifs at hp with h₁ h₂ h₃
  · simp at hp
  · rw [List.append_nil, List.mem_singleton] at hp
    subst hp
    exact ⟨hb, hlow, hh⟩
  · rw [List.append_nil, List.mem_singleton] at hp
    subst hp
    exact ⟨hend, hrest, add_mod_page hh (sub_mod_page hend hb)⟩
  · rw [List.singleton_append, List.mem_cons, List.mem_singleton] at hp
    rcases hp with rfl | rfl
    · exact ⟨hend, hrest, add_mod_page (add_mod_page hh hlow) hsize⟩
    · exact ⟨hb, hlow, hh⟩

theorem MemoryCall.exec_pageAligned {vm vm' : VirtualMachine} {c : MemoryCall}
    {status : MemoryMappingStatus} (h : PageAlignedRegions vm.memoryRegions)
    (he : c.exec vm = some (status, vm')) : PageAlignedRegions vm'.memoryRegions := by
  by_cases hgranted : c.Granted vm
  · cases c with
    | map impl baseAddress size flags memory =>
      rw [exec_map_of_granted hgranted] at he
      obtain ⟨-, rfl⟩ := Prod.mk.inj (Option.some.inj he)
      obtain ⟨hmemory, hbase, -, hsize, -⟩ := hgranted
      rw [and_pageMask_eq_zero_iff] at hmemory hbase hsize
      intro r hr
      rcases List.mem_append.mp hr with hold | hnew
      · exact h r hold
      · rw [List.mem_singleton.mp hnew]
        exact ⟨hbase, hsize, hmemory⟩
    | unmap impl baseAddress size =>
      rw [exec_unmap_of_granted hgranted, Option.map_eq_some_iff] at he
      obtain ⟨regions, hregions, heq⟩ := he
      obtain ⟨-, rfl⟩ := Prod.mk.inj heq
      obtain ⟨hbase, -, hsize, -⟩ := hgranted
      rw [and_pageMask_eq_zero_iff] at hbase hsize
      rw [subtractMemoryRange, subtractLoop_eq_loop] at hregions
      exact WorklistLoops.loop_invariant (fun r hr => hr.pieces hbase hsize) hregions h
  · rwa [exec_of_not_granted hgranted he]

/-- The regions of a virtual machine are page-aligned after any calls, if they were at first. -/
theorem pageAligned_runCalls {vm last : VirtualMachine} {calls : List MemoryCall}
    {statuses : List MemoryMappingStatus} (h : PageAlignedRegions vm.memoryRegions)
    (hrun : runCalls vm calls = some (statuses, last)) : PageAlignedRegions last.memoryRegions := by
  induction calls generalizing vm statuses with
  | nil =>
    obtain ⟨-, rfl⟩ := Prod.mk.inj (Option.some.inj hrun)
    exact h
  | cons c cs ih =>
    obtain ⟨status, vm', statuses', he, hrest, -⟩ := runCalls_cons.mp hrun
    exact ih (MemoryCall.exec_pageAligned h he) hrest

/-! ## Copies of at most a page -/

section Copies

variable {regions : List MemoryRegion} {paddr size size' : U64} {c c' : MemCopy}

/-- A region that passes the check and is smaller than the request is empty. -/
theorem findCopy_count_of_aligned {finalPAddr : U64} {rs : List MemoryRegion}
    (h : PageAlignedRegions rs) (hsize : size.toNat ≤ 4096)
    (hcopy : findCopy paddr finalPAddr size rs = some c) : c.count = size := by
  induction rs with
  | nil => simp [findCopy] at hcopy
  | cons r rs ih =>
    have hrest : PageAlignedRegions rs := fun r' h' => h r' (by simp [h'])
    rw [findCopy] at hcopy
    split_ifs at hcopy with hp hs
    · obtain rfl := Option.some.inj hcopy
      rfl
    · have hempty : r.size = 0 := by
        have := (h r (by simp)).size
        rw [BitVec.le_def] at hs
        bv_omega
      rw [hempty, show size - 0 = size from BitVec.sub_zero size] at hcopy
      exact ih hrest hcopy
    · exact ih hrest hcopy

theorem memCopy_count_of_aligned (h : PageAlignedRegions regions) (hsize : size.toNat ≤ 4096)
    (hcopy : memCopy regions paddr size = some c) : c.count = size :=
  findCopy_count_of_aligned (fun r hr => h r (by simpa using hr)) hsize hcopy

theorem memCopy_bits_of_aligned (h : PageAlignedRegions regions) (hsize : size.toNat ≤ 4096)
    (hcopy : memCopy regions paddr size = some c) : 8 * c.count.toNat = 8 * size.toNat := by
  rw [memCopy_count_of_aligned h hsize hcopy]

theorem memCopy_host_of_aligned (h : PageAlignedRegions regions)
    (hcopy : memCopy regions paddr size = some c) : c.host.toNat % 4096 = paddr.toNat % 4096 := by
  obtain ⟨hmem, -, hhost, -⟩ := memCopy_some hcopy
  obtain ⟨hbase, -, hmemory⟩ := h _ hmem
  rw [hhost, BitVec.toNat_sub, BitVec.toNat_add]
  omega

/-- Two copies for one guest address reach a host byte at the same place of the request. -/
theorem memCopy_offset_eq (h : PageAlignedRegions regions)
    (hcopy : memCopy regions paddr size = some c) (hcopy' : memCopy regions paddr size' = some c')
    {i j : ℕ} (hi : i < 4096) (hj : j < 4096)
    (heq : c.host + BitVec.ofNat 64 i = c'.host + BitVec.ofNat 64 j) : i = j := by
  have hhost := memCopy_host_of_aligned h hcopy
  have hhost' := memCopy_host_of_aligned h hcopy'
  have hnat := congrArg BitVec.toNat heq
  simp only [BitVec.toNat_add, BitVec.toNat_ofNat] at hnat
  omega

/-- Bytes written twice for one guest address, by a request of one size and then of another, are
there for the first request. -/
theorem store_store_window (h : PageAlignedRegions regions)
    (hcopy : memCopy regions paddr size = some c) (hcopy' : memCopy regions paddr size' = some c')
    (hcount : c.count.toNat ≤ 4096) (hcount' : c'.count.toNat ≤ 4096) (mem : HostMemory)
    (value : Buffer) {i : ℕ} (hi : i < c.count.toNat) :
    (mem.store c.host value c.count).store c'.host value c'.count
      (c.host + BitVec.ofNat 64 i) = value i := by
  by_cases hwindow : (c.host + BitVec.ofNat 64 i - c'.host).toNat < c'.count.toNat
  · -- the second request reaches the byte too, and at the same place
    have heq : c.host + BitVec.ofNat 64 i =
        c'.host + BitVec.ofNat 64 (c.host + BitVec.ofNat 64 i - c'.host).toNat := by
      rw [BitVec.ofNat_toNat, BitVec.setWidth_eq, BitVec.add_comm c'.host, BitVec.sub_add_cancel]
    have hoffset : i = (c.host + BitVec.ofNat 64 i - c'.host).toNat :=
      memCopy_offset_eq h hcopy hcopy' (by omega) (by omega) heq
    rw [HostMemory.store, if_pos hwindow, ← hoffset]
  · rw [HostMemory.store_of_not_window hwindow]
    exact HostMemory.store_window hi

end Copies

end Virt86
