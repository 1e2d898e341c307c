import Virt86.UnmappedRanges

/-!
# The representation invariant of the region list

Every region is non-empty, page-aligned in its base, size and host pointer, and lies below the
largest guest physical address. Calls keep the emptiness and the alignment. The bound survives a
granted map call unless its range wraps, and a granted unmap call unless its base lies above the
bound.
-/

namespace Virt86

/-- The largest guest physical address, for a width at which the host's shift is defined. -/
theorem HostGPA.maxAddress_toNat {gpa : HostGPA} (h : gpa.maxBits.toNat < 64) :
    gpa.maxAddress.toNat = 2 ^ gpa.maxBits.toNat := by
  have hlt : 2 ^ gpa.maxBits.toNat < 2 ^ 64 := Nat.pow_lt_pow_right (by omega) h
  have hone : (1#64).toNat = 1 := rfl
  rw [HostGPA.maxAddress, BitVec.shiftLeft_eq', BitVec.toNat_shiftLeft, hone, Nat.shiftLeft_eq,
    Nat.one_mul, Nat.mod_eq_of_lt hlt]

/-- An address passes the mask test exactly when it lies below the largest address. -/
theorem HostGPA.and_not_mask_eq_zero_iff {gpa : HostGPA} (h : gpa.maxBits.toNat < 64) (a : U64) :
    a &&& ~~~gpa.mask = 0 ↔ a.toNat < gpa.maxAddress.toNat := by
  have hmask : gpa.mask.toNat = 2 ^ gpa.maxBits.toNat - 1 := by
    have hpos : 0 < 2 ^ gpa.maxBits.toNat := Nat.two_pow_pos _
    have hmax := maxAddress_toNat h
    rw [HostGPA.mask]
    bv_omega
  have hbit (i : ℕ) : gpa.mask.getLsbD i = decide (i < gpa.maxBits.toNat) := by
    rw [← BitVec.testBit_toNat, hmask, Nat.testBit_two_pow_sub_one]
  rw [maxAddress_toNat h]
  constructor
  · intro hzero
    apply Nat.lt_pow_two_of_testBit
    intro i hi
    have hi' : (a &&& ~~~gpa.mask).getLsbD i = false := by rw [hzero]; exact BitVec.getLsbD_zero
    have houtside : ¬ i < gpa.maxBits.toNat := by omega
    rw [BitVec.testBit_toNat]
    by_cases hlt : i < 64
    · simpa only [BitVec.getLsbD_and, BitVec.getLsbD_not, hbit, hlt, houtside, decide_true,
        decide_false, Bool.not_false, Bool.and_true] using hi'
    · exact BitVec.getLsbD_of_ge a i (by omega)
  · intro hlt
    apply BitVec.eq_of_getLsbD_eq
    intro i hi
    by_cases hin : i < gpa.maxBits.toNat
    · simp [hbit, hin]
    · have hfalse : a.getLsbD i = false := by
        rw [← BitVec.testBit_toNat]
        exact Nat.testBit_lt_two_pow
          (lt_of_lt_of_le hlt (Nat.pow_le_pow_right (by omega) (by omega)))
      simp [hfalse]

/-- A word passes the page mask test exactly when it is a multiple of the page size. -/
theorem and_pageMask_eq_zero_iff (a : U64) : a &&& 0xFFF = 0 ↔ a.toNat % 4096 = 0 := by
  have hand : (a &&& 0xFFF).toNat = a.toNat % 4096 := by
    rw [BitVec.toNat_and]
    exact Nat.and_two_pow_sub_one_eq_mod a.toNat 12
  rw [← hand]
  constructor
  · intro h
    rw [h]
    rfl
  · intro h
    exact BitVec.eq_of_toNat_eq h

/-- What every region of the list is meant to be. -/
structure MemoryRegion.Sound (gpa : HostGPA) (r : MemoryRegion) : Prop where
  nonEmpty : 0 < r.size.toNat
  baseAddress_aligned : r.baseAddress &&& 0xFFF = 0
  size_aligned : r.size &&& 0xFFF = 0
  hostMemory_aligned : r.hostMemory &&& 0xFFF = 0
  inBounds : r.baseAddress.toNat + r.size.toNat ≤ gpa.maxAddress.toNat

def RegionsSound (vm : VirtualMachine) : Prop := ∀ r ∈ vm.memoryRegions, r.Sound vm.gpa

namespace MemoryRegion.Sound

variable {gpa : HostGPA} {baseAddress size : U64} {r : MemoryRegion}

/-- The part of a region below an aligned address above its base. -/
theorem firstPortion (h : r.Sound gpa) (hbase : baseAddress &&& 0xFFF = 0)
    (hlt : r.baseAddress < baseAddress) (hle : baseAddress.toNat ≤ gpa.maxAddress.toNat) :
    (r.firstPortion baseAddress).Sound gpa := by
  have haligned := h.baseAddress_aligned
  rw [and_pageMask_eq_zero_iff] at hbase haligned
  have hlen : (baseAddress - r.baseAddress).toNat = baseAddress.toNat - r.baseAddress.toNat := by
    bv_omega
  have hlt' : r.baseAddress.toNat < baseAddress.toNat := hlt
  refine ⟨?_, h.baseAddress_aligned, ?_, h.hostMemory_aligned, ?_⟩
  · simp only [MemoryRegion.firstPortion, hlen]
    omega
  · simp only [MemoryRegion.firstPortion, and_pageMask_eq_zero_iff, hlen]
    omega
  · simp only [MemoryRegion.firstPortion, hlen]
    omega

/-- The part of a region above an address below its end; the host pointer moves by pages. -/
theorem secondPortion (h : r.Sound gpa) (hbase : baseAddress &&& 0xFFF = 0)
    (hsize : size &&& 0xFFF = 0) (hlt : baseAddress + size - 1 < r.finalAddress)
    {delta : U64} (hdelta : delta.toNat % 4096 = 0) :
    MemoryRegion.Sound gpa ⟨baseAddress + size - 1 + 1,
      r.baseAddress + r.size - 1 - (baseAddress + size - 1), r.hostMemory + delta⟩ := by
  obtain ⟨hne, hb, hs, hh, hin⟩ := h
  rw [and_pageMask_eq_zero_iff] at hbase hsize hb hs hh
  have hfinal : r.finalAddress.toNat = r.baseAddress.toNat + r.size.toNat - 1 :=
    RangeFits.final_toNat (by rw [RangeFits]; omega) hne
  have hnext : (baseAddress + size - 1 + 1).toNat = (baseAddress + size - 1).toNat + 1 := by
    bv_omega
  have hlen : (r.baseAddress + r.size - 1 - (baseAddress + size - 1)).toNat =
      r.baseAddress.toNat + r.size.toNat - 1 - (baseAddress + size - 1).toNat := by
    rw [← hfinal]
    exact BitVec.toNat_sub_of_le (by rw [BitVec.le_def]; exact Nat.le_of_lt hlt)
  have haligned : (baseAddress + size - 1 + 1).toNat % 4096 = 0 := by bv_omega
  have hlt' : (baseAddress + size - 1).toNat < r.finalAddress.toNat := hlt
  refine ⟨?_, ?_, ?_, ?_, ?_⟩
  · simp only [hlen]
    omega
  · rw [and_pageMask_eq_zero_iff]
    exact haligned
  · simp only [and_pageMask_eq_zero_iff, hlen]
    omega
  · rw [and_pageMask_eq_zero_iff, BitVec.toNat_add]
    omega
  · simp only [hlen, hnext]
    omega

/-- Below the bound, a subtraction leaves sound pieces of a sound region, wrapped or not. -/
theorem remnants (h : r.Sound gpa) (hbase : baseAddress &&& 0xFFF = 0)
    (hsize : size &&& 0xFFF = 0) (hle : baseAddress.toNat ≤ gpa.maxAddress.toNat) :
    ∀ piece ∈ r.remnants baseAddress size, piece.Sound gpa := by
  have hb := (and_pageMask_eq_zero_iff _).mp hbase
  have hs := (and_pageMask_eq_zero_iff _).mp hsize
  have hr := (and_pageMask_eq_zero_iff _).mp h.baseAddress_aligned
  have hdelta : (baseAddress + size - 1 + 1 - r.baseAddress).toNat % 4096 = 0 := by bv_omega
  have hdelta' : (baseAddress - r.baseAddress + size).toNat % 4096 = 0 := by bv_omega
  intro piece hp
  simp only [MemoryRegion.remnants, subtractRegion] at hp
  split_ifs at hp with h₁ h₂ h₃
  · simp at hp
  · simp only [List.append_nil, List.mem_singleton] at hp
    subst hp
    exact h.firstPortion hbase h₂.1 hle
  · simp only [List.append_nil, List.mem_singleton] at hp
    subst hp
    exact h.secondPortion hbase hsize h₃.2 hdelta
  · simp only [List.cons_append, List.nil_append, List.mem_cons, List.not_mem_nil, or_false,
      BitVec.add_assoc r.hostMemory] at hp
    have hinside : r.baseAddress < baseAddress ∧ baseAddress + size - 1 < r.finalAddress := by
      simp only [ge_iff_le, gt_iff_lt, BitVec.le_def, BitVec.lt_def, MemoryRegion.finalAddress]
        at *
      omega
    rcases hp with rfl | rfl
    · exact h.secondPortion hbase hsize hinside.2 hdelta'
    · exact h.firstPortion hbase hinside.1 hle

/-- Above the bound, a subtraction that ends stretches a sound region up to its base. -/
theorem exists_unsound (h : r.Sound gpa) (hsize : 0 < size.toNat)
    (hlt : gpa.maxAddress.toNat < baseAddress.toNat)
    (hends : RangeFits baseAddress size ∨ ¬ r.Straddles baseAddress size) :
    ∃ piece ∈ r.remnants baseAddress size, ¬ piece.Sound gpa := by
  obtain ⟨hne, -, -, -, hin⟩ := h
  have hfinal : r.finalAddress.toNat = r.baseAddress.toNat + r.size.toNat - 1 :=
    RangeFits.final_toNat (by rw [RangeFits]; omega) hne
  have hbelow : r.baseAddress < baseAddress := by rw [BitVec.lt_def]; omega
  have hcovered : r.finalAddress ≤ baseAddress + size - 1 := by
    rcases hends with hfits | hstraddles
    · rw [BitVec.le_def, hfits.final_toNat hsize]
      omega
    · exact BitVec.not_lt.mp fun hgt => hstraddles ⟨hbelow, hgt⟩
  refine ⟨r.firstPortion baseAddress, ?_, ?_⟩
  · simp only [MemoryRegion.remnants, subtractRegion]
    rw [if_neg (fun hc => BitVec.not_lt.mpr hc.1 hbelow), if_pos ⟨hbelow, hcovered⟩]
    exact List.mem_singleton_self _
  · intro hsound
    have hbound := hsound.inBounds
    have hlen : (baseAddress - r.baseAddress).toNat =
        baseAddress.toNat - r.baseAddress.toNat := by bv_omega
    simp only [MemoryRegion.firstPortion, hlen] at hbound
    omega

end MemoryRegion.Sound

namespace MemoryCall

/-- The call passes its own checks and the platform grants it. -/
def Granted (vm : VirtualMachine) : MemoryCall → Prop
  | map impl baseAddress size flags memory =>
      memory &&& 0xFFF = 0 ∧ baseAddress &&& 0xFFF = 0 ∧ size ≠ 0 ∧ size &&& 0xFFF = 0 ∧
        ¬ (size > 0xFFFFFFFF ∧ vm.features.largeMemoryAllocation = false) ∧
        baseAddress &&& ~~~vm.gpa.mask = 0 ∧ (baseAddress + size - 1) &&& ~~~vm.gpa.mask = 0 ∧
        impl baseAddress size flags memory = .OK
  | unmap impl baseAddress size =>
      baseAddress &&& 0xFFF = 0 ∧ size ≠ 0 ∧ size &&& 0xFFF = 0 ∧
        ¬ (size > 0xFFFFFFFF ∧ vm.features.largeMemoryAllocation = false) ∧
        impl baseAddress size = .OK

/-- A granted map request does not wrap; a granted unmap request starts at or below the largest
address, or finds no region. -/
def KeepsBounds (vm : VirtualMachine) : MemoryCall → Prop
  | map impl baseAddress size flags memory =>
      Granted vm (map impl baseAddress size flags memory) → RangeFits baseAddress size
  | unmap impl baseAddress size =>
      Granted vm (unmap impl baseAddress size) →
        baseAddress.toNat ≤ vm.gpa.maxAddress.toNat ∨ vm.memoryRegions = []

/-- A granted map call appends its region. -/
theorem exec_map_of_granted {vm : VirtualMachine}
    {impl : U64 → U64 → MemoryFlags → U64 → MemoryMappingStatus} {baseAddress size : U64}
    {flags : MemoryFlags} {memory : U64} (h : Granted vm (map impl baseAddress size flags memory)) :
    exec vm (map impl baseAddress size flags memory) = some (.OK,
      { vm with memoryRegions := vm.memoryRegions ++ [⟨baseAddress, size, memory⟩] }) := by
  obtain ⟨hmemory, hbase, hsize, haligned, hlarge, hlow, hhigh, hok⟩ := h
  simp only [exec, VirtualMachine.mapGuestMemory]
  rw [if_neg (not_not.mpr hmemory), if_neg (not_not.mpr hbase), if_neg hsize,
    if_neg (not_not.mpr haligned), if_neg hlarge,
    if_neg (not_or.mpr ⟨not_not.mpr hlow, not_not.mpr hhigh⟩), hok]

/-- A granted unmap call subtracts its range. -/
theorem exec_unmap_of_granted {vm : VirtualMachine} {impl : U64 → U64 → MemoryMappingStatus}
    {baseAddress size : U64} (h : Granted vm (unmap impl baseAddress size)) :
    exec vm (unmap impl baseAddress size) =
      (subtractMemoryRange vm.memoryRegions baseAddress size).map
        fun regions => (.OK, { vm with memoryRegions := regions }) := by
  obtain ⟨hbase, hsize, haligned, hlarge, hok⟩ := h
  simp only [exec, VirtualMachine.unmapGuestMemory]
  rw [if_neg (not_not.mpr hbase), if_neg hsize, if_neg (not_not.mpr haligned), if_neg hlarge, hok]

/-- A call that is not granted changes nothing. -/
theorem exec_of_not_granted {vm vm' : VirtualMachine} {c : MemoryCall} {status}
    (h : ¬ c.Granted vm) (he : c.exec vm = some (status, vm')) : vm' = vm := by
  cases c with
  | map impl baseAddress size flags memory =>
    simp only [exec, VirtualMachine.mapGuestMemory, Option.some.injEq] at he
    split_ifs at he with h₁ h₂ h₃ h₄ h₅ h₆
    all_goals try exact (Prod.mk.inj he).2.symm
    split at he
    · next hok =>
      exfalso
      refine h ⟨not_not.mp h₁, not_not.mp h₂, h₃, not_not.mp h₄, h₅, ?_, ?_, hok⟩
      · exact not_not.mp fun hlow => h₆ (.inl hlow)
      · exact not_not.mp fun hhigh => h₆ (.inr hhigh)
    · exact (Prod.mk.inj he).2.symm
  | unmap impl baseAddress size =>
    simp only [exec, VirtualMachine.unmapGuestMemory] at he
    split_ifs at he with h₁ h₂ h₃ h₄
    all_goals try exact (Prod.mk.inj (Option.some.inj he)).2.symm
    split at he
    · next hok => exact absurd ⟨not_not.mp h₁, h₂, not_not.mp h₃, h₄, hok⟩ h
    · exact (Prod.mk.inj (Option.some.inj he)).2.symm

end MemoryCall

/-- A subtraction that returns has ended, so it leaves what is left of each region. -/
theorem subtractionEnds_of_eq_some {regions result : List MemoryRegion} {baseAddress size : U64}
    (h : subtractMemoryRange regions baseAddress size = some result) :
    SubtractionEnds regions baseAddress size := by
  by_contra hends
  rw [subtractMemoryRange, subtractLoop_eq_none hends] at h
  cases h

theorem regionsSound_map_iff {vm : VirtualMachine} (hbits : vm.gpa.maxBits.toNat < 64)
    (h : RegionsSound vm) {impl : U64 → U64 → MemoryFlags → U64 → MemoryMappingStatus}
    {baseAddress size : U64} {flags : MemoryFlags} {memory : U64}
    (hg : MemoryCall.Granted vm (.map impl baseAddress size flags memory)) :
    RegionsSound { vm with memoryRegions := vm.memoryRegions ++ [⟨baseAddress, size, memory⟩] } ↔
      RangeFits baseAddress size := by
  obtain ⟨hmemory, hbase, hsize, haligned, -, -, hhigh, -⟩ := hg
  have hpos : 0 < size.toNat := by bv_omega
  rw [HostGPA.and_not_mask_eq_zero_iff hbits] at hhigh
  have hmax : vm.gpa.maxAddress.toNat < 2 ^ 64 := vm.gpa.maxAddress.isLt
  constructor
  · intro hsound
    have hin := (hsound ⟨baseAddress, size, memory⟩ (by simp)).inBounds
    simp only at hin
    rw [RangeFits]
    omega
  · intro hfits r hr
    rcases List.mem_append.mp hr with hr | hr
    · exact h r hr
    · obtain rfl := List.mem_singleton.mp hr
      refine ⟨hpos, hbase, haligned, hmemory, ?_⟩
      rw [hfits.final_toNat hpos] at hhigh
      simp only
      omega

theorem regionsSound_unmap_iff {vm : VirtualMachine} (h : RegionsSound vm) {baseAddress size : U64}
    (hbase : baseAddress &&& 0xFFF = 0) (hsize : size ≠ 0) (haligned : size &&& 0xFFF = 0)
    (hends : SubtractionEnds vm.memoryRegions baseAddress size) :
    RegionsSound { vm with memoryRegions :=
        vm.memoryRegions.flatMap (MemoryRegion.remnants baseAddress size) } ↔
      baseAddress.toNat ≤ vm.gpa.maxAddress.toNat ∨ vm.memoryRegions = [] := by
  have hpos : 0 < size.toNat := by bv_omega
  constructor
  · intro hsound
    by_contra hc
    simp only [not_or, not_le] at hc
    obtain ⟨hlt, hne⟩ := hc
    obtain ⟨r, hr⟩ := List.exists_mem_of_ne_nil _ hne
    have hr' : RangeFits baseAddress size ∨ ¬ r.Straddles baseAddress size :=
      hends.imp_right fun hnone => hnone r hr
    obtain ⟨piece, hp, hbad⟩ := (h r hr).exists_unsound hpos hlt hr'
    exact hbad (hsound piece (List.mem_flatMap.mpr ⟨r, hr, hp⟩))
  · rintro (hle | hnil) piece hp
    · obtain ⟨r, hr, hpiece⟩ := List.mem_flatMap.mp hp
      exact (h r hr).remnants hbase haligned hle piece hpiece
    · simp [hnil] at hp

/-- One call that returns: the invariant survives it exactly when the call keeps the bounds. -/
theorem regionsSound_exec_iff {vm vm' : VirtualMachine} (hbits : vm.gpa.maxBits.toNat < 64)
    (h : RegionsSound vm) {c : MemoryCall} {status : MemoryMappingStatus}
    (he : c.exec vm = some (status, vm')) : RegionsSound vm' ↔ c.KeepsBounds vm := by
  by_cases hg : c.Granted vm
  · cases c with
    | map impl baseAddress size flags memory =>
      rw [MemoryCall.exec_map_of_granted hg] at he
      obtain ⟨-, rfl⟩ := Prod.mk.inj (Option.some.inj he)
      rw [regionsSound_map_iff hbits h hg]
      exact ⟨fun hfits _ => hfits, fun hk => hk hg⟩
    | unmap impl baseAddress size =>
      rw [MemoryCall.exec_unmap_of_granted hg] at he
      obtain ⟨result, hresult, hvm⟩ := Option.map_eq_some_iff.mp he
      obtain ⟨-, rfl⟩ := Prod.mk.inj hvm
      have hends := subtractionEnds_of_eq_some hresult
      rw [hends.subtractMemoryRange_eq (by have := hg.2.1; bv_omega), Option.some.injEq] at hresult
      subst hresult
      rw [regionsSound_unmap_iff h hg.1 hg.2.1 hg.2.2.1 hends]
      exact ⟨fun hle _ => hle, fun hk => hk hg⟩
  · rw [MemoryCall.exec_of_not_granted hg he]
    refine ⟨fun _ => ?_, fun _ => h⟩
    cases c with
    | map impl baseAddress size flags memory => exact fun hg' => absurd hg' hg
    | unmap impl baseAddress size => exact fun hg' => absurd hg' hg

/-- No call changes the limits of the host. -/
theorem MemoryCall.exec_gpa {vm vm' : VirtualMachine} {c : MemoryCall}
    {status : MemoryMappingStatus} (he : c.exec vm = some (status, vm')) : vm'.gpa = vm.gpa := by
  by_cases hg : c.Granted vm
  · cases c with
    | map impl baseAddress size flags memory =>
      rw [exec_map_of_granted hg] at he
      obtain ⟨-, rfl⟩ := Prod.mk.inj (Option.some.inj he)
      rfl
    | unmap impl baseAddress size =>
      rw [exec_unmap_of_granted hg] at he
      obtain ⟨result, -, hvm⟩ := Option.map_eq_some_iff.mp he
      obtain ⟨-, rfl⟩ := Prod.mk.inj hvm
      rfl
  · rw [exec_of_not_granted hg he]

/-- Every call of the run keeps the bounds at the state it is made in. -/
def BoundedCalls (vm : VirtualMachine) : List MemoryCall → Prop
  | [] => True
  | c :: cs => c.KeepsBounds vm ∧ ∀ status vm', c.exec vm = some (status, vm') → BoundedCalls vm' cs

theorem runCalls_cons {vm vm'' : VirtualMachine} {c : MemoryCall} {cs : List MemoryCall}
    {statuses : List MemoryMappingStatus} :
    runCalls vm (c :: cs) = some (statuses, vm'') ↔ ∃ status vm' rest,
      c.exec vm = some (status, vm') ∧ runCalls vm' cs = some (rest, vm'') ∧
        statuses = status :: rest := by
  simp only [runCalls, Option.bind_eq_bind, Option.bind_eq_some_iff, Prod.exists, Option.pure_def,
    Option.some.injEq, Prod.mk.injEq]
  constructor
  · rintro ⟨status, vm', he, rest, vm₁, hrun, rfl, rfl⟩
    exact ⟨status, vm', rest, he, hrun, rfl⟩
  · rintro ⟨status, vm', rest, he, hrun, rfl⟩
    exact ⟨status, vm', he, rest, vm'', hrun, rfl, rfl⟩

/-- A run that returns, from any sound state. -/
theorem regionsSound_runCalls_iff {vm last : VirtualMachine} (hbits : vm.gpa.maxBits.toNat < 64)
    (h : RegionsSound vm) {calls : List MemoryCall} {statuses : List MemoryMappingStatus}
    (hrun : runCalls vm calls = some (statuses, last)) :
    (∀ n statuses' vm', runCalls vm (calls.take n) = some (statuses', vm') → RegionsSound vm') ↔
      BoundedCalls vm calls := by
  induction calls generalizing vm statuses with
  | nil =>
    refine ⟨fun _ => trivial, fun _ n statuses' vm' he => ?_⟩
    simp only [List.take_nil, runCalls, Option.some.injEq, Prod.mk.injEq] at he
    exact he.2 ▸ h
  | cons c cs ih =>
    obtain ⟨status, vm₁, rest, he, hcs, rfl⟩ := runCalls_cons.mp hrun
    have hstep := regionsSound_exec_iff hbits h he
    have hbits' : vm₁.gpa.maxBits.toNat < 64 := by rw [MemoryCall.exec_gpa he]; exact hbits
    constructor
    · intro hall
      have h₁ : RegionsSound vm₁ :=
        hall 1 [status] vm₁ (runCalls_cons.mpr ⟨status, vm₁, [], he, rfl, rfl⟩)
      refine ⟨hstep.mp h₁, fun status' vm' he' => ?_⟩
      obtain ⟨-, rfl⟩ := Prod.mk.inj (Option.some.inj (he.symm.trans he'))
      refine (ih hbits' h₁ hcs).mp fun n statuses' vm' hn => ?_
      exact hall (n + 1) (status :: statuses') vm'
        (runCalls_cons.mpr ⟨status, _, statuses', he, hn, rfl⟩)
    · rintro ⟨hkeeps, hrest⟩ n statuses' vm' hn
      have h₁ := hstep.mpr hkeeps
      cases n with
      | zero =>
        simp only [List.take_zero, runCalls, Option.some.injEq, Prod.mk.injEq] at hn
        exact hn.2 ▸ h
      | succ n =>
        obtain ⟨status', vm₂, rest', he', hn', -⟩ := runCalls_cons.mp hn
        obtain ⟨-, rfl⟩ := Prod.mk.inj (Option.some.inj (he.symm.trans he'))
        exact (ih hbits' h₁ hcs).mpr (hrest status _ he) n rest' vm' hn'

/-- In every run of map and unmap calls from an empty region list, all regions of all states
reached are non-empty, aligned and in bounds if and only if every granted map request is free of
wrapping and every granted unmap request starts within the bounds or finds no region. -/
theorem regions_sound_along_run_iff (gpa : HostGPA) (hbits : gpa.maxBits.toNat < 64)
    (features : PlatformFeatures) (calls : List MemoryCall) (statuses : List MemoryMappingStatus)
    (last : VirtualMachine) (hrun : runCalls ⟨gpa, features, []⟩ calls = some (statuses, last)) :
    (∀ n statuses' vm, runCalls ⟨gpa, features, []⟩ (calls.take n) = some (statuses', vm) →
        RegionsSound vm) ↔
      BoundedCalls ⟨gpa, features, []⟩ calls :=
  regionsSound_runCalls_iff hbits (by simp [RegionsSound]) hrun

/-- A page is mapped and unmapped again. -/
private def mapUnmapCalls : List MemoryCall :=
  [.map (fun _ _ _ _ => .OK) 0x1000 0x1000 3 0x10000, .unmap (fun _ _ => .OK) 0x1000 0x1000]

theorem regions_sound_along_run_page :
    (∀ n statuses vm, runCalls ⟨⟨36⟩, ⟨false, false⟩, []⟩ (mapUnmapCalls.take n) =
        some (statuses, vm) → RegionsSound vm) ↔
      BoundedCalls ⟨⟨36⟩, ⟨false, false⟩, []⟩ mapUnmapCalls :=
  regions_sound_along_run_iff ⟨36⟩ (by decide) ⟨false, false⟩ mapUnmapCalls [.OK, .OK]
    ⟨⟨36⟩, ⟨false, false⟩, []⟩ (by decide)

/-- With 36 address bits, a page is mapped at `0x1000` and a page at `2 ^ 40` is unmapped: the
mapped region then reaches up to `2 ^ 40`. With large allocations, a range that starts at `0x2000`
and wraps to end at `0x1000` is mapped: its region leaves the address space. -/
theorem regions_leave_bounds :
    (∃ vm r, runCalls ⟨⟨36⟩, ⟨false, false⟩, []⟩
        [.map (fun _ _ _ _ => .OK) 0x1000 0x1000 3 0x10000,
          .unmap (fun _ _ => .OK) 0x10000000000 0x1000] = some ([.OK, .OK], vm) ∧
      r ∈ vm.memoryRegions ∧
      ¬ r.baseAddress.toNat + r.size.toNat ≤ vm.gpa.maxAddress.toNat) ∧
    ∃ vm r, runCalls ⟨⟨36⟩, ⟨true, false⟩, []⟩
        [.map (fun _ _ _ _ => .OK) 0x2000 0xFFFFFFFFFFFFF000 3 0x10000] = some ([.OK], vm) ∧
      r ∈ vm.memoryRegions ∧
      ¬ r.baseAddress.toNat + r.size.toNat ≤ vm.gpa.maxAddress.toNat := by
  refine ⟨⟨⟨⟨36⟩, ⟨false, false⟩, [⟨0x1000, 0xFFFFFFF000, 0x10000⟩]⟩,
    ⟨0x1000, 0xFFFFFFF000, 0x10000⟩, by decide, List.mem_singleton_self _, by decide⟩,
    ⟨⟨36⟩, ⟨true, false⟩, [⟨0x2000, 0xFFFFFFFFFFFFF000, 0x10000⟩]⟩,
    ⟨0x2000, 0xFFFFFFFFFFFFF000, 0x10000⟩, by decide, List.mem_singleton_self _, by decide⟩

end Virt86
