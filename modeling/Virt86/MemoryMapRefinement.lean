import Virt86.LayeredMaps
import Virt86.MemoryRegions
import Virt86.WorklistLoops

/-!
# The region list as a map from guest physical to host addresses

The abstract machine keeps a partial map from guest physical to host addresses. A successful
map call overwrites its range in it and a successful unmap call erases its range. The region
list stands for the map in which the last region that contains an address decides.
-/

namespace Virt86

open LayeredMaps

/-- The addresses of a range given by base and size, without wrapping. -/
def addressRange (baseAddress size : U64) : Set U64 :=
  {a | baseAddress.toNat ≤ a.toNat ∧ a.toNat < baseAddress.toNat + size.toNat}

/-- A range that ends at or before the end of the 64-bit address space. -/
def RangeFits (baseAddress size : U64) : Prop := baseAddress.toNat + size.toNat ≤ 2 ^ 64

/-- The inclusive final address of a non-empty range that fits. -/
theorem RangeFits.final_toNat {baseAddress size : U64} (h : RangeFits baseAddress size)
    (hsize : 0 < size.toNat) :
    (baseAddress + size - 1).toNat = baseAddress.toNat + size.toNat - 1 := by
  simp only [RangeFits] at h
  bv_omega

/-- The translation a region list stands for: the last region containing the address. -/
def hostTranslation (regions : List MemoryRegion) : U64 → Option U64 :=
  lookup MemoryRegion.translate regions

/-- The regions that a list of mapped regions can hold. -/
def WellFormed (regions : List MemoryRegion) : Prop :=
  ∀ r ∈ regions, r.NonEmpty ∧ r.NonWrapping

namespace MemoryRegion

/-- The region and the range overlap or are adjacent: no address lies strictly between them. -/
def Adjoins (r : MemoryRegion) (baseAddress size : U64) : Prop :=
  baseAddress.toNat ≤ r.baseAddress.toNat + r.size.toNat ∧
    r.baseAddress.toNat ≤ baseAddress.toNat + size.toNat

/-- What `SubtractMemoryRange` leaves of one region, in vector order. -/
def remnants (baseAddress size : U64) (r : MemoryRegion) : List MemoryRegion :=
  (subtractRegion baseAddress size r).1 ++ (subtractRegion baseAddress size r).2

variable {baseAddress size : U64} {r : MemoryRegion}

/-- The range as the code delimits it lies strictly inside the region: the fourth case. -/
def Straddles (r : MemoryRegion) (baseAddress size : U64) : Prop :=
  r.baseAddress < baseAddress ∧ baseAddress + size - 1 < r.finalAddress

instance (r : MemoryRegion) (baseAddress size : U64) : Decidable (r.Straddles baseAddress size) :=
  inferInstanceAs (Decidable (_ ∧ _))

/-- The part of a region below an address inside it. -/
def firstPortion (r : MemoryRegion) (baseAddress : U64) : MemoryRegion :=
  { r with size := baseAddress - r.baseAddress }

theorem firstPortion_finalAddress (r : MemoryRegion) (baseAddress : U64) :
    (r.firstPortion baseAddress).finalAddress = baseAddress - 1 := by
  simp only [finalAddress, firstPortion]
  grind

/-- Only a straddled region leaves something to visit: its first portion. -/
theorem subtractRegion_again (baseAddress size : U64) (r : MemoryRegion) :
    (subtractRegion baseAddress size r).2 =
      if r.Straddles baseAddress size then [r.firstPortion baseAddress] else [] := by
  have hbase : baseAddress ≤ r.baseAddress ↔ ¬ r.baseAddress < baseAddress := BitVec.not_lt.symm
  have hfinal : r.baseAddress + r.size - 1 ≤ baseAddress + size - 1 ↔
      ¬ baseAddress + size - 1 < r.baseAddress + r.size - 1 := BitVec.not_lt.symm
  by_cases h : r.Straddles baseAddress size
  · obtain ⟨hlo, hhi⟩ := id h
    rw [if_pos h]
    simp only [finalAddress] at hhi
    simp only [subtractRegion, ge_iff_le, gt_iff_lt, hbase, hfinal, hlo, hhi, not_true_eq_false,
      false_and, and_false, if_false, firstPortion]
  · rw [if_neg h]
    simp only [Straddles, finalAddress, not_and] at h
    simp only [subtractRegion, ge_iff_le, gt_iff_lt, hbase, hfinal]
    split_ifs with h₁ h₂ h₃
    · rfl
    · rfl
    · rfl
    · tauto

/-- A first portion that ends no later than the range is left alone. -/
theorem subtractRegion_firstPortion (hr : r.baseAddress < baseAddress)
    (hend : baseAddress - 1 ≤ baseAddress + size - 1) :
    subtractRegion baseAddress size (r.firstPortion baseAddress) =
      ([r.firstPortion baseAddress], []) := by
  have hfinal := r.firstPortion_finalAddress baseAddress
  simp only [finalAddress, firstPortion] at hfinal
  simp only [subtractRegion, firstPortion, hfinal]
  rw [if_neg (by bv_omega), if_pos ⟨hr, hend⟩]

/-- Over a range that fits, the iterator visits every region at most twice. -/
theorem settles (r : MemoryRegion) (hsize : 0 < size.toNat) (hfits : RangeFits baseAddress size) :
    WorklistLoops.Settles (subtractRegion baseAddress size) r := by
  have hfinal := hfits.final_toNat hsize
  rw [WorklistLoops.Settles, subtractRegion_again]
  split_ifs with h
  · refine .inr ⟨_, rfl, subtractRegion_firstPortion h.1 ?_⟩
    have := h.1
    bv_omega
  · exact .inl rfl

/-- The four cases of the loop body, read without wrapping. -/
theorem subtractRegion_cases (hsize : 0 < size.toNat) (hfits : RangeFits baseAddress size)
    (hr : r.NonEmpty) (hw : r.NonWrapping) :
    (baseAddress.toNat ≤ r.baseAddress.toNat ∧
      r.baseAddress.toNat + r.size.toNat ≤ baseAddress.toNat + size.toNat ∧
      subtractRegion baseAddress size r = ([], [])) ∨
    (r.baseAddress.toNat < baseAddress.toNat ∧
      r.baseAddress.toNat + r.size.toNat ≤ baseAddress.toNat + size.toNat ∧
      subtractRegion baseAddress size r =
        ([{ r with size := baseAddress - r.baseAddress }], [])) ∨
    (baseAddress.toNat ≤ r.baseAddress.toNat ∧
      baseAddress.toNat + size.toNat < r.baseAddress.toNat + r.size.toNat ∧
      subtractRegion baseAddress size r =
        ([⟨baseAddress + size, r.baseAddress + r.size - (baseAddress + size),
          r.hostMemory + (baseAddress + size - r.baseAddress)⟩], [])) ∨
    (r.baseAddress.toNat < baseAddress.toNat ∧
      baseAddress.toNat + size.toNat < r.baseAddress.toNat + r.size.toNat ∧
      subtractRegion baseAddress size r =
        ([⟨baseAddress + size, r.baseAddress + r.size - (baseAddress + size),
          r.hostMemory + (baseAddress + size - r.baseAddress)⟩],
         [{ r with size := baseAddress - r.baseAddress }])) := by
  have hfinal := hfits.final_toNat hsize
  have hregion := RangeFits.final_toNat hw hr
  have hnext : baseAddress + size - 1 + 1 = baseAddress + size := by grind
  have hrest : r.baseAddress + r.size - 1 - (baseAddress + size - 1) =
      r.baseAddress + r.size - (baseAddress + size) := by grind
  have hhost : r.hostMemory + (baseAddress - r.baseAddress) + size =
      r.hostMemory + (baseAddress + size - r.baseAddress) := by grind
  simp only [NonEmpty] at hr
  unfold subtractRegion
  simp only [BitVec.le_def, BitVec.lt_def, ge_iff_le, gt_iff_lt, hfinal, hregion, hnext, hrest,
    hhost]
  split_ifs with h₁ h₂ h₃
  · exact .inl ⟨h₁.1, by omega, rfl⟩
  · exact .inr (.inl ⟨h₂.1, by omega, rfl⟩)
  · exact .inr (.inr (.inl ⟨h₃.1, by omega, rfl⟩))
  · exact .inr (.inr (.inr ⟨by omega, by omega, rfl⟩))

theorem translate_of_mem {a : U64} (h : r.Contains a) : r.translate a = some (r.hostAddress a) :=
  if_pos h

theorem translate_of_notMem {a : U64} (h : ¬ r.Contains a) : r.translate a = none := if_neg h

theorem translate_eq_none_iff {a : U64} : r.translate a = none ↔ ¬ r.Contains a := by
  simp [translate]

/-- What is left of a region is again non-empty and does not wrap. -/
theorem remnants_wellFormed (hsize : 0 < size.toNat) (hfits : RangeFits baseAddress size)
    (hr : r.NonEmpty) (hw : r.NonWrapping) : WellFormed (r.remnants baseAddress size) := by
  unfold RangeFits at hfits
  intro piece hp
  have hcases := subtractRegion_cases hsize hfits hr hw
  unfold NonEmpty at hr
  unfold NonWrapping at hw
  obtain ⟨-, -, he⟩ | ⟨hb, -, he⟩ | ⟨-, hf, he⟩ | ⟨hb, hf, he⟩ := hcases
  all_goals simp only [remnants, he, List.nil_append, List.append_nil, List.cons_append,
    List.mem_cons, List.not_mem_nil, or_false] at hp
  · rcases hp with rfl
    constructor <;> simp only [NonEmpty, NonWrapping] <;> bv_omega
  · rcases hp with rfl
    constructor <;> simp only [NonEmpty, NonWrapping] <;> bv_omega
  · rcases hp with rfl | rfl
    · constructor <;> simp only [NonEmpty, NonWrapping] <;> bv_omega
    · constructor <;> simp only [NonEmpty, NonWrapping] <;> bv_omega

/-- A region cut off at `e` keeps its translation below `e`. -/
theorem translate_lower {e : U64} (hlo : r.baseAddress.toNat < e.toNat)
    (hhi : e.toNat ≤ r.baseAddress.toNat + r.size.toNat) (a : U64) :
    translate { r with size := e - r.baseAddress } a =
      if a.toNat < e.toNat then r.translate a else none := by
  have hlen : (e - r.baseAddress).toNat = e.toNat - r.baseAddress.toNat := by bv_omega
  by_cases ha : a.toNat < e.toNat
  · rw [if_pos ha]
    by_cases hc : r.Contains a
    · rw [translate_of_mem hc, translate_of_mem (by simp only [Contains, hlen] at hc ⊢; omega)]
      rfl
    · rw [translate_of_notMem hc, translate_of_notMem]
      simp only [Contains, hlen] at hc ⊢; omega
  · rw [if_neg ha, translate_of_notMem]
    simp only [Contains, hlen]; omega

/-- A region moved up to `e` keeps its translation from `e` on. -/
theorem translate_upper {e : U64} (hlo : r.baseAddress.toNat ≤ e.toNat)
    (hhi : e.toNat < r.baseAddress.toNat + r.size.toNat) (a : U64) :
    translate ⟨e, r.baseAddress + r.size - e, r.hostMemory + (e - r.baseAddress)⟩ a =
      if e.toNat ≤ a.toNat then r.translate a else none := by
  have hlen : (r.baseAddress + r.size - e).toNat =
      r.baseAddress.toNat + r.size.toNat - e.toNat := by bv_omega
  by_cases ha : e.toNat ≤ a.toNat
  · rw [if_pos ha]
    by_cases hc : r.Contains a
    · rw [translate_of_mem hc, translate_of_mem (by simp only [Contains, hlen] at hc ⊢; omega)]
      have hhost : r.hostMemory + (e - r.baseAddress) + (a - e) =
          r.hostMemory + (a - r.baseAddress) := by grind
      exact congrArg some hhost
    · rw [translate_of_notMem hc, translate_of_notMem]
      simp only [Contains, hlen] at hc ⊢; omega
  · rw [if_neg ha, translate_of_notMem]
    simp only [Contains, hlen]; omega

/-- A region that adjoins the range loses exactly the addresses of the range. -/
theorem lookup_remnants (hsize : 0 < size.toNat) (hfits : RangeFits baseAddress size)
    (hr : r.NonEmpty) (hw : r.NonWrapping) (hadj : r.Adjoins baseAddress size) :
    lookup translate (r.remnants baseAddress size) =
      erase r.translate (addressRange baseAddress size) := by
  have hend : baseAddress.toNat + size.toNat < 2 ^ 64 →
      (baseAddress + size).toNat = baseAddress.toNat + size.toNat := by bv_omega
  have hrange : ∀ a : U64, a ∈ addressRange baseAddress size ↔
      baseAddress.toNat ≤ a.toNat ∧ a.toNat < baseAddress.toNat + size.toNat := fun _ => .rfl
  have hcases := subtractRegion_cases hsize hfits hr hw
  have hw' := hw
  unfold NonWrapping at hw'
  obtain ⟨hlo, hhi⟩ := hadj
  funext a
  have hout : ¬ r.Contains a → r.translate a = none := translate_of_notMem
  simp only [erase, hrange]
  obtain ⟨hb, hf, he⟩ | ⟨hb, hf, he⟩ | ⟨hb, hf, he⟩ | ⟨hb, hf, he⟩ := hcases
  all_goals simp only [remnants, he, List.nil_append, List.append_nil, List.cons_append,
    lookup_cons, lookup_nil, Option.none_or]
  · split_ifs with ha
    · rfl
    · exact (hout (by simp only [Contains]; omega)).symm
  · rw [translate_lower hb hlo]
    split_ifs with h₁ h₂
    · omega
    · rfl
    · rfl
    · exact (hout (by simp only [Contains]; omega)).symm
  · rw [translate_upper (by omega) (by omega), hend (by omega)]
    split_ifs with h₁ h₂
    · omega
    · rfl
    · rfl
    · exact (hout (by simp only [Contains]; omega)).symm
  · rw [translate_lower hb hlo, translate_upper (by omega) (by omega), hend (by omega)]
    split_ifs with h₁ h₂ h₃
    all_goals first | omega | simp

end MemoryRegion

/-- The loop of `SubtractMemoryRange` is a walk that visits the regions. -/
theorem subtractLoop_eq_loop (baseAddress size : U64) (fuel : ℕ) (regions : List MemoryRegion) :
    subtractLoop baseAddress size fuel regions =
      WorklistLoops.loop (subtractRegion baseAddress size) fuel regions := by
  induction fuel generalizing regions with
  | zero => cases regions <;> rfl
  | succ fuel ih =>
    cases regions with
    | nil => rfl
    | cons r rest => simp only [subtractLoop, WorklistLoops.loop, ih]

/-- The loop ends, and each region is replaced in place by what is left of it. -/
theorem subtractMemoryRange_eq {baseAddress size : U64} (hsize : 0 < size.toNat)
    (hfits : RangeFits baseAddress size) (regions : List MemoryRegion) :
    subtractMemoryRange regions baseAddress size =
      some (regions.flatMap (MemoryRegion.remnants baseAddress size)) := by
  rw [subtractMemoryRange, subtractLoop_eq_loop]
  exact WorklistLoops.loop_of_settles regions (fun r _ => r.settles hsize hfits)

/-- A list of well-formed regions stays well formed. -/
theorem flatMap_remnants_wellFormed {baseAddress size : U64} (hsize : 0 < size.toNat)
    (hfits : RangeFits baseAddress size) {regions : List MemoryRegion}
    (hwf : WellFormed regions) :
    WellFormed (regions.flatMap (MemoryRegion.remnants baseAddress size)) := by
  intro piece hp
  obtain ⟨r, hr, hpiece⟩ := List.mem_flatMap.mp hp
  obtain ⟨hne, hw⟩ := hwf r hr
  exact MemoryRegion.remnants_wellFormed hsize hfits hne hw piece hpiece

/-- A call that changes the guest's memory map, with the answer of the platform's `Impl`. -/
inductive MemoryCall where
  | map (impl : U64 → U64 → MemoryFlags → U64 → MemoryMappingStatus) (baseAddress size : U64)
      (flags : MemoryFlags) (memory : U64)
  | unmap (impl : U64 → U64 → MemoryMappingStatus) (baseAddress size : U64)

namespace MemoryCall

def exec (vm : VirtualMachine) : MemoryCall → Option (MemoryMappingStatus × VirtualMachine)
  | map impl baseAddress size flags memory =>
      some (vm.mapGuestMemory impl baseAddress size flags memory)
  | unmap impl baseAddress size => vm.unmapGuestMemory impl baseAddress size

def Fits : MemoryCall → Prop
  | map _ baseAddress size _ _ => RangeFits baseAddress size
  | unmap _ baseAddress size => RangeFits baseAddress size

/-- An unmap request that the platform grants adjoins every region of the list. -/
def AdjoinsAll (vm : VirtualMachine) : MemoryCall → Prop
  | map .. => True
  | unmap impl baseAddress size => impl baseAddress size = .OK →
      ∀ r ∈ vm.memoryRegions, r.Adjoins baseAddress size

/-- The effect of a call that returned `status` on the abstract memory map. -/
noncomputable def apply (m : U64 → Option U64) : MemoryCall → MemoryMappingStatus → U64 → Option U64
  | map _ baseAddress size _ memory, .OK =>
      overwrite m (addressRange baseAddress size) (fun a => memory + (a - baseAddress))
  | unmap _ baseAddress size, .OK => erase m (addressRange baseAddress size)
  | _, _ => m

end MemoryCall

/-- A sequence of calls, with the statuses they return. -/
def runCalls (vm : VirtualMachine) :
    List MemoryCall → Option (List MemoryMappingStatus × VirtualMachine)
  | [] => some ([], vm)
  | c :: cs => do
    let (status, vm') ← c.exec vm
    let (statuses, vm'') ← runCalls vm' cs
    return (status :: statuses, vm'')

/-- The abstract memory map after the calls and the statuses they returned. -/
noncomputable def applyCalls (m : U64 → Option U64) :
    List (MemoryCall × MemoryMappingStatus) → U64 → Option U64
  | [] => m
  | (c, status) :: cs => applyCalls (c.apply m status) cs

/-- Every granted unmap request of the run adjoins every region it finds. -/
def AdjoiningUnmaps (vm : VirtualMachine) : List MemoryCall → Prop
  | [] => True
  | c :: cs => c.AdjoinsAll vm ∧
      ∀ status vm', c.exec vm = some (status, vm') → AdjoiningUnmaps vm' cs

/-- The list and the abstract map agree at every address. -/
structure Represents (vm : VirtualMachine) (m : U64 → Option U64) : Prop where
  wellFormed : WellFormed vm.memoryRegions
  translation : hostTranslation vm.memoryRegions = m

theorem Represents.map {vm : VirtualMachine} {m : U64 → Option U64} (h : Represents vm m)
    {baseAddress size : U64} (memory : U64) (hsize : 0 < size.toNat)
    (hfits : RangeFits baseAddress size) :
    Represents { vm with memoryRegions := vm.memoryRegions ++ [⟨baseAddress, size, memory⟩] }
      (overwrite m (addressRange baseAddress size) (fun a => memory + (a - baseAddress))) where
  wellFormed := by
    intro r hr
    rcases List.mem_append.mp hr with hr | hr
    · exact h.wellFormed r hr
    · obtain rfl := List.mem_singleton.mp hr
      exact ⟨hsize, hfits⟩
  translation := by
    rw [← h.translation]
    exact lookup_append_eq_overwrite _ _ _ _ _
      (fun a ha => MemoryRegion.translate_of_mem ha)
      (fun a ha => MemoryRegion.translate_of_notMem ha)

theorem Represents.unmap {vm : VirtualMachine} {m : U64 → Option U64} (h : Represents vm m)
    {baseAddress size : U64} (hsize : 0 < size.toNat) (hfits : RangeFits baseAddress size)
    (hadj : ∀ r ∈ vm.memoryRegions, r.Adjoins baseAddress size) :
    Represents { vm with memoryRegions :=
        vm.memoryRegions.flatMap (MemoryRegion.remnants baseAddress size) }
      (erase m (addressRange baseAddress size)) where
  wellFormed := flatMap_remnants_wellFormed hsize hfits h.wellFormed
  translation := by
    rw [← h.translation]
    refine lookup_flatMap_eq_erase _ _ _ _ (fun r hr => ?_)
    obtain ⟨hne, hw⟩ := h.wellFormed r hr
    exact MemoryRegion.lookup_remnants hsize hfits hne hw (hadj r hr)

/-- One call: it returns, and the abstract map follows it. -/
theorem Represents.exec {vm : VirtualMachine} {m : U64 → Option U64} (h : Represents vm m)
    (c : MemoryCall) (hfits : c.Fits) (hadj : c.AdjoinsAll vm) :
    ∃ status vm', c.exec vm = some (status, vm') ∧ Represents vm' (c.apply m status) := by
  cases c with
  | map impl baseAddress size flags memory =>
    obtain ⟨hsize, he⟩ | ⟨status, hs, he⟩ :=
      vm.mapGuestMemory_cases impl baseAddress size flags memory
    · exact ⟨_, _, congrArg some he, h.map memory hsize hfits⟩
    · refine ⟨_, _, congrArg some he, ?_⟩
      cases status <;> first | exact h | exact absurd rfl hs
  | unmap impl baseAddress size =>
    obtain ⟨hsize, hok, he⟩ | ⟨status, hs, he⟩ := vm.unmapGuestMemory_cases impl baseAddress size
    · rw [subtractMemoryRange_eq hsize hfits] at he
      exact ⟨_, _, he, h.unmap hsize hfits (hadj hok)⟩
    · refine ⟨_, _, he, ?_⟩
      cases status <;> first | exact h | exact absurd rfl hs

/-- A whole run: every call returns, and the abstract map follows all of them. -/
theorem Represents.runCalls {vm : VirtualMachine} {m : U64 → Option U64} (h : Represents vm m)
    (calls : List MemoryCall) (hfits : ∀ c ∈ calls, c.Fits) (hadj : AdjoiningUnmaps vm calls) :
    ∃ statuses vm', Virt86.runCalls vm calls = some (statuses, vm') ∧
      Represents vm' (applyCalls m (calls.zip statuses)) := by
  induction calls generalizing vm m with
  | nil => exact ⟨[], vm, rfl, h⟩
  | cons c cs ih =>
    obtain ⟨status, vm', he, h'⟩ := h.exec c (hfits c (by simp)) hadj.1
    obtain ⟨statuses, vm'', hrun, h''⟩ :=
      ih h' (fun c' hc' => hfits c' (by simp [hc'])) (hadj.2 status vm' he)
    exact ⟨status :: statuses, vm'', by simp [Virt86.runCalls, he, hrun], h''⟩

theorem AdjoiningUnmaps.take {vm : VirtualMachine} {calls : List MemoryCall}
    (h : AdjoiningUnmaps vm calls) (n : ℕ) : AdjoiningUnmaps vm (calls.take n) := by
  induction calls generalizing vm n with
  | nil => simpa using h
  | cons c cs ih =>
    cases n with
    | zero => trivial
    | succ n => exact ⟨h.1, fun status vm' he => ih (h.2 status vm' he) n⟩

/-- Two pages are mapped and the first of them is unmapped. -/
private def trimCalls : List MemoryCall :=
  [.map (fun _ _ _ _ => .OK) 0x1000 0x2000 3 0x10000, .unmap (fun _ _ => .OK) 0x1000 0x1000]

end Virt86
