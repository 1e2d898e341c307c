import Mathlib.Data.List.Basic
import Virt86.MemoryMapRefinement

/-!
# What unmapping leaves, and when it ends

Over a range that ends within the address space, `SubtractMemoryRange` visits each region at most
twice and leaves nothing of the range. A range whose end wraps past the address space has its
final address below its base: a region around both is split forever.
-/

namespace Virt86

namespace MemoryRegion

variable {baseAddress size : U64} {r piece : MemoryRegion}

/-- No piece of a region contains an address of the range. -/
theorem remnants_avoid (hsize : 0 < size.toNat) (hfits : RangeFits baseAddress size)
    (hr : r.NonEmpty) (hw : r.NonWrapping) (hp : piece ∈ r.remnants baseAddress size) {a : U64}
    (ha : a ∈ addressRange baseAddress size) : ¬ piece.Contains a := by
  obtain ⟨hlo, hhi⟩ := ha
  have hend : baseAddress.toNat + size.toNat < 2 ^ 64 →
      (baseAddress + size).toNat = baseAddress.toNat + size.toNat := by bv_omega
  have hlen : r.baseAddress.toNat < baseAddress.toNat →
      (baseAddress - r.baseAddress).toNat = baseAddress.toNat - r.baseAddress.toNat := by bv_omega
  have hcases := subtractRegion_cases hsize hfits hr hw
  simp only [NonWrapping] at hw
  intro hc
  obtain ⟨-, -, he⟩ | ⟨hb, -, he⟩ | ⟨-, hf, he⟩ | ⟨hb, hf, he⟩ := hcases
  all_goals simp only [remnants, he, List.nil_append, List.append_nil, List.cons_append,
    List.mem_cons, List.not_mem_nil, or_false] at hp
  · subst hp
    simp only [Contains, hlen hb] at hc
    omega
  · subst hp
    simp only [Contains, hend (by omega)] at hc
    omega
  · rcases hp with rfl | rfl
    · simp only [Contains, hend (by omega)] at hc
      omega
    · simp only [Contains, hlen hb] at hc
      omega

/-- A piece that was cut off at the end of the range is left alone by a second subtraction. -/
theorem subtractRegion_secondPortion (hsize : 0 < size.toNat)
    (hfits : RangeFits baseAddress size) (hr : r.NonEmpty) (hw : r.NonWrapping)
    (hf : baseAddress.toNat + size.toNat < r.baseAddress.toNat + r.size.toNat) :
    let second : MemoryRegion := ⟨baseAddress + size, r.baseAddress + r.size - (baseAddress + size),
      r.hostMemory + (baseAddress + size - r.baseAddress)⟩
    subtractRegion baseAddress size second = ([second], []) := by
  intro second
  have hfinal := hfits.final_toNat hsize
  have hregion := RangeFits.final_toNat hw hr
  simp only [NonWrapping] at hw
  have hend : (baseAddress + size).toNat = baseAddress.toNat + size.toNat := by bv_omega
  have hsecond : second.baseAddress + second.size - 1 = r.baseAddress + r.size - 1 := by grind
  have hhost : second.hostMemory + (baseAddress + size - second.baseAddress) =
      second.hostMemory := by grind
  have hlen : second.baseAddress + second.size - 1 - (baseAddress + size - 1) = second.size := by
    grind
  have hnext : baseAddress + size - 1 + 1 = second.baseAddress := by grind
  have hcase₃ : baseAddress ≤ second.baseAddress ∧
      baseAddress + size - 1 < second.baseAddress + second.size - 1 := by
    rw [hsecond, BitVec.le_def, BitVec.lt_def, hfinal, hregion]
    simp only [second, hend]
    omega
  simp only [subtractRegion, hlen, hnext]
  rw [if_neg (by have := hcase₃.2; bv_omega), if_neg (by have := hcase₃.1; bv_omega),
    if_pos hcase₃]
  simp [second]

/-- Subtracting the range from a piece of a region leaves the piece. -/
theorem remnants_of_mem_remnants (hsize : 0 < size.toNat) (hfits : RangeFits baseAddress size)
    (hr : r.NonEmpty) (hw : r.NonWrapping) (hp : piece ∈ r.remnants baseAddress size) :
    piece.remnants baseAddress size = [piece] := by
  have hend : baseAddress - 1 ≤ baseAddress + size - 1 ∨ baseAddress = 0 := by
    simp only [RangeFits] at hfits
    bv_omega
  have hfirst : r.baseAddress.toNat < baseAddress.toNat →
      (r.firstPortion baseAddress).remnants baseAddress size = [r.firstPortion baseAddress] := by
    intro hb
    rw [remnants, subtractRegion_firstPortion hb (hend.resolve_right (by bv_omega))]
    rfl
  have hsecond := subtractRegion_secondPortion hsize hfits hr hw
  obtain ⟨-, -, he⟩ | ⟨hb, -, he⟩ | ⟨-, hf, he⟩ | ⟨hb, hf, he⟩ :=
    subtractRegion_cases hsize hfits hr hw
  all_goals simp only [remnants, he, List.nil_append, List.append_nil, List.cons_append,
    List.mem_cons, List.not_mem_nil, or_false] at hp
  · subst hp
    exact hfirst hb
  · subst hp
    rw [remnants, hsecond hf]
    rfl
  · rcases hp with rfl | rfl
    · rw [remnants, hsecond hf]
      rfl
    · exact hfirst hb

/-- The first portion of a region straddled by a range whose end wraps is straddled again. -/
theorem Straddles.firstPortion (h : r.Straddles baseAddress size)
    (hwraps : ¬ RangeFits baseAddress size) :
    (r.firstPortion baseAddress).Straddles baseAddress size := by
  refine ⟨h.1, ?_⟩
  rw [firstPortion_finalAddress]
  simp only [RangeFits] at hwraps
  have := h.1
  bv_omega

end MemoryRegion

/-- Unmapping a range that fits leaves non-empty regions that do not wrap and hold nothing of the
range, and unmapping it again changes nothing. -/
theorem subtractMemoryRange_complete_idempotent (regions : List MemoryRegion)
    (hwf : WellFormed regions) (baseAddress size : U64) (hsize : size ≠ 0)
    (hfits : RangeFits baseAddress size) :
    ∃ result, subtractMemoryRange regions baseAddress size = some result ∧
      (∀ r ∈ result, ∀ a ∈ addressRange baseAddress size, ¬ r.Contains a) ∧
      WellFormed result ∧
      subtractMemoryRange result baseAddress size = some result := by
  have hpos : 0 < size.toNat := by bv_omega
  refine ⟨_, subtractMemoryRange_eq hpos hfits regions, ?_,
    flatMap_remnants_wellFormed hpos hfits hwf, ?_⟩
  · intro piece hp a ha
    obtain ⟨r, hr, hpiece⟩ := List.mem_flatMap.mp hp
    obtain ⟨hne, hw⟩ := hwf r hr
    exact MemoryRegion.remnants_avoid hpos hfits hne hw hpiece ha
  · rw [subtractMemoryRange_eq hpos hfits, List.flatMap_assoc]
    refine congrArg some (List.flatMap_congr fun r hr => ?_)
    obtain ⟨hne, hw⟩ := hwf r hr
    rw [List.flatMap_congr fun piece hp =>
      MemoryRegion.remnants_of_mem_remnants hpos hfits hne hw hp]
    simp

theorem subtractMemoryRange_complete_idempotent_split :
    ∃ result, subtractMemoryRange [⟨0x1000, 0x3000, 0x10000⟩] 0x2000 0x1000 = some result ∧
      (∀ r ∈ result, ∀ a ∈ addressRange 0x2000 0x1000, ¬ r.Contains a) ∧
      WellFormed result ∧ subtractMemoryRange result 0x2000 0x1000 = some result := by
  refine subtractMemoryRange_complete_idempotent [⟨0x1000, 0x3000, 0x10000⟩] ?_ 0x2000 0x1000
    (by decide) (by simp [RangeFits])
  intro r hr
  obtain rfl := List.mem_singleton.mp hr
  simp [MemoryRegion.NonEmpty, MemoryRegion.NonWrapping]

/-- The condition under which the loop of `SubtractMemoryRange` ends: the range does not wrap, or
no region reaches from below its base to beyond its wrapped final address. -/
def SubtractionEnds (regions : List MemoryRegion) (baseAddress size : U64) : Prop :=
  RangeFits baseAddress size ∨ ∀ r ∈ regions, ¬ r.Straddles baseAddress size

theorem SubtractionEnds.settles {regions : List MemoryRegion} {baseAddress size : U64}
    (h : SubtractionEnds regions baseAddress size) (hsize : 0 < size.toNat) :
    ∀ r ∈ regions, WorklistLoops.Settles (subtractRegion baseAddress size) r := by
  intro r hr
  rcases h with hfits | hnone
  · exact r.settles hsize hfits
  · exact .inl (by rw [MemoryRegion.subtractRegion_again, if_neg (hnone r hr)])

/-- When the condition holds, two visits for each region are enough. -/
theorem SubtractionEnds.subtractMemoryRange_eq {regions : List MemoryRegion}
    {baseAddress size : U64} (h : SubtractionEnds regions baseAddress size)
    (hsize : 0 < size.toNat) :
    subtractMemoryRange regions baseAddress size =
      some (regions.flatMap (MemoryRegion.remnants baseAddress size)) := by
  rw [subtractMemoryRange, subtractLoop_eq_loop]
  exact WorklistLoops.loop_of_settles regions (h.settles hsize)

/-- When it fails, no number of visits is. -/
theorem subtractLoop_eq_none {regions : List MemoryRegion} {baseAddress size : U64}
    (h : ¬ SubtractionEnds regions baseAddress size) (fuel : ℕ) :
    subtractLoop baseAddress size fuel regions = none := by
  simp only [SubtractionEnds, not_or, not_forall, not_not] at h
  obtain ⟨hwraps, r, hr, hstraddles⟩ := h
  rw [subtractLoop_eq_loop]
  refine WorklistLoops.loop_eq_none (P := fun r => r.Straddles baseAddress size) ?_ fuel hr
    hstraddles
  intro r hr
  rw [MemoryRegion.subtractRegion_again, if_pos hr]
  exact ⟨_, List.mem_singleton_self _, hr.firstPortion hwraps⟩

/-- For every region list and every non-empty range, the loop of `SubtractMemoryRange` ends if and
only if the range ends within the address space or no region straddles it. -/
theorem subtractLoop_ends_iff (regions : List MemoryRegion) (baseAddress size : U64)
    (hsize : size ≠ 0) :
    (∃ fuel result, subtractLoop baseAddress size fuel regions = some result) ↔
      RangeFits baseAddress size ∨ ∀ r ∈ regions, ¬ r.Straddles baseAddress size := by
  constructor
  · rintro ⟨fuel, result, he⟩
    by_contra h
    rw [subtractLoop_eq_none h] at he
    cases he
  · intro h
    exact ⟨_, _, SubtractionEnds.subtractMemoryRange_eq h (by bv_omega)⟩

theorem subtractLoop_ends_iff_page :
    (∃ fuel result, subtractLoop 0x1000 0x1000 fuel [⟨0x1000, 0x1000, 0x10000⟩] = some result) ↔
      RangeFits 0x1000 0x1000 ∨ ∀ r ∈ [(⟨0x1000, 0x1000, 0x10000⟩ : MemoryRegion)],
        ¬ r.Straddles 0x1000 0x1000 :=
  subtractLoop_ends_iff [⟨0x1000, 0x1000, 0x10000⟩] 0x1000 0x1000 (by decide)

/-- The page `[0x1000, 0x2000)` is mapped, and two pages from the last page of the address space on
are unmapped. The request passes every check and is granted, and the loop splits the mapped page
at every visit. -/
theorem unmap_across_top_never_ends :
    let vm : VirtualMachine := ⟨⟨36⟩, ⟨false, false⟩, [⟨0x1000, 0x1000, 0x10000⟩]⟩
    runCalls ⟨⟨36⟩, ⟨false, false⟩, []⟩ [.map (fun _ _ _ _ => .OK) 0x1000 0x1000 3 0x10000] =
        some ([.OK], vm) ∧
      (0xFFFFFFFFFFFFF000 : U64) &&& 0xFFF = 0 ∧ (0x2000 : U64) ≠ 0 ∧
      (0x2000 : U64) &&& 0xFFF = 0 ∧ ¬ (0x2000 : U64) > 0xFFFFFFFF ∧
      vm.unmapGuestMemory (fun _ _ => .OK) 0xFFFFFFFFFFFFF000 0x2000 = none ∧
      ∀ fuel, subtractLoop 0xFFFFFFFFFFFFF000 0x2000 fuel vm.memoryRegions = none := by
  refine ⟨by decide, by decide, by decide, by decide, by decide, by decide, fun fuel => ?_⟩
  apply subtractLoop_eq_none
  rintro (hfits | hnone)
  · simp [RangeFits] at hfits
  · exact hnone _ (List.mem_singleton_self _) (by decide)

end Virt86
