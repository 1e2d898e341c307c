import Mathlib.Data.List.Nodup
import Virt86.PhysicalMemory

/-!
# Looking up memory regions

`GetMemoryRegion` scans the regions from the oldest on, and `MemRead` from the newest. They find
the same one unless an address is in several.
-/

namespace Virt86

/-- `GetMemoryRegion`: the place in the vector of the region it points to. -/
def getMemoryRegion (regions : List MemoryRegion) (address : U64) : Option ℕ :=
  (regions.zipIdx.find? fun it =>
    address ≥ it.1.baseAddress ∧ address ≤ it.1.finalAddress).map Prod.snd

/-- The scan of `MemRead` with the places of the regions: the place of the one it copies from. -/
def findCopyPlace (paddr finalPAddr : U64) : U64 → List (MemoryRegion × ℕ) → Option ℕ
  | _, [] => none
  | size, (r, place) :: rs =>
    if r.Passes paddr finalPAddr then
      if size ≤ r.size then some place
      else findCopyPlace paddr finalPAddr (size - r.size) rs
    else findCopyPlace paddr finalPAddr size rs

def memReadPlace (regions : List MemoryRegion) (paddr size : U64) : Option ℕ :=
  findCopyPlace paddr (paddr + size - 1) size regions.zipIdx.reverse

/-- The places are those of the regions that the scan selects. -/
theorem findCopyPlace_region {regions : List MemoryRegion} {paddr finalPAddr size : U64}
    {rs : List (MemoryRegion × ℕ)} (h : ∀ it ∈ rs, regions[it.2]? = some it.1) :
    (findCopyPlace paddr finalPAddr size rs).bind (fun place => regions[place]?) =
      (findCopy paddr finalPAddr size (rs.map Prod.fst)).map MemCopy.region := by
  induction rs generalizing size with
  | nil => rfl
  | cons it rs ih =>
    rw [List.forall_mem_cons] at h
    rw [findCopyPlace, List.map_cons, findCopy]
    split_ifs with hpasses hsize
    · exact h.1
    · exact ih h.2
    · exact ih h.2

theorem memReadPlace_region (regions : List MemoryRegion) (paddr size : U64) :
    (memReadPlace regions paddr size).bind (fun place => regions[place]?) =
      (memCopy regions paddr size).map MemCopy.region := by
  have hplaces : ∀ it ∈ regions.zipIdx.reverse, regions[it.2]? = some it.1 := by
    intro it hit
    rw [List.mem_reverse] at hit
    exact List.mem_zipIdx_iff_getElem?.mp hit
  rw [memReadPlace, findCopyPlace_region hplaces, memCopy, List.map_reverse, List.zipIdx_map_fst]

/-! ## The regions that contain an address -/

section Containing

variable {regions : List MemoryRegion} {address : U64}

/-- The regions that contain an address, with their places. -/
def containing (regions : List MemoryRegion) (address : U64) : List (MemoryRegion × ℕ) :=
  regions.zipIdx.filter fun it => it.1.Contains address

theorem length_containing (regions : List MemoryRegion) (address : U64) :
    (containing regions address).length = regions.countP fun r => r.Contains address := by
  rw [containing, ← List.countP_eq_length_filter]
  conv_rhs => rw [← List.zipIdx_map_fst 0 regions, List.countP_map]
  rfl

theorem nodup_containing (regions : List MemoryRegion) (address : U64) :
    ((containing regions address).map Prod.snd).Nodup := by
  have hall : (regions.zipIdx.map Prod.snd).Nodup := by
    rw [List.zipIdx_map_snd]
    exact List.nodup_range'
  exact hall.sublist (List.filter_sublist.map Prod.snd)

/-- A byte of a region passes the checks of both scans. -/
theorem MemoryRegion.passes_byte_iff {r : MemoryRegion} (hne : r.NonEmpty) (hw : r.NonWrapping) :
    r.Passes address address ↔ r.Contains address := by
  have hfinal : r.finalAddress.toNat = r.baseAddress.toNat + r.size.toNat - 1 :=
    RangeFits.final_toNat hw hne
  simp only [NonEmpty] at hne
  rw [Passes, Contains, ge_iff_le, BitVec.le_def, BitVec.le_def, hfinal]
  omega

theorem getMemoryRegion_eq_head? (hwf : WellFormed regions) :
    getMemoryRegion regions address = (containing regions address).head?.map Prod.snd := by
  rw [getMemoryRegion, ← List.head?_filter, containing]
  congr 2
  apply List.filter_congr
  intro it hit
  obtain ⟨hne, hw⟩ := hwf it.1 (List.fst_mem_of_mem_zipIdx hit)
  rw [decide_eq_decide]
  exact MemoryRegion.passes_byte_iff hne hw

theorem findCopyPlace_byte {rs : List (MemoryRegion × ℕ)}
    (hwf : ∀ it ∈ rs, it.1.NonEmpty ∧ it.1.NonWrapping) :
    findCopyPlace address address 1 rs =
      (rs.find? fun it => it.1.Contains address).map Prod.snd := by
  induction rs with
  | nil => rfl
  | cons it rs ih =>
    rw [List.forall_mem_cons] at hwf
    obtain ⟨⟨hne, hw⟩, hrest⟩ := hwf
    have hsize : (1 : U64) ≤ it.1.size := by
      rw [BitVec.le_def]
      exact hne
    rw [findCopyPlace, List.find?_cons, if_congr (MemoryRegion.passes_byte_iff hne hw) rfl rfl]
    by_cases hcontains : it.1.Contains address
    · rw [if_pos hcontains, if_pos hsize, decide_eq_true hcontains]
      rfl
    · rw [if_neg hcontains, decide_eq_false hcontains]
      exact ih hrest

theorem memReadPlace_eq_getLast? (hwf : WellFormed regions) :
    memReadPlace regions address 1 = (containing regions address).getLast?.map Prod.snd := by
  have hfinal : address + 1 - 1 = address := BitVec.add_sub_cancel address 1
  rw [memReadPlace, hfinal, findCopyPlace_byte, containing, List.getLast?_filter]
  intro it hit
  rw [List.mem_reverse] at hit
  exact hwf it.1 (List.fst_mem_of_mem_zipIdx hit)

theorem map_fst_containing (regions : List MemoryRegion) (address : U64) :
    (containing regions address).map Prod.fst = regions.filter fun r => r.Contains address := by
  conv_rhs => rw [← List.zipIdx_map_fst 0 regions, List.filter_map]
  rfl

/-- The region at the place of one that contains the address. -/
theorem region_of_place {found : Option (MemoryRegion × ℕ)}
    (h : ∀ it ∈ found, it ∈ containing regions address) :
    (found.map Prod.snd).bind (fun place => regions[place]?) = found.map Prod.fst := by
  cases found with
  | none => rfl
  | some it =>
    have hmem := List.mem_of_mem_filter (h it rfl)
    exact List.mem_zipIdx_iff_getElem?.mp hmem

/-- Without repetitions, the first and the last element are one if and only if there are no two. -/
theorem head?_map_eq_getLast?_map_iff {α β : Type} {f : α → β} {l : List α}
    (h : (l.map f).Nodup) : l.head?.map f = l.getLast?.map f ↔ l.length ≤ 1 := by
  cases l with
  | nil => simp
  | cons a l =>
    cases hl : l.getLast? with
    | none =>
      rw [List.getLast?_eq_none_iff] at hl
      simp [hl]
    | some b =>
      have hb : b ∈ l := List.mem_of_getLast? hl
      rw [List.map_cons, List.nodup_cons] at h
      have hdiffer : f a ≠ f b := fun hf => h.1 (hf ▸ List.mem_map_of_mem hb)
      have hlength : 0 < l.length := List.length_pos_of_mem hb
      rw [List.head?_cons, List.getLast?_cons, hl, List.length_cons]
      simp only [Option.map_some, Option.getD_some, Option.some.injEq]
      exact iff_of_false hdiffer (by omega)

end Containing

/-- For every list of non-empty regions that do not wrap and every address: both look-ups end at
the same region if and only if at most one region contains the address, and at regions alike if and
only if the oldest and the newest that contain it are alike. They always fail together. -/
theorem regionLookups_agree_iff (regions : List MemoryRegion) (hwf : WellFormed regions)
    (address : U64) :
    (getMemoryRegion regions address = memReadPlace regions address 1 ↔
      (regions.countP fun r => r.Contains address) ≤ 1) ∧
    ((getMemoryRegion regions address).bind (fun place => regions[place]?) =
        (memCopy regions address 1).map MemCopy.region ↔
      regions.find? (fun r => r.Contains address) =
        regions.reverse.find? fun r => r.Contains address) ∧
    ∀ mem value, getMemoryRegion regions address = none ↔
      memRead mem regions address 1 value = none := by
  have hfirst : getMemoryRegion regions address =
      (containing regions address).head?.map Prod.snd := getMemoryRegion_eq_head? hwf
  have hlast : memReadPlace regions address 1 =
      (containing regions address).getLast?.map Prod.snd := memReadPlace_eq_getLast? hwf
  have hnewest := memReadPlace_region regions address 1
  rw [hlast, region_of_place fun it => List.mem_of_getLast?, ← List.getLast?_map,
    map_fst_containing, List.getLast?_filter] at hnewest
  refine ⟨?_, ?_, fun mem value => ?_⟩
  · rw [hfirst, hlast, head?_map_eq_getLast?_map_iff (nodup_containing regions address),
      length_containing]
  · rw [← hnewest, hfirst, region_of_place fun it => List.mem_of_mem_head?, ← List.head?_map,
      map_fst_containing, List.head?_filter]
  · rw [memRead, Option.map_eq_none_iff, ← Option.map_eq_none_iff (f := MemCopy.region), ← hnewest,
      hfirst, Option.map_eq_none_iff, List.head?_eq_none_iff, ← List.getLast?_filter,
      List.getLast?_eq_none_iff, ← map_fst_containing, List.map_eq_nil_iff]

/-- Two regions side by side. -/
theorem regionLookups_agree_adjacent :
    let regions : List MemoryRegion := [⟨0x1000, 0x1000, 0xA000⟩, ⟨0x2000, 0x1000, 0xC000⟩]
    (getMemoryRegion regions 0x2008 = memReadPlace regions 0x2008 1 ↔
      (regions.countP fun r => r.Contains 0x2008) ≤ 1) ∧
    ((getMemoryRegion regions 0x2008).bind (fun place => regions[place]?) =
        (memCopy regions 0x2008 1).map MemCopy.region ↔
      regions.find? (fun r => r.Contains 0x2008) =
        regions.reverse.find? fun r => r.Contains 0x2008) ∧
    ∀ mem value, getMemoryRegion regions 0x2008 = none ↔
      memRead mem regions 0x2008 1 value = none :=
  regionLookups_agree_iff _ (by unfold WellFormed; decide) 0x2008

/-- Of two mappings of one page the look-up finds the older one, and the read the newer one. -/
theorem regionLookups_disagree :
    let regions : List MemoryRegion := [⟨0x1000, 0x1000, 0xA000⟩, ⟨0x1000, 0x1000, 0xC000⟩]
    WellFormed regions ∧ getMemoryRegion regions 0x1008 = some 0 ∧
      memReadPlace regions 0x1008 1 = some 1 ∧
      (memCopy regions 0x1008 1).map MemCopy.region = some ⟨0x1000, 0x1000, 0xC000⟩ := by
  unfold WellFormed
  decide

end Virt86
