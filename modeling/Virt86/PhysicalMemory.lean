import Virt86.MemoryMapRefinement

/-!
# Reading and writing guest physical memory

`MemRead` and `MemWrite` scan the regions from the newest to the oldest and copy from the
first one that passes the range check and is large enough for the size still to be copied. A
region that passes the check but is smaller only lowers that size. The theorems below say for
which requests this scan does what a bytewise access through the memory map would do.
-/

namespace Virt86

open LayeredMaps

abbrev HostMemory := U64 → U8

/-- The bytes behind a `void *` argument. -/
abbrev Buffer := ℕ → U8

/-- The `memcpy` a scan ends with: the region it selected, the host address and the count. -/
structure MemCopy where
  region : MemoryRegion
  host : U64
  count : U64
  deriving DecidableEq, Repr

/-- The range check of the scan, on inclusive ends with wrapping arithmetic. -/
def MemoryRegion.Passes (paddr finalPAddr : U64) (r : MemoryRegion) : Prop :=
  paddr ≥ r.baseAddress ∧ finalPAddr ≤ r.finalAddress

instance (paddr finalPAddr : U64) (r : MemoryRegion) : Decidable (r.Passes paddr finalPAddr) :=
  inferInstanceAs (Decidable (_ ∧ _))

/-- The loop shared by `MemRead` and `MemWrite`, over the regions in the order they are
visited. -/
def findCopy (paddr finalPAddr : U64) : U64 → List MemoryRegion → Option MemCopy
  | _, [] => none
  | size, r :: rs =>
    if r.Passes paddr finalPAddr then
      if size ≤ r.size then some ⟨r, r.hostMemory + paddr - r.baseAddress, size⟩
      else findCopy paddr finalPAddr (size - r.size) rs
    else findCopy paddr finalPAddr size rs

def memCopy (regions : List MemoryRegion) (paddr size : U64) : Option MemCopy :=
  findCopy paddr (paddr + size - 1) size regions.reverse

/-- `MemRead`: the contents of the caller's buffer afterwards, `none` when it returns false. -/
def memRead (mem : HostMemory) (regions : List MemoryRegion) (paddr size : U64) (value : Buffer) :
    Option Buffer :=
  (memCopy regions paddr size).map fun c i =>
    if i < c.count.toNat then mem (c.host + BitVec.ofNat 64 i) else value i

/-- `MemWrite`: the host memory afterwards, `none` when it returns false. -/
def memWrite (mem : HostMemory) (regions : List MemoryRegion) (paddr size : U64) (value : Buffer) :
    Option HostMemory :=
  (memCopy regions paddr size).map fun c a =>
    if (a - c.host).toNat < c.count.toNat then value (a - c.host).toNat else mem a

@[simp] theorem memRead_isSome (mem : HostMemory) (regions : List MemoryRegion) (paddr size : U64)
    (value : Buffer) :
    (memRead mem regions paddr size value).isSome = (memCopy regions paddr size).isSome := by
  simp [memRead]

@[simp] theorem memWrite_isSome (mem : HostMemory) (regions : List MemoryRegion) (paddr size : U64)
    (value : Buffer) :
    (memWrite mem regions paddr size value).isSome = (memCopy regions paddr size).isSome := by
  simp [memWrite]

/-! ## Bounds of the copy -/

/-- Every byte copied lies in `[hostMemory, hostMemory + size)` of the region selected. -/
def MemCopy.Inside (c : MemCopy) : Prop :=
  ∀ i < c.count.toNat,
    (c.host + BitVec.ofNat 64 i - c.region.hostMemory).toNat < c.region.size.toNat

/-- The request copied exactly the bytes asked for, out of one region of the list. -/
def CopiesInside (regions : List MemoryRegion) (paddr size : U64) : Prop :=
  ∃ c, memCopy regions paddr size = some c ∧ c.region ∈ regions ∧ c.Inside ∧ c.count = size

/-- The total size of the regions that pass the range check. -/
def passingSize (regions : List MemoryRegion) (paddr size : U64) : ℕ :=
  ((regions.filter (fun r => r.Passes paddr (paddr + size - 1))).map (·.size.toNat)).sum

/-- What a scan that succeeds has selected. -/
theorem findCopy_some {paddr finalPAddr size : U64} {rs : List MemoryRegion} {c : MemCopy}
    (h : findCopy paddr finalPAddr size rs = some c) :
    c.region ∈ rs ∧ c.region.Passes paddr finalPAddr ∧
      c.host = c.region.hostMemory + paddr - c.region.baseAddress ∧
      c.count ≤ c.region.size ∧ c.count ≤ size := by
  induction rs generalizing size with
  | nil => simp [findCopy] at h
  | cons r rs ih =>
    rw [findCopy] at h
    split_ifs at h with hp hs
    · obtain rfl := Option.some.inj h
      exact ⟨by simp, hp, rfl, hs, BitVec.le_refl _⟩
    · obtain ⟨hm, hc, hh, hr, hle⟩ := ih h
      exact ⟨by simp [hm], hc, hh, hr, by bv_omega⟩
    · obtain ⟨hm, hc⟩ := ih h
      exact ⟨by simp [hm], hc⟩

/-- A non-empty request succeeds exactly when the passing regions are large enough together. -/
theorem findCopy_isSome_iff {paddr finalPAddr size : U64} (hsize : 0 < size.toNat)
    (rs : List MemoryRegion) :
    (findCopy paddr finalPAddr size rs).isSome ↔
      size.toNat ≤ ((rs.filter (fun r => r.Passes paddr finalPAddr)).map (·.size.toNat)).sum := by
  induction rs generalizing size with
  | nil => simp [findCopy]; omega
  | cons r rs ih =>
    rw [findCopy]
    split_ifs with hp hs
    · simp only [Option.isSome_some, true_iff, List.filter_cons, hp, decide_true, if_true,
        List.map_cons, List.sum_cons]
      rw [BitVec.le_def] at hs
      omega
    · rw [BitVec.le_def] at hs
      have hsub : (size - r.size).toNat = size.toNat - r.size.toNat := by bv_omega
      rw [ih (by omega), hsub]
      simp only [List.filter_cons, hp, decide_true, if_true, List.map_cons, List.sum_cons]
      omega
    · rw [ih hsize]
      simp [hp]

theorem memCopy_isSome_iff (regions : List MemoryRegion) {paddr size : U64}
    (hsize : 0 < size.toNat) :
    (memCopy regions paddr size).isSome ↔ size.toNat ≤ passingSize regions paddr size := by
  rw [memCopy, findCopy_isSome_iff hsize, passingSize, List.filter_reverse, List.map_reverse,
    List.sum_reverse]

theorem memCopy_some {regions : List MemoryRegion} {paddr size : U64} {c : MemCopy}
    (h : memCopy regions paddr size = some c) :
    c.region ∈ regions ∧ c.region.Passes paddr (paddr + size - 1) ∧
      c.host = c.region.hostMemory + paddr - c.region.baseAddress ∧
      c.count ≤ c.region.size := by
  obtain ⟨hm, hp, hh, hr, -⟩ := findCopy_some h
  exact ⟨by simpa using hm, hp, hh, hr⟩

theorem findCopy_count {paddr finalPAddr size : U64} {rs : List MemoryRegion} {c : MemCopy}
    (hlarge : ∀ r ∈ rs, r.Passes paddr finalPAddr → size ≤ r.size)
    (h : findCopy paddr finalPAddr size rs = some c) : c.count = size := by
  induction rs with
  | nil => simp [findCopy] at h
  | cons r rs ih =>
    rw [findCopy] at h
    split_ifs at h with hp hs
    · obtain rfl := Option.some.inj h
      rfl
    · exact absurd (hlarge r (by simp) hp) hs
    · exact ih (fun r' h' => hlarge r' (by simp [h'])) h

/-- Without wrapping, a region that passes the check contains the request. -/
theorem MemoryRegion.Passes.covers {paddr size : U64} {r : MemoryRegion}
    (h : r.Passes paddr (paddr + size - 1)) (hfits : RangeFits paddr size)
    (hsize : 0 < size.toNat) (hne : r.NonEmpty) (hw : r.NonWrapping) :
    r.baseAddress.toNat ≤ paddr.toNat ∧
      paddr.toNat + size.toNat ≤ r.baseAddress.toNat + r.size.toNat := by
  obtain ⟨hlo, hhi⟩ := h
  rw [BitVec.le_def, hfits.final_toNat hsize, finalAddress, RangeFits.final_toNat hw hne] at hhi
  simp only [NonEmpty] at hne
  exact ⟨hlo, by omega⟩

/-- The offset of the `i`-th byte copied from the start of the region's host block. -/
theorem MemCopy.offset_eq {c : MemCopy} {paddr : U64}
    (h : c.host = c.region.hostMemory + paddr - c.region.baseAddress) (i : U64) :
    c.host + i - c.region.hostMemory = paddr - c.region.baseAddress + i := by grind

theorem offset_toNat {paddr baseAddress : U64} {i : ℕ} (hlo : baseAddress.toNat ≤ paddr.toNat)
    (hi : paddr.toNat - baseAddress.toNat + i < 2 ^ 64) :
    (paddr - baseAddress + BitVec.ofNat 64 i).toNat = paddr.toNat - baseAddress.toNat + i := by
  have hsub : (paddr - baseAddress).toNat = paddr.toNat - baseAddress.toNat := by bv_omega
  rw [BitVec.toNat_add, hsub, BitVec.toNat_ofNat]
  omega

/-- A request that does not wrap only copies bytes of the region it selects. -/
theorem copiesInside_of_fits {regions : List MemoryRegion} (hwf : WellFormed regions)
    {paddr size : U64} (hfits : RangeFits paddr size) {c : MemCopy}
    (h : memCopy regions paddr size = some c) : CopiesInside regions paddr size := by
  obtain ⟨hm, hp, hh, -⟩ := memCopy_some h
  have hcount : c.count = size := by
    refine findCopy_count (fun r hr hpass => ?_) h
    obtain ⟨hne, hw⟩ := hwf r (by simpa using hr)
    rw [BitVec.le_def]
    rcases Nat.eq_zero_or_pos size.toNat with hzero | hsize
    · omega
    · have := hpass.covers hfits hsize hne hw
      omega
  obtain ⟨hne, hw⟩ := hwf _ hm
  refine ⟨c, h, hm, fun i hi => ?_, hcount⟩
  rw [hcount] at hi
  obtain ⟨hlo, hhi⟩ := hp.covers hfits (by omega) hne hw
  have := c.region.size.isLt
  rw [MemCopy.offset_eq hh, offset_toNat hlo (by omega)]
  omega

/-- A request that wraps and succeeds reads past its region, or copies too little. -/
theorem not_copiesInside_of_wraps {regions : List MemoryRegion} (hwf : WellFormed regions)
    {paddr size : U64} (hwraps : ¬ RangeFits paddr size) : ¬ CopiesInside regions paddr size := by
  rintro ⟨c, h, hm, hin, hcount⟩
  obtain ⟨-, ⟨hlo, -⟩, hh, -⟩ := memCopy_some h
  have hw := (hwf _ hm).2
  have hbound := c.region.size.isLt
  have hpaddr := paddr.isLt
  simp only [RangeFits, MemoryRegion.NonWrapping] at hwraps hw
  rw [ge_iff_le, BitVec.le_def] at hlo
  -- the first byte past the region, or the first byte when the request starts past it
  have hbyte := hin (c.region.size.toNat - (paddr.toNat - c.region.baseAddress.toNat))
    (by rw [hcount]; omega)
  rw [MemCopy.offset_eq hh, offset_toNat hlo (by omega)] at hbyte
  omega

/-- For every list of non-empty regions that do not wrap and every request, whatever `MemRead`
and `MemWrite` copy when they return true is the requested number of bytes inside the region
selected, exactly when the request does not wrap or the regions passing the wrapped check are
too small together for it to succeed. -/
theorem memAccess_copiesInside_iff (regions : List MemoryRegion) (hwf : WellFormed regions)
    (paddr size : U64) :
    ((∀ mem value, (memRead mem regions paddr size value).isSome →
        CopiesInside regions paddr size) ∧
      (∀ mem value, (memWrite mem regions paddr size value).isSome →
        CopiesInside regions paddr size)) ↔
      RangeFits paddr size ∨ passingSize regions paddr size < size.toNat := by
  simp only [memRead_isSome, memWrite_isSome]
  constructor
  · rintro ⟨hread, -⟩
    by_contra hcond
    obtain ⟨hwraps, hlarge⟩ := not_or.mp hcond
    have hsize : 0 < size.toNat := by
      simp only [RangeFits] at hwraps
      bv_omega
    have hsome : (memCopy regions paddr size).isSome :=
      (memCopy_isSome_iff regions hsize).mpr (by omega)
    exact not_copiesInside_of_wraps hwf hwraps (hread (fun _ => 0) (fun _ => 0) hsome)
  · intro hcond
    have hcopy : (memCopy regions paddr size).isSome → CopiesInside regions paddr size := by
      intro hsome
      obtain ⟨c, hc⟩ := Option.isSome_iff_exists.mp hsome
      rcases hcond with hfits | hsmall
      · exact copiesInside_of_fits hwf hfits hc
      · have hsize : 0 < size.toNat := by omega
        have hlarge := (memCopy_isSome_iff regions hsize).mp hsome
        omega
    exact ⟨fun _ _ => hcopy, fun _ _ => hcopy⟩

theorem memAccess_copiesInside_page :
    ((∀ mem value, (memRead mem [⟨0x1000, 0x1000, 0x10000⟩] 0x1FF8 8 value).isSome →
        CopiesInside [⟨0x1000, 0x1000, 0x10000⟩] 0x1FF8 8) ∧
      (∀ mem value, (memWrite mem [⟨0x1000, 0x1000, 0x10000⟩] 0x1FF8 8 value).isSome →
        CopiesInside [⟨0x1000, 0x1000, 0x10000⟩] 0x1FF8 8)) ↔
      RangeFits 0x1FF8 8 ∨ passingSize [⟨0x1000, 0x1000, 0x10000⟩] 0x1FF8 8 < 8 :=
  memAccess_copiesInside_iff [⟨0x1000, 0x1000, 0x10000⟩]
    (by simp [WellFormed, MemoryRegion.NonEmpty, MemoryRegion.NonWrapping]) 0x1FF8 8

/-- One region covers all but the last page of the address space. A request of that size that
starts in its third page wraps, passes the check and runs two pages past the region. -/
theorem memRead_wraps_past_region :
    let regions : List MemoryRegion := [⟨0, 0xFFFFFFFFFFFFF000, 0x10000⟩]
    WellFormed regions ∧
      (∀ mem value, (memRead mem regions 0x2000 0xFFFFFFFFFFFFF000 value).isSome) ∧
      ¬ CopiesInside regions 0x2000 0xFFFFFFFFFFFFF000 := by
  have hwf : WellFormed [⟨0, 0xFFFFFFFFFFFFF000, 0x10000⟩] := by
    simp [WellFormed, MemoryRegion.NonEmpty, MemoryRegion.NonWrapping]
  refine ⟨hwf, fun mem value => ?_, not_copiesInside_of_wraps hwf (by simp [RangeFits])⟩
  rw [memRead_isSome]
  decide

/-! ## Requests read as bytewise accesses -/

/-- All addresses of the request belong to the region. -/
def MemoryRegion.Covers (r : MemoryRegion) (paddr size : U64) : Prop :=
  r.baseAddress.toNat ≤ paddr.toNat ∧
    paddr.toNat + size.toNat ≤ r.baseAddress.toNat + r.size.toNat

instance (r : MemoryRegion) (paddr size : U64) : Decidable (r.Covers paddr size) :=
  inferInstanceAs (Decidable (_ ∧ _))

/-- The most recently mapped region that contains the whole request. -/
def coveringRegion (regions : List MemoryRegion) (paddr size : U64) : Option MemoryRegion :=
  regions.reverse.find? (fun r => r.Covers paddr size)

/-- The host address the memory map gives to the `i`-th byte of a request. -/
def byteTranslation (regions : List MemoryRegion) (paddr : U64) (i : ℕ) : Option U64 :=
  hostTranslation regions (paddr + BitVec.ofNat 64 i)

/-- Stores the bytes of a buffer one after the other, byte `i` at `host i`. -/
def storeBytes (mem : HostMemory) (host : ℕ → U64) (value : Buffer) : ℕ → HostMemory
  | 0 => mem
  | n + 1 => Function.update (storeBytes mem host value n) (host n) (value n)

/-- `MemRead` and `MemWrite` succeed exactly when every byte of the request is mapped, and then
byte `i` is read from, or stored at, the host address the memory map gives to it. -/
structure AccessesBytes (regions : List MemoryRegion) (paddr size : U64) : Prop where
  read_isSome : ∀ mem value, (memRead mem regions paddr size value).isSome ↔
    ∀ i < size.toNat, (byteTranslation regions paddr i).isSome
  read_bytes : ∀ mem value value', memRead mem regions paddr size value = some value' →
    ∀ i < size.toNat, some (value' i) = (byteTranslation regions paddr i).map mem
  write_isSome : ∀ mem value, (memWrite mem regions paddr size value).isSome ↔
    ∀ i < size.toNat, (byteTranslation regions paddr i).isSome
  write_bytes : ∀ mem value mem', memWrite mem regions paddr size value = some mem' →
    ∃ host : ℕ → U64, (∀ i < size.toNat, byteTranslation regions paddr i = some (host i)) ∧
      mem' = storeBytes mem host value size.toNat

namespace MemoryRegion

variable {r : MemoryRegion} {paddr size : U64}

theorem Covers.contains (h : r.Covers paddr size) (hfits : RangeFits paddr size) {i : ℕ}
    (hi : i < size.toNat) : r.Contains (paddr + BitVec.ofNat 64 i) := by
  obtain ⟨hlo, hhi⟩ := h
  simp only [RangeFits] at hfits
  have hbyte : (paddr + BitVec.ofNat 64 i).toNat = paddr.toNat + i := by bv_omega
  simp only [Contains, hbyte]
  omega

/-- A region that covers a non-empty request passes the check and is large enough for it. -/
theorem Covers.passes (h : r.Covers paddr size) (hfits : RangeFits paddr size)
    (hw : r.NonWrapping) (hsize : 0 < size.toNat) :
    r.Passes paddr (paddr + size - 1) ∧ size ≤ r.size := by
  obtain ⟨hlo, hhi⟩ := h
  have hne : 0 < r.size.toNat := by omega
  refine ⟨⟨hlo, ?_⟩, ?_⟩
  · rw [BitVec.le_def, hfits.final_toNat hsize, finalAddress, RangeFits.final_toNat hw hne]
    omega
  · rw [BitVec.le_def]
    omega

theorem hostAddress_add (r : MemoryRegion) (paddr i : U64) :
    r.hostAddress (paddr + i) = r.hostMemory + paddr - r.baseAddress + i := by
  simp only [hostAddress]
  grind

end MemoryRegion

/-- Without wrapping, the scan selects the newest region that covers the request. -/
theorem findCopy_eq_find {paddr size : U64} (hfits : RangeFits paddr size)
    (hsize : 0 < size.toNat) (rs : List MemoryRegion) (hw : ∀ r ∈ rs, r.NonWrapping) :
    findCopy paddr (paddr + size - 1) size rs =
      (rs.find? (fun r => r.Covers paddr size)).map
        fun r => ⟨r, r.hostMemory + paddr - r.baseAddress, size⟩ := by
  induction rs with
  | nil => rfl
  | cons r rs ih =>
    have hrest := ih (fun r' h' => hw r' (by simp [h']))
    rw [findCopy]
    by_cases hc : r.Covers paddr size
    · obtain ⟨hp, hle⟩ := hc.passes hfits (hw r (by simp)) hsize
      rw [if_pos hp, if_pos hle, List.find?_cons_of_pos (by simpa using hc)]
      rfl
    · rw [List.find?_cons_of_neg (by simpa using hc)]
      by_cases hp : r.Passes paddr (paddr + size - 1)
      · -- only an empty region at address zero passes the check without covering the request
        have hzero : r.size = 0 := by
          by_contra hne
          exact hc (hp.covers hfits hsize (by simp only [MemoryRegion.NonEmpty]; bv_omega)
            (hw r (by simp)))
        have hle : ¬ size ≤ r.size := by bv_omega
        have hsub : size - r.size = size := by rw [hzero]; simp
        rw [if_pos hp, if_neg hle, hsub, hrest]
      · rw [if_neg hp, hrest]

theorem memCopy_eq_covering {regions : List MemoryRegion} (hw : ∀ r ∈ regions, r.NonWrapping)
    {paddr size : U64} (hfits : RangeFits paddr size) (hsize : 0 < size.toNat) :
    memCopy regions paddr size = (coveringRegion regions paddr size).map
      fun r => ⟨r, r.hostMemory + paddr - r.baseAddress, size⟩ :=
  findCopy_eq_find hfits hsize regions.reverse (fun r hr => hw r (by simpa using hr))

/-- Every byte of a request that one region covers is mapped. -/
theorem byteTranslation_isSome_of_covering {regions : List MemoryRegion} {paddr size : U64}
    (hfits : RangeFits paddr size) {r : MemoryRegion}
    (hr : coveringRegion regions paddr size = some r) {i : ℕ} (hi : i < size.toNat) :
    (byteTranslation regions paddr i).isSome := by
  have hmem : r ∈ regions := by simpa using List.mem_of_find?_eq_some hr
  have hcov : r.Covers paddr size := by simpa using List.find?_some hr
  rw [Option.isSome_iff_ne_none]
  intro hnone
  have := (lookup_eq_none_iff _ _ _).mp hnone r hmem
  exact MemoryRegion.translate_eq_none_iff.mp this (hcov.contains hfits hi)

/-- A `memcpy` into host memory stores its bytes one after the other. -/
theorem storeBytes_window (mem : HostMemory) (host : U64) (value : Buffer) (n : ℕ)
    (hn : n ≤ 2 ^ 64) :
    storeBytes mem (fun i => host + BitVec.ofNat 64 i) value n =
      fun a => if (a - host).toNat < n then value (a - host).toNat else mem a := by
  induction n with
  | zero => funext a; simp [storeBytes]
  | succ n ih =>
    funext a
    rw [storeBytes, ih (by omega)]
    by_cases ha : a = host + BitVec.ofNat 64 n
    · have hoff : (a - host).toNat = n := by
        have : a - host = BitVec.ofNat 64 n := by grind
        rw [this, BitVec.toNat_ofNat]
        omega
      rw [ha, Function.update_self, ← ha, hoff, if_pos (by omega)]
    · have hoff : (a - host).toNat ≠ n := by
        intro h
        apply ha
        have : BitVec.ofNat 64 n = a - host := by rw [← h, BitVec.ofNat_toNat, BitVec.setWidth_eq]
        grind
      rw [Function.update_of_ne ha]
      have hiff : (a - host).toNat < n + 1 ↔ (a - host).toNat < n := by omega
      simp only [hiff]

/-- A request that fits and has a byte outside every region fails. -/
private theorem accessesBytes_of_unmapped {regions : List MemoryRegion}
    (hw : ∀ r ∈ regions, r.NonWrapping) {paddr size : U64} (hfits : RangeFits paddr size)
    {i : ℕ} (hi : i < size.toNat) (hnone : byteTranslation regions paddr i = none) :
    AccessesBytes regions paddr size := by
  have hcopy : memCopy regions paddr size = none := by
    rw [memCopy_eq_covering hw hfits (by omega), Option.map_eq_none_iff]
    by_contra hne
    obtain ⟨r, hr⟩ := Option.ne_none_iff_exists'.mp hne
    have := byteTranslation_isSome_of_covering hfits hr hi
    simp [hnone] at this
  have hnot : ¬ ∀ i < size.toNat, (byteTranslation regions paddr i).isSome := by
    intro hall
    simpa [hnone] using hall i hi
  constructor
  · intro mem value
    simp [hcopy, hnot]
  · intro mem value value' h
    simp [memRead, hcopy] at h
  · intro mem value
    simp [hcopy, hnot]
  · intro mem value mem' h
    simp [memWrite, hcopy] at h

/-- A request that one region covers goes to this region's host block. -/
private theorem accessesBytes_of_covering {regions : List MemoryRegion}
    (hw : ∀ r ∈ regions, r.NonWrapping) {paddr size : U64} (hfits : RangeFits paddr size)
    (hsize : 0 < size.toNat) {r : MemoryRegion}
    (hr : coveringRegion regions paddr size = some r)
    (hbytes : ∀ i < size.toNat, byteTranslation regions paddr i =
      some (r.hostAddress (paddr + BitVec.ofNat 64 i))) :
    AccessesBytes regions paddr size := by
  have hcopy : memCopy regions paddr size =
      some ⟨r, r.hostMemory + paddr - r.baseAddress, size⟩ := by
    rw [memCopy_eq_covering hw hfits hsize, hr, Option.map_some]
  have hall : ∀ i < size.toNat, (byteTranslation regions paddr i).isSome :=
    fun i hi => by rw [hbytes i hi]; rfl
  constructor
  · intro mem value
    simpa [hcopy] using hall
  · intro mem value value' h i hi
    simp only [memRead, hcopy, Option.map_some, Option.some.injEq] at h
    rw [hbytes i hi, Option.map_some, ← h, r.hostAddress_add]
    exact congrArg some (if_pos hi)
  · intro mem value
    simpa [hcopy] using hall
  · intro mem value mem' h
    refine ⟨fun i => r.hostAddress (paddr + BitVec.ofNat 64 i), hbytes, ?_⟩
    simp only [memWrite, hcopy, Option.map_some, Option.some.injEq] at h
    simp only [r.hostAddress_add]
    rw [storeBytes_window _ _ _ _ (Nat.le_of_lt size.isLt), ← h]

/-- Where `MemRead` behaves bytewise, a fully mapped request has a covering region, and the
memory map sends its bytes into that region's host block. -/
private theorem AccessesBytes.covering {regions : List MemoryRegion} {paddr size : U64}
    (h : AccessesBytes regions paddr size) (hw : ∀ r ∈ regions, r.NonWrapping)
    (hfits : RangeFits paddr size) (hsize : 0 < size.toNat)
    (hall : ∀ i < size.toNat, (byteTranslation regions paddr i).isSome) :
    ∃ r, coveringRegion regions paddr size = some r ∧ ∀ i < size.toNat,
      byteTranslation regions paddr i = some (r.hostAddress (paddr + BitVec.ofNat 64 i)) := by
  have hcopy := memCopy_eq_covering hw hfits hsize
  have hsome : (memCopy regions paddr size).isSome := by
    simpa using (h.read_isSome (fun _ => 0) (fun _ => 0)).mpr hall
  rw [hcopy, Option.isSome_map] at hsome
  obtain ⟨r, hr⟩ := Option.isSome_iff_exists.mp hsome
  refine ⟨r, hr, fun i hi => ?_⟩
  obtain ⟨host, hhost⟩ := Option.isSome_iff_exists.mp (hall i hi)
  -- a memory that differs from zero only at `host` tells which byte was read
  have hbyte := h.read_bytes (fun a => if a = host then 1 else 0) (fun _ => 0) _
    (by rw [memRead, hcopy, hr, Option.map_some, Option.map_some]) i hi
  rw [hhost, Option.map_some, Option.some.injEq, if_pos rfl, if_pos hi] at hbyte
  rw [hhost, r.hostAddress_add]
  by_contra hne
  rw [if_neg (fun heq => hne (congrArg some heq.symm))] at hbyte
  simp at hbyte

/-- For regions that do not wrap and a non-empty request that does not wrap, `MemRead` and
`MemWrite` access the bytes the memory map assigns exactly when some byte of the request is
unmapped, or the newest region containing the whole request gives each of its bytes the host
address that the newest region containing that byte gives it. -/
theorem accessesBytes_iff (regions : List MemoryRegion) (hw : ∀ r ∈ regions, r.NonWrapping)
    (paddr size : U64) (hsize : 0 < size.toNat) (hfits : RangeFits paddr size) :
    AccessesBytes regions paddr size ↔
      (∃ i < size.toNat, byteTranslation regions paddr i = none) ∨
      ∃ r, coveringRegion regions paddr size = some r ∧ ∀ i < size.toNat,
        byteTranslation regions paddr i = some (r.hostAddress (paddr + BitVec.ofNat 64 i)) := by
  constructor
  · intro h
    by_cases hall : ∀ i < size.toNat, (byteTranslation regions paddr i).isSome
    · exact .inr (h.covering hw hfits hsize hall)
    · simp only [not_forall, Option.not_isSome_iff_eq_none] at hall
      obtain ⟨i, hi, hnone⟩ := hall
      exact .inl ⟨i, hi, hnone⟩
  · rintro (⟨i, hi, hnone⟩ | ⟨r, hr, hbytes⟩)
    · exact accessesBytes_of_unmapped hw hfits hi hnone
    · exact accessesBytes_of_covering hw hfits hsize hr hbytes

theorem accessesBytes_page :
    AccessesBytes [⟨0x1000, 0x1000, 0x10000⟩] 0x1FFC 4 ↔
      (∃ i < (4 : U64).toNat, byteTranslation [⟨0x1000, 0x1000, 0x10000⟩] 0x1FFC i = none) ∨
      ∃ r, coveringRegion [⟨0x1000, 0x1000, 0x10000⟩] 0x1FFC 4 = some r ∧
        ∀ i < (4 : U64).toNat, byteTranslation [⟨0x1000, 0x1000, 0x10000⟩] 0x1FFC i =
          some (r.hostAddress (0x1FFC + BitVec.ofNat 64 i)) :=
  accessesBytes_iff [⟨0x1000, 0x1000, 0x10000⟩] (by simp [MemoryRegion.NonWrapping]) 0x1FFC 4
    (by decide) (by simp [RangeFits])

/-- Two adjacent pages are mapped and a read crosses their border: every byte is mapped, and
the read fails. -/
theorem memRead_fails_across_regions :
    let regions : List MemoryRegion := [⟨0x1000, 0x1000, 0x10000⟩, ⟨0x2000, 0x1000, 0x20000⟩]
    (∀ r ∈ regions, r.NonWrapping) ∧ RangeFits 0x1FFC 8 ∧
      (∀ i < 8, (byteTranslation regions 0x1FFC i).isSome) ∧
      ∀ mem value, (memRead mem regions 0x1FFC 8 value).isSome = false := by
  refine ⟨by simp [MemoryRegion.NonWrapping], by simp [RangeFits], by decide, fun mem value => ?_⟩
  rw [memRead_isSome]
  decide

end Virt86
