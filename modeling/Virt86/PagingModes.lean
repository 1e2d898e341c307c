import Mathlib.Data.List.Find
import Virt86.PageAlignment
import Virt86.WalkReads

/-!
# Paging modes and pages

`LinearToPhysical` walks in the mode that `GetPagingMode` reports. Outside PAE paging it translates
the bytes of a page together: through the same entries, to addresses that follow one another. Over
page-aligned regions they are together in host memory too. In PAE paging the walk takes the page
directory entry from low address bits.
-/

namespace Virt86

/-! ## Paging modes -/

inductive CPUPagingMode where
  | Unknown
  | Invalid
  | None
  | NoneLME
  | NonePAE
  | NonePAEandLME
  | ThirtyTwoBit
  | PAE
  | FourLevel
  deriving DecidableEq, Repr

/-- The `switch` of `GetPagingMode`, over the three bits. -/
def pagingModeOf (cr0_pg cr4_pae efer_lme : Bool) : CPUPagingMode :=
  match cr0_pg, cr4_pae, efer_lme with
  | false, false, false => .None
  | false, false, true => .NoneLME
  | false, true, false => .NonePAE
  | false, true, true => .NonePAEandLME
  | true, false, false => .ThirtyTwoBit
  | true, false, true => .Invalid
  | true, true, false => .PAE
  | true, true, true => .FourLevel

def getPagingMode (regRead : Reg → Except VPOperationStatus RegValue) : CPUPagingMode :=
  match regRead .CR0, regRead .CR4, regRead .EFER with
  | .ok cr0, .ok cr4, .ok efer =>
    pagingModeOf (cr0.u64 &&& CR0_PG ≠ 0) (cr4.u64 &&& CR4_PAE ≠ 0) (efer.u64 &&& EFER_LME ≠ 0)
  | _, _, _ => .Unknown

namespace PagingContext

variable (vp : PagingContext)

/-- The translation that `LinearToPhysical` makes in each mode. -/
def walkOf (laddr : U64) : CPUPagingMode → Walk U64
  | .Unknown => Walk.fail
  | .None | .NoneLME | .NonePAE | .NonePAEandLME => pure (laddr &&& 0xFFFFFFFF)
  | .ThirtyTwoBit | .Invalid => vp.linearToPhysical32 (laddr.setWidth 32)
  | .PAE => vp.linearToPhysicalPAE (laddr.setWidth 32)
  | .FourLevel => vp.linearToPhysical4Level laddr

/-- `LinearToPhysical` translates in the mode that `GetPagingMode` reports. -/
theorem walk_eq_walkOf (laddr : U64) :
    vp.walk laddr = vp.walkOf laddr (getPagingMode vp.regRead) := by
  unfold walk getPagingMode readReg
  cases hcr0 : vp.regRead .CR0 with
  | error => rfl
  | ok cr0 =>
    cases hcr4 : vp.regRead .CR4 with
    | error => rfl
    | ok cr4 =>
      cases hefer : vp.regRead .EFER with
      | error => rfl
      | ok efer =>
        simp only [Walk.pure_bind]
        by_cases hpg : cr0.u64 &&& CR0_PG = 0
        all_goals by_cases hpae : cr4.u64 &&& CR4_PAE = 0
        all_goals by_cases hlme : efer.u64 &&& EFER_LME = 0
        all_goals simp only [hpg, hpae, hlme, ne_eq, not_true, not_false_iff, decide_true,
          decide_false, if_true, if_false, pagingModeOf, walkOf]

end PagingContext

/-! ## Translations within a page -/

/-- An address and the one `i` bytes behind it in the same page. -/
def InPage (a i : U64) : Prop := a.toNat % 4096 + i.toNat < 4096

theorem InPage.toNat_add {a i : U64} (h : InPage a i) : (a + i).toNat = a.toNat + i.toNat := by
  simp only [InPage] at h
  bv_omega

theorem InPage.shiftRight_add {a i : U64} (h : InPage a i) {s : ℕ} (hs : 12 ≤ s) :
    (a + i) >>> s = a >>> s := by
  obtain ⟨k, rfl⟩ := Nat.exists_eq_add_of_le hs
  have hpage : (a.toNat + i.toNat) / 2 ^ 12 = a.toNat / 2 ^ 12 := by
    simp only [InPage] at h
    omega
  apply BitVec.eq_of_toNat_eq
  rw [BitVec.toNat_ushiftRight, BitVec.toNat_ushiftRight, h.toNat_add, Nat.shiftRight_add,
    Nat.shiftRight_add, Nat.shiftRight_eq_div_pow _ 12, Nat.shiftRight_eq_div_pow _ 12, hpage]

/-- The low half of an address, for the modes with linear addresses of 32 bits. -/
theorem InPage.setWidth {a i : U64} (h : InPage a i) :
    InPage ((a.setWidth 32).setWidth 64) i ∧
      (((a + i).setWidth 32).setWidth 64 : U64) = (a.setWidth 32).setWidth 64 + i := by
  have hsum := h.toNat_add
  simp only [InPage] at h ⊢
  have hlow : ((a.setWidth 32).setWidth 64 : U64).toNat = a.toNat % 2 ^ 32 := by
    rw [BitVec.toNat_setWidth, BitVec.toNat_setWidth]
    omega
  refine ⟨by omega, ?_⟩
  apply BitVec.eq_of_toNat_eq
  rw [BitVec.toNat_add, hlow, BitVec.toNat_setWidth, BitVec.toNat_setWidth, hsum]
  omega

theorem InPage.mod_two_pow {a i : U64} (h : InPage a i) {l : ℕ} (hl : 12 ≤ l) :
    (a + i).toNat % 2 ^ l = a.toNat % 2 ^ l + i.toNat := by
  obtain ⟨k, rfl⟩ := Nat.exists_eq_add_of_le hl
  have hdiv : (a.toNat + i.toNat) / 2 ^ 12 = a.toNat / 2 ^ 12 := by
    simp only [InPage] at h
    omega
  have hmod : (a.toNat + i.toNat) % 2 ^ 12 = a.toNat % 2 ^ 12 + i.toNat := by
    simp only [InPage] at h
    omega
  rw [h.toNat_add, pow_add, Nat.mod_mul, Nat.mod_mul, hdiv, hmod]
  omega

theorem toNat_buildAddress {l t : ℕ} (h : l + t ≤ 64) (la ta : U64) :
    (buildAddress l t la ta).toNat = ta.toNat % 2 ^ t * 2 ^ l + la.toNat % 2 ^ l := by
  have hlow : la.toNat % 2 ^ l < 2 ^ l := Nat.mod_lt _ (Nat.two_pow_pos l)
  have hbound : 2 ^ (t + l) ≤ 2 ^ 64 := Nat.pow_le_pow_right (by omega) (by omega)
  have hlt := (ta.extractLsb' 0 t ++ la.extractLsb' 0 l).isLt
  rw [buildAddress_eq h, BitVec.toNat_setWidth, Nat.mod_eq_of_lt (by omega), BitVec.toNat_append,
    BitVec.extractLsb'_toNat, BitVec.extractLsb'_toNat, Nat.shiftRight_zero, Nat.shiftRight_zero,
    ← Nat.shiftLeft_add_eq_or_of_lt hlow, Nat.shiftLeft_eq]

/-- The offset in a page goes into the address unchanged. -/
theorem InPage.buildAddress_add {a i : U64} (h : InPage a i) {l t : ℕ} (hl : 12 ≤ l)
    (hbits : l + t ≤ 64) (table : U64) :
    buildAddress l t (a + i) table = buildAddress l t a table + i := by
  have hlt := (buildAddress l t (a + i) table).isLt
  rw [toNat_buildAddress hbits, h.mod_two_pow hl] at hlt
  apply BitVec.eq_of_toNat_eq
  rw [BitVec.toNat_add, toNat_buildAddress hbits, toNat_buildAddress hbits, h.mod_two_pow hl]
  omega

namespace Walk

variable {α : Type} {i : U64}

/-- A walk that reads the same and ends `i` bytes further. -/
def ShiftedBy (i : U64) (w w' : Walk U64) : Prop :=
  w'.reads = w.reads ∧ w'.result = w.result.map (· + i)

theorem ShiftedBy.bind {f f' : α → Walk U64} (h : ∀ a, ShiftedBy i (f a) (f' a)) (x : Walk α) :
    ShiftedBy i (x >>= f) (x >>= f') := by
  cases hres : x.result with
  | none =>
    rw [bind_of_none hres, bind_of_none hres]
    exact ⟨rfl, rfl⟩
  | some a =>
    rw [bind_of_some hres, bind_of_some hres]
    exact ⟨congrArg (x.reads ++ ·) (h a).1, (h a).2⟩

theorem ShiftedBy.ite {c : Prop} [Decidable c] {x x' y y' : Walk U64} (hx : ShiftedBy i x x')
    (hy : ShiftedBy i y y') : ShiftedBy i (if c then x else y) (if c then x' else y') := by
  split_ifs
  · exact hx
  · exact hy

/-- An address built in a larger or an equal page. -/
theorem shiftedBy_buildAddress {a : U64} (h : InPage a i) {l t : ℕ} (hl : 12 ≤ l)
    (hbits : l + t ≤ 64) (table : U64) :
    ShiftedBy i (pure (buildAddress l t a table)) (pure (buildAddress l t (a + i) table)) :=
  ⟨rfl, congrArg some (h.buildAddress_add hl hbits table)⟩

end Walk

namespace PagingContext

open Walk

variable {vp : PagingContext} {laddr i : U64}

theorem linearToPhysical4Level_shiftedBy (h : InPage laddr i) :
    ShiftedBy i (vp.linearToPhysical4Level laddr) (vp.linearToPhysical4Level (laddr + i)) := by
  simp only [linearToPhysical4Level, h.shiftRight_add (by omega : 12 ≤ 39),
    h.shiftRight_add (by omega : 12 ≤ 30), h.shiftRight_add (by omega : 12 ≤ 21),
    h.shiftRight_add (by omega : 12 ≤ 12)]
  refine .bind (fun cr3 => .bind (fun pml4e => .bind (fun pdpte => ?_) _) _) _
  refine .ite (shiftedBy_buildAddress h (by omega) (by omega) _) (.bind (fun pde => ?_) _)
  refine .ite (shiftedBy_buildAddress h (by omega) (by omega) _) (.bind (fun pte => ?_) _)
  exact shiftedBy_buildAddress h (by omega) (by omega) _

theorem linearToPhysical32_shiftedBy (h : InPage laddr i) :
    ShiftedBy i (vp.linearToPhysical32 (laddr.setWidth 32))
      (vp.linearToPhysical32 ((laddr + i).setWidth 32)) := by
  obtain ⟨hlow, hadd⟩ := h.setWidth
  simp only [linearToPhysical32, hadd, hlow.shiftRight_add (by omega : 12 ≤ 22),
    hlow.shiftRight_add (by omega : 12 ≤ 12)]
  refine .bind (fun cr3 => .bind (fun cr4 => .bind (fun pde => ?_) _) _) _
  refine .ite (shiftedBy_buildAddress hlow (by omega) (by omega) _) (.bind (fun pte => ?_) _)
  exact shiftedBy_buildAddress hlow (by omega) (by omega) _

/-- A translation keeps the offset in the page. -/
theorem walk_offset (vp : PagingContext) (laddr : U64) :
    (vp.walk laddr).Ensures (fun _ => True) fun paddr =>
      paddr.toNat % 4096 = laddr.toNat % 4096 := by
  have hany {α : Type} (x : Walk α) : x.Ensures (fun _ => True) fun _ => True :=
    ⟨fun _ _ => trivial, fun _ _ => trivial⟩
  have hbuild {l t : ℕ} (hl : 12 ≤ l) (hbits : l + t ≤ 64) {a : U64}
      (ha : a.toNat % 4096 = laddr.toNat % 4096) (table : U64) :
      (pure (buildAddress l t a table) : Walk U64).Ensures (fun _ => True) fun paddr =>
        paddr.toNat % 4096 = laddr.toNat % 4096 := by
    obtain ⟨k, rfl⟩ := Nat.exists_eq_add_of_le hl
    have hpages : table.toNat % 2 ^ t * 2 ^ (12 + k) =
        4096 * (table.toNat % 2 ^ t * 2 ^ k) := by
      rw [pow_add, Nat.mul_left_comm]
      rfl
    refine ensures_pure ?_
    rw [toNat_buildAddress hbits, ← ha, hpages, pow_add, Nat.mod_mul]
    omega
  have hlow : ((laddr.setWidth 32).setWidth 64 : U64).toNat % 4096 = laddr.toNat % 4096 := by
    rw [BitVec.toNat_setWidth, BitVec.toNat_setWidth]
    omega
  rw [walk_eq_walkOf]
  cases getPagingMode vp.regRead with
  | Unknown => exact ensures_fail
  | None | NoneLME | NonePAE | NonePAEandLME =>
    refine ensures_pure ?_
    have hand : (laddr &&& 0xFFFFFFFF).toNat = laddr.toNat % 2 ^ 32 :=
      Nat.and_two_pow_sub_one_eq_mod laddr.toNat 32
    rw [hand]
    omega
  | Invalid | ThirtyTwoBit =>
    refine (hany _).bind fun cr3 _ => (hany _).bind fun cr4 _ => (hany _).bind fun pde _ => ?_
    refine .ite (hbuild (by omega) (by omega) hlow _) ((hany _).bind fun pte _ => ?_)
    exact hbuild (by omega) (by omega) hlow _
  | PAE =>
    refine (hany _).bind fun cr3 _ => (hany _).bind fun pdpte _ => (hany _).bind fun pde _ => ?_
    refine .ite (hbuild (by omega) (by omega) hlow _) ((hany _).bind fun pte _ => ?_)
    exact hbuild (by omega) (by omega) hlow _
  | FourLevel =>
    refine (hany _).bind fun cr3 _ => (hany _).bind fun pml4e _ => (hany _).bind fun pdpte _ => ?_
    refine .ite (hbuild (by omega) (by omega) rfl _) ((hany _).bind fun pde _ => ?_)
    refine .ite (hbuild (by omega) (by omega) rfl _) ((hany _).bind fun pte _ => ?_)
    exact hbuild (by omega) (by omega) rfl _

/-- Outside PAE paging, the bytes of a page are translated through the same entries and stay
together. -/
theorem walk_shiftedBy (vp : PagingContext) (hmode : getPagingMode vp.regRead ≠ .PAE)
    (h : InPage laddr i) :
    ShiftedBy i (vp.walk laddr) (vp.walk (laddr + i)) := by
  rw [walk_eq_walkOf, walk_eq_walkOf]
  generalize getPagingMode vp.regRead = mode at hmode ⊢
  have hlow : (laddr + i) &&& 0xFFFFFFFF = (laddr &&& 0xFFFFFFFF) + i := by
    have hand (a : U64) : (a &&& 0xFFFFFFFF).toNat = a.toNat % 2 ^ 32 :=
      Nat.and_two_pow_sub_one_eq_mod a.toNat 32
    apply BitVec.eq_of_toNat_eq
    rw [BitVec.toNat_add, hand, hand, h.mod_two_pow (by omega)]
    have := h
    simp only [InPage] at this
    omega
  have hnone : ShiftedBy i (pure (laddr &&& 0xFFFFFFFF)) (pure ((laddr + i) &&& 0xFFFFFFFF)) :=
    ⟨rfl, congrArg some hlow⟩
  cases mode with
  | Unknown => exact ⟨rfl, rfl⟩
  | Invalid | ThirtyTwoBit => exact linearToPhysical32_shiftedBy h
  | None | NoneLME | NonePAE | NonePAEandLME => exact hnone
  | PAE => exact absurd rfl hmode
  | FourLevel => exact linearToPhysical4Level_shiftedBy h

end PagingContext

/-! ## Regions within a page -/

section Regions

variable {regions : List MemoryRegion} {r : MemoryRegion} {a i size : U64}

theorem MemoryRegion.PageAligned.contains_add (h : r.PageAligned) (hpage : InPage a i) :
    r.Contains (a + i) ↔ r.Contains a := by
  obtain ⟨hbase, hsize, -⟩ := h
  simp only [InPage] at hpage
  simp only [MemoryRegion.Contains, InPage.toNat_add hpage]
  omega

theorem MemoryRegion.PageAligned.covers_iff (h : r.PageAligned) (hsize : 0 < size.toNat)
    (hpage : a.toNat % 4096 + size.toNat ≤ 4096) : r.Covers a size ↔ r.Contains a := by
  obtain ⟨hbase, hregion, -⟩ := h
  simp only [MemoryRegion.Covers, MemoryRegion.Contains]
  omega

theorem hostTranslation_cons (r : MemoryRegion) (regions : List MemoryRegion) (a : U64) :
    hostTranslation (r :: regions) a = (hostTranslation regions a).or (r.translate a) := rfl

/-- The bytes of a page stay together in host memory. -/
theorem hostTranslation_add (h : PageAlignedRegions regions) (hpage : InPage a i) :
    hostTranslation regions (a + i) = (hostTranslation regions a).map (· + i) := by
  induction regions with
  | nil => rfl
  | cons r regions ih =>
    have hrest := ih fun r' hr' => h r' (List.mem_cons_of_mem _ hr')
    have hhost : r.hostAddress (a + i) = r.hostAddress a + i := by
      simp only [MemoryRegion.hostAddress]
      grind
    have htranslate : r.translate (a + i) = (r.translate a).map (· + i) := by
      simp only [MemoryRegion.translate, (h r List.mem_cons_self).contains_add hpage, hhost]
      split_ifs
      · rfl
      · rfl
    rw [hostTranslation_cons, hostTranslation_cons, htranslate, hrest]
    cases hostTranslation regions a with
    | none => rfl
    | some host => rfl

theorem hostTranslation_eq_find (regions : List MemoryRegion) (a : U64) :
    hostTranslation regions a =
      (regions.reverse.find? fun r => r.Contains a).map fun r => r.hostAddress a := by
  induction regions with
  | nil => rfl
  | cons r regions ih =>
    rw [hostTranslation_cons, ih, List.reverse_cons, List.find?_append]
    cases regions.reverse.find? fun r => r.Contains a with
    | some r' => rfl
    | none =>
      by_cases hcontains : r.Contains a
      · simp [MemoryRegion.translate, hcontains]
      · simp [MemoryRegion.translate, hcontains]

/-- A request in one page is copied whole, from the host byte of its first address on. -/
theorem memCopy_in_page (h : PageAlignedRegions regions) (hw : ∀ r ∈ regions, r.NonWrapping)
    (hlow : a.toNat < 2 ^ 52) (hsize : 0 < size.toNat)
    (hpage : a.toNat % 4096 + size.toNat ≤ 4096) :
    (memCopy regions a size).map (fun c => (c.host, c.count)) =
      (hostTranslation regions a).map fun host => (host, size) := by
  have hfits : RangeFits a size := by
    rw [RangeFits]
    omega
  have hcovers : ∀ r ∈ regions.reverse, (decide (r.Covers a size) = decide (r.Contains a)) := by
    intro r hr
    rw [decide_eq_decide]
    exact (h r (List.mem_reverse.mp hr)).covers_iff hsize hpage
  rw [memCopy_eq_covering hw hfits hsize, coveringRegion, hostTranslation_eq_find,
    List.find?_congr hcovers, Option.map_map, Option.map_map]
  congr 1
  funext r
  simp only [Function.comp_apply, MemoryRegion.hostAddress, Prod.mk.injEq, and_true]
  grind

end Regions

end Virt86
