import Mathlib.Logic.Basic
import Virt86.Paging

/-!
# The paging-structure walks of the Intel manuals

The walks of the software developer's manual, volume 3, chapter 4, written with its own
notation for concatenated bit ranges: `e.extractLsb' 12 40` is `e[51:12]`, and an address is
zero-extended to 64 bits. Permission, reserved bit and canonicality checks are left out, as they
are in the code.
-/

namespace Virt86

open BitSlices

/-- The 4-level walk from `CR3`. -/
def sdmWalk4Level (memRead : PhysicalReader) (cr3 la : U64) : Walk U64 := do
  let pml4e : U64 ← readEntry memRead 8
    ((cr3.extractLsb' 12 40 ++ (la.extractLsb' 39 9 ++ 0#3)).setWidth 64)
  let pdpte : U64 ← readEntry memRead 8
    ((pml4e.extractLsb' 12 40 ++ (la.extractLsb' 30 9 ++ 0#3)).setWidth 64)
  if pdpte.getLsbD 7 then
    return (pdpte.extractLsb' 30 22 ++ la.extractLsb' 0 30).setWidth 64
  else do
    let pde : U64 ← readEntry memRead 8
      ((pdpte.extractLsb' 12 40 ++ (la.extractLsb' 21 9 ++ 0#3)).setWidth 64)
    if pde.getLsbD 7 then
      return (pde.extractLsb' 21 31 ++ la.extractLsb' 0 21).setWidth 64
    else do
      let pte : U64 ← readEntry memRead 8
        ((pde.extractLsb' 12 40 ++ (la.extractLsb' 12 9 ++ 0#3)).setWidth 64)
      return (pte.extractLsb' 12 40 ++ la.extractLsb' 0 12).setWidth 64

def sdmPDPTEAddress (cr3 : U64) (la : U32) : U64 :=
  (cr3.extractLsb' 5 27 ++ (la.extractLsb' 30 2 ++ 0#3)).setWidth 64

/-- The PAE walk below a PDPTE, with the PDE of the given index. -/
def sdmDirectoryWalkPAE (memRead : PhysicalReader) (pdpte : U64) (index : BitVec 9) (la : U32) :
    Walk U64 := do
  let pde : U64 ← readEntry memRead 8
    ((pdpte.extractLsb' 12 40 ++ (index ++ 0#3)).setWidth 64)
  if pde.getLsbD 7 then
    return (pde.extractLsb' 21 31 ++ la.extractLsb' 0 21).setWidth 64
  else do
    let pte : U64 ← readEntry memRead 8
      ((pde.extractLsb' 12 40 ++ (la.extractLsb' 12 9 ++ 0#3)).setWidth 64)
    return (pte.extractLsb' 12 40 ++ la.extractLsb' 0 12).setWidth 64

/-- The PAE walk from `CR3`. -/
def sdmWalkPAE (memRead : PhysicalReader) (cr3 : U64) (la : U32) : Walk U64 := do
  let pdpte : U64 ← readEntry memRead 8 (sdmPDPTEAddress cr3 la)
  sdmDirectoryWalkPAE memRead pdpte (la.extractLsb' 21 9) la

/-- The 32-bit walk from `CR3`, with 4 MiB pages under `CR4.PSE`. -/
def sdmWalk32 (memRead : PhysicalReader) (cr3 : U64) (pse : Bool) (la : U32) : Walk U64 := do
  let pde : U32 ← readEntry memRead 4
    ((cr3.extractLsb' 12 20 ++ (la.extractLsb' 22 10 ++ 0#2)).setWidth 64)
  if pde.getLsbD 7 ∧ pse then
    return (pde.extractLsb' 13 8 ++ pde.extractLsb' 22 10 ++ la.extractLsb' 0 22).setWidth 64
  else do
    let pte : U32 ← readEntry memRead 4
      ((pde.extractLsb' 12 20 ++ (la.extractLsb' 12 10 ++ 0#2)).setWidth 64)
    return (pte.extractLsb' 12 20 ++ la.extractLsb' 0 12).setWidth 64

/-- The control registers a walk depends on. -/
structure ControlRegisters where
  cr0 : U64
  cr3 : U64
  cr4 : U64
  efer : U64
  deriving DecidableEq, Repr

namespace ControlRegisters

def pg (regs : ControlRegisters) : Bool := regs.cr0.getLsbD 31

def pse (regs : ControlRegisters) : Bool := regs.cr4.getLsbD 4

def pae (regs : ControlRegisters) : Bool := regs.cr4.getLsbD 5

def lme (regs : ControlRegisters) : Bool := regs.efer.getLsbD 8

end ControlRegisters

/-- Reading the register succeeds with the given 64-bit value. -/
def PagingContext.Reads (vp : PagingContext) (reg : Reg) (x : U64) : Prop :=
  ∃ value, vp.regRead reg = .ok value ∧ RegValue.u64 value = x

/-- Reads of the control registers succeed and return `regs`. -/
structure PagingContext.HasRegisters (vp : PagingContext) (regs : ControlRegisters) : Prop where
  cr0 : vp.Reads .CR0 regs.cr0
  cr3 : vp.Reads .CR3 regs.cr3
  cr4 : vp.Reads .CR4 regs.cr4
  efer : vp.Reads .EFER regs.efer

/-- `LinearToPhysical` reads the same entries in the same order as the walk, returns true
exactly when the walk ends in an address, stores that address then and nothing otherwise. -/
structure PagingContext.Follows (vp : PagingContext) (laddr : U64) (walk : Walk U64) : Prop where
  reads : (vp.walk laddr).reads = walk.reads
  returns : ∀ old, vp.linearToPhysical laddr (some old) =
    (walk.result.isSome, some (walk.result.getD old))

theorem PagingContext.follows_iff (vp : PagingContext) (laddr : U64) (walk : Walk U64) :
    vp.Follows laddr walk ↔ vp.walk laddr = walk := by
  constructor
  · rintro ⟨hreads, hreturns⟩
    have hresult : (vp.walk laddr).result = walk.result := by
      have h := hreturns 0
      simp only [linearToPhysical] at h
      cases hc : (vp.walk laddr).result with
      | none =>
        cases hw : walk.result with
        | none => rfl
        | some a => simp [hc, hw] at h
      | some a =>
        cases hw : walk.result with
        | none => simp [hc, hw] at h
        | some b => simpa [hc, hw] using h
    cases hc : vp.walk laddr
    cases walk
    simp_all
  · rintro rfl
    refine ⟨rfl, fun old => ?_⟩
    simp only [linearToPhysical]
    cases (vp.walk laddr).result <;> rfl

/-! ## Addresses built by shifts and masks -/

private theorem getLsbD_mask {k : ℕ} (hk : k ≤ 64) (i : ℕ) :
    (0xFFFFFFFFFFFFFFFF#64 >>> (64 - k)).getLsbD i = decide (i < k) := by
  rw [show 0xFFFFFFFFFFFFFFFF#64 = BitVec.allOnes 64 by decide, BitVec.getLsbD_ushiftRight,
    BitVec.getLsbD_allOnes, decide_eq_decide]
  omega

/-- A built address is the table address above the linear address. -/
theorem buildAddress_eq {l t : ℕ} (h : l + t ≤ 64) (la ta : U64) :
    buildAddress l t la ta = (ta.extractLsb' 0 t ++ la.extractLsb' 0 l).setWidth 64 := by
  apply BitVec.eq_of_getLsbD_eq
  intro i hi
  simp only [buildAddress, BitVec.getLsbD_or, BitVec.getLsbD_shiftLeft, BitVec.getLsbD_and,
    getLsbD_mask (show t ≤ 64 by omega), getLsbD_mask (show l ≤ 64 by omega),
    BitVec.getLsbD_setWidth, BitVec.getLsbD_append, BitVec.getLsbD_extractLsb', Nat.zero_add]
  grind

/-- Nine bits of the linear address select an entry of a 512-entry table. -/
theorem extractLsb'_index64 (la : U64) (s : ℕ) :
    ((la >>> s) <<< 3).extractLsb' 0 12 = la.extractLsb' s 9 ++ 0#3 :=
  extractLsb'_shiftRight_shiftLeft la s 3 9 (by omega)

/-- Ten bits of the linear address select an entry of a 1024-entry table. -/
theorem extractLsb'_index32 (la : U64) (s : ℕ) :
    ((la >>> s) <<< 2).extractLsb' 0 12 = la.extractLsb' s 10 ++ 0#2 :=
  extractLsb'_shiftRight_shiftLeft la s 2 10 (by omega)

/-- Two bits of the linear address select one of the four PDPTEs. -/
theorem extractLsb'_pdpteIndex (la : U32) :
    ((((la >>> 30).setWidth 8).setWidth 64 <<< 3 : U64)).extractLsb' 0 5 =
      la.extractLsb' 30 2 ++ 0#3 := by
  apply BitVec.eq_of_getLsbD_eq
  intro i hi
  simp only [BitVec.getLsbD_extractLsb', BitVec.getLsbD_shiftLeft, BitVec.getLsbD_setWidth,
    BitVec.getLsbD_ushiftRight, BitVec.getLsbD_append, BitVec.getLsbD_zero]
  grind

/-- The PAE walk of the code keeps bits 11 to 3 of the linear address in place. -/
theorem extractLsb'_maskedIndex (la : U32) :
    ((la.setWidth 64 &&& ~~~0b111 : U64)).extractLsb' 0 12 = la.extractLsb' 3 9 ++ 0#3 := by
  apply BitVec.eq_of_getLsbD_eq
  intro i hi
  have hmask : ∀ i < 12, (~~~0b111 : U64).getLsbD i = decide (3 ≤ i) := by decide
  simp only [BitVec.getLsbD_extractLsb', BitVec.getLsbD_and, BitVec.getLsbD_setWidth,
    BitVec.getLsbD_append, BitVec.getLsbD_zero, Nat.zero_add, hmask i hi]
  grind

/-- The two parts of the address of a 4 MiB page. -/
theorem extractLsb'_largeAddr (hi : BitVec 8) (lo : BitVec 10) :
    ((hi.setWidth 64 <<< 10) ||| lo.setWidth 64 : U64).extractLsb' 0 18 = hi ++ lo := by
  apply BitVec.eq_of_getLsbD_eq
  intro i h
  simp only [BitVec.getLsbD_extractLsb', BitVec.getLsbD_or, BitVec.getLsbD_shiftLeft,
    BitVec.getLsbD_setWidth, BitVec.getLsbD_append]
  grind

/-! ## The walks of the code -/

namespace PagingContext

variable {vp : PagingContext} {regs : ControlRegisters}

theorem Reads.readReg {reg : Reg} {x : U64} (h : vp.Reads reg x) :
    ∃ value, vp.readReg reg = pure value ∧ RegValue.u64 value = x := by
  obtain ⟨value, hv, hx⟩ := h
  exact ⟨value, by rw [PagingContext.readReg, hv], hx⟩

/-- The choice of the paging mode. -/
theorem HasRegisters.walk_eq (h : vp.HasRegisters regs) (laddr : U64) :
    vp.walk laddr =
      if regs.pg = false then pure (laddr &&& 0xFFFFFFFF)
      else if regs.pae = false then vp.linearToPhysical32 (laddr.setWidth 32)
      else if regs.lme = false then vp.linearToPhysicalPAE (laddr.setWidth 32)
      else vp.linearToPhysical4Level laddr := by
  obtain ⟨cr0, hcr0, he0⟩ := h.cr0.readReg
  obtain ⟨cr4, hcr4, he4⟩ := h.cr4.readReg
  obtain ⟨efer, hefer, he⟩ := h.efer.readReg
  have hpg : cr0.u64 &&& CR0_PG = 0 ↔ regs.pg = false := by
    rw [he0]
    exact and_bit_eq_zero_iff _ (by omega)
  have hpae : cr4.u64 &&& CR4_PAE = 0 ↔ regs.pae = false := by
    rw [he4]
    exact and_bit_eq_zero_iff _ (by omega)
  have hlme : efer.u64 &&& EFER_LME = 0 ↔ regs.lme = false := by
    rw [he]
    exact and_bit_eq_zero_iff _ (by omega)
  simp only [walk, hcr0, hcr4, hefer, Walk.pure_bind]
  exact if_congr hpg rfl (if_congr hpae rfl (if_congr hlme rfl rfl))

theorem HasRegisters.linearToPhysical4Level_eq (h : vp.HasRegisters regs) (laddr : U64) :
    vp.linearToPhysical4Level laddr = sdmWalk4Level vp.memRead regs.cr3 laddr := by
  obtain ⟨cr3, hcr3, he3⟩ := h.cr3.readReg
  simp only [linearToPhysical4Level, sdmWalk4Level, hcr3, Walk.pure_bind, he3, getEntry,
    extractLsb'_index64, extractLsb'_shiftRight, PML4E.address, PDPTE.tableAddress,
    PDPTE.largePage, PDPTE.largeAddress, PDE64.tableAddress, PDE64.largePage, PDE64.largeAddress,
    PTE64.address, buildAddress_eq (show 30 + 22 ≤ 64 by omega),
    buildAddress_eq (show 21 + 31 ≤ 64 by omega), buildAddress_eq (show 12 + 40 ≤ 64 by omega),
    extractLsb'_setWidth_self _ (show 40 ≤ 64 by omega),
    extractLsb'_setWidth_self _ (show 31 ≤ 64 by omega),
    extractLsb'_setWidth_self _ (show 22 ≤ 64 by omega)]

theorem HasRegisters.linearToPhysical32_eq (h : vp.HasRegisters regs) (la : U32) :
    vp.linearToPhysical32 la = sdmWalk32 vp.memRead regs.cr3 regs.pse la := by
  obtain ⟨cr3, hcr3, he3⟩ := h.cr3.readReg
  obtain ⟨cr4, hcr4, he4⟩ := h.cr4.readReg
  have hlow : RegValue.u32 cr3 = regs.cr3.extractLsb' 0 32 := by
    rw [← he3, RegValue.u32, RegValue.u64, BitVec.extractLsb'_extractLsb'_of_le (by omega)]
  have hpse : ∀ b : Bool, (b = true ∧ cr4.u64 &&& CR4_PSE ≠ 0) ↔ (b = true ∧ regs.pse = true) := by
    intro b
    rw [he4, CR4_PSE, ne_eq, and_bit_eq_zero_iff _ (by omega), Bool.not_eq_false]
    rfl
  have hframe : ((regs.cr3.extractLsb' 0 32 >>> 12).setWidth 64 : U64).extractLsb' 0 20 =
      regs.cr3.extractLsb' 12 20 := by
    apply BitVec.eq_of_getLsbD_eq
    intro i hi
    simp only [BitVec.getLsbD_extractLsb', BitVec.getLsbD_setWidth, BitVec.getLsbD_ushiftRight]
    grind
  have hindex : ∀ s k, s + k ≤ 64 → (la.setWidth 64 : U64).extractLsb' s k = la.extractLsb' s k :=
    fun s k hk => BitVec.extractLsb'_setWidth_of_le hk
  simp only [linearToPhysical32, sdmWalk32, hcr3, hcr4, Walk.pure_bind, hlow, getEntry,
    PDE32.tablePageFrameNumber, PDE32.largePage, PDE32.largeAddrHigh, PDE32.largeAddrLow,
    PTE32.pageFrameNumber, buildAddress_eq (show 22 + 18 ≤ 64 by omega),
    buildAddress_eq (show 12 + 20 ≤ 64 by omega), extractLsb'_index32, extractLsb'_largeAddr,
    extractLsb'_setWidth_self _ (show 20 ≤ 64 by omega), hpse, hframe,
    hindex 22 10 (by omega), hindex 12 10 (by omega), hindex 0 22 (by omega),
    hindex 0 12 (by omega)]

/-- The PAE walk of the code, which selects the PDE by the bits 11 to 3 of the linear address. -/
theorem HasRegisters.linearToPhysicalPAE_eq (h : vp.HasRegisters regs) (la : U32) :
    vp.linearToPhysicalPAE la =
      readEntry vp.memRead 8 (sdmPDPTEAddress regs.cr3 la) >>= fun pdpte =>
        sdmDirectoryWalkPAE vp.memRead pdpte (la.extractLsb' 3 9) la := by
  obtain ⟨cr3, hcr3, he3⟩ := h.cr3.readReg
  have hindex : ∀ s k, s + k ≤ 64 → (la.setWidth 64 : U64).extractLsb' s k = la.extractLsb' s k :=
    fun s k hk => BitVec.extractLsb'_setWidth_of_le hk
  simp only [linearToPhysicalPAE, sdmPDPTEAddress, sdmDirectoryWalkPAE, hcr3, Walk.pure_bind, he3,
    getEntry, extractLsb'_pdpteIndex, extractLsb'_maskedIndex, extractLsb'_index64,
    extractLsb'_shiftRight, PDPTE.tableAddress, PDE64.tableAddress, PDE64.largePage,
    PDE64.largeAddress, PTE64.address, buildAddress_eq (show 5 + 27 ≤ 64 by omega),
    buildAddress_eq (show 21 + 31 ≤ 64 by omega), buildAddress_eq (show 12 + 40 ≤ 64 by omega),
    extractLsb'_setWidth_self _ (show 40 ≤ 64 by omega),
    extractLsb'_setWidth_self _ (show 31 ≤ 64 by omega), hindex 12 9 (by omega),
    hindex 0 21 (by omega), hindex 0 12 (by omega)]

/-! ## Agreement with the manual -/

/-- A processor with the given control registers and with paging entries at the given
addresses, all other memory unmapped. -/
def fixedContext (regs : ControlRegisters) (entries : List (U64 × U64)) : PagingContext where
  regRead
    | .CR0 => .ok (RegValue.setU64 0 regs.cr0)
    | .CR3 => .ok (RegValue.setU64 0 regs.cr3)
    | .CR4 => .ok (RegValue.setU64 0 regs.cr4)
    | .EFER => .ok (RegValue.setU64 0 regs.efer)
    | _ => .error .InvalidRegister
  memRead paddr _ :=
    (entries.lookup paddr).map fun e => Vector.ofFn fun i => e.extractLsb' (8 * i.val) 8

theorem fixedContext_hasRegisters (regs : ControlRegisters) (entries : List (U64 × U64)) :
    (fixedContext regs entries).HasRegisters regs := by
  have hset : ∀ x : U64, RegValue.u64 (RegValue.setU64 0 x) = x := by
    intro x
    apply BitVec.eq_of_getLsbD_eq
    intro i hi
    simp [RegValue.u64, RegValue.setU64, setSlice, hi, show i < 512 by omega]
  exact ⟨⟨_, rfl, hset _⟩, ⟨_, rfl, hset _⟩, ⟨_, rfl, hset _⟩, ⟨_, rfl, hset _⟩⟩

/-- With 4-level paging the code walks as the manual does. -/
theorem linearToPhysical_follows_sdm4Level (h : vp.HasRegisters regs) (hpg : regs.pg)
    (hpae : regs.pae) (hlme : regs.lme) (laddr : U64) :
    vp.Follows laddr (sdmWalk4Level vp.memRead regs.cr3 laddr) := by
  rw [follows_iff, h.walk_eq, h.linearToPhysical4Level_eq]
  simp [hpg, hpae, hlme]

/-- A 4-level walk of four entries to a 4 KiB page. -/
theorem linearToPhysical_follows_sdm4Level_page :
    let regs : ControlRegisters := ⟨0x80000000, 0x1000, 0x20, 0x100⟩
    let vp := fixedContext regs [(0x1FF8, 0x2001), (0x2008, 0x3001), (0x3010, 0x4001),
      (0x4018, 0x5001)]
    let walk := sdmWalk4Level vp.memRead regs.cr3 0xFFFFFF8040403123
    vp.Follows 0xFFFFFF8040403123 walk ∧ walk.result = some 0x5123 :=
  ⟨linearToPhysical_follows_sdm4Level (fixedContext_hasRegisters _ _) (by decide) (by decide)
    (by decide) _, by decide⟩

/-- With 32-bit paging the code walks as the manual does. -/
theorem linearToPhysical_follows_sdm32 (h : vp.HasRegisters regs) (hpg : regs.pg)
    (hpae : regs.pae = false) (laddr : U64) :
    vp.Follows laddr (sdmWalk32 vp.memRead regs.cr3 regs.pse (laddr.setWidth 32)) := by
  rw [follows_iff, h.walk_eq, h.linearToPhysical32_eq]
  simp [hpg, hpae]

/-- A 32-bit walk to a 4 MiB page above the 4 GiB line. -/
theorem linearToPhysical_follows_sdm32_largePage :
    let regs : ControlRegisters := ⟨0x80000000, 0x1000, 0x10, 0⟩
    let vp := fixedContext regs [(0x1004, 0x00802081)]
    let walk := sdmWalk32 vp.memRead regs.cr3 regs.pse 0x00400123
    vp.Follows 0x00400123 walk ∧ walk.result = some 0x100800123 :=
  ⟨linearToPhysical_follows_sdm32 (fixedContext_hasRegisters _ _) (by decide) (by decide) _,
    by decide⟩

private theorem tableEntryAddress_inj {frame : BitVec 40} {i j : BitVec 9}
    (h : (frame ++ (i ++ 0#3)).setWidth 64 = (frame ++ (j ++ 0#3)).setWidth 64) : i = j := by
  apply BitVec.eq_of_getLsbD_eq
  intro k hk
  have hbit := congrArg (fun x => x.getLsbD (k + 3)) h
  simp only [BitVec.getLsbD_setWidth, BitVec.getLsbD_append] at hbit
  grind

theorem sdmDirectoryWalkPAE_index_inj {memRead : PhysicalReader} {pdpte : U64} {i j : BitVec 9}
    {la : U32} (h : (sdmDirectoryWalkPAE memRead pdpte i la).reads =
      (sdmDirectoryWalkPAE memRead pdpte j la).reads) : i = j := by
  have hhead : ∀ k, (sdmDirectoryWalkPAE memRead pdpte k la).reads.head? =
      some ((pdpte.extractLsb' 12 40 ++ (k ++ 0#3)).setWidth 64, 8) := by
    intro k
    obtain ⟨later, hlater⟩ := Walk.exists_reads_bind (readEntry memRead 8
      ((pdpte.extractLsb' 12 40 ++ (k ++ 0#3)).setWidth 64)) _
    rw [sdmDirectoryWalkPAE, hlater, readEntry_reads]
    rfl
  have heq := congrArg List.head? h
  rw [hhead i, hhead j, Option.some.injEq, Prod.mk.injEq] at heq
  exact tableEntryAddress_inj heq.1

/-- With PAE paging the code walks as the manual does just when the PDPTE stops the walk, or
the bits of the linear address that select the PDE in the code are those of the manual. -/
theorem linearToPhysical_follows_sdmPAE_iff (h : vp.HasRegisters regs) (hpg : regs.pg)
    (hpae : regs.pae) (hlme : regs.lme = false) (laddr : U64) :
    vp.Follows laddr (sdmWalkPAE vp.memRead regs.cr3 (laddr.setWidth 32)) ↔
      (readEntry vp.memRead 8 (sdmPDPTEAddress regs.cr3 (laddr.setWidth 32))).result = none ∨
        laddr.extractLsb' 3 9 = laddr.extractLsb' 21 9 := by
  have hslice : ∀ s, s + 9 ≤ 32 →
      (laddr.setWidth 32 : U32).extractLsb' s 9 = laddr.extractLsb' s 9 :=
    fun s hs => BitVec.extractLsb'_setWidth_of_le hs
  rw [follows_iff, h.walk_eq, h.linearToPhysicalPAE_eq, hpg, hpae, hlme, sdmWalkPAE,
    hslice 3 (by omega), hslice 21 (by omega)]
  simp only [Bool.true_eq_false, if_false, if_true]
  cases hr : (readEntry vp.memRead 8 (sdmPDPTEAddress regs.cr3 (laddr.setWidth 32))).result with
  | none => simp [Walk.bind_of_none hr]
  | some pdpte =>
    rw [Walk.bind_of_some hr, Walk.bind_of_some hr]
    simp only [reduceCtorEq, false_or]
    constructor
    · intro heq
      rw [Walk.mk.injEq] at heq
      exact sdmDirectoryWalkPAE_index_inj (List.append_cancel_left heq.1)
    · intro heq
      rw [heq]

/-- A PAE walk to a 2 MiB page whose two directory indices agree. -/
theorem linearToPhysical_follows_sdmPAE_largePage :
    let regs : ControlRegisters := ⟨0x80000000, 0x1000, 0x20, 0⟩
    let vp := fixedContext regs [(0x1000, 0x2001), (0x2008, 0x600081)]
    let walk := sdmWalkPAE vp.memRead regs.cr3 0x00200008
    vp.Follows 0x00200008 walk ∧ walk.result = some 0x600008 :=
  ⟨(linearToPhysical_follows_sdmPAE_iff (fixedContext_hasRegisters _ _) (by decide) (by decide)
    (by decide) 0x00200008).mpr (Or.inr (by decide)), by decide⟩

/-- The first byte of the second 2 MiB page is looked up in the first directory slot. -/
theorem linearToPhysicalPAE_reads_first_slot :
    let regs : ControlRegisters := ⟨0x80000000, 0x1000, 0x20, 0⟩
    let vp := fixedContext regs [(0x1000, 0x2001), (0x2000, 0x400081), (0x2008, 0x600081)]
    vp.HasRegisters regs ∧ regs.pg ∧ regs.pae ∧ regs.lme = false ∧
      ¬ vp.Follows 0x00200000 (sdmWalkPAE vp.memRead regs.cr3 0x00200000) ∧
      vp.linearToPhysical 0x00200000 (some 0) = (true, some 0x400000) ∧
      (sdmWalkPAE vp.memRead regs.cr3 0x00200000).result = some 0x600000 := by
  intro regs vp
  have hregs : vp.HasRegisters regs := fixedContext_hasRegisters _ _
  have hwalk : vp.walk 0x00200000 = ⟨[(0x1000, 8), (0x2000, 8)], some 0x400000⟩ := by
    rw [hregs.walk_eq, hregs.linearToPhysicalPAE_eq]
    decide
  refine ⟨hregs, by decide, by decide, by decide, ?_, ?_, by decide⟩
  · rw [follows_iff, hwalk]
    decide
  · rw [linearToPhysical, hwalk]

end PagingContext

end Virt86
