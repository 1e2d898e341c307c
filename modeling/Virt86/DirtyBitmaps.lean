import Virt86.KvmMemorySlots

/-!
# Dirty page bitmaps

`KVM_GET_DIRTY_LOG` writes the bits of the pages of a slot in whole words. `QueryDirtyPages` asks
for a buffer of as many bytes as the bits take up, and `ClearDirtyPagesImpl` allocates that number
of words.
-/

namespace Virt86

namespace KvmVirtualMachine

/-- The number of pages. -/
def pageCount (size : U64) : ℕ := size.toNat / 4096

/-- The bytes that the kernel writes for a slot of the size. -/
def dirtyLogBytes (size : U64) : ℕ := 8 * ((pageCount size + 63) / 64)

/-- The number of words that `ClearDirtyPagesImpl` allocates. -/
def clearBitmapSize (size : U64) : U64 := (size / 4096 + 8 - 1) / 8

theorem toNat_clearBitmapSize (size : U64) :
    (clearBitmapSize size).toNat = (pageCount size + 7) / 8 := by
  have hlt := size.isLt
  rw [clearBitmapSize, pageCount, BitVec.toNat_udiv, BitVec.toNat_sub, BitVec.toNat_add,
    BitVec.toNat_udiv]
  change (2 ^ 64 - 1 + (size.toNat / 4096 + 8) % 2 ^ 64) % 2 ^ 64 / 8 = _
  omega

/-- What the log of a slot takes is in the buffer that was passed, and in the one allocated. -/
structure BitmapsSuffice (size bitmapSize : U64) : Prop where
  query : ∀ (kvm : KvmVirtualMachine) (baseAddress bitmap : U64),
    kvm.queryDirtyPages (fun _ => true) baseAddress size bitmap bitmapSize = .OK →
    ∀ rgn ∈ kvm.findRegion baseAddress size, dirtyLogBytes rgn.memorySize ≤ bitmapSize.toNat
  clear : ∀ (kvm : KvmVirtualMachine) (baseAddress : U64),
    kvm.clearDirtyPages (fun _ => true) baseAddress size = .OK →
    ∀ rgn ∈ kvm.findRegion baseAddress size,
      dirtyLogBytes rgn.memorySize ≤ 8 * (clearBitmapSize size).toNat

variable {kvm : KvmVirtualMachine} {baseAddress size bitmap bitmapSize : U64}

theorem memorySize_of_findRegion {rgn : KvmMemoryRegion}
    (h : kvm.findRegion baseAddress size = some rgn) : rgn.memorySize = size := by
  have hequals := List.find?_some h
  simp only [KvmMemoryRegion.regionEquals, Bool.and_eq_true, beq_iff_eq] at hequals
  exact hequals.2

theorem queryDirtyPages_accepts (h : kvm.queryDirtyPages (fun _ => true) baseAddress size bitmap
    bitmapSize = .OK) : pageCount size ≤ 8 * bitmapSize.toNat := by
  rw [queryDirtyPages] at h
  split_ifs at h with _ _ _ _ hsmall
  rw [← clearBitmapSize, BitVec.lt_def, toNat_clearBitmapSize] at hsmall
  omega

/-- A machine with the range as its only slot. -/
def withSlot (baseAddress size : U64) : KvmVirtualMachine :=
  { create ⟨64⟩ ⟨true, false⟩ with
    memoryRegions := [⟨baseAddress, size, 0⟩]
    memSlot := 1
    kvmMemoryRegions := [⟨0, 0, baseAddress, size, 0⟩] }

theorem findRegion_withSlot (baseAddress size : U64) :
    (withSlot baseAddress size).findRegion baseAddress size =
      some ⟨0, 0, baseAddress, size, 0⟩ := by
  simp [findRegion, withSlot, KvmMemoryRegion.regionEquals]

theorem queryDirtyPages_withSlot (hsize : size ≠ 0) (haligned : size &&& 0xFFF = 0)
    (h : pageCount size ≤ 8 * bitmapSize.toNat) :
    (withSlot 0 size).queryDirtyPages (fun _ => true) 0 size 0 bitmapSize = .OK := by
  have hlarge : ¬ bitmapSize < clearBitmapSize size := by
    rw [BitVec.lt_def, toNat_clearBitmapSize]
    omega
  rw [queryDirtyPages, ← clearBitmapSize, if_neg (by decide), if_neg hsize,
    if_neg (not_not.mpr haligned), if_neg (by decide), if_neg hlarge, queryDirtyPagesImpl,
    findRegion_withSlot]
  rfl

theorem bitmapsSuffice_of_fits (h : pageCount size ≤ 8 * bitmapSize.toNat →
    pageCount size ≤ 64 * (bitmapSize.toNat / 8)) : BitmapsSuffice size bitmapSize where
  query kvm baseAddress bitmap haccepted rgn hrgn := by
    have hwords := h (queryDirtyPages_accepts haccepted)
    rw [memorySize_of_findRegion hrgn, dirtyLogBytes]
    omega
  clear kvm baseAddress _ rgn hrgn := by
    rw [memorySize_of_findRegion hrgn, dirtyLogBytes, toNat_clearBitmapSize]
    omega

/-- For every page-aligned size: the log fits into each buffer of the size that is accepted, and
into the one that is allocated, exactly when the whole words of the buffer have a bit for each page
or the buffer is refused. All accepted buffers are good exactly when the pages after the last whole
word are none, or more than 56. -/
theorem bitmapsSuffice_iff (size : U64) (hsize : size ≠ 0) (haligned : size &&& 0xFFF = 0) :
    (∀ bitmapSize, BitmapsSuffice size bitmapSize ↔
      pageCount size ≤ 64 * (bitmapSize.toNat / 8) ∨ 8 * bitmapSize.toNat < pageCount size) ∧
    ((∀ bitmapSize, BitmapsSuffice size bitmapSize) ↔
      pageCount size % 64 = 0 ∨ 56 < pageCount size % 64) := by
  have hone (bitmapSize : U64) : BitmapsSuffice size bitmapSize ↔
      pageCount size ≤ 64 * (bitmapSize.toNat / 8) ∨ 8 * bitmapSize.toNat < pageCount size := by
    constructor
    · intro h
      by_cases hpages : pageCount size ≤ 8 * bitmapSize.toNat
      · have haccepted := queryDirtyPages_withSlot hsize haligned hpages
        have hfits : dirtyLogBytes size ≤ bitmapSize.toNat :=
          h.query _ 0 0 haccepted _ (findRegion_withSlot 0 size)
        rw [dirtyLogBytes] at hfits
        omega
      · exact .inr (by omega)
    · intro h
      exact bitmapsSuffice_of_fits fun hpages => h.resolve_right (by omega)
  refine ⟨hone, ?_⟩
  constructor
  · intro h
    -- the smallest buffer that is accepted
    have hsmallest := (hone (clearBitmapSize size)).mp (h _)
    rw [toNat_clearBitmapSize] at hsmallest
    omega
  · intro h bitmapSize
    exact bitmapsSuffice_of_fits fun hpages => by omega

/-- One whole word of pages. -/
theorem bitmapsSuffice_word :
    (∀ bitmapSize, BitmapsSuffice 0x40000 bitmapSize ↔
      pageCount 0x40000 ≤ 64 * (bitmapSize.toNat / 8) ∨
        8 * bitmapSize.toNat < pageCount 0x40000) ∧
    ((∀ bitmapSize, BitmapsSuffice 0x40000 bitmapSize) ↔
      pageCount 0x40000 % 64 = 0 ∨ 56 < pageCount 0x40000 % 64) :=
  bitmapsSuffice_iff 0x40000 (by decide) (by decide)

/-- For the single page of a new machine, a buffer of one byte is accepted. The kernel writes
eight. -/
theorem bitmapsSuffice_page :
    let kvm :=
      ((create ⟨36⟩ ⟨true, false⟩).mapGuestMemory (fun _ => true) 0x1000 0x1000 0xA 0x8000).2
    kvm.queryDirtyPages (fun _ => true) 0x1000 0x1000 0x9000 1 = .OK ∧
      (kvm.findRegion 0x1000 0x1000).map (fun rgn => dirtyLogBytes rgn.memorySize) = some 8 ∧
      ¬ BitmapsSuffice 0x1000 1 := by
  refine ⟨by decide, by decide, fun h => ?_⟩
  have hfits := h.query (withSlot 0x1000 0x1000) 0x1000 0 (by decide) _
    (findRegion_withSlot 0x1000 0x1000)
  revert hfits
  decide

end KvmVirtualMachine

end Virt86
