import Virt86.Registers

/-!
# Translation of linear addresses

`LinearToPhysical` reads the control registers and walks the paging structures of the guest
in physical memory. A walk is the list of physical reads it makes together with the address it
stores, if it returns true. The entries are words whose bit-fields are slices.
-/

namespace Virt86

open BitSlices

/-- `MemRead` into a local variable: the bytes read, `none` when it returns false. -/
abbrev PhysicalReader := (paddr : U64) → (size : ℕ) → Option (Vector U8 size)

/-- Physical reads made so far, by address and size, and the value computed unless the walk
returned false. -/
structure Walk (α : Type) where
  reads : List (U64 × ℕ)
  result : Option α
  deriving DecidableEq, Repr

namespace Walk

variable {α β : Type}

def fail : Walk α := ⟨[], none⟩

instance : Monad Walk where
  pure a := ⟨[], some a⟩
  bind x f := match x.result with
    | none => ⟨x.reads, none⟩
    | some a => ⟨x.reads ++ (f a).reads, (f a).result⟩

@[simp] theorem pure_bind (a : α) (f : α → Walk β) : (pure a >>= f) = f a := rfl

theorem bind_of_none {x : Walk α} (h : x.result = none) (f : α → Walk β) :
    x >>= f = ⟨x.reads, none⟩ := by
  simp only [bind, h]

theorem bind_of_some {x : Walk α} {a : α} (h : x.result = some a) (f : α → Walk β) :
    x >>= f = ⟨x.reads ++ (f a).reads, (f a).result⟩ := by
  simp only [bind, h]

/-- The reads of a walk come before those of its continuation. -/
theorem exists_reads_bind (x : Walk α) (f : α → Walk β) :
    ∃ later, (x >>= f).reads = x.reads ++ later := by
  cases h : x.result with
  | none => exact ⟨[], by rw [bind_of_none h, List.append_nil]⟩
  | some a => exact ⟨(f a).reads, by rw [bind_of_some h]⟩

end Walk

/-- `BuildAddress<linAddrBits, tableBits>`. -/
def buildAddress (linAddrBits tableBits : ℕ) (linAddr tableAddr : U64) : U64 :=
  let linAddrMask := 0xFFFFFFFFFFFFFFFF#64 >>> (64 - linAddrBits)
  let tableMask := 0xFFFFFFFFFFFFFFFF#64 >>> (64 - tableBits)
  let tableShift := linAddrBits
  ((tableAddr &&& tableMask) <<< tableShift) ||| (linAddr &&& linAddrMask)

/-- Reads a paging entry of `size` bytes and checks its `valid` bit, which is bit 0 of all of
them. -/
def readEntry (memRead : PhysicalReader) (size : ℕ) (entryAddr : U64) : Walk (BitVec (8 * size)) :=
  match memRead entryAddr size with
  | none => ⟨[(entryAddr, size)], none⟩
  | some bytes =>
    let entry := BitVec.ofNat (8 * size) (littleEndian bytes.toList)
    ⟨[(entryAddr, size)], if entry.getLsbD 0 then some entry else none⟩

theorem readEntry_reads (memRead : PhysicalReader) (size : ℕ) (entryAddr : U64) :
    (readEntry memRead size entryAddr).reads = [(entryAddr, size)] := by
  rw [readEntry]
  split <;> rfl

/-- `GetEntry<linAddrBits, tableBits>` for an entry of `size` bytes. -/
def getEntry (memRead : PhysicalReader) (linAddrBits tableBits size : ℕ)
    (linAddr tableAddr : U64) : Walk (BitVec (8 * size)) :=
  readEntry memRead size (buildAddress linAddrBits tableBits linAddr tableAddr)

abbrev PTE32 := U32
abbrev PDE32 := U32
abbrev PTE64 := U64
abbrev PDE64 := U64
abbrev PDPTE := U64
abbrev PML4E := U64

def PTE32.pageFrameNumber (e : PTE32) : BitVec 20 := e.extractLsb' 12 20

def PDE32.largePage (e : PDE32) : Bool := e.getLsbD 7
def PDE32.tablePageFrameNumber (e : PDE32) : BitVec 20 := e.extractLsb' 12 20
def PDE32.largeAddrHigh (e : PDE32) : BitVec 8 := e.extractLsb' 13 8
def PDE32.largeAddrLow (e : PDE32) : BitVec 10 := e.extractLsb' 22 10

def PTE64.address (e : PTE64) : BitVec 40 := e.extractLsb' 12 40

def PDE64.largePage (e : PDE64) : Bool := e.getLsbD 7
def PDE64.tableAddress (e : PDE64) : BitVec 40 := e.extractLsb' 12 40
def PDE64.largeAddress (e : PDE64) : BitVec 31 := e.extractLsb' 21 31

def PDPTE.largePage (e : PDPTE) : Bool := e.getLsbD 7
def PDPTE.tableAddress (e : PDPTE) : BitVec 40 := e.extractLsb' 12 40
def PDPTE.largeAddress (e : PDPTE) : BitVec 22 := e.extractLsb' 30 22

def PML4E.address (e : PML4E) : BitVec 40 := e.extractLsb' 12 40

/-- What the walk uses of a virtual processor: register reads and physical memory. -/
structure PagingContext where
  regRead : Reg → Except VPOperationStatus RegValue
  memRead : PhysicalReader

namespace PagingContext

/-- A register read whose failure makes the walk return false. -/
def readReg (vp : PagingContext) (reg : Reg) : Walk RegValue :=
  match vp.regRead reg with
  | .ok value => pure value
  | .error _ => Walk.fail

def linearToPhysical32 (vp : PagingContext) (laddr : U32) : Walk U64 := do
  let cr3 ← vp.readReg .CR3
  let cr4 ← vp.readReg .CR4
  let pde : PDE32 ← getEntry vp.memRead 12 20 4 ((laddr.setWidth 64 >>> 22) <<< 2)
    ((cr3.u32 >>> 12).setWidth 64)
  if PDE32.largePage pde ∧ cr4.u64 &&& CR4_PSE ≠ 0 then
    return buildAddress 22 18 (laddr.setWidth 64)
      (((PDE32.largeAddrHigh pde).setWidth 64 <<< 10) ||| (PDE32.largeAddrLow pde).setWidth 64)
  else do
    let pte : PTE32 ← getEntry vp.memRead 12 20 4 ((laddr.setWidth 64 >>> 12) <<< 2)
      ((PDE32.tablePageFrameNumber pde).setWidth 64)
    return buildAddress 12 20 (laddr.setWidth 64) ((PTE32.pageFrameNumber pte).setWidth 64)

def linearToPhysicalPAE (vp : PagingContext) (laddr : U32) : Walk U64 := do
  let cr3 ← vp.readReg .CR3
  let pdpteIndex : U8 := (laddr >>> 30).setWidth 8
  let pdpte : PDPTE ← getEntry vp.memRead 5 27 8 (pdpteIndex.setWidth 64 <<< 3) (cr3.u64 >>> 5)
  let pde : PDE64 ← getEntry vp.memRead 12 40 8 (laddr.setWidth 64 &&& ~~~0b111)
    ((PDPTE.tableAddress pdpte).setWidth 64)
  if PDE64.largePage pde then
    return buildAddress 21 31 (laddr.setWidth 64) ((PDE64.largeAddress pde).setWidth 64)
  else do
    let pte : PTE64 ← getEntry vp.memRead 12 40 8 ((laddr.setWidth 64 >>> 12) <<< 3)
      ((PDE64.tableAddress pde).setWidth 64)
    return buildAddress 12 40 (laddr.setWidth 64) ((PTE64.address pte).setWidth 64)

def linearToPhysical4Level (vp : PagingContext) (laddr : U64) : Walk U64 := do
  let cr3 ← vp.readReg .CR3
  let pml4e : PML4E ← getEntry vp.memRead 12 40 8 ((laddr >>> 39) <<< 3) (cr3.u64 >>> 12)
  let pdpte : PDPTE ← getEntry vp.memRead 12 40 8 ((laddr >>> 30) <<< 3)
    ((PML4E.address pml4e).setWidth 64)
  if PDPTE.largePage pdpte then
    return buildAddress 30 22 laddr ((PDPTE.largeAddress pdpte).setWidth 64)
  else do
    let pde : PDE64 ← getEntry vp.memRead 12 40 8 ((laddr >>> 21) <<< 3)
      ((PDPTE.tableAddress pdpte).setWidth 64)
    if PDE64.largePage pde then
      return buildAddress 21 31 laddr ((PDE64.largeAddress pde).setWidth 64)
    else do
      let pte : PTE64 ← getEntry vp.memRead 12 40 8 ((laddr >>> 12) <<< 3)
        ((PDE64.tableAddress pde).setWidth 64)
      return buildAddress 12 40 laddr ((PTE64.address pte).setWidth 64)

/-- The body of `LinearToPhysical` after the check of the result pointer. -/
def walk (vp : PagingContext) (laddr : U64) : Walk U64 := do
  let cr0 ← vp.readReg .CR0
  let cr4 ← vp.readReg .CR4
  let efer ← vp.readReg .EFER
  if cr0.u64 &&& CR0_PG = 0 then return laddr &&& 0xFFFFFFFF
  else if cr4.u64 &&& CR4_PAE = 0 then vp.linearToPhysical32 (laddr.setWidth 32)
  else if efer.u64 &&& EFER_LME = 0 then vp.linearToPhysicalPAE (laddr.setWidth 32)
  else vp.linearToPhysical4Level laddr

/-- `LinearToPhysical`: the returned flag and the pointee of `paddr` afterwards, where `none`
is a null pointer. -/
def linearToPhysical (vp : PagingContext) (laddr : U64) (paddr : Option U64) :
    Bool × Option U64 :=
  match paddr with
  | none => (false, none)
  | some _ => match (vp.walk laddr).result with
    | some address => (true, some address)
    | none => (false, paddr)

end PagingContext

end Virt86
