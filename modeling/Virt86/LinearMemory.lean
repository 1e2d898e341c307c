import Virt86.MemoryTransfers
import Virt86.PageCuts
import Virt86.Paging
import Virt86.StoppingRuns

/-!
# Reading and writing linear memory

`LMemRead` and `LMemWrite` copy one page at a time: each turn of their loop translates the linear
address it is at, accesses physical memory up to the end of that page, and moves on. The
translation and the physical accesses are arbitrary functions for the loop, and may change the state
of the processor; those of a guest are the page walk and the scan of its memory regions.
-/

namespace Virt86

open PageCuts StoppingRuns

/-- `PAGE_SIZE` is an `int`. -/
def PAGE_SIZE : U32 := 4 * 1024

/-- `PAGE_SIZE` converted to `uint64_t`. -/
def pageSize : U64 := PAGE_SIZE.signExtend 64

/-- `~(PAGE_SIZE - 1)`, computed as an `int` and then converted. -/
def pageMask : U64 := (~~~(PAGE_SIZE - 1)).signExtend 64

/-- The part of a linear access in one page: its first linear address, its size and its offset in
the buffer. -/
structure PageChunk where
  laddr : U64
  size : U64
  pos : U64
  deriving DecidableEq, Repr

/-- A physical access made for a page, and whether it returned true. -/
structure PhysicalAccess extends PageChunk where
  paddr : U64
  succeeded : Bool
  deriving DecidableEq, Repr

/-- What the loop uses of a processor in a state of `σ`: the translation of a linear address,
which fails with `none`, and the physical access of `size` bytes for the buffer from `pos` on. -/
structure PageAccess (σ : Type) where
  linearToPhysical : (laddr : U64) → σ → Option U64 × σ
  access : (paddr size pos : U64) → σ → Bool × σ

/-- The variables of the loop. The physical accesses made so far are recorded beside them. -/
structure LinearLoop (σ : Type) where
  srcAddrStart : U64
  srcAddrEnd : U64
  pos : U64
  copySize : U64
  issued : List PhysicalAccess
  state : σ

namespace LinearLoop

variable {σ : Type}

/-- The variables before the loop. -/
def init (laddr size : U64) (s : σ) : LinearLoop σ :=
  let srcAddrStart := laddr
  let srcAddrEnd := ((srcAddrStart + pageSize) &&& pageMask) - 1
  let copySize := srcAddrEnd - srcAddrStart + 1
  { srcAddrStart, srcAddrEnd, pos := 0, copySize := if size < copySize then size else copySize,
    issued := [], state := s }

/-- The assignments at the end of a turn. -/
def advance (size : U64) (l : LinearLoop σ) : LinearLoop σ :=
  let pos := l.pos + l.copySize
  let copySize := size - pos
  { l with
    pos
    srcAddrStart := l.srcAddrEnd + 1
    srcAddrEnd := l.srcAddrEnd + pageSize
    copySize := if pageSize < copySize then pageSize else copySize }

end LinearLoop

/-- What a call returned, the pointee of its count argument afterwards, where `none` is a null
pointer, the physical accesses it made and the state it left. -/
structure LinearOutcome (σ : Type) where
  returned : Bool
  count : Option U64
  issued : List PhysicalAccess
  state : σ

namespace PageAccess

variable {σ : Type} (p : PageAccess σ)

/-- The loop, with the value returned from it or behind it; `none` when the fuel runs out. -/
def copyPages (size : U64) : ℕ → LinearLoop σ → Option (Bool × LinearLoop σ)
  | 0, _ => none
  | fuel + 1, l =>
    if l.pos < size then
      match p.linearToPhysical l.srcAddrStart l.state with
      | (none, s) => some (false, { l with state := s })
      | (some physAddr, s) =>
        match p.access physAddr l.copySize l.pos s with
        | (result, s) =>
          let call : PhysicalAccess := ⟨⟨l.srcAddrStart, l.copySize, l.pos⟩, physAddr, result⟩
          let l := { l with issued := l.issued ++ [call], state := s }
          if result then copyPages size fuel (l.advance size) else some (false, l)
    else some (true, l)

/-- The body shared by `LMemRead` and `LMemWrite` after the check of the value pointer. -/
def lMemAccess (fuel : ℕ) (laddr size : U64) (count : Option U64) (s : σ) :
    Option (LinearOutcome σ) :=
  (p.copyPages size fuel (LinearLoop.init laddr size s)).map fun (result, l) =>
    ⟨result, if result then count.map fun _ => l.pos else count, l.issued, l.state⟩

end PageAccess

/-- The bytes behind the pointer `value + pos`. -/
def Buffer.from (value : Buffer) (pos : U64) : Buffer := fun i => value (pos.toNat + i)

/-- The buffer after the bytes behind `value + pos` have become `part`. -/
def Buffer.splice (value : Buffer) (pos : U64) (part : Buffer) : Buffer :=
  fun i => if i < pos.toNat then value i else part (i - pos.toNat)

/-- What linear accesses use of a processor in a state of `σ`. `MemRead` also gives the contents
of the buffer afterwards. -/
structure LinearMemory (σ : Type) where
  linearToPhysical : (laddr : U64) → σ → Option U64 × σ
  memRead : (paddr size : U64) → Buffer → σ → (Bool × Buffer) × σ
  memWrite : (paddr size : U64) → Buffer → σ → Bool × σ

namespace LinearMemory

variable {σ : Type} (m : LinearMemory σ)

/-- The accesses of `LMemRead`, on the state and the buffer. -/
def reads : PageAccess (σ × Buffer) where
  linearToPhysical laddr := fun (s, value) =>
    let (paddr, s) := m.linearToPhysical laddr s
    (paddr, s, value)
  access paddr size pos := fun (s, value) =>
    let ((result, part), s) := m.memRead paddr size (value.from pos) s
    (result, s, value.splice pos part)

/-- The accesses of `LMemWrite`. -/
def writes (value : Buffer) : PageAccess σ where
  linearToPhysical := m.linearToPhysical
  access paddr size pos := m.memWrite paddr size (value.from pos)

/-- `LMemRead`, where `none` is a null pointer. -/
def lMemRead (fuel : ℕ) (laddr size : U64) (value : Option Buffer) (bytesRead : Option U64)
    (s : σ) : Option (LinearOutcome (σ × Option Buffer)) :=
  match value with
  | none => some ⟨false, bytesRead, [], s, none⟩
  | some value => (m.reads.lMemAccess fuel laddr size bytesRead (s, value)).map fun o =>
    ⟨o.returned, o.count, o.issued, o.state.1, some o.state.2⟩

/-- `LMemWrite`, where `none` is a null pointer. -/
def lMemWrite (fuel : ℕ) (laddr size : U64) (value : Option Buffer) (bytesWritten : Option U64)
    (s : σ) : Option (LinearOutcome σ) :=
  match value with
  | none => some ⟨false, bytesWritten, [], s⟩
  | some value => (m.writes value).lMemAccess fuel laddr size bytesWritten s

end LinearMemory

/-- A processor whose registers stay as they are, over the regions of its virtual machine. -/
structure Guest where
  regions : List MemoryRegion
  regRead : Reg → Except VPOperationStatus RegValue
  /-- What a paging entry on the stack holds before it is read. -/
  entry : Buffer

namespace Guest

/-- The page walk reads its entries with `MemRead`. -/
def context (g : Guest) (mem : HostMemory) : PagingContext where
  regRead := g.regRead
  memRead paddr size :=
    let (result, bytes) := memReadEffect mem g.regions paddr (BitVec.ofNat 64 size) g.entry
    if result then some (Vector.ofFn fun i => bytes i) else none

/-- The accesses of a guest work on its host memory. -/
def memory (g : Guest) : LinearMemory HostMemory where
  linearToPhysical laddr mem := (((g.context mem).walk laddr).result, mem)
  memRead paddr size value mem := (memReadEffect mem g.regions paddr size value, mem)
  memWrite paddr size value mem := memWriteEffect mem g.regions paddr size value

end Guest

/-! ## The chunks of a range -/

def pageChunk (laddr size : U64) (i : ℕ) : PageChunk :=
  let pos := cut 4096 laddr.toNat size.toNat i
  ⟨laddr + BitVec.ofNat 64 pos, BitVec.ofNat 64 (cut 4096 laddr.toNat size.toNat (i + 1) - pos),
    BitVec.ofNat 64 pos⟩

/-- The range of `size` linear addresses from `laddr` on, cut at the borders of 4 KiB pages. -/
def pageChunks (laddr size : U64) : List PageChunk :=
  (List.range (pages 4096 laddr.toNat size.toNat)).map (pageChunk laddr size)

/-- The chunks follow one another in the buffer, from the offset `pos` to the offset `last`. -/
def Contiguous (last : ℕ) : ℕ → List PageChunk → Prop
  | pos, [] => pos = last
  | pos, c :: cs => c.pos.toNat = pos ∧ Contiguous last (pos + c.size.toNat) cs

/-- Consecutive parts of `size` linear addresses from `laddr` on, modulo 2^64, each of them in one
page. -/
structure Partitions (laddr size : U64) (cs : List PageChunk) : Prop where
  contiguous : Contiguous size.toNat 0 cs
  laddr_eq : ∀ c ∈ cs, c.laddr = laddr + c.pos
  nonempty : ∀ c ∈ cs, 0 < c.size.toNat
  in_page : ∀ c ∈ cs, c.laddr.toNat % 4096 + c.size.toNat ≤ 4096

section Chunks

variable {laddr size : U64} {i : ℕ}

theorem cut_lt_word : cut 4096 laddr.toNat size.toNat i < 2 ^ 64 :=
  Nat.lt_of_le_of_lt cut_le size.isLt

theorem pageChunk_pos_toNat :
    (pageChunk laddr size i).pos.toNat = cut 4096 laddr.toNat size.toNat i := by
  simp only [pageChunk, BitVec.toNat_ofNat]
  exact Nat.mod_eq_of_lt cut_lt_word

theorem pageChunk_size_toNat : (pageChunk laddr size i).size.toNat =
    cut 4096 laddr.toNat size.toNat (i + 1) - cut 4096 laddr.toNat size.toNat i := by
  simp only [pageChunk, BitVec.toNat_ofNat]
  exact Nat.mod_eq_of_lt (Nat.lt_of_le_of_lt (Nat.sub_le _ _) cut_lt_word)

theorem pageChunk_laddr_mod : (pageChunk laddr size i).laddr.toNat % 4096 =
    (laddr.toNat + cut 4096 laddr.toNat size.toNat i) % 4096 := by
  simp only [pageChunk, BitVec.toNat_add, BitVec.toNat_ofNat]
  omega

theorem contiguous_range' {k : ℕ} (hk : i + k = pages 4096 laddr.toNat size.toNat) :
    Contiguous size.toNat (cut 4096 laddr.toNat size.toNat i)
      ((List.range' i k).map (pageChunk laddr size)) := by
  induction k generalizing i with
  | zero =>
    obtain rfl : i = _ := hk
    exact cut_pages (by omega)
  | succ k ih =>
    have hlt : cut 4096 laddr.toNat size.toNat i < cut 4096 laddr.toNat size.toNat (i + 1) :=
      cut_lt_succ (by omega) (by omega)
    have hnext : cut 4096 laddr.toNat size.toNat i + (pageChunk laddr size i).size.toNat =
        cut 4096 laddr.toNat size.toNat (i + 1) := by
      rw [pageChunk_size_toNat]
      omega
    rw [List.range'_succ, List.map_cons, Contiguous, hnext]
    exact ⟨pageChunk_pos_toNat, ih (by omega)⟩

theorem partitions_pageChunks (laddr size : U64) :
    Partitions laddr size (pageChunks laddr size) := by
  constructor
  · have hcontiguous := @contiguous_range' laddr size 0 _ (Nat.zero_add _)
    rwa [cut_zero, ← List.range_eq_range'] at hcontiguous
  all_goals
    intro c hc
    obtain ⟨i, hi, rfl⟩ := List.mem_map.mp hc
    rw [List.mem_range] at hi
  · rfl
  · rw [pageChunk_size_toNat]
    exact Nat.sub_pos_of_lt (cut_lt_succ (by omega) hi)
  · rw [pageChunk_size_toNat, pageChunk_laddr_mod]
    exact cut_in_page (by omega) hi

end Chunks

/-! ## The loop against the chunks -/

namespace PageAccess

variable {σ : Type} (p : PageAccess σ)

/-- Translates the first address of a chunk and accesses physical memory there, on the state and
the accesses made so far. -/
def chunkStep : σ × List PhysicalAccess → PageChunk → Bool × σ × List PhysicalAccess
  | (s, issued), c =>
    match p.linearToPhysical c.laddr s with
    | (none, s) => (false, s, issued)
    | (some paddr, s) =>
      match p.access paddr c.size c.pos s with
      | (result, s) => (result, s, issued ++ [⟨c, paddr, result⟩])

end PageAccess

namespace LinearLoop

variable {σ : Type} {laddr size : U64} {i : ℕ} {l : LinearLoop σ}

/-- The variables at the start of the turn for the `i`-th chunk. -/
structure AtBorder (laddr size : U64) (i : ℕ) (l : LinearLoop σ) : Prop where
  start : l.srcAddrStart = laddr + BitVec.ofNat 64 (border 4096 laddr.toNat i)
  last : l.srcAddrEnd = laddr + BitVec.ofNat 64 (border 4096 laddr.toNat (i + 1)) - 1
  pos : l.pos = (pageChunk laddr size i).pos
  copySize : l.copySize = (pageChunk laddr size i).size

theorem and_pageMask (x : U64) : x &&& pageMask = x - BitVec.ofNat 64 (x.toNat % 4096) := by
  have hmask : x &&& pageMask = (x >>> 12) <<< 12 := by
    have hmask : pageMask = (BitVec.allOnes 64 >>> 12) <<< 12 := by decide
    rw [hmask]
    apply BitVec.eq_of_getLsbD_eq
    intro j hj
    simp only [BitVec.getLsbD_and, BitVec.getLsbD_shiftLeft, BitVec.getLsbD_ushiftRight,
      BitVec.getLsbD_allOnes]
    by_cases hlow : j < 12
    · simp [hlow]
    · have hadd : 12 + (j - 12) = j := by omega
      simp [hlow, hadd, hj]
  rw [hmask]
  apply BitVec.eq_of_toNat_eq
  rw [BitVec.toNat_shiftLeft, BitVec.toNat_ushiftRight, BitVec.toNat_sub, BitVec.toNat_ofNat,
    Nat.shiftLeft_eq, Nat.shiftRight_eq_div_pow]
  omega

/-- Trimming to the requested size. -/
theorem if_lt_eq_ofNat_min {x : U64} {k : ℕ} (hk : k < 2 ^ 64) :
    (if x < BitVec.ofNat 64 k then x else BitVec.ofNat 64 k) =
      BitVec.ofNat 64 (min x.toNat k) := by
  split_ifs with h
  · rw [Nat.min_eq_left (by bv_omega), BitVec.ofNat_toNat, BitVec.setWidth_eq]
  · rw [Nat.min_eq_right (by bv_omega)]

theorem atBorder_init (laddr size : U64) (s : σ) : AtBorder laddr size 0 (init laddr size s) := by
  have hsize : pageSize = 4096 := by decide
  have hmod : (laddr + pageSize).toNat % 4096 = laddr.toNat % 4096 := by
    rw [hsize]
    bv_omega
  have hlast : ((laddr + pageSize) &&& pageMask) - 1 =
      laddr + BitVec.ofNat 64 (4096 - laddr.toNat % 4096) - 1 := by
    rw [and_pageMask, hmod, hsize]
    bv_omega
  constructor
  · simp [init]
  · rw [init, hlast, border_one]
  · simp [init, pageChunk]
  · have hrest : laddr + BitVec.ofNat 64 (4096 - laddr.toNat % 4096) - 1 - laddr + 1 =
        BitVec.ofNat 64 (4096 - laddr.toNat % 4096) := by grind
    have hchunk : (pageChunk laddr size 0).size =
        BitVec.ofNat 64 (min size.toNat (4096 - laddr.toNat % 4096)) := by
      simp only [pageChunk, cut, border_zero, border_one, Nat.min_zero, Nat.sub_zero, Nat.zero_add]
    rw [hchunk]
    simp only [init, hlast, hrest]
    exact if_lt_eq_ofNat_min (by omega)

/-- A turn moves on by one chunk. -/
theorem AtBorder.advance (h : AtBorder laddr size i l) :
    AtBorder laddr size (i + 1) (l.advance size) := by
  have hsize : pageSize = BitVec.ofNat 64 4096 := by decide
  have hmod : laddr.toNat % 4096 < 4096 := Nat.mod_lt _ (by omega)
  have hborder : border 4096 laddr.toNat (i + 1 + 1) = border 4096 laddr.toNat (i + 1) + 4096 :=
    border_succ (by omega) (by omega)
  have hpos : l.pos + l.copySize = (pageChunk laddr size (i + 1)).pos := by
    have hle : cut 4096 laddr.toNat size.toNat i ≤ cut 4096 laddr.toNat size.toNat (i + 1) := by
      have := @border_lt_succ 4096 laddr.toNat i (by omega)
      simp only [cut]
      omega
    rw [h.pos, h.copySize]
    simp only [pageChunk]
    rw [← BitVec.ofNat_add, Nat.add_sub_cancel' hle]
  constructor
  · simp only [LinearLoop.advance, h.last]
    grind
  · simp only [LinearLoop.advance, h.last, hborder, BitVec.ofNat_add, hsize]
    grind
  · exact hpos
  · have hrest : size - (pageChunk laddr size (i + 1)).pos =
        BitVec.ofNat 64 (size.toNat - cut 4096 laddr.toNat size.toNat (i + 1)) := by
      have hle : cut 4096 laddr.toNat size.toNat (i + 1) ≤ size.toNat := cut_le
      apply BitVec.eq_of_toNat_eq
      rw [BitVec.toNat_sub, pageChunk_pos_toNat, BitVec.toNat_ofNat]
      omega
    have hchunk : (pageChunk laddr size (i + 1)).size = BitVec.ofNat 64
        (min 4096 (size.toNat - cut 4096 laddr.toNat size.toNat (i + 1))) := by
      simp only [pageChunk, cut, hborder]
      congr 1
      omega
    rw [hchunk]
    simp only [LinearLoop.advance, hpos, hrest, hsize]
    exact if_lt_eq_ofNat_min (by omega)

theorem AtBorder.pos_lt (h : AtBorder laddr size i l) :
    l.pos < size ↔ i < pages 4096 laddr.toNat size.toNat := by
  rw [BitVec.lt_def, h.pos, pageChunk_pos_toNat, lt_pages_iff (by omega)]

/-- The chunk of a turn starts at the linear address the loop is at. -/
theorem AtBorder.chunk (h : AtBorder laddr size i l) (hi : i < pages 4096 laddr.toNat size.toNat) :
    (⟨l.srcAddrStart, l.copySize, l.pos⟩ : PageChunk) = pageChunk laddr size i := by
  rw [h.start, h.copySize, h.pos, ← cut_eq_border (by omega) hi]
  rfl

end LinearLoop

namespace PageAccess

variable {σ : Type} (p : PageAccess σ) {laddr size : U64}

/-- Everything that can happen for a chunk. -/
theorem chunkStep_cases (s : σ) (issued : List PhysicalAccess) (c : PageChunk) :
    (∃ s', p.linearToPhysical c.laddr s = (none, s') ∧
      p.chunkStep (s, issued) c = (false, s', issued)) ∨
    ∃ paddr s₁ result s₂, p.linearToPhysical c.laddr s = (some paddr, s₁) ∧
      p.access paddr c.size c.pos s₁ = (result, s₂) ∧
      p.chunkStep (s, issued) c = (result, s₂, issued ++ [⟨c, paddr, result⟩]) := by
  rcases htranslate : p.linearToPhysical c.laddr s with ⟨_ | paddr, s₁⟩
  · exact .inl ⟨s₁, rfl, by simp only [chunkStep, htranslate]⟩
  · rcases haccess : p.access paddr c.size c.pos s₁ with ⟨result, s₂⟩
    exact .inr ⟨paddr, s₁, result, s₂, rfl, haccess, by simp only [chunkStep, htranslate, haccess]⟩

section Turns

variable {l : LinearLoop σ} {c : PageChunk} {s : σ} {issued : List PhysicalAccess}

/-- A turn for a chunk that fails returns. -/
theorem copyPages_of_false (hpos : l.pos < size) (hc : ⟨l.srcAddrStart, l.copySize, l.pos⟩ = c)
    (h : p.chunkStep (l.state, l.issued) c = (false, s, issued)) (fuel : ℕ) :
    p.copyPages size (fuel + 1) l = some (false, { l with state := s, issued := issued }) := by
  subst hc
  obtain ⟨s', htranslate, hstep⟩ | ⟨paddr, s₁, result, s₂, htranslate, haccess, hstep⟩ :=
    p.chunkStep_cases l.state l.issued ⟨l.srcAddrStart, l.copySize, l.pos⟩
  · rw [hstep] at h
    obtain ⟨-, rfl, rfl⟩ := h
    rw [copyPages, if_pos hpos, htranslate]
  · rw [hstep] at h
    obtain ⟨rfl, rfl, rfl⟩ := h
    rw [copyPages, if_pos hpos, htranslate]
    simp only [haccess]
    rfl

/-- A turn for a chunk that succeeds moves on. -/
theorem copyPages_of_true (hpos : l.pos < size) (hc : ⟨l.srcAddrStart, l.copySize, l.pos⟩ = c)
    (h : p.chunkStep (l.state, l.issued) c = (true, s, issued)) (fuel : ℕ) :
    p.copyPages size (fuel + 1) l =
      p.copyPages size fuel ({ l with state := s, issued := issued }.advance size) := by
  subst hc
  obtain ⟨s', htranslate, hstep⟩ | ⟨paddr, s₁, result, s₂, htranslate, haccess, hstep⟩ :=
    p.chunkStep_cases l.state l.issued ⟨l.srcAddrStart, l.copySize, l.pos⟩
  · rw [hstep] at h
    exact absurd (congrArg Prod.fst h) (by simp)
  · rw [hstep] at h
    obtain ⟨rfl, rfl, rfl⟩ := h
    rw [copyPages, if_pos hpos, htranslate]
    simp only [haccess]
    rfl

end Turns

/-- From the `i`-th chunk on, the loop runs through the chunks that are left. -/
theorem copyPages_eq_run {k : ℕ} : ∀ {i : ℕ} {l : LinearLoop σ} {fuel : ℕ},
    i + k = pages 4096 laddr.toNat size.toNat → l.AtBorder laddr size i → k < fuel →
    ∃ l', p.copyPages size fuel l = some
        ((run p.chunkStep (l.state, l.issued) ((List.range' i k).map (pageChunk laddr size))).1,
          l') ∧
      (run p.chunkStep (l.state, l.issued) ((List.range' i k).map (pageChunk laddr size))).2 =
        (l'.state, l'.issued) ∧
      ((run p.chunkStep (l.state, l.issued)
        ((List.range' i k).map (pageChunk laddr size))).1 = true → l'.pos = size) := by
  -- induction on the number of chunks left
  induction k with
  | zero =>
    intro i l fuel hk hl hfuel
    obtain ⟨fuel, rfl⟩ := Nat.exists_eq_add_of_lt hfuel
    have hpos : ¬ l.pos < size := by rw [hl.pos_lt]; omega
    have hsize : l.pos = size := by
      rw [hl.pos]
      apply BitVec.eq_of_toNat_eq
      obtain rfl : i = _ := hk
      rw [pageChunk_pos_toNat, cut_pages (by omega)]
    refine ⟨l, ?_, rfl, fun _ => hsize⟩
    rw [copyPages, if_neg hpos]
    rfl
  | succ k ih =>
    intro i l fuel hk hl hfuel
    obtain ⟨fuel, rfl⟩ : ∃ n, fuel = n + 1 := ⟨fuel - 1, by omega⟩
    have hi : i < pages 4096 laddr.toNat size.toNat := by omega
    have hpos := hl.pos_lt.mpr hi
    rw [List.range'_succ, List.map_cons]
    rcases hstep : p.chunkStep (l.state, l.issued) (pageChunk laddr size i) with
      ⟨_ | _, s, issued⟩
    · rw [run_cons_of_false (by rw [hstep]), p.copyPages_of_false hpos (hl.chunk hi) hstep]
      exact ⟨_, rfl, by rw [hstep], by simp⟩
    · rw [run_cons_of_true (by rw [hstep]), p.copyPages_of_true hpos (hl.chunk hi) hstep, hstep]
      have hnext : ({ l with state := s, issued := issued } : LinearLoop σ).AtBorder laddr size i :=
        ⟨hl.start, hl.last, hl.pos, hl.copySize⟩
      exact ih (by omega) hnext.advance (by omega)

/-- A call that ran through the chunks: the count is stored only when all of them succeeded. -/
def chunkOutcome (laddr size : U64) (count : Option U64) (s : σ) : LinearOutcome σ :=
  let (result, s, issued) := run p.chunkStep (s, []) (pageChunks laddr size)
  ⟨result, if result then count.map fun _ => size else count, issued, s⟩

theorem lMemAccess_eq {fuel : ℕ} (hfuel : (pageChunks laddr size).length < fuel)
    (count : Option U64) (s : σ) :
    p.lMemAccess fuel laddr size count s = some (p.chunkOutcome laddr size count s) := by
  obtain ⟨l, hloop, hlast, hpos⟩ : ∃ l,
      p.copyPages size fuel (LinearLoop.init laddr size s) =
        some ((run p.chunkStep (s, []) (pageChunks laddr size)).1, l) ∧
      (run p.chunkStep (s, []) (pageChunks laddr size)).2 = (l.state, l.issued) ∧
      ((run p.chunkStep (s, []) (pageChunks laddr size)).1 = true → l.pos = size) := by
    rw [pageChunks, List.length_map, List.length_range] at hfuel
    rw [pageChunks, List.range_eq_range']
    exact p.copyPages_eq_run (Nat.zero_add _) (LinearLoop.atBorder_init laddr size s) hfuel
  rw [lMemAccess, hloop, chunkOutcome]
  rcases hrun : run p.chunkStep (s, []) (pageChunks laddr size) with ⟨_ | _, s', issued⟩
  · rw [hrun] at hlast
    obtain ⟨rfl, rfl⟩ := hlast
    rfl
  · rw [hrun] at hlast hpos
    obtain ⟨rfl, rfl⟩ := hlast
    simp only [Option.map_some, if_true, hpos rfl]

/-- The accesses made for chunks that all succeeded. -/
theorem run_issued {cs : List PageChunk} {s s' : σ} {issued : List PhysicalAccess}
    (h : run p.chunkStep (s, []) cs = (true, s', issued)) :
    issued.map (·.toPageChunk) = cs ∧ ∀ a ∈ issued, a.succeeded = true := by
  refine run_invariant (P := fun before t => t.2.map (·.toPageChunk) = before ∧
    ∀ a ∈ t.2, a.succeeded = true) h ⟨rfl, by simp⟩ ?_
  rintro before c after ⟨t, calls⟩ t' - ⟨hmap, hall⟩ hstep
  obtain ⟨s₁, -, hcase⟩ | ⟨paddr, s₁, result, s₂, -, -, hcase⟩ := p.chunkStep_cases t calls c
  · rw [hcase] at hstep
    exact absurd (congrArg Prod.fst hstep) (by simp)
  · rw [hcase] at hstep
    obtain ⟨rfl, rfl⟩ := hstep
    simp only at hmap hall
    refine ⟨by rw [List.map_append, hmap]; rfl, ?_⟩
    intro a ha
    rcases List.mem_append.mp ha with hcall | hlast
    · exact hall a hcall
    · rw [List.mem_singleton.mp hlast]

/-- The accesses made when a chunk is the first to fail: those of the chunks before it, and its own
when it could be translated. -/
theorem issued_of_firstFailure {cs before : List PageChunk} {c : PageChunk} {s : σ}
    (h : FirstFailure p.chunkStep (s, []) cs before c) :
    ∃ calls, calls.map (·.toPageChunk) = before ∧ (∀ a ∈ calls, a.succeeded = true) ∧
      ((run p.chunkStep (s, []) cs).2.2 = calls ∨
        ∃ paddr, (run p.chunkStep (s, []) cs).2.2 = calls ++ [⟨c, paddr, false⟩]) := by
  rw [h.run_eq]
  obtain ⟨-, hbefore, hc⟩ := h
  rcases hrun : run p.chunkStep (s, []) before with ⟨result, t, calls⟩
  rw [hrun] at hbefore hc
  obtain rfl : result = true := hbefore
  obtain ⟨hmap, hall⟩ := p.run_issued hrun
  refine ⟨calls, hmap, hall, ?_⟩
  obtain ⟨s₁, -, hcase⟩ | ⟨paddr, s₁, result, s₂, -, -, hcase⟩ := p.chunkStep_cases t calls c
  · exact .inl (by rw [hcase])
  · rw [hcase] at hc ⊢
    obtain rfl : result = false := hc
    exact .inr ⟨paddr, rfl⟩

end PageAccess

/-- The call returns `a`, however much fuel it is given beyond some bound. -/
def Returns {α : Type} (call : ℕ → Option α) (a : α) : Prop :=
  ∃ bound, ∀ fuel > bound, call fuel = some a

theorem Returns.unique {α : Type} {call : ℕ → Option α} {a b : α} (ha : Returns call a)
    (hb : Returns call b) : a = b := by
  obtain ⟨m, ha⟩ := ha
  obtain ⟨n, hb⟩ := hb
  have hcall := ha (m + n + 1) (by omega)
  rw [hb (m + n + 1) (by omega)] at hcall
  exact (Option.some.inj hcall).symm

theorem Returns.exists_iff {α : Type} {call : ℕ → Option α} {a : α} (h : Returns call a)
    {P : α → Prop} : (∃ a, Returns call a ∧ P a) ↔ P a := by
  refine ⟨?_, fun ha => ⟨a, h, ha⟩⟩
  rintro ⟨b, hb, hP⟩
  rwa [h.unique hb]

/-- A linear access of `size` bytes from `laddr` on, made in the state `s` with `count` behind the
count pointer, goes through the chunks of that range in order. -/
structure LinearOutcome.Chunked {σ τ : Type} (p : PageAccess σ) (laddr size : U64)
    (count : Option U64) (s : σ) (o : LinearOutcome τ) : Prop where
  /-- The range consists of the chunks. -/
  partitions : Partitions laddr size (pageChunks laddr size)
  /-- When the call returns true, each chunk was translated from its first linear address and
  accessed, in order, and the whole size is stored. -/
  of_true : o.returned = true →
    (∃ s', run p.chunkStep (s, []) (pageChunks laddr size) = (true, s', o.issued)) ∧
    o.issued.map (·.toPageChunk) = pageChunks laddr size ∧ o.count = count.map fun _ => size
  /-- It returns false exactly when some chunk is the first that cannot be translated or
  accessed. -/
  false_iff : o.returned = false ↔
    ∃ before c, FirstFailure p.chunkStep (s, []) (pageChunks laddr size) before c
  /-- No access is made after the first chunk that fails. -/
  issued_of_failure : ∀ before c,
    FirstFailure p.chunkStep (s, []) (pageChunks laddr size) before c →
      o.issued.map (·.toPageChunk) = before ∨ o.issued.map (·.toPageChunk) = before ++ [c]

namespace PageAccess

variable {σ : Type} (p : PageAccess σ) {laddr size : U64}

theorem chunkOutcome_chunked (laddr size : U64) (count : Option U64) (s : σ) :
    (p.chunkOutcome laddr size count s).Chunked p laddr size count s := by
  refine ⟨partitions_pageChunks laddr size, fun h => ?_, run_false_iff, fun before c h => ?_⟩
  · rcases hrun : run p.chunkStep (s, []) (pageChunks laddr size) with ⟨result, s', issued⟩
    simp only [chunkOutcome, hrun] at h ⊢
    subst h
    exact ⟨⟨s', rfl⟩, (p.run_issued hrun).1, rfl⟩
  · have hrun : (p.chunkOutcome laddr size count s).issued =
        (run p.chunkStep (s, []) (pageChunks laddr size)).2.2 := rfl
    obtain ⟨calls, hmap, -, hissued | ⟨paddr, hissued⟩⟩ := p.issued_of_firstFailure h
    · exact .inl (by rw [hrun, hissued, hmap])
    · exact .inr (by rw [hrun, hissued, List.map_append, hmap]; rfl)

end PageAccess

namespace LinearMemory

variable {σ : Type} (m : LinearMemory σ)

theorem lMemRead_returns (laddr size : U64) (value : Buffer) (bytesRead : Option U64) (s : σ) :
    Returns (fun fuel => m.lMemRead fuel laddr size (some value) bytesRead s)
      (let o := m.reads.chunkOutcome laddr size bytesRead (s, value)
       ⟨o.returned, o.count, o.issued, o.state.1, some o.state.2⟩) := by
  refine ⟨(pageChunks laddr size).length, fun fuel hfuel => ?_⟩
  simp only [lMemRead, m.reads.lMemAccess_eq hfuel, Option.map_some]

theorem lMemWrite_returns (laddr size : U64) (value : Buffer) (bytesWritten : Option U64) (s : σ) :
    Returns (fun fuel => m.lMemWrite fuel laddr size (some value) bytesWritten s)
      ((m.writes value).chunkOutcome laddr size bytesWritten s) := by
  refine ⟨(pageChunks laddr size).length, fun fuel hfuel => ?_⟩
  simp only [lMemWrite, (m.writes value).lMemAccess_eq hfuel]

theorem lMemRead_of_run {laddr size : U64} {value value' : Buffer} {s s' : σ}
    {issued : List PhysicalAccess} (bytesRead : Option U64)
    (h : run m.reads.chunkStep ((s, value), []) (pageChunks laddr size) =
      (true, (s', value'), issued)) :
    Returns (fun fuel => m.lMemRead fuel laddr size (some value) bytesRead s)
      ⟨true, bytesRead.map fun _ => size, issued, s', some value'⟩ := by
  have hreturns := m.lMemRead_returns laddr size value bytesRead s
  simpa only [PageAccess.chunkOutcome, h, if_true] using hreturns

theorem lMemWrite_of_run {laddr size : U64} {value : Buffer} {s s' : σ}
    {issued : List PhysicalAccess} (bytesWritten : Option U64)
    (h : run (m.writes value).chunkStep (s, []) (pageChunks laddr size) = (true, s', issued)) :
    Returns (fun fuel => m.lMemWrite fuel laddr size (some value) bytesWritten s)
      ⟨true, bytesWritten.map fun _ => size, issued, s'⟩ := by
  have hreturns := m.lMemWrite_returns laddr size value bytesWritten s
  simpa only [PageAccess.chunkOutcome, h, if_true] using hreturns

/-- For every range, a buffer that is there and all translation and access functions, `LMemRead`
and `LMemWrite` return, and go through the chunks of the range in order. -/
theorem lMemAccess_chunked (laddr size : U64) (value : Buffer) (count : Option U64) (s : σ) :
    (∃ o, Returns (fun fuel => m.lMemRead fuel laddr size (some value) count s) o ∧
      o.Chunked m.reads laddr size count (s, value)) ∧
    ∃ o, Returns (fun fuel => m.lMemWrite fuel laddr size (some value) count s) o ∧
      o.Chunked (m.writes value) laddr size count s := by
  refine ⟨⟨_, m.lMemRead_returns laddr size value count s, ?_⟩,
    ⟨_, m.lMemWrite_returns laddr size value count s, ?_⟩⟩
  · obtain ⟨hpart, htrue, hfalse, hissued⟩ :=
      m.reads.chunkOutcome_chunked laddr size count (s, value)
    exact ⟨hpart, htrue, hfalse, hissued⟩
  · exact (m.writes value).chunkOutcome_chunked laddr size count s

end LinearMemory

/-! ## The count of bytes transferred -/

/-- The bytes of the physical accesses that returned true. -/
def LinearOutcome.transferred {σ : Type} (o : LinearOutcome σ) : ℕ :=
  ((o.issued.filter (·.succeeded)).map (·.size.toNat)).sum

/-- The number behind the count pointer is the number of bytes transferred. -/
def LinearOutcome.ReportsCount {σ : Type} (o : LinearOutcome σ) : Prop :=
  o.count.map (·.toNat) = some o.transferred

theorem LinearOutcome.reportsCount_of_nothing_issued {σ : Type} {o : LinearOutcome σ} {count : U64}
    (hissued : o.issued = []) (hcount : o.count = some count) : o.ReportsCount ↔ count = 0 := by
  rw [ReportsCount, transferred, hissued, hcount, ← BitVec.toNat_inj]
  simp

theorem Contiguous.sum_size {last : ℕ} : ∀ {pos : ℕ} {cs : List PageChunk},
    Contiguous last pos cs → pos + (cs.map (·.size.toNat)).sum = last := by
  intro pos cs
  induction cs generalizing pos with
  | nil => exact id
  | cons c cs ih =>
    intro h
    rw [List.map_cons, List.sum_cons, ← ih h.2]
    omega

/-- A chunk starts where the ones before it end. -/
theorem Contiguous.pos_eq {last pos : ℕ} {before after : List PageChunk} {c : PageChunk}
    (h : Contiguous last pos (before ++ c :: after)) :
    c.pos.toNat = pos + (before.map (·.size.toNat)).sum := by
  induction before generalizing pos with
  | nil => exact h.1
  | cons b before ih =>
    rw [List.map_cons, List.sum_cons, ih h.2]
    omega

/-- The bytes of accesses that all returned true are the sizes of their chunks. -/
theorem sum_size_of_succeeded {calls : List PhysicalAccess} (h : ∀ a ∈ calls, a.succeeded = true) :
    ((calls.filter (·.succeeded)).map (·.size.toNat)).sum =
      ((calls.map (·.toPageChunk)).map (·.size.toNat)).sum := by
  rw [List.filter_eq_self.mpr h, List.map_map]
  rfl

namespace PageAccess

variable {σ : Type} (p : PageAccess σ) {laddr size : U64}

/-- If some chunk of the range is the first to fail, `count` is the number of bytes before it. -/
def CountsBytesBefore (laddr size count : U64) (s : σ) : Prop :=
  ∀ before c, FirstFailure p.chunkStep (s, []) (pageChunks laddr size) before c →
    count.toNat = (before.map (·.size.toNat)).sum

/-- The bytes of the chunks before the first one that fails are transferred. -/
theorem transferred_of_firstFailure {before : List PageChunk} {c : PageChunk} {s : σ}
    (h : FirstFailure p.chunkStep (s, []) (pageChunks laddr size) before c) (count : Option U64) :
    (p.chunkOutcome laddr size count s).transferred = (before.map (·.size.toNat)).sum := by
  have hrun : (p.chunkOutcome laddr size count s).issued =
      (run p.chunkStep (s, []) (pageChunks laddr size)).2.2 := rfl
  obtain ⟨calls, rfl, hall, hissued | ⟨paddr, hissued⟩⟩ := p.issued_of_firstFailure h
  · rw [LinearOutcome.transferred, hrun, hissued, sum_size_of_succeeded hall]
  · rw [LinearOutcome.transferred, hrun, hissued, List.filter_append]
    simp only [List.filter_cons, List.filter_nil, Bool.false_eq_true, if_false, List.append_nil]
    exact sum_size_of_succeeded hall

theorem chunkOutcome_reportsCount_iff (laddr size count : U64) (s : σ) :
    (p.chunkOutcome laddr size (some count) s).ReportsCount ↔
      p.CountsBytesBefore laddr size count s := by
  rcases hrun : run p.chunkStep (s, []) (pageChunks laddr size) with ⟨_ | _, s', issued⟩
  · obtain ⟨before, c, h⟩ := run_false_iff.mp (congrArg Prod.fst hrun)
    have hcount : (p.chunkOutcome laddr size (some count) s).count = some count := by
      simp only [chunkOutcome, hrun]
      rfl
    rw [LinearOutcome.ReportsCount, hcount, p.transferred_of_firstFailure h, Option.map_some,
      Option.some.injEq]
    refine ⟨fun heq before' c' h' => ?_, fun hall => hall before c h⟩
    rw [heq, ← h.completed_eq, h'.completed_eq]
  · obtain ⟨hmap, hall⟩ := p.run_issued hrun
    have hsum := (partitions_pageChunks laddr size).contiguous.sum_size
    have hreports : (p.chunkOutcome laddr size (some count) s).ReportsCount := by
      simp only [LinearOutcome.ReportsCount, LinearOutcome.transferred, chunkOutcome, hrun, if_true,
        Option.map_some, sum_size_of_succeeded hall, hmap]
      rw [← hsum, Nat.zero_add]
    refine iff_of_true hreports fun before c h => ?_
    rw [h.run_eq] at hrun
    exact absurd (congrArg Prod.fst hrun) (by simp)

end PageAccess

namespace LinearMemory

variable {σ : Type} (m : LinearMemory σ)

/-- With a count pointer, `LMemRead` and `LMemWrite` store the number of bytes transferred exactly
when no page of the range fails, or the number before the first page that fails was behind the
pointer already, which is zero where the value pointer is null. -/
theorem lMemAccess_reportsCount_iff (laddr size : U64) (value : Option Buffer) (count : U64)
    (s : σ) :
    ((∃ o, Returns (fun fuel => m.lMemRead fuel laddr size value (some count) s) o ∧
        o.ReportsCount) ↔
      (value = none → count = 0) ∧
        ∀ v, value = some v → m.reads.CountsBytesBefore laddr size count (s, v)) ∧
    ((∃ o, Returns (fun fuel => m.lMemWrite fuel laddr size value (some count) s) o ∧
        o.ReportsCount) ↔
      (value = none → count = 0) ∧
        ∀ v, value = some v → (m.writes v).CountsBytesBefore laddr size count s) := by
  cases value with
  | none =>
    have hread : Returns (fun fuel => m.lMemRead fuel laddr size none (some count) s)
        ⟨false, some count, [], s, none⟩ := ⟨0, fun _ _ => rfl⟩
    have hwrite : Returns (fun fuel => m.lMemWrite fuel laddr size none (some count) s)
        ⟨false, some count, [], s⟩ := ⟨0, fun _ _ => rfl⟩
    rw [hread.exists_iff, hwrite.exists_iff, LinearOutcome.reportsCount_of_nothing_issued rfl rfl,
      LinearOutcome.reportsCount_of_nothing_issued rfl rfl]
    simp
  | some value =>
    rw [(m.lMemRead_returns laddr size value (some count) s).exists_iff,
      (m.lMemWrite_returns laddr size value (some count) s).exists_iff]
    have hread := m.reads.chunkOutcome_reportsCount_iff laddr size count (s, value)
    have hwrite := (m.writes value).chunkOutcome_reportsCount_iff laddr size count s
    exact ⟨hread.trans (by simp), hwrite.trans (by simp)⟩

end LinearMemory

/-- Paging is disabled, and one page of guest memory is mapped. -/
def onePage : Guest := ⟨[⟨0x1000, 0x1000, 0x10000⟩], fun _ => .ok 0, fun _ => 0⟩

/-- Sixteen bytes written across the end of the only page: eight of them reach host memory, the
call returns false, and the zero behind the count pointer stays. -/
theorem lMemWrite_hides_partial_count :
    ∃ o, Returns (fun fuel => onePage.memory.lMemWrite fuel 0x1FF8 16 (some fun _ => 0xAA) (some 0)
        (fun _ => 0)) o ∧
      o.returned = false ∧ o.transferred = 8 ∧ o.count = some 0 ∧ ¬ o.ReportsCount := by
  refine ⟨_, onePage.memory.lMemWrite_returns _ _ _ _ _, ?_⟩
  have hreturned : ((onePage.memory.writes fun _ => 0xAA).chunkOutcome 0x1FF8 16 (some 0)
      (fun _ => 0)).returned = false := by decide +kernel
  have htransferred : ((onePage.memory.writes fun _ => 0xAA).chunkOutcome 0x1FF8 16 (some 0)
      (fun _ => 0)).transferred = 8 := by decide +kernel
  have hcount : ((onePage.memory.writes fun _ => 0xAA).chunkOutcome 0x1FF8 16 (some 0)
      (fun _ => 0)).count = some 0 := by decide +kernel
  refine ⟨hreturned, htransferred, hcount, ?_⟩
  rw [LinearOutcome.ReportsCount, htransferred, hcount]
  decide

end Virt86
