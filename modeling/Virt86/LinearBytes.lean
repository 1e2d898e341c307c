import Virt86.CellLoops
import Virt86.LinearTransfers
import Virt86.PagingModes
import Virt86.PartialRuns
import Virt86.Simulations

/-!
# Linear memory, byte by byte

`LMemRead` and `LMemWrite` translate one address for each page they meet and copy the page whole.
Over page-aligned regions and outside PAE paging they do what loops over the single bytes would do
that translate each byte on its own, in any sequence of accesses that leaves the paging structures
alone.
-/

namespace Virt86

open StoppingRuns

/-! ## Places in the buffer -/

/-- The places of a chunk in the buffer. -/
def PageChunk.places (c : PageChunk) : List ℕ := List.range' c.pos.toNat c.size.toNat

theorem Contiguous.flatMap_places {last pos : ℕ} {cs : List PageChunk}
    (h : Contiguous last pos cs) : cs.flatMap PageChunk.places = List.range' pos (last - pos) := by
  induction cs generalizing pos with
  | nil =>
    obtain rfl : pos = last := h
    rw [Nat.sub_self]
    rfl
  | cons c cs ih =>
    have hsum := h.2.sum_size
    have hlength : last - pos = c.size.toNat + (last - (pos + c.size.toNat)) := by omega
    rw [List.flatMap_cons, ih h.2, PageChunk.places, h.1, hlength, List.range'_append_1]

theorem flatMap_places (laddr size : U64) :
    (pageChunks laddr size).flatMap PageChunk.places = List.range size.toNat := by
  rw [(partitions_pageChunks laddr size).contiguous.flatMap_places, Nat.sub_zero,
    List.range_eq_range']

/-- The places of the chunks are places of the range, and their addresses follow one another. -/
theorem mem_places {laddr size : U64} {c : PageChunk} (hc : c ∈ pageChunks laddr size) {i : ℕ}
    (hi : i ∈ c.places) : i < size.toNat := by
  rw [← List.mem_range, ← flatMap_places laddr size]
  exact List.mem_flatMap_of_mem hc hi

theorem places_eq_cons {laddr size : U64} {c : PageChunk} (hc : c ∈ pageChunks laddr size) :
    c.places = c.pos.toNat :: List.range' (c.pos.toNat + 1) (c.size.toNat - 1) := by
  have hsize := (partitions_pageChunks laddr size).nonempty c hc
  rw [PageChunk.places, ← List.range'_succ, Nat.sub_add_cancel hsize]

section Windows

variable {cell : ℕ → Option U64} {host : U64} {pos : ℕ}

theorem run_store_window (data : Buffer) (mem : HostMemory) {n : ℕ}
    (h : ∀ i < n, cell (pos + i) = some (host + BitVec.ofNat 64 i)) :
    run (CellLoops.store cell data) mem (List.range' pos n) =
      (true, storeBytes mem (fun i => host + BitVec.ofNat 64 i) (fun i => data (pos + i)) n) := by
  induction n with
  | zero => rfl
  | succ n ih =>
    have hbefore := ih fun i hi => h i (Nat.lt_succ_of_lt hi)
    have hlast := h n (Nat.lt_succ_self n)
    rw [List.range'_1_concat, run_append_of_true (by rw [hbefore]), hbefore]
    simp only [run, CellLoops.store_of_some hlast, if_true, storeBytes]

theorem run_load_window (mem : HostMemory) (value : Buffer) {n : ℕ}
    (h : ∀ i < n, cell (pos + i) = some (host + BitVec.ofNat 64 i)) :
    run (CellLoops.load cell mem) value (List.range' pos n) =
      (true, fun j => if pos ≤ j ∧ j < pos + n then mem (host + BitVec.ofNat 64 (j - pos))
        else value j) := by
  induction n with
  | zero =>
    have hnone (j : ℕ) : ¬ (pos ≤ j ∧ j < pos + 0) := by omega
    simp only [hnone, if_false]
    rfl
  | succ n ih =>
    have hbefore := ih fun i hi => h i (Nat.lt_succ_of_lt hi)
    have hlast := h n (Nat.lt_succ_self n)
    rw [List.range'_1_concat, run_append_of_true (by rw [hbefore]), hbefore]
    simp only [run, CellLoops.load_of_some hlast, if_true, Prod.mk.injEq, true_and]
    funext j
    by_cases hj : j = pos + n
    · subst hj
      have hin : pos ≤ pos + n ∧ pos + n < pos + (n + 1) := by omega
      rw [Function.update_self, if_pos hin, Nat.add_sub_cancel_left]
    · have hiff : (pos ≤ j ∧ j < pos + (n + 1)) ↔ (pos ≤ j ∧ j < pos + n) := by omega
      rw [Function.update_of_ne hj]
      simp only [hiff]

end Windows

/-! ## Cells of linear memory -/

namespace Guest

/-- The host byte of a linear address. -/
def byteCell (g : Guest) (mem : HostMemory) (laddr : U64) : Option U64 :=
  ((g.context mem).walk laddr).result.bind (hostTranslation g.regions)

/-- The host bytes of the entries that translations read. -/
def TableByte (g : Guest) (mem : HostMemory) (a : U64) : Prop :=
  ∃ laddr, ∃ e ∈ ((g.context mem).walk laddr).reads, g.Window e.1 (BitVec.ofNat 64 e.2) a

/-- The regions of a virtual machine, and a paging mode in which pages are translated whole. -/
structure TranslatesPages (g : Guest) : Prop where
  aligned : PageAlignedRegions g.regions
  nonWrapping : ∀ r ∈ g.regions, r.NonWrapping
  mode : getPagingMode g.regRead ≠ .PAE

variable {g : Guest} {mem mem' : HostMemory} {laddr size : U64} {c : PageChunk}

/-- Memories that agree on the paging structures translate alike. -/
theorem byteCell_eq (hw : ∀ r ∈ g.regions, r.NonWrapping)
    (hagree : ∀ a, g.TableByte mem a → mem' a = mem a) (laddr : U64) :
    g.byteCell mem' laddr = g.byteCell mem laddr := by
  have hwalk : (g.context mem').walk laddr = (g.context mem).walk laddr :=
    Guest.walk_eq hw g.entry fun e he a ha => hagree a ⟨laddr, e, he, ha⟩
  rw [byteCell, byteCell, hwalk]

theorem byteCell_add (h : g.TranslatesPages) {i : U64} (hpage : InPage laddr i) :
    g.byteCell mem (laddr + i) = (g.byteCell mem laddr).map (· + i) := by
  obtain ⟨-, hresult⟩ := (g.context mem).walk_shiftedBy h.mode hpage
  rw [byteCell, byteCell, hresult]
  cases hwalk : ((g.context mem).walk laddr).result with
  | none => rfl
  | some paddr =>
    have hoffset := ((g.context mem).walk_offset laddr).2 paddr hwalk
    have hphysical : InPage paddr i := by
      rw [InPage, hoffset]
      exact hpage
    exact hostTranslation_add h.aligned hphysical

theorem toNat_ofNat_lt {n : U64} {i : ℕ} (hi : i < n.toNat) : (BitVec.ofNat 64 i).toNat = i := by
  rw [BitVec.toNat_ofNat, Nat.mod_eq_of_lt (Nat.lt_trans hi n.isLt)]

/-- The access of a chunk copies it whole between its cells, or its first byte has no cell. -/
theorem chunk_cells (h : g.TranslatesPages) (mem : HostMemory)
    (hc : c ∈ pageChunks laddr size) :
    (g.byteCell mem c.laddr = none ∧ ∀ paddr,
      ((g.context mem).walk c.laddr).result = some paddr →
        memCopy g.regions paddr c.size = none) ∨
    ∃ paddr copy, ((g.context mem).walk c.laddr).result = some paddr ∧
      memCopy g.regions paddr c.size = some copy ∧ copy.count = c.size ∧
      ∀ i < c.size.toNat, g.byteCell mem (c.laddr + BitVec.ofNat 64 i) =
        some (copy.host + BitVec.ofNat 64 i) := by
  have hsize := (partitions_pageChunks laddr size).nonempty c hc
  have hpage := (partitions_pageChunks laddr size).in_page c hc
  cases hwalk : ((g.context mem).walk c.laddr).result with
  | none =>
    left
    refine ⟨by rw [byteCell, hwalk]; rfl, ?_⟩
    intro paddr hpaddr
    cases hpaddr
  | some paddr =>
    have hoffset := ((g.context mem).walk_offset c.laddr).2 paddr hwalk
    have hlow := ((g.context mem).walk_ensures c.laddr).2 paddr hwalk
    have hcopy := memCopy_in_page h.aligned h.nonWrapping hlow hsize (by omega)
    have hcell : g.byteCell mem c.laddr = hostTranslation g.regions paddr := by
      rw [byteCell, hwalk]
      rfl
    cases hhost : hostTranslation g.regions paddr with
    | none =>
      left
      rw [hhost, Option.map_none, Option.map_eq_none_iff] at hcopy
      refine ⟨hcell.trans hhost, ?_⟩
      rintro paddr' ⟨⟩
      exact hcopy
    | some host =>
      right
      rw [hhost, Option.map_some, Option.map_eq_some_iff] at hcopy
      obtain ⟨copy, hcopy, heq⟩ := hcopy
      obtain ⟨rfl, hcount⟩ := Prod.mk.inj heq
      refine ⟨paddr, copy, rfl, hcopy, hcount, fun i hi => ?_⟩
      have hinpage : InPage c.laddr (BitVec.ofNat 64 i) := by
        rw [InPage, toNat_ofNat_lt hi]
        omega
      rw [byteCell_add h hinpage, hcell, hhost]
      rfl

/-- The cells of the places in the buffer of an access. -/
def cellAt (cell : U64 → Option U64) (laddr : U64) (i : ℕ) : Option U64 :=
  cell (laddr + BitVec.ofNat 64 i)

theorem cellAt_pos (hc : c ∈ pageChunks laddr size) (cell : U64 → Option U64) (i : ℕ) :
    cellAt cell laddr (c.pos.toNat + i) = cell (c.laddr + BitVec.ofNat 64 i) := by
  rw [cellAt, BitVec.ofNat_add, BitVec.ofNat_toNat, BitVec.setWidth_eq, ← BitVec.add_assoc,
    ← (partitions_pageChunks laddr size).laddr_eq c hc]

section Chunks

variable {data value : Buffer} {calls : List PhysicalAccess}

theorem writes_chunkStep_of_none (hnone : ∀ paddr,
      ((g.context mem).walk c.laddr).result = some paddr → memCopy g.regions paddr c.size = none) :
    ((g.memory.writes data).chunkStep (mem, calls) c).1 = false ∧
      ((g.memory.writes data).chunkStep (mem, calls) c).2.1 = mem := by
  cases hwalk : ((g.context mem).walk c.laddr).result with
  | none => simp only [PageAccess.chunkStep, LinearMemory.writes, memory, hwalk, and_self]
  | some paddr =>
    simp only [PageAccess.chunkStep, LinearMemory.writes, memory, hwalk,
      memWriteEffect_of_none (hnone paddr hwalk), and_self]

theorem reads_chunkStep_of_none (hnone : ∀ paddr,
      ((g.context mem).walk c.laddr).result = some paddr → memCopy g.regions paddr c.size = none) :
    (g.memory.reads.chunkStep ((mem, value), calls) c).1 = false ∧
      (g.memory.reads.chunkStep ((mem, value), calls) c).2.1 = (mem, value) := by
  cases hwalk : ((g.context mem).walk c.laddr).result with
  | none => simp only [PageAccess.chunkStep, LinearMemory.reads, memory, hwalk, and_self]
  | some paddr =>
    have hbuffer : value.splice c.pos (value.from c.pos) = value := by
      funext i
      by_cases hi : i < c.pos.toNat
      · exact if_pos hi
      · rw [Buffer.splice, if_neg hi, Buffer.from, Nat.add_sub_cancel' (Nat.le_of_not_lt hi)]
    simp only [PageAccess.chunkStep, LinearMemory.reads, memory, hwalk,
      memReadEffect_of_none (hnone paddr hwalk), hbuffer, and_self]

/-- A page is written as its bytes are. -/
theorem writes_chunk (h : g.TranslatesPages) (hc : c ∈ pageChunks laddr size) (mem : HostMemory)
    (data : Buffer) (calls : List PhysicalAccess) :
    ((g.memory.writes data).chunkStep (mem, calls) c).1 =
        (run (CellLoops.store (cellAt (g.byteCell mem) laddr) data) mem c.places).1 ∧
      ((g.memory.writes data).chunkStep (mem, calls) c).2.1 =
        (run (CellLoops.store (cellAt (g.byteCell mem) laddr) data) mem c.places).2 := by
  have hat := cellAt_pos hc (g.byteCell mem)
  obtain ⟨hcell, hnone⟩ | ⟨paddr, copy, hwalk, hcopy, hcount, hcells⟩ := chunk_cells h mem hc
  · have hfirst : CellLoops.store (cellAt (g.byteCell mem) laddr) data mem c.pos.toNat =
        (false, mem) := CellLoops.store_of_none (by simpa [hcell] using hat 0)
    rw [places_eq_cons hc, run_cons_of_false (by rw [hfirst]), hfirst]
    exact writes_chunkStep_of_none hnone
  · have hloop := run_store_window data mem fun i hi => (hat i).trans (hcells i hi)
    rw [writes_chunkStep hwalk hcopy, PageChunk.places, hloop,
      storeBytes_window _ _ _ _ (Nat.le_of_lt c.size.isLt), hcount]
    exact ⟨rfl, rfl⟩

/-- A page is read as its bytes are. -/
theorem reads_chunk (h : g.TranslatesPages) (hc : c ∈ pageChunks laddr size) (mem : HostMemory)
    (value : Buffer) (calls : List PhysicalAccess) :
    (g.memory.reads.chunkStep ((mem, value), calls) c).1 =
        (run (CellLoops.load (cellAt (g.byteCell mem) laddr) mem) value c.places).1 ∧
      (g.memory.reads.chunkStep ((mem, value), calls) c).2.1 =
        (mem, (run (CellLoops.load (cellAt (g.byteCell mem) laddr) mem) value c.places).2) := by
  have hat := cellAt_pos hc (g.byteCell mem)
  obtain ⟨hcell, hnone⟩ | ⟨paddr, copy, hwalk, hcopy, hcount, hcells⟩ := chunk_cells h mem hc
  · have hfirst : CellLoops.load (cellAt (g.byteCell mem) laddr) mem value c.pos.toNat =
        (false, value) := CellLoops.load_of_none (by simpa [hcell] using hat 0)
    rw [places_eq_cons hc, run_cons_of_false (by rw [hfirst]), hfirst]
    exact reads_chunkStep_of_none hnone
  · have hloop := run_load_window mem value fun i hi => (hat i).trans (hcells i hi)
    rw [reads_chunkStep hwalk hcopy, PageChunk.places, hloop, hcount]
    refine ⟨rfl, Prod.ext rfl ?_⟩
    funext j
    by_cases hj : j < c.pos.toNat
    · have hout : ¬ (c.pos.toNat ≤ j ∧ j < c.pos.toNat + c.size.toNat) := by omega
      simp only [Buffer.splice, hj, hout, if_true, if_false]
    · have hiff : (c.pos.toNat ≤ j ∧ j < c.pos.toNat + c.size.toNat) ↔
          j - c.pos.toNat < c.size.toNat := by omega
      have hadd : c.pos.toNat + (j - c.pos.toNat) = j := by omega
      simp only [Buffer.splice, hj, if_false, HostMemory.load, Buffer.from, hiff, hadd]

end Chunks

/-! ## Sequences of accesses -/

/-- A memory that agrees with `mem` on the paging structures of `mem`. -/
def KeepsTables (g : Guest) (mem mem' : HostMemory) : Prop :=
  ∀ a, g.TableByte mem a → mem' a = mem a

/-- The bytes from `laddr` on are not those of paging structures. -/
def SparesTables (g : Guest) (mem : HostMemory) (laddr size : U64) : Prop :=
  ∀ i < size.toNat, ∀ a, cellAt (g.byteCell mem) laddr i = some a → ¬ g.TableByte mem a

theorem KeepsTables.byteCell_eq (h : g.TranslatesPages) (hkeeps : g.KeepsTables mem mem') :
    g.byteCell mem' = g.byteCell mem :=
  funext fun laddr => Guest.byteCell_eq h.nonWrapping hkeeps laddr

/-- Storing bytes that are not of the tables keeps the tables. -/
theorem KeepsTables.store (hkeeps : g.KeepsTables mem mem') {data : Buffer} {places : List ℕ}
    (hplaces : ∀ i ∈ places, i < size.toNat) (hspares : g.SparesTables mem laddr size) :
    g.KeepsTables mem
      (run (CellLoops.store (cellAt (g.byteCell mem) laddr) data) mem' places).2 := by
  intro a ha
  rw [← hkeeps a ha]
  exact CellLoops.run_store_frame fun i hi hcell => hspares i (hplaces i hi) a hcell ha

/-- `LMemWrite` writes a range as its bytes are. -/
theorem writes_bytes (h : g.TranslatesPages) (hkeeps : g.KeepsTables mem mem') (data : Buffer)
    (hspares : g.SparesTables mem laddr size) :
    let bytes := run (CellLoops.store (cellAt (g.byteCell mem) laddr) data) mem'
      (List.range size.toNat)
    let pages := run (g.memory.writes data).chunkStep (mem', []) (pageChunks laddr size)
    pages.1 = bytes.1 ∧ pages.2.1 = bytes.2 ∧ g.KeepsTables mem bytes.2 := by
  intro bytes pages
  have hchunk (c : PageChunk) (hc : c ∈ pageChunks laddr size)
      {s : HostMemory × List PhysicalAccess} {t : HostMemory}
      (hrel : s.1 = t ∧ g.KeepsTables mem t) :
      ((g.memory.writes data).chunkStep s c).1 =
          (run (CellLoops.store (cellAt (g.byteCell mem) laddr) data) t c.places).1 ∧
        ((g.memory.writes data).chunkStep s c).2.1 =
          (run (CellLoops.store (cellAt (g.byteCell mem) laddr) data) t c.places).2 ∧
        g.KeepsTables mem
          (run (CellLoops.store (cellAt (g.byteCell mem) laddr) data) t c.places).2 := by
    obtain ⟨rfl, hkeeps⟩ := hrel
    obtain ⟨hresult, hmem⟩ := writes_chunk h hc s.1 data s.2
    rw [hkeeps.byteCell_eq h] at hresult hmem
    exact ⟨hresult, hmem, hkeeps.store (fun i => mem_places hc) hspares⟩
  have hrun := run_flatMap (fun (s : HostMemory × List PhysicalAccess) (t : HostMemory) =>
    s.1 = t ∧ g.KeepsTables mem t) hchunk (s := (mem', [])) ⟨rfl, hkeeps⟩
  rw [flatMap_places] at hrun
  exact hrun

/-- `LMemRead` reads a range as its bytes are. -/
theorem reads_bytes (h : g.TranslatesPages) (hkeeps : g.KeepsTables mem mem') (laddr size : U64)
    (value : Buffer) :
    let bytes := run (CellLoops.load (cellAt (g.byteCell mem) laddr) mem') value
      (List.range size.toNat)
    let pages := run g.memory.reads.chunkStep ((mem', value), []) (pageChunks laddr size)
    pages.1 = bytes.1 ∧ pages.2.1 = (mem', bytes.2) := by
  intro bytes pages
  have hchunk (c : PageChunk) (hc : c ∈ pageChunks laddr size)
      {s : (HostMemory × Buffer) × List PhysicalAccess} {t : Buffer} (hrel : s.1 = (mem', t)) :
      (g.memory.reads.chunkStep s c).1 =
          (run (CellLoops.load (cellAt (g.byteCell mem) laddr) mem') t c.places).1 ∧
        (g.memory.reads.chunkStep s c).2.1 =
          (mem', (run (CellLoops.load (cellAt (g.byteCell mem) laddr) mem') t c.places).2) := by
    have hpage := reads_chunk h hc mem' t s.2
    rw [hkeeps.byteCell_eq h, ← hrel] at hpage
    exact hpage
  have hrun := run_flatMap (fun (s : (HostMemory × Buffer) × List PhysicalAccess) (t : Buffer) =>
    s.1 = (mem', t)) hchunk (s := ((mem', value), [])) rfl
  rw [flatMap_places] at hrun
  exact hrun

end Guest

/-- A linear access with its buffer and the pointee of its count argument. -/
inductive LinearOp where
  | read (laddr size : U64) (value : Option Buffer) (bytesRead : Option U64)
  | write (laddr size : U64) (value : Option Buffer) (bytesWritten : Option U64)

/-- What a call returned, and the buffer and the count afterwards. -/
structure LinearResult where
  returned : Bool
  value : Option Buffer
  count : Option U64

namespace LinearOp

/-- The calls of a guest. -/
def perform (g : Guest) (fuel : ℕ) (mem : HostMemory) :
    LinearOp → Option (LinearResult × HostMemory)
  | .read laddr size value bytesRead =>
    (g.memory.lMemRead fuel laddr size value bytesRead mem).map fun o =>
      (⟨o.returned, o.state.2, o.count⟩, o.state.1)
  | .write laddr size value bytesWritten =>
    (g.memory.lMemWrite fuel laddr size value bytesWritten mem).map fun o =>
      (⟨o.returned, value, o.count⟩, o.state)

/-- The same calls as loops over single bytes, with the cells of the bytes fixed. -/
def performBytes (cell : U64 → Option U64) (mem : HostMemory) : LinearOp → LinearResult × HostMemory
  | .read laddr size (some value) bytesRead =>
    let r := run (CellLoops.load (Guest.cellAt cell laddr) mem) value (List.range size.toNat)
    (⟨r.1, some r.2, if r.1 then bytesRead.map fun _ => size else bytesRead⟩, mem)
  | .write laddr size (some value) bytesWritten =>
    let r := run (CellLoops.store (Guest.cellAt cell laddr) value) mem (List.range size.toNat)
    (⟨r.1, some value, if r.1 then bytesWritten.map fun _ => size else bytesWritten⟩, r.2)
  | .read _ _ none count | .write _ _ none count => (⟨false, none, count⟩, mem)

/-- A write does not reach the paging structures. -/
def SparesTables (g : Guest) (mem : HostMemory) : LinearOp → Prop
  | .read _ _ _ _ => True
  | .write laddr size _ _ => g.SparesTables mem laddr size

variable {g : Guest} {mem mem' : HostMemory}

theorem perform_returns (h : g.TranslatesPages) (hkeeps : g.KeepsTables mem mem') {op : LinearOp}
    (hspares : op.SparesTables g mem) :
    Returns (fun fuel => op.perform g fuel mem') (op.performBytes (g.byteCell mem) mem') ∧
      g.KeepsTables mem (op.performBytes (g.byteCell mem) mem').2 := by
  cases op with
  | read laddr size value bytesRead =>
    cases value with
    | none => exact ⟨⟨0, fun _ _ => rfl⟩, hkeeps⟩
    | some value =>
      obtain ⟨hreturned, hstate⟩ := g.reads_bytes h hkeeps laddr size value
      obtain ⟨bound, hcall⟩ := g.memory.lMemRead_returns laddr size value bytesRead mem'
      refine ⟨⟨bound, fun fuel hfuel => ?_⟩, hkeeps⟩
      simp only [perform, hcall fuel hfuel, Option.map_some, PageAccess.chunkOutcome, hreturned,
        hstate, performBytes]
  | write laddr size value bytesWritten =>
    cases value with
    | none => exact ⟨⟨0, fun _ _ => rfl⟩, hkeeps⟩
    | some value =>
      obtain ⟨hreturned, hstate, hkept⟩ := g.writes_bytes h hkeeps value hspares
      obtain ⟨bound, hcall⟩ := g.memory.lMemWrite_returns laddr size value bytesWritten mem'
      refine ⟨⟨bound, fun fuel hfuel => ?_⟩, hkept⟩
      simp only [perform, hcall fuel hfuel, Option.map_some, PageAccess.chunkOutcome, hreturned,
        hstate, performBytes]

end LinearOp

namespace Guest

/-- 32-bit paging with large pages, all of which are mapped to the first one. -/
def largePages : Guest where
  regions := [⟨0, 0x10000, 0x100000⟩]
  regRead
    | .CR0 => .ok 0x80000000
    | .CR3 => .ok 0x1000
    | .CR4 => .ok 0x10
    | _ => .ok 0
  entry := fun _ => 0

/-- The same paging entry everywhere. -/
def largePagesMemory : HostMemory := fun a => if a.toNat % 4 = 0 then 0x81 else 0

theorem largePages_translates : largePages.TranslatesPages where
  aligned := by
    intro r hr
    obtain rfl := List.mem_singleton.mp hr
    exact ⟨by decide, by decide, by decide⟩
  nonWrapping := by
    intro r hr
    obtain rfl := List.mem_singleton.mp hr
    decide
  mode := by decide +kernel

theorem largePages_copy {e : U64} (hpage : e.toNat / 4096 = 1) :
    memCopy largePages.regions e 4 = some ⟨⟨0, 0x10000, 0x100000⟩, 0x100000 + e, 4⟩ := by
  have hpasses : MemoryRegion.Passes e (e + 4 - 1) ⟨0, 0x10000, 0x100000⟩ := by
    constructor
    · exact Nat.zero_le _
    · simp only [MemoryRegion.finalAddress]
      bv_omega
  have hhost : (0x100000 : U64) + e - 0 = 0x100000 + e := BitVec.sub_zero _
  simp only [memCopy, largePages, List.reverse_singleton, findCopy, if_pos hpasses, hhost]
  rfl

/-- Every entry of the page directory is for a large page at address zero. -/
theorem largePages_entry {e : U64} (hpage : e.toNat / 4096 = 1) (hfour : e.toNat % 4 = 0) :
    readEntry (largePages.context largePagesMemory).memRead 4 e = ⟨[(e, 4)], some 0x81#32⟩ := by
  have hcopy := largePages_copy hpage
  have hbyte (i : ℕ) (hi : i < 4) :
      largePagesMemory (0x100000 + e + BitVec.ofNat 64 i) = if i = 0 then 0x81 else 0 := by
    have hmod : (0x100000 + e + BitVec.ofNat 64 i).toNat % 4 = i := by bv_omega
    rw [largePagesMemory, hmod]
  have hsize : BitVec.ofNat 64 4 = (4 : U64) := rfl
  simp only [readEntry, context, hsize, memReadEffect_of_some hcopy, if_true, HostMemory.load]
  have hbytes : (fun i : Fin 4 => if i.val < (4 : U64).toNat then
      largePagesMemory (0x100000 + e + BitVec.ofNat 64 i) else largePages.entry i) =
        fun i => if i.val = 0 then 0x81 else 0 := by
    funext i
    have hlt : i.val < (4 : U64).toNat := i.isLt
    rw [if_pos hlt, hbyte i i.isLt]
  rw [hbytes]
  rfl

/-- A translation reads one entry of the page directory. -/
theorem largePages_walk (laddr : U64) : ∃ e : U64, e.toNat / 4096 = 1 ∧
    (largePages.context largePagesMemory).walk laddr =
      ⟨[(e, 4)], some (buildAddress 22 18 ((laddr.setWidth 32).setWidth 64) 0)⟩ := by
  have hmode : getPagingMode largePages.regRead = .ThirtyTwoBit := by decide +kernel
  let index : U64 := ((laddr.setWidth 32).setWidth 64 >>> 22) <<< 2
  have hindex : index.toNat % 4 = 0 := by
    rw [BitVec.toNat_shiftLeft, Nat.shiftLeft_eq]
    omega
  have hentry : (buildAddress 12 20 index 1).toNat = 4096 + index.toNat % 4096 := by
    rw [toNat_buildAddress (by omega)]
    rfl
  have hread := @largePages_entry (buildAddress 12 20 index 1) (by omega) (by omega)
  refine ⟨buildAddress 12 20 index 1, by omega, ?_⟩
  rw [PagingContext.walk_eq_walkOf]
  have hregs : (largePages.context largePagesMemory).regRead = largePages.regRead := rfl
  rw [hregs, hmode]
  change (largePages.context largePagesMemory).linearToPhysical32 (laddr.setWidth 32) = _
  have hcr3 : (largePages.context largePagesMemory).readReg .CR3 = pure 0x1000 := rfl
  have hcr4 : (largePages.context largePagesMemory).readReg .CR4 = pure 0x10 := rfl
  have hget : getEntry (largePages.context largePagesMemory).memRead 12 20 4 index 1 =
      ⟨[(buildAddress 12 20 index 1, 4)], some 0x81#32⟩ := hread
  rw [PagingContext.linearToPhysical32, hcr3, hcr4, Walk.pure_bind, Walk.pure_bind]
  have htable : (((0x1000 : RegValue).u32 >>> 12).setWidth 64 : U64) = 1 := by decide +kernel
  have hlarge : PDE32.largePage 0x81#32 ∧ (0x10 : RegValue).u64 &&& CR4_PSE ≠ 0 := by
    decide +kernel
  have haddress : ((PDE32.largeAddrHigh 0x81#32).setWidth 64 <<< 10 |||
      (PDE32.largeAddrLow 0x81#32).setWidth 64 : U64) = 0 := by decide +kernel
  rw [htable, Walk.bind_of_some (congrArg Walk.result hget), hget, if_pos hlarge, haddress]
  rfl

theorem largePages_tableByte {a : U64} (h : largePages.TableByte largePagesMemory a) :
    0x101000 ≤ a.toNat ∧ a.toNat < 0x103000 := by
  obtain ⟨laddr, entry, hentry, hwindow⟩ := h
  obtain ⟨e, hpage, hwalk⟩ := largePages_walk laddr
  rw [hwalk] at hentry
  obtain rfl := List.mem_singleton.mp hentry
  have hbyte : (a - (0x100000 + e)).toNat < 4 := (window_iff (largePages_copy hpage) a).mp hwindow
  bv_omega

end Guest

namespace LinearOp

open Guest

end LinearOp

end Virt86
