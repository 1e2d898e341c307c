import Mathlib.Data.List.Pairwise
import Virt86.LinearMemory
import Virt86.WalkReads

/-!
# Linear accesses of a guest

What `LMemWrite` has written `LMemRead` reads back, as long as the write has not changed the paging
structures that lead to it or written one host byte for two pages. Without paging both do what
`MemRead` and `MemWrite` do for the whole range.
-/

namespace Virt86

open StoppingRuns

/-- A scan that succeeds for a non-empty request that does not wrap copies all of it. -/
theorem memCopy_count {regions : List MemoryRegion} (hw : ∀ r ∈ regions, r.NonWrapping)
    {paddr size : U64} (hfits : RangeFits paddr size) (hsize : 0 < size.toNat) {copy : MemCopy}
    (h : memCopy regions paddr size = some copy) : copy.count = size := by
  rw [memCopy_eq_covering hw hfits hsize] at h
  obtain ⟨r, -, rfl⟩ := Option.map_eq_some_iff.mp h
  rfl

namespace Guest

variable {g : Guest} {mem mem' : HostMemory} {value data : Buffer} {c : PageChunk}
  {calls : List PhysicalAccess} {laddr size paddr : U64} {copy : MemCopy}

/-- The host bytes behind a physical access. -/
def Window (g : Guest) (paddr size a : U64) : Prop :=
  ∃ copy, memCopy g.regions paddr size = some copy ∧ copy.Window a

theorem window_iff (h : memCopy g.regions paddr size = some copy) (a : U64) :
    g.Window paddr size a ↔ copy.Window a := by
  refine ⟨fun ⟨copy', h', hwindow⟩ => ?_, fun hwindow => ⟨copy, h, hwindow⟩⟩
  obtain rfl : copy' = copy := Option.some.inj (h'.symm.trans h)
  exact hwindow

/-! ## The access of one chunk -/

theorem reads_chunkStep (htranslate : ((g.context mem).walk c.laddr).result = some paddr)
    (hcopy : memCopy g.regions paddr c.size = some copy) :
    g.memory.reads.chunkStep ((mem, value), calls) c =
      (true, (mem, value.splice c.pos (mem.load copy.host copy.count (value.from c.pos))),
        calls ++ [⟨c, paddr, true⟩]) := by
  simp only [PageAccess.chunkStep, LinearMemory.reads, memory, htranslate,
    memReadEffect_of_some hcopy]

theorem writes_chunkStep (htranslate : ((g.context mem).walk c.laddr).result = some paddr)
    (hcopy : memCopy g.regions paddr c.size = some copy) :
    (g.memory.writes data).chunkStep (mem, calls) c =
      (true, mem.store copy.host (data.from c.pos) copy.count, calls ++ [⟨c, paddr, true⟩]) := by
  simp only [PageAccess.chunkStep, LinearMemory.writes, memory, htranslate,
    memWriteEffect_of_some hcopy]

/-- A chunk whose write succeeded was translated, and a region was selected for it. -/
theorem exists_of_writes_chunkStep {calls' : List PhysicalAccess}
    (h : (g.memory.writes data).chunkStep (mem, calls) c = (true, mem', calls')) :
    ∃ paddr copy, ((g.context mem).walk c.laddr).result = some paddr ∧
      memCopy g.regions paddr c.size = some copy ∧
      mem' = mem.store copy.host (data.from c.pos) copy.count ∧
      calls' = calls ++ [⟨c, paddr, true⟩] := by
  cases htranslate : ((g.context mem).walk c.laddr).result with
  | none =>
    simp only [PageAccess.chunkStep, LinearMemory.writes, memory, htranslate] at h
    exact absurd (congrArg Prod.fst h) (by simp)
  | some paddr =>
    cases hcopy : memCopy g.regions paddr c.size with
    | none =>
      simp only [PageAccess.chunkStep, LinearMemory.writes, memory, htranslate,
        memWriteEffect_of_none hcopy] at h
      exact absurd (congrArg Prod.fst h) (by simp)
    | some copy =>
      rw [writes_chunkStep htranslate hcopy] at h
      obtain ⟨-, rfl, rfl⟩ := h
      exact ⟨paddr, copy, rfl, hcopy, rfl, rfl⟩

/-- The access of a chunk copies the whole of it: walks end far below the end of the address
space. -/
theorem chunk_count (hw : ∀ r ∈ g.regions, r.NonWrapping) (hc : c ∈ pageChunks laddr size)
    (htranslate : ((g.context mem).walk c.laddr).result = some paddr)
    (hcopy : memCopy g.regions paddr c.size = some copy) : copy.count = c.size := by
  have hlow := ((g.context mem).walk_ensures c.laddr).2 paddr htranslate
  have hpage := (partitions_pageChunks laddr size).in_page c hc
  have hsize := (partitions_pageChunks laddr size).nonempty c hc
  refine memCopy_count hw ?_ hsize hcopy
  rw [RangeFits]
  omega

/-! ## Walks after a write -/

/-- A paging entry is the same in two host memories that agree on its bytes, whatever the variable
it is read into held. -/
theorem context_memRead_eq (hw : ∀ r ∈ g.regions, r.NonWrapping) {e : U64 × ℕ}
    (he : EntryFits e) (entry : Buffer)
    (hagree : ∀ a, g.Window e.1 (BitVec.ofNat 64 e.2) a → mem' a = mem a) :
    (g.context mem).memRead e.1 e.2 =
      (({ g with entry } : Guest).context mem').memRead e.1 e.2 := by
  obtain ⟨hlow, hpos, hle⟩ := he
  have hsize : (BitVec.ofNat 64 e.2).toNat = e.2 := by
    rw [BitVec.toNat_ofNat]
    omega
  cases hcopy : memCopy g.regions e.1 (BitVec.ofNat 64 e.2) with
  | none => simp only [context, memReadEffect_of_none hcopy, Bool.false_eq_true, if_false]
  | some copy =>
    have hfits : RangeFits e.1 (BitVec.ofNat 64 e.2) := by
      rw [RangeFits, hsize]
      omega
    have hcount := memCopy_count hw hfits (by omega) hcopy
    simp only [context, memReadEffect_of_some hcopy, if_true, Option.some.injEq]
    congr 1
    funext i
    have hi : (i : ℕ) < copy.count.toNat := by
      rw [hcount, hsize]
      exact i.isLt
    have hwindow : copy.Window (copy.host + BitVec.ofNat 64 i) := by
      rw [MemCopy.Window, window_offset hi]
      exact hi
    simp only [HostMemory.load, hi, if_true]
    exact (hagree _ ⟨copy, hcopy, hwindow⟩).symm

/-- A walk is the same in two host memories that agree on the entries it reads. -/
theorem walk_eq (hw : ∀ r ∈ g.regions, r.NonWrapping) (entry : Buffer)
    (hagree : ∀ e ∈ ((g.context mem).walk laddr).reads, ∀ a,
      g.Window e.1 (BitVec.ofNat 64 e.2) a → mem' a = mem a) :
    (({ g with entry } : Guest).context mem').walk laddr = (g.context mem).walk laddr := by
  refine ((g.context mem).walk_dependsOnReads _ laddr fun e he => ?_).symm
  have hfits := ((g.context mem).walk_ensures laddr).1 e he
  exact context_memRead_eq hw hfits entry (hagree e he)

/-! ## Reads and writes of all chunks -/

/-- How many bytes of the buffer the chunks take. -/
def chunkBytes (cs : List PageChunk) : ℕ := (cs.map (·.size.toNat)).sum

theorem chunkBytes_append (before : List PageChunk) (c : PageChunk) :
    chunkBytes (before ++ [c]) = chunkBytes before + c.size.toNat := by
  simp [chunkBytes]

theorem chunkBytes_pageChunks (laddr size : U64) :
    chunkBytes (pageChunks laddr size) = size.toNat := by
  have hsum := (partitions_pageChunks laddr size).contiguous.sum_size
  rwa [Nat.zero_add] at hsum

theorem pos_eq_chunkBytes {before after : List PageChunk}
    (h : pageChunks laddr size = before ++ c :: after) : c.pos.toNat = chunkBytes before := by
  have hcontiguous := (partitions_pageChunks laddr size).contiguous
  rw [h] at hcontiguous
  rw [hcontiguous.pos_eq, Nat.zero_add, chunkBytes]

/-- The chunks before one and that one lie in the range. -/
theorem chunkBytes_add_le {before after : List PageChunk}
    (h : pageChunks laddr size = before ++ c :: after) :
    chunkBytes before + c.size.toNat ≤ size.toNat := by
  rw [← chunkBytes_pageChunks laddr size, h, ← chunkBytes_append]
  simp [chunkBytes]

/-- The buffer after the bytes of a chunk have been read into it. -/
theorem splice_load {host count pos : U64} {target : Buffer}
    (h : ∀ i < count.toNat, mem (host + BitVec.ofNat 64 i) = target (pos.toNat + i)) :
    (Buffer.splice (fun i => if i < pos.toNat then target i else value i) pos
      (mem.load host count
        (Buffer.from (fun i => if i < pos.toNat then target i else value i) pos))) =
      fun i => if i < pos.toNat + count.toNat then target i else value i := by
  funext i
  by_cases hpos : i < pos.toNat
  · have hend : i < pos.toNat + count.toNat := by omega
    simp only [Buffer.splice, hpos, hend, if_true]
  · have hadd : pos.toNat + (i - pos.toNat) = i := by omega
    simp only [Buffer.splice, hpos, if_false, HostMemory.load]
    by_cases hcount : i - pos.toNat < count.toNat
    · have hend : i < pos.toNat + count.toNat := by omega
      simp only [hcount, hend, if_true]
      rw [h _ hcount, hadd]
    · have hend : ¬ i < pos.toNat + count.toNat := by omega
      simp only [hcount, hend, if_false, Buffer.from, hadd, hpos]

/-- Reading chunks whose host bytes are those of `target` fills the buffer with them. -/
theorem run_reads {target : Buffer}
    (hchunks : ∀ c ∈ pageChunks laddr size, ∃ paddr copy,
      ((g.context mem).walk c.laddr).result = some paddr ∧
      memCopy g.regions paddr c.size = some copy ∧ copy.count = c.size ∧
      ∀ i < c.size.toNat, mem (copy.host + BitVec.ofNat 64 i) = target (c.pos.toNat + i))
    (value : Buffer) :
    ∃ issued, run g.memory.reads.chunkStep ((mem, value), []) (pageChunks laddr size) =
      (true, (mem, fun i => if i < size.toNat then target i else value i), issued) := by
  have hrun : ∃ t, run g.memory.reads.chunkStep ((mem, value), []) (pageChunks laddr size) =
      (true, t) ∧ t.1.1 = mem ∧ t.1.2 =
        fun i => if i < chunkBytes (pageChunks laddr size) then target i else value i := by
    refine run_of_steps
      (P := fun before (t : (HostMemory × Buffer) × List PhysicalAccess) => t.1.1 = mem ∧
        t.1.2 = fun i => if i < chunkBytes before then target i else value i)
      ⟨rfl, by simp [chunkBytes]⟩ ?_
    rintro before c after ⟨⟨m, v⟩, calls⟩ hsplit ⟨hm, hv⟩
    have hpos := pos_eq_chunkBytes hsplit
    rw [← hpos] at hv
    simp only at hm hv
    subst hm hv
    obtain ⟨paddr, copy, htranslate, hcopy, hcount, hbytes⟩ := hchunks c (by simp [hsplit])
    refine ⟨_, reads_chunkStep htranslate hcopy, rfl, ?_⟩
    rw [← hcount] at hbytes
    rw [splice_load hbytes, chunkBytes_append, hpos, hcount]
  obtain ⟨⟨⟨mem', value'⟩, issued⟩, hrun, rfl, rfl⟩ := hrun
  rw [chunkBytes_pageChunks] at hrun
  exact ⟨issued, hrun⟩

/-- Host memory after a chunk has been written behind the ones before it. -/
theorem store_store {host pos count : U64} (h : pos.toNat + count.toNat ≤ 2 ^ 64) :
    HostMemory.store
      (fun a => if (a - host).toNat < pos.toNat then data (a - host).toNat else mem a)
      (host + pos) (data.from pos) count =
      fun a => if (a - host).toNat < pos.toNat + count.toNat then data (a - host).toNat
        else mem a := by
  funext a
  have hoff : a - (host + pos) = a - host - pos := by grind
  generalize hd : a - host = d at hoff ⊢
  simp only [HostMemory.store, hoff, hd]
  by_cases hbefore : d.toNat < pos.toNat
  · have hout : ¬ (d - pos).toNat < count.toNat := by bv_omega
    have hin : d.toNat < pos.toNat + count.toNat := by omega
    simp only [hout, hbefore, hin, if_true, if_false]
  · have hsub : (d - pos).toNat = d.toNat - pos.toNat := by bv_omega
    have hiff : d.toNat - pos.toNat < count.toNat ↔ d.toNat < pos.toNat + count.toNat := by omega
    have hadd : pos.toNat + (d.toNat - pos.toNat) = d.toNat := by omega
    simp only [hsub, hiff, hbefore, if_false, Buffer.from, hadd]

/-- Writing chunks that follow one another in host memory too stores the whole buffer. -/
theorem run_writes {host : U64}
    (hchunks : ∀ mem, ∀ c ∈ pageChunks laddr size, ∃ paddr copy,
      ((g.context mem).walk c.laddr).result = some paddr ∧
      memCopy g.regions paddr c.size = some copy ∧ copy.count = c.size ∧
      copy.host = host + c.pos)
    (mem : HostMemory) (data : Buffer) :
    ∃ issued, run (g.memory.writes data).chunkStep (mem, []) (pageChunks laddr size) =
      (true, mem.store host data size, issued) := by
  have hrun : ∃ t, run (g.memory.writes data).chunkStep (mem, []) (pageChunks laddr size) =
      (true, t) ∧ t.1 = fun a => if (a - host).toNat < chunkBytes (pageChunks laddr size)
        then data (a - host).toNat else mem a := by
    refine run_of_steps
      (P := fun before (t : HostMemory × List PhysicalAccess) => t.1 = fun a =>
        if (a - host).toNat < chunkBytes before then data (a - host).toNat else mem a)
      (by simp [chunkBytes]) ?_
    rintro before c after ⟨m, calls⟩ hsplit hm
    have hpos := pos_eq_chunkBytes hsplit
    have hle := chunkBytes_add_le hsplit
    have hlt := size.isLt
    rw [← hpos] at hm
    simp only at hm
    subst hm
    obtain ⟨paddr, copy, htranslate, hcopy, hcount, hhost⟩ := hchunks _ c (by simp [hsplit])
    refine ⟨_, writes_chunkStep htranslate hcopy, ?_⟩
    simp only [hcount, hhost]
    rw [store_store (by omega), chunkBytes_append, hpos]
  obtain ⟨⟨mem', issued⟩, hrun, rfl⟩ := hrun
  rw [chunkBytes_pageChunks] at hrun
  exact ⟨issued, hrun⟩

/-! ## Reading back what was written -/

/-- No host byte belongs to two of the accesses. -/
def DisjointWindows (g : Guest) (calls : List PhysicalAccess) : Prop :=
  calls.Pairwise fun x y => ∀ a, ¬ (g.Window x.paddr x.size a ∧ g.Window y.paddr y.size a)

/-- No host byte of the accesses belongs to a paging entry that is read in `mem` to translate a
page of the range. -/
def SparesEntries (g : Guest) (mem : HostMemory) (laddr size : U64)
    (calls : List PhysicalAccess) : Prop :=
  ∀ x ∈ calls, ∀ c ∈ pageChunks laddr size, ∀ e ∈ ((g.context mem).walk c.laddr).reads, ∀ a,
    ¬ (g.Window x.paddr x.size a ∧ g.Window e.1 (BitVec.ofNat 64 e.2) a)

/-- `mem` has become `mem'` through the accesses: other bytes are unchanged, and each access, at
the address its page translates to in `mem`, has stored its part of `data`. -/
structure Written (g : Guest) (mem : HostMemory) (data : Buffer) (calls : List PhysicalAccess)
    (mem' : HostMemory) : Prop where
  frame : ∀ a, (∀ x ∈ calls, ¬ g.Window x.paddr x.size a) → mem' a = mem a
  translated : ∀ x ∈ calls, ((g.context mem).walk x.laddr).result = some x.paddr
  stored : ∀ x ∈ calls, ∃ copy, memCopy g.regions x.paddr x.size = some copy ∧
    copy.count = x.size ∧
    ∀ i < x.size.toNat, mem' (copy.host + BitVec.ofNat 64 i) = data (x.pos.toNat + i)

theorem copy_window {i : ℕ} (hi : i < copy.count.toNat) :
    copy.Window (copy.host + BitVec.ofNat 64 i) := by
  rw [MemCopy.Window, window_offset hi]
  exact hi

/-- In a memory written to, the pages of the range translate as before. -/
theorem Written.walk_eq (h : g.Written mem data calls mem')
    (hw : ∀ r ∈ g.regions, r.NonWrapping) (hentries : g.SparesEntries mem laddr size calls)
    (hc : c ∈ pageChunks laddr size) (entry : Buffer) :
    (({ g with entry } : Guest).context mem').walk c.laddr = (g.context mem).walk c.laddr := by
  refine Guest.walk_eq hw entry fun e he a ha => h.frame a fun x hx hwindow => ?_
  exact hentries x hx c hc e he a ⟨hwindow, ha⟩

/-- One more chunk written. -/
theorem Written.snoc (h : g.Written mem data calls mem')
    (hdisjoint : g.DisjointWindows (calls ++ [⟨c, paddr, true⟩]))
    (htranslate : ((g.context mem).walk c.laddr).result = some paddr)
    (hcopy : memCopy g.regions paddr c.size = some copy) (hcount : copy.count = c.size) :
    g.Written mem data (calls ++ [⟨c, paddr, true⟩])
      (mem'.store copy.host (data.from c.pos) copy.count) := by
  have hlast : ∀ x ∈ calls, ∀ a, ¬ (g.Window x.paddr x.size a ∧ g.Window paddr c.size a) := by
    intro x hx
    exact (List.pairwise_append.mp hdisjoint).2.2 x hx _ (List.mem_singleton_self _)
  constructor
  · intro a ha
    rw [HostMemory.store_of_not_window fun hwindow =>
      ha _ (List.mem_append_right _ (List.mem_singleton_self _)) ⟨copy, hcopy, hwindow⟩]
    exact h.frame a fun x hx => ha x (List.mem_append_left _ hx)
  · intro x hx
    rcases List.mem_append.mp hx with hx | hx
    · exact h.translated x hx
    · rw [List.mem_singleton.mp hx]
      exact htranslate
  · intro x hx
    rcases List.mem_append.mp hx with hx | hx
    · obtain ⟨copy', hcopy', hcount', hbytes⟩ := h.stored x hx
      refine ⟨copy', hcopy', hcount', fun i hi => ?_⟩
      rw [← hbytes i hi]
      refine HostMemory.store_of_not_window fun hwindow => ?_
      exact hlast x hx _ ⟨⟨copy', hcopy', copy_window (hcount' ▸ hi)⟩, ⟨copy, hcopy, hwindow⟩⟩
    · rw [List.mem_singleton.mp hx]
      refine ⟨copy, hcopy, hcount, fun i hi => ?_⟩
      rw [HostMemory.store_window (hcount ▸ hi)]
      rfl

/-- A run of `LMemWrite` that succeeds stores every part of the buffer. -/
theorem written_of_run (hw : ∀ r ∈ g.regions, r.NonWrapping) {issued : List PhysicalAccess}
    (h : run (g.memory.writes data).chunkStep (mem, []) (pageChunks laddr size) =
      (true, mem', issued))
    (hdisjoint : g.DisjointWindows issued) (hentries : g.SparesEntries mem laddr size issued) :
    g.Written mem data issued mem' := by
  refine run_invariant (P := fun _ (t : HostMemory × List PhysicalAccess) =>
    g.DisjointWindows t.2 → g.SparesEntries mem laddr size t.2 → g.Written mem data t.2 t.1)
    h (fun _ _ => ⟨fun _ _ => rfl, by simp, by simp⟩) ?_ hdisjoint hentries
  rintro before c after ⟨m, calls⟩ ⟨m', calls'⟩ hsplit ih hstep hdisjoint hentries
  obtain ⟨paddr, copy, htranslate, hcopy, rfl, rfl⟩ := exists_of_writes_chunkStep hstep
  have hc : c ∈ pageChunks laddr size := by simp [hsplit]
  have hbefore : g.SparesEntries mem laddr size calls :=
    fun x hx => hentries x (List.mem_append_left _ hx)
  have hwritten := ih (List.pairwise_append.mp hdisjoint).1 hbefore
  -- the pages written so far have left the entries of this one alone
  have hwalk : (g.context m).walk c.laddr = (g.context mem).walk c.laddr :=
    hwritten.walk_eq hw hbefore hc g.entry
  have hcount := chunk_count hw hc htranslate hcopy
  rw [hwalk] at htranslate
  exact hwritten.snoc hdisjoint htranslate hcopy hcount

/-- In every paging mode and for all regions that do not wrap: when `LMemWrite` returned true, the
host windows of its pages are disjoint, and none of them contains a byte of a paging entry read to
translate the range, `LMemRead` of the range returns true and yields the bytes written. -/
theorem lMemWrite_roundTrip (g : Guest) (hw : ∀ r ∈ g.regions, r.NonWrapping) (laddr size : U64)
    (data : Buffer) (mem : HostMemory) (bytesWritten : Option U64) (o : LinearOutcome HostMemory)
    (hreturns : Returns (fun fuel =>
      g.memory.lMemWrite fuel laddr size (some data) bytesWritten mem) o)
    (htrue : o.returned = true) (hdisjoint : g.DisjointWindows o.issued)
    (hentries : g.SparesEntries mem laddr size o.issued) (entry value : Buffer)
    (bytesRead : Option U64) :
    ∃ o' value', Returns (fun fuel => ({ g with entry } : Guest).memory.lMemRead fuel laddr size
        (some value) bytesRead o.state) o' ∧
      o'.returned = true ∧ o'.state = (o.state, some value') ∧
      ∀ i < size.toNat, value' i = data i := by
  rw [hreturns.unique (g.memory.lMemWrite_returns laddr size data bytesWritten mem)] at *
  rcases hrun : run (g.memory.writes data).chunkStep (mem, []) (pageChunks laddr size) with
    ⟨result, mem', issued⟩
  simp only [PageAccess.chunkOutcome, hrun] at htrue hdisjoint hentries ⊢
  subst htrue
  have hwritten := written_of_run hw hrun hdisjoint hentries
  have hchunks := ((g.memory.writes data).run_issued hrun).1
  have hbytes : ∀ c ∈ pageChunks laddr size, ∃ paddr copy,
      ((({ g with entry } : Guest).context mem').walk c.laddr).result = some paddr ∧
      memCopy g.regions paddr c.size = some copy ∧ copy.count = c.size ∧
      ∀ i < c.size.toNat, mem' (copy.host + BitVec.ofNat 64 i) = data (c.pos.toNat + i) := by
    intro c hc
    obtain ⟨x, hx, rfl⟩ := List.mem_map.mp (hchunks ▸ hc)
    obtain ⟨copy, hcopy, hcount, hstored⟩ := hwritten.stored x hx
    refine ⟨x.paddr, copy, ?_, hcopy, hcount, hstored⟩
    rw [hwritten.walk_eq hw hentries hc entry]
    exact hwritten.translated x hx
  obtain ⟨issued', hread⟩ := run_reads (g := { g with entry }) hbytes value
  exact ⟨_, _, LinearMemory.lMemRead_of_run _ bytesRead hread, rfl, rfl, fun i hi => if_pos hi⟩

/-- 32-bit paging maps the pages at 0x3000 and 0x4000 to 0x6000 and 0x5000. -/
def twoPages : Guest where
  regions := [⟨0, 0x10000, 0x100000⟩]
  regRead
    | .CR0 => .ok 0x80000000
    | .CR3 => .ok 0x1000
    | _ => .ok 0
  entry := fun _ => 0

def twoPagesMemory : HostMemory := fun a =>
  if a = 0x101000 then 0x01 else if a = 0x101001 then 0x20
  else if a = 0x10200C then 0x01 else if a = 0x10200D then 0x60
  else if a = 0x102010 then 0x01 else if a = 0x102011 then 0x50
  else 0

/-- Eight bytes written across the two pages are read back. -/
theorem lMemWrite_roundTrip_twoPages :
    let data : Buffer := fun i => BitVec.ofNat 8 i
    ∃ o, Returns (fun fuel => twoPages.memory.lMemWrite fuel 0x3FFC 8 (some data) none
        twoPagesMemory) o ∧
      ∃ o' value', Returns (fun fuel => twoPages.memory.lMemRead fuel 0x3FFC 8
          (some fun _ => 0) none o.state) o' ∧
        o'.returned = true ∧ o'.state = (o.state, some value') ∧
        ∀ i < (8 : U64).toNat, value' i = data i := by
  intro data
  have hreturns := twoPages.memory.lMemWrite_returns 0x3FFC 8 data none twoPagesMemory
  have htrue : ((twoPages.memory.writes data).chunkOutcome 0x3FFC 8 none
      twoPagesMemory).returned = true := by decide +kernel
  have hissued : ((twoPages.memory.writes data).chunkOutcome 0x3FFC 8 none
      twoPagesMemory).issued =
        [⟨⟨0x3FFC, 4, 0⟩, 0x6FFC, true⟩, ⟨⟨0x4000, 4, 4⟩, 0x5000, true⟩] := by decide +kernel
  have hchunks : pageChunks 0x3FFC 8 = [⟨0x3FFC, 4, 0⟩, ⟨0x4000, 4, 4⟩] := by decide +kernel
  have hwalk₁ : ((twoPages.context twoPagesMemory).walk 0x3FFC).reads =
      [(0x1000, 4), (0x200C, 4)] := by decide +kernel
  have hwalk₂ : ((twoPages.context twoPagesMemory).walk 0x4000).reads =
      [(0x1000, 4), (0x2010, 4)] := by decide +kernel
  -- the host bytes of a request are at the same distance for all of them
  have hwindow (paddr : U64) (hpaddr : paddr ∈ [0x6FFC, 0x5000, 0x1000, 0x200C, 0x2010]) (a : U64) :
      twoPages.Window paddr 4 a ↔ (a - (0x100000 + paddr)).toNat < 4 := by
    have hcopy : memCopy twoPages.regions paddr 4 =
        some ⟨⟨0, 0x10000, 0x100000⟩, 0x100000 + paddr, 4⟩ := by
      simp only [List.mem_cons, List.not_mem_nil, or_false] at hpaddr
      rcases hpaddr with rfl | rfl | rfl | rfl | rfl <;> decide +kernel
    exact window_iff hcopy a
  have hdisjoint : twoPages.DisjointWindows ((twoPages.memory.writes data).chunkOutcome 0x3FFC 8
      none twoPagesMemory).issued := by
    rw [hissued]
    simp only [DisjointWindows, List.pairwise_cons, List.mem_singleton, forall_eq,
      List.not_mem_nil, false_imp_iff, implies_true, List.Pairwise.nil, and_true]
    intro a
    rw [hwindow 0x6FFC (by simp), hwindow 0x5000 (by simp)]
    bv_omega
  have hentries : twoPages.SparesEntries twoPagesMemory 0x3FFC 8
      ((twoPages.memory.writes data).chunkOutcome 0x3FFC 8 none twoPagesMemory).issued := by
    have hsize : BitVec.ofNat 64 4 = (4 : U64) := rfl
    rw [hissued, SparesEntries, hchunks]
    simp only [List.forall_mem_cons, hsize, hwalk₁, hwalk₂, List.not_mem_nil, false_imp_iff,
      implies_true, and_true, hwindow 0x6FFC (by simp), hwindow 0x5000 (by simp),
      hwindow 0x1000 (by simp), hwindow 0x200C (by simp), hwindow 0x2010 (by simp)]
    refine ⟨⟨⟨?_, ?_⟩, ?_, ?_⟩, ⟨?_, ?_⟩, ?_, ?_⟩ <;> intro a <;> bv_omega
  exact ⟨_, hreturns, lMemWrite_roundTrip twoPages (by simp [twoPages, MemoryRegion.NonWrapping])
    0x3FFC 8 data twoPagesMemory none _ hreturns htrue hdisjoint hentries (fun _ => 0) (fun _ => 0)
    none⟩

end Guest

/-! ## Accesses without paging -/

/-- No guest physical address belongs to both regions. -/
def MemoryRegion.Disjoint (r s : MemoryRegion) : Prop := ∀ a, ¬ (r.Contains a ∧ s.Contains a)

instance : Std.Symm MemoryRegion.Disjoint where
  symm _ _ h a := fun ⟨hs, hr⟩ => h a ⟨hr, hs⟩

/-- Among disjoint regions, the region that covers a non-empty request is the one selected. -/
theorem memCopy_of_covers {regions : List MemoryRegion} (hw : ∀ r ∈ regions, r.NonWrapping)
    (hdisjoint : regions.Pairwise MemoryRegion.Disjoint) {r : MemoryRegion} (hr : r ∈ regions)
    {paddr size : U64} (hfits : RangeFits paddr size) (hsize : 0 < size.toNat)
    (hcovers : r.Covers paddr size) :
    memCopy regions paddr size = some ⟨r, r.hostMemory + paddr - r.baseAddress, size⟩ := by
  have hcontains : ∀ s : MemoryRegion, s.Covers paddr size → s.Contains paddr := by
    intro s hs
    simpa using hs.contains hfits hsize
  have hsome : (coveringRegion regions paddr size).isSome := by
    rw [coveringRegion, List.find?_isSome]
    exact ⟨r, by simpa using hr, by simpa using hcovers⟩
  obtain ⟨s, hs⟩ := Option.isSome_iff_exists.mp hsome
  have hmem : s ∈ regions := by simpa using List.mem_of_find?_eq_some hs
  have hcov : s.Covers paddr size := by simpa using List.find?_some hs
  have heq : s = r := by
    by_contra hne
    exact hdisjoint.forall hmem hr hne paddr ⟨hcontains s hcov, hcontains r hcovers⟩
  rw [memCopy_eq_covering hw hfits hsize, hs, heq, Option.map_some]

namespace Guest

variable {g : Guest} {mem : HostMemory} {value : Buffer} {laddr size : U64}

/-- The registers of the walk can be read, and `CR0.PG` is clear. -/
def PagingDisabled (g : Guest) : Prop :=
  ∃ cr0 cr4 efer, g.regRead .CR0 = .ok cr0 ∧ g.regRead .CR4 = .ok cr4 ∧
    g.regRead .EFER = .ok efer ∧ cr0.u64 &&& CR0_PG = 0

theorem PagingDisabled.walk_result (h : g.PagingDisabled) (mem : HostMemory)
    (hlow : laddr.toNat < 2 ^ 32) : ((g.context mem).walk laddr).result = some laddr := by
  obtain ⟨cr0, cr4, efer, hcr0, hcr4, hefer, hpg⟩ := h
  have hmask : laddr &&& 0xFFFFFFFF = laddr := by
    apply BitVec.eq_of_toNat_eq
    have hand : (laddr &&& 0xFFFFFFFF).toNat = laddr.toNat &&& (2 ^ 32 - 1) := rfl
    rw [hand, Nat.and_two_pow_sub_one_eq_mod, Nat.mod_eq_of_lt hlow]
  simp only [PagingContext.walk, PagingContext.readReg, context, hcr0, hcr4, hefer,
    Walk.pure_bind, hpg, if_true, hmask]
  rfl

/-- Each chunk of a range in one region goes to its own part of the region's host block. -/
theorem chunk_of_covers (hpaging : g.PagingDisabled) (hw : ∀ r ∈ g.regions, r.NonWrapping)
    (hdisjoint : g.regions.Pairwise MemoryRegion.Disjoint)
    (hrange : laddr.toNat + size.toNat ≤ 2 ^ 32) {r : MemoryRegion} (hr : r ∈ g.regions)
    (hcovers : r.Covers laddr size) (mem : HostMemory) {c : PageChunk}
    (hc : c ∈ pageChunks laddr size) :
    c.pos.toNat + c.size.toNat ≤ size.toNat ∧
    ((g.context mem).walk c.laddr).result = some c.laddr ∧
    memCopy g.regions c.laddr c.size =
      some ⟨r, r.hostMemory + laddr - r.baseAddress + c.pos, c.size⟩ := by
  obtain ⟨before, after, hsplit⟩ := List.append_of_mem hc
  have hend : c.pos.toNat + c.size.toNat ≤ size.toNat :=
    pos_eq_chunkBytes hsplit ▸ chunkBytes_add_le hsplit
  have hsize := (partitions_pageChunks laddr size).nonempty c hc
  have hladdr := (partitions_pageChunks laddr size).laddr_eq c hc
  have htoNat : c.laddr.toNat = laddr.toNat + c.pos.toNat := by
    rw [hladdr, BitVec.toNat_add]
    omega
  obtain ⟨hlo, hhi⟩ := hcovers
  have hfits : RangeFits c.laddr c.size := by
    rw [RangeFits]
    omega
  have hcopy := memCopy_of_covers hw hdisjoint hr hfits hsize ⟨by omega, by omega⟩
  have hhost : r.hostMemory + c.laddr - r.baseAddress =
      r.hostMemory + laddr - r.baseAddress + c.pos := by
    rw [hladdr]
    grind
  rw [hhost] at hcopy
  exact ⟨hend, hpaging.walk_result mem (by omega), hcopy⟩

/-- An access of no bytes goes through no chunks. -/
theorem pageChunks_of_zero (h : size.toNat = 0) : pageChunks laddr size = [] := by
  simp [pageChunks, PageCuts.pages, h]

/-- A copy for an access of no bytes copies none. -/
theorem memCopy_count_of_zero {regions : List MemoryRegion} {paddr : U64} {copy : MemCopy}
    (hsize : size.toNat = 0) (h : memCopy regions paddr size = some copy) :
    copy.count.toNat = 0 := by
  have hle := (findCopy_some h).2.2.2.2
  rw [BitVec.le_def] at hle
  omega

/-- Chunk by chunk, the range is copied as a whole. -/
theorem runs_of_copy (hpaging : g.PagingDisabled) (hw : ∀ r ∈ g.regions, r.NonWrapping)
    (hdisjoint : g.regions.Pairwise MemoryRegion.Disjoint)
    (hrange : laddr.toNat + size.toNat ≤ 2 ^ 32) {copy : MemCopy}
    (hcopy : memCopy g.regions laddr size = some copy) (mem : HostMemory) (value : Buffer) :
    (∃ issued, run g.memory.reads.chunkStep ((mem, value), []) (pageChunks laddr size) =
      (true, (mem, mem.load copy.host copy.count value), issued)) ∧
    ∃ issued, run (g.memory.writes value).chunkStep (mem, []) (pageChunks laddr size) =
      (true, mem.store copy.host value copy.count, issued) := by
  rcases Nat.eq_zero_or_pos size.toNat with hzero | hsize
  · have hcount := memCopy_count_of_zero hzero hcopy
    have hload : mem.load copy.host copy.count value = value := by
      funext i
      simp [HostMemory.load, hcount]
    have hstore : mem.store copy.host value copy.count = mem := by
      funext a
      simp [HostMemory.store, hcount]
    rw [pageChunks_of_zero hzero, hload, hstore]
    exact ⟨⟨[], rfl⟩, [], rfl⟩
  · rw [memCopy_eq_covering hw (by rw [RangeFits]; omega) hsize] at hcopy
    obtain ⟨r, hcovering, rfl⟩ := Option.map_eq_some_iff.mp hcopy
    have hr : r ∈ g.regions := by simpa using List.mem_of_find?_eq_some hcovering
    have hcovers : r.Covers laddr size := by simpa using List.find?_some hcovering
    have hchunk := fun m {c} => chunk_of_covers hpaging hw hdisjoint hrange hr hcovers m (c := c)
    constructor
    · have hbuffer : (fun i => if i < size.toNat
          then mem.load (r.hostMemory + laddr - r.baseAddress) size value i else value i) =
          mem.load (r.hostMemory + laddr - r.baseAddress) size value := by
        funext i
        simp only [HostMemory.load]
        split_ifs <;> rfl
      rw [← hbuffer]
      refine run_reads (fun c hc => ?_) value
      obtain ⟨hend, hwalk, hcopy⟩ := hchunk mem hc
      refine ⟨_, _, hwalk, hcopy, rfl, fun i hi => ?_⟩
      have hoffset : c.pos + BitVec.ofNat 64 i = BitVec.ofNat 64 (c.pos.toNat + i) := by
        rw [BitVec.ofNat_add, BitVec.ofNat_toNat, BitVec.setWidth_eq]
      rw [HostMemory.load, if_pos (by omega), BitVec.add_assoc, hoffset]
    · refine run_writes (fun m c hc => ?_) mem value
      obtain ⟨-, hwalk, hcopy⟩ := hchunk m hc
      exact ⟨_, _, hwalk, hcopy, rfl, rfl⟩

/-- With paging disabled and disjoint regions that do not wrap, in the first 2^32 addresses:
whenever `MemRead` or `MemWrite` of the range succeeds, `LMemRead` or `LMemWrite` succeeds and
leaves the same buffer or the same host memory. -/
theorem lMemAccess_eq_memAccess (g : Guest) (hpaging : g.PagingDisabled)
    (hw : ∀ r ∈ g.regions, r.NonWrapping) (hdisjoint : g.regions.Pairwise MemoryRegion.Disjoint)
    (laddr size : U64) (hrange : laddr.toNat + size.toNat ≤ 2 ^ 32) (mem : HostMemory)
    (value : Buffer) (count : Option U64) :
    ((memReadEffect mem g.regions laddr size value).1 = true →
      ∃ o, Returns (fun fuel => g.memory.lMemRead fuel laddr size (some value) count mem) o ∧
        o.returned = true ∧
        o.state = (mem, some (memReadEffect mem g.regions laddr size value).2)) ∧
    ((memWriteEffect mem g.regions laddr size value).1 = true →
      ∃ o, Returns (fun fuel => g.memory.lMemWrite fuel laddr size (some value) count mem) o ∧
        o.returned = true ∧
        o.state = (memWriteEffect mem g.regions laddr size value).2) := by
  cases hcopy : memCopy g.regions laddr size with
  | none =>
    rw [memReadEffect_of_none hcopy, memWriteEffect_of_none hcopy]
    exact ⟨fun h => absurd h (by simp), fun h => absurd h (by simp)⟩
  | some copy =>
    rw [memReadEffect_of_some hcopy, memWriteEffect_of_some hcopy]
    obtain ⟨⟨issued, hread⟩, issued', hwrite⟩ :=
      runs_of_copy hpaging hw hdisjoint hrange hcopy mem value
    exact ⟨fun _ => ⟨_, LinearMemory.lMemRead_of_run _ count hread, rfl, rfl⟩,
      fun _ => ⟨_, LinearMemory.lMemWrite_of_run _ count hwrite, rfl, rfl⟩⟩

/-- Sixteen bytes across a page border inside one of two regions. -/
theorem lMemAccess_eq_memAccess_across_pages :
    let g : Guest := ⟨[⟨0x1000, 0x2000, 0x10000⟩, ⟨0x4000, 0x1000, 0x20000⟩], fun _ => .ok 0,
      fun _ => 0⟩
    let data : Buffer := fun i => BitVec.ofNat 8 i
    ∃ o, Returns (fun fuel => g.memory.lMemWrite fuel 0x1FF8 16 (some data) none fun _ => 0) o ∧
      o.returned = true ∧ o.state = (memWriteEffect (fun _ => 0) g.regions 0x1FF8 16 data).2 := by
  intro g data
  have hpaging : g.PagingDisabled := ⟨0, 0, 0, rfl, rfl, rfl, by decide +kernel⟩
  have hdisjoint : g.regions.Pairwise MemoryRegion.Disjoint := by
    simp only [g, List.pairwise_cons, List.mem_singleton, forall_eq, List.not_mem_nil,
      false_imp_iff, implies_true, List.Pairwise.nil, and_true]
    intro a
    simp only [MemoryRegion.Contains]
    bv_omega
  have heq := lMemAccess_eq_memAccess g hpaging (by simp [g, MemoryRegion.NonWrapping]) hdisjoint
    0x1FF8 16 (by decide) (fun _ => 0) data none
  exact heq.2 (by decide +kernel)

end Guest

end Virt86
