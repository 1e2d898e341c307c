import Virt86.DescriptorLimits
import Virt86.LinearTransfers

/-!
# The addresses of descriptor tables

The bases in GDTR and IDTR are linear addresses. The accessors of the tables pass them to `MemRead`
and `MemWrite`, so they reach the bytes that `LMemRead` and `LMemWrite` would only where the page
walk leads back to the address it starts from.
-/

namespace Virt86

open BitSlices StoppingRuns

/-! ## The physical bytes of an access -/

def physicalBytes (paddr size : U64) : List U64 :=
  (List.range size.toNat).map fun i => paddr + BitVec.ofNat 64 i

/-- The physical bytes a linear access goes to, in its order. -/
def accessedBytes (issued : List PhysicalAccess) : List U64 :=
  issued.flatMap fun a => physicalBytes a.paddr a.size

/-- The bytes a linear access transferred, unless it returned false. -/
def LinearOutcome.bytes {σ : Type} (o : LinearOutcome σ) : Option (List U64) :=
  if o.returned then some (accessedBytes o.issued) else none

/-- The bytes a physical access transferred, unless it returned false. -/
def TableAccess.bytes (call : TableAccess) : Option (List U64) :=
  if call.succeeded then some (physicalBytes call.paddr call.size) else none

theorem physicalBytes_inj {paddr paddr' size : U64} (hsize : 0 < size.toNat) :
    physicalBytes paddr size = physicalBytes paddr' size ↔ paddr = paddr' := by
  refine ⟨fun h => ?_, fun h => by rw [h]⟩
  have hhead := congrArg List.head? h
  simpa [physicalBytes, List.head?_range, show size.toNat ≠ 0 by omega] using hhead

/-- The bytes of consecutive chunks are those of the range. -/
theorem Contiguous.flatMap_physicalBytes {laddr : U64} {last : ℕ} : ∀ {pos : ℕ}
    {cs : List PageChunk}, Contiguous last pos cs → (∀ c ∈ cs, c.laddr = laddr + c.pos) →
      cs.flatMap (fun c => physicalBytes c.laddr c.size) =
        (List.range' pos (last - pos)).map fun i => laddr + BitVec.ofNat 64 i := by
  intro pos cs
  induction cs generalizing pos with
  | nil =>
    intro h _
    obtain rfl : pos = last := h
    simp
  | cons c cs ih =>
    rintro ⟨hpos, hrest⟩ hladdr
    have hchunk : physicalBytes c.laddr c.size =
        (List.range' pos c.size.toNat).map fun i => laddr + BitVec.ofNat 64 i := by
      rw [physicalBytes, List.range'_eq_map_range, List.map_map, hladdr c (by simp), ← hpos]
      apply List.map_congr_left
      intro i _
      rw [Function.comp_apply, BitVec.ofNat_add, BitVec.ofNat_toNat, BitVec.setWidth_eq,
        BitVec.add_assoc]
    have hsum := hrest.sum_size
    rw [List.flatMap_cons, hchunk, ih hrest fun c' hc' => hladdr c' (by simp [hc']),
      ← List.map_append, List.range'_append_1]
    congr 2
    omega

theorem flatMap_pageChunks (laddr size : U64) :
    (pageChunks laddr size).flatMap (fun c => physicalBytes c.laddr c.size) =
      physicalBytes laddr size := by
  have hpart := partitions_pageChunks laddr size
  rw [hpart.contiguous.flatMap_physicalBytes hpart.laddr_eq, physicalBytes, Nat.sub_zero,
    List.range_eq_range']

/-- Parts of equal lengths, put together, are the same exactly when each is. -/
theorem flatMap_eq_flatMap_iff {α β : Type} {l : List α} {f h : α → List β}
    (hlength : ∀ a ∈ l, (f a).length = (h a).length) :
    l.flatMap f = l.flatMap h ↔ ∀ a ∈ l, f a = h a := by
  induction l with
  | nil => simp
  | cons a l ih =>
    rw [List.flatMap_cons, List.flatMap_cons, List.forall_mem_cons,
      ← ih fun b hb => hlength b (by simp [hb])]
    exact ⟨fun heq => List.append_inj heq (hlength a (by simp)), fun heq => by rw [heq.1, heq.2]⟩

/-! ## Accesses in place -/

namespace PageAccess

variable {σ : Type} (p : PageAccess σ)

/-- Each chunk, in the state the ones before it have led to, translates to its own address and is
accessed there. -/
def ActsInPlace : σ → List PageChunk → Prop
  | _, [] => True
  | s, c :: cs => ∃ s₁ s₂, p.linearToPhysical c.laddr s = (some c.laddr, s₁) ∧
      p.access c.laddr c.size c.pos s₁ = (true, s₂) ∧ ActsInPlace s₂ cs

/-- Some chunk, in the state the ones before it have led to, is not translated or cannot be accessed
where it translates to. -/
def Faults : σ → List PageChunk → Prop
  | _, [] => False
  | s, c :: cs => ∀ paddr s₁ s₂, p.linearToPhysical c.laddr s = (some paddr, s₁) →
      p.access paddr c.size c.pos s₁ = (true, s₂) → Faults s₂ cs

section Cons

variable {p} {s s₁ s₂ : σ} {c : PageChunk} {cs : List PageChunk} {paddr : U64}

theorem faults_cons_of_none (htranslate : p.linearToPhysical c.laddr s = (none, s₁)) :
    p.Faults s (c :: cs) := by
  intro paddr t₁ t₂ ht
  exact absurd (htranslate.symm.trans ht) (by simp)

variable (htranslate : p.linearToPhysical c.laddr s = (some paddr, s₁))

include htranslate

theorem faults_cons_of_false (haccess : p.access paddr c.size c.pos s₁ = (false, s₂)) :
    p.Faults s (c :: cs) := by
  intro paddr' t₁ t₂ ht ha
  obtain ⟨hpaddr, rfl⟩ := Prod.mk.inj (htranslate.symm.trans ht)
  rw [Option.some.inj hpaddr] at haccess
  exact absurd (haccess.symm.trans ha) (by simp)

theorem faults_cons_of_true (haccess : p.access paddr c.size c.pos s₁ = (true, s₂)) :
    p.Faults s (c :: cs) ↔ p.Faults s₂ cs := by
  refine ⟨fun h => h paddr s₁ s₂ htranslate haccess, fun h paddr' t₁ t₂ ht ha => ?_⟩
  obtain ⟨hpaddr, rfl⟩ := Prod.mk.inj (htranslate.symm.trans ht)
  obtain rfl := Option.some.inj hpaddr
  obtain ⟨-, rfl⟩ := Prod.mk.inj (haccess.symm.trans ha)
  exact h

end Cons

theorem run_false_iff_faults (s : σ) (calls : List PhysicalAccess) (cs : List PageChunk) :
    (run p.chunkStep (s, calls) cs).1 = false ↔ p.Faults s cs := by
  induction cs generalizing s calls with
  | nil => simp [run, Faults]
  | cons c cs ih =>
    obtain ⟨s₁, htranslate, hstep⟩ | ⟨paddr, s₁, result, s₂, htranslate, haccess, hstep⟩ :=
      p.chunkStep_cases s calls c
    · rw [run_cons_of_false (by rw [hstep])]
      exact iff_of_true rfl (faults_cons_of_none htranslate)
    · cases result with
      | false =>
        rw [run_cons_of_false (by rw [hstep])]
        exact iff_of_true rfl (faults_cons_of_false htranslate haccess)
      | true =>
        rw [run_cons_of_true (by rw [hstep]), hstep, ih, faults_cons_of_true htranslate haccess]

/-- The accesses made before a run stay in front of its own. -/
theorem run_prepend (s : σ) (calls : List PhysicalAccess) (cs : List PageChunk) :
    run p.chunkStep (s, calls) cs = ((run p.chunkStep (s, []) cs).1,
      (run p.chunkStep (s, []) cs).2.1, calls ++ (run p.chunkStep (s, []) cs).2.2) := by
  induction cs generalizing s calls with
  | nil => simp [run]
  | cons c cs ih =>
    obtain ⟨s₁, htranslate, -⟩ | ⟨paddr, s₁, result, s₂, htranslate, haccess, -⟩ :=
      p.chunkStep_cases s calls c
    · have hstep (calls : List PhysicalAccess) : p.chunkStep (s, calls) c = (false, s₁, calls) := by
        simp only [chunkStep, htranslate]
      simp [run, hstep]
    · have hstep (calls : List PhysicalAccess) :
          p.chunkStep (s, calls) c = (result, s₂, calls ++ [⟨c, paddr, result⟩]) := by
        simp only [chunkStep, htranslate, haccess]
      cases result with
      | false => simp [run, hstep]
      | true =>
        simp only [run, hstep, if_true]
        rw [ih s₂ (calls ++ _), ih s₂ ([] ++ _)]
        simp

/-- A run succeeds with all chunks at their own addresses exactly when it acts in place. -/
theorem run_inPlace_iff {s : σ} {cs : List PageChunk} :
    (∃ s' issued, run p.chunkStep (s, []) cs = (true, s', issued) ∧
      ∀ a ∈ issued, a.paddr = a.laddr) ↔ p.ActsInPlace s cs := by
  induction cs generalizing s with
  | nil => simp [run, ActsInPlace]
  | cons c cs ih =>
    rw [ActsInPlace]
    obtain ⟨s₁, htranslate, hstep⟩ | ⟨paddr, s₁, result, s₂, htranslate, haccess, hstep⟩ :=
      p.chunkStep_cases s [] c
    · simp [run, hstep, htranslate]
    · cases result with
      | false =>
        rw [run_cons_of_false (by rw [hstep])]
        refine iff_of_false (by simp) ?_
        rintro ⟨t₁, t₂, ht, ha, -⟩
        obtain ⟨hpaddr, rfl⟩ := Prod.mk.inj (htranslate.symm.trans ht)
        rw [Option.some.inj hpaddr] at haccess
        exact absurd (haccess.symm.trans ha) (by simp)
      | true =>
        rw [run_cons_of_true (by rw [hstep]), hstep, run_prepend]
        rcases hrest : run p.chunkStep (s₂, []) cs with ⟨result, t, later⟩
        constructor
        · rintro ⟨s', issued, hrun, hplace⟩
          obtain ⟨rfl, rfl, rfl⟩ := hrun
          have hpaddr : paddr = c.laddr := hplace ⟨c, paddr, true⟩ (by simp)
          subst hpaddr
          have hlater : ∀ a ∈ later, a.paddr = a.laddr :=
            fun a ha => hplace a (List.mem_append_right _ ha)
          exact ⟨s₁, s₂, htranslate, haccess, ih.mp ⟨t, later, hrest, hlater⟩⟩
        · rintro ⟨t₁, t₂, ht, ha, hacts⟩
          obtain ⟨hpaddr, rfl⟩ := Prod.mk.inj (htranslate.symm.trans ht)
          obtain rfl := Option.some.inj hpaddr
          obtain ⟨-, rfl⟩ := Prod.mk.inj (haccess.symm.trans ha)
          obtain ⟨s', issued, hrun, hplace⟩ := ih.mpr hacts
          obtain ⟨rfl, rfl, rfl⟩ := hrest.symm.trans hrun
          refine ⟨t, _, rfl, fun a ha => ?_⟩
          rcases List.mem_append.mp ha with hfirst | hlater
          · rw [List.mem_singleton.mp hfirst]
          · exact hplace a hlater

/-- A linear access returns true and goes to the physical bytes with the numbers of its range
exactly when it acts in place. -/
theorem chunkOutcome_inPlace_iff (laddr size : U64) (count : Option U64) (s : σ) :
    (p.chunkOutcome laddr size count s).returned = true ∧
        accessedBytes (p.chunkOutcome laddr size count s).issued = physicalBytes laddr size ↔
      p.ActsInPlace s (pageChunks laddr size) := by
  rw [← run_inPlace_iff]
  rcases hrun : run p.chunkStep (s, []) (pageChunks laddr size) with ⟨result, s', issued⟩
  have hreturned : (p.chunkOutcome laddr size count s).returned = result := by
    simp only [chunkOutcome, hrun]
  have hissued : (p.chunkOutcome laddr size count s).issued = issued := by
    simp only [chunkOutcome, hrun]
  rw [hreturned, hissued]
  cases result with
  | false => simp
  | true =>
    have hchunks := (p.run_issued hrun).1
    have hplace : accessedBytes issued = physicalBytes laddr size ↔
        ∀ a ∈ issued, a.paddr = a.laddr := by
      rw [← flatMap_pageChunks, ← hchunks, List.flatMap_map, accessedBytes,
        flatMap_eq_flatMap_iff (by simp [physicalBytes])]
      refine forall₂_congr fun a ha => physicalBytes_inj ?_
      exact (partitions_pageChunks laddr size).nonempty _ (hchunks ▸ List.mem_map_of_mem ha)
    rw [hplace]
    simp

/-- A linear access transfers the bytes of a physical access of the same range exactly when it acts
in place and that access succeeds, or both fail. -/
theorem chunkOutcome_bytes_iff (laddr size : U64) (count : Option U64) (s : σ) (result : Bool) :
    (p.chunkOutcome laddr size count s).bytes = (⟨laddr, size, result⟩ : TableAccess).bytes ↔
      if result then p.ActsInPlace s (pageChunks laddr size)
      else p.Faults s (pageChunks laddr size) := by
  rw [← chunkOutcome_inPlace_iff p laddr size count, ← run_false_iff_faults p s []]
  have hreturned : (p.chunkOutcome laddr size count s).returned =
      (run p.chunkStep (s, []) (pageChunks laddr size)).1 := rfl
  rw [hreturned, LinearOutcome.bytes, TableAccess.bytes, hreturned]
  cases result <;> cases (run p.chunkStep (s, []) (pageChunks laddr size)).1 <;> simp

end PageAccess

namespace Guest

variable {g : Guest} {mem : HostMemory} {value data : Buffer} {laddr size : U64}

theorem reads_translate {result : Option U64}
    (h : ((g.context mem).walk laddr).result = result) (value : Buffer) :
    g.memory.reads.linearToPhysical laddr (mem, value) = (result, mem, value) := by
  simp only [LinearMemory.reads, memory, h]

theorem reads_access_of_none (hcopy : memCopy g.regions laddr size = none) (mem : HostMemory)
    (value : Buffer) (pos : U64) : ∃ s, g.memory.reads.access laddr size pos (mem, value) =
      (false, s) := by
  simp [LinearMemory.reads, memory, memReadEffect_of_none hcopy]

theorem reads_access_of_some {copy : MemCopy} (hcopy : memCopy g.regions laddr size = some copy)
    (mem : HostMemory) (value : Buffer) (pos : U64) :
    g.memory.reads.access laddr size pos (mem, value) =
      (true, mem, value.splice pos (mem.load copy.host copy.count (value.from pos))) := by
  simp only [LinearMemory.reads, memory, memReadEffect_of_some hcopy]

/-- Reads in place depend on the walks and the regions only. -/
theorem reads_actsInPlace_iff (value : Buffer) {cs : List PageChunk} :
    g.memory.reads.ActsInPlace (mem, value) cs ↔
      ∀ c ∈ cs, ((g.context mem).walk c.laddr).result = some c.laddr ∧
        (memCopy g.regions c.laddr c.size).isSome := by
  induction cs generalizing value with
  | nil => simp [PageAccess.ActsInPlace]
  | cons c cs ih =>
    rw [PageAccess.ActsInPlace, List.forall_mem_cons]
    constructor
    · rintro ⟨s₁, s₂, htranslate, haccess, hrest⟩
      rw [reads_translate rfl] at htranslate
      obtain ⟨hwalk, rfl⟩ := Prod.mk.inj htranslate
      cases hcopy : memCopy g.regions c.laddr c.size with
      | none =>
        obtain ⟨s, hs⟩ := reads_access_of_none hcopy mem value c.pos
        exact absurd (hs.symm.trans haccess) (by simp)
      | some copy =>
        rw [reads_access_of_some hcopy] at haccess
        obtain ⟨-, rfl⟩ := Prod.mk.inj haccess
        exact ⟨⟨hwalk, rfl⟩, (ih _).mp hrest⟩
    · rintro ⟨⟨hwalk, hmapped⟩, hrest⟩
      obtain ⟨copy, hcopy⟩ := Option.isSome_iff_exists.mp hmapped
      exact ⟨_, _, reads_translate hwalk value, reads_access_of_some hcopy mem value c.pos,
        (ih _).mpr hrest⟩

theorem reads_faults_iff (value : Buffer) {cs : List PageChunk} :
    g.memory.reads.Faults (mem, value) cs ↔
      ∃ c ∈ cs, ∀ paddr, ((g.context mem).walk c.laddr).result = some paddr →
        memCopy g.regions paddr c.size = none := by
  induction cs generalizing value with
  | nil => simp [PageAccess.Faults]
  | cons c cs ih =>
    rw [List.exists_mem_cons_iff]
    cases hwalk : ((g.context mem).walk c.laddr).result with
    | none =>
      exact iff_of_true (PageAccess.faults_cons_of_none (reads_translate hwalk value))
        (.inl (by simp))
    | some paddr =>
      have htranslate := reads_translate hwalk value
      cases hcopy : memCopy g.regions paddr c.size with
      | none =>
        obtain ⟨s, hs⟩ := reads_access_of_none hcopy mem value c.pos
        exact iff_of_true (PageAccess.faults_cons_of_false htranslate hs)
          (.inl (by simpa using hcopy))
      | some copy =>
        have haccess := reads_access_of_some hcopy mem value c.pos
        rw [PageAccess.faults_cons_of_true htranslate haccess, ih]
        simp [hcopy]

/-! ## The entries of the tables -/

/-- Each access of a call transfers the bytes that `LMemRead` of as many bytes at `laddr` does, or
fails with it, whatever `LMemRead` is given to read into. -/
def ReadsThrough {σ : Type} (g : Guest) (mem : HostMemory) (laddr : U64) (o : TableOutcome σ) :
    Prop :=
  ∀ call ∈ o.issued, ∀ value count, ∃ lo,
    Returns (fun fuel => g.memory.lMemRead fuel laddr call.size (some value) count mem) lo ∧
      lo.bytes = call.bytes

/-- The same for writes of `data`, which `LMemWrite` makes in the memory before the call. -/
def WritesThrough {σ : Type} (g : Guest) (mem : HostMemory) (laddr : U64) (data : Buffer)
    (o : TableOutcome σ) : Prop :=
  ∀ call ∈ o.issued, ∀ count, ∃ lo,
    Returns (fun fuel => g.memory.lMemWrite fuel laddr call.size (some data) count mem) lo ∧
      lo.bytes = call.bytes

/-- Each access of a call goes to the physical bytes from `laddr` on, modulo 2^32. -/
def ReachesModulo {σ : Type} (laddr : U64) (o : TableOutcome σ) : Prop :=
  ∀ call ∈ o.issued, physicalBytes call.paddr call.size =
    (physicalBytes laddr call.size).map (· &&& 0xFFFFFFFF)

/-- Where `MemRead` of the range finds a region, each page of it is mapped to itself and found too;
elsewhere some page is not mapped, or not found where it is mapped. -/
def ReadsInPlace (g : Guest) (mem : HostMemory) (laddr size : U64) : Prop :=
  if (memCopy g.regions laddr size).isSome then
    ∀ c ∈ pageChunks laddr size, ((g.context mem).walk c.laddr).result = some c.laddr ∧
      (memCopy g.regions c.laddr c.size).isSome
  else
    ∃ c ∈ pageChunks laddr size, ∀ paddr, ((g.context mem).walk c.laddr).result = some paddr →
      memCopy g.regions paddr c.size = none

/-- The same for writes, where each page is looked up after the ones before it were written. -/
def WritesInPlace (g : Guest) (mem : HostMemory) (data : Buffer) (laddr size : U64) : Prop :=
  if (memCopy g.regions laddr size).isSome then
    (g.memory.writes data).ActsInPlace mem (pageChunks laddr size)
  else (g.memory.writes data).Faults mem (pageChunks laddr size)

/-- `P` holds of the sizes of the accesses that are made for a selector: of 8, and of 16 when the
first one succeeds and the descriptor `d` is one of 16 bytes. -/
def EachSize (g : Guest) (limit selector : U16) (first : Bool) (d : GenericGDTDescriptor)
    (P : U64 → Prop) : Prop :=
  selector.toNat + 8 ≤ limit.toNat → P 8 ∧
    (first = true → g.descriptorKind d = .extended → selector.toNat + 16 ≤ limit.toNat → P 16)

theorem readsThrough_call_iff (g : Guest) (mem : HostMemory) (laddr size : U64) :
    (∀ value count, ∃ lo,
      Returns (fun fuel => g.memory.lMemRead fuel laddr size (some value) count mem) lo ∧
        lo.bytes = (⟨laddr, size, (memCopy g.regions laddr size).isSome⟩ : TableAccess).bytes) ↔
      g.ReadsInPlace mem laddr size := by
  have hcall (value : Buffer) (count : Option U64) :
      (∃ lo, Returns (fun fuel => g.memory.lMemRead fuel laddr size (some value) count mem) lo ∧
        lo.bytes = (⟨laddr, size, (memCopy g.regions laddr size).isSome⟩ : TableAccess).bytes) ↔
      g.ReadsInPlace mem laddr size := by
    rw [(g.memory.lMemRead_returns laddr size value count mem).exists_iff, ReadsInPlace,
      ← reads_actsInPlace_iff value, ← reads_faults_iff value]
    exact g.memory.reads.chunkOutcome_bytes_iff laddr size count (mem, value) _
  exact ⟨fun h => (hcall (fun _ => 0) none).mp (h _ _),
    fun h value count => (hcall value count).mpr h⟩

theorem writesThrough_call_iff (g : Guest) (mem : HostMemory) (data : Buffer) (laddr size : U64) :
    (∀ count, ∃ lo,
      Returns (fun fuel => g.memory.lMemWrite fuel laddr size (some data) count mem) lo ∧
        lo.bytes = (⟨laddr, size, (memCopy g.regions laddr size).isSome⟩ : TableAccess).bytes) ↔
      g.WritesInPlace mem data laddr size := by
  have hcall (count : Option U64) :
      (∃ lo, Returns (fun fuel => g.memory.lMemWrite fuel laddr size (some data) count mem) lo ∧
        lo.bytes = (⟨laddr, size, (memCopy g.regions laddr size).isSome⟩ : TableAccess).bytes) ↔
      g.WritesInPlace mem data laddr size := by
    rw [(g.memory.lMemWrite_returns laddr size data count mem).exists_iff, WritesInPlace]
    exact (g.memory.writes data).chunkOutcome_bytes_iff laddr size count mem _
  exact ⟨fun h => (hcall none).mp (h _), fun h count => (hcall count).mpr h⟩

section Counterexamples

variable {σ : Type} {o : TableOutcome σ} {c : TableAccess}

theorem not_readsThrough (hcall : c ∈ o.issued)
    (hbytes : (g.memory.reads.chunkOutcome laddr c.size none (mem, fun _ => 0)).bytes ≠ c.bytes) :
    ¬ g.ReadsThrough mem laddr o := by
  intro h
  obtain ⟨lo, hlo, heq⟩ := h c hcall (fun _ => 0) none
  rw [hlo.unique (g.memory.lMemRead_returns laddr c.size (fun _ => 0) none mem)] at heq
  exact hbytes heq

theorem not_writesThrough (hcall : c ∈ o.issued)
    (hbytes : ((g.memory.writes data).chunkOutcome laddr c.size none mem).bytes ≠ c.bytes) :
    ¬ g.WritesThrough mem laddr data o := by
  intro h
  obtain ⟨lo, hlo, heq⟩ := h c hcall none
  rw [hlo.unique (g.memory.lMemWrite_returns laddr c.size data none mem)] at heq
  exact hbytes heq

end Counterexamples

theorem physicalBytes_modulo_iff (laddr size : U64) (hsize : 0 < size.toNat)
    (hsmall : size.toNat ≤ 2 ^ 32) :
    physicalBytes laddr size = (physicalBytes laddr size).map (· &&& 0xFFFFFFFF) ↔
      laddr.toNat + size.toNat ≤ 2 ^ 32 := by
  have hmask (x : U64) : x = x &&& 0xFFFFFFFF ↔ x.toNat < 2 ^ 32 := by
    have hand : (x &&& 0xFFFFFFFF).toNat = x.toNat % 2 ^ 32 := by
      rw [← Nat.and_two_pow_sub_one_eq_mod]
      rfl
    rw [← BitVec.toNat_inj, hand]
    omega
  simp only [physicalBytes, List.map_map, List.map_inj_left, List.mem_range, Function.comp_apply,
    hmask, BitVec.toNat_add, BitVec.toNat_ofNat]
  constructor
  · intro h
    have hfirst := h 0 hsize
    have hlast := h (size.toNat - 1) (by omega)
    omega
  · intro h i hi
    omega

section Issued

variable {σ : Type} {access : (paddr size : U64) → σ → Bool × σ} {entry : σ → GDTEntry}
  {gdt idt : RegValue} {selector : U16} {vector : U8} {s : σ} {P : TableAccess → Prop}

/-- The accesses made for a selector. -/
theorem gdtAccess_forall_issued (hgdt : g.regRead .GDTR = .ok gdt)
    (hladdr : gdt.tableBase + selector.setWidth 64 = laddr) :
    (∀ call ∈ (g.gdtAccess access entry selector s).issued, P call) ↔
      (selector.toNat + 8 ≤ gdt.tableLimit.toNat → P ⟨laddr, 8, (access laddr 8 s).1⟩ ∧
        ((access laddr 8 s).1 = true →
          g.descriptorKind (entry (access laddr 8 s).2).generic = .extended →
          selector.toNat + 16 ≤ gdt.tableLimit.toNat →
          P ⟨laddr, 16, (access laddr 16 (access laddr 8 s).2).1⟩)) := by
  subst hladdr
  rcases Nat.lt_or_ge gdt.tableLimit.toNat (selector.toNat + 8) with hbeyond | hwithin
  · rw [gdtAccess_of_beyond hgdt hbeyond]
    simp [Nat.not_le.mpr hbeyond]
  · rcases haccess : access (gdt.tableBase + selector.setWidth 64) 8 s with ⟨_ | _, s₁⟩
    · rw [gdtAccess_of_fault hgdt hwithin haccess]
      simp [hwithin]
    · rw [gdtAccess_of_first hgdt hwithin haccess]
      cases hkind : g.descriptorKind (entry s₁).generic with
      | plain => simp [afterFirst, hwithin]
      | reserved => simp [afterFirst, hwithin]
      | extended =>
        rcases Nat.lt_or_ge gdt.tableLimit.toNat (selector.toNat + 16) with hcut | hfits
        · simp [afterFirst, hwithin, hcut, Nat.not_le.mpr hcut]
        · simp [afterFirst, hwithin, hfits, Nat.not_lt.mpr hfits]

/-- The access made for a vector. -/
theorem idtAccess_forall_issued (hidt : g.regRead .IDTR = .ok idt)
    (hladdr : idt.tableBase + vector.setWidth 64 * 8 = laddr) :
    (∀ call ∈ (g.idtAccess access vector s).issued, P call) ↔
      (vector.toNat * 8 ≤ idt.tableLimit.toNat → P ⟨laddr, 8, (access laddr 8 s).1⟩) := by
  subst hladdr
  rcases Nat.lt_or_ge idt.tableLimit.toNat (vector.toNat * 8) with hbeyond | hwithin
  · rw [idtAccess_of_beyond hidt hbeyond]
    simp [Nat.not_le.mpr hbeyond]
  · rcases haccess : access (idt.tableBase + vector.setWidth 64 * 8) 8 s with ⟨result, s₁⟩
    rw [idtAccess_of_within hidt hwithin haccess]
    simp [hwithin]

end Issued

theorem readInto_fst {w : ℕ} (g : Guest) (mem : HostMemory) (laddr size : U64) (x : BitVec w) :
    (g.readInto mem laddr size x).1 = (memCopy g.regions laddr size).isSome := by
  cases h : memCopy g.regions laddr size with
  | none => simp only [readInto, memReadEffect_of_none h, Option.isSome_none]
  | some c => simp only [readInto, memReadEffect_of_some h, Option.isSome_some]

theorem writeFrom_fst {w : ℕ} (g : Guest) (x : BitVec w) (laddr size : U64) (mem : HostMemory) :
    (g.writeFrom x laddr size mem).1 = (memCopy g.regions laddr size).isSome := by
  cases h : memCopy g.regions laddr size with
  | none => rw [writeFrom_of_none h, Option.isSome_none]
  | some c => rw [writeFrom_of_some h, Option.isSome_some]

/-- For every state of the processor and its memory: `GetGDTEntry`, `SetGDTEntry`, `GetIDTEntry` and
`SetIDTEntry` access what `LMemRead` and `LMemWrite` do at the linear address of the entry exactly
when the page walk leaves every page of it in place. With paging disabled they access it modulo 2^32
exactly when it ends below 2^32. -/
theorem tableEntries_linear_iff (g : Guest) (mem : HostMemory) :
    (∀ gdt, g.regRead .GDTR = .ok gdt → ∀ (selector : U16) (laddr : U64),
      gdt.tableBase + selector.setWidth 64 = laddr → ∀ (entry old read : GDTEntry) (mapped : Bool),
      g.readInto mem laddr 8 old = (mapped, read) →
      (g.ReadsThrough mem laddr (g.getGDTEntry mem selector old) ↔
        g.EachSize gdt.tableLimit selector mapped read.generic (g.ReadsInPlace mem laddr)) ∧
      (g.WritesThrough mem laddr (toBytes entry) (g.setGDTEntry selector entry mem) ↔
        g.EachSize gdt.tableLimit selector mapped entry.generic
          (g.WritesInPlace mem (toBytes entry) laddr)) ∧
      (g.PagingDisabled →
        (ReachesModulo laddr (g.getGDTEntry mem selector old) ↔
          g.EachSize gdt.tableLimit selector mapped read.generic
            fun size => laddr.toNat + size.toNat ≤ 2 ^ 32) ∧
        (ReachesModulo laddr (g.setGDTEntry selector entry mem) ↔
          g.EachSize gdt.tableLimit selector mapped entry.generic
            fun size => laddr.toNat + size.toNat ≤ 2 ^ 32))) ∧
    (∀ idt, g.regRead .IDTR = .ok idt → ∀ (vector : U8) (laddr : U64),
      idt.tableBase + vector.setWidth 64 * 8 = laddr → ∀ entry old : IDTEntry,
      (g.ReadsThrough mem laddr (g.getIDTEntry mem vector old) ↔
        (vector.toNat * 8 ≤ idt.tableLimit.toNat → g.ReadsInPlace mem laddr 8)) ∧
      (g.WritesThrough mem laddr (toBytes entry) (g.setIDTEntry vector entry mem) ↔
        (vector.toNat * 8 ≤ idt.tableLimit.toNat →
          g.WritesInPlace mem (toBytes entry) laddr 8)) ∧
      (g.PagingDisabled →
        (ReachesModulo laddr (g.getIDTEntry mem vector old) ↔
          (vector.toNat * 8 ≤ idt.tableLimit.toNat → laddr.toNat + 8 ≤ 2 ^ 32)) ∧
        (ReachesModulo laddr (g.setIDTEntry vector entry mem) ↔
          (vector.toNat * 8 ≤ idt.tableLimit.toNat → laddr.toNat + 8 ≤ 2 ^ 32)))) := by
  have hmodulo8 (laddr : U64) := physicalBytes_modulo_iff laddr 8 (by decide) (by decide)
  have hmodulo16 (laddr : U64) := physicalBytes_modulo_iff laddr 16 (by decide) (by decide)
  constructor
  · intro gdt hgdt selector laddr hladdr entry old read mapped hread
    have hmapped : (memCopy g.regions laddr 8).isSome = mapped := by
      rw [← readInto_fst g mem laddr 8 old, hread]
    simp only [ReadsThrough, WritesThrough, ReachesModulo, getGDTEntry, setGDTEntry,
      gdtAccess_forall_issued hgdt hladdr, hread, readInto_fst, writeFrom_fst, ← hmapped]
    simp only [readsThrough_call_iff, writesThrough_call_iff, hmodulo8, hmodulo16, EachSize, id,
      and_self, implies_true]
  · intro idt hidt vector laddr hladdr entry old
    simp only [ReadsThrough, WritesThrough, ReachesModulo, getIDTEntry, setIDTEntry,
      idtAccess_forall_issued hidt hladdr, readInto_fst, writeFrom_fst]
    simp only [readsThrough_call_iff, writesThrough_call_iff, hmodulo8, and_self]
    simp

/-- 32-bit paging maps the page at 0x3000, where both tables start. -/
def pagedTables : Guest where
  regions := [⟨0, 0x10000, 0x100000⟩]
  regRead
    | .GDTR | .IDTR => .ok (RegValue.setTableLimit (RegValue.setTableBase 0 0x3000) 0x17)
    | .CR0 => .ok 0x80000001
    | .CR3 => .ok 0x1000
    | _ => .ok 0
  entry _ := 0

/-- The page is mapped to the one whose number ends in `frame`. The second entries of the pages at
0x3000 and 0x6000 are a data and a code segment. -/
def pagedMemory (frame : U8) : HostMemory := fun a =>
  if a = 0x101000 then 0x01 else if a = 0x101001 then 0x20
  else if a = 0x10200C then 0x01 else if a = 0x10200D then frame
  else if a = 0x10300D then 0x93 else if a = 0x10600D then 0x9B
  else 0

/-- A page that is mapped to itself. -/
theorem tableEntries_linear_of_identity :
    pagedTables.ReadsThrough (pagedMemory 0x30) 0x3008
        (pagedTables.getGDTEntry (pagedMemory 0x30) 8 0) ∧
      pagedTables.ReadsThrough (pagedMemory 0x30) 0x3008
        (pagedTables.getIDTEntry (pagedMemory 0x30) 1 0) := by
  have hplace : pagedTables.ReadsInPlace (pagedMemory 0x30) 0x3008 8 := by
    rw [ReadsInPlace, if_pos (by decide +kernel)]
    decide +kernel
  have hbase := RegValue.tableBase_setTable 0 0x3000 0x17
  obtain ⟨hgdt, hidt⟩ := tableEntries_linear_iff pagedTables (pagedMemory 0x30)
  have hread : pagedTables.readInto (pagedMemory 0x30) 0x3008 8 (0 : GDTEntry) =
      (true, 0x930000000000) := by decide +kernel
  have hget := hgdt _ rfl 8 0x3008 (by rw [hbase]; rfl) 0 0 _ _ hread
  have hkind : pagedTables.descriptorKind (GDTEntry.generic 0x930000000000) = .plain := by
    decide +kernel
  constructor
  · refine hget.1.mpr fun _ => ⟨hplace, fun _ hextended => ?_⟩
    exact absurd (hkind.symm.trans hextended) (by decide)
  · exact (hidt _ rfl 1 0x3008 (by rw [hbase]; rfl) 0 0).1.mpr fun _ => hplace

/-- `LMemRead` of the second entry goes to the page at 0x6000, where a code segment is, and
`GetGDTEntry` returns the data segment at 0x3008. None of the four accesses what it would. -/
theorem tableEntries_bypass_paging :
    let mem := pagedMemory 0x60
    (∃ lo, Returns (fun fuel => pagedTables.memory.lMemRead fuel 0x3008 8 (some fun _ => 0) none
        mem) lo ∧ lo.returned = true ∧
        lo.state.2.map (ofBytes 64 · 8) = some 0x9B0000000000) ∧
    (pagedTables.getGDTEntry mem 8 0).status = .OK ∧
      (pagedTables.getGDTEntry mem 8 0).state = 0x930000000000 ∧
    ¬ pagedTables.ReadsThrough mem 0x3008 (pagedTables.getGDTEntry mem 8 0) ∧
    ¬ pagedTables.WritesThrough mem 0x3008 (toBytes (0x930000000000 : GDTEntry))
      (pagedTables.setGDTEntry 8 0x930000000000 mem) ∧
    ¬ pagedTables.ReadsThrough mem 0x3008 (pagedTables.getIDTEntry mem 1 0) ∧
    ¬ pagedTables.WritesThrough mem 0x3008 (toBytes (0x8E00 : IDTEntry))
      (pagedTables.setIDTEntry 1 0x8E00 mem) := by
  intro mem
  refine ⟨⟨_, pagedTables.memory.lMemRead_returns 0x3008 8 (fun _ => 0) none mem, ?_, ?_⟩,
    ?_, ?_, ?_, ?_, ?_, ?_⟩
  · decide +kernel
  · decide +kernel
  · decide +kernel
  · decide +kernel
  · exact not_readsThrough (c := ⟨0x3008, 8, true⟩) (by decide +kernel) (by decide +kernel)
  · exact not_writesThrough (c := ⟨0x3008, 8, true⟩) (by decide +kernel) (by decide +kernel)
  · exact not_readsThrough (c := ⟨0x3008, 8, true⟩) (by decide +kernel) (by decide +kernel)
  · exact not_writesThrough (c := ⟨0x3008, 8, true⟩) (by decide +kernel) (by decide +kernel)

end Guest

end Virt86
