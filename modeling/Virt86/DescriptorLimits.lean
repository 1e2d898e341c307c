import Virt86.SegmentReads

/-!
# The limits of descriptor tables

A limit is the offset of the last byte of its table. `GetGDTEntry` and `SetGDTEntry` compare it with
the offset of the byte behind the entry, `GetIDTEntry` and `SetIDTEntry` with that of the entry's
first byte. Regions are page-aligned and the entries mapped.
-/

namespace Virt86.Guest

open BitSlices

/-! ## The interrupt descriptor table -/

/-- A call for an entry of 8 bytes at `offset` succeeds exactly when the entry lies within the
limit, and otherwise returns `InvalidSelector` before it accesses memory. -/
structure HonoursLimit {σ : Type} (limit : U16) (offset : ℕ) (s : σ) (o : TableOutcome σ) :
    Prop where
  ok_iff : o.status = .OK ↔ offset + 7 ≤ limit.toNat
  of_beyond : limit.toNat < offset + 7 → o.status = .InvalidSelector ∧ o.issued = [] ∧ o.state = s

section Vectors

variable {g : Guest} {σ : Type} {access : (paddr size : U64) → σ → Bool × σ} {idt : RegValue}
  {vector : U8} {s s₁ : σ}

theorem idtAccess_honoursLimit_iff (hidt : g.regRead .IDTR = .ok idt)
    (haccess : access (idt.tableBase + vector.setWidth 64 * 8) 8 s = (true, s₁)) :
    HonoursLimit idt.tableLimit (vector.toNat * 8) s (g.idtAccess access vector s) ↔
      idt.tableLimit.toNat < vector.toNat * 8 ∨ vector.toNat * 8 + 7 ≤ idt.tableLimit.toNat := by
  rcases Nat.lt_or_ge idt.tableLimit.toNat (vector.toNat * 8) with hbeyond | hwithin
  · rw [idtAccess_of_beyond hidt hbeyond]
    refine iff_of_true ⟨?_, fun _ => ⟨rfl, rfl, rfl⟩⟩ (.inl hbeyond)
    exact iff_of_false (by simp) (by omega)
  · rw [idtAccess_of_within hidt hwithin haccess]
    constructor
    · intro hlimit
      exact .inr (hlimit.ok_iff.mp rfl)
    · intro hcond
      have hin : vector.toNat * 8 + 7 ≤ idt.tableLimit.toNat := by omega
      exact ⟨iff_of_true rfl hin, fun hbeyond => absurd hin (by omega)⟩

end Vectors

/-- For every IDTR, vector and guest memory in which the entry is mapped: `GetIDTEntry` and
`SetIDTEntry` honour the limit exactly when it does not cut the entry. An entry that was set is
what is read back. -/
theorem idtEntry_honoursLimit_iff (g : Guest) (hregions : PageAlignedRegions g.regions)
    (mem : HostMemory) (vector : U8) {idt : RegValue} {c : MemCopy}
    (hidt : g.regRead .IDTR = .ok idt)
    (hcopy : memCopy g.regions (idt.tableBase + vector.setWidth 64 * 8) 8 = some c)
    (entry old : IDTEntry) :
    (HonoursLimit idt.tableLimit (vector.toNat * 8) old (g.getIDTEntry mem vector old) ↔
      idt.tableLimit.toNat < vector.toNat * 8 ∨ vector.toNat * 8 + 7 ≤ idt.tableLimit.toNat) ∧
    (HonoursLimit idt.tableLimit (vector.toNat * 8) mem (g.setIDTEntry vector entry mem) ↔
      idt.tableLimit.toNat < vector.toNat * 8 ∨ vector.toNat * 8 + 7 ≤ idt.tableLimit.toNat) ∧
    ((g.setIDTEntry vector entry mem).status = .OK →
      (g.getIDTEntry (g.setIDTEntry vector entry mem).state vector old).status = .OK ∧
        (g.getIDTEntry (g.setIDTEntry vector entry mem).state vector old).state = entry) := by
  have hcount : 8 * c.count.toNat = 64 := memCopy_bits_of_aligned hregions (by decide) hcopy
  have hread (m : HostMemory) : g.readInto m (idt.tableBase + vector.setWidth 64 * 8) 8 old =
      (true, setSlice old 0 (m.wordAt c.host 64)) := readInto_of_some hcopy hcount rfl old
  have hwrite : g.writeFrom entry (idt.tableBase + vector.setWidth 64 * 8) 8 mem =
      (true, mem.store c.host (toBytes entry) c.count) := writeFrom_of_some hcopy entry
  refine ⟨idtAccess_honoursLimit_iff hidt (hread mem), idtAccess_honoursLimit_iff hidt hwrite, ?_⟩
  rcases Nat.lt_or_ge idt.tableLimit.toNat (vector.toNat * 8) with hbeyond | hwithin
  · rw [setIDTEntry, idtAccess_of_beyond hidt hbeyond]
    intro hok
    exact absurd hok (by simp)
  · intro _
    rw [setIDTEntry, idtAccess_of_within hidt hwithin hwrite, getIDTEntry,
      idtAccess_of_within hidt hwithin (hread _)]
    refine ⟨rfl, ?_⟩
    rw [HostMemory.wordAt_store _ _ _ _ hcount, setSlice_zero_of_width, BitVec.extractLsb'_eq_self]

/-- The first vector of a table of one entry. -/
theorem idtEntry_honoursLimit_first :
    let g := tablePage 7 0 0
    (HonoursLimit 7 0 0 (g.getIDTEntry (fun _ => 0) 0 0) ↔ 7 < 0 ∨ 0 + 7 ≤ 7) ∧
    (HonoursLimit 7 0 (fun _ => 0) (g.setIDTEntry 0 0x8E00 fun _ => 0) ↔ 7 < 0 ∨ 0 + 7 ≤ 7) ∧
    ((g.setIDTEntry 0 0x8E00 fun _ => 0).status = .OK →
      (g.getIDTEntry (g.setIDTEntry 0 0x8E00 fun _ => 0).state 0 0).status = .OK ∧
        (g.getIDTEntry (g.setIDTEntry 0 0x8E00 fun _ => 0).state 0 0).state = 0x8E00) := by
  intro g
  have hlimit : (tableValue 7).tableLimit = 7 := RegValue.tableLimit_setTable 0 0x1000 7
  have hbase : (tableValue 7).tableBase = 0x1000 := RegValue.tableBase_setTable 0 0x1000 7
  have hcopy : memCopy g.regions ((tableValue 7).tableBase + (0 : U8).setWidth 64 * 8) 8 =
      some ⟨⟨0x1000, 0x1000, 0x10000⟩, 0x10000, 8⟩ := by
    rw [hbase]
    rfl
  have hiff := idtEntry_honoursLimit_iff g (tablePage_aligned 7 0 0) (fun _ => 0) 0 rfl hcopy
    0x8E00 0
  rw [hlimit] at hiff
  exact hiff

/-- A limit that ends in the middle of the entry for vector 1 does not keep it from being read and
written. -/
theorem idtEntry_of_cut_limit :
    let g := tablePage 8 0 0
    (g.getIDTEntry (fun _ => 0) 1 0).status = .OK ∧
      (g.setIDTEntry 1 0x8E00 fun _ => 0).status = .OK ∧ ¬ 1 * 8 + 7 ≤ (8 : U16).toNat := by
  decide +kernel

/-! ## The global descriptor table -/

/-- The number of bytes of an entry. -/
def descriptorWidth (g : Guest) (d : GenericGDTDescriptor) : ℕ :=
  if g.descriptorKind d = .extended then 16 else 8

/-- `InvalidSelector` is returned exactly when some byte of the entry lies beyond the limit or its
type is reserved. -/
def RejectsBeyond {σ : Type} (g : Guest) (limit : U16) (selector : U16) (d : GenericGDTDescriptor)
    (o : TableOutcome σ) : Prop :=
  o.status = .InvalidSelector ↔
    limit.toNat < selector.toNat + (g.descriptorWidth d - 1) ∨ g.descriptorKind d = .reserved

section Selectors

variable {g : Guest} {σ : Type} {access : (paddr size : U64) → σ → Bool × σ} {entry : σ → GDTEntry}
  {gdt : RegValue} {selector : U16} {s s₁ : σ} {d : GenericGDTDescriptor}

/-- For both accessors: the descriptor that decides about the width is `d`, and the accesses that
are made succeed. -/
theorem gdtAccess_rejectsBeyond_iff (hgdt : g.regRead .GDTR = .ok gdt)
    (hfirst : access (gdt.tableBase + selector.setWidth 64) 8 s = (true, s₁))
    (hd : (entry s₁).generic = d) (hsecond : g.descriptorKind d = .extended →
      (access (gdt.tableBase + selector.setWidth 64) 16 s₁).1 = true) :
    RejectsBeyond g gdt.tableLimit selector d (g.gdtAccess access entry selector s) ↔
      g.descriptorKind d = .reserved ∨
        gdt.tableLimit.toNat ≠ selector.toNat + (g.descriptorWidth d - 1) := by
  rw [RejectsBeyond, descriptorWidth]
  rcases Nat.lt_or_ge gdt.tableLimit.toNat (selector.toNat + 8) with hbeyond | hwithin
  · rw [gdtAccess_of_beyond hgdt hbeyond]
    cases g.descriptorKind d with
    | plain => simp; omega
    | extended => simp; omega
    | reserved => simp
  · rw [gdtAccess_of_first hgdt hwithin hfirst, hd]
    cases hkind : g.descriptorKind d with
    | plain => simp [afterFirst]; omega
    | reserved => simp [afterFirst]
    | extended =>
      rcases Nat.lt_or_ge gdt.tableLimit.toNat (selector.toNat + 16) with hcut | hfits
      · simp only [afterFirst, if_pos hcut]
        simp
        omega
      · simp only [afterFirst, if_neg (Nat.not_lt.mpr hfits), hsecond hkind]
        simp
        omega

end Selectors

/-- For every GDTR, selector and CPU mode and every guest memory in which the entry is mapped:
`GetGDTEntry`, by the descriptor in memory, and `SetGDTEntry`, by the one that is passed, reject
what lies beyond the limit exactly when the type is reserved anyway or the limit is not the offset
of the entry's last byte. -/
theorem gdtEntry_rejectsBeyond_iff (g : Guest) (hregions : PageAlignedRegions g.regions)
    (mem : HostMemory) (selector : U16) {gdt : RegValue} {c : MemCopy}
    (hgdt : g.regRead .GDTR = .ok gdt)
    (hcopy : memCopy g.regions (gdt.tableBase + selector.setWidth 64) 8 = some c)
    (entry old : GDTEntry)
    (hread : g.descriptorKind (mem.wordAt c.host 64) = .extended →
      (memCopy g.regions (gdt.tableBase + selector.setWidth 64) 16).isSome)
    (hwrite : g.descriptorKind entry.generic = .extended →
      (memCopy g.regions (gdt.tableBase + selector.setWidth 64) 16).isSome) :
    (RejectsBeyond g gdt.tableLimit selector (mem.wordAt c.host 64)
        (g.getGDTEntry mem selector old) ↔
      g.descriptorKind (mem.wordAt c.host 64) = .reserved ∨
        gdt.tableLimit.toNat ≠
          selector.toNat + (g.descriptorWidth (mem.wordAt c.host 64) - 1)) ∧
    (RejectsBeyond g gdt.tableLimit selector entry.generic (g.setGDTEntry selector entry mem) ↔
      g.descriptorKind entry.generic = .reserved ∨
        gdt.tableLimit.toNat ≠ selector.toNat + (g.descriptorWidth entry.generic - 1)) := by
  have hcount : 8 * c.count.toNat = 64 := memCopy_bits_of_aligned hregions (by decide) hcopy
  constructor
  · refine gdtAccess_rejectsBeyond_iff hgdt (readInto_of_some hcopy hcount rfl old)
      (GDTEntry.generic_setSlice _ _) fun hkind => ?_
    obtain ⟨c', hcopy'⟩ := Option.isSome_iff_exists.mp (hread hkind)
    rw [readInto, memReadEffect_of_some hcopy']
  · refine gdtAccess_rejectsBeyond_iff hgdt (writeFrom_of_some hcopy entry) rfl fun hkind => ?_
    obtain ⟨c', hcopy'⟩ := Option.isSome_iff_exists.mp (hwrite hkind)
    rw [writeFrom_of_some hcopy']

/-- A page whose second table entry is a code segment. -/
def codeMemory : HostMemory := fun a => if a = 0x1000D then 0x9B else 0

/-- A table of three entries of 8 bytes, the second of which is a code segment. -/
theorem gdtEntry_rejectsBeyond_code :
    let g := tablePage 0x17 0 0
    (RejectsBeyond g 0x17 8 0x9B0000000000 (g.getGDTEntry codeMemory 8 0) ↔
      g.descriptorKind 0x9B0000000000 = .reserved ∨
        (0x17 : U16).toNat ≠ (8 : U16).toNat + (g.descriptorWidth 0x9B0000000000 - 1)) ∧
    (RejectsBeyond g 0x17 8 (GDTEntry.generic 0x930000000000)
        (g.setGDTEntry 8 0x930000000000 codeMemory) ↔
      g.descriptorKind (GDTEntry.generic 0x930000000000) = .reserved ∨ (0x17 : U16).toNat ≠
        (8 : U16).toNat + (g.descriptorWidth (GDTEntry.generic 0x930000000000) - 1)) := by
  intro g
  have hlimit : (tableValue 0x17).tableLimit = 0x17 := RegValue.tableLimit_setTable 0 0x1000 0x17
  have hbase : (tableValue 0x17).tableBase = 0x1000 := RegValue.tableBase_setTable 0 0x1000 0x17
  have hcopy : memCopy g.regions ((tableValue 0x17).tableBase + (8 : U16).setWidth 64) 8 =
      some ⟨⟨0x1000, 0x1000, 0x10000⟩, 0x10008, 8⟩ := by
    rw [hbase]
    rfl
  have hmapped : (memCopy g.regions ((tableValue 0x17).tableBase + (8 : U16).setWidth 64) 16).isSome
      := by
    rw [hbase]
    rfl
  have hd : codeMemory.wordAt 0x10008 64 = 0x9B0000000000 := by decide +kernel
  have hiff := gdtEntry_rejectsBeyond_iff g (tablePage_aligned 0x17 0 0) codeMemory 8 rfl hcopy
    0x930000000000 0 (fun _ => hmapped) (fun _ => hmapped)
  rwa [hlimit, hd] at hiff

/-- The last entry of a table whose limit is one less than a multiple of 8 is rejected, in memory a
code segment, and so is the last entry of 16 bytes in IA-32e mode. -/
theorem gdtEntry_rejects_last :
    ((tablePage 0xF 0 0).getGDTEntry codeMemory 8 0).status = .InvalidSelector ∧
      ((tablePage 0xF 0 0).setGDTEntry 8 0x9B0000000000 fun _ => 0).status = .InvalidSelector ∧
      (8 : U16).toNat + 7 ≤ (0xF : U16).toNat ∧
    ((tablePage 0x17 1 0x400).getGDTEntry tssMemory 8 0).status = .InvalidSelector ∧
      ((tablePage 0x17 1 0x400).setGDTEntry 8 0x890000000000 fun _ => 0).status =
        .InvalidSelector ∧
      (tablePage 0x17 1 0x400).descriptorKind 0x890000000000 = .extended ∧
      (8 : U16).toNat + 15 ≤ (0x17 : U16).toNat := by
  decide +kernel

end Virt86.Guest
