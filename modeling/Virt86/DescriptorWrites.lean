import Virt86.SegmentReads

/-!
# Descriptors that are written

`SetGDTEntry` stores the first 8 bytes of an entry before it looks at the entry's type, and the
whole 16 bytes after that. The results say when a rejected entry has already changed memory, and
that an accepted one is read back.
-/

namespace Virt86.Guest

open BitSlices

/-- `SetGDTEntry` turns the entry down after its first store: for its type, or because the 16 bytes
it takes do not fit the limit or cannot be written. -/
def RejectedLate (g : Guest) (gdt : RegValue) (selector : U16) (entry : GDTEntry) : Prop :=
  g.descriptorKind entry.generic = .reserved ∨
    g.descriptorKind entry.generic = .extended ∧
      (gdt.tableLimit.toNat < selector.toNat + 16 ∨
        memCopy g.regions (gdt.tableBase + selector.setWidth 64) 16 = none)

/-- The memory that an accepted entry leaves: it went through one store, or through two in IA-32e
mode for a system descriptor. -/
def StoredEntry (g : Guest) (mem : HostMemory) (gdt : RegValue) (selector : U16) (entry : GDTEntry)
    (c : MemCopy) (mem' : HostMemory) : Prop :=
  g.descriptorKind entry.generic = .plain ∧ mem' = mem.store c.host (toBytes entry) c.count ∨
    g.descriptorKind entry.generic = .extended ∧ selector.toNat + 16 ≤ gdt.tableLimit.toNat ∧
      ∃ c', memCopy g.regions (gdt.tableBase + selector.setWidth 64) 16 = some c' ∧
        mem' = (mem.store c.host (toBytes entry) c.count).store c'.host (toBytes entry) c'.count

section Rejections

variable {g : Guest} {mem : HostMemory} {selector : U16} {gdt : RegValue} {c : MemCopy}
  {entry : GDTEntry}

/-- A late rejection leaves the first 8 bytes in memory. -/
theorem setGDTEntry_of_rejectedLate (mem : HostMemory) (hgdt : g.regRead .GDTR = .ok gdt)
    (h : selector.toNat + 8 ≤ gdt.tableLimit.toNat)
    (hcopy : memCopy g.regions (gdt.tableBase + selector.setWidth 64) 8 = some c)
    (hlate : g.RejectedLate gdt selector entry) :
    (g.setGDTEntry selector entry mem).status ≠ .OK ∧
      (g.setGDTEntry selector entry mem).state = mem.store c.host (toBytes entry) c.count := by
  rw [setGDTEntry, gdtAccess_of_first hgdt h (writeFrom_of_some hcopy entry)]
  obtain hkind | ⟨hkind, hlimit | hnone⟩ := hlate
  · rw [hkind]
    exact ⟨by simp [afterFirst], rfl⟩
  · rw [hkind, afterFirst, if_pos hlimit]
    exact ⟨by simp, rfl⟩
  · rw [hkind, afterFirst, writeFrom_of_none hnone]
    by_cases hlimit : gdt.tableLimit.toNat < selector.toNat + 16
    · rw [if_pos hlimit]
      exact ⟨by simp, rfl⟩
    · rw [if_neg hlimit]
      exact ⟨by simp, rfl⟩

/-- What a call can do: return before the first store, turn the entry down after it, or accept
it. -/
theorem setGDTEntry_cases (g : Guest) (mem : HostMemory) (selector : U16) (entry : GDTEntry) :
    (g.setGDTEntry selector entry mem).state = mem ∧
        ((g.setGDTEntry selector entry mem).status = .OK → g.regRead .GDTR = .error .OK) ∨
      ∃ gdt c, g.regRead .GDTR = .ok gdt ∧ selector.toNat + 8 ≤ gdt.tableLimit.toNat ∧
        memCopy g.regions (gdt.tableBase + selector.setWidth 64) 8 = some c ∧
        (g.RejectedLate gdt selector entry ∨
          (g.setGDTEntry selector entry mem).status = .OK ∧
            g.StoredEntry mem gdt selector entry c (g.setGDTEntry selector entry mem).state) := by
  rw [setGDTEntry]
  cases hgdt : g.regRead .GDTR with
  | error status =>
    rw [gdtAccess_of_error hgdt]
    exact .inl ⟨rfl, congrArg Except.error⟩
  | ok gdt =>
    rcases Nat.lt_or_ge gdt.tableLimit.toNat (selector.toNat + 8) with hbeyond | hwithin
    · rw [gdtAccess_of_beyond hgdt hbeyond]
      exact .inl ⟨rfl, fun h => absurd h (by simp)⟩
    · cases hcopy : memCopy g.regions (gdt.tableBase + selector.setWidth 64) 8 with
      | none =>
        rw [gdtAccess_of_fault hgdt hwithin (writeFrom_of_none hcopy entry)]
        exact .inl ⟨rfl, fun h => absurd h (by simp)⟩
      | some c =>
        refine .inr ⟨gdt, c, rfl, hwithin, hcopy, or_iff_not_imp_left.mpr fun hnot => ?_⟩
        simp only [RejectedLate, not_or, not_and] at hnot
        rw [gdtAccess_of_first hgdt hwithin (writeFrom_of_some hcopy entry)]
        cases hkind : g.descriptorKind entry.generic with
        | plain => exact ⟨rfl, .inl ⟨hkind, rfl⟩⟩
        | reserved => exact absurd hkind hnot.1
        | extended =>
          obtain ⟨hlimit, hnone⟩ := hnot.2 hkind
          obtain ⟨c', hcopy'⟩ := Option.ne_none_iff_exists'.mp hnone
          rw [afterFirst, if_neg hlimit, writeFrom_of_some hcopy']
          exact ⟨rfl, .inr ⟨hkind, Nat.not_lt.mp hlimit, c', hcopy', rfl⟩⟩

/-- For every guest, memory, selector and entry: a rejected write changes nothing exactly when it is
not rejected after the first store, or that store found its bytes already in memory. -/
theorem setGDTEntry_unchanged_iff (g : Guest) (mem : HostMemory) (selector : U16)
    (entry : GDTEntry) :
    ((g.setGDTEntry selector entry mem).status ≠ .OK →
      (g.setGDTEntry selector entry mem).state = mem) ↔
    ∀ gdt c, g.regRead .GDTR = .ok gdt → selector.toNat + 8 ≤ gdt.tableLimit.toNat →
      memCopy g.regions (gdt.tableBase + selector.setWidth 64) 8 = some c →
        g.RejectedLate gdt selector entry →
          ∀ i < c.count.toNat, mem (c.host + BitVec.ofNat 64 i) = toBytes entry i := by
  constructor
  · intro hunchanged gdt c hgdt h hcopy hlate
    obtain ⟨hstatus, hstate⟩ := setGDTEntry_of_rejectedLate mem hgdt h hcopy hlate
    rw [← HostMemory.store_eq_self_iff, ← hstate]
    exact hunchanged hstatus
  · intro hcond hstatus
    obtain ⟨hstate, -⟩ | ⟨gdt, c, hgdt, h, hcopy, hlate | ⟨hok, -⟩⟩ :=
      setGDTEntry_cases g mem selector entry
    · exact hstate
    · rw [(setGDTEntry_of_rejectedLate mem hgdt h hcopy hlate).2, HostMemory.store_eq_self_iff]
      exact hcond gdt c hgdt h hcopy hlate
    · exact absurd hok hstatus

end Rejections

/-- An entry of a reserved type is rejected, and its first 8 bytes stay in the table. -/
theorem setGDTEntry_rejected_writes :
    ((tablePage 0x17 0 0).setGDTEntry 8 0x11 fun _ => 0).status = .InvalidSelector ∧
      ((tablePage 0x17 0 0).setGDTEntry 8 0x11 fun _ => 0).state 0x10008 ≠ 0 := by
  decide +kernel

/-! ## What was written is read back -/

section RoundTrips

variable {g : Guest} {mem : HostMemory} {selector : U16} {gdt : RegValue} {c c' : MemCopy}
  {entry : GDTEntry}

theorem setGDTEntry_ok_cases
    (hstatus : ∀ status, g.regRead .GDTR = .error status → status ≠ .OK)
    (hok : (g.setGDTEntry selector entry mem).status = .OK) :
    ∃ gdt c, g.regRead .GDTR = .ok gdt ∧ selector.toNat + 8 ≤ gdt.tableLimit.toNat ∧
      memCopy g.regions (gdt.tableBase + selector.setWidth 64) 8 = some c ∧
      g.StoredEntry mem gdt selector entry c (g.setGDTEntry selector entry mem).state := by
  obtain ⟨-, herror⟩ | ⟨gdt, c, hgdt, hwithin, hcopy, hlate | ⟨-, hcase⟩⟩ :=
    setGDTEntry_cases g mem selector entry
  · exact absurd rfl (hstatus .OK (herror hok))
  · exact absurd hok (setGDTEntry_of_rejectedLate mem hgdt hwithin hcopy hlate).1
  · exact ⟨gdt, c, hgdt, hwithin, hcopy, hcase⟩

/-- What `SetGDTEntry` accepted, `GetGDTEntry` finds: its first 8 bytes, and the whole entry where
it takes 16 bytes. -/
theorem getGDTEntry_of_setGDTEntry (hregions : PageAlignedRegions g.regions)
    (hstatus : ∀ status, g.regRead .GDTR = .error status → status ≠ .OK)
    (hok : (g.setGDTEntry selector entry mem).status = .OK) (old : GDTEntry) :
    ∃ issued e, g.getGDTEntry (g.setGDTEntry selector entry mem).state selector old =
        ⟨.OK, issued, e⟩ ∧
      e.generic = entry.generic ∧ (g.descriptorKind entry.generic = .extended → e = entry) := by
  obtain ⟨gdt, c, hgdt, hwithin, hcopy, hcase⟩ := setGDTEntry_ok_cases hstatus hok
  have hcount : 8 * c.count.toNat = 64 := memCopy_bits_of_aligned hregions (by decide) hcopy
  obtain ⟨hkind, hstate⟩ | ⟨hkind, hfits, c', hcopy', hstate⟩ := hcase
  · have hd : (mem.store c.host (toBytes entry) c.count).wordAt c.host 64 = entry.generic :=
      HostMemory.wordAt_store _ _ _ _ hcount
    rw [hstate, getGDTEntry_of_copy hregions hgdt hwithin hcopy hd, hkind]
    refine ⟨_, _, rfl, GDTEntry.generic_setSlice _ _, fun hextended => ?_⟩
    exact absurd hextended (by simp)
  · have hcount' : 8 * c'.count.toNat = 128 :=
      memCopy_bits_of_aligned hregions (by decide) hcopy'
    generalize hmem : (mem.store c.host (toBytes entry) c.count).store c'.host (toBytes entry)
      c'.count = mem' at hstate
    -- the second store may have gone through another region over the same host memory
    have hd : mem'.wordAt c.host 64 = entry.generic := by
      rw [← hmem]
      exact HostMemory.wordAt_eq rfl fun i hi => store_store_window hregions hcopy hcopy'
        (by omega) (by omega) mem (toBytes entry) (by omega)
    have hd' : mem'.wordAt c'.host 128 = entry := by
      rw [← hmem, HostMemory.wordAt_store _ _ _ entry hcount', BitVec.extractLsb'_eq_self]
    have hread : g.readInto mem' (gdt.tableBase + selector.setWidth 64) 16
        (setSlice old 0 entry.generic) = (true, entry) := by
      rw [readInto_of_some hcopy' hcount' rfl, hd', setSlice_zero_of_width]
    rw [hstate, getGDTEntry_of_copy hregions hgdt hwithin hcopy hd, hkind, afterFirst,
      if_neg (Nat.not_lt.mpr hfits), hread]
    exact ⟨_, _, rfl, rfl, fun _ => rfl⟩

/-- A system descriptor that was accepted in IA-32e mode takes 16 bytes. -/
theorem descriptorKind_of_accepted
    (hstatus : ∀ status, g.regRead .GDTR = .error status → status ≠ .OK)
    (hok : (g.setGDTEntry selector entry mem).status = .OK)
    (hsystem : entry.generic.system = 0) (hmode : g.isIA32eMode = true) :
    g.descriptorKind entry.generic = .extended := by
  obtain ⟨gdt, c, -, -, -, ⟨hkind, -⟩ | ⟨hkind, -⟩⟩ := setGDTEntry_ok_cases hstatus hok
  · rw [descriptorKind, if_neg (by simp [hsystem]), if_pos hmode] at hkind
    split_ifs at hkind
  · exact hkind

theorem system_ne_zero_iff (d : GenericGDTDescriptor) :
    d.system ≠ 0 ↔ (SegmentFields.access d).getLsbD 4 = true := by
  have hbit : d.system.getLsbD 0 = (SegmentFields.access d).getLsbD 4 := by
    simp [GenericGDTDescriptor.system, SegmentFields.access]
  rw [← hbit]
  have hone : ∀ x : BitVec 1, x ≠ 0 ↔ x.getLsbD 0 = true := by decide
  exact hone _

/-- A segment descriptor that was accepted is what `ReadSegment` returns. -/
theorem readSegment_of_setGDTEntry (hregions : PageAlignedRegions g.regions)
    (hstatus : ∀ status, g.regRead .GDTR = .error status → status ≠ .OK)
    (hok : (g.setGDTEntry selector entry mem).status = .OK)
    (hsystem : entry.generic.system ≠ 0) (old : GDTEntry) (value : RegValue) :
    ∃ issued, g.readSegment (g.setGDTEntry selector entry mem).state old selector value =
      ⟨.OK, issued, value.setSegment selector (entry.gdt.getBase.setWidth 64) entry.gdt.getLimit
        entry.gdt.getAttributes⟩ := by
  obtain ⟨issued, e, hget, hgeneric, -⟩ := getGDTEntry_of_setGDTEntry hregions hstatus hok old
  have hgdt : e.gdt = entry.gdt := hgeneric
  refine ⟨issued, ?_⟩
  simp only [readSegment, hget, loadSegment, hgeneric, hgdt]
  rw [if_neg (by simp), if_neg hsystem]

end RoundTrips

/-- A register read that fails returns a status other than `OK`. -/
def ReportsFailures (g : Guest) : Prop := ∀ reg status, g.regRead reg = .error status → status ≠ .OK

/-- For every guest whose regions are page-aligned, which may overlap or share host memory: an entry
that `SetGDTEntry` accepted is what `GetGDTEntry` returns, with all its 16 bytes when it is a system
descriptor in IA-32e mode; and a segment that `GDTDescriptor::Set` described is what `ReadSegment`
returns. -/
theorem gdtEntry_roundTrip (g : Guest) (hregions : PageAlignedRegions g.regions)
    (hreports : g.ReportsFailures) (mem : HostMemory) (selector : U16) (entry : GDTEntry)
    (hok : (g.setGDTEntry selector entry mem).status = .OK) (old : GDTEntry) :
    let mem' := (g.setGDTEntry selector entry mem).state
    (g.getGDTEntry mem' selector old).status = .OK ∧
    (g.getGDTEntry mem' selector old).state.generic = entry.generic ∧
    (entry.generic.system = 0 → g.isIA32eMode = true →
      (g.getGDTEntry mem' selector old).state = entry) ∧
    ∀ base limit access flags, entry.gdt = GDTDescriptor.set base limit access flags →
      access.getLsbD 4 = true → ∀ value,
        (g.readSegment mem' old selector value).status = .OK ∧
        (g.readSegment mem' old selector value).state.segmentBase = base.setWidth 64 ∧
        (g.readSegment mem' old selector value).state.segmentAttributes =
          SegmentFields.attributes access flags ∧
        (g.readSegment mem' old selector value).state.segmentLimit =
          SegmentFields.scaledLimit limit flags := by
  intro mem'
  have hstatus : ∀ status, g.regRead .GDTR = .error status → status ≠ .OK := hreports .GDTR
  obtain ⟨issued, e, hget, hgeneric, hextended⟩ :=
    getGDTEntry_of_setGDTEntry hregions hstatus hok old
  refine ⟨by rw [hget], by rw [hget]; exact hgeneric, fun hsystem hmode => ?_, ?_⟩
  · rw [hget]
    exact hextended (descriptorKind_of_accepted hstatus hok hsystem hmode)
  · intro base limit access flags hset hbit value
    have hsystem : entry.generic.system ≠ 0 := by
      rw [system_ne_zero_iff, show entry.generic = GDTDescriptor.set base limit access flags from
        hset, GDTDescriptor.set, SegmentFields.access_set _ _ _ _ _ (by omega)]
      exact hbit
    obtain ⟨calls, hread⟩ := readSegment_of_setGDTEntry hregions hstatus hok hsystem old value
    rw [hset, GDTDescriptor.getBase_set, GDTDescriptor.getLimit_set,
      GDTDescriptor.getAttributes_set] at hread
    rw [hread]
    exact ⟨rfl, RegValue.segmentBase_setSegment _ _ _ _ _,
      RegValue.segmentAttributes_setSegment _ _ _ _ _, RegValue.segmentLimit_setSegment _ _ _ _ _⟩

theorem gdtEntry_roundTrip_code :
    let g := tablePage 0x17 0 0
    let entry : GDTEntry := (GDTDescriptor.set 0x12345678 0xFFFFF 0x9B 0xC).setWidth 128
    let mem' := (g.setGDTEntry 8 entry fun _ => 0).state
    (g.getGDTEntry mem' 8 0).status = .OK ∧ (g.getGDTEntry mem' 8 0).state.generic = entry.generic ∧
      (g.readSegment mem' 0 8 0).state.segmentBase = 0x12345678 ∧
      (g.readSegment mem' 0 8 0).state.segmentLimit = 0xFFFFFFFF := by
  intro g entry mem'
  have hok : (g.setGDTEntry 8 entry fun _ => 0).status = .OK := by decide +kernel
  have hreports : g.ReportsFailures := by
    intro reg status herror
    simp only [g, tablePage] at herror
    split at herror <;> exact absurd herror (by simp)
  obtain ⟨hstatus, hgeneric, -, hsegment⟩ := gdtEntry_roundTrip g (tablePage_aligned 0x17 0 0)
    hreports (fun _ => 0) 8 entry hok 0
  obtain ⟨-, hbase, -, hlimit⟩ := hsegment 0x12345678 0xFFFFF 0x9B 0xC (by decide +kernel)
    (by decide) 0
  exact ⟨hstatus, hgeneric, hbase, hlimit⟩

end Virt86.Guest
