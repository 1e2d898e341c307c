import Virt86.PhysicalMemory

/-!
# The effect of physical memory accesses

`MemRead` and `MemWrite` as the loops of the source, with what they leave in the buffer and in host
memory whether they return true or false. What is written can be read back, and only the window
of host memory behind the request changes.
-/

namespace Virt86

/-- `memcpy` into host memory. -/
def HostMemory.store (mem : HostMemory) (host : U64) (value : Buffer) (count : U64) : HostMemory :=
  fun a => if (a - host).toNat < count.toNat then value (a - host).toNat else mem a

/-- `memcpy` out of host memory, into a buffer that holds `value`. -/
def HostMemory.load (mem : HostMemory) (host count : U64) (value : Buffer) : Buffer :=
  fun i => if i < count.toNat then mem (host + BitVec.ofNat 64 i) else value i

/-- The loop of `MemRead` over the regions in the order they are visited, with the returned flag
and the buffer it leaves. -/
def memReadLoop (mem : HostMemory) (paddr finalPAddr : U64) (value : Buffer) :
    U64 → List MemoryRegion → Bool × Buffer
  | _, [] => (false, value)
  | size, r :: rs =>
    if r.Passes paddr finalPAddr then
      if size ≤ r.size then (true, mem.load (r.hostMemory + paddr - r.baseAddress) size value)
      else memReadLoop mem paddr finalPAddr value (size - r.size) rs
    else memReadLoop mem paddr finalPAddr value size rs

/-- The loop of `MemWrite`, with the returned flag and the host memory it leaves. -/
def memWriteLoop (mem : HostMemory) (paddr finalPAddr : U64) (value : Buffer) :
    U64 → List MemoryRegion → Bool × HostMemory
  | _, [] => (false, mem)
  | size, r :: rs =>
    if r.Passes paddr finalPAddr then
      if size ≤ r.size then (true, mem.store (r.hostMemory + paddr - r.baseAddress) value size)
      else memWriteLoop mem paddr finalPAddr value (size - r.size) rs
    else memWriteLoop mem paddr finalPAddr value size rs

def memReadEffect (mem : HostMemory) (regions : List MemoryRegion) (paddr size : U64)
    (value : Buffer) : Bool × Buffer :=
  memReadLoop mem paddr (paddr + size - 1) value size regions.reverse

def memWriteEffect (mem : HostMemory) (regions : List MemoryRegion) (paddr size : U64)
    (value : Buffer) : Bool × HostMemory :=
  memWriteLoop mem paddr (paddr + size - 1) value size regions.reverse

/-- The host addresses a copy reads or writes. -/
def MemCopy.Window (c : MemCopy) (a : U64) : Prop := (a - c.host).toNat < c.count.toNat

section Effects

variable {mem : HostMemory} {regions : List MemoryRegion} {paddr size finalPAddr : U64}
  {value : Buffer} {c : MemCopy}

theorem memReadLoop_eq (rs : List MemoryRegion) (size : U64) :
    memReadLoop mem paddr finalPAddr value size rs =
      ((findCopy paddr finalPAddr size rs).isSome,
        (findCopy paddr finalPAddr size rs).elim value fun c =>
          mem.load c.host c.count value) := by
  induction rs generalizing size with
  | nil => rfl
  | cons r rs ih =>
    rw [memReadLoop, findCopy]
    split_ifs
    · rfl
    · exact ih _
    · exact ih _

theorem memWriteLoop_eq (rs : List MemoryRegion) (size : U64) :
    memWriteLoop mem paddr finalPAddr value size rs =
      ((findCopy paddr finalPAddr size rs).isSome,
        (findCopy paddr finalPAddr size rs).elim mem fun c =>
          mem.store c.host value c.count) := by
  induction rs generalizing size with
  | nil => rfl
  | cons r rs ih =>
    rw [memWriteLoop, findCopy]
    split_ifs
    · rfl
    · exact ih _
    · exact ih _

theorem memReadEffect_of_some (h : memCopy regions paddr size = some c) :
    memReadEffect mem regions paddr size value = (true, mem.load c.host c.count value) := by
  rw [memReadEffect, memReadLoop_eq, ← memCopy, h]
  rfl

theorem memReadEffect_of_none (h : memCopy regions paddr size = none) :
    memReadEffect mem regions paddr size value = (false, value) := by
  rw [memReadEffect, memReadLoop_eq, ← memCopy, h]
  rfl

theorem memWriteEffect_of_some (h : memCopy regions paddr size = some c) :
    memWriteEffect mem regions paddr size value = (true, mem.store c.host value c.count) := by
  rw [memWriteEffect, memWriteLoop_eq, ← memCopy, h]
  rfl

theorem memWriteEffect_of_none (h : memCopy regions paddr size = none) :
    memWriteEffect mem regions paddr size value = (false, mem) := by
  rw [memWriteEffect, memWriteLoop_eq, ← memCopy, h]
  rfl

/-- The flag and the buffer are those of `memRead`. -/
theorem memReadEffect_eq_memRead :
    memReadEffect mem regions paddr size value =
      ((memRead mem regions paddr size value).isSome,
        (memRead mem regions paddr size value).getD value) := by
  cases h : memCopy regions paddr size with
  | none =>
    rw [memReadEffect_of_none h]
    simp [memRead, h]
  | some c =>
    rw [memReadEffect_of_some h]
    simp [memRead, h]
    rfl

/-- The flag and the host memory are those of `memWrite`. -/
theorem memWriteEffect_eq_memWrite :
    memWriteEffect mem regions paddr size value =
      ((memWrite mem regions paddr size value).isSome,
        (memWrite mem regions paddr size value).getD mem) := by
  cases h : memCopy regions paddr size with
  | none =>
    rw [memWriteEffect_of_none h]
    simp [memWrite, h]
  | some c =>
    rw [memWriteEffect_of_some h]
    simp [memWrite, h]
    rfl

end Effects

section Windows

variable {mem : HostMemory} {host a : U64} {value data : Buffer} {count : U64} {i : ℕ}

theorem window_offset (h : i < count.toNat) : (host + BitVec.ofNat 64 i - host).toNat = i := by
  have hi : i < 2 ^ 64 := by have := count.isLt; omega
  rw [BitVec.add_comm, BitVec.add_sub_cancel, BitVec.toNat_ofNat, Nat.mod_eq_of_lt hi]

theorem HostMemory.store_of_not_window (h : ¬ (a - host).toNat < count.toNat) :
    mem.store host data count a = mem a := if_neg h

theorem HostMemory.store_window (h : i < count.toNat) :
    mem.store host data count (host + BitVec.ofNat 64 i) = data i := by
  simp only [store, window_offset h, h, if_true]

/-- A store changes nothing exactly when the bytes are there already. -/
theorem HostMemory.store_eq_self_iff : mem.store host data count = mem ↔
    ∀ i < count.toNat, mem (host + BitVec.ofNat 64 i) = data i := by
  constructor
  · intro h i hi
    rw [← congrFun h, store_window hi]
  · intro h
    funext a
    by_cases ha : (a - host).toNat < count.toNat
    · have hbyte := h _ ha
      rw [BitVec.ofNat_toNat, BitVec.setWidth_eq, BitVec.add_comm, BitVec.sub_add_cancel] at hbyte
      rw [store, if_pos ha, hbyte]
    · exact store_of_not_window ha

theorem HostMemory.load_store (h : i < count.toNat) :
    (mem.store host data count).load host count value i = data i := by
  rw [load, if_pos h, store_window h]

end Windows

/-- For regions that do not wrap, which may overlap or share host memory, and every non-empty
request that does not wrap: after `MemWrite` returned true, `MemRead` of the same range gives the
bytes written, and no host byte outside the window of the region `MemWrite` selected has changed.
When it returned false no host byte has changed. -/
theorem memWriteEffect_roundTrip (regions : List MemoryRegion)
    (hw : ∀ r ∈ regions, r.NonWrapping) (mem : HostMemory) (paddr size : U64)
    (hsize : 0 < size.toNat) (hfits : RangeFits paddr size) (data : Buffer) :
    ((memWriteEffect mem regions paddr size data).1 = true →
      (∀ value, ∃ value', memReadEffect (memWriteEffect mem regions paddr size data).2 regions
          paddr size value = (true, value') ∧ ∀ i < size.toNat, value' i = data i) ∧
      ∃ c, memCopy regions paddr size = some c ∧ c.region ∈ regions ∧
        c.host = c.region.hostAddress paddr ∧ c.count = size ∧
        ∀ a, ¬ c.Window a → (memWriteEffect mem regions paddr size data).2 a = mem a) ∧
    ((memWriteEffect mem regions paddr size data).1 = false →
      (memWriteEffect mem regions paddr size data).2 = mem) := by
  have hcopy := memCopy_eq_covering hw hfits hsize
  cases hr : coveringRegion regions paddr size with
  | none =>
    rw [hr, Option.map_none] at hcopy
    rw [memWriteEffect_of_none hcopy]
    exact ⟨fun h => absurd h (by simp), fun _ => rfl⟩
  | some r =>
    rw [hr, Option.map_some] at hcopy
    have hmem : r ∈ regions := by simpa using List.mem_of_find?_eq_some hr
    have hhost : r.hostAddress paddr = r.hostMemory + paddr - r.baseAddress := by
      simpa using r.hostAddress_add paddr 0
    rw [memWriteEffect_of_some hcopy]
    refine ⟨fun _ => ⟨fun value => ?_, _, hcopy, hmem, hhost.symm, rfl, fun a ha => ?_⟩,
      fun h => absurd h (by simp)⟩
    · exact ⟨_, memReadEffect_of_some hcopy, fun i hi => HostMemory.load_store hi⟩
    · exact HostMemory.store_of_not_window ha

/-- Two regions map one host page, and the newer one is written across its middle. -/
theorem memWriteEffect_roundTrip_aliased :
    let regions : List MemoryRegion := [⟨0x1000, 0x2000, 0x10000⟩, ⟨0x2000, 0x1000, 0x10000⟩]
    let data : Buffer := fun i => BitVec.ofNat 8 i
    (memWriteEffect (fun _ => 0) regions 0x27FC 8 data).1 = true ∧
      ∃ value', memReadEffect (memWriteEffect (fun _ => 0) regions 0x27FC 8 data).2 regions
        0x27FC 8 (fun _ => 0) = (true, value') ∧ ∀ i < (8 : U64).toNat, value' i = data i := by
  intro regions data
  have hwritten : (memWriteEffect (fun _ => 0) regions 0x27FC 8 data).1 = true := by rfl
  have hroundTrip := memWriteEffect_roundTrip regions (by simp [regions, MemoryRegion.NonWrapping])
    (fun _ => 0) 0x27FC 8 (by decide) (by simp [RangeFits]) data
  exact ⟨hwritten, (hroundTrip.1 hwritten).1 _⟩

end Virt86
