import Virt86.DeviceAccesses
import Virt86.MemoryTransfers

/-!
# The buffers of string port accesses

`HandleIO` goes through the elements of a port access with a pointer. It points into `kvm_run` on
KVM and into the I/O tunnel on HAXM, where it starts at the last element and goes down when the
direction flag is set.
-/

namespace Virt86

variable {D : Type}

/-! ## Elements of a buffer -/

section Elements

variable {io : IOHandlers D} {size : PortSize} {port : U16} {offsets : List ℕ}
  {buffer : SharedBytes} {device : D}

/-- The results of so many reads from a port. -/
def ioReadResults (io : IOHandlers D) (port : U16) (size : ℕ) : ℕ → D → List U32
  | 0, _ => []
  | n + 1, device =>
    (io.ioRead port size device).1 :: ioReadResults io port size n (io.ioRead port size device).2.2

/-- Writing to a port leaves the buffer as it is. -/
theorem portLoop_output (io : IOHandlers D) (size : PortSize) (port : U16) (offsets : List ℕ)
    (buffer : SharedBytes) (device : D) :
    (portLoop io .output size port offsets buffer device).2.1 = buffer := by
  induction offsets generalizing device with
  | nil => rfl
  | cons offset offsets ih => exact ih _

theorem portLoop_input_cons (offset : ℕ) :
    (portLoop io .input size port (offset :: offsets) buffer device).2.1 =
      (portLoop io .input size port offsets
        (buffer.store offset size.bytes (io.ioRead port size.bytes device).1)
        (io.ioRead port size.bytes device).2.2).2.1 := rfl

/-- A read changes no bytes other than those of its element. -/
theorem portLoop_input_of_outside {k : ℕ}
    (hk : ∀ offset ∈ offsets, ¬ (offset ≤ k ∧ k < offset + size.bytes)) :
    (portLoop io .input size port offsets buffer device).2.1 k = buffer k := by
  induction offsets generalizing buffer device with
  | nil => rfl
  | cons offset offsets ih =>
    rw [List.forall_mem_cons] at hk
    rw [portLoop_input_cons, ih hk.2, SharedBytes.store, if_neg hk.1]

/-- Elements that do not overlap receive the results in order. -/
theorem portLoop_input (hdisjoint : offsets.Pairwise fun o o' =>
      o + size.bytes ≤ o' ∨ o' + size.bytes ≤ o) :
    ∀ p ∈ offsets.zip (ioReadResults io port size.bytes offsets.length device),
      ∀ j < size.bytes, (portLoop io .input size port offsets buffer device).2.1 (p.1 + j) =
        p.2.extractLsb' (8 * j) 8 := by
  induction offsets generalizing buffer device with
  | nil => exact fun p hp => absurd hp List.not_mem_nil
  | cons offset offsets ih =>
    rw [List.pairwise_cons] at hdisjoint
    rw [List.length_cons, ioReadResults, List.zip_cons_cons, List.forall_mem_cons]
    rw [portLoop_input_cons]
    refine ⟨fun j hj => ?_, ih hdisjoint.2⟩
    rw [portLoop_input_of_outside, SharedBytes.store, if_pos (by omega), Nat.add_sub_cancel_left]
    intro o ho
    have hapart := hdisjoint.1 o ho
    omega

end Elements

/-! ## The pointer -/

/-- The loop of `HandleIO`: the pointer, the host's memory, the device, and what was accessed: the
registers by the handlers, the bytes of the memory by the loop. -/
structure PortWalk (D : Type) where
  ptr : U64
  memory : HostMemory
  device : D
  accesses : List HostAccess
  touched : List U64

namespace PortWalk

/-- One element, at the pointer. -/
def element (io : IOHandlers D) (direction : PortDirection) (size : PortSize) (port : U16)
    (s : PortWalk D) : PortWalk D :=
  let addresses := (List.range size.bytes).map fun k => s.ptr + BitVec.ofNat 64 k
  match direction with
  | .output =>
    let value : U32 := BitVec.ofNat 32 (BitSlices.littleEndian (addresses.map s.memory))
    let (accesses, device) := io.ioWrite port size.bytes value s.device
    { s with device, accesses := s.accesses ++ accesses, touched := s.touched ++ addresses }
  | .input =>
    let (value, accesses, device) := io.ioRead port size.bytes s.device
    let memory : HostMemory := fun a =>
      if (a - s.ptr).toNat < size.bytes then value.extractLsb' (8 * (a - s.ptr).toNat) 8
      else s.memory a
    { s with memory, device, accesses := s.accesses ++ accesses
             touched := s.touched ++ addresses }

/-- One element, and the pointer to the next. -/
def step (io : IOHandlers D) (direction : PortDirection) (size : PortSize) (port : U16)
    (advance : U64 → U64) (s : PortWalk D) : PortWalk D :=
  let s := s.element io direction size port
  { s with ptr := advance s.ptr }

/-- So many elements. -/
def run (io : IOHandlers D) (direction : PortDirection) (size : PortSize) (port : U16)
    (advance : U64 → U64) : ℕ → PortWalk D → PortWalk D
  | 0, s => s
  | n + 1, s => run io direction size port advance n (s.step io direction size port advance)

/-- The bytes from an address on. -/
def view (memory : HostMemory) (base : U64) : SharedBytes :=
  fun k => memory (base + BitVec.ofNat 64 k)

def elementAddresses (base : U64) (size : PortSize) (offset : ℕ) : List U64 :=
  (List.range size.bytes).map fun k => base + BitVec.ofNat 64 (offset + k)

/-- The pointer goes to the elements at the offsets in turn. -/
def Visits (advance : U64 → U64) (base : U64) : U64 → List ℕ → Prop
  | _, [] => True
  | ptr, offset :: offsets =>
    ptr = base + BitVec.ofNat 64 offset ∧ Visits advance base (advance ptr) offsets

/-- A walk from `s` to `s'` did to the memory and the device what `outcome` says, and touched the
elements at the offsets. -/
structure Performs (base : U64) (size : PortSize) (offsets : List ℕ) (s s' : PortWalk D)
    (outcome : List HostAccess × SharedBytes × D) : Prop where
  accesses : s'.accesses = s.accesses ++ outcome.1
  memory : ∀ k < 2 ^ 64, view s'.memory base k = outcome.2.1 k
  device : s'.device = outcome.2.2
  touched : s'.touched = s.touched ++ offsets.flatMap (elementAddresses base size)

section Walk

variable {io : IOHandlers D} {direction : PortDirection} {size : PortSize} {port : U16}
  {advance : U64 → U64} {base : U64} {s : PortWalk D} {buffer : SharedBytes} {offset : ℕ}

theorem ptr_step : (s.step io direction size port advance).ptr = advance s.ptr := by
  cases direction <;> rfl

theorem touched_step (hptr : s.ptr = base + BitVec.ofNat 64 offset) :
    (s.step io direction size port advance).touched =
      s.touched ++ elementAddresses base size offset := by
  have haddresses : ((List.range size.bytes).map fun k => s.ptr + BitVec.ofNat 64 k) =
      elementAddresses base size offset := by
    simp only [elementAddresses, hptr, BitVec.ofNat_add, BitVec.add_assoc]
  cases direction with
  | output => simp only [step, element, haddresses]
  | input => simp only [step, element, haddresses]

/-- What is loaded through the pointer. -/
theorem map_memory_element (hptr : s.ptr = base + BitVec.ofNat 64 offset)
    (hoffset : offset + size.bytes ≤ 2 ^ 64)
    (hbuffer : ∀ k < 2 ^ 64, view s.memory base k = buffer k) :
    ((List.range size.bytes).map fun k => s.ptr + BitVec.ofNat 64 k).map s.memory =
      (List.range size.bytes).map fun k => buffer (offset + k) := by
  rw [List.map_map]
  apply List.map_congr_left
  intro k hk
  rw [List.mem_range] at hk
  rw [← hbuffer (offset + k) (by omega), view, Function.comp_apply, hptr, BitVec.ofNat_add,
    BitVec.add_assoc]

theorem toNat_sub_ptr (hptr : s.ptr = base + BitVec.ofNat 64 offset) (hoffset : offset < 2 ^ 64)
    {k : ℕ} (hk : k < 2 ^ 64) :
    (base + BitVec.ofNat 64 k - s.ptr).toNat = if offset ≤ k then k - offset
      else k + 2 ^ 64 - offset := by
  rw [hptr]
  split_ifs <;> bv_omega

variable (io direction port advance)

theorem step_performs (hptr : s.ptr = base + BitVec.ofNat 64 offset)
    (hoffset : offset + size.bytes ≤ 2 ^ 64)
    (hbuffer : ∀ k < 2 ^ 64, view s.memory base k = buffer k) :
    Performs base size [offset] s (s.step io direction size port advance)
      (portAccess io direction size port offset buffer s.device) := by
  have htouched : (s.step io direction size port advance).touched =
      s.touched ++ [offset].flatMap (elementAddresses base size) := by
    rw [touched_step hptr, List.flatMap_singleton]
  cases direction with
  | output =>
    have hvalue : ((List.range size.bytes).map fun k => s.ptr + BitVec.ofNat 64 k).map s.memory =
        (List.range size.bytes).map fun k => buffer (offset + k) :=
      map_memory_element hptr hoffset hbuffer
    refine ⟨?_, hbuffer, ?_, htouched⟩
    · simp only [step, element, portAccess, SharedBytes.load, hvalue]
    · simp only [step, element, portAccess, SharedBytes.load, hvalue]
  | input =>
    refine ⟨rfl, fun k hk => ?_, rfl, htouched⟩
    have hbytes : 0 < size.bytes := by cases size <;> decide
    simp only [view, step, element, portAccess, SharedBytes.store,
      toNat_sub_ptr hptr (by omega : offset < 2 ^ 64) hk]
    by_cases hin : offset ≤ k ∧ k < offset + size.bytes
    · rw [if_pos hin, if_pos hin.1, if_pos (by omega)]
    · rw [if_neg hin, if_neg (by split_ifs <;> omega)]
      exact hbuffer k hk

theorem Performs.trans {s' s'' : PortWalk D} {offsets : List ℕ}
    {o o' : List HostAccess × SharedBytes × D} (h : Performs base size [offset] s s' o)
    (h' : Performs base size offsets s' s'' o') :
    Performs base size (offset :: offsets) s s'' (o.1 ++ o'.1, o'.2) where
  accesses := by rw [h'.accesses, h.accesses, List.append_assoc]
  memory := h'.memory
  device := h'.device
  touched := by
    rw [h'.touched, h.touched, List.flatMap_singleton, List.flatMap_cons, List.append_assoc]

/-- The walk does what the loop over the offsets does. -/
theorem run_performs {offsets : List ℕ} (hvisits : Visits advance base s.ptr offsets)
    (hoffsets : ∀ offset ∈ offsets, offset + size.bytes ≤ 2 ^ 64)
    (hbuffer : ∀ k < 2 ^ 64, view s.memory base k = buffer k) :
    Performs base size offsets s (s.run io direction size port advance offsets.length)
      (portLoop io direction size port offsets buffer s.device) := by
  induction offsets generalizing s buffer with
  | nil => exact ⟨(List.append_nil _).symm, hbuffer, rfl, (List.append_nil _).symm⟩
  | cons offset offsets ih =>
    obtain ⟨hptr, hvisits⟩ := hvisits
    rw [List.forall_mem_cons] at hoffsets
    have hfirst := step_performs io direction port advance hptr hoffsets.1 hbuffer
    have hptr' : (s.step io direction size port advance).ptr = advance s.ptr := ptr_step
    have hrest := ih (hptr' ▸ hvisits) hoffsets.2 hfirst.memory
    rw [hfirst.device] at hrest
    exact hfirst.trans hrest

end Walk

/-! ## Up and down -/

section Paths

variable {base ptr : U64} {size : ℕ}

/-- Going up, the pointer visits the elements in order. -/
theorem visits_up (first n : ℕ) (hptr : ptr = base + BitVec.ofNat 64 (first * size)) :
    Visits (· + BitVec.ofNat 64 size) base ptr
      ((List.range' first n).map fun i => i * size) := by
  induction n generalizing first ptr with
  | zero => trivial
  | succ n ih =>
    rw [List.range'_succ, List.map_cons]
    refine ⟨hptr, ih (first + 1) ?_⟩
    change ptr + BitVec.ofNat 64 size = _
    rw [hptr, BitVec.add_assoc, ← BitVec.ofNat_add, Nat.succ_mul]

/-- Going down from the last element, the pointer visits them from the last to the first. -/
theorem visits_down (n : ℕ)
    (hptr : ptr + BitVec.ofNat 64 size = base + BitVec.ofNat 64 (n * size)) :
    Visits (· - BitVec.ofNat 64 size) base ptr
      ((List.range n).reverse.map fun i => i * size) := by
  induction n generalizing ptr with
  | zero => trivial
  | succ n ih =>
    have hnext : ptr = base + BitVec.ofNat 64 (n * size) := by
      rw [Nat.succ_mul, BitVec.ofNat_add, ← BitVec.add_assoc] at hptr
      exact (BitVec.add_left_inj _).mp hptr
    rw [List.range_succ, List.reverse_append, List.reverse_singleton, List.singleton_append,
      List.map_cons]
    refine ⟨hnext, ih ?_⟩
    rw [BitVec.sub_add_cancel, hnext]

end Paths

end PortWalk

/-! ## `HandleIO` -/

/-- The loop of `HandleIO` on KVM, with the buffer at `base`. -/
def Kvm.portWalk (io : IOHandlers D) (direction : PortDirection) (size : PortSize)
    (port count : U16) (base : U64) (memory : HostMemory) (device : D) : PortWalk D :=
  PortWalk.run io direction size port (· + BitVec.ofNat 64 size.bytes) count.toNat
    ⟨base, memory, device, [], []⟩

/-- The loop of `HandleIO` on HAXM. The number of elements is less one as an `int`, so that it
is -1 when there are none. -/
def Haxm.portWalk (io : IOHandlers D) (direction : PortDirection) (df : Bool) (size : PortSize)
    (port count : U16) (base : U64) (memory : HostMemory) (device : D) : PortWalk D :=
  let last : U32 := count.setWidth 32 - 1
  let ptr := if df then base + BitVec.ofNat 64 size.bytes * last.signExtend 64 else base
  let advance : U64 → U64 := fun ptr =>
    if df then ptr - BitVec.ofNat 64 size.bytes else ptr + BitVec.ofNat 64 size.bytes
  PortWalk.run io direction size port advance count.toNat ⟨ptr, memory, device, [], []⟩

/-- The element that each access uses. -/
def portElements (df : Bool) (count : ℕ) : List ℕ :=
  (List.range count).map fun i => if df then count - 1 - i else i

section Elements

variable {df : Bool} {count : ℕ}

theorem portElements_eq (df : Bool) (count : ℕ) :
    portElements df count = if df then (List.range count).reverse else List.range count := by
  cases df with
  | false => simp [portElements]
  | true => simp [portElements, List.range_eq_range', List.reverse_range']

theorem length_portElements : (portElements df count).length = count := by
  simp [portElements]

theorem lt_of_mem_portElements {i : ℕ} (hi : i ∈ portElements df count) : i < count := by
  rw [portElements, List.mem_map] at hi
  obtain ⟨k, hk, rfl⟩ := hi
  rw [List.mem_range] at hk
  split_ifs <;> omega

/-- Different accesses use different elements. -/
theorem portElements_pairwise : (portElements df count).Pairwise fun i i' => i < i' ∨ i' < i := by
  have hup : (List.range count).Pairwise fun i i' => i < i' ∨ i' < i :=
    List.pairwise_lt_range.imp Or.inl
  rw [portElements_eq]
  split_ifs
  · exact List.pairwise_reverse.mpr (hup.imp Or.symm)
  · exact hup

end Elements

/-- The number of elements less one, extended with its sign. -/
theorem signExtend_last (count : U16) :
    (count.setWidth 32 - 1 : U32).signExtend 64 = BitVec.ofNat 64 count.toNat - 1#64 := by
  by_cases hzero : count = 0
  · subst hzero
    decide
  · have hpos : count.toNat ≠ 0 := fun h => hzero (BitVec.eq_of_toNat_eq h)
    have hlast : (count.setWidth 32 - 1 : U32).toNat = count.toNat - 1 := by bv_omega
    have hmsb : (count.setWidth 32 - 1 : U32).msb = false := by
      rw [BitVec.msb_eq_false_iff_two_mul_lt, hlast]
      omega
    rw [BitVec.signExtend_eq_setWidth_of_msb_false hmsb]
    apply BitVec.eq_of_toNat_eq
    rw [BitVec.toNat_setWidth, hlast]
    bv_omega

/-- A walk downward sets out from the last element. -/
theorem start_down (size : PortSize) (count : U16) (base : U64) :
    base + BitVec.ofNat 64 size.bytes * (count.setWidth 32 - 1 : U32).signExtend 64 +
        BitVec.ofNat 64 size.bytes =
      base + BitVec.ofNat 64 (count.toNat * size.bytes) := by
  rw [signExtend_last, BitVec.add_assoc, Nat.mul_comm, BitVec.ofNat_mul, BitVec.mul_sub,
    BitVec.mul_one, BitVec.sub_add_cancel]

/-! ## The walks do what `HandleIO` does -/

section Walks

variable {io : IOHandlers D} {direction : PortDirection} {df : Bool} {size : PortSize}
  {port count : U16} {base : U64} {memory : HostMemory} {device : D}

/-- The offsets of the elements in the order of the accesses. -/
def portOffsets (df : Bool) (size : PortSize) (count : ℕ) : List ℕ :=
  (portElements df count).map (· * size.bytes)

theorem length_portOffsets (count : ℕ) : (portOffsets df size count).length = count := by
  rw [portOffsets, List.length_map, length_portElements]

/-- The elements lie in the first bytes. -/
theorem portOffsets_le {count offset : ℕ} (h : offset ∈ portOffsets df size count) :
    offset + size.bytes ≤ count * size.bytes := by
  rw [portOffsets, List.mem_map] at h
  obtain ⟨i, hi, rfl⟩ := h
  rw [← Nat.succ_mul]
  exact Nat.mul_le_mul_right _ (lt_of_mem_portElements hi)

theorem portOffsets_lt {offset : ℕ} (h : offset ∈ portOffsets df size count.toNat) :
    offset + size.bytes ≤ 2 ^ 64 := by
  have hle := portOffsets_le h
  have hcount := count.isLt
  have hbytes : size.bytes ≤ 4 := by cases size <;> decide
  have hmul := Nat.mul_le_mul hcount.le hbytes
  omega

/-- No two accesses overlap. -/
theorem portOffsets_apart (count : ℕ) : (portOffsets df size count).Pairwise fun o o' =>
    o + size.bytes ≤ o' ∨ o' + size.bytes ≤ o := by
  rw [portOffsets, List.pairwise_map]
  apply portElements_pairwise.imp
  rintro i i' (hlt | hlt)
  · left
    rw [← Nat.succ_mul]
    exact Nat.mul_le_mul_right _ hlt
  · right
    rw [← Nat.succ_mul]
    exact Nat.mul_le_mul_right _ hlt

variable {buffer : SharedBytes}
  (hbuffer : ∀ k < 2 ^ 64, PortWalk.view memory base k = buffer k)

include hbuffer

theorem Kvm.portWalk_performs : PortWalk.Performs base size (portOffsets false size count.toNat)
    ⟨base, memory, device, [], []⟩
    (Kvm.portWalk io direction size port count base memory device)
    (portLoop io direction size port (portOffsets false size count.toNat) buffer device) := by
  have hvisits : PortWalk.Visits (· + BitVec.ofNat 64 size.bytes) base base
      (portOffsets false size count.toNat) := by
    rw [portOffsets, portElements_eq, List.range_eq_range']
    apply PortWalk.visits_up
    simp
  have hwalk := PortWalk.run_performs io direction port _ (s := ⟨base, memory, device, [], []⟩)
    hvisits (fun _ h => portOffsets_lt h) hbuffer
  rw [length_portOffsets] at hwalk
  exact hwalk

theorem Haxm.portWalk_performs : PortWalk.Performs base size (portOffsets df size count.toNat)
    ⟨base, memory, device, [], []⟩
    (Haxm.portWalk io direction df size port count base memory device)
    (portLoop io direction size port (portOffsets df size count.toNat) buffer device) := by
  cases df with
  | false => exact Kvm.portWalk_performs hbuffer
  | true =>
    have hvisits : PortWalk.Visits (· - BitVec.ofNat 64 size.bytes) base
        (base + BitVec.ofNat 64 size.bytes * (count.setWidth 32 - 1 : U32).signExtend 64)
        (portOffsets true size count.toNat) := by
      rw [portOffsets, portElements_eq]
      exact PortWalk.visits_down _ (start_down size count base)
    have hwalk := PortWalk.run_performs io direction port _ (s := ⟨_, memory, device, [], []⟩)
      hvisits (fun _ h => portOffsets_lt h) hbuffer
    rw [length_portOffsets] at hwalk
    exact ⟨hwalk.accesses, hwalk.memory, hwalk.device, hwalk.touched⟩

end Walks

/-- The walk of KVM is `HandleIO` with the buffer where the memory has it. -/
theorem Kvm.portWalk_handleIO {e : Kvm.KvmExits D} {direction : PortDirection} {size : PortSize}
    {port count : U16} {base : U64} {memory : HostMemory}
    (hbuffer : ∀ k < 2 ^ 64, PortWalk.view memory base k = e.kvmRun.data k) :
    PortWalk.Performs base size (portOffsets false size count.toNat)
      ⟨base, memory, e.device, [], []⟩
      (Kvm.portWalk e.io direction size port count base memory e.device)
      ((e.handleIO direction size port count).1,
        (e.handleIO direction size port count).2.kvmRun.data,
        (e.handleIO direction size port count).2.device) := by
  have hloop : ((e.handleIO direction size port count).1,
        (e.handleIO direction size port count).2.kvmRun.data,
        (e.handleIO direction size port count).2.device) =
      portLoop e.io direction size port (portOffsets false size count.toNat) e.kvmRun.data
        e.device := by
    rw [portOffsets, portElements_eq]
    rfl
  rw [hloop]
  exact Kvm.portWalk_performs hbuffer

/-- The walk of HAXM is `HandleIO` with the I/O tunnel where the memory has it. -/
theorem Haxm.portWalk_handleIO {e : Haxm.HaxmExits D} {direction : PortDirection} {df : Bool}
    {size : PortSize} {port count : U16} {base : U64} {memory : HostMemory}
    (hbuffer : ∀ k < 2 ^ 64, PortWalk.view memory base k = e.tunnel.ioTunnel k) :
    PortWalk.Performs base size (portOffsets df size count.toNat)
      ⟨base, memory, e.device, [], []⟩
      (Haxm.portWalk e.io direction df size port count base memory e.device)
      ((e.handleIO direction df size port count).1,
        (e.handleIO direction df size port count).2.tunnel.ioTunnel,
        (e.handleIO direction df size port count).2.device) := by
  have hloop : ((e.handleIO direction df size port count).1,
        (e.handleIO direction df size port count).2.tunnel.ioTunnel,
        (e.handleIO direction df size port count).2.device) =
      portLoop e.io direction size port (portOffsets df size count.toNat) e.tunnel.ioTunnel
        e.device := by
    rw [portOffsets, portElements_eq]
    rfl
  rw [hloop]
  exact Haxm.portWalk_performs hbuffer

/-! ## What a port exit transfers -/

/-- The handlers are invoked once for each of the elements in turn, a write with what the memory
has there; the results of reads end up in the elements, and nothing else is touched. -/
structure PortTransfer (io : IOHandlers D) (direction : PortDirection) (size : PortSize)
    (port : U16) (base : U64) (memory : HostMemory) (device : D) (elements : List ℕ)
    (s : PortWalk (D × List DeviceAccess)) : Prop where
  invocations : s.device.2 = elements.map fun i =>
    describedPortAccess direction size port (PortWalk.view memory base) (i * size.bytes)
  output : direction = .output → s.memory = memory
  input : direction = .input →
    ∀ p ∈ elements.zip (ioReadResults io port size.bytes elements.length device),
      ∀ j < size.bytes, s.memory (base + BitVec.ofNat 64 (p.1 * size.bytes + j)) =
        p.2.extractLsb' (8 * j) 8
  outside : ∀ k < 2 ^ 64, elements.length * size.bytes ≤ k →
    s.memory (base + BitVec.ofNat 64 k) = memory (base + BitVec.ofNat 64 k)
  touched : ∀ a ∈ s.touched, ∃ k < elements.length * size.bytes, a = base + BitVec.ofNat 64 k

section Transfers

variable {io : IOHandlers D} {direction : PortDirection} {df : Bool} {size : PortSize}
  {port count : U16} {base : U64} {memory : HostMemory} {device : D}

theorem ioReadResults_recorded (n : ℕ) (d : D × List DeviceAccess) :
    ioReadResults io.recorded port size.bytes n d = ioReadResults io port size.bytes n d.1 := by
  induction n generalizing d with
  | zero => rfl
  | succ n ih => exact congrArg _ (ih _)

/-- The bytes from an address on are the whole memory. -/
theorem eq_of_view (base : U64) {memory' : HostMemory}
    (h : ∀ k < 2 ^ 64, PortWalk.view memory' base k = PortWalk.view memory base k) :
    memory' = memory := by
  funext a
  have ha := h (a - base).toNat (a - base).isLt
  rw [PortWalk.view, PortWalk.view, BitVec.ofNat_toNat, BitVec.setWidth_eq, BitVec.add_comm,
    BitVec.sub_add_cancel] at ha
  exact ha

theorem mem_portOffsets_flatMap {a : U64} {count : ℕ}
    (ha : a ∈ (portOffsets df size count).flatMap (PortWalk.elementAddresses base size)) :
    ∃ k < count * size.bytes, a = base + BitVec.ofNat 64 k := by
  rw [List.mem_flatMap] at ha
  obtain ⟨offset, hoffset, ha⟩ := ha
  rw [PortWalk.elementAddresses, List.mem_map] at ha
  obtain ⟨k, hk, rfl⟩ := ha
  rw [List.mem_range] at hk
  have hle := portOffsets_le hoffset
  exact ⟨offset + k, by omega, rfl⟩

/-- What the loop over the elements does is such a transfer. -/
theorem PortWalk.Performs.transfer {s s' : PortWalk (D × List DeviceAccess)}
    (h : PortWalk.Performs base size (portOffsets df size count.toNat) s s'
      (portLoop io.recorded direction size port (portOffsets df size count.toNat)
        (PortWalk.view memory base) (device, [])))
    (htouched : s.touched = []) :
    PortTransfer io direction size port base memory device (portElements df count.toNat) s' where
  invocations := by
    rw [h.device, portLoop_recorded, portOffsets, List.map_map]
    rfl
  output hdirection := by
    subst hdirection
    refine eq_of_view base fun k hk => ?_
    rw [h.memory k hk, portLoop_output]
  input hdirection := by
    subst hdirection
    intro p hp j hj
    have hoffset : (p.1 * size.bytes, p.2) ∈ (portOffsets df size count.toNat).zip
        (ioReadResults io.recorded port size.bytes (portOffsets df size count.toNat).length
          (device, [])) := by
      rw [ioReadResults_recorded, length_portOffsets, portOffsets, List.zip_map_left]
      rw [length_portElements] at hp
      exact List.mem_map_of_mem hp
    have hresult : (portLoop io.recorded .input size port (portOffsets df size count.toNat)
        (PortWalk.view memory base) (device, [])).2.1 (p.1 * size.bytes + j) =
          p.2.extractLsb' (8 * j) 8 :=
      portLoop_input (portOffsets_apart count.toNat) _ hoffset j hj
    have hin := portOffsets_lt (List.of_mem_zip hoffset).1
    rw [← hresult, ← h.memory _ (by omega), PortWalk.view]
  outside k hk hle := by
    rw [length_portElements] at hle
    have hmemory := h.memory k hk
    have hout : ∀ offset ∈ portOffsets df size count.toNat,
        ¬ (offset ≤ k ∧ k < offset + size.bytes) := by
      intro offset hoffset
      have := portOffsets_le hoffset
      omega
    cases direction with
    | output =>
      rw [portLoop_output] at hmemory
      exact hmemory
    | input =>
      rw [portLoop_input_of_outside hout] at hmemory
      exact hmemory
  touched a ha := by
    rw [h.touched, htouched, List.nil_append] at ha
    rw [length_portElements]
    exact mem_portOffsets_flatMap ha

end Transfers

/-- `HandleIO` on KVM and on HAXM invokes the handlers once for each element of a port exit, on
HAXM backwards when the direction flag is set. -/
theorem port_exit_transfers {D : Type} (io : IOHandlers D) (direction : PortDirection)
    (df : Bool) (size : PortSize) (port count : U16) (base : U64) (memory : HostMemory)
    (device : D) :
    PortTransfer io direction size port base memory device (portElements false count.toNat)
        (Kvm.portWalk io.recorded direction size port count base memory (device, [])) ∧
      PortTransfer io direction size port base memory device (portElements df count.toNat)
        (Haxm.portWalk io.recorded direction df size port count base memory (device, [])) :=
  ⟨(Kvm.portWalk_performs fun _ _ => rfl).transfer rfl,
    (Haxm.portWalk_performs fun _ _ => rfl).transfer rfl⟩

end Virt86
