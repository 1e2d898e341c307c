import Virt86.DeviceAccesses

/-!
# The data of memory accesses on KVM

`kvm_run` passes the data of a memory access in a field of eight bytes, of which the access uses
the first `len`. `HandleMMIO` takes the whole field when the guest writes, and stores the value it
reads for four lengths only.
-/

namespace Virt86

open BitSlices

namespace SharedBytes

variable (buffer : SharedBytes)

theorem getLsbD_load (offset size : ℕ) {w i : ℕ} (hi : i < w) :
    (buffer.load offset size w).getLsbD i =
      (decide (i < 8 * size) && (buffer (offset + i / 8)).getLsbD (i % 8)) := by
  rw [load, BitVec.getLsbD_ofNat, testBit_littleEndian_map fun k => buffer (offset + k)]
  simp [hi]

/-- The bytes of the value that is loaded. -/
theorem extractLsb'_load (offset size : ℕ) {w k : ℕ} (hk : 8 * k + 8 ≤ w) :
    (buffer.load offset size w).extractLsb' (8 * k) 8 =
      if k < size then buffer (offset + k) else 0 := by
  apply BitVec.eq_of_getLsbD_eq
  intro i hi
  rw [BitVec.getLsbD_extractLsb', getLsbD_load buffer offset size (by omega : 8 * k + i < w),
    show (8 * k + i) / 8 = k by omega, show (8 * k + i) % 8 = i by omega]
  split_ifs with hsize
  · simp [hi, show 8 * k + i < 8 * size by omega]
  · simp [show ¬ 8 * k + i < 8 * size by omega]

/-- Eight bytes are as good as the first `len` if the others are zero. -/
theorem load_eight_eq_iff (len : ℕ) :
    buffer.load 0 8 64 = buffer.load 0 len 64 ↔ ∀ k, len ≤ k → k < 8 → buffer k = 0 := by
  constructor
  · intro h k hlen hk
    have hbyte := congrArg (BitVec.extractLsb' (8 * k) 8) h
    rw [extractLsb'_load _ _ _ (by omega), extractLsb'_load _ _ _ (by omega), if_pos hk,
      if_neg (by omega), Nat.zero_add] at hbyte
    exact hbyte
  · intro h
    apply BitVec.eq_of_getLsbD_eq
    intro i hi
    rw [getLsbD_load _ _ _ hi, getLsbD_load _ _ _ hi, Nat.zero_add]
    by_cases hlen : i < 8 * len
    · simp [hlen, hi]
    · rw [h (i / 8) (by omega) (by omega)]
      simp

/-- The eight bytes tell two buffers apart that agree on fewer. -/
theorem load_eight_of_agree_iff (len : ℕ) :
    (∀ buffer' : SharedBytes, (∀ k < len, buffer' k = buffer k) →
      buffer'.load 0 8 64 = buffer.load 0 8 64) ↔ 8 ≤ len := by
  constructor
  · intro h
    by_contra hlen
    have hlt : len < 8 := by omega
    have hother := h (fun k => if k < len then buffer k else ~~~ buffer k)
      fun k hk => if_pos hk
    have hbyte := congrArg (BitVec.extractLsb' (8 * len) 8) hother
    rw [extractLsb'_load _ _ _ (by omega), extractLsb'_load _ _ _ (by omega), if_pos hlt,
      if_pos hlt, Nat.zero_add, if_neg (Nat.lt_irrefl _)] at hbyte
    exact BitVec.not_self_ne (by decide) hbyte
  · intro hlen buffer' h
    apply BitVec.eq_of_getLsbD_eq
    intro i hi
    rw [getLsbD_load _ _ _ hi, getLsbD_load _ _ _ hi, Nat.zero_add, h (i / 8) (by omega)]

/-- Storing changes nothing if the bytes are there already. -/
theorem eq_store_iff {w : ℕ} (size : ℕ) (value : BitVec w) :
    buffer = buffer.store 0 size value ↔
      ∀ k < size, buffer k = value.extractLsb' (8 * k) 8 := by
  rw [funext_iff]
  refine forall_congr' fun k => ?_
  rw [store, Nat.zero_add, Nat.sub_zero]
  by_cases hk : k < size
  · simp [hk]
  · simp [hk]

end SharedBytes

namespace Kvm.KvmExits

variable {D : Type}

/-- The exits with the invocations of the handlers recorded from now on. -/
def record (e : KvmExits D) : KvmExits (D × List DeviceAccess) where
  kvmRun := e.kvmRun
  exitInfo := e.exitInfo
  io := e.io.recorded
  device := (e.device, [])

/-- A write passes the first `len` bytes of the data to the handler. -/
def PassesData (e : KvmExits D) (phys_addr : U64) (len : ℕ) : Prop :=
  (e.record.handleMMIO phys_addr len true).2.device.2 =
    [.mmioWrite phys_addr len (e.kvmRun.data.load 0 len 64)]

/-- What a write passes to the handler does not depend on the data after the first `len` bytes. -/
def PassesNoMore (e : KvmExits D) (phys_addr : U64) (len : ℕ) : Prop :=
  ∀ data : SharedBytes, (∀ k < len, data k = e.kvmRun.data k) →
    (KvmExits.handleMMIO { e.record with kvmRun := { e.kvmRun with data } } phys_addr len
        true).2.device.2 =
      (e.record.handleMMIO phys_addr len true).2.device.2

/-- A read stores the low `len` bytes of what the handler returns. -/
def StoresResult (e : KvmExits D) (phys_addr : U64) (len : ℕ) : Prop :=
  (e.record.handleMMIO phys_addr len false).2.device.2 = [.mmioRead phys_addr len] ∧
    (e.record.handleMMIO phys_addr len false).2.kvmRun.data =
      e.kvmRun.data.store 0 len (e.io.mmioRead phys_addr len e.device).1

variable (e : KvmExits D) (phys_addr : U64) (len : ℕ)

theorem io_record : e.record.io = e.io.recorded := rfl

theorem invocations_write :
    (e.record.handleMMIO phys_addr len true).2.device.2 =
      [.mmioWrite phys_addr len (e.kvmRun.data.load 0 8 64)] :=
  (handleMMIO_recorded e.io_record phys_addr len true).2.2

theorem invocations_read :
    (e.record.handleMMIO phys_addr len false).2.device.2 = [.mmioRead phys_addr len] :=
  (handleMMIO_recorded e.io_record phys_addr len false).2.2

theorem passesData_iff :
    e.PassesData phys_addr len ↔ ∀ k, len ≤ k → k < 8 → e.kvmRun.data k = 0 := by
  rw [PassesData, invocations_write, ← SharedBytes.load_eight_eq_iff]
  simp

theorem passesNoMore_iff : e.PassesNoMore phys_addr len ↔ 8 ≤ len := by
  rw [← e.kvmRun.data.load_eight_of_agree_iff, PassesNoMore]
  refine forall₂_congr fun data _ => ?_
  have hdata := invocations_write { e with kvmRun := { e.kvmRun with data } } phys_addr len
  rw [invocations_write]
  constructor
  · intro h
    have hsame := hdata.symm.trans h
    simp only [List.cons.injEq, DeviceAccess.mmioWrite.injEq, true_and, and_true] at hsame
    exact hsame
  · intro h
    rw [← h]
    exact hdata

/-- The lengths for which a read stores its result. -/
theorem data_handleMMIO_read :
    (e.record.handleMMIO phys_addr len false).2.kvmRun.data =
      if len = 1 ∨ len = 2 ∨ len = 4 ∨ len = 8 then
        e.kvmRun.data.store 0 len (e.io.mmioRead phys_addr len e.device).1
      else e.kvmRun.data := by
  simp only [KvmExits.handleMMIO, record, setReason, IOHandlers.recorded, Bool.false_eq_true,
    if_false]
  split
  · simp
  · simp
  · simp
  · simp
  · rename_i hone htwo hfour height
    rw [if_neg]
    rintro (h | h | h | h)
    · exact hone h
    · exact htwo h
    · exact hfour h
    · exact height h

theorem storesResult_iff :
    e.StoresResult phys_addr len ↔ (len = 1 ∨ len = 2 ∨ len = 4 ∨ len = 8) ∨
      ∀ k < len, e.kvmRun.data k =
        (e.io.mmioRead phys_addr len e.device).1.extractLsb' (8 * k) 8 := by
  rw [StoresResult, invocations_read, data_handleMMIO_read, ← SharedBytes.eq_store_iff]
  split_ifs with hlen
  · simp [hlen]
  · simp [hlen]

end Kvm.KvmExits

/-- A memory access transfers its data on KVM if and only if, when the guest writes, the rest of
the field is zero, and when it reads, the length is one that `HandleMMIO` stores, or the result is
in the field already. What a write passes depends on the first bytes alone if and only if these
are the whole field. -/
theorem mmio_transfers_iff {D : Type} (e : Kvm.KvmExits D) (phys_addr : U64) (len : ℕ) :
    (e.PassesData phys_addr len ↔ ∀ k, len ≤ k → k < 8 → e.kvmRun.data k = 0) ∧
      (e.PassesNoMore phys_addr len ↔ 8 ≤ len) ∧
      (e.StoresResult phys_addr len ↔ (len = 1 ∨ len = 2 ∨ len = 4 ∨ len = 8) ∨
        ∀ k < len, e.kvmRun.data k =
          (e.io.mmioRead phys_addr len e.device).1.extractLsb' (8 * k) 8) :=
  ⟨e.passesData_iff phys_addr len, e.passesNoMore_iff phys_addr len,
    e.storesResult_iff phys_addr len⟩

/-- A device that returns bytes of one, and a data field with bytes of two. -/
private def filledExits : Kvm.KvmExits Unit where
  kvmRun := ⟨.Mmio 0xFEE00000 2 true, fun _ => 2⟩
  exitInfo := ⟨.Normal, 0⟩
  io := { IOHandlers.none with mmioRead := fun _ _ _ => (0x010101, [], ()) }
  device := ()

/-- A write of two bytes passes eight, and a read of three stores nothing. -/
theorem mmio_transfers_not_stale :
    ¬ filledExits.PassesData 0xFEE00000 2 ∧ ¬ filledExits.PassesNoMore 0xFEE00000 2 ∧
      ¬ filledExits.StoresResult 0xFEE00FFF 3 := by
  refine ⟨?_, ?_, ?_⟩
  · rw [Kvm.KvmExits.passesData_iff]
    intro h
    exact absurd (h 2 (Nat.le_refl _) (by decide)) (by decide)
  · rw [Kvm.KvmExits.passesNoMore_iff]
    decide
  · rw [Kvm.KvmExits.storesResult_iff]
    rintro (hlen | hresult)
    · exact absurd hlen (by decide)
    · exact absurd (hresult 0 (by decide)) (by decide)

end Virt86
