import Virt86.HaxmProcessor
import Virt86.KvmProcessor
import Virt86.RegisterAccessors

/-!
# Accesses to arrays of registers on KVM and HAXM

Both backends replace the loops of `VirtualProcessor` over arrays of registers by loops on the
copies of the registers, which are refreshed once.
-/

namespace Virt86

/-- The result of a `RegRead` as that of an access. -/
def readResult {S : Type} (r : (VPOperationStatus × List RegValue) × S) : AccessResult × S :=
  ((r.1.1, .values r.1.2), r.2)

/-- The result of a `RegWrite` as that of an access. -/
def writeResult {S : Type} (r : VPOperationStatus × S) : AccessResult × S :=
  ((r.1, .nothing), r.2)

namespace Kvm

theorem regsDirty_kvmRegWrite (c : KvmRegisterCache) (reg : Reg) (value : RegValue) :
    (kvmRegWrite c reg value).2.regsDirty = c.regsDirty := by
  rcases kvmRegWrite_spec reg value with ⟨-, hwrite⟩ | ⟨i, -, hwrite⟩
  · rw [hwrite]
  · rw [hwrite, regsDirty_modify]

theorem refreshRegisters_eq_self_iff {s : KvmRegisterState} :
    s.refreshRegisters = (true, s) ↔ s.cache.regsDirty = false := by
  constructor
  · intro h
    have hclean := regsDirty_refreshRegisters (s := s) (by rw [h])
    rwa [h] at hclean
  · intro h
    simp only [KvmRegisterState.refreshRegisters, h, Bool.false_eq_true, if_false]

/-- `KvmRegRead` and `KvmRegWrite` behind `KvmRefreshRegisters`. -/
def refreshedAccessors : RefreshedAccessors KvmRegisterState where
  refresh := KvmRegisterState.refreshRegisters
  fresh :=
    { regRead := fun reg value s => (kvmRegRead s.cache.files reg value, s)
      regWrite := fun reg value s =>
        ((kvmRegWrite s.cache reg value).1, { s with cache := (kvmRegWrite s.cache reg value).2 }) }
  refresh_refresh s s' h := by
    have hclean := regsDirty_refreshRegisters (s := s) (by rw [h])
    rw [h] at hclean
    exact refreshRegisters_eq_self_iff.2 hclean
  refresh_regRead _ _ _ h := h
  refresh_regWrite reg value s h := by
    rw [refreshRegisters_eq_self_iff] at h ⊢
    exact (regsDirty_kvmRegWrite s.cache reg value).trans h

/-- `RegRead` and `RegWrite` for one register. -/
abbrev registerAccessors : RegisterAccessors KvmRegisterState := refreshedAccessors.accessors

theorem access_regRead_eq (s : KvmRegisterState) (reg : Reg) (value : RegValue) :
    s.access (.regRead reg value) = readResult
      (((registerAccessors.regRead reg value s).1.1, [(registerAccessors.regRead reg value s).1.2]),
        (registerAccessors.regRead reg value s).2) := by
  simp only [KvmRegisterState.access, RefreshedAccessors.accessors, refreshedAccessors]
  rcases s.refreshRegisters with ⟨ok, s'⟩
  cases ok <;> rfl

theorem access_regWrite_eq (s : KvmRegisterState) (reg : Reg) (value : RegValue) :
    s.access (.regWrite reg value) = writeResult (registerAccessors.regWrite reg value s) := by
  simp only [KvmRegisterState.access, RefreshedAccessors.accessors, refreshedAccessors]
  rcases s.refreshRegisters with ⟨ok, s'⟩
  cases ok <;> rfl

/-- The loops of `VirtualProcessor` on fresh copies are those of the backend. -/
theorem regReadBulk_fresh (s : KvmRegisterState) (regs : List (Reg × RegValue)) :
    refreshedAccessors.fresh.regReadBulk regs s =
      (KvmRegisterCache.regReadLoop s.cache.files regs, s) := by
  induction regs with
  | nil => rfl
  | cons entry rest ih =>
    obtain ⟨reg, value⟩ := entry
    simp only [RegisterAccessors.regReadBulk, KvmRegisterCache.regReadLoop]
    have hread : refreshedAccessors.fresh.regRead reg value s =
        (kvmRegRead s.cache.files reg value, s) := rfl
    rw [hread]
    rcases kvmRegRead s.cache.files reg value with ⟨status, value'⟩
    cases status with
    | OK => simp only [ih]
    | _ => rfl

theorem regWriteBulk_fresh (s : KvmRegisterState) (regs : List (Reg × RegValue)) :
    refreshedAccessors.fresh.regWriteBulk regs s =
      ((s.cache.regWriteLoop regs).1, { s with cache := (s.cache.regWriteLoop regs).2 }) := by
  induction regs generalizing s with
  | nil => rfl
  | cons entry rest ih =>
    obtain ⟨reg, value⟩ := entry
    simp only [RegisterAccessors.regWriteBulk, KvmRegisterCache.regWriteLoop]
    have hwrite : refreshedAccessors.fresh.regWrite reg value s =
        ((kvmRegWrite s.cache reg value).1,
          { s with cache := (kvmRegWrite s.cache reg value).2 }) := rfl
    rw [hwrite]
    rcases kvmRegWrite s.cache reg value with ⟨status, c⟩
    cases status with
    | OK => exact ih { s with cache := c }
    | _ => rfl

/-- The loops of KVM are those of `VirtualProcessor`. -/
theorem access_regReadBulk (s : KvmRegisterState) {regs : List (Reg × RegValue)} (hne : regs ≠ []) :
    s.access (.regReadBulk regs) = readResult (registerAccessors.regReadBulk regs s) := by
  have hrefresh : refreshedAccessors.refresh s = s.refreshRegisters := rfl
  rw [refreshedAccessors.regReadBulk_eq hne, hrefresh]
  simp only [KvmRegisterState.access]
  rcases s.refreshRegisters with ⟨ok, s'⟩
  cases ok with
  | false => rfl
  | true =>
    simp only [regReadBulk_fresh]
    rfl

theorem access_regWriteBulk (s : KvmRegisterState) {regs : List (Reg × RegValue)}
    (hne : regs ≠ []) :
    s.access (.regWriteBulk regs) = writeResult (registerAccessors.regWriteBulk regs s) := by
  have hrefresh : refreshedAccessors.refresh s = s.refreshRegisters := rfl
  rw [refreshedAccessors.regWriteBulk_eq hne, hrefresh]
  simp only [KvmRegisterState.access]
  rcases s.refreshRegisters with ⟨ok, s'⟩
  cases ok with
  | false => rfl
  | true =>
    simp only [regWriteBulk_fresh]
    rfl

end Kvm

namespace Haxm

/-- Neither kind of write touches the flag: `EFER` goes to its MSR or to the copies. -/
theorem regsDirty_regWrite (s : HaxmRegisterState) (reg : Reg) (value : RegValue) :
    (s.regWrite reg value).2.cache.regsDirty = s.cache.regsDirty := by
  rw [HaxmRegisterState.regWrite]
  split_ifs with hefer
  · rfl
  · rcases haxmRegWrite_spec reg value with hwrite | ⟨i, hwrite⟩
    · rw [hwrite]
    · rw [hwrite]
      exact regsDirty_modify s.cache i _

theorem regsDirty_regRead (s : HaxmRegisterState) (reg : Reg) (value : RegValue) :
    (s.regRead reg value).2.cache.regsDirty = s.cache.regsDirty := by
  rw [HaxmRegisterState.regRead]
  split_ifs <;> rfl

theorem refreshRegisters_eq_self_iff {s : HaxmRegisterState} :
    s.refreshRegisters = (true, s) ↔ s.cache.regsDirty = false := by
  constructor
  · intro h
    have hclean := regsDirty_refreshRegisters (s := s) (by rw [h])
    rwa [h] at hclean
  · intro h
    simp only [HaxmRegisterState.refreshRegisters, h, Bool.false_eq_true, if_false]

/-- `HaxmRegRead` and `HaxmRegWrite` behind `RefreshRegisters`. -/
def refreshedAccessors : RefreshedAccessors HaxmRegisterState where
  refresh := HaxmRegisterState.refreshRegisters
  fresh :=
    { regRead := fun reg value s => s.regRead reg value
      regWrite := fun reg value s => s.regWrite reg value }
  refresh_refresh s s' h := by
    have hclean := regsDirty_refreshRegisters (s := s) (by rw [h])
    rw [h] at hclean
    exact refreshRegisters_eq_self_iff.2 hclean
  refresh_regRead reg value s h := by
    rw [refreshRegisters_eq_self_iff] at h ⊢
    exact (regsDirty_regRead s reg value).trans h
  refresh_regWrite reg value s h := by
    rw [refreshRegisters_eq_self_iff] at h ⊢
    exact (regsDirty_regWrite s reg value).trans h

/-- `RegRead` and `RegWrite` for one register. -/
abbrev registerAccessors : RegisterAccessors HaxmRegisterState := refreshedAccessors.accessors

theorem access_regRead_eq (s : HaxmRegisterState) (reg : Reg) (value : RegValue) :
    s.access (.regRead reg value) = readResult
      (((registerAccessors.regRead reg value s).1.1, [(registerAccessors.regRead reg value s).1.2]),
        (registerAccessors.regRead reg value s).2) := by
  simp only [HaxmRegisterState.access, RefreshedAccessors.accessors, refreshedAccessors]
  rcases s.refreshRegisters with ⟨ok, s'⟩
  cases ok <;> rfl

theorem access_regWrite_eq (s : HaxmRegisterState) (reg : Reg) (value : RegValue) :
    s.access (.regWrite reg value) = writeResult (registerAccessors.regWrite reg value s) := by
  simp only [HaxmRegisterState.access, RefreshedAccessors.accessors, refreshedAccessors]
  rcases s.refreshRegisters with ⟨ok, s'⟩
  cases ok <;> rfl

theorem regReadBulk_fresh (s : HaxmRegisterState) (regs : List (Reg × RegValue)) :
    refreshedAccessors.fresh.regReadBulk regs s = s.regReadLoop regs := by
  induction regs generalizing s with
  | nil => rfl
  | cons entry rest ih =>
    obtain ⟨reg, value⟩ := entry
    simp only [RegisterAccessors.regReadBulk, HaxmRegisterState.regReadLoop]
    have hread : refreshedAccessors.fresh.regRead reg value s = s.regRead reg value := rfl
    rw [hread]
    rcases s.regRead reg value with ⟨⟨status, value'⟩, s'⟩
    cases status with
    | OK => simp only [ih s']
    | _ => rfl

theorem regWriteBulk_fresh (s : HaxmRegisterState) (regs : List (Reg × RegValue)) :
    refreshedAccessors.fresh.regWriteBulk regs s = s.regWriteLoop regs := by
  induction regs generalizing s with
  | nil => rfl
  | cons entry rest ih =>
    obtain ⟨reg, value⟩ := entry
    simp only [RegisterAccessors.regWriteBulk, HaxmRegisterState.regWriteLoop]
    have hwrite : refreshedAccessors.fresh.regWrite reg value s = s.regWrite reg value := rfl
    rw [hwrite]
    rcases s.regWrite reg value with ⟨status, s'⟩
    cases status with
    | OK => exact ih s'
    | _ => rfl

/-- The loops of HAXM are those of `VirtualProcessor`. -/
theorem access_regReadBulk (s : HaxmRegisterState) {regs : List (Reg × RegValue)}
    (hne : regs ≠ []) :
    s.access (.regReadBulk regs) = readResult (registerAccessors.regReadBulk regs s) := by
  have hrefresh : refreshedAccessors.refresh s = s.refreshRegisters := rfl
  rw [refreshedAccessors.regReadBulk_eq hne, hrefresh]
  simp only [HaxmRegisterState.access]
  rcases s.refreshRegisters with ⟨ok, s'⟩
  cases ok with
  | false => rfl
  | true =>
    simp only [regReadBulk_fresh]
    rfl

theorem access_regWriteBulk (s : HaxmRegisterState) {regs : List (Reg × RegValue)}
    (hne : regs ≠ []) :
    s.access (.regWriteBulk regs) = writeResult (registerAccessors.regWriteBulk regs s) := by
  have hrefresh : refreshedAccessors.refresh s = s.refreshRegisters := rfl
  rw [refreshedAccessors.regWriteBulk_eq hne, hrefresh]
  simp only [HaxmRegisterState.access]
  rcases s.refreshRegisters with ⟨ok, s'⟩
  cases ok with
  | false => rfl
  | true =>
    simp only [regWriteBulk_fresh]
    rfl

end Haxm

/-- An access to an array of registers does the same as the loop of single accesses, in every state
and whichever calls fail. -/
theorem bulk_eq_loop (kvm : Kvm.KvmRegisterState) (haxm : Haxm.HaxmRegisterState)
    {regs : List (Reg × RegValue)} (hne : regs ≠ []) :
    kvm.access (.regReadBulk regs) = readResult (Kvm.registerAccessors.regReadBulk regs kvm) ∧
    kvm.access (.regWriteBulk regs) = writeResult (Kvm.registerAccessors.regWriteBulk regs kvm) ∧
    haxm.access (.regReadBulk regs) = readResult (Haxm.registerAccessors.regReadBulk regs haxm) ∧
    haxm.access (.regWriteBulk regs) =
      writeResult (Haxm.registerAccessors.regWriteBulk regs haxm) :=
  ⟨Kvm.access_regReadBulk kvm hne, Kvm.access_regWriteBulk kvm hne,
    Haxm.access_regReadBulk haxm hne, Haxm.access_regWriteBulk haxm hne⟩

/-- Stale copies whose second fetch fails, and an array with an unsupported register. -/
theorem bulk_eq_loop_of_failing :
    let kvm : Kvm.KvmRegisterState :=
      { cache := { (default : Kvm.KvmRegisterCache) with regsDirty := true }
        kernel := ⟨default, ⟨0, Vector.replicate 8 0⟩, [true, false], []⟩ }
    let haxm : Haxm.HaxmRegisterState :=
      { cache := { (default : Haxm.HaxmRegisterCache) with regsDirty := true }
        useEferMSR := true
        driver := ⟨default, 0, ⟨0, Vector.replicate 8 0⟩, [true, false], []⟩ }
    let regs : List (Reg × RegValue) := [(.EFER, 1), (.CR8, 2), (.RAX, 3)]
    kvm.access (.regReadBulk regs) = readResult (Kvm.registerAccessors.regReadBulk regs kvm) ∧
    haxm.access (.regWriteBulk regs) =
      writeResult (Haxm.registerAccessors.regWriteBulk regs haxm) := by
  intro kvm haxm regs
  have hloops := bulk_eq_loop kvm haxm (show regs ≠ [] from List.cons_ne_nil _ _)
  exact ⟨hloops.1, hloops.2.2.2⟩

end Virt86
