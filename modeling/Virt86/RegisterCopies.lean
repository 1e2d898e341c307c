import Virt86.BulkAccesses
import Virt86.HaxmRegisterViews
import Virt86.KvmRegisterBank
import Virt86.WhpxRegisterViews

/-!
# Copies between registers

`RegCopy` reads a register into a variable of its own and writes the variable to another. KVM and
HAXM fill as many bits of the variable as the source has and take as many as the destination has,
WHPX fills it with the whole register that the source is a view of.
-/

namespace Virt86

open BitSlices

/-- One of the next calls fails. -/
theorem false_mem_take_succ (answers : List Bool) (n : ℕ) :
    false ∈ answers.take (n + 1) ↔
      answers.headD true = false ∨ false ∈ answers.tail.take n := by
  cases answers with
  | nil => simp
  | cons ok answers => simp [eq_comm]

namespace Kvm

/-- The general-purpose registers that the register accessors see. -/
def KvmRegisterState.general (s : KvmRegisterState) : GeneralFile :=
  s.refreshRegisters.2.cache.files.regs.general

/-- The copies are accessed by views. -/
theorem viewAccessors :
    ViewAccessors refreshedAccessors.fresh fun s => s.cache.files.regs.general where
  regRead {reg g w} h value s := by
    have hread := kvmRegRead_bank s.cache.files reg value
    rw [kvmRegister_of_generalName h] at hread
    exact congrArg (fun r => (r, s)) hread
  regWrite {reg g w} h value s := by
    have hwrite := kvmRegWrite_of_register s.cache value (kvmRegister_of_generalName h)
    have hfile : (s.cache.store value (.general g w)).files.regs.general =
        s.cache.files.regs.general.write g w (value.low w.width) :=
      congrArg KvmBank.general (s.cache.bank_store value (.general g w))
    refine ⟨congrArg Prod.fst hwrite, ?_⟩
    have hnext : (refreshedAccessors.fresh.regWrite reg value s).2.cache =
        s.cache.store value (.general g w) := congrArg Prod.snd hwrite
    rw [hnext, hfile, GeneralFile.read_write_self]
  regWrite_congr {reg g w} h value value' hlow s := by
    have hwrite (v : RegValue) := kvmRegWrite_of_register s.cache v (kvmRegister_of_generalName h)
    have hstore : s.cache.store value (.general g w) = s.cache.store value' (.general g w) := by
      simp only [KvmRegisterCache.store, hlow]
    have hsame : kvmRegWrite s.cache reg value = kvmRegWrite s.cache reg value' := by
      rw [hwrite, hwrite, hstore]
    simp only [refreshedAccessors, hsame]

theorem fetchFile_answers (i : KvmFile) (s : KvmRegisterState) :
    (s.fetchFile i).1 = s.kernel.answers.headD true ∧
      (s.fetchFile i).2.kernel.answers = s.kernel.answers.tail := by
  cases hanswers : s.kernel.answers with
  | nil => simp [KvmRegisterState.fetchFile, KvmKernel.answer, hanswers]
  | cons ok answers =>
    cases ok <;> simp [KvmRegisterState.fetchFile, KvmKernel.answer, hanswers]

/-- A fetch of some files fails when one of their calls does. -/
theorem forFiles_fetchFile_eq_false_iff (files : List KvmFile) (s : KvmRegisterState) :
    (KvmRegisterState.forFiles KvmRegisterState.fetchFile files s).1 = false ↔
      false ∈ s.kernel.answers.take files.length := by
  induction files generalizing s with
  | nil => simp [KvmRegisterState.forFiles]
  | cons i files ih =>
    obtain ⟨hok, hanswers⟩ := fetchFile_answers i s
    rw [List.length_cons, false_mem_take_succ, ← hok, ← hanswers]
    simp only [KvmRegisterState.forFiles]
    rcases KvmRegisterState.fetchFile i s with ⟨ok, s'⟩
    cases ok with
    | false => simp
    | true => simpa using ih s'

theorem refreshRegisters_eq_false_iff (s : KvmRegisterState) :
    s.refreshRegisters.1 = false ↔
      s.cache.regsDirty = true ∧ false ∈ s.kernel.answers.take 4 := by
  have hfetch : (KvmRegisterState.forFiles KvmRegisterState.fetchFile allFiles s).1 = false ↔
      false ∈ s.kernel.answers.take 4 := forFiles_fetchFile_eq_false_iff allFiles s
  simp only [KvmRegisterState.refreshRegisters]
  cases s.cache.regsDirty with
  | false => simp
  | true =>
    rcases hrun : KvmRegisterState.forFiles KvmRegisterState.fetchFile allFiles s with ⟨ok, s'⟩
    rw [hrun] at hfetch
    cases ok <;> simpa using hfetch

end Kvm

namespace Haxm

/-- The general-purpose registers that the register accessors see. -/
def HaxmRegisterState.general (s : HaxmRegisterState) : GeneralFile :=
  s.refreshRegisters.2.cache.files.regs.general

theorem ne_efer_of_generalName {reg : Reg} {g : GeneralRegister} {w : GeneralView}
    (h : generalName reg = some (g, w)) : reg ≠ .EFER := by
  rintro rfl
  cases h

/-- The copies are accessed by views. -/
theorem viewAccessors :
    ViewAccessors refreshedAccessors.fresh fun s => s.cache.files.regs.general where
  regRead {reg g w} h value s := by
    have hread := regRead_of_ne_efer s (ne_efer_of_generalName h) value
    rw [haxmRegRead_general h] at hread
    exact hread
  regWrite {reg g w} h value s := by
    have hwrite := regWrite_of_ne_efer s (ne_efer_of_generalName h) value
    obtain ⟨hstatus, hfile⟩ := haxmRegWrite_general h s.cache value
    refine ⟨(congrArg Prod.fst hwrite).trans hstatus, ?_⟩
    have hnext : (refreshedAccessors.fresh.regWrite reg value s).2.cache =
        (haxmRegWrite s.cache reg value).2 :=
      congrArg (fun r => HaxmRegisterState.cache r.2) hwrite
    rw [hnext, hfile, GeneralFile.read, Function.update_self, read_assigned h]
  regWrite_congr {reg g w} h value value' hlow s := by
    have hwrite (v : RegValue) := regWrite_of_ne_efer s (ne_efer_of_generalName h) v
    have hsame : haxmRegWrite s.cache reg value = haxmRegWrite s.cache reg value' := by
      simp only [haxmRegWrite_setGeneral h, assigned_congr h hlow]
    change s.regWrite reg value = s.regWrite reg value'
    rw [hwrite, hwrite, hsame]

theorem fetchFile_answers (i : HaxmFile) (s : HaxmRegisterState) :
    (s.fetchFile i).1 = s.driver.answers.headD true ∧
      (s.fetchFile i).2.driver.answers = s.driver.answers.tail := by
  cases hanswers : s.driver.answers with
  | nil => simp [HaxmRegisterState.fetchFile, HaxmDriver.answer, hanswers]
  | cons ok answers =>
    cases ok <;> simp [HaxmRegisterState.fetchFile, HaxmDriver.answer, hanswers]

theorem refreshRegisters_eq_false_iff (s : HaxmRegisterState) :
    s.refreshRegisters.1 = false ↔
      s.cache.regsDirty = true ∧ false ∈ s.driver.answers.take 2 := by
  simp only [HaxmRegisterState.refreshRegisters]
  cases s.cache.regsDirty with
  | false => simp
  | true =>
    obtain ⟨hok, hanswers⟩ := fetchFile_answers .regs s
    rw [false_mem_take_succ, ← hok, ← hanswers]
    rcases s.fetchFile .regs with ⟨ok, s'⟩
    cases ok with
    | false => simp
    | true =>
      obtain ⟨hok', -⟩ := fetchFile_answers .fpuRegs s'
      rw [false_mem_take_succ, ← hok']
      rcases hfetch : s'.fetchFile .fpuRegs with ⟨ok', s''⟩
      cases ok' <;> simp [hfetch]

end Haxm

namespace Whpx

/-- `RegRead` and `RegWrite` for one register. -/
def registerAccessors : RegisterAccessors WhpxRegisterState where
  regRead reg value s := s.regRead reg value
  regWrite reg value s := s.regWrite reg value

/-- The low bits of the register `x`, as many as the view `w` has, are its view `w'` and zeros. -/
def LowBitsShow (x : U64) (w : GeneralView) : GeneralView → Prop
  | .highByte => if w.width = 8 then x.extractLsb' 0 8 = x.extractLsb' 8 8
      else x.extractLsb' 0 w.width = 0
  | w' => x.extractLsb' w'.width (w.width - w'.width) = 0

/-- Low bits that are the second byte and zeros have a zero in place of that byte. -/
theorem extractLsb'_eq_secondByte_iff (x : U64) {n : ℕ} (hn : 16 ≤ n) :
    x.extractLsb' 0 n = 0 ↔ x.extractLsb' 0 n = (x.extractLsb' 8 8).setWidth n := by
  constructor
  · intro h
    have hbyte : x.extractLsb' 8 8 = 0 := by
      rw [← BitVec.extractLsb'_extractLsb'_of_le (show 8 + 8 ≤ n by omega), h]
      exact BitVec.extractLsb'_zero
    rw [h, hbyte]
    exact (BitVec.setWidth_zero n 8).symm
  · intro h
    have hbyte : x.extractLsb' 8 8 = 0 := by
      apply BitVec.eq_of_getLsbD_eq
      intro i hi
      have hbit := congrArg (fun y => y.getLsbD (8 + i)) h
      simp only [BitVec.getLsbD_setWidth, BitVec.getLsbD_extractLsb'] at hbit
      simpa [show 8 + i < n by omega, show ¬ 8 + i < 8 by omega, hi] using hbit
    rw [h, hbyte]
    exact BitVec.setWidth_zero n 8

theorem lowBitsShow_iff (x : U64) (w w' : GeneralView) :
    LowBitsShow x w w' ↔ x.extractLsb' 0 w.width = (w'.read x).setWidth w.width := by
  cases w' with
  | lowByte => exact (extractLsb'_eq_setWidth_iff x 8 w.width).symm
  | word => exact (extractLsb'_eq_setWidth_iff x 16 w.width).symm
  | dword => exact (extractLsb'_eq_setWidth_iff x 32 w.width).symm
  | qword =>
    have hiff := extractLsb'_eq_setWidth_iff x 64 w.width
    rw [BitVec.extractLsb'_eq_self] at hiff
    exact hiff.symm
  | highByte =>
    cases w with
    | lowByte | highByte =>
      rw [LowBitsShow, if_pos rfl, BitVec.setWidth_eq]
      rfl
    | word => exact extractLsb'_eq_secondByte_iff x (show 16 ≤ 16 by omega)
    | dword => exact extractLsb'_eq_secondByte_iff x (show 16 ≤ 32 by omega)
    | qword => exact extractLsb'_eq_secondByte_iff x (show 16 ≤ 64 by omega)

section Copies

variable {s : WhpxRegisterState} {dst src : Reg} {g g' : GeneralRegister} {w w' : GeneralView}

theorem answer_answers (s : WhpxRegisterState) :
    s.answer.1 = s.answers.headD true ∧ s.answer.2.answers = s.answers.tail := by
  rw [WhpxRegisterState.answer]
  cases hanswers : s.answers with
  | nil => exact ⟨rfl, hanswers⟩
  | cons ok answers => exact ⟨rfl, rfl⟩

/-- The variable is overwritten as a whole. -/
theorem regCopy_eq (hsrc : generalName src = some (g', w')) (tmp : RegValue) :
    registerAccessors.regCopy dst src tmp s = if s.answer.1
      then s.answer.2.regWrite dst ((0 : RegValue).setU64 (s.general g'))
      else (.Failed, s.answer.2) := by
  have hread := s.regRead_eq (translateRegisterName_general hsrc s.whpxVersion) tmp
  rw [translateRegisterValueRead_general hsrc] at hread
  simp only [RegisterAccessors.regCopy, registerAccessors, hread]
  cases s.answer.1 <;> rfl

theorem regCopy_OK_iff (hdst : generalName dst = some (g, w))
    (hsrc : generalName src = some (g', w')) (tmp : RegValue) :
    (registerAccessors.regCopy dst src tmp s).1 = .OK ↔ false ∉ s.answers.take 3 := by
  have hname := translateRegisterName_general hdst s.answer.2.whpxVersion
  rw [regCopy_eq hsrc, WhpxRegisterState.regWrite_eq hname, false_mem_take_succ,
    ← (answer_answers s).1, ← (answer_answers s).2, false_mem_take_succ,
    ← (answer_answers s.answer.2).1, ← (answer_answers s.answer.2).2, false_mem_take_succ,
    ← (answer_answers s.answer.2.answer.2).1]
  cases s.answer.1 <;> cases s.answer.2.answer.1 <;> cases s.answer.2.answer.2.answer.1 <;> simp

/-- A copy takes the low bits of the register that the source is a view of. -/
theorem read_regCopy (hdst : generalName dst = some (g, w)) (hsrc : generalName src = some (g', w'))
    (tmp : RegValue) (hok : (registerAccessors.regCopy dst src tmp s).1 = .OK) :
    (registerAccessors.regCopy dst src tmp s).2.general.read g w =
      (s.general g').extractLsb' 0 w.width := by
  have hgeneral : s.answer.2.general = s.general := by
    funext g
    rw [WhpxRegisterState.general, WhpxRegisterState.answer_state.1]
    rfl
  rw [regCopy_eq hsrc] at hok ⊢
  split_ifs at hok ⊢
  rw [WhpxRegisterState.general_regWrite hdst _ hok, hgeneral, GeneralFile.read_write_self,
    low_setU64 _ w.width_le]

/-- A copy is right when the low bits of the source's register are the source and zeros. -/
theorem copies_iff (hdst : generalName dst = some (g, w)) (hsrc : generalName src = some (g', w'))
    (s : WhpxRegisterState) :
    Copies registerAccessors WhpxRegisterState.general dst src g g' w w' s ↔
      LowBitsShow (s.general g') w w' ∨ false ∈ s.answers.take 3 := by
  rw [lowBitsShow_iff]
  constructor
  · intro hcopies
    by_cases hfails : false ∈ s.answers.take 3
    · exact .inr hfails
    · have hok := (regCopy_OK_iff hdst hsrc 0).2 hfails
      have hcopied := hcopies.copied 0 hok
      rw [read_regCopy hdst hsrc 0 hok] at hcopied
      exact .inl hcopied
  · intro hright
    refine ⟨fun tmp tmp' => ?_, fun tmp hok => ?_⟩
    · rw [regCopy_eq hsrc, regCopy_eq hsrc]
    · rw [read_regCopy hdst hsrc tmp hok]
      exact hright.resolve_right ((regCopy_OK_iff hdst hsrc tmp).1 hok)

end Copies

end Whpx

/-- A copy between views of general-purpose registers is right on KVM and HAXM unless the
destination is wider than the source, and on WHPX unless the register of the source has other bits
where the destination looks. A call that fails keeps the copy from happening. -/
theorem regCopy_copies_iff {dst src : Reg} {g g' : GeneralRegister} {w w' : GeneralView}
    (hdst : generalName dst = some (g, w)) (hsrc : generalName src = some (g', w'))
    (kvm : Kvm.KvmRegisterState) (haxm : Haxm.HaxmRegisterState) (whpx : Whpx.WhpxRegisterState) :
    (Copies Kvm.registerAccessors Kvm.KvmRegisterState.general dst src g g' w w' kvm ↔
      w.width ≤ w'.width ∨ kvm.cache.regsDirty = true ∧ false ∈ kvm.kernel.answers.take 4) ∧
    (Copies Haxm.registerAccessors Haxm.HaxmRegisterState.general dst src g g' w w' haxm ↔
      w.width ≤ w'.width ∨ haxm.cache.regsDirty = true ∧ false ∈ haxm.driver.answers.take 2) ∧
    (Copies Whpx.registerAccessors Whpx.WhpxRegisterState.general dst src g g' w w' whpx ↔
      Whpx.LowBitsShow (whpx.general g') w w' ∨ false ∈ whpx.answers.take 3) := by
  refine ⟨?_, ?_, Whpx.copies_iff hdst hsrc whpx⟩
  · rw [← Kvm.refreshRegisters_eq_false_iff]
    exact RefreshedAccessors.copies_iff Kvm.viewAccessors hdst hsrc kvm
  · rw [← Haxm.refreshRegisters_eq_false_iff]
    exact RefreshedAccessors.copies_iff Haxm.viewAccessors hdst hsrc haxm

/-! ## A copy of a byte -/

/-- Processors with the given contents of `RAX`. -/
def Kvm.withRax (rax : U64) : Kvm.KvmRegisterState where
  cache := (default : Kvm.KvmRegisterCache).modifyRegs fun r => { r with rax }
  kernel := ⟨default, ⟨0, Vector.replicate 8 0⟩, [], []⟩

def Haxm.withRax (rax : U64) : Haxm.HaxmRegisterState where
  cache := (default : Haxm.HaxmRegisterCache).modifyRegs fun r => { r with rax }
  useEferMSR := true
  driver := ⟨default, 0, ⟨0, Vector.replicate 8 0⟩, [], []⟩

def Whpx.withRax (rax : U64) : Whpx.WhpxRegisterState where
  whpxVersion := ⟨10, 0, 17763, 0⟩
  registers name := if name = .Rax then rax.setWidth 128 else 0
  answers := []

/-- The upper bits of `RAX` are those that the variable or `RAX` had before. -/
theorem regCopy_RAX_AL_keeps_bits :
    (Kvm.registerAccessors.regCopy .RAX .AL 0 (Kvm.withRax 5)).2.general .RAX = 5 ∧
    (Kvm.registerAccessors.regCopy .RAX .AL 0x100 (Kvm.withRax 5)).2.general .RAX = 0x105 ∧
    (Haxm.registerAccessors.regCopy .RAX .AL 0x100 (Haxm.withRax 5)).2.general .RAX = 0x105 ∧
    (Whpx.registerAccessors.regCopy .RAX .AL 0 (Whpx.withRax 0x105)).2.general .RAX = 0x105 ∧
    ¬ ∀ (kvm : Kvm.KvmRegisterState) (haxm : Haxm.HaxmRegisterState)
      (whpx : Whpx.WhpxRegisterState) (dst src : Reg) (g g' : GeneralRegister)
      (w w' : GeneralView), generalName dst = some (g, w) → generalName src = some (g', w') →
      Copies Kvm.registerAccessors Kvm.KvmRegisterState.general dst src g g' w w' kvm ∧
      Copies Haxm.registerAccessors Haxm.HaxmRegisterState.general dst src g g' w w' haxm ∧
      Copies Whpx.registerAccessors Whpx.WhpxRegisterState.general dst src g g' w w' whpx := by
  have hzero : (Kvm.registerAccessors.regCopy .RAX .AL 0 (Kvm.withRax 5)).2.general .RAX = 5 := by
    decide +kernel
  have hstale : (Kvm.registerAccessors.regCopy .RAX .AL 0x100 (Kvm.withRax 5)).2.general .RAX =
      0x105 := by
    decide +kernel
  refine ⟨hzero, hstale, by decide +kernel, by decide +kernel, ?_⟩
  intro hall
  have hcopies := hall (Kvm.withRax 5) (Haxm.withRax 5) (Whpx.withRax 5) .RAX .AL _ _ _ _ rfl rfl
  rw [hcopies.1.independent 0 0x100, hstale] at hzero
  exact absurd hzero (by decide)

/-- Copies of `RAX` to `AL` are right on all platforms. -/
theorem regCopy_AL_RAX_copies :
    Copies Kvm.registerAccessors Kvm.KvmRegisterState.general .AL .RAX .RAX .RAX .lowByte .qword
      (Kvm.withRax 5) ∧
    Copies Haxm.registerAccessors Haxm.HaxmRegisterState.general .AL .RAX .RAX .RAX .lowByte .qword
      (Haxm.withRax 5) ∧
    Copies Whpx.registerAccessors Whpx.WhpxRegisterState.general .AL .RAX .RAX .RAX .lowByte .qword
      (Whpx.withRax 5) := by
  obtain ⟨hkvm, hhaxm, hwhpx⟩ := regCopy_copies_iff (show generalName .AL = _ from rfl)
    (show generalName .RAX = _ from rfl) (Kvm.withRax 5) (Haxm.withRax 5) (Whpx.withRax 5)
  exact ⟨hkvm.2 (.inl (by decide)), hhaxm.2 (.inl (by decide)), hwhpx.2 (.inl rfl)⟩

end Virt86
