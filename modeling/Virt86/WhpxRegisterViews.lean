import Virt86.GeneralRegisters
import Virt86.WhpxRegisters

/-!
# The views of the general-purpose registers on WHPX

A write puts the view into the register that was fetched. A read gives the whole register under
each of its names, so that the caller finds a view in the low bits of the result.
-/

namespace Virt86

namespace Whpx

open BitSlices

def whvGeneral : GeneralRegister → WhvRegisterName
  | .RAX => .Rax
  | .RCX => .Rcx
  | .RDX => .Rdx
  | .RBX => .Rbx
  | .RSP => .Rsp
  | .RBP => .Rbp
  | .RSI => .Rsi
  | .RDI => .Rdi
  | .R8 => .R8
  | .R9 => .R9
  | .R10 => .R10
  | .R11 => .R11
  | .R12 => .R12
  | .R13 => .R13
  | .R14 => .R14
  | .R15 => .R15

/-- The group of labels for the names of a view. -/
def labels : GeneralView → RegisterView
  | .lowByte => .lowByte
  | .highByte => .highByte
  | .word => .lowWord
  | .dword => .dword
  | .qword => .qword

/-- The general-purpose registers of the hypervisor. -/
def WhpxRegisterState.general (s : WhpxRegisterState) : GeneralFile :=
  fun g => (s.registers (whvGeneral g)).reg64

theorem whvGeneral_injective : Function.Injective whvGeneral := by
  intro g g' h
  cases g <;> cases g' <;> first | rfl | cases h

section Names

variable {reg : Reg} {g : GeneralRegister} {w : GeneralView} (h : generalName reg = some (g, w))
include h

theorem translateRegisterName_general (whpxVersion : VersionInfo) :
    translateRegisterName whpxVersion reg = some (whvGeneral g) := by
  cases reg <;> cases h <;> rfl

theorem registerView_general : registerView reg = labels w := by
  cases reg <;> cases h <;> rfl

/-- All views are read as the whole register. -/
theorem translateRegisterValueRead_general (value : WhvRegisterValue) :
    translateRegisterValueRead reg value = (0 : RegValue).setU64 value.reg64 := by
  rw [translateRegisterValueRead, registerView_general h]
  cases w <;> rfl

/-- A view is written by the rules of the architecture. -/
theorem reg64_write_general (value : RegValue) (output : WhvRegisterValue) :
    (translateRegisterValue reg value output).reg64 =
      w.write output.reg64 (value.low w.width) := by
  have hset (x : U64) : (output.setReg64 x).reg64 = x := extractLsb'_setSlice output 0 x (by omega)
  rw [translateRegisterValue, registerView_general h, ← GeneralView.merge_eq_write]
  cases w <;> exact hset _

end Names

/-! ## Calls -/

namespace WhpxRegisterState

variable {s : WhpxRegisterState} {reg : Reg} {name : WhvRegisterName}

theorem answer_state : s.answer.2.registers = s.registers ∧
    s.answer.2.whpxVersion = s.whpxVersion := by
  rw [answer]
  cases s.answers <;> exact ⟨rfl, rfl⟩

/-- A read of one supported register. -/
theorem regRead_eq (h : translateRegisterName s.whpxVersion reg = some name) (value : RegValue) :
    s.regRead reg value = if s.answer.1
      then ((.OK, translateRegisterValueRead reg (s.registers name)), s.answer.2)
      else ((.Failed, value), s.answer.2) := by
  have hnames : [(reg, value)].mapM (fun entry => translateRegisterName s.whpxVersion entry.1) =
      some [name] := by
    rw [List.mapM_cons, h]
    rfl
  rw [← answer_state.1]
  simp only [regRead, regReadBulk, hnames, getVirtualProcessorRegisters]
  cases s.answer with
  | mk ok s => cases ok <;> rfl

/-- A write of one supported register. -/
theorem regWrite_eq (h : translateRegisterName s.whpxVersion reg = some name) (value : RegValue) :
    s.regWrite reg value =
      if s.answer.1 then
        if s.answer.2.answer.1 then
          (.OK, { s.answer.2.answer.2 with
            registers := Function.update s.registers name
              (translateRegisterValue reg value (s.registers name)) })
        else (.Failed, s.answer.2.answer.2)
      else (.Failed, s.answer.2) := by
  have hnames : [(reg, value)].mapM (fun entry => translateRegisterName s.whpxVersion entry.1) =
      some [name] := by
    rw [List.mapM_cons, h]
    rfl
  rw [← answer_state.1]
  simp only [regWrite, regWriteBulk, hnames, getVirtualProcessorRegisters,
    setVirtualProcessorRegisters]
  cases s.answer with
  | mk ok s =>
    cases ok with
    | false => rfl
    | true =>
      simp only [← (answer_state (s := s)).1]
      cases s.answer with
      | mk ok s => cases ok <;> rfl

/-- A successful write changes the register that the name is a view of. -/
theorem registers_of_regWrite (h : translateRegisterName s.whpxVersion reg = some name)
    (value : RegValue) (hok : (s.regWrite reg value).1 = .OK) :
    (s.regWrite reg value).2.registers =
      Function.update s.registers name (translateRegisterValue reg value (s.registers name)) := by
  rw [regWrite_eq h] at hok ⊢
  split_ifs at hok ⊢
  rfl

section Views

variable {g : GeneralRegister} {w : GeneralView} (h : generalName reg = some (g, w))
include h

/-- A successful write follows the rules of the architecture. -/
theorem general_regWrite (value : RegValue) (hok : (s.regWrite reg value).1 = .OK) :
    (s.regWrite reg value).2.general = s.general.write g w (value.low w.width) := by
  have hregisters := registers_of_regWrite (translateRegisterName_general h _) value hok
  funext g'
  rw [general, hregisters]
  by_cases hg : g' = g
  · subst hg
    rw [Function.update_self, reg64_write_general h, GeneralFile.write, Function.update_self]
    rfl
  · rw [Function.update_of_ne (fun heq => hg (whvGeneral_injective heq)),
      GeneralFile.write_of_ne _ hg]
    rfl

/-- A successful read gives the whole register. -/
theorem regRead_general (value : RegValue) (hok : (s.regRead reg value).1.1 = .OK) :
    (s.regRead reg value).1.2 = (0 : RegValue).setU64 (s.general g) := by
  rw [regRead_eq (translateRegisterName_general h s.whpxVersion)] at hok ⊢
  split_ifs at hok ⊢
  exact translateRegisterValueRead_general h _

end Views

end WhpxRegisterState

/-! ## Reads after writes -/

theorem low_setU64 (x : U64) {n : ℕ} (hn : n ≤ 64) :
    ((0 : RegValue).setU64 x).low n = x.extractLsb' 0 n := by
  rw [RegValue.low, ← BitVec.extractLsb'_extractLsb'_of_le (show 0 + n ≤ 64 by omega),
    RegValue.setU64, extractLsb'_setSlice _ 0 x (by omega)]

/-- The low bits of a result are the view, unless the view is that of the second byte. -/
theorem low_setU64_eq_read_iff (x : U64) (w : GeneralView) :
    ((0 : RegValue).setU64 x).low w.width = w.read x ↔
      w ≠ .highByte ∨ x.extractLsb' 8 8 = x.extractLsb' 0 8 := by
  rw [low_setU64 x w.width_le]
  cases w with
  | highByte =>
    simp only [ne_eq, not_true_eq_false, false_or]
    exact eq_comm
  | qword => exact iff_of_true BitVec.extractLsb'_eq_self (.inl (by decide))
  | lowByte | word | dword => exact iff_of_true rfl (.inl (by decide))

/-- The two low bytes of the register `x` are the same after a write. -/
def WritesSameBytes (x : U64) (value : RegValue) : GeneralView → Prop
  | .lowByte => x.extractLsb' 8 8 = value.u8
  | .highByte => value.u8 = x.extractLsb' 0 8
  | .word | .dword | .qword => value.extractLsb' 8 8 = value.u8

/-- The two low bytes of `g'` are the same after a write to the view `w` of `g`. -/
def SameBytes (file : GeneralFile) (g : GeneralRegister) (w : GeneralView) (value : RegValue)
    (g' : GeneralRegister) : Prop :=
  if g' = g then WritesSameBytes (file g) value w
  else (file g').extractLsb' 8 8 = (file g').extractLsb' 0 8

/-- A write of at least a word replaces the low word. -/
theorem extractLsb'_write_of_wide {w : GeneralView} (hw : 16 ≤ w.width) (x : U64)
    (value : RegValue) {start : ℕ} (hstart : start + 8 ≤ 16) :
    (w.write x (value.low w.width)).extractLsb' start 8 = value.extractLsb' start 8 := by
  have hword : (w.write x (value.low w.width)).extractLsb' 0 16 = value.extractLsb' 0 16 := by
    cases w with
    | lowByte | highByte => exact absurd hw (by decide)
    | word => exact extractLsb'_setSlice x 0 (value.low 16) (by omega)
    | dword =>
      refine (BitVec.extractLsb'_setWidth_of_le (by omega)).trans ?_
      exact BitVec.extractLsb'_extractLsb'_of_le (by omega)
    | qword => exact BitVec.extractLsb'_extractLsb'_of_le (by omega)
  have hbyte {n : ℕ} (y : BitVec n) :
      (y.extractLsb' 0 16).extractLsb' start 8 = y.extractLsb' start 8 := by
    rw [BitVec.extractLsb'_extractLsb'_of_le hstart]
  rw [← hbyte, hword, hbyte]

theorem writesSameBytes_iff (x : U64) (value : RegValue) (w : GeneralView) :
    WritesSameBytes x value w ↔
      (w.write x (value.low w.width)).extractLsb' 8 8 =
        (w.write x (value.low w.width)).extractLsb' 0 8 := by
  have hwide (hw : 16 ≤ w.width) {start : ℕ} (hstart : start + 8 ≤ 16) :=
    extractLsb'_write_of_wide hw x value hstart
  cases w with
  | lowByte =>
    have hhigh := extractLsb'_setSlice_of_disjoint x (value.low 8)
      (show 8 + 8 ≤ 64 by omega) (show 8 + 8 ≤ 0 ∨ 0 + 8 ≤ 8 by omega)
    have hlow := extractLsb'_setSlice x 0 (value.low 8) (by omega)
    exact Iff.of_eq (congrArg₂ Eq hhigh.symm hlow.symm)
  | highByte =>
    have hhigh := extractLsb'_setSlice x 8 (value.low 8) (by omega)
    have hlow := extractLsb'_setSlice_of_disjoint x (value.low 8)
      (show 0 + 8 ≤ 64 by omega) (show 0 + 8 ≤ 8 ∨ 8 + 8 ≤ 0 by omega)
    exact Iff.of_eq (congrArg₂ Eq hhigh.symm hlow.symm)
  | word | dword | qword =>
    rw [hwide (by decide) (by decide), hwide (by decide) (by decide)]
    rfl

theorem sameBytes_iff (file : GeneralFile) (g g' : GeneralRegister) (w : GeneralView)
    (value : RegValue) :
    SameBytes file g w value g' ↔
      ((file.write g w (value.low w.width)) g').extractLsb' 8 8 =
        ((file.write g w (value.low w.width)) g').extractLsb' 0 8 := by
  by_cases hg : g' = g
  · subst hg
    rw [SameBytes, if_pos rfl, writesSameBytes_iff, GeneralFile.write, Function.update_self]
  · rw [SameBytes, if_neg hg, GeneralFile.write_of_ne _ hg]

/-- Reads after writes follow the rules of the architecture, except that the second byte of a
register is read as the first one. -/
theorem regRead_regWrite_views_iff {s : WhpxRegisterState} {reg reg' : Reg}
    {g g' : GeneralRegister} {w w' : GeneralView} (h : generalName reg = some (g, w))
    (h' : generalName reg' = some (g', w')) (value tmp : RegValue)
    (hwrite : (s.regWrite reg value).1 = .OK)
    (hread : ((s.regWrite reg value).2.regRead reg' tmp).1.1 = .OK) :
    ((s.regWrite reg value).2.regRead reg' tmp).1.2.low w'.width =
        (s.general.write g w (value.low w.width)).read g' w' ↔
      w' ≠ .highByte ∨ SameBytes s.general g w value g' := by
  rw [WhpxRegisterState.regRead_general h' tmp hread,
    WhpxRegisterState.general_regWrite h value hwrite, GeneralFile.read, low_setU64_eq_read_iff,
    sameBytes_iff]

/-- A hypervisor whose registers are all zero. -/
def resetRegisters : WhpxRegisterState :=
  { whpxVersion := ⟨10, 0, 17763, 0⟩, registers := fun _ => 0, answers := [] }

/-- `AH` reads back as `AL`. -/
theorem regRead_AH_gives_AL :
    (resetRegisters.regWrite .AH 0x5A).1 = .OK ∧
    ((resetRegisters.regWrite .AH 0x5A).2.regRead .AH 0).1 = (.OK, 0x5A00) ∧
    ¬ ∀ (s : WhpxRegisterState) (reg reg' : Reg) (g g' : GeneralRegister) (w w' : GeneralView)
      (value tmp : RegValue), generalName reg = some (g, w) → generalName reg' = some (g', w') →
      (s.regWrite reg value).1 = .OK →
      ((s.regWrite reg value).2.regRead reg' tmp).1.1 = .OK →
      ((s.regWrite reg value).2.regRead reg' tmp).1.2.low w'.width =
        (s.general.write g w (value.low w.width)).read g' w' := by
  refine ⟨by decide +kernel, by decide +kernel, ?_⟩
  intro hall
  have hread := hall resetRegisters .AH .AH _ _ _ _ 0x5A 0 rfl rfl (by decide +kernel)
    (by decide +kernel)
  revert hread
  decide +kernel

/-- A write of `AH` is seen through `AX`. -/
theorem regRead_AX_of_regWrite_AH :
    ((resetRegisters.regWrite .AH 0x5A).2.regRead .AX 0).1.2.low 16 = 0x5A00 := by
  have hAX := (regRead_regWrite_views_iff (s := resetRegisters)
    (show generalName .AH = _ from rfl) (show generalName .AX = _ from rfl) 0x5A 0
    (by decide +kernel) (by decide +kernel)).2 (.inl (by decide))
  exact hAX.trans (by decide +kernel)

end Whpx

end Virt86
