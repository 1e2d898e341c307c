import Virt86.GeneralRegisters
import Virt86.HaxmRegisters

/-!
# The views of the general-purpose registers on HAXM

The registers that the processor had before the 64-bit mode are unions of their views, the others
are put together by helpers. The low bytes of the stack, base and index registers have no member in
their unions: the code writes them through the members for the words.
-/

namespace Virt86

namespace Haxm

open BitSlices

def VcpuState.general (r : VcpuState) : GeneralFile
  | .RAX => r.rax
  | .RCX => r.rcx
  | .RDX => r.rdx
  | .RBX => r.rbx
  | .RSP => r.rsp
  | .RBP => r.rbp
  | .RSI => r.rsi
  | .RDI => r.rdi
  | .R8 => r.r8
  | .R9 => r.r9
  | .R10 => r.r10
  | .R11 => r.r11
  | .R12 => r.r12
  | .R13 => r.r13
  | .R14 => r.r14
  | .R15 => r.r15

def VcpuState.setGeneral (r : VcpuState) (x : U64) : GeneralRegister → VcpuState
  | .RAX => { r with rax := x }
  | .RCX => { r with rcx := x }
  | .RDX => { r with rdx := x }
  | .RBX => { r with rbx := x }
  | .RSP => { r with rsp := x }
  | .RBP => { r with rbp := x }
  | .RSI => { r with rsi := x }
  | .RDI => { r with rdi := x }
  | .R8 => { r with r8 := x }
  | .R9 => { r with r9 := x }
  | .R10 => { r with r10 := x }
  | .R11 => { r with r11 := x }
  | .R12 => { r with r12 := x }
  | .R13 => { r with r13 := x }
  | .R14 => { r with r14 := x }
  | .R15 => { r with r15 := x }

theorem VcpuState.general_setGeneral (r : VcpuState) (x : U64) (g : GeneralRegister) :
    (r.setGeneral x g).general = Function.update r.general g x := by
  funext g'
  cases g <;> cases g' <;> rfl

/-- The low bytes whose union has no member for them. -/
def byteOfWord : Reg → Bool
  | .SPL | .BPL | .SIL | .DIL => true
  | _ => false

/-- The registers that are no unions. -/
def extended : GeneralRegister → Bool
  | .R8 | .R9 | .R10 | .R11 | .R12 | .R13 | .R14 | .R15 => true
  | _ => false

/-- The register after a write by the name `reg` of its view `w`. -/
def assigned (reg : Reg) (w : GeneralView) (x : U64) (value : RegValue) : U64 :=
  if byteOfWord reg then setSlice x 0 (value.u8.setWidth 16) else w.write x (value.low w.width)

section Names

variable {reg : Reg} {g : GeneralRegister} {w : GeneralView} (h : generalName reg = some (g, w))
include h

theorem haxmRegRead_general (files : HaxmRegisterFiles) (value : RegValue) :
    haxmRegRead files reg value = (.OK, value.setLow (files.regs.general.read g w)) := by
  cases hbyte : byteOfWord reg with
  | true =>
    have hlow (x : U64) : (x.extractLsb' 0 16).setWidth 8 = x.extractLsb' 0 8 :=
      BitVec.setWidth_extractLsb'_of_le (by omega)
    cases reg <;> cases hbyte <;> cases h <;>
      exact congrArg (fun x => (VPOperationStatus.OK, value.setU8 x)) (hlow _)
  | false => cases reg <;> cases hbyte <;> cases h <;> rfl

/-- The extended registers are written with the helpers, the others through their unions. -/
theorem haxmRegWrite_setGeneral (c : HaxmRegisterCache) (value : RegValue) :
    haxmRegWrite c reg value =
      (.OK, c.modifyRegs fun r => r.setGeneral (assigned reg w (r.general g) value) g) := by
  cases hextended : extended g with
  | true =>
    have hmerge : haxmRegWrite c reg value = (.OK, c.modifyRegs fun r =>
        r.setGeneral (w.merge (r.general g) (value.low w.width)) g) := by
      cases reg <;> cases h <;> cases hextended <;> rfl
    have hbyte : byteOfWord reg = false := by
      cases reg <;> cases h <;> cases hextended <;> rfl
    simp only [assigned, hbyte, hmerge, GeneralView.merge_eq_write, Bool.false_eq_true, if_false]
  | false => cases reg <;> cases h <;> cases hextended <;> rfl

theorem haxmRegWrite_general (c : HaxmRegisterCache) (value : RegValue) :
    (haxmRegWrite c reg value).1 = .OK ∧
    (haxmRegWrite c reg value).2.files.regs.general =
      Function.update c.files.regs.general g (assigned reg w (c.files.regs.general g) value) := by
  rw [haxmRegWrite_setGeneral h]
  exact ⟨rfl, VcpuState.general_setGeneral _ _ g⟩

theorem view_of_byteOfWord (hbyte : byteOfWord reg = true) : w = .lowByte := by
  cases reg <;> cases hbyte <;> cases h <;> rfl

end Names

/-- The second byte is lost when the low one is written through the word, and all views but that
of the low byte show it. -/
theorem read_assigned_eq_iff (x : U64) (v : U8) (w : GeneralView) :
    w.read (setSlice x 0 (v.setWidth 16)) = w.read (setSlice x 0 v) ↔
      w = .lowByte ∨ x.extractLsb' 8 8 = 0 := by
  have hword : (setSlice x 0 (v.setWidth 16)).extractLsb' 0 16 = v.setWidth 16 :=
    extractLsb'_setSlice x 0 _ (by omega)
  cases w with
  | lowByte =>
    have hlow : (setSlice x 0 (v.setWidth 16)).extractLsb' 0 8 = v := by
      rw [← BitVec.extractLsb'_extractLsb'_of_le (show 0 + 8 ≤ 16 by omega), hword]
      exact extractLsb'_setWidth_self v (by omega)
    exact iff_of_true (hlow.trans (extractLsb'_setSlice x 0 v (by omega)).symm) (.inl rfl)
  | highByte =>
    have hhigh : (setSlice x 0 (v.setWidth 16)).extractLsb' 8 8 = 0 := by
      apply BitVec.eq_of_getLsbD_eq
      intro i hi
      rw [BitVec.getLsbD_extractLsb', getLsbD_setSlice x 0 _ (by omega), if_pos (by omega),
        BitVec.getLsbD_setWidth, BitVec.getLsbD_of_ge v _ (by omega)]
      simp
    have hsame : (setSlice x 0 v).extractLsb' 8 8 = x.extractLsb' 8 8 :=
      extractLsb'_setSlice_of_disjoint x v (by omega) (by omega)
    simp only [GeneralView.read, hhigh, hsame, reduceCtorEq, false_or]
    exact eq_comm
  | word =>
    simp only [GeneralView.read, reduceCtorEq, false_or]
    exact extractLsb'_setSlice_setWidth_eq_iff x v (show 8 + 8 = 16 from rfl)
      (show 16 ≤ 16 by omega) (by omega)
  | dword =>
    simp only [GeneralView.read, reduceCtorEq, false_or]
    exact extractLsb'_setSlice_setWidth_eq_iff x v (show 8 + 8 = 16 from rfl)
      (show 16 ≤ 32 by omega) (by omega)
  | qword =>
    simp only [GeneralView.read, reduceCtorEq, false_or]
    have hiff := extractLsb'_setSlice_setWidth_eq_iff x v (show 8 + 8 = 16 from rfl)
      (show 16 ≤ 64 by omega) (by omega)
    rwa [BitVec.extractLsb'_eq_self, BitVec.extractLsb'_eq_self] at hiff

/-- The view that was written shows the value, also where more was written. -/
theorem read_assigned {reg : Reg} {g : GeneralRegister} {w : GeneralView}
    (h : generalName reg = some (g, w)) (x : U64) (value : RegValue) :
    w.read (assigned reg w x value) = value.low w.width := by
  cases hbyte : byteOfWord reg with
  | false =>
    simp only [assigned, hbyte, Bool.false_eq_true, if_false]
    exact w.read_write x _
  | true =>
    have hw := view_of_byteOfWord h hbyte
    subst hw
    simp only [assigned, hbyte, if_true]
    exact ((read_assigned_eq_iff x value.u8 .lowByte).2 (.inl rfl)).trans
      (GeneralView.read_write .lowByte x value.u8)

/-- Only the bits of the view are looked at. -/
theorem assigned_congr {reg : Reg} {g : GeneralRegister} {w : GeneralView}
    (h : generalName reg = some (g, w)) {value value' : RegValue}
    (hlow : value.low w.width = value'.low w.width) (x : U64) :
    assigned reg w x value = assigned reg w x value' := by
  cases hbyte : byteOfWord reg with
  | false => simp only [assigned, hbyte, Bool.false_eq_true, if_false, hlow]
  | true =>
    have hw := view_of_byteOfWord h hbyte
    subst hw
    have hu8 : value.u8 = value'.u8 := hlow
    simp only [assigned, hbyte, if_true, hu8]

/-- What a write leaves is what the architecture says, except that a low byte written through its
word takes the byte above it along. -/
theorem haxmRegWrite_views_iff (c : HaxmRegisterCache) (value : RegValue) {reg reg' : Reg}
    {g g' : GeneralRegister} {w w' : GeneralView} (h : generalName reg = some (g, w))
    (h' : generalName reg' = some (g', w')) :
    ((haxmRegWrite c reg value).1 = .OK ∧
      ∀ tmp, haxmRegRead (haxmRegWrite c reg value).2.files reg' tmp =
        (.OK, tmp.setLow ((c.files.regs.general.write g w (value.low w.width)).read g' w'))) ↔
      byteOfWord reg = false ∨ g' ≠ g ∨ w' = .lowByte ∨
        (c.files.regs.general g).extractLsb' 8 8 = 0 := by
  obtain ⟨hstatus, hfile⟩ := haxmRegWrite_general h c value
  have hread (tmp : RegValue) := haxmRegRead_general h' (haxmRegWrite c reg value).2.files tmp
  have hwidth : w'.width ≤ 512 := Nat.le_trans w'.width_le (by omega)
  simp only [hstatus, true_and, hread, hfile, Prod.mk.injEq, RegValue.setLow_inj _ hwidth,
    forall_const]
  cases hbyte : byteOfWord reg with
  | false =>
    refine iff_of_true ?_ (.inl rfl)
    simp only [assigned, hbyte, Bool.false_eq_true, if_false, GeneralFile.write]
  | true =>
    have hw := view_of_byteOfWord h hbyte
    subst hw
    by_cases hg : g' = g
    · subst hg
      simp only [assigned, hbyte, if_true, GeneralFile.write, GeneralFile.read,
        Function.update_self, reduceCtorEq, false_or, ne_eq, not_true_eq_false]
      exact read_assigned_eq_iff _ _ w'
    · refine iff_of_true ?_ (.inr (.inl hg))
      simp only [GeneralFile.write, GeneralFile.read, Function.update_of_ne hg]

/-- A stack pointer whose second byte is set. -/
def stackedCache : HaxmRegisterCache :=
  (default : HaxmRegisterCache).modifyRegs fun r => { r with rsp := 0x7F00 }

/-- Writing `SPL` clears the second byte of the stack pointer. -/
theorem haxmRegWrite_SPL_clears_byte :
    haxmRegRead (haxmRegWrite stackedCache .SPL 0x10).2.files .SP 0 = (.OK, 0x10) ∧
    (0 : RegValue).setLow ((stackedCache.files.regs.general.write .RSP .lowByte
      ((0x10 : RegValue).low 8)).read .RSP .word) = 0x7F10 ∧
    ¬ ∀ (c : HaxmRegisterCache) (reg reg' : Reg) (value : RegValue) (g g' : GeneralRegister)
      (w w' : GeneralView), generalName reg = some (g, w) → generalName reg' = some (g', w') →
      (haxmRegWrite c reg value).1 = .OK ∧
      ∀ tmp, haxmRegRead (haxmRegWrite c reg value).2.files reg' tmp =
        (.OK, tmp.setLow ((c.files.regs.general.write g w (value.low w.width)).read g' w')) := by
  refine ⟨by decide +kernel, by decide +kernel, ?_⟩
  intro hall
  have hread := (hall stackedCache .SPL .SP 0x10 _ _ _ _ rfl rfl).2 0
  revert hread
  decide +kernel

/-- A word is written as a whole, a low byte is read back, and no other register is touched. -/
theorem haxmRegWrite_views_of_stacked :
    haxmRegRead (haxmRegWrite stackedCache .SP 0x10).2.files .RSP 0 = (.OK, 0x10) ∧
    haxmRegRead (haxmRegWrite stackedCache .SPL 0x10).2.files .SPL 0 = (.OK, 0x10) ∧
    haxmRegRead (haxmRegWrite stackedCache .SPL 0x10).2.files .AX 0 = (.OK, 0) := by
  have hSP := (haxmRegWrite_views_iff stackedCache 0x10 (show generalName .SP = _ from rfl)
    (show generalName .RSP = _ from rfl)).2 (.inl rfl)
  have hSPL := (haxmRegWrite_views_iff stackedCache 0x10 (show generalName .SPL = _ from rfl)
    (show generalName .SPL = _ from rfl)).2 (.inr (.inr (.inl rfl)))
  have hAX := (haxmRegWrite_views_iff stackedCache 0x10 (show generalName .SPL = _ from rfl)
    (show generalName .AX = _ from rfl)).2 (.inr (.inl (by decide)))
  exact ⟨(hSP.2 0).trans (by decide +kernel), (hSPL.2 0).trans (by decide +kernel),
    (hAX.2 0).trans (by decide +kernel)⟩

end Haxm

end Virt86
