import Mathlib.Logic.Function.Basic
import Virt86.Registers

/-!
# The general-purpose registers and their views

Sixteen registers of 64 bits. Each has names for its low byte, word and doubleword, and four of
them a name for their second byte. A write of a byte or a word leaves the other bits as they were,
a write of a doubleword clears the upper half.
-/

namespace Virt86

open BitSlices

inductive GeneralRegister where
  | RAX | RCX | RDX | RBX | RSP | RBP | RSI | RDI
  | R8 | R9 | R10 | R11 | R12 | R13 | R14 | R15
  deriving DecidableEq, Repr

inductive GeneralView where
  | lowByte | highByte | word | dword | qword
  deriving DecidableEq, Repr

/-- The register and the view that a name stands for. -/
def generalName : Reg → Option (GeneralRegister × GeneralView)
  | .AL => some (.RAX, .lowByte) | .AH => some (.RAX, .highByte)
  | .CL => some (.RCX, .lowByte) | .CH => some (.RCX, .highByte)
  | .DL => some (.RDX, .lowByte) | .DH => some (.RDX, .highByte)
  | .BL => some (.RBX, .lowByte) | .BH => some (.RBX, .highByte)
  | .SPL => some (.RSP, .lowByte) | .BPL => some (.RBP, .lowByte)
  | .SIL => some (.RSI, .lowByte) | .DIL => some (.RDI, .lowByte)
  | .R8B => some (.R8, .lowByte) | .R9B => some (.R9, .lowByte)
  | .R10B => some (.R10, .lowByte) | .R11B => some (.R11, .lowByte)
  | .R12B => some (.R12, .lowByte) | .R13B => some (.R13, .lowByte)
  | .R14B => some (.R14, .lowByte) | .R15B => some (.R15, .lowByte)
  | .AX => some (.RAX, .word) | .CX => some (.RCX, .word)
  | .DX => some (.RDX, .word) | .BX => some (.RBX, .word)
  | .SP => some (.RSP, .word) | .BP => some (.RBP, .word)
  | .SI => some (.RSI, .word) | .DI => some (.RDI, .word)
  | .R8W => some (.R8, .word) | .R9W => some (.R9, .word)
  | .R10W => some (.R10, .word) | .R11W => some (.R11, .word)
  | .R12W => some (.R12, .word) | .R13W => some (.R13, .word)
  | .R14W => some (.R14, .word) | .R15W => some (.R15, .word)
  | .EAX => some (.RAX, .dword) | .ECX => some (.RCX, .dword)
  | .EDX => some (.RDX, .dword) | .EBX => some (.RBX, .dword)
  | .ESP => some (.RSP, .dword) | .EBP => some (.RBP, .dword)
  | .ESI => some (.RSI, .dword) | .EDI => some (.RDI, .dword)
  | .R8D => some (.R8, .dword) | .R9D => some (.R9, .dword)
  | .R10D => some (.R10, .dword) | .R11D => some (.R11, .dword)
  | .R12D => some (.R12, .dword) | .R13D => some (.R13, .dword)
  | .R14D => some (.R14, .dword) | .R15D => some (.R15, .dword)
  | .RAX => some (.RAX, .qword) | .RCX => some (.RCX, .qword)
  | .RDX => some (.RDX, .qword) | .RBX => some (.RBX, .qword)
  | .RSP => some (.RSP, .qword) | .RBP => some (.RBP, .qword)
  | .RSI => some (.RSI, .qword) | .RDI => some (.RDI, .qword)
  | .R8 => some (.R8, .qword) | .R9 => some (.R9, .qword)
  | .R10 => some (.R10, .qword) | .R11 => some (.R11, .qword)
  | .R12 => some (.R12, .qword) | .R13 => some (.R13, .qword)
  | .R14 => some (.R14, .qword) | .R15 => some (.R15, .qword)
  | _ => none

/-- The low `n` bits of a value. -/
def RegValue.low (v : RegValue) (n : ℕ) : BitVec n := v.extractLsb' 0 n

/-- The value with its low bits replaced. -/
def RegValue.setLow {n : ℕ} (v : RegValue) (x : BitVec n) : RegValue := setSlice v 0 x

theorem RegValue.low_setLow {n : ℕ} (v : RegValue) (x : BitVec n) (h : n ≤ 512) :
    (v.setLow x).low n = x :=
  extractLsb'_setSlice v 0 x (by omega)

/-- Fewer low bits than were replaced. -/
theorem RegValue.low_setLow_of_le {m n : ℕ} (v : RegValue) (x : BitVec m) (hn : n ≤ m)
    (hm : m ≤ 512) : (v.setLow x).low n = x.setWidth n := by
  rw [RegValue.low, ← BitVec.extractLsb'_extractLsb'_of_le (show 0 + n ≤ m by omega),
    RegValue.setLow, extractLsb'_setSlice v 0 x (by omega), BitVec.setWidth_eq_extractLsb' hn]

/-- More low bits than were replaced show what was there. -/
theorem RegValue.getLsbD_low_setLow {m n i : ℕ} (v : RegValue) (x : BitVec m) (hi : m ≤ i)
    (hn : i < n) (hv : n ≤ 512) : ((v.setLow x).low n).getLsbD i = v.getLsbD i := by
  rw [RegValue.low, BitVec.getLsbD_extractLsb', Nat.zero_add, RegValue.setLow,
    getLsbD_setSlice v 0 x (by omega), if_neg (by omega)]
  simp [hn]

theorem RegValue.setLow_inj {n : ℕ} (v : RegValue) {x y : BitVec n} (h : n ≤ 512) :
    v.setLow x = v.setLow y ↔ x = y := by
  constructor
  · intro heq
    rw [← v.low_setLow x h, heq, v.low_setLow y h]
  · intro heq
    rw [heq]

namespace GeneralView

abbrev width : GeneralView → ℕ
  | .lowByte | .highByte => 8
  | .word => 16
  | .dword => 32
  | .qword => 64

/-- The bits of a register that a view shows. -/
def read : (w : GeneralView) → U64 → BitVec w.width
  | .lowByte, x => x.extractLsb' 0 8
  | .highByte, x => x.extractLsb' 8 8
  | .word, x => x.extractLsb' 0 16
  | .dword, x => x.extractLsb' 0 32
  | .qword, x => x

/-- The register after a write through a view. -/
def write : (w : GeneralView) → U64 → BitVec w.width → U64
  | .lowByte, x, y => setSlice x 0 y
  | .highByte, x, y => setSlice x 8 y
  | .word, x, y => setSlice x 0 y
  | .dword, _, y => BitVec.setWidth 64 y
  | .qword, _, y => y

/-- The register after a write, put together by the helpers for bytes and words. -/
def merge : (w : GeneralView) → U64 → BitVec w.width → U64
  | .lowByte, x, y => setLowByte x y
  | .highByte, x, y => setHighByte x y
  | .word, x, y => setLowWord x y
  | .dword, _, y => BitVec.setWidth 64 y
  | .qword, _, y => y

theorem merge_eq_write (w : GeneralView) (x : U64) (y : BitVec w.width) :
    w.merge x y = w.write x y := by
  cases w with
  | lowByte => exact setLowByte_eq_setSlice x y
  | highByte => exact setHighByte_eq_setSlice x y
  | word => exact setLowWord_eq_setSlice x y
  | dword => rfl
  | qword => rfl

theorem width_le (w : GeneralView) : w.width ≤ 64 := by
  cases w <;> decide

/-- What was written through a view is seen through it. -/
theorem read_write (w : GeneralView) (x : U64) (y : BitVec w.width) : w.read (w.write x y) = y := by
  cases w with
  | lowByte => exact extractLsb'_setSlice x 0 y (by decide)
  | highByte => exact extractLsb'_setSlice x 8 y (by decide)
  | word => exact extractLsb'_setSlice x 0 y (by decide)
  | dword => exact extractLsb'_setWidth_self y (by decide)
  | qword => rfl

end GeneralView

/-- The contents of the general-purpose registers. -/
abbrev GeneralFile := GeneralRegister → U64

namespace GeneralFile

def read (file : GeneralFile) (g : GeneralRegister) (w : GeneralView) : BitVec w.width :=
  w.read (file g)

def write (file : GeneralFile) (g : GeneralRegister) (w : GeneralView) (y : BitVec w.width) :
    GeneralFile :=
  Function.update file g (w.write (file g) y)

theorem read_write_self (file : GeneralFile) (g : GeneralRegister) (w : GeneralView)
    (y : BitVec w.width) : (file.write g w y).read g w = y := by
  rw [read, write, Function.update_self, GeneralView.read_write]

theorem write_of_ne (file : GeneralFile) {g g' : GeneralRegister} (h : g' ≠ g) (w : GeneralView)
    (y : BitVec w.width) : file.write g w y g' = file g' :=
  Function.update_of_ne h _ _

end GeneralFile

end Virt86
