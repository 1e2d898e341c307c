import Mathlib.Data.Fintype.Basic
import Mathlib.Tactic.FinCases
import Mathlib.Tactic.IntervalCases
import Virt86.GeneralRegisters
import Virt86.KvmRegisters

/-!
# The register files of KVM as one bank

The registers of the four files without their layout: each register of the processor is an entry
of the bank, and the names of `Reg` stand for entries or for views of them. `KvmRegRead` and
`KvmRegWrite` are loads and stores on the bank.
-/

namespace Virt86

inductive SegmentRegister where
  | CS | SS | DS | ES | FS | GS | LDTR | TR
  deriving DecidableEq, Repr

inductive TableRegister where
  | GDTR | IDTR
  deriving DecidableEq, Repr

inductive ControlRegister where
  | CR0 | CR2 | CR3 | CR4 | EFER
  deriving DecidableEq, Repr

inductive DebugRegister where
  | DR0 | DR1 | DR2 | DR3 | DR6 | DR7
  deriving DecidableEq, Repr

namespace Kvm

open BitSlices

/-- The registers with a name of their own only. -/
inductive SpecialRegister where
  | segment (s : SegmentRegister)
  | table (t : TableRegister)
  | control (c : ControlRegister)
  | debug (d : DebugRegister)
  | st (i : Fin 8)
  | mm (i : Fin 8)
  | xmm (i : Fin 16)
  deriving DecidableEq, Repr

/-- What the names that KVM supports stand for. -/
inductive KvmRegister where
  | general (g : GeneralRegister) (w : GeneralView)
  | instructionPointer (w : GeneralView)
  | flags (w : GeneralView)
  | special (k : SpecialRegister)
  deriving DecidableEq, Repr

def kvmRegister : Reg → Option KvmRegister
  | .CS => some (.special (.segment .CS)) | .SS => some (.special (.segment .SS))
  | .DS => some (.special (.segment .DS)) | .ES => some (.special (.segment .ES))
  | .FS => some (.special (.segment .FS)) | .GS => some (.special (.segment .GS))
  | .LDTR => some (.special (.segment .LDTR)) | .TR => some (.special (.segment .TR))
  | .GDTR => some (.special (.table .GDTR)) | .IDTR => some (.special (.table .IDTR))
  | .IP => some (.instructionPointer .word)
  | .EIP => some (.instructionPointer .dword)
  | .RIP => some (.instructionPointer .qword)
  | .FLAGS => some (.flags .word)
  | .EFLAGS => some (.flags .dword)
  | .RFLAGS => some (.flags .qword)
  | .CR0 => some (.special (.control .CR0)) | .CR2 => some (.special (.control .CR2))
  | .CR3 => some (.special (.control .CR3)) | .CR4 => some (.special (.control .CR4))
  | .EFER => some (.special (.control .EFER))
  | .DR0 => some (.special (.debug .DR0)) | .DR1 => some (.special (.debug .DR1))
  | .DR2 => some (.special (.debug .DR2)) | .DR3 => some (.special (.debug .DR3))
  | .DR6 => some (.special (.debug .DR6)) | .DR7 => some (.special (.debug .DR7))
  | .ST0 => some (.special (.st 0)) | .ST1 => some (.special (.st 1))
  | .ST2 => some (.special (.st 2)) | .ST3 => some (.special (.st 3))
  | .ST4 => some (.special (.st 4)) | .ST5 => some (.special (.st 5))
  | .ST6 => some (.special (.st 6)) | .ST7 => some (.special (.st 7))
  | .MM0 => some (.special (.mm 0)) | .MM1 => some (.special (.mm 1))
  | .MM2 => some (.special (.mm 2)) | .MM3 => some (.special (.mm 3))
  | .MM4 => some (.special (.mm 4)) | .MM5 => some (.special (.mm 5))
  | .MM6 => some (.special (.mm 6)) | .MM7 => some (.special (.mm 7))
  | .XMM0 => some (.special (.xmm 0)) | .XMM1 => some (.special (.xmm 1))
  | .XMM2 => some (.special (.xmm 2)) | .XMM3 => some (.special (.xmm 3))
  | .XMM4 => some (.special (.xmm 4)) | .XMM5 => some (.special (.xmm 5))
  | .XMM6 => some (.special (.xmm 6)) | .XMM7 => some (.special (.xmm 7))
  | .XMM8 => some (.special (.xmm 8)) | .XMM9 => some (.special (.xmm 9))
  | .XMM10 => some (.special (.xmm 10)) | .XMM11 => some (.special (.xmm 11))
  | .XMM12 => some (.special (.xmm 12)) | .XMM13 => some (.special (.xmm 13))
  | .XMM14 => some (.special (.xmm 14)) | .XMM15 => some (.special (.xmm 15))
  | reg => (generalName reg).map fun name => .general name.1 name.2

/-! ## Parts of the files -/

def KvmRegs.general (r : KvmRegs) : GeneralFile
  | .RAX => r.rax
  | .RCX => r.rcx
  | .RDX => r.rdx
  | .RBX => r.rbx
  | .RSP => r.rsp
  | .RBP => r.rbp
  | .RSI => r.rsi
  | .RDI => r.rdi
  | .R8 => r.r8
  | .R9 => r.r9
  | .R10 => r.r10
  | .R11 => r.r11
  | .R12 => r.r12
  | .R13 => r.r13
  | .R14 => r.r14
  | .R15 => r.r15

def KvmRegs.setGeneral (r : KvmRegs) (x : U64) : GeneralRegister → KvmRegs
  | .RAX => { r with rax := x }
  | .RCX => { r with rcx := x }
  | .RDX => { r with rdx := x }
  | .RBX => { r with rbx := x }
  | .RSP => { r with rsp := x }
  | .RBP => { r with rbp := x }
  | .RSI => { r with rsi := x }
  | .RDI => { r with rdi := x }
  | .R8 => { r with r8 := x }
  | .R9 => { r with r9 := x }
  | .R10 => { r with r10 := x }
  | .R11 => { r with r11 := x }
  | .R12 => { r with r12 := x }
  | .R13 => { r with r13 := x }
  | .R14 => { r with r14 := x }
  | .R15 => { r with r15 := x }

namespace KvmSregs

def segment (s : KvmSregs) : SegmentRegister → KvmSegment
  | .CS => s.cs
  | .SS => s.ss
  | .DS => s.ds
  | .ES => s.es
  | .FS => s.fs
  | .GS => s.gs
  | .LDTR => s.ldt
  | .TR => s.tr

def setSegment (s : KvmSregs) (x : KvmSegment) : SegmentRegister → KvmSregs
  | .CS => { s with cs := x }
  | .SS => { s with ss := x }
  | .DS => { s with ds := x }
  | .ES => { s with es := x }
  | .FS => { s with fs := x }
  | .GS => { s with gs := x }
  | .LDTR => { s with ldt := x }
  | .TR => { s with tr := x }

def table (s : KvmSregs) : TableRegister → KvmDtable
  | .GDTR => s.gdt
  | .IDTR => s.idt

def setTable (s : KvmSregs) (x : KvmDtable) : TableRegister → KvmSregs
  | .GDTR => { s with gdt := x }
  | .IDTR => { s with idt := x }

def control (s : KvmSregs) : ControlRegister → U64
  | .CR0 => s.cr0
  | .CR2 => s.cr2
  | .CR3 => s.cr3
  | .CR4 => s.cr4
  | .EFER => s.efer

def setControl (s : KvmSregs) (x : U64) : ControlRegister → KvmSregs
  | .CR0 => { s with cr0 := x }
  | .CR2 => { s with cr2 := x }
  | .CR3 => { s with cr3 := x }
  | .CR4 => { s with cr4 := x }
  | .EFER => { s with efer := x }

end KvmSregs

def KvmDebugregs.debug (d : KvmDebugregs) : DebugRegister → U64
  | .DR0 => d.db0
  | .DR1 => d.db1
  | .DR2 => d.db2
  | .DR3 => d.db3
  | .DR6 => d.dr6
  | .DR7 => d.dr7

def KvmDebugregs.setDebug (d : KvmDebugregs) (x : U64) : DebugRegister → KvmDebugregs
  | .DR0 => { d with db0 := x }
  | .DR1 => { d with db1 := x }
  | .DR2 => { d with db2 := x }
  | .DR3 => { d with db3 := x }
  | .DR6 => { d with dr6 := x }
  | .DR7 => { d with dr7 := x }

/-! ## The bank -/

structure KvmBank where
  general : GeneralFile
  instructionPointer : U64
  flags : U64
  segment : SegmentRegister → KvmSegment
  table : TableRegister → KvmDtable
  control : ControlRegister → U64
  debug : DebugRegister → U64
  fpr : Fin 8 → BitVec 128
  xmm : Fin 16 → BitVec 128

def KvmRegisterFiles.bank (files : KvmRegisterFiles) : KvmBank where
  general := files.regs.general
  instructionPointer := files.regs.rip
  flags := files.regs.rflags
  segment := files.sregs.segment
  table := files.sregs.table
  control := files.sregs.control
  debug := files.debugRegs.debug
  fpr i := files.fpuRegs.fpr.get i
  xmm i := files.fpuRegs.xmm.get i

namespace KvmBank

/-- What reading a register leaves in `value`. -/
def load (b : KvmBank) (value : RegValue) : KvmRegister → RegValue
  | .general g w => value.setLow (b.general.read g w)
  | .instructionPointer w => value.setLow (w.read b.instructionPointer)
  | .flags w => value.setLow (w.read b.flags)
  | .special (.segment s) => loadSegment value (b.segment s)
  | .special (.table t) => loadTable value (b.table t)
  | .special (.control c) => value.setU64 (b.control c)
  | .special (.debug d) => value.setU64 (b.debug d)
  | .special (.st i) => (value.setStSignificand ((b.fpr i).extractLsb' 0 64)).setStExponentSign
      ((b.fpr i).extractLsb' 64 16)
  | .special (.mm i) => value.setMmI64 ((b.fpr i).extractLsb' 0 64)
  | .special (.xmm i) => (value.setXmmI64Low ((b.xmm i).extractLsb' 0 64)).setXmmI64High
      ((b.xmm i).extractLsb' 64 64)

/-- Only the low half of `EFER` is taken. -/
def controlValue (value : RegValue) : ControlRegister → U64
  | .EFER => value.u32.setWidth 64
  | _ => value.u64

/-- The bank after a write. Writes to narrow views of the instruction pointer and of the flags
clear the rest of them. -/
def store (b : KvmBank) (value : RegValue) : KvmRegister → KvmBank
  | .general g w => { b with general := b.general.write g w (value.low w.width) }
  | .instructionPointer w => { b with instructionPointer := (value.low w.width).setWidth 64 }
  | .flags w => { b with flags := (value.low w.width).setWidth 64 }
  | .special (.segment s) =>
    { b with segment := Function.update b.segment s (storeSegment value (b.segment s)) }
  | .special (.table t) =>
    { b with table := Function.update b.table t (storeTable value (b.table t)) }
  | .special (.control c) =>
    { b with control := Function.update b.control c (controlValue value c) }
  | .special (.debug d) => { b with debug := Function.update b.debug d value.u64 }
  | .special (.st i) => { b with
      fpr := Function.update b.fpr i
        (setSlice (setSlice (b.fpr i) 0 value.stSignificand) 64 value.stExponentSign) }
  | .special (.mm i) => { b with fpr := Function.update b.fpr i (setSlice (b.fpr i) 0 value.mmI64) }
  | .special (.xmm i) =>
    { b with xmm := Function.update b.xmm i (value.xmmI64High ++ value.xmmI64Low) }

end KvmBank

/-- The copies after a write, with the flag of the file raised. -/
def KvmRegisterCache.store (c : KvmRegisterCache) (value : RegValue) :
    KvmRegister → KvmRegisterCache
  | .general g w => c.modifyRegs fun r =>
      r.setGeneral (w.merge (r.general g) (value.low w.width)) g
  | .instructionPointer w => c.modifyRegs fun r => { r with rip := (value.low w.width).setWidth 64 }
  | .flags w => c.modifyRegs fun r => { r with rflags := (value.low w.width).setWidth 64 }
  | .special (.segment s) =>
    c.modifySregs fun r => r.setSegment (storeSegment value (r.segment s)) s
  | .special (.table t) => c.modifySregs fun r => r.setTable (storeTable value (r.table t)) t
  | .special (.control x) => c.modifySregs fun r => r.setControl (KvmBank.controlValue value x) x
  | .special (.debug d) => c.modifyDebugRegs fun r => r.setDebug value.u64 d
  | .special (.st i) => c.modifyFpuRegs fun f => storeSTRegister value i f
  | .special (.mm i) => c.modifyFpuRegs fun f => storeMMRegister value i f
  | .special (.xmm i) => c.modifyFpuRegs fun f => storeXMMRegister value i f

/-- Registers are read from the bank. -/
theorem kvmRegRead_bank (files : KvmRegisterFiles) (reg : Reg) (value : RegValue) :
    kvmRegRead files reg value =
      (kvmRegister reg).elim (.Unsupported, value) fun k => (.OK, files.bank.load value k) := by
  cases reg <;> rfl

/-- One of the hand-written cases for each name. -/
theorem kvmRegWrite_store (c : KvmRegisterCache) (reg : Reg) (value : RegValue) :
    kvmRegWrite c reg value =
      (kvmRegister reg).elim (.Unsupported, c) fun k => (.OK, c.store value k) := by
  cases reg <;> rfl

/-! ## Writes to the parts of the files -/

theorem KvmRegs.general_setGeneral (r : KvmRegs) (x : U64) (g : GeneralRegister) :
    (r.setGeneral x g).general = Function.update r.general g x := by
  funext g'
  cases g <;> cases g' <;> rfl

theorem KvmRegs.setGeneral_others (r : KvmRegs) (x : U64) (g : GeneralRegister) :
    (r.setGeneral x g).rip = r.rip ∧ (r.setGeneral x g).rflags = r.rflags := by
  cases g <;> exact ⟨rfl, rfl⟩

namespace KvmSregs

variable (s : KvmSregs)

theorem segment_setSegment (x : KvmSegment) (i : SegmentRegister) :
    (s.setSegment x i).segment = Function.update s.segment i x := by
  funext j
  cases i <;> cases j <;> rfl

theorem setSegment_others (x : KvmSegment) (i : SegmentRegister) :
    (s.setSegment x i).table = s.table ∧ (s.setSegment x i).control = s.control := by
  cases i <;> exact ⟨rfl, rfl⟩

theorem table_setTable (x : KvmDtable) (i : TableRegister) :
    (s.setTable x i).table = Function.update s.table i x := by
  funext j
  cases i <;> cases j <;> rfl

theorem setTable_others (x : KvmDtable) (i : TableRegister) :
    (s.setTable x i).segment = s.segment ∧ (s.setTable x i).control = s.control := by
  cases i <;> exact ⟨rfl, rfl⟩

theorem control_setControl (x : U64) (i : ControlRegister) :
    (s.setControl x i).control = Function.update s.control i x := by
  funext j
  cases i <;> cases j <;> rfl

theorem setControl_others (x : U64) (i : ControlRegister) :
    (s.setControl x i).segment = s.segment ∧ (s.setControl x i).table = s.table := by
  cases i <;> exact ⟨rfl, rfl⟩

end KvmSregs

theorem KvmDebugregs.debug_setDebug (d : KvmDebugregs) (x : U64) (i : DebugRegister) :
    (d.setDebug x i).debug = Function.update d.debug i x := by
  funext j
  cases i <;> cases j <;> rfl

theorem getElem?_getD_eq_get {α : Type} {n : ℕ} (v : Vector α n) (i : Fin n) (d : α) :
    v[(i : ℕ)]?.getD d = v.get i := by
  rw [Vector.getElem?_eq_getElem i.isLt, Option.getD_some]
  rfl

theorem get_setIfInBounds {α : Type} {n : ℕ} (v : Vector α n) (i : Fin n) (x : α) :
    (fun j => (v.setIfInBounds i x).get j) = Function.update (fun j => v.get j) i x := by
  funext j
  have hget : (v.setIfInBounds i x).get j = (v.setIfInBounds i x)[(j : ℕ)] := rfl
  rw [hget, Vector.getElem_setIfInBounds]
  by_cases h : j = i
  · subst h
    rw [if_pos rfl, Function.update_self]
  · rw [if_neg (fun hij => h (Fin.ext hij.symm)), Function.update_of_ne h]
    rfl

/-- The write of a register is a store on the bank. -/
theorem KvmRegisterCache.bank_store (c : KvmRegisterCache) (value : RegValue) (k : KvmRegister) :
    (c.store value k).files.bank = c.files.bank.store value k := by
  cases k with
  | general g w =>
    simp only [store, modifyRegs, KvmRegisterFiles.bank, KvmBank.store, GeneralFile.write,
      KvmRegs.general_setGeneral, KvmRegs.setGeneral_others, GeneralView.merge_eq_write]
  | instructionPointer w => rfl
  | flags w => rfl
  | special k =>
    cases k with
    | segment s =>
      simp only [store, modifySregs, KvmRegisterFiles.bank, KvmBank.store,
        KvmSregs.segment_setSegment, KvmSregs.setSegment_others]
    | table t =>
      simp only [store, modifySregs, KvmRegisterFiles.bank, KvmBank.store,
        KvmSregs.table_setTable, KvmSregs.setTable_others]
    | control x =>
      simp only [store, modifySregs, KvmRegisterFiles.bank, KvmBank.store,
        KvmSregs.control_setControl, KvmSregs.setControl_others]
    | debug d =>
      simp only [store, modifyDebugRegs, KvmRegisterFiles.bank, KvmBank.store,
        KvmDebugregs.debug_setDebug]
    | st i =>
      simp only [store, modifyFpuRegs, KvmRegisterFiles.bank, KvmBank.store, storeSTRegister,
        getElem?_getD_eq_get, get_setIfInBounds]
    | mm i =>
      simp only [store, modifyFpuRegs, KvmRegisterFiles.bank, KvmBank.store, storeMMRegister,
        getElem?_getD_eq_get, get_setIfInBounds]
    | xmm i =>
      simp only [store, modifyFpuRegs, KvmRegisterFiles.bank, KvmBank.store, storeXMMRegister,
        get_setIfInBounds]

/-! ## Independence of the entries -/

/-- The entry of the bank that a register is, or is a view of. -/
def KvmRegister.entry : KvmRegister → KvmRegister
  | .general g _ => .general g .qword
  | .instructionPointer _ => .instructionPointer .qword
  | .flags _ => .flags .qword
  | .special (.mm i) => .special (.st i)
  | k => k

/-- A write changes no other entry. -/
theorem KvmBank.load_store_of_ne (b : KvmBank) (value tmp : RegValue) {k k' : KvmRegister}
    (h : k'.entry ≠ k.entry) : (b.store value k).load tmp k' = b.load tmp k' := by
  cases k with
  | general g w =>
    cases k' with
    | general g' w' =>
      have hne : g' ≠ g := fun heq => h (by rw [heq]; rfl)
      simp only [store, load, GeneralFile.read, GeneralFile.write_of_ne _ hne]
    | instructionPointer | flags => rfl
    | special k' => cases k' <;> rfl
  | instructionPointer w =>
    cases k' with
    | instructionPointer w' => exact absurd rfl h
    | general | flags => rfl
    | special k' => cases k' <;> rfl
  | flags w =>
    cases k' with
    | flags w' => exact absurd rfl h
    | general | instructionPointer => rfl
    | special k' => cases k' <;> rfl
  | special k =>
    cases k' with
    | general | instructionPointer | flags => cases k <;> rfl
    | special k' =>
      cases k <;> cases k'
      case segment.segment s s' =>
        have hne : s' ≠ s := fun heq => h (by rw [heq])
        simp only [store, load, Function.update_of_ne hne]
      case table.table t t' =>
        have hne : t' ≠ t := fun heq => h (by rw [heq])
        simp only [store, load, Function.update_of_ne hne]
      case control.control c c' =>
        have hne : c' ≠ c := fun heq => h (by rw [heq])
        simp only [store, load, Function.update_of_ne hne]
      case debug.debug d d' =>
        have hne : d' ≠ d := fun heq => h (by rw [heq])
        simp only [store, load, Function.update_of_ne hne]
      case xmm.xmm i i' =>
        have hne : i' ≠ i := fun heq => h (by rw [heq])
        simp only [store, load, Function.update_of_ne hne]
      case st.st i i' | st.mm i i' | mm.st i i' | mm.mm i i' =>
        have hne : i' ≠ i := fun heq => h (by simp only [KvmRegister.entry, heq])
        simp only [store, load, Function.update_of_ne hne]
      all_goals rfl

/-! ## Reading back what was written -/

/-- `tmp` with the fields of the register as they are in `value`: the attributes of a segment
without bits 8 to 11, and `EFER` modulo 2^32. -/
def SpecialRegister.readBack (value tmp : RegValue) : SpecialRegister → RegValue
  | .segment _ =>
    (((tmp.setSegmentSelector value.segmentSelector).setSegmentBase
      value.segmentBase).setSegmentLimit value.segmentLimit).setSegmentAttributes
      (value.segmentAttributes &&& 0xF0FF)
  | .table _ => (tmp.setTableBase value.tableBase).setTableLimit value.tableLimit
  | .control .EFER => tmp.setU64 (value.u32.setWidth 64)
  | .control _ => tmp.setU64 value.u64
  | .debug _ => tmp.setU64 value.u64
  | .st _ => (tmp.setStSignificand value.stSignificand).setStExponentSign value.stExponentSign
  | .mm _ => tmp.setMmI64 value.mmI64
  | .xmm _ => (tmp.setXmmI64Low value.xmmI64Low).setXmmI64High value.xmmI64High

/-- The bit-fields of the attributes leave out four bits. -/
theorem toBits_ofBits (u16 : U16) : (SegmentAttributes.ofBits u16).toBits = u16 &&& 0xF0FF := by
  apply BitVec.eq_of_getLsbD_eq
  intro i hi
  simp only [SegmentAttributes.toBits, SegmentAttributes.ofBits, BitVec.getLsbD_append,
    BitVec.getLsbD_extractLsb', BitVec.getLsbD_zero, BitVec.getLsbD_and]
  interval_cases i <;> simp

/-- The bit-fields of the attributes survive the bytes of `kvm_segment`. -/
theorem loadSegment_storeSegment (value tmp : RegValue) (segment : KvmSegment) :
    loadSegment tmp (storeSegment value segment) =
      (((tmp.setSegmentSelector value.segmentSelector).setSegmentBase
        value.segmentBase).setSegmentLimit value.segmentLimit).setSegmentAttributes
        (value.segmentAttributes &&& 0xF0FF) := by
  have hbyte (n : ℕ) (x : BitVec n) (h : n ≤ 8) : (x.setWidth 8).setWidth n = x := by
    rw [BitVec.setWidth_setWidth_of_le x h, BitVec.setWidth_eq]
  simp only [loadSegment, storeSegment]
  rw [hbyte 4 _ (by omega), hbyte 2 _ (by omega), hbyte 1 _ (by omega), hbyte 1 _ (by omega),
    hbyte 1 _ (by omega), hbyte 1 _ (by omega), hbyte 1 _ (by omega), hbyte 1 _ (by omega),
    ← toBits_ofBits]

theorem KvmBank.load_store_special (b : KvmBank) (value tmp : RegValue) (k : SpecialRegister) :
    (b.store value (.special k)).load tmp (.special k) = k.readBack value tmp := by
  cases k with
  | segment s =>
    simp only [store, load, Function.update_self]
    exact loadSegment_storeSegment value tmp _
  | table t =>
    simp only [store, load, Function.update_self]
    rfl
  | control c =>
    simp only [store, load, Function.update_self]
    cases c <;> rfl
  | debug d => simp only [store, load, Function.update_self, SpecialRegister.readBack]
  | st i =>
    simp only [store, load, Function.update_self, SpecialRegister.readBack]
    rw [extractLsb'_setSlice _ 64 _ (by omega),
      extractLsb'_setSlice_of_disjoint _ _ (by omega) (by omega),
      extractLsb'_setSlice _ 0 _ (by omega)]
  | mm i =>
    simp only [store, load, Function.update_self, SpecialRegister.readBack]
    rw [extractLsb'_setSlice _ 0 _ (by omega)]
  | xmm i =>
    simp only [store, load, Function.update_self, SpecialRegister.readBack,
      BitVec.extractLsb'_append_eq_right, BitVec.extractLsb'_append_eq_left]

/-- A value written to `STi` is seen through `MMi`, and the other way around. -/
theorem KvmBank.load_mm_store_st (b : KvmBank) (value tmp : RegValue) (i : Fin 8) :
    (b.store value (.special (.st i))).load tmp (.special (.mm i)) =
      tmp.setMmI64 value.stSignificand := by
  simp only [store, load, Function.update_self]
  rw [extractLsb'_setSlice_of_disjoint _ _ (by omega) (by omega),
    extractLsb'_setSlice _ 0 _ (by omega)]

theorem KvmBank.load_st_store_mm (b : KvmBank) (value tmp : RegValue) (i : Fin 8) :
    (b.store value (.special (.mm i))).load tmp (.special (.st i)) =
      (tmp.setStSignificand value.mmI64).setStExponentSign ((b.fpr i).extractLsb' 64 16) := by
  simp only [store, load, Function.update_self]
  rw [extractLsb'_setSlice _ 0 _ (by omega),
    extractLsb'_setSlice_of_disjoint _ _ (by omega) (by omega)]

/-! ## Names -/

theorem kvmRegister_of_generalName {reg : Reg} {g : GeneralRegister} {w : GeneralView}
    (h : generalName reg = some (g, w)) : kvmRegister reg = some (.general g w) := by
  cases reg <;> cases h <;> rfl

theorem generalName_of_kvmRegister {reg : Reg} {g : GeneralRegister} {w : GeneralView}
    (h : kvmRegister reg = some (.general g w)) : generalName reg = some (g, w) := by
  cases reg <;> cases h <;> rfl

/-- The name of a register that has one only. -/
def SpecialRegister.name : SpecialRegister → Reg
  | .segment .CS => .CS | .segment .SS => .SS | .segment .DS => .DS | .segment .ES => .ES
  | .segment .FS => .FS | .segment .GS => .GS | .segment .LDTR => .LDTR | .segment .TR => .TR
  | .table .GDTR => .GDTR | .table .IDTR => .IDTR
  | .control .CR0 => .CR0 | .control .CR2 => .CR2 | .control .CR3 => .CR3 | .control .CR4 => .CR4
  | .control .EFER => .EFER
  | .debug .DR0 => .DR0 | .debug .DR1 => .DR1 | .debug .DR2 => .DR2
  | .debug .DR3 => .DR3 | .debug .DR6 => .DR6 | .debug .DR7 => .DR7
  | .st i => #v[.ST0, .ST1, .ST2, .ST3, .ST4, .ST5, .ST6, .ST7].get i
  | .mm i => #v[.MM0, .MM1, .MM2, .MM3, .MM4, .MM5, .MM6, .MM7].get i
  | .xmm i => #v[.XMM0, .XMM1, .XMM2, .XMM3, .XMM4, .XMM5, .XMM6, .XMM7,
      .XMM8, .XMM9, .XMM10, .XMM11, .XMM12, .XMM13, .XMM14, .XMM15].get i

theorem kvmRegister_name (k : SpecialRegister) : kvmRegister k.name = some (.special k) := by
  cases k with
  | segment s => cases s <;> rfl
  | table t => cases t <;> rfl
  | control c => cases c <;> rfl
  | debug d => cases d <;> rfl
  | st i => fin_cases i <;> rfl
  | mm i => fin_cases i <;> rfl
  | xmm i => fin_cases i <;> rfl

theorem name_of_kvmRegister {reg : Reg} {k : SpecialRegister}
    (h : kvmRegister reg = some (.special k)) : k.name = reg := by
  cases reg <;> cases h <;> rfl

/-- The register that holds, or lies in, the low 64 bits of the register. -/
def SpecialRegister.alias : SpecialRegister → Option SpecialRegister
  | .st i => some (.mm i)
  | .mm i => some (.st i)
  | _ => none

theorem eq_general_of_entry_eq {g : GeneralRegister} {w : GeneralView} {k' : KvmRegister}
    (h : k'.entry = (KvmRegister.general g w).entry) : ∃ w', k' = .general g w' := by
  cases k' with
  | general g' w' =>
    cases h
    exact ⟨w', rfl⟩
  | instructionPointer w' => cases h
  | flags w' => cases h
  | special k' => cases k' <;> cases h

/-- Names of one entry are views of a general-purpose register, of the instruction pointer or of
the flags, or they are equal or aliases. -/
theorem alias_of_entry_eq {k : SpecialRegister} {k' : KvmRegister}
    (h : k'.entry = (KvmRegister.special k).entry) :
    k' = .special k ∨ ∃ a, k.alias = some a ∧ k' = .special a := by
  cases k' with
  | general g w => cases k <;> cases h
  | instructionPointer w => cases k <;> cases h
  | flags w => cases k <;> cases h
  | special k' =>
    cases k <;> cases k' <;> cases h
    case special.st.mm.refl | special.mm.st.refl => exact .inr ⟨_, rfl, rfl⟩
    all_goals exact .inl rfl

/-! ## Reads after writes -/

section ReadsAfterWrites

variable (c : KvmRegisterCache) {reg reg' : Reg} (value tmp : RegValue)

theorem kvmRegWrite_of_register {k : KvmRegister} (h : kvmRegister reg = some k) :
    kvmRegWrite c reg value = (.OK, c.store value k) := by
  rw [kvmRegWrite_store, h, Option.elim_some]

/-- A read after a write is a load after a store. -/
theorem kvmRegRead_kvmRegWrite {k k' : KvmRegister} (h : kvmRegister reg = some k)
    (h' : kvmRegister reg' = some k') :
    kvmRegRead (kvmRegWrite c reg value).2.files reg' tmp =
      (.OK, (c.files.bank.store value k).load tmp k') := by
  rw [kvmRegWrite_of_register c value h, kvmRegRead_bank, h', Option.elim_some,
    KvmRegisterCache.bank_store]

/-- Names of other entries read as before. -/
theorem kvmRegRead_kvmRegWrite_of_ne {k : KvmRegister} (h : kvmRegister reg = some k)
    (hne : ∀ k', kvmRegister reg' = some k' → k'.entry ≠ k.entry) :
    kvmRegRead (kvmRegWrite c reg value).2.files reg' tmp = kvmRegRead c.files reg' tmp := by
  cases h' : kvmRegister reg' with
  | none => rw [kvmRegRead_bank, kvmRegRead_bank, h', Option.elim_none, Option.elim_none]
  | some k' =>
    rw [kvmRegRead_kvmRegWrite c value tmp h h', kvmRegRead_bank, h', Option.elim_some,
      KvmBank.load_store_of_ne _ value tmp (hne k' h')]

end ReadsAfterWrites

/-- A write through a view of a general-purpose register is seen by all its views and by no other
register. A write of another register is read back, and seen by its alias alone. -/
theorem kvmRegWrite_views (c : KvmRegisterCache) (reg : Reg) (value : RegValue) :
    (∀ g w, generalName reg = some (g, w) →
      (kvmRegWrite c reg value).1 = .OK ∧
      (∀ reg' g' w' tmp, generalName reg' = some (g', w') →
        kvmRegRead (kvmRegWrite c reg value).2.files reg' tmp =
          (.OK, tmp.setLow ((c.files.regs.general.write g w (value.low w.width)).read g' w'))) ∧
      ∀ reg' tmp, (∀ w', generalName reg' ≠ some (g, w')) →
        kvmRegRead (kvmRegWrite c reg value).2.files reg' tmp = kvmRegRead c.files reg' tmp) ∧
    (∀ k : SpecialRegister, reg = k.name →
      (kvmRegWrite c reg value).1 = .OK ∧
      (∀ tmp, kvmRegRead (kvmRegWrite c reg value).2.files reg tmp =
        (.OK, k.readBack value tmp)) ∧
      (∀ i tmp, k = .st i → kvmRegRead (kvmRegWrite c reg value).2.files
        (SpecialRegister.mm i).name tmp = (.OK, tmp.setMmI64 value.stSignificand)) ∧
      (∀ i tmp, k = .mm i → kvmRegRead (kvmRegWrite c reg value).2.files
        (SpecialRegister.st i).name tmp = (.OK, (tmp.setStSignificand value.mmI64).setStExponentSign
          (kvmRegRead c.files (SpecialRegister.st i).name tmp).2.stExponentSign)) ∧
      ∀ reg' tmp, reg' ≠ reg → (∀ a, k.alias = some a → reg' ≠ a.name) →
        kvmRegRead (kvmRegWrite c reg value).2.files reg' tmp = kvmRegRead c.files reg' tmp) := by
  constructor
  · intro g w h
    have hreg := kvmRegister_of_generalName h
    refine ⟨by rw [kvmRegWrite_of_register c value hreg], ?_, ?_⟩
    · intro reg' g' w' tmp h'
      rw [kvmRegRead_kvmRegWrite c value tmp hreg (kvmRegister_of_generalName h')]
      rfl
    · intro reg' tmp hother
      apply kvmRegRead_kvmRegWrite_of_ne c value tmp hreg
      intro k' hk' hentry
      obtain ⟨w', rfl⟩ := eq_general_of_entry_eq hentry
      exact hother w' (generalName_of_kvmRegister hk')
  · intro k hname
    have hreg : kvmRegister reg = some (.special k) := by rw [hname, kvmRegister_name]
    refine ⟨by rw [kvmRegWrite_of_register c value hreg], ?_, ?_, ?_, ?_⟩
    · intro tmp
      rw [kvmRegRead_kvmRegWrite c value tmp hreg hreg, KvmBank.load_store_special]
    · intro i tmp hk
      subst hk
      rw [kvmRegRead_kvmRegWrite c value tmp hreg (kvmRegister_name _), KvmBank.load_mm_store_st]
    · intro i tmp hk
      subst hk
      rw [kvmRegRead_kvmRegWrite c value tmp hreg (kvmRegister_name _), KvmBank.load_st_store_mm,
        kvmRegRead_bank, kvmRegister_name, Option.elim_some]
      simp only [KvmBank.load, RegValue.setStExponentSign, RegValue.stExponentSign]
      rw [extractLsb'_setSlice _ 64 _ (by omega)]
    · intro reg' tmp hne halias
      apply kvmRegRead_kvmRegWrite_of_ne c value tmp hreg
      intro k' hk' hentry
      rcases alias_of_entry_eq hentry with rfl | ⟨a, ha, rfl⟩
      · rw [← name_of_kvmRegister hk', ← hname] at hne
        exact hne rfl
      · exact halias a ha (name_of_kvmRegister hk').symm

/-- `AH` is seen by `AX`, `EFER` loses its upper half, and `ST3` is seen by `MM3`. -/
theorem kvmRegWrite_views_of_reset :
    kvmRegRead (kvmRegWrite default .AH 0x5A).2.files .AX 0 = (.OK, 0x5A00) ∧
    kvmRegRead (kvmRegWrite default .EFER 0x1_0000_0D01).2.files .EFER 0 = (.OK, 0xD01) ∧
    kvmRegRead (kvmRegWrite default .ST3 0xABCD).2.files .MM3 0 = (.OK, 0xABCD) ∧
    kvmRegRead (kvmRegWrite default .ST3 0xABCD).2.files .AX 0 = kvmRegRead default .AX 0 := by
  refine ⟨?_, ?_, ?_, ?_⟩
  · rw [((kvmRegWrite_views default .AH 0x5A).1 _ _ rfl).2.1 .AX _ _ 0 rfl]
    decide +kernel
  · rw [((kvmRegWrite_views default .EFER 0x1_0000_0D01).2 (.control .EFER) rfl).2.1 0]
    decide +kernel
  · have h := ((kvmRegWrite_views default .ST3 0xABCD).2 (.st 3) rfl).2.2.1 3 0 rfl
    exact h.trans (by decide +kernel)
  · exact ((kvmRegWrite_views default .ST3 0xABCD).2 (.st 3) rfl).2.2.2.2 .AX 0 (by decide)
      (fun a ha => by cases ha; decide)

end Kvm

end Virt86
