import Virt86.HaxmCacheRefinement
import Virt86.KvmCacheRefinement
import Virt86.WhpxBulkWrites

/-!
# Instruction pointer and flags on the three platforms

A narrow write of the instruction pointer or of the flags ends in a 64-bit register. The platforms
do not treat the bits above the written ones alike: KVM clears all of them, WHPX keeps them where 16
bits are written and clears them where 32 bits are, and HAXM stores 32 bits either way and keeps
those above.
-/

namespace Virt86

open BitSlices

/-- The instruction pointer and the flags of a processor. -/
structure InstructionState where
  rip : U64
  rflags : U64
  deriving DecidableEq, Repr

/-- The names of the instruction pointer and of the flags. -/
inductive InstructionReg where
  | IP | EIP | RIP | FLAGS | EFLAGS | RFLAGS
  deriving DecidableEq, Repr

namespace InstructionReg

def reg : InstructionReg → Reg
  | .IP => .IP
  | .EIP => .EIP
  | .RIP => .RIP
  | .FLAGS => .FLAGS
  | .EFLAGS => .EFLAGS
  | .RFLAGS => .RFLAGS

def width : InstructionReg → ℕ
  | .IP | .FLAGS => 16
  | .EIP | .EFLAGS => 32
  | .RIP | .RFLAGS => 64

/-- The register that a name is a view of. -/
def get (st : InstructionState) : InstructionReg → U64
  | .IP | .EIP | .RIP => st.rip
  | .FLAGS | .EFLAGS | .RFLAGS => st.rflags

def put (x : U64) (st : InstructionState) : InstructionReg → InstructionState
  | .IP | .EIP | .RIP => { st with rip := x }
  | .FLAGS | .EFLAGS | .RFLAGS => { st with rflags := x }

theorem put_inj (name : InstructionReg) (st : InstructionState) {x y : U64} :
    name.put x st = name.put y st ↔ x = y := by
  cases name <;> simp [put]

/-- The bits of a value that a name takes. -/
def bits (name : InstructionReg) (value : RegValue) : BitVec name.width :=
  value.extractLsb' 0 name.width

/-- The low `n` bits of the register are replaced by the zero-extended value. -/
def merge (name : InstructionReg) (n : ℕ) (value : RegValue) (st : InstructionState) :
    InstructionState :=
  name.put (setSlice (name.get st) 0 ((name.bits value).setWidth n)) st

theorem put_eq_merge (name : InstructionReg) (st : InstructionState) {n : ℕ} {value : RegValue}
    {x : U64} (h : x = setSlice (name.get st) 0 ((name.bits value).setWidth n)) :
    name.put x st = name.merge n value st :=
  congrArg (name.put · st) h

/-- Replacing `n` bits and replacing all of them differ where others are set. -/
theorem merge_eq_merge_iff {name : InstructionReg} {n : ℕ} (hwidth : name.width ≤ n) (hn : n ≤ 64)
    (value : RegValue) (st : InstructionState) :
    name.merge n value st = name.merge 64 value st ↔ (name.get st).toNat < 2 ^ n := by
  have hall : setSlice (name.get st) 0 ((name.bits value).setWidth 64) =
      ((name.bits value).setWidth n).setWidth 64 := by
    rw [setSlice_zero_of_width, BitVec.setWidth_setWidth (by omega)]
  rw [merge, merge, put_inj, hall, setSlice_zero_eq_setWidth_iff _ _ hn]

end InstructionReg

/-- The reserved bits of the flags are as the architecture has them: bit 1 is set, and the bits 3,
5, 15 and from 22 on are clear. -/
def ReservedFlags (rflags : U64) : Prop := rflags &&& 0xFFFFFFFFFFC0802A = 2

instance (rflags : U64) : Decidable (ReservedFlags rflags) :=
  inferInstanceAs (Decidable (_ = _))

/-- Reserved bits are valid in a value for the flags. -/
def InstructionReg.ValidValue (name : InstructionReg) (value : RegValue) : Prop :=
  match name with
  | .IP | .EIP | .RIP => True
  | .FLAGS | .EFLAGS | .RFLAGS => ReservedFlags ((name.bits value).setWidth 64)

namespace ReservedFlags

variable {flags : U64} (h : ReservedFlags flags)

include h

theorem and_eq {c : U64} (hc : 0xFFFFFFFFFFC0802A &&& c = c) : flags &&& c = 2 &&& c := by
  rw [← hc, ← BitVec.and_assoc, h]
  rw [← BitVec.and_assoc]
  rfl

theorem toNat_lt : flags.toNat < 2 ^ 22 := by
  have hhigh : flags &&& 0xFFFFFFFFFFC00000 = 0 := h.and_eq rfl
  rw [← and_not_eq_self hhigh, BitVec.toNat_and]
  exact Nat.lt_of_le_of_lt Nat.and_le_right (by decide)

/-- The fix-up of HAXM does nothing to valid flags. -/
theorem fixupFlags_eq : Haxm.fixupFlags flags = flags := by
  have hclear : flags &&& 0x8028 = 0 := h.and_eq rfl
  have hset : flags ||| 2 = flags := by
    rw [← h]
    apply BitVec.eq_of_getLsbD_eq
    intro i hi
    simp only [BitVec.getLsbD_or, BitVec.getLsbD_and]
    cases flags.getLsbD i <;> rfl
  rw [Haxm.fixupFlags, hset, and_not_eq_self hclear]

end ReservedFlags

/-! ## What a write leaves on each platform -/

namespace Kvm

/-- The instruction state that the register accessors see. -/
def KvmRegisterState.instructionState (s : KvmRegisterState) : InstructionState where
  rip := s.refreshRegisters.2.cache.files.regs.rip
  rflags := s.refreshRegisters.2.cache.files.regs.rflags

theorem instructionState_of_fresh {s : KvmRegisterState} (h : s.cache.regsDirty = false) :
    s.instructionState = ⟨s.cache.files.regs.rip, s.cache.files.regs.rflags⟩ := by
  simp [KvmRegisterState.instructionState, KvmRegisterState.refreshRegisters, h]

theorem access_regWrite {s : KvmRegisterState} (h : s.refreshRegisters.1 = true) (reg : Reg)
    (value : RegValue) :
    (s.access (.regWrite reg value)).2 = { s.refreshRegisters.2 with
      cache := (kvmRegWrite s.refreshRegisters.2.cache reg value).2 } := by
  cases hrefresh : s.refreshRegisters with
  | mk ok s' =>
    obtain rfl : ok = true := by simpa [hrefresh] using h
    simp only [KvmRegisterState.access, hrefresh]
    rfl

/-- KVM replaces the whole register. -/
theorem instructionState_regWrite {s : KvmRegisterState} (h : s.refreshRegisters.1 = true)
    (name : InstructionReg) (value : RegValue) :
    (s.access (.regWrite name.reg value)).2.instructionState =
      name.merge 64 value s.instructionState := by
  have hfresh := regsDirty_refreshRegisters h
  have hnext : (kvmRegWrite s.refreshRegisters.2.cache name.reg value).2.regsDirty = false := by
    cases name <;> exact hfresh
  rw [access_regWrite h, instructionState_of_fresh hnext]
  cases name <;>
    simp only [InstructionReg.merge, setSlice_zero_of_width] <;> rfl

end Kvm

namespace Haxm

/-- The instruction state that the register accessors see. -/
def HaxmRegisterState.instructionState (s : HaxmRegisterState) : InstructionState where
  rip := s.refreshRegisters.2.cache.files.regs.rip
  rflags := s.refreshRegisters.2.cache.files.regs.rflags

theorem instructionState_of_fresh {s : HaxmRegisterState} (h : s.cache.regsDirty = false) :
    s.instructionState = ⟨s.cache.files.regs.rip, s.cache.files.regs.rflags⟩ := by
  simp [HaxmRegisterState.instructionState, HaxmRegisterState.refreshRegisters, h]

theorem access_regWrite {s : HaxmRegisterState} (h : s.refreshRegisters.1 = true) {reg : Reg}
    (hreg : reg ≠ .EFER) (value : RegValue) :
    (s.access (.regWrite reg value)).2 = { s.refreshRegisters.2 with
      cache := (haxmRegWrite s.refreshRegisters.2.cache reg value).2 } := by
  cases hrefresh : s.refreshRegisters with
  | mk ok s' =>
    obtain rfl : ok = true := by simpa [hrefresh] using h
    simp only [HaxmRegisterState.access, hrefresh, HaxmRegisterState.accessFresh,
      regWrite_of_ne_efer _ hreg]

/-- How many bits HAXM replaces: the narrow names are stored with 32 bits. -/
def replacedBits : InstructionReg → ℕ
  | .IP | .EIP | .FLAGS | .EFLAGS => 32
  | .RIP | .RFLAGS => 64

theorem instructionState_regWrite {s : HaxmRegisterState} (h : s.refreshRegisters.1 = true)
    {name : InstructionReg} {value : RegValue} (hvalue : name.ValidValue value) :
    (s.access (.regWrite name.reg value)).2.instructionState =
      name.merge (replacedBits name) value s.instructionState := by
  have hreg : name.reg ≠ .EFER := by cases name <;> decide
  have hfresh := regsDirty_refreshRegisters h
  have hnext : (haxmRegWrite s.refreshRegisters.2.cache name.reg value).2.regsDirty = false := by
    cases name <;> exact hfresh
  rw [access_regWrite h hreg, instructionState_of_fresh hnext]
  -- the flags go through `fixupFlags`, which keeps valid ones
  cases name with
  | IP => rfl
  | EIP =>
    have hstored : value.u32 = value.u32.setWidth 32 := (BitVec.setWidth_eq value.u32).symm
    exact InstructionReg.put_eq_merge .EIP s.instructionState (congrArg (setSlice _ 0) hstored)
  | RIP =>
    have hstored : value.u64 = value.u64.setWidth 64 := (BitVec.setWidth_eq value.u64).symm
    exact InstructionReg.put_eq_merge .RIP s.instructionState
      (hstored.trans (setSlice_zero_of_width _ _).symm)
  | FLAGS =>
    have hfixup : fixupFlags (value.u16.setWidth 64) = value.u16.setWidth 64 :=
      ReservedFlags.fixupFlags_eq hvalue
    have hstored : (fixupFlags (value.u16.setWidth 64)).setWidth 32 = value.u16.setWidth 32 := by
      rw [hfixup, BitVec.setWidth_setWidth_of_le _ (by omega)]
    exact InstructionReg.put_eq_merge .FLAGS s.instructionState (congrArg (setSlice _ 0) hstored)
  | EFLAGS =>
    have hfixup : fixupFlags (value.u32.setWidth 64) = value.u32.setWidth 64 :=
      ReservedFlags.fixupFlags_eq hvalue
    have hstored : (fixupFlags (value.u32.setWidth 64)).setWidth 32 = value.u32.setWidth 32 := by
      rw [hfixup, BitVec.setWidth_setWidth_of_le _ (by omega)]
    exact InstructionReg.put_eq_merge .EFLAGS s.instructionState (congrArg (setSlice _ 0) hstored)
  | RFLAGS =>
    have hfixup : fixupFlags (value.u64.setWidth 64) = value.u64.setWidth 64 :=
      ReservedFlags.fixupFlags_eq hvalue
    have hstored : fixupFlags value.u64 = value.u64.setWidth 64 := by
      rwa [BitVec.setWidth_eq] at hfixup ⊢
    exact InstructionReg.put_eq_merge .RFLAGS s.instructionState
      (hstored.trans (setSlice_zero_of_width _ _).symm)

end Haxm

namespace Whpx

def WhpxRegisterState.instructionState (s : WhpxRegisterState) : InstructionState where
  rip := (s.registers .Rip).reg64
  rflags := (s.registers .Rflags).reg64

def whvRegister : InstructionReg → WhvRegisterName
  | .IP | .EIP | .RIP => .Rip
  | .FLAGS | .EFLAGS | .RFLAGS => .Rflags

/-- How many bits WHPX replaces: all but the 16-bit names clear the bits above them. -/
def replacedBits : InstructionReg → ℕ
  | .IP | .FLAGS => 16
  | .EIP | .RIP | .EFLAGS | .RFLAGS => 64

/-- What is put into the register of an instruction name. -/
theorem reg64_translateRegisterValue (name : InstructionReg) (value : RegValue)
    (output : WhvRegisterValue) :
    (translateRegisterValue name.reg value output).reg64 =
      setSlice output.reg64 0 ((name.bits value).setWidth (replacedBits name)) := by
  have hstore : ∀ x : U64, (output.setReg64 x).reg64 = x :=
    fun x => extractLsb'_setSlice output 0 x (by omega)
  cases name with
  | IP | FLAGS =>
    have hword : value.u16 = value.u16.setWidth 16 := (BitVec.setWidth_eq value.u16).symm
    calc (output.setReg64 (setLowWord output.reg64 value.u16)).reg64
      _ = setLowWord output.reg64 value.u16 := hstore _
      _ = setSlice output.reg64 0 value.u16 := setLowWord_eq_setSlice _ _
      _ = setSlice output.reg64 0 (value.u16.setWidth 16) := congrArg (setSlice _ 0) hword
  | EIP | EFLAGS =>
    rw [replacedBits, setSlice_zero_of_width]
    exact hstore _
  | RIP | RFLAGS =>
    rw [replacedBits, setSlice_zero_of_width]
    exact (hstore _).trans (BitVec.setWidth_eq value.u64).symm

theorem instructionState_regWrite {s : WhpxRegisterState} (hanswers : s.answers = [])
    (name : InstructionReg) (value : RegValue) :
    (s.regWrite name.reg value).2.instructionState =
      name.merge (replacedBits name) value s.instructionState := by
  have hstored := reg64_translateRegisterValue name value
  have hname : translateRegisterName s.whpxVersion name.reg = some (whvRegister name) := by
    cases name <;> rfl
  rw [WhpxRegisterState.instructionState, registers_regWrite hanswers hname]
  cases name with
  | IP | EIP | RIP =>
    rw [whvRegister, Function.update_self, Function.update_of_ne (by decide), hstored]
    rfl
  | FLAGS | EFLAGS | RFLAGS =>
    rw [whvRegister, Function.update_self, Function.update_of_ne (by decide), hstored]
    rfl

end Whpx

/-! ## Agreement -/

/-- A processor of each platform with the instruction state `st`, of which the registers can be
fetched. -/
structure HoldAll (kvm : Kvm.KvmRegisterState) (haxm : Haxm.HaxmRegisterState)
    (whpx : Whpx.WhpxRegisterState) (st : InstructionState) : Prop where
  kvmRefresh : kvm.refreshRegisters.1 = true
  haxmRefresh : haxm.refreshRegisters.1 = true
  whpxAnswers : whpx.answers = []
  kvmState : kvm.instructionState = st
  haxmState : haxm.instructionState = st
  whpxState : whpx.instructionState = st

/-- No bit is set above those that a narrow name writes. -/
def UpperBitsClear (st : InstructionState) (name : InstructionReg) : Prop :=
  match name with
  | .IP | .EIP | .FLAGS => (name.get st).toNat < 2 ^ name.width
  | .RIP | .EFLAGS | .RFLAGS => True

theorem upperBitsClear_iff {st : InstructionState} (h : ReservedFlags st.rflags)
    (name : InstructionReg) :
    UpperBitsClear st name ↔
      (name.get st).toNat < 2 ^ Haxm.replacedBits name ∧
        (name.get st).toNat < 2 ^ Whpx.replacedBits name := by
  have hrip := st.rip.isLt
  have hrflags := h.toNat_lt
  cases name <;>
    simp only [UpperBitsClear, InstructionReg.get, InstructionReg.width, Haxm.replacedBits,
      Whpx.replacedBits, true_iff] <;>
    omega

/-- The three platforms leave the same instruction pointer and flags exactly when no bit is set
above those that a narrow name writes. -/
theorem instruction_writes_agree_iff {kvm : Kvm.KvmRegisterState} {haxm : Haxm.HaxmRegisterState}
    {whpx : Whpx.WhpxRegisterState} {st : InstructionState} (h : HoldAll kvm haxm whpx st)
    (hflags : ReservedFlags st.rflags) (name : InstructionReg) {value : RegValue}
    (hvalue : name.ValidValue value) :
    ((haxm.access (.regWrite name.reg value)).2.instructionState =
        (kvm.access (.regWrite name.reg value)).2.instructionState ∧
      (whpx.regWrite name.reg value).2.instructionState =
        (kvm.access (.regWrite name.reg value)).2.instructionState) ↔
      UpperBitsClear st name := by
  have hhaxm : name.width ≤ Haxm.replacedBits name ∧ Haxm.replacedBits name ≤ 64 := by
    cases name <;> decide
  have hwhpx : name.width ≤ Whpx.replacedBits name ∧ Whpx.replacedBits name ≤ 64 := by
    cases name <;> decide
  rw [Kvm.instructionState_regWrite h.kvmRefresh,
    Haxm.instructionState_regWrite h.haxmRefresh hvalue,
    Whpx.instructionState_regWrite h.whpxAnswers, h.kvmState, h.haxmState, h.whpxState,
    InstructionReg.merge_eq_merge_iff hhaxm.1 hhaxm.2,
    InstructionReg.merge_eq_merge_iff hwhpx.1 hwhpx.2, upperBitsClear_iff hflags]

/-- A KVM processor with the given instruction state. -/
def Kvm.holding (st : InstructionState) : Kvm.KvmRegisterState where
  cache :=
    { (default : Kvm.KvmRegisterCache) with
      files :=
        { (default : Kvm.KvmRegisterFiles) with
          regs := { (default : Kvm.KvmRegs) with rip := st.rip, rflags := st.rflags } } }
  kernel := Kvm.resetKernel

/-- A HAXM processor with the given instruction state. -/
def Haxm.holding (st : InstructionState) : Haxm.HaxmRegisterState where
  cache :=
    { (default : Haxm.HaxmRegisterCache) with
      files :=
        { (default : Haxm.HaxmRegisterFiles) with
          regs := { (default : Haxm.VcpuState) with rip := st.rip, rflags := st.rflags } } }
  useEferMSR := true
  driver := Haxm.resetDriver

/-- A WHPX processor with the given instruction state. -/
def Whpx.holding (st : InstructionState) : Whpx.WhpxRegisterState where
  whpxVersion := ⟨10, 0, 17763, 0⟩
  registers
    | .Rip => st.rip.setWidth 128
    | .Rflags => st.rflags.setWidth 128
    | _ => 0
  answers := []

theorem holdAll_holding (st : InstructionState) :
    HoldAll (Kvm.holding st) (Haxm.holding st) (Whpx.holding st) st where
  kvmRefresh := rfl
  haxmRefresh := rfl
  whpxAnswers := rfl
  kvmState := rfl
  haxmState := rfl
  whpxState := by
    have hrip := extractLsb'_setWidth_self st.rip (show 64 ≤ 128 by omega)
    have hrflags := extractLsb'_setWidth_self st.rflags (show 64 ≤ 128 by omega)
    cases st
    simp only [Whpx.WhpxRegisterState.instructionState, Whpx.holding,
      Whpx.WhvRegisterValue.reg64, hrip, hrflags]

/-- A write of `EIP` below 4 GiB. -/
theorem instruction_writes_agree_EIP :
    let st : InstructionState := ⟨0xFFF0, 2⟩
    ((Haxm.holding st).access (.regWrite .EIP 0x7C00)).2.instructionState =
        ((Kvm.holding st).access (.regWrite .EIP 0x7C00)).2.instructionState ∧
      ((Whpx.holding st).regWrite .EIP 0x7C00).2.instructionState =
        ((Kvm.holding st).access (.regWrite .EIP 0x7C00)).2.instructionState :=
  (instruction_writes_agree_iff (holdAll_holding ⟨0xFFF0, 2⟩) (by decide) .EIP trivial).mpr
    (by decide : (0xFFF0 : U64).toNat < 2 ^ 32)

/-- A write of `IP` high in the address space leaves three different instruction pointers. -/
theorem IP_write_differs :
    let st : InstructionState := ⟨0xFFFFFFFF80000010, 2⟩
    ReservedFlags st.rflags ∧
      ((Kvm.holding st).access (.regWrite .IP 0x1234)).2.instructionState = ⟨0x1234, 2⟩ ∧
      ((Haxm.holding st).access (.regWrite .IP 0x1234)).2.instructionState =
        ⟨0xFFFFFFFF00001234, 2⟩ ∧
      ((Whpx.holding st).regWrite .IP 0x1234).2.instructionState = ⟨0xFFFFFFFF80001234, 2⟩ := by
  refine ⟨by decide, ?_, ?_, ?_⟩ <;> decide +kernel

end Virt86
