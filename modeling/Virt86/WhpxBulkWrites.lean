import Virt86.WhpxRegisters

/-!
# Bulk register writes of a WHPX processor

`RegWrite` for an array of registers replaces the loop of `VirtualProcessor` by one fetch and one
store. Where names of the array are views of one register, each of them is put into the register as
it was before the call.
-/

namespace Virt86

namespace Whpx

open BatchedWrites

/-- The register that a supported name is a view of. -/
def whvName (whpxVersion : VersionInfo) (entry : Reg × RegValue) : WhvRegisterName :=
  (translateRegisterName whpxVersion entry.1).getD .Cs

def mergeEntry (entry : Reg × RegValue) (output : WhvRegisterValue) : WhvRegisterValue :=
  translateRegisterValue entry.1 entry.2 output

/-- All names of the array are supported. -/
def Supported (whpxVersion : VersionInfo) (regs : List (Reg × RegValue)) : Prop :=
  ∀ entry ∈ regs, (translateRegisterName whpxVersion entry.1).isSome

instance (whpxVersion : VersionInfo) (regs : List (Reg × RegValue)) :
    Decidable (Supported whpxVersion regs) :=
  inferInstanceAs (Decidable (∀ entry ∈ regs, (translateRegisterName whpxVersion entry.1).isSome))

theorem translateRegisterName_of_isSome {whpxVersion : VersionInfo} {entry : Reg × RegValue}
    (h : (translateRegisterName whpxVersion entry.1).isSome) :
    translateRegisterName whpxVersion entry.1 = some (whvName whpxVersion entry) := by
  obtain ⟨name, hname⟩ := Option.isSome_iff_exists.mp h
  rw [whvName, hname, Option.getD_some]

section Calls

variable {s : WhpxRegisterState} {regs : List (Reg × RegValue)}

theorem translate_names (h : Supported s.whpxVersion regs) :
    (regs.mapM fun entry => translateRegisterName s.whpxVersion entry.1) =
      some (regs.map (whvName s.whpxVersion)) := by
  induction regs with
  | nil => rfl
  | cons entry regs ih =>
    have hentry := translateRegisterName_of_isSome (h entry List.mem_cons_self)
    have hregs := ih fun e he => h e (List.mem_cons_of_mem _ he)
    rw [List.mapM_cons, hentry, hregs]
    rfl

/-- The values that the call stores are those of a batch. -/
theorem zip_translated_values (registers : WhvRegisterName → WhvRegisterValue) :
    (regs.map (whvName s.whpxVersion)).zip
        (List.zipWith (fun entry output => translateRegisterValue entry.1 entry.2 output) regs
          ((regs.map (whvName s.whpxVersion)).map registers)) =
      mergeAll (whvName s.whpxVersion) mergeEntry registers regs := by
  induction regs with
  | nil => rfl
  | cons entry regs ih =>
    simp only [List.map_cons, List.zipWith_cons_cons, List.zip_cons_cons, ih]
    rfl

theorem regWriteBulk_of_supported (hanswers : s.answers = []) (h : Supported s.whpxVersion regs) :
    s.regWriteBulk regs =
      (.OK, { s with
        registers := writeBatch (whvName s.whpxVersion) mergeEntry s.registers regs }) := by
  have hanswer : ∀ registers, ({ s with registers } : WhpxRegisterState).answer =
      (true, { s with registers }) := by
    intro registers
    rw [WhpxRegisterState.answer]
    simp only [hanswers]
  simp only [WhpxRegisterState.regWriteBulk, translate_names h,
    WhpxRegisterState.getVirtualProcessorRegisters, hanswer s.registers,
    WhpxRegisterState.setVirtualProcessorRegisters, zip_translated_values]
  rfl

/-- `RegWrite` changes the register that the name is a view of. -/
theorem registers_regWrite (hanswers : s.answers = []) {reg : Reg} {name : WhvRegisterName}
    (h : translateRegisterName s.whpxVersion reg = some name) (value : RegValue) :
    (s.regWrite reg value).2.registers =
      Function.update s.registers name (translateRegisterValue reg value (s.registers name)) := by
  have hsupported : Supported s.whpxVersion [(reg, value)] := by
    intro entry hentry
    rw [List.mem_singleton.mp hentry, h]
    rfl
  have hname : whvName s.whpxVersion (reg, value) = name := by
    rw [whvName, h, Option.getD_some]
  rw [WhpxRegisterState.regWrite, regWriteBulk_of_supported hanswers hsupported, ← hname]
  rfl

/-- The loop writes the pairs one by one. -/
theorem regWriteLoop_of_supported (hanswers : s.answers = [])
    (h : Supported s.whpxVersion regs) :
    s.regWriteLoop regs =
      (.OK, { s with
        registers := writeLoop (whvName s.whpxVersion) mergeEntry s.registers regs }) := by
  induction regs generalizing s with
  | nil => rfl
  | cons entry regs ih =>
    have hentry : Supported s.whpxVersion [entry] := by
      intro e he
      rw [List.mem_singleton.mp he]
      exact h entry List.mem_cons_self
    rw [WhpxRegisterState.regWriteLoop, WhpxRegisterState.regWrite,
      regWriteBulk_of_supported hanswers hentry]
    exact ih hanswers fun e he => h e (List.mem_cons_of_mem _ he)

end Calls

/-- A write of a register replaces some of its bits. -/
theorem masked_mergeEntry : Masked mergeEntry (fun output (i : Fin 128) => output.getLsbD i)
    (fun entry i => (registerView entry.1).Writes i)
    (fun entry i => ((registerView entry.1).store entry.2 0).getLsbD i) where
  ext _ _ h := BitVec.eq_of_getLsbD_eq fun i hi => h ⟨i, hi⟩
  written entry x i hi :=
    ((registerView entry.1).getLsbD_store entry.2 x i.isLt).trans (if_pos hi)
  kept entry x i hi :=
    ((registerView entry.1).getLsbD_store entry.2 x i.isLt).trans (if_neg hi)

/-- Where the last pair for a register keeps a bit, the last pair before it that writes the bit, if
there is one, writes what the register has there already. -/
def LosesNoBit (s : WhpxRegisterState) (regs : List (Reg × RegValue)) : Prop :=
  ∀ before first between last after, ∀ i : Fin 128,
    before ++ first :: between ++ last :: after = regs →
    whvName s.whpxVersion first = whvName s.whpxVersion last →
    (∀ entry ∈ after, whvName s.whpxVersion entry ≠ whvName s.whpxVersion last) →
    (registerView first.1).Writes i → ¬(registerView last.1).Writes i →
    (∀ entry ∈ between, whvName s.whpxVersion entry = whvName s.whpxVersion last →
      ¬(registerView entry.1).Writes i) →
    ((registerView first.1).store first.2 0).getLsbD i =
      (s.registers (whvName s.whpxVersion last)).getLsbD i

/-- A bulk write leaves the registers that the loop leaves exactly when no bit of an earlier pair
is lost. -/
theorem bulk_write_eq_loop_iff (s : WhpxRegisterState) (hanswers : s.answers = [])
    (regs : List (Reg × RegValue)) (h : Supported s.whpxVersion regs) :
    (s.regWriteBulk regs).2.registers = (s.regWriteLoop regs).2.registers ↔ LosesNoBit s regs := by
  rw [regWriteBulk_of_supported hanswers h, regWriteLoop_of_supported hanswers h]
  exact masked_mergeEntry.writeBatch_eq_writeLoop_iff

/-- A processor whose registers are all zero. -/
def zeroState : WhpxRegisterState where
  whpxVersion := ⟨10, 0, 17763, 0⟩
  registers _ := 0
  answers := []

/-- `AX` then `RAX`: the whole register is written last. -/
theorem bulk_write_AX_RAX : LosesNoBit zeroState [(.AX, 0x1111), (.RAX, 0x2222)] := by
  apply (bulk_write_eq_loop_iff zeroState rfl _ (by decide)).mp
  funext name
  cases name <;> decide +kernel

/-- `AL` then `AH`: the bulk write loses `AL`. -/
theorem bulk_write_loses_AL :
    (zeroState.regWriteBulk [(.AL, 0x11), (.AH, 0x22)]).2.registers .Rax = 0x2200 ∧
      (zeroState.regWriteLoop [(.AL, 0x11), (.AH, 0x22)]).2.registers .Rax = 0x2211 := by
  constructor <;> decide +kernel

end Whpx

end Virt86
