import Virt86.DebugOperations
import Virt86.FailedRuns

/-!
# Reported breakpoint addresses

`GetBreakpointAddress` reads the debug fields of the exit record without a look at the exit reason.
The record is a union, so that after another exit these fields are bytes of that exit, or what an
earlier one left there.
-/

namespace Virt86

open BitSlices

/-! ## Words of a record -/

/-- The 64-bit field at an offset. -/
def SharedBytes.word (record : SharedBytes) (offset : ℕ) : U64 :=
  ofBytes 64 (fun k => record (offset + k)) 8

theorem SharedBytes.word_congr {r r' : SharedBytes} {offset : ℕ}
    (h : ∀ k, offset ≤ k → k < offset + 8 → r k = r' k) : r.word offset = r'.word offset := by
  apply BitVec.eq_of_getLsbD_eq
  intro i hi
  rw [SharedBytes.word, SharedBytes.word, getLsbD_ofBytes _ _ hi, getLsbD_ofBytes _ _ hi,
    h (offset + i / 8) (by omega) (by omega)]

theorem SharedBytes.word_store (record : SharedBytes) (offset : ℕ) (value : U64) :
    (record.store offset 8 value).word offset = value := by
  apply BitVec.eq_of_getLsbD_eq
  intro i hi
  rw [SharedBytes.word, getLsbD_ofBytes _ _ hi, SharedBytes.store, if_pos (by omega),
    BitVec.getLsbD_extractLsb', Nat.add_sub_cancel_left, Nat.div_add_mod]
  simp [hi, Nat.mod_lt]

theorem SharedBytes.word_store_of_disjoint {w : ℕ} (record : SharedBytes) {offset o size : ℕ}
    (value : BitVec w) (h : offset + 8 ≤ o ∨ o + size ≤ offset) :
    (record.store o size value).word offset = record.word offset := by
  apply SharedBytes.word_congr
  intro k hlow hhigh
  rw [SharedBytes.store, if_neg (by omega)]

/-! ## The answer -/

/-- The part shared by both backends, with the fields of the record. -/
def breakpointAddress (dr : DebugRegisters) (dr6 pc address : U64) : VPOperationStatus × U64 :=
  let hardwareBP : U8 := (dr6 &&& 0xF).setWidth 8
  if hardwareBP = 0 ∧ pc = 0 then (.BreakpointNeverHit, address)
  else if hardwareBP &&& (1#8 <<< 0) ≠ 0 then (.OK, dr[0])
  else if hardwareBP &&& (1#8 <<< 1) ≠ 0 then (.OK, dr[1])
  else if hardwareBP &&& (1#8 <<< 2) ≠ 0 then (.OK, dr[2])
  else if hardwareBP &&& (1#8 <<< 3) ≠ 0 then (.OK, dr[3])
  else (.OK, pc)

/-- Breakpoint `i` is the first one that DR6 flags. -/
def FirstHit (dr6 : U64) (i : Fin 4) : Prop :=
  dr6.getLsbD i = true ∧ ∀ j < i, dr6.getLsbD j = false

/-- DR6 and the program counter of a debug exit. -/
abbrev DebugExit := U64 × U64

/-- The answer that is due after the latest execution. -/
def Reports (dr : DebugRegisters) (result : VPOperationStatus × U64) : Option DebugExit → Prop
  | none => result.1 = .BreakpointNeverHit
  | some (dr6, pc) => result.1 = .OK ∧ (∀ i, FirstHit dr6 i → result.2 = dr.address i) ∧
    (dr6 &&& 0xF = 0 → result.2 = pc)

/-- No fields look like a breakpoint by accident, and those of a breakpoint do. -/
def Telling (dr6 pc : U64) : Option DebugExit → Prop
  | none => dr6 &&& 0xF = 0 ∧ pc = 0
  | some (dr6, pc) => dr6 &&& 0xF ≠ 0 ∨ pc ≠ 0

section Answer

variable (dr : DebugRegisters) (dr6 pc address : U64)

theorem hardwareBP_bit {k : ℕ} (hk : k < 4) :
    ((dr6 &&& 0xF).setWidth 8 : U8) &&& (1#8 <<< k) ≠ 0 ↔ dr6.getLsbD k = true := by
  have hmask : dr6 &&& 0xF = (dr6.setWidth 4).setWidth 64 := and_ofNat_mask dr6 4
  rw [ne_eq, and_bit_eq_zero_iff _ (by omega), Bool.not_eq_false, hmask]
  simp [hk, show k < 8 by omega, show k < 64 by omega]

theorem hardwareBP_eq_zero_iff : ((dr6 &&& 0xF).setWidth 8 : U8) = 0 ↔ dr6 &&& 0xF = 0 := by
  have hlt : (dr6 &&& 0xF).toNat < 16 := by
    rw [show dr6 &&& 0xF = (dr6.setWidth 4).setWidth 64 from and_ofNat_mask dr6 4,
      BitVec.toNat_setWidth_of_le (by omega)]
    exact (dr6.setWidth 4).isLt
  rw [← BitVec.toNat_inj, ← BitVec.toNat_inj, BitVec.toNat_setWidth]
  change (dr6 &&& 0xF).toNat % 256 = 0 ↔ (dr6 &&& 0xF).toNat = 0
  omega

theorem breakpointAddress_status : (breakpointAddress dr dr6 pc address).1 =
    if dr6 &&& 0xF = 0 ∧ pc = 0 then .BreakpointNeverHit else .OK := by
  simp only [breakpointAddress, hardwareBP_eq_zero_iff]
  split_ifs <;> rfl

/-- Without a flag in DR6 it is the program counter. -/
theorem breakpointAddress_pc (hdr6 : dr6 &&& 0xF = 0) (hpc : pc ≠ 0) :
    (breakpointAddress dr dr6 pc address).2 = pc := by
  have hzero : ((dr6 &&& 0xF).setWidth 8 : U8) = 0 := (hardwareBP_eq_zero_iff dr6).mpr hdr6
  simp only [breakpointAddress, hzero]
  rw [if_neg fun h => hpc h.2]
  rfl

/-- The tests go through the flags in order. -/
theorem breakpointAddress_firstHit {i : Fin 4} (hi : FirstHit dr6 i) :
    (breakpointAddress dr dr6 pc address).2 = dr.address i := by
  have hflagged : ¬ (((dr6 &&& 0xF).setWidth 8 : U8) = 0 ∧ pc = 0) := by
    rintro ⟨hzero, -⟩
    have hbit := (hardwareBP_bit dr6 i.isLt).mpr hi.1
    exact hbit (by rw [hzero, BitVec.ofNat_eq_ofNat, BitVec.zero_and])
  have hbefore (j : Fin 4) (hj : j < i) : ¬ dr6.getLsbD j.val = true := by simp [hi.2 j hj]
  simp only [breakpointAddress, if_neg hflagged, hardwareBP_bit dr6 (show 0 < 4 by omega),
    hardwareBP_bit dr6 (show 1 < 4 by omega), hardwareBP_bit dr6 (show 2 < 4 by omega),
    hardwareBP_bit dr6 (show 3 < 4 by omega)]
  match i with
  | 0 => exact congrArg Prod.snd (if_pos hi.1)
  | 1 => exact congrArg Prod.snd ((if_neg (hbefore 0 (by decide))).trans (if_pos hi.1))
  | 2 =>
    exact congrArg Prod.snd ((if_neg (hbefore 0 (by decide))).trans
      ((if_neg (hbefore 1 (by decide))).trans (if_pos hi.1)))
  | 3 =>
    exact congrArg Prod.snd ((if_neg (hbefore 0 (by decide))).trans
      ((if_neg (hbefore 1 (by decide))).trans ((if_neg (hbefore 2 (by decide))).trans
        (if_pos hi.1))))

/-- The answer is the one that is due exactly when the fields tell of the latest execution. -/
theorem reports_breakpointAddress_iff {ended : Option DebugExit}
    (hended : ∀ d, ended = some d → d = (dr6, pc)) :
    Reports dr (breakpointAddress dr dr6 pc address) ended ↔ Telling dr6 pc ended := by
  cases ended with
  | none =>
    simp only [Reports, Telling, breakpointAddress_status]
    split_ifs with h
    · exact iff_of_true rfl h
    · exact iff_of_false (by simp) h
  | some d =>
    obtain rfl := hended d rfl
    simp only [Reports, Telling, breakpointAddress_status]
    constructor
    · rintro ⟨hok, -⟩
      by_cases hquiet : dr6 &&& 0xF = 0 ∧ pc = 0
      · rw [if_pos hquiet] at hok
        cases hok
      · exact not_and_or.mp hquiet
    · intro htelling
      refine ⟨?_, fun i hi => breakpointAddress_firstHit dr dr6 pc address hi, fun hdr6 => ?_⟩
      · rw [if_neg]
        rintro ⟨hdr6, hpc⟩
        exact htelling.elim (absurd hdr6) (absurd hpc)
      · exact breakpointAddress_pc dr dr6 pc address hdr6 (htelling.resolve_left (absurd hdr6))

end Answer

/-! ## KVM -/

namespace Kvm

variable {D : Type} {vp : KvmVirtualProcessor D} {guest : KvmGuest} {answer : KvmRunAnswer}
  {dr6 pc : U64}

/-- The union of `kvm_run`: the fields of the exit, and what is left in the bytes that the exit does
not fix. Among these is `io.data_offset`. -/
def KvmRun.record (run : KvmRun) (left : SharedBytes) : SharedBytes :=
  match run.exit with
  | .EXCEPTION exception => left.store 0 4 exception
  | .Io direction size port count =>
    let record := left.store 0 1 (if direction = .output then 1#8 else 0#8)
    let record := record.store 1 1 (BitVec.ofNat 8 size.bytes)
    let record := record.store 2 2 port
    record.store 4 4 (count.setWidth 32)
  | .Mmio phys_addr len is_write =>
    let record := left.store 0 8 phys_addr
    let record : SharedBytes := fun k => if 8 ≤ k ∧ k < 16 then run.data (k - 8) else record k
    let record := record.store 16 4 (BitVec.ofNat 32 len)
    record.store 20 1 (if is_write then 1#8 else 0#8)
  | .DEBUG dr6 pc => (left.store 8 8 pc).store 16 8 dr6
  | _ => left

/-- The fields `debug.arch.dr6` and `debug.arch.pc` at their places in the union. -/
def KvmVirtualProcessor.getBreakpointAddress (vp : KvmVirtualProcessor D) (left : SharedBytes)
    (address : U64) : VPOperationStatus × U64 :=
  let record := vp.exits.kvmRun.record left
  breakpointAddress vp.debug.debugreg (record.word 16) (record.word 8) address

/-- The debug exit that an execution ended with, if it did. -/
def KvmRunAnswer.debugExit (answer : KvmRunAnswer) : Option DebugExit :=
  match answer.ok, answer.kvmRun.exit with
  | true, .DEBUG dr6 pc => some (dr6, pc)
  | _, _ => none

/-- The execution of the guest in an operation, if it comes to that. -/
def KvmVirtualProcessor.execution (vp : KvmVirtualProcessor D) :
    BreakpointOp KvmOp → Option KvmRunAnswer
  | .host op => vp.opAnswer op
  | .request _ => none

def lastExecution (vp : KvmVirtualProcessor D) (ops : List (BreakpointOp KvmOp)) :
    Option KvmRunAnswer :=
  (collect KvmVirtualProcessor.performDebug (fun vp o => (vp.execution o).toList) vp ops).getLast?

/-- The debug exit is what the record shows. -/
def ShowsDebugExit (last : Option KvmRunAnswer) (vp : KvmVirtualProcessor D) : Prop :=
  ∀ dr6 pc, last.bind KvmRunAnswer.debugExit = some (dr6, pc) →
    vp.exits.kvmRun.exit = .DEBUG dr6 pc

theorem debugExit_eq_some_iff : answer.debugExit = some (dr6, pc) ↔
    answer.ok = true ∧ answer.kvmRun.exit = .DEBUG dr6 pc := by
  rw [KvmRunAnswer.debugExit]
  split
  · rename_i hok hexit
    simp [hok, hexit]
  · rename_i hother
    simp only [reduceCtorEq, false_iff, not_and]
    exact fun hok hexit => hother _ _ hok hexit

theorem handleExecResult_exit (h : vp.exits.kvmRun.exit = .DEBUG dr6 pc) :
    vp.handleExecResult.2.exits.kvmRun.exit = .DEBUG dr6 pc := by
  simp only [KvmVirtualProcessor.handleExecResult, KvmExits.handleExit, h, KvmExits.setReason]

theorem runImpl_exit (hanswer : vp.runAnswer guest = some answer)
    (hdebug : answer.debugExit = some (dr6, pc)) : (vp.runImpl guest).1 = .OK ∧
      (vp.runImpl guest).2.exits.kvmRun.exit = .DEBUG dr6 pc := by
  obtain ⟨hok, hexit⟩ := debugExit_eq_some_iff.mp hdebug
  obtain ⟨s, hupdate, hrun⟩ := updateRegisters_of_runAnswer hanswer
  simp only [KvmVirtualProcessor.runImpl, hupdate, hrun, hok, if_true]
  exact ⟨rfl, handleExecResult_exit hexit⟩

theorem runImpl_of_runAnswer_none (hanswer : vp.runAnswer guest = none) :
    (vp.runImpl guest).1 = .Failed ∧ (vp.runImpl guest).2.exits = vp.exits := by
  simp only [KvmVirtualProcessor.runAnswer] at hanswer
  cases hupdate : vp.registers.updateRegisters with
  | mk ok s =>
    cases ok with
    | false => simp only [KvmVirtualProcessor.runImpl, hupdate, and_self]
    | true => simp [hupdate] at hanswer

/-- A step ends with what its run ended with, handled once more if that was well. -/
theorem stepImpl_exits {vp₁ : KvmVirtualProcessor D}
    (hstart : (vp.withSingleStep true).setDebug = (true, vp₁)) :
    (vp.stepImpl guest).2.exits.kvmRun = (vp₁.runImpl guest).2.exits.kvmRun ∨
      (vp₁.runImpl guest).1 = .OK ∧ ∃ vp₂ : KvmVirtualProcessor D,
        vp₂.exits = (vp₁.runImpl guest).2.exits ∧
        (vp.stepImpl guest).2.exits.kvmRun = vp₂.handleExecResult.2.exits.kvmRun := by
  obtain ⟨-, -, hexits⟩ := setDebug_frame ((vp₁.runImpl guest).2.withSingleStep false)
  simp only [KvmVirtualProcessor.stepImpl, hstart]
  cases hend : ((vp₁.runImpl guest).2.withSingleStep false).setDebug with
  | mk ok vp₂ =>
    rw [hend] at hexits
    cases ok with
    | false => exact .inl (congrArg KvmExits.kvmRun hexits)
    | true =>
      simp only
      split_ifs with hstatus
      · exact .inr ⟨hstatus, vp₂, hexits, rfl⟩
      · exact .inr ⟨hstatus, vp₂, hexits, rfl⟩
      · exact .inl (congrArg KvmExits.kvmRun hexits)

theorem request_exits (r : DebugRequest) : (vp.request r).2.exits = vp.exits := by
  have hsubmit (debug : KvmGuestDebug) :
      ({ vp with debug } : KvmVirtualProcessor D).submitDebug.2.exits = vp.exits := by
    rw [submitDebug_eq]
    exact (setDebug_frame { vp with debug }).2.2
  cases r with
  | enableSoftwareBreakpoints enable => exact hsubmit _
  | clearHardwareBreakpoints => exact hsubmit _
  | setHardwareBreakpoints breakpoints =>
    simp only [KvmVirtualProcessor.request, KvmVirtualProcessor.setHardwareBreakpoints]
    split_ifs
    · exact hsubmit _
    · exact hsubmit _

theorem perform_of_execution_none {o : BreakpointOp KvmOp} (h : vp.execution o = none) :
    (vp.performDebug o).2.exits.kvmRun = vp.exits.kvmRun := by
  cases o with
  | request r => exact congrArg KvmExits.kvmRun (request_exits r)
  | host op =>
    cases op with
    | access a => rfl
    | run guest => exact congrArg KvmExits.kvmRun (runImpl_of_runAnswer_none h).2
    | step guest =>
      obtain ⟨-, -, hexits⟩ := setDebug_frame (vp.withSingleStep true)
      simp only [KvmVirtualProcessor.execution, KvmVirtualProcessor.opAnswer] at h
      simp only [KvmVirtualProcessor.performDebug, KvmVirtualProcessor.perform]
      cases hstart : (vp.withSingleStep true).setDebug with
      | mk ok vp₁ =>
        rw [hstart] at hexits
        cases ok with
        | false =>
          simp only [KvmVirtualProcessor.stepImpl, hstart]
          exact congrArg KvmExits.kvmRun hexits
        | true =>
          simp only [hstart] at h
          obtain ⟨hfailed, hrun⟩ := runImpl_of_runAnswer_none h
          rcases stepImpl_exits hstart with hsame | ⟨hok, -⟩
          · rw [hsame, hrun, hexits]
            rfl
          · rw [hfailed] at hok
            cases hok

theorem perform_of_execution {o : BreakpointOp KvmOp} (h : vp.execution o = some answer)
    (hdebug : answer.debugExit = some (dr6, pc)) :
    (vp.performDebug o).2.exits.kvmRun.exit = .DEBUG dr6 pc := by
  cases o with
  | request r => cases h
  | host op =>
    cases op with
    | access a => cases h
    | run guest => exact (runImpl_exit h hdebug).2
    | step guest =>
      simp only [KvmVirtualProcessor.execution, KvmVirtualProcessor.opAnswer] at h
      cases hstart : (vp.withSingleStep true).setDebug with
      | mk ok vp₁ =>
        cases ok with
        | false => simp [hstart] at h
        | true =>
          simp only [hstart] at h
          obtain ⟨-, hrun⟩ := runImpl_exit h hdebug
          change (vp.stepImpl guest).2.exits.kvmRun.exit = .DEBUG dr6 pc
          rcases stepImpl_exits hstart with hsame | ⟨-, vp₂, hexits, hhandled⟩
          · rw [hsame, hrun]
          · rw [hhandled]
            exact handleExecResult_exit (by rw [hexits, hrun])

theorem perform_showsDebugExit (o : BreakpointOp KvmOp) {last : Option KvmRunAnswer}
    (h : ShowsDebugExit last vp) :
    ShowsDebugExit ((vp.execution o).or last) (vp.performDebug o).2 := by
  intro dr6 pc hlast
  cases hexecution : vp.execution o with
  | none =>
    rw [hexecution, Option.none_or] at hlast
    rw [perform_of_execution_none hexecution]
    exact h dr6 pc hlast
  | some answer =>
    rw [hexecution, Option.some_or, Option.bind_some] at hlast
    exact perform_of_execution hexecution hlast

/-- After every run the record of a debug exit has its fields. -/
theorem record_of_debugExit (vp : KvmVirtualProcessor D) (ops : List (BreakpointOp KvmOp))
    (left : SharedBytes) {d : DebugExit}
    (h : (lastExecution vp ops).bind KvmRunAnswer.debugExit = some d) :
    let record := (runAll KvmVirtualProcessor.performDebug vp ops).2.exits.kvmRun.record left
    d = (record.word 16, record.word 8) := by
  obtain ⟨dr6, pc⟩ := d
  have hstart : ShowsDebugExit none vp := fun _ _ hnone => by cases hnone
  have hshows := runAll_last KvmVirtualProcessor.execution perform_showsDebugExit hstart ops
  rw [Option.or_none] at hshows
  simp only [KvmRun.record, hshows dr6 pc h]
  rw [SharedBytes.word_store, SharedBytes.word_store_of_disjoint _ _ (by omega),
    SharedBytes.word_store]

/-- The answer after a run is the one that is due. -/
def ReportsAfter (vp : KvmVirtualProcessor D) (ops : List (BreakpointOp KvmOp))
    (left : SharedBytes) (address : U64) : Prop :=
  let vp' := (runAll KvmVirtualProcessor.performDebug vp ops).2
  Reports vp'.debug.debugreg (vp'.getBreakpointAddress left address)
    ((lastExecution vp ops).bind KvmRunAnswer.debugExit)

def TellsAfter (vp : KvmVirtualProcessor D) (ops : List (BreakpointOp KvmOp))
    (left : SharedBytes) : Prop :=
  let record := (runAll KvmVirtualProcessor.performDebug vp ops).2.exits.kvmRun.record left
  Telling (record.word 16) (record.word 8) ((lastExecution vp ops).bind KvmRunAnswer.debugExit)

theorem reportsAfter_iff (vp : KvmVirtualProcessor D) (ops : List (BreakpointOp KvmOp))
    (left : SharedBytes) (address : U64) :
    ReportsAfter vp ops left address ↔ TellsAfter vp ops left :=
  reports_breakpointAddress_iff _ _ _ _ fun _ hd => record_of_debugExit vp ops left hd

end Kvm

/-! ## HAXM -/

namespace Haxm

variable {D : Type} {vp : HaxmVirtualProcessor D} {guest : HaxmGuest} {answer : HaxmRunAnswer}
  {rip dr6 dr7 : U64}

/-- The union of `hax_tunnel`: the fields of the exit, and what is left in the bytes that the exit
does not fix. -/
def HaxTunnel.record (tunnel : HaxTunnel) (left : SharedBytes) : SharedBytes :=
  match tunnel.exit with
  | .Io direction df size port count =>
    let record := left.store 0 1 (if direction = .output then 0#8 else 1#8)
    let record := record.store 1 1 (if df then 1#8 else 0#8)
    let record := record.store 2 2 (BitVec.ofNat 16 size.bytes)
    let record := record.store 4 2 port
    record.store 6 2 count
  | .DEBUG rip dr6 dr7 => ((left.store 0 8 rip).store 8 8 dr6).store 16 8 dr7
  | _ => left

/-- The fields `debug.dr6` and `debug.rip` at their places in the union. No address stands for the
null pointer. -/
def HaxmVirtualProcessor.getBreakpointAddress (vp : HaxmVirtualProcessor D) (left : SharedBytes) :
    Option U64 → VPOperationStatus × Option U64
  | none => (.InvalidArguments, none)
  | some address =>
    let record := vp.exits.tunnel.record left
    let (status, address) :=
      breakpointAddress vp.debug.dr (record.word 8) (record.word 0) address
    (status, some address)

/-- The debug exit that an execution ended with, if it did. -/
def HaxmRunAnswer.debugExit (answer : HaxmRunAnswer) : Option DebugExit :=
  match answer.ok, answer.tunnel.exit with
  | true, .DEBUG rip dr6 _ => some (dr6, rip)
  | _, _ => none

/-- The execution of the guest in an operation, if it comes to that. -/
def HaxmVirtualProcessor.execution (vp : HaxmVirtualProcessor D) :
    BreakpointOp HaxmOp → Option HaxmRunAnswer
  | .host op => vp.opAnswer op
  | .request _ => none

def lastExecution (vp : HaxmVirtualProcessor D) (ops : List (BreakpointOp HaxmOp)) :
    Option HaxmRunAnswer :=
  (collect HaxmVirtualProcessor.performDebug (fun vp o => (vp.execution o).toList) vp ops).getLast?

/-- The tunnel shows a debug exit. -/
def HaxTunnel.ShowsDebug (tunnel : HaxTunnel) (dr6 rip : U64) : Prop :=
  ∃ dr7, tunnel.exit = .DEBUG rip dr6 dr7

/-- The debug exit is what the record shows. -/
def ShowsDebugExit (last : Option HaxmRunAnswer) (vp : HaxmVirtualProcessor D) : Prop :=
  ∀ dr6 rip, last.bind HaxmRunAnswer.debugExit = some (dr6, rip) →
    vp.exits.tunnel.ShowsDebug dr6 rip

theorem debugExit_eq_some_iff : answer.debugExit = some (dr6, rip) ↔
    answer.ok = true ∧ answer.tunnel.ShowsDebug dr6 rip := by
  rw [HaxmRunAnswer.debugExit]
  split
  · rename_i hok hexit
    simp [hok, hexit, HaxTunnel.ShowsDebug, and_comm]
  · rename_i hother
    simp only [reduceCtorEq, false_iff, not_and]
    exact fun hok ⟨_, hexit⟩ => hother _ _ _ hok hexit

theorem handleExecResult_exit (h : vp.exits.tunnel.ShowsDebug dr6 rip) :
    vp.handleExecResult.2.exits.tunnel.ShowsDebug dr6 rip := by
  obtain ⟨dr7, hexit⟩ := h
  refine ⟨dr7, ?_⟩
  simp only [HaxmVirtualProcessor.handleExecResult, HaxmExits.handleExit, hexit,
    HaxmExits.setReason]

theorem runImpl_exit (hdebug : (vp.runAnswer guest).debugExit = some (dr6, rip)) :
    (vp.runImpl guest).2.exits.tunnel.ShowsDebug dr6 rip := by
  obtain ⟨hok, hexit⟩ := debugExit_eq_some_iff.mp hdebug
  rw [HaxmVirtualProcessor.runAnswer] at hok
  simp only [HaxmVirtualProcessor.runImpl, hok, if_true]
  exact handleExecResult_exit hexit

/-- A step ends with what its run ended with, handled once more if that was well. -/
theorem stepImpl_exits {vp₁ : HaxmVirtualProcessor D}
    (hstart : (vp.withSingleStep true).setDebug = (true, vp₁)) :
    (vp.stepImpl guest).2.exits.tunnel = (vp₁.runImpl guest).2.exits.tunnel ∨
      ∃ vp₂ : HaxmVirtualProcessor D, vp₂.exits = (vp₁.runImpl guest).2.exits ∧
        (vp.stepImpl guest).2.exits.tunnel = vp₂.handleExecResult.2.exits.tunnel := by
  obtain ⟨-, -, hexits⟩ := setDebug_frame ((vp₁.runImpl guest).2.withSingleStep false)
  simp only [HaxmVirtualProcessor.stepImpl, hstart]
  cases hend : ((vp₁.runImpl guest).2.withSingleStep false).setDebug with
  | mk ok vp₂ =>
    rw [hend] at hexits
    cases ok with
    | false => exact .inl (congrArg HaxmExits.tunnel hexits)
    | true =>
      simp only
      split_ifs with hstatus
      · exact .inr ⟨vp₂, hexits, rfl⟩
      · exact .inr ⟨vp₂, hexits, rfl⟩
      · exact .inl (congrArg HaxmExits.tunnel hexits)

theorem request_exits (r : DebugRequest) : (vp.request r).2.exits = vp.exits := by
  have hsubmit (debug : HaxDebug) :
      ({ vp with debug } : HaxmVirtualProcessor D).submitDebug.2.exits = vp.exits := by
    rw [submitDebug_eq]
    exact (setDebug_frame { vp with debug }).2.2
  cases r with
  | enableSoftwareBreakpoints enable => exact hsubmit _
  | clearHardwareBreakpoints => exact hsubmit _
  | setHardwareBreakpoints breakpoints =>
    simp only [HaxmVirtualProcessor.request, HaxmVirtualProcessor.setHardwareBreakpoints]
    split_ifs
    · exact hsubmit _
    · exact hsubmit _

theorem perform_of_execution_none {o : BreakpointOp HaxmOp} (h : vp.execution o = none) :
    (vp.performDebug o).2.exits.tunnel = vp.exits.tunnel := by
  cases o with
  | request r => exact congrArg HaxmExits.tunnel (request_exits r)
  | host op =>
    cases op with
    | access a => rfl
    | run guest => cases h
    | step guest =>
      obtain ⟨-, -, hexits⟩ := setDebug_frame (vp.withSingleStep true)
      simp only [HaxmVirtualProcessor.execution, HaxmVirtualProcessor.opAnswer] at h
      simp only [HaxmVirtualProcessor.performDebug, HaxmVirtualProcessor.perform]
      cases hstart : (vp.withSingleStep true).setDebug with
      | mk ok vp₁ =>
        rw [hstart] at hexits
        cases ok with
        | false =>
          simp only [HaxmVirtualProcessor.stepImpl, hstart]
          exact congrArg HaxmExits.tunnel hexits
        | true => simp [hstart] at h

theorem perform_of_execution {o : BreakpointOp HaxmOp} (h : vp.execution o = some answer)
    (hdebug : answer.debugExit = some (dr6, rip)) :
    (vp.performDebug o).2.exits.tunnel.ShowsDebug dr6 rip := by
  cases o with
  | request r => cases h
  | host op =>
    cases op with
    | access a => cases h
    | run guest =>
      obtain rfl := Option.some.inj h
      exact runImpl_exit hdebug
    | step guest =>
      simp only [HaxmVirtualProcessor.execution, HaxmVirtualProcessor.opAnswer] at h
      cases hstart : (vp.withSingleStep true).setDebug with
      | mk ok vp₁ =>
        cases ok with
        | false => simp [hstart] at h
        | true =>
          simp only [hstart, Option.some.injEq] at h
          have hrun := runImpl_exit (h ▸ hdebug)
          change (vp.stepImpl guest).2.exits.tunnel.ShowsDebug dr6 rip
          rcases stepImpl_exits hstart with hsame | ⟨vp₂, hexits, hhandled⟩
          · rw [hsame]
            exact hrun
          · rw [hhandled]
            exact handleExecResult_exit (by rw [hexits]; exact hrun)

theorem perform_showsDebugExit (o : BreakpointOp HaxmOp) {last : Option HaxmRunAnswer}
    (h : ShowsDebugExit last vp) :
    ShowsDebugExit ((vp.execution o).or last) (vp.performDebug o).2 := by
  intro dr6 rip hlast
  cases hexecution : vp.execution o with
  | none =>
    rw [hexecution, Option.none_or] at hlast
    rw [perform_of_execution_none hexecution]
    exact h dr6 rip hlast
  | some answer =>
    rw [hexecution, Option.some_or, Option.bind_some] at hlast
    exact perform_of_execution hexecution hlast

/-- After every run the record of a debug exit has its fields. -/
theorem record_of_debugExit (vp : HaxmVirtualProcessor D) (ops : List (BreakpointOp HaxmOp))
    (left : SharedBytes) {d : DebugExit}
    (h : (lastExecution vp ops).bind HaxmRunAnswer.debugExit = some d) :
    let record := (runAll HaxmVirtualProcessor.performDebug vp ops).2.exits.tunnel.record left
    d = (record.word 8, record.word 0) := by
  obtain ⟨dr6, rip⟩ := d
  have hstart : ShowsDebugExit none vp := fun _ _ hnone => by cases hnone
  have hshows := runAll_last HaxmVirtualProcessor.execution perform_showsDebugExit hstart ops
  rw [Option.or_none] at hshows
  obtain ⟨dr7, hexit⟩ := hshows dr6 rip h
  simp only [HaxTunnel.record, hexit, Prod.mk.injEq]
  constructor
  · rw [SharedBytes.word_store_of_disjoint _ _ (by omega), SharedBytes.word_store]
  · rw [SharedBytes.word_store_of_disjoint _ _ (by omega),
      SharedBytes.word_store_of_disjoint _ _ (by omega), SharedBytes.word_store]

/-- The answer after a run is the one that is due. -/
def ReportsAfter (vp : HaxmVirtualProcessor D) (ops : List (BreakpointOp HaxmOp))
    (left : SharedBytes) (address : U64) : Prop :=
  let vp' := (runAll HaxmVirtualProcessor.performDebug vp ops).2
  ∃ result, vp'.getBreakpointAddress left (some address) = (result.1, some result.2) ∧
    Reports vp'.debug.dr result ((lastExecution vp ops).bind HaxmRunAnswer.debugExit)

def TellsAfter (vp : HaxmVirtualProcessor D) (ops : List (BreakpointOp HaxmOp))
    (left : SharedBytes) : Prop :=
  let record := (runAll HaxmVirtualProcessor.performDebug vp ops).2.exits.tunnel.record left
  Telling (record.word 8) (record.word 0) ((lastExecution vp ops).bind HaxmRunAnswer.debugExit)

theorem reportsAfter_iff (vp : HaxmVirtualProcessor D) (ops : List (BreakpointOp HaxmOp))
    (left : SharedBytes) (address : U64) :
    ReportsAfter vp ops left address ↔ TellsAfter vp ops left := by
  rw [TellsAfter, ← reports_breakpointAddress_iff _ _ _ address
    fun _ hd => record_of_debugExit vp ops left hd]
  constructor
  · rintro ⟨result, hresult, hreports⟩
    obtain ⟨hstatus, hvalue⟩ := Prod.mk.inj hresult
    have heq : result = _ := Prod.ext hstatus.symm (Option.some.inj hvalue).symm
    rwa [heq] at hreports
  · exact fun hreports => ⟨_, rfl, hreports⟩

end Haxm

section Backends

variable {D : Type}

/-- After every run of both processors, whatever the exits left in the record: the reported address
is the one that is due after the latest execution exactly when the debug fields are zero after an
exit of another kind, and not both zero after a debug exit. -/
theorem getBreakpointAddress_reports_iff (debugRegs : Kvm.KvmDebugregs)
    (kvmExits : Kvm.KvmExits D) (kernel : Kvm.KvmKernel) (kvmOps : List (BreakpointOp Kvm.KvmOp))
    (files : Haxm.HaxmRegisterFiles) (useEferMSR : Bool) (haxmExits : Haxm.HaxmExits D)
    (driver : Haxm.HaxmDriver) (haxmOps : List (BreakpointOp Haxm.HaxmOp)) (left : SharedBytes)
    (address : U64) :
    (Kvm.ReportsAfter (.create debugRegs kvmExits kernel) kvmOps left address ↔
        Kvm.TellsAfter (.create debugRegs kvmExits kernel) kvmOps left) ∧
      (Haxm.ReportsAfter (.create files useEferMSR haxmExits driver) haxmOps left address ↔
        Haxm.TellsAfter (.create files useEferMSR haxmExits driver) haxmOps left) :=
  ⟨Kvm.reportsAfter_iff _ kvmOps left address, Haxm.reportsAfter_iff _ haxmOps left address⟩

/-- A guest that writes a byte to a port. -/
def Kvm.portGuest : Kvm.KvmGuest := fun files =>
  ⟨true, files, ⟨.Io .output .byte 0x80 1, fun _ => 0⟩⟩

/-- A guest that reads a byte from a port. -/
def Haxm.portGuest : Haxm.HaxmGuest := fun files =>
  ⟨true, files, ⟨.Io .input false .byte 0x60 1, fun _ => 0⟩⟩

/-- After a port access the offset of its data, or its direction, size, port and count, are reported
as the address of a breakpoint. -/
theorem getBreakpointAddress_after_port :
    ¬ Kvm.ReportsAfter (.create default Kvm.idleExits Kvm.resetKernel) [.host (.run Kvm.portGuest)]
        (SharedBytes.store (fun _ => 0) 8 8 0x1000#64) 0 ∧
      ¬ Haxm.ReportsAfter (.create default true Haxm.idleExits Haxm.resetDriver)
        [.host (.run Haxm.portGuest)] (fun _ => 0) 0 := by
  constructor
  · rw [Kvm.reportsAfter_iff]
    intro htells
    have hpc : (Kvm.KvmRun.record ⟨.Io .output .byte 0x80 1, fun _ => 0⟩
      (SharedBytes.store (fun _ => 0) 8 8 0x1000#64)).word 8 = 0 := htells.2
    exact absurd hpc (by decide +kernel)
  · rw [Haxm.reportsAfter_iff]
    intro htells
    have hrip : (Haxm.HaxTunnel.record ⟨.Io .input false .byte 0x60 1, fun _ => 0⟩
      (fun _ => 0)).word 0 = 0 := htells.2
    exact absurd hrip (by decide +kernel)

end Backends

end Virt86
