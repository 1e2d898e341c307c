import Virt86.DebugOperations
import Virt86.HaxmCacheRefinement
import Virt86.KvmCacheRefinement

/-!
# Programming hardware breakpoints

The loop of `SetHardwareBreakpoints` only adds bits to DR7, and only `ClearHardwareBreakpoints`
takes bits away. DR7 thus holds the bits of all breakpoints that were set since they were last
cleared.
-/

namespace Virt86

open HardwareBreakpoints

/-- The breakpoints that were set since they were last cleared, the latest first. -/
def BreakpointOp.note {O : Type} (set : List HardwareBreakpoints) :
    BreakpointOp O → List HardwareBreakpoints
  | .request (.setHardwareBreakpoints breakpoints) =>
    if breakpoints.anyEnabled then breakpoints :: set else []
  | .request .clearHardwareBreakpoints => []
  | _ => set

def standing {O : Type} (ops : List (BreakpointOp O)) : List HardwareBreakpoints :=
  ops.foldl BreakpointOp.note []

/-- All of DR7 that the breakpoints ask for. -/
def joinDR7 (set : List HardwareBreakpoints) : U64 := set.foldr (fun b x => b.dr7 ||| x) 0

theorem joinDR7_and_eq_zero_iff (set : List HardwareBreakpoints) (mask : U64) :
    joinDR7 set &&& mask = 0 ↔ ∀ b ∈ set, b.dr7 &&& mask = 0 := by
  induction set with
  | nil => simp [joinDR7]
  | cons b set ih =>
    rw [List.forall_mem_cons, ← ih, joinDR7, List.foldr_cons, BitVec.and_or_distrib_right]
    exact BitVec.or_eq_zero_iff

/-- DR7 of the configuration holds what was asked for and the registers before it nothing. -/
structure Accumulates (dr : DebugRegisters) (set : List HardwareBreakpoints) : Prop where
  middle : dr.MiddleClear
  dr7 : dr.dr7 = joinDR7 set

theorem Accumulates.zero : Accumulates (Vector.replicate 8 0) [] :=
  ⟨DebugRegisters.middleClear_zero, DebugRegisters.dr7_zero⟩

theorem Accumulates.store {dr : DebugRegisters} {set : List HardwareBreakpoints}
    (h : Accumulates dr set) (b : HardwareBreakpoints) : Accumulates (b.store dr) (b :: set) where
  middle := b.store_middleClear h.middle
  dr7 := by rw [b.store_dr7, h.dr7, joinDR7, joinDR7, List.foldr_cons, BitVec.or_comm]

/-- What the set breakpoints are handed over as. -/
theorem Accumulates.programmed_iff {dr : DebugRegisters} {set : List HardwareBreakpoints}
    (h : Accumulates dr set) (b : HardwareBreakpoints) :
    b.Programmed (if b.anyEnabled then b.store dr else Vector.replicate 8 0) ↔
      b.anyEnabled = false ∨ ∀ b' ∈ set, b'.dr7 &&& ~~~b.dr7 = 0 := by
  cases henabled : b.anyEnabled with
  | false => simp [Programmed, henabled]
  | true =>
    simp only [Programmed, henabled, if_true, b.encodes_store_iff h.middle, h.dr7,
      joinDR7_and_eq_zero_iff]
    simp

namespace DebugMachine

variable {S O R : Type} (M : DebugMachine S O R) {s : S}

theorem dr_edit_set (f : DebugFlags) (b : HardwareBreakpoints) (m : DebugConfiguration) :
    (f.edit (.setHardwareBreakpoints b) m).dr =
      if b.anyEnabled then b.store m.dr else Vector.replicate 8 0 := by
  rw [DebugFlags.edit]
  split_ifs <;> rfl

theorem dr_perform_host (op : O) :
    (M.view (M.perform s (.host op)).2).config.dr = (M.view s).config.dr := by
  refine (M.does s (.host op)).dr_eq fun r => ?_
  simp only [BreakpointOp.action]
  cases M.isStep op with
  | false => exact DebugAction.noConfusion
  | true => exact DebugAction.noConfusion

theorem view_perform_request (r : DebugRequest) : M.view (M.perform s (.request r)).2 =
    (M.view s).submit (M.flags.flush (M.flags.edit r (M.view s).config)) :=
  (M.does s (.request r)).eq_submit

/-- An operation sets, clears or keeps. -/
theorem perform_accumulates {set : List HardwareBreakpoints} (o : BreakpointOp O)
    (h : Accumulates (M.view s).config.dr set) :
    Accumulates (M.view (M.perform s o).2).config.dr (o.note set) := by
  cases o with
  | host op =>
    rw [M.dr_perform_host op]
    exact h
  | request r =>
    rw [M.view_perform_request r]
    cases r with
    | enableSoftwareBreakpoints enable => exact h
    | clearHardwareBreakpoints => exact .zero
    | setHardwareBreakpoints b =>
      simp only [DebugView.submit, DebugFlags.dr_flush, dr_edit_set, BreakpointOp.note]
      split_ifs
      · exact h.store b
      · exact .zero

theorem runAll_accumulates {set : List HardwareBreakpoints} (ops : List (BreakpointOp O))
    (h : Accumulates (M.view s).config.dr set) :
    Accumulates (M.view (runAll M.perform s ops).2).config.dr
      (ops.foldl BreakpointOp.note set) := by
  induction ops generalizing s set with
  | nil => exact h
  | cons o ops ih => exact ih (M.perform_accumulates o h)

theorem runAll_answers (ops : List (BreakpointOp O)) (h : (M.view s).answers = []) :
    (M.view (runAll M.perform s ops).2).answers = [] := by
  induction ops generalizing s with
  | nil => exact h
  | cons o ops ih => exact ih ((M.does s o).answers_nil h)

/-- What the hypervisor is handed for breakpoints that are set after a run. -/
theorem programmed_iff_standing (ops : List (BreakpointOp O)) (b : HardwareBreakpoints)
    (hanswers : (M.view s).answers = []) (hzero : (M.view s).config.dr = Vector.replicate 8 0) :
    b.Programmed (M.view (M.perform (runAll M.perform s ops).2
        (.request (.setHardwareBreakpoints b))).2).accepted.dr ↔
      b.anyEnabled = false ∨ ∀ b' ∈ standing ops, b'.dr7 &&& ~~~b.dr7 = 0 := by
  have hstart : Accumulates (M.view s).config.dr [] := hzero ▸ .zero
  have haccepts : (M.view (runAll M.perform s ops).2).accepts = true := by
    rw [DebugView.accepts, M.runAll_answers ops hanswers]
    rfl
  rw [M.view_perform_request, DebugView.submit, if_pos haccepts, DebugFlags.dr_flush, dr_edit_set]
  exact (M.runAll_accumulates ops hstart).programmed_iff b

end DebugMachine

/-- The debug registers that the kernel is handed for breakpoints set after a run. -/
def Kvm.handedOver {D : Type} (vp : Kvm.KvmVirtualProcessor D)
    (ops : List (BreakpointOp Kvm.KvmOp)) (b : HardwareBreakpoints) : DebugRegisters :=
  let vp := (runAll Kvm.KvmVirtualProcessor.performDebug vp ops).2
  (vp.setHardwareBreakpoints b).2.registers.kernel.guestDebug.debugreg

/-- The debug registers that the driver is handed for breakpoints set after a run. -/
def Haxm.handedOver {D : Type} (vp : Haxm.HaxmVirtualProcessor D)
    (ops : List (BreakpointOp Haxm.HaxmOp)) (b : HardwareBreakpoints) : DebugRegisters :=
  let vp := (runAll Haxm.HaxmVirtualProcessor.performDebug vp ops).2
  (vp.setHardwareBreakpoints b).2.registers.driver.debug.dr

section Backends

open Kvm.KvmVirtualProcessor Haxm.HaxmVirtualProcessor

variable {D : Type}

/-- For every run of both processors and hypervisors that accept all calls: the debug registers
handed over for breakpoints encode just them exactly when none of them is enabled, or DR7 for them
has all bits of the breakpoints that were set since the last clearing. -/
theorem setHardwareBreakpoints_programmed_iff (debugRegs : Kvm.KvmDebugregs)
    (kvmExits : Kvm.KvmExits D) (kernel : Kvm.KvmKernel) (kvmOps : List (BreakpointOp Kvm.KvmOp))
    (files : Haxm.HaxmRegisterFiles) (useEferMSR : Bool) (haxmExits : Haxm.HaxmExits D)
    (driver : Haxm.HaxmDriver) (haxmOps : List (BreakpointOp Haxm.HaxmOp))
    (b : HardwareBreakpoints) (hkernel : kernel.answers = []) (hdriver : driver.answers = []) :
    (b.Programmed (Kvm.handedOver (create debugRegs kvmExits kernel) kvmOps b) ↔
        b.anyEnabled = false ∨ ∀ b' ∈ standing kvmOps, b'.dr7 &&& ~~~b.dr7 = 0) ∧
      (b.Programmed (Haxm.handedOver (create files useEferMSR haxmExits driver) haxmOps b) ↔
        b.anyEnabled = false ∨ ∀ b' ∈ standing haxmOps, b'.dr7 &&& ~~~b.dr7 = 0) :=
  ⟨(Kvm.debugMachine D).programmed_iff_standing kvmOps b hkernel rfl,
    (Haxm.debugMachine D).programmed_iff_standing haxmOps b hdriver rfl⟩

/-- One breakpoint on execution, as number `i`. -/
def executionBreakpoint (i : Fin 4) (address : U64) : HardwareBreakpoints :=
  Vector.ofFn fun j =>
    if j = i then ⟨address, true, false, .Execution, .Byte⟩
    else ⟨0, false, false, .Execution, .Byte⟩

/-- Setting the same breakpoint again is one of the good cases. -/
theorem setHardwareBreakpoints_programmed_again :
    (executionBreakpoint 0 0x1000).Programmed
      (Kvm.handedOver (create default Kvm.idleExits Kvm.resetKernel)
        [.request (.setHardwareBreakpoints (executionBreakpoint 0 0x1000))]
        (executionBreakpoint 0 0x1000)) :=
  (setHardwareBreakpoints_programmed_iff default Kvm.idleExits Kvm.resetKernel _ default true
    Haxm.idleExits Haxm.resetDriver [] _ rfl rfl).1.mpr (by decide +kernel)

/-- A breakpoint that is moved from number 0 to number 1 stays enabled as number 0. -/
theorem setHardwareBreakpoints_moved_not_programmed :
    (¬ (executionBreakpoint 1 0x1000).Programmed
        (Kvm.handedOver (create default Kvm.idleExits Kvm.resetKernel)
          [.request (.setHardwareBreakpoints (executionBreakpoint 0 0x1000))]
          (executionBreakpoint 1 0x1000))) ∧
      ¬ (executionBreakpoint 1 0x1000).Programmed
        (Haxm.handedOver (create default true Haxm.idleExits Haxm.resetDriver)
          [.request (.setHardwareBreakpoints (executionBreakpoint 0 0x1000))]
          (executionBreakpoint 1 0x1000)) := by
  constructor
  · intro h
    exact absurd (((Kvm.debugMachine Unit).programmed_iff_standing _ _ rfl rfl).mp h)
      (by decide +kernel)
  · intro h
    exact absurd (((Haxm.debugMachine Unit).programmed_iff_standing _ _ rfl rfl).mp h)
      (by decide +kernel)

end Backends

end Virt86
