import Virt86.CallbackCaches
import Virt86.InterruptedFlushes
import Virt86.KvmHostWrites

/-!
# Register writes from I/O and MMIO callbacks

The callbacks of an exit access the copies of the registers while it is handled. After `Run` all
that they wrote is seen by later reads and reaches the hypervisor. `Step` handles the exit a second
time and marks the copies out of date again, with the writes of the first time in them.
-/

namespace Virt86

namespace Kvm

open WriteBack

section Operations

variable {D : Type}

/-- `KVM_RUN` succeeds. -/
def Runs (guest : KvmGuest) : Prop := ∀ files, (guest files).ok = true

def KvmOp.view : KvmOp → HostOp HostAccess KvmGuest
  | .access a => .access a
  | .run guest => .run guest
  | .step guest => .step guest

/-- The accesses are plain, and `KVM_RUN` succeeds. -/
def KvmOp.Succeeds : KvmOp → Prop
  | .access a => PlainAccess a
  | .run guest | .step guest => Runs guest

/-- `HandleExecResult` as seen by the callbacks: reads find what `RefreshRegisters` makes of the
copies, and `UpdateRegisters` hands them over. -/
def callbackMachine (D : Type) : CallbackMachine (KvmVirtualProcessor D) KvmRegisterState HostAccess
    KvmGuest KvmOp KvmOpResult KvmFile.Data where
  registers vp := vp.registers
  accesses vp := vp.exits.handleExit.1
  during vp done := vp.registers.markDirty.accessAll done
  writes _ a := acceptedWrites a
  cache s := s.writeBack
  found s := s.refreshRegisters.2.cache.files.get
  handed s := s.updateRegisters.2.kernel.files.get
  engine := KvmVirtualProcessor.engine
  perform := KvmVirtualProcessor.perform
  view := KvmOp.view

/-! ## Accesses -/

section Accesses

variable {s : KvmRegisterState}

theorem access_spec (hanswers : s.kernel.answers = []) {a : HostAccess}
    (ha : PlainAccess a) : (s.access a).2.kernel = s.kernel ∧
      (s.access a).2.writeBack = s.writeBack.access (acceptedWrites a) := by
  have hrefreshes : refreshes a = true := by cases a <;> first | rfl | exact absurd ha id
  obtain ⟨c, haccess, hwriteBack⟩ := access_of_answers hanswers hrefreshes
  rw [haccess]
  refine ⟨rfl, ?_⟩
  rw [access_eq_foldl ha, writeBack_foldl, hwriteBack]
  rfl

theorem accessAll_kernel {accesses : List HostAccess} (hanswers : s.kernel.answers = [])
    (hplain : ∀ a ∈ accesses, PlainAccess a) : (s.accessAll accesses).kernel = s.kernel := by
  induction accesses generalizing s with
  | nil => rfl
  | cons a accesses ih =>
    rw [List.forall_mem_cons] at hplain
    have hkernel := (access_spec hanswers hplain.1).1
    have hrest := ih (s := (s.access a).2) (by rw [hkernel, hanswers]) hplain.2
    exact hrest.trans hkernel

end Accesses

/-! ## Operations -/

/-- All calls but `KVM_RUN` succeed from here on, and the callbacks access registers and `MXCSR`
only. -/
structure Good (vp : KvmVirtualProcessor D) : Prop where
  answers : vp.registers.kernel.answers = []
  handlers : vp.exits.io.Only PlainAccess

variable {vp : KvmVirtualProcessor D} {op : KvmOp}

theorem Good.during (h : Good vp) {done : List HostAccess}
    (hdone : done <+: vp.exits.handleExit.1) :
    (vp.registers.markDirty.accessAll done).kernel = vp.registers.kernel :=
  accessAll_kernel h.answers fun a ha => (handleExit_only h.handlers).1 a (hdone.subset ha)

theorem callbacks_lawful : (callbackMachine D).toCallbacks.Lawful KvmVirtualProcessor.engine Good
    (fun s => s.kernel.answers = []) Runs where
  prepare {vp} h := by
    obtain ⟨s, hupdate, hwriteBack, hanswers, -⟩ := updateRegisters_of_answers h.answers
    refine ⟨{ vp with registers := s }, ?_, ⟨hanswers, h.handlers⟩, ?_⟩
    · simp only [KvmVirtualProcessor.engine, hupdate]
    · exact congrArg WriteBack.changed hwriteBack
  enter {vp guest} h hguest := by
    refine ⟨(KvmVirtualProcessor.engine.enter guest vp).2, ?_, ⟨h.answers, h.handlers⟩, rfl⟩
    simp only [KvmVirtualProcessor.engine, hguest _]
  handle {vp} h := by
    have hkernel := h.during List.prefix_rfl
    refine ⟨⟨?_, ?_⟩, rfl⟩
    · exact (congrArg KvmKernel.answers hkernel).trans h.answers
    · exact (handleExit_only h.handlers).2 ▸ h.handlers
  during_nil _ := rfl
  during_append {vp done a} h hdone := by
    have hplain := (handleExit_only h.handlers).1 a (hdone.subset (by simp))
    have hkernel := h.during ((List.prefix_append done [a]).trans hdone)
    simp only [callbackMachine, KvmRegisterState.accessAll, List.foldl_append, List.foldl_cons,
      List.foldl_nil]
    exact (access_spec ((congrArg KvmKernel.answers hkernel).trans h.answers) hplain).2
  singleStep {vp} on h := by
    obtain ⟨debug, hdebug⟩ := setDebug_of_answers (vp.withSingleStep on) h.answers
    exact ⟨_, hdebug, ⟨h.answers, h.handlers⟩, rfl⟩
  finish {vp} h := by
    simp only [KvmVirtualProcessor.engine]
    split
    · exact ⟨⟨h.answers, h.handlers⟩, rfl⟩
    · exact ⟨h, rfl⟩
  ready h := h.answers
  ready_during h hdone := (congrArg KvmKernel.answers (h.during hdone)).trans h.answers
  found {s} hs := by
    obtain ⟨c, hrefresh, hwriteBack⟩ := refreshRegisters_of_answers hs
    simp only [callbackMachine, hrefresh]
    exact congrArg WriteBack.copy hwriteBack
  handed {s} hs := by
    obtain ⟨s', hupdate, hwriteBack, -⟩ := updateRegisters_of_answers hs
    simp only [callbackMachine, hupdate]
    exact congrArg WriteBack.backing hwriteBack

theorem callbackMachine_lawful : (callbackMachine D).Lawful Good (fun s => s.kernel.answers = [])
    Runs KvmOp.Succeeds where
  callbacks := callbacks_lawful
  access {vp op a} h hop hview := by
    cases op with
    | access b =>
      obtain rfl : b = a := HostOp.access.inj hview
      obtain ⟨hkernel, hwriteBack⟩ := access_spec h.answers hop
      exact ⟨⟨(congrArg KvmKernel.answers hkernel).trans h.answers, h.handlers⟩, hwriteBack⟩
    | run guest => cases hview
    | step guest => cases hview
  run {vp op guest} hop hview := by
    cases op with
    | access a => cases hview
    | run guest' =>
      obtain rfl : guest' = guest := HostOp.run.inj hview
      exact ⟨hop, congrArg Prod.snd (runImpl_eq vp guest')⟩
    | step guest' => cases hview
  step {vp op guest} hop hview := by
    cases op with
    | access a => cases hview
    | run guest' => cases hview
    | step guest' =>
      obtain rfl : guest' = guest := HostOp.step.inj hview
      exact ⟨hop, congrArg Prod.snd (stepImpl_eq vp guest')⟩

end Operations

/-- A guest that reads from a port. -/
def inputGuest : KvmGuest := fun files => ⟨true, files, ⟨.Io .input .byte 0x60 1, fun _ => 0⟩⟩

end Kvm

namespace Haxm

open WriteBack

/-- The writes of a bulk access to the copies: it ends at the first register that is not supported,
and `EFER` may go to its MSR instead. -/
def elementWrites (useEferMSR : Bool) : List (Reg × RegValue) → List (FileWrite HaxmFile.Data)
  | [] => []
  | (reg, value) :: rest =>
    if reg = .EFER ∧ useEferMSR then elementWrites useEferMSR rest
    else match registerFile reg with
      | some i => ⟨i, registerEdit i reg value⟩ :: elementWrites useEferMSR rest
      | none => []

def acceptedWrites (useEferMSR : Bool) : HostAccess → List (FileWrite HaxmFile.Data)
  | .regWrite reg value => elementWrites useEferMSR [(reg, value)]
  | .regWriteBulk regs => elementWrites useEferMSR regs
  | .setFPUControl value => [⟨.fpuRegs, HaxmRegisterState.storeFPUControl value⟩]
  | .setMXCSR value => [⟨.fpuRegs, fun f : FxLayout => { f with mxcsr := value }⟩]
  | .setMXCSRMask value => [⟨.fpuRegs, fun f : FxLayout => { f with mxcsr_mask := value }⟩]
  | _ => []

section Operations

variable {D : Type}

/-- The driver's `Run` succeeds. -/
def Runs (guest : HaxmGuest) : Prop := ∀ files, (guest files).ok = true

def HaxmOp.view : HaxmOp → HostOp HostAccess HaxmGuest
  | .access a => .access a
  | .run guest => .run guest
  | .step guest => .step guest

/-- The driver's `Run` succeeds. -/
def HaxmOp.Succeeds : HaxmOp → Prop
  | .access _ => True
  | .run guest | .step guest => Runs guest

/-- `HandleExecResult` as seen by the callbacks: reads find what `RefreshRegisters` makes of the
copies, and `UpdateRegisters` hands them over. -/
def callbackMachine (D : Type) : CallbackMachine (HaxmVirtualProcessor D) HaxmRegisterState
    HostAccess HaxmGuest HaxmOp HaxmOpResult HaxmFile.Data where
  registers vp := vp.registers
  accesses vp := vp.exits.handleExit.1
  during vp done := vp.registers.markDirty.accessAll done
  writes vp a := acceptedWrites vp.registers.useEferMSR a
  cache s := s.writeBack
  found s := s.refreshRegisters.2.cache.files.get
  handed s := s.updateRegisters.driver.files.get
  engine := HaxmVirtualProcessor.engine
  perform := HaxmVirtualProcessor.perform
  view := HaxmOp.view

/-! ## Accesses -/

section Accesses

variable {s s' : HaxmRegisterState}

/-- Registers after the given writes to the copies, with calls that succeeded. -/
structure Wrote (s s' : HaxmRegisterState) (ws : List (FileWrite HaxmFile.Data)) : Prop where
  answers : s'.driver.answers = []
  useEferMSR : s'.useEferMSR = s.useEferMSR
  writeBack : s'.writeBack = s.writeBack.applyWrites ws

theorem Wrote.nothing (hanswers : s.driver.answers = []) : Wrote s s [] := ⟨hanswers, rfl, rfl⟩

theorem Wrote.cons {w : FileWrite HaxmFile.Data} {ws : List (FileWrite HaxmFile.Data)}
    (h : Wrote { s with cache := s.cache.modify w.file w.edit } s' ws) : Wrote s s' (w :: ws) where
  answers := h.answers
  useEferMSR := h.useEferMSR
  writeBack := by
    rw [h.writeBack, writeBack_modify]
    rfl

/-- What `HaxmRegWrite` can do when its call succeeds. -/
theorem regWrite_cases (hanswers : s.driver.answers = []) (reg : Reg) (value : RegValue) :
    ((reg = .EFER ∧ s.useEferMSR = true) ∧
      s.regWrite reg value = (.OK, { s with driver := { s.driver with eferMSR := value.u64 } })) ∨
    (¬ (reg = .EFER ∧ s.useEferMSR = true) ∧ registerFile reg = none ∧
      s.regWrite reg value = (.Unsupported, s)) ∨
    ∃ i, ¬ (reg = .EFER ∧ s.useEferMSR = true) ∧ registerFile reg = some i ∧
      s.regWrite reg value =
        (.OK, { s with cache := s.cache.modify i (registerEdit i reg value) }) := by
  rw [HaxmRegisterState.regWrite]
  by_cases hefer : reg = .EFER ∧ s.useEferMSR = true
  · refine .inl ⟨hefer, ?_⟩
    simp only [if_pos hefer, HaxmDriver.answer, hanswers, if_true]
  · have hwrite := haxmRegWrite_of_file reg value
    simp only [if_neg hefer]
    cases hfile : registerFile reg with
    | none =>
      rw [hfile] at hwrite
      exact .inr (.inl ⟨hefer, rfl, by rw [hwrite s.cache]⟩)
    | some i =>
      rw [hfile] at hwrite
      exact .inr (.inr ⟨i, hefer, rfl, by rw [hwrite s.cache]⟩)

theorem regWriteLoop_wrote (regs : List (Reg × RegValue)) (hanswers : s.driver.answers = []) :
    Wrote s (s.regWriteLoop regs).2 (elementWrites s.useEferMSR regs) := by
  induction regs generalizing s with
  | nil => exact .nothing hanswers
  | cons entry rest ih =>
    obtain ⟨reg, value⟩ := entry
    rw [HaxmRegisterState.regWriteLoop, elementWrites]
    obtain ⟨hefer, hwrite⟩ | ⟨hefer, hfile, hwrite⟩ | ⟨i, hefer, hfile, hwrite⟩ :=
      regWrite_cases hanswers reg value
    · rw [hwrite, if_pos hefer]
      have hrest := ih (s := { s with driver := { s.driver with eferMSR := value.u64 } }) hanswers
      exact ⟨hrest.answers, hrest.useEferMSR, hrest.writeBack⟩
    · rw [hwrite, if_neg hefer, hfile]
      exact .nothing hanswers
    · rw [hwrite, if_neg hefer, hfile]
      exact .cons (ih hanswers)

theorem regRead_wrote (reg : Reg) (value : RegValue) (hanswers : s.driver.answers = []) :
    Wrote s (s.regRead reg value).2 [] := by
  rw [HaxmRegisterState.regRead]
  by_cases hefer : reg = .EFER ∧ s.useEferMSR = true
  · simp only [if_pos hefer, HaxmDriver.answer, hanswers]
    exact .nothing hanswers
  · simp only [if_neg hefer]
    exact .nothing hanswers

theorem regReadLoop_wrote (regs : List (Reg × RegValue)) (hanswers : s.driver.answers = []) :
    Wrote s (s.regReadLoop regs).2 [] := by
  induction regs generalizing s with
  | nil => exact .nothing hanswers
  | cons entry rest ih =>
    obtain ⟨reg, value⟩ := entry
    have hread := regRead_wrote reg value hanswers
    rw [HaxmRegisterState.regReadLoop]
    cases hresult : s.regRead reg value with
    | mk result s₁ =>
      rw [hresult] at hread
      obtain ⟨status, value'⟩ := result
      cases status with
      | OK =>
        have hrest := ih hread.answers
        exact ⟨hrest.answers, hrest.useEferMSR.trans hread.useEferMSR,
          hrest.writeBack.trans hread.writeBack⟩
      | _ => exact hread

theorem accessFresh_wrote (a : HostAccess) (hanswers : s.driver.answers = []) :
    Wrote s (s.accessFresh a).2 (acceptedWrites s.useEferMSR a) := by
  cases a with
  | regRead reg value => exact regRead_wrote reg value hanswers
  | regWrite reg value =>
    have hloop := regWriteLoop_wrote [(reg, value)] hanswers
    simp only [HaxmRegisterState.regWriteLoop] at hloop
    simp only [HaxmRegisterState.accessFresh, acceptedWrites]
    cases hwrite : s.regWrite reg value with
    | mk status s₁ =>
      rw [hwrite] at hloop
      cases status with
      | OK => exact hloop
      | _ => exact hloop
  | regReadBulk regs => exact regReadLoop_wrote regs hanswers
  | regWriteBulk regs => exact regWriteLoop_wrote regs hanswers
  | setFPUControl value => exact .cons (.nothing hanswers)
  | setMXCSR value => exact .cons (.nothing hanswers)
  | setMXCSRMask value => exact .cons (.nothing hanswers)
  | _ => exact .nothing hanswers

theorem access_spec (hanswers : s.driver.answers = []) (a : HostAccess) :
    (s.access a).2.driver.answers = [] ∧ (s.access a).2.useEferMSR = s.useEferMSR ∧
      (s.access a).2.writeBack = s.writeBack.access (acceptedWrites s.useEferMSR a) := by
  obtain ⟨c, hrefresh, hwriteBack⟩ := refreshRegisters_of_answers hanswers
  have hwrote := accessFresh_wrote (s := { s with cache := c }) a hanswers
  rw [HaxmRegisterState.access, hrefresh]
  refine ⟨hwrote.answers, hwrote.useEferMSR, ?_⟩
  rw [hwrote.writeBack, hwriteBack]
  rfl

theorem accessAll_spec (hanswers : s.driver.answers = []) (accesses : List HostAccess) :
    (s.accessAll accesses).driver.answers = [] ∧
      (s.accessAll accesses).useEferMSR = s.useEferMSR := by
  induction accesses generalizing s with
  | nil => exact ⟨hanswers, rfl⟩
  | cons a accesses ih =>
    obtain ⟨hanswers₁, hefer₁, -⟩ := access_spec hanswers a
    obtain ⟨hanswers₂, hefer₂⟩ := ih hanswers₁
    exact ⟨hanswers₂, hefer₂.trans hefer₁⟩

/-- An `EFER` that is accessed by its MSR is not in the copies: a write goes to the driver at once,
and a read asks the driver. -/
theorem efer_by_msr (hanswers : s.driver.answers = []) (hefer : s.useEferMSR = true)
    (value : RegValue) :
    (s.regWrite .EFER value).2.driver.eferMSR = value.u64 ∧
      (s.regRead .EFER value).1 = (.OK, value.setU64 s.driver.eferMSR) := by
  simp [HaxmRegisterState.regWrite, HaxmRegisterState.regRead, HaxmDriver.answer, hanswers, hefer]

end Accesses

/-! ## Operations -/

/-- All calls but `Run` succeed from here on. -/
def Good (vp : HaxmVirtualProcessor D) : Prop := vp.registers.driver.answers = []

theorem callbacks_lawful : (callbackMachine D).toCallbacks.Lawful HaxmVirtualProcessor.engine Good
    (fun s => s.driver.answers = []) Runs where
  prepare {vp} h := by
    obtain ⟨hwriteBack, hanswers, -⟩ := updateRegisters_of_answers h
    exact ⟨_, rfl, hanswers, congrArg WriteBack.changed hwriteBack⟩
  enter {vp guest} h hguest := by
    refine ⟨(HaxmVirtualProcessor.engine.enter guest vp).2, ?_, h, rfl⟩
    simp only [HaxmVirtualProcessor.engine, hguest _]
  handle {vp} h :=
    ⟨(accessAll_spec (s := vp.registers.markDirty) h vp.exits.handleExit.1).1, rfl⟩
  during_nil _ := rfl
  during_append {vp done a} h _ := by
    obtain ⟨hanswers, hefer⟩ := accessAll_spec (s := vp.registers.markDirty) h done
    have hwriteBack := (access_spec hanswers a).2.2
    rw [hefer] at hwriteBack
    simp only [callbackMachine, HaxmRegisterState.accessAll, List.foldl_append, List.foldl_cons,
      List.foldl_nil]
    exact hwriteBack
  singleStep {vp} on h := by
    obtain ⟨debug, hdebug⟩ := setDebug_of_answers (vp.withSingleStep on) h
    exact ⟨_, hdebug, h, rfl⟩
  finish {vp} h := by
    simp only [HaxmVirtualProcessor.engine]
    split
    · exact ⟨h, rfl⟩
    · exact ⟨h, rfl⟩
  ready h := h
  ready_during {vp done} h _ := (accessAll_spec (s := vp.registers.markDirty) h done).1
  found {s} hs := by
    obtain ⟨c, hrefresh, hwriteBack⟩ := refreshRegisters_of_answers hs
    simp only [callbackMachine, hrefresh]
    exact congrArg WriteBack.copy hwriteBack
  handed {s} hs := congrArg WriteBack.backing (updateRegisters_of_answers hs).1

theorem callbackMachine_lawful : (callbackMachine D).Lawful Good (fun s => s.driver.answers = [])
    Runs HaxmOp.Succeeds where
  callbacks := callbacks_lawful
  access {vp op a} h hop hview := by
    cases op with
    | access b =>
      obtain rfl : b = a := HostOp.access.inj hview
      obtain ⟨hanswers, -, hwriteBack⟩ := access_spec h b
      exact ⟨hanswers, hwriteBack⟩
    | run guest => cases hview
    | step guest => cases hview
  run {vp op guest} hop hview := by
    cases op with
    | access a => cases hview
    | run guest' =>
      obtain rfl : guest' = guest := HostOp.run.inj hview
      exact ⟨hop, congrArg Prod.snd (runImpl_eq vp guest')⟩
    | step guest' => cases hview
  step {vp op guest} hop hview := by
    cases op with
    | access a => cases hview
    | run guest' => cases hview
    | step guest' =>
      obtain rfl : guest' = guest := HostOp.step.inj hview
      exact ⟨hop, congrArg Prod.snd (stepImpl_eq vp guest')⟩

end Operations

/-- A guest that reads from a port. -/
def inputGuest : HaxmGuest := fun files =>
  ⟨true, files, ⟨.Io .input false .byte 0x60 1, fun _ => 0⟩⟩

end Haxm

/-! ## Both processors -/

/-- In the runs of a new processor whose calls all succeed, the copies are never out of date and
changed at once, and all register writes of the callbacks are seen by reads and by the next run,
exactly when no callback of a step writes a register the first time that the exit is handled. An
`EFER` that is accessed by its MSR is not in the copies at all. -/
theorem create_writesKept_iff {D : Type} :
    (∀ (debugRegs : Kvm.KvmDebugregs) (exits : Kvm.KvmExits D) (kernel : Kvm.KvmKernel),
      kernel.answers = [] → exits.io.Only Kvm.PlainAccess →
      ∀ ops : List Kvm.KvmOp, (∀ op ∈ ops, op.Succeeds) →
        let vp := Kvm.KvmVirtualProcessor.create debugRegs exits kernel
        ((Kvm.callbackMachine D).WritesKept vp ops ↔
          Along Kvm.KvmVirtualProcessor.perform (Kvm.callbackMachine D).NoEarlyWrites vp ops)) ∧
    (∀ (files : Haxm.HaxmRegisterFiles) (useEferMSR : Bool) (exits : Haxm.HaxmExits D)
      (driver : Haxm.HaxmDriver), driver.answers = [] →
      ∀ ops : List Haxm.HaxmOp, (∀ op ∈ ops, op.Succeeds) →
        let vp := Haxm.HaxmVirtualProcessor.create files useEferMSR exits driver
        ((Haxm.callbackMachine D).WritesKept vp ops ↔
          Along Haxm.HaxmVirtualProcessor.perform (Haxm.callbackMachine D).NoEarlyWrites vp ops)) ∧
    ∀ s : Haxm.HaxmRegisterState, s.driver.answers = [] → s.useEferMSR = true →
      ∀ value : RegValue, (s.regWrite .EFER value).2.driver.eferMSR = value.u64 ∧
        (s.regRead .EFER value).1 = (.OK, value.setU64 s.driver.eferMSR) := by
  refine ⟨?_, ?_, fun _ => Haxm.efer_by_msr⟩
  · intro debugRegs exits kernel hanswers hio ops hops
    apply Kvm.callbackMachine_lawful.writesKept_iff
    · exact ⟨hanswers, hio⟩
    · exact hops
  · intro files useEferMSR exits driver hanswers ops hops
    apply Haxm.callbackMachine_lawful.writesKept_iff
    · exact hanswers
    · exact hops

/-- A device whose first port access writes `RBX`. -/
def writingHandlers : IOHandlers ℕ where
  ioRead _ _ n := (0, if n = 0 then [.regWrite .RBX 5] else [], n + 1)
  ioWrite _ _ _ n := ([], n)
  mmioRead _ _ n := (0, [], n)
  mmioWrite _ _ _ n := ([], n)

def writingKvm : Kvm.KvmVirtualProcessor ℕ :=
  .create default ⟨⟨.HLT, fun _ => 0⟩, ⟨.Normal, 0⟩, writingHandlers, 0⟩ Kvm.resetKernel

def writingHaxm : Haxm.HaxmVirtualProcessor ℕ :=
  .create default true ⟨⟨.HLT, fun _ => 0⟩, ⟨.Normal, 0⟩, writingHandlers, 0⟩ Haxm.resetDriver

theorem writingHandlers_only : writingHandlers.Only Kvm.PlainAccess where
  ioRead port size n a ha := by
    simp only [writingHandlers] at ha
    split at ha
    · rw [List.mem_singleton.mp ha]
      trivial
    · exact absurd ha List.not_mem_nil
  ioWrite _ _ _ _ _ ha := absurd ha List.not_mem_nil
  mmioRead _ _ _ _ ha := absurd ha List.not_mem_nil
  mmioWrite _ _ _ _ _ ha := absurd ha List.not_mem_nil

/-- After a run, what the callback wrote is kept. -/
theorem create_writesKept_run :
    (Kvm.callbackMachine ℕ).WritesKept writingKvm
        [.run Kvm.inputGuest, .access (.regRead .RBX 0), .run Kvm.idleGuest] ∧
      (Haxm.callbackMachine ℕ).WritesKept writingHaxm
        [.run Haxm.inputGuest, .access (.regRead .RBX 0), .run Haxm.idleGuest] ∧
      (writingHaxm.registers.regWrite .EFER 1).2.driver.eferMSR = RegValue.u64 1 := by
  refine ⟨(create_writesKept_iff.1 _ _ _ rfl writingHandlers_only _ ?_).mpr ?_,
    (create_writesKept_iff.2.1 _ _ _ _ rfl _ ?_).mpr ?_, ?_⟩
  · simp [Kvm.KvmOp.Succeeds, Kvm.PlainAccess, Kvm.Runs, Kvm.inputGuest, Kvm.idleGuest]
  · exact ⟨trivial, trivial, trivial, trivial⟩
  · simp [Haxm.HaxmOp.Succeeds, Haxm.Runs, Haxm.inputGuest, Haxm.idleGuest]
  · exact ⟨trivial, trivial, trivial, trivial⟩
  · exact ((create_writesKept_iff (D := ℕ)).2.2 writingHaxm.registers rfl rfl 1).1

/-- After a step the copies are out of date and changed, the next read does not find what the
callback wrote, and then the next run does not hand it over. -/
theorem create_writesKept_lost :
    let kvm := (writingKvm.perform (.step Kvm.inputGuest)).2
    let haxm := (writingHaxm.perform (.step Haxm.inputGuest)).2
    (kvm.registers.cache.regsDirty = true ∧ kvm.registers.cache.changed .regs = true ∧
      (kvm.perform (.access (.regRead .RBX 0))).1 = .inl (.OK, .values [RegValue.setU64 0 0]) ∧
      (runAll Kvm.KvmVirtualProcessor.perform kvm
        [.access (.regRead .RBX 0), .run Kvm.idleGuest]).2.registers.kernel.entered.map
          (·.regs.rbx) = [0, 0] ∧
      ¬ (Kvm.callbackMachine ℕ).WritesKept writingKvm [.step Kvm.inputGuest]) ∧
    (haxm.registers.cache.regsDirty = true ∧ haxm.registers.cache.changed .regs = true ∧
      (haxm.perform (.access (.regRead .RBX 0))).1 = .inl (.OK, .values [RegValue.setU64 0 0]) ∧
      (runAll Haxm.HaxmVirtualProcessor.perform haxm
        [.access (.regRead .RBX 0), .run Haxm.idleGuest]).2.registers.driver.entered.map
          (·.regs.rbx) = [0, 0] ∧
      ¬ (Haxm.callbackMachine ℕ).WritesKept writingHaxm [.step Haxm.inputGuest]) := by
  refine ⟨⟨rfl, rfl, rfl, rfl, fun hkept => ?_⟩, rfl, rfl, rfl, rfl, fun hkept => ?_⟩
  · exact Bool.noConfusion (hkept.1.1.2 rfl .regs)
  · exact Bool.noConfusion (hkept.1.1.2 rfl .regs)

end Virt86
