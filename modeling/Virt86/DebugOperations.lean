import Virt86.DebugConfigurations
import Virt86.HaxmProcessor
import Virt86.KvmProcessor

/-!
# Breakpoints and single steps of the backends

The requests of both backends, with their flags, as operations on their processors. To the debug
configuration, an operation is a request, a step or nothing.
-/

namespace Virt86

/-! ## KVM -/

namespace Kvm

variable {D : Type}

def KVM_GUESTDBG_USE_SW_BP : U32 := 0x00010000
def KVM_GUESTDBG_USE_HW_BP : U32 := 0x00020000

def guestDebugFlags : DebugFlags where
  enable := KVM_GUESTDBG_ENABLE
  step := KVM_GUESTDBG_SINGLESTEP
  useSW := KVM_GUESTDBG_USE_SW_BP
  useHW := KVM_GUESTDBG_USE_HW_BP
  step_ne := by decide
  step_enable := by decide
  useSW_enable := by decide
  useHW_enable := by decide
  useSW_step := by decide
  useHW_step := by decide

namespace KvmVirtualProcessor

/-- The end of each request. -/
def submitDebug (vp : KvmVirtualProcessor D) : VPOperationStatus × KvmVirtualProcessor D :=
  match vp.setDebug with
  | (true, vp) => (.OK, vp)
  | (false, vp) => (.Failed, vp)

def enableSoftwareBreakpoints (vp : KvmVirtualProcessor D) (enable : Bool) :
    VPOperationStatus × KvmVirtualProcessor D :=
  let control := if enable then vp.debug.control ||| KVM_GUESTDBG_USE_SW_BP
    else vp.debug.control &&& ~~~KVM_GUESTDBG_USE_SW_BP
  { vp with debug := { vp.debug with control } }.submitDebug

def clearHardwareBreakpoints (vp : KvmVirtualProcessor D) :
    VPOperationStatus × KvmVirtualProcessor D :=
  let control := vp.debug.control &&& ~~~KVM_GUESTDBG_USE_HW_BP
  { vp with debug := { control, debugreg := Vector.replicate 8 0 } }.submitDebug

def setHardwareBreakpoints (vp : KvmVirtualProcessor D) (breakpoints : HardwareBreakpoints) :
    VPOperationStatus × KvmVirtualProcessor D :=
  if breakpoints.anyEnabled then
    let control := vp.debug.control ||| KVM_GUESTDBG_USE_HW_BP
    let debugreg := breakpoints.store vp.debug.debugreg
    { vp with debug := { control, debugreg } }.submitDebug
  else vp.clearHardwareBreakpoints

def request (vp : KvmVirtualProcessor D) :
    DebugRequest → VPOperationStatus × KvmVirtualProcessor D
  | .enableSoftwareBreakpoints enable => vp.enableSoftwareBreakpoints enable
  | .setHardwareBreakpoints breakpoints => vp.setHardwareBreakpoints breakpoints
  | .clearHardwareBreakpoints => vp.clearHardwareBreakpoints

def performDebug (vp : KvmVirtualProcessor D) :
    BreakpointOp KvmOp → (KvmOpResult ⊕ VPOperationStatus) × KvmVirtualProcessor D
  | .host op => (.inl (vp.perform op).1, (vp.perform op).2)
  | .request r => (.inr (vp.request r).1, (vp.request r).2)

end KvmVirtualProcessor

def KvmGuestDebug.configuration (d : KvmGuestDebug) : DebugConfiguration where
  control := d.control
  dr := d.debugreg

def KvmVirtualProcessor.debugView (vp : KvmVirtualProcessor D) : DebugView where
  config := vp.debug.configuration
  accepted := vp.registers.kernel.guestDebug.configuration
  answers := vp.registers.kernel.answers

/-! ### Calls that are not about debugging -/

/-- The kernel's configuration stays, and a kernel that accepts all calls keeps doing so. -/
structure KvmKernel.DebugIdle (k k' : KvmKernel) : Prop where
  guestDebug : k'.guestDebug = k.guestDebug
  answers : k.answers = [] → k'.answers = []

namespace KvmKernel.DebugIdle

theorem refl (k : KvmKernel) : k.DebugIdle k := ⟨rfl, id⟩

theorem trans {k₁ k₂ k₃ : KvmKernel} (h : k₁.DebugIdle k₂) (h' : k₂.DebugIdle k₃) :
    k₁.DebugIdle k₃ :=
  ⟨h'.guestDebug.trans h.guestDebug, fun hnil => h'.answers (h.answers hnil)⟩

end KvmKernel.DebugIdle

theorem answer_debugIdle (k : KvmKernel) : k.DebugIdle k.answer.2 := by
  rw [KvmKernel.answer]
  split
  · exact .refl k
  · rename_i hanswers
    exact ⟨rfl, fun hnil => absurd (hanswers.symm.trans hnil) (List.cons_ne_nil _ _)⟩

theorem storeFile_debugIdle (i : KvmFile) (s : KvmRegisterState) :
    s.kernel.DebugIdle (s.storeFile i).2.kernel := by
  have hidle := answer_debugIdle s.kernel
  rw [KvmRegisterState.storeFile]
  cases s.cache.changed i with
  | false => exact .refl _
  | true =>
    cases hanswer : s.kernel.answer with
    | mk ok kernel =>
      rw [hanswer] at hidle
      cases ok with
      | true => exact ⟨hidle.guestDebug, hidle.answers⟩
      | false => exact hidle

theorem fetchFile_debugIdle (i : KvmFile) (s : KvmRegisterState) :
    s.kernel.DebugIdle (s.fetchFile i).2.kernel := by
  have hidle := answer_debugIdle s.kernel
  rw [KvmRegisterState.fetchFile]
  cases hanswer : s.kernel.answer with
  | mk ok kernel =>
    rw [hanswer] at hidle
    cases ok with
    | true => exact hidle
    | false => exact hidle

theorem forFiles_debugIdle {step : KvmFile → KvmRegisterState → Bool × KvmRegisterState}
    (hstep : ∀ i (s : KvmRegisterState), s.kernel.DebugIdle (step i s).2.kernel) (is : List KvmFile)
    (s : KvmRegisterState) : s.kernel.DebugIdle (KvmRegisterState.forFiles step is s).2.kernel := by
  induction is generalizing s with
  | nil => exact .refl _
  | cons i is ih =>
    have hfirst := hstep i s
    rw [KvmRegisterState.forFiles]
    cases hdone : step i s with
    | mk ok s₁ =>
      rw [hdone] at hfirst
      cases ok with
      | true => exact hfirst.trans (ih s₁)
      | false => exact hfirst

theorem refreshRegisters_debugIdle (s : KvmRegisterState) :
    s.kernel.DebugIdle s.refreshRegisters.2.kernel := by
  have hidle := forFiles_debugIdle fetchFile_debugIdle allFiles s
  rw [KvmRegisterState.refreshRegisters]
  cases s.cache.regsDirty with
  | false => exact .refl _
  | true =>
    cases hfetch : KvmRegisterState.forFiles KvmRegisterState.fetchFile allFiles s with
    | mk ok s₁ =>
      rw [hfetch] at hidle
      cases ok with
      | true => exact hidle
      | false => exact hidle

theorem access_debugIdle (s : KvmRegisterState) (a : HostAccess) :
    s.kernel.DebugIdle (s.access a).2.kernel := by
  have hidle := refreshRegisters_debugIdle s
  cases hrefresh : s.refreshRegisters with
  | mk ok s₁ =>
    rw [hrefresh] at hidle
    cases a with
    | getMXCSRMask value => exact .refl _
    | setMXCSRMask value => exact .refl _
    | _ =>
      simp only [KvmRegisterState.access, hrefresh]
      cases ok with
      | true => exact hidle
      | false => exact hidle

theorem accessAll_debugIdle (s : KvmRegisterState) (accesses : List HostAccess) :
    s.kernel.DebugIdle (s.accessAll accesses).kernel := by
  induction accesses generalizing s with
  | nil => exact .refl _
  | cons a accesses ih => exact (access_debugIdle s a).trans (ih _)

section Processor

variable (vp : KvmVirtualProcessor D)

theorem debugView_idle {vp vp' : KvmVirtualProcessor D} (hdebug : vp'.debug = vp.debug)
    (h : vp.registers.kernel.DebugIdle vp'.registers.kernel) : vp.debugView.Idle vp'.debugView where
  config := by simp only [KvmVirtualProcessor.debugView, hdebug]
  accepted := by simp only [KvmVirtualProcessor.debugView, h.guestDebug]
  answers := h.answers

theorem handleExecResult_idle : vp.debugView.Idle vp.handleExecResult.2.debugView :=
  debugView_idle rfl (accessAll_debugIdle vp.registers.markDirty _)

theorem runImpl_idle (guest : KvmGuest) : vp.debugView.Idle (vp.runImpl guest).2.debugView := by
  have hupdate := forFiles_debugIdle storeFile_debugIdle allFiles vp.registers
  have henter (s : KvmRegisterState) : s.kernel.DebugIdle (s.enterGuest guest).kernel := ⟨rfl, id⟩
  rw [KvmVirtualProcessor.runImpl]
  rw [← KvmRegisterState.updateRegisters] at hupdate
  cases hregisters : vp.registers.updateRegisters with
  | mk ok s =>
    rw [hregisters] at hupdate
    cases ok with
    | false => exact debugView_idle rfl hupdate
    | true =>
      have hentered : vp.debugView.Idle (KvmVirtualProcessor.debugView { vp with
          registers := s.enterGuest guest
          exits := { vp.exits with kvmRun := (guest s.kernel.files).kvmRun } }) :=
        debugView_idle rfl (hupdate.trans (henter s))
      simp only
      split_ifs
      · exact hentered.trans (handleExecResult_idle _)
      · exact hentered

/-- `SetDebug` submits the configuration with its enable bit brought up to date. -/
theorem setDebug_submit : vp.setDebug.1 = vp.debugView.accepts ∧ vp.setDebug.2.debugView =
    vp.debugView.submit (guestDebugFlags.flush vp.debug.configuration) := by
  obtain ⟨⟨cache, ⟨files, guestDebug, answers, entered⟩⟩, exits, debug⟩ := vp
  cases answers with
  | nil => exact ⟨rfl, rfl⟩
  | cons ok answers =>
    cases ok with
    | true => exact ⟨rfl, rfl⟩
    | false => exact ⟨rfl, rfl⟩

theorem submitDebug_eq : vp.submitDebug = (requestStatus vp.setDebug.1, vp.setDebug.2) := by
  rw [KvmVirtualProcessor.submitDebug]
  cases vp.setDebug with
  | mk ok vp' =>
    cases ok with
    | true => rfl
    | false => rfl

theorem request_eq (r : DebugRequest) : (vp.request r).1 = requestStatus vp.debugView.accepts ∧
    (vp.request r).2.debugView = vp.debugView.submit
      (guestDebugFlags.flush (guestDebugFlags.edit r vp.debug.configuration)) := by
  have hsubmit (debug : KvmGuestDebug) :
      ({ vp with debug } : KvmVirtualProcessor D).submitDebug.1 =
          requestStatus vp.debugView.accepts ∧
        ({ vp with debug } : KvmVirtualProcessor D).submitDebug.2.debugView =
          vp.debugView.submit (guestDebugFlags.flush debug.configuration) := by
    obtain ⟨haccepts, hview⟩ := setDebug_submit { vp with debug }
    rw [submitDebug_eq, haccepts, hview]
    exact ⟨rfl, rfl⟩
  have hclear := hsubmit
    { control := vp.debug.control &&& ~~~KVM_GUESTDBG_USE_HW_BP, debugreg := Vector.replicate 8 0 }
  cases r with
  | enableSoftwareBreakpoints enable => exact hsubmit _
  | clearHardwareBreakpoints => exact hclear
  | setHardwareBreakpoints breakpoints =>
    simp only [KvmVirtualProcessor.request, KvmVirtualProcessor.setHardwareBreakpoints,
      DebugFlags.edit]
    split_ifs
    · exact hsubmit _
    · exact hclear

/-- A step is refused, or its two submissions have a run between them. -/
theorem stepImpl_does (guest : KvmGuest) :
    DebugAction.step.Does guestDebugFlags vp.debugView (vp.stepImpl guest).2.debugView := by
  obtain ⟨haccepts, hview⟩ := setDebug_submit (vp.withSingleStep true)
  rw [KvmVirtualProcessor.stepImpl]
  cases hstart : (vp.withSingleStep true).setDebug with
  | mk ok vp₁ =>
    rw [hstart] at haccepts hview
    cases ok with
    | false =>
      simp only [hview]
      exact .refused haccepts.symm
    | true =>
      have hrun := runImpl_idle vp₁ guest
      rw [hview] at hrun
      obtain ⟨-, hstop⟩ := setDebug_submit ((vp₁.runImpl guest).2.withSingleStep false)
      refine .stepped haccepts.symm hrun ?_
      simp only
      cases hend : ((vp₁.runImpl guest).2.withSingleStep false).setDebug with
      | mk ok vp₂ =>
        rw [hend] at hstop
        cases ok with
        | false =>
          simp only [hstop]
          exact .refl _
        | true =>
          have hhandled := handleExecResult_idle vp₂
          rw [hstop] at hhandled
          simp only
          split_ifs
          · exact hhandled
          · exact hhandled
          · simp only [hstop]
            exact .refl _

end Processor

def KvmOp.isStep : KvmOp → Bool
  | .step _ => true
  | _ => false

/-- The KVM processor as a processor with a debug configuration. -/
def debugMachine (D : Type) : DebugMachine (KvmVirtualProcessor D) KvmOp KvmOpResult where
  flags := guestDebugFlags
  perform := KvmVirtualProcessor.performDebug
  isStep := KvmOp.isStep
  view := KvmVirtualProcessor.debugView
  does vp o := by
    cases o with
    | host op =>
      cases op with
      | access a => exact .other (debugView_idle rfl (access_debugIdle vp.registers a))
      | run guest => exact .other (runImpl_idle vp guest)
      | step guest => exact stepImpl_does vp guest
    | request r =>
      simp only [KvmVirtualProcessor.performDebug, (request_eq vp r).2]
      exact .request r vp.debugView
  status vp r := by
    simp only [KvmVirtualProcessor.performDebug, (request_eq vp r).1]

end Kvm

/-! ## HAXM -/

namespace Haxm

variable {D : Type}

def HAX_DEBUG_USE_SW_BP : U32 := 1#32 <<< 2
def HAX_DEBUG_USE_HW_BP : U32 := 1#32 <<< 3

def haxDebugFlags : DebugFlags where
  enable := HAX_DEBUG_ENABLE
  step := HAX_DEBUG_STEP
  useSW := HAX_DEBUG_USE_SW_BP
  useHW := HAX_DEBUG_USE_HW_BP
  step_ne := by decide
  step_enable := by decide
  useSW_enable := by decide
  useHW_enable := by decide
  useSW_step := by decide
  useHW_step := by decide

namespace HaxmVirtualProcessor

/-- The end of each request. -/
def submitDebug (vp : HaxmVirtualProcessor D) : VPOperationStatus × HaxmVirtualProcessor D :=
  match vp.setDebug with
  | (true, vp) => (.OK, vp)
  | (false, vp) => (.Failed, vp)

def enableSoftwareBreakpoints (vp : HaxmVirtualProcessor D) (enable : Bool) :
    VPOperationStatus × HaxmVirtualProcessor D :=
  let control := if enable then vp.debug.control ||| HAX_DEBUG_USE_SW_BP
    else vp.debug.control &&& ~~~HAX_DEBUG_USE_SW_BP
  { vp with debug := { vp.debug with control } }.submitDebug

def clearHardwareBreakpoints (vp : HaxmVirtualProcessor D) :
    VPOperationStatus × HaxmVirtualProcessor D :=
  let control := vp.debug.control &&& ~~~HAX_DEBUG_USE_HW_BP
  { vp with debug := { control, dr := Vector.replicate 8 0 } }.submitDebug

def setHardwareBreakpoints (vp : HaxmVirtualProcessor D) (breakpoints : HardwareBreakpoints) :
    VPOperationStatus × HaxmVirtualProcessor D :=
  if breakpoints.anyEnabled then
    let control := vp.debug.control ||| HAX_DEBUG_USE_HW_BP
    let dr := breakpoints.store vp.debug.dr
    { vp with debug := { control, dr } }.submitDebug
  else vp.clearHardwareBreakpoints

def request (vp : HaxmVirtualProcessor D) :
    DebugRequest → VPOperationStatus × HaxmVirtualProcessor D
  | .enableSoftwareBreakpoints enable => vp.enableSoftwareBreakpoints enable
  | .setHardwareBreakpoints breakpoints => vp.setHardwareBreakpoints breakpoints
  | .clearHardwareBreakpoints => vp.clearHardwareBreakpoints

def performDebug (vp : HaxmVirtualProcessor D) :
    BreakpointOp HaxmOp → (HaxmOpResult ⊕ VPOperationStatus) × HaxmVirtualProcessor D
  | .host op => (.inl (vp.perform op).1, (vp.perform op).2)
  | .request r => (.inr (vp.request r).1, (vp.request r).2)

end HaxmVirtualProcessor

def HaxDebug.configuration (d : HaxDebug) : DebugConfiguration where
  control := d.control
  dr := d.dr

def HaxmVirtualProcessor.debugView (vp : HaxmVirtualProcessor D) : DebugView where
  config := vp.debug.configuration
  accepted := vp.registers.driver.debug.configuration
  answers := vp.registers.driver.answers

/-! ### Calls that are not about debugging -/

/-- The driver's configuration stays, and a driver that accepts all calls keeps doing so. -/
structure HaxmDriver.DebugIdle (d d' : HaxmDriver) : Prop where
  debug : d'.debug = d.debug
  answers : d.answers = [] → d'.answers = []

namespace HaxmDriver.DebugIdle

theorem refl (d : HaxmDriver) : d.DebugIdle d := ⟨rfl, id⟩

theorem trans {d₁ d₂ d₃ : HaxmDriver} (h : d₁.DebugIdle d₂) (h' : d₂.DebugIdle d₃) :
    d₁.DebugIdle d₃ :=
  ⟨h'.debug.trans h.debug, fun hnil => h'.answers (h.answers hnil)⟩

end HaxmDriver.DebugIdle

theorem answer_debugIdle (d : HaxmDriver) : d.DebugIdle d.answer.2 := by
  rw [HaxmDriver.answer]
  split
  · exact .refl d
  · rename_i hanswers
    exact ⟨rfl, fun hnil => absurd (hanswers.symm.trans hnil) (List.cons_ne_nil _ _)⟩

theorem storeFile_debugIdle (i : HaxmFile) (s : HaxmRegisterState) :
    s.driver.DebugIdle (s.storeFile i).driver := by
  have hidle := answer_debugIdle s.driver
  rw [HaxmRegisterState.storeFile]
  cases s.cache.changed i with
  | false => exact .refl _
  | true =>
    cases hanswer : s.driver.answer with
    | mk ok driver =>
      rw [hanswer] at hidle
      cases ok with
      | true => exact ⟨hidle.debug, hidle.answers⟩
      | false => exact hidle

theorem fetchFile_debugIdle (i : HaxmFile) (s : HaxmRegisterState) :
    s.driver.DebugIdle (s.fetchFile i).2.driver := by
  have hidle := answer_debugIdle s.driver
  rw [HaxmRegisterState.fetchFile]
  cases hanswer : s.driver.answer with
  | mk ok driver =>
    rw [hanswer] at hidle
    cases ok with
    | true => exact hidle
    | false => exact hidle

theorem refreshRegisters_debugIdle (s : HaxmRegisterState) :
    s.driver.DebugIdle s.refreshRegisters.2.driver := by
  rw [HaxmRegisterState.refreshRegisters]
  cases s.cache.regsDirty with
  | false => exact .refl _
  | true =>
    have hregs := fetchFile_debugIdle .regs s
    cases hfetch : s.fetchFile .regs with
    | mk ok s₁ =>
      rw [hfetch] at hregs
      cases ok with
      | false => exact hregs
      | true =>
        have hfpu := fetchFile_debugIdle .fpuRegs s₁
        cases hfetch₁ : s₁.fetchFile .fpuRegs with
        | mk ok s₂ =>
          rw [hfetch₁] at hfpu
          simp only [if_true, hfetch₁]
          cases ok with
          | false => exact hregs.trans hfpu
          | true => exact hregs.trans hfpu

/-- `EFER` may be read from its MSR. -/
theorem regRead_debugIdle (s : HaxmRegisterState) (reg : Reg) (value : RegValue) :
    s.driver.DebugIdle (s.regRead reg value).2.driver := by
  rw [HaxmRegisterState.regRead]
  split_ifs
  · exact answer_debugIdle s.driver
  · exact .refl _

/-- `EFER` may be written to its MSR. -/
theorem regWrite_debugIdle (s : HaxmRegisterState) (reg : Reg) (value : RegValue) :
    s.driver.DebugIdle (s.regWrite reg value).2.driver := by
  have hidle := answer_debugIdle s.driver
  rw [HaxmRegisterState.regWrite]
  split_ifs
  · cases hanswer : s.driver.answer with
    | mk ok driver =>
      rw [hanswer] at hidle
      cases ok with
      | true => exact ⟨hidle.debug, hidle.answers⟩
      | false => exact hidle
  · exact .refl _

theorem regReadLoop_debugIdle (regs : List (Reg × RegValue)) (s : HaxmRegisterState) :
    s.driver.DebugIdle (HaxmRegisterState.regReadLoop regs s).2.driver := by
  induction regs generalizing s with
  | nil => exact .refl _
  | cons entry regs ih =>
    have hfirst := regRead_debugIdle s entry.1 entry.2
    simp only [HaxmRegisterState.regReadLoop]
    cases hread : s.regRead entry.1 entry.2 with
    | mk result s₁ =>
      rw [hread] at hfirst
      obtain ⟨status, value⟩ := result
      cases status with
      | OK => exact hfirst.trans (ih s₁)
      | _ => exact hfirst

theorem regWriteLoop_debugIdle (regs : List (Reg × RegValue)) (s : HaxmRegisterState) :
    s.driver.DebugIdle (HaxmRegisterState.regWriteLoop regs s).2.driver := by
  induction regs generalizing s with
  | nil => exact .refl _
  | cons entry regs ih =>
    have hfirst := regWrite_debugIdle s entry.1 entry.2
    simp only [HaxmRegisterState.regWriteLoop]
    cases hwrite : s.regWrite entry.1 entry.2 with
    | mk status s₁ =>
      rw [hwrite] at hfirst
      cases status with
      | OK => exact hfirst.trans (ih s₁)
      | _ => exact hfirst

theorem accessFresh_debugIdle (s : HaxmRegisterState) (a : HostAccess) :
    s.driver.DebugIdle (s.accessFresh a).2.driver := by
  cases a with
  | regRead reg value => exact regRead_debugIdle s reg value
  | regWrite reg value => exact regWrite_debugIdle s reg value
  | regReadBulk regs => exact regReadLoop_debugIdle regs s
  | regWriteBulk regs => exact regWriteLoop_debugIdle regs s
  | _ => exact .refl _

theorem access_debugIdle (s : HaxmRegisterState) (a : HostAccess) :
    s.driver.DebugIdle (s.access a).2.driver := by
  have hidle := refreshRegisters_debugIdle s
  rw [HaxmRegisterState.access]
  cases hrefresh : s.refreshRegisters with
  | mk ok s₁ =>
    rw [hrefresh] at hidle
    cases ok with
    | true => exact hidle.trans (accessFresh_debugIdle s₁ a)
    | false => exact hidle

theorem accessAll_debugIdle (s : HaxmRegisterState) (accesses : List HostAccess) :
    s.driver.DebugIdle (s.accessAll accesses).driver := by
  induction accesses generalizing s with
  | nil => exact .refl _
  | cons a accesses ih => exact (access_debugIdle s a).trans (ih _)

section Processor

variable (vp : HaxmVirtualProcessor D)

theorem debugView_idle {vp vp' : HaxmVirtualProcessor D} (hdebug : vp'.debug = vp.debug)
    (h : vp.registers.driver.DebugIdle vp'.registers.driver) : vp.debugView.Idle vp'.debugView where
  config := by simp only [HaxmVirtualProcessor.debugView, hdebug]
  accepted := by simp only [HaxmVirtualProcessor.debugView, h.debug]
  answers := h.answers

theorem handleExecResult_idle : vp.debugView.Idle vp.handleExecResult.2.debugView :=
  debugView_idle rfl (accessAll_debugIdle vp.registers.markDirty _)

theorem runImpl_idle (guest : HaxmGuest) : vp.debugView.Idle (vp.runImpl guest).2.debugView := by
  have hupdate : vp.registers.driver.DebugIdle vp.registers.updateRegisters.driver :=
    (storeFile_debugIdle .regs vp.registers).trans (storeFile_debugIdle .fpuRegs _)
  have henter (s : HaxmRegisterState) : s.driver.DebugIdle (s.enterGuest guest).driver := ⟨rfl, id⟩
  have hentered : vp.debugView.Idle (HaxmVirtualProcessor.debugView { vp with
      registers := vp.registers.updateRegisters.enterGuest guest
      exits := { vp.exits with
        tunnel := (guest vp.registers.updateRegisters.driver.files).tunnel } }) :=
    debugView_idle rfl (hupdate.trans (henter _))
  simp only [HaxmVirtualProcessor.runImpl]
  split_ifs
  · exact hentered.trans (handleExecResult_idle _)
  · exact hentered

/-- `SetDebug` submits the configuration with its enable bit brought up to date. -/
theorem setDebug_submit : vp.setDebug.1 = vp.debugView.accepts ∧ vp.setDebug.2.debugView =
    vp.debugView.submit (haxDebugFlags.flush vp.debug.configuration) := by
  obtain ⟨⟨cache, useEferMSR, ⟨files, eferMSR, debug, answers, entered⟩⟩, exits, own⟩ := vp
  cases answers with
  | nil => exact ⟨rfl, rfl⟩
  | cons ok answers =>
    cases ok with
    | true => exact ⟨rfl, rfl⟩
    | false => exact ⟨rfl, rfl⟩

theorem submitDebug_eq : vp.submitDebug = (requestStatus vp.setDebug.1, vp.setDebug.2) := by
  rw [HaxmVirtualProcessor.submitDebug]
  cases vp.setDebug with
  | mk ok vp' =>
    cases ok with
    | true => rfl
    | false => rfl

theorem request_eq (r : DebugRequest) : (vp.request r).1 = requestStatus vp.debugView.accepts ∧
    (vp.request r).2.debugView =
      vp.debugView.submit (haxDebugFlags.flush (haxDebugFlags.edit r vp.debug.configuration)) := by
  have hsubmit (debug : HaxDebug) :
      ({ vp with debug } : HaxmVirtualProcessor D).submitDebug.1 =
          requestStatus vp.debugView.accepts ∧
        ({ vp with debug } : HaxmVirtualProcessor D).submitDebug.2.debugView =
          vp.debugView.submit (haxDebugFlags.flush debug.configuration) := by
    obtain ⟨haccepts, hview⟩ := setDebug_submit { vp with debug }
    rw [submitDebug_eq, haccepts, hview]
    exact ⟨rfl, rfl⟩
  have hclear := hsubmit
    { control := vp.debug.control &&& ~~~HAX_DEBUG_USE_HW_BP, dr := Vector.replicate 8 0 }
  cases r with
  | enableSoftwareBreakpoints enable => exact hsubmit _
  | clearHardwareBreakpoints => exact hclear
  | setHardwareBreakpoints breakpoints =>
    simp only [HaxmVirtualProcessor.request, HaxmVirtualProcessor.setHardwareBreakpoints,
      DebugFlags.edit]
    split_ifs
    · exact hsubmit _
    · exact hclear

/-- A step is refused, or its two submissions have a run between them. -/
theorem stepImpl_does (guest : HaxmGuest) :
    DebugAction.step.Does haxDebugFlags vp.debugView (vp.stepImpl guest).2.debugView := by
  obtain ⟨haccepts, hview⟩ := setDebug_submit (vp.withSingleStep true)
  rw [HaxmVirtualProcessor.stepImpl]
  cases hstart : (vp.withSingleStep true).setDebug with
  | mk ok vp₁ =>
    rw [hstart] at haccepts hview
    cases ok with
    | false =>
      simp only [hview]
      exact .refused haccepts.symm
    | true =>
      have hrun := runImpl_idle vp₁ guest
      rw [hview] at hrun
      obtain ⟨-, hstop⟩ := setDebug_submit ((vp₁.runImpl guest).2.withSingleStep false)
      refine .stepped haccepts.symm hrun ?_
      simp only
      cases hend : ((vp₁.runImpl guest).2.withSingleStep false).setDebug with
      | mk ok vp₂ =>
        rw [hend] at hstop
        cases ok with
        | false =>
          simp only [hstop]
          exact .refl _
        | true =>
          have hhandled := handleExecResult_idle vp₂
          rw [hstop] at hhandled
          simp only
          split_ifs
          · exact hhandled
          · exact hhandled
          · simp only [hstop]
            exact .refl _

end Processor

def HaxmOp.isStep : HaxmOp → Bool
  | .step _ => true
  | _ => false

/-- The HAXM processor as a processor with a debug configuration. -/
def debugMachine (D : Type) : DebugMachine (HaxmVirtualProcessor D) HaxmOp HaxmOpResult where
  flags := haxDebugFlags
  perform := HaxmVirtualProcessor.performDebug
  isStep := HaxmOp.isStep
  view := HaxmVirtualProcessor.debugView
  does vp o := by
    cases o with
    | host op =>
      cases op with
      | access a => exact .other (debugView_idle rfl (access_debugIdle vp.registers a))
      | run guest => exact .other (runImpl_idle vp guest)
      | step guest => exact stepImpl_does vp guest
    | request r =>
      simp only [HaxmVirtualProcessor.performDebug, (request_eq vp r).2]
      exact .request r vp.debugView
  status vp r := by
    simp only [HaxmVirtualProcessor.performDebug, (request_eq vp r).1]

end Haxm

end Virt86
