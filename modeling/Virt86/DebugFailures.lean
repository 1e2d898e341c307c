import Virt86.BreakpointProgramming

/-!
# Debug configurations after failed calls

Requests edit `m_debug` before they know whether the hypervisor accepts it, and a step whose first
call fails returns with the single-step bit set. The enable bit follows the other bits of the
control word, so that a word without it determines the word.
-/

namespace Virt86

namespace DebugFlags

variable (f : DebugFlags)

/-! ## The control word -/

section Control

variable {w : ℕ} (c : BitVec w) {mask enable : BitVec w}

theorem eq_iff_bits (x y : BitVec w) : x = y ↔ ∀ k, x.getLsbD k = y.getLsbD k :=
  ⟨fun h k => by rw [h], fun h => BitVec.eq_of_getLsbD_eq fun k _ => h k⟩

theorem getLsbD_of_disjoint (h : mask &&& enable = 0) (k : ℕ) (hmask : mask.getLsbD k = true) :
    enable.getLsbD k = false := by
  have hbit := congrArg (fun z => z.getLsbD k) h
  simpa [hmask] using hbit

theorem and_rest (h : mask &&& enable = 0) : c &&& ~~~enable &&& mask = c &&& mask := by
  rw [eq_iff_bits]
  intro k
  have hdisjoint := getLsbD_of_disjoint h k
  simp only [BitVec.getLsbD_and, BitVec.getLsbD_not]
  grind

/-- A flag that is raised was raised before, when the other bits show no change. -/
theorem or_rest_eq_iff (h : mask &&& enable = 0) :
    (c ||| mask) &&& ~~~enable = c &&& ~~~enable ↔ c &&& mask = mask := by
  rw [eq_iff_bits, eq_iff_bits]
  refine forall_congr' fun k => ?_
  have hdisjoint := getLsbD_of_disjoint h k
  simp only [BitVec.getLsbD_and, BitVec.getLsbD_or, BitVec.getLsbD_not]
  grind

/-- A flag that is cleared was clear before, when the other bits show no change. -/
theorem and_not_rest_eq_iff (h : mask &&& enable = 0) :
    (c &&& ~~~mask) &&& ~~~enable = c &&& ~~~enable ↔ c &&& mask = 0 := by
  rw [eq_iff_bits, eq_iff_bits]
  refine forall_congr' fun k => ?_
  have hdisjoint := getLsbD_of_disjoint h k
  simp only [BitVec.getLsbD_and, BitVec.getLsbD_not, BitVec.ofNat_eq_ofNat, BitVec.getLsbD_zero]
  grind

end Control

/-- The enable bit is a function of the other bits. -/
theorem flush_eq (m : DebugConfiguration) : f.flush m =
    { m with control := if m.control &&& ~~~f.enable ≠ 0 then m.control &&& ~~~f.enable ||| f.enable
        else 0 } := by
  have hor : m.control ||| f.enable = m.control &&& ~~~f.enable ||| f.enable := by
    rw [eq_iff_bits]
    intro k
    simp only [BitVec.getLsbD_and, BitVec.getLsbD_or, BitVec.getLsbD_not]
    grind
  rw [flush, hor]
  split_ifs with h
  · rfl
  · rw [not_not] at h
    rw [h]

theorem flush_congr {m m' : DebugConfiguration}
    (hrest : m.control &&& ~~~f.enable = m'.control &&& ~~~f.enable) (hdr : m.dr = m'.dr) :
    f.flush m = f.flush m' := by
  rw [flush_eq, flush_eq, hrest, hdr]

/-- `SetDebug` leaves the bits other than the enable bit alone. -/
theorem rest_flush (m : DebugConfiguration) :
    (f.flush m).control &&& ~~~f.enable = m.control &&& ~~~f.enable := by
  rw [flush, eq_iff_bits]
  intro k
  split_ifs <;> simp only [BitVec.getLsbD_and, BitVec.getLsbD_or, BitVec.getLsbD_not] <;> grind

theorem flush_and (m : DebugConfiguration) {mask : U32} (h : mask &&& f.enable = 0) :
    (f.flush m).control &&& mask = m.control &&& mask := by
  rw [← and_rest (f.flush m).control h, rest_flush, and_rest m.control h]

/-! ## Configurations between the calls -/

/-- The enable bit is up to date and the single-step bit is clear. -/
structure Settled (m : DebugConfiguration) : Prop where
  flush_eq : f.flush m = m
  step_clear : m.control &&& f.step = 0

theorem settled_flush {m : DebugConfiguration} (h : m.control &&& f.step = 0) :
    f.Settled (f.flush m) where
  flush_eq := f.flush_congr (f.rest_flush m) rfl
  step_clear := (f.flush_and m f.step_enable).trans h

variable {f} {m : DebugConfiguration}

theorem Settled.flush_eq_iff (h : f.Settled m) (m' : DebugConfiguration) :
    f.flush m' = m ↔ m'.control &&& ~~~f.enable = m.control &&& ~~~f.enable ∧ m'.dr = m.dr := by
  constructor
  · rintro rfl
    exact ⟨(f.rest_flush m').symm, rfl⟩
  · rintro ⟨hrest, hdr⟩
    rw [f.flush_congr hrest hdr, h.flush_eq]

/-- After both halves of a step the configuration is as before. -/
theorem Settled.step_eq (h : f.Settled m) :
    f.flush (f.singleStep false (f.flush (f.singleStep true m))) = m := by
  rw [h.flush_eq_iff]
  refine ⟨?_, rfl⟩
  have hcommute (c : U32) : c &&& ~~~f.step &&& ~~~f.enable = c &&& ~~~f.enable &&& ~~~f.step := by
    rw [BitVec.and_assoc, BitVec.and_comm (~~~f.step), ← BitVec.and_assoc]
  have hclear : (m.control ||| f.step) &&& ~~~f.step = m.control := by
    apply BitVec.eq_of_getLsbD_eq
    intro k hk
    have hdisjoint := getLsbD_of_disjoint h.step_clear k
    simp only [BitVec.getLsbD_and, BitVec.getLsbD_or, BitVec.getLsbD_not]
    grind
  calc (f.flush (f.singleStep true m)).control &&& ~~~f.step &&& ~~~f.enable
      = (f.flush (f.singleStep true m)).control &&& ~~~f.enable &&& ~~~f.step := hcommute _
    _ = (m.control ||| f.step) &&& ~~~f.enable &&& ~~~f.step := by rw [rest_flush]; rfl
    _ = (m.control ||| f.step) &&& ~~~f.step &&& ~~~f.enable := (hcommute _).symm
    _ = m.control &&& ~~~f.enable := by rw [hclear]

/-- A step that is refused leaves its bit behind. -/
theorem step_flush_ne (m : DebugConfiguration) :
    (f.flush (f.singleStep true m)).control &&& f.step ≠ 0 := by
  have hstep : (m.control ||| f.step) &&& f.step = f.step := by
    rw [eq_iff_bits]
    intro k
    simp only [BitVec.getLsbD_and, BitVec.getLsbD_or]
    grind
  rw [flush_and _ _ f.step_enable, singleStep, if_pos rfl, hstep]
  exact f.step_ne

/-! ## Requests -/

/-- A request that asks for what is there already. -/
def AlreadyAs (f : DebugFlags) (m : DebugConfiguration) : DebugRequest → Prop
  | .enableSoftwareBreakpoints enable => m.control &&& f.useSW = if enable then f.useSW else 0
  | .setHardwareBreakpoints b =>
    if b.anyEnabled then
      m.control &&& f.useHW = f.useHW ∧
        (∀ i, m.dr.address i = b.address i) ∧ b.dr7 &&& ~~~m.dr.dr7 = 0
    else m.control &&& f.useHW = 0 ∧ m.dr = Vector.replicate 8 0
  | .clearHardwareBreakpoints => m.control &&& f.useHW = 0 ∧ m.dr = Vector.replicate 8 0

theorem store_eq_iff (b : HardwareBreakpoints) (dr : DebugRegisters) : b.store dr = dr ↔
    (∀ i, dr.address i = b.address i) ∧ b.dr7 &&& ~~~dr.dr7 = 0 := by
  have hdr7 : (b.store dr).dr7 = dr.dr7 ↔ b.dr7 &&& ~~~dr.dr7 = 0 := by
    rw [b.store_dr7, BitVec.or_comm, HardwareBreakpoints.or_eq_right_iff]
  constructor
  · intro h
    exact ⟨fun i => by rw [← b.store_address dr i, h], hdr7.mp (by rw [h])⟩
  · rintro ⟨haddress, hadded⟩
    apply Vector.ext
    intro k hk
    rcases Nat.lt_or_ge k 4 with hlow | hhigh
    · exact (b.store_address dr ⟨k, hlow⟩).trans (haddress ⟨k, hlow⟩).symm
    · rcases Nat.lt_or_ge k 7 with hmiddle | hlast
      · exact b.store_middle dr hhigh hmiddle
      · obtain rfl : k = 7 := by omega
        exact hdr7.mpr hadded

theorem Settled.clear_eq_iff (h : f.Settled m) : f.flush (f.clear m) = m ↔
    m.control &&& f.useHW = 0 ∧ m.dr = Vector.replicate 8 0 := by
  rw [h.flush_eq_iff, clear, and_not_rest_eq_iff _ f.useHW_enable]
  exact and_congr_right fun _ => eq_comm

/-- The configuration is the same after a request only if it was as asked for. -/
theorem Settled.edit_eq_iff (h : f.Settled m) (r : DebugRequest) :
    f.flush (f.edit r m) = m ↔ f.AlreadyAs m r := by
  cases r with
  | enableSoftwareBreakpoints enable =>
    rw [h.flush_eq_iff, edit, AlreadyAs]
    cases enable with
    | true => simp [or_rest_eq_iff _ f.useSW_enable]
    | false => simp [and_not_rest_eq_iff _ f.useSW_enable]
  | clearHardwareBreakpoints => exact h.clear_eq_iff
  | setHardwareBreakpoints b =>
    rw [edit, AlreadyAs]
    split_ifs
    · rw [h.flush_eq_iff, or_rest_eq_iff _ f.useHW_enable, store_eq_iff]
    · exact h.clear_eq_iff

theorem Settled.edit (h : f.Settled m) (r : DebugRequest) : f.Settled (f.flush (f.edit r m)) := by
  have hor {mask : U32} (hmask : mask &&& f.step = 0) : (m.control ||| mask) &&& f.step = 0 := by
    rw [BitVec.and_or_distrib_right, h.step_clear, hmask]
    rfl
  have hand (mask : U32) : m.control &&& ~~~mask &&& f.step = 0 := by
    rw [BitVec.and_assoc, BitVec.and_comm (~~~mask), ← BitVec.and_assoc, h.step_clear]
    exact BitVec.zero_and
  apply settled_flush
  cases r with
  | enableSoftwareBreakpoints enable =>
    cases enable with
    | true => exact hor f.useSW_step
    | false => exact hand f.useSW
  | clearHardwareBreakpoints => exact hand f.useHW
  | setHardwareBreakpoints b =>
    rw [DebugFlags.edit]
    split_ifs
    · exact hor f.useHW_step
    · exact hand f.useHW

end DebugFlags

/-! ## Runs -/

/-- What a step is to leave of a configuration. -/
structure DebugFlags.StepLeaves (f : DebugFlags) (m m' : DebugConfiguration) : Prop where
  step_clear : m'.control &&& f.step = 0
  control : m'.control &&& ~~~f.step = m.control &&& ~~~f.step
  dr : m'.dr = m.dr

namespace DebugMachine

variable {S O R : Type} (M : DebugMachine S O R) {s : S}

/-- A request that fails changes nothing, and a step leaves nothing behind. -/
def FailsCleanly (s : S) : BreakpointOp O → Prop
  | .request r => (M.perform s (.request r)).1 ≠ .inr .OK →
    (M.view (M.perform s (.request r)).2).config = (M.view s).config
  | .host op => M.isStep op = true →
    M.flags.StepLeaves (M.view s).config (M.view (M.perform s (.host op)).2).config

/-- The next call succeeds, or a request asks for what is there already. -/
def AsksSafely (s : S) : BreakpointOp O → Prop
  | .request r => (M.view s).accepts = true ∨ M.flags.AlreadyAs (M.view s).config r
  | .host op => M.isStep op = true → (M.view s).accepts = true

theorem config_of_stepped {v v' : DebugView} (h : DebugAction.step.Does M.flags v v')
    (hv : M.flags.Settled v.config) (haccepts : v.accepts = true) : v'.config = v.config := by
  cases h with
  | refused hrefused => exact absurd hrefused (by simp [haccepts])
  | stepped _ hrun hend =>
    rw [hend.config, DebugView.submit, hrun.config]
    exact hv.step_eq

theorem accepts_of_stepLeaves {v v' : DebugView} (h : DebugAction.step.Does M.flags v v')
    (hleaves : M.flags.StepLeaves v.config v'.config) : v.accepts = true := by
  cases h with
  | refused _ => exact absurd hleaves.step_clear (M.flags.step_flush_ne _)
  | stepped haccepts _ _ => exact haccepts

theorem failsCleanly_iff (h : M.flags.Settled (M.view s).config) (o : BreakpointOp O) :
    M.FailsCleanly s o ↔ M.AsksSafely s o := by
  have hdoes := M.does s o
  cases o with
  | request r =>
    have hconfig : (M.view (M.perform s (.request r)).2).config =
        M.flags.flush (M.flags.edit r (M.view s).config) := by
      rw [M.view_perform_request r]
      rfl
    rw [FailsCleanly, AsksSafely, M.status, hconfig, h.edit_eq_iff]
    cases (M.view s).accepts with
    | true => simp [requestStatus]
    | false => simp [requestStatus]
  | host op =>
    rw [FailsCleanly, AsksSafely]
    refine imp_congr_right fun hstep => ?_
    simp only [BreakpointOp.action, hstep] at hdoes
    constructor
    · exact M.accepts_of_stepLeaves hdoes
    · intro haccepts
      rw [M.config_of_stepped hdoes h haccepts]
      exact ⟨h.step_clear, rfl, rfl⟩

theorem perform_settled (h : M.flags.Settled (M.view s).config) {o : BreakpointOp O}
    (hasks : M.AsksSafely s o) : M.flags.Settled (M.view (M.perform s o).2).config := by
  have hdoes := M.does s o
  cases o with
  | request r =>
    rw [M.view_perform_request r]
    exact h.edit r
  | host op =>
    simp only [BreakpointOp.action] at hdoes
    cases hstep : M.isStep op with
    | false =>
      rw [hstep] at hdoes
      cases hdoes with
      | other hidle => rwa [hidle.config]
    | true =>
      rw [hstep] at hdoes
      rwa [M.config_of_stepped hdoes h (hasks hstep)]

end DebugMachine

theorem DebugFlags.settled_zero (f : DebugFlags) (dr : DebugRegisters) : f.Settled ⟨0, dr⟩ where
  flush_eq := by simp [DebugFlags.flush]
  step_clear := BitVec.zero_and

section Backends

variable {D : Type}

/-- Along every run of both processors, whatever the hypervisor refuses: failed requests and steps
leave the configuration as it was exactly as long as the first call of each request and step
succeeds, or the request asks for what is there already. -/
theorem failsCleanly_along_iff (debugRegs : Kvm.KvmDebugregs) (kvmExits : Kvm.KvmExits D)
    (kernel : Kvm.KvmKernel) (kvmOps : List (BreakpointOp Kvm.KvmOp))
    (files : Haxm.HaxmRegisterFiles) (useEferMSR : Bool) (haxmExits : Haxm.HaxmExits D)
    (driver : Haxm.HaxmDriver) (haxmOps : List (BreakpointOp Haxm.HaxmOp)) :
    (Along Kvm.KvmVirtualProcessor.performDebug (Kvm.debugMachine D).FailsCleanly
          (.create debugRegs kvmExits kernel) kvmOps ↔
        Along Kvm.KvmVirtualProcessor.performDebug (Kvm.debugMachine D).AsksSafely
          (.create debugRegs kvmExits kernel) kvmOps) ∧
      (Along Haxm.HaxmVirtualProcessor.performDebug (Haxm.debugMachine D).FailsCleanly
          (.create files useEferMSR haxmExits driver) haxmOps ↔
        Along Haxm.HaxmVirtualProcessor.performDebug (Haxm.debugMachine D).AsksSafely
          (.create files useEferMSR haxmExits driver) haxmOps) :=
  ⟨along_iff (fun o h => (Kvm.debugMachine D).failsCleanly_iff h o)
      (fun h hasks => (Kvm.debugMachine D).perform_settled h hasks)
      (DebugFlags.settled_zero _ _) kvmOps,
    along_iff (fun o h => (Haxm.debugMachine D).failsCleanly_iff h o)
      (fun h hasks => (Haxm.debugMachine D).perform_settled h hasks)
      (DebugFlags.settled_zero _ _) haxmOps⟩

/-- Software breakpoints whose call fails stay asked for, and a step whose first call fails leaves
its bit set. -/
theorem failsCleanly_refused :
    ¬ (Kvm.debugMachine Unit).FailsCleanly
        (.create default Kvm.idleExits { Kvm.resetKernel with answers := [false] })
        (.request (.enableSoftwareBreakpoints true)) ∧
      ¬ (Haxm.debugMachine Unit).FailsCleanly
        (.create default true Haxm.idleExits { Haxm.resetDriver with answers := [false] })
        (.host (.step Haxm.idleGuest)) := by
  constructor
  · rw [(Kvm.debugMachine Unit).failsCleanly_iff (DebugFlags.settled_zero _ _)]
    rintro (haccepts | halready)
    · exact absurd haccepts (by decide)
    · have hflag : (0 : U32) &&& Kvm.KVM_GUESTDBG_USE_SW_BP = Kvm.KVM_GUESTDBG_USE_SW_BP := halready
      exact absurd hflag (by decide)
  · rw [(Haxm.debugMachine Unit).failsCleanly_iff (DebugFlags.settled_zero _ _)]
    intro hasks
    exact absurd (hasks rfl) (by decide)

end Backends

end Virt86
