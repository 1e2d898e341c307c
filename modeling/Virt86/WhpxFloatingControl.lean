import Mathlib.Data.List.Induction
import Virt86.WhpxRegisters

/-!
# The floating-point control registers on WHPX

The hypervisor keeps the control state of the FPU and of SSE in two registers that are only
written as a whole. The data pointer shares `XmmControlStatus` with MXCSR and its mask. Each
setter starts from a register of zeros, so what it does not set is lost.
-/

namespace Virt86

namespace Whpx

open BitSlices

namespace WhvRegisterValue

def fpControl (v : WhvRegisterValue) : U16 := v.extractLsb' 0 16
def fpStatus (v : WhvRegisterValue) : U16 := v.extractLsb' 16 16
def fpTag (v : WhvRegisterValue) : U8 := v.extractLsb' 32 8
def lastFpOp (v : WhvRegisterValue) : U16 := v.extractLsb' 48 16
/-- The code segment shares its bytes with the instruction pointer. -/
def lastFpCs (v : WhvRegisterValue) : U16 := v.extractLsb' 96 16
def lastFpRip (v : WhvRegisterValue) : U64 := v.extractLsb' 64 64

def setFpControl (v : WhvRegisterValue) (x : U16) : WhvRegisterValue := setSlice v 0 x
def setFpStatus (v : WhvRegisterValue) (x : U16) : WhvRegisterValue := setSlice v 16 x
def setFpTag (v : WhvRegisterValue) (x : U8) : WhvRegisterValue := setSlice v 32 x
def setLastFpOp (v : WhvRegisterValue) (x : U16) : WhvRegisterValue := setSlice v 48 x
def setLastFpCs (v : WhvRegisterValue) (x : U16) : WhvRegisterValue := setSlice v 96 x
def setLastFpRip (v : WhvRegisterValue) (x : U64) : WhvRegisterValue := setSlice v 64 x

/-- The data segment shares its bytes with the data pointer. -/
def lastFpDs (v : WhvRegisterValue) : U16 := v.extractLsb' 32 16
def lastFpRdp (v : WhvRegisterValue) : U64 := v.extractLsb' 0 64
def xmmStatusControl (v : WhvRegisterValue) : U32 := v.extractLsb' 64 32
def xmmStatusControlMask (v : WhvRegisterValue) : U32 := v.extractLsb' 96 32

def setLastFpDs (v : WhvRegisterValue) (x : U16) : WhvRegisterValue := setSlice v 32 x
def setLastFpRdp (v : WhvRegisterValue) (x : U64) : WhvRegisterValue := setSlice v 0 x
def setXmmStatusControl (v : WhvRegisterValue) (x : U32) : WhvRegisterValue := setSlice v 64 x
def setXmmStatusControlMask (v : WhvRegisterValue) (x : U32) : WhvRegisterValue := setSlice v 96 x

end WhvRegisterValue

/-- `FpControlStatus` and `XmmControlStatus` of a processor. -/
structure WhvControlRegisters where
  fp : WhvRegisterValue
  mm : WhvRegisterValue
  deriving DecidableEq, Repr

namespace WhvControlRegisters

variable (s : WhvControlRegisters) (answer : Bool)

/-- `GetFPUControl`, with what the hypervisor answers. -/
def getFPUControl (value : FPUControl) : VPOperationStatus × FPUControl :=
  if answer then
    (.OK,
      { cw := s.fp.fpControl
        sw := s.fp.fpStatus
        tw := s.fp.fpTag.setWidth 16
        op := s.fp.lastFpOp
        cs := s.fp.lastFpCs
        rip := s.fp.lastFpRip
        ds := s.mm.lastFpDs
        rdp := s.mm.lastFpRdp })
  else (.Failed, value)

/-- `SetFPUControl`. The tag of the hypervisor is a byte. -/
def setFPUControl (value : FPUControl) : VPOperationStatus × WhvControlRegisters :=
  let fp := (0 : WhvRegisterValue).setFpControl value.cw
  let fp := fp.setFpStatus value.sw
  let fp := fp.setFpTag (value.tw.setWidth 8)
  let fp := fp.setLastFpOp value.op
  let fp := fp.setLastFpCs value.cs
  let fp := fp.setLastFpRip value.rip
  let mm := (0 : WhvRegisterValue).setLastFpDs value.ds
  let mm := mm.setLastFpRdp value.rdp
  if answer then (.OK, ⟨fp, mm⟩) else (.Failed, s)

def getMXCSR (value : MXCSR) : VPOperationStatus × MXCSR :=
  if answer then (.OK, s.mm.xmmStatusControl) else (.Failed, value)

def setMXCSR (value : MXCSR) : VPOperationStatus × WhvControlRegisters :=
  let mm := (0 : WhvRegisterValue).setXmmStatusControl value
  if answer then (.OK, { s with mm }) else (.Failed, s)

def getMXCSRMask (value : MXCSR) : VPOperationStatus × MXCSR :=
  if answer then (.OK, s.mm.xmmStatusControlMask) else (.Failed, value)

def setMXCSRMask (value : MXCSR) : VPOperationStatus × WhvControlRegisters :=
  let mm := (0 : WhvRegisterValue).setXmmStatusControlMask value
  if answer then (.OK, { s with mm }) else (.Failed, s)

end WhvControlRegisters

/-- A call of one of the setters. -/
inductive ControlSet where
  | fpuControl (value : FPUControl)
  | mxcsr (value : MXCSR)
  | mxcsrMask (value : MXCSR)
  deriving DecidableEq, Repr

def WhvControlRegisters.set (s : WhvControlRegisters) (answer : Bool) :
    ControlSet → VPOperationStatus × WhvControlRegisters
  | .fpuControl value => s.setFPUControl answer value
  | .mxcsr value => s.setMXCSR answer value
  | .mxcsrMask value => s.setMXCSRMask answer value

/-- The registers after successful calls. -/
def WhvControlRegisters.setAll (s : WhvControlRegisters) (calls : List ControlSet) :
    WhvControlRegisters :=
  calls.foldl (fun s call => (s.set true call).2) s

/-! ## Independent registers -/

/-- The control registers as callers see them, each on its own. -/
@[ext]
structure FloatingControl where
  cw : U16
  sw : U16
  tw : U16
  op : U16
  rdp : U64
  mxcsr : MXCSR
  mxcsrMask : MXCSR
  deriving DecidableEq, Repr

/-- A call sets the registers that it names. -/
def FloatingControl.set (c : FloatingControl) : ControlSet → FloatingControl
  | .fpuControl value =>
    { c with cw := value.cw, sw := value.sw, tw := value.tw, op := value.op, rdp := value.rdp }
  | .mxcsr mxcsr => { c with mxcsr }
  | .mxcsrMask mxcsrMask => { c with mxcsrMask }

/-- What was last set of each register. -/
def FloatingControl.setAll (c : FloatingControl) (calls : List ControlSet) : FloatingControl :=
  calls.foldl set c

/-- The registers that a call does not name but that share the hypervisor's register are zero. -/
def FloatingControl.ZeroBeside (c : FloatingControl) : ControlSet → Prop
  | .fpuControl _ => c.mxcsr = 0 ∧ c.mxcsrMask = 0
  | .mxcsr _ => c.rdp = 0 ∧ c.mxcsrMask = 0
  | .mxcsrMask _ => c.rdp = 0 ∧ c.mxcsr = 0

namespace WhvControlRegisters

/-- What the hypervisor's registers hold of each. -/
def current (s : WhvControlRegisters) : FloatingControl where
  cw := s.fp.fpControl
  sw := s.fp.fpStatus
  tw := s.fp.fpTag.setWidth 16
  op := s.fp.lastFpOp
  rdp := s.mm.lastFpRdp
  mxcsr := s.mm.xmmStatusControl
  mxcsrMask := s.mm.xmmStatusControlMask

/-- The getters return the registers. -/
structure Returns (s : WhvControlRegisters) (c : FloatingControl) : Prop where
  getFPUControl : ∀ value, ∃ control, s.getFPUControl true value = (.OK, control) ∧
    control.cw = c.cw ∧ control.sw = c.sw ∧ control.tw = c.tw ∧ control.op = c.op ∧
      control.rdp = c.rdp
  getMXCSR : ∀ value, s.getMXCSR true value = (.OK, c.mxcsr)
  getMXCSRMask : ∀ value, s.getMXCSRMask true value = (.OK, c.mxcsrMask)

theorem returns_current (s : WhvControlRegisters) : s.Returns s.current where
  getFPUControl _ := ⟨_, rfl, rfl, rfl, rfl, rfl, rfl⟩
  getMXCSR _ := rfl
  getMXCSRMask _ := rfl

theorem returns_iff {s : WhvControlRegisters} {c : FloatingControl} :
    s.Returns c ↔ s.current = c := by
  constructor
  · intro h
    obtain ⟨control, heq, hcw, hsw, htw, hop, hrdp⟩ := h.getFPUControl ⟨0, 0, 0, 0, 0, 0, 0, 0⟩
    obtain rfl := (Prod.mk.injEq .. ▸ heq).2
    have hmxcsr := h.getMXCSR 0
    have hmask := h.getMXCSRMask 0
    cases c
    simp_all [current, WhvControlRegisters.getMXCSR, WhvControlRegisters.getMXCSRMask]
  · rintro rfl
    exact s.returns_current

/-! ## What a call leaves -/

section Calls

open WhvRegisterValue

variable (s : WhvControlRegisters)

/-- `SetFPUControl` clears MXCSR and its mask, and of the tag it keeps a byte. -/
theorem current_setFPUControl (value : FPUControl) :
    (s.setFPUControl true value).2.current =
      { cw := value.cw, sw := value.sw, tw := (value.tw.setWidth 8).setWidth 16, op := value.op
        rdp := value.rdp, mxcsr := 0, mxcsrMask := 0 } := by
  simp (disch := decide) [current, setFPUControl, fpControl, fpStatus, fpTag, lastFpOp, lastFpRdp,
    xmmStatusControl, xmmStatusControlMask, setFpControl, setFpStatus, setFpTag, setLastFpOp,
    setLastFpCs, setLastFpRip, setLastFpDs, setLastFpRdp, extractLsb'_setSlice,
    extractLsb'_setSlice_of_disjoint]

/-- `SetMXCSR` clears the data pointer and the mask. -/
theorem current_setMXCSR (value : MXCSR) :
    (s.setMXCSR true value).2.current =
      { s.current with rdp := 0, mxcsr := value, mxcsrMask := 0 } := by
  simp (disch := decide) [current, setMXCSR, lastFpRdp, xmmStatusControl, xmmStatusControlMask,
    setXmmStatusControl, extractLsb'_setSlice, extractLsb'_setSlice_of_disjoint]

/-- `SetMXCSRMask` clears the data pointer and MXCSR. -/
theorem current_setMXCSRMask (value : MXCSR) :
    (s.setMXCSRMask true value).2.current =
      { s.current with rdp := 0, mxcsr := 0, mxcsrMask := value } := by
  simp (disch := decide) [current, setMXCSRMask, lastFpRdp, xmmStatusControl,
    xmmStatusControlMask, setXmmStatusControlMask, extractLsb'_setSlice,
    extractLsb'_setSlice_of_disjoint]

end Calls

/-! ## Sequences of calls -/

/-- The registers of the FPU alone follow what was set, but for the high byte of the tag. -/
structure Follows (s : WhvControlRegisters) (c : FloatingControl) : Prop where
  cw : s.current.cw = c.cw
  sw : s.current.sw = c.sw
  tw : s.current.tw = (c.tw.setWidth 8).setWidth 16
  op : s.current.op = c.op

theorem follows_current (s : WhvControlRegisters) : s.Follows s.current where
  cw := rfl
  sw := rfl
  tw := by simp [current]
  op := rfl

theorem Follows.set {s : WhvControlRegisters} {c : FloatingControl} (h : s.Follows c)
    (call : ControlSet) : (s.set true call).2.Follows (c.set call) := by
  cases call with
  | fpuControl value =>
    have hcurrent := current_setFPUControl s value
    constructor <;> rw [WhvControlRegisters.set, hcurrent] <;> rfl
  | mxcsr value => exact ⟨h.cw, h.sw, h.tw, h.op⟩
  | mxcsrMask value => exact ⟨h.cw, h.sw, h.tw, h.op⟩

theorem Follows.setAll {s : WhvControlRegisters} {c : FloatingControl} (h : s.Follows c)
    (calls : List ControlSet) : (s.setAll calls).Follows (c.setAll calls) := by
  induction calls generalizing s c with
  | nil => exact h
  | cons call calls ih => exact ih (h.set call)

/-- The tag that was last set is a byte. -/
theorem setWidth_eq_self_iff (tw : U16) :
    (tw.setWidth 8).setWidth 16 = tw ↔ tw < 256 := by
  rw [← BitVec.toNat_inj, BitVec.lt_def]
  simp
  omega

/-- After a call the getters return what was last set if and only if the tag is a byte and the
registers beside those of the call are zero. -/
theorem current_set_iff {s : WhvControlRegisters} {c : FloatingControl} (h : s.Follows c)
    (call : ControlSet) :
    (s.set true call).2.current = c.set call ↔
      (c.set call).tw < 256 ∧ (c.set call).ZeroBeside call := by
  have hset := h.set call
  rw [FloatingControl.ext_iff, hset.cw, hset.sw, hset.tw, hset.op, setWidth_eq_self_iff]
  cases call with
  | fpuControl value =>
    rw [WhvControlRegisters.set, current_setFPUControl]
    simp only [FloatingControl.set, FloatingControl.ZeroBeside, true_and]
    exact and_congr_right fun _ => and_congr eq_comm eq_comm
  | mxcsr value =>
    rw [WhvControlRegisters.set, current_setMXCSR]
    simp only [FloatingControl.set, FloatingControl.ZeroBeside, true_and]
    exact and_congr_right fun _ => and_congr eq_comm eq_comm
  | mxcsrMask value =>
    rw [WhvControlRegisters.set, current_setMXCSRMask]
    simp only [FloatingControl.set, FloatingControl.ZeroBeside, true_and, and_true]
    exact and_congr_right fun _ => and_congr eq_comm eq_comm

end WhvControlRegisters

/-- After any successful calls the getters return what was last set, or else was there before, if
and only if there were no calls, or the tag that was last set is a byte and the registers beside
those of the last call are to be zero. -/
theorem floating_control_iff (s : WhvControlRegisters) (calls : List ControlSet) :
    (s.setAll calls).Returns (s.current.setAll calls) ↔
      ∀ call ∈ calls.getLast?, (s.current.setAll calls).tw < 256 ∧
        (s.current.setAll calls).ZeroBeside call := by
  rw [WhvControlRegisters.returns_iff]
  induction calls using List.reverseRecOn with
  | nil => simp [WhvControlRegisters.setAll, FloatingControl.setAll]
  | append_singleton calls call _ =>
    have hlast := WhvControlRegisters.current_set_iff (s.follows_current.setAll calls) call
    simp only [WhvControlRegisters.setAll, FloatingControl.setAll, List.foldl_append,
      List.foldl_cons, List.foldl_nil, List.getLast?_concat, Option.mem_some_iff] at hlast ⊢
    rw [hlast]
    exact ⟨fun h _ hcall => hcall ▸ h, fun h => h call rfl⟩

/-- MXCSR is lost when its mask is set after it. -/
theorem floating_control_disturbed :
    let s : WhvControlRegisters := ⟨0, 0⟩
    ¬ (s.setAll [.mxcsr 0x1F80, .mxcsrMask 0xFFFF]).Returns
        (s.current.setAll [.mxcsr 0x1F80, .mxcsrMask 0xFFFF]) := by
  intro s
  rw [WhvControlRegisters.returns_iff]
  decide

end Whpx

end Virt86
