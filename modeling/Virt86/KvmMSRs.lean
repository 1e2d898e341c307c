import Virt86.KvmCacheRefinement

/-!
# Model specific registers of a KVM processor

`GetMSR` and `SetMSR` go straight to the kernel. Three model specific registers are also fields of
the special registers, of which the processor keeps a copy: the kernel holds one value for both
views, and the copy may hold another.
-/

namespace Virt86

namespace Kvm

open WriteBack BitSlices

/-- The model specific registers that the special registers hold as well. -/
inductive SharedMSR where
  | EFER | FS_BASE | GS_BASE
  deriving DecidableEq, Repr

namespace SharedMSR

def ofIndex (index : U32) : Option SharedMSR :=
  if index = 0xC0000080 then some .EFER
  else if index = 0xC0000100 then some .FS_BASE
  else if index = 0xC0000101 then some .GS_BASE
  else none

/-- The register that holds the same value. -/
def reg : SharedMSR → Reg
  | .EFER => .EFER
  | .FS_BASE => .FS
  | .GS_BASE => .GS

def get : SharedMSR → KvmSregs → U64
  | .EFER, s => s.efer
  | .FS_BASE, s => s.fs.base
  | .GS_BASE, s => s.gs.base

def set : SharedMSR → U64 → KvmSregs → KvmSregs
  | .EFER, value, s => { s with efer := value }
  | .FS_BASE, value, s => { s with fs := { s.fs with base := value } }
  | .GS_BASE, value, s => { s with gs := { s.gs with base := value } }

/-- The value in a value of the register. -/
def ofValue : SharedMSR → RegValue → U64
  | .EFER, value => value.u64
  | .FS_BASE, value | .GS_BASE, value => value.segmentBase

/-- What a write of the register stores of it: `EFER` is written with 32 bits. -/
def stored : SharedMSR → RegValue → U64
  | .EFER, value => value.u32.setWidth 64
  | .FS_BASE, value | .GS_BASE, value => value.segmentBase

theorem get_set (m n : SharedMSR) (value : U64) (s : KvmSregs) :
    n.get (m.set value s) = if n = m then value else n.get s := by
  cases m <;> cases n <;> rfl

/-- A register write to the special registers changes a shared value only through its register. -/
theorem get_registerEdit (m : SharedMSR) (reg : Reg) (value : RegValue) (s : KvmSregs) :
    m.get (registerEdit .sregs reg value s) = if reg = m.reg then m.stored value else m.get s := by
  cases m <;> cases reg <;> rfl

theorem loadSegment_base (value : RegValue) (segment : KvmSegment) :
    (loadSegment value segment).segmentBase = segment.base := by
  simp only [loadSegment, RegValue.segmentBase, RegValue.setSegmentAttributes,
    RegValue.setSegmentLimit, RegValue.setSegmentBase]
  rw [extractLsb'_setSlice_of_disjoint _ _ (by omega) (by omega),
    extractLsb'_setSlice_of_disjoint _ _ (by omega) (by omega),
    extractLsb'_setSlice _ _ _ (by omega)]

/-- A register read hands out the shared value of the file it reads. -/
theorem ofValue_registerLoad (m : SharedMSR) (value : RegValue) (s : KvmSregs) :
    registerFile m.reg = some .sregs ∧ m.ofValue (registerLoad .sregs m.reg value s) = m.get s := by
  cases m with
  | EFER => exact ⟨rfl, extractLsb'_setSlice value 0 s.efer (by omega)⟩
  | FS_BASE => exact ⟨rfl, loadSegment_base value s.fs⟩
  | GS_BASE => exact ⟨rfl, loadSegment_base value s.gs⟩

end SharedMSR

namespace KvmRegisterState

/-- `RunImpl` up to the accesses of the I/O handlers. -/
def runGuest (s : KvmRegisterState) (guest : KvmGuest) : Bool × KvmRegisterState :=
  match s.updateRegisters with
  | (false, s) => (false, s)
  | (true, s) =>
    if (guest s.kernel.files).ok then (true, (s.enterGuest guest).markDirty)
    else (false, s.enterGuest guest)

end KvmRegisterState

/-- A run is that, followed by the accesses of the handlers. -/
theorem runImpl_registers {D : Type} (vp : KvmVirtualProcessor D) (guest : KvmGuest) :
    ∃ accesses, (vp.runImpl guest).2.registers =
      (vp.registers.runGuest guest).2.accessAll accesses := by
  simp only [KvmVirtualProcessor.runImpl, KvmRegisterState.runGuest]
  cases vp.registers.updateRegisters with
  | mk ok registers =>
    cases ok with
    | false => exact ⟨[], rfl⟩
    | true =>
      simp only
      split_ifs
      · exact ⟨_, rfl⟩
      · exact ⟨[], rfl⟩

/-- The registers of a processor, and the kernel's values of the other model specific registers. -/
structure KvmMsrState where
  registers : KvmRegisterState
  otherMSRs : U32 → U64

/-- The operations on registers of both kinds. -/
inductive KvmMsrOp where
  | regRead (reg : Reg) (value : RegValue)
  | regWrite (reg : Reg) (value : RegValue)
  | getMSR (msr : U64) (value : U64)
  | setMSR (msr : U64) (value : U64)
  | run (guest : KvmGuest)

inductive KvmMsrResult where
  | access (result : AccessResult)
  | msr (status : VPOperationStatus) (value : U64)
  | run (ok : Bool)

namespace KvmMsrState

/-- What the kernel holds in a model specific register. -/
def readMSR (s : KvmMsrState) (index : U32) : U64 :=
  match SharedMSR.ofIndex index with
  | some m => m.get s.registers.kernel.files.sregs
  | none => s.otherMSRs index

def writeMSR (s : KvmMsrState) (index : U32) (value : U64) : KvmMsrState :=
  match SharedMSR.ofIndex index with
  | some m =>
    { s with registers := { s.registers with kernel := { s.registers.kernel with
      files := { s.registers.kernel.files with
        sregs := m.set value s.registers.kernel.files.sregs } } } }
  | none => { s with otherMSRs := Function.update s.otherMSRs index value }

def withKernel (s : KvmMsrState) (kernel : KvmKernel) : KvmMsrState :=
  { s with registers := { s.registers with kernel } }

/-- `GetMSR`; the index is cut to 32 bits. -/
def getMSR (s : KvmMsrState) (msr value : U64) : (VPOperationStatus × U64) × KvmMsrState :=
  match s.registers.kernel.answer with
  | (true, kernel) => ((.OK, (s.withKernel kernel).readMSR (msr.setWidth 32)), s.withKernel kernel)
  | (false, kernel) => ((.Failed, value), s.withKernel kernel)

def setMSR (s : KvmMsrState) (msr value : U64) : VPOperationStatus × KvmMsrState :=
  match s.registers.kernel.answer with
  | (true, kernel) => (.OK, (s.withKernel kernel).writeMSR (msr.setWidth 32) value)
  | (false, kernel) => (.Failed, s.withKernel kernel)

def perform (s : KvmMsrState) : KvmMsrOp → KvmMsrResult × KvmMsrState
  | .regRead reg value =>
    (.access (s.registers.access (.regRead reg value)).1,
      { s with registers := (s.registers.access (.regRead reg value)).2 })
  | .regWrite reg value =>
    (.access (s.registers.access (.regWrite reg value)).1,
      { s with registers := (s.registers.access (.regWrite reg value)).2 })
  | .getMSR msr value => (.msr (s.getMSR msr value).1.1 (s.getMSR msr value).1.2,
      (s.getMSR msr value).2)
  | .setMSR msr value => (.msr (s.setMSR msr value).1 value, (s.setMSR msr value).2)
  | .run guest => (.run (s.registers.runGuest guest).1,
      { s with registers := (s.registers.runGuest guest).2 })

/-- The shared values in the kernel and in the copy of the special registers. -/
def kernelValue (s : KvmMsrState) (m : SharedMSR) : U64 := m.get s.registers.kernel.files.sregs

def copiedValue (s : KvmMsrState) (m : SharedMSR) : U64 := m.get s.registers.cache.files.sregs

/-- The shared value that the next `KVM_RUN` gives to the guest. -/
def nextRunValue (s : KvmMsrState) (m : SharedMSR) : U64 :=
  m.get (s.registers.writeBack.pending .sregs)

end KvmMsrState

namespace KvmMsrOp

/-- The value an operation gives to a shared register, through either view. -/
def written (m : SharedMSR) : KvmMsrOp → Option U64
  | .regWrite reg value => if reg = m.reg then some (m.ofValue value) else none
  | .setMSR msr value => if SharedMSR.ofIndex (msr.setWidth 32) = some m then some value else none
  | _ => none

/-- The values last written, from those before. -/
def lastWritten (values : SharedMSR → U64) (ops : List KvmMsrOp) : SharedMSR → U64 :=
  ops.foldl (fun values op m => (op.written m).getD (values m)) values

/-- A read through either view returns the value last written. -/
def ReadsLast (values : SharedMSR → U64) : KvmMsrOp → KvmMsrResult → Prop
  | .regRead reg _, .access result =>
    ∀ m : SharedMSR, m.reg = reg → ∃ value, result = (.OK, .values [value]) ∧
      m.ofValue value = values m
  | .getMSR msr _, .msr status value =>
    ∀ m, SharedMSR.ofIndex (msr.setWidth 32) = some m → status = .OK ∧ value = values m
  | _, _ => True

/-- The copy of the special registers is going to be fetched, or it is going to be stored, or it
holds the kernel's value. -/
def UpToDate (s : KvmMsrState) (m : SharedMSR) : Prop :=
  s.registers.cache.regsDirty = true ∨ s.registers.cache.sregsChanged = true ∨
    s.copiedValue m = s.kernelValue m

/-- The condition under which an operation keeps the views together: a register read needs its
shared value up to date, a write to a special register all others, and a write of `EFER` fits in 32
bits; reading a model specific register needs that no other value waits to be stored, and writing
it that none but the written one does. -/
def KeepsViews (s : KvmMsrState) : KvmMsrOp → Prop
  | .regRead reg _ => ∀ m : SharedMSR, m.reg = reg → UpToDate s m
  | .regWrite reg value => registerFile reg = some .sregs →
      ∀ m : SharedMSR, if reg = m.reg then m.stored value = m.ofValue value else UpToDate s m
  | .getMSR msr _ => ∀ m, SharedMSR.ofIndex (msr.setWidth 32) = some m →
      s.registers.cache.sregsChanged = false ∨ s.copiedValue m = s.kernelValue m
  | .setMSR msr value => ∀ m, SharedMSR.ofIndex (msr.setWidth 32) = some m →
      s.registers.cache.sregsChanged = false ∨ s.copiedValue m = value
  | .run _ => True

end KvmMsrOp

/-- The guest leaves the shared values alone. -/
def KeepsSharedMSRs (guest : KvmGuest) : Prop :=
  ∀ files (m : SharedMSR), m.get (guest files).files.sregs = m.get files.sregs

/-- All calls but `KVM_RUN` succeed from here on, and copies that are out of date have no change of
the special registers left to store. -/
structure Settled (s : KvmMsrState) : Prop where
  answers : s.registers.kernel.answers = []
  clean : s.registers.cache.regsDirty = true → s.registers.cache.sregsChanged = false

/-- An operation reads what was last written, and the next `KVM_RUN` after it gets that too. -/
def Faithful (s : KvmMsrState) (values : SharedMSR → U64) (op : KvmMsrOp) : Prop :=
  op.ReadsLast values (s.perform op).1 ∧
    ∀ m, (s.perform op).2.nextRunValue m = (op.written m).getD (values m)

section Operations

variable {s : KvmMsrState} {values : SharedMSR → U64}

theorem answer_of_settled (h : Settled s) :
    s.registers.kernel.answer = (true, s.registers.kernel) := by
  simp [KvmKernel.answer, h.answers]

theorem nextRunValue_of_changed (h : s.registers.cache.sregsChanged = true) (m : SharedMSR) :
    s.nextRunValue m = s.copiedValue m := by
  rw [KvmMsrState.nextRunValue, pending_of_changed h]
  rfl

theorem nextRunValue_of_unchanged (h : s.registers.cache.sregsChanged = false) (m : SharedMSR) :
    s.nextRunValue m = s.kernelValue m := by
  rw [KvmMsrState.nextRunValue, pending_of_unchanged h]
  rfl

/-- The copy that an access reads holds what the next run gets exactly when it is up to date. -/
theorem refreshed_eq_nextRunValue_iff (h : Settled s) (m : SharedMSR) :
    m.get (s.registers.writeBack.refresh.copy .sregs) = s.nextRunValue m ↔
      KvmMsrOp.UpToDate s m := by
  cases hdirty : s.registers.cache.regsDirty with
  | true =>
    have hcopy : s.registers.writeBack.refresh.copy = s.registers.writeBack.backing := by
      simp [WriteBack.refresh, KvmRegisterState.writeBack, hdirty]
    refine iff_of_true ?_ (.inl hdirty)
    rw [hcopy, nextRunValue_of_unchanged (h.clean hdirty)]
    rfl
  | false =>
    rw [refresh_of_not_stale hdirty]
    cases hchanged : s.registers.cache.sregsChanged with
    | true =>
      refine iff_of_true ?_ (.inr (.inl hchanged))
      rw [nextRunValue_of_changed hchanged]
      rfl
    | false =>
      rw [nextRunValue_of_unchanged hchanged]
      simp only [KvmMsrOp.UpToDate, hdirty, hchanged, Bool.false_eq_true, false_or]
      rfl

/-- Where no other value waits to be stored, the kernel's value is the one the next run gets. -/
theorem kernelValue_eq_nextRunValue_iff (s : KvmMsrState) (m : SharedMSR) :
    s.kernelValue m = s.nextRunValue m ↔
      s.registers.cache.sregsChanged = false ∨ s.copiedValue m = s.kernelValue m := by
  cases hchanged : s.registers.cache.sregsChanged with
  | false =>
    exact iff_of_true (nextRunValue_of_unchanged hchanged m).symm (.inl rfl)
  | true =>
    rw [nextRunValue_of_changed hchanged]
    simp only [Bool.true_eq_false, false_or]
    exact eq_comm

/-- The state after an access that succeeds: the copies are fetched if need be, then accessed. -/
theorem access_of_settled (h : Settled s) (a : HostAccess) (hplain : PlainAccess a) :
    ∃ c, s.registers.access a = ((c.access a).1, { s.registers with cache := (c.access a).2 }) ∧
      KvmRegisterState.writeBack { s.registers with cache := c } =
        s.registers.writeBack.refresh := by
  obtain ⟨c, hrefresh, hwriteBack⟩ := refreshRegisters_of_answers h.answers
  refine ⟨c, ?_, hwriteBack⟩
  cases a <;> first | exact absurd hplain id | simp only [KvmRegisterState.access, hrefresh]

theorem pending_refresh_sregs (h : Settled s) :
    s.registers.writeBack.refresh.pending .sregs = s.registers.writeBack.pending .sregs :=
  pending_refresh h.clean

theorem regsDirty_of_refreshed {c : KvmRegisterCache}
    (h : KvmRegisterState.writeBack { s.registers with cache := c } =
      s.registers.writeBack.refresh) : c.regsDirty = false := by
  have hstale := congrArg WriteBack.stale h
  rwa [stale_refresh] at hstale

theorem access_regRead (c : KvmRegisterCache) (m : SharedMSR) (value : RegValue) :
    (c.access (.regRead m.reg value)).1 =
      (.OK, .values [registerLoad .sregs m.reg value c.files.sregs]) := by
  cases m <;> rfl

theorem regRead_faithful_iff (h : Settled s) (hvalues : ∀ m, s.nextRunValue m = values m)
    (reg : Reg) (value : RegValue) :
    Settled (s.perform (.regRead reg value)).2 ∧
      (Faithful s values (.regRead reg value) ↔ (KvmMsrOp.regRead reg value).KeepsViews s) := by
  obtain ⟨c, haccess, hwriteBack⟩ := access_of_settled h (.regRead reg value) trivial
  have hperform : s.perform (.regRead reg value) =
      (.access (c.access (.regRead reg value)).1, { s with registers.cache := c }) := by
    simp only [KvmMsrState.perform, haccess]
    rfl
  have hnext : ∀ m, KvmMsrState.nextRunValue { s with registers.cache := c } m = values m := by
    intro m
    rw [← hvalues m, KvmMsrState.nextRunValue, KvmMsrState.nextRunValue, hwriteBack,
      pending_refresh_sregs h]
  have hcopy : c.files.sregs = s.registers.writeBack.refresh.copy .sregs := by
    rw [← hwriteBack]
    rfl
  refine ⟨⟨?_, ?_⟩, ?_⟩
  · rw [hperform]
    exact h.answers
  · rw [hperform]
    intro hdirty
    rw [regsDirty_of_refreshed hwriteBack] at hdirty
    cases hdirty
  · rw [Faithful, hperform]
    simp only [KvmMsrOp.ReadsLast, KvmMsrOp.written, Option.getD_none, KvmMsrOp.KeepsViews]
    rw [and_iff_left hnext]
    refine forall_congr' fun m => forall_congr' fun hm => ?_
    subst hm
    rw [← refreshed_eq_nextRunValue_iff h, hvalues m, ← hcopy, access_regRead]
    constructor
    · rintro ⟨v, hv, hlast⟩
      obtain rfl : registerLoad .sregs m.reg value c.files.sregs = v := by simpa using hv
      rw [← (m.ofValue_registerLoad value c.files.sregs).2, hlast]
    · intro hread
      exact ⟨_, rfl, by rw [(m.ofValue_registerLoad value c.files.sregs).2, hread]⟩

/-- What the next run gets after a register write. -/
theorem nextRunValue_regWrite (h : Settled s) {c : KvmRegisterCache}
    (hwriteBack : KvmRegisterState.writeBack { s.registers with cache := c } =
      s.registers.writeBack.refresh) (reg : Reg) (value : RegValue) (m : SharedMSR) :
    KvmMsrState.nextRunValue { s with registers.cache := (kvmRegWrite c reg value).2 } m =
      if registerFile reg = some .sregs then
        if reg = m.reg then m.stored value
        else m.get (s.registers.writeBack.refresh.copy .sregs)
      else s.nextRunValue m := by
  rcases kvmRegWrite_spec reg value with ⟨hfile, hw⟩ | ⟨i, hfile, hw⟩
  · rw [hw c, hfile, if_neg (by simp), KvmMsrState.nextRunValue, hwriteBack,
      pending_refresh_sregs h]
    rfl
  · have hmodify : KvmRegisterState.writeBack
        { s.registers with cache := c.modify i (registerEdit i reg value) } =
          s.registers.writeBack.refresh.modify i (registerEdit i reg value) := by
      rw [← hwriteBack]
      exact writeBack_modify c s.registers.kernel i _
    rw [hw c, hfile, KvmMsrState.nextRunValue, hmodify]
    by_cases hi : i = .sregs
    · subst hi
      rw [if_pos rfl, pending_modify, SharedMSR.get_registerEdit]
    · rw [if_neg (by simpa using hi), pending_modify_of_ne _ (Ne.symm hi), pending_refresh_sregs h]
      rfl

theorem regWrite_faithful_iff (h : Settled s) (hvalues : ∀ m, s.nextRunValue m = values m)
    (reg : Reg) (value : RegValue) :
    Settled (s.perform (.regWrite reg value)).2 ∧
      (Faithful s values (.regWrite reg value) ↔ (KvmMsrOp.regWrite reg value).KeepsViews s) := by
  obtain ⟨c, haccess, hwriteBack⟩ := access_of_settled h (.regWrite reg value) trivial
  have hperform : s.perform (.regWrite reg value) =
      (.access ((kvmRegWrite c reg value).1, .nothing),
        { s with registers.cache := (kvmRegWrite c reg value).2 }) := by
    simp only [KvmMsrState.perform, haccess]
    rfl
  have hclean : (kvmRegWrite c reg value).2.regsDirty = false := by
    have hfresh := regsDirty_of_refreshed hwriteBack
    rcases kvmRegWrite_spec reg value with ⟨-, hw⟩ | ⟨i, -, hw⟩
    · rw [hw c]
      exact hfresh
    · rw [hw c]
      exact (regsDirty_modify c i _).trans hfresh
  refine ⟨⟨?_, ?_⟩, ?_⟩
  · rw [hperform]
    exact h.answers
  · rw [hperform]
    intro hdirty
    rw [hclean] at hdirty
    cases hdirty
  · rw [Faithful, hperform]
    simp only [KvmMsrOp.ReadsLast, KvmMsrOp.written, KvmMsrOp.KeepsViews, true_and,
      nextRunValue_regWrite h hwriteBack]
    by_cases hfile : registerFile reg = some .sregs
    · simp only [hfile, if_true, forall_const]
      refine forall_congr' fun m => ?_
      by_cases hm : reg = m.reg
      · simp only [hm, if_true, Option.getD_some]
      · simp only [hm, if_false, Option.getD_none, ← hvalues m, refreshed_eq_nextRunValue_iff h]
    · -- a register of another file is not one of those that hold a shared value
      have hother : ∀ m : SharedMSR, reg ≠ m.reg := by
        rintro m rfl
        exact hfile (m.ofValue_registerLoad value default).1
      simp only [hfile, if_false, hother, Option.getD_none, hvalues, implies_true,
        false_implies]

theorem getMSR_faithful_iff (h : Settled s) (hvalues : ∀ m, s.nextRunValue m = values m)
    (msr value : U64) :
    Settled (s.perform (.getMSR msr value)).2 ∧
      (Faithful s values (.getMSR msr value) ↔ (KvmMsrOp.getMSR msr value).KeepsViews s) := by
  have hperform : s.perform (.getMSR msr value) = (.msr .OK (s.readMSR (msr.setWidth 32)), s) := by
    simp only [KvmMsrState.perform, KvmMsrState.getMSR, answer_of_settled h]
    rfl
  rw [Faithful, hperform]
  refine ⟨h, ?_⟩
  simp only [KvmMsrOp.ReadsLast, KvmMsrOp.written, Option.getD_none, KvmMsrOp.KeepsViews]
  rw [and_iff_left hvalues]
  refine forall_congr' fun m => forall_congr' fun hm => ?_
  have hread : s.readMSR (msr.setWidth 32) = s.kernelValue m := by
    simp only [KvmMsrState.readMSR, hm]
    rfl
  rw [hread, ← hvalues m, ← kernelValue_eq_nextRunValue_iff, and_iff_right trivial]

/-- What the next run gets after a write of a shared register through its index. -/
theorem nextRunValue_writeMSR (s : KvmMsrState) {index : U32} {m : SharedMSR}
    (hm : SharedMSR.ofIndex index = some m) (value : U64) (n : SharedMSR) :
    (s.writeMSR index value).nextRunValue n =
      if s.registers.cache.sregsChanged then s.copiedValue n
      else if n = m then value else s.kernelValue n := by
  have hwriteBack : (s.writeMSR index value).registers.writeBack =
      s.registers.writeBack.editBacking .sregs (m.set value) := by
    simp only [KvmMsrState.writeMSR, hm]
    ext i
    · cases i <;> rfl
    · rfl
    · rfl
    · rfl
  have hflag : s.registers.writeBack.changed .sregs = s.registers.cache.sregsChanged := rfl
  rw [KvmMsrState.nextRunValue, hwriteBack, pending_editBacking, hflag]
  cases s.registers.cache.sregsChanged with
  | true => rfl
  | false => exact SharedMSR.get_set m n value s.registers.kernel.files.sregs

theorem setMSR_faithful_iff (h : Settled s) (hvalues : ∀ m, s.nextRunValue m = values m)
    (msr value : U64) :
    Settled (s.perform (.setMSR msr value)).2 ∧
      (Faithful s values (.setMSR msr value) ↔ (KvmMsrOp.setMSR msr value).KeepsViews s) := by
  have hperform : s.perform (.setMSR msr value) =
      (.msr .OK value, s.writeMSR (msr.setWidth 32) value) := by
    simp only [KvmMsrState.perform, KvmMsrState.setMSR, answer_of_settled h]
    rfl
  rw [Faithful, hperform]
  simp only [KvmMsrOp.ReadsLast, KvmMsrOp.written, KvmMsrOp.KeepsViews, true_and]
  cases hm : SharedMSR.ofIndex (msr.setWidth 32) with
  | none =>
    have hwrite : s.writeMSR (msr.setWidth 32) value =
        { s with otherMSRs := Function.update s.otherMSRs (msr.setWidth 32) value } := by
      simp only [KvmMsrState.writeMSR, hm]
    rw [hwrite]
    have hnone : ∀ n, none = some n →
        s.registers.cache.sregsChanged = false ∨ s.copiedValue n = value := by
      simp
    refine ⟨⟨h.answers, h.clean⟩, iff_of_true (fun n => ?_) hnone⟩
    simp only [reduceCtorEq, if_false, Option.getD_none]
    exact hvalues n
  | some m =>
    refine ⟨?_, ?_⟩
    · simp only [KvmMsrState.writeMSR, hm]
      exact ⟨h.answers, h.clean⟩
    · simp only [nextRunValue_writeMSR s hm, Option.some.injEq, forall_eq']
      cases hchanged : s.registers.cache.sregsChanged with
      | true =>
        have hcopied (n : SharedMSR) : s.copiedValue n = values n := by
          rw [← hvalues n, nextRunValue_of_changed hchanged]
        simp only [if_true, Bool.true_eq_false, false_or]
        constructor
        · intro hall
          simpa using hall m
        · intro hvalue n
          by_cases hn : m = n
          · rw [← hn, if_pos rfl, hvalue, Option.getD_some]
          · rw [if_neg hn, hcopied n, Option.getD_none]
      | false =>
        have hkernel (n : SharedMSR) : s.kernelValue n = values n := by
          rw [← hvalues n, nextRunValue_of_unchanged hchanged]
        refine iff_of_true (fun n => ?_) (.inl rfl)
        by_cases hn : m = n
        · simp [hn]
        · simp [hn, Ne.symm hn, hkernel n]

theorem run_faithful (h : Settled s) (hvalues : ∀ m, s.nextRunValue m = values m)
    {guest : KvmGuest} (hguest : KeepsSharedMSRs guest) :
    Settled (s.perform (.run guest)).2 ∧ Faithful s values (.run guest) := by
  obtain ⟨s', hupdate, hwriteBack, hanswers, -⟩ := updateRegisters_of_answers h.answers
  have hflushed : s'.cache.sregsChanged = false := by
    have hchanged := congrArg (fun c => c.changed .sregs) hwriteBack
    exact hchanged
  have hfiles : ∀ m : SharedMSR, m.get s'.kernel.files.sregs = values m := by
    intro m
    have hbacking := congrArg (fun c => m.get (c.backing .sregs)) hwriteBack
    rw [← hvalues m]
    exact hbacking
  have hperform : ∃ ok dirty, s.perform (.run guest) = (.run ok, { s with
      registers := { s'.enterGuest guest with
        cache := { s'.cache with regsDirty := dirty } } }) := by
    simp only [KvmMsrState.perform, KvmRegisterState.runGuest, hupdate]
    split_ifs
    · exact ⟨true, true, rfl⟩
    · exact ⟨false, s'.cache.regsDirty, rfl⟩
  obtain ⟨ok, dirty, hperform⟩ := hperform
  rw [Faithful, hperform]
  refine ⟨⟨hanswers, fun _ => hflushed⟩, trivial, fun m => ?_⟩
  rw [nextRunValue_of_unchanged hflushed]
  exact (hguest s'.kernel.files m).trans (hfiles m)

end Operations

/-- One operation keeps the views together exactly when its condition holds before it. -/
theorem faithful_iff {s : KvmMsrState} {values : SharedMSR → U64} (h : Settled s)
    (hvalues : ∀ m, s.nextRunValue m = values m) (op : KvmMsrOp)
    (hguest : ∀ guest, op = .run guest → KeepsSharedMSRs guest) :
    Settled (s.perform op).2 ∧ (Faithful s values op ↔ op.KeepsViews s) := by
  cases op with
  | regRead reg value => exact regRead_faithful_iff h hvalues reg value
  | regWrite reg value => exact regWrite_faithful_iff h hvalues reg value
  | getMSR msr value => exact getMSR_faithful_iff h hvalues msr value
  | setMSR msr value => exact setMSR_faithful_iff h hvalues msr value
  | run guest =>
    obtain ⟨hsettled, hfaithful⟩ := run_faithful h hvalues (hguest guest rfl)
    exact ⟨hsettled, iff_of_true hfaithful trivial⟩

/-- Every operation of a run reads what was last written through either view, and after each of
them the next `KVM_RUN` gets that. -/
def FaithfulRun (s : KvmMsrState) (values : SharedMSR → U64) (ops : List KvmMsrOp) : Prop :=
  ∀ before op after, ops = before ++ op :: after →
    op.ReadsLast (KvmMsrOp.lastWritten values before)
        ((runAll KvmMsrState.perform s before).2.perform op).1 ∧
      ∀ m, (runAll KvmMsrState.perform s (before ++ [op])).2.nextRunValue m =
        KvmMsrOp.lastWritten values (before ++ [op]) m

theorem faithfulRun_cons_iff (s : KvmMsrState) (values : SharedMSR → U64) (op : KvmMsrOp)
    (ops : List KvmMsrOp) :
    FaithfulRun s values (op :: ops) ↔ Faithful s values op ∧
      FaithfulRun (s.perform op).2 (fun m => (op.written m).getD (values m)) ops := by
  constructor
  · intro h
    refine ⟨h [] op ops rfl, fun before op' after hops => ?_⟩
    exact h (op :: before) op' after (by rw [hops, List.cons_append])
  · rintro ⟨hfirst, hrest⟩ before op' after hops
    cases before with
    | nil =>
      obtain ⟨rfl, rfl⟩ := List.cons.inj hops
      exact hfirst
    | cons first before =>
      obtain ⟨rfl, htail⟩ := List.cons.inj hops
      exact hrest before op' after htail

theorem faithfulRun_iff {s : KvmMsrState} {values : SharedMSR → U64} (h : Settled s)
    (hvalues : ∀ m, s.nextRunValue m = values m) {ops : List KvmMsrOp}
    (hguests : ∀ guest, .run guest ∈ ops → KeepsSharedMSRs guest) :
    FaithfulRun s values ops ↔
      Along KvmMsrState.perform (fun s op => op.KeepsViews s) s ops := by
  induction ops generalizing s values with
  | nil => exact iff_of_true (fun before op after hops => by simp at hops) trivial
  | cons op ops ih =>
    obtain ⟨hsettled, hiff⟩ := faithful_iff h hvalues op
      (fun guest hop => hguests guest (by rw [← hop]; exact List.mem_cons_self))
    rw [faithfulRun_cons_iff, Along, ← hiff]
    refine and_congr_right fun hfaithful => ?_
    exact ih hsettled hfaithful.2 (fun guest hg => hguests guest (List.mem_cons_of_mem _ hg))

end Kvm

open Kvm

/-- From the creation of a processor on, with calls that succeed and guests that leave the shared
registers alone, both views of a shared register stay together if and only if every operation meets
the condition `KeepsViews` in the state it is performed in. -/
theorem msr_views_agree_iff {D : Type} (debugRegs : KvmDebugregs) (exits : KvmExits D)
    (kernel : KvmKernel) (hanswers : kernel.answers = []) (otherMSRs : U32 → U64)
    (ops : List KvmMsrOp) (hguests : ∀ guest, .run guest ∈ ops → KeepsSharedMSRs guest) :
    FaithfulRun ⟨(KvmVirtualProcessor.create debugRegs exits kernel).registers, otherMSRs⟩
        (fun m => m.get kernel.files.sregs) ops ↔
      Along KvmMsrState.perform (fun s op => op.KeepsViews s)
        ⟨(KvmVirtualProcessor.create debugRegs exits kernel).registers, otherMSRs⟩ ops :=
  faithfulRun_iff ⟨hanswers, fun _ => rfl⟩ (fun _ => rfl) hguests

theorem msr_views_agree_reset :
    let ops : List KvmMsrOp := [.run idleGuest, .setMSR 0xC0000080 0x500, .regRead .EFER 0]
    let vp := KvmVirtualProcessor.create default idleExits resetKernel
    FaithfulRun ⟨vp.registers, fun _ => 0⟩ (fun m => m.get resetKernel.files.sregs) ops ↔
      Along KvmMsrState.perform (fun s op => op.KeepsViews s) ⟨vp.registers, fun _ => 0⟩ ops := by
  refine msr_views_agree_iff default idleExits resetKernel rfl (fun _ => 0) _ ?_
  intro guest hguest
  simp only [List.mem_cons, reduceCtorEq, List.not_mem_nil, or_false, KvmMsrOp.run.injEq] at hguest
  subst hguest
  exact fun _ _ => rfl

/-- After a run the host reads `CR0`, sets `EFER` through its index and writes `CR0`: the write
takes the copy of the special registers with it, and after the next run `EFER` is as before. -/
theorem setMSR_undone_by_CR0_write :
    let ops : List KvmMsrOp := [.run idleGuest, .regRead .CR0 0, .setMSR 0xC0000080 0x500,
      .regWrite .CR0 1, .run idleGuest]
    let vp := KvmVirtualProcessor.create default idleExits resetKernel
    KvmMsrOp.lastWritten (fun m => m.get resetKernel.files.sregs) ops .EFER = 0x500 ∧
      ((runAll KvmMsrState.perform ⟨vp.registers, fun _ => 0⟩ ops).2.perform
        (.getMSR 0xC0000080 0)).1 = .msr .OK 0 :=
  ⟨rfl, rfl⟩

end Virt86
