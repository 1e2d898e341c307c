import Virt86.KvmProcessor
import Virt86.Simulations
import Virt86.WriteBackCaches

/-!
# The register copies of the KVM processor against direct access

The copies are a write-back cache of the kernel's register files. They agree with direct access
from the first `KVM_RUN` on; before it the constructor has left them in a state that claims to be
fresh.
-/

namespace Virt86

namespace Kvm

open WriteBack

/-! ## Files by index -/

theorem KvmRegisterFiles.ext_get {f g : KvmRegisterFiles} (h : ∀ i, f.get i = g.get i) :
    f = g := by
  have hregs : f.regs = g.regs := h .regs
  have hsregs : f.sregs = g.sregs := h .sregs
  have hdebug : f.debugRegs = g.debugRegs := h .debugRegs
  have hfpu : f.fpuRegs = g.fpuRegs := h .fpuRegs
  cases f
  cases g
  simp_all

/-- The copies and the kernel's files as a write-back cache. -/
def KvmRegisterState.writeBack (s : KvmRegisterState) : WriteBack KvmFile.Data where
  backing := s.kernel.files.get
  copy := s.cache.files.get
  stale := s.cache.regsDirty
  changed := s.cache.changed

theorem get_modify (c : KvmRegisterCache) (i : KvmFile) (edit : i.Data → i.Data) :
    (c.modify i edit).files.get = Function.update c.files.get i (edit (c.files.get i)) := by
  funext j
  cases i <;> cases j <;> rfl

theorem changed_modify (c : KvmRegisterCache) (i : KvmFile) (edit : i.Data → i.Data) :
    (c.modify i edit).changed = Function.update c.changed i true := by
  funext j
  cases i <;> cases j <;> rfl

theorem writeBack_modify (c : KvmRegisterCache) (kernel : KvmKernel) (i : KvmFile)
    (edit : i.Data → i.Data) :
    KvmRegisterState.writeBack ⟨c.modify i edit, kernel⟩ =
      (KvmRegisterState.writeBack ⟨c, kernel⟩).modify i edit := by
  simp only [KvmRegisterState.writeBack, get_modify, changed_modify, regsDirty_modify]
  rfl

/-! ## Calls that succeed -/

section Success

variable {s : KvmRegisterState} (hanswers : s.kernel.answers = [])

include hanswers

theorem refreshRegisters_of_answers :
    ∃ c, s.refreshRegisters = (true, { s with cache := c }) ∧
      KvmRegisterState.writeBack { s with cache := c } = s.writeBack.refresh := by
  cases hdirty : s.cache.regsDirty with
  | false =>
    refine ⟨s.cache, ?_, ?_⟩
    · simp [KvmRegisterState.refreshRegisters, hdirty]
    · rw [refresh_of_not_stale]
      exact hdirty
  | true =>
    refine ⟨{ s.cache with files := s.kernel.files, regsDirty := false }, ?_, ?_⟩
    · simp [KvmRegisterState.refreshRegisters, hdirty, KvmRegisterState.forFiles, allFiles,
        KvmRegisterState.fetchFile, KvmKernel.answer, hanswers, KvmRegisterFiles.set,
        KvmRegisterFiles.get]
    · simp only [WriteBack.refresh, KvmRegisterState.writeBack, hdirty, if_true]
      rfl

theorem storeFile_of_answers (i : KvmFile) : s.storeFile i = (true,
    { cache := s.cache.clearChanged i
      kernel := { s.kernel with
        files := s.kernel.files.set i (s.writeBack.flush.backing i) } }) := by
  cases hchanged : s.cache.changed i with
  | true =>
    simp [KvmRegisterState.storeFile, KvmKernel.answer, hanswers, hchanged, WriteBack.flush,
      KvmRegisterState.writeBack]
  | false =>
    have hclear : s.cache.clearChanged i = s.cache := by
      cases hc : s.cache
      cases i <;> simp_all [KvmRegisterCache.clearChanged, KvmRegisterCache.changed]
    have hset : s.kernel.files.set i (s.kernel.files.get i) = s.kernel.files := by
      cases i <;> rfl
    simp [KvmRegisterState.storeFile, hchanged, WriteBack.flush, KvmRegisterState.writeBack,
      hclear, hset]

theorem updateRegisters_of_answers :
    ∃ s', s.updateRegisters = (true, s') ∧ s'.writeBack = s.writeBack.flush ∧
      s'.kernel.answers = [] ∧ s'.kernel.entered = s.kernel.entered := by
  simp only [KvmRegisterState.updateRegisters, KvmRegisterState.forFiles, allFiles,
    storeFile_of_answers, hanswers]
  refine ⟨_, rfl, ?_, rfl, rfl⟩
  ext i
  · cases i <;> rfl
  · cases i <;> rfl
  · rfl
  · cases i <;> rfl

end Success

/-! ## Direct access -/

/-- The kernel's register files without copies, and the files of each `KVM_RUN` so far. -/
structure UncachedRegisters where
  files : KvmRegisterFiles
  entered : List KvmRegisterFiles

namespace UncachedRegisters

def access (u : UncachedRegisters) (a : HostAccess) : AccessResult × UncachedRegisters :=
  let c : KvmRegisterCache := { (default : KvmRegisterCache) with files := u.files }
  ((c.access a).1, { u with files := (c.access a).2.files })

def accessAll (u : UncachedRegisters) (accesses : List HostAccess) : UncachedRegisters :=
  accesses.foldl (fun u a => (u.access a).2) u

def enterGuest (u : UncachedRegisters) (guest : KvmGuest) : UncachedRegisters where
  files := (guest u.files).files
  entered := u.files :: u.entered

end UncachedRegisters

/-- A processor that goes straight to the kernel's register files. -/
structure UncachedProcessor (D : Type) where
  registers : UncachedRegisters
  exits : KvmExits D

namespace UncachedProcessor

variable {D : Type}

def handleExecResult (u : UncachedProcessor D) : VPExecutionStatus × UncachedProcessor D :=
  let (accesses, exits) := u.exits.handleExit
  (.OK, { registers := u.registers.accessAll accesses, exits })

def run (u : UncachedProcessor D) (guest : KvmGuest) : VPExecutionStatus × UncachedProcessor D :=
  let answer := guest u.registers.files
  let u' : UncachedProcessor D :=
    { registers := u.registers.enterGuest guest
      exits := { u.exits with kvmRun := answer.kvmRun } }
  if answer.ok then u'.handleExecResult else (.Failed, u')

def step (u : UncachedProcessor D) (guest : KvmGuest) : VPExecutionStatus × UncachedProcessor D :=
  let (status, u) := u.run guest
  if status = .OK then
    let (result, u) := u.handleExecResult
    (result, if u.exits.exitInfo.reason = .SoftwareBreakpoint then
      { u with exits := u.exits.setReason .Step } else u)
  else (status, u)

def perform (u : UncachedProcessor D) : KvmOp → KvmOpResult × UncachedProcessor D
  | .access a => (.inl (u.registers.access a).1, { u with registers := (u.registers.access a).2 })
  | .run guest => (.inr (u.run guest).1, (u.run guest).2)
  | .step guest => (.inr (u.step guest).1, (u.step guest).2)

end UncachedProcessor

/-! ## Accesses -/

/-- The files of the registers that a bulk access reaches: it ends at the first register that is
not supported. -/
def reachedFiles : List Reg → List KvmFile
  | [] => []
  | reg :: rest =>
    match registerFile reg with
    | some i => i :: reachedFiles rest
    | none => []

/-- The files an access reads or writes. -/
def accessFiles (a : HostAccess) : List KvmFile :=
  match a with
  | .regRead .. | .regWrite .. | .regReadBulk _ | .regWriteBulk _ => reachedFiles a.registers
  | .getFPUControl _ | .setFPUControl _ | .getMXCSR _ | .setMXCSR _ => [.fpuRegs]
  | .getMXCSRMask _ | .setMXCSRMask _ => []

/-- The register accesses and those of `MXCSR`. -/
def PlainAccess : HostAccess → Prop
  | .regRead .. | .regWrite .. | .regReadBulk _ | .regWriteBulk _ | .getMXCSR _ | .setMXCSR _ =>
    True
  | _ => False

theorem kvmRegRead_congr {f g : KvmRegisterFiles} {reg : Reg}
    (h : ∀ i, registerFile reg = some i → f.get i = g.get i) (value : RegValue) :
    kvmRegRead f reg value = kvmRegRead g reg value := by
  rcases kvmRegRead_spec reg value with ⟨_, hread⟩ | ⟨i, hi, hread⟩
  · rw [hread f, hread g]
  · rw [hread f, hread g, h i hi]

theorem regReadLoop_congr {f g : KvmRegisterFiles} {regs : List (Reg × RegValue)}
    (h : ∀ i ∈ reachedFiles (regs.map Prod.fst), f.get i = g.get i) :
    KvmRegisterCache.regReadLoop f regs = KvmRegisterCache.regReadLoop g regs := by
  induction regs with
  | nil => rfl
  | cons entry rest ih =>
    obtain ⟨reg, value⟩ := entry
    simp only [KvmRegisterCache.regReadLoop]
    rcases kvmRegRead_spec reg value with ⟨_, hread⟩ | ⟨i, hi, hread⟩
    · rw [hread f, hread g]
    · simp only [List.map_cons, reachedFiles, hi, List.mem_cons, forall_eq_or_imp] at h
      rw [hread f, hread g, h.1, ih h.2]

section Agreement

variable {A : Set KvmFile} {c d : KvmRegisterCache} {kernel : KvmKernel}

/-- The two caches agree on `A` and the first is fresh: `d` stands for direct access. -/
structure CacheAgrees (A : Set KvmFile) (kernel : KvmKernel) (c d : KvmRegisterCache) : Prop where
  agrees : (KvmRegisterState.writeBack ⟨c, kernel⟩).Agrees A d.files.get
  fresh : c.regsDirty = false

theorem CacheAgrees.get_eq (h : CacheAgrees A kernel c d) {i : KvmFile} (hi : i ∈ A) :
    c.files.get i = d.files.get i :=
  h.agrees.copied h.fresh i hi

theorem CacheAgrees.modify (h : CacheAgrees A kernel c d) {i : KvmFile} (hi : i ∈ A)
    (edit : i.Data → i.Data) : CacheAgrees A kernel (c.modify i edit) (d.modify i edit) where
  agrees := by
    rw [writeBack_modify, get_modify]
    exact h.agrees.modify h.fresh hi edit
  fresh := by rw [regsDirty_modify, h.fresh]

theorem CacheAgrees.regWriteLoop {regs : List (Reg × RegValue)} :
    ∀ {c d : KvmRegisterCache}, CacheAgrees A kernel c d →
      (∀ i ∈ reachedFiles (regs.map Prod.fst), i ∈ A) →
      (c.regWriteLoop regs).1 = (d.regWriteLoop regs).1 ∧
        CacheAgrees A kernel (c.regWriteLoop regs).2 (d.regWriteLoop regs).2 := by
  induction regs with
  | nil =>
    intro c d h _
    exact ⟨rfl, h⟩
  | cons entry rest ih =>
    intro c d h hwithin
    obtain ⟨reg, value⟩ := entry
    simp only [KvmRegisterCache.regWriteLoop]
    rcases kvmRegWrite_spec reg value with ⟨_, hwrite⟩ | ⟨i, hi, hwrite⟩
    · rw [hwrite c, hwrite d]
      exact ⟨rfl, h⟩
    · simp only [List.map_cons, reachedFiles, hi, List.mem_cons, forall_eq_or_imp] at hwithin
      rw [hwrite c, hwrite d]
      exact ih (h.modify hwithin.1 _) hwithin.2

/-- An access within the files that agree has the result of direct access. -/
theorem CacheAgrees.access (h : CacheAgrees A kernel c d) {a : HostAccess} (hplain : PlainAccess a)
    (hwithin : ∀ i ∈ accessFiles a, i ∈ A) :
    (c.access a).1 = (d.access a).1 ∧ CacheAgrees A kernel (c.access a).2 (d.access a).2 := by
  have hget : ∀ i ∈ accessFiles a, c.files.get i = d.files.get i := fun i hi =>
    h.get_eq (hwithin i hi)
  cases a with
  | regRead reg value =>
    have hread : kvmRegRead c.files reg value = kvmRegRead d.files reg value := by
      apply kvmRegRead_congr
      intro i hi
      exact hget i (by simp [accessFiles, HostAccess.registers, reachedFiles, hi])
    simp only [KvmRegisterCache.access, hread]
    exact ⟨trivial, h⟩
  | regWrite reg value =>
    simp only [KvmRegisterCache.access]
    rcases kvmRegWrite_spec reg value with ⟨_, hwrite⟩ | ⟨i, hi, hwrite⟩
    · rw [hwrite c, hwrite d]
      exact ⟨rfl, h⟩
    · rw [hwrite c, hwrite d]
      exact ⟨rfl, h.modify (hwithin i
        (by simp [accessFiles, HostAccess.registers, reachedFiles, hi])) _⟩
  | regReadBulk regs =>
    simp only [KvmRegisterCache.access, regReadLoop_congr hget]
    exact ⟨trivial, h⟩
  | regWriteBulk regs =>
    obtain ⟨hstatus, hagrees⟩ := h.regWriteLoop hwithin
    simp only [KvmRegisterCache.access, hstatus]
    exact ⟨trivial, hagrees⟩
  | getMXCSR value =>
    have hfpu : c.files.fpuRegs = d.files.fpuRegs := hget .fpuRegs List.mem_cons_self
    simp only [KvmRegisterCache.access, hfpu]
    exact ⟨trivial, h⟩
  | setMXCSR value =>
    exact ⟨rfl, h.modify (hwithin .fpuRegs List.mem_cons_self) fun f : KvmFpu =>
      { f with mxcsr := value }⟩
  | getFPUControl value => exact absurd hplain id
  | setFPUControl value => exact absurd hplain id
  | getMXCSRMask value => exact absurd hplain id
  | setMXCSRMask value => exact absurd hplain id

end Agreement

/-! ## Processors -/

/-- All calls but `KVM_RUN` succeed from here on, the files that reach the kernel at the next
`KVM_RUN` are those of direct access, and fresh copies hold them on `A`. -/
structure Matches (A : Set KvmFile) (s : KvmRegisterState) (u : UncachedRegisters) : Prop where
  answers : s.kernel.answers = []
  agrees : s.writeBack.Agrees A u.files.get
  entered : s.kernel.entered = u.entered

namespace Matches

variable {A : Set KvmFile} {s : KvmRegisterState} {u : UncachedRegisters}

theorem access (h : Matches A s u) {a : HostAccess} (hplain : PlainAccess a)
    (hwithin : ∀ i ∈ accessFiles a, i ∈ A) :
    (s.access a).1 = (u.access a).1 ∧ Matches A (s.access a).2 (u.access a).2 := by
  obtain ⟨c, hrefresh, hwriteBack⟩ := refreshRegisters_of_answers h.answers
  have hagrees : CacheAgrees A s.kernel c { (default : KvmRegisterCache) with files := u.files } :=
    { agrees := by
        rw [hwriteBack]
        exact h.agrees.refresh
      fresh := by
        have hstale := stale_refresh s.writeBack
        rwa [← hwriteBack] at hstale }
  obtain ⟨hresult, hnext⟩ := hagrees.access hplain hwithin
  have haccess : s.access a = ((c.access a).1, { s with cache := (c.access a).2 }) := by
    cases a <;> first | exact absurd hplain id | simp only [KvmRegisterState.access, hrefresh]
  rw [haccess]
  exact ⟨hresult, h.answers, hnext.agrees, h.entered⟩

theorem accessAll (h : Matches Set.univ s u) {accesses : List HostAccess}
    (hplain : ∀ a ∈ accesses, PlainAccess a) :
    Matches Set.univ (s.accessAll accesses) (u.accessAll accesses) := by
  induction accesses generalizing s u with
  | nil => exact h
  | cons a rest ih =>
    have hnext := (h.access (hplain a List.mem_cons_self) fun _ _ => trivial).2
    exact ih hnext fun b hb => hplain b (List.mem_cons_of_mem _ hb)

end Matches

/-- The kernel has the files of direct access, and there is nothing left to store. -/
structure Synced (s : KvmRegisterState) (u : UncachedRegisters) : Prop where
  answers : s.kernel.answers = []
  unchanged : s.cache.changed = fun _ => false
  files : s.kernel.files = u.files
  entered : s.kernel.entered = u.entered

/-- The flush before `KVM_RUN` makes the kernel's files those of direct access. -/
theorem Matches.updateRegisters {A : Set KvmFile} {s : KvmRegisterState} {u : UncachedRegisters}
    (h : Matches A s u) : ∃ s', s.updateRegisters = (true, s') ∧ Synced s' u := by
  obtain ⟨s', hupdate, hwriteBack, hanswers, hentered⟩ := updateRegisters_of_answers h.answers
  refine ⟨s', hupdate, hanswers, congrArg WriteBack.changed hwriteBack, ?_,
    hentered.trans h.entered⟩
  apply KvmRegisterFiles.ext_get
  intro i
  have hbacking : s'.writeBack.backing = u.files.get := by
    rw [hwriteBack, h.agrees.flushed]
  exact congrFun hbacking i

namespace Synced

variable {s : KvmRegisterState} {u : UncachedRegisters}

theorem enterGuest (h : Synced s u) (guest : KvmGuest) :
    Synced (s.enterGuest guest) (u.enterGuest guest) where
  answers := h.answers
  unchanged := h.unchanged
  files := by simp only [KvmRegisterState.enterGuest, UncachedRegisters.enterGuest, h.files]
  entered := by
    simp only [KvmRegisterState.enterGuest, UncachedRegisters.enterGuest, h.files, h.entered]

/-- With nothing left to store, copies that are out of date or hold the files agree. -/
theorem matches_of_copies (h : Synced s u)
    (hcopies : s.cache.regsDirty = true ∨ s.cache.files = u.files) : Matches Set.univ s u where
  answers := h.answers
  agrees := by
    rw [← h.files] at hcopies ⊢
    rcases hcopies with hdirty | hfiles
    · exact Agrees.of_stale hdirty fun i => congrFun h.unchanged i
    · refine Agrees.of_unchanged (fun i => congrFun h.unchanged i) fun i _ => ?_
      exact congrArg (KvmRegisterFiles.get · i) hfiles
  entered := h.entered

theorem matches_markDirty (h : Synced s u) : Matches Set.univ s.markDirty u := by
  have hsynced : Synced s.markDirty u := ⟨h.answers, h.unchanged, h.files, h.entered⟩
  exact hsynced.matches_of_copies (Or.inl rfl)

end Synced

section Exits

variable {D : Type} {P : HostAccess → Prop} {e : KvmExits D}

/-- The handlers make only accesses of `P` while an exit is handled. -/
theorem handleExit_only (hio : e.io.Only P) :
    (∀ a ∈ e.handleExit.1, P a) ∧ e.handleExit.2.io = e.io := by
  have hnone : ∀ e' : KvmExits D, e'.io = e.io →
      (∀ a ∈ (([] : List HostAccess), e').1, P a) ∧ (([] : List HostAccess), e').2.io = e.io :=
    fun e' he' => ⟨fun a ha => absurd ha List.not_mem_nil, he'⟩
  rw [KvmExits.handleExit]
  cases e.kvmRun.exit with
  | Io direction size port count =>
    exact ⟨portLoop_only hio direction size port _ _ _, rfl⟩
  | Mmio phys_addr len is_write =>
    cases is_write with
    | true => exact ⟨hio.mmioWrite _ _ _ _, rfl⟩
    | false =>
      simp only [KvmExits.handleMMIO, Bool.false_eq_true, if_false]
      split <;> exact ⟨hio.mmioRead _ _ _, rfl⟩
  | _ => exact hnone _ rfl

end Exits

theorem handleExit_silent {D : Type} {e : KvmExits D} (hio : e.io.Silent) : e.handleExit.1 = [] :=
  List.eq_nil_iff_forall_not_mem.mpr (handleExit_only hio).1

/-- The processor and the one with direct access are at the same point of the same run, in which
the handlers make only accesses of `P`. -/
structure ProcessorMatches {D : Type} (P : HostAccess → Prop) (A : Set KvmFile)
    (vp : KvmVirtualProcessor D) (u : UncachedProcessor D) : Prop where
  registers : Matches A vp.registers u.registers
  exits : vp.exits = u.exits
  handlers : vp.exits.io.Only P

/-- The same between the flush and the handling of the exit. -/
structure ProcessorSynced {D : Type} (P : HostAccess → Prop) (vp : KvmVirtualProcessor D)
    (u : UncachedProcessor D) : Prop where
  registers : Synced vp.registers u.registers
  exits : vp.exits = u.exits
  handlers : vp.exits.io.Only P

section Engines

variable {D : Type}

def UncachedProcessor.engine : RunEngine (UncachedProcessor D) KvmGuest where
  prepare u := (true, u)
  enter guest u :=
    ((guest u.registers.files).ok,
      { registers := u.registers.enterGuest guest
        exits := { u.exits with kvmRun := (guest u.registers.files).kvmRun } })
  handle u := u.handleExecResult.2
  singleStep _ u := (true, u)
  finish u := if u.exits.exitInfo.reason = .SoftwareBreakpoint then
    { u with exits := u.exits.setReason .Step } else u

theorem uncached_run_eq (u : UncachedProcessor D) (guest : KvmGuest) :
    u.run guest = (executionStatus (UncachedProcessor.engine.run guest u).1,
      (UncachedProcessor.engine.run guest u).2) ∧
      (UncachedProcessor.engine.run guest u).1 = (guest u.registers.files).ok := by
  simp only [UncachedProcessor.run, RunEngine.run, UncachedProcessor.engine]
  cases (guest u.registers.files).ok with
  | false => exact ⟨rfl, rfl⟩
  | true => exact ⟨rfl, rfl⟩

theorem uncached_step_eq (u : UncachedProcessor D) (guest : KvmGuest) :
    u.step guest = (executionStatus (UncachedProcessor.engine.step guest u).1,
      (UncachedProcessor.engine.step guest u).2) ∧
      (UncachedProcessor.engine.step guest u).1 = (guest u.registers.files).ok := by
  obtain ⟨hrun, hok⟩ := uncached_run_eq u guest
  have hsingleStep : ∀ on (u : UncachedProcessor D),
      UncachedProcessor.engine.singleStep on u = (true, u) := fun _ _ => rfl
  simp only [UncachedProcessor.step, RunEngine.step, hrun, hsingleStep, hok]
  cases (guest u.registers.files).ok with
  | false => exact ⟨rfl, rfl⟩
  | true => exact ⟨rfl, rfl⟩

end Engines

section Steps

variable {D : Type} {P : HostAccess → Prop} {A : Set KvmFile} {vp : KvmVirtualProcessor D}
  {u : UncachedProcessor D}

theorem ProcessorMatches.access (h : ProcessorMatches P A vp u) {a : HostAccess}
    (hplain : PlainAccess a) (hwithin : ∀ i ∈ accessFiles a, i ∈ A) :
    (vp.perform (.access a)).1 = (u.perform (.access a)).1 ∧
      ProcessorMatches P A (vp.perform (.access a)).2 (u.perform (.access a)).2 := by
  obtain ⟨hresult, hregisters⟩ := h.registers.access hplain hwithin
  exact ⟨congrArg Sum.inl hresult, hregisters, h.exits, h.handlers⟩

theorem ProcessorMatches.prepare (h : ProcessorMatches P A vp u) :
    ∃ vp' u', KvmVirtualProcessor.engine.prepare vp = (true, vp') ∧
      UncachedProcessor.engine.prepare u = (true, u') ∧ ProcessorSynced P vp' u' := by
  obtain ⟨s', hupdate, hsynced⟩ := h.registers.updateRegisters
  refine ⟨{ vp with registers := s' }, u, ?_, rfl, hsynced, h.exits, h.handlers⟩
  simp only [KvmVirtualProcessor.engine, hupdate]

theorem ProcessorSynced.enter (h : ProcessorSynced P vp u) (guest : KvmGuest) :
    ∃ ok vp' u', KvmVirtualProcessor.engine.enter guest vp = (ok, vp') ∧
      UncachedProcessor.engine.enter guest u = (ok, u') ∧ ProcessorSynced P vp' u' := by
  refine ⟨(guest u.registers.files).ok, (KvmVirtualProcessor.engine.enter guest vp).2,
    (UncachedProcessor.engine.enter guest u).2, ?_, rfl, h.registers.enterGuest guest, ?_,
    h.handlers⟩
  · simp only [KvmVirtualProcessor.engine, h.registers.files]
  · simp only [KvmVirtualProcessor.engine, UncachedProcessor.engine, h.registers.files, h.exits]

/-- Handling an exit with nothing left to store. -/
theorem ProcessorSynced.handle (h : ProcessorSynced P vp u) (hP : ∀ a, P a → PlainAccess a) :
    ProcessorMatches P Set.univ vp.handleExecResult.2 u.handleExecResult.2 := by
  obtain ⟨honly, hkeeps⟩ := handleExit_only h.handlers
  have hmatches := h.registers.matches_markDirty.accessAll fun a ha => hP a (honly a ha)
  simp only [KvmVirtualProcessor.handleExecResult, UncachedProcessor.handleExecResult, ← h.exits]
  refine ⟨hmatches, rfl, ?_⟩
  rw [hkeeps]
  exact h.handlers

/-- With handlers that leave the registers alone there is still nothing to store afterwards. -/
theorem ProcessorSynced.handle_silent (h : ProcessorSynced (fun _ => False) vp u) :
    ProcessorSynced (fun _ => False) vp.handleExecResult.2 u.handleExecResult.2 := by
  have hmatches := h.handle fun _ => False.elim
  refine ⟨?_, hmatches.exits, hmatches.handlers⟩
  simp only [KvmVirtualProcessor.handleExecResult, UncachedProcessor.handleExecResult,
    ← h.exits, handleExit_silent h.handlers]
  exact ⟨h.registers.answers, h.registers.unchanged, h.registers.files, h.registers.entered⟩

/-- `SetDebug` leaves the registers and the exit alone. -/
theorem setDebug_of_answers (vp : KvmVirtualProcessor D)
    (hanswers : vp.registers.kernel.answers = []) :
    ∃ debug, vp.setDebug = (true, { vp with
      debug
      registers := { vp.registers with
        kernel := { vp.registers.kernel with guestDebug := debug } } }) := by
  simp only [KvmVirtualProcessor.setDebug, KvmKernel.answer, hanswers]
  exact ⟨_, rfl⟩

theorem engine_simulates (hP : ∀ a, P a → PlainAccess a) :
    RunEngine.Simulates (KvmVirtualProcessor.engine (D := D)) UncachedProcessor.engine
      (ProcessorMatches P Set.univ) (ProcessorSynced P) where
  prepare h := h.prepare
  enter guest h := h.enter guest
  handle h := h.handle hP
  startStep {vp u} h := by
    obtain ⟨debug, hdebug⟩ := setDebug_of_answers (vp.withSingleStep true) h.registers.answers
    refine ⟨_, u, hdebug, rfl, ?_, h.exits, h.handlers⟩
    exact ⟨h.registers.answers, h.registers.agrees, h.registers.entered⟩
  endStep {vp u} h := by
    obtain ⟨debug, hdebug⟩ := setDebug_of_answers (vp.withSingleStep false) h.registers.answers
    refine ⟨_, u, hdebug, rfl, ?_, h.exits, h.handlers⟩
    exact ⟨h.registers.answers, h.registers.unchanged, h.registers.files, h.registers.entered⟩
  finish {vp u} h := by
    simp only [KvmVirtualProcessor.engine, UncachedProcessor.engine, ← h.exits]
    split
    · exact ⟨h.registers, rfl, h.handlers⟩
    · exact h

/-- How an operation that runs the guest ends on both processors. -/
structure RunEnds (P : HostAccess → Prop) (ok : Bool) (op : KvmOp) (vp : KvmVirtualProcessor D)
    (u : UncachedProcessor D) : Prop where
  result : (vp.perform op).1 = (u.perform op).1
  handled : ok = true → ProcessorMatches P Set.univ (vp.perform op).2 (u.perform op).2
  failed : ok = false → ProcessorSynced P (vp.perform op).2 (u.perform op).2

/-- A run leaves all files in agreement if it succeeds. -/
theorem ProcessorMatches.run (h : ProcessorMatches P A vp u) (hP : ∀ a, P a → PlainAccess a)
    (guest : KvmGuest) : RunEnds P (guest u.registers.files).ok (.run guest) vp u := by
  obtain ⟨huncached, hok⟩ := uncached_run_eq u guest
  have hended := (engine_simulates hP).run_of_prepared h.prepare guest
  rw [← hok]
  constructor
  · simp only [KvmVirtualProcessor.perform, UncachedProcessor.perform, runImpl_eq, huncached,
      hended.result]
  · simp only [KvmVirtualProcessor.perform, UncachedProcessor.perform, runImpl_eq, huncached]
    exact hended.handled
  · simp only [KvmVirtualProcessor.perform, UncachedProcessor.perform, runImpl_eq, huncached]
    exact hended.failed

/-- So does a step when the handlers leave the registers alone. -/
theorem ProcessorMatches.step (h : ProcessorMatches (fun _ => False) Set.univ vp u)
    (guest : KvmGuest) :
    RunEnds (fun _ => False) (guest u.registers.files).ok (.step guest) vp u := by
  obtain ⟨huncached, hok⟩ := uncached_step_eq u guest
  have hended := (engine_simulates fun _ => False.elim).step ProcessorSynced.handle_silent h guest
  rw [← hok]
  constructor
  · simp only [KvmVirtualProcessor.perform, UncachedProcessor.perform, stepImpl_eq, huncached,
      hended.result]
  · simp only [KvmVirtualProcessor.perform, UncachedProcessor.perform, stepImpl_eq, huncached]
    exact hended.handled
  · simp only [KvmVirtualProcessor.perform, UncachedProcessor.perform, stepImpl_eq, huncached]
    exact hended.failed

end Steps

/-! ## Telling two files apart -/

/-- Two files that differ still differ after one of two register writes. -/
theorem exists_registerEdit_ne {i : KvmFile} {x y : i.Data} (h : x ≠ y) (value : RegValue) :
    ∃ reg, registerFile reg = some i ∧
      registerEdit i reg value x ≠ registerEdit i reg value y := by
  cases i with
  | regs =>
    have hedit : ∀ r, registerEdit .regs .RAX value r = { r with rax := value.u64 } := fun _ => rfl
    have hinj : ∀ x y : KvmRegs, x.rax = y.rax →
        registerEdit .regs .RAX value x = registerEdit .regs .RAX value y → x = y := by
      rintro ⟨⟩ ⟨⟩ hp heq
      simp_all
    rcases edit_ne_or_edit_ne (f := registerEdit .regs .RBX value) (fun _ => rfl) hinj h with
      hne | hne
    · exact ⟨.RAX, rfl, hne⟩
    · exact ⟨.RBX, rfl, hne⟩
  | sregs =>
    have hedit : ∀ r, registerEdit .sregs .CR0 value r = { r with cr0 := value.u64 } := fun _ => rfl
    have hinj : ∀ x y : KvmSregs, x.cr0 = y.cr0 →
        registerEdit .sregs .CR0 value x = registerEdit .sregs .CR0 value y → x = y := by
      rintro ⟨⟩ ⟨⟩ hp heq
      simp_all
    rcases edit_ne_or_edit_ne (f := registerEdit .sregs .CR2 value) (fun _ => rfl) hinj h with
      hne | hne
    · exact ⟨.CR0, rfl, hne⟩
    · exact ⟨.CR2, rfl, hne⟩
  | debugRegs =>
    have hedit : ∀ r, registerEdit .debugRegs .DR6 value r = { r with dr6 := value.u64 } :=
      fun _ => rfl
    have hinj : ∀ x y : KvmDebugregs, x.dr6 = y.dr6 →
        registerEdit .debugRegs .DR6 value x = registerEdit .debugRegs .DR6 value y → x = y := by
      rintro ⟨⟩ ⟨⟩ hp heq
      simp_all
    rcases edit_ne_or_edit_ne (f := registerEdit .debugRegs .DR7 value) (fun _ => rfl) hinj h with
      hne | hne
    · exact ⟨.DR6, rfl, hne⟩
    · exact ⟨.DR7, rfl, hne⟩
  | fpuRegs =>
    have hedit : ∀ r, registerEdit .fpuRegs .XMM0 value r = storeXMMRegister value 0 r :=
      fun _ => rfl
    have hinj : ∀ x y : KvmFpu, x.xmm = y.xmm →
        registerEdit .fpuRegs .XMM0 value x = registerEdit .fpuRegs .XMM0 value y → x = y := by
      rintro ⟨⟩ ⟨⟩ hp heq
      simp_all [storeXMMRegister]
    rcases edit_ne_or_edit_ne (f := registerEdit .fpuRegs .MM0 value) (fun _ => rfl) hinj h with
      hne | hne
    · exact ⟨.XMM0, rfl, hne⟩
    · exact ⟨.MM0, rfl, hne⟩

/-! ## Runs -/

section Runs

variable {D : Type}

/-- The host sees the same results, and `KVM_RUN` is entered with the same files. -/
def SameRun (vp : KvmVirtualProcessor D) (u : UncachedProcessor D) (ops : List KvmOp) : Prop :=
  (runAll KvmVirtualProcessor.perform vp ops).1 = (runAll UncachedProcessor.perform u ops).1 ∧
    (runAll KvmVirtualProcessor.perform vp ops).2.registers.kernel.entered =
      (runAll UncachedProcessor.perform u ops).2.registers.entered

/-- The accesses of `PlainAccess` and runs that succeed. -/
def PlainOp : KvmOp → Prop
  | .access a => PlainAccess a
  | .run guest => ∀ files, (guest files).ok
  | .step _ => False

/-- The accesses before the first run stay in the files of `A`. -/
def AccessesWithin (A : Set KvmFile) : List KvmOp → Prop
  | .access a :: ops => (∀ i ∈ accessFiles a, i ∈ A) ∧ AccessesWithin A ops
  | _ => True

theorem ProcessorMatches.sameRun_univ {vp : KvmVirtualProcessor D} {u : UncachedProcessor D}
    (h : ProcessorMatches PlainAccess Set.univ vp u) {ops : List KvmOp}
    (hplain : ∀ op ∈ ops, PlainOp op) : SameRun vp u ops := by
  have hstep : ∀ {vp : KvmVirtualProcessor D} {u : UncachedProcessor D} {op : KvmOp},
      PlainOp op → ProcessorMatches PlainAccess Set.univ vp u →
        (vp.perform op).1 = (u.perform op).1 ∧
        ProcessorMatches PlainAccess Set.univ (vp.perform op).2 (u.perform op).2 := by
    intro vp u op hop hmatches
    cases op with
    | access a => exact hmatches.access hop fun _ _ => trivial
    | run guest =>
      have hrun := hmatches.run (fun _ => id) guest
      exact ⟨hrun.result, hrun.handled (hop _)⟩
    | step guest => exact absurd hop id
  obtain ⟨hresults, hlast⟩ := runAll_simulates hstep hplain h
  exact ⟨hresults, hlast.registers.entered⟩

theorem ProcessorMatches.sameRun {A : Set KvmFile} {vp : KvmVirtualProcessor D}
    {u : UncachedProcessor D} (h : ProcessorMatches PlainAccess A vp u) {ops : List KvmOp}
    (hplain : ∀ op ∈ ops, PlainOp op) (hwithin : AccessesWithin A ops) : SameRun vp u ops := by
  induction ops generalizing vp u with
  | nil => exact ⟨rfl, h.registers.entered⟩
  | cons op ops ih =>
    have hop := hplain op List.mem_cons_self
    have hops : ∀ o ∈ ops, PlainOp o := fun o ho => hplain o (List.mem_cons_of_mem _ ho)
    cases op with
    | access a =>
      obtain ⟨hresult, hnext⟩ := h.access hop hwithin.1
      obtain ⟨hresults, hentered⟩ := ih hnext hops hwithin.2
      refine ⟨?_, hentered⟩
      simp only [runAll, hresult, hresults]
    | run guest =>
      have hrun := h.run (fun _ => id) guest
      obtain ⟨hresults, hentered⟩ := (hrun.handled (hop _)).sameRun_univ hops
      refine ⟨?_, hentered⟩
      simp only [runAll, hrun.result, hresults]
    | step guest => exact absurd hop id

/-- A run that touches nothing. -/
def idleGuest : KvmGuest := fun files => ⟨true, files, ⟨.HLT, fun _ => 0⟩⟩

theorem plainOp_write_run (reg : Reg) (value : RegValue) :
    ∀ op ∈ ([.access (.regWrite reg value), .run idleGuest] : List KvmOp), PlainOp op := by
  intro op hop
  rcases List.mem_cons.mp hop with rfl | hop
  · trivial
  · rw [List.mem_singleton.mp hop]
    exact fun _ => rfl

/-- The files of a `KVM_RUN` after a register write through fresh copies. -/
theorem entered_write_run {vp : KvmVirtualProcessor D} (hanswers : vp.registers.kernel.answers = [])
    (hfresh : vp.registers.cache.regsDirty = false) {reg : Reg} {i : KvmFile}
    (hreg : registerFile reg = some i) (value : RegValue) :
    ∃ files, (runAll KvmVirtualProcessor.perform vp
        [.access (.regWrite reg value), .run idleGuest]).2.registers.kernel.entered =
          files :: vp.registers.kernel.entered ∧
      files.get i = registerEdit i reg value (vp.registers.cache.files.get i) := by
  rcases kvmRegWrite_spec reg value with ⟨hnone, _⟩ | ⟨j, hj, hwrite⟩
  · simp [hnone] at hreg
  · obtain rfl : j = i := by simpa [hj] using hreg
    let s : KvmRegisterState :=
      ⟨vp.registers.cache.modify j (registerEdit j reg value), vp.registers.kernel⟩
    have haccess : (vp.registers.access (.regWrite reg value)).2 = s := by
      simp only [KvmRegisterState.access, KvmRegisterState.refreshRegisters, hfresh,
        Bool.false_eq_true, if_false, KvmRegisterCache.access, hwrite]
      rfl
    obtain ⟨s', hupdate, hwriteBack, -, hentered⟩ :=
      updateRegisters_of_answers (s := s) hanswers
    refine ⟨s'.kernel.files, ?_, ?_⟩
    · simp only [runAll, KvmVirtualProcessor.perform, haccess, KvmVirtualProcessor.runImpl,
        hupdate]
      rw [← hentered]
      rfl
    · have hbacking := congrFun (congrArg WriteBack.backing hwriteBack) j
      rw [writeBack_modify] at hbacking
      simp only [WriteBack.flush, WriteBack.modify, WriteBack.poke, Function.update_self,
        if_true] at hbacking
      exact hbacking

theorem uncached_entered_write_run (u : UncachedProcessor D) {reg : Reg} {i : KvmFile}
    (hreg : registerFile reg = some i) (value : RegValue) :
    ∃ files, (runAll UncachedProcessor.perform u
        [.access (.regWrite reg value), .run idleGuest]).2.registers.entered =
          files :: u.registers.entered ∧
      files.get i = registerEdit i reg value (u.registers.files.get i) := by
  rcases kvmRegWrite_spec reg value with ⟨hnone, _⟩ | ⟨j, hj, hwrite⟩
  · simp [hnone] at hreg
  · obtain rfl : j = i := by simpa [hj] using hreg
    refine ⟨(u.registers.access (.regWrite reg value)).2.files, rfl, ?_⟩
    simp only [UncachedRegisters.access, KvmRegisterCache.access, hwrite, get_modify]
    exact Function.update_self ..

/-- Fresh copies under which every write and run is the same as for direct access hold the files
of direct access. -/
theorem get_eq_of_sameRun {vp : KvmVirtualProcessor D} {u : UncachedProcessor D}
    (hanswers : vp.registers.kernel.answers = []) (hfresh : vp.registers.cache.regsDirty = false)
    {i : KvmFile} (hsame : ∀ reg value, registerFile reg = some i →
      SameRun vp u [.access (.regWrite reg value), .run idleGuest]) :
    vp.registers.cache.files.get i = u.registers.files.get i := by
  by_contra hne
  obtain ⟨reg, hreg, hedit⟩ := exists_registerEdit_ne hne 0
  obtain ⟨files, hentered, hget⟩ := entered_write_run hanswers hfresh hreg 0
  obtain ⟨files', hentered', hget'⟩ := uncached_entered_write_run u hreg 0
  have heq := (hsame reg 0 hreg).2
  rw [hentered, hentered', List.cons.injEq] at heq
  apply hedit
  rw [← hget, ← hget', heq.1]

/-- The runs of a new processor whose accesses before the first run stay in the files of `A` are
those of direct access just when the constructor's copies of these files are the kernel's. -/
theorem create_sameRun_iff (debugRegs : KvmDebugregs) (exits : KvmExits D) (kernel : KvmKernel)
    (hanswers : kernel.answers = []) (hio : exits.io.Only PlainAccess) (A : Set KvmFile) :
    (∀ ops, (∀ op ∈ ops, PlainOp op) → AccessesWithin A ops →
      SameRun (KvmVirtualProcessor.create debugRegs exits kernel)
        ⟨⟨kernel.files, kernel.entered⟩, exits⟩ ops) ↔
      ∀ i ∈ A, KvmRegisterFiles.get ⟨default, default, debugRegs, default⟩ i =
        kernel.files.get i := by
  constructor
  · intro hsame i hi
    refine get_eq_of_sameRun hanswers rfl fun reg value hreg =>
      hsame [.access (.regWrite reg value), .run idleGuest] (plainOp_write_run reg value) ?_
    refine ⟨fun j hj => ?_, trivial⟩
    simp only [accessFiles, HostAccess.registers, reachedFiles, hreg, List.mem_singleton] at hj
    rwa [hj]
  · intro hcopy ops hplain hwithin
    apply ProcessorMatches.sameRun (A := A) _ hplain hwithin
    refine ⟨⟨hanswers, ?_, rfl⟩, rfl, hio⟩
    apply Agrees.of_unchanged
    · intro i
      cases i <;> rfl
    · exact hcopy

/-- A kernel at the reset vector, with all other registers zero. -/
def resetKernel : KvmKernel where
  files := { (default : KvmRegisterFiles) with regs := { (default : KvmRegs) with rip := 0xFFF0 } }
  guestDebug := { control := 0, debugreg := Vector.replicate 8 0 }
  answers := []
  entered := []

def idleExits : KvmExits Unit where
  kvmRun := ⟨.HLT, fun _ => 0⟩
  exitInfo := ⟨.Normal, 0⟩
  io := IOHandlers.none
  device := ()

/-- A new processor at the reset vector may access all files but the one of the instruction
pointer. -/
theorem create_sameRun_reset :
    SameRun (KvmVirtualProcessor.create default idleExits resetKernel)
      ⟨⟨resetKernel.files, []⟩, idleExits⟩
      [.access (.regWrite .CR0 1), .run idleGuest, .access (.regRead .RIP 0)] := by
  refine (create_sameRun_iff default idleExits resetKernel rfl (IOHandlers.none_only _)
    { i | i ≠ .regs }).mpr ?_ _ ?_ ?_
  · intro i hi
    cases i with
    | regs => exact absurd rfl hi
    | sregs => rfl
    | debugRegs => rfl
    | fpuRegs => rfl
  · simp [PlainOp, PlainAccess, idleGuest]
  · refine ⟨fun i hi => ?_, trivial⟩
    have hsregs : i = .sregs := List.mem_singleton.mp hi
    rw [hsregs]
    exact fun h => nomatch h

/-- A new processor at the reset vector loses the instruction pointer to a write of `RAX`. -/
theorem create_write_resets_rip :
    let vp := KvmVirtualProcessor.create default idleExits resetKernel
    let u : UncachedProcessor Unit := ⟨⟨resetKernel.files, []⟩, idleExits⟩
    let ops : List KvmOp := [.access (.regWrite .RAX 1), .run idleGuest]
    (∀ op ∈ ops, PlainOp op) ∧ ¬ SameRun vp u ops ∧
      (runAll KvmVirtualProcessor.perform vp ops).2.registers.kernel.entered.map (·.regs.rip) =
        [0] ∧
      (runAll UncachedProcessor.perform u ops).2.registers.entered.map (·.regs.rip) =
        [0xFFF0] := by
  intro vp u ops
  have hcached : (runAll KvmVirtualProcessor.perform vp ops).2.registers.kernel.entered.map
      (·.regs.rip) = [0] := rfl
  have huncached : (runAll UncachedProcessor.perform u ops).2.registers.entered.map
      (·.regs.rip) = [0xFFF0] := rfl
  refine ⟨plainOp_write_run .RAX 1, fun hsame => ?_, hcached, huncached⟩
  rw [hsame.2, huncached] at hcached
  exact absurd hcached (by decide)

end Runs

end Kvm

end Virt86
