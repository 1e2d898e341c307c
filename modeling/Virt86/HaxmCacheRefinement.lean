import Virt86.HaxmProcessor
import Virt86.Simulations
import Virt86.WriteBackCaches

/-!
# The register copies of the HAXM processor against direct access

The copies are a write-back cache of the driver's register files. They start out of date and each
accessor raises the flag of the file it changes, so that they agree with direct access from the
start.
-/

namespace Virt86

namespace Haxm

open WriteBack

/-! ## Files by index -/

theorem HaxmRegisterFiles.ext_get {f g : HaxmRegisterFiles} (h : ∀ i, f.get i = g.get i) :
    f = g := by
  have hregs : f.regs = g.regs := h .regs
  have hfpu : f.fpuRegs = g.fpuRegs := h .fpuRegs
  cases f
  cases g
  simp_all

/-- The copies and the driver's files as a write-back cache. -/
def HaxmRegisterState.writeBack (s : HaxmRegisterState) : WriteBack HaxmFile.Data where
  backing := s.driver.files.get
  copy := s.cache.files.get
  stale := s.cache.regsDirty
  changed := s.cache.changed

theorem get_modify (c : HaxmRegisterCache) (i : HaxmFile) (edit : i.Data → i.Data) :
    (c.modify i edit).files.get = Function.update c.files.get i (edit (c.files.get i)) := by
  funext j
  cases i <;> cases j <;> rfl

theorem writeBack_modify (s : HaxmRegisterState) (i : HaxmFile) (edit : i.Data → i.Data) :
    HaxmRegisterState.writeBack { s with cache := s.cache.modify i edit } =
      s.writeBack.modify i edit := by
  ext j
  · rfl
  · cases i <;> cases j <;> rfl
  · cases i <;> rfl
  · cases i <;> cases j <;> rfl

/-! ## Calls that succeed -/

section Success

variable {s : HaxmRegisterState} (hanswers : s.driver.answers = [])

include hanswers

theorem refreshRegisters_of_answers :
    ∃ c, s.refreshRegisters = (true, { s with cache := c }) ∧
      HaxmRegisterState.writeBack { s with cache := c } = s.writeBack.refresh := by
  cases hdirty : s.cache.regsDirty with
  | false =>
    refine ⟨s.cache, ?_, ?_⟩
    · simp [HaxmRegisterState.refreshRegisters, hdirty]
    · rw [refresh_of_not_stale]
      exact hdirty
  | true =>
    refine ⟨{ s.cache with files := s.driver.files, regsDirty := false }, ?_, ?_⟩
    · simp [HaxmRegisterState.refreshRegisters, hdirty, HaxmRegisterState.fetchFile,
        HaxmDriver.answer, hanswers, HaxmRegisterFiles.set, HaxmRegisterFiles.get]
    · simp only [WriteBack.refresh, HaxmRegisterState.writeBack, hdirty, if_true]
      rfl

theorem storeFile_of_answers (i : HaxmFile) : s.storeFile i =
    { s with
      cache := s.cache.clearChanged i
      driver := { s.driver with
        files := s.driver.files.set i (s.writeBack.flush.backing i) } } := by
  cases hchanged : s.cache.changed i with
  | true =>
    simp [HaxmRegisterState.storeFile, HaxmDriver.answer, hanswers, hchanged, WriteBack.flush,
      HaxmRegisterState.writeBack]
  | false =>
    have hclear : s.cache.clearChanged i = s.cache := by
      cases hc : s.cache
      cases i <;> simp_all [HaxmRegisterCache.clearChanged, HaxmRegisterCache.changed]
    have hset : s.driver.files.set i (s.driver.files.get i) = s.driver.files := by
      cases i <;> rfl
    simp [HaxmRegisterState.storeFile, hchanged, WriteBack.flush, HaxmRegisterState.writeBack,
      hclear, hset]

theorem updateRegisters_of_answers :
    s.updateRegisters.writeBack = s.writeBack.flush ∧ s.updateRegisters.driver.answers = [] ∧
      s.updateRegisters.driver.entered = s.driver.entered := by
  simp only [HaxmRegisterState.updateRegisters, storeFile_of_answers, hanswers]
  refine ⟨?_, trivial, trivial⟩
  ext i
  · cases i <;> rfl
  · cases i <;> rfl
  · rfl
  · cases i <;> rfl

end Success

/-! ## Direct access -/

/-- An access to the register files of the driver itself. -/
def HaxmDriver.access (driver : HaxmDriver) (a : HostAccess) : AccessResult × HaxmDriver :=
  let s : HaxmRegisterState :=
    { cache := { (default : HaxmRegisterCache) with files := driver.files }
      useEferMSR := false
      driver }
  ((s.accessFresh a).1, { driver with files := (s.accessFresh a).2.cache.files })

def HaxmDriver.accessAll (driver : HaxmDriver) (accesses : List HostAccess) : HaxmDriver :=
  accesses.foldl (fun driver a => (driver.access a).2) driver

def HaxmDriver.enterGuest (driver : HaxmDriver) (guest : HaxmGuest) : HaxmDriver :=
  { driver with
    files := (guest driver.files).files
    entered := driver.files :: driver.entered }

/-- A processor that goes straight to the driver's register files. -/
structure UncachedProcessor (D : Type) where
  driver : HaxmDriver
  exits : HaxmExits D

namespace UncachedProcessor

variable {D : Type}

def handleExecResult (u : UncachedProcessor D) : VPExecutionStatus × UncachedProcessor D :=
  let (accesses, exits) := u.exits.handleExit
  (.OK, { driver := u.driver.accessAll accesses, exits })

def run (u : UncachedProcessor D) (guest : HaxmGuest) : VPExecutionStatus × UncachedProcessor D :=
  let answer := guest u.driver.files
  let u' : UncachedProcessor D :=
    { driver := u.driver.enterGuest guest
      exits := { u.exits with tunnel := answer.tunnel } }
  if answer.ok then u'.handleExecResult else (.Failed, u')

def step (u : UncachedProcessor D) (guest : HaxmGuest) : VPExecutionStatus × UncachedProcessor D :=
  let (status, u) := u.run guest
  if status = .OK then
    let (result, u) := u.handleExecResult
    (result, if u.exits.exitInfo.reason = .SoftwareBreakpoint then
      { u with exits := u.exits.setReason .Step } else u)
  else (status, u)

def perform (u : UncachedProcessor D) : HaxmOp → HaxmOpResult × UncachedProcessor D
  | .access a => (.inl (u.driver.access a).1, { u with driver := (u.driver.access a).2 })
  | .run guest => (.inr (u.run guest).1, (u.run guest).2)
  | .step guest => (.inr (u.step guest).1, (u.step guest).2)

end UncachedProcessor

/-! ## Accesses -/

/-- The accesses that do not name `EFER`. -/
def PlainAccess (a : HostAccess) : Prop := ∀ reg ∈ a.registers, reg ≠ .EFER

section Agreement

variable {driver : HaxmDriver} {s d : HaxmRegisterState}

/-- The copies of `s` are fresh and agree with the files of `d`, which stands for direct access. -/
structure FilesAgree (driver : HaxmDriver) (s d : HaxmRegisterState) : Prop where
  driver_eq : s.driver = driver
  agrees : s.writeBack.Agrees Set.univ d.cache.files.get
  fresh : s.cache.regsDirty = false

theorem FilesAgree.files_eq (h : FilesAgree driver s d) : s.cache.files = d.cache.files :=
  HaxmRegisterFiles.ext_get fun i => h.agrees.copied h.fresh i trivial

theorem FilesAgree.modify (h : FilesAgree driver s d) (i : HaxmFile) (edit : i.Data → i.Data) :
    FilesAgree driver { s with cache := s.cache.modify i edit }
      { d with cache := d.cache.modify i edit } where
  driver_eq := h.driver_eq
  agrees := by
    rw [writeBack_modify, get_modify]
    exact h.agrees.modify h.fresh trivial edit
  fresh := by rw [regsDirty_modify, h.fresh]

/-- A bulk read without `EFER` changes nothing and depends on the files alone. -/
theorem regReadLoop_of_ne_efer (hfiles : s.cache.files = d.cache.files)
    {regs : List (Reg × RegValue)} (hregs : ∀ reg ∈ regs.map Prod.fst, reg ≠ .EFER) :
    (s.regReadLoop regs).1 = (d.regReadLoop regs).1 ∧ (s.regReadLoop regs).2 = s ∧
      (d.regReadLoop regs).2 = d := by
  induction regs with
  | nil => exact ⟨rfl, rfl, rfl⟩
  | cons entry rest ih =>
    obtain ⟨reg, value⟩ := entry
    simp only [List.map_cons, List.mem_cons, forall_eq_or_imp] at hregs
    obtain ⟨hresult, hs, hd⟩ := ih hregs.2
    simp only [HaxmRegisterState.regReadLoop, regRead_of_ne_efer _ hregs.1, hfiles]
    cases haxmRegRead d.cache.files reg value with
    | mk status value =>
      cases status with
      | OK => exact ⟨by simp only [hresult], hs, hd⟩
      | _ => exact ⟨rfl, rfl, rfl⟩

theorem FilesAgree.regWrite (h : FilesAgree driver s d) {reg : Reg} (hreg : reg ≠ .EFER)
    (value : RegValue) :
    (s.regWrite reg value).1 = (d.regWrite reg value).1 ∧
      FilesAgree driver (s.regWrite reg value).2 (d.regWrite reg value).2 := by
  rw [regWrite_of_ne_efer s hreg, regWrite_of_ne_efer d hreg]
  rcases haxmRegWrite_spec reg value with hwrite | ⟨i, hwrite⟩
  · rw [hwrite s.cache, hwrite d.cache]
    exact ⟨rfl, h⟩
  · rw [hwrite s.cache, hwrite d.cache]
    exact ⟨rfl, h.modify i _⟩

theorem FilesAgree.regWriteLoop {regs : List (Reg × RegValue)}
    (hregs : ∀ reg ∈ regs.map Prod.fst, reg ≠ .EFER) :
    ∀ {s d : HaxmRegisterState}, FilesAgree driver s d →
      (s.regWriteLoop regs).1 = (d.regWriteLoop regs).1 ∧
        FilesAgree driver (s.regWriteLoop regs).2 (d.regWriteLoop regs).2 := by
  induction regs with
  | nil => exact fun h => ⟨rfl, h⟩
  | cons entry rest ih =>
    intro s d h
    obtain ⟨reg, value⟩ := entry
    simp only [List.map_cons, List.mem_cons, forall_eq_or_imp] at hregs
    obtain ⟨hstatus, hnext⟩ := h.regWrite hregs.1 value
    simp only [HaxmRegisterState.regWriteLoop]
    cases hs : s.regWrite reg value with
    | mk status s' =>
      cases hd : d.regWrite reg value with
      | mk status' d' =>
        rw [hs, hd] at hstatus hnext
        obtain rfl : status = status' := hstatus
        cases status with
        | OK => exact ih hregs.2 hnext
        | _ => exact ⟨rfl, hnext⟩

/-- An access without `EFER` has the result of direct access. -/
theorem FilesAgree.accessFresh (h : FilesAgree driver s d) {a : HostAccess}
    (hplain : PlainAccess a) : (s.accessFresh a).1 = (d.accessFresh a).1 ∧
      FilesAgree driver (s.accessFresh a).2 (d.accessFresh a).2 := by
  have hfiles := h.files_eq
  cases a with
  | regRead reg value =>
    have hreg : reg ≠ .EFER := hplain reg List.mem_cons_self
    simp only [HaxmRegisterState.accessFresh, regRead_of_ne_efer _ hreg, hfiles]
    exact ⟨trivial, h⟩
  | regWrite reg value =>
    obtain ⟨hstatus, hnext⟩ := h.regWrite (hplain reg List.mem_cons_self) value
    simp only [HaxmRegisterState.accessFresh, hstatus]
    exact ⟨trivial, hnext⟩
  | regReadBulk regs =>
    obtain ⟨hresult, hs, hd⟩ := regReadLoop_of_ne_efer hfiles hplain
    simp only [HaxmRegisterState.accessFresh, hresult, hs, hd]
    exact ⟨trivial, h⟩
  | regWriteBulk regs =>
    obtain ⟨hstatus, hnext⟩ := FilesAgree.regWriteLoop hplain h
    simp only [HaxmRegisterState.accessFresh, hstatus]
    exact ⟨trivial, hnext⟩
  | getFPUControl value =>
    simp only [HaxmRegisterState.accessFresh, hfiles]
    exact ⟨trivial, h⟩
  | setFPUControl value =>
    exact ⟨rfl, h.modify .fpuRegs (HaxmRegisterState.storeFPUControl value)⟩
  | getMXCSR value =>
    simp only [HaxmRegisterState.accessFresh, hfiles]
    exact ⟨trivial, h⟩
  | setMXCSR value =>
    exact ⟨rfl, h.modify .fpuRegs fun f : FxLayout => { f with mxcsr := value }⟩
  | getMXCSRMask value =>
    simp only [HaxmRegisterState.accessFresh, hfiles]
    exact ⟨trivial, h⟩
  | setMXCSRMask value =>
    exact ⟨rfl, h.modify .fpuRegs fun f : FxLayout => { f with mxcsr_mask := value }⟩

end Agreement

/-! ## Processors -/

/-- All calls but `Run` succeed from here on, and the copies agree with direct access. -/
structure Matches (s : HaxmRegisterState) (driver : HaxmDriver) : Prop where
  answers : s.driver.answers = []
  agrees : s.writeBack.Agrees Set.univ driver.files.get
  entered : s.driver.entered = driver.entered

namespace Matches

variable {s : HaxmRegisterState} {driver : HaxmDriver}

theorem access (h : Matches s driver) {a : HostAccess} (hplain : PlainAccess a) :
    (s.access a).1 = (driver.access a).1 ∧ Matches (s.access a).2 (driver.access a).2 := by
  obtain ⟨c, hrefresh, hwriteBack⟩ := refreshRegisters_of_answers h.answers
  have hagrees : FilesAgree s.driver { s with cache := c }
      { cache := { (default : HaxmRegisterCache) with files := driver.files }
        useEferMSR := false
        driver } :=
    { driver_eq := rfl
      agrees := by
        rw [hwriteBack]
        exact h.agrees.refresh
      fresh := by
        have hstale := stale_refresh s.writeBack
        rwa [← hwriteBack] at hstale }
  obtain ⟨hresult, hnext⟩ := hagrees.accessFresh hplain
  have haccess : s.access a = HaxmRegisterState.accessFresh { s with cache := c } a := by
    simp only [HaxmRegisterState.access, hrefresh]
  rw [haccess]
  refine ⟨hresult, ?_, hnext.agrees, ?_⟩
  · rw [hnext.driver_eq, h.answers]
  · rw [hnext.driver_eq, h.entered]
    rfl

theorem accessAll (h : Matches s driver) {accesses : List HostAccess}
    (hplain : ∀ a ∈ accesses, PlainAccess a) :
    Matches (s.accessAll accesses) (driver.accessAll accesses) := by
  induction accesses generalizing s driver with
  | nil => exact h
  | cons a rest ih =>
    have hnext := (h.access (hplain a List.mem_cons_self)).2
    exact ih hnext fun b hb => hplain b (List.mem_cons_of_mem _ hb)

end Matches

/-- The driver has the files of direct access, and there is nothing left to store. -/
structure Synced (s : HaxmRegisterState) (driver : HaxmDriver) : Prop where
  answers : s.driver.answers = []
  unchanged : s.cache.changed = fun _ => false
  files : s.driver.files = driver.files
  entered : s.driver.entered = driver.entered

/-- The flush before `Run` makes the driver's files those of direct access. -/
theorem Matches.updateRegisters {s : HaxmRegisterState} {driver : HaxmDriver}
    (h : Matches s driver) : Synced s.updateRegisters driver := by
  obtain ⟨hwriteBack, hanswers, hentered⟩ := updateRegisters_of_answers h.answers
  refine ⟨hanswers, congrArg WriteBack.changed hwriteBack, ?_, hentered.trans h.entered⟩
  apply HaxmRegisterFiles.ext_get
  intro i
  have hbacking : s.updateRegisters.writeBack.backing = driver.files.get := by
    rw [hwriteBack, h.agrees.flushed]
  exact congrFun hbacking i

namespace Synced

variable {s : HaxmRegisterState} {driver : HaxmDriver}

theorem enterGuest (h : Synced s driver) (guest : HaxmGuest) :
    Synced (s.enterGuest guest) (driver.enterGuest guest) where
  answers := h.answers
  unchanged := h.unchanged
  files := by simp only [HaxmRegisterState.enterGuest, HaxmDriver.enterGuest, h.files]
  entered := by
    simp only [HaxmRegisterState.enterGuest, HaxmDriver.enterGuest, h.files, h.entered]

/-- With nothing left to store, copies that are out of date or hold the files agree. -/
theorem matches_of_copies (h : Synced s driver)
    (hcopies : s.cache.regsDirty = true ∨ s.cache.files = driver.files) : Matches s driver where
  answers := h.answers
  agrees := by
    rw [← h.files] at hcopies ⊢
    rcases hcopies with hdirty | hfiles
    · exact Agrees.of_stale hdirty fun i => congrFun h.unchanged i
    · refine Agrees.of_unchanged (fun i => congrFun h.unchanged i) fun i _ => ?_
      exact congrArg (HaxmRegisterFiles.get · i) hfiles
  entered := h.entered

theorem matches_markDirty (h : Synced s driver) : Matches s.markDirty driver := by
  have hsynced : Synced s.markDirty driver := ⟨h.answers, h.unchanged, h.files, h.entered⟩
  exact hsynced.matches_of_copies (Or.inl rfl)

end Synced

section Exits

variable {D : Type} {P : HostAccess → Prop} {e : HaxmExits D}

theorem handleFastMMIO_only (hio : e.io.Only P) (gpa value : U64) (size direction : U8) :
    (∀ a ∈ (e.handleFastMMIO gpa value size direction).1, P a) ∧
      (e.handleFastMMIO gpa value size direction).2.io = e.io := by
  simp only [HaxmExits.handleFastMMIO]
  split
  · split
    · exact ⟨hio.mmioWrite _ _ _ _, rfl⟩
    · exact ⟨hio.mmioRead _ _ _, rfl⟩
  · refine ⟨fun a ha => ?_, rfl⟩
    rcases List.mem_append.mp ha with hmem | hmem
    · exact hio.mmioRead _ _ _ a hmem
    · exact hio.mmioWrite _ _ _ _ a hmem

/-- The handlers make only accesses of `P` while an exit is handled. -/
theorem handleExit_only (hio : e.io.Only P) :
    (∀ a ∈ e.handleExit.1, P a) ∧ e.handleExit.2.io = e.io := by
  have hnone : ∀ e' : HaxmExits D, e'.io = e.io →
      (∀ a ∈ (([] : List HostAccess), e').1, P a) ∧ (([] : List HostAccess), e').2.io = e.io :=
    fun e' he' => ⟨fun a ha => absurd ha List.not_mem_nil, he'⟩
  rw [HaxmExits.handleExit]
  cases e.tunnel.exit with
  | Io direction df size port count =>
    exact ⟨portLoop_only hio direction size port _ _ _, rfl⟩
  | FastMmio gpa value size direction => exact handleFastMMIO_only hio gpa value size direction
  | _ => exact hnone _ rfl

end Exits

theorem handleExit_silent {D : Type} {e : HaxmExits D} (hio : e.io.Silent) :
    e.handleExit.1 = [] :=
  List.eq_nil_iff_forall_not_mem.mpr (handleExit_only hio).1

/-- The processor and the one with direct access are at the same point of the same run, in which
the handlers make only accesses of `P`. -/
structure ProcessorMatches {D : Type} (P : HostAccess → Prop) (vp : HaxmVirtualProcessor D)
    (u : UncachedProcessor D) : Prop where
  registers : Matches vp.registers u.driver
  exits : vp.exits = u.exits
  handlers : vp.exits.io.Only P

/-- The same between the flush and the handling of the exit. -/
structure ProcessorSynced {D : Type} (P : HostAccess → Prop) (vp : HaxmVirtualProcessor D)
    (u : UncachedProcessor D) : Prop where
  registers : Synced vp.registers u.driver
  exits : vp.exits = u.exits
  handlers : vp.exits.io.Only P

section Engines

variable {D : Type}

def UncachedProcessor.engine : RunEngine (UncachedProcessor D) HaxmGuest where
  prepare u := (true, u)
  enter guest u :=
    ((guest u.driver.files).ok,
      { driver := u.driver.enterGuest guest
        exits := { u.exits with tunnel := (guest u.driver.files).tunnel } })
  handle u := u.handleExecResult.2
  singleStep _ u := (true, u)
  finish u := if u.exits.exitInfo.reason = .SoftwareBreakpoint then
    { u with exits := u.exits.setReason .Step } else u

theorem uncached_run_eq (u : UncachedProcessor D) (guest : HaxmGuest) :
    u.run guest = (executionStatus (UncachedProcessor.engine.run guest u).1,
      (UncachedProcessor.engine.run guest u).2) ∧
      (UncachedProcessor.engine.run guest u).1 = (guest u.driver.files).ok := by
  simp only [UncachedProcessor.run, RunEngine.run, UncachedProcessor.engine]
  cases (guest u.driver.files).ok with
  | false => exact ⟨rfl, rfl⟩
  | true => exact ⟨rfl, rfl⟩

theorem uncached_step_eq (u : UncachedProcessor D) (guest : HaxmGuest) :
    u.step guest = (executionStatus (UncachedProcessor.engine.step guest u).1,
      (UncachedProcessor.engine.step guest u).2) ∧
      (UncachedProcessor.engine.step guest u).1 = (guest u.driver.files).ok := by
  obtain ⟨hrun, hok⟩ := uncached_run_eq u guest
  have hsingleStep : ∀ on (u : UncachedProcessor D),
      UncachedProcessor.engine.singleStep on u = (true, u) := fun _ _ => rfl
  simp only [UncachedProcessor.step, RunEngine.step, hrun, hsingleStep, hok]
  cases (guest u.driver.files).ok with
  | false => exact ⟨rfl, rfl⟩
  | true => exact ⟨rfl, rfl⟩

end Engines

section Steps

variable {D : Type} {P : HostAccess → Prop} {vp : HaxmVirtualProcessor D}
  {u : UncachedProcessor D}

theorem ProcessorMatches.access (h : ProcessorMatches P vp u) {a : HostAccess}
    (hplain : PlainAccess a) :
    (vp.perform (.access a)).1 = (u.perform (.access a)).1 ∧
      ProcessorMatches P (vp.perform (.access a)).2 (u.perform (.access a)).2 := by
  obtain ⟨hresult, hregisters⟩ := h.registers.access hplain
  exact ⟨congrArg Sum.inl hresult, hregisters, h.exits, h.handlers⟩

theorem ProcessorMatches.prepare (h : ProcessorMatches P vp u) :
    ∃ vp' u', HaxmVirtualProcessor.engine.prepare vp = (true, vp') ∧
      UncachedProcessor.engine.prepare u = (true, u') ∧ ProcessorSynced P vp' u' := by
  have hsynced := h.registers.updateRegisters
  exact ⟨_, u, rfl, rfl, hsynced, h.exits, h.handlers⟩

theorem ProcessorSynced.enter (h : ProcessorSynced P vp u) (guest : HaxmGuest) :
    ∃ ok vp' u', HaxmVirtualProcessor.engine.enter guest vp = (ok, vp') ∧
      UncachedProcessor.engine.enter guest u = (ok, u') ∧ ProcessorSynced P vp' u' := by
  refine ⟨(guest u.driver.files).ok, (HaxmVirtualProcessor.engine.enter guest vp).2,
    (UncachedProcessor.engine.enter guest u).2, ?_, rfl, h.registers.enterGuest guest, ?_,
    h.handlers⟩
  · simp only [HaxmVirtualProcessor.engine, h.registers.files]
  · simp only [HaxmVirtualProcessor.engine, UncachedProcessor.engine, h.registers.files, h.exits]

/-- Handling an exit with nothing left to store. -/
theorem ProcessorSynced.handle (h : ProcessorSynced P vp u) (hP : ∀ a, P a → PlainAccess a) :
    ProcessorMatches P vp.handleExecResult.2 u.handleExecResult.2 := by
  obtain ⟨honly, hkeeps⟩ := handleExit_only h.handlers
  have hmatches := h.registers.matches_markDirty.accessAll fun a ha => hP a (honly a ha)
  simp only [HaxmVirtualProcessor.handleExecResult, UncachedProcessor.handleExecResult, ← h.exits]
  refine ⟨hmatches, rfl, ?_⟩
  rw [hkeeps]
  exact h.handlers

/-- With handlers that leave the registers alone there is still nothing to store afterwards. -/
theorem ProcessorSynced.handle_silent (h : ProcessorSynced (fun _ => False) vp u) :
    ProcessorSynced (fun _ => False) vp.handleExecResult.2 u.handleExecResult.2 := by
  have hmatches := h.handle fun _ => False.elim
  refine ⟨?_, hmatches.exits, hmatches.handlers⟩
  simp only [HaxmVirtualProcessor.handleExecResult, UncachedProcessor.handleExecResult,
    ← h.exits, handleExit_silent h.handlers]
  exact ⟨h.registers.answers, h.registers.unchanged, h.registers.files, h.registers.entered⟩

/-- `SetDebug` leaves the registers and the exit alone. -/
theorem setDebug_of_answers (vp : HaxmVirtualProcessor D)
    (hanswers : vp.registers.driver.answers = []) :
    ∃ debug, vp.setDebug = (true, { vp with
      debug
      registers := { vp.registers with
        driver := { vp.registers.driver with debug } } }) := by
  simp only [HaxmVirtualProcessor.setDebug, HaxmDriver.answer, hanswers]
  exact ⟨_, rfl⟩

theorem engine_simulates (hP : ∀ a, P a → PlainAccess a) :
    RunEngine.Simulates (HaxmVirtualProcessor.engine (D := D)) UncachedProcessor.engine
      (ProcessorMatches P) (ProcessorSynced P) where
  prepare h := h.prepare
  enter guest h := h.enter guest
  handle h := h.handle hP
  startStep {vp u} h := by
    obtain ⟨debug, hdebug⟩ := setDebug_of_answers (vp.withSingleStep true) h.registers.answers
    refine ⟨_, u, hdebug, rfl, ?_, h.exits, h.handlers⟩
    exact ⟨h.registers.answers, h.registers.agrees, h.registers.entered⟩
  endStep {vp u} h := by
    obtain ⟨debug, hdebug⟩ := setDebug_of_answers (vp.withSingleStep false) h.registers.answers
    refine ⟨_, u, hdebug, rfl, ?_, h.exits, h.handlers⟩
    exact ⟨h.registers.answers, h.registers.unchanged, h.registers.files, h.registers.entered⟩
  finish {vp u} h := by
    simp only [HaxmVirtualProcessor.engine, UncachedProcessor.engine, ← h.exits]
    split
    · exact ⟨h.registers, rfl, h.handlers⟩
    · exact h

/-- How an operation that runs the guest ends on both processors. -/
structure RunEnds (P : HostAccess → Prop) (ok : Bool) (op : HaxmOp) (vp : HaxmVirtualProcessor D)
    (u : UncachedProcessor D) : Prop where
  result : (vp.perform op).1 = (u.perform op).1
  handled : ok = true → ProcessorMatches P (vp.perform op).2 (u.perform op).2
  failed : ok = false → ProcessorSynced P (vp.perform op).2 (u.perform op).2

/-- A run leaves the files in agreement if it succeeds. -/
theorem ProcessorMatches.run (h : ProcessorMatches P vp u) (hP : ∀ a, P a → PlainAccess a)
    (guest : HaxmGuest) : RunEnds P (guest u.driver.files).ok (.run guest) vp u := by
  obtain ⟨huncached, hok⟩ := uncached_run_eq u guest
  have hended := (engine_simulates hP).run_of_prepared h.prepare guest
  rw [← hok]
  constructor
  · simp only [HaxmVirtualProcessor.perform, UncachedProcessor.perform, runImpl_eq, huncached,
      hended.result]
  · simp only [HaxmVirtualProcessor.perform, UncachedProcessor.perform, runImpl_eq, huncached]
    exact hended.handled
  · simp only [HaxmVirtualProcessor.perform, UncachedProcessor.perform, runImpl_eq, huncached]
    exact hended.failed

/-- So does a step when the handlers leave the registers alone. -/
theorem ProcessorMatches.step (h : ProcessorMatches (fun _ => False) vp u)
    (guest : HaxmGuest) :
    RunEnds (fun _ => False) (guest u.driver.files).ok (.step guest) vp u := by
  obtain ⟨huncached, hok⟩ := uncached_step_eq u guest
  have hended := (engine_simulates fun _ => False.elim).step ProcessorSynced.handle_silent h guest
  rw [← hok]
  constructor
  · simp only [HaxmVirtualProcessor.perform, UncachedProcessor.perform, stepImpl_eq, huncached,
      hended.result]
  · simp only [HaxmVirtualProcessor.perform, UncachedProcessor.perform, stepImpl_eq, huncached]
    exact hended.handled
  · simp only [HaxmVirtualProcessor.perform, UncachedProcessor.perform, stepImpl_eq, huncached]
    exact hended.failed

end Steps

/-! ## Telling two files apart -/

/-- Two files that differ still differ after one of two register writes. -/
theorem exists_registerEdit_ne {i : HaxmFile} {x y : i.Data} (h : x ≠ y) (value : RegValue) :
    ∃ reg, reg ≠ .EFER ∧
      (∀ c, haxmRegWrite c reg value = (.OK, c.modify i (registerEdit i reg value))) ∧
      registerEdit i reg value x ≠ registerEdit i reg value y := by
  cases i with
  | regs =>
    have hedit : ∀ r, registerEdit .regs .RAX value r = { r with rax := value.u64 } := fun _ => rfl
    have hinj : ∀ x y : VcpuState, x.rax = y.rax →
        registerEdit .regs .RAX value x = registerEdit .regs .RAX value y → x = y := by
      rintro ⟨⟩ ⟨⟩ hp heq
      simp_all
    rcases edit_ne_or_edit_ne (f := registerEdit .regs .RBX value) (fun _ => rfl) hinj h with
      hne | hne
    · exact ⟨.RAX, by decide, fun _ => rfl, hne⟩
    · exact ⟨.RBX, by decide, fun _ => rfl, hne⟩
  | fpuRegs =>
    have hedit : ∀ r, registerEdit .fpuRegs .XMM0 value r = storeXMMRegister value 0 r :=
      fun _ => rfl
    have hinj : ∀ x y : FxLayout, x.mmx_1 = y.mmx_1 →
        registerEdit .fpuRegs .XMM0 value x = registerEdit .fpuRegs .XMM0 value y → x = y := by
      rintro ⟨⟩ ⟨⟩ hp heq
      simp_all [storeXMMRegister]
    rcases edit_ne_or_edit_ne (f := registerEdit .fpuRegs .MM0 value) (fun _ => rfl) hinj h with
      hne | hne
    · exact ⟨.XMM0, by decide, fun _ => rfl, hne⟩
    · exact ⟨.MM0, by decide, fun _ => rfl, hne⟩

/-! ## Runs -/

section Runs

variable {D : Type}

/-- The host sees the same results, and the driver runs the guest with the same files. -/
def SameRun (vp : HaxmVirtualProcessor D) (u : UncachedProcessor D) (ops : List HaxmOp) : Prop :=
  (runAll HaxmVirtualProcessor.perform vp ops).1 = (runAll UncachedProcessor.perform u ops).1 ∧
    (runAll HaxmVirtualProcessor.perform vp ops).2.registers.driver.entered =
      (runAll UncachedProcessor.perform u ops).2.driver.entered

/-- The accesses of `PlainAccess`, and runs and steps that succeed. -/
def PlainOp : HaxmOp → Prop
  | .access a => PlainAccess a
  | .run guest | .step guest => ∀ files, (guest files).ok

/-- A run that touches nothing. -/
def idleGuest : HaxmGuest := fun files => ⟨true, files, ⟨.HLT, fun _ => 0⟩⟩

section Writes

variable {reg : Reg} {i : HaxmFile} {value : RegValue} (hreg : reg ≠ .EFER)
  (hwrite : ∀ c, haxmRegWrite c reg value = (.OK, c.modify i (registerEdit i reg value)))

include hreg hwrite

/-- The files of a `Run` after a register write through fresh copies. -/
theorem entered_write_run {vp : HaxmVirtualProcessor D}
    (hanswers : vp.registers.driver.answers = []) (hfresh : vp.registers.cache.regsDirty = false) :
    ∃ files, (runAll HaxmVirtualProcessor.perform vp
        [.access (.regWrite reg value), .run idleGuest]).2.registers.driver.entered =
          files :: vp.registers.driver.entered ∧
      files.get i = registerEdit i reg value (vp.registers.cache.files.get i) := by
  let s : HaxmRegisterState :=
    { vp.registers with cache := vp.registers.cache.modify i (registerEdit i reg value) }
  have haccess : (vp.registers.access (.regWrite reg value)).2 = s := by
    simp only [HaxmRegisterState.access, HaxmRegisterState.refreshRegisters, hfresh,
      Bool.false_eq_true, if_false, HaxmRegisterState.accessFresh, regWrite_of_ne_efer _ hreg,
      hwrite]
    rfl
  obtain ⟨hwriteBack, -, hentered⟩ := updateRegisters_of_answers (s := s) hanswers
  refine ⟨s.updateRegisters.driver.files, ?_, ?_⟩
  · simp only [runAll, HaxmVirtualProcessor.perform, haccess, HaxmVirtualProcessor.runImpl]
    exact congrArg (s.updateRegisters.driver.files :: ·) hentered
  · have hbacking := congrFun (congrArg WriteBack.backing hwriteBack) i
    rw [writeBack_modify] at hbacking
    simp only [WriteBack.flush, WriteBack.modify, WriteBack.poke, Function.update_self,
      if_true] at hbacking
    exact hbacking

theorem uncached_entered_write_run (u : UncachedProcessor D) :
    ∃ files, (runAll UncachedProcessor.perform u
        [.access (.regWrite reg value), .run idleGuest]).2.driver.entered =
          files :: u.driver.entered ∧
      files.get i = registerEdit i reg value (u.driver.files.get i) := by
  refine ⟨(u.driver.access (.regWrite reg value)).2.files, rfl, ?_⟩
  simp only [HaxmDriver.access, HaxmRegisterState.accessFresh, regWrite_of_ne_efer _ hreg, hwrite,
    get_modify]
  exact Function.update_self ..

end Writes

/-- Fresh copies under which every write and run is the same as for direct access hold the files
of direct access. -/
theorem get_eq_of_sameRun {vp : HaxmVirtualProcessor D} {u : UncachedProcessor D}
    (hanswers : vp.registers.driver.answers = []) (hfresh : vp.registers.cache.regsDirty = false)
    (hsame : ∀ reg value, reg ≠ .EFER →
      SameRun vp u [.access (.regWrite reg value), .run idleGuest]) (i : HaxmFile) :
    vp.registers.cache.files.get i = u.driver.files.get i := by
  by_contra hne
  obtain ⟨reg, hreg, hwrite, hedit⟩ := exists_registerEdit_ne hne 0
  obtain ⟨files, hentered, hget⟩ := entered_write_run hreg hwrite hanswers hfresh
  obtain ⟨files', hentered', hget'⟩ := uncached_entered_write_run hreg hwrite u
  have heq := (hsame reg 0 hreg).2
  rw [hentered, hentered', List.cons.injEq] at heq
  apply hedit
  rw [← hget, ← hget', heq.1]

/-- The runs of a new processor are those of direct access. -/
theorem create_sameRun (files : HaxmRegisterFiles) (useEferMSR : Bool) (exits : HaxmExits D)
    (driver : HaxmDriver) (hanswers : driver.answers = []) (hio : exits.io.Silent) :
    ∀ ops, (∀ op ∈ ops, PlainOp op) →
      SameRun (HaxmVirtualProcessor.create files useEferMSR exits driver) ⟨driver, exits⟩ ops := by
  intro ops hplain
  have hcreate : ProcessorMatches (fun _ => False)
      (HaxmVirtualProcessor.create files useEferMSR exits driver) ⟨driver, exits⟩ := by
    refine ⟨⟨hanswers, ?_, rfl⟩, rfl, hio⟩
    apply Agrees.of_stale rfl
    intro i
    cases i <;> rfl
  have hstep : ∀ {vp : HaxmVirtualProcessor D} {u : UncachedProcessor D} {op : HaxmOp},
      PlainOp op → ProcessorMatches (fun _ => False) vp u →
        (vp.perform op).1 = (u.perform op).1 ∧
          ProcessorMatches (fun _ => False) (vp.perform op).2 (u.perform op).2 := by
    intro vp u op hop hmatches
    cases op with
    | access a => exact hmatches.access hop
    | run guest =>
      have hrun := hmatches.run (fun _ => False.elim) guest
      exact ⟨hrun.result, hrun.handled (hop _)⟩
    | step guest =>
      have hrun := hmatches.step guest
      exact ⟨hrun.result, hrun.handled (hop _)⟩
  obtain ⟨hresults, hlast⟩ := runAll_simulates hstep hplain hcreate
  exact ⟨hresults, hlast.registers.entered⟩

/-- A driver at the reset vector, with all other registers zero. -/
def resetDriver : HaxmDriver where
  files :=
    { (default : HaxmRegisterFiles) with regs := { (default : VcpuState) with rip := 0xFFF0 } }
  eferMSR := 0
  debug := { control := 0, dr := Vector.replicate 8 0 }
  answers := []
  entered := []

def idleExits : HaxmExits Unit where
  tunnel := ⟨.HLT, fun _ => 0⟩
  exitInfo := ⟨.Normal, 0⟩
  io := IOHandlers.none
  device := ()

theorem create_sameRun_idle :
    SameRun (HaxmVirtualProcessor.create default true idleExits resetDriver)
      ⟨resetDriver, idleExits⟩
      [.access (.regWrite .RAX 1), .step idleGuest, .access (.regRead .RIP 0)] := by
  refine create_sameRun default true idleExits resetDriver rfl (IOHandlers.none_only _) _ ?_
  simp [PlainOp, PlainAccess, HostAccess.registers, idleGuest]

end Runs

end Haxm

end Virt86
