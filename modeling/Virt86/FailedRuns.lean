import Virt86.HaxmCacheRefinement
import Virt86.KvmCacheRefinement

/-!
# Register copies after failed runs

`RunImpl` returns on a failed run call before it marks the register copies out of date. A run call
that failed may have changed the registers all the same, and copies that were fresh before it are
then taken for the registers.
-/

namespace Virt86

/-! ## KVM -/

namespace Kvm

variable {D : Type} {vp vp' : KvmVirtualProcessor D} {u : UncachedProcessor D} {guest : KvmGuest}
  {op : KvmOp} {answer : KvmRunAnswer}

/-- What `KVM_RUN` answers in `RunImpl`, if it comes to that. -/
def KvmVirtualProcessor.runAnswer (vp : KvmVirtualProcessor D) (guest : KvmGuest) :
    Option KvmRunAnswer :=
  match vp.registers.updateRegisters with
  | (true, registers) => some (guest registers.kernel.files)
  | (false, _) => none

def KvmVirtualProcessor.opAnswer (vp : KvmVirtualProcessor D) : KvmOp → Option KvmRunAnswer
  | .access _ => none
  | .run guest => vp.runAnswer guest
  | .step guest =>
    match (vp.withSingleStep true).setDebug with
    | (true, vp) => vp.runAnswer guest
    | (false, _) => none

/-- The copies are known to be out of date, or hold `files`. -/
def CopiesHold (s : KvmRegisterState) (files : KvmRegisterFiles) : Prop :=
  s.cache.regsDirty = true ∨ s.cache.files = files

/-- The operations that leave the copies in agreement. The handlers must leave the registers alone
in a step, which handles the exit twice. -/
def KeepsAgreement (vp : KvmVirtualProcessor D) (op : KvmOp) : Prop :=
  (match op with
    | .access a => PlainAccess a
    | .run _ => True
    | .step _ => vp.exits.io.Silent) ∧
  ∀ answer, vp.opAnswer op = some answer → answer.ok = false →
    CopiesHold vp.registers answer.files

/-- From here on all is as with direct access to the files `files`. -/
def RunsOn (vp : KvmVirtualProcessor D) (files : KvmRegisterFiles) : Prop :=
  ∀ later, Along KvmVirtualProcessor.perform KeepsAgreement vp later →
    SameRun vp ⟨⟨files, vp.registers.kernel.entered⟩, vp.exits⟩ later

theorem storeFile_cache {s s' : KvmRegisterState} {i : KvmFile} (h : s.storeFile i = (true, s')) :
    s'.cache = s.cache.clearChanged i := by
  simp only [KvmRegisterState.storeFile] at h
  cases hchanged : s.cache.changed i with
  | true =>
    cases hanswer : s.kernel.answer with
    | mk ok kernel =>
      cases ok with
      | true =>
        simp only [hchanged, hanswer, if_true, Prod.mk.injEq, true_and] at h
        rw [← h]
      | false => simp [hchanged, hanswer] at h
  | false =>
    simp only [hchanged, Bool.false_eq_true, if_false, Prod.mk.injEq, true_and] at h
    subst h
    cases hc : s.cache
    cases i <;> simp_all [KvmRegisterCache.clearChanged, KvmRegisterCache.changed]

theorem forFiles_storeFile_cache {is : List KvmFile} {s s' : KvmRegisterState}
    (h : KvmRegisterState.forFiles KvmRegisterState.storeFile is s = (true, s')) :
    s'.cache = is.foldl KvmRegisterCache.clearChanged s.cache := by
  induction is generalizing s with
  | nil =>
    simp only [KvmRegisterState.forFiles, Prod.mk.injEq, true_and] at h
    rw [← h, List.foldl_nil]
  | cons i is ih =>
    simp only [KvmRegisterState.forFiles] at h
    cases hstore : s.storeFile i with
    | mk ok s₁ =>
      cases ok with
      | true =>
        simp only [hstore] at h
        rw [ih h, storeFile_cache hstore, List.foldl_cons]
      | false => simp [hstore] at h

/-- A processor after a run call that failed: its copies are as before, and have nothing to be
stored. -/
structure FailedRun (vp vp' : KvmVirtualProcessor D) (answer : KvmRunAnswer) : Prop where
  unchanged : vp'.registers.cache.changed = fun _ => false
  copies : vp'.registers.cache.files = vp.registers.cache.files
  dirty : vp'.registers.cache.regsDirty = vp.registers.cache.regsDirty
  files : vp'.registers.kernel.files = answer.files
  io : vp'.exits.io = vp.exits.io

/-- The guest is run once the registers are stored. -/
theorem updateRegisters_of_runAnswer (h : vp.runAnswer guest = some answer) :
    ∃ s, vp.registers.updateRegisters = (true, s) ∧ guest s.kernel.files = answer := by
  rw [KvmVirtualProcessor.runAnswer] at h
  cases hupdate : vp.registers.updateRegisters with
  | mk ok s =>
    rw [hupdate] at h
    cases ok with
    | true => exact ⟨s, rfl, Option.some.inj h⟩
    | false => cases h

theorem enter_failedRun (hanswer : vp.runAnswer guest = some answer) (hfailed : answer.ok = false) :
    ∃ vp₁ vp₂, KvmVirtualProcessor.engine.prepare vp = (true, vp₁) ∧
      KvmVirtualProcessor.engine.enter guest vp₁ = (false, vp₂) ∧ FailedRun vp vp₂ answer := by
  obtain ⟨s, hupdate, hrun⟩ := updateRegisters_of_runAnswer hanswer
  have hcache := forFiles_storeFile_cache hupdate
  refine ⟨{ vp with registers := s },
    (KvmVirtualProcessor.engine.enter guest { vp with registers := s }).2, ?_, ?_, ?_⟩
  · simp only [KvmVirtualProcessor.engine, hupdate]
  · simp only [KvmVirtualProcessor.engine, hrun, hfailed]
  · refine ⟨?_, ?_, ?_, ?_, rfl⟩
    · funext i
      simp only [KvmVirtualProcessor.engine, KvmRegisterState.enterGuest, hcache]
      cases i <;> rfl
    · simp only [KvmVirtualProcessor.engine, KvmRegisterState.enterGuest, hcache]
      rfl
    · simp only [KvmVirtualProcessor.engine, KvmRegisterState.enterGuest, hcache]
      rfl
    · simp only [KvmVirtualProcessor.engine, KvmRegisterState.enterGuest, hrun]

theorem setDebug_frame (vp : KvmVirtualProcessor D) :
    vp.setDebug.2.registers.cache = vp.registers.cache ∧
      vp.setDebug.2.registers.kernel.files = vp.registers.kernel.files ∧
      vp.setDebug.2.exits = vp.exits := by
  have hfiles : vp.registers.kernel.answer.2.files = vp.registers.kernel.files := by
    rw [KvmKernel.answer]
    split <;> rfl
  rw [KvmVirtualProcessor.setDebug]
  cases hanswer : vp.registers.kernel.answer with
  | mk ok kernel =>
    rw [hanswer] at hfiles
    cases ok with
    | true => exact ⟨rfl, hfiles, rfl⟩
    | false => exact ⟨rfl, hfiles, rfl⟩

theorem FailedRun.setDebug (h : FailedRun vp vp' answer) (on : Bool) :
    FailedRun vp (vp'.withSingleStep on).setDebug.2 answer := by
  obtain ⟨hcache, hfiles, hexits⟩ := setDebug_frame (vp'.withSingleStep on)
  refine ⟨?_, ?_, ?_, ?_, ?_⟩
  · rw [hcache]
    exact h.unchanged
  · rw [hcache]
    exact h.copies
  · rw [hcache]
    exact h.dirty
  · rw [hfiles]
    exact h.files
  · rw [hexits]
    exact h.io

theorem FailedRun.of_setDebug {on : Bool}
    (h : FailedRun (vp.withSingleStep on).setDebug.2 vp' answer) : FailedRun vp vp' answer := by
  obtain ⟨hcache, -, hexits⟩ := setDebug_frame (vp.withSingleStep on)
  refine ⟨h.unchanged, ?_, ?_, h.files, ?_⟩
  · rw [h.copies, hcache]
    rfl
  · rw [h.dirty, hcache]
    rfl
  · rw [h.io, hexits]
    rfl

/-- Neither `Run` nor `Step` marks the copies out of date when the run call fails. -/
theorem perform_failedRun (hanswer : vp.opAnswer op = some answer) (hfailed : answer.ok = false) :
    FailedRun vp (vp.perform op).2 answer := by
  cases op with
  | access a => simp [KvmVirtualProcessor.opAnswer] at hanswer
  | run guest =>
    obtain ⟨vp₁, vp₂, hprepare, henter, hfailedRun⟩ := enter_failedRun hanswer hfailed
    simp only [KvmVirtualProcessor.perform, runImpl_eq, RunEngine.run_of_failed hprepare henter]
    exact hfailedRun
  | step guest =>
    simp only [KvmVirtualProcessor.opAnswer] at hanswer
    cases hdebug : (vp.withSingleStep true).setDebug with
    | mk ok vp₀ =>
      cases ok with
      | false => simp [hdebug] at hanswer
      | true =>
        simp only [hdebug] at hanswer
        obtain ⟨vp₁, vp₂, hprepare, henter, hfailedRun⟩ := enter_failedRun hanswer hfailed
        simp only [KvmVirtualProcessor.perform, stepImpl_eq,
          RunEngine.step_of_failed hdebug hprepare henter]
        have hvp₀ : (vp.withSingleStep true).setDebug.2 = vp₀ := by rw [hdebug]
        rw [← hvp₀] at hfailedRun
        exact hfailedRun.of_setDebug.setDebug false

section Agreement

theorem ProcessorMatches.runAnswer_eq (h : ProcessorMatches PlainAccess Set.univ vp u)
    (guest : KvmGuest) : vp.runAnswer guest = some (guest u.registers.files) := by
  obtain ⟨s, hupdate, hsynced⟩ := h.registers.updateRegisters
  simp only [KvmVirtualProcessor.runAnswer, hupdate, hsynced.files]

theorem ProcessorMatches.stepAnswer_eq (h : ProcessorMatches PlainAccess Set.univ vp u)
    (guest : KvmGuest) : vp.opAnswer (.step guest) = some (guest u.registers.files) := by
  obtain ⟨vp₁, u₁, hdebug, hu₁, hmatches⟩ := (engine_simulates fun _ => id).startStep h
  have hdebug' : (vp.withSingleStep true).setDebug = (true, vp₁) := hdebug
  obtain rfl : u = u₁ := congrArg Prod.snd hu₁
  simp only [KvmVirtualProcessor.opAnswer, hdebug', hmatches.runAnswer_eq]

/-- A failed run call keeps the agreement when the copies hold what it left behind. -/
theorem ProcessorSynced.of_failed {P : HostAccess → Prop}
    (h : ProcessorSynced P (vp.perform op).2 (u.perform op).2)
    (hanswer : vp.opAnswer op = some answer) (hfailed : answer.ok = false)
    (hcopies : CopiesHold vp.registers answer.files) :
    ProcessorMatches P Set.univ (vp.perform op).2 (u.perform op).2 := by
  have hfailedRun := perform_failedRun hanswer hfailed
  refine ⟨h.registers.matches_of_copies ?_, h.exits, h.handlers⟩
  rw [← h.registers.files, hfailedRun.files, hfailedRun.copies, hfailedRun.dirty]
  exact hcopies

theorem RunEnds.matches {P : HostAccess → Prop} (h : RunEnds P answer.ok op vp u)
    (hanswer : vp.opAnswer op = some answer)
    (hcopies : answer.ok = false → CopiesHold vp.registers answer.files) :
    ProcessorMatches P Set.univ (vp.perform op).2 (u.perform op).2 := by
  cases hok : answer.ok with
  | true => exact h.handled hok
  | false => exact (h.failed hok).of_failed hanswer hok (hcopies hok)

theorem ProcessorMatches.perform (h : ProcessorMatches PlainAccess Set.univ vp u)
    (hkeeps : KeepsAgreement vp op) :
    (vp.perform op).1 = (u.perform op).1 ∧
      ProcessorMatches PlainAccess Set.univ (vp.perform op).2 (u.perform op).2 := by
  obtain ⟨hop, hcopies⟩ := hkeeps
  cases op with
  | access a => exact h.access hop fun _ _ => trivial
  | run guest =>
    have hrun := h.run (fun _ => id) guest
    have hanswer : vp.opAnswer (.run guest) = some (guest u.registers.files) := h.runAnswer_eq guest
    exact ⟨hrun.result, hrun.matches hanswer (hcopies _ hanswer)⟩
  | step guest =>
    have hsilent : ProcessorMatches (fun _ => False) Set.univ vp u := ⟨h.registers, h.exits, hop⟩
    have hrun := hsilent.step guest
    have hanswer := h.stepAnswer_eq guest
    have hnext := hrun.matches hanswer (hcopies _ hanswer)
    exact ⟨hrun.result, hnext.registers, hnext.exits, IOHandlers.Silent.only hnext.handlers _⟩

theorem ProcessorMatches.sameRun_along (h : ProcessorMatches PlainAccess Set.univ vp u)
    {ops : List KvmOp} (halong : Along KvmVirtualProcessor.perform KeepsAgreement vp ops) :
    SameRun vp u ops := by
  have hstep : ∀ {vp : KvmVirtualProcessor D} {u : UncachedProcessor D} {op : KvmOp},
      KeepsAgreement vp op → ProcessorMatches PlainAccess Set.univ vp u →
        (vp.perform op).1 = (u.perform op).1 ∧
          ProcessorMatches PlainAccess Set.univ (vp.perform op).2 (u.perform op).2 :=
    fun hkeeps hmatches => hmatches.perform hkeeps
  obtain ⟨hresults, hlast⟩ := runAll_simulates_along hstep halong h
  exact ⟨hresults, hlast.registers.entered⟩

/-- A write and a run without effect of its own are always possible. -/
theorem along_write_run (vp : KvmVirtualProcessor D) (reg : Reg) (value : RegValue) :
    Along KvmVirtualProcessor.perform KeepsAgreement vp
      [.access (.regWrite reg value), .run idleGuest] := by
  refine ⟨⟨trivial, ?_⟩, ⟨trivial, ?_⟩, trivial⟩
  · intro answer hanswer
    simp [KvmVirtualProcessor.opAnswer] at hanswer
  · intro answer hanswer hfailed
    simp only [KvmVirtualProcessor.opAnswer, KvmVirtualProcessor.runAnswer] at hanswer
    split at hanswer
    · rw [← Option.some.inj hanswer] at hfailed
      exact absurd hfailed (by simp [idleGuest])
    · simp at hanswer

/-- After a failed run call all is as with direct access just when the copies were out of date
before it or hold the files it left behind. -/
theorem runsOn_failed_iff (hanswer : vp.opAnswer op = some answer) (hfailed : answer.ok = false)
    (hanswers : (vp.perform op).2.registers.kernel.answers = [])
    (hio : vp.exits.io.Only PlainAccess) :
    RunsOn (vp.perform op).2 answer.files ↔ CopiesHold vp.registers answer.files := by
  have hfailedRun := perform_failedRun hanswer hfailed
  constructor
  · intro hruns
    cases hdirty : vp.registers.cache.regsDirty with
    | true => exact Or.inl hdirty
    | false =>
      refine Or.inr (KvmRegisterFiles.ext_get fun i => ?_)
      rw [← hfailedRun.copies]
      exact get_eq_of_sameRun hanswers (hfailedRun.dirty.trans hdirty) fun reg value _ =>
        hruns _ (along_write_run _ reg value)
  · intro hcopies later halong
    refine ProcessorMatches.sameRun_along ⟨?_, rfl, ?_⟩ halong
    · refine Synced.matches_of_copies ⟨hanswers, hfailedRun.unchanged, hfailedRun.files, rfl⟩ ?_
      rw [hfailedRun.copies, hfailedRun.dirty]
      exact hcopies
    · rw [hfailedRun.io]
      exact hio

end Agreement

/-- A run that sets `RAX` and is then broken off by a signal. -/
def interruptedGuest : KvmGuest := fun files =>
  ⟨false, { files with regs := { files.regs with rax := 5 } }, ⟨.INTR, fun _ => 0⟩⟩

/-- A processor that was run once. -/
def ranProcessor : KvmVirtualProcessor Unit :=
  ((KvmVirtualProcessor.create default idleExits resetKernel).perform (.run idleGuest)).2

end Kvm

/-! ## HAXM -/

namespace Haxm

variable {D : Type} {vp vp' : HaxmVirtualProcessor D} {u : UncachedProcessor D}
  {guest : HaxmGuest} {op : HaxmOp} {answer : HaxmRunAnswer}

/-- What the driver's `Run` answers in `RunImpl`. -/
def HaxmVirtualProcessor.runAnswer (vp : HaxmVirtualProcessor D) (guest : HaxmGuest) :
    HaxmRunAnswer :=
  guest vp.registers.updateRegisters.driver.files

def HaxmVirtualProcessor.opAnswer (vp : HaxmVirtualProcessor D) : HaxmOp → Option HaxmRunAnswer
  | .access _ => none
  | .run guest => some (vp.runAnswer guest)
  | .step guest =>
    match (vp.withSingleStep true).setDebug with
    | (true, vp) => some (vp.runAnswer guest)
    | (false, _) => none

/-- The copies are known to be out of date, or hold `files`. -/
def CopiesHold (s : HaxmRegisterState) (files : HaxmRegisterFiles) : Prop :=
  s.cache.regsDirty = true ∨ s.cache.files = files

/-- The operations that leave the copies in agreement. The handlers must leave the registers alone
in a step, which handles the exit twice. -/
def KeepsAgreement (vp : HaxmVirtualProcessor D) (op : HaxmOp) : Prop :=
  (match op with
    | .access a => PlainAccess a
    | .run _ => True
    | .step _ => vp.exits.io.Silent) ∧
  ∀ answer, vp.opAnswer op = some answer → answer.ok = false →
    CopiesHold vp.registers answer.files

/-- From here on all is as with direct access to the files `files`. -/
def RunsOn (vp : HaxmVirtualProcessor D) (files : HaxmRegisterFiles) : Prop :=
  ∀ later, Along HaxmVirtualProcessor.perform KeepsAgreement vp later →
    SameRun vp ⟨{ vp.registers.driver with files }, vp.exits⟩ later

theorem storeFile_cache (s : HaxmRegisterState) (i : HaxmFile) :
    (s.storeFile i).cache = s.cache.clearChanged i := by
  rw [HaxmRegisterState.storeFile]
  cases hchanged : s.cache.changed i with
  | true => rfl
  | false =>
    simp only [Bool.false_eq_true, if_false]
    cases hc : s.cache
    cases i <;> simp_all [HaxmRegisterCache.clearChanged, HaxmRegisterCache.changed]

theorem updateRegisters_cache (s : HaxmRegisterState) :
    s.updateRegisters.cache = (s.cache.clearChanged .regs).clearChanged .fpuRegs := by
  rw [HaxmRegisterState.updateRegisters, storeFile_cache, storeFile_cache]

/-- A processor after a run call that failed: its copies are as before, and have nothing to be
stored. -/
structure FailedRun (vp vp' : HaxmVirtualProcessor D) (answer : HaxmRunAnswer) : Prop where
  unchanged : vp'.registers.cache.changed = fun _ => false
  copies : vp'.registers.cache.files = vp.registers.cache.files
  dirty : vp'.registers.cache.regsDirty = vp.registers.cache.regsDirty
  files : vp'.registers.driver.files = answer.files
  io : vp'.exits.io = vp.exits.io

theorem enter_failedRun (hfailed : (vp.runAnswer guest).ok = false) :
    ∃ vp₁ vp₂, HaxmVirtualProcessor.engine.prepare vp = (true, vp₁) ∧
      HaxmVirtualProcessor.engine.enter guest vp₁ = (false, vp₂) ∧
      FailedRun vp vp₂ (vp.runAnswer guest) := by
  have hcache := updateRegisters_cache vp.registers
  rw [HaxmVirtualProcessor.runAnswer] at hfailed ⊢
  refine ⟨_, (HaxmVirtualProcessor.engine.enter guest
    { vp with registers := vp.registers.updateRegisters }).2, rfl, ?_, ?_⟩
  · simp only [HaxmVirtualProcessor.engine, hfailed]
  · refine ⟨?_, ?_, ?_, rfl, rfl⟩
    · funext i
      simp only [HaxmVirtualProcessor.engine, HaxmRegisterState.enterGuest, hcache]
      cases i <;> rfl
    · simp only [HaxmVirtualProcessor.engine, HaxmRegisterState.enterGuest, hcache]
      rfl
    · simp only [HaxmVirtualProcessor.engine, HaxmRegisterState.enterGuest, hcache]
      rfl

theorem setDebug_frame (vp : HaxmVirtualProcessor D) :
    vp.setDebug.2.registers.cache = vp.registers.cache ∧
      vp.setDebug.2.registers.driver.files = vp.registers.driver.files ∧
      vp.setDebug.2.exits = vp.exits := by
  have hfiles : vp.registers.driver.answer.2.files = vp.registers.driver.files := by
    rw [HaxmDriver.answer]
    split <;> rfl
  rw [HaxmVirtualProcessor.setDebug]
  cases hanswer : vp.registers.driver.answer with
  | mk ok driver =>
    rw [hanswer] at hfiles
    cases ok with
    | true => exact ⟨rfl, hfiles, rfl⟩
    | false => exact ⟨rfl, hfiles, rfl⟩

theorem FailedRun.setDebug (h : FailedRun vp vp' answer) (on : Bool) :
    FailedRun vp (vp'.withSingleStep on).setDebug.2 answer := by
  obtain ⟨hcache, hfiles, hexits⟩ := setDebug_frame (vp'.withSingleStep on)
  refine ⟨?_, ?_, ?_, ?_, ?_⟩
  · rw [hcache]
    exact h.unchanged
  · rw [hcache]
    exact h.copies
  · rw [hcache]
    exact h.dirty
  · rw [hfiles]
    exact h.files
  · rw [hexits]
    exact h.io

theorem FailedRun.of_setDebug {on : Bool}
    (h : FailedRun (vp.withSingleStep on).setDebug.2 vp' answer) : FailedRun vp vp' answer := by
  obtain ⟨hcache, -, hexits⟩ := setDebug_frame (vp.withSingleStep on)
  refine ⟨h.unchanged, ?_, ?_, h.files, ?_⟩
  · rw [h.copies, hcache]
    rfl
  · rw [h.dirty, hcache]
    rfl
  · rw [h.io, hexits]
    rfl

/-- Neither `Run` nor `Step` marks the copies out of date when the run call fails. -/
theorem perform_failedRun (hanswer : vp.opAnswer op = some answer) (hfailed : answer.ok = false) :
    FailedRun vp (vp.perform op).2 answer := by
  cases op with
  | access a => simp [HaxmVirtualProcessor.opAnswer] at hanswer
  | run guest =>
    obtain rfl : vp.runAnswer guest = answer := Option.some.inj hanswer
    obtain ⟨vp₁, vp₂, hprepare, henter, hfailedRun⟩ := enter_failedRun hfailed
    simp only [HaxmVirtualProcessor.perform, runImpl_eq, RunEngine.run_of_failed hprepare henter]
    exact hfailedRun
  | step guest =>
    simp only [HaxmVirtualProcessor.opAnswer] at hanswer
    cases hdebug : (vp.withSingleStep true).setDebug with
    | mk ok vp₀ =>
      cases ok with
      | false => simp [hdebug] at hanswer
      | true =>
        simp only [hdebug, Option.some.injEq] at hanswer
        subst hanswer
        obtain ⟨vp₁, vp₂, hprepare, henter, hfailedRun⟩ := enter_failedRun hfailed
        simp only [HaxmVirtualProcessor.perform, stepImpl_eq,
          RunEngine.step_of_failed hdebug hprepare henter]
        have hvp₀ : vp₀ = (vp.withSingleStep true).setDebug.2 := by rw [hdebug]
        have hfailed₀ : FailedRun (vp.withSingleStep true).setDebug.2 vp₂ (vp₀.runAnswer guest) :=
          hvp₀ ▸ hfailedRun
        exact hfailed₀.of_setDebug.setDebug false

section Agreement

theorem ProcessorMatches.runAnswer_eq (h : ProcessorMatches PlainAccess vp u) (guest : HaxmGuest) :
    vp.runAnswer guest = guest u.driver.files := by
  simp only [HaxmVirtualProcessor.runAnswer, h.registers.updateRegisters.files]

theorem ProcessorMatches.stepAnswer_eq (h : ProcessorMatches PlainAccess vp u)
    (guest : HaxmGuest) : vp.opAnswer (.step guest) = some (guest u.driver.files) := by
  obtain ⟨vp₁, u₁, hdebug, hu₁, hmatches⟩ := (engine_simulates fun _ => id).startStep h
  have hdebug' : (vp.withSingleStep true).setDebug = (true, vp₁) := hdebug
  obtain rfl : u = u₁ := congrArg Prod.snd hu₁
  simp only [HaxmVirtualProcessor.opAnswer, hdebug', hmatches.runAnswer_eq]

/-- A failed run call keeps the agreement when the copies hold what it left behind. -/
theorem ProcessorSynced.of_failed {P : HostAccess → Prop}
    (h : ProcessorSynced P (vp.perform op).2 (u.perform op).2)
    (hanswer : vp.opAnswer op = some answer) (hfailed : answer.ok = false)
    (hcopies : CopiesHold vp.registers answer.files) :
    ProcessorMatches P (vp.perform op).2 (u.perform op).2 := by
  have hfailedRun := perform_failedRun hanswer hfailed
  refine ⟨h.registers.matches_of_copies ?_, h.exits, h.handlers⟩
  rw [← h.registers.files, hfailedRun.files, hfailedRun.copies, hfailedRun.dirty]
  exact hcopies

theorem RunEnds.matches {P : HostAccess → Prop} (h : RunEnds P answer.ok op vp u)
    (hanswer : vp.opAnswer op = some answer)
    (hcopies : answer.ok = false → CopiesHold vp.registers answer.files) :
    ProcessorMatches P (vp.perform op).2 (u.perform op).2 := by
  cases hok : answer.ok with
  | true => exact h.handled hok
  | false => exact (h.failed hok).of_failed hanswer hok (hcopies hok)

theorem ProcessorMatches.perform (h : ProcessorMatches PlainAccess vp u)
    (hkeeps : KeepsAgreement vp op) :
    (vp.perform op).1 = (u.perform op).1 ∧
      ProcessorMatches PlainAccess (vp.perform op).2 (u.perform op).2 := by
  obtain ⟨hop, hcopies⟩ := hkeeps
  cases op with
  | access a => exact h.access hop
  | run guest =>
    have hrun := h.run (fun _ => id) guest
    have hanswer : vp.opAnswer (.run guest) = some (guest u.driver.files) :=
      congrArg some (h.runAnswer_eq guest)
    exact ⟨hrun.result, hrun.matches hanswer (hcopies _ hanswer)⟩
  | step guest =>
    have hsilent : ProcessorMatches (fun _ => False) vp u := ⟨h.registers, h.exits, hop⟩
    have hrun := hsilent.step guest
    have hanswer := h.stepAnswer_eq guest
    have hnext := hrun.matches hanswer (hcopies _ hanswer)
    exact ⟨hrun.result, hnext.registers, hnext.exits, IOHandlers.Silent.only hnext.handlers _⟩

theorem ProcessorMatches.sameRun_along (h : ProcessorMatches PlainAccess vp u) {ops : List HaxmOp}
    (halong : Along HaxmVirtualProcessor.perform KeepsAgreement vp ops) : SameRun vp u ops := by
  have hstep : ∀ {vp : HaxmVirtualProcessor D} {u : UncachedProcessor D} {op : HaxmOp},
      KeepsAgreement vp op → ProcessorMatches PlainAccess vp u →
        (vp.perform op).1 = (u.perform op).1 ∧
          ProcessorMatches PlainAccess (vp.perform op).2 (u.perform op).2 :=
    fun hkeeps hmatches => hmatches.perform hkeeps
  obtain ⟨hresults, hlast⟩ := runAll_simulates_along hstep halong h
  exact ⟨hresults, hlast.registers.entered⟩

theorem along_write_run (vp : HaxmVirtualProcessor D) {reg : Reg} (hreg : reg ≠ .EFER)
    (value : RegValue) : Along HaxmVirtualProcessor.perform KeepsAgreement vp
      [.access (.regWrite reg value), .run idleGuest] := by
  refine ⟨⟨?_, ?_⟩, ⟨trivial, ?_⟩, trivial⟩
  · intro r hr
    rwa [List.mem_singleton.mp hr]
  · intro answer hanswer
    simp [HaxmVirtualProcessor.opAnswer] at hanswer
  · intro answer hanswer hfailed
    simp only [HaxmVirtualProcessor.opAnswer] at hanswer
    rw [← Option.some.inj hanswer] at hfailed
    exact absurd hfailed (by simp [HaxmVirtualProcessor.runAnswer, idleGuest])

/-- After a failed run call all is as with direct access just when the copies were out of date
before it or hold the files it left behind. -/
theorem runsOn_failed_iff (hanswer : vp.opAnswer op = some answer) (hfailed : answer.ok = false)
    (hanswers : (vp.perform op).2.registers.driver.answers = [])
    (hio : vp.exits.io.Only PlainAccess) :
    RunsOn (vp.perform op).2 answer.files ↔ CopiesHold vp.registers answer.files := by
  have hfailedRun := perform_failedRun hanswer hfailed
  constructor
  · intro hruns
    cases hdirty : vp.registers.cache.regsDirty with
    | true => exact Or.inl hdirty
    | false =>
      refine Or.inr (HaxmRegisterFiles.ext_get fun i => ?_)
      rw [← hfailedRun.copies]
      exact get_eq_of_sameRun hanswers (hfailedRun.dirty.trans hdirty) (fun reg value hreg =>
        hruns _ (along_write_run _ hreg value)) i
  · intro hcopies later halong
    refine ProcessorMatches.sameRun_along ⟨?_, rfl, ?_⟩ halong
    · refine Synced.matches_of_copies ⟨hanswers, hfailedRun.unchanged, hfailedRun.files, rfl⟩ ?_
      rw [hfailedRun.copies, hfailedRun.dirty]
      exact hcopies
    · rw [hfailedRun.io]
      exact hio

end Agreement

/-- A run that sets `RAX` and then fails. -/
def interruptedGuest : HaxmGuest := fun files =>
  ⟨false, { files with regs := { files.regs with rax := 5 } }, ⟨.PAUSED, fun _ => 0⟩⟩

/-- A processor that was run once. -/
def ranProcessor : HaxmVirtualProcessor Unit :=
  ((HaxmVirtualProcessor.create default true idleExits resetDriver).perform (.run idleGuest)).2

end Haxm

/-! ## Both processors -/

/-- After a failed run call all is as with direct access just when the copies were out of date
before it or hold the files it left behind. -/
theorem failedRun_runsOn_iff {D : Type} :
    (∀ (vp : Kvm.KvmVirtualProcessor D) (op : Kvm.KvmOp) (answer : Kvm.KvmRunAnswer),
      vp.opAnswer op = some answer → answer.ok = false →
      (vp.perform op).2.registers.kernel.answers = [] → vp.exits.io.Only Kvm.PlainAccess →
        (Kvm.RunsOn (vp.perform op).2 answer.files ↔ Kvm.CopiesHold vp.registers answer.files)) ∧
    (∀ (vp : Haxm.HaxmVirtualProcessor D) (op : Haxm.HaxmOp) (answer : Haxm.HaxmRunAnswer),
      vp.opAnswer op = some answer → answer.ok = false →
      (vp.perform op).2.registers.driver.answers = [] → vp.exits.io.Only Haxm.PlainAccess →
        (Haxm.RunsOn (vp.perform op).2 answer.files ↔
          Haxm.CopiesHold vp.registers answer.files)) :=
  ⟨fun _ _ _ => Kvm.runsOn_failed_iff, fun _ _ _ => Haxm.runsOn_failed_iff⟩

/-- A run that fails right after another, with no access to the registers in between. -/
theorem failedRun_runsOn_dirty :
    Kvm.RunsOn (Kvm.ranProcessor.perform (.run Kvm.interruptedGuest)).2
        (Kvm.interruptedGuest Kvm.resetKernel.files).files ∧
      Haxm.RunsOn (Haxm.ranProcessor.perform (.step Haxm.interruptedGuest)).2
        (Haxm.interruptedGuest Haxm.resetDriver.files).files :=
  ⟨(failedRun_runsOn_iff.1 Kvm.ranProcessor (.run Kvm.interruptedGuest)
      (Kvm.interruptedGuest Kvm.resetKernel.files) rfl rfl rfl
      (IOHandlers.none_only _)).mpr (Or.inl rfl),
    (failedRun_runsOn_iff.2 Haxm.ranProcessor (.step Haxm.interruptedGuest)
      (Haxm.interruptedGuest Haxm.resetDriver.files) rfl rfl rfl
      (IOHandlers.none_only _)).mpr (Or.inl rfl)⟩

/-- Once a register was read, a run that sets `RAX` and fails leaves a copy of `RAX` from before it,
which the next read returns and the next write hands to the hypervisor. -/
theorem failedRun_leaves_stale_copies :
    let kvm := ((Kvm.ranProcessor.perform (.access (.regRead .RAX 0))).2.perform
      (.run Kvm.interruptedGuest)).2
    let haxm := ((Haxm.ranProcessor.perform (.access (.regRead .RAX 0))).2.perform
      (.run Haxm.interruptedGuest)).2
    kvm.registers.kernel.files.regs.rax = 5 ∧
      (kvm.perform (.access (.regRead .RAX 0))).1 = .inl (.OK, .values [RegValue.setU64 0 0]) ∧
      (runAll Kvm.KvmVirtualProcessor.perform kvm
        [.access (.regWrite .RBX 1), .run Kvm.idleGuest]).2.registers.kernel.entered.map
          (·.regs.rax) = [0, 0, 0] ∧
      ¬ Kvm.RunsOn kvm kvm.registers.kernel.files ∧
      haxm.registers.driver.files.regs.rax = 5 ∧
      (haxm.perform (.access (.regRead .RAX 0))).1 = .inl (.OK, .values [RegValue.setU64 0 0]) ∧
      (runAll Haxm.HaxmVirtualProcessor.perform haxm
        [.access (.regWrite .RBX 1), .run Haxm.idleGuest]).2.registers.driver.entered.map
          (·.regs.rax) = [0, 0, 0] ∧
      ¬ Haxm.RunsOn haxm haxm.registers.driver.files := by
  refine ⟨rfl, rfl, rfl, ?_, rfl, rfl, rfl, ?_⟩
  · intro hruns
    have hsame := (hruns _ (Kvm.along_write_run _ .RBX 1)).2
    exact absurd (congrArg (List.map (·.regs.rax)) hsame) (by decide)
  · intro hruns
    have hreg : Reg.RBX ≠ Reg.EFER := by decide
    have hsame := (hruns _ (Haxm.along_write_run _ hreg 1)).2
    exact absurd (congrArg (List.map (·.regs.rax)) hsame) (by decide)

end Virt86
