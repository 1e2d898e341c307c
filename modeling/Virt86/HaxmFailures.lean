import Virt86.FailedRuns

/-!
# Failed driver calls on HAXM

The driver answers the calls in order. An access passes on a failed fetch of the registers, and
drops a failed access to the MSR that `EFER` is kept in. `UpdateRegisters` drops every failure, and
the changes along with it.
-/

namespace Virt86

namespace Haxm

/-! ## Answers that are used up -/

/-- The answers that the calls between two states of the driver were given. Calls past the end of
the list succeed and leave no trace. -/
def HaxmDriver.answersUntil (before after : HaxmDriver) : List Bool :=
  before.answers.take (before.answers.length - after.answers.length)

theorem HaxmDriver.answersUntil_of_drop {before after : HaxmDriver} {n : ℕ}
    (h : after.answers = before.answers.drop n) :
    before.answersUntil after = before.answers.take n := by
  rw [answersUntil, h, List.length_drop]
  rcases Nat.le_total n before.answers.length with hle | hle
  · rw [Nat.sub_sub_self hle]
  · rw [Nat.sub_eq_zero_of_le hle, Nat.sub_zero, List.take_length, List.take_of_length_le hle]

theorem HaxmDriver.answer_fst (driver : HaxmDriver) :
    driver.answer.1 = driver.answers.headD true := by
  rw [HaxmDriver.answer]
  cases driver.answers <;> rfl

theorem HaxmDriver.answers_answer (driver : HaxmDriver) :
    driver.answer.2.answers = driver.answers.drop 1 := by
  rw [HaxmDriver.answer]
  cases hanswers : driver.answers with
  | nil => rw [hanswers, List.drop_nil]
  | cons => rfl

/-- The head of the list is the answer to the next call. -/
theorem forall_take_one {answers : List Bool} :
    (∀ ok ∈ answers.take 1, ok = true) ↔ answers.headD true = true := by
  cases answers with
  | nil => simp
  | cons ok rest => simp

theorem forall_take_add {answers : List Bool} {m n : ℕ} :
    (∀ ok ∈ answers.take (m + n), ok = true) ↔
      (∀ ok ∈ answers.take m, ok = true) ∧ ∀ ok ∈ (answers.drop m).take n, ok = true := by
  rw [List.take_add, List.forall_mem_append]

/-! ## Accesses -/

/-- The registers an access is about. -/
def elements : HostAccess → List Reg
  | .regRead reg _ => [reg]
  | .regWrite reg _ => [reg]
  | .regReadBulk regs => regs.map Prod.fst
  | .regWriteBulk regs => regs.map Prod.fst
  | _ => []

namespace HaxmRegisterState

variable {s : HaxmRegisterState}

def refreshCalls (s : HaxmRegisterState) : ℕ := if s.cache.regsDirty then 2 else 0

/-- How many of the registers are accessed through their MSR. -/
def msrCalls (s : HaxmRegisterState) (regs : List Reg) : ℕ :=
  if s.useEferMSR then regs.count .EFER else 0

/-- An access that returns `OK` made no driver call that failed. -/
def OkMeansSucceeded (s : HaxmRegisterState) (a : HostAccess) : Prop :=
  (s.access a).1.1 = .OK → ∀ ok ∈ s.driver.answersUntil (s.access a).2.driver, ok = true

/-- If the registers can be fetched and are all supported, the calls for the MSR succeed too. -/
def MSRsAnswered (s : HaxmRegisterState) (a : HostAccess) : Prop :=
  (∀ ok ∈ s.driver.answers.take s.refreshCalls, ok = true) →
  (∀ reg ∈ elements a, (registerFile reg).isSome) →
  ∀ ok ∈ (s.driver.answers.drop s.refreshCalls).take (s.msrCalls (elements a)), ok = true

theorem fetchFile_answers (i : HaxmFile) (s : HaxmRegisterState) :
    (s.fetchFile i).1 = s.driver.answers.headD true ∧
      (s.fetchFile i).2.driver.answers = s.driver.answers.drop 1 ∧
      (s.fetchFile i).2.useEferMSR = s.useEferMSR := by
  rw [← s.driver.answer_fst, ← s.driver.answers_answer, fetchFile]
  cases s.driver.answer with
  | mk ok driver => cases ok <;> exact ⟨rfl, rfl, rfl⟩

/-- `REFRESH_REGISTERS` succeeds exactly when its calls do. -/
theorem refreshRegisters_answers (s : HaxmRegisterState) :
    (s.refreshRegisters.1 = true ↔ ∀ ok ∈ s.driver.answers.take s.refreshCalls, ok = true) ∧
    (s.refreshRegisters.1 = true →
      s.refreshRegisters.2.driver.answers = s.driver.answers.drop s.refreshCalls ∧
      s.refreshRegisters.2.useEferMSR = s.useEferMSR) := by
  cases hdirty : s.cache.regsDirty with
  | false => simp [refreshRegisters, refreshCalls, hdirty]
  | true =>
    have hcalls : s.refreshCalls = 1 + 1 := by rw [refreshCalls, hdirty, if_pos rfl]
    obtain ⟨hok₁, hanswers₁, hefer₁⟩ := s.fetchFile_answers .regs
    simp only [refreshRegisters, hdirty, if_true]
    rw [hcalls, forall_take_add, forall_take_one, forall_take_one, ← hanswers₁, ← hok₁]
    cases hfetch₁ : s.fetchFile .regs with
    | mk ok s₁ =>
      rw [hfetch₁] at hanswers₁ hefer₁
      cases ok with
      | false => simp
      | true =>
        obtain ⟨hok₂, hanswers₂, hefer₂⟩ := s₁.fetchFile_answers .fpuRegs
        simp only [true_and]
        rw [← hok₂]
        cases hfetch₂ : s₁.fetchFile .fpuRegs with
        | mk ok s₂ =>
          rw [hfetch₂] at hanswers₂ hefer₂
          cases ok with
          | false => simp
          | true =>
            refine ⟨by simp, fun _ => ⟨?_, hefer₂.trans hefer₁⟩⟩
            exact hanswers₂.trans (by rw [hanswers₁, List.drop_drop])

theorem haxmRegRead_status (files : HaxmRegisterFiles) (reg : Reg) (value : RegValue) :
    (haxmRegRead files reg value).1 =
      if (registerFile reg).isSome then .OK else .Unsupported := by
  cases reg <;> rfl

theorem haxmRegWrite_status (c : HaxmRegisterCache) (reg : Reg) (value : RegValue) :
    (haxmRegWrite c reg value).1 =
      if (registerFile reg).isSome then .OK else .Unsupported := by
  cases reg <;> rfl

theorem msrCalls_singleton (s : HaxmRegisterState) (reg : Reg) :
    s.msrCalls [reg] = if reg = .EFER ∧ s.useEferMSR then 1 else 0 := by
  rw [msrCalls, List.count_singleton]
  split_ifs <;> simp_all

theorem msrCalls_cons (s : HaxmRegisterState) (reg : Reg) (regs : List Reg) :
    s.msrCalls (reg :: regs) = s.msrCalls [reg] + s.msrCalls regs := by
  simp only [msrCalls]
  split_ifs
  · rw [← List.singleton_append, List.count_append]
  · rfl

/-- A read or write of one register after the refresh. -/
structure Touches (s : HaxmRegisterState) (reg : Reg) (status : VPOperationStatus)
    (s' : HaxmRegisterState) : Prop where
  status_eq : status = if (registerFile reg).isSome then .OK else .Unsupported
  answers : s'.driver.answers = s.driver.answers.drop (s.msrCalls [reg])
  useEferMSR : s'.useEferMSR = s.useEferMSR

theorem regRead_touches (s : HaxmRegisterState) (reg : Reg) (value : RegValue) :
    Touches s reg (s.regRead reg value).1.1 (s.regRead reg value).2 := by
  rw [regRead]
  by_cases hefer : reg = .EFER ∧ s.useEferMSR
  · rw [if_pos hefer]
    refine ⟨by rw [hefer.1]; rfl, ?_, rfl⟩
    rw [msrCalls_singleton, if_pos hefer]
    exact s.driver.answers_answer
  · rw [if_neg hefer]
    refine ⟨haxmRegRead_status .., ?_, rfl⟩
    rw [msrCalls_singleton, if_neg hefer, List.drop_zero]

theorem regWrite_touches (s : HaxmRegisterState) (reg : Reg) (value : RegValue) :
    Touches s reg (s.regWrite reg value).1 (s.regWrite reg value).2 := by
  rw [regWrite]
  by_cases hefer : reg = .EFER ∧ s.useEferMSR
  · rw [if_pos hefer]
    refine ⟨by rw [hefer.1]; rfl, ?_, rfl⟩
    rw [msrCalls_singleton, if_pos hefer]
    refine Eq.trans ?_ s.driver.answers_answer
    cases s.driver.answer with
    | mk ok driver => cases ok <;> rfl
  · rw [if_neg hefer]
    refine ⟨haxmRegWrite_status .., ?_, rfl⟩
    rw [msrCalls_singleton, if_neg hefer, List.drop_zero]

/-- Reads or writes of registers one after the other, up to the first that fails. -/
structure Performs (s : HaxmRegisterState) (regs : List Reg) (status : VPOperationStatus)
    (s' : HaxmRegisterState) : Prop where
  status_iff : status = .OK ↔ ∀ reg ∈ regs, (registerFile reg).isSome
  answers : status = .OK → s'.driver.answers = s.driver.answers.drop (s.msrCalls regs)

theorem Performs.nil (s : HaxmRegisterState) : Performs s [] .OK s where
  status_iff := by simp
  answers _ := by simp [msrCalls]

section Cons

variable {s₁ s' : HaxmRegisterState} {reg : Reg} {regs : List Reg} {status : VPOperationStatus}

theorem Touches.status_eq_OK_iff (h : Touches s reg status s₁) :
    status = .OK ↔ (registerFile reg).isSome := by
  rw [h.status_eq]
  split_ifs with hfile <;> simp [hfile]

theorem Touches.cons (h : Touches s reg .OK s₁) (hrest : Performs s₁ regs status s') :
    Performs s (reg :: regs) status s' where
  status_iff := by
    rw [List.forall_mem_cons, ← hrest.status_iff, iff_and_self]
    exact fun _ => h.status_eq_OK_iff.mp rfl
  answers hstatus := by
    have hcalls : s₁.msrCalls regs = s.msrCalls regs := by rw [msrCalls, msrCalls, h.useEferMSR]
    rw [hrest.answers hstatus, h.answers, List.drop_drop, hcalls, ← msrCalls_cons]

theorem Touches.stop (h : Touches s reg status s') (hstatus : status ≠ .OK) (regs : List Reg) :
    Performs s (reg :: regs) status s' where
  status_iff := by
    refine iff_of_false hstatus fun hall => hstatus ?_
    exact h.status_eq_OK_iff.mpr (hall reg List.mem_cons_self)
  answers hok := absurd hok hstatus

end Cons

theorem regReadLoop_performs (regs : List (Reg × RegValue)) (s : HaxmRegisterState) :
    Performs s (regs.map Prod.fst) (s.regReadLoop regs).1.1 (s.regReadLoop regs).2 := by
  induction regs generalizing s with
  | nil => exact Performs.nil s
  | cons entry rest ih =>
    obtain ⟨reg, value⟩ := entry
    have htouches := s.regRead_touches reg value
    rw [List.map_cons, regReadLoop]
    cases hread : s.regRead reg value with
    | mk result s₁ =>
      obtain ⟨status, value'⟩ := result
      rw [hread] at htouches
      cases status with
      | OK => exact htouches.cons (ih s₁)
      | _ => exact htouches.stop (by simp) _

theorem regWriteLoop_performs (regs : List (Reg × RegValue)) (s : HaxmRegisterState) :
    Performs s (regs.map Prod.fst) (s.regWriteLoop regs).1 (s.regWriteLoop regs).2 := by
  induction regs generalizing s with
  | nil => exact Performs.nil s
  | cons entry rest ih =>
    obtain ⟨reg, value⟩ := entry
    have htouches := s.regWrite_touches reg value
    rw [List.map_cons, regWriteLoop]
    cases hwrite : s.regWrite reg value with
    | mk status s₁ =>
      rw [hwrite] at htouches
      cases status with
      | OK => exact htouches.cons (ih s₁)
      | _ => exact htouches.stop (by simp) _

theorem accessFresh_performs (s : HaxmRegisterState) (a : HostAccess) :
    Performs s (elements a) (s.accessFresh a).1.1 (s.accessFresh a).2 := by
  cases a with
  | regRead reg value =>
    have htouches := s.regRead_touches reg value
    rw [elements, accessFresh]
    by_cases hstatus : (s.regRead reg value).1.1 = .OK
    · rw [hstatus] at htouches
      have hperforms := htouches.cons (.nil _)
      rwa [← hstatus] at hperforms
    · exact htouches.stop hstatus []
  | regWrite reg value =>
    have htouches := s.regWrite_touches reg value
    rw [elements, accessFresh]
    by_cases hstatus : (s.regWrite reg value).1 = .OK
    · rw [hstatus] at htouches
      have hperforms := htouches.cons (.nil _)
      rwa [← hstatus] at hperforms
    · exact htouches.stop hstatus []
  | regReadBulk regs => exact regReadLoop_performs regs s
  | regWriteBulk regs => exact regWriteLoop_performs regs s
  | _ => exact ⟨by simp [elements, accessFresh], fun _ => by simp [elements, msrCalls]; rfl⟩

/-- For every state and access: `OK` means that all calls succeeded exactly when the calls for the
MSR succeed where nothing else fails. -/
theorem okMeansSucceeded_iff (s : HaxmRegisterState) (a : HostAccess) :
    s.OkMeansSucceeded a ↔ s.MSRsAnswered a := by
  obtain ⟨hrefresh, hfresh⟩ := s.refreshRegisters_answers
  rw [OkMeansSucceeded, MSRsAnswered, ← hrefresh, access]
  cases hstate : s.refreshRegisters with
  | mk ok s₁ =>
    rw [hstate] at hrefresh hfresh
    cases ok with
    | false => simp
    | true =>
      obtain ⟨hanswers, hefer⟩ := hfresh rfl
      have hperforms := s₁.accessFresh_performs a
      have hcalls : s₁.msrCalls (elements a) = s.msrCalls (elements a) := by
        rw [msrCalls, msrCalls, hefer]
      simp only [true_imp_iff, ← hperforms.status_iff]
      refine imp_congr_right fun hok => ?_
      have hused := hperforms.answers hok
      rw [hanswers, List.drop_drop, hcalls] at hused
      rw [HaxmDriver.answersUntil_of_drop hused, forall_take_add, and_iff_right (hrefresh.mp rfl)]

/-! ## Storing the changed files -/

def storeCalls (s : HaxmRegisterState) (i : HaxmFile) : ℕ := if s.cache.changed i then 1 else 0

/-- The driver's answer to the call that stores a changed file. -/
def updateAnswer (s : HaxmRegisterState) : HaxmFile → Bool
  | .regs => s.driver.answers.headD true
  | .fpuRegs => (s.driver.answers.drop (s.storeCalls .regs)).headD true

/-- The changes that the driver did not take stay marked. -/
def StaysPending (s : HaxmRegisterState) : Prop :=
  ∀ i, s.cache.changed i = true → s.updateAnswer i = false →
    s.updateRegisters.cache.changed i = true

def UpdatesAnswered (s : HaxmRegisterState) : Prop :=
  ∀ i, s.cache.changed i = true → s.updateAnswer i = true

theorem storeFile_answers (i : HaxmFile) (s : HaxmRegisterState) :
    (s.storeFile i).driver.answers = s.driver.answers.drop (s.storeCalls i) := by
  rw [storeFile, storeCalls]
  split_ifs
  · refine Eq.trans ?_ s.driver.answers_answer
    cases s.driver.answer with
    | mk ok driver => cases ok <;> rfl
  · rw [List.drop_zero]

theorem updateRegisters_answers (s : HaxmRegisterState) :
    s.updateRegisters.driver.answers =
      s.driver.answers.drop (s.storeCalls .regs + s.storeCalls .fpuRegs) := by
  have hcalls : (s.storeFile .regs).storeCalls .fpuRegs = s.storeCalls .fpuRegs := by
    rw [storeCalls, storeCalls, storeFile_cache]
    rfl
  rw [updateRegisters, storeFile_answers, storeFile_answers, List.drop_drop, hcalls]

theorem forall_take_storeCalls {s : HaxmRegisterState} {i : HaxmFile} {answers : List Bool} :
    (∀ ok ∈ answers.take (s.storeCalls i), ok = true) ↔
      (s.cache.changed i = true → answers.headD true = true) := by
  rw [storeCalls]
  split_ifs with hchanged
  · rw [forall_take_one, imp_iff_right hchanged]
  · simp [hchanged]

/-- All calls of `UpdateRegisters` succeed exactly when each file is stored that was changed. -/
theorem updatesAnswered_iff (s : HaxmRegisterState) : s.UpdatesAnswered ↔
    ∀ ok ∈ s.driver.answersUntil s.updateRegisters.driver, ok = true := by
  rw [HaxmDriver.answersUntil_of_drop s.updateRegisters_answers, forall_take_add,
    forall_take_storeCalls, forall_take_storeCalls]
  constructor
  · intro h
    exact ⟨h .regs, h .fpuRegs⟩
  · rintro ⟨hregs, hfpuRegs⟩ i
    cases i with
    | regs => exact hregs
    | fpuRegs => exact hfpuRegs

end HaxmRegisterState

section Run

variable {D : Type}

/-- A run that returns `OK` made no driver call that failed, and the changes that the driver did not
take stay marked. The calls of the handlers belong to their accesses. -/
def RunReports (vp : HaxmVirtualProcessor D) (guest : HaxmGuest) : Prop :=
  ((vp.runImpl guest).1 = .OK →
    (∀ ok ∈ vp.registers.driver.answersUntil vp.registers.updateRegisters.driver, ok = true) ∧
      (vp.runAnswer guest).ok = true) ∧
  vp.registers.StaysPending

theorem runReports_iff (vp : HaxmVirtualProcessor D) (guest : HaxmGuest) :
    RunReports vp guest ↔ vp.registers.UpdatesAnswered := by
  constructor
  · rintro ⟨-, hpending⟩ i hchanged
    by_contra hanswer
    have hstill := hpending i hchanged (Bool.eq_false_iff.mpr hanswer)
    rw [updateRegisters_cache] at hstill
    cases i <;> cases hstill
  · intro hanswered
    refine ⟨fun hok => ⟨vp.registers.updatesAnswered_iff.mp hanswered, ?_⟩, ?_⟩
    · by_contra hfailed
      simp only [HaxmVirtualProcessor.runImpl] at hok
      rw [HaxmVirtualProcessor.runAnswer] at hfailed
      rw [if_neg hfailed] at hok
      cases hok
    · intro i hchanged hanswer
      rw [hanswered i hchanged] at hanswer
      cases hanswer

end Run

/-- Accesses report their failed calls exactly when the calls for the MSR of `EFER` succeed, and a
run reports and keeps what was not stored exactly when each changed file is stored. -/
theorem reportsFailures_iff {D : Type} :
    (∀ (s : HaxmRegisterState) (a : HostAccess), s.OkMeansSucceeded a ↔ s.MSRsAnswered a) ∧
      ∀ (vp : HaxmVirtualProcessor D) (guest : HaxmGuest),
        RunReports vp guest ↔ vp.registers.UpdatesAnswered :=
  ⟨HaxmRegisterState.okMeansSucceeded_iff, runReports_iff⟩

/-- A processor with fresh copies, whose driver fails the next call. -/
def failingProcessor : HaxmVirtualProcessor Unit :=
  { ranProcessor with
    registers :=
      { ranProcessor.registers with
        cache := { ranProcessor.registers.cache with regsDirty := false }
        useEferMSR := true
        driver := { ranProcessor.registers.driver with answers := [false] } } }

/-- `EFER` cannot be read, and the access returns `OK` with the value it was given. A write to `RAX`
cannot be stored, and the run returns `OK` and forgets it. -/
theorem reportsFailures_dropped :
    let written := (failingProcessor.perform (.access (.regWrite .RAX 7))).2
    (failingProcessor.registers.access (.regRead .EFER 0x55)).1 = (.OK, .values [0x55]) ∧
      ¬ failingProcessor.registers.OkMeansSucceeded (.regRead .EFER 0x55) ∧
      (failingProcessor.perform (.access (.regWrite .RAX 7))).1 = .inl (.OK, .nothing) ∧
      (written.runImpl idleGuest).1 = .OK ∧
      (written.runImpl idleGuest).2.registers.cache.regsChanged = false ∧
      (written.runImpl idleGuest).2.registers.driver.entered.map (·.regs.rax) = [0, 0] ∧
      ¬ RunReports written idleGuest := by
  refine ⟨rfl, fun h => ?_, rfl, rfl, rfl, rfl, ?_⟩
  · exact absurd (h rfl false (List.mem_singleton_self _)) (by decide)
  · rw [runReports_iff]
    intro hanswered
    exact absurd (hanswered .regs rfl) (by decide)

end Haxm

end Virt86
