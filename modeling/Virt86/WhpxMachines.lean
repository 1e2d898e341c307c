import Virt86.Specifications

/-!
# Setting up a virtual machine on WHPX

`Initialize` creates a partition, configures it and creates its virtual processors. When one of its
calls fails it cleans up in the branch of that call, and the destructors of the processors and of
the machine follow. Every call of the dispatch table is recorded with its answer.
-/

namespace Virt86

namespace Whpx

/-- The value of `m_handle`. -/
inductive PartitionHandle where
  | partition
  | INVALID_HANDLE_VALUE
  deriving DecidableEq, Repr

/-- What `WHvSetPartitionProperty` is given. An element of an array that was not assigned is
`none`. -/
inductive PartitionProperty where
  | processorCount (count : U32)
  | extendedVmExits (cpuid msr exception : Bool)
  | cpuidExitList (functions : List (Option U32))
  | exceptionExitBitmap (bitmap : U64)
  | cpuidResultList (results : List CPUIDResult)
  deriving DecidableEq, Repr

/-- The calls of the dispatch table, and `CloseHandle`. -/
inductive DispatchCall where
  | createPartition (ok : Bool)
  | setPartitionProperty (handle : PartitionHandle) (property : PartitionProperty) (ok : Bool)
  | setupPartition (handle : PartitionHandle) (ok : Bool)
  | createVirtualProcessor (handle : PartitionHandle) (id : U32) (ok : Bool)
  | emulatorCreateEmulator (id : U32) (ok : Bool)
  | setVirtualProcessorRegisters (handle : PartitionHandle) (id : U32) (ok : Bool)
  | emulatorDestroyEmulator (id : U32)
  | deleteVirtualProcessor (handle : PartitionHandle) (id : U32)
  | deletePartition (handle : PartitionHandle)
  | closeHandle (handle : PartitionHandle)
  deriving DecidableEq, Repr

/-- Which calls succeed; those for a processor by the round of the loop. -/
structure DispatchAnswers where
  createPartition : Bool
  processorCount : Bool
  extendedVmExits : Bool
  cpuidExitList : Bool
  exceptionExitBitmap : Bool
  cpuidResultList : Bool
  setupPartition : Bool
  createVirtualProcessor : ℕ → Bool
  emulatorCreateEmulator : ℕ → Bool
  setVirtualProcessorRegisters : ℕ → Bool

/-- `WhpxVirtualMachine`: its handle, the processors it registered and the calls made so far. -/
structure WhpxVirtualMachine where
  handle : PartitionHandle
  vps : List U32
  calls : List DispatchCall
  deriving DecidableEq, Repr

/-- How far the loop over the processors is. -/
inductive Progress where
  | running | failed | initialized
  deriving DecidableEq, Repr

/-! ## The list of CPUID exits -/

/-- The loop that copies the functions, from `i` on. The right side of its assignment is evaluated
first, so the index on the left is `i` too; it is incremented there and in the header. -/
def fillExitList (vmExitCPUIDFunctions : List U32) (i : ℕ) (functions : List (Option U32)) :
    List (Option U32) :=
  if i < vmExitCPUIDFunctions.length then
    fillExitList vmExitCPUIDFunctions (i + 1 + 1) (functions.set i vmExitCPUIDFunctions[i]?)
  else functions
termination_by vmExitCPUIDFunctions.length - i

def cpuidExitList (vmExitCPUIDFunctions : List U32) : List (Option U32) :=
  fillExitList vmExitCPUIDFunctions 0 (List.replicate vmExitCPUIDFunctions.length none)

/-! ## Configuration -/

/-- A call of `Initialize` that configures the partition: whether it is made, whether it succeeds,
and whether its branch for a failure closes the handle. -/
structure ConfigurationStep where
  call : PartitionHandle → Bool → DispatchCall
  made : Bool
  ok : Bool
  closes : Bool

section Steps

variable (specifications : VMSpecifications) (features : ExtendedVMExit) (answers : DispatchAnswers)

def enabledVMExits : ExtendedVMExit := specifications.extendedVMExits &&& features

def anyOf (enabled : ExtendedVMExit) (mask : ExtendedVMExit) : Bool := enabled &&& mask ≠ 0

def processorCountStep : ConfigurationStep where
  call handle :=
    .setPartitionProperty handle (.processorCount (specifications.numProcessors.setWidth 32))
  made := true
  ok := answers.processorCount
  closes := true

/-- The exit for CPUID is set in any case. -/
def extendedVmExitsStep : ConfigurationStep where
  call handle :=
    .setPartitionProperty handle (.extendedVmExits true
      (anyOf (enabledVMExits specifications features) .MSRAccess)
      (anyOf (enabledVMExits specifications features) .Exception))
  made := enabledVMExits specifications features ≠ 0
  ok := answers.extendedVmExits
  closes := true

def cpuidExitListStep : ConfigurationStep where
  call handle := .setPartitionProperty handle
    (.cpuidExitList (cpuidExitList specifications.vmExitCPUIDFunctions))
  made := anyOf (enabledVMExits specifications features) .CPUID &&
    specifications.vmExitCPUIDFunctions.length > 0
  ok := answers.cpuidExitList
  closes := false

def exceptionExitBitmapStep : ConfigurationStep where
  call handle :=
    .setPartitionProperty handle (.exceptionExitBitmap specifications.vmExitExceptions)
  made := anyOf (enabledVMExits specifications features) .Exception
  ok := answers.exceptionExitBitmap
  closes := true

def cpuidResultListStep : ConfigurationStep where
  call handle := .setPartitionProperty handle (.cpuidResultList specifications.CPUIDResults)
  made := specifications.CPUIDResults.length > 0
  ok := answers.cpuidResultList
  closes := false

def setupPartitionStep : ConfigurationStep where
  call handle := .setupPartition handle
  made := true
  ok := answers.setupPartition
  closes := true

/-- The steps in order. -/
def configurationSteps : List ConfigurationStep :=
  [processorCountStep specifications answers, extendedVmExitsStep specifications features answers,
    cpuidExitListStep specifications features answers,
    exceptionExitBitmapStep specifications features answers,
    cpuidResultListStep specifications answers, setupPartitionStep answers]

end Steps

namespace WhpxVirtualMachine

/-- A machine before `Initialize`. -/
def constructed : WhpxVirtualMachine := ⟨.INVALID_HANDLE_VALUE, [], []⟩

def dispatch (vm : WhpxVirtualMachine) (call : DispatchCall) : WhpxVirtualMachine :=
  { vm with calls := vm.calls ++ [call] }

/-- `CloseHandle(m_handle)`, after which the machine has no handle. -/
def closeHandle (vm : WhpxVirtualMachine) : WhpxVirtualMachine :=
  { vm.dispatch (.closeHandle vm.handle) with handle := .INVALID_HANDLE_VALUE }

/-- The part of `Initialize` that configures the partition, and whether it goes on. -/
def configure (vm : WhpxVirtualMachine) : List ConfigurationStep → Bool × WhpxVirtualMachine
  | [] => (true, vm)
  | step :: steps =>
    if step.made then
      let vm := vm.dispatch (step.call vm.handle step.ok)
      if step.ok then vm.configure steps
      else (false, if step.closes then vm.closeHandle else vm)
    else vm.configure steps

/-- `WhpxVirtualProcessor::Initialize`, in a round of the loop. -/
def initializeVP (vm : WhpxVirtualMachine) (answers : DispatchAnswers) (round : ℕ) (id : U32) :
    Bool × WhpxVirtualMachine :=
  let ok := answers.createVirtualProcessor round
  let vm := vm.dispatch (.createVirtualProcessor vm.handle id ok)
  if !ok then (false, vm)
  else
    let ok := answers.emulatorCreateEmulator round
    let vm := vm.dispatch (.emulatorCreateEmulator id ok)
    if !ok then (false, vm.dispatch (.deleteVirtualProcessor vm.handle id))
    else
      let ok := answers.setVirtualProcessorRegisters round
      let vm := vm.dispatch (.setVirtualProcessorRegisters vm.handle id ok)
      if !ok then
        let vm := vm.dispatch (.emulatorDestroyEmulator id)
        (false, vm.dispatch (.deleteVirtualProcessor vm.handle id))
      else (true, vm)

/-- The destructor of a processor, which has an emulator once it is initialized. -/
def destroyVP (vm : WhpxVirtualMachine) (initialized : Bool) (id : U32) : WhpxVirtualMachine :=
  let vm := if initialized then vm.dispatch (.emulatorDestroyEmulator id) else vm
  vm.dispatch (.deleteVirtualProcessor vm.handle id)

/-- The loop over the processors, with the rounds that it is given. The number of a processor has
32 bits. A processor that fails is destroyed when the function returns. -/
def createVPs (numProcessors : U64) (answers : DispatchAnswers) :
    ℕ → ℕ → U32 → WhpxVirtualMachine → Progress × WhpxVirtualMachine
  | 0, _, _, vm => (.running, vm)
  | rounds + 1, round, id, vm =>
    if id.setWidth 64 < numProcessors then
      let (ok, vm) := vm.initializeVP answers round id
      if !ok then (.failed, vm.closeHandle.destroyVP false id)
      else createVPs numProcessors answers rounds (round + 1) (id + 1)
        { vm with vps := vm.vps ++ [id] }
    else (.initialized, vm)

/-- `WhpxVirtualMachine::Initialize`. -/
def initializeVM (specifications : VMSpecifications) (features : ExtendedVMExit)
    (answers : DispatchAnswers) (rounds : ℕ) : Progress × WhpxVirtualMachine :=
  let vm := constructed.dispatch (.createPartition answers.createPartition)
  if !answers.createPartition then (.failed, vm)
  else
    let vm := { vm with handle := .partition }
    let (ok, vm) := vm.configure (configurationSteps specifications features answers)
    if !ok then (.failed, vm)
    else createVPs specifications.numProcessors answers rounds 0 0 vm

/-- `~WhpxVirtualMachine`. -/
def destroy (vm : WhpxVirtualMachine) : WhpxVirtualMachine :=
  let vm := { vm.vps.foldl (fun vm id => vm.destroyVP true id) vm with vps := [] }
  if vm.handle ≠ .INVALID_HANDLE_VALUE then
    { vm.dispatch (.deletePartition vm.handle) with handle := .INVALID_HANDLE_VALUE }
  else vm

/-- `CreateVM`, followed by the destruction of the machine: on scope exit when it failed, and when
it is freed otherwise. -/
def lifetime (specifications : VMSpecifications) (features : ExtendedVMExit)
    (answers : DispatchAnswers) (rounds : ℕ) : Progress × WhpxVirtualMachine :=
  let (progress, vm) := initializeVM specifications features answers rounds
  (progress, if progress = .running then vm else vm.destroy)

end WhpxVirtualMachine

/-! ## The list that is passed -/

/-- The loop assigns every other element. -/
theorem getElem?_fillExitList (vmExitCPUIDFunctions : List U32) (i : ℕ)
    (functions : List (Option U32)) (hlength : functions.length = vmExitCPUIDFunctions.length)
    (k : ℕ) :
    (fillExitList vmExitCPUIDFunctions i functions)[k]? =
      if i ≤ k ∧ (k - i) % 2 = 0 then vmExitCPUIDFunctions[k]?.map some
      else functions[k]? := by
  fun_induction fillExitList vmExitCPUIDFunctions i functions with
  | case1 i functions h ih =>
    rw [ih (by rw [List.length_set, hlength]), List.getElem?_set]
    by_cases hk : i = k
    · subst hk
      rw [if_neg (by omega), if_pos rfl, if_pos (by omega), if_pos (by omega),
        List.getElem?_eq_getElem h]
      rfl
    · rw [if_neg hk]
      by_cases heven : i + 1 + 1 ≤ k ∧ (k - (i + 1 + 1)) % 2 = 0
      · rw [if_pos heven, if_pos (by omega)]
      · rw [if_neg heven, if_neg (by omega)]
  | case2 i functions h =>
    split_ifs with hk
    · rw [List.getElem?_eq_none (by omega), List.getElem?_eq_none (by omega)]
      rfl
    · rfl

/-- The list is passed whole if and only if it has at most one element. -/
theorem cpuidExitList_eq_iff (vmExitCPUIDFunctions : List U32) :
    cpuidExitList vmExitCPUIDFunctions = vmExitCPUIDFunctions.map some ↔
      vmExitCPUIDFunctions.length ≤ 1 := by
  have hfilled := getElem?_fillExitList vmExitCPUIDFunctions 0
    (List.replicate vmExitCPUIDFunctions.length none) (by simp)
  constructor
  · intro h
    apply Nat.le_of_not_lt
    intro hlength
    have hsecond := congrArg (·[1]?) h
    simp only [cpuidExitList, hfilled, List.getElem?_map] at hsecond
    rw [if_neg (by decide), List.getElem?_replicate, if_pos (by omega),
      List.getElem?_eq_getElem (by omega)] at hsecond
    cases hsecond
  · intro hlength
    apply List.ext_getElem?
    intro k
    rw [cpuidExitList, hfilled, List.getElem?_map]
    by_cases hk : k = 0
    · subst hk
      rfl
    · have hnone : vmExitCPUIDFunctions[k]? = none := List.getElem?_eq_none (by omega)
      have hreplicate : (List.replicate vmExitCPUIDFunctions.length
          (none : Option U32))[k]? = none :=
        List.getElem?_eq_none (by rw [List.length_replicate]; omega)
      rw [hnone, hreplicate]
      split_ifs <;> rfl

/-- The lists of CPUID exits that are passed. -/
def DispatchCall.exitList : DispatchCall → Option (List (Option U32))
  | .setPartitionProperty _ (.cpuidExitList functions) _ => some functions
  | _ => none

namespace WhpxVirtualMachine

def exitLists (vm : WhpxVirtualMachine) : List (List (Option U32)) :=
  vm.calls.filterMap DispatchCall.exitList

theorem exitLists_dispatch (vm : WhpxVirtualMachine) (call : DispatchCall) :
    (vm.dispatch call).exitLists = vm.exitLists ++ call.exitList.toList := by
  rw [exitLists, dispatch, List.filterMap_append]
  cases h : call.exitList with
  | none => simp [h, exitLists]
  | some functions => simp [h, exitLists]

theorem exitLists_closeHandle (vm : WhpxVirtualMachine) :
    vm.closeHandle.exitLists = vm.exitLists :=
  (exitLists_dispatch vm _).trans (List.append_nil _)

theorem exitLists_initializeVP (vm : WhpxVirtualMachine) (answers : DispatchAnswers) (round : ℕ)
    (id : U32) : (vm.initializeVP answers round id).2.exitLists = vm.exitLists := by
  simp only [initializeVP]
  split_ifs <;> simp [exitLists_dispatch, DispatchCall.exitList]

theorem exitLists_destroyVP (vm : WhpxVirtualMachine) (initialized : Bool) (id : U32) :
    (vm.destroyVP initialized id).exitLists = vm.exitLists := by
  simp only [destroyVP]
  split_ifs <;> simp [exitLists_dispatch, DispatchCall.exitList]

theorem exitLists_createVPs (numProcessors : U64) (answers : DispatchAnswers)
    (rounds round : ℕ) (id : U32) (vm : WhpxVirtualMachine) :
    (vm.createVPs numProcessors answers rounds round id).2.exitLists = vm.exitLists := by
  induction rounds generalizing round id vm with
  | zero => rfl
  | succ rounds ih =>
    have hinitialized := exitLists_initializeVP vm answers round id
    simp only [createVPs]
    split_ifs with hid hfailed
    · rw [exitLists_destroyVP, exitLists_closeHandle, hinitialized]
    · rw [ih]
      exact hinitialized
    · rfl

theorem exitLists_destroy (vm : WhpxVirtualMachine) : vm.destroy.exitLists = vm.exitLists := by
  have hvps : ∀ vps : List U32, ∀ vm : WhpxVirtualMachine,
      (vps.foldl (fun vm id => vm.destroyVP true id) vm).exitLists = vm.exitLists := by
    intro vps
    induction vps with
    | nil => exact fun _ => rfl
    | cons id vps ih => exact fun vm => (ih _).trans (exitLists_destroyVP vm true id)
  simp only [destroy]
  split_ifs
  · exact (exitLists_dispatch _ _).trans ((List.append_nil _).trans (hvps _ _))
  · exact hvps _ _

/-- The lists that configuring steps pass: those of the calls up to the first that fails. -/
def passedLists (handle : PartitionHandle) : List ConfigurationStep → List (List (Option U32))
  | [] => []
  | step :: steps =>
    if step.made then
      (step.call handle step.ok).exitList.toList ++
        if step.ok then passedLists handle steps else []
    else passedLists handle steps

theorem exitLists_configure (vm : WhpxVirtualMachine) (steps : List ConfigurationStep) :
    (vm.configure steps).2.exitLists = vm.exitLists ++ passedLists vm.handle steps := by
  induction steps generalizing vm with
  | nil => simp [configure, passedLists]
  | cons step steps ih =>
    simp only [configure, passedLists]
    split_ifs with hmade hok hcloses
    · rw [ih, exitLists_dispatch, List.append_assoc]
      rfl
    · rw [exitLists_closeHandle, exitLists_dispatch, List.append_nil]
    · rw [exitLists_dispatch, List.append_nil]
    · exact ih vm

theorem passedLists_configurationSteps (specifications : VMSpecifications)
    (features : ExtendedVMExit) (answers : DispatchAnswers) (handle : PartitionHandle) :
    passedLists handle (configurationSteps specifications features answers) =
      if answers.processorCount ∧ answers.extendedVmExits ∧
          (cpuidExitListStep specifications features answers).made then
        [cpuidExitList specifications.vmExitCPUIDFunctions]
      else [] := by
  have hafter : passedLists handle [exceptionExitBitmapStep specifications features answers,
      cpuidResultListStep specifications answers, setupPartitionStep answers] = [] := by
    simp only [passedLists]
    split_ifs <;> rfl
  have hlist : passedLists handle [cpuidExitListStep specifications features answers,
      exceptionExitBitmapStep specifications features answers,
      cpuidResultListStep specifications answers, setupPartitionStep answers] =
        if (cpuidExitListStep specifications features answers).made then
          [cpuidExitList specifications.vmExitCPUIDFunctions]
        else [] := by
    rw [passedLists, hafter]
    split_ifs <;> rfl
  -- without extended exits there is no exit for CPUID either
  have hmade : (extendedVmExitsStep specifications features answers).made = false →
      (cpuidExitListStep specifications features answers).made = false := by
    intro h
    simp only [extendedVmExitsStep, decide_eq_false_iff_not, not_not] at h
    simp [cpuidExitListStep, anyOf, h]
  have hexits : ∀ steps, passedLists handle (extendedVmExitsStep specifications features answers ::
      steps) = if (extendedVmExitsStep specifications features answers).made then
        if answers.extendedVmExits then passedLists handle steps else []
      else passedLists handle steps := fun _ => rfl
  have hcount : ∀ steps, passedLists handle (processorCountStep specifications answers :: steps) =
      if answers.processorCount then passedLists handle steps else [] := fun _ => rfl
  rw [configurationSteps, hcount, hexits, hlist]
  cases answers.processorCount with
  | false => simp
  | true =>
    cases hextended : (extendedVmExitsStep specifications features answers).made with
    | false => simp [hmade hextended]
    | true => cases answers.extendedVmExits <;> simp

/-- A list is passed when exits for CPUID are enabled, there are functions, and the calls before
succeed. -/
theorem exitLists_lifetime (specifications : VMSpecifications) (features : ExtendedVMExit)
    (answers : DispatchAnswers) (rounds : ℕ) :
    (lifetime specifications features answers rounds).2.exitLists =
      if answers.createPartition ∧ answers.processorCount ∧ answers.extendedVmExits ∧
          (cpuidExitListStep specifications features answers).made then
        [cpuidExitList specifications.vmExitCPUIDFunctions]
      else [] := by
  have hdestroyed : (lifetime specifications features answers rounds).2.exitLists =
      (initializeVM specifications features answers rounds).2.exitLists := by
    simp only [lifetime]
    split_ifs
    · rfl
    · exact exitLists_destroy _
  rw [hdestroyed]
  simp only [initializeVM]
  cases hpartition : answers.createPartition with
  | false => rfl
  | true =>
    simp only [Bool.not_true, Bool.false_eq_true, if_false, true_and]
    rw [← passedLists_configurationSteps _ _ _ .partition]
    split_ifs
    · exact (exitLists_configure _ _).trans (List.nil_append _)
    · rw [exitLists_createVPs]
      exact (exitLists_configure _ _).trans (List.nil_append _)

end WhpxVirtualMachine

/-- Every list of CPUID exits that is passed is the one of the specification if and only if exits
for CPUID are not enabled, there is at most one function, or a call fails before the list. -/
theorem cpuidExits_passed_iff (specifications : VMSpecifications) (features : ExtendedVMExit)
    (answers : DispatchAnswers) (rounds : ℕ) :
    (∀ functions ∈
        (WhpxVirtualMachine.lifetime specifications features answers rounds).2.exitLists,
      functions = specifications.vmExitCPUIDFunctions.map some) ↔
      anyOf (enabledVMExits specifications features) .CPUID = false ∨
        specifications.vmExitCPUIDFunctions.length ≤ 1 ∨
        ¬ (answers.createPartition ∧ answers.processorCount ∧ answers.extendedVmExits) := by
  rw [WhpxVirtualMachine.exitLists_lifetime]
  split_ifs with hpassed
  · obtain ⟨hpartition, hcount, hexits, hmade⟩ := hpassed
    rw [cpuidExitListStep, Bool.and_eq_true] at hmade
    rw [List.forall_mem_singleton, cpuidExitList_eq_iff]
    simp [hpartition, hcount, hexits, hmade.1]
  · refine iff_of_true (fun _ h => absurd h List.not_mem_nil) ?_
    cases henabled : anyOf (enabledVMExits specifications features) .CPUID with
    | false => exact .inl rfl
    | true =>
      refine .inr (Classical.or_iff_not_imp_left.mpr fun hlength hok => hpassed ?_)
      refine ⟨hok.1, hok.2.1, hok.2.2, ?_⟩
      rw [cpuidExitListStep, henabled, Bool.true_and, decide_eq_true_eq]
      omega

/-- Answers for which every call succeeds. -/
def DispatchAnswers.succeeding : DispatchAnswers :=
  ⟨true, true, true, true, true, true, true, fun _ => true, fun _ => true, fun _ => true⟩

/-- Of three functions the second is not passed. -/
theorem cpuidExits_passed_not :
    let specifications : VMSpecifications := ⟨1, .CPUID, [1, 2, 3], 0, []⟩
    ¬ ∀ functions ∈ (WhpxVirtualMachine.lifetime specifications .CPUID .succeeding 2).2.exitLists,
      functions = specifications.vmExitCPUIDFunctions.map some := by
  intro specifications h
  rw [WhpxVirtualMachine.exitLists_lifetime, if_pos (by decide), List.forall_mem_singleton,
    cpuidExitList_eq_iff] at h
  exact absurd h (by decide)

end Whpx

end Virt86
