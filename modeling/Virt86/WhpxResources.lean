import Virt86.WhpxMachines

/-!
# Partitions and virtual processors of WHPX

A partition is deleted once, after its processors, and each processor that was created is deleted
once under the handle of its partition. Most branches of `Initialize` for a failed call close the
handle of the partition in the place of deleting it, and the destructors then have none.
-/

namespace Virt86

namespace Whpx

/-! ## The protocol -/

/-- The partition and the processors that exist. -/
structure Owned where
  partition : Bool
  vps : List U32
  deriving DecidableEq, Repr

namespace Owned

def nothing : Owned := ⟨false, []⟩

/-- What a call makes of them, unless it is not allowed. -/
def step (o : Owned) : DispatchCall → Option Owned
  | .createPartition true => if o.partition then none else some { o with partition := true }
  | .createVirtualProcessor handle id true =>
    if handle = .partition ∧ o.partition then some { o with vps := o.vps ++ [id] } else none
  | .deleteVirtualProcessor handle id =>
    if handle = .partition ∧ o.partition ∧ o.vps.contains id then
      some { o with vps := o.vps.erase id }
    else none
  | .deletePartition handle =>
    if handle = .partition ∧ o.partition ∧ o.vps.isEmpty then
      some { o with partition := false }
    else none
  | _ => some o

end Owned

/-- What exists after calls that start with nothing and are all allowed. -/
def owned (calls : List DispatchCall) : Option Owned :=
  calls.foldl (fun o call => o.bind fun o => o.step call) (some .nothing)

/-- All calls are allowed, and nothing is left. -/
def Released (calls : List DispatchCall) : Prop := owned calls = some .nothing

/-- All calls for the processor of a round succeed. -/
def DispatchAnswers.succeeds (answers : DispatchAnswers) (round : ℕ) : Bool :=
  answers.createVirtualProcessor round && answers.emulatorCreateEmulator round &&
    answers.setVirtualProcessorRegisters round

/-- A call that neither creates nor deletes anything. -/
def DispatchCall.Neutral (call : DispatchCall) : Prop := ∀ o : Owned, o.step call = some o

namespace WhpxVirtualMachine

variable {vm : WhpxVirtualMachine}

theorem owned_dispatch (vm : WhpxVirtualMachine) (call : DispatchCall) :
    owned (vm.dispatch call).calls = (owned vm.calls).bind fun o => o.step call := by
  rw [dispatch, owned, List.foldl_append]
  rfl

theorem owned_neutral {call : DispatchCall} (h : call.Neutral) :
    owned (vm.dispatch call).calls = owned vm.calls := by
  rw [owned_dispatch, funext h]
  cases owned vm.calls with
  | none => rfl
  | some o => rfl

/-- After a call that is not allowed nothing is. -/
theorem owned_dispatch_none (h : owned vm.calls = none) (call : DispatchCall) :
    owned (vm.dispatch call).calls = none := by
  rw [owned_dispatch, h]
  rfl

theorem owned_closeHandle (vm : WhpxVirtualMachine) :
    owned vm.closeHandle.calls = owned vm.calls := by
  have hneutral : (DispatchCall.closeHandle vm.handle).Neutral := fun _ => rfl
  exact owned_neutral hneutral

/-! ## Configuration -/

/-- The first of the calls that fails. -/
def firstFailure (steps : List ConfigurationStep) : Option ConfigurationStep :=
  steps.find? fun step => step.made && !step.ok

/-- The configuration goes on if and only if no call fails, and else the branch of the first that
fails may leave the machine without a handle. -/
theorem configure_eq (vm : WhpxVirtualMachine) (steps : List ConfigurationStep) :
    (vm.configure steps).1 = (firstFailure steps).isNone ∧
      (vm.configure steps).2.vps = vm.vps ∧
      (vm.configure steps).2.handle =
        if (firstFailure steps).any ConfigurationStep.closes then .INVALID_HANDLE_VALUE
        else vm.handle := by
  induction steps generalizing vm with
  | nil => exact ⟨rfl, rfl, rfl⟩
  | cons step steps ih =>
    simp only [configure]
    cases hmade : step.made with
    | false =>
      have hfirst : firstFailure (step :: steps) = firstFailure steps := by
        simp [firstFailure, hmade]
      rw [hfirst]
      exact ih vm
    | true =>
      cases hok : step.ok with
      | true =>
        have hfirst : firstFailure (step :: steps) = firstFailure steps := by
          simp [firstFailure, hok]
        rw [hfirst]
        exact ih _
      | false =>
        have hfirst : firstFailure (step :: steps) = some step := by
          simp [firstFailure, hmade, hok]
        rw [hfirst]
        cases hcloses : step.closes with
        | true => simp [hcloses, closeHandle, dispatch]
        | false => simp [hcloses, dispatch]

/-- Configuring creates and deletes nothing. -/
theorem owned_configure (vm : WhpxVirtualMachine) {steps : List ConfigurationStep}
    (hneutral : ∀ step ∈ steps, ∀ handle ok, (step.call handle ok).Neutral) :
    owned (vm.configure steps).2.calls = owned vm.calls := by
  induction steps generalizing vm with
  | nil => rfl
  | cons step steps ih =>
    rw [List.forall_mem_cons] at hneutral
    have hcall : owned (vm.dispatch (step.call vm.handle step.ok)).calls = owned vm.calls :=
      owned_neutral (hneutral.1 vm.handle step.ok)
    simp only [configure]
    split_ifs
    · rw [ih _ hneutral.2, hcall]
    · rw [owned_closeHandle, hcall]
    · exact hcall
    · exact ih vm hneutral.2

theorem configurationSteps_neutral (specifications : VMSpecifications)
    (features : ExtendedVMExit) (answers : DispatchAnswers) :
    ∀ step ∈ configurationSteps specifications features answers,
      ∀ handle ok, (step.call handle ok).Neutral := by
  simp only [configurationSteps, List.forall_mem_cons]
  exact ⟨fun _ _ _ => rfl, fun _ _ _ => rfl, fun _ _ _ => rfl, fun _ _ _ => rfl,
    fun _ _ _ => rfl, fun _ _ _ => rfl, fun _ h => absurd h List.not_mem_nil⟩

/-! ## Processors -/

/-- The machine has its partition and exactly the processors it registered. -/
structure Owns (vm : WhpxVirtualMachine) : Prop where
  handle : vm.handle = .partition
  owned : owned vm.calls = some ⟨true, vm.vps⟩

theorem initializeVP_eq (vm : WhpxVirtualMachine) (answers : DispatchAnswers) (round : ℕ)
    (id : U32) : (vm.initializeVP answers round id).1 = answers.succeeds round ∧
      (vm.initializeVP answers round id).2.handle = vm.handle ∧
      (vm.initializeVP answers round id).2.vps = vm.vps := by
  simp only [initializeVP, DispatchAnswers.succeeds]
  split_ifs with hcreated hemulator hregisters
  · simp_all [dispatch]
  · simp_all [dispatch]
  · simp_all [dispatch]
  · simp_all [dispatch]

/-- A processor that is initialized exists. -/
theorem owned_initializeVP (h : vm.Owns) {answers : DispatchAnswers} {round : ℕ} (id : U32)
    (hok : answers.succeeds round = true) :
    owned (vm.initializeVP answers round id).2.calls = some ⟨true, vm.vps ++ [id]⟩ := by
  simp only [DispatchAnswers.succeeds, Bool.and_eq_true] at hok
  obtain ⟨⟨hcreated, hemulator⟩, hregisters⟩ := hok
  simp only [initializeVP, hcreated, hemulator, hregisters, Bool.not_true, Bool.false_eq_true,
    if_false]
  rw [owned_neutral fun _ => rfl, owned_neutral fun _ => rfl, owned_dispatch, h.owned, h.handle]
  rfl

/-- A processor that fails is destroyed under a handle that is not valid any more. -/
theorem owned_failedVP (vm : WhpxVirtualMachine) (id : U32) :
    owned (vm.closeHandle.destroyVP false id).calls = none := by
  simp only [destroyVP, Bool.false_eq_true, if_false]
  rw [owned_dispatch]
  cases owned vm.closeHandle.calls with
  | none => rfl
  | some o => rfl

/-- The loop over the processors: when one fails the calls are not allowed, and when it ends all
have been created, which takes a number of 32 bits. -/
theorem createVPs_cases (h : vm.Owns) (numProcessors : U64) (answers : DispatchAnswers)
    (rounds round : ℕ) {id : U32} (hid : id.toNat ≤ round) :
    ((vm.createVPs numProcessors answers rounds round id).1 = .failed →
      owned (vm.createVPs numProcessors answers rounds round id).2.calls = none) ∧
    ((vm.createVPs numProcessors answers rounds round id).1 = .initialized →
      (vm.createVPs numProcessors answers rounds round id).2.Owns ∧
        numProcessors.toNat < 2 ^ 32 ∧
        ∀ k, round ≤ k → k < numProcessors.toNat → answers.succeeds k = true) := by
  induction rounds generalizing vm round id with
  | zero => exact ⟨fun h => (by cases h), fun h => (by cases h)⟩
  | succ rounds ih =>
    obtain ⟨hok, hhandle, hvps⟩ := initializeVP_eq vm answers round id
    simp only [createVPs]
    split_ifs with hlt hfailed
    · exact ⟨fun _ => owned_failedVP _ id, fun h => (by cases h)⟩
    · have hsucceeds : answers.succeeds round = true := by
        rw [hok] at hfailed
        simpa using hfailed
      have howned := owned_initializeVP h id hsucceeds
      have hnext : Owns { (vm.initializeVP answers round id).2 with
          vps := (vm.initializeVP answers round id).2.vps ++ [id] } :=
        ⟨hhandle.trans h.handle, by rw [howned, hvps]⟩
      have hidnext : (id + 1).toNat ≤ round + 1 := by
        rw [BitVec.toNat_add]
        exact Nat.le_trans (Nat.mod_le _ _) (Nat.succ_le_succ hid)
      obtain ⟨hfail, hinitialized⟩ := ih hnext (round + 1) hidnext
      refine ⟨hfail, fun hdone => ?_⟩
      obtain ⟨howns, hbound, hrest⟩ := hinitialized hdone
      refine ⟨howns, hbound, fun k hk hlast => ?_⟩
      rcases Nat.eq_or_lt_of_le hk with rfl | hk
      · exact hsucceeds
      · exact hrest k hk hlast
    · have hall : numProcessors.toNat ≤ id.toNat := by
        rw [BitVec.lt_def, BitVec.toNat_setWidth] at hlt
        have := id.isLt
        omega
      exact ⟨fun h => (by cases h), fun _ => ⟨h, Nat.lt_of_le_of_lt hall id.isLt,
        fun k hk hlast => by omega⟩⟩

/-- With enough rounds the loop ends if all processors can be created. -/
theorem createVPs_initialized (vm : WhpxVirtualMachine) {numProcessors : U64}
    {answers : DispatchAnswers} (hbound : numProcessors.toNat < 2 ^ 32) {rounds round : ℕ}
    (hrounds : numProcessors.toNat - round < rounds) (hround : round ≤ numProcessors.toNat)
    (hsucceeds : ∀ k, round ≤ k → k < numProcessors.toNat → answers.succeeds k = true) :
    (vm.createVPs numProcessors answers rounds round (BitVec.ofNat 32 round)).1 =
      .initialized := by
  induction rounds generalizing vm round with
  | zero => omega
  | succ rounds ih =>
    simp only [createVPs]
    split_ifs with hlt hfailed
    · rw [(initializeVP_eq vm answers round _).1, hsucceeds round (Nat.le_refl _) ?_] at hfailed
      · cases hfailed
      · rw [BitVec.lt_def, BitVec.toNat_setWidth, BitVec.toNat_ofNat] at hlt
        omega
    · have hlast : round < numProcessors.toNat := by
        rw [BitVec.lt_def, BitVec.toNat_setWidth, BitVec.toNat_ofNat] at hlt
        omega
      have hid : BitVec.ofNat 32 round + 1 = BitVec.ofNat 32 (round + 1) :=
        (BitVec.ofNat_add ..).symm
      rw [hid]
      exact ih _ (by omega) hlast fun k hk => hsucceeds k (by omega)
    · rfl

/-! ## Destruction -/

/-- Processors are deleted in the order in which they were registered. -/
theorem owned_destroyVPs (vps : List U32) (hhandle : vm.handle = .partition)
    (howned : owned vm.calls = some ⟨true, vps⟩) :
    (vps.foldl (fun vm id => vm.destroyVP true id) vm).handle = .partition ∧
      owned (vps.foldl (fun vm id => vm.destroyVP true id) vm).calls = some ⟨true, []⟩ := by
  induction vps generalizing vm with
  | nil => exact ⟨hhandle, howned⟩
  | cons id vps ih =>
    apply ih
    · exact hhandle
    · simp only [destroyVP, if_true]
      rw [owned_dispatch, owned_neutral fun _ => rfl, howned]
      change (Owned.mk true (id :: vps)).step (.deleteVirtualProcessor vm.handle id) = _
      rw [hhandle]
      simp [Owned.step]

theorem Owns.released_destroy (h : vm.Owns) : Released vm.destroy.calls := by
  obtain ⟨hhandle, howned⟩ := owned_destroyVPs vm.vps h.handle h.owned
  simp only [destroy, hhandle]
  rw [if_pos (by decide), Released, owned_dispatch]
  change (Whpx.owned (vm.vps.foldl (fun vm id => vm.destroyVP true id) vm).calls).bind _ = _
  rw [howned]
  rfl

theorem owned_destroy_none (h : owned vm.calls = none) : owned vm.destroy.calls = none := by
  have hvps : ∀ vps : List U32, ∀ vm : WhpxVirtualMachine, owned vm.calls = none →
      owned (vps.foldl (fun vm id => vm.destroyVP true id) vm).calls = none := by
    intro vps
    induction vps with
    | nil => exact fun _ h => h
    | cons id vps ih =>
      exact fun vm h => ih _ (owned_dispatch_none (owned_dispatch_none h _) _)
  simp only [destroy]
  split_ifs
  · exact owned_dispatch_none (hvps _ _ h) _
  · exact hvps _ _ h

/-- Without a handle the partition is not deleted. -/
theorem owned_destroy_of_closed (hhandle : vm.handle = .INVALID_HANDLE_VALUE)
    (hvps : vm.vps = []) : vm.destroy.calls = vm.calls := by
  simp [destroy, hvps, hhandle]

/-! ## Lifetimes -/

section Lifetimes

variable (specifications : VMSpecifications) (features : ExtendedVMExit) (answers : DispatchAnswers)

/-- No partition is created, or the first call to fail is the one for the list of CPUID exits or
that of CPUID results, or all calls succeed, for a number of processors that has 32 bits. -/
def Clean : Prop :=
  answers.createPartition = true →
    match firstFailure (configurationSteps specifications features answers) with
    | some step => step = cpuidExitListStep specifications features answers ∨
        step = cpuidResultListStep specifications answers
    | none => specifications.numProcessors.toNat < 2 ^ 32 ∧
        ∀ k < specifications.numProcessors.toNat, answers.succeeds k = true

variable {specifications features answers}

/-- Two branches leave the handle as it is. -/
theorem closes_eq_false_iff {step : ConfigurationStep}
    (hstep : step ∈ configurationSteps specifications features answers) :
    step.closes = false ↔ step = cpuidExitListStep specifications features answers ∨
      step = cpuidResultListStep specifications answers := by
  constructor
  · intro hcloses
    simp only [configurationSteps, List.mem_cons, List.not_mem_nil, or_false] at hstep
    rcases hstep with rfl | rfl | rfl | rfl | rfl | rfl
    · cases hcloses
    · cases hcloses
    · exact .inl rfl
    · cases hcloses
    · exact .inr rfl
    · cases hcloses
  · rintro (rfl | rfl)
    · rfl
    · rfl

/-- A machine that has created its partition. -/
def created : WhpxVirtualMachine :=
  { constructed.dispatch (.createPartition true) with handle := .partition }

/-- The machine after the configuration, when its partition was created. -/
def configured (specifications : VMSpecifications) (features : ExtendedVMExit)
    (answers : DispatchAnswers) : WhpxVirtualMachine :=
  (created.configure (configurationSteps specifications features answers)).2

theorem owned_configured :
    owned (configured specifications features answers).calls = some ⟨true, []⟩ :=
  owned_configure created (configurationSteps_neutral specifications features answers)

theorem vps_configured : (configured specifications features answers).vps = [] :=
  (configure_eq created _).2.1

theorem handle_configured (specifications : VMSpecifications) (features : ExtendedVMExit)
    (answers : DispatchAnswers) : (configured specifications features answers).handle =
    if (firstFailure (configurationSteps specifications features answers)).any
      ConfigurationStep.closes then .INVALID_HANDLE_VALUE
    else .partition :=
  (configure_eq created _).2.2

theorem owns_configured
    (hhandle : (configured specifications features answers).handle = .partition) :
    (configured specifications features answers).Owns :=
  ⟨hhandle, by rw [vps_configured]; exact owned_configured⟩

/-- `Initialize` ends with the configuration or goes on to the processors. -/
theorem initializeVM_eq (hpartition : answers.createPartition = true) (rounds : ℕ) :
    initializeVM specifications features answers rounds =
      if (firstFailure (configurationSteps specifications features answers)).isNone then
        (configured specifications features answers).createVPs specifications.numProcessors answers
          rounds 0 0
      else (.failed, configured specifications features answers) := by
  have hgoes := (configure_eq created (configurationSteps specifications features answers)).1
  rw [← hgoes, initializeVM, hpartition]
  change (if !(created.configure (configurationSteps specifications features answers)).1 then _
    else _) = _
  cases (created.configure (configurationSteps specifications features answers)).1 with
  | false => rfl
  | true => rfl

/-- After a failure of the configuration the partition is deleted if its branch leaves the
handle. -/
theorem released_of_failure {step : ConfigurationStep}
    (hfirst : firstFailure (configurationSteps specifications features answers) = some step) :
    Released (configured specifications features answers).destroy.calls ↔
      step.closes = false := by
  have hhandle := handle_configured specifications features answers
  rw [hfirst, Option.any_some] at hhandle
  cases hcloses : step.closes with
  | false =>
    rw [hcloses] at hhandle
    exact iff_of_true (owns_configured hhandle).released_destroy rfl
  | true =>
    rw [hcloses] at hhandle
    refine iff_of_false (fun h => ?_) (by decide)
    rw [Released, owned_destroy_of_closed hhandle vps_configured, owned_configured] at h
    cases h

/-- When no call of the configuration fails the machine has its partition, and `Initialize` goes on
to the processors. -/
theorem owns_of_configured
    (hfirst : firstFailure (configurationSteps specifications features answers) = none) :
    (configured specifications features answers).Owns := by
  apply owns_configured
  rw [handle_configured, hfirst]
  rfl

theorem initializeVM_of_configured (hpartition : answers.createPartition = true)
    (hfirst : firstFailure (configurationSteps specifications features answers) = none)
    (rounds : ℕ) :
    initializeVM specifications features answers rounds =
      (configured specifications features answers).createVPs specifications.numProcessors answers
        rounds 0 0 := by
  rw [initializeVM_eq hpartition, hfirst]
  rfl

/-- After the configuration everything is released if and only if all processors are created. -/
theorem released_of_configured (hpartition : answers.createPartition = true)
    (hfirst : firstFailure (configurationSteps specifications features answers) = none) :
    (∃ rounds, (lifetime specifications features answers rounds).1 ≠ .running ∧
      Released (lifetime specifications features answers rounds).2.calls) ↔
      specifications.numProcessors.toNat < 2 ^ 32 ∧
        ∀ k < specifications.numProcessors.toNat, answers.succeeds k = true := by
  have hrun := initializeVM_of_configured hpartition hfirst
  have hcases := fun rounds => createVPs_cases (owns_of_configured hfirst)
    specifications.numProcessors answers rounds 0 (Nat.le_refl (0 : U32).toNat)
  constructor
  · rintro ⟨rounds, hrunning, hreleased⟩
    simp only [lifetime, hrun] at hrunning hreleased
    rw [if_neg hrunning] at hreleased
    obtain ⟨hfailed, hinitialized⟩ := hcases rounds
    cases hprogress : ((configured specifications features answers).createVPs
      specifications.numProcessors answers rounds 0 0).1 with
    | running => exact absurd hprogress hrunning
    | failed =>
      rw [Released, owned_destroy_none (hfailed hprogress)] at hreleased
      cases hreleased
    | initialized =>
      obtain ⟨-, hbound, hall⟩ := hinitialized hprogress
      exact ⟨hbound, fun k hk => hall k (Nat.zero_le k) hk⟩
  · rintro ⟨hbound, hall⟩
    have hdone : ((configured specifications features answers).createVPs
        specifications.numProcessors answers (specifications.numProcessors.toNat + 1) 0 0).1 =
          .initialized :=
      createVPs_initialized _ hbound (Nat.lt_succ_self _) (Nat.zero_le _) fun k _ hk => hall k hk
    refine ⟨specifications.numProcessors.toNat + 1, ?_⟩
    simp only [lifetime, hrun]
    rw [hdone]
    exact ⟨by decide, ((hcases _).2 hdone).1.released_destroy⟩

end Lifetimes

end WhpxVirtualMachine

open WhpxVirtualMachine

/-- `CreateVM` and the destruction of what it created come to an end and keep to the protocol if
and only if no partition is created, the first call to fail is the one for the list of CPUID exits
or that of CPUID results, or all calls succeed for fewer than 2^32 processors. -/
theorem whpx_resources_iff (specifications : VMSpecifications) (features : ExtendedVMExit)
    (answers : DispatchAnswers) :
    (∃ rounds, (lifetime specifications features answers rounds).1 ≠ .running ∧
      Released (lifetime specifications features answers rounds).2.calls) ↔
      Clean specifications features answers := by
  cases hpartition : answers.createPartition with
  | false =>
    have hfailed : ∀ rounds, lifetime specifications features answers rounds =
        (.failed, (constructed.dispatch (.createPartition false)).destroy) := by
      intro rounds
      simp [lifetime, initializeVM, hpartition]
    refine iff_of_true ⟨0, ?_⟩ fun h => ?_
    · rw [hfailed]
      exact ⟨by decide, rfl⟩
    · rw [hpartition] at h
      cases h
  | true =>
    cases hfirst : firstFailure (configurationSteps specifications features answers) with
    | some step =>
      have hfailed : ∀ rounds, lifetime specifications features answers rounds =
          (.failed, (configured specifications features answers).destroy) := by
        intro rounds
        simp only [lifetime, initializeVM_eq hpartition, hfirst]
        rfl
      have hclean : Clean specifications features answers ↔ step.closes = false := by
        rw [closes_eq_false_iff (List.mem_of_find?_eq_some hfirst), Clean, hfirst]
        exact ⟨fun h => h hpartition, fun h _ => h⟩
      simp only [hfailed]
      rw [hclean, ← released_of_failure hfirst]
      constructor
      · rintro ⟨rounds, -, h⟩
        exact h
      · intro h
        exact ⟨0, by decide, h⟩
    | none =>
      rw [released_of_configured hpartition hfirst, Clean, hfirst]
      exact ⟨fun h _ => h, fun h => h hpartition⟩

/-- When the number of processors is refused the partition is never deleted, and when the second of
two processors cannot be created, both are deleted under an invalid handle, one of them without
having been created. -/
theorem whpx_resources_leaked :
    let specifications : VMSpecifications := ⟨2, 0, [], 0, []⟩
    let refused : DispatchAnswers := { DispatchAnswers.succeeding with processorCount := false }
    let one : DispatchAnswers :=
      { DispatchAnswers.succeeding with createVirtualProcessor := fun round => round = 0 }
    (¬ ∃ rounds, (lifetime specifications 0 refused rounds).1 ≠ .running ∧
      Released (lifetime specifications 0 refused rounds).2.calls) ∧
    (lifetime specifications 0 one 2).1 = .failed ∧
    (lifetime specifications 0 one 2).2.calls.drop 6 =
      [.createVirtualProcessor .partition 1 false, .closeHandle .partition,
        .deleteVirtualProcessor .INVALID_HANDLE_VALUE 1, .emulatorDestroyEmulator 0,
        .deleteVirtualProcessor .INVALID_HANDLE_VALUE 0] ∧
    ¬ Released (lifetime specifications 0 one 2).2.calls := by
  refine ⟨?_, rfl, rfl, fun h => ?_⟩
  · rintro ⟨rounds, -, h⟩
    cases h
  · cases h

end Whpx

end Virt86
