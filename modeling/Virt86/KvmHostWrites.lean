import Virt86.KvmCacheRefinement

/-!
# Host writes on their way to the KVM kernel

A host write changes a copy and reaches the kernel when the next `KVM_RUN` stores the files whose
changed flag is up. `SetFPUControl` raises no flag, so its write travels only with another one.
-/

namespace Virt86

namespace Kvm

open WriteBack

/-- What an access does to the register files, the copies left aside. -/
def accessEffect (a : HostAccess) (files : KvmRegisterFiles) : KvmRegisterFiles :=
  (KvmRegisterCache.access { (default : KvmRegisterCache) with files } a).2.files

/-- What happens to the registers between two `KVM_RUN`s: accesses of the host or of its I/O
handlers, and `HandleExecResult` marking the copies out of date. -/
inductive HostEvent where
  | access (a : HostAccess)
  | exitHandled

def KvmRegisterState.event (s : KvmRegisterState) : HostEvent → KvmRegisterState
  | .access a => (s.access a).2
  | .exitHandled => s.markDirty

/-- The kernel's register files when `KVM_RUN` is entered after the given events. -/
def filesAtRun (s : KvmRegisterState) (events : List HostEvent) : KvmRegisterFiles :=
  (events.foldl KvmRegisterState.event s).updateRegisters.2.kernel.files

/-- No access of `later` changes the field. -/
def Keeps {α : Type} (field : KvmRegisterFiles → α) (later : List HostEvent) : Prop :=
  ∀ a, .access a ∈ later → ∀ files, field (accessEffect a files) = field files

/-- The files have everything that the access `w` wrote and `later` did not replace: any `field` of
the register files to which `w` gives a value whatever they were, and which no access of `later`
changes, has that value. -/
def HaveWrite (w : HostAccess) (later : List HostEvent) (files : KvmRegisterFiles) : Prop :=
  ∀ (α : Type) (field : KvmRegisterFiles → α) (value : α),
    (∀ files, field (accessEffect w files) = value) → Keeps field later → field files = value

/-- After the access `w` and `later`, the next `KVM_RUN` is entered with what `w` wrote. -/
def WriteReachesRun (s : KvmRegisterState) (w : HostAccess) (later : List HostEvent) : Prop :=
  HaveWrite w later (filesAtRun (s.access w).2 later)

/-- The files whose changed flag an access raises. -/
def writtenFiles (a : HostAccess) : List KvmFile :=
  match a with
  | .regWrite .. | .regWriteBulk _ => reachedFiles a.registers
  | .setMXCSR _ => [.fpuRegs]
  | _ => []

/-- The accesses that fetch the files when the copies are out of date. -/
def refreshes : HostAccess → Bool
  | .getMXCSRMask _ | .setMXCSRMask _ => false
  | _ => true

/-- The copies are not fetched again: no access that would do so follows the handling of an
exit. -/
def NoReload : List HostEvent → Prop
  | [] => True
  | .access _ :: events => NoReload events
  | .exitHandled :: events => ∀ a, .access a ∈ events → refreshes a = false

/-- An FPU control write has company: the FPU file is already marked as changed, a later access
marks it, a later FPU control write replaces it, or the kernel has its values already. -/
def FPUControlTravels (s : KvmRegisterState) (value : FPUControl) (later : List HostEvent) : Prop :=
  s.cache.fpuRegsChanged = true ∨
    (∃ a, .access a ∈ later ∧ .fpuRegs ∈ writtenFiles a) ∨
    (∃ value', .access (.setFPUControl value') ∈ later) ∨
    KvmRegisterCache.storeFPUControl value s.kernel.files.fpuRegs = s.kernel.files.fpuRegs

/-! ## Accesses to the copies -/

section Copies

variable {c d : KvmRegisterCache} {kernel : KvmKernel}

theorem changed_regWriteLoop {regs : List (Reg × RegValue)} :
    ∀ {c : KvmRegisterCache} {i : KvmFile}, (c.regWriteLoop regs).2.changed i = true ↔
      c.changed i = true ∨ i ∈ reachedFiles (regs.map Prod.fst) := by
  induction regs with
  | nil => simp [KvmRegisterCache.regWriteLoop, reachedFiles]
  | cons entry rest ih =>
    intro c i
    obtain ⟨reg, value⟩ := entry
    simp only [KvmRegisterCache.regWriteLoop, List.map_cons, reachedFiles]
    rcases kvmRegWrite_spec reg value with ⟨hnone, hwrite⟩ | ⟨j, hj, hwrite⟩
    · simp [hwrite c, hnone]
    · simp only [hwrite c, hj, ih, changed_modify, List.mem_cons]
      by_cases hij : i = j
      · subst hij
        simp
      · simp [hij]

/-- An access raises the flags of the files it writes and lowers none. -/
theorem changed_access (c : KvmRegisterCache) (a : HostAccess) (i : KvmFile) :
    (c.access a).2.changed i = true ↔ c.changed i = true ∨ i ∈ writtenFiles a := by
  cases a with
  | regWrite reg value =>
    have hloop : (c.access (.regWrite reg value)).2 = (c.regWriteLoop [(reg, value)]).2 := by
      simp only [KvmRegisterCache.access, KvmRegisterCache.regWriteLoop]
      split <;> rename_i h <;> simp [h]
    rw [hloop, changed_regWriteLoop]
    rfl
  | regWriteBulk regs => exact changed_regWriteLoop
  | setMXCSR value =>
    have hmodify := changed_modify c .fpuRegs fun f : KvmFpu => { f with mxcsr := value }
    rw [show (c.access (.setMXCSR value)).2.changed = _ from hmodify]
    by_cases hi : i = .fpuRegs
    · simp [hi, writtenFiles]
    · simp [hi, writtenFiles]
  | setFPUControl value => cases i <;> simp [writtenFiles] <;> rfl
  | _ => simp [writtenFiles, KvmRegisterCache.access]

theorem regsDirty_regWriteLoop {regs : List (Reg × RegValue)} :
    ∀ {c : KvmRegisterCache}, (c.regWriteLoop regs).2.regsDirty = c.regsDirty := by
  induction regs with
  | nil => exact rfl
  | cons entry rest ih =>
    intro c
    obtain ⟨reg, value⟩ := entry
    simp only [KvmRegisterCache.regWriteLoop]
    rcases kvmRegWrite_spec reg value with ⟨_, hwrite⟩ | ⟨i, _, hwrite⟩
    · rw [hwrite c]
    · rw [hwrite c]
      exact ih.trans (regsDirty_modify c i _)

theorem regsDirty_access (c : KvmRegisterCache) (a : HostAccess) :
    (c.access a).2.regsDirty = c.regsDirty := by
  cases a with
  | regWrite reg value =>
    simp only [KvmRegisterCache.access]
    rcases kvmRegWrite_spec reg value with ⟨_, hwrite⟩ | ⟨i, _, hwrite⟩
    · rw [hwrite c]
    · rw [hwrite c]
      exact regsDirty_modify c i _
  | regWriteBulk regs => exact regsDirty_regWriteLoop
  | _ => rfl

/-- The files of `d` are those of the copies of `c` on `S` and the kernel's elsewhere. -/
def Mixes (S : KvmFile → Bool) (kernel : KvmKernel) (c d : KvmRegisterCache) : Prop :=
  (KvmRegisterState.writeBack ⟨c, kernel⟩).mix S = d.files.get

variable {S : KvmFile → Bool}

theorem Mixes.modify (h : Mixes S kernel c d) {i : KvmFile} (hi : S i = true)
    (edit : i.Data → i.Data) : Mixes S kernel (c.modify i edit) (d.modify i edit) := by
  rw [Mixes, writeBack_modify, get_modify, ← h]
  exact mix_poke_of_mem _ hi edit

theorem Mixes.regWriteLoop {regs : List (Reg × RegValue)}
    (hS : ∀ i ∈ reachedFiles (regs.map Prod.fst), S i = true) :
    ∀ {c d : KvmRegisterCache}, Mixes S kernel c d →
      Mixes S kernel (c.regWriteLoop regs).2 (d.regWriteLoop regs).2 := by
  induction regs with
  | nil => exact fun h => h
  | cons entry rest ih =>
    intro c d h
    obtain ⟨reg, value⟩ := entry
    simp only [KvmRegisterCache.regWriteLoop]
    rcases kvmRegWrite_spec reg value with ⟨_, hwrite⟩ | ⟨i, hi, hwrite⟩
    · rw [hwrite c, hwrite d]
      exact h
    · simp only [List.map_cons, reachedFiles, hi, List.mem_cons, forall_eq_or_imp] at hS
      rw [hwrite c, hwrite d]
      exact ih hS.2 (h.modify hS.1 _)

theorem writeBack_setFPUControl (c : KvmRegisterCache) (kernel : KvmKernel) (value : FPUControl) :
    KvmRegisterState.writeBack ⟨c.setFPUControl value, kernel⟩ =
      (KvmRegisterState.writeBack ⟨c, kernel⟩).poke .fpuRegs
        (KvmRegisterCache.storeFPUControl value) := by
  ext i
  · rfl
  · cases i <;> rfl
  · rfl
  · cases i <;> rfl

theorem get_setFPUControl (d : KvmRegisterCache) (value : FPUControl) :
    (d.setFPUControl value).files.get = Function.update d.files.get .fpuRegs
      (KvmRegisterCache.storeFPUControl value (d.files.get .fpuRegs)) := by
  funext i
  cases i <;> rfl

/-- Taking the files an access writes from the copies commutes with the access. -/
theorem Mixes.access (h : Mixes S kernel c d) {a : HostAccess}
    (hS : ∀ i ∈ writtenFiles a, S i = true)
    (hfpu : ∀ value, a = .setFPUControl value → S .fpuRegs = true) :
    Mixes S kernel (c.access a).2 (d.access a).2 := by
  cases a with
  | regWrite reg value =>
    simp only [KvmRegisterCache.access]
    rcases kvmRegWrite_spec reg value with ⟨_, hwrite⟩ | ⟨i, hi, hwrite⟩
    · rw [hwrite c, hwrite d]
      exact h
    · rw [hwrite c, hwrite d]
      apply h.modify
      exact hS i (by simp [writtenFiles, HostAccess.registers, reachedFiles, hi])
  | regWriteBulk regs => exact Mixes.regWriteLoop hS h
  | setMXCSR value =>
    exact h.modify (hS .fpuRegs List.mem_cons_self) fun f : KvmFpu => { f with mxcsr := value }
  | setFPUControl value =>
    have hmix := h
    rw [Mixes, KvmRegisterCache.access, KvmRegisterCache.access, writeBack_setFPUControl,
      get_setFPUControl, ← hmix]
    exact mix_poke_of_mem _ (hfpu value rfl) _
  | _ => exact h

/-- An FPU control write does not show in files that are taken from the kernel. -/
theorem Mixes.setFPUControl (h : Mixes S kernel c d) (hS : S .fpuRegs = false)
    (value : FPUControl) : Mixes S kernel (c.setFPUControl value) d := by
  rw [Mixes, writeBack_setFPUControl, mix_poke_of_not_mem _ hS]
  exact h

end Copies

/-! ## From the setter to the run -/

def KvmRegisterFiles.ofGet (g : (i : KvmFile) → i.Data) : KvmRegisterFiles :=
  ⟨g .regs, g .sregs, g .debugRegs, g .fpuRegs⟩

theorem get_ofGet (g : (i : KvmFile) → i.Data) : (KvmRegisterFiles.ofGet g).get = g := by
  funext i
  cases i <;> rfl

/-- The files taken from the copies on `S` and from the kernel elsewhere. -/
def KvmRegisterState.mixed (s : KvmRegisterState) (S : KvmFile → Bool) : KvmRegisterFiles :=
  .ofGet (s.writeBack.mix S)

theorem mixed_eq_of_mixes {c d : KvmRegisterCache} {kernel : KvmKernel} {S : KvmFile → Bool}
    (h : Mixes S kernel c d) : KvmRegisterState.mixed ⟨c, kernel⟩ S = d.files := by
  apply KvmRegisterFiles.ext_get
  intro i
  rw [KvmRegisterState.mixed, get_ofGet, h]

theorem mixes_mixed (c : KvmRegisterCache) (kernel : KvmKernel) (S : KvmFile → Bool) :
    Mixes S kernel c
      { (default : KvmRegisterCache) with files := KvmRegisterState.mixed ⟨c, kernel⟩ S } :=
  (get_ofGet _).symm

theorem mixed_access {c : KvmRegisterCache} {kernel : KvmKernel} {S : KvmFile → Bool}
    {a : HostAccess} (hS : ∀ i ∈ writtenFiles a, S i = true)
    (hfpu : ∀ value, a = .setFPUControl value → S .fpuRegs = true) :
    KvmRegisterState.mixed ⟨(c.access a).2, kernel⟩ S =
      accessEffect a (KvmRegisterState.mixed ⟨c, kernel⟩ S) :=
  mixed_eq_of_mixes ((mixes_mixed c kernel S).access hS hfpu)

theorem mixed_setFPUControl {c : KvmRegisterCache} {kernel : KvmKernel} {S : KvmFile → Bool}
    (hS : S .fpuRegs = false) (value : FPUControl) :
    KvmRegisterState.mixed ⟨c.setFPUControl value, kernel⟩ S =
      KvmRegisterState.mixed ⟨c, kernel⟩ S :=
  mixed_eq_of_mixes ((mixes_mixed c kernel S).setFPUControl hS value)

/-- `field` has the given value in the files that the kernel would get if it got the changed ones,
those of `T`, and any others besides. -/
def Holds {α : Type} (field : KvmRegisterFiles → α) (v : α) (T : Set KvmFile)
    (s : KvmRegisterState) : Prop :=
  ∀ S : KvmFile → Bool, (∀ i, s.cache.changed i = true ∨ i ∈ T → S i = true) →
    field (s.mixed S) = v

theorem Holds.access {α : Type} {field : KvmRegisterFiles → α} {v : α} {T : Set KvmFile}
    {s : KvmRegisterState} (h : Holds field v T s) {a : HostAccess}
    (hkeeps : ∀ files, field (accessEffect a files) = field files) :
    Holds field v T { s with cache := (s.cache.access a).2 } := by
  intro S hS
  have hbefore : ∀ i, s.cache.changed i = true ∨ i ∈ T → S i = true := by
    rintro i (hi | hi)
    · exact hS i (Or.inl ((changed_access _ _ _).mpr (Or.inl hi)))
    · exact hS i (Or.inr hi)
  have hwritten : ∀ i ∈ writtenFiles a, S i = true := fun i hi =>
    hS i (Or.inl ((changed_access _ _ _).mpr (Or.inr hi)))
  by_cases hfpu : ∀ value, a = .setFPUControl value → S .fpuRegs = true
  · rw [mixed_access hwritten hfpu, hkeeps]
    exact h S hbefore
  · simp only [not_forall, Bool.not_eq_true] at hfpu
    obtain ⟨control, rfl, hfalse⟩ := hfpu
    rw [show (s.cache.access (.setFPUControl control)).2 = s.cache.setFPUControl control from rfl,
      mixed_setFPUControl hfalse]
    exact h S hbefore

/-- Fresh copies are accessed without a call to the kernel. -/
theorem access_of_fresh {s : KvmRegisterState} (hfresh : s.cache.regsDirty = false)
    (a : HostAccess) :
    s.access a = ((s.cache.access a).1, { s with cache := (s.cache.access a).2 }) := by
  have hrefresh : s.refreshRegisters = (true, s) := by
    simp [KvmRegisterState.refreshRegisters, hfresh]
  cases a <;> simp only [KvmRegisterState.access, hrefresh] <;> rfl

theorem access_of_not_refreshes (s : KvmRegisterState) {a : HostAccess}
    (h : refreshes a = false) : (s.access a).2 = s ∧ (s.cache.access a).2 = s.cache := by
  cases a with
  | getMXCSRMask value => exact ⟨rfl, rfl⟩
  | setMXCSRMask value => exact ⟨rfl, rfl⟩
  | _ => simp [refreshes] at h

theorem noReload_of_forall {later : List HostEvent}
    (h : ∀ a, .access a ∈ later → refreshes a = false) : NoReload later := by
  induction later with
  | nil => trivial
  | cons event later ih =>
    have hlater : ∀ a, .access a ∈ later → refreshes a = false := fun a ha =>
      h a (List.mem_cons_of_mem _ ha)
    cases event with
    | access a => exact ih hlater
    | exitHandled => exact hlater

/-- Events without a reload keep the kernel, raise the flags of the files they write and hold on
to every field that they do not change. -/
theorem events_spec {α : Type} {field : KvmRegisterFiles → α} {v : α} {T : Set KvmFile}
    {later : List HostEvent} (hno : NoReload later)
    (hkeeps : Keeps field later) :
    ∀ {s : KvmRegisterState}, (s.cache.regsDirty = false ∨
        ∀ a, .access a ∈ later → refreshes a = false) →
      (later.foldl KvmRegisterState.event s).kernel = s.kernel ∧
      (∀ i, (later.foldl KvmRegisterState.event s).cache.changed i = true ↔
        s.cache.changed i = true ∨ ∃ a, .access a ∈ later ∧ i ∈ writtenFiles a) ∧
      (Holds field v T s → Holds field v T (later.foldl KvmRegisterState.event s)) := by
  induction later with
  | nil =>
    intro s _
    exact ⟨rfl, fun i => by simp, fun h => h⟩
  | cons event later ih =>
    intro s hfresh
    have hkeeps' : Keeps field later := fun a ha => hkeeps a (List.mem_cons_of_mem _ ha)
    cases event with
    | access a =>
      have hnext : s.event (.access a) = { s with cache := (s.cache.access a).2 } := by
        rcases hfresh with hfresh | hnone
        · rw [KvmRegisterState.event, access_of_fresh hfresh]
        · obtain ⟨haccess, hcache⟩ := access_of_not_refreshes s (hnone a List.mem_cons_self)
          rw [KvmRegisterState.event, haccess, hcache]
      have hfresh' : (s.event (.access a)).cache.regsDirty = false ∨
          ∀ b, .access b ∈ later → refreshes b = false := by
        rw [hnext, regsDirty_access]
        exact hfresh.imp_right fun hnone b hb => hnone b (List.mem_cons_of_mem _ hb)
      obtain ⟨hkernel, hchanged, hholds⟩ := ih hno hkeeps' hfresh'
      rw [List.foldl_cons]
      refine ⟨hkernel.trans (by rw [hnext]), fun i => ?_, fun h => hholds ?_⟩
      · rw [hchanged, hnext, changed_access]
        constructor
        · rintro ((h | h) | ⟨b, hb, hi⟩)
          · exact Or.inl h
          · exact Or.inr ⟨a, List.mem_cons_self, h⟩
          · exact Or.inr ⟨b, List.mem_cons_of_mem _ hb, hi⟩
        · rintro (h | ⟨b, hb, hi⟩)
          · exact Or.inl (Or.inl h)
          · rcases List.mem_cons.mp hb with heq | hb
            · cases heq
              exact Or.inl (Or.inr hi)
            · exact Or.inr ⟨b, hb, hi⟩
      · rw [hnext]
        exact h.access (hkeeps a List.mem_cons_self)
    | exitHandled =>
      obtain ⟨hkernel, hchanged, hholds⟩ :=
        ih (noReload_of_forall hno) hkeeps' (s := s.event .exitHandled) (Or.inr hno)
      refine ⟨hkernel, fun i => ?_, hholds⟩
      rw [List.foldl_cons, hchanged]
      simp only [List.mem_cons, reduceCtorEq, false_or]
      rfl

theorem filesAtRun_eq_mixed {s : KvmRegisterState} {later : List HostEvent}
    (hanswers : (later.foldl KvmRegisterState.event s).kernel.answers = []) :
    filesAtRun s later = (later.foldl KvmRegisterState.event s).mixed
      (later.foldl KvmRegisterState.event s).cache.changed := by
  obtain ⟨s', hupdate, hwriteBack, -, -⟩ := updateRegisters_of_answers hanswers
  rw [filesAtRun, hupdate]
  apply KvmRegisterFiles.ext_get
  intro i
  rw [KvmRegisterState.mixed, get_ofGet]
  exact congrFun (congrArg WriteBack.backing hwriteBack) i

theorem forFiles_fetchFile (is : List KvmFile) : ∀ s : KvmRegisterState,
    (KvmRegisterState.forFiles KvmRegisterState.fetchFile is s).2.kernel.files = s.kernel.files ∧
      (KvmRegisterState.forFiles KvmRegisterState.fetchFile is s).2.cache.changed =
        s.cache.changed ∧
      (KvmRegisterState.forFiles KvmRegisterState.fetchFile is s).2.kernel.entered =
        s.kernel.entered := by
  induction is with
  | nil => exact fun s => ⟨rfl, rfl, rfl⟩
  | cons i is ih =>
    intro s
    have hanswer : s.kernel.answer.2.files = s.kernel.files ∧
        s.kernel.answer.2.entered = s.kernel.entered := by
      rw [KvmKernel.answer]
      split <;> exact ⟨rfl, rfl⟩
    simp only [KvmRegisterState.forFiles, KvmRegisterState.fetchFile]
    cases h : s.kernel.answer with
    | mk ok kernel =>
      rw [h] at hanswer
      cases ok with
      | false => exact ⟨hanswer.1, rfl, hanswer.2⟩
      | true =>
        obtain ⟨hfiles, hchanged, hentered⟩ := ih ⟨{ s.cache with
          files := s.cache.files.set i (kernel.files.get i) }, kernel⟩
        exact ⟨hfiles.trans hanswer.1, hchanged, hentered.trans hanswer.2⟩

/-- An access that returns OK works on fresh copies. -/
theorem access_of_ok {s : KvmRegisterState} {w : HostAccess} (hok : (s.access w).1.1 = .OK) :
    ∃ s' : KvmRegisterState, s'.kernel.files = s.kernel.files ∧ s'.cache.changed = s.cache.changed ∧
      s'.cache.regsDirty = false ∧
      (s.access w).2 = { s' with cache := (s'.cache.access w).2 } := by
  cases hdirty : s.cache.regsDirty with
  | false => exact ⟨s, rfl, rfl, hdirty, by rw [access_of_fresh hdirty]⟩
  | true =>
    obtain ⟨hkernel, hchanged, -⟩ := forFiles_fetchFile allFiles s
    cases hfetch : KvmRegisterState.forFiles KvmRegisterState.fetchFile allFiles s with
    | mk ok s' =>
      rw [hfetch] at hkernel hchanged
      cases ok with
      | true =>
        refine ⟨{ s' with cache := { s'.cache with regsDirty := false } }, hkernel, hchanged, rfl,
          ?_⟩
        have hrefresh : s.refreshRegisters =
            (true, { s' with cache := { s'.cache with regsDirty := false } }) := by
          simp [KvmRegisterState.refreshRegisters, hdirty, hfetch]
        cases w with
        | getMXCSRMask value => simp [KvmRegisterState.access] at hok
        | setMXCSRMask value => simp [KvmRegisterState.access] at hok
        | _ => simp only [KvmRegisterState.access, hrefresh]
      | false =>
        have hrefresh : s.refreshRegisters = (false, s') := by
          simp [KvmRegisterState.refreshRegisters, hdirty, hfetch]
        cases w <;> simp [KvmRegisterState.access, hrefresh] at hok

/-- A write of the FPU control registers replaces an earlier one. -/
theorem accessEffect_setFPUControl_twice (value value' : FPUControl) (files : KvmRegisterFiles) :
    accessEffect (.setFPUControl value') (accessEffect (.setFPUControl value) files) =
      accessEffect (.setFPUControl value') files := rfl

/-- What the setter gives a value to is on its way right after it. -/
theorem holds_after_setter {α : Type} {field : KvmRegisterFiles → α} {v : α} {w : HostAccess}
    (hwrites : ∀ files, field (accessEffect w files) = v) (s : KvmRegisterState) :
    Holds field v {.fpuRegs} { s with cache := (s.cache.access w).2 } := by
  intro S hS
  rw [mixed_access (fun i hi => hS i (Or.inl ((changed_access _ _ _).mpr (Or.inr hi))))
    (fun _ _ => hS .fpuRegs (Or.inr rfl)), hwrites]

/-- Nothing more is needed unless it is an FPU control write that raises no flag and that the
kernel does not know yet. -/
theorem holds_after_setter_of_not_lost {α : Type} {field : KvmRegisterFiles → α} {v : α}
    {w : HostAccess} (hwrites : ∀ files, field (accessEffect w files) = v) (s : KvmRegisterState)
    (hfpu : ∀ value, w = .setFPUControl value → s.cache.fpuRegsChanged = true ∨
      KvmRegisterCache.storeFPUControl value s.kernel.files.fpuRegs = s.kernel.files.fpuRegs) :
    Holds field v ∅ { s with cache := (s.cache.access w).2 } := by
  intro S hS
  by_cases hmem : ∀ value, w = .setFPUControl value → S .fpuRegs = true
  · rw [mixed_access (fun i hi => hS i (Or.inl ((changed_access _ _ _).mpr (Or.inr hi)))) hmem,
      hwrites]
  · simp only [not_forall, Bool.not_eq_true] at hmem
    obtain ⟨value, rfl, hfalse⟩ := hmem
    rcases hfpu value rfl with hchanged | hkernel
    · have htrue := hS .fpuRegs (Or.inl ((changed_access _ _ _).mpr (Or.inl hchanged)))
      rw [htrue] at hfalse
      exact absurd hfalse (by decide)
    · rw [show (s.cache.access (.setFPUControl value)).2 = s.cache.setFPUControl value from rfl,
        mixed_setFPUControl hfalse, ← hwrites (s.mixed S)]
      congr 1
      have hfpuRegs : (s.mixed S).fpuRegs = s.kernel.files.fpuRegs := by
        simp only [KvmRegisterState.mixed, KvmRegisterFiles.ofGet, WriteBack.mix, hfalse,
          Bool.false_eq_true, if_false]
        rfl
      have heffect : accessEffect (.setFPUControl value) (s.mixed S) =
          { s.mixed S with
            fpuRegs := KvmRegisterCache.storeFPUControl value (s.mixed S).fpuRegs } := rfl
      rw [heffect, hfpuRegs, hkernel, ← hfpuRegs]

/-- A write that is not reloaded and, for the FPU control registers, does not travel alone reaches
the next run. -/
theorem writeReachesRun_of_travels {s : KvmRegisterState} {w : HostAccess} {later : List HostEvent}
    (hok : (s.access w).1.1 = .OK) (hanswers : (s.access w).2.kernel.answers = [])
    (hno : NoReload later)
    (hfpu : ∀ value, w = .setFPUControl value → FPUControlTravels s value later) :
    WriteReachesRun s w later := by
  intro α field v hwrites hkeeps
  obtain ⟨s', hkernel, hchanged, hfresh, haccess⟩ := access_of_ok hok
  rw [haccess] at hanswers ⊢
  have hfresh' : (s'.cache.access w).2.regsDirty = false := (regsDirty_access _ _).trans hfresh
  have hreach : ∀ T : Set KvmFile, Holds field v T { s' with cache := (s'.cache.access w).2 } →
      (∀ i ∈ T, ∃ a, .access a ∈ later ∧ i ∈ writtenFiles a) →
        field (filesAtRun { s' with cache := (s'.cache.access w).2 } later) = v := by
    intro T hholds hT
    obtain ⟨hkernelEnd, hchangedEnd, hend⟩ := events_spec (T := T) (v := v) hno hkeeps
      (s := { s' with cache := (s'.cache.access w).2 }) (Or.inl hfresh')
    rw [filesAtRun_eq_mixed (by rw [hkernelEnd]; exact hanswers)]
    apply hend hholds
    rintro i (hi | hi)
    · exact hi
    · exact (hchangedEnd i).mpr (Or.inr (hT i hi))
  have halone : (∀ value, w = .setFPUControl value → s'.cache.fpuRegsChanged = true ∨
      KvmRegisterCache.storeFPUControl value s'.kernel.files.fpuRegs = s'.kernel.files.fpuRegs) →
        field (filesAtRun { s' with cache := (s'.cache.access w).2 } later) = v := fun h =>
    hreach ∅ (holds_after_setter_of_not_lost hwrites s' h) fun i hi => absurd hi id
  by_cases hcontrol : ∃ value, w = .setFPUControl value
  · obtain ⟨value, rfl⟩ := hcontrol
    rcases hfpu value rfl with hraised | ⟨a, ha, hwritten⟩ | ⟨value', hlater⟩ | hkernel'
    · refine halone fun _ _ => Or.inl ?_
      exact (congrFun hchanged .fpuRegs).trans hraised
    · refine hreach {.fpuRegs} (holds_after_setter hwrites s') ?_
      rintro i rfl
      exact ⟨a, ha, hwritten⟩
    · -- the field is constant: it does not notice the later write that hides this one
      have hconst : ∀ files, field files = v := by
        intro files
        rw [← hkeeps _ hlater files, ← accessEffect_setFPUControl_twice value, hkeeps _ hlater,
          hwrites]
      exact hconst _
    · refine halone fun value' hvalue' => Or.inr ?_
      cases hvalue'
      rw [hkernel]
      exact hkernel'
  · exact halone fun value hvalue => absurd ⟨value, hvalue⟩ hcontrol

/-- An access leaves alone the files it does not write. -/
theorem get_accessEffect {a : HostAccess} {i : KvmFile} (hi : i ∉ writtenFiles a)
    (hcontrol : ∀ value, a = .setFPUControl value → i ≠ .fpuRegs) (files : KvmRegisterFiles) :
    (accessEffect a files).get i = files.get i := by
  let kernel : KvmKernel := { resetKernel with files }
  let c : KvmRegisterCache := { (default : KvmRegisterCache) with files }
  let S : KvmFile → Bool := fun j => decide (j ≠ i)
  have hmixes : Mixes S kernel c c := by
    funext j
    simp only [WriteBack.mix, KvmRegisterState.writeBack, kernel, c, ite_self]
  have hnext := hmixes.access (a := a) ?_ ?_
  · have hget := congrFun hnext i
    simp only [WriteBack.mix, S, ne_eq, not_true_eq_false, decide_false, Bool.false_eq_true,
      if_false] at hget
    exact hget.symm
  · intro j hj
    refine decide_eq_true ?_
    rintro rfl
    exact hi hj
  · intro value hvalue
    exact decide_eq_true (hcontrol value hvalue).symm

/-- The control registers of the FPU file. -/
def fpuControlFields (files : KvmRegisterFiles) : U16 × U16 × U8 × U16 × U64 × U64 :=
  (files.fpuRegs.fcw, files.fpuRegs.fsw, files.fpuRegs.ftwx, files.fpuRegs.last_opcode,
    files.fpuRegs.last_ip, files.fpuRegs.last_dp)

/-- An FPU control write on its own stays behind. -/
theorem travels_of_writeReachesRun {s : KvmRegisterState} {value : FPUControl}
    {later : List HostEvent} (hok : (s.access (.setFPUControl value)).1.1 = .OK)
    (hanswers : (s.access (.setFPUControl value)).2.kernel.answers = [])
    (hno : NoReload later) (hreaches : WriteReachesRun s (.setFPUControl value) later) :
    FPUControlTravels s value later := by
  by_contra hnot
  simp only [FPUControlTravels, not_or, not_exists, not_and, Bool.not_eq_true] at hnot
  obtain ⟨hflag, hwritten, hreplaced, hkernel⟩ := hnot
  obtain ⟨s', hkernel', hchanged, hfresh, haccess⟩ := access_of_ok hok
  have hkeeps : Keeps fpuControlFields later := by
    intro a ha files
    have hfpu : (accessEffect a files).fpuRegs = files.fpuRegs :=
      get_accessEffect (hwritten a ha)
        (fun control hcontrol => absurd (hcontrol ▸ ha) (hreplaced control)) files
    simp only [fpuControlFields, hfpu]
  have hfields := hreaches _ fpuControlFields
    (value.cw, value.sw, value.tw.setWidth 8, value.op, value.rip, value.rdp) (fun _ => rfl) hkeeps
  rw [haccess] at hanswers hfields
  obtain ⟨hkernelEnd, hchangedEnd, -⟩ := events_spec (T := ∅)
    (v := fpuControlFields s.kernel.files) hno hkeeps
    (s := { s' with cache := (s'.cache.access (.setFPUControl value)).2 })
    (Or.inl ((regsDirty_access _ _).trans hfresh))
  have hunchanged : (later.foldl KvmRegisterState.event
      { s' with cache := (s'.cache.access (.setFPUControl value)).2 }).cache.changed .fpuRegs =
        false := by
    rw [← Bool.not_eq_true, hchangedEnd]
    rintro (h | ⟨a, ha, h⟩)
    · rw [changed_access, hchanged] at h
      rcases h with h | h
      · exact absurd (hflag.symm.trans h) (by decide)
      · exact absurd h List.not_mem_nil
    · exact hwritten a ha h
  have hfpuRegs : (filesAtRun { s' with cache := (s'.cache.access (.setFPUControl value)).2 }
      later).fpuRegs = s.kernel.files.fpuRegs := by
    rw [filesAtRun_eq_mixed (by rw [hkernelEnd]; exact hanswers)]
    simp only [KvmRegisterState.mixed, KvmRegisterFiles.ofGet, WriteBack.mix, hunchanged,
      Bool.false_eq_true, if_false, KvmRegisterState.writeBack, hkernelEnd, hkernel']
    rfl
  apply hkernel
  simp only [fpuControlFields, hfpuRegs, Prod.mk.injEq] at hfields
  obtain ⟨hcw, hsw, htw, hop, hip, hdp⟩ := hfields
  simp only [KvmRegisterCache.storeFPUControl, ← hcw, ← hsw, ← htw, ← hop, ← hip, ← hdp]

/-! ## Reloads -/

section Reloads

variable {α : Type} {field : KvmRegisterFiles → α} {v : α} {T : Set KvmFile}
  {s : KvmRegisterState} {c : KvmRegisterCache} {later : List HostEvent}

/-- Copies that were fetched hold the kernel's files, whatever their flags say. -/
theorem holds_of_fetched (hdirty : s.cache.regsDirty = true)
    (hwriteBack : KvmRegisterState.writeBack { s with cache := c } = s.writeBack.refresh) :
    Holds field (field s.kernel.files) T { s with cache := c } := by
  intro S _
  have hmixed : KvmRegisterState.mixed { s with cache := c } S = s.kernel.files := by
    apply KvmRegisterFiles.ext_get
    intro i
    rw [KvmRegisterState.mixed, get_ofGet, hwriteBack]
    simp only [WriteBack.mix, WriteBack.refresh, KvmRegisterState.writeBack, hdirty, if_true,
      ite_self]
  rw [hmixed]

theorem Holds.refresh (h : Holds field v T s) (hkernel : field s.kernel.files = v)
    (hwriteBack : KvmRegisterState.writeBack { s with cache := c } = s.writeBack.refresh) :
    Holds field v T { s with cache := c } := by
  cases hdirty : s.cache.regsDirty with
  | true =>
    rw [← hkernel]
    exact holds_of_fetched hdirty hwriteBack
  | false =>
    rw [refresh_of_not_stale hdirty] at hwriteBack
    intro S hS
    have hmixed : KvmRegisterState.mixed { s with cache := c } S = s.mixed S := by
      rw [KvmRegisterState.mixed, hwriteBack]
      rfl
    have hchanged : c.changed = s.cache.changed := congrArg WriteBack.changed hwriteBack
    rw [hmixed]
    refine h S fun i hi => hS i ?_
    rwa [hchanged]

theorem access_of_answers (hanswers : s.kernel.answers = []) {a : HostAccess}
    (ha : refreshes a = true) : ∃ c, (s.access a).2 = { s with cache := (c.access a).2 } ∧
      KvmRegisterState.writeBack { s with cache := c } = s.writeBack.refresh := by
  obtain ⟨c, hrefresh, hwriteBack⟩ := refreshRegisters_of_answers hanswers
  refine ⟨c, ?_, hwriteBack⟩
  cases a with
  | getMXCSRMask value => simp [refreshes] at ha
  | setMXCSRMask value => simp [refreshes] at ha
  | _ => simp only [KvmRegisterState.access, hrefresh]

/-- No event loses a field that the kernel has. -/
theorem events_hold_of_kernel
    (hkeeps : Keeps field later) :
    ∀ {s : KvmRegisterState}, s.kernel.answers = [] → field s.kernel.files = v → Holds field v T s →
      (later.foldl KvmRegisterState.event s).kernel = s.kernel ∧
        Holds field v T (later.foldl KvmRegisterState.event s) := by
  induction later with
  | nil => exact fun _ _ h => ⟨rfl, h⟩
  | cons event later ih =>
    intro s hanswers hkernel hholds
    have hkeeps' : Keeps field later := fun a ha => hkeeps a (List.mem_cons_of_mem _ ha)
    cases event with
    | exitHandled => exact ih hkeeps' (s := s.markDirty) hanswers hkernel hholds
    | access a =>
      rw [List.foldl_cons, KvmRegisterState.event]
      cases hrefreshes : refreshes a with
      | false =>
        rw [(access_of_not_refreshes s hrefreshes).1]
        exact ih hkeeps' hanswers hkernel hholds
      | true =>
        obtain ⟨c, haccess, hwriteBack⟩ := access_of_answers hanswers hrefreshes
        rw [haccess]
        refine ih hkeeps' (s := { s with cache := (c.access a).2 }) hanswers hkernel ?_
        exact (hholds.refresh hkernel hwriteBack).access (hkeeps a List.mem_cons_self)

/-- Copies that are out of date forget what they had once they are fetched. -/
theorem events_reload_of_dirty (hreload : ∃ a, .access a ∈ later ∧ refreshes a = true)
    (hkeeps : Keeps field later) :
    ∀ {s : KvmRegisterState}, s.kernel.answers = [] → s.cache.regsDirty = true →
      (later.foldl KvmRegisterState.event s).kernel = s.kernel ∧
        Holds field (field s.kernel.files) T (later.foldl KvmRegisterState.event s) := by
  induction later with
  | nil =>
    obtain ⟨a, ha, -⟩ := hreload
    exact absurd ha List.not_mem_nil
  | cons event later ih =>
    intro s hanswers hdirty
    obtain ⟨b, hb, hrefreshes⟩ := hreload
    have hkeeps' : Keeps field later := fun a ha => hkeeps a (List.mem_cons_of_mem _ ha)
    rw [List.foldl_cons]
    cases event with
    | exitHandled =>
      have hb' : .access b ∈ later := by simpa using hb
      exact ih ⟨b, hb', hrefreshes⟩ hkeeps' (s := s.markDirty) hanswers rfl
    | access a =>
      rw [KvmRegisterState.event]
      cases hfetches : refreshes a with
      | true =>
        obtain ⟨c, haccess, hwriteBack⟩ := access_of_answers hanswers hfetches
        rw [haccess]
        refine events_hold_of_kernel hkeeps' (s := { s with cache := (c.access a).2 }) hanswers rfl
          ?_
        exact (holds_of_fetched hdirty hwriteBack).access (hkeeps a List.mem_cons_self)
      | false =>
        rw [(access_of_not_refreshes s hfetches).1]
        refine ih ⟨b, ?_, hrefreshes⟩ hkeeps' hanswers hdirty
        rcases List.mem_cons.mp hb with heq | hb
        · cases heq
          rw [hrefreshes] at hfetches
          exact absurd hfetches (by decide)
        · exact hb

theorem events_reload (hreload : ¬ NoReload later)
    (hkeeps : Keeps field later) :
    ∀ {s : KvmRegisterState}, s.kernel.answers = [] → s.cache.regsDirty = false →
      (later.foldl KvmRegisterState.event s).kernel = s.kernel ∧
        Holds field (field s.kernel.files) T (later.foldl KvmRegisterState.event s) := by
  induction later with
  | nil => exact absurd trivial hreload
  | cons event later ih =>
    intro s hanswers hfresh
    have hkeeps' : Keeps field later := fun a ha => hkeeps a (List.mem_cons_of_mem _ ha)
    rw [List.foldl_cons]
    cases event with
    | exitHandled =>
      simp only [NoReload, not_forall, Bool.not_eq_false] at hreload
      obtain ⟨a, ha, hrefreshes⟩ := hreload
      exact events_reload_of_dirty ⟨a, ha, hrefreshes⟩ hkeeps' (s := s.markDirty) hanswers rfl
    | access a =>
      rw [KvmRegisterState.event, access_of_fresh hfresh]
      exact ih hreload hkeeps' (s := { s with cache := (s.cache.access a).2 }) hanswers
        ((regsDirty_access _ _).trans hfresh)

end Reloads

/-- After a reload the next run is entered with what the kernel had all along. -/
theorem writeReachesRun_iff_of_reload {s : KvmRegisterState} {w : HostAccess}
    {later : List HostEvent} (hok : (s.access w).1.1 = .OK)
    (hanswers : (s.access w).2.kernel.answers = []) (hreload : ¬ NoReload later) :
    WriteReachesRun s w later ↔ HaveWrite w later s.kernel.files := by
  obtain ⟨s', hkernel, -, hfresh, haccess⟩ := access_of_ok hok
  have hfield : ∀ (α : Type) (field : KvmRegisterFiles → α), Keeps field later →
      field (filesAtRun (s.access w).2 later) = field s.kernel.files := by
    intro α field hkeeps
    rw [haccess] at hanswers ⊢
    obtain ⟨hkernelEnd, hholds⟩ := events_reload (T := ∅) hreload hkeeps
      (s := { s' with cache := (s'.cache.access w).2 }) hanswers
      ((regsDirty_access _ _).trans hfresh)
    rw [filesAtRun_eq_mixed (by rw [hkernelEnd]; exact hanswers), ← hkernel]
    refine hholds _ fun i hi => ?_
    rcases hi with hi | hi
    · exact hi
    · exact absurd hi id
  constructor
  · intro hreaches α field value hwrites hkeeps
    rw [← hfield α field hkeeps]
    exact hreaches α field value hwrites hkeeps
  · intro hkernel α field value hwrites hkeeps
    rw [hfield α field hkeeps]
    exact hkernel α field value hwrites hkeeps

/-- When the copies are not fetched again before the run, an FPU control write does not travel
alone; when they are, the kernel has what was written already. -/
structure WriteTravels (s : KvmRegisterState) (w : HostAccess) (later : List HostEvent) : Prop where
  control : NoReload later → ∀ value, w = .setFPUControl value → FPUControlTravels s value later
  reload : ¬ NoReload later → HaveWrite w later s.kernel.files

/-- A host write that returned OK reaches the next run just when it travels. -/
theorem hostWrite_reaches_run (s : KvmRegisterState) (w : HostAccess) (later : List HostEvent)
    (hok : (s.access w).1.1 = .OK) (hanswers : (s.access w).2.kernel.answers = []) :
    WriteReachesRun s w later ↔ WriteTravels s w later := by
  by_cases hno : NoReload later
  · constructor
    · intro hreaches
      refine ⟨fun _ value hvalue => ?_, absurd hno⟩
      subst hvalue
      exact travels_of_writeReachesRun hok hanswers hno hreaches
    · intro htravels
      exact writeReachesRun_of_travels hok hanswers hno (htravels.control hno)
  · rw [writeReachesRun_iff_of_reload hok hanswers hno]
    exact ⟨fun hkernel => ⟨fun h => absurd h hno, fun _ => hkernel⟩, fun h => h.reload hno⟩

def resetRegisters : KvmRegisterState :=
  (KvmVirtualProcessor.create default idleExits resetKernel).registers

/-- The control word 0x37F of a reset FPU. -/
def resetFPUControl : FPUControl := ⟨0x37F, 0, 0, 0, 0, 0, 0, 0⟩

/-- An FPU control write travels with a write of `MXCSR`. -/
theorem hostWrite_reaches_run_with_mxcsr :
    WriteReachesRun resetRegisters (.setFPUControl resetFPUControl)
      [.access (.setMXCSR 0x1F80)] := by
  refine (hostWrite_reaches_run resetRegisters (.setFPUControl resetFPUControl)
    [.access (.setMXCSR 0x1F80)] rfl rfl).mpr ⟨fun _ value _ => Or.inr (Or.inl ?_), ?_⟩
  · exact ⟨.setMXCSR 0x1F80, List.mem_cons_self, List.mem_cons_self⟩
  · exact fun hreload => absurd trivial hreload

/-- The control word that a new processor is given does not reach the kernel. -/
theorem setFPUControl_lost :
    (resetRegisters.access (.setFPUControl resetFPUControl)).1.1 = .OK ∧
      (resetRegisters.access (.setFPUControl resetFPUControl)).2.kernel.answers = [] ∧
      ¬ WriteReachesRun resetRegisters (.setFPUControl resetFPUControl) [] ∧
      (filesAtRun (resetRegisters.access (.setFPUControl resetFPUControl)).2 []).fpuRegs.fcw =
        0 := by
  have hfcw : (filesAtRun (resetRegisters.access
      (.setFPUControl resetFPUControl)).2 []).fpuRegs.fcw = 0 := rfl
  refine ⟨rfl, rfl, fun hreaches => ?_, hfcw⟩
  have hfield := hreaches U16 (fun files => files.fpuRegs.fcw) 0x37F (fun _ => rfl)
    (fun _ ha => absurd ha List.not_mem_nil)
  exact absurd (hfield.symm.trans hfcw) (by decide)

/-! ## Runs as events -/

theorem entered_access (s : KvmRegisterState) (a : HostAccess) :
    (s.access a).2.kernel.entered = s.kernel.entered := by
  have hrefresh : s.refreshRegisters.2.kernel.entered = s.kernel.entered := by
    rw [KvmRegisterState.refreshRegisters]
    split
    · obtain ⟨-, -, hentered⟩ := forFiles_fetchFile allFiles s
      cases h : KvmRegisterState.forFiles KvmRegisterState.fetchFile allFiles s with
      | mk ok s' =>
        rw [h] at hentered
        cases ok <;> exact hentered
    · rfl
  cases h : s.refreshRegisters with
  | mk ok s' =>
    rw [h] at hrefresh
    cases ok <;> cases a <;> simp only [KvmRegisterState.access, h] <;> exact hrefresh

theorem entered_accessAll (accesses : List HostAccess) : ∀ s : KvmRegisterState,
    (s.accessAll accesses).kernel.entered = s.kernel.entered := by
  induction accesses with
  | nil => exact fun s => rfl
  | cons a accesses ih => exact fun s => (ih (s.access a).2).trans (entered_access s a)

/-- A run whose calls succeed is entered with `filesAtRun`. -/
theorem entered_runImpl {D : Type} {vp : KvmVirtualProcessor D}
    (hanswers : vp.registers.kernel.answers = []) (guest : KvmGuest) :
    (vp.runImpl guest).2.registers.kernel.entered =
      filesAtRun vp.registers [] :: vp.registers.kernel.entered := by
  obtain ⟨s', hupdate, -, -, hentered⟩ := updateRegisters_of_answers hanswers
  have hfiles : filesAtRun vp.registers [] = s'.kernel.files := by
    rw [filesAtRun, List.foldl_nil, hupdate]
  rw [hfiles, ← hentered, KvmVirtualProcessor.runImpl, hupdate]
  dsimp only
  split
  · exact entered_accessAll _ _
  · rfl

/-- `HandleExecResult` is one event followed by the accesses of the handlers. -/
theorem handleExecResult_events {D : Type} (vp : KvmVirtualProcessor D) :
    vp.handleExecResult.2.registers =
      (HostEvent.exitHandled :: vp.exits.handleExit.1.map .access).foldl KvmRegisterState.event
        vp.registers := by
  rw [List.foldl_cons, List.foldl_map]
  rfl

end Kvm

end Virt86
