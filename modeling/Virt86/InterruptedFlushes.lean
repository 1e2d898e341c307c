import Virt86.FailedRuns
import Virt86.WriteLedgers

/-!
# Flushes and fetches that stop halfway on KVM

A ledger beside the processor keeps, for each register file, the contents that the accepted writes
call for as long as the kernel was not given them. It is written to by accesses and struck out by
`KVM_SET` calls, and never looks at the flags. Whatever calls fail, the flags and the copies keep up
with it.
-/

namespace Virt86

namespace Kvm

open WriteBack

/-! ## The ledger -/

/-- The writes of a bulk access that are accepted: it ends at the first register that is not
supported. -/
def elementWrites : List (Reg × RegValue) → List (FileWrite KvmFile.Data)
  | [] => []
  | (reg, value) :: rest =>
    match registerFile reg with
    | some i => ⟨i, registerEdit i reg value⟩ :: elementWrites rest
    | none => []

def acceptedWrites : HostAccess → List (FileWrite KvmFile.Data)
  | .regWrite reg value => elementWrites [(reg, value)]
  | .regWriteBulk regs => elementWrites regs
  | .setMXCSR value => [⟨.fpuRegs, fun f : KvmFpu => { f with mxcsr := value }⟩]
  | _ => []

/-- The `KVM_SET` calls of `UpdateRegisters` that succeed, with the data they pass. -/
def setCalls : List KvmFile → KvmRegisterState → List ((i : KvmFile) × i.Data)
  | [], _ => []
  | i :: is, s =>
    match s.storeFile i with
    | (true, s') =>
      if s.cache.changed i then ⟨i, s.cache.files.get i⟩ :: setCalls is s' else setCalls is s'
    | (false, _) => []

/-- The ledger after `UpdateRegisters`. -/
def ledgerAfterUpdate (s : KvmRegisterState) (ledger : Ledger KvmFile.Data) :
    Ledger KvmFile.Data :=
  ledger.strike ((setCalls allFiles s).map Sigma.fst)

section Operations

variable {D : Type}

/-- The ledger after an operation, where the handlers make no accesses. -/
def KvmVirtualProcessor.account (vp : KvmVirtualProcessor D) (ledger : Ledger KvmFile.Data) :
    KvmOp → Ledger KvmFile.Data
  | .access a =>
    if vp.registers.refreshRegisters.1 then
      (acceptedWrites a).foldl (Ledger.note vp.registers.refreshRegisters.2.cache.files.get) ledger
    else ledger
  | .run _ => ledgerAfterUpdate vp.registers ledger
  | .step _ =>
    if (vp.withSingleStep true).setDebug.1 then
      ledgerAfterUpdate (vp.withSingleStep true).setDebug.2.registers ledger
    else ledger

/-- A processor with its ledger. -/
def performAccounted (p : KvmVirtualProcessor D × Ledger KvmFile.Data) (op : KvmOp) :
    KvmOpResult × (KvmVirtualProcessor D × Ledger KvmFile.Data) :=
  ((p.1.perform op).1, (p.1.perform op).2, p.1.account p.2 op)

end Operations

/-- The flags and the copies keep up with the ledger. -/
abbrev Accounted (s : KvmRegisterState) (ledger : Ledger KvmFile.Data) : Prop :=
  WriteBack.Accounted s.writeBack ledger

variable {s s' : KvmRegisterState} {ledger : Ledger KvmFile.Data}

/-- Only the copies and the flags count. -/
theorem Accounted.of_cache (h : Accounted s ledger) (hcache : s'.cache = s.cache) :
    Accounted s' ledger := by
  apply h.congr
  · exact congrArg (fun c : KvmRegisterCache => c.files.get) hcache
  · exact congrArg KvmRegisterCache.regsDirty hcache
  · exact congrArg KvmRegisterCache.changed hcache

/-! ## Fetching -/

theorem fetchFile_flags (i : KvmFile) (s : KvmRegisterState) :
    (s.fetchFile i).2.cache.changed = s.cache.changed ∧
      (s.fetchFile i).2.cache.regsDirty = s.cache.regsDirty := by
  rw [KvmRegisterState.fetchFile]
  cases s.kernel.answer with
  | mk ok kernel => cases ok <;> exact ⟨rfl, rfl⟩

theorem forFiles_fetchFile_flags (is : List KvmFile) (s : KvmRegisterState) :
    (KvmRegisterState.forFiles KvmRegisterState.fetchFile is s).2.cache.changed =
        s.cache.changed ∧
      (KvmRegisterState.forFiles KvmRegisterState.fetchFile is s).2.cache.regsDirty =
        s.cache.regsDirty := by
  induction is generalizing s with
  | nil => exact ⟨rfl, rfl⟩
  | cons i is ih =>
    obtain ⟨hchanged, hdirty⟩ := fetchFile_flags i s
    rw [KvmRegisterState.forFiles]
    cases hfetch : s.fetchFile i with
    | mk ok s₁ =>
      rw [hfetch] at hchanged hdirty
      cases ok with
      | true => exact ⟨(ih s₁).1.trans hchanged, (ih s₁).2.trans hdirty⟩
      | false => exact ⟨hchanged, hdirty⟩

/-- Wherever a fetch stops, it overwrites no file with something due. -/
theorem Accounted.refreshRegisters (h : Accounted s ledger) :
    Accounted s.refreshRegisters.2 ledger := by
  cases hdirty : s.cache.regsDirty with
  | false =>
    have hrefresh : s.refreshRegisters = (true, s) := by
      simp [KvmRegisterState.refreshRegisters, hdirty]
    rwa [hrefresh]
  | true =>
    apply h.fetched hdirty
    have hflags := forFiles_fetchFile_flags allFiles s
    simp only [KvmRegisterState.refreshRegisters, hdirty, if_true]
    cases hfetch : KvmRegisterState.forFiles KvmRegisterState.fetchFile allFiles s with
    | mk ok s₁ =>
      rw [hfetch] at hflags
      cases ok with
      | true =>
        refine Eq.trans ?_ hflags.1
        funext i
        cases i <;> rfl
      | false => exact hflags.1

/-! ## Writing -/

theorem regWriteLoop_eq (regs : List (Reg × RegValue)) (c : KvmRegisterCache) :
    (c.regWriteLoop regs).2 =
      (elementWrites regs).foldl (fun c w => c.modify w.file w.edit) c := by
  induction regs generalizing c with
  | nil => rfl
  | cons entry rest ih =>
    obtain ⟨reg, value⟩ := entry
    rw [KvmRegisterCache.regWriteLoop, elementWrites]
    rcases kvmRegWrite_spec reg value with ⟨hfile, hwrite⟩ | ⟨i, hfile, hwrite⟩
    · rw [hwrite c, hfile]
      rfl
    · rw [hwrite c, hfile]
      exact ih _

theorem access_eq_foldl {a : HostAccess} (ha : PlainAccess a) (c : KvmRegisterCache) :
    (c.access a).2 = (acceptedWrites a).foldl (fun c w => c.modify w.file w.edit) c := by
  cases a with
  | regWrite reg value =>
    have hloop := regWriteLoop_eq [(reg, value)] c
    rw [acceptedWrites, ← hloop, KvmRegisterCache.access, KvmRegisterCache.regWriteLoop]
    rcases kvmRegWrite_spec reg value with ⟨-, hwrite⟩ | ⟨i, -, hwrite⟩
    · rw [hwrite c]
    · rw [hwrite c]
      rfl
  | regWriteBulk regs => exact regWriteLoop_eq regs c
  | getFPUControl => exact ha.elim
  | setFPUControl => exact ha.elim
  | getMXCSRMask => exact ha.elim
  | setMXCSRMask => exact ha.elim
  | _ => rfl

theorem writeBack_foldl (ws : List (FileWrite KvmFile.Data)) (c : KvmRegisterCache)
    (kernel : KvmKernel) :
    KvmRegisterState.writeBack ⟨ws.foldl (fun c w => c.modify w.file w.edit) c, kernel⟩ =
      (KvmRegisterState.writeBack ⟨c, kernel⟩).applyWrites ws := by
  induction ws generalizing c with
  | nil => rfl
  | cons w ws ih =>
    rw [List.foldl_cons, ih, writeBack_modify]
    rfl

theorem Accounted.access (h : Accounted s ledger) {a : HostAccess} (ha : PlainAccess a) :
    Accounted (s.access a).2
      (if s.refreshRegisters.1 then
        (acceptedWrites a).foldl (Ledger.note s.refreshRegisters.2.cache.files.get) ledger
      else ledger) := by
  have hrefreshed := h.refreshRegisters
  have haccess : s.access a = match s.refreshRegisters with
      | (true, s) => ((s.cache.access a).1, { s with cache := (s.cache.access a).2 })
      | (false, s) => ((.Failed, a.arguments), s) := by
    cases a <;> first | rfl | exact ha.elim
  rw [haccess]
  cases hrefresh : s.refreshRegisters with
  | mk ok s₁ =>
    rw [hrefresh] at hrefreshed
    cases ok with
    | false => exact hrefreshed
    | true =>
      have hfresh := regsDirty_refreshRegisters (s := s) (by rw [hrefresh])
      rw [hrefresh] at hfresh
      simp only [if_true, access_eq_foldl ha]
      rw [Accounted, writeBack_foldl]
      exact hrefreshed.writes hfresh _

/-! ## Storing -/

theorem changed_clearChanged (c : KvmRegisterCache) (i : KvmFile) :
    (c.clearChanged i).changed = Function.update c.changed i false := by
  funext j
  cases i <;> cases j <;> rfl

theorem get_set_file (files : KvmRegisterFiles) (i : KvmFile) (x : i.Data) :
    (files.set i x).get = Function.update files.get i x := by
  funext j
  cases i <;> cases j <;> rfl

theorem clearChanged_frame (c : KvmRegisterCache) (i : KvmFile) :
    (c.clearChanged i).files = c.files ∧ (c.clearChanged i).regsDirty = c.regsDirty := by
  cases i <;> exact ⟨rfl, rfl⟩

/-- What a `KVM_SET` call can do to the registers, if there is one. -/
theorem storeFile_cases (i : KvmFile) (s : KvmRegisterState) :
    (s.cache.changed i = false ∧ s.storeFile i = (true, s)) ∨
    (∃ kernel, s.cache.changed i = true ∧ s.storeFile i = (true, ⟨s.cache.clearChanged i, kernel⟩) ∧
      kernel.files = s.kernel.files.set i (s.cache.files.get i)) ∨
    (∃ kernel, s.storeFile i = (false, ⟨s.cache, kernel⟩) ∧
      kernel.files = s.kernel.files) := by
  have hfiles : s.kernel.answer.2.files = s.kernel.files := by
    rw [KvmKernel.answer]
    split <;> rfl
  rw [KvmRegisterState.storeFile]
  cases hchanged : s.cache.changed i with
  | false => exact .inl ⟨rfl, rfl⟩
  | true =>
    cases hanswer : s.kernel.answer with
    | mk ok kernel =>
      rw [hanswer] at hfiles
      cases ok with
      | true => exact .inr (.inl ⟨_, rfl, rfl, by rw [hfiles]⟩)
      | false => exact .inr (.inr ⟨kernel, rfl, hfiles⟩)

theorem writeBack_clearChanged {kernel : KvmKernel} {i : KvmFile}
    (hfiles : kernel.files = s.kernel.files.set i (s.cache.files.get i)) :
    KvmRegisterState.writeBack ⟨s.cache.clearChanged i, kernel⟩ = s.writeBack.store i := by
  obtain ⟨hcopies, hdirty⟩ := clearChanged_frame s.cache i
  simp only [KvmRegisterState.writeBack, WriteBack.store, hfiles, hcopies, hdirty,
    changed_clearChanged, get_set_file]

/-- Wherever a flush stops, what is due beyond it is still marked and held. -/
theorem Accounted.forFiles_storeFile (h : Accounted s ledger) (is : List KvmFile) :
    Accounted (KvmRegisterState.forFiles KvmRegisterState.storeFile is s).2
      (ledger.strike ((setCalls is s).map Sigma.fst)) := by
  induction is generalizing s ledger with
  | nil =>
    rw [setCalls, List.map_nil, ledger.strike_nil]
    exact h
  | cons i is ih =>
    rw [KvmRegisterState.forFiles, setCalls]
    obtain ⟨hchanged, hstore⟩ | ⟨kernel, hchanged, hstore, hfiles⟩ | ⟨kernel, hstore, -⟩ :=
      storeFile_cases i s
    · simp only [hstore, hchanged, Bool.false_eq_true, if_false]
      exact ih h
    · simp only [hstore, hchanged, if_true, List.map_cons]
      rw [ledger.strike_cons]
      apply ih
      rw [Accounted, writeBack_clearChanged hfiles]
      exact h.store hchanged
    · simp only [hstore, List.map_nil]
      rw [ledger.strike_nil]
      exact h.of_cache rfl

/-- The calls pass the copies. -/
theorem setCalls_data {is : List KvmFile} {call : (i : KvmFile) × i.Data}
    (hcall : call ∈ setCalls is s) : call.2 = s.cache.files.get call.1 := by
  induction is generalizing s with
  | nil => exact absurd hcall List.not_mem_nil
  | cons i is ih =>
    rw [setCalls] at hcall
    obtain ⟨hchanged, hstore⟩ | ⟨kernel, hchanged, hstore, -⟩ | ⟨kernel, hstore, -⟩ :=
      storeFile_cases i s
    · simp only [hstore, hchanged, Bool.false_eq_true, if_false] at hcall
      exact ih hcall
    · simp only [hstore, hchanged, if_true, List.mem_cons] at hcall
      rcases hcall with rfl | hcall
      · rfl
      · rw [ih hcall]
        exact congrArg (fun files => KvmRegisterFiles.get files call.1)
          (clearChanged_frame s.cache i).1
    · simp only [hstore] at hcall
      exact absurd hcall List.not_mem_nil

/-- The kernel has `x` in a file that is not marked. -/
def Stored (s : KvmRegisterState) (i : KvmFile) (x : i.Data) : Prop :=
  s.cache.changed i = false ∧ s.kernel.files.get i = x

theorem Stored.forFiles_storeFile {i : KvmFile} {x : i.Data} (h : Stored s i x)
    (is : List KvmFile) :
    Stored (KvmRegisterState.forFiles KvmRegisterState.storeFile is s).2 i x := by
  induction is generalizing s with
  | nil => exact h
  | cons j is ih =>
    rw [KvmRegisterState.forFiles]
    obtain ⟨-, hstore⟩ | ⟨kernel, hchanged, hstore, hfiles⟩ |
      ⟨kernel, hstore, hfiles⟩ := storeFile_cases j s
    · rw [hstore]
      exact ih h
    · rw [hstore]
      have hij : i ≠ j := by
        rintro rfl
        rw [h.1] at hchanged
        cases hchanged
      refine ih ⟨?_, ?_⟩
      · rw [changed_clearChanged, Function.update_of_ne hij]
        exact h.1
      · rw [hfiles, get_set_file, Function.update_of_ne hij]
        exact h.2
    · rw [hstore]
      refine ⟨h.1, ?_⟩
      rw [hfiles]
      exact h.2

/-- A flush that goes through passes each changed file, and the kernel has it then. -/
theorem forFiles_storeFile_passes {is : List KvmFile}
    (hok : (KvmRegisterState.forFiles KvmRegisterState.storeFile is s).1 = true) {i : KvmFile}
    (hi : i ∈ is) (hchanged : s.cache.changed i = true) :
    ⟨i, s.cache.files.get i⟩ ∈ setCalls is s ∧
      Stored (KvmRegisterState.forFiles KvmRegisterState.storeFile is s).2 i
        (s.cache.files.get i) := by
  induction is generalizing s with
  | nil => exact absurd hi List.not_mem_nil
  | cons j is ih =>
    rw [KvmRegisterState.forFiles] at hok ⊢
    rw [setCalls]
    obtain ⟨hj, hstore⟩ | ⟨kernel, hj, hstore, hfiles⟩ | ⟨kernel, hstore, -⟩ := storeFile_cases j s
    · have hij : i ≠ j := by
        rintro rfl
        rw [hj] at hchanged
        cases hchanged
      simp only [hstore, hj, Bool.false_eq_true, if_false] at hok ⊢
      exact ih hok (List.mem_of_ne_of_mem hij hi) hchanged
    · simp only [hstore, hj, if_true] at hok ⊢
      obtain ⟨hcopies, -⟩ := clearChanged_frame s.cache j
      by_cases hij : i = j
      · subst hij
        refine ⟨List.mem_cons_self, ?_⟩
        refine Stored.forFiles_storeFile ⟨?_, ?_⟩ is
        · rw [changed_clearChanged, Function.update_self]
        · rw [hfiles, get_set_file, Function.update_self]
      · have hstill : (s.cache.clearChanged j).changed i = true := by
          rwa [changed_clearChanged, Function.update_of_ne hij]
        have hrest := ih (s := ⟨s.cache.clearChanged j, kernel⟩) hok
          (List.mem_of_ne_of_mem hij hi) hstill
        rw [hcopies] at hrest
        exact ⟨List.mem_cons_of_mem _ hrest.1, hrest.2⟩
    · simp [hstore] at hok

theorem changed_of_updateRegisters (hok : s.updateRegisters.1 = true) :
    ∀ i, s.updateRegisters.2.cache.changed i = false := by
  have hupdate : KvmRegisterState.forFiles KvmRegisterState.storeFile allFiles s =
      (true, s.updateRegisters.2) := Prod.ext hok rfl
  have hcache := forFiles_storeFile_cache hupdate
  intro i
  rw [hcache]
  cases i <;> rfl

/-! ## Running -/

section Operations

variable {D : Type} {vp : KvmVirtualProcessor D}

theorem Accounted.updateRegisters (h : Accounted s ledger) :
    Accounted s.updateRegisters.2 (ledgerAfterUpdate s ledger) := h.forFiles_storeFile allFiles

/-- Handling an exit marks copies without changes out of date. -/
theorem Accounted.handleExecResult (h : Accounted vp.registers ledger)
    (hclean : ∀ i, vp.registers.cache.changed i = false) (hio : vp.exits.io.Silent) :
    Accounted vp.handleExecResult.2.registers ledger ∧
      (∀ i, vp.handleExecResult.2.registers.cache.changed i = false) ∧
      vp.handleExecResult.2.exits.io = vp.exits.io := by
  have hregisters : vp.handleExecResult.2.registers = vp.registers.markDirty := by
    simp only [KvmVirtualProcessor.handleExecResult, handleExit_silent hio]
    rfl
  rw [hregisters]
  have hunmarked : ∀ i, vp.registers.markDirty.cache.changed i = false := by
    intro i
    rw [← hclean i]
    cases i <;> rfl
  refine ⟨h.of_unchanged hclean ?_, hunmarked, (handleExit_only hio).2⟩
  exact funext fun i => (hunmarked i).trans (hclean i).symm

theorem Accounted.runImpl (h : Accounted vp.registers ledger) (hio : vp.exits.io.Silent)
    (guest : KvmGuest) :
    Accounted (vp.runImpl guest).2.registers (ledgerAfterUpdate vp.registers ledger) ∧
      (vp.runImpl guest).2.exits.io = vp.exits.io ∧
      ((vp.runImpl guest).1 = .OK →
        ∀ i, (vp.runImpl guest).2.registers.cache.changed i = false) := by
  have hupdated := h.updateRegisters
  have hunmarked := changed_of_updateRegisters (s := vp.registers)
  rw [KvmVirtualProcessor.runImpl]
  cases hupdate : vp.registers.updateRegisters with
  | mk ok s₁ =>
    rw [hupdate] at hupdated hunmarked
    cases ok with
    | false => exact ⟨hupdated, rfl, fun hok => by cases hok⟩
    | true =>
      have hentered : Accounted (s₁.enterGuest guest) (ledgerAfterUpdate vp.registers ledger) :=
        hupdated.of_cache rfl
      by_cases hok : (guest s₁.kernel.files).ok = true
      · simp only [hok, if_true]
        let entered : KvmVirtualProcessor D := { vp with
          registers := s₁.enterGuest guest
          exits := { vp.exits with kvmRun := (guest s₁.kernel.files).kvmRun } }
        have hentered' : Accounted entered.registers (ledgerAfterUpdate vp.registers ledger) :=
          hentered
        obtain ⟨haccounted, hclean, hhandlers⟩ := hentered'.handleExecResult (hunmarked rfl) hio
        exact ⟨haccounted, hhandlers, fun _ => hclean⟩
      · simp only [hok, Bool.false_eq_true, if_false]
        exact ⟨hentered, trivial, fun hfalse => by cases hfalse⟩

theorem Accounted.setDebug (h : Accounted vp.registers ledger) (on : Bool) :
    Accounted (vp.withSingleStep on).setDebug.2.registers ledger :=
  h.of_cache (setDebug_frame (vp.withSingleStep on)).1

theorem Accounted.stepImpl (h : Accounted vp.registers ledger) (hio : vp.exits.io.Silent)
    (guest : KvmGuest) :
    Accounted (vp.stepImpl guest).2.registers (vp.account ledger (.step guest)) ∧
      (vp.stepImpl guest).2.exits.io = vp.exits.io := by
  obtain ⟨-, -, hexits₁⟩ := setDebug_frame (vp.withSingleStep true)
  have hstarted := h.setDebug true
  rw [KvmVirtualProcessor.stepImpl, KvmVirtualProcessor.account]
  cases hstart : (vp.withSingleStep true).setDebug with
  | mk ok vp₁ =>
    rw [hstart] at hexits₁ hstarted
    have hio₁ : vp₁.exits.io = vp.exits.io := congrArg KvmExits.io hexits₁
    cases ok with
    | false => exact ⟨hstarted, hio₁⟩
    | true =>
      obtain ⟨hran, hio₂, hclean⟩ := hstarted.runImpl (hio₁ ▸ hio) guest
      have hstopped := hran.setDebug false
      obtain ⟨hcache₃, -, hexits₃⟩ := setDebug_frame ((vp₁.runImpl guest).2.withSingleStep false)
      simp only [if_true]
      cases hstop : ((vp₁.runImpl guest).2.withSingleStep false).setDebug with
      | mk ok vp₃ =>
        rw [hstop] at hstopped hcache₃ hexits₃
        have hio₃ : vp₃.exits.io = vp.exits.io :=
          (congrArg KvmExits.io hexits₃).trans (hio₂.trans hio₁)
        cases ok with
        | false => exact ⟨hstopped, hio₃⟩
        | true =>
          by_cases hok : (vp₁.runImpl guest).1 = .OK
          · have hclean₃ : ∀ i, vp₃.registers.cache.changed i = false := by
              rw [hcache₃]
              exact hclean hok
            obtain ⟨haccounted, -, hhandlers⟩ :=
              hstopped.handleExecResult hclean₃ (hio₃ ▸ hio)
            simp only [hok, if_true]
            split_ifs
            · exact ⟨haccounted, hhandlers.trans hio₃⟩
            · exact ⟨haccounted, hhandlers.trans hio₃⟩
          · simp only [hok, if_false]
            exact ⟨hstopped, hio₃⟩

/-- The accesses of the operations are to registers and `MXCSR`. -/
def KvmOp.Plain : KvmOp → Prop
  | .access a => PlainAccess a
  | _ => True

/-- One operation keeps the flags and the copies up with the ledger. -/
theorem Accounted.perform {p : KvmVirtualProcessor D × Ledger KvmFile.Data} {op : KvmOp}
    (h : Accounted p.1.registers p.2 ∧ p.1.exits.io.Silent) (hop : op.Plain) :
    Accounted (performAccounted p op).2.1.registers (performAccounted p op).2.2 ∧
      (performAccounted p op).2.1.exits.io.Silent := by
  cases op with
  | access a => exact ⟨h.1.access hop, h.2⟩
  | run guest =>
    obtain ⟨haccounted, hio, -⟩ := h.1.runImpl h.2 guest
    exact ⟨haccounted, hio ▸ h.2⟩
  | step guest =>
    obtain ⟨haccounted, hio⟩ := h.1.stepImpl h.2 guest
    exact ⟨haccounted, hio ▸ h.2⟩

theorem Accounted.runAll {p : KvmVirtualProcessor D × Ledger KvmFile.Data} {ops : List KvmOp}
    (h : Accounted p.1.registers p.2 ∧ p.1.exits.io.Silent) (hops : ∀ op ∈ ops, op.Plain) :
    Accounted (runAll performAccounted p ops).2.1.registers (runAll performAccounted p ops).2.2 ∧
      (Virt86.runAll performAccounted p ops).2.1.exits.io.Silent := by
  induction ops generalizing p with
  | nil => exact h
  | cons op ops ih =>
    rw [List.forall_mem_cons] at hops
    exact ih (Accounted.perform h hops.1) hops.2

/-- Each file with something due is marked, a fetch does not overwrite it, a `KVM_SET` call for it
passes what is due, and a flush that goes through makes all these calls. -/
structure NothingLost (s : KvmRegisterState) (ledger : Ledger KvmFile.Data) : Prop where
  marked : ∀ i x, ledger i = some x → s.cache.changed i = true
  kept : ∀ i x, ledger i = some x → s.refreshRegisters.2.cache.files.get i = x
  passed : ∀ i x d, ledger i = some x → ⟨i, d⟩ ∈ setCalls allFiles s → d = x
  flushed : s.updateRegisters.1 = true → ∀ i x, ledger i = some x →
    ⟨i, x⟩ ∈ setCalls allFiles s ∧ s.updateRegisters.2.kernel.files.get i = x
  settled : s.updateRegisters.1 = true → ∀ i, ledgerAfterUpdate s ledger i = none

theorem Accounted.nothingLost (h : Accounted s ledger) : NothingLost s ledger where
  marked i x hdue := (h.due i x hdue).1
  kept i x hdue := (h.refreshRegisters.due i x hdue).2
  passed i x d hdue hcall := (setCalls_data hcall).trans (h.due i x hdue).2
  flushed hok i x hdue := by
    obtain ⟨hchanged, rfl⟩ := h.due i x hdue
    have hi : i ∈ allFiles := by cases i <;> decide
    obtain ⟨hcall, hstored⟩ := forFiles_storeFile_passes hok hi hchanged
    exact ⟨hcall, hstored.2⟩
  settled hok := h.updateRegisters.ledger_eq_none (changed_of_updateRegisters hok)

/-- Whatever operations were performed on a new processor and whatever calls failed, each register
file with an accepted write that was not passed to the kernel is marked, survives a fetch, and is
passed by the next flush that goes through. -/
theorem runAll_nothingLost (debugRegs : KvmDebugregs) (exits : KvmExits D) (kernel : KvmKernel)
    (hio : exits.io.Silent) (ops : List KvmOp) (hops : ∀ op ∈ ops, op.Plain) :
    let p := (Virt86.runAll performAccounted
      (KvmVirtualProcessor.create debugRegs exits kernel, fun _ => none) ops).2
    NothingLost p.1.registers p.2 := by
  have hcreated : Accounted (KvmVirtualProcessor.create debugRegs exits kernel).registers
      fun _ => none := .empty fun hdirty => absurd hdirty Bool.false_ne_true
  exact (Accounted.runAll ⟨hcreated, hio⟩ hops).1.nothingLost

/-- The flush stores `RAX` and fails to store `CR3`, which stays due. -/
theorem runAll_nothingLost_halfway :
    let ops : List KvmOp :=
      [.access (.regWrite .RAX 7), .access (.regWrite .CR3 0x1000), .run idleGuest]
    let p := (Virt86.runAll performAccounted (KvmVirtualProcessor.create default idleExits
      { resetKernel with answers := [true, false] }, fun _ => none) ops).2
    (p.2 .regs).isNone ∧ (p.2 .sregs).map (·.cr3) = some 0x1000 ∧
      NothingLost p.1.registers p.2 := by
  refine ⟨rfl, by decide +kernel,
    runAll_nothingLost default idleExits _ (IOHandlers.none_only _) _ ?_⟩
  exact List.forall_mem_cons.mpr ⟨trivial, List.forall_mem_cons.mpr
    ⟨trivial, List.forall_mem_singleton.mpr trivial⟩⟩

end Operations

end Kvm

end Virt86
