import Mathlib.Data.List.Nodup
import Virt86.WhpxRegisters

/-!
# What accesses to model specific registers report

Both hypervisors take a list of registers in one call. KVM processes its entries in order up to the
first one it rejects, and returns how many it processed or a negative number; WHPX does all or
nothing. Which entries and calls they reject, and what they hold, are parameters.
-/

namespace Virt86

theorem length_of_map_eq_range {α β : Type} {l : List α} {f : α → β} {g : ℕ → β} {n : ℕ}
    (h : l.map f = (List.range n).map g) : l.length = n := by
  simpa using congrArg List.length h

/-- A length that fits in 32 bits is passed as it is. -/
theorem take_mod_of_lt {α : Type} {l : List α} {n : ℕ} (hlength : l.length = n)
    (hlt : n < 2 ^ 32) : l.take (n % 2 ^ 32) = l := by
  rw [Nat.mod_eq_of_lt hlt, List.take_of_length_le (Nat.le_of_eq hlength)]

namespace Kvm

/-- `kvm_msr_entry`. -/
structure KvmMsrEntry where
  index : U32
  data : U64
  deriving DecidableEq, Repr

/-- `kvm_msrs`. -/
structure KvmMsrs where
  nmsrs : U32
  entries : List KvmMsrEntry
  deriving DecidableEq, Repr

/-- The kernel: whether it fails a call as a whole, and what it makes of one entry, which it rejects
with `none`. -/
structure MSRKernel (σ : Type) where
  getFails : KvmMsrs → σ → Bool
  setFails : KvmMsrs → σ → Bool
  readMSR : (index : U32) → σ → Option (U64 × σ)
  writeMSR : (index : U32) → (data : U64) → σ → Option σ

/-- What an `ioctl` returns, the entries it has processed, the data afterwards and the state of the
kernel. -/
structure MSRAnswer (σ : Type) where
  result : ℤ
  processed : List KvmMsrEntry
  msrData : KvmMsrs
  kernel : σ

/-- What a call returned, the array of the caller afterwards, the entries that were processed for
it and the state of the kernel. -/
structure MSROutcome (σ : Type) where
  status : VPOperationStatus
  values : ℕ → U64
  processed : List KvmMsrEntry
  kernel : σ

section Entries

variable {σ : Type} (handle : KvmMsrEntry → σ → Option (U64 × σ))

/-- The entries that are processed, with their data, and those that are left. -/
def process : List KvmMsrEntry → σ → (List KvmMsrEntry × List KvmMsrEntry) × σ
  | [], s => (([], []), s)
  | e :: es, s =>
    match handle e s with
    | none => (([], e :: es), s)
    | some (data, s) =>
      let ((processed, left), s) := process es s
      (({ e with data } :: processed, left), s)

/-- `KVM_GET_MSRS` or `KVM_SET_MSRS`. -/
def ioctlMSRs (fails : KvmMsrs → σ → Bool) (msrData : KvmMsrs) (s : σ) : MSRAnswer σ :=
  if fails msrData s then ⟨-1, [], msrData, s⟩
  else
    let ((processed, left), s) := process handle (msrData.entries.take msrData.nmsrs.toNat) s
    ⟨processed.length, processed, { msrData with
      entries := processed ++ left ++ msrData.entries.drop msrData.nmsrs.toNat }, s⟩

/-- The body shared by the accesses: those that read store the data of all entries. -/
def accessMSRs (fails : KvmMsrs → σ → Bool) (stores : Bool) (entry : ℕ → KvmMsrEntry)
    (values : ℕ → U64) (numRegs : ℕ) (s : σ) : MSROutcome σ :=
  let msrData : KvmMsrs := ⟨BitVec.ofNat 32 numRegs, (List.range numRegs).map entry⟩
  let answer := ioctlMSRs handle fails msrData s
  if answer.result < 0 then ⟨.Failed, values, answer.processed, answer.kernel⟩
  else
    ⟨.OK, fun i => if stores = true ∧ i < numRegs then
        (answer.msrData.entries.getD i ⟨0, 0⟩).data else values i,
      answer.processed, answer.kernel⟩

/-- No entry of the list is rejected. -/
def Accepts : List KvmMsrEntry → σ → Prop
  | [], _ => True
  | e :: es, s => ∃ data s', handle e s = some (data, s') ∧ Accepts es s'

end Entries

namespace MSRKernel

variable {σ : Type} (k : MSRKernel σ)

def get (e : KvmMsrEntry) (s : σ) : Option (U64 × σ) := k.readMSR e.index s

def set (e : KvmMsrEntry) (s : σ) : Option (U64 × σ) :=
  (k.writeMSR e.index e.data s).map fun s => (e.data, s)

/-- `GetMSR`, on the value of the caller. -/
def getMSR (msr value : U64) (s : σ) : MSROutcome σ :=
  accessMSRs k.get k.getFails true (fun _ => ⟨msr.setWidth 32, 0⟩) (fun _ => value) 1 s

def setMSR (msr value : U64) (s : σ) : MSROutcome σ :=
  accessMSRs k.set k.setFails false (fun _ => ⟨msr.setWidth 32, value⟩) (fun _ => value) 1 s

def getMSRs (msrs values : ℕ → U64) (numRegs : ℕ) (s : σ) : MSROutcome σ :=
  accessMSRs k.get k.getFails true (fun i => ⟨(msrs i).setWidth 32, 0⟩) values numRegs s

def setMSRs (msrs values : ℕ → U64) (numRegs : ℕ) (s : σ) : MSROutcome σ :=
  accessMSRs k.set k.setFails false (fun i => ⟨(msrs i).setWidth 32, values i⟩) values numRegs s

end MSRKernel

/-! ## Entries that are processed -/

section Entries

variable {σ : Type} (handle : KvmMsrEntry → σ → Option (U64 × σ))

/-- Processing changes no index. -/
theorem process_index (es : List KvmMsrEntry) (s : σ) :
    ((process handle es s).1.1 ++ (process handle es s).1.2).map (·.index) = es.map (·.index) := by
  induction es generalizing s with
  | nil => rfl
  | cons e es ih =>
    cases h : handle e s with
    | none => simp [process, h]
    | some r => simpa [process, h] using ih r.2

/-- Nothing is left exactly when no entry is rejected. -/
theorem process_left_eq_nil_iff (es : List KvmMsrEntry) (s : σ) :
    (process handle es s).1.2 = [] ↔ Accepts handle es s := by
  induction es generalizing s with
  | nil => exact iff_of_true rfl trivial
  | cons e es ih =>
    cases h : handle e s with
    | none => simp [process, Accepts, h]
    | some r =>
      obtain ⟨data, s'⟩ := r
      simp [process, Accepts, h, ih]

/-- Data that entries keep when they are processed. -/
theorem process_data (hkeep : ∀ e s data s', handle e s = some (data, s') → data = e.data)
    (es : List KvmMsrEntry) (s : σ) :
    (process handle es s).1.1 ++ (process handle es s).1.2 = es := by
  induction es generalizing s with
  | nil => rfl
  | cons e es ih =>
    cases h : handle e s with
    | none => simp [process, h]
    | some r =>
      have hdata := hkeep e s r.1 r.2 h
      simp [process, h, hdata, ih]

end Entries

/-- A call that reports success has had each register of the list processed, under its number and
with the value that the caller has for it. -/
def ReportsMSRs {σ : Type} (msrs : ℕ → U64) (numRegs : ℕ) (o : MSROutcome σ) : Prop :=
  o.status = .OK → o.processed.map (fun e => (e.index.setWidth 64, e.data)) =
    (List.range numRegs).map fun i => (msrs i, o.values i)

theorem setWidth_setWidth_eq_self_iff (x : U64) :
    (x.setWidth 32).setWidth 64 = x ↔ x.toNat < 2 ^ 32 := by
  rw [← BitVec.toNat_inj, BitVec.toNat_setWidth, BitVec.toNat_setWidth]
  omega

section Accesses

variable {σ : Type} {handle : KvmMsrEntry → σ → Option (U64 × σ)} {fails : KvmMsrs → σ → Bool}
  {stores : Bool} {entry : ℕ → KvmMsrEntry} {msrs values : ℕ → U64} {numRegs : ℕ} {s : σ}

theorem accessMSRs_of_fails
    (h : fails ⟨BitVec.ofNat 32 numRegs, (List.range numRegs).map entry⟩ s = true) :
    (accessMSRs handle fails stores entry values numRegs s).status = .Failed := by
  simp [accessMSRs, ioctlMSRs, h]

/-- A call that does not fail as a whole. -/
theorem accessMSRs_of_not_fails
    (h : fails ⟨BitVec.ofNat 32 numRegs, (List.range numRegs).map entry⟩ s = false)
    {processed left : List KvmMsrEntry} {s' : σ}
    (hprocess : process handle (((List.range numRegs).map entry).take (numRegs % 2 ^ 32)) s =
      ((processed, left), s')) :
    accessMSRs handle fails stores entry values numRegs s =
      ⟨.OK, fun i => if stores = true ∧ i < numRegs then ((processed ++ left ++
          ((List.range numRegs).map entry).drop (numRegs % 2 ^ 32)).getD i ⟨0, 0⟩).data
        else values i, processed, s'⟩ := by
  simp only [accessMSRs, ioctlMSRs, h, BitVec.toNat_ofNat, hprocess]
  rfl

/-- Entries under the numbers of the list, cut to 32 bits, are those of the list exactly when the
numbers fit and the data are those that the caller has. -/
theorem map_processed_eq_iff {processed : List KvmMsrEntry} {after : ℕ → U64}
    (hindices : processed.map (·.index) =
      (List.range numRegs).map fun i => (msrs i).setWidth 32) :
    processed.map (fun e => (e.index.setWidth 64, e.data)) =
        (List.range numRegs).map (fun i => (msrs i, after i)) ↔
      (∀ i < numRegs, (msrs i).toNat < 2 ^ 32) ∧
        ∀ i (h : i < processed.length), processed[i].data = after i := by
  have hlength := length_of_map_eq_range hindices
  have hindex (i : ℕ) (h : i < processed.length) :
      processed[i].index = (msrs i).setWidth 32 := by
    have hin : i < numRegs := by omega
    simpa [h, hin] using congrArg (·[i]?) hindices
  constructor
  · intro heq
    have hentry (i : ℕ) (h : i < processed.length) :
        ((msrs i).setWidth 32).setWidth 64 = msrs i ∧ processed[i].data = after i := by
      have hin : i < numRegs := by omega
      simpa [h, hin, hindex i h] using congrArg (·[i]?) heq
    refine ⟨fun i hi => ?_, fun i h => (hentry i h).2⟩
    exact (setWidth_setWidth_eq_self_iff _).mp (hentry i (by omega)).1
  · rintro ⟨hfits, hdata⟩
    refine List.ext_getElem (by simpa using hlength) fun i hi hi' => ?_
    simp only [List.length_map, List.length_range] at hi hi'
    have hnumber := (setWidth_setWidth_eq_self_iff _).mpr (hfits i hi')
    simp only [List.getElem_map, List.getElem_range, hindex i hi, hnumber, hdata i hi]

/-- For the four accesses alike. -/
theorem accessMSRs_reports_iff (hindex : ∀ i, (entry i).index = (msrs i).setWidth 32)
    (hkeep : stores = false → (∀ e s data s', handle e s = some (data, s') → data = e.data) ∧
      ∀ i, (entry i).data = values i) :
    ReportsMSRs msrs numRegs (accessMSRs handle fails stores entry values numRegs s) ↔
      fails ⟨BitVec.ofNat 32 numRegs, (List.range numRegs).map entry⟩ s = true ∨
        numRegs < 2 ^ 32 ∧ (∀ i < numRegs, (msrs i).toNat < 2 ^ 32) ∧
          Accepts handle ((List.range numRegs).map entry) s := by
  rw [ReportsMSRs]
  cases hfails : fails ⟨BitVec.ofNat 32 numRegs, (List.range numRegs).map entry⟩ s with
  | true =>
    rw [accessMSRs_of_fails hfails]
    exact iff_of_true (fun h => absurd h (by simp)) (.inl rfl)
  | false =>
    rcases hprocess : process handle (((List.range numRegs).map entry).take (numRegs % 2 ^ 32)) s
      with ⟨⟨processed, left⟩, s'⟩
    have hlists := process_index handle (((List.range numRegs).map entry).take (numRegs % 2 ^ 32)) s
    have hleft := process_left_eq_nil_iff handle
      (((List.range numRegs).map entry).take (numRegs % 2 ^ 32)) s
    rw [accessMSRs_of_not_fails hfails hprocess]
    rw [hprocess] at hlists hleft
    simp only [Bool.false_eq_true, false_or, true_imp_iff]
    have hsum := congrArg List.length hlists
    simp only [List.length_map, List.length_append, List.length_take, List.length_range] at hsum
    rcases Nat.lt_or_ge numRegs (2 ^ 32) with hlt | hge
    · have hall : ((List.range numRegs).map entry).take (numRegs % 2 ^ 32) =
          (List.range numRegs).map entry := by
        rw [Nat.mod_eq_of_lt hlt, List.take_of_length_le (by simp)]
      rw [hall] at hlists hleft hprocess
      rw [Nat.mod_eq_of_lt hlt, Nat.min_self] at hsum
      rw [and_iff_right hlt, ← hleft]
      by_cases hnil : left = []
      · subst hnil
        simp only [List.append_nil, List.map_map, Function.comp_def, hindex] at hlists
        rw [and_iff_left rfl, map_processed_eq_iff hlists, and_iff_left]
        intro i hi
        have hin : i < numRegs := by simpa using hsum ▸ hi
        cases stores with
        | true => simp [hin, List.getElem?_append_left hi, hi]
        | false =>
          obtain ⟨hdata, hvalues⟩ := hkeep rfl
          have hsame := process_data handle hdata ((List.range numRegs).map entry) s
          rw [hprocess, List.append_nil] at hsame
          have hentry : processed[i] = entry i := by
            simpa [hi, hin] using congrArg (·[i]?) hsame
          simp [hentry, hvalues]
      · refine iff_of_false (fun h => ?_) (fun h => hnil h.2)
        have hlength := length_of_map_eq_range h
        exact hnil (List.eq_nil_of_length_eq_zero (by omega))
    · -- a length that does not fit in 32 bits is cut, and fewer entries are processed
      refine iff_of_false (fun h => ?_) (fun h => absurd h.1 (Nat.not_lt.mpr hge))
      have hlength := length_of_map_eq_range h
      omega

end Accesses

/-- The kernel knows the number 0x10 only. -/
def oneMSR : MSRKernel U64 where
  getFails _ _ := false
  setFails _ _ := false
  readMSR index s := if index = 0x10 then some (s, s) else none
  writeMSR index data _ := if index = 0x10 then some data else none

end Kvm

namespace Whpx

open BitSlices

/-- The names of `WHV_REGISTER_NAME` that model specific registers translate to, without
`WHvX64Register`. -/
inductive WhvMsrName where
  | Tsc | Efer | KernelGsBase | ApicBase | Pat
  | SysenterCs | SysenterEip | SysenterEsp
  | Star | Lstar | Cstar | Sfmask
  | MsrMtrrCap | MsrMtrrDefType
  | MsrMtrrPhysBase (n : Fin 16)
  | MsrMtrrPhysMask (n : Fin 16)
  | MsrMtrrFix64k00000 | MsrMtrrFix16k80000 | MsrMtrrFix16kA0000
  | MsrMtrrFix4kC0000 | MsrMtrrFix4kC8000 | MsrMtrrFix4kD0000 | MsrMtrrFix4kD8000
  | MsrMtrrFix4kE0000 | MsrMtrrFix4kE8000 | MsrMtrrFix4kF0000 | MsrMtrrFix4kF8000
  | TscAux | SpecCtrl | PredCmd
  deriving DecidableEq, Repr

/-- The cases of `TranslateMSR` for any version. -/
def msrTable : List (U64 × WhvMsrName) := List.flatten
  [[(0x00000010, .Tsc), (0xC0000080, .Efer), (0xC0000102, .KernelGsBase),
      (0x0000001B, .ApicBase), (0x00000277, .Pat), (0x00000174, .SysenterCs),
      (0x00000176, .SysenterEip), (0x00000175, .SysenterEsp), (0xC0000081, .Star),
      (0xC0000082, .Lstar), (0xC0000083, .Cstar), (0xC0000084, .Sfmask),
      (0x000000FE, .MsrMtrrCap), (0x000002FF, .MsrMtrrDefType)],
    (List.finRange 16).map fun n => (BitVec.ofNat 64 (0x200 + 2 * n.val), .MsrMtrrPhysBase n),
    (List.finRange 16).map fun n => (BitVec.ofNat 64 (0x201 + 2 * n.val), .MsrMtrrPhysMask n),
    [(0x00000250, .MsrMtrrFix64k00000), (0x00000258, .MsrMtrrFix16k80000),
      (0x00000259, .MsrMtrrFix16kA0000), (0x00000268, .MsrMtrrFix4kC0000),
      (0x00000269, .MsrMtrrFix4kC8000), (0x0000026A, .MsrMtrrFix4kD0000),
      (0x0000026B, .MsrMtrrFix4kD8000), (0x0000026C, .MsrMtrrFix4kE0000),
      (0x0000026D, .MsrMtrrFix4kE8000), (0x0000026E, .MsrMtrrFix4kF0000),
      (0x0000026F, .MsrMtrrFix4kF8000), (0xC0000103, .TscAux)]]

/-- `TranslateMSR` under the version `g_whpxVersion`, without a name where it returns false. -/
def translateMSR (whpxVersion : VersionInfo) (msr : U64) : Option WhvMsrName :=
  if msr = 0x00000048 ∨ msr = 0x00000049 then
    if whpxVersion.ver ≥ (VersionInfo.mk 10 0 17763 0).ver then
      some (if msr = 0x00000048 then .SpecCtrl else .PredCmd)
    else none
  else msrTable.lookup msr

/-- The hypervisor: the calls it answers with something other than `S_OK`, and the registers of a
processor. -/
structure MSRHypervisor (σ : Type) where
  getFails : List WhvMsrName → σ → Bool
  setFails : List (WhvMsrName × WhvRegisterValue) → σ → Bool
  read : WhvMsrName → σ → WhvRegisterValue
  write : WhvMsrName → WhvRegisterValue → σ → σ

/-- What a call returned, the array of the caller afterwards, the registers that the hypervisor
read or set for it and its state. -/
structure MSROutcome (σ : Type) where
  status : VPOperationStatus
  values : ℕ → U64
  processed : List (WhvMsrName × WhvRegisterValue)
  hypervisor : σ

namespace MSRHypervisor

variable {σ : Type} (hv : MSRHypervisor σ)

/-- `WHvGetVirtualProcessorRegisters` of `count` of the names, with their values if it returns
`S_OK`. -/
def getVirtualProcessorRegisters (names : List WhvMsrName) (count : U32) (s : σ) :
    Option (List WhvRegisterValue) :=
  let names := names.take count.toNat
  if hv.getFails names s then none else some (names.map (hv.read · s))

/-- `WHvSetVirtualProcessorRegisters`: whether it returns `S_OK`. -/
def setVirtualProcessorRegisters (values : List (WhvMsrName × WhvRegisterValue)) (count : U32)
    (s : σ) : Bool × σ :=
  let values := values.take count.toNat
  if hv.setFails values s then (false, s)
  else (true, values.foldl (fun s entry => hv.write entry.1 entry.2 s) s)

variable (whpxVersion : VersionInfo) (allocated : Bool) (vals : ℕ → WhvRegisterValue)

/-- `GetMSRs`, where `none` is a null pointer. `vals` is what the array of the register values holds
at first, if the arrays can be allocated. -/
def getMSRs (msrs values : Option (ℕ → U64)) (numRegs : ℕ) (s : σ) : MSROutcome σ :=
  match msrs, values with
  | some msrs, some values =>
    if allocated = false then ⟨.Failed, values, [], s⟩
    else
      match (List.range numRegs).mapM fun i => translateMSR whpxVersion (msrs i) with
      | none => ⟨.InvalidRegister, values, [], s⟩
      | some regs =>
        match hv.getVirtualProcessorRegisters regs (BitVec.ofNat 32 numRegs) s with
        | none => ⟨.Failed, values, [], s⟩
        | some read =>
          ⟨.OK, fun i => if i < numRegs then (read.getD i (vals i)).reg64 else values i,
            regs.zip read, s⟩
  | _, _ => ⟨.InvalidArguments, values.getD fun _ => 0, [], s⟩

/-- `SetMSRs`. The status is `OK` whatever the hypervisor answers. -/
def setMSRs (msrs values : Option (ℕ → U64)) (numRegs : ℕ) (s : σ) : MSROutcome σ :=
  match msrs, values with
  | some msrs, some values =>
    if allocated = false then ⟨.Failed, values, [], s⟩
    else
      match (List.range numRegs).mapM fun i => translateMSR whpxVersion (msrs i) with
      | none => ⟨.InvalidRegister, values, [], s⟩
      | some regs =>
        let vals := (List.range numRegs).map fun i => (vals i).setReg64 (values i)
        let count := BitVec.ofNat 32 numRegs
        let (result, s) := hv.setVirtualProcessorRegisters (regs.zip vals) count s
        ⟨.OK, values, if result then (regs.zip vals).take count.toNat else [], s⟩
  | _, _ => ⟨.InvalidArguments, values.getD fun _ => 0, [], s⟩

end MSRHypervisor

theorem mem_of_translateMSR {whpxVersion : VersionInfo} {msr : U64} {reg : WhvMsrName}
    (h : translateMSR whpxVersion msr = some reg) :
    (msr, reg) ∈ (0x48, .SpecCtrl) :: (0x49, .PredCmd) :: msrTable := by
  simp only [translateMSR] at h
  split_ifs at h with hversioned hversion hspec
  · obtain rfl := Option.some.inj h
    simp [hspec]
  · obtain rfl := Option.some.inj h
    simp [hversioned.resolve_left hspec]
  · obtain ⟨before, after, hsplit, -⟩ := List.lookup_eq_some_iff.mp h
    simp [hsplit]

/-- Different numbers translate to different registers. -/
theorem translateMSR_inj {whpxVersion : VersionInfo} {msr msr' : U64} {reg : WhvMsrName}
    (h : translateMSR whpxVersion msr = some reg) (h' : translateMSR whpxVersion msr' = some reg) :
    msr = msr' := by
  have hnodup : (((0x48, .SpecCtrl) :: (0x49, .PredCmd) :: msrTable).map Prod.snd).Nodup := by
    decide +kernel
  have heq := List.inj_on_of_nodup_map hnodup (mem_of_translateMSR h) (mem_of_translateMSR h') rfl
  exact congrArg Prod.fst heq

theorem mapM_eq_some {α β : Type} {f : α → Option β} {l : List α} {bs : List β}
    (h : l.mapM f = some bs) : l.map f = bs.map some := by
  induction l generalizing bs with
  | nil => simp_all
  | cons a l ih =>
    rw [List.mapM_cons] at h
    cases ha : f a with
    | none => simp [ha] at h
    | some b =>
      cases hl : l.mapM f with
      | none => simp [ha, hl] at h
      | some bs' =>
        simp only [ha, hl] at h
        obtain rfl := Option.some.inj h
        rw [List.map_cons, List.map_cons, ha, ih hl]

/-- A call that reports success has had each register of the list read or set, with the value that
the caller has for it. -/
def ReportsMSRs {σ : Type} (whpxVersion : VersionInfo) (msrs : ℕ → U64) (numRegs : ℕ)
    (o : MSROutcome σ) : Prop :=
  o.status = .OK → o.processed.map (fun entry => (some entry.1, entry.2.reg64)) =
    (List.range numRegs).map fun i => (translateMSR whpxVersion (msrs i), o.values i)

section Accesses

variable {σ : Type} {hv : MSRHypervisor σ} {whpxVersion : VersionInfo} {allocated : Bool}
  {vals : ℕ → WhvRegisterValue} {msrs values : ℕ → U64} {numRegs : ℕ} {s : σ}

theorem translated_names {regs : List WhvMsrName}
    (h : (List.range numRegs).mapM (fun i => translateMSR whpxVersion (msrs i)) = some regs) :
    regs.length = numRegs ∧
      ∀ i (hi : i < regs.length), translateMSR whpxVersion (msrs i) = some regs[i] := by
  have hmap := mapM_eq_some h
  have hlength : regs.length = numRegs := by
    simpa using (congrArg List.length hmap).symm
  refine ⟨hlength, fun i hi => ?_⟩
  have hin : i < numRegs := by omega
  simpa [hin, hi] using congrArg (·[i]?) hmap

theorem getMSRs_reports_iff :
    ReportsMSRs whpxVersion msrs numRegs
        (hv.getMSRs whpxVersion allocated vals (some msrs) (some values) numRegs s) ↔
      (allocated = true → ∀ regs,
        (List.range numRegs).mapM (fun i => translateMSR whpxVersion (msrs i)) = some regs →
        hv.getFails (regs.take (numRegs % 2 ^ 32)) s = false → numRegs < 2 ^ 32) := by
  rw [ReportsMSRs, MSRHypervisor.getMSRs]
  cases allocated with
  | false => simp
  | true =>
    simp only [Bool.true_eq_false, if_false, true_imp_iff]
    cases hregs : (List.range numRegs).mapM fun i => translateMSR whpxVersion (msrs i) with
    | none => simp
    | some regs =>
      obtain ⟨hlength, hnames⟩ := translated_names hregs
      simp only [MSRHypervisor.getVirtualProcessorRegisters, BitVec.toNat_ofNat, Option.some.injEq,
        forall_eq']
      cases hv.getFails (regs.take (numRegs % 2 ^ 32)) s with
      | true => simp
      | false =>
        simp only [Bool.false_eq_true, if_false, true_imp_iff]
        constructor
        · intro h
          have hprocessed := length_of_map_eq_range h
          simp only [List.length_map, List.length_zip, List.length_take, hlength] at hprocessed
          omega
        · intro hlt
          rw [take_mod_of_lt hlength hlt]
          refine List.ext_getElem (by simp [hlength]) fun i hi _ => ?_
          have hin : i < numRegs := by simpa [hlength] using hi
          have hreg : i < regs.length := by omega
          simp [hin, hreg, hnames i hreg]

/-- The values that are sent are those of the caller under the names of its numbers. -/
theorem map_zip_values (vals : ℕ → WhvRegisterValue) (values : ℕ → U64) {regs : List WhvMsrName}
    (h : (List.range numRegs).mapM (fun i => translateMSR whpxVersion (msrs i)) = some regs) :
    (regs.zip ((List.range numRegs).map fun i => (vals i).setReg64 (values i))).map
        (fun entry => (some entry.1, entry.2.reg64)) =
      (List.range numRegs).map fun i => (translateMSR whpxVersion (msrs i), values i) := by
  obtain ⟨hlength, hnames⟩ := translated_names h
  refine List.ext_getElem (by simp [hlength]) fun i hi _ => ?_
  have hin : i < numRegs := by simpa [hlength] using hi
  have hreg : i < regs.length := by omega
  have hvalue : ((vals i).setReg64 (values i)).reg64 = values i :=
    extractLsb'_setSlice _ _ _ (by omega)
  simp [hnames i hreg, hvalue]

/-- Setting an empty list fails without consequence. -/
theorem setMSRs_reports_iff :
    ReportsMSRs whpxVersion msrs numRegs
        (hv.setMSRs whpxVersion allocated vals (some msrs) (some values) numRegs s) ↔
      (allocated = true → ∀ regs,
        (List.range numRegs).mapM (fun i => translateMSR whpxVersion (msrs i)) = some regs →
        numRegs = 0 ∨ numRegs < 2 ^ 32 ∧ hv.setFails (regs.zip
          ((List.range numRegs).map fun i => (vals i).setReg64 (values i))) s = false) := by
  rw [ReportsMSRs, MSRHypervisor.setMSRs]
  cases allocated with
  | false => simp
  | true =>
    simp only [Bool.true_eq_false, if_false, true_imp_iff]
    cases hregs : (List.range numRegs).mapM fun i => translateMSR whpxVersion (msrs i) with
    | none => simp
    | some regs =>
      simp only [MSRHypervisor.setVirtualProcessorRegisters, BitVec.toNat_ofNat, Option.some.injEq,
        forall_eq', true_imp_iff]
      have hsent := map_zip_values vals values hregs
      generalize regs.zip ((List.range numRegs).map fun i => (vals i).setReg64 (values i)) = sent
        at hsent ⊢
      have hsentLength := length_of_map_eq_range hsent
      rw [← hsent]
      rcases Nat.eq_zero_or_pos numRegs with rfl | hpos
      · obtain rfl : sent = [] := List.eq_nil_of_length_eq_zero hsentLength
        cases h : hv.setFails [] s <;> simp [h]
      cases hfails : hv.setFails (sent.take (numRegs % 2 ^ 32)) s with
      | true =>
        refine iff_of_false (fun h => ?_) ?_
        · have hprocessed := congrArg List.length h
          simp at hprocessed
          omega
        · rintro (rfl | ⟨hlt, haccepts⟩)
          · exact Nat.lt_irrefl _ hpos
          · rw [take_mod_of_lt hsentLength hlt, haccepts] at hfails
            exact absurd hfails (by simp)
      | false =>
        simp only [Bool.false_eq_true, if_false]
        constructor
        · intro h
          have hprocessed := congrArg List.length h
          simp only [if_true, List.length_map, List.length_take, hsentLength] at hprocessed
          have hlt : numRegs < 2 ^ 32 := by omega
          rw [take_mod_of_lt hsentLength hlt] at hfails
          exact .inr ⟨hlt, hfails⟩
        · rintro (rfl | ⟨hlt, -⟩)
          · exact absurd hpos (Nat.lt_irrefl _)
          · rw [if_true, take_mod_of_lt hsentLength hlt]

end Accesses

end Whpx

open Kvm Whpx

/-- For every list of numbers and values and all answers of the hypervisors: `OK` means that every
register was transferred, for KVM exactly when the call fails as a whole, or the length of the list
and all numbers fit in 32 bits and no entry is rejected; for `GetMSRs` of WHPX exactly when the call
is not made, or fails, or the length fits; and for `SetMSRs` exactly when the call is not made, or
the list is empty, or the length fits and the call succeeds. -/
theorem msrs_reports_iff {σ : Type} (k : MSRKernel σ) (hv : MSRHypervisor σ)
    (whpxVersion : VersionInfo) (allocated : Bool) (vals : ℕ → WhvRegisterValue) (msr value : U64)
    (msrs values : ℕ → U64) (numRegs : ℕ) (s : σ) :
    (Kvm.ReportsMSRs (fun _ => msr) 1 (k.getMSR msr value s) ↔
      k.getFails ⟨1, [⟨msr.setWidth 32, 0⟩]⟩ s = true ∨
        msr.toNat < 2 ^ 32 ∧ Accepts k.get [⟨msr.setWidth 32, 0⟩] s) ∧
    (Kvm.ReportsMSRs (fun _ => msr) 1 (k.setMSR msr value s) ↔
      k.setFails ⟨1, [⟨msr.setWidth 32, value⟩]⟩ s = true ∨
        msr.toNat < 2 ^ 32 ∧ Accepts k.set [⟨msr.setWidth 32, value⟩] s) ∧
    (Kvm.ReportsMSRs msrs numRegs (k.getMSRs msrs values numRegs s) ↔
      k.getFails ⟨BitVec.ofNat 32 numRegs,
          (List.range numRegs).map fun i => ⟨(msrs i).setWidth 32, 0⟩⟩ s = true ∨
        numRegs < 2 ^ 32 ∧ (∀ i < numRegs, (msrs i).toNat < 2 ^ 32) ∧
          Accepts k.get ((List.range numRegs).map fun i => ⟨(msrs i).setWidth 32, 0⟩) s) ∧
    (Kvm.ReportsMSRs msrs numRegs (k.setMSRs msrs values numRegs s) ↔
      k.setFails ⟨BitVec.ofNat 32 numRegs,
          (List.range numRegs).map fun i => ⟨(msrs i).setWidth 32, values i⟩⟩ s = true ∨
        numRegs < 2 ^ 32 ∧ (∀ i < numRegs, (msrs i).toNat < 2 ^ 32) ∧
          Accepts k.set ((List.range numRegs).map fun i => ⟨(msrs i).setWidth 32, values i⟩) s) ∧
    (Whpx.ReportsMSRs whpxVersion msrs numRegs
        (hv.getMSRs whpxVersion allocated vals (some msrs) (some values) numRegs s) ↔
      (allocated = true → ∀ regs,
        (List.range numRegs).mapM (fun i => translateMSR whpxVersion (msrs i)) = some regs →
        hv.getFails (regs.take (numRegs % 2 ^ 32)) s = false → numRegs < 2 ^ 32)) ∧
    (Whpx.ReportsMSRs whpxVersion msrs numRegs
        (hv.setMSRs whpxVersion allocated vals (some msrs) (some values) numRegs s) ↔
      (allocated = true → ∀ regs,
        (List.range numRegs).mapM (fun i => translateMSR whpxVersion (msrs i)) = some regs →
        numRegs = 0 ∨ numRegs < 2 ^ 32 ∧ hv.setFails (regs.zip
          ((List.range numRegs).map fun i => (vals i).setReg64 (values i))) s = false)) := by
  have hset (e : KvmMsrEntry) (s : σ) (data : U64) (s' : σ) (h : k.set e s = some (data, s')) :
      data = e.data := by
    obtain ⟨t, -, heq⟩ := Option.map_eq_some_iff.mp h
    exact (congrArg Prod.fst heq).symm
  refine ⟨?_, ?_, ?_, ?_, getMSRs_reports_iff, setMSRs_reports_iff⟩
  · refine (accessMSRs_reports_iff (fun _ => rfl) (by simp)).trans ?_
    simp
  · refine (accessMSRs_reports_iff (fun _ => rfl) (fun _ => ⟨hset, fun _ => rfl⟩)).trans ?_
    simp
  · exact accessMSRs_reports_iff (fun _ => rfl) (by simp)
  · exact accessMSRs_reports_iff (fun _ => rfl) (fun _ => ⟨hset, fun _ => rfl⟩)

/-- The hypervisor refuses every call. -/
def refusing : MSRHypervisor Unit where
  getFails _ _ := true
  setFails _ _ := true
  read _ _ := 0
  write _ _ s := s

/-- KVM processors return `OK` for an entry that the kernel has rejected, and for a number that is
cut to another one; a WHPX processor for registers that were not set. -/
theorem msrs_report_untransferred :
    ((oneMSR.getMSRs (fun i => if i = 0 then 0x10 else 0x11) (fun _ => 5) 2 7).status = .OK ∧
      (oneMSR.getMSRs (fun i => if i = 0 then 0x10 else 0x11) (fun _ => 5) 2 7).values 1 = 0 ∧
      ¬ Kvm.ReportsMSRs (fun i => if i = 0 then 0x10 else 0x11) 2
        (oneMSR.getMSRs (fun i => if i = 0 then 0x10 else 0x11) (fun _ => 5) 2 7)) ∧
    ((oneMSR.setMSR 0x11 5 7).status = .OK ∧ (oneMSR.setMSR 0x11 5 7).kernel = 7 ∧
      ¬ Kvm.ReportsMSRs (fun _ => 0x11) 1 (oneMSR.setMSR 0x11 5 7)) ∧
    ((oneMSR.getMSR 0x100000010 5 7).status = .OK ∧
      ¬ Kvm.ReportsMSRs (fun _ => 0x100000010) 1 (oneMSR.getMSR 0x100000010 5 7)) ∧
    (refusing.setMSRs ⟨10, 0, 17763, 0⟩ true (fun _ => 0) (some fun _ => 0x10) (some fun _ => 5) 1
        ()).status = .OK ∧
      ¬ Whpx.ReportsMSRs ⟨10, 0, 17763, 0⟩ (fun _ => 0x10) 1
        (refusing.setMSRs ⟨10, 0, 17763, 0⟩ true (fun _ => 0) (some fun _ => 0x10)
          (some fun _ => 5) 1 ()) := by
  unfold Kvm.ReportsMSRs Whpx.ReportsMSRs
  decide +kernel

end Virt86
