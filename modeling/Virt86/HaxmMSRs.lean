import Mathlib.Data.List.Infix
import Mathlib.Logic.Function.Basic
import Virt86.LinearMemory

/-!
# Model specific registers of a HAXM processor

`GetMSRs` and `SetMSRs` hand the driver batches of `HAX_MAX_MSR_ARRAY` entries. The arrays of the
caller are functions of the index here, and the indices at which they are read and written are
recorded. The driver is a parameter.
-/

namespace Virt86

open StoppingRuns

namespace Haxm

def HAX_MAX_MSR_ARRAY : ℕ := 0x20

/-- `vmx_msr`. -/
structure VmxMsr where
  entry : U64
  value : U64
  deriving DecidableEq, Repr, Inhabited

/-- `hax_msr_data`. -/
structure HaxMsrData where
  nr_msr : U16
  entries : Vector VmxMsr HAX_MAX_MSR_ARRAY
  deriving DecidableEq, Repr

/-- Zeroes, with `count` entries filled in. -/
def msrData (count : ℕ) (entry : ℕ → VmxMsr) : HaxMsrData where
  nr_msr := BitVec.ofNat 16 count
  entries := Vector.ofFn fun i => if i < count then entry i else ⟨0, 0⟩

namespace HaxMsrData

/-- The entries the driver is to process. -/
def passed (data : HaxMsrData) : List VmxMsr := data.entries.toList.take data.nr_msr.toNat

/-- `entries[i].value`. -/
def value (data : HaxMsrData) (i : ℕ) : U64 := (data.entries.toList.getD i ⟨0, 0⟩).value

end HaxMsrData

/-- `GetMSRData` or `SetMSRData`: the result, the data afterwards and the state of the driver. -/
abbrev MSRCall (σ : Type) := HaxMsrData → σ → (Bool × HaxMsrData) × σ

structure HaxmMSRDriver (σ : Type) where
  getMSRData : MSRCall σ
  setMSRData : MSRCall σ

/-- A batch handed to the driver, and whether the call succeeded. -/
structure MSRBatch where
  data : HaxMsrData
  succeeded : Bool
  deriving DecidableEq, Repr

/-- The variables of the loop over the batches, with the indices at which the arrays have been read
and `values` has been written, and the batches handed to the driver. -/
structure MSRTransfer (σ : Type) where
  index : ℕ
  values : ℕ → U64
  read : List ℕ
  written : List ℕ
  batches : List MSRBatch
  driver : σ

section Transfers

variable {σ : Type} (call : MSRCall σ) (stores : Bool)

/-- The body shared by `GetMSR`, which stores the value that comes back, and `SetMSR`. -/
def transferMSR (e : VmxMsr) (value : U64) (s : σ) : (VPOperationStatus × U64) × σ :=
  match call (msrData 1 fun _ => e) s with
  | ((false, _), s) => ((.Failed, value), s)
  | ((true, data), s) => ((.OK, if stores then data.value 0 else value), s)

variable (entry : ℕ → VmxMsr) (numRegs : ℕ)

/-- A turn of the loop of `GetMSRs` and `SetMSRs`. Both inner loops run to the minimum of the
number of registers and the size of the array. -/
def transferBatch (l : MSRTransfer σ) : Bool × MSRTransfer σ :=
  let prevIndex := l.index
  let msrCount := min numRegs HAX_MAX_MSR_ARRAY
  let msrData := msrData msrCount fun i => entry (prevIndex + i)
  let ((result, msrData'), driver) := call msrData l.driver
  let l := { l with
    index := prevIndex + msrCount
    read := l.read ++ List.range' prevIndex msrCount
    batches := l.batches ++ [⟨msrData, result⟩]
    driver }
  if result ∧ stores then
    (result, { l with
      values := fun i => if prevIndex ≤ i ∧ i < prevIndex + msrCount
        then msrData'.value (i - prevIndex) else l.values i
      written := l.written ++ List.range' prevIndex msrCount })
  else (result, l)

/-- The loop, `none` when the fuel runs out. -/
def transferMSRs : ℕ → MSRTransfer σ → Option (VPOperationStatus × MSRTransfer σ)
  | 0, _ => none
  | fuel + 1, l =>
    if l.index < numRegs then
      match transferBatch call stores entry numRegs l with
      | (true, l) => transferMSRs fuel l
      | (false, l) => some (.Failed, l)
    else some (.OK, l)

/-- An element of the loops of `VirtualProcessor::GetMSRs` and `SetMSRs`, on `values` and the
state of the driver. -/
def eachStep : (ℕ → U64) × σ → ℕ → Bool × (ℕ → U64) × σ
  | (values, s), i =>
    let ((status, value), s) := transferMSR call stores (entry i) (values i) s
    (status = .OK, Function.update values i value, s)

end Transfers

namespace HaxmMSRDriver

variable {σ : Type} (d : HaxmMSRDriver σ)

def getMSR (msr value : U64) (s : σ) : (VPOperationStatus × U64) × σ :=
  transferMSR d.getMSRData true ⟨msr, 0⟩ value s

def setMSR (msr value : U64) (s : σ) : VPOperationStatus × σ :=
  let ((status, _), s) := transferMSR d.setMSRData false ⟨msr, value⟩ value s
  (status, s)

/-- `GetMSRs`, where `none` is a null pointer. -/
def getMSRs (fuel : ℕ) (msrs values : Option (ℕ → U64)) (numRegs : ℕ) (s : σ) :
    Option (VPOperationStatus × MSRTransfer σ) :=
  match msrs, values with
  | some msrs, some values =>
    transferMSRs d.getMSRData true (fun i => ⟨msrs i, 0⟩) numRegs fuel ⟨0, values, [], [], [], s⟩
  | _, _ => some (.InvalidArguments, ⟨0, values.getD fun _ => 0, [], [], [], s⟩)

/-- `SetMSRs`, where `none` is a null pointer. -/
def setMSRs (fuel : ℕ) (msrs values : Option (ℕ → U64)) (numRegs : ℕ) (s : σ) :
    Option (VPOperationStatus × MSRTransfer σ) :=
  match msrs, values with
  | some msrs, some values =>
    transferMSRs d.setMSRData false (fun i => ⟨msrs i, values i⟩) numRegs fuel
      ⟨0, values, [], [], [], s⟩
  | _, _ => some (.InvalidArguments, ⟨0, values.getD fun _ => 0, [], [], [], s⟩)

end HaxmMSRDriver

/-! ## Batches -/

theorem passed_msrData {count : ℕ} (h : count ≤ HAX_MAX_MSR_ARRAY) (entry : ℕ → VmxMsr) :
    (msrData count entry).passed = (List.range count).map entry := by
  have hcount : (BitVec.ofNat 16 count).toNat = count := by
    rw [HAX_MAX_MSR_ARRAY] at h
    rw [BitVec.toNat_ofNat]
    omega
  apply List.ext_getElem
  · simp [HaxMsrData.passed, msrData, hcount, h]
  · intro i hi _
    have hlt : i < count := by
      simpa [HaxMsrData.passed, msrData, hcount, h] using hi
    simp [HaxMsrData.passed, msrData, hlt]

/-- More fuel changes nothing. -/
theorem transferMSRs_mono {σ : Type} {call : MSRCall σ} {stores : Bool} {entry : ℕ → VmxMsr}
    {numRegs fuel : ℕ} : ∀ {l : MSRTransfer σ} {o : VPOperationStatus × MSRTransfer σ},
    transferMSRs call stores entry numRegs fuel l = some o →
      transferMSRs call stores entry numRegs (fuel + 1) l = some o := by
  induction fuel with
  | zero => exact fun h => absurd h (by simp [transferMSRs])
  | succ fuel ih =>
    intro l o h
    rw [transferMSRs] at h ⊢
    by_cases hlt : l.index < numRegs
    · rw [if_pos hlt] at h ⊢
      rcases hturn : transferBatch call stores entry numRegs l with ⟨_ | _, l'⟩
      · rwa [hturn] at h
      · rw [hturn] at h
        exact ih h
    · rwa [if_neg hlt] at h ⊢

theorem transferMSRs_returns {σ : Type} {call : MSRCall σ} {stores : Bool} {entry : ℕ → VmxMsr}
    {numRegs fuel : ℕ} {l : MSRTransfer σ} {o : VPOperationStatus × MSRTransfer σ}
    (h : transferMSRs call stores entry numRegs fuel l = some o) :
    Returns (fun fuel => transferMSRs call stores entry numRegs fuel l) o := by
  refine ⟨fuel, fun fuel' hfuel => ?_⟩
  obtain ⟨k, rfl⟩ := Nat.exists_eq_add_of_le (Nat.le_of_lt hfuel)
  clear hfuel
  induction k with
  | zero => exact h
  | succ k ih => exact transferMSRs_mono ih

section Calls

variable {σ : Type} {call : MSRCall σ} {stores : Bool} {entry : ℕ → VmxMsr} {numRegs : ℕ}

/-- Calls with one entry each, in order, and the values that come back unless one of them fails. -/
def callEach (call : MSRCall σ) : List VmxMsr → σ → Option (List U64 × σ)
  | [], s => some ([], s)
  | e :: es, s =>
    match call (msrData 1 fun _ => e) s with
    | ((true, data), s) => (callEach call es s).map fun (values, s) => (data.value 0 :: values, s)
    | ((false, _), _) => none

/-- A call that succeeds does what calls with its entries one by one do, and brings back their
values where values are looked at. -/
def InOrder (call : MSRCall σ) (stores : Bool) : Prop :=
  ∀ (count : ℕ) (entry : ℕ → VmxMsr) (s s' : σ) (data : HaxMsrData), count ≤ HAX_MAX_MSR_ARRAY →
    call (msrData count entry) s = ((true, data), s') →
    ∃ values, callEach call ((List.range count).map entry) s = some (values, s') ∧
      (stores = true → ∀ i < count, data.value i = values.getD i 0)

/-- The loop over single elements does what the calls with one entry do. -/
theorem run_eachStep {k : ℕ} : ∀ {a : ℕ} {s s' : σ} {values : ℕ → U64} {vs : List U64},
    callEach call ((List.range' a k).map entry) s = some (vs, s') →
      run (eachStep call stores entry) (values, s) (List.range' a k) =
        (true, fun i => if stores = true ∧ a ≤ i ∧ i < a + k then vs.getD (i - a) 0 else values i,
          s') := by
  induction k with
  | zero =>
    intro a s s' values vs h
    obtain ⟨rfl, rfl⟩ := Prod.mk.inj (Option.some.inj h)
    have hnone : (fun i => if stores = true ∧ a ≤ i ∧ i < a + 0
        then ([] : List U64).getD (i - a) 0 else values i) = values := by
      funext i
      rw [if_neg (by omega)]
    rw [hnone]
    rfl
  | succ k ih =>
    intro a s s' values vs h
    rw [List.range'_succ, List.map_cons, callEach] at h
    rcases hcall : call (msrData 1 fun _ => entry a) s with ⟨⟨_ | _, data⟩, s₁⟩
    · simp [hcall] at h
    · simp only [hcall, Option.map_eq_some_iff] at h
      obtain ⟨⟨vs', s''⟩, hrest, heq⟩ := h
      obtain ⟨rfl, rfl⟩ := Prod.mk.inj heq
      have hstep : eachStep call stores entry (values, s) a = (true,
          Function.update values a (if stores then data.value 0 else values a), s₁) := by
        simp only [eachStep, transferMSR, hcall, decide_true]
      rw [List.range'_succ, run_cons_of_true (by rw [hstep]), hstep, ih hrest]
      congr 2
      funext i
      by_cases hi : i = a
      · subst hi
        simp [show ¬ i + 1 ≤ i by omega]
      · rw [Function.update_of_ne hi]
        by_cases hrange : stores = true ∧ a + 1 ≤ i ∧ i < a + 1 + k
        · obtain ⟨hstores, hlo, hhi⟩ := hrange
          obtain ⟨j, rfl⟩ : ∃ j, i = a + 1 + j := ⟨i - (a + 1), by omega⟩
          have hcons : a + 1 + j - a = j + 1 := by omega
          rw [if_pos ⟨hstores, hlo, hhi⟩, if_pos ⟨hstores, by omega, by omega⟩, hcons,
            List.getD_cons_succ, Nat.add_sub_cancel_left]
        · rw [if_neg hrange, if_neg]
          rintro ⟨hstores, hlo, hhi⟩
          exact hrange ⟨hstores, by omega, by omega⟩

/-- The batch for the elements from `a` on. -/
def batchAt (entry : ℕ → VmxMsr) (count a : ℕ) : HaxMsrData := msrData count fun i => entry (a + i)

theorem passed_batchAt {count : ℕ} (h : count ≤ HAX_MAX_MSR_ARRAY) (entry : ℕ → VmxMsr) (a : ℕ) :
    (batchAt entry count a).passed = (List.range' a count).map entry := by
  rw [batchAt, passed_msrData h, List.range'_eq_map_range, List.map_map]
  rfl

/-- The driver's part of a turn for the `q`-th batch of `count` elements. -/
def driverStep (call : MSRCall σ) (entry : ℕ → VmxMsr) (count : ℕ) (s : σ) (q : ℕ) : Bool × σ :=
  ((call (batchAt entry count (count * q)) s).1.1, (call (batchAt entry count (count * q)) s).2)

/-- The variables after `q` turns with batches of `count` elements that the driver accepted: they
have done what the loop over single elements does to the elements before the index. -/
structure Transferred (call : MSRCall σ) (stores : Bool) (entry : ℕ → VmxMsr) (count : ℕ)
    (values : ℕ → U64) (s : σ) (q : ℕ) (l : MSRTransfer σ) : Prop where
  index : l.index = count * q
  read : l.read = List.range l.index
  written : ∀ i ∈ l.written, i < l.index
  batches : ∀ b ∈ l.batches, b.succeeded = true ∧ b.data.passed.length ≤ HAX_MAX_MSR_ARRAY
  passed : l.batches.flatMap (·.data.passed) = (List.range l.index).map entry
  each : run (eachStep call stores entry) (values, s) (List.range l.index) =
    (true, l.values, l.driver)

variable {values : ℕ → U64} {s s' : σ} {q : ℕ} {l : MSRTransfer σ} {data : HaxMsrData}

theorem transferred_init (call : MSRCall σ) (stores : Bool) (entry : ℕ → VmxMsr) (count : ℕ)
    (values : ℕ → U64) (s : σ) :
    Transferred call stores entry count values s 0 ⟨0, values, [], [], [], s⟩ :=
  ⟨rfl, rfl, by simp, by simp, rfl, rfl⟩

theorem range_add_eq (a k : ℕ) : List.range (a + k) = List.range a ++ List.range' a k := by
  rw [List.range_eq_range', List.range_eq_range', ← List.range'_append_1, Nat.zero_add]

theorem transferBatch_eq {result : Bool}
    (hcall : call (batchAt entry (min numRegs HAX_MAX_MSR_ARRAY) l.index) l.driver =
      ((result, data), s')) :
    transferBatch call stores entry numRegs l = (result,
      { index := l.index + min numRegs HAX_MAX_MSR_ARRAY
        values := if result ∧ stores then fun i =>
          if l.index ≤ i ∧ i < l.index + min numRegs HAX_MAX_MSR_ARRAY
            then data.value (i - l.index) else l.values i else l.values
        read := l.read ++ List.range' l.index (min numRegs HAX_MAX_MSR_ARRAY)
        written := if result ∧ stores then
          l.written ++ List.range' l.index (min numRegs HAX_MAX_MSR_ARRAY) else l.written
        batches := l.batches ++
          [⟨batchAt entry (min numRegs HAX_MAX_MSR_ARRAY) l.index, result⟩]
        driver := s' }) := by
  rw [batchAt] at hcall
  simp only [transferBatch, hcall, batchAt]
  split_ifs
  · rfl
  · rfl

/-- A turn whose batch the driver accepts. -/
theorem Transferred.turn
    (h : Transferred call stores entry (min numRegs HAX_MAX_MSR_ARRAY) values s q l)
    (horder : InOrder call stores)
    (hcall : call (batchAt entry (min numRegs HAX_MAX_MSR_ARRAY) l.index) l.driver =
      ((true, data), s')) :
    ∃ l', transferBatch call stores entry numRegs l = (true, l') ∧ l'.driver = s' ∧
      Transferred call stores entry (min numRegs HAX_MAX_MSR_ARRAY) values s (q + 1) l' := by
  have hcount : min numRegs HAX_MAX_MSR_ARRAY ≤ HAX_MAX_MSR_ARRAY := Nat.min_le_right _ _
  refine ⟨_, transferBatch_eq hcall, rfl, ?_⟩
  generalize min numRegs HAX_MAX_MSR_ARRAY = count at *
  have hpassed := passed_batchAt hcount entry l.index
  obtain ⟨vs, heach, hvalues⟩ := horder _ _ _ _ _ hcount hcall
  rw [← passed_msrData hcount, ← batchAt, hpassed] at heach
  constructor
  · rw [h.index, Nat.mul_succ]
  · simp only [h.read, range_add_eq]
  · intro i hi
    have hwritten : i ∈ l.written ++ List.range' l.index count := by
      split_ifs at hi
      · exact hi
      · exact List.mem_append_left _ hi
    rcases List.mem_append.mp hwritten with hold | hnew
    · exact Nat.lt_add_right _ (h.written i hold)
    · exact (List.mem_range'_1.mp hnew).2
  · intro b hb
    rcases List.mem_append.mp hb with hold | hnew
    · exact h.batches b hold
    · rw [List.mem_singleton.mp hnew, hpassed]
      simpa using hcount
  · rw [range_add_eq, List.map_append, List.flatMap_append, h.passed, List.flatMap_singleton,
      hpassed]
  · rw [range_add_eq, run_append_of_true (by rw [h.each]), h.each, run_eachStep heach]
    congr 2
    funext i
    by_cases hstores : stores = true
    · by_cases hi : l.index ≤ i ∧ i < l.index + count
      · simp [hstores, hi, hvalues hstores (i - l.index) (by omega)]
      · simp [hstores, hi]
    · simp [hstores]

/-- Before the end of the arrays a turn is entered. -/
theorem Transferred.index_lt
    (h : Transferred call stores entry (min numRegs HAX_MAX_MSR_ARRAY) values s q l)
    (hnum : 0 < numRegs) {k : ℕ} (hk : 0 < k)
    (hle : min numRegs HAX_MAX_MSR_ARRAY * (q + k) ≤ numRegs) : l.index < numRegs := by
  have hcount : 0 < min numRegs HAX_MAX_MSR_ARRAY := Nat.lt_min.mpr ⟨hnum, by decide⟩
  rw [h.index]
  exact Nat.lt_of_lt_of_le (Nat.mul_lt_mul_of_pos_left (by omega) hcount) hle

/-- Turns whose batches the driver accepts. -/
theorem Transferred.loop_of_true (horder : InOrder call stores) (hnum : 0 < numRegs) {k : ℕ} :
    ∀ {q : ℕ} {l : MSRTransfer σ},
      Transferred call stores entry (min numRegs HAX_MAX_MSR_ARRAY) values s q l →
      min numRegs HAX_MAX_MSR_ARRAY * (q + k) ≤ numRegs →
      (run (driverStep call entry (min numRegs HAX_MAX_MSR_ARRAY)) l.driver
        (List.range' q k)).1 = true →
      ∃ l', Transferred call stores entry (min numRegs HAX_MAX_MSR_ARRAY) values s (q + k) l' ∧
        ∀ fuel, transferMSRs call stores entry numRegs (fuel + k) l =
          transferMSRs call stores entry numRegs fuel l' := by
  -- induction on the number of turns
  induction k with
  | zero => exact fun h _ _ => ⟨_, h, fun _ => rfl⟩
  | succ k ih =>
    intro q l h hle hrun
    have hlt := h.index_lt hnum (Nat.succ_pos k) hle
    have hsucc : q + (k + 1) = q + 1 + k := by omega
    rcases hcall : call (batchAt entry (min numRegs HAX_MAX_MSR_ARRAY) l.index) l.driver with
      ⟨⟨_ | _, data⟩, s'⟩
    · rw [h.index] at hcall
      rw [List.range'_succ, run_cons_of_false (by rw [driverStep, hcall])] at hrun
      exact absurd hrun (by simp)
    · obtain ⟨l', hturn, rfl, hnext⟩ := h.turn horder hcall
      rw [h.index] at hcall
      rw [List.range'_succ, run_cons_of_true (by rw [driverStep, hcall]), driverStep, hcall] at hrun
      rw [hsucc] at hle ⊢
      obtain ⟨l'', hlast, hloop⟩ := ih hnext hle hrun
      refine ⟨l'', hlast, fun fuel => ?_⟩
      rw [← Nat.add_assoc, transferMSRs, if_pos hlt, hturn]
      exact hloop fuel

/-- A turn whose batch the driver rejects, after others that it accepted. -/
theorem Transferred.loop_of_false (horder : InOrder call stores) (hnum : 0 < numRegs) {k : ℕ} :
    ∀ {q : ℕ} {l : MSRTransfer σ},
      Transferred call stores entry (min numRegs HAX_MAX_MSR_ARRAY) values s q l →
      min numRegs HAX_MAX_MSR_ARRAY * (q + k) ≤ numRegs →
      (run (driverStep call entry (min numRegs HAX_MAX_MSR_ARRAY)) l.driver
        (List.range' q k)).1 = false →
      ∃ q' l' data s', q' < q + k ∧
        Transferred call stores entry (min numRegs HAX_MAX_MSR_ARRAY) values s q' l' ∧
        call (batchAt entry (min numRegs HAX_MAX_MSR_ARRAY) l'.index) l'.driver =
          ((false, data), s') ∧
        ∀ fuel, transferMSRs call stores entry numRegs (fuel + k) l =
          some (.Failed, (transferBatch call stores entry numRegs l').2) := by
  induction k with
  | zero => exact fun _ _ hrun => absurd hrun (by simp [run])
  | succ k ih =>
    intro q l h hle hrun
    have hlt := h.index_lt hnum (Nat.succ_pos k) hle
    have hsucc : q + (k + 1) = q + 1 + k := by omega
    rcases hcall : call (batchAt entry (min numRegs HAX_MAX_MSR_ARRAY) l.index) l.driver with
      ⟨⟨_ | _, data⟩, s'⟩
    · refine ⟨q, l, data, s', by omega, h, hcall, fun fuel => ?_⟩
      rw [← Nat.add_assoc, transferMSRs, if_pos hlt, transferBatch_eq hcall]
    · obtain ⟨l', hturn, rfl, hnext⟩ := h.turn horder hcall
      rw [h.index] at hcall
      rw [List.range'_succ, run_cons_of_true (by rw [driverStep, hcall]), driverStep, hcall] at hrun
      rw [hsucc] at hle ⊢
      obtain ⟨q', l'', data', s'', hq, hlast, hreject, hloop⟩ := ih hnext hle hrun
      refine ⟨q', l'', data', s'', hq, hlast, hreject, fun fuel => ?_⟩
      rw [← Nat.add_assoc, transferMSRs, if_pos hlt, hturn]
      exact hloop fuel

end Calls

/-! ## The arrays of the caller -/

/-- A call for `numRegs` elements stays in the arrays and hands their entries to the driver in
order, in batches that fit, as far as it gets; and when the driver accepts every batch it gets, all
entries have been handed over, and the caller and the driver are left as by the loop over single
elements. -/
structure Transfers {σ : Type} (call : MSRCall σ) (stores : Bool) (entry : ℕ → VmxMsr)
    (numRegs : ℕ) (values : ℕ → U64) (s : σ) (o : VPOperationStatus × MSRTransfer σ) : Prop where
  read : ∀ i ∈ o.2.read, i < numRegs
  written : ∀ i ∈ o.2.written, i < numRegs
  batches : ∀ b ∈ o.2.batches, b.data.passed.length ≤ HAX_MAX_MSR_ARRAY
  in_order : o.2.batches.flatMap (·.data.passed) <+: (List.range numRegs).map entry
  of_success : (∀ b ∈ o.2.batches, b.succeeded = true) → o.1 = .OK ∧
    o.2.batches.flatMap (·.data.passed) = (List.range numRegs).map entry ∧
    run (eachStep call stores entry) (values, s) (List.range numRegs) =
      (true, o.2.values, o.2.driver)

section Arrays

variable {σ : Type} {call : MSRCall σ} {stores : Bool} {entry : ℕ → VmxMsr} {numRegs : ℕ}
  {values : ℕ → U64} {s s' : σ} {q : ℕ} {l : MSRTransfer σ} {data : HaxMsrData}

theorem map_range_prefix {m n : ℕ} (h : m ≤ n) (entry : ℕ → VmxMsr) :
    (List.range m).map entry <+: (List.range n).map entry := by
  obtain ⟨k, rfl⟩ := Nat.exists_eq_add_of_le h
  rw [range_add_eq, List.map_append]
  exact List.prefix_append _ _

/-- The loop ends at the end of the arrays. -/
theorem Transferred.transfers (h : Transferred call stores entry
    (min numRegs HAX_MAX_MSR_ARRAY) values s q l) (hend : l.index = numRegs) :
    Transfers call stores entry numRegs values s (.OK, l) := by
  obtain ⟨-, hread, hwritten, hbatches, hpassed, heach⟩ := h
  rw [hend] at hread hwritten hpassed heach
  constructor
  · simp [hread]
  · exact hwritten
  · exact fun b hb => (hbatches b hb).2
  · rw [hpassed]
  · exact fun _ => ⟨rfl, hpassed, heach⟩

/-- A batch inside the arrays is rejected. -/
theorem Transferred.transfers_of_reject (h : Transferred call stores entry
    (min numRegs HAX_MAX_MSR_ARRAY) values s q l)
    (hle : l.index + min numRegs HAX_MAX_MSR_ARRAY ≤ numRegs)
    (hcall : call (batchAt entry (min numRegs HAX_MAX_MSR_ARRAY) l.index) l.driver =
      ((false, data), s')) :
    Transfers call stores entry numRegs values s
      (.Failed, (transferBatch call stores entry numRegs l).2) := by
  have hcount : min numRegs HAX_MAX_MSR_ARRAY ≤ HAX_MAX_MSR_ARRAY := Nat.min_le_right _ _
  have hpassed := passed_batchAt hcount entry l.index
  rw [transferBatch_eq hcall]
  constructor
  · intro i hi
    rw [h.read, ← range_add_eq, List.mem_range] at hi
    exact Nat.lt_of_lt_of_le hi hle
  · intro i hi
    have hlt := h.written i (by simpa using hi)
    omega
  · intro b hb
    rcases List.mem_append.mp hb with hold | hnew
    · exact (h.batches b hold).2
    · rw [List.mem_singleton.mp hnew, hpassed]
      simp
  · rw [List.flatMap_append, h.passed, List.flatMap_singleton, hpassed, ← List.map_append,
      ← range_add_eq]
    exact map_range_prefix hle entry
  · intro hsuccess
    exact absurd (hsuccess _ (List.mem_append_right _ (List.mem_singleton_self _))) (by simp)

/-- A turn past the last full batch reads behind the arrays, and is the last one. -/
theorem last_turn (call : MSRCall σ) (stores : Bool) (entry : ℕ → VmxMsr) (hlt : l.index < numRegs)
    (hgt : numRegs < l.index + min numRegs HAX_MAX_MSR_ARRAY) :
    ∃ o, (∀ fuel, transferMSRs call stores entry numRegs (fuel + 2) l = some o) ∧
      numRegs ∈ o.2.read := by
  rcases hcall : call (batchAt entry (min numRegs HAX_MAX_MSR_ARRAY) l.index) l.driver with
    ⟨⟨result, data⟩, s'⟩
  have hread : numRegs ∈ l.read ++ List.range' l.index (min numRegs HAX_MAX_MSR_ARRAY) :=
    List.mem_append_right _ (List.mem_range'_1.mpr ⟨Nat.le_of_lt hlt, hgt⟩)
  cases result with
  | false =>
    refine ⟨(.Failed, (transferBatch call stores entry numRegs l).2), fun fuel => ?_, ?_⟩
    · rw [transferMSRs, if_pos hlt, transferBatch_eq hcall]
    · rw [transferBatch_eq hcall]
      exact hread
  | true =>
    refine ⟨(.OK, (transferBatch call stores entry numRegs l).2), fun fuel => ?_, ?_⟩
    · rw [transferMSRs, if_pos hlt, transferBatch_eq hcall]
      simp only
      rw [transferMSRs, if_neg (Nat.not_lt.mpr (Nat.le_of_lt hgt))]
    · rw [transferBatch_eq hcall]
      exact hread

/-- Batches of a single size fill the arrays when they are one batch or all full. -/
theorem batch_dvd_iff : min numRegs HAX_MAX_MSR_ARRAY ∣ numRegs ↔
    numRegs ≤ HAX_MAX_MSR_ARRAY ∨ HAX_MAX_MSR_ARRAY ∣ numRegs := by
  rcases Nat.lt_or_ge HAX_MAX_MSR_ARRAY numRegs with hbig | hsmall
  · rw [Nat.min_eq_right (Nat.le_of_lt hbig)]
    exact ⟨.inr, fun h => h.resolve_left (Nat.not_le.mpr hbig)⟩
  · rw [Nat.min_eq_left hsmall]
    exact iff_of_true (Nat.dvd_refl _) (.inl hsmall)

/-- The driver rejects a batch inside the arrays. -/
theorem transfers_of_rejected (horder : InOrder call stores) (hnum : 0 < numRegs)
    (hrun : (run (driverStep call entry (min numRegs HAX_MAX_MSR_ARRAY)) s
      (List.range (numRegs / min numRegs HAX_MAX_MSR_ARRAY))).1 = false) :
    ∃ o, Returns (fun fuel => transferMSRs call stores entry numRegs fuel
      ⟨0, values, [], [], [], s⟩) o ∧ Transfers call stores entry numRegs values s o := by
  have hle : min numRegs HAX_MAX_MSR_ARRAY * (0 + numRegs / min numRegs HAX_MAX_MSR_ARRAY) ≤
      numRegs := by
    rw [Nat.zero_add]
    exact Nat.mul_div_le _ _
  rw [List.range_eq_range'] at hrun
  obtain ⟨q, l, data, s', hq, hl, hcall, hloop⟩ :=
    (transferred_init call stores entry _ values s).loop_of_false horder hnum hle hrun
  have hinside : l.index + min numRegs HAX_MAX_MSR_ARRAY ≤ numRegs := by
    rw [hl.index, ← Nat.mul_succ]
    exact Nat.le_trans (Nat.mul_le_mul_left _ hq) hle
  refine ⟨_, ⟨numRegs / min numRegs HAX_MAX_MSR_ARRAY, fun fuel hfuel => ?_⟩,
    hl.transfers_of_reject hinside hcall⟩
  obtain ⟨k, rfl⟩ := Nat.exists_eq_add_of_le' (Nat.le_of_lt hfuel)
  exact hloop k

/-- The driver accepts all batches inside the arrays, and the loop goes on from there. -/
theorem transferred_of_accepted (values : ℕ → U64) (horder : InOrder call stores)
    (hnum : 0 < numRegs)
    (hrun : (run (driverStep call entry (min numRegs HAX_MAX_MSR_ARRAY)) s
      (List.range (numRegs / min numRegs HAX_MAX_MSR_ARRAY))).1 = true) :
    ∃ l, Transferred call stores entry (min numRegs HAX_MAX_MSR_ARRAY) values s
        (numRegs / min numRegs HAX_MAX_MSR_ARRAY) l ∧
      ∀ fuel, transferMSRs call stores entry numRegs
          (fuel + numRegs / min numRegs HAX_MAX_MSR_ARRAY) ⟨0, values, [], [], [], s⟩ =
        transferMSRs call stores entry numRegs fuel l := by
  rw [List.range_eq_range'] at hrun
  have hloop := (transferred_init call stores entry _ values s).loop_of_true horder hnum
    (by rw [Nat.zero_add]; exact Nat.mul_div_le _ _) hrun
  rwa [Nat.zero_add] at hloop

/-- The batches fill the arrays. -/
theorem transfers_of_filled (horder : InOrder call stores) (hnum : 0 < numRegs)
    (hdvd : min numRegs HAX_MAX_MSR_ARRAY ∣ numRegs)
    (hrun : (run (driverStep call entry (min numRegs HAX_MAX_MSR_ARRAY)) s
      (List.range (numRegs / min numRegs HAX_MAX_MSR_ARRAY))).1 = true) :
    ∃ o, Returns (fun fuel => transferMSRs call stores entry numRegs fuel
      ⟨0, values, [], [], [], s⟩) o ∧ Transfers call stores entry numRegs values s o := by
  obtain ⟨l, hl, hloop⟩ := transferred_of_accepted values horder hnum hrun
  have hend : l.index = numRegs := by
    rw [hl.index, Nat.mul_div_cancel' hdvd]
  refine ⟨_, ⟨numRegs / min numRegs HAX_MAX_MSR_ARRAY, fun fuel hfuel => ?_⟩, hl.transfers hend⟩
  obtain ⟨k, rfl⟩ := Nat.exists_eq_add_of_lt hfuel
  have hfuel' : numRegs / min numRegs HAX_MAX_MSR_ARRAY + k + 1 =
      k + 1 + numRegs / min numRegs HAX_MAX_MSR_ARRAY := by omega
  simp only
  rw [hfuel', hloop, transferMSRs, if_neg (by omega)]

/-- A batch is left that the arrays do not fill. -/
theorem not_transfers_of_unfilled (horder : InOrder call stores) (hnum : 0 < numRegs)
    (hdvd : ¬ min numRegs HAX_MAX_MSR_ARRAY ∣ numRegs)
    (hrun : (run (driverStep call entry (min numRegs HAX_MAX_MSR_ARRAY)) s
      (List.range (numRegs / min numRegs HAX_MAX_MSR_ARRAY))).1 = true) :
    ¬ ∃ o, Returns (fun fuel => transferMSRs call stores entry numRegs fuel
      ⟨0, values, [], [], [], s⟩) o ∧ Transfers call stores entry numRegs values s o := by
  obtain ⟨l, hl, hloop⟩ := transferred_of_accepted values horder hnum hrun
  have hcount : 0 < min numRegs HAX_MAX_MSR_ARRAY := Nat.lt_min.mpr ⟨hnum, by decide⟩
  have hrest := Nat.mod_add_div numRegs (min numRegs HAX_MAX_MSR_ARRAY)
  have hmod := Nat.mod_lt numRegs hcount
  have hpos := Nat.pos_of_ne_zero fun hzero => hdvd (Nat.dvd_of_mod_eq_zero hzero)
  rw [← hl.index] at hrest
  have hlt : l.index < numRegs := by omega
  have hgt : numRegs < l.index + min numRegs HAX_MAX_MSR_ARRAY := by omega
  obtain ⟨o, hlast, hread⟩ := last_turn call stores entry hlt hgt
  have hreturns : Returns (fun fuel => transferMSRs call stores entry numRegs fuel
      ⟨0, values, [], [], [], s⟩) o := by
    refine ⟨numRegs / min numRegs HAX_MAX_MSR_ARRAY + 1, fun fuel hfuel => ?_⟩
    obtain ⟨k, rfl⟩ := Nat.exists_eq_add_of_lt hfuel
    have hfuel' : numRegs / min numRegs HAX_MAX_MSR_ARRAY + 1 + k + 1 =
        k + 2 + numRegs / min numRegs HAX_MAX_MSR_ARRAY := by omega
    simp only
    rw [hfuel', hloop, hlast]
  rw [hreturns.exists_iff]
  exact fun h => Nat.lt_irrefl _ (h.read _ hread)

/-- For `GetMSRs` and `SetMSRs` alike. -/
theorem transfers_iff (horder : InOrder call stores) (entry : ℕ → VmxMsr) (numRegs : ℕ)
    (values : ℕ → U64) (s : σ) :
    (∃ o, Returns (fun fuel => transferMSRs call stores entry numRegs fuel
        ⟨0, values, [], [], [], s⟩) o ∧ Transfers call stores entry numRegs values s o) ↔
      numRegs ≤ HAX_MAX_MSR_ARRAY ∨ HAX_MAX_MSR_ARRAY ∣ numRegs ∨
        (run (driverStep call entry HAX_MAX_MSR_ARRAY) s
          (List.range (numRegs / HAX_MAX_MSR_ARRAY))).1 = false := by
  rcases Nat.eq_zero_or_pos numRegs with rfl | hnum
  · have hinit := transferred_init call stores entry (min 0 HAX_MAX_MSR_ARRAY) values s
    refine iff_of_true ⟨_, ⟨0, fun fuel hfuel => ?_⟩, hinit.transfers rfl⟩ (.inl (Nat.zero_le _))
    obtain ⟨fuel, rfl⟩ := Nat.exists_eq_add_of_lt hfuel
    rfl
  rw [← or_assoc, ← batch_dvd_iff]
  by_cases hdvd : min numRegs HAX_MAX_MSR_ARRAY ∣ numRegs
  · refine iff_of_true ?_ (.inl hdvd)
    cases hrun : (run (driverStep call entry (min numRegs HAX_MAX_MSR_ARRAY)) s
        (List.range (numRegs / min numRegs HAX_MAX_MSR_ARRAY))).1 with
    | false => exact transfers_of_rejected horder hnum hrun
    | true => exact transfers_of_filled horder hnum hdvd hrun
  · have hbig : HAX_MAX_MSR_ARRAY < numRegs :=
      Nat.lt_of_not_le fun hsmall => hdvd (batch_dvd_iff.mpr (.inl hsmall))
    have hbatch := Nat.min_eq_right (Nat.le_of_lt hbig)
    rw [or_iff_right hdvd, ← hbatch]
    cases hrun : (run (driverStep call entry (min numRegs HAX_MAX_MSR_ARRAY)) s
        (List.range (numRegs / min numRegs HAX_MAX_MSR_ARRAY))).1 with
    | false => exact iff_of_true (transfers_of_rejected horder hnum hrun) rfl
    | true => exact iff_of_false (not_transfers_of_unfilled horder hnum hdvd hrun) (by simp)

end Arrays

/-- A driver that holds a value for every number and rejects nothing. -/
def msrFile : HaxmMSRDriver (U64 → U64) where
  getMSRData data s := ((true, { data with
    entries := data.entries.mapIdx fun i e =>
      if i < data.nr_msr.toNat then ⟨e.entry, s e.entry⟩ else e }), s)
  setMSRData data s := ((true, data),
    data.passed.foldl (fun s e => Function.update s e.entry e.value) s)

theorem msrFile_getMSRData_value {count i : ℕ} (hcount : count ≤ HAX_MAX_MSR_ARRAY) (hi : i < count)
    (entry : ℕ → VmxMsr) (s : U64 → U64) :
    (msrFile.getMSRData (msrData count entry) s).1.2.value i = s (entry i).entry := by
  have hnr : (BitVec.ofNat 16 count).toNat = count := by
    rw [HAX_MAX_MSR_ARRAY] at hcount
    rw [BitVec.toNat_ofNat]
    omega
  have hlt : i < HAX_MAX_MSR_ARRAY := by omega
  simp [msrFile, HaxMsrData.value, msrData, hnr, hi, hlt]

theorem msrFile_getMSRData_inOrder : InOrder msrFile.getMSRData true := by
  have heach : ∀ (es : List VmxMsr) (s : U64 → U64),
      callEach msrFile.getMSRData es s = some (es.map fun e => s e.entry, s) := by
    intro es
    induction es with
    | nil => exact fun s => rfl
    | cons e es ih =>
      intro s
      have hvalue := msrFile_getMSRData_value (show 1 ≤ HAX_MAX_MSR_ARRAY by decide) Nat.zero_lt_one
        (fun _ => e) s
      have hcall : msrFile.getMSRData (msrData 1 fun _ => e) s =
          ((true, (msrFile.getMSRData (msrData 1 fun _ => e) s).1.2), s) := rfl
      rw [callEach, hcall, List.map_cons, ← hvalue]
      simp only [ih, Option.map_some]
  intro count entry s s' data hcount hcall
  obtain ⟨hdata, rfl⟩ := Prod.mk.inj hcall
  obtain ⟨-, rfl⟩ := Prod.mk.inj hdata
  refine ⟨_, heach _ s, fun _ i hi => ?_⟩
  refine (msrFile_getMSRData_value hcount hi entry s).trans ?_
  simp [hi]

theorem msrFile_setMSRData_inOrder : InOrder msrFile.setMSRData false := by
  have heach : ∀ (es : List VmxMsr) (s : U64 → U64), ∃ values,
      callEach msrFile.setMSRData es s =
        some (values, es.foldl (fun s e => Function.update s e.entry e.value) s) := by
    intro es
    induction es with
    | nil => exact fun s => ⟨[], rfl⟩
    | cons e es ih =>
      intro s
      obtain ⟨values, hrest⟩ := ih (Function.update s e.entry e.value)
      have hpassed : (msrData 1 fun _ => e).passed = [e] := passed_msrData (by decide) _
      have hcall : msrFile.setMSRData (msrData 1 fun _ => e) s =
          ((true, msrData 1 fun _ => e), Function.update s e.entry e.value) := by
        simp only [msrFile, hpassed, List.foldl_cons, List.foldl_nil]
      refine ⟨(msrData 1 fun _ => e).value 0 :: values, ?_⟩
      rw [callEach, hcall]
      simp only [hrest, List.foldl_cons, Option.map_some]
  intro count entry s s' data hcount hcall
  obtain ⟨values, hvalues⟩ := heach ((List.range count).map entry) s
  refine ⟨values, ?_, fun h => absurd h (by simp)⟩
  rw [← passed_msrData hcount entry] at hvalues ⊢
  obtain ⟨-, rfl⟩ := Prod.mk.inj hcall
  exact hvalues

end Haxm

open Haxm

end Virt86
