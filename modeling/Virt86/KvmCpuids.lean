import Virt86.RunPlaces
import Virt86.Specifications

/-!
# The CPUID results of a KVM processor

The platform keeps the results that KVM reports without their sub-leaf numbers and flags.
`Initialize` numbers the sub-leaves again by counting consecutive results of one function, in the
reported list and in the list of custom results, and a custom result replaces the reported one of
the same function and number.
-/

namespace Virt86

namespace Kvm

open RunPlaces

/-- `kvm_cpuid_entry2`. -/
@[ext]
structure KvmCpuidEntry2 where
  function : U32
  index : U32
  flags : U32
  eax : U32
  ebx : U32
  ecx : U32
  edx : U32
  deriving DecidableEq, Repr

def KvmCpuidEntry2.registers (e : KvmCpuidEntry2) : U32 × U32 × U32 × U32 :=
  (e.eax, e.ebx, e.ecx, e.edx)

/-- `kvm_cpuid2`; the array may be longer than the `nent` entries that it is used for. -/
structure KvmCpuid2 where
  nent : U32
  entries : List KvmCpuidEntry2
  deriving DecidableEq, Repr

/-- The entries that KVM reports or takes. -/
def KvmCpuid2.table (cpuid : KvmCpuid2) : List KvmCpuidEntry2 := cpuid.entries.take cpuid.nent.toNat

def KVM_CPUID_FLAG_SIGNIFCANT_INDEX : U32 := 1

/-- `supportedCustomCPUIDs`, as the platform fills it. -/
def supportedCustomCPUIDs (cpuid2 : KvmCpuid2) : List CPUIDResult :=
  cpuid2.table.map fun entry => ⟨entry.function, entry.eax, entry.ebx, entry.ecx, entry.edx⟩

/-! ## `Initialize` -/

/-- `leaf_index` and `last_func`. -/
structure LeafCounter where
  leaf_index : U64
  last_func : U32
  deriving DecidableEq, Repr

def LeafCounter.initial : LeafCounter := ⟨0, 0xFFFFFFFF⟩

def LeafCounter.next (c : LeafCounter) (function : U32) : LeafCounter :=
  if function = c.last_func then { c with leaf_index := c.leaf_index + 1 } else ⟨0, function⟩

def customKey (function : U32) (leaf_index : U64) : U64 :=
  function.setWidth 64 ||| leaf_index <<< 32

/-- `custom_cpuids`. -/
abbrev CustomCpuids := U64 → Option CPUIDResult

def CustomCpuids.insert (custom_cpuids : CustomCpuids) (key : U64) (it : CPUIDResult) :
    CustomCpuids :=
  fun key' => if key' = key then some it else custom_cpuids key'

/-- The loop that builds the map from the custom results. -/
def insertCustom (c : LeafCounter) (custom_cpuids : CustomCpuids) : List CPUIDResult → CustomCpuids
  | [] => custom_cpuids
  | it :: cpuids =>
    let c := c.next it.function
    insertCustom c (custom_cpuids.insert (customKey it.function c.leaf_index) it) cpuids

/-- One entry of the table, from a reported result. -/
def programEntry (custom_cpuids : CustomCpuids) (entry : CPUIDResult) (leaf_index : U64) :
    KvmCpuidEntry2 :=
  let result :=
    match custom_cpuids (customKey entry.function leaf_index) with
    | some custom_entry => custom_entry
    | none => entry
  { function := entry.function
    index := leaf_index.setWidth 32
    flags :=
      if entry.function = 0x4 ∨ entry.function = 0x7 ∨ entry.function = 0xb ∨
          entry.function = 0xd then
        0 ||| KVM_CPUID_FLAG_SIGNIFCANT_INDEX
      else 0
    eax := result.eax
    ebx := result.ebx
    ecx := result.ecx
    edx := result.edx }

/-- The loop that builds the table. -/
def programEntries (custom_cpuids : CustomCpuids) (c : LeafCounter) :
    List CPUIDResult → List KvmCpuidEntry2
  | [] => []
  | entry :: rest =>
    let c := c.next entry.function
    programEntry custom_cpuids entry c.leaf_index :: programEntries custom_cpuids c rest

/-- The table that `Initialize` passes to `KVM_SET_CPUID2`. -/
def initializeCpuids (cpuids cpuid_defaults : List CPUIDResult) : KvmCpuid2 where
  nent := BitVec.ofNat 32 cpuid_defaults.length
  entries := programEntries (insertCustom .initial (fun _ => none) cpuids) .initial cpuid_defaults

/-! ## What the loops count -/

/-- The key holds the function and the low half of the leaf. -/
theorem getLsbD_customKey (f : U32) (leaf : U64) {i : ℕ} (hi : i < 64) :
    (customKey f leaf).getLsbD i =
      if i < 32 then f.getLsbD i else (leaf.setWidth 32).getLsbD (i - 32) := by
  rw [customKey, BitVec.getLsbD_or, BitVec.getLsbD_setWidth, BitVec.getLsbD_shiftLeft,
    BitVec.getLsbD_setWidth]
  by_cases h : i < 32
  · simp [h, hi]
  · simp [h, hi, show i - 32 < 32 by omega, BitVec.getLsbD_of_ge f i (by omega)]

theorem customKey_inj {f f' : U32} {leaf leaf' : U64} :
    customKey f leaf = customKey f' leaf' ↔ f = f' ∧ leaf.setWidth 32 = leaf'.setWidth 32 := by
  constructor
  · intro h
    constructor
    · apply BitVec.eq_of_getLsbD_eq
      intro i hi
      have hbit := congrArg (·.getLsbD i) h
      simp only [getLsbD_customKey _ _ (by omega : i < 64), if_pos hi] at hbit
      exact hbit
    · apply BitVec.eq_of_getLsbD_eq
      intro i hi
      have hbit := congrArg (·.getLsbD (i + 32)) h
      simp only [getLsbD_customKey _ _ (by omega : i + 32 < 64), Nat.add_sub_cancel,
        if_neg (by omega : ¬ i + 32 < 32)] at hbit
      exact hbit
  · rintro ⟨rfl, hleaf⟩
    apply BitVec.eq_of_getLsbD_eq
    intro i hi
    rw [getLsbD_customKey _ _ hi, getLsbD_customKey _ _ hi, hleaf]

/-- The counter gives the next function its place behind the functions that were counted. -/
def LeafCounter.Counts (before : List U32) (c : LeafCounter) : Prop :=
  ∀ function, (c.next function).leaf_index = BitVec.ofNat 64 (place before function)

/-- It starts as if 0xFFFFFFFF had been counted. -/
theorem counts_initial : LeafCounter.initial.Counts [0xFFFFFFFF] := by
  intro function
  rw [← List.nil_append [_], place_concat, LeafCounter.next, LeafCounter.initial]
  by_cases h : function = 0xFFFFFFFF
  · rw [if_pos h, if_pos h.symm]
    rfl
  · rw [if_neg h, if_neg (Ne.symm h)]
    rfl

theorem LeafCounter.last_func_next (c : LeafCounter) (function : U32) :
    (c.next function).last_func = function := by
  rw [LeafCounter.next]
  split_ifs with h
  · exact h.symm
  · rfl

theorem LeafCounter.Counts.next {before : List U32} {c : LeafCounter} (h : c.Counts before)
    (function : U32) : (c.next function).Counts (before ++ [function]) := by
  intro f
  rw [place_concat, LeafCounter.next, c.last_func_next]
  by_cases hf : f = function
  · subst hf
    rw [if_pos rfl, if_pos rfl, BitVec.ofNat_add, ← h f]
    rfl
  · rw [if_neg hf, if_neg (Ne.symm hf)]
    rfl

theorem setWidth_ofNat (n : ℕ) : (BitVec.ofNat 64 n).setWidth 32 = BitVec.ofNat 32 n := by
  apply BitVec.eq_of_toNat_eq
  simp

/-- The last custom result of a function at a place. The keys have 32 bits for it. -/
def customAt (cpuids : List CPUIDResult) (function place : U32) : Option CPUIDResult :=
  lastAt CPUIDResult.function [0xFFFFFFFF] cpuids function fun n => BitVec.ofNat 32 n = place

theorem insertCustom_apply {before : List U32} {c : LeafCounter} (h : c.Counts before)
    (custom_cpuids : CustomCpuids) (cpuids : List CPUIDResult) (function : U32) (leaf : U64) :
    insertCustom c custom_cpuids cpuids (customKey function leaf) =
      (lastAt CPUIDResult.function before cpuids function
        fun n => BitVec.ofNat 32 n = leaf.setWidth 32).or
        (custom_cpuids (customKey function leaf)) := by
  induction cpuids generalizing before c custom_cpuids with
  | nil => rfl
  | cons it cpuids ih =>
    rw [insertCustom, ih (h.next it.function), lastAt_cons, Option.or_assoc]
    congr 1
    simp only [CustomCpuids.insert, h it.function, customKey_inj, setWidth_ofNat]
    by_cases hkey : function = it.function ∧
        leaf.setWidth 32 = BitVec.ofNat 32 (place before it.function)
    · obtain ⟨rfl, hleaf⟩ := hkey
      simp [hleaf]
    · rw [if_neg hkey, if_neg, Option.none_or]
      rintro ⟨rfl, hplace⟩
      exact hkey ⟨rfl, (of_decide_eq_true hplace).symm⟩

theorem programEntries_eq {before : List U32} {c : LeafCounter} (h : c.Counts before)
    (custom_cpuids : CustomCpuids) (cpuid_defaults : List CPUIDResult) :
    programEntries custom_cpuids c cpuid_defaults =
      (withPlaces CPUIDResult.function before cpuid_defaults).map fun x =>
        programEntry custom_cpuids x.1 (BitVec.ofNat 64 x.2) := by
  induction cpuid_defaults generalizing before c with
  | nil => rfl
  | cons entry rest ih =>
    rw [programEntries, withPlaces, List.map_cons, ih (h.next entry.function), h entry.function]

/-- What is programmed for a result at a place in its run. -/
theorem registers_programEntry (cpuids : List CPUIDResult) (entry : CPUIDResult) (n : ℕ) :
    (programEntry (insertCustom .initial (fun _ => none) cpuids) entry
      (BitVec.ofNat 64 n)).registers =
      ((customAt cpuids entry.function (BitVec.ofNat 32 n)).getD entry).registers := by
  rw [programEntry, insertCustom_apply counts_initial, Option.or_none, setWidth_ofNat, ← customAt]
  cases customAt cpuids entry.function (BitVec.ofNat 32 n) with
  | none => rfl
  | some custom_entry => rfl

theorem length_supportedCustomCPUIDs (cpuid2 : KvmCpuid2) :
    (supportedCustomCPUIDs cpuid2).length < 2 ^ 32 := by
  have hnent := cpuid2.nent.isLt
  rw [supportedCustomCPUIDs, KvmCpuid2.table, List.length_map, List.length_take]
  omega

/-- The table that is passed has an entry for each reported one. -/
theorem table_initializeCpuids (cpuids : List CPUIDResult) (cpuid2 : KvmCpuid2) :
    (initializeCpuids cpuids (supportedCustomCPUIDs cpuid2)).table =
      (withPlaces CPUIDResult.function [0xFFFFFFFF] (supportedCustomCPUIDs cpuid2)).map fun x =>
        programEntry (insertCustom .initial (fun _ => none) cpuids) x.1 (BitVec.ofNat 64 x.2) := by
  have hlength := length_supportedCustomCPUIDs cpuid2
  rw [KvmCpuid2.table, initializeCpuids, programEntries_eq counts_initial, BitVec.toNat_ofNat,
    Nat.mod_eq_of_lt hlength, List.take_of_length_le]
  exact Nat.le_of_eq (by rw [List.length_map, length_withPlaces])

/-- The index is the place of the entry, and only the functions 4, 7, 0xb and 0xd have the flag. -/
def KvmCpuidEntry2.Regular (entry : KvmCpuidEntry2) (n : ℕ) : Prop :=
  entry.index = BitVec.ofNat 32 n ∧
    entry.flags = if entry.function = 0x4 ∨ entry.function = 0x7 ∨ entry.function = 0xb ∨
      entry.function = 0xd then 1 else 0

/-- Without custom results only the index and the flags of an entry may change. -/
theorem programEntry_eq_iff (entry : KvmCpuidEntry2) (n : ℕ) :
    programEntry (fun _ => none) ⟨entry.function, entry.eax, entry.ebx, entry.ecx, entry.edx⟩
        (BitVec.ofNat 64 n) = entry ↔ entry.Regular n := by
  rw [KvmCpuidEntry2.ext_iff]
  simp only [programEntry, setWidth_ofNat, and_true, true_and]
  exact and_congr eq_comm eq_comm

/-- Without custom results the table is the reported one if and only if the index of each entry is
the number of entries with its function directly in front of it, where 0xFFFFFFFF counts as the
function in front of the first, and only the functions 4, 7, 0xb and 0xd have the flag. -/
theorem cpuidTable_eq_iff (cpuid2 : KvmCpuid2) :
    (initializeCpuids [] (supportedCustomCPUIDs cpuid2)).table = cpuid2.table ↔
      ∀ x ∈ withPlaces KvmCpuidEntry2.function [0xFFFFFFFF] cpuid2.table, x.1.Regular x.2 := by
  rw [table_initializeCpuids, supportedCustomCPUIDs, withPlaces_map, List.map_map,
    map_withPlaces_eq_iff]
  exact forall₂_congr fun x _ => programEntry_eq_iff x.1 x.2

/-- The sub-leaf 9 of function 0xd, reported after sub-leaf 1, becomes sub-leaf 2, and function 0x14
loses its flag. -/
theorem cpuidTable_renumbered :
    let cpuid2 : KvmCpuid2 :=
      ⟨4, [⟨0xd, 0, 1, 0x207, 0x340, 0x340, 0⟩, ⟨0xd, 1, 1, 0xf, 0x340, 0, 0⟩,
        ⟨0xd, 9, 1, 8, 0xa80, 0, 0⟩, ⟨0x14, 0, 1, 1, 0xf, 7, 0⟩]⟩
    (initializeCpuids [] (supportedCustomCPUIDs cpuid2)).table =
        [⟨0xd, 0, 1, 0x207, 0x340, 0x340, 0⟩, ⟨0xd, 1, 1, 0xf, 0x340, 0, 0⟩,
          ⟨0xd, 2, 1, 8, 0xa80, 0, 0⟩, ⟨0x14, 0, 0, 1, 0xf, 7, 0⟩] ∧
      (initializeCpuids [] (supportedCustomCPUIDs cpuid2)).table ≠ cpuid2.table := by
  decide

/-! ## Occurrences -/

/-- The custom result of a function that has so many of the function before it. -/
def occurrence (cpuids : List CPUIDResult) (function : U32) (k : ℕ) : Option CPUIDResult :=
  (cpuids.filter fun it => it.function = function)[k]?

/-- The result that stands for a reported one by its occurrence: the custom result with as many of
the function before it, or the reported one where there is none. -/
def byOccurrence (cpuids before : List CPUIDResult) (entry : CPUIDResult) : CPUIDResult :=
  (occurrence cpuids entry.function
    (before.countP fun e => e.function = entry.function)).getD entry

/-- The result that stands for it by its place: the last custom result of the function at that
place, or the reported one. -/
def byPlace (cpuids before : List CPUIDResult) (entry : CPUIDResult) : CPUIDResult :=
  (customAt cpuids entry.function (BitVec.ofNat 32
    (place (0xFFFFFFFF :: before.map CPUIDResult.function) entry.function))).getD entry

/-- The entries of the table have the registers of the results by occurrence. -/
def ProgramsOccurrences (cpuids cpuid_defaults : List CPUIDResult)
    (table : List KvmCpuidEntry2) : Prop :=
  ∀ before entry after, cpuid_defaults = before ++ entry :: after →
    table[before.length]?.map KvmCpuidEntry2.registers =
      some (byOccurrence cpuids before entry).registers

/-- They have those of the results by place. -/
theorem registers_table {cpuids before after : List CPUIDResult} {entry : CPUIDResult}
    {cpuid2 : KvmCpuid2} (h : supportedCustomCPUIDs cpuid2 = before ++ entry :: after) :
    (initializeCpuids cpuids (supportedCustomCPUIDs cpuid2)).table[before.length]?.map
        KvmCpuidEntry2.registers = some (byPlace cpuids before entry).registers := by
  rw [table_initializeCpuids, h, withPlaces_append, withPlaces, List.map_append, List.map_cons,
    List.getElem?_append_right (by simp [length_withPlaces])]
  simp [length_withPlaces, registers_programEntry, byPlace]

/-- Results of one function stand together in both lists, and the function 0xFFFFFFFF, from which
the counter starts, is not reported. -/
structure InRuns (cpuids cpuid_defaults : List CPUIDResult) : Prop where
  reported : Grouped (cpuid_defaults.map CPUIDResult.function)
  custom : Grouped (cpuids.map CPUIDResult.function)
  fresh : 0xFFFFFFFF ∉ cpuid_defaults.map CPUIDResult.function
  length_custom : cpuids.length ≤ 2 ^ 32

/-- In runs the place is the occurrence. -/
theorem byPlace_eq_byOccurrence {cpuids before after : List CPUIDResult} {entry : CPUIDResult}
    (h : InRuns cpuids (before ++ entry :: after)) (hbefore : before.length < 2 ^ 32) :
    byPlace cpuids before entry = byOccurrence cpuids before entry := by
  have hfresh : 0xFFFFFFFF ≠ entry.function := by
    intro heq
    exact h.fresh (by simp [heq])
  have hreported := h.reported
  rw [List.map_append, List.map_cons] at hreported
  have hplace : place (before.map CPUIDResult.function) entry.function =
      before.countP fun e => e.function = entry.function := by
    rw [hreported.place_eq_count, List.count, List.countP_map]
    rfl
  have hcount : (before.countP fun e => e.function = entry.function) ≤ before.length :=
    List.countP_le_length
  rw [byPlace, byOccurrence, place_cons_of_ne hfresh, hplace, customAt, occurrence]
  congr 1
  apply lastAt_eq_getElem? hfresh h.custom
  intro n hn
  have hlength := h.length_custom
  rw [decide_eq_true_eq, ← BitVec.toNat_inj, BitVec.toNat_ofNat, BitVec.toNat_ofNat,
    Nat.mod_eq_of_lt (by omega), Nat.mod_eq_of_lt (by omega)]

/-- The registers are programmed by occurrence if and only if, for each reported result, the result
by its place has the registers of the one by its occurrence. So they are where the results of each
function stand together in both lists. -/
theorem custom_cpuids_iff (cpuids : List CPUIDResult) (cpuid2 : KvmCpuid2) :
    (ProgramsOccurrences cpuids (supportedCustomCPUIDs cpuid2)
        (initializeCpuids cpuids (supportedCustomCPUIDs cpuid2)).table ↔
      ∀ before entry after, supportedCustomCPUIDs cpuid2 = before ++ entry :: after →
        (byPlace cpuids before entry).registers =
          (byOccurrence cpuids before entry).registers) ∧
    (InRuns cpuids (supportedCustomCPUIDs cpuid2) →
      ProgramsOccurrences cpuids (supportedCustomCPUIDs cpuid2)
        (initializeCpuids cpuids (supportedCustomCPUIDs cpuid2)).table) := by
  constructor
  · constructor
    · intro h before entry after hsplit
      have hdue := h before entry after hsplit
      rw [registers_table hsplit, Option.some.injEq] at hdue
      exact hdue
    · intro h before entry after hsplit
      rw [registers_table hsplit, h before entry after hsplit]
  · intro hruns before entry after hsplit
    have hlength := length_supportedCustomCPUIDs cpuid2
    rw [hsplit, List.length_append] at hlength
    rw [hsplit] at hruns
    rw [registers_table hsplit, byPlace_eq_byOccurrence hruns (by omega)]

/-- The second custom result of function 4 is lost behind one of function 7. -/
theorem custom_cpuids_lost :
    let cpuids : List CPUIDResult := [⟨4, 0xA, 0, 0, 0⟩, ⟨7, 0xB, 0, 0, 0⟩, ⟨4, 0xC, 0, 0, 0⟩]
    let cpuid2 : KvmCpuid2 := ⟨3, [⟨4, 0, 1, 1, 0, 0, 0⟩, ⟨4, 1, 1, 2, 0, 0, 0⟩,
      ⟨7, 0, 1, 3, 0, 0, 0⟩]⟩
    ¬ ProgramsOccurrences cpuids (supportedCustomCPUIDs cpuid2)
      (initializeCpuids cpuids (supportedCustomCPUIDs cpuid2)).table := by
  intro cpuids cpuid2 h
  exact absurd (h [] ⟨4, 1, 0, 0, 0⟩ [⟨4, 2, 0, 0, 0⟩, ⟨7, 3, 0, 0, 0⟩] rfl) (by decide)

end Kvm

end Virt86
