import Virt86.FileTables
import Virt86.KvmCpuids
import Virt86.PlatformMachines
import Mathlib.Tactic.IntervalCases

/-!
# The platform of KVM

The constructor opens `/dev/kvm`, asks for the version and the capabilities, and at last for the
table of CPUID results, whose length it does not know. It offers room for 40 entries, doubles that
when the kernel finds it too small, and takes the number the kernel names when it finds it too
large.
-/

namespace Virt86

namespace Kvm

open FileTables

inductive KvmCapability where
  | KVM_CAP_USER_MEMORY
  | KVM_CAP_SET_IDENTITY_MAP_ADDR
  | KVM_CAP_NR_VCPUS
  | KVM_CAP_MAX_VCPUS
  | KVM_CAP_DEBUGREGS
  | KVM_CAP_SET_GUEST_DEBUG
  | KVM_CAP_EXT_CPUID
  deriving DecidableEq, Repr

/-- The requests on the files of the platform, its machines and its processors. Two capabilities
are passed in the place of a request. -/
inductive KvmRequest where
  | KVM_GET_API_VERSION
  | KVM_CHECK_EXTENSION (capability : KvmCapability)
  | capability (capability : KvmCapability)
  | KVM_GET_SUPPORTED_CPUID (nent : U32)
  | KVM_CREATE_VM
  | KVM_SET_IDENTITY_MAP_ADDR (identityMapAddr : U64)
  | KVM_CREATE_VCPU (vcpuID : U32)
  | KVM_GET_VCPU_MMAP_SIZE
  | mmap (length : ℤ)
  | KVM_SET_CPUID2 (cpuid : KvmCpuid2)
  | other (request : U32)
  deriving DecidableEq, Repr

inductive KvmErrno where
  | E2BIG | ENOMEM | other
  deriving DecidableEq, Repr

/-- What a call leaves in `errno` and in its argument; `address` is what `mmap` returns. -/
structure KvmData where
  errno : KvmErrno
  cpuid2 : KvmCpuid2
  address : U64
  deriving DecidableEq, Repr

/-- The features that depend on what the kernel answers. -/
structure KvmFeatures where
  maxProcessorsPerVM : U32
  maxProcessorsGlobal : U32
  guestDebugging : Bool
  customCPUIDs : Bool
  supportedCustomCPUIDs : List CPUIDResult
  deriving DecidableEq, Repr

def KvmFeatures.none : KvmFeatures := ⟨0, 0, false, false, []⟩

structure KvmPlatform where
  m_fd : ℤ
  m_initStatus : PlatformInitStatus
  m_features : KvmFeatures
  deriving DecidableEq, Repr

abbrev KvmModule := Kernel KvmRequest KvmData

namespace KvmPlatform

variable (kernel : KvmModule)

/-- The loop that asks for the table, for a number of attempts; it goes on while there is no
result, and the result has no table when the call failed for another reason. -/
def getSupportedCpuid (m_fd : ℤ) :
    ℕ → U32 → Process KvmRequest → Option (Option KvmCpuid2 × Process KvmRequest)
  | 0, _, _ => none
  | attempts + 1, count, p =>
    let r := p.request kernel m_fd (.KVM_GET_SUPPORTED_CPUID count)
    if r.1.result < 0 then
      if r.1.data.errno = .E2BIG then getSupportedCpuid m_fd attempts (count * 2) r.2
      else if r.1.data.errno = .ENOMEM then
        getSupportedCpuid m_fd attempts r.1.data.cpuid2.nent r.2
      else some (none, r.2)
    else some (some r.1.data.cpuid2, r.2)

/-- The capabilities that are published after the platform is found to be usable. -/
def publish (m_fd : ℤ) (p : Process KvmRequest) : KvmFeatures × Process KvmRequest :=
  let nrVcpus := p.request kernel m_fd (.KVM_CHECK_EXTENSION .KVM_CAP_NR_VCPUS)
  let maxProcessorsPerVM : U32 :=
    if nrVcpus.1.result = 0 then 4 else BitVec.ofInt 32 nrVcpus.1.result
  let maxVcpus := nrVcpus.2.request kernel m_fd (.KVM_CHECK_EXTENSION .KVM_CAP_MAX_VCPUS)
  let maxProcessorsGlobal : U32 :=
    if maxVcpus.1.result = 0 then maxProcessorsPerVM else BitVec.ofInt 32 maxVcpus.1.result
  let debugRegs := maxVcpus.2.request kernel m_fd (.capability .KVM_CAP_DEBUGREGS)
  -- the second operand of `&&` is evaluated only if the first holds
  let setGuestDebug :=
    if debugRegs.1.result ≠ 0 then
      debugRegs.2.request kernel m_fd (.capability .KVM_CAP_SET_GUEST_DEBUG)
    else debugRegs
  let guestDebugging := debugRegs.1.result != 0 && setGuestDebug.1.result != 0
  let extCpuid := setGuestDebug.2.request kernel m_fd (.KVM_CHECK_EXTENSION .KVM_CAP_EXT_CPUID)
  let customCPUIDs := extCpuid.1.result != 0
  (⟨maxProcessorsPerVM, maxProcessorsGlobal, guestDebugging, customCPUIDs, []⟩, extCpuid.2)

/-- The constructor, whose last loop may go on for longer than the number of attempts. -/
def construct (attempts : ℕ) (p : Process KvmRequest) :
    Option (KvmPlatform × Process KvmRequest) :=
  let device := p.openPath kernel "/dev/kvm"
  let m_fd := device.1
  if m_fd < 0 then some (⟨m_fd, .Unavailable, .none⟩, device.2) else
  let version := device.2.request kernel m_fd .KVM_GET_API_VERSION
  if version.1.result ≠ 12 then some (⟨m_fd, .Unsupported, .none⟩, version.2) else
  let userMemory := version.2.request kernel m_fd (.KVM_CHECK_EXTENSION .KVM_CAP_USER_MEMORY)
  if userMemory.1.result = 0 then some (⟨m_fd, .Unsupported, .none⟩, userMemory.2) else
  let identityMap :=
    userMemory.2.request kernel m_fd (.KVM_CHECK_EXTENSION .KVM_CAP_SET_IDENTITY_MAP_ADDR)
  if identityMap.1.result = 0 then some (⟨m_fd, .Unsupported, .none⟩, identityMap.2) else
  let features := publish kernel m_fd identityMap.2
  if features.1.customCPUIDs then
    (getSupportedCpuid kernel m_fd attempts 40 features.2).map fun r =>
      match r.1 with
      | some cpuid2 =>
        (⟨m_fd, .OK, { features.1 with supportedCustomCPUIDs := supportedCustomCPUIDs cpuid2 }⟩,
          r.2)
      | none => (⟨m_fd, .Failed, features.1⟩, r.2)
  else some (⟨m_fd, .OK, features.1⟩, features.2)

end KvmPlatform

open KvmPlatform

/-! ## The length of the table -/

/-- The kernel has a table of CPUID results, and answers for it as documented: E2BIG when there is
too little room, ENOMEM with the right number when there is more room than it can handle, and else
the table. -/
structure ReportsCpuids (kernel : KvmModule) (m_fd : ℤ) (table : List KvmCpuidEntry2) (limit : ℕ) :
    Prop where
  length_le : table.length ≤ limit
  tooSmall : ∀ calls (nent : U32), nent.toNat < table.length →
    (kernel.answer (calls ++ [.request m_fd (.KVM_GET_SUPPORTED_CPUID nent)])).result < 0 ∧
      (kernel.answer (calls ++ [.request m_fd (.KVM_GET_SUPPORTED_CPUID nent)])).data.errno = .E2BIG
  tooLarge : ∀ calls (nent : U32), limit < nent.toNat →
    (kernel.answer (calls ++ [.request m_fd (.KVM_GET_SUPPORTED_CPUID nent)])).result < 0 ∧
      (kernel.answer (calls ++ [.request m_fd (.KVM_GET_SUPPORTED_CPUID nent)])).data.errno =
        .ENOMEM ∧
      (kernel.answer (calls ++ [.request m_fd (.KVM_GET_SUPPORTED_CPUID nent)])).data.cpuid2.nent =
        BitVec.ofNat 32 table.length
  fits : ∀ calls (nent : U32), table.length ≤ nent.toNat → nent.toNat ≤ limit →
    0 ≤ (kernel.answer (calls ++ [.request m_fd (.KVM_GET_SUPPORTED_CPUID nent)])).result ∧
      (kernel.answer
        (calls ++ [.request m_fd (.KVM_GET_SUPPORTED_CPUID nent)])).data.cpuid2.table = table

section Negotiation

variable {kernel : KvmModule} {m_fd : ℤ} {table : List KvmCpuidEntry2} {limit : ℕ}
  {p : Process KvmRequest}

/-- On an open descriptor the answer is the kernel's. -/
theorem request_of_open (hopen : p.table.contains m_fd = true) (request : KvmRequest) :
    p.request kernel m_fd request =
      (kernel.answer (p.calls ++ [.request m_fd request]), p.record (.request m_fd request)) := by
  unfold Process.request
  dsimp only
  rw [if_pos hopen]
  rfl

theorem getSupportedCpuid_double (h : ReportsCpuids kernel m_fd table limit)
    (hopen : p.table.contains m_fd = true) {count : U32} (hcount : count.toNat < table.length)
    (attempts : ℕ) :
    getSupportedCpuid kernel m_fd (attempts + 1) count p =
      getSupportedCpuid kernel m_fd attempts (count * 2)
        (p.record (.request m_fd (.KVM_GET_SUPPORTED_CPUID count))) := by
  obtain ⟨hresult, herrno⟩ := h.tooSmall p.calls count hcount
  simp only [getSupportedCpuid]
  rw [request_of_open hopen, if_pos hresult, if_pos herrno]

/-- With room for the table two attempts are enough. -/
theorem getSupportedCpuid_enough (h : ReportsCpuids kernel m_fd table limit)
    (hopen : p.table.contains m_fd = true) {count : U32} (hcount : table.length ≤ count.toNat)
    (attempts : ℕ) :
    ∃ cpuid2 p', getSupportedCpuid kernel m_fd (attempts + 2) count p = some (some cpuid2, p') ∧
      cpuid2.table = table := by
  have hfit : ∀ {count : U32} {p : Process KvmRequest}, p.table.contains m_fd = true →
      table.length ≤ count.toNat → count.toNat ≤ limit → ∀ attempts,
        ∃ cpuid2 p', getSupportedCpuid kernel m_fd (attempts + 1) count p =
          some (some cpuid2, p') ∧ cpuid2.table = table := by
    intro count p hopen hlow hhigh attempts
    obtain ⟨hresult, htable⟩ := h.fits p.calls count hlow hhigh
    refine ⟨_, p.record (.request m_fd (.KVM_GET_SUPPORTED_CPUID count)), ?_, htable⟩
    simp only [getSupportedCpuid]
    rw [request_of_open hopen, if_neg (Int.not_lt.mpr hresult)]
  by_cases hlarge : limit < count.toNat
  · obtain ⟨hresult, herrno, hnent⟩ := h.tooLarge p.calls count hlarge
    have hstep : getSupportedCpuid kernel m_fd (attempts + 2) count p =
        getSupportedCpuid kernel m_fd (attempts + 1) (BitVec.ofNat 32 table.length)
          (p.record (.request m_fd (.KVM_GET_SUPPORTED_CPUID count))) := by
      simp only [getSupportedCpuid]
      rw [request_of_open hopen, if_pos hresult, if_neg (by rw [herrno]; decide),
        if_pos herrno, hnent]
    have hlength : (BitVec.ofNat 32 table.length).toNat = table.length := by
      rw [BitVec.toNat_ofNat]
      exact Nat.mod_eq_of_lt (Nat.lt_of_le_of_lt hcount count.isLt)
    have hopen' : (p.record (.request m_fd (.KVM_GET_SUPPORTED_CPUID count))).table.contains m_fd =
        true := hopen
    rw [hstep]
    exact hfit hopen' (Nat.le_of_eq hlength.symm) (Nat.le_trans (Nat.le_of_eq hlength) h.length_le)
      attempts
  · exact hfit hopen hcount (Nat.not_lt.mp hlarge) (attempts + 1)

/-- The number of entries after so many doublings. -/
def doubled (k : ℕ) : U32 := BitVec.ofNat 32 (40 * 2 ^ k)

theorem doubled_succ (k : ℕ) : doubled k * 2 = doubled (k + 1) := by
  rw [doubled, doubled, Nat.pow_succ, ← Nat.mul_assoc, BitVec.ofNat_mul (40 * 2 ^ k) 2]
  rfl

/-- The doubling stays below 2^32 for 26 times; then a bit is lost with each, until none is left. -/
theorem doubled_le (k : ℕ) : (doubled k).toNat ≤ 2684354560 := by
  rw [doubled, BitVec.toNat_ofNat]
  by_cases hk : k < 29
  · interval_cases k <;> decide
  · obtain ⟨j, rfl⟩ := Nat.exists_eq_add_of_le (Nat.not_lt.mp hk)
    have hzero : 40 * 2 ^ (29 + j) = 2 ^ 32 * (5 * 2 ^ j) := by
      rw [Nat.pow_add]
      omega
    rw [hzero, Nat.mul_mod_right]
    omega

/-- While the table is longer the loop goes on, from any number that was reached by doubling. -/
theorem getSupportedCpuid_none (h : ReportsCpuids kernel m_fd table limit)
    (hlong : 2684354560 < table.length) (attempts : ℕ) {k : ℕ} {p : Process KvmRequest}
    (hopen : p.table.contains m_fd = true) :
    getSupportedCpuid kernel m_fd attempts (doubled k) p = none := by
  induction attempts generalizing k p with
  | zero => rfl
  | succ attempts ih =>
    have hsmall : (doubled k).toNat < table.length := Nat.lt_of_le_of_lt (doubled_le k) hlong
    rw [getSupportedCpuid_double h hopen hsmall, doubled_succ]
    exact ih hopen

/-- A number that holds the table is reached by doubling if one of the first 26 doublings reaches
it. -/
theorem getSupportedCpuid_some (h : ReportsCpuids kernel m_fd table limit) {last : ℕ}
    (hlast : last ≤ 26) (hshort : table.length ≤ 40 * 2 ^ last) (n : ℕ) {k : ℕ} (hk : k + n = last)
    {p : Process KvmRequest} (hopen : p.table.contains m_fd = true) :
    ∃ cpuid2 p', getSupportedCpuid kernel m_fd (n + 2) (doubled k) p = some (some cpuid2, p') ∧
      cpuid2.table = table := by
  induction n generalizing k p with
  | zero =>
    have hbound : 40 * 2 ^ last < 2 ^ 32 := by
      have := Nat.pow_le_pow_right (by decide : 0 < 2) hlast
      omega
    have hroom : table.length ≤ (doubled k).toNat := by
      rw [doubled, BitVec.toNat_ofNat, ← Nat.add_zero k, hk, Nat.mod_eq_of_lt hbound]
      exact hshort
    exact getSupportedCpuid_enough h hopen hroom 0
  | succ n ih =>
    by_cases hroom : table.length ≤ (doubled k).toNat
    · exact getSupportedCpuid_enough h hopen hroom (n + 1)
    · have hopen' : (p.record (.request m_fd (.KVM_GET_SUPPORTED_CPUID (doubled k)))).table.contains
          m_fd = true := hopen
      rw [getSupportedCpuid_double h hopen (Nat.not_le.mp hroom), doubled_succ]
      exact ih (by omega) hopen'

/-- The loop returns nothing but the table. -/
theorem table_of_getSupportedCpuid (h : ReportsCpuids kernel m_fd table limit) {attempts : ℕ}
    {count : U32} (hopen : p.table.contains m_fd = true)
    {r : Option KvmCpuid2 × Process KvmRequest}
    (hr : getSupportedCpuid kernel m_fd attempts count p = some r) :
    ∃ cpuid2, r.1 = some cpuid2 ∧ cpuid2.table = table := by
  induction attempts generalizing count p with
  | zero => cases hr
  | succ attempts ih =>
    have hopen' : (p.record (.request m_fd (.KVM_GET_SUPPORTED_CPUID count))).table.contains m_fd =
        true := hopen
    simp only [getSupportedCpuid, request_of_open hopen] at hr
    split_ifs at hr with hfailed hsmall hlarge
    · exact ih hopen' hr
    · exact ih hopen' hr
    · -- the kernel gives no other reason
      by_cases hlow : count.toNat < table.length
      · exact absurd (h.tooSmall p.calls count hlow).2 hsmall
      · by_cases hhigh : limit < count.toNat
        · exact absurd (h.tooLarge p.calls count hhigh).2.1 hlarge
        · have := (h.fits p.calls count (by omega) (by omega)).1
          omega
    · obtain rfl := Option.some.inj hr
      have hlow : ¬ count.toNat < table.length :=
        fun hlow => hfailed (h.tooSmall p.calls count hlow).1
      have hhigh : ¬ limit < count.toNat :=
        fun hhigh => hfailed (h.tooLarge p.calls count hhigh).1
      exact ⟨_, rfl, (h.fits p.calls count (by omega) (by omega)).2⟩

/-- The loop ends if and only if the table has at most 40 * 2^26 entries. -/
theorem getSupportedCpuid_ends_iff (h : ReportsCpuids kernel m_fd table limit)
    (hopen : p.table.contains m_fd = true) :
    (∃ attempts r, getSupportedCpuid kernel m_fd attempts 40 p = some r) ↔
      table.length ≤ 2684354560 := by
  constructor
  · rintro ⟨attempts, r, hr⟩
    by_contra hlong
    have hnone := getSupportedCpuid_none h (Nat.not_le.mp hlong) attempts (k := 0) hopen
    cases hr.symm.trans hnone
  · intro hshort
    obtain ⟨cpuid2, p', hr, -⟩ :=
      getSupportedCpuid_some h (Nat.le_refl 26) hshort 26 (k := 0) rfl hopen
    exact ⟨28, (some cpuid2, p'), hr⟩

end Negotiation

/-! ## The constructor -/

/-- The module can be opened, and has what the platform needs. -/
structure Usable (kernel : KvmModule) : Prop where
  device : ∀ calls, 0 ≤ (kernel.answer (calls ++ [.openPath "/dev/kvm"])).result
  version : ∀ calls m_fd,
    (kernel.answer (calls ++ [.request m_fd .KVM_GET_API_VERSION])).result = 12
  capability : ∀ calls m_fd capability, capability = .KVM_CAP_USER_MEMORY ∨
    capability = .KVM_CAP_SET_IDENTITY_MAP_ADDR ∨ capability = .KVM_CAP_EXT_CPUID →
    (kernel.answer (calls ++ [.request m_fd (.KVM_CHECK_EXTENSION capability)])).result ≠ 0

section Construction

variable {kernel : KvmModule} {p : Process KvmRequest}

/-- A call on a descriptor leaves the descriptors as they are. -/
theorem table_request (kernel : KvmModule) (p : Process KvmRequest) (fd : ℤ)
    (request : KvmRequest) : (p.request kernel fd request).2.table = p.table := by
  unfold Process.request
  dsimp only
  split_ifs
  · rfl
  · rfl

theorem table_publish (m_fd : ℤ) : (publish kernel m_fd p).2.table = p.table := by
  simp only [publish]
  split_ifs
  · simp only [table_request]
  · simp only [table_request]

theorem customCPUIDs_publish (husable : Usable kernel) {m_fd : ℤ}
    (hopen : p.table.contains m_fd = true) : (publish kernel m_fd p).1.customCPUIDs = true := by
  have hask : ∀ p : Process KvmRequest, p.table.contains m_fd = true →
      ((p.request kernel m_fd (.KVM_CHECK_EXTENSION .KVM_CAP_EXT_CPUID)).1.result != 0) = true := by
    intro p hopen
    rw [request_of_open hopen, bne_iff_ne]
    exact husable.capability p.calls m_fd _ (.inr (.inr rfl))
  simp only [publish]
  apply hask
  split_ifs
  · simp only [table_request, hopen]
  · simp only [table_request, hopen]

/-- On a usable module the constructor comes to the loop, and its result is that of the loop. -/
theorem construct_of_usable (husable : Usable kernel) (attempts : ℕ) :
    ∃ (features : KvmFeatures) (p' : Process KvmRequest),
      p'.table.contains (kernel.fresh p.table) = true ∧
      construct kernel attempts p =
        (getSupportedCpuid kernel (kernel.fresh p.table) attempts 40 p').map fun r =>
          match r.1 with
          | some cpuid2 =>
            (⟨kernel.fresh p.table, .OK,
              { features with supportedCustomCPUIDs := supportedCustomCPUIDs cpuid2 }⟩, r.2)
          | none => (⟨kernel.fresh p.table, .Failed, features⟩, r.2) := by
  have hdevice := Int.not_lt.mpr (husable.device p.calls)
  have hopened : p.openPath kernel "/dev/kvm" =
      (kernel.fresh p.table, { p.record (.openPath "/dev/kvm") with
        table := kernel.fresh p.table :: p.table }) := by
    unfold Process.openPath Process.install
    exact if_neg hdevice
  have hfresh : ¬ kernel.fresh p.table < 0 := Int.not_lt.mpr (kernel.fresh_nonneg p.table)
  generalize hdef : { p.record (.openPath "/dev/kvm") with
    table := kernel.fresh p.table :: p.table } = device at hopened
  have hopen : device.table.contains (kernel.fresh p.table) = true := by
    rw [← hdef]
    simp
  generalize kernel.fresh p.table = m_fd at hopened hfresh hopen ⊢
  -- each of the calls is made on the open descriptor
  have hversion : (device.request kernel m_fd .KVM_GET_API_VERSION).1.result = 12 := by
    rw [request_of_open hopen]
    exact husable.version _ _
  generalize hp₁ : (device.request kernel m_fd .KVM_GET_API_VERSION).2 = p₁
  have hopen₁ : p₁.table.contains m_fd = true := by rw [← hp₁, table_request, hopen]
  have hmemory : (p₁.request kernel m_fd
      (.KVM_CHECK_EXTENSION .KVM_CAP_USER_MEMORY)).1.result ≠ 0 := by
    rw [request_of_open hopen₁]
    exact husable.capability _ _ _ (.inl rfl)
  generalize hp₂ : (p₁.request kernel m_fd (.KVM_CHECK_EXTENSION .KVM_CAP_USER_MEMORY)).2 = p₂
  have hopen₂ : p₂.table.contains m_fd = true := by rw [← hp₂, table_request, hopen₁]
  have hidentity : (p₂.request kernel m_fd
      (.KVM_CHECK_EXTENSION .KVM_CAP_SET_IDENTITY_MAP_ADDR)).1.result ≠ 0 := by
    rw [request_of_open hopen₂]
    exact husable.capability _ _ _ (.inr (.inl rfl))
  generalize hp₃ : (p₂.request kernel m_fd
    (.KVM_CHECK_EXTENSION .KVM_CAP_SET_IDENTITY_MAP_ADDR)).2 = p₃
  have hopen₃ : p₃.table.contains m_fd = true := by rw [← hp₃, table_request, hopen₂]
  refine ⟨(publish kernel m_fd p₃).1, (publish kernel m_fd p₃).2, ?_, ?_⟩
  · rw [table_publish, hopen₃]
  · simp only [construct, hopened, hp₁, hp₂, hp₃]
    rw [if_neg hfresh, if_neg (not_not.mpr hversion), if_neg hmemory, if_neg hidentity,
      if_pos (customCPUIDs_publish husable hopen₃)]

/-- On a usable module the constructor returns if and only if the table of CPUID results has at most
2684354560 entries, and then the platform is ready and has the whole table. -/
theorem kvmPlatform_cpuids (husable : Usable kernel) {table : List KvmCpuidEntry2} {limit : ℕ}
    (h : ReportsCpuids kernel (kernel.fresh p.table) table limit) :
    ((∃ attempts r, construct kernel attempts p = some r) ↔ table.length ≤ 2684354560) ∧
      ∀ attempts r, construct kernel attempts p = some r →
        r.1.m_initStatus = .OK ∧ r.1.m_features.supportedCustomCPUIDs = table.map fun entry =>
          ⟨entry.function, entry.eax, entry.ebx, entry.ecx, entry.edx⟩ := by
  constructor
  · constructor
    · rintro ⟨attempts, r, hr⟩
      obtain ⟨features, p', hopen, heq⟩ := construct_of_usable (p := p) husable attempts
      rw [heq, Option.map_eq_some_iff] at hr
      obtain ⟨found, hfound, -⟩ := hr
      exact (getSupportedCpuid_ends_iff h hopen).mp ⟨attempts, found, hfound⟩
    · intro hshort
      obtain ⟨features, p', hopen, heq⟩ := construct_of_usable (p := p) husable 28
      obtain ⟨cpuid2, p'', hfound, -⟩ :=
        getSupportedCpuid_some h (Nat.le_refl 26) hshort 26 (k := 0) rfl hopen
      change getSupportedCpuid kernel _ 28 40 p' = _ at hfound
      exact ⟨28, _, by rw [heq, hfound]; rfl⟩
  · intro attempts r hr
    obtain ⟨features, p', hopen, heq⟩ := construct_of_usable (p := p) husable attempts
    rw [heq, Option.map_eq_some_iff] at hr
    obtain ⟨⟨found, p''⟩, hfound, rfl⟩ := hr
    obtain ⟨cpuid2, hcpuid2, htable⟩ := table_of_getSupportedCpuid h hopen hfound
    rw [show found = some cpuid2 from hcpuid2]
    exact ⟨rfl, by rw [← htable]; rfl⟩

/-- A kernel that has a table, and can handle a number of entries. -/
def reporting (table : List KvmCpuidEntry2) (limit : ℕ) : KvmModule :=
  .ofCall (fun
    | .openPath _ => ⟨0, ⟨.other, ⟨0, []⟩, 0⟩⟩
    | .close _ => ⟨0, ⟨.other, ⟨0, []⟩, 0⟩⟩
    | .request _ .KVM_GET_API_VERSION => ⟨12, ⟨.other, ⟨0, []⟩, 0⟩⟩
    | .request _ (.KVM_CHECK_EXTENSION _) => ⟨1, ⟨.other, ⟨0, []⟩, 0⟩⟩
    | .request _ (.capability _) => ⟨-1, ⟨.other, ⟨0, []⟩, 0⟩⟩
    | .request _ (.KVM_GET_SUPPORTED_CPUID nent) =>
      if nent.toNat < table.length then ⟨-1, ⟨.E2BIG, ⟨nent, []⟩, 0⟩⟩
      else if limit < nent.toNat then
        ⟨-1, ⟨.ENOMEM, ⟨BitVec.ofNat 32 table.length, []⟩, 0⟩⟩
      else ⟨0, ⟨.other, ⟨BitVec.ofNat 32 table.length, table⟩, 0⟩⟩
    | .request _ _ => ⟨0, ⟨.other, ⟨0, []⟩, 0⟩⟩) ⟨-1, ⟨.other, ⟨0, []⟩, 0⟩⟩

theorem usable_reporting (table : List KvmCpuidEntry2) (limit : ℕ) :
    Usable (reporting table limit) := by
  refine ⟨fun calls => ?_, fun calls m_fd => ?_, fun calls m_fd capability _ => ?_⟩
  · simp only [reporting, answer_ofCall, Int.le_refl]
  · rw [reporting, answer_ofCall]
  · rw [reporting, answer_ofCall]
    exact Int.one_ne_zero

theorem reportsCpuids_reporting {table : List KvmCpuidEntry2} {limit : ℕ}
    (hlimit : table.length ≤ limit) (m_fd : ℤ) :
    ReportsCpuids (reporting table limit) m_fd table limit := by
  refine ⟨hlimit, fun calls nent hlow => ?_, fun calls nent hhigh => ?_,
    fun calls nent hlow hhigh => ?_⟩
  · rw [reporting, answer_ofCall]
    simp only [if_pos hlow]
    decide
  · rw [reporting, answer_ofCall]
    have hlow : ¬ nent.toNat < table.length := by omega
    dsimp only
    rw [if_neg hlow, if_pos hhigh]
    exact ⟨Int.negSucc_lt_zero 0, rfl, rfl⟩
  · rw [reporting, answer_ofCall]
    simp only [if_neg (Nat.not_lt.mpr hlow), if_neg (Nat.not_lt.mpr hhigh)]
    refine ⟨Int.le_refl 0, ?_⟩
    have hlength : table.length < 2 ^ 32 := Nat.lt_of_le_of_lt hlow nent.isLt
    rw [KvmCpuid2.table, BitVec.toNat_ofNat, Nat.mod_eq_of_lt hlength, List.take_length]

/-- Room for 40 entries is too little for 50, room for 80 too much for a kernel that handles 60. -/
theorem kvmPlatform_cpuids_fifty :
    let entry : KvmCpuidEntry2 := ⟨1, 0, 0, 0, 0, 0, 0⟩
    let kernel := reporting (List.replicate 50 entry) 60
    (∃ attempts r, construct kernel attempts .initial = some r) ∧
      ∀ attempts r, construct kernel attempts .initial = some r →
        r.1.m_initStatus = .OK ∧ r.1.m_features.supportedCustomCPUIDs.length = 50 := by
  intro entry kernel
  have h := kvmPlatform_cpuids (p := .initial) (usable_reporting (List.replicate 50 entry) 60)
    (reportsCpuids_reporting (by decide) (kernel.fresh []))
  refine ⟨h.1.mpr (by decide), fun attempts r hr => ⟨(h.2 attempts r hr).1, ?_⟩⟩
  rw [(h.2 attempts r hr).2]
  rfl

end Construction

end Kvm

end Virt86
