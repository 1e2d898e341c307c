import Virt86.Bitmasks

/-!
# Floating-point extensions

`getFPExts` collects the flags of the extensions that CPUID reports. The enumerators are 64 bits
wide, but all except the last are shifts of an `int`. The shift by 31 sets the sign, so `FXSAVE`
has all bits from 31 on, the bit of `XSAVE` among them.
-/

namespace Virt86

open Bitmasks

inductive FloatingPointExtension where
  | MMX | SSE | SSE2 | SSE3 | SSSE3 | SSE4_1 | SSE4_2 | SSE4a | XOP | F16C | FMA4 | AVX | FMA3
  | AVX2 | AVX512F | AVX512DQ | AVX512IFMA | AVX512PF | AVX512ER | AVX512CD | AVX512BW | AVX512VL
  | AVX512VBMI | AVX512VBMI2 | AVX512GFNI | AVX512VAES | AVX512VNNI | AVX512BITALG
  | AVX512VPOPCNTDQ | AVX512QVNNIW | AVX512QFMA | FXSAVE | XSAVE
  deriving DecidableEq, Repr

/-- What CPUID returns for the leaves 1, 7 and 80000001h. -/
structure CPUIDOutputs where
  ecx1 : U32
  edx1 : U32
  ebx7 : U32
  ecx7 : U32
  edx7 : U32
  ecx81 : U32
  deriving DecidableEq, Repr

namespace FloatingPointExtension

def shift : FloatingPointExtension → ℕ
  | MMX => 0
  | SSE => 1
  | SSE2 => 2
  | SSE3 => 3
  | SSSE3 => 4
  | SSE4_1 => 5
  | SSE4_2 => 6
  | SSE4a => 7
  | XOP => 8
  | F16C => 9
  | FMA4 => 10
  | AVX => 11
  | FMA3 => 12
  | AVX2 => 13
  | AVX512F => 14
  | AVX512DQ => 15
  | AVX512IFMA => 16
  | AVX512PF => 17
  | AVX512ER => 18
  | AVX512CD => 19
  | AVX512BW => 20
  | AVX512VL => 21
  | AVX512VBMI => 22
  | AVX512VBMI2 => 23
  | AVX512GFNI => 24
  | AVX512VAES => 25
  | AVX512VNNI => 26
  | AVX512BITALG => 27
  | AVX512VPOPCNTDQ => 28
  | AVX512QVNNIW => 29
  | AVX512QFMA => 30
  | FXSAVE => 31
  | XSAVE => 32

/-- The enumerator: `1ull << 32` for `XSAVE`, and for the others the `int` that is `1` shifted,
converted to `int64_t`. -/
def value : FloatingPointExtension → U64
  | XSAVE => 1#64 <<< shift XSAVE
  | F => (1#32 <<< F.shift).signExtend 64

/-- The test of one bit. -/
def test (word : U32) (bit : ℕ) : Bool := word &&& (1#32 <<< bit) ≠ 0

/-- The test of the bit that `getFPExts` associates with a flag. -/
def reported (c : CPUIDOutputs) : FloatingPointExtension → Bool
  | MMX => test c.edx1 23
  | SSE => test c.edx1 25
  | SSE2 => test c.edx1 26
  | SSE3 => test c.ecx1 0
  | SSSE3 => test c.ecx1 9
  | SSE4_1 => test c.ecx1 19
  | SSE4_2 => test c.ecx1 20
  | SSE4a => test c.ecx81 6
  | XOP => test c.ecx81 11
  | F16C => test c.ecx1 29
  | FMA4 => test c.ecx81 16
  | AVX => test c.ecx1 28
  | FMA3 => test c.ecx1 12
  | AVX2 => test c.ebx7 5
  | AVX512F => test c.ebx7 16
  | AVX512DQ => test c.ebx7 17
  | AVX512IFMA => test c.ebx7 21
  | AVX512PF => test c.ebx7 26
  | AVX512ER => test c.ebx7 27
  | AVX512CD => test c.ebx7 28
  | AVX512BW => test c.ebx7 30
  | AVX512VL => test c.ebx7 31
  | AVX512VBMI => test c.ecx7 1
  | AVX512VBMI2 => test c.ecx7 6
  | AVX512GFNI => test c.ecx7 8
  | AVX512VAES => test c.ecx7 9
  | AVX512VNNI => test c.ecx7 11
  | AVX512BITALG => test c.ecx7 12
  | AVX512VPOPCNTDQ => test c.ecx7 14
  | AVX512QVNNIW => test c.edx7 2
  | AVX512QFMA => test c.edx7 3
  | FXSAVE => test c.edx1 24
  | XSAVE => test c.ecx1 26

/-- The flags in the order of their tests. -/
def tested : List FloatingPointExtension :=
  [MMX, SSE, SSE2, SSE3, SSSE3, SSE4_1, SSE4_2, SSE4a, XOP, F16C, FMA4, AVX, FMA3, AVX2, AVX512F,
    AVX512DQ, AVX512IFMA, AVX512PF, AVX512ER, AVX512CD, AVX512BW, AVX512VL, AVX512VBMI,
    AVX512VBMI2, AVX512GFNI, AVX512VAES, AVX512VNNI, AVX512BITALG, AVX512VPOPCNTDQ, AVX512QVNNIW,
    AVX512QFMA, FXSAVE, XSAVE]

theorem mem_tested (F : FloatingPointExtension) : F ∈ tested := by
  cases F <;> decide

/-! ## The bits of the flags -/

theorem shift_injective {F G : FloatingPointExtension} (h : F.shift = G.shift) : F = G := by
  have hidx (F : FloatingPointExtension) : F.shift = F.ctorIdx := by cases F <;> rfl
  rw [hidx, hidx] at h
  rw [← ofNat_ctorIdx F, h, ofNat_ctorIdx]

theorem shift_lt (F : FloatingPointExtension) : F.shift < 64 := by
  cases F <;> decide

theorem le_shift {F : FloatingPointExtension} (h : 31 ≤ F.shift) : F = FXSAVE ∨ F = XSAVE := by
  cases F with
  | FXSAVE => exact .inl rfl
  | XSAVE => exact .inr rfl
  | _ => exact absurd h (by decide)

/-- A shift of an `int`, converted to 64 bits. -/
theorem getLsbD_shifted_int {n i : ℕ} (hn : n ≤ 31) (hi : i < 64) :
    ((1#32 <<< n).signExtend 64).getLsbD i = true ↔ n = i ∨ n = 31 ∧ 31 ≤ i := by
  have hbit (k : ℕ) (hk : k < 32) : (1#32 <<< n).getLsbD k = decide (k = n) := by
    rw [BitVec.getLsbD_shiftLeft, BitVec.getLsbD_one, decide_eq_true hk]
    by_cases hlt : k < n
    · simp [hlt, Nat.ne_of_lt hlt]
    · simp [hlt, show k - n = 0 ↔ k = n by omega]
  rw [BitVec.getLsbD_signExtend, decide_eq_true hi, Bool.true_and]
  split_ifs with hlow
  · rw [hbit i hlow, decide_eq_true_eq]
    omega
  · rw [BitVec.msb_eq_getLsbD_last, hbit 31 (by decide), decide_eq_true_eq]
    omega

/-- All flags but one have a single bit. -/
theorem getLsbD_value (F : FloatingPointExtension) {i : ℕ} (hi : i < 64) :
    F.value.getLsbD i = true ↔ F.shift = i ∨ F = FXSAVE ∧ 31 ≤ i := by
  by_cases hF : F = XSAVE
  · subst hF
    have hother : ¬ (XSAVE = FXSAVE ∧ 31 ≤ i) := fun h => by cases h.1
    have hshift : XSAVE.shift = 32 := rfl
    rw [value, BitVec.getLsbD_shiftLeft, BitVec.getLsbD_one, or_iff_left hother, hshift]
    simp only [Bool.and_eq_true, Bool.not_eq_true', decide_eq_false_iff_not, decide_eq_true_eq]
    omega
  · have hvalue : F.value = (1#32 <<< F.shift).signExtend 64 := by
      cases F with
      | XSAVE => exact absurd rfl hF
      | _ => rfl
    have hshift : F.shift ≤ 31 := by
      cases F with
      | XSAVE => exact absurd rfl hF
      | _ => decide
    have hlast : F.shift = 31 ↔ F = FXSAVE := ⟨fun h => shift_injective h, fun h => h ▸ rfl⟩
    rw [hvalue, getLsbD_shifted_int hshift hi, hlast]

/-- Two flags share a bit only if they are `FXSAVE` and `XSAVE`. -/
theorem anyOf_value_iff (F G : FloatingPointExtension) : anyOf F.value G.value = true ↔
    F = G ∨ F = FXSAVE ∧ G = XSAVE ∨ F = XSAVE ∧ G = FXSAVE := by
  rw [anyOf_iff]
  constructor
  · rintro ⟨i, hF, hG⟩
    have hi : i < 64 := BitVec.lt_of_getLsbD hF
    rw [getLsbD_value F hi] at hF
    rw [getLsbD_value G hi] at hG
    obtain rfl | ⟨rfl, hlow⟩ := hF
    · obtain h | ⟨rfl, hlow⟩ := hG
      · exact .inl (shift_injective h.symm)
      · exact (le_shift hlow).elim .inl fun h => .inr (.inr ⟨h, rfl⟩)
    · obtain rfl | ⟨rfl, -⟩ := hG
      · exact (le_shift hlow).elim (fun h => .inl h.symm) fun h => .inr (.inl ⟨rfl, h⟩)
      · exact .inl rfl
  · rintro (rfl | ⟨rfl, rfl⟩ | ⟨rfl, rfl⟩)
    · have hbit := (getLsbD_value F F.shift_lt).mpr (.inl rfl)
      exact ⟨F.shift, hbit, hbit⟩
    · exact ⟨32, by decide, by decide⟩
    · exact ⟨32, by decide, by decide⟩

end FloatingPointExtension

open FloatingPointExtension

def getFPExts (c : CPUIDOutputs) : U64 := collect value (reported c) tested

/-- The flags that HAXM allows. -/
def haxmFPExts : List FloatingPointExtension :=
  [MMX, SSE, SSE2, SSE3, SSSE3, SSE4_1, SSE4_2, F16C, FXSAVE]

/-- What HAXM leaves of the host's extensions. -/
def haxmFloatingPointExtensions (floatingPointExtensions : U64) : U64 :=
  floatingPointExtensions &&& collect value (fun _ => true) haxmFPExts

/-- `FXSAVE` and `XSAVE` are each taken for the other. -/
theorem anyOf_getFPExts (c : CPUIDOutputs) (F : FloatingPointExtension) :
    anyOf (getFPExts c) F.value = true ↔ reported c F = true ∨
      F = XSAVE ∧ reported c FXSAVE = true ∨ F = FXSAVE ∧ reported c XSAVE = true := by
  rw [getFPExts, anyOf_collect]
  constructor
  · rintro ⟨G, -, hreported, hshared⟩
    obtain rfl | ⟨rfl, rfl⟩ | ⟨rfl, rfl⟩ := (anyOf_value_iff G F).mp hshared
    · exact .inl hreported
    · exact .inr (.inl ⟨rfl, hreported⟩)
    · exact .inr (.inr ⟨rfl, hreported⟩)
  · rintro (hreported | ⟨rfl, hreported⟩ | ⟨rfl, hreported⟩)
    · exact ⟨F, mem_tested F, hreported, (anyOf_value_iff F F).mpr (.inl rfl)⟩
    · exact ⟨FXSAVE, mem_tested _, hreported, (anyOf_value_iff _ _).mpr (.inr (.inl ⟨rfl, rfl⟩))⟩
    · exact ⟨XSAVE, mem_tested _, hreported, (anyOf_value_iff _ _).mpr (.inr (.inr ⟨rfl, rfl⟩))⟩

/-- HAXM's mask leaves the flags of the list, and `XSAVE`. -/
theorem haxm_mask_and (F : FloatingPointExtension) :
    (F ∈ haxmFPExts ∨ F = XSAVE) ∧
        collect value (fun _ => true) haxmFPExts &&& F.value = F.value ∨
      ¬ (F ∈ haxmFPExts ∨ F = XSAVE) ∧
        collect value (fun _ => true) haxmFPExts &&& F.value = 0#64 := by
  cases F <;> decide

theorem anyOf_haxmFloatingPointExtensions (host : U64) (F : FloatingPointExtension) :
    anyOf (haxmFloatingPointExtensions host) F.value = true ↔
      (F ∈ haxmFPExts ∨ F = XSAVE) ∧ anyOf host F.value = true := by
  rw [haxmFloatingPointExtensions, anyOf_and]
  obtain ⟨hallowed, hmask⟩ | ⟨hforbidden, hmask⟩ := haxm_mask_and F
  · rw [hmask, and_iff_right hallowed]
  · rw [hmask, anyOf_zero_right]
    exact iff_of_false Bool.false_ne_true fun h => hforbidden h.1

/-- For all outputs of CPUID: a test for a flag is exact unless it is for `FXSAVE` or `XSAVE` and
only the other one is reported. After HAXM's mask the one for `XSAVE` is exact only if neither is
reported. -/
theorem fpExts_exact_iff (c : CPUIDOutputs) (F : FloatingPointExtension) :
    ((anyOf (getFPExts c) F.value = true ↔ reported c F = true) ↔
      (F = FXSAVE → reported c XSAVE = true → reported c FXSAVE = true) ∧
        (F = XSAVE → reported c FXSAVE = true → reported c XSAVE = true)) ∧
    ((anyOf (haxmFloatingPointExtensions (getFPExts c)) F.value = true ↔
        F ∈ haxmFPExts ∧ reported c F = true) ↔
      (F = FXSAVE → reported c XSAVE = true → reported c FXSAVE = true) ∧
        (F = XSAVE → reported c FXSAVE = false ∧ reported c XSAVE = false)) := by
  have hXSAVE : XSAVE ∉ haxmFPExts := by decide
  have hFXSAVE : FXSAVE ∈ haxmFPExts := by decide
  rw [anyOf_haxmFloatingPointExtensions, anyOf_getFPExts]
  by_cases hF : F = FXSAVE
  · subst hF
    simp [hFXSAVE]
  · by_cases hF' : F = XSAVE
    · subst hF'
      simp [hXSAVE, and_comm]
    · simp [hF, hF']

/-- A host that reports `FXSAVE` alone is taken to have `XSAVE` too, and by HAXM as well. -/
theorem fpExts_not_exact :
    let c : CPUIDOutputs := ⟨0, 1 <<< 24, 0, 0, 0, 0⟩
    reported c XSAVE = false ∧ anyOf (getFPExts c) XSAVE.value = true ∧
      XSAVE ∉ haxmFPExts ∧
      anyOf (haxmFloatingPointExtensions (getFPExts c)) XSAVE.value = true := by
  decide

end Virt86
