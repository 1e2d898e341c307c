import Virt86.DigitOrders
import Virt86.WhpxRegisters

/-!
# Comparing versions

`HaxmVersion` and `VersionInfo` are compared as 64-bit words. On a little-endian host their first
component, the major version, is the least significant part of the word. The constructor of
`HaxmVersion` leaves the most significant part as it is.
-/

namespace Virt86

/-- The six operators on words. -/
def compareWords (x y : U64) : Comparisons :=
  ⟨x == y, x != y, x ≥ y, x ≤ y, x > y, x < y⟩

theorem compareWords_eq (x y : U64) : compareWords x y = .of x.toNat y.toNat := by
  simp only [compareWords, Comparisons.of, BitVec.le_def, BitVec.lt_def, ge_iff_le, gt_iff_lt,
    ne_eq, BitVec.toNat_inj, bne, beq_eq_decide, decide_not]

theorem toNat_append_eq {m n : ℕ} (x : BitVec m) (y : BitVec n) :
    (x ++ y).toNat = y.toNat + 2 ^ n * x.toNat := by
  rw [BitVec.toNat_append, ← Nat.shiftLeft_add_eq_or_of_lt y.isLt, Nat.shiftLeft_eq,
    Nat.add_comm, Nat.mul_comm]

/-- Four components, the first one in the lowest bits. -/
theorem toNat_overlay (a b c d : U16) :
    (d ++ c ++ b ++ a : U64).toNat = Nat.ofDigits 65536 [a.toNat, b.toNat, c.toNat, d.toNat] := by
  rw [toNat_append_eq, toNat_append_eq, toNat_append_eq]
  simp only [Nat.ofDigits_cons, Nat.ofDigits_nil]
  norm_num

theorem forall_components_lt (a b c d : U16) :
    ∀ x ∈ [a.toNat, b.toNat, c.toNat, d.toNat], x < 65536 := by
  simp only [List.forall_mem_cons]
  exact ⟨a.isLt, b.isLt, c.isLt, d.isLt, fun _ h => by cases h⟩

theorem overlay_lt_iff (a b c d a' b' c' d' : U16) :
    (d ++ c ++ b ++ a : U64).toNat < (d' ++ c' ++ b' ++ a' : U64).toNat ↔
      Ascends (differences [a.toNat, b.toNat, c.toNat, d.toNat]
        [a'.toNat, b'.toNat, c'.toNat, d'.toNat]).getLast? := by
  rw [toNat_overlay, toNat_overlay]
  exact ofDigits_lt_iff_ascends_getLast (by decide) rfl (forall_components_lt a b c d)
    (forall_components_lt a' b' c' d')

/-! ## HAXM -/

namespace Haxm

/-- `HaxmVersion`: the components share their bytes with the word, whose other 16 bits are set by
the default constructor only. -/
structure HaxmVersion where
  major : U16
  minor : U16
  build : U16
  unset : U16
  deriving DecidableEq, Repr

namespace HaxmVersion

def u64 (v : HaxmVersion) : U64 := v.unset ++ v.build ++ v.minor ++ v.major

def compare (v version : HaxmVersion) : Comparisons := compareWords v.u64 version.u64

/-- The components, the most significant one first. -/
def components (v : HaxmVersion) : List ℕ := [v.major.toNat, v.minor.toNat, v.build.toNat]

/-- Reading from the major version on, the first component in which the versions differ, and the
last in which their words do, are ordered alike. -/
def ComparesAlike (v version : HaxmVersion) : Prop :=
  OrderedAlike (differences v.components version.components).head?
    (differences (v.components ++ [v.unset.toNat])
      (version.components ++ [version.unset.toNat])).getLast?

theorem compare_eq_iff (v version : HaxmVersion) :
    v.compare version = .of v.components version.components ↔ v.ComparesAlike version := by
  rw [compare, compareWords_eq, u64, u64, toNat_overlay, toNat_overlay]
  exact comparisons_ofDigits_eq_iff (by decide) rfl rfl (forall_components_lt _ _ _ _)
    (forall_components_lt _ _ _ _)

/-- The same as far as less is concerned. -/
def AscendsAlike (v version : HaxmVersion) : Prop :=
  Ascends (differences v.components version.components).head? ↔
    Ascends (differences (v.components ++ [v.unset.toNat])
      (version.components ++ [version.unset.toNat])).getLast?

theorem compare_lt_iff (v version : HaxmVersion) :
    ((v.compare version).lt = true ↔ v.components < version.components) ↔
      v.AscendsAlike version := by
  rw [compare, compareWords_eq, u64, u64, AscendsAlike,
    ← lt_iff_ascends_head (show v.components.length = version.components.length from rfl)]
  simp only [Comparisons.of, decide_eq_true_iff, overlay_lt_iff]
  exact Iff.comm

end HaxmVersion

/-- The feature of the platform, with what is in the unset bits of the version compared with. -/
def partialMMIOInstructions (haxmVersion : HaxmVersion) (unset : U16) : Bool :=
  (haxmVersion.compare ⟨7, 5, 1, unset⟩).lt

end Haxm

/-! ## WHPX -/

namespace Whpx

namespace VersionInfo

def compare (v versionInfo : VersionInfo) : Comparisons := compareWords v.ver versionInfo.ver

def components (v : VersionInfo) : List ℕ :=
  [v.major.toNat, v.minor.toNat, v.build.toNat, v.revision.toNat]

/-- The first and the last component in which the versions differ are ordered alike. -/
def ComparesAlike (v versionInfo : VersionInfo) : Prop :=
  OrderedAlike (differences v.components versionInfo.components).head?
    (differences v.components versionInfo.components).getLast?

theorem compare_eq_iff (v versionInfo : VersionInfo) :
    v.compare versionInfo = .of v.components versionInfo.components ↔
      v.ComparesAlike versionInfo := by
  rw [compare, compareWords_eq, ver, ver, toNat_overlay, toNat_overlay]
  exact comparisons_ofDigits_eq_iff (by decide) rfl rfl (forall_components_lt _ _ _ _)
    (forall_components_lt _ _ _ _)

/-- The same as far as less is concerned. -/
def AscendsAlike (v versionInfo : VersionInfo) : Prop :=
  Ascends (differences v.components versionInfo.components).head? ↔
    Ascends (differences v.components versionInfo.components).getLast?

theorem compare_ge_iff (v versionInfo : VersionInfo) :
    ((v.compare versionInfo).ge = true ↔ v.components ≥ versionInfo.components) ↔
      v.AscendsAlike versionInfo := by
  rw [compare, compareWords_eq, ver, ver, AscendsAlike,
    ← lt_iff_ascends_head (show v.components.length = versionInfo.components.length from rfl)]
  simp only [Comparisons.of, decide_eq_true_iff, ge_iff_le, ← not_lt, overlay_lt_iff]
  exact not_iff_not.trans Iff.comm

end VersionInfo

/-- The gate of XCR0 is an operator. -/
theorem translateRegisterName_XCR0 (whpxVersion : VersionInfo) :
    (translateRegisterName whpxVersion .XCR0).isSome =
      (whpxVersion.compare ⟨10, 0, 17763, 0⟩).ge := by
  have hname : translateRegisterName whpxVersion .XCR0 =
      if whpxVersion.ver ≥ (VersionInfo.mk 10 0 17763 0).ver then some .XCr0 else none := rfl
  rw [hname, VersionInfo.compare, compareWords]
  split_ifs with h
  · exact (decide_eq_true h).symm
  · exact (decide_eq_false h).symm

end Whpx

open Haxm Whpx

/-- The operators of both version types agree with the lexicographic order of the components, and
the gates on both versions hold for the versions they name, exactly when the first difference of the
components and the last difference of the words are ordered alike. -/
theorem versions_compare_iff (haxmVersion version : HaxmVersion) (unset : U16)
    (whpxVersion versionInfo : VersionInfo) :
    (haxmVersion.compare version = .of haxmVersion.components version.components ↔
        haxmVersion.ComparesAlike version) ∧
      (whpxVersion.compare versionInfo = .of whpxVersion.components versionInfo.components ↔
        whpxVersion.ComparesAlike versionInfo) ∧
      ((partialMMIOInstructions haxmVersion unset = true ↔ haxmVersion.components < [7, 5, 1]) ↔
        haxmVersion.AscendsAlike ⟨7, 5, 1, unset⟩) ∧
      (((translateRegisterName whpxVersion .XCR0).isSome = true ↔
          whpxVersion.components ≥ [10, 0, 17763, 0]) ↔
        whpxVersion.AscendsAlike ⟨10, 0, 17763, 0⟩) := by
  refine ⟨haxmVersion.compare_eq_iff version, whpxVersion.compare_eq_iff versionInfo, ?_, ?_⟩
  · exact haxmVersion.compare_lt_iff ⟨7, 5, 1, unset⟩
  · rw [translateRegisterName_XCR0]
    exact whpxVersion.compare_ge_iff ⟨10, 0, 17763, 0⟩

/-- HAXM 8.0.0 passes for an earlier version than 7.5.1, and the Windows build 17134 with any
revision for a later one than 17763. -/
theorem versions_compare_wrong :
    ((⟨8, 0, 0, 0⟩ : HaxmVersion).compare ⟨7, 5, 1, 0⟩ ≠ .of [8, 0, 0] [7, 5, 1] ∧
      partialMMIOInstructions ⟨8, 0, 0, 0⟩ 0 = true ∧ ¬ [8, 0, 0] < [7, 5, 1]) ∧
    ((⟨10, 0, 17134, 1⟩ : VersionInfo).compare ⟨10, 0, 17763, 0⟩ ≠
        .of [10, 0, 17134, 1] [10, 0, 17763, 0] ∧
      (translateRegisterName ⟨10, 0, 17134, 1⟩ .XCR0).isSome = true ∧
      ¬ [10, 0, 17134, 1] ≥ [10, 0, 17763, 0]) := by
  decide

end Virt86
