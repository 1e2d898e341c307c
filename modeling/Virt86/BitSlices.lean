import Mathlib.Algebra.GroupWithZero.Nat
import Mathlib.Data.Nat.Notation
import Mathlib.Tactic.SplitIfs

/-!
# Words and bit slices

Fixed-width words, and the word in which the bits `[start, start + len)` are replaced.
-/

namespace Virt86

abbrev U8 := BitVec 8
abbrev U16 := BitVec 16
abbrev U32 := BitVec 32
abbrev U64 := BitVec 64

namespace BitSlices

variable {w len : ℕ}

/-- The word `x` with its bits from `start` on replaced by those of `v`. -/
def setSlice (x : BitVec w) (start : ℕ) (v : BitVec len) : BitVec w :=
  (x &&& ~~~((BitVec.allOnes len).setWidth w <<< start)) ||| (v.setWidth w <<< start)

theorem getLsbD_setSlice (x : BitVec w) (start : ℕ) (v : BitVec len) {i : ℕ} (hi : i < w) :
    (setSlice x start v).getLsbD i =
      if start ≤ i ∧ i < start + len then v.getLsbD (i - start) else x.getLsbD i := by
  simp only [setSlice, BitVec.getLsbD_or, BitVec.getLsbD_and, BitVec.getLsbD_not,
    BitVec.getLsbD_shiftLeft, BitVec.getLsbD_setWidth, BitVec.getLsbD_allOnes]
  grind

/-- The slice that was replaced. -/
theorem extractLsb'_setSlice (x : BitVec w) (start : ℕ) (v : BitVec len) (h : start + len ≤ w) :
    (setSlice x start v).extractLsb' start len = v := by
  apply BitVec.eq_of_getLsbD_eq
  intro i hi
  rw [BitVec.getLsbD_extractLsb', getLsbD_setSlice x start v (by omega)]
  simp [hi]

/-- A slice away from the one that was replaced. -/
theorem extractLsb'_setSlice_of_disjoint (x : BitVec w) {start s n : ℕ} (v : BitVec len)
    (hw : s + n ≤ w) (h : s + n ≤ start ∨ start + len ≤ s) :
    (setSlice x start v).extractLsb' s n = x.extractLsb' s n := by
  apply BitVec.eq_of_getLsbD_eq
  intro i hi
  rw [BitVec.getLsbD_extractLsb', BitVec.getLsbD_extractLsb',
    getLsbD_setSlice x start v (by omega), if_neg (by omega)]

/-- A slice replaced inside the low part of a word is replaced in the word. -/
theorem setSlice_zero_setSlice {n : ℕ} (x : BitVec w) {start : ℕ} (v : BitVec len)
    (h : start + len ≤ n) :
    setSlice x 0 (setSlice (x.extractLsb' 0 n) start v) = setSlice x start v := by
  apply BitVec.eq_of_getLsbD_eq
  intro i hi
  rw [getLsbD_setSlice x 0 _ hi, getLsbD_setSlice x start v hi]
  by_cases hn : i < n
  · rw [if_pos (by omega), Nat.sub_zero, getLsbD_setSlice _ start v hn,
      BitVec.getLsbD_extractLsb', Nat.zero_add]
    simp [hn]
  · rw [if_neg (by omega), if_neg (by omega)]

/-- All bits replaced. -/
theorem setSlice_zero_of_width (x v : BitVec w) : setSlice x 0 v = v := by
  apply BitVec.eq_of_getLsbD_eq
  intro i hi
  rw [getLsbD_setSlice x 0 v hi, if_pos (by omega), Nat.sub_zero]

/-- Low bits replaced are the new bits alone exactly when the word had no others. -/
theorem setSlice_zero_eq_setWidth_iff (x : BitVec w) (v : BitVec len) (h : len ≤ w) :
    setSlice x 0 v = v.setWidth w ↔ x.toNat < 2 ^ len := by
  have hbits : setSlice x 0 v = v.setWidth w ↔ ∀ k, x.getLsbD (len + k) = false := by
    constructor
    · intro heq k
      by_cases hk : len + k < w
      · have hbit := congrArg (fun y => y.getLsbD (len + k)) heq
        simpa [getLsbD_setSlice x 0 v hk] using hbit
      · exact BitVec.getLsbD_of_ge x _ (by omega)
    · intro hhigh
      apply BitVec.eq_of_getLsbD_eq
      intro i hi
      rw [getLsbD_setSlice x 0 v hi, BitVec.getLsbD_setWidth]
      by_cases hlen : i < len
      · simp [hlen, hi]
      · have hbit := hhigh (i - len)
        rw [Nat.add_sub_cancel' (by omega)] at hbit
        simp [hlen, hbit, BitVec.getLsbD_of_ge v i (by omega)]
  rw [hbits]
  rcases Nat.lt_or_eq_of_le h with hlt | rfl
  · exact (BitVec.toNat_lt_iff_getLsbD_eq_false len hlt).symm
  · exact iff_of_true (fun k => BitVec.getLsbD_of_ge x _ (by omega)) x.isLt

/-- A slice that is replaced by a zero-extended one clears the bits between the two. -/
theorem extractLsb'_setSlice_setWidth_eq_iff (x : BitVec w) (v : BitVec len) {k m n : ℕ}
    (hk : len + k = m) (hm : m ≤ n) (hn : n ≤ w) :
    (setSlice x 0 (v.setWidth m)).extractLsb' 0 n = (setSlice x 0 v).extractLsb' 0 n ↔
      x.extractLsb' len k = 0 := by
  subst hk
  constructor
  · intro h
    apply BitVec.eq_of_getLsbD_eq
    intro i hi
    have hbit := congrArg (fun y => y.getLsbD (len + i)) h
    simp only [BitVec.getLsbD_extractLsb', Nat.zero_add] at hbit
    rw [getLsbD_setSlice x 0 _ (by omega), getLsbD_setSlice x 0 v (by omega), if_pos (by omega),
      if_neg (by omega), Nat.sub_zero, BitVec.getLsbD_setWidth,
      BitVec.getLsbD_of_ge v _ (by omega)] at hbit
    simpa [hi, show len + i < n by omega] using hbit.symm
  · intro h
    apply BitVec.eq_of_getLsbD_eq
    intro i hi
    simp only [BitVec.getLsbD_extractLsb', Nat.zero_add]
    rw [getLsbD_setSlice x 0 _ (by omega), getLsbD_setSlice x 0 v (by omega)]
    rcases Nat.lt_or_ge i len with hlen | hlen
    · rw [if_pos (by omega), if_pos (by omega), BitVec.getLsbD_setWidth]
      simp [show i < len + k by omega]
    · rcases Nat.lt_or_ge i (len + k) with hi' | hi'
      · have hbit := congrArg (fun y => y.getLsbD (i - len)) h
        simp only [BitVec.getLsbD_extractLsb', show len + (i - len) = i by omega] at hbit
        rw [if_pos (by omega), if_neg (by omega), BitVec.getLsbD_setWidth, Nat.sub_zero,
          BitVec.getLsbD_of_ge v _ hlen]
        simpa [hi, show i - len < k by omega] using hbit.symm
      · rw [if_neg (by omega), if_neg (by omega)]

/-- Low bits are fewer low bits zero-extended when the others are zero. -/
theorem extractLsb'_eq_setWidth_iff (x : BitVec w) (m n : ℕ) :
    x.extractLsb' 0 n = (x.extractLsb' 0 m).setWidth n ↔ x.extractLsb' m (n - m) = 0 := by
  constructor
  · intro h
    apply BitVec.eq_of_getLsbD_eq
    intro i hi
    have hbit := congrArg (fun y => y.getLsbD (m + i)) h
    simp only [BitVec.getLsbD_extractLsb', BitVec.getLsbD_setWidth, Nat.zero_add] at hbit
    simpa [show m + i < n by omega, show ¬ m + i < m by omega, hi] using hbit
  · intro h
    apply BitVec.eq_of_getLsbD_eq
    intro i hi
    simp only [BitVec.getLsbD_extractLsb', BitVec.getLsbD_setWidth, Nat.zero_add]
    rcases Nat.lt_or_ge i m with him | him
    · simp [him]
    · have hbit := congrArg (fun y => y.getLsbD (i - m)) h
      simp only [BitVec.getLsbD_extractLsb', show m + (i - m) = i by omega] at hbit
      simpa [show i - m < n - m by omega, show ¬ i < m by omega, hi] using hbit

/-- A mask of which no bit is set takes nothing away. -/
theorem and_not_eq_self {x c : BitVec w} (h : x &&& c = 0) : x &&& ~~~c = x := by
  apply BitVec.eq_of_getLsbD_eq
  intro i hi
  have hbit := congrArg (fun y => y.getLsbD i) h
  simp only [BitVec.getLsbD_and, BitVec.getLsbD_not] at hbit ⊢
  cases hx : x.getLsbD i <;> simp_all

/-- A mask of `k` ones keeps the low `k` bits. -/
theorem and_ofNat_mask {n : ℕ} (x : BitVec n) (k : ℕ) :
    x &&& BitVec.ofNat n (2 ^ k - 1) = (x.setWidth k).setWidth n := by
  apply BitVec.eq_of_getLsbD_eq
  intro i hi
  simp only [BitVec.getLsbD_setWidth, BitVec.getLsbD_and, BitVec.getLsbD_ofNat,
    Nat.testBit_two_pow_sub_one]
  by_cases hk : i < k
  · simp [hi, hk]
  · simp [hk]

theorem setWidth_and_ofNat {n : ℕ} (x : BitVec n) {k : ℕ} (h : k ≤ n) :
    (x &&& BitVec.ofNat n (2 ^ k - 1)).setWidth k = x.setWidth k := by
  rw [and_ofNat_mask, BitVec.setWidth_setWidth_of_le _ h, BitVec.setWidth_eq]

/-- Bits moved down by `s` and up again by `k` are a slice with `k` zeros below it. -/
theorem extractLsb'_shiftRight_shiftLeft (x : BitVec w) (s k n : ℕ) (h : n + k ≤ w) :
    ((x >>> s) <<< k).extractLsb' 0 (n + k) = x.extractLsb' s n ++ 0#k := by
  apply BitVec.eq_of_getLsbD_eq
  intro i hi
  simp only [BitVec.getLsbD_extractLsb', BitVec.getLsbD_shiftLeft, BitVec.getLsbD_ushiftRight,
    BitVec.getLsbD_append, BitVec.getLsbD_zero]
  grind

theorem extractLsb'_shiftRight (x : BitVec w) (s n : ℕ) :
    (x >>> s).extractLsb' 0 n = x.extractLsb' s n := by
  apply BitVec.eq_of_getLsbD_eq
  intro i hi
  simp only [BitVec.getLsbD_extractLsb', BitVec.getLsbD_ushiftRight, Nat.zero_add]

/-- A slice that was zero-extended is its own low part. -/
theorem extractLsb'_setWidth_self (x : BitVec len) (h : len ≤ w) :
    (x.setWidth w).extractLsb' 0 len = x := by
  rw [BitVec.extractLsb'_setWidth_of_le (by omega), BitVec.extractLsb'_eq_self]

/-- A test against a one-bit mask reads that bit. -/
theorem and_bit_eq_zero_iff (x : BitVec w) {k : ℕ} (hk : k < w) :
    x &&& (1#w <<< k) = 0 ↔ x.getLsbD k = false := by
  constructor
  · intro h
    have hbit := congrArg (fun y => y.getLsbD k) h
    simpa [BitVec.getLsbD_shiftLeft, hk, show 0 < w by omega] using hbit
  · intro h
    apply BitVec.eq_of_getLsbD_eq
    intro i hi
    rcases Nat.lt_trichotomy i k with hlt | heq | hgt
    · simp [BitVec.getLsbD_shiftLeft, hlt]
    · simp [heq, h]
    · simp [BitVec.getLsbD_shiftLeft, show i - k ≠ 0 by omega]

/-- The sign of a low part that is sign-extended is or-ed to the whole high part. -/
theorem signExtend_or_shiftLeft {m n : ℕ} (lo : BitVec n) (hi : BitVec m) :
    lo.signExtend (m + n) ||| (hi.setWidth (m + n) <<< n) =
      (if lo.msb then BitVec.allOnes m else hi) ++ lo := by
  apply BitVec.eq_of_getLsbD_eq
  intro i hi'
  simp only [BitVec.getLsbD_or, BitVec.getLsbD_signExtend, BitVec.getLsbD_shiftLeft,
    BitVec.getLsbD_setWidth, BitVec.getLsbD_append]
  by_cases hlow : i < n
  · simp [hlow, hi']
  · cases lo.msb with
    | true => simp [hlow, hi', show i - n < m by omega]
    | false => simp [hlow, hi', show i - n < m + n by omega]

section Bytes

variable {n : ℕ}

/-- The bytes of a word, the lowest first. -/
def toBytes (x : BitVec w) : ℕ → U8 := fun i => x.extractLsb' (8 * i) 8

/-- The word with the first `n` of the given bytes, the lowest first. -/
def ofBytes (w : ℕ) (bytes : ℕ → U8) : ℕ → BitVec w
  | 0 => 0
  | n + 1 => setSlice (ofBytes w bytes n) (8 * n) (bytes n)

theorem getLsbD_ofBytes (bytes : ℕ → U8) (n : ℕ) {i : ℕ} (hi : i < w) :
    (ofBytes w bytes n).getLsbD i = (decide (i < 8 * n) && (bytes (i / 8)).getLsbD (i % 8)) := by
  induction n with
  | zero => simp [ofBytes]
  | succ n ih =>
    rw [ofBytes, getLsbD_setSlice _ _ _ hi, ih]
    rcases Nat.lt_trichotomy (i / 8) n with hlt | heq | hgt
    · rw [if_neg (by omega)]
      simp [show i < 8 * n by omega, show i < 8 * (n + 1) by omega]
    · rw [if_pos (by omega), heq]
      simp [show i < 8 * (n + 1) by omega, show i - 8 * n = i % 8 by omega]
    · rw [if_neg (by omega)]
      simp [show ¬ i < 8 * n by omega, show ¬ i < 8 * (n + 1) by omega]

end Bytes

/-- The number whose little-endian digits in base 256 are the given bytes. -/
def littleEndian : List U8 → ℕ
  | [] => 0
  | b :: bs => b.toNat + 256 * littleEndian bs

theorem littleEndian_lt (bytes : List U8) : littleEndian bytes < 256 ^ bytes.length := by
  induction bytes with
  | nil => exact Nat.one_pos
  | cons b bytes ih =>
    have hb : b.toNat < 256 := b.isLt
    rw [littleEndian, List.length_cons, Nat.pow_succ]
    omega

/-- Bit by bit, the number is made up of its bytes. -/
theorem testBit_littleEndian_map (bytes : ℕ → U8) (n i : ℕ) :
    (littleEndian ((List.range n).map bytes)).testBit i =
      (decide (i < 8 * n) && (bytes (i / 8)).getLsbD (i % 8)) := by
  induction n generalizing bytes i with
  | zero => simp [littleEndian]
  | succ n ih =>
    rw [List.range_succ_eq_map, List.map_cons, List.map_map, littleEndian, Nat.add_comm,
      show (256 : ℕ) = 2 ^ 8 from rfl, Nat.testBit_two_pow_mul_add _ (bytes 0).isLt, ih]
    by_cases hi : i < 8
    · rw [if_pos hi, Nat.div_eq_of_lt hi, Nat.mod_eq_of_lt hi, BitVec.testBit_toNat]
      simp [show i < 8 * (n + 1) by omega]
    · rw [if_neg hi, Function.comp_apply, show ((i - 8) / 8).succ = i / 8 by omega,
        show (i - 8) % 8 = i % 8 by omega]
      simp [show i - 8 < 8 * n ↔ i < 8 * (n + 1) by omega]

end BitSlices

end Virt86
