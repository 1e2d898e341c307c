import Virt86.BitSlices

/-!
# Bit masks

Sets of flags as words. A flag may have several bits, and two flags may share some.
-/

namespace Virt86

namespace Bitmasks

variable {w : ℕ} {α : Type}

/-- Any bit of the mask is set. -/
def anyOf (value mask : BitVec w) : Bool := value &&& mask ≠ 0#w

theorem anyOf_iff {value mask : BitVec w} :
    anyOf value mask = true ↔ ∃ i, value.getLsbD i = true ∧ mask.getLsbD i = true := by
  rw [anyOf, decide_eq_true_eq]
  constructor
  · intro h
    apply Classical.byContradiction
    intro hnone
    apply h
    apply BitVec.eq_of_getLsbD_eq
    intro i _
    rw [BitVec.getLsbD_and, BitVec.getLsbD_zero, Bool.and_eq_false_iff]
    by_cases hvalue : value.getLsbD i = true
    · exact .inr (Bool.eq_false_iff.mpr fun hmask => hnone ⟨i, hvalue, hmask⟩)
    · exact .inl (Bool.eq_false_iff.mpr hvalue)
  · rintro ⟨i, hvalue, hmask⟩ hzero
    have hbit := congrArg (fun x => x.getLsbD i) hzero
    simp [hvalue, hmask] at hbit

theorem anyOf_and (value allowed mask : BitVec w) :
    anyOf (value &&& allowed) mask = anyOf value (allowed &&& mask) := by
  rw [anyOf, anyOf, BitVec.and_assoc]

theorem anyOf_zero_right (value : BitVec w) : anyOf value 0#w = false := by
  rw [anyOf, BitVec.and_zero]
  exact decide_eq_false fun h => h rfl

/-- The flags that are selected, each added to the word in turn. -/
def collect (bits : α → BitVec w) (selected : α → Bool) (flags : List α) : BitVec w :=
  flags.foldl (fun result flag => if selected flag then result ||| bits flag else result) 0#w

theorem getLsbD_foldl_collect (bits : α → BitVec w) (selected : α → Bool) (flags : List α)
    (result : BitVec w) (i : ℕ) :
    (flags.foldl (fun result flag =>
        if selected flag then result ||| bits flag else result) result).getLsbD i = true ↔
      result.getLsbD i = true ∨
        ∃ flag ∈ flags, selected flag = true ∧ (bits flag).getLsbD i = true := by
  induction flags generalizing result with
  | nil => simp
  | cons flag flags ih =>
    rw [List.foldl_cons, ih]
    split_ifs with hselected
    · simp [hselected, or_assoc]
    · simp [hselected]

/-- Each flag that is selected counts for those it shares a bit with. -/
theorem anyOf_collect {bits : α → BitVec w} {selected : α → Bool} {flags : List α}
    {mask : BitVec w} :
    anyOf (collect bits selected flags) mask = true ↔
      ∃ flag ∈ flags, selected flag = true ∧ anyOf (bits flag) mask = true := by
  simp only [anyOf_iff, collect, getLsbD_foldl_collect, BitVec.getLsbD_zero, Bool.false_eq_true,
    false_or]
  constructor
  · rintro ⟨i, ⟨flag, hmem, hselected, hbit⟩, hmask⟩
    exact ⟨flag, hmem, hselected, i, hbit, hmask⟩
  · rintro ⟨flag, hmem, hselected, i, hbit, hmask⟩
    exact ⟨i, ⟨flag, hmem, hselected, hbit⟩, hmask⟩

end Bitmasks

end Virt86
