import Virt86.BitSlices

/-!
# Device names of HAXM

The driver makes a device for each machine and each processor, and these are opened by names that
have the identifiers in them. The names are written to arrays that have room for two digits of each.
-/

namespace Virt86

namespace Haxm

/-- `%02d`, for an argument that is taken as an `int`. -/
def percent02d (v : U32) : List Char :=
  if v.toInt < 0 then '-' :: Nat.toDigits 10 v.toInt.natAbs
  else if (Nat.toDigits 10 v.toNat).length < 2 then '0' :: Nat.toDigits 10 v.toNat
  else Nat.toDigits 10 v.toNat

/-- `sprintf` to an array of that size; `none` is a write behind it. -/
def sprintf (size : ℕ) (chars : List Char) : Option String :=
  if chars.length < size then some (String.ofList chars) else none

def vmPrefix : List Char := "/dev/hax_vm/vm".toList
def vcpuPrefix : List Char := "/dev/hax_vm".toList
def vcpuInfix : List Char := "/vcpu".toList

/-- `"/dev/hax_vm/vm%02d"`. -/
def vmChars (vmID : U32) : List Char := vmPrefix ++ percent02d vmID

/-- `"/dev/hax_vm%02d/vcpu%02d"`. -/
def vcpuChars (vmID vcpuID : U32) : List Char :=
  vcpuPrefix ++ (percent02d vmID ++ (vcpuInfix ++ percent02d vcpuID))

def vmName (vmID : U32) : Option String := sprintf 17 (vmChars vmID)

def vcpuName (vmID vcpuID : U32) : Option String := sprintf 21 (vcpuChars vmID vcpuID)

/-- The identifiers that have at most two characters. -/
def TwoDigits (v : U32) : Prop := -9 ≤ v.toInt ∧ v.toInt ≤ 99

instance (v : U32) : Decidable (TwoDigits v) := inferInstanceAs (Decidable (_ ∧ _))

theorem toNat_of_nonneg {v : U32} (h : ¬ v.toInt < 0) : (v.toNat : ℤ) = v.toInt := by
  rw [BitVec.toInt_eq_toNat_cond] at h ⊢
  split_ifs at h ⊢
  · rfl
  · have := v.isLt
    omega

theorem two_le_length_percent02d (v : U32) : 2 ≤ (percent02d v).length := by
  rw [percent02d]
  split_ifs with hneg hshort
  · rw [List.length_cons]
    exact Nat.succ_le_succ Nat.length_toDigits_pos
  · rw [List.length_cons]
    exact Nat.succ_le_succ Nat.length_toDigits_pos
  · exact Nat.not_lt.mp hshort

theorem length_percent02d_le_iff (v : U32) : (percent02d v).length ≤ 2 ↔ TwoDigits v := by
  rw [percent02d, TwoDigits]
  split_ifs with hneg hshort
  · rw [List.length_cons, Nat.succ_le_succ_iff, Nat.length_toDigits_le_iff (by decide) (by decide)]
    omega
  · have hvalue := toNat_of_nonneg hneg
    have hlt := (Nat.length_toDigits_le_iff (b := 10) (k := 1) (by decide) (by decide)).mp
      (Nat.le_of_lt_succ hshort)
    refine iff_of_true ?_ ⟨by omega, by omega⟩
    rw [List.length_cons]
    exact hshort
  · have hvalue := toNat_of_nonneg hneg
    rw [Nat.length_toDigits_le_iff (by decide) (by decide)]
    omega

theorem not_mem_toDigits {c : Char} (hc : c.isDigit = false) (n : ℕ) :
    c ∉ Nat.toDigits 10 n := by
  intro hmem
  rw [Nat.isDigit_of_mem_toDigits (by decide) (Nat.le_refl 10) hmem] at hc
  cases hc

theorem minus_mem_percent02d_iff (v : U32) : '-' ∈ percent02d v ↔ v.toInt < 0 := by
  have hdigits := not_mem_toDigits (c := '-') rfl
  rw [percent02d]
  split_ifs with hneg hshort
  · exact iff_of_true List.mem_cons_self hneg
  · refine iff_of_false (fun hmem => ?_) hneg
    rcases List.mem_cons.mp hmem with h | h
    · cases h
    · exact hdigits _ h
  · exact iff_of_false (hdigits _) hneg

/-- A zero in front of the digits does not count. -/
theorem ofDigitChars_percent02d {v : U32} (h : ¬ v.toInt < 0) :
    Nat.ofDigitChars 10 (percent02d v) 0 = v.toNat := by
  rw [percent02d, if_neg h]
  split_ifs
  · rw [Nat.ofDigitChars_cons]
    exact Nat.ofDigitChars_ten_toDigits
  · exact Nat.ofDigitChars_ten_toDigits

theorem percent02d_injective : Function.Injective percent02d := by
  intro v w h
  have hsign : v.toInt < 0 ↔ w.toInt < 0 := by
    rw [← minus_mem_percent02d_iff, ← minus_mem_percent02d_iff, h]
  by_cases hv : v.toInt < 0
  · have hw := hsign.mp hv
    rw [percent02d, percent02d, if_pos hv, if_pos hw] at h
    have habs : v.toInt.natAbs = w.toInt.natAbs := by
      have hvalue := congrArg (Nat.ofDigitChars 10 · 0) (List.cons.inj h).2
      simpa using hvalue
    exact BitVec.eq_of_toInt_eq (by omega)
  · have hw := hsign.not.mp hv
    apply BitVec.eq_of_toNat_eq
    rw [← ofDigitChars_percent02d hv, ← ofDigitChars_percent02d hw, h]

/-- A slash is in neither number. -/
theorem slash_notMem_percent02d (v : U32) : '/' ∉ percent02d v := by
  have hdigits := not_mem_toDigits (c := '/') rfl
  rw [percent02d]
  split_ifs
  · exact fun hmem => (List.mem_cons.mp hmem).elim (by decide) (hdigits _)
  · exact fun hmem => (List.mem_cons.mp hmem).elim (by decide) (hdigits _)
  · exact hdigits _

/-- Two texts without a byte that are followed by it end at the same place. -/
theorem append_cons_inj {c : Char} {s t s' t' : List Char} (hs : c ∉ s) (ht : c ∉ t)
    (h : s ++ c :: s' = t ++ c :: t') : s = t ∧ s' = t' := by
  induction s generalizing t with
  | nil =>
    cases t with
    | nil => exact ⟨rfl, (List.cons.inj h).2⟩
    | cons b t => exact absurd ((List.cons.inj h).1 ▸ List.mem_cons_self) ht
  | cons a s ih =>
    cases t with
    | nil => exact absurd ((List.cons.inj h).1 ▸ List.mem_cons_self) hs
    | cons b t =>
      obtain ⟨rfl, htail⟩ := List.cons.inj h
      rw [List.mem_cons, not_or] at hs ht
      obtain ⟨rfl, hrest⟩ := ih hs.2 ht.2 htail
      exact ⟨rfl, hrest⟩

theorem vcpuInfix_eq : vcpuInfix = '/' :: ['v', 'c', 'p', 'u'] := by rfl

theorem vcpuChars_injective {vmID vmID' vcpuID vcpuID' : U32}
    (h : vcpuChars vmID vcpuID = vcpuChars vmID' vcpuID') : vmID = vmID' ∧ vcpuID = vcpuID' := by
  have hnumbers := List.append_cancel_left h
  rw [vcpuInfix_eq, List.cons_append, List.cons_append] at hnumbers
  obtain ⟨hvm, hrest⟩ := append_cons_inj (slash_notMem_percent02d _) (slash_notMem_percent02d _)
    hnumbers
  have hlast : ['v', 'c', 'p', 'u'] ++ percent02d vcpuID =
      ['v', 'c', 'p', 'u'] ++ percent02d vcpuID' := hrest
  exact ⟨percent02d_injective hvm, percent02d_injective (List.append_cancel_left hlast)⟩

theorem isSome_sprintf_iff (size : ℕ) (chars : List Char) :
    (sprintf size chars).isSome = true ↔ chars.length < size := by
  rw [sprintf]
  split_ifs with h
  · exact iff_of_true rfl h
  · exact iff_of_false (by decide) h

theorem isSome_vmName_iff (vmID : U32) : (vmName vmID).isSome = true ↔ TwoDigits vmID := by
  have hlength := two_le_length_percent02d vmID
  have hprefix : vmPrefix.length = 14 := by rfl
  rw [vmName, isSome_sprintf_iff, vmChars, List.length_append, ← length_percent02d_le_iff]
  omega

theorem isSome_vcpuName_iff (vmID vcpuID : U32) :
    (vcpuName vmID vcpuID).isSome = true ↔ TwoDigits vmID ∧ TwoDigits vcpuID := by
  have hvm := two_le_length_percent02d vmID
  have hvcpu := two_le_length_percent02d vcpuID
  have hprefix : vcpuPrefix.length = 11 := by rfl
  have hinfix : vcpuInfix.length = 5 := by rfl
  rw [vcpuName, isSome_sprintf_iff, vcpuChars, List.length_append, List.length_append,
    List.length_append, ← length_percent02d_le_iff, ← length_percent02d_le_iff]
  omega

/-- The names of processors have a number where those of machines have a slash. -/
theorem vcpuChars_ne_vmChars (vmID vcpuID vmID' : U32) : vcpuChars vmID vcpuID ≠ vmChars vmID' := by
  intro h
  have hprefix : vmPrefix = vcpuPrefix ++ '/' :: ['v', 'm'] := by rfl
  rw [vmChars, hprefix, List.append_assoc] at h
  have hrest := List.append_cancel_left h
  rw [vcpuInfix_eq, List.cons_append, List.cons_append] at hrest
  obtain ⟨hnil, -⟩ := append_cons_inj (slash_notMem_percent02d vmID) List.not_mem_nil
    (hrest.trans (List.nil_append _).symm)
  have hlength := two_le_length_percent02d vmID
  rw [hnil] at hlength
  cases hlength

/-- The names fit if and only if all identifiers in them have two characters, and different machines
and processors have different names. -/
theorem deviceNames (vmID vcpuID : U32) :
    ((vmName vmID).isSome = true ↔ TwoDigits vmID) ∧
    ((vcpuName vmID vcpuID).isSome = true ↔ TwoDigits vmID ∧ TwoDigits vcpuID) ∧
    (∀ vmID', vmChars vmID' = vmChars vmID ↔ vmID' = vmID) ∧
    (∀ vmID' vcpuID', vcpuChars vmID' vcpuID' = vcpuChars vmID vcpuID ↔
      vmID' = vmID ∧ vcpuID' = vcpuID) ∧
    ∀ vmID', vcpuChars vmID vcpuID ≠ vmChars vmID' := by
  refine ⟨isSome_vmName_iff vmID, isSome_vcpuName_iff vmID vcpuID,
    fun vmID' => ⟨fun h => ?_, fun h => congrArg vmChars h⟩,
    fun vmID' vcpuID' => ⟨vcpuChars_injective, fun h => h.1 ▸ h.2 ▸ rfl⟩,
    vcpuChars_ne_vmChars vmID vcpuID⟩
  exact percent02d_injective (List.append_cancel_left h)

end Haxm

end Virt86
