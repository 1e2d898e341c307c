import Virt86.GeneralRegisters

/-!
# The register accessors of a virtual processor

What `VirtualProcessor` makes of the accessors for one register that a backend gives it: loops over
arrays of registers, and copies. A backend that keeps copies of the registers refreshes them at the
start of each access.
-/

namespace Virt86

/-- The accessors for one register. -/
structure RegisterAccessors (S : Type) where
  regRead : Reg → RegValue → S → (VPOperationStatus × RegValue) × S
  regWrite : Reg → RegValue → S → VPOperationStatus × S

namespace RegisterAccessors

variable {S : Type} (A : RegisterAccessors S)

/-- `RegRead` for an array of registers and the array of their values. -/
def regReadBulk : List (Reg × RegValue) → S → (VPOperationStatus × List RegValue) × S
  | [], s => ((.OK, []), s)
  | (reg, value) :: rest, s =>
    match A.regRead reg value s with
    | ((.OK, value), s) =>
      let ((status, values), s) := regReadBulk rest s
      ((status, value :: values), s)
    | ((status, value), s) => ((status, value :: rest.map Prod.snd), s)

/-- `RegWrite` for an array of registers. -/
def regWriteBulk : List (Reg × RegValue) → S → VPOperationStatus × S
  | [], s => (.OK, s)
  | (reg, value) :: rest, s =>
    match A.regWrite reg value s with
    | (.OK, s) => regWriteBulk rest s
    | (status, s) => (status, s)

/-- `RegCopy`, with the contents that its local variable starts with. -/
def regCopy (dst src : Reg) (tmp : RegValue) (s : S) : VPOperationStatus × S :=
  match A.regRead src tmp s with
  | ((.OK, tmp), s) => A.regWrite dst tmp s
  | ((status, _), s) => (status, s)

end RegisterAccessors

/-- Accessors on copies of the registers and the function that refreshes the copies. Copies that
are up to date stay as they are when they are refreshed, and so after an access. -/
structure RefreshedAccessors (S : Type) where
  refresh : S → Bool × S
  fresh : RegisterAccessors S
  refresh_refresh : ∀ s s', refresh s = (true, s') → refresh s' = (true, s')
  refresh_regRead : ∀ reg value s, refresh s = (true, s) →
    refresh (fresh.regRead reg value s).2 = (true, (fresh.regRead reg value s).2)
  refresh_regWrite : ∀ reg value s, refresh s = (true, s) →
    refresh (fresh.regWrite reg value s).2 = (true, (fresh.regWrite reg value s).2)

namespace RefreshedAccessors

variable {S : Type} (R : RefreshedAccessors S) {s : S}

/-- The accessors of the backend, which refresh the copies first. -/
def accessors : RegisterAccessors S where
  regRead reg value s :=
    match R.refresh s with
    | (true, s) => R.fresh.regRead reg value s
    | (false, s) => ((.Failed, value), s)
  regWrite reg value s :=
    match R.refresh s with
    | (true, s) => R.fresh.regWrite reg value s
    | (false, s) => (.Failed, s)

theorem regRead_of_fresh (h : R.refresh s = (true, s)) (reg : Reg) (value : RegValue) :
    R.accessors.regRead reg value s = R.fresh.regRead reg value s := by
  simp only [accessors, h]

theorem regWrite_of_fresh (h : R.refresh s = (true, s)) (reg : Reg) (value : RegValue) :
    R.accessors.regWrite reg value s = R.fresh.regWrite reg value s := by
  simp only [accessors, h]

/-- A loop that starts with fresh copies never refreshes them. -/
theorem regReadBulk_of_fresh (h : R.refresh s = (true, s)) (regs : List (Reg × RegValue)) :
    R.accessors.regReadBulk regs s = R.fresh.regReadBulk regs s := by
  induction regs generalizing s with
  | nil => rfl
  | cons entry rest ih =>
    obtain ⟨reg, value⟩ := entry
    have hnext := R.refresh_regRead reg value s h
    simp only [RegisterAccessors.regReadBulk, R.regRead_of_fresh h]
    rcases hread : R.fresh.regRead reg value s with ⟨⟨status, value'⟩, s'⟩
    rw [hread] at hnext
    cases status with
    | OK => simp only [ih hnext]
    | _ => rfl

theorem regWriteBulk_of_fresh (h : R.refresh s = (true, s)) (regs : List (Reg × RegValue)) :
    R.accessors.regWriteBulk regs s = R.fresh.regWriteBulk regs s := by
  induction regs generalizing s with
  | nil => rfl
  | cons entry rest ih =>
    obtain ⟨reg, value⟩ := entry
    have hnext := R.refresh_regWrite reg value s h
    simp only [RegisterAccessors.regWriteBulk, R.regWrite_of_fresh h]
    rcases hwrite : R.fresh.regWrite reg value s with ⟨status, s'⟩
    rw [hwrite] at hnext
    cases status with
    | OK => exact ih hnext
    | _ => rfl

/-- The loop of single reads as one refresh and a loop on the copies. -/
theorem regReadBulk_eq {regs : List (Reg × RegValue)} (hne : regs ≠ []) :
    R.accessors.regReadBulk regs s =
      match R.refresh s with
      | (true, s) => R.fresh.regReadBulk regs s
      | (false, s) => ((.Failed, regs.map Prod.snd), s) := by
  obtain ⟨⟨reg, value⟩, rest, rfl⟩ := List.exists_cons_of_ne_nil hne
  rcases hrefresh : R.refresh s with ⟨ok, s'⟩
  cases ok with
  | false => simp only [RegisterAccessors.regReadBulk, accessors, hrefresh, List.map_cons]
  | true =>
    have hfresh := R.refresh_refresh s s' hrefresh
    have hhead : R.accessors.regRead reg value s = R.accessors.regRead reg value s' := by
      simp only [accessors, hrefresh, hfresh]
    have hloop := R.regReadBulk_of_fresh hfresh ((reg, value) :: rest)
    simp only [RegisterAccessors.regReadBulk, hhead] at hloop ⊢
    exact hloop

theorem regWriteBulk_eq {regs : List (Reg × RegValue)} (hne : regs ≠ []) :
    R.accessors.regWriteBulk regs s =
      match R.refresh s with
      | (true, s) => R.fresh.regWriteBulk regs s
      | (false, s) => (.Failed, s) := by
  obtain ⟨⟨reg, value⟩, rest, rfl⟩ := List.exists_cons_of_ne_nil hne
  rcases hrefresh : R.refresh s with ⟨ok, s'⟩
  cases ok with
  | false => simp only [RegisterAccessors.regWriteBulk, accessors, hrefresh]
  | true =>
    have hfresh := R.refresh_refresh s s' hrefresh
    have hhead : R.accessors.regWrite reg value s = R.accessors.regWrite reg value s' := by
      simp only [accessors, hrefresh, hfresh]
    have hloop := R.regWriteBulk_of_fresh hfresh ((reg, value) :: rest)
    simp only [RegisterAccessors.regWriteBulk, hhead] at hloop ⊢
    exact hloop

/-- A copy as one refresh and a copy between the copies. -/
theorem regCopy_eq (dst src : Reg) (tmp : RegValue) :
    R.accessors.regCopy dst src tmp s =
      match R.refresh s with
      | (true, s) => R.fresh.regCopy dst src tmp s
      | (false, s) => (.Failed, s) := by
  rcases hrefresh : R.refresh s with ⟨ok, s'⟩
  cases ok with
  | false => simp only [RegisterAccessors.regCopy, accessors, hrefresh]
  | true =>
    have hfresh := R.refresh_regRead src tmp s' (R.refresh_refresh s s' hrefresh)
    simp only [RegisterAccessors.regCopy, accessors, hrefresh]
    rcases hread : R.fresh.regRead src tmp s' with ⟨⟨status, value⟩, s''⟩
    rw [hread] at hfresh
    cases status with
    | OK => simp only [hfresh]
    | _ => rfl

end RefreshedAccessors

/-! ## Copies between views -/

section Copies

variable {S : Type} (A : RegisterAccessors S) (file : S → GeneralFile)

/-- A copy between views of general-purpose registers does not depend on what its variable starts
with, and if it succeeds the destination shows the zero-extended or truncated source. -/
structure Copies (dst src : Reg) (g g' : GeneralRegister) (w w' : GeneralView) (s : S) : Prop where
  independent : ∀ tmp tmp', (A.regCopy dst src tmp s).2 = (A.regCopy dst src tmp' s).2
  copied : ∀ tmp, (A.regCopy dst src tmp s).1 = .OK →
    (file (A.regCopy dst src tmp s).2).read g w = ((file s).read g' w').setWidth w.width

/-- Accessors that put the bits of a view into the value, take them from it, and look at no
others. -/
structure ViewAccessors : Prop where
  regRead : ∀ {reg : Reg} {g : GeneralRegister} {w : GeneralView}, generalName reg = some (g, w) →
    ∀ value s, A.regRead reg value s = ((.OK, value.setLow ((file s).read g w)), s)
  regWrite : ∀ {reg : Reg} {g : GeneralRegister} {w : GeneralView}, generalName reg = some (g, w) →
    ∀ value s, (A.regWrite reg value s).1 = .OK ∧
      (file (A.regWrite reg value s).2).read g w = value.low w.width
  regWrite_congr : ∀ {reg : Reg} {g : GeneralRegister} {w : GeneralView},
    generalName reg = some (g, w) → ∀ {value value' : RegValue},
      value.low w.width = value'.low w.width →
      ∀ s, A.regWrite reg value s = A.regWrite reg value' s

variable {A file} {dst src : Reg} {g g' : GeneralRegister} {w w' : GeneralView}

/-- Bits of the destination that the source has not come from the variable. -/
theorem ViewAccessors.copies_iff (h : ViewAccessors A file) (hdst : generalName dst = some (g, w))
    (hsrc : generalName src = some (g', w')) (s : S) :
    Copies A file dst src g g' w w' s ↔ w.width ≤ w'.width := by
  have hcopy (tmp : RegValue) : A.regCopy dst src tmp s =
      A.regWrite dst (tmp.setLow ((file s).read g' w')) s := by
    simp only [RegisterAccessors.regCopy, h.regRead hsrc]
  have hw : w.width ≤ 512 := Nat.le_trans w.width_le (by decide)
  have hw' : w'.width ≤ 512 := Nat.le_trans w'.width_le (by decide)
  constructor
  · intro hcopies
    by_contra hwide
    -- a variable with all bits set leaves a bit that the source does not have
    let ones : RegValue := BitVec.allOnes 512
    have hwritten := h.regWrite hdst (ones.setLow ((file s).read g' w')) s
    have hcopied := hcopies.copied ones (by rw [hcopy]; exact hwritten.1)
    rw [hcopy, hwritten.2] at hcopied
    have hbit := congrArg (fun x => x.getLsbD w'.width) hcopied
    simp only [BitVec.getLsbD_setWidth] at hbit
    rw [RegValue.getLsbD_low_setLow _ _ (Nat.le_refl _) (Nat.lt_of_not_le hwide) hw,
      BitVec.getLsbD_of_ge _ _ (Nat.le_refl w'.width)] at hbit
    have hone : ones.getLsbD w'.width = true := by
      rw [BitVec.getLsbD_allOnes, decide_eq_true (by omega)]
    rw [hone, Bool.and_false] at hbit
    cases hbit
  · intro hle
    have hlow (tmp : RegValue) : (tmp.setLow ((file s).read g' w')).low w.width =
        ((file s).read g' w').setWidth w.width := RegValue.low_setLow_of_le tmp _ hle hw'
    refine ⟨?_, ?_⟩
    · intro tmp tmp'
      rw [hcopy, hcopy, h.regWrite_congr hdst ((hlow tmp).trans (hlow tmp').symm)]
    · intro tmp _
      rw [hcopy, (h.regWrite hdst _ s).2, hlow]

/-- Copies by other accessors, from another state, that end in the same state. -/
theorem Copies.congr {B : RegisterAccessors S} {file' : S → GeneralFile} {s s' : S}
    (h : Copies A file dst src g g' w w' s)
    (hcopy : ∀ tmp, A.regCopy dst src tmp s = B.regCopy dst src tmp s')
    (hbefore : file s = file' s')
    (hafter : ∀ tmp, file (B.regCopy dst src tmp s').2 = file' (B.regCopy dst src tmp s').2) :
    Copies B file' dst src g g' w w' s' := by
  refine ⟨?_, ?_⟩
  · intro tmp tmp'
    rw [← hcopy, ← hcopy]
    exact h.independent tmp tmp'
  · intro tmp hok
    have hcopied := h.copied tmp (by rw [hcopy]; exact hok)
    rwa [hcopy, hafter, hbefore] at hcopied

/-- The same behind a refresh. Nothing is copied when it fails. -/
theorem RefreshedAccessors.copies_iff {R : RefreshedAccessors S} (h : ViewAccessors R.fresh file)
    (hdst : generalName dst = some (g, w)) (hsrc : generalName src = some (g', w')) (s : S) :
    Copies R.accessors (fun s => file (R.refresh s).2) dst src g g' w w' s ↔
      w.width ≤ w'.width ∨ (R.refresh s).1 = false := by
  rcases hrefresh : R.refresh s with ⟨ok, s'⟩
  cases ok with
  | false =>
    have hcopy (tmp : RegValue) : R.accessors.regCopy dst src tmp s = (.Failed, s') := by
      rw [R.regCopy_eq, hrefresh]
    refine iff_of_true ⟨?_, ?_⟩ (.inr rfl)
    · intro tmp tmp'
      rw [hcopy, hcopy]
    · intro tmp hok
      rw [hcopy] at hok
      cases hok
  | true =>
    have hcopy (tmp : RegValue) :
        R.accessors.regCopy dst src tmp s = R.fresh.regCopy dst src tmp s' := by
      rw [R.regCopy_eq, hrefresh]
    have hfresh := R.refresh_refresh s s' hrefresh
    have hafter (tmp : RegValue) : R.refresh (R.fresh.regCopy dst src tmp s').2 =
        (true, (R.fresh.regCopy dst src tmp s').2) := by
      simp only [RegisterAccessors.regCopy, h.regRead hsrc]
      exact R.refresh_regWrite dst _ s' hfresh
    have hbefore : file (R.refresh s).2 = file s' := by rw [hrefresh]
    have hsame : Copies R.accessors (fun s => file (R.refresh s).2) dst src g g' w w' s ↔
        Copies R.fresh file dst src g g' w w' s' := by
      constructor
      · intro hcopies
        exact hcopies.congr hcopy hbefore fun tmp => by rw [hafter]
      · intro hcopies
        exact hcopies.congr (fun tmp => (hcopy tmp).symm) hbefore.symm fun tmp => by
          rw [hcopy, hafter]
    rw [hsame, h.copies_iff hdst hsrc]
    simp

end Copies

end Virt86
