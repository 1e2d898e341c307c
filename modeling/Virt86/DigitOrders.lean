import Mathlib.Data.List.Lex
import Mathlib.Data.Nat.Digits.Defs

/-!
# Orders of digit lists

Two numbers of as many digits are compared by the last of their digits, the least significant one
first, in which they differ. The lexicographic order of the same lists looks at the first one.
-/

namespace Virt86

/-- The results of the six comparison operators. -/
structure Comparisons where
  eq : Bool
  ne : Bool
  ge : Bool
  le : Bool
  gt : Bool
  lt : Bool
  deriving DecidableEq, Repr

/-- The six operators of an order. -/
def Comparisons.of {α : Type} [LinearOrder α] (x y : α) : Comparisons :=
  ⟨x = y, x ≠ y, x ≥ y, x ≤ y, x > y, x < y⟩

/-- Two orders compare alike as soon as both agree on what is less. -/
theorem Comparisons.of_eq_of_iff {α β : Type} [LinearOrder α] [LinearOrder β] {x y : α}
    {x' y' : β} : of x y = of x' y' ↔ (x < y ↔ x' < y') ∧ (y < x ↔ y' < x') := by
  constructor
  · intro h
    have hlt := congrArg Comparisons.lt h
    have hgt := congrArg Comparisons.gt h
    simp only [of, decide_eq_decide] at hlt hgt
    exact ⟨hlt, hgt⟩
  · rintro ⟨hlt, hgt⟩
    have heq : x = y ↔ x' = y' := by
      rw [eq_iff_le_not_lt, eq_iff_le_not_lt, ← not_lt, ← not_lt, hlt, hgt]
    simp only [of, ne_eq, ge_iff_le, gt_iff_lt, ← not_lt, heq, hlt, hgt]

/-- Induction on two lists of one length. -/
theorem sameLength_induction {α : Type} {motive : ∀ xs ys : List α, xs.length = ys.length → Prop}
    (nil : motive [] [] rfl)
    (cons : ∀ x xs y ys, (h : xs.length = ys.length) → motive xs ys h →
      motive (x :: xs) (y :: ys) (congrArg Nat.succ h))
    (xs ys : List α) (h : xs.length = ys.length) : motive xs ys h := by
  induction xs generalizing ys with
  | nil =>
    obtain rfl := List.length_eq_zero_iff.mp h.symm
    exact nil
  | cons x xs ih =>
    cases ys with
    | nil => cases h
    | cons y ys => exact cons x xs y ys (Nat.succ.inj h) (ih ys (Nat.succ.inj h))

/-! ## Differences -/

section Differences

variable {α : Type} [LinearOrder α] {xs ys : List α}

/-- The pairs of elements in which two lists of one length differ. -/
def differences (xs ys : List α) : List (α × α) := (xs.zip ys).filter fun p => p.1 ≠ p.2

theorem differences_cons (x y : α) (xs ys : List α) : differences (x :: xs) (y :: ys) =
    if x = y then differences xs ys else (x, y) :: differences xs ys := by
  rw [differences, List.zip_cons_cons, List.filter_cons]
  by_cases h : x = y
  · simp [h, differences]
  · simp [h, differences]

theorem differences_swap (xs ys : List α) :
    differences ys xs = (differences xs ys).map Prod.swap := by
  induction xs generalizing ys with
  | nil => cases ys <;> rfl
  | cons x xs ih =>
    cases ys with
    | nil => rfl
    | cons y ys =>
      rw [differences_cons, differences_cons, ih, apply_ite (List.map Prod.swap)]
      simp only [eq_comm, List.map_cons, Prod.swap_prod_mk]

theorem differences_eq_nil_iff (h : xs.length = ys.length) : differences xs ys = [] ↔ xs = ys := by
  induction xs, ys, h using sameLength_induction with
  | nil => simp [differences]
  | cons x xs y ys h ih =>
    rw [differences_cons, List.cons.injEq, ← ih]
    split_ifs with hxy <;> simp [hxy]

/-- A pair of digits in which the first is less. -/
def Ascends (p : Option (α × α)) : Prop := ∃ q ∈ p, q.1 < q.2

theorem lt_iff_ascends_head (h : xs.length = ys.length) :
    xs < ys ↔ Ascends (differences xs ys).head? := by
  induction xs, ys, h using sameLength_induction with
  | nil => simp [differences, Ascends]
  | cons x xs y ys h ih =>
    rw [List.cons_lt_cons_iff, ih, differences_cons]
    split_ifs with hxy
    · simp [hxy]
    · simp [hxy, Ascends]

end Differences

/-! ## Numbers -/

theorem add_mul_lt_add_mul_iff {b x y m n : ℕ} (hx : x < b) (hy : y < b) :
    x + b * m < y + b * n ↔ m < n ∨ m = n ∧ x < y := by
  rcases Nat.lt_trichotomy m n with h | rfl | h
  · have hle : b * (m + 1) ≤ b * n := Nat.mul_le_mul_left b h
    rw [Nat.mul_add] at hle
    exact iff_of_true (by omega) (.inl h)
  · simp
  · have hle : b * (n + 1) ≤ b * m := Nat.mul_le_mul_left b h
    rw [Nat.mul_add] at hle
    exact iff_of_false (by omega) (by omega)

theorem ofDigits_lt_iff_ascends_getLast {b : ℕ} (hb : 1 < b) {xs ys : List ℕ}
    (h : xs.length = ys.length) (hxs : ∀ x ∈ xs, x < b) (hys : ∀ y ∈ ys, y < b) :
    Nat.ofDigits b xs < Nat.ofDigits b ys ↔ Ascends (differences xs ys).getLast? := by
  induction xs, ys, h using sameLength_induction with
  | nil => simp [differences, Ascends]
  | cons x xs y ys hlength ih =>
    rw [List.forall_mem_cons] at hxs hys
    have heq : Nat.ofDigits b xs = Nat.ofDigits b ys ↔ differences xs ys = [] := by
      rw [differences_eq_nil_iff hlength]
      exact ⟨Nat.ofDigits_inj_of_len_eq hb hlength hxs.2 hys.2, fun hlists => by rw [hlists]⟩
    rw [Nat.ofDigits_cons, Nat.ofDigits_cons,
      add_mul_lt_add_mul_iff hxs.1 hys.1, ih hxs.2 hys.2, heq, differences_cons]
    cases hd : differences xs ys with
    | nil => by_cases hxy : x = y <;> simp [Ascends, hxy]
    | cons p d => by_cases hxy : x = y <;> simp [hxy, List.getLast?_cons]

/-- Two differences that ascend or descend alike, or none of either. -/
def OrderedAlike {α : Type} [LT α] : Option (α × α) → Option (α × α) → Prop
  | none, none => True
  | some p, some q => p.1 < p.2 ↔ q.1 < q.2
  | _, _ => False

theorem not_ascends_none {α : Type} [LinearOrder α] : ¬ Ascends (none : Option (α × α)) := by
  rintro ⟨d, hd, -⟩
  cases hd

theorem ascends_or_ascends_swap {α : Type} [LinearOrder α] {d : α × α} (hd : d.1 ≠ d.2) :
    Ascends (some d) ∨ Ascends (some d.swap) :=
  (lt_or_gt_of_ne hd).imp (fun h => ⟨d, rfl, h⟩) fun h => ⟨d.swap, rfl, h⟩

theorem orderedAlike_iff {α : Type} [LinearOrder α] {p q : Option (α × α)}
    (hp : ∀ d ∈ p, d.1 ≠ d.2) (hq : ∀ d ∈ q, d.1 ≠ d.2) : OrderedAlike p q ↔
      (Ascends p ↔ Ascends q) ∧ (Ascends (p.map Prod.swap) ↔ Ascends (q.map Prod.swap)) := by
  have hswap {d : α × α} (hd : d.1 ≠ d.2) : d.2 < d.1 ↔ ¬ d.1 < d.2 :=
    ⟨fun h => h.not_gt, fun h => lt_of_le_of_ne (not_lt.mp h) hd.symm⟩
  cases p with
  | none =>
    cases q with
    | none => simp [OrderedAlike]
    | some e =>
      refine iff_of_false id fun ⟨hlt, hgt⟩ => ?_
      exact (ascends_or_ascends_swap (hq e rfl)).elim (not_ascends_none ∘ hlt.mpr)
        (not_ascends_none ∘ hgt.mpr)
  | some d =>
    cases q with
    | none =>
      refine iff_of_false id fun ⟨hlt, hgt⟩ => ?_
      exact (ascends_or_ascends_swap (hp d rfl)).elim (not_ascends_none ∘ hlt.mp)
        (not_ascends_none ∘ hgt.mp)
    | some e =>
      simp only [OrderedAlike, Ascends, Option.map_some, Option.mem_some_iff, exists_eq_left',
        Prod.fst_swap, Prod.snd_swap, hswap (hp d rfl), hswap (hq e rfl)]
      exact ⟨fun h => ⟨h, not_congr h⟩, fun h => h.1⟩

/-- Numbers are compared like the lexicographic order of other lists exactly when the last
difference of their digits is ordered like the first difference of those lists. -/
theorem comparisons_ofDigits_eq_iff {b : ℕ} (hb : 1 < b) {xs ys us vs : List ℕ}
    (h : xs.length = ys.length) (h' : us.length = vs.length) (hus : ∀ u ∈ us, u < b)
    (hvs : ∀ v ∈ vs, v < b) :
    Comparisons.of (Nat.ofDigits b us) (Nat.ofDigits b vs) = Comparisons.of xs ys ↔
      OrderedAlike (differences xs ys).head? (differences us vs).getLast? := by
  have hdiffer {zs ws : List ℕ} : ∀ d ∈ differences zs ws, d.1 ≠ d.2 := fun d hd => by
    simpa using List.of_mem_filter hd
  rw [Comparisons.of_eq_of_iff, orderedAlike_iff
    (fun d hd => hdiffer d (List.mem_of_mem_head? hd))
    (fun d hd => hdiffer d (List.mem_of_getLast? hd)), ← List.head?_map, ← List.getLast?_map,
    ← differences_swap, ← differences_swap, lt_iff_ascends_head h, lt_iff_ascends_head h.symm,
    ofDigits_lt_iff_ascends_getLast hb h' hus hvs,
    ofDigits_lt_iff_ascends_getLast hb h'.symm hvs hus]
  exact and_congr Iff.comm Iff.comm

end Virt86
