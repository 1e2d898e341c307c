import Mathlib.Data.List.Basic
import Mathlib.Data.Nat.Notation

/-!
# Searches that may fail

`List.findSomeM?` looks at one element after the other until one is found. Here a look may fail, and
the search with it.
-/

namespace Virt86

namespace Searches

variable {α β : Type} {look : α → Option (Option β)}

/-- The elements that a search looks at. -/
def examined (look : α → Option (Option β)) : List α → List α
  | [] => []
  | a :: as => a :: (look a).elim [] fun found => found.elim (examined look as) fun _ => []

theorem findSomeM?_append_of_forall {as : List α} (h : ∀ a ∈ as, look a = some none)
    (bs : List α) : (as ++ bs).findSomeM? look = bs.findSomeM? look := by
  induction as with
  | nil => rfl
  | cons a as ih =>
    rw [List.forall_mem_cons] at h
    rw [List.cons_append, List.findSomeM?_cons, h.1]
    exact ih h.2

theorem examined_append_of_forall {as : List α} (h : ∀ a ∈ as, look a = some none)
    (bs : List α) : examined look (as ++ bs) = as ++ examined look bs := by
  induction as with
  | nil => rfl
  | cons a as ih =>
    rw [List.forall_mem_cons] at h
    rw [List.cons_append, examined, h.1, Option.elim_some, Option.elim_none, ih h.2,
      List.cons_append]

/-- Every look that a search comes to succeeds, and what it finds has the property: then the search
succeeds, and what it finds has the property. -/
theorem findSomeM?_induct {P : β → Prop} {as : List α}
    (h : ∀ xs a ys, as = xs ++ a :: ys → (∀ x ∈ xs, look x = some none) →
      ∃ found, look a = some found ∧ ∀ b, found = some b → P b) :
    ∃ found, as.findSomeM? look = some found ∧ ∀ b, found = some b → P b := by
  induction as with
  | nil => exact ⟨none, rfl, fun b hb => by cases hb⟩
  | cons a as ih =>
    obtain ⟨found, hlook, hfound⟩ := h [] a as rfl fun x hx => absurd hx List.not_mem_nil
    rw [List.findSomeM?_cons, hlook]
    cases found with
    | some b => exact ⟨some b, rfl, hfound⟩
    | none =>
      apply ih
      intro xs a' ys has hxs
      exact h (a :: xs) a' ys (congrArg (List.cons a) has) (List.forall_mem_cons.mpr ⟨hlook, hxs⟩)

/-- A search in which no look fails. -/
theorem findSomeM?_eq_findSome? {as : List α} {f : α → Option β}
    (h : ∀ a ∈ as, look a = some (f a)) : as.findSomeM? look = some (as.findSome? f) := by
  induction as with
  | nil => rfl
  | cons a as ih =>
    rw [List.forall_mem_cons] at h
    rw [List.findSomeM?_cons, List.findSome?_cons, h.1]
    cases f a with
    | some b => rfl
    | none => exact ih h.2

/-- A list is searched by way of its places. -/
theorem findSome?_range_length (f : α → Option β) (as : List α) :
    (List.range as.length).findSome? (fun i => as[i]?.bind f) = as.findSome? f := by
  induction as with
  | nil => rfl
  | cons a as ih =>
    rw [List.length_cons, List.range_succ_eq_map, List.findSome?_cons, List.findSome?_cons,
      List.findSome?_map, ← ih]
    rfl

section Range

variable {n i : ℕ} {look : ℕ → Option (Option β)}

theorem range_eq_append_cons_iff {xs ys : List ℕ} : List.range n = xs ++ i :: ys ↔
    i < n ∧ xs = List.range i ∧ ys = List.range' (i + 1) (n - (i + 1)) := by
  rw [List.range_eq_range', List.range'_eq_append_iff]
  constructor
  · rintro ⟨k, hk, rfl, hys⟩
    obtain ⟨rfl, hpos, rfl⟩ := List.range'_eq_cons_iff.mp hys.symm
    simp only [Nat.mul_one, Nat.zero_add] at hpos ⊢
    exact ⟨by omega, (List.range_eq_range').symm, by rw [Nat.sub_sub]⟩
  · rintro ⟨hi, rfl, rfl⟩
    refine ⟨i, Nat.le_of_lt hi, List.range_eq_range', Eq.symm ?_⟩
    apply List.range'_eq_cons_iff.mpr
    exact ⟨by omega, by omega, by simp [Nat.sub_sub]⟩

/-- The search goes up to the first number that it does not pass. -/
theorem findSomeM?_range_of_forall_lt (hi : i < n) (h : ∀ j < i, look j = some none) :
    (List.range n).findSomeM? look =
      (i :: List.range' (i + 1) (n - (i + 1))).findSomeM? look := by
  rw [range_eq_append_cons_iff.mpr ⟨hi, rfl, rfl⟩]
  exact findSomeM?_append_of_forall (fun j hj => h j (List.mem_range.mp hj)) _

/-- A search that passes the first `n` numbers looks at just them when it ends there. -/
theorem examined_range_eq_iff {m : ℕ} (h : ∀ j < n, look j = some none) :
    examined look (List.range m) = List.range n ↔ m = n := by
  have hall : ∀ k ≤ n, ∀ j ∈ List.range k, look j = some none := fun k hk j hj =>
    h j (Nat.lt_of_lt_of_le (List.mem_range.mp hj) hk)
  rcases Nat.lt_or_ge n m with hlt | hle
  · -- one more is looked at
    rw [range_eq_append_cons_iff.mpr ⟨hlt, rfl, rfl⟩,
      examined_append_of_forall (hall n (Nat.le_refl n)), examined]
    apply iff_of_false
    · intro heq
      simpa using congrArg List.length heq
    · exact Nat.ne_of_gt hlt
  · have hend := examined_append_of_forall (hall m hle) []
    rw [List.append_nil, examined, List.append_nil] at hend
    rw [hend]
    constructor
    · intro heq
      simpa using congrArg List.length heq
    · rintro rfl
      rfl

end Range

end Searches

end Virt86
