import Mathlib.Data.List.Count
import Mathlib.Data.List.Induction
import Mathlib.Data.Nat.Notation

/-!
# Places in runs of equal keys

The place of an element is the number of elements with its key directly in front of it. Among
elements that are grouped by their keys it is the number of all earlier elements with the key.
-/

namespace Virt86

namespace RunPlaces

variable {α β : Type} [DecidableEq α]

/-- The place that `a` has when it comes next. -/
def place (before : List α) (a : α) : ℕ := (before.reverse.takeWhile fun b => b = a).length

@[simp] theorem place_nil (a : α) : place [] a = 0 := rfl

theorem place_concat (before : List α) (b a : α) :
    place (before ++ [b]) a = if b = a then place before a + 1 else 0 := by
  rw [place, List.reverse_append, List.reverse_singleton, List.singleton_append,
    List.takeWhile_cons]
  by_cases h : b = a
  · simp [h, place]
  · simp [h]

/-- An element in front of all others counts only for its own key. -/
theorem place_cons_of_ne {first a : α} (h : first ≠ a) (before : List α) :
    place (first :: before) a = place before a := by
  induction before using List.reverseRecOn with
  | nil =>
    rw [← List.nil_append [first], place_concat, if_neg h, place_nil]
  | append_singleton before b ih =>
    rw [← List.cons_append, place_concat, place_concat, ih]

/-- Elements with their places, behind a list of keys. -/
def withPlaces (key : β → α) : List α → List β → List (β × ℕ)
  | _, [] => []
  | before, x :: xs => (x, place before (key x)) :: withPlaces key (before ++ [key x]) xs

variable {key : β → α}

theorem withPlaces_append (before : List α) (xs ys : List β) :
    withPlaces key before (xs ++ ys) =
      withPlaces key before xs ++ withPlaces key (before ++ xs.map key) ys := by
  induction xs generalizing before with
  | nil => simp [withPlaces]
  | cons x xs ih => simp [withPlaces, ih]

theorem withPlaces_map {γ : Type} (f : γ → β) (before : List α) (xs : List γ) :
    withPlaces key before (xs.map f) =
      (withPlaces (fun x => key (f x)) before xs).map fun x => (f x.1, x.2) := by
  induction xs generalizing before with
  | nil => rfl
  | cons x xs ih => simp [withPlaces, ih]

theorem map_fst_withPlaces (before : List α) (xs : List β) :
    (withPlaces key before xs).map Prod.fst = xs := by
  induction xs generalizing before with
  | nil => rfl
  | cons x xs ih => simp [withPlaces, ih]

/-- A map that takes a place into account changes nothing if and only if it changes no element. -/
theorem map_withPlaces_eq_iff (before : List α) (xs : List β) (g : β × ℕ → β) :
    (withPlaces key before xs).map g = xs ↔ ∀ x ∈ withPlaces key before xs, g x = x.1 := by
  rw [← List.map_inj_left, map_fst_withPlaces]

theorem length_withPlaces (before : List α) (xs : List β) :
    (withPlaces key before xs).length = xs.length := by
  induction xs generalizing before with
  | nil => rfl
  | cons x xs ih => simp [withPlaces, ih]

/-- The last element with a key and a place that has the property. -/
def lastAt (key : β → α) (before : List α) (xs : List β) (a : α) (P : ℕ → Bool) : Option β :=
  ((withPlaces key before xs).reverse.find? fun x => key x.1 = a ∧ P x.2).map Prod.fst

theorem lastAt_cons (before : List α) (x : β) (xs : List β) (a : α) (P : ℕ → Bool) :
    lastAt key before (x :: xs) a P =
      (lastAt key (before ++ [key x]) xs a P).or
        (if key x = a ∧ P (place before a) then some x else none) := by
  rw [lastAt, withPlaces, List.reverse_cons, List.find?_append, Option.map_or]
  by_cases h : key x = a
  · subst h
    by_cases hP : P (place before (key x)) = true
    · simp [hP, lastAt]
    · simp [hP, lastAt]
  · simp [h, lastAt]

theorem lastAt_concat (before : List α) (xs : List β) (x : β) (a : α) (P : ℕ → Bool) :
    lastAt key before (xs ++ [x]) a P =
      if key x = a ∧ P (place (before ++ xs.map key) a) then some x
      else lastAt key before xs a P := by
  rw [lastAt, withPlaces_append, List.reverse_append, withPlaces, withPlaces,
    List.reverse_singleton, List.singleton_append, List.find?_cons]
  by_cases h : key x = a
  · subst h
    by_cases hP : P (place (before ++ xs.map key) (key x)) = true
    · simp [hP]
    · simp [hP, lastAt]
  · simp [h, lastAt]

/-! ## Grouped keys -/

/-- Equal elements stand together. -/
def Grouped (l : List α) : Prop :=
  ∀ before between after a, l = before ++ a :: (between ++ a :: after) → ∀ b ∈ between, b = a

omit [DecidableEq α] in
theorem Grouped.left {l l' : List α} (h : Grouped (l ++ l')) : Grouped l := by
  rintro before between after a rfl
  exact h before between (after ++ l') a (by simp)

/-- In a grouped list the place is the number of all earlier occurrences. -/
theorem Grouped.place_eq_count {before after : List α} {a : α}
    (h : Grouped (before ++ a :: after)) : place before a = before.count a := by
  induction before using List.reverseRecOn generalizing after with
  | nil => simp
  | append_singleton before b ih =>
    rw [place_concat, List.count_append, List.count_singleton]
    by_cases hb : b = a
    · subst hb
      rw [ih (by simpa using h)]
      simp
    · have hnone : before.count a = 0 := by
        rw [List.count_eq_zero]
        intro ha
        obtain ⟨front, rest, rfl⟩ := List.append_of_mem ha
        exact hb (h front (rest ++ [b]) after a (by simp) b (by simp))
      simp [hb, hnone]

/-- Among grouped elements the one at a place is the one with that many of its key before it. -/
theorem lastAt_eq_getElem? {first a : α} {xs : List β} {P : ℕ → Bool} {p : ℕ} (hfirst : first ≠ a)
    (hgrouped : Grouped (xs.map key)) (hP : ∀ n < xs.length, P n = true ↔ n = p) :
    lastAt key [first] xs a P = (xs.filter fun x => key x = a)[p]? := by
  induction xs using List.reverseRecOn with
  | nil => rfl
  | append_singleton xs x ih =>
    rw [List.map_append] at hgrouped
    have hrest := ih hgrouped.left fun n hn => hP n (by simp; omega)
    rw [lastAt_concat, List.singleton_append, place_cons_of_ne hfirst, List.filter_append]
    by_cases hx : key x = a
    · subst hx
      have hcount : place (xs.map key) (key x) = (xs.filter fun y => key y = key x).length := by
        rw [hgrouped.place_eq_count, List.count, List.countP_map, List.countP_eq_length_filter]
        rfl
      have hle : (xs.filter fun y => key y = key x).length ≤ xs.length :=
        List.length_filter_le _ _
      have hplace := hP _ (by rw [List.length_append, List.length_singleton]; omega :
        (xs.filter fun y => key y = key x).length < (xs ++ [x]).length)
      rw [hcount, hrest]
      by_cases hp : (xs.filter fun y => key y = key x).length = p
      · rw [if_pos ⟨rfl, hplace.mpr hp⟩, ← hp]
        simp
      · rw [if_neg fun h => hp (hplace.mp h.2)]
        simp only [decide_true, List.filter_cons_of_pos, List.filter_nil]
        rcases Nat.lt_or_gt_of_ne hp with hlt | hgt
        · rw [List.getElem?_eq_none (Nat.le_of_lt hlt), List.getElem?_eq_none (by simp; omega)]
        · rw [List.getElem?_append_left hgt]
    · simp [hx, hrest]

end RunPlaces

end Virt86
