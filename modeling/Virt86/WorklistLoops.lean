import Mathlib.Data.Nat.Notation
import Mathlib.Tactic.Common

/-!
# Loops that rewrite the list they walk over

A visit replaces an item by what the iterator leaves behind it and by what it still has to visit
in the item's place. Such a loop ends when whatever is left to visit is left alone on the second
visit, and it never ends once an item keeps leaving an item of its kind to visit.
-/

namespace Virt86.WorklistLoops

variable {α : Type} {visit : α → List α × List α}

/-- The loop from the iterator on; `none` when the fuel runs out. -/
def loop (visit : α → List α × List α) : ℕ → List α → Option (List α)
  | _, [] => some []
  | 0, _ :: _ => none
  | fuel + 1, a :: rest => (loop visit fuel ((visit a).2 ++ rest)).map ((visit a).1 ++ ·)

/-- Everything a visit makes of an item, in list order. -/
def pieces (visit : α → List α × List α) (a : α) : List α := (visit a).1 ++ (visit a).2

theorem loop_succ {fuel : ℕ} {todo result : List α} (h : loop visit fuel todo = some result) :
    loop visit (fuel + 1) todo = some result := by
  induction fuel generalizing todo result with
  | zero =>
    cases todo with
    | nil => exact h
    | cons a rest => simp [loop] at h
  | succ fuel ih =>
    cases todo with
    | nil => exact h
    | cons a rest =>
      simp only [loop, Option.map_eq_some_iff] at h ⊢
      obtain ⟨tail, htail, rfl⟩ := h
      exact ⟨tail, ih htail, rfl⟩

/-- What every item has, and every piece of an item that has it, what is left has too. -/
theorem loop_invariant {P : α → Prop} (hP : ∀ a, P a → ∀ b ∈ pieces visit a, P b) {fuel : ℕ}
    {todo result : List α} (hloop : loop visit fuel todo = some result) (h : ∀ a ∈ todo, P a) :
    ∀ b ∈ result, P b := by
  induction fuel generalizing todo result with
  | zero =>
    cases todo with
    | nil =>
      obtain rfl : [] = result := Option.some.inj hloop
      simp
    | cons a rest => simp [loop] at hloop
  | succ fuel ih =>
    cases todo with
    | nil =>
      obtain rfl : [] = result := Option.some.inj hloop
      simp
    | cons a rest =>
      simp only [loop, Option.map_eq_some_iff] at hloop
      obtain ⟨tail, htail, rfl⟩ := hloop
      have hpieces := hP a (h a (by simp))
      intro b hb
      rcases List.mem_append.mp hb with hvisited | hlater
      · exact hpieces b (List.mem_append_left _ hvisited)
      · refine ih htail (fun a' ha' => ?_) b hlater
        rcases List.mem_append.mp ha' with hagain | hrest
        · exact hpieces a' (List.mem_append_right _ hagain)
        · exact h a' (by simp [hrest])

/-- An item whose visit leaves at most one item to visit, which is then left alone. -/
def Settles (visit : α → List α × List α) (a : α) : Prop :=
  (visit a).2 = [] ∨ ∃ b, (visit a).2 = [b] ∧ visit b = ([b], [])

/-- Over items that settle, two visits for each item are enough. -/
theorem loop_of_settles (todo : List α) (h : ∀ a ∈ todo, Settles visit a) :
    loop visit (2 * todo.length) todo = some (todo.flatMap (pieces visit)) := by
  induction todo with
  | nil => rfl
  | cons a rest ih =>
    have hrest := ih (fun b hb => h b (List.mem_cons_of_mem _ hb))
    have hfuel : 2 * (a :: rest).length = 2 * rest.length + 1 + 1 := by
      simp only [List.length_cons]
      omega
    rw [hfuel, List.flatMap_cons, loop]
    obtain hnone | ⟨b, hone, hb⟩ := h a List.mem_cons_self
    · simp only [hnone, pieces, List.nil_append, List.append_nil, loop_succ hrest,
        Option.map_some]
    · simp only [hone, pieces, List.singleton_append]
      rw [loop]
      simp [hb, hrest]

/-- An item that leaves an item of its kind to visit keeps the loop from ending. -/
theorem loop_eq_none {P : α → Prop} (hP : ∀ a, P a → ∃ b ∈ (visit a).2, P b) (fuel : ℕ)
    {todo : List α} {a : α} (hmem : a ∈ todo) (ha : P a) : loop visit fuel todo = none := by
  induction fuel generalizing todo a with
  | zero =>
    cases todo with
    | nil => exact absurd hmem List.not_mem_nil
    | cons c rest => rfl
  | succ fuel ih =>
    cases todo with
    | nil => exact absurd hmem List.not_mem_nil
    | cons c rest =>
      have hnext : ∃ b ∈ (visit c).2 ++ rest, P b := by
        rcases List.mem_cons.mp hmem with rfl | hrest
        · obtain ⟨b, hb, hPb⟩ := hP a ha
          exact ⟨b, List.mem_append_left _ hb, hPb⟩
        · exact ⟨a, List.mem_append_right _ hrest, ha⟩
      obtain ⟨b, hb, hPb⟩ := hnext
      rw [loop, ih hb hPb]
      rfl

end Virt86.WorklistLoops
