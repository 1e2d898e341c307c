import Mathlib.Data.Set.Basic
import Mathlib.Order.Interval.Set.Defs

/-!
# Partial maps built from layers

A layer assigns values to some keys. In a list of layers the last one that is defined at a
key decides its value. Appending a layer overwrites its keys; replacing every layer by pieces
that forget a set of keys erases that set from the whole map, whatever the layers overlap.
-/

namespace Virt86.LayeredMaps

variable {ι α β : Type*}

open Classical in
/-- The map that agrees with `f` on `S` and with `m` elsewhere. -/
noncomputable def overwrite (m : α → Option β) (S : Set α) (f : α → β) : α → Option β :=
  fun a => if a ∈ S then some (f a) else m a

open Classical in
/-- The map `m` with the keys of `S` removed. -/
noncomputable def erase (m : α → Option β) (S : Set α) : α → Option β :=
  fun a => if a ∈ S then none else m a

theorem overwrite_of_mem (m : α → Option β) {S : Set α} (f : α → β) {a : α} (h : a ∈ S) :
    overwrite m S f a = some (f a) := by simp [overwrite, h]

theorem overwrite_of_notMem (m : α → Option β) {S : Set α} (f : α → β) {a : α} (h : a ∉ S) :
    overwrite m S f a = m a := by simp [overwrite, h]

theorem erase_of_mem (m : α → Option β) {S : Set α} {a : α} (h : a ∈ S) :
    erase m S a = none := by simp [erase, h]

theorem erase_of_notMem (m : α → Option β) {S : Set α} {a : α} (h : a ∉ S) :
    erase m S a = m a := by simp [erase, h]

theorem erase_erase (m : α → Option β) (S : Set α) : erase (erase m S) S = erase m S := by
  funext a
  by_cases h : a ∈ S
  · rw [erase_of_mem _ h, erase_of_mem _ h]
  · rw [erase_of_notMem _ h]

/-- The value the last layer defined at `a` gives to it. -/
def lookup (value : ι → α → Option β) : List ι → α → Option β
  | [], _ => none
  | l :: ls, a => (lookup value ls a).or (value l a)

variable (value : ι → α → Option β)

@[simp] theorem lookup_nil (a : α) : lookup value [] a = none := rfl

@[simp] theorem lookup_cons (l : ι) (ls : List ι) (a : α) :
    lookup value (l :: ls) a = (lookup value ls a).or (value l a) := rfl

theorem lookup_append (ls ls' : List ι) (a : α) :
    lookup value (ls ++ ls') a = (lookup value ls' a).or (lookup value ls a) := by
  induction ls with
  | nil => simp
  | cons l ls ih => rw [List.cons_append, lookup_cons, ih, lookup_cons, Option.or_assoc]

/-- Lookup fails exactly where no layer is defined. -/
theorem lookup_eq_none_iff (ls : List ι) (a : α) :
    lookup value ls a = none ↔ ∀ l ∈ ls, value l a = none := by
  induction ls with
  | nil => simp
  | cons l ls ih => simp [ih, and_comm]

/-- The last layer of the list decides, when it is defined. -/
theorem lookup_append_singleton (ls : List ι) (l : ι) (a : α) :
    lookup value (ls ++ [l]) a = (value l a).or (lookup value ls a) := by
  simp [lookup_append]

/-- Appending a layer that is defined on `S` overwrites `S`. -/
theorem lookup_append_eq_overwrite (ls : List ι) (l : ι) (S : Set α) (f : α → β)
    (hin : ∀ a ∈ S, value l a = some (f a)) (hout : ∀ a ∉ S, value l a = none) :
    lookup value (ls ++ [l]) = overwrite (lookup value ls) S f := by
  funext a
  rw [lookup_append_singleton]
  by_cases h : a ∈ S
  · rw [hin a h, overwrite_of_mem _ _ h, Option.some_or]
  · rw [hout a h, overwrite_of_notMem _ _ h, Option.none_or]

/-- Replacing each layer by pieces that together forget `S`, and nothing else, erases `S`
from the map. The order of the layers survives, so shadowing does too. -/
theorem lookup_flatMap_eq_erase (ls : List ι) (pieces : ι → List ι) (S : Set α)
    (h : ∀ l ∈ ls, lookup value (pieces l) = erase (value l) S) :
    lookup value (ls.flatMap pieces) = erase (lookup value ls) S := by
  induction ls with
  | nil => funext a; by_cases ha : a ∈ S <;> simp [erase, ha]
  | cons l ls ih =>
    have hl := h l (by simp)
    have hls := ih (fun l' hl' => h l' (by simp [hl']))
    funext a
    rw [List.flatMap_cons, lookup_append, hls, hl]
    by_cases ha : a ∈ S
    · simp [erase_of_mem _ ha]
    · simp [erase_of_notMem _ ha]

end Virt86.LayeredMaps
