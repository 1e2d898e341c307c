import Virt86.LayeredMaps

/-!
# Partial maps whose values carry rights

A value of the map stands beside what may be done with it. The map changes by giving a set of keys
new values, all with the same rights, or by forgetting a set of keys. What the map is without its
rights, or with the rights seen through a function, follows from the changes seen in the same way.
-/

namespace Virt86.RightsMaps

open LayeredMaps

variable {α β ρ ρ' : Type*}

/-- The map without the rights. -/
def host (m : α → Option (β × ρ)) : α → Option β := fun a => (m a).map Prod.fst

/-- The map with its rights seen through a function. -/
def mapRights (f : ρ → ρ') (m : α → Option (β × ρ)) : α → Option (β × ρ') :=
  fun a => (m a).map (Prod.map id f)

inductive Change (α β ρ : Type*) where
  | overwrite (S : Set α) (value : α → β) (rights : ρ)
  | erase (S : Set α)
  | keep

namespace Change

noncomputable def apply (m : α → Option (β × ρ)) : Change α β ρ → α → Option (β × ρ)
  | .overwrite S value rights => LayeredMaps.overwrite m S fun a => (value a, rights)
  | .erase S => LayeredMaps.erase m S
  | .keep => m

/-- The change as it is seen without the rights. -/
noncomputable def applyHost (m : α → Option β) : Change α β ρ → α → Option β
  | .overwrite S value _ => LayeredMaps.overwrite m S value
  | .erase S => LayeredMaps.erase m S
  | .keep => m

def mapRights (f : ρ → ρ') : Change α β ρ → Change α β ρ'
  | .overwrite S value rights => .overwrite S value (f rights)
  | .erase S => .erase S
  | .keep => .keep

end Change

/-- The map after changes in order. -/
noncomputable def replay (m : α → Option (β × ρ)) (changes : List (Change α β ρ)) :
    α → Option (β × ρ) :=
  changes.foldl Change.apply m

variable (m : α → Option (β × ρ))

theorem host_overwrite (S : Set α) (value : α → β) (rights : ρ) :
    host (overwrite m S fun a => (value a, rights)) = overwrite (host m) S value := by
  funext a
  by_cases ha : a ∈ S
  · rw [host, overwrite_of_mem _ _ ha, overwrite_of_mem _ _ ha]
    rfl
  · rw [host, overwrite_of_notMem _ _ ha, overwrite_of_notMem _ _ ha]
    rfl

theorem host_erase (S : Set α) : host (erase m S) = erase (host m) S := by
  funext a
  by_cases ha : a ∈ S
  · rw [host, erase_of_mem _ ha, erase_of_mem _ ha]
    rfl
  · rw [host, erase_of_notMem _ ha, erase_of_notMem _ ha]
    rfl

theorem map_fst_mapRights (f : ρ → ρ') (a : α) :
    (mapRights f m a).map Prod.fst = (m a).map Prod.fst := by
  rw [mapRights, Option.map_map]
  rfl

theorem host_apply (c : Change α β ρ) : host (c.apply m) = c.applyHost (host m) := by
  cases c with
  | overwrite S value rights => exact host_overwrite m S value rights
  | erase S => exact host_erase m S
  | keep => rfl

theorem mapRights_apply (f : ρ → ρ') (c : Change α β ρ) :
    mapRights f (c.apply m) = (c.mapRights f).apply (mapRights f m) := by
  funext a
  cases c with
  | overwrite S value rights =>
    by_cases ha : a ∈ S
    · simp only [mapRights, Change.apply, Change.mapRights, overwrite_of_mem _ _ ha,
        Option.map_some, Prod.map_apply, id_eq]
    · simp only [mapRights, Change.apply, Change.mapRights, overwrite_of_notMem _ _ ha]
  | erase S =>
    by_cases ha : a ∈ S
    · simp only [mapRights, Change.apply, Change.mapRights, erase_of_mem _ ha, Option.map_none]
    · simp only [mapRights, Change.apply, Change.mapRights, erase_of_notMem _ ha]
  | keep => rfl

theorem replay_append (changes : List (Change α β ρ)) (c : Change α β ρ) :
    replay m (changes ++ [c]) = c.apply (replay m changes) := by
  rw [replay, List.foldl_append]
  rfl

/-- Maps whose changes differ in the rights alone differ in the rights alone. -/
theorem mapRights_replay (f : ρ → ρ') (changes : List (Change α β ρ)) :
    mapRights f (replay m changes) =
      replay (mapRights f m) (changes.map (Change.mapRights f)) := by
  induction changes generalizing m with
  | nil => rfl
  | cons c changes ih =>
    rw [List.map_cons, replay, List.foldl_cons, replay, List.foldl_cons, ← mapRights_apply]
    exact ih (c.apply m)

end Virt86.RightsMaps
