import Virt86.WriteBackCaches

/-!
# Ledgers of the writes that an owner was not given yet

A ledger beside a write-back cache keeps, for each file, the contents that the client's writes call
for as long as the owner was not handed them. Writes are entered, hand-overs are struck out, and
the ledger never looks at the flags. As long as a stale copy has no changes, the flags and the copy
keep up with the ledger, whatever fetches and hand-overs stop halfway.
-/

namespace Virt86

namespace WriteBack

variable {ι : Type} {F : ι → Type}

/-- The contents that are due to the owner. -/
abbrev Ledger (F : ι → Type) := (i : ι) → Option (F i)

/-- Files with something due are marked as changed and the copy holds what is due. A stale copy has
no changes. -/
structure Accounted (c : WriteBack F) (ledger : Ledger F) : Prop where
  due : ∀ i x, ledger i = some x → c.changed i = true ∧ c.copy i = x
  clean : c.stale = true → ∀ i, c.changed i = false

variable {c c' : WriteBack F} {ledger : Ledger F}

theorem Accounted.empty (hclean : c.stale = true → ∀ i, c.changed i = false) :
    Accounted c fun _ => none where
  due _ _ hdue := by cases hdue
  clean := hclean

theorem Accounted.ledger_eq_none (h : Accounted c ledger) (hclean : ∀ i, c.changed i = false)
    (i : ι) : ledger i = none := by
  cases hdue : ledger i with
  | none => rfl
  | some x =>
    have hchanged := (h.due i x hdue).1
    rw [hclean i] at hchanged
    cases hchanged

/-- What the owner does with its files does not matter. -/
theorem Accounted.congr (h : Accounted c ledger) (hcopy : c'.copy = c.copy)
    (hstale : c'.stale = c.stale) (hchanged : c'.changed = c.changed) : Accounted c' ledger where
  due := by
    rw [hcopy, hchanged]
    exact h.due
  clean := by
    rw [hstale, hchanged]
    exact h.clean

/-- Without changes nothing is due, and the copy may become anything. -/
theorem Accounted.of_unchanged (h : Accounted c ledger) (hclean : ∀ i, c.changed i = false)
    (hchanged : c'.changed = c.changed) : Accounted c' ledger where
  due i x hdue := by
    rw [h.ledger_eq_none hclean i] at hdue
    cases hdue
  clean _ i := by
    rw [hchanged]
    exact hclean i

/-- Whatever a fetch of a stale copy gets done, it overwrites no file with something due. -/
theorem Accounted.fetched (h : Accounted c ledger) (hstale : c.stale = true)
    (hchanged : c'.changed = c.changed) : Accounted c' ledger :=
  h.of_unchanged (h.clean hstale) hchanged

/-! ## Entries -/

section Entries

variable [DecidableEq ι]

/-- A write goes on top of what is due, or of the file as it was found. -/
def Ledger.note (found : ∀ i, F i) (ledger : Ledger F) (w : FileWrite F) : Ledger F :=
  Function.update ledger w.file (some (w.edit ((ledger w.file).getD (found w.file))))

/-- The copy after some writes: what is due where something is, and what was found elsewhere. -/
def Follows (found : ∀ i, F i) (c : WriteBack F) (ledger : Ledger F) : Prop :=
  ∀ i, (∀ x, ledger i = some x → c.changed i = true ∧ c.copy i = x) ∧
    (ledger i = none → c.copy i = found i)

theorem Follows.modify {found : ∀ i, F i} (h : Follows found c ledger) (w : FileWrite F) :
    Follows found (c.modify w.file w.edit) (ledger.note found w) := by
  intro j
  simp only [WriteBack.modify, poke, Ledger.note]
  by_cases hj : j = w.file
  · subst hj
    simp only [Function.update_self]
    refine ⟨fun x hx => ⟨trivial, ?_⟩, fun hnone => by cases hnone⟩
    rw [← Option.some.inj hx]
    cases hdue : ledger w.file with
    | none => rw [(h w.file).2 hdue, Option.getD_none]
    | some y => rw [((h w.file).1 y hdue).2, Option.getD_some]
  · simp only [Function.update_of_ne hj]
    exact h j

theorem Follows.applyWrites {found : ∀ i, F i} {ws : List (FileWrite F)}
    (h : Follows found c ledger) :
    Follows found (c.applyWrites ws) (ws.foldl (Ledger.note found) ledger) := by
  induction ws generalizing c ledger with
  | nil => exact h
  | cons w ws ih => exact ih (h.modify w)

/-- Writes to a fresh copy are entered one after the other. -/
theorem Accounted.writes (h : Accounted c ledger) (hfresh : c.stale = false)
    (ws : List (FileWrite F)) :
    Accounted (c.applyWrites ws) (ws.foldl (Ledger.note c.copy) ledger) := by
  have hfollows : Follows c.copy c ledger := fun i => ⟨h.due i, fun _ => rfl⟩
  refine ⟨fun i => (hfollows.applyWrites i).1, fun hstale => ?_⟩
  rw [stale_applyWrites, hfresh] at hstale
  cases hstale

end Entries

/-! ## Hand-overs -/

section HandOvers

variable [DecidableEq ι]

def Ledger.strike (ledger : Ledger F) (handed : List ι) : Ledger F :=
  fun i => if i ∈ handed then none else ledger i

theorem Ledger.strike_nil (ledger : Ledger F) : ledger.strike [] = ledger := by
  funext i
  exact if_neg List.not_mem_nil

theorem Ledger.strike_cons (ledger : Ledger F) (i : ι) (handed : List ι) :
    ledger.strike (i :: handed) = (ledger.strike [i]).strike handed := by
  funext j
  by_cases hj : j ∈ handed
  · simp [strike, hj]
  · simp [strike, hj]

/-- Hands one file over. -/
def store (c : WriteBack F) (i : ι) : WriteBack F :=
  { c with
    backing := Function.update c.backing i (c.copy i)
    changed := Function.update c.changed i false }

theorem Accounted.store (h : Accounted c ledger) {i : ι} (hchanged : c.changed i = true) :
    Accounted (c.store i) (ledger.strike [i]) where
  due j x hdue := by
    by_cases hj : j = i
    · simp [Ledger.strike, hj] at hdue
    · simp only [Ledger.strike, List.mem_singleton, hj, if_false] at hdue
      simp only [WriteBack.store, Function.update_of_ne hj]
      exact h.due j x hdue
  clean hstale := by
    rw [h.clean hstale i] at hchanged
    cases hchanged

end HandOvers

end WriteBack

end Virt86
