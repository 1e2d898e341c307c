import Mathlib.Data.Set.Defs
import Mathlib.Logic.Function.Basic

/-!
# Write-back caches with one stale flag and one changed flag per file

An owner holds a family of files `F i`. A client keeps a copy of all of them, fetches the copy
when it is stale, edits the copy and raises the changed flag of the edited file, and hands the
changed files back before the owner uses its files. The client refines direct access to the
owner's files as long as the flags tell the truth, which is the relation `Agrees`.
-/

namespace Virt86

/-- The owner's files, the client's copy of them and the client's flags. -/
structure WriteBack {ι : Type} (F : ι → Type) where
  backing : ∀ i, F i
  copy : ∀ i, F i
  stale : Bool
  changed : ι → Bool

namespace WriteBack

variable {ι : Type} {F : ι → Type}

@[ext] theorem ext {c c' : WriteBack F} (hbacking : ∀ i, c.backing i = c'.backing i)
    (hcopy : ∀ i, c.copy i = c'.copy i) (hstale : c.stale = c'.stale)
    (hchanged : ∀ i, c.changed i = c'.changed i) : c = c' := by
  cases c
  cases c'
  simp only [mk.injEq]
  exact ⟨funext hbacking, funext hcopy, hstale, funext hchanged⟩

/-- Fetches the files if the copy is stale. -/
def refresh (c : WriteBack F) : WriteBack F :=
  if c.stale then { c with copy := c.backing, stale := false } else c

/-- Hands the changed files back. -/
def flush (c : WriteBack F) : WriteBack F :=
  { c with
    backing := fun i => if c.changed i then c.copy i else c.backing i
    changed := fun _ => false }

/-- Edits a file of the copy without telling anyone. -/
def poke [DecidableEq ι] (c : WriteBack F) (i : ι) (edit : F i → F i) : WriteBack F :=
  { c with copy := Function.update c.copy i (edit (c.copy i)) }

/-- Edits a file of the copy and raises its changed flag. -/
def modify [DecidableEq ι] (c : WriteBack F) (i : ι) (edit : F i → F i) : WriteBack F :=
  { c.poke i edit with changed := Function.update c.changed i true }

/-- The owner's file is edited behind the client's back. -/
def editBacking [DecidableEq ι] (c : WriteBack F) (i : ι) (edit : F i → F i) : WriteBack F :=
  { c with backing := Function.update c.backing i (edit (c.backing i)) }

@[simp] theorem stale_refresh (c : WriteBack F) : c.refresh.stale = false := by
  cases h : c.stale <;> simp [refresh, h]

@[simp] theorem backing_refresh (c : WriteBack F) : c.refresh.backing = c.backing := by
  cases h : c.stale <;> simp [refresh, h]

@[simp] theorem changed_refresh (c : WriteBack F) : c.refresh.changed = c.changed := by
  cases h : c.stale <;> simp [refresh, h]

theorem refresh_of_not_stale {c : WriteBack F} (h : c.stale = false) : c.refresh = c := by
  simp [refresh, h]

/-! ## The file at the next flush -/

/-- What the owner's file is going to be at the next flush. -/
def pending (c : WriteBack F) (i : ι) : F i := c.flush.backing i

theorem pending_of_changed {c : WriteBack F} {i : ι} (h : c.changed i = true) :
    c.pending i = c.copy i := by
  simp [pending, flush, h]

theorem pending_of_unchanged {c : WriteBack F} {i : ι} (h : c.changed i = false) :
    c.pending i = c.backing i := by
  simp [pending, flush, h]

/-- Fetching loses no changes of a copy that is not both stale and changed. -/
theorem pending_refresh {c : WriteBack F} {i : ι} (h : c.stale = true → c.changed i = false) :
    c.refresh.pending i = c.pending i := by
  cases hstale : c.stale with
  | false => rw [refresh_of_not_stale hstale]
  | true =>
    rw [pending_of_unchanged (h hstale), pending_of_unchanged (by simp [h hstale]),
      backing_refresh]

section Edits

variable [DecidableEq ι]

theorem pending_modify (c : WriteBack F) (i : ι) (edit : F i → F i) :
    (c.modify i edit).pending i = edit (c.copy i) := by
  simp [pending, flush, modify, poke]

theorem pending_modify_of_ne (c : WriteBack F) {i j : ι} (h : j ≠ i) (edit : F i → F i) :
    (c.modify i edit).pending j = c.pending j := by
  simp [pending, flush, modify, poke, h]

theorem pending_editBacking (c : WriteBack F) (i : ι) (edit : F i → F i) :
    (c.editBacking i edit).pending i =
      if c.changed i then c.copy i else edit (c.backing i) := by
  simp [pending, flush, editBacking]

end Edits

/-! ## Agreement with direct access -/

/-- The files handed back at the next flush are `u`, a copy that is not stale holds the files of
`u` on `A`, and a stale copy has no changes left. -/
structure Agrees (A : Set ι) (c : WriteBack F) (u : ∀ i, F i) : Prop where
  flushed : c.flush.backing = u
  copied : c.stale = false → ∀ i ∈ A, c.copy i = u i
  clean : c.stale = true → ∀ i, c.changed i = false

namespace Agrees

variable {A : Set ι} {c : WriteBack F} {u : ∀ i, F i}

/-- A stale copy without changes agrees with the files themselves. -/
theorem of_stale (hstale : c.stale = true) (hclean : ∀ i, c.changed i = false) :
    Agrees A c c.backing where
  flushed := by
    funext i
    simp only [flush, hclean i, Bool.false_eq_true, if_false]
  copied h := by simp [hstale] at h
  clean _ := hclean

/-- A copy without changes agrees with the files wherever it holds them. -/
theorem of_unchanged (hclean : ∀ i, c.changed i = false)
    (hcopy : ∀ i ∈ A, c.copy i = c.backing i) : Agrees A c c.backing where
  flushed := by
    funext i
    simp only [flush, hclean i, Bool.false_eq_true, if_false]
  copied _ := hcopy
  clean _ := hclean

theorem refresh (h : Agrees A c u) : Agrees A c.refresh u := by
  cases hstale : c.stale with
  | false => rwa [refresh_of_not_stale hstale]
  | true =>
    have hclean := h.clean hstale
    have hbacking : c.backing = u := by
      rw [← h.flushed]
      funext i
      simp only [flush, hclean i, Bool.false_eq_true, if_false]
    refine ⟨?_, ?_, ?_⟩
    · rw [← h.flushed]
      funext i
      simp only [flush, backing_refresh, changed_refresh, hclean i, Bool.false_eq_true, if_false]
    · intro _ i _
      simp only [WriteBack.refresh, hstale, if_true, hbacking]
    · intro hs
      simp at hs

theorem modify [DecidableEq ι] (h : Agrees A c u) (hstale : c.stale = false) {i : ι} (hi : i ∈ A)
    (edit : F i → F i) : Agrees A (c.modify i edit) (Function.update u i (edit (u i))) where
  flushed := by
    funext j
    by_cases hj : j = i
    · subst hj
      simp only [flush, WriteBack.modify, poke, Function.update_self, if_true,
        h.copied hstale j hi]
    · simp only [flush, WriteBack.modify, poke, Function.update_of_ne hj]
      exact congrFun h.flushed j
  copied _ j hj := by
    by_cases hji : j = i
    · subst hji
      simp only [WriteBack.modify, poke, Function.update_self, h.copied hstale j hj]
    · simp only [WriteBack.modify, poke, Function.update_of_ne hji, h.copied hstale j hj]
  clean hs := by
    simp only [WriteBack.modify, poke, hstale, Bool.false_eq_true] at hs

end Agrees

/-! ## Writes -/

/-- A write to one file. -/
structure FileWrite (F : ι → Type) where
  file : ι
  edit : F file → F file

section Writes

variable [DecidableEq ι]

def applyWrites (c : WriteBack F) (ws : List (FileWrite F)) : WriteBack F :=
  ws.foldl (fun c w => c.modify w.file w.edit) c

/-- The same writes to the owner's files themselves. -/
def directWrites (u : ∀ i, F i) (ws : List (FileWrite F)) : ∀ i, F i :=
  ws.foldl (fun u w => Function.update u w.file (w.edit (u w.file))) u

variable {c : WriteBack F} {u : ∀ i, F i}

theorem directWrites_append (u : ∀ i, F i) (ws more : List (FileWrite F)) :
    directWrites u (ws ++ more) = directWrites (directWrites u ws) more := List.foldl_append

@[simp] theorem backing_applyWrites (c : WriteBack F) (ws : List (FileWrite F)) :
    (c.applyWrites ws).backing = c.backing := by
  induction ws generalizing c with
  | nil => rfl
  | cons w ws ih => exact ih (c.modify w.file w.edit)

@[simp] theorem stale_applyWrites (c : WriteBack F) (ws : List (FileWrite F)) :
    (c.applyWrites ws).stale = c.stale := by
  induction ws generalizing c with
  | nil => rfl
  | cons w ws ih => exact ih (c.modify w.file w.edit)

/-- Writes raise the flags of their files and lower none. -/
theorem changed_applyWrites {ws : List (FileWrite F)} {i : ι} :
    (c.applyWrites ws).changed i = true ↔ c.changed i = true ∨ ∃ w ∈ ws, w.file = i := by
  induction ws generalizing c with
  | nil => simp [applyWrites]
  | cons w ws ih =>
    rw [applyWrites, List.foldl_cons, ← applyWrites, ih]
    simp only [WriteBack.modify, Function.update_apply, List.mem_cons, exists_eq_or_imp]
    by_cases hi : i = w.file
    · simp [hi]
    · simp [hi, Ne.symm hi]

/-- Writes to a fresh copy are writes to the owner's files. -/
theorem Agrees.applyWrites (h : Agrees Set.univ c u) (hfresh : c.stale = false)
    (ws : List (FileWrite F)) :
    Agrees Set.univ (c.applyWrites ws) (directWrites u ws) := by
  induction ws generalizing c u with
  | nil => exact h
  | cons w ws ih => exact ih (h.modify hfresh trivial w.edit) hfresh

end Writes

/-! ## Changes on their way to the owner -/

/-- The files taken from the copy on `S` and from the owner elsewhere. -/
def mix (c : WriteBack F) (S : ι → Bool) : ∀ i, F i :=
  fun i => if S i then c.copy i else c.backing i

variable [DecidableEq ι]

theorem mix_poke_of_mem (c : WriteBack F) {S : ι → Bool} {i : ι} (hi : S i = true)
    (edit : F i → F i) :
    (c.poke i edit).mix S = Function.update (c.mix S) i (edit (c.mix S i)) := by
  funext j
  by_cases hj : j = i
  · subst hj
    simp only [mix, poke, Function.update_self, hi, if_true]
  · simp only [mix, poke, Function.update_of_ne hj]

theorem mix_poke_of_not_mem (c : WriteBack F) {S : ι → Bool} {i : ι} (hi : S i = false)
    (edit : F i → F i) : (c.poke i edit).mix S = c.mix S := by
  funext j
  by_cases hj : j = i
  · subst hj
    simp only [mix, hi, Bool.false_eq_true, if_false]
    rfl
  · simp only [mix, poke, Function.update_of_ne hj]

/-- Two values that differ still differ after one of two edits, when the second edit keeps a part
that, with the result of the first edit, determines the value. -/
theorem edit_ne_or_edit_ne {α β : Type} {p : α → β} {e f : α → α} (hf : ∀ x, p (f x) = p x)
    (he : ∀ x y, p x = p y → e x = e y → x = y) {x y : α} (h : x ≠ y) : e x ≠ e y ∨ f x ≠ f y := by
  by_cases hp : p x = p y
  · exact Or.inl fun heq => h (he x y hp heq)
  · refine Or.inr fun heq => hp ?_
    rw [← hf x, ← hf y, heq]

end WriteBack

end Virt86
