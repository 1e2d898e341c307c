import Mathlib.Data.Set.Defs
import Mathlib.Tactic.Common

/-!
# Operations performed in order until one fails

An operation returns whether it succeeded. A run performs the operations of a list up to the first
one that fails, which is performed and ends the run.
-/

namespace Virt86.StoppingRuns

variable {S O : Type} {step : S → O → Bool × S}

def run (step : S → O → Bool × S) : S → List O → Bool × S
  | s, [] => (true, s)
  | s, o :: os => if (step s o).1 then run step (step s o).2 os else (false, (step s o).2)

/-- The operations before the first one that fails. -/
def completed (step : S → O → Bool × S) : S → List O → List O
  | _, [] => []
  | s, o :: os => if (step s o).1 then o :: completed step (step s o).2 os else []

/-- An operation of the list fails after all those before it succeeded. -/
def FirstFailure (step : S → O → Bool × S) (s : S) (os before : List O) (o : O) : Prop :=
  (∃ after, os = before ++ o :: after) ∧ (run step s before).1 = true ∧
    (step (run step s before).2 o).1 = false

theorem run_cons_of_true {s : S} {o : O} (h : (step s o).1 = true) (os : List O) :
    run step s (o :: os) = run step (step s o).2 os := by
  rw [run, if_pos h]

theorem run_cons_of_false {s : S} {o : O} (h : (step s o).1 = false) (os : List O) :
    run step s (o :: os) = (false, (step s o).2) := by
  rw [run, if_neg (by simp [h])]

theorem run_append_of_true {s : S} {os : List O} (h : (run step s os).1 = true) (os' : List O) :
    run step s (os ++ os') = run step (run step s os).2 os' := by
  induction os generalizing s with
  | nil => rfl
  | cons o os ih =>
    cases ho : (step s o).1 with
    | true =>
      rw [run_cons_of_true ho] at h ⊢
      rw [List.cons_append, run_cons_of_true ho, ih h]
    | false => simp [run_cons_of_false ho] at h

theorem FirstFailure.run_eq {s : S} {os before : List O} {o : O}
    (h : FirstFailure step s os before o) :
    run step s os = (false, (step (run step s before).2 o).2) := by
  obtain ⟨⟨after, rfl⟩, hbefore, ho⟩ := h
  rw [run_append_of_true hbefore, run_cons_of_false ho]

theorem FirstFailure.completed_eq {s : S} {os before : List O} {o : O}
    (h : FirstFailure step s os before o) : completed step s os = before := by
  obtain ⟨⟨after, rfl⟩, hbefore, ho⟩ := h
  induction before generalizing s with
  | nil =>
    simp only [run] at ho
    simp [completed, ho]
  | cons b before ih =>
    cases hb : (step s b).1 with
    | true =>
      rw [run_cons_of_true hb] at hbefore ho
      rw [List.cons_append, completed, if_pos hb, ih hbefore ho]
    | false => simp [run_cons_of_false hb] at hbefore

theorem run_false_iff {s : S} {os : List O} :
    (run step s os).1 = false ↔ ∃ before o, FirstFailure step s os before o := by
  refine ⟨fun h => ?_, fun ⟨before, o, h⟩ => by rw [h.run_eq]⟩
  induction os generalizing s with
  | nil => simp [run] at h
  | cons o os ih =>
    cases ho : (step s o).1 with
    | true =>
      rw [run_cons_of_true ho] at h
      obtain ⟨before, o', ⟨after, rfl⟩, hbefore, ho'⟩ := ih h
      refine ⟨o :: before, o', ⟨after, rfl⟩, ?_⟩
      rw [run_cons_of_true ho]
      exact ⟨hbefore, ho'⟩
    | false => exact ⟨[], o, ⟨os, rfl⟩, rfl, ho⟩

/-- What holds at first and is kept by each operation that succeeds, whatever was performed
before it, holds when the run succeeds. -/
theorem run_invariant {P : List O → S → Prop} {s s' : S} {os : List O}
    (h : run step s os = (true, s')) (hinit : P [] s)
    (hstep : ∀ before o after t t', os = before ++ o :: after → P before t →
      step t o = (true, t') → P (before ++ [o]) t') : P os s' := by
  suffices hrest : ∀ (rest before : List O) (t : S), os = before ++ rest → P before t →
      run step t rest = (true, s') → P os s' from hrest os [] s rfl hinit h
  intro rest
  induction rest with
  | nil =>
    intro before t hos hP hrun
    obtain rfl : t = s' := congrArg Prod.snd hrun
    rwa [hos, List.append_nil]
  | cons o rest ih =>
    intro before t hos hP hrun
    cases ho : (step t o).1 with
    | true =>
      rw [run_cons_of_true ho] at hrun
      have hsplit : os = before ++ [o] ++ rest := by rw [hos, List.append_assoc]; rfl
      exact ih _ _ hsplit (hstep before o rest t _ hos hP (Prod.ext ho rfl)) hrun
    | false =>
      rw [run_cons_of_false ho] at hrun
      exact absurd (congrArg Prod.fst hrun) (by simp)

/-- A run succeeds when each operation succeeds wherever the ones before it have led, and keeps the
invariant that says so. -/
theorem run_of_steps {P : List O → S → Prop} {s : S} {os : List O} (hinit : P [] s)
    (hstep : ∀ before o after t, os = before ++ o :: after → P before t →
      ∃ t', step t o = (true, t') ∧ P (before ++ [o]) t') :
    ∃ s', run step s os = (true, s') ∧ P os s' := by
  suffices hrest : ∀ (rest before : List O) (t : S), os = before ++ rest → P before t →
      ∃ s', run step t rest = (true, s') ∧ P os s' from hrest os [] s rfl hinit
  intro rest
  induction rest with
  | nil =>
    intro before t hos hP
    exact ⟨t, rfl, by rwa [hos, List.append_nil]⟩
  | cons o rest ih =>
    intro before t hos hP
    obtain ⟨t', ho, hP'⟩ := hstep before o rest t hos hP
    have hsplit : os = before ++ [o] ++ rest := by rw [hos, List.append_assoc]; rfl
    rw [run_cons_of_true (by rw [ho]), ho]
    exact ih _ t' hsplit hP'

end Virt86.StoppingRuns
