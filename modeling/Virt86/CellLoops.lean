import Mathlib.Logic.Function.Basic
import Virt86.StoppingRuns

/-!
# Loops over the cells of a memory

A loop goes through places one at a time. A place has a cell of the memory or none, and several
places may have one cell. The loop stops at the first place that has none. A loop over larger parts
of the places may do the same.
-/

namespace Virt86

namespace StoppingRuns

/-- Nothing comes after an operation that failed. -/
theorem run_append_of_false {S O : Type} {step : S → O → Bool × S} {s : S} {os : List O}
    (h : (run step s os).1 = false) (os' : List O) : run step s (os ++ os') = run step s os := by
  induction os generalizing s with
  | nil => simp [run] at h
  | cons o os ih =>
    cases ho : (step s o).1 with
    | true =>
      rw [run_cons_of_true ho] at h
      rw [List.cons_append, run_cons_of_true ho, run_cons_of_true ho, ih h]
    | false => rw [List.cons_append, run_cons_of_false ho, run_cons_of_false ho]

/-- Operations that each do what their parts do in turn run like all the parts. -/
theorem run_flatMap {S T O P : Type} {step : S → O → Bool × S} {fine : T → P → Bool × T}
    {parts : O → List P} (Rel : S → T → Prop) {os : List O}
    (hstep : ∀ o ∈ os, ∀ {s t}, Rel s t → (step s o).1 = (run fine t (parts o)).1 ∧
      Rel (step s o).2 (run fine t (parts o)).2) {s : S} {t : T} (hrel : Rel s t) :
    (run step s os).1 = (run fine t (os.flatMap parts)).1 ∧
      Rel (run step s os).2 (run fine t (os.flatMap parts)).2 := by
  induction os generalizing s t with
  | nil => exact ⟨rfl, hrel⟩
  | cons o os ih =>
    obtain ⟨hresult, hnext⟩ := hstep o List.mem_cons_self hrel
    rw [List.flatMap_cons]
    cases ho : (step s o).1 with
    | true =>
      rw [run_cons_of_true ho, run_append_of_true (hresult.symm.trans ho)]
      exact ih (fun o' ho' => hstep o' (List.mem_cons_of_mem _ ho')) hnext
    | false =>
      have hparts : (run fine t (parts o)).1 = false := hresult.symm.trans ho
      rw [run_cons_of_false ho, run_append_of_false hparts]
      exact ⟨hparts.symm, hnext⟩

end StoppingRuns

namespace CellLoops

open StoppingRuns

variable {I A V : Type} {cell : I → Option A} {data buffer : I → V} {mem : A → V} {places : List I}

/-- Stores the value for a place in its cell. -/
def store [DecidableEq A] (cell : I → Option A) (data : I → V) (mem : A → V) (i : I) :
    Bool × (A → V) :=
  match cell i with
  | none => (false, mem)
  | some a => (true, Function.update mem a (data i))

/-- Loads the value for a place from its cell. -/
def load [DecidableEq I] (cell : I → Option A) (mem : A → V) (buffer : I → V) (i : I) :
    Bool × (I → V) :=
  match cell i with
  | none => (false, buffer)
  | some a => (true, Function.update buffer i (mem a))

theorem store_of_some [DecidableEq A] {i : I} {a : A} (h : cell i = some a) :
    store cell data mem i = (true, Function.update mem a (data i)) := by
  simp only [store, h]

theorem store_of_none [DecidableEq A] {i : I} (h : cell i = none) :
    store cell data mem i = (false, mem) := by
  simp only [store, h]

theorem load_of_some [DecidableEq I] {i : I} {a : A} (h : cell i = some a) :
    load cell mem buffer i = (true, Function.update buffer i (mem a)) := by
  simp only [load, h]

theorem load_of_none [DecidableEq I] {i : I} (h : cell i = none) :
    load cell mem buffer i = (false, buffer) := by
  simp only [load, h]

/-- A cell that no place of the loop has keeps its value. -/
theorem run_store_frame [DecidableEq A] {a : A} (h : ∀ i ∈ places, cell i ≠ some a) :
    (run (store cell data) mem places).2 a = mem a := by
  induction places generalizing mem with
  | nil => rfl
  | cons i places ih =>
    have hrest := fun i' hi' => h i' (List.mem_cons_of_mem _ hi')
    cases hcell : cell i with
    | none =>
      have hstep : store cell data mem i = (false, mem) := store_of_none hcell
      rw [run_cons_of_false (by rw [hstep]), hstep]
    | some b =>
      have hstep : store cell data mem i = (true, Function.update mem b (data i)) :=
        store_of_some hcell
      have hne : a ≠ b := fun hab => h i List.mem_cons_self (hab ▸ hcell)
      rw [run_cons_of_true (by rw [hstep]), hstep, ih hrest]
      exact Function.update_of_ne hne _ _

end CellLoops

end Virt86
