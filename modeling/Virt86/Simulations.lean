import Mathlib.Data.Set.Defs
import Mathlib.Logic.Basic

/-!
# Runs of two machines over the same operations
-/

namespace Virt86

variable {S T O R : Type}

/-- The results and the last state of a run of operations. -/
def runAll (step : S → O → R × S) : S → List O → List R × S
  | s, [] => ([], s)
  | s, o :: os => ((step s o).1 :: (runAll step (step s o).2 os).1, (runAll step (step s o).2 os).2)

/-- Each operation of a run is in `P` at the state it is performed in. -/
def Along (step : S → O → R × S) (P : S → O → Prop) : S → List O → Prop
  | _, [] => True
  | s, o :: os => P s o ∧ Along step P (step s o).2 os

/-- A relation that every operation of `P` preserves, with equal results, is preserved by runs. -/
theorem runAll_simulates_along {f : S → O → R × S} {g : T → O → R × T} {Rel : S → T → Prop}
    {P : S → O → Prop} (hstep : ∀ {s t o}, P s o → Rel s t →
      (f s o).1 = (g t o).1 ∧ Rel (f s o).2 (g t o).2) :
    ∀ {os : List O} {s : S} {t : T}, Along f P s os → Rel s t →
      (runAll f s os).1 = (runAll g t os).1 ∧ Rel (runAll f s os).2 (runAll g t os).2 := by
  intro os
  induction os with
  | nil =>
    intro s t _ hrel
    exact ⟨rfl, hrel⟩
  | cons o os ih =>
    intro s t halong hrel
    obtain ⟨hresult, hnext⟩ := hstep halong.1 hrel
    obtain ⟨hresults, hlast⟩ := ih halong.2 hnext
    refine ⟨?_, hlast⟩
    simp only [runAll, hresult, hresults]

/-- A machine that performs each operation like the part `π` of another, as long as that is good,
runs like it. -/
theorem runAll_projection {f : S → O → R × S} {g : T → O → R × T} (π : S → T) (Good : S → Prop)
    (hstep : ∀ {s} o, Good s → Good (f s o).2 ∧ g (π s) o = ((f s o).1, π (f s o).2))
    {s : S} (hs : Good s) (os : List O) :
    runAll g (π s) os = ((runAll f s os).1, π (runAll f s os).2) := by
  induction os generalizing s with
  | nil => rfl
  | cons o os ih =>
    obtain ⟨hgood, hproject⟩ := hstep o hs
    simp only [runAll, hproject, ih hgood]

theorem along_congr {f : S → O → R × S} {P Q : S → O → Prop} (h : ∀ s o, P s o ↔ Q s o)
    {s : S} {os : List O} : Along f P s os ↔ Along f Q s os := by
  induction os generalizing s with
  | nil => exact Iff.rfl
  | cons o os ih => exact and_congr (h s o) ih

/-- Under an invariant that operations of `Q` keep, runs in `P` are the runs in `Q` when operations
of `Ok` are. -/
theorem along_iff_of_forall {f : S → O → R × S} {P Q : S → O → Prop} {Ok : O → Prop}
    (Inv : S → Prop) (hiff : ∀ s o, Ok o → Inv s → (P s o ↔ Q s o))
    (hstep : ∀ s o, Ok o → Inv s → Q s o → Inv (f s o).2) {s : S} (hs : Inv s) {os : List O}
    (hos : ∀ o ∈ os, Ok o) : Along f P s os ↔ Along f Q s os := by
  induction os generalizing s with
  | nil => exact Iff.rfl
  | cons o os ih =>
    rw [List.forall_mem_cons] at hos
    rw [Along, Along, hiff s o hos.1 hs]
    exact and_congr_right fun hQ => ih (hstep s o hos.1 hs hQ) hos.2

theorem along_iff {f : S → O → R × S} {P Q : S → O → Prop} {Inv : S → Prop}
    (hiff : ∀ {s} o, Inv s → (P s o ↔ Q s o)) (hstep : ∀ {s o}, Inv s → Q s o → Inv (f s o).2)
    {s : S} (hs : Inv s) (os : List O) : Along f P s os ↔ Along f Q s os :=
  along_iff_of_forall Inv (fun _ o _ => hiff o) (fun _ _ _ => hstep) hs fun _ _ => trivial

/-- A run in `P` is a run in `Q` of another machine that keeps up with the first. -/
theorem Along.transfer {f : S → O → R × S} {g : T → O → R × T} {P : S → O → Prop}
    {Q : T → O → Prop} {Ok : O → Prop} {s : S} {t : T} {os : List O} (h : Along f P s os)
    (Rel : S → T → Prop)
    (hstep : ∀ {s t o}, Ok o → P s o → Rel s t → Q t o ∧ Rel (f s o).2 (g t o).2)
    (hrel : Rel s t) (hos : ∀ o ∈ os, Ok o) : Along g Q t os := by
  induction os generalizing s t with
  | nil => trivial
  | cons o os ih =>
    rw [List.forall_mem_cons] at hos
    obtain ⟨hQ, hnext⟩ := hstep hos.1 h.1 hrel
    exact ⟨hQ, ih h.2 hnext hos.2⟩

/-- All results of a run are in `Q` exactly when each operation's result is. -/
theorem forall_results_iff_along {f : S → O → R × S} {Q : R → Prop} {s : S} {os : List O} :
    (∀ r ∈ (runAll f s os).1, Q r) ↔ Along f (fun s o => Q (f s o).1) s os := by
  induction os generalizing s with
  | nil => simp [runAll, Along]
  | cons o os ih => simp only [runAll, Along, List.forall_mem_cons, ih]

theorem along_of_forall {f : S → O → R × S} {P : O → Prop} {os : List O} (h : ∀ o ∈ os, P o)
    (s : S) : Along f (fun _ => P) s os := by
  induction os generalizing s with
  | nil => trivial
  | cons o os ih =>
    refine ⟨h o List.mem_cons_self, ?_⟩
    exact ih (fun o' ho' => h o' (List.mem_cons_of_mem _ ho')) _

theorem runAll_simulates {f : S → O → R × S} {g : T → O → R × T} {Rel : S → T → Prop}
    {P : O → Prop} (hstep : ∀ {s t o}, P o → Rel s t →
      (f s o).1 = (g t o).1 ∧ Rel (f s o).2 (g t o).2)
    {os : List O} {s : S} {t : T} (hP : ∀ o ∈ os, P o) (hrel : Rel s t) :
    (runAll f s os).1 = (runAll g t os).1 ∧ Rel (runAll f s os).2 (runAll g t os).2 :=
  runAll_simulates_along hstep (along_of_forall hP s) hrel

/-- What the operations of a run contribute, each at the state it is performed in. -/
def collect {A : Type} (step : S → O → R × S) (f : S → O → List A) : S → List O → List A
  | _, [] => []
  | s, o :: os => f s o ++ collect step f (step s o).2 os

/-- What each operation makes of the last contribution before it, a run makes of the last one. -/
theorem runAll_last {A : Type} {step : S → O → R × S} (f : S → O → Option A)
    {Shows : Option A → S → Prop}
    (hstep : ∀ {s} o {last}, Shows last s → Shows ((f s o).or last) (step s o).2)
    {s : S} {last : Option A} (hs : Shows last s) (os : List O) :
    Shows ((collect step (fun s o => (f s o).toList) s os).getLast?.or last)
      (runAll step s os).2 := by
  induction os generalizing s last with
  | nil => exact hs
  | cons o os ih =>
    have hlast : (f s o).toList.getLast? = f s o := by cases f s o <;> rfl
    rw [collect, List.getLast?_append, hlast, Option.or_assoc]
    exact ih (hstep o hs)

/-- Each operation adds to a log what is due and something more. The log of a run is what was due
exactly when no operation of the run added more. -/
theorem log_eq_due_iff {A : Type} {step : S → O → R × S} (Good : S → Prop) (log : S → List A)
    {due more : S → O → List A} {P : S → O → Prop}
    (hstep : ∀ {s} o, Good s → Good (step s o).2 ∧
      log (step s o).2 = log s ++ due s o ++ more s o ∧ (more s o = [] ↔ P s o))
    {s : S} (hs : Good s) (os : List O) :
    log (runAll step s os).2 = log s ++ collect step due s os ↔ Along step P s os := by
  -- the excess is counted, since what comes after it in the log is in the way of comparing it
  have hcount : ∀ {s : S}, Good s → ∀ os : List O, (log (runAll step s os).2).length =
      (log s).length + (collect step due s os).length + (collect step more s os).length := by
    intro s hs os
    induction os generalizing s with
    | nil => simp [runAll, collect]
    | cons o os ih =>
      obtain ⟨hgood, hlog, -⟩ := hstep o hs
      have hrest := ih hgood
      rw [hlog] at hrest
      simp only [runAll, collect, List.length_append] at hrest ⊢
      omega
  have hmore : ∀ {s : S}, Good s → ∀ os : List O, collect step more s os = [] ↔
      Along step P s os := by
    intro s hs os
    induction os generalizing s with
    | nil => simp [collect, Along]
    | cons o os ih =>
      obtain ⟨hgood, -, hP⟩ := hstep o hs
      simp only [collect, Along, List.append_eq_nil_iff, hP, ih hgood]
  constructor
  · intro heq
    have hlength := congrArg List.length heq
    rw [hcount hs os, List.length_append] at hlength
    rw [← hmore hs os]
    exact List.length_eq_zero_iff.mp (by omega)
  · intro halong
    clear hcount hmore
    induction os generalizing s with
    | nil => simp [runAll, collect]
    | cons o os ih =>
      obtain ⟨hgood, hlog, hP⟩ := hstep o hs
      simp only [runAll, collect]
      rw [ih hgood halong.2, hlog, hP.mpr halong.1, List.append_nil, List.append_assoc]

end Virt86
