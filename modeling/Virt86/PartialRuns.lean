import Mathlib.Data.List.Basic

/-!
# Runs of a machine whose operations may not return
-/

namespace Virt86

variable {S O R : Type}

/-- The results and the last state of a run; `none` when an operation does not return. -/
def runSome (step : S → O → Option (R × S)) : S → List O → Option (List R × S)
  | s, [] => some ([], s)
  | s, o :: os =>
    (step s o).bind fun next => (runSome step next.2 os).map fun rest => (next.1 :: rest.1, rest.2)

/-- Each operation of a run is in `P` at the state it is performed in. -/
def AlongSome (step : S → O → Option (R × S)) (P : S → O → Prop) : S → List O → Prop
  | _, [] => True
  | s, o :: os => P s o ∧ ∀ r s', step s o = some (r, s') → AlongSome step P s' os

variable {step : S → O → Option (R × S)} {P : S → O → Prop}

theorem runSome_cons {s s' : S} {o : O} {r : R} (h : step s o = some (r, s')) (os : List O) :
    runSome step s (o :: os) =
      (runSome step s' os).map fun rest => (r :: rest.1, rest.2) := by
  rw [runSome, h]
  rfl

theorem AlongSome.take {os : List O} {s : S} (h : AlongSome step P s os) (n : ℕ) :
    AlongSome step P s (os.take n) := by
  induction os generalizing s n with
  | nil => simpa using h
  | cons o os ih =>
    cases n with
    | zero => trivial
    | succ n => exact ⟨h.1, fun r s' hstep => ih (h.2 r s' hstep) n⟩

theorem alongSome_of_forall {Q : O → Prop} (step : S → O → Option (R × S)) {os : List O}
    (h : ∀ o ∈ os, Q o) (s : S) : AlongSome step (fun _ => Q) s os := by
  induction os generalizing s with
  | nil => trivial
  | cons o os ih =>
    refine ⟨h o List.mem_cons_self, ?_⟩
    exact fun _ s' _ => ih (fun o' ho' => h o' (List.mem_cons_of_mem _ ho')) s'

/-- What every operation that returns keeps holds after a run that returns. -/
theorem runSome_preserves {Inv : S → Prop}
    (hstep : ∀ {s s' : S} {o : O} {r : R}, Inv s → step s o = some (r, s') → Inv s') {os : List O}
    {s s' : S} {rs : List R} (hinv : Inv s) (hrun : runSome step s os = some (rs, s')) :
    Inv s' := by
  induction os generalizing s rs with
  | nil =>
    simp only [runSome, Option.some.injEq, Prod.mk.injEq] at hrun
    exact hrun.2 ▸ hinv
  | cons o os ih =>
    cases hnext : step s o with
    | none => simp [runSome, hnext] at hrun
    | some next =>
      obtain ⟨r, s₁⟩ := next
      rw [runSome_cons hnext, Option.map_eq_some_iff] at hrun
      obtain ⟨⟨rest, last⟩, hrest, heq⟩ := hrun
      obtain ⟨-, rfl⟩ := Prod.mk.inj heq
      exact ih (hstep hinv hnext) hrest

/-- A run of at most `N` operations that return and keep an invariant of the state and of what was
done so far, of which `f` is seen. -/
theorem runSome_invariant {A : Type} (f : O → A) (Inv : S → List (A × R) → Prop) {N : ℕ}
    (hstep : ∀ {s : S} {o : O} {log : List (A × R)}, log.length < N → P s o → Inv s log →
      ∃ r s', step s o = some (r, s') ∧ Inv s' (log ++ [(f o, r)])) {os : List O} {s : S}
    {log : List (A × R)} (halong : AlongSome step P s os) (hinv : Inv s log)
    (hlength : log.length + os.length ≤ N) :
    ∃ rs s', runSome step s os = some (rs, s') ∧ Inv s' (log ++ (os.map f).zip rs) := by
  induction os generalizing s log with
  | nil => exact ⟨[], s, rfl, by simpa using hinv⟩
  | cons o os ih =>
    rw [List.length_cons] at hlength
    obtain ⟨r, s', heq, hnext⟩ := hstep (by omega) halong.1 hinv
    have hnext_length : (log ++ [(f o, r)]).length + os.length ≤ N := by
      rw [List.length_append, List.length_singleton]
      omega
    obtain ⟨rs, s'', hrun, hlast⟩ := ih (halong.2 r s' heq) hnext hnext_length
    refine ⟨r :: rs, s'', ?_, ?_⟩
    · rw [runSome_cons heq, hrun]
      rfl
    · rw [List.append_assoc] at hlast
      exact hlast

end Virt86
