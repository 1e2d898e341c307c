import Mathlib.Logic.Basic

/-!
# Processors that run and step a guest

To run a guest a processor prepares, enters the guest and handles the exit. To step it, it does
the same with single stepping switched on, and handles the exit once more. Two processors end alike
when their parts do.
-/

namespace Virt86

/-- The parts of running and stepping. The parts that can fail tell whether they did. -/
structure RunEngine (V G : Type) where
  prepare : V → Bool × V
  enter : G → V → Bool × V
  handle : V → V
  singleStep : Bool → V → Bool × V
  finish : V → V

namespace RunEngine

variable {V U G : Type}

def run (e : RunEngine V G) (g : G) (v : V) : Bool × V :=
  match e.prepare v with
  | (false, v) => (false, v)
  | (true, v) =>
    match e.enter g v with
    | (false, v) => (false, v)
    | (true, v) => (true, e.handle v)

def step (e : RunEngine V G) (g : G) (v : V) : Bool × V :=
  match e.singleStep true v with
  | (false, v) => (false, v)
  | (true, v) =>
    match e.singleStep false (e.run g v).2 with
    | (false, v') => (false, v')
    | (true, v') => if (e.run g v).1 then (true, e.finish (e.handle v')) else (false, v')

/-! ## Failure on entry -/

section Failure

variable {e : RunEngine V G} {g : G} {v v₁ v₂ : V}

theorem run_of_failed (hprepare : e.prepare v = (true, v₁)) (henter : e.enter g v₁ = (false, v₂)) :
    e.run g v = (false, v₂) := by
  simp only [run, hprepare, henter]

theorem step_of_failed {v₀ : V} (hstep : e.singleStep true v = (true, v₀))
    (hprepare : e.prepare v₀ = (true, v₁)) (henter : e.enter g v₁ = (false, v₂)) :
    e.step g v = (false, (e.singleStep false v₂).2) := by
  simp only [step, hstep, run_of_failed hprepare henter]
  cases h : e.singleStep false v₂ with
  | mk ok v₃ =>
    cases ok with
    | true => rfl
    | false => rfl

end Failure

/-! ## Simulation -/

/-- The processors are `Before` each other whenever the host has them, and `Inside` from the
preparation to the handling of the exit. -/
structure Simulates (e : RunEngine V G) (f : RunEngine U G) (Before Inside : V → U → Prop) :
    Prop where
  prepare : ∀ {v u}, Before v u →
    ∃ v' u', e.prepare v = (true, v') ∧ f.prepare u = (true, u') ∧ Inside v' u'
  enter : ∀ {v u} g, Inside v u →
    ∃ ok v' u', e.enter g v = (ok, v') ∧ f.enter g u = (ok, u') ∧ Inside v' u'
  handle : ∀ {v u}, Inside v u → Before (e.handle v) (f.handle u)
  startStep : ∀ {v u}, Before v u →
    ∃ v' u', e.singleStep true v = (true, v') ∧ f.singleStep true u = (true, u') ∧ Before v' u'
  endStep : ∀ {v u}, Inside v u →
    ∃ v' u', e.singleStep false v = (true, v') ∧ f.singleStep false u = (true, u') ∧ Inside v' u'
  finish : ∀ {v u}, Before v u → Before (e.finish v) (f.finish u)

/-- How two processors end a run: with the same result, and handled or not depending on it. -/
structure Ended (Before Inside : V → U → Prop) (x : Bool × V) (y : Bool × U) : Prop where
  result : x.1 = y.1
  handled : y.1 = true → Before x.2 y.2
  failed : y.1 = false → Inside x.2 y.2

namespace Simulates

variable {e : RunEngine V G} {f : RunEngine U G} {Before Inside : V → U → Prop} {v : V} {u : U}

theorem run_of_prepared (h : Simulates e f Before Inside) (hprepare : ∃ v' u',
      e.prepare v = (true, v') ∧ f.prepare u = (true, u') ∧ Inside v' u') (g : G) :
    Ended Before Inside (e.run g v) (f.run g u) := by
  obtain ⟨v₁, u₁, hv₁, hu₁, hinside₁⟩ := hprepare
  obtain ⟨ok, v₂, u₂, hv₂, hu₂, hinside₂⟩ := h.enter g hinside₁
  simp only [RunEngine.run, hv₁, hu₁, hv₂, hu₂]
  cases ok with
  | true => exact ⟨rfl, fun _ => h.handle hinside₂, (fun hfalse => nomatch hfalse)⟩
  | false => exact ⟨rfl, (fun htrue => nomatch htrue), fun _ => hinside₂⟩

theorem run (h : Simulates e f Before Inside) (hbefore : Before v u) (g : G) :
    Ended Before Inside (e.run g v) (f.run g u) :=
  h.run_of_prepared (h.prepare hbefore) g

variable (hquiet : ∀ {v u}, Inside v u → Inside (e.handle v) (f.handle u))

include hquiet

/-- Where handling an exit leaves the processors as if still inside, a whole run does. -/
theorem run_inside (h : Simulates e f Before Inside) (hbefore : Before v u) (g : G) :
    (e.run g v).1 = (f.run g u).1 ∧ Inside (e.run g v).2 (f.run g u).2 := by
  obtain ⟨v₁, u₁, hv₁, hu₁, hinside₁⟩ := h.prepare hbefore
  obtain ⟨ok, v₂, u₂, hv₂, hu₂, hinside₂⟩ := h.enter g hinside₁
  simp only [RunEngine.run, hv₁, hu₁, hv₂, hu₂]
  cases ok with
  | true => exact ⟨rfl, hquiet hinside₂⟩
  | false => exact ⟨rfl, hinside₂⟩

/-- A step handles the exit twice, which does no harm there. -/
theorem step (h : Simulates e f Before Inside) (hbefore : Before v u) (g : G) :
    Ended Before Inside (e.step g v) (f.step g u) := by
  obtain ⟨v₁, u₁, hv₁, hu₁, hbefore₁⟩ := h.startStep hbefore
  obtain ⟨hresult, hinside₂⟩ := h.run_inside hquiet hbefore₁ g
  obtain ⟨v₃, u₃, hv₃, hu₃, hinside₃⟩ := h.endStep hinside₂
  simp only [RunEngine.step, hv₁, hu₁, hv₃, hu₃, hresult]
  cases hok : (f.run g u₁).1 with
  | true =>
    refine ⟨rfl, fun _ => ?_, (fun hfalse => nomatch hfalse)⟩
    exact h.finish (h.handle hinside₃)
  | false => exact ⟨rfl, (fun htrue => nomatch htrue), fun _ => hinside₃⟩

end Simulates

/-! ## Lockstep -/

/-- The same result, with related processors. -/
def Together (Rel : V → U → Prop) (x : Bool × V) (y : Bool × U) : Prop :=
  ∃ ok v u, x = (ok, v) ∧ y = (ok, u) ∧ Rel v u

/-- Each part takes related processors to related ones. -/
structure Lockstep (e : RunEngine V G) (f : RunEngine U G) (Rel : V → U → Prop) : Prop where
  prepare : ∀ {v u}, Rel v u → Together Rel (e.prepare v) (f.prepare u)
  enter : ∀ {v u} g, Rel v u → Together Rel (e.enter g v) (f.enter g u)
  handle : ∀ {v u}, Rel v u → Rel (e.handle v) (f.handle u)
  singleStep : ∀ {v u} on, Rel v u → Together Rel (e.singleStep on v) (f.singleStep on u)
  finish : ∀ {v u}, Rel v u → Rel (e.finish v) (f.finish u)

namespace Lockstep

variable {e : RunEngine V G} {f : RunEngine U G} {Rel : V → U → Prop} {v : V} {u : U}

theorem run (h : Lockstep e f Rel) (hrel : Rel v u) (g : G) :
    Together Rel (e.run g v) (f.run g u) := by
  obtain ⟨ok, v₁, u₁, hv₁, hu₁, hrel₁⟩ := h.prepare hrel
  simp only [RunEngine.run, hv₁, hu₁]
  cases ok with
  | false => exact ⟨false, v₁, u₁, rfl, rfl, hrel₁⟩
  | true =>
    obtain ⟨ok, v₂, u₂, hv₂, hu₂, hrel₂⟩ := h.enter g hrel₁
    simp only [hv₂, hu₂]
    cases ok with
    | false => exact ⟨false, v₂, u₂, rfl, rfl, hrel₂⟩
    | true => exact ⟨true, _, _, rfl, rfl, h.handle hrel₂⟩

theorem step (h : Lockstep e f Rel) (hrel : Rel v u) (g : G) :
    Together Rel (e.step g v) (f.step g u) := by
  obtain ⟨ok, v₁, u₁, hv₁, hu₁, hrel₁⟩ := h.singleStep true hrel
  simp only [RunEngine.step, hv₁, hu₁]
  cases ok with
  | false => exact ⟨false, v₁, u₁, rfl, rfl, hrel₁⟩
  | true =>
    obtain ⟨ran, v₂, u₂, hv₂, hu₂, hrel₂⟩ := h.run hrel₁ g
    obtain ⟨ok, v₃, u₃, hv₃, hu₃, hrel₃⟩ := h.singleStep false hrel₂
    simp only [hv₂, hu₂, hv₃, hu₃]
    cases ok with
    | false => exact ⟨false, v₃, u₃, rfl, rfl, hrel₃⟩
    | true =>
      cases ran with
      | false => exact ⟨false, v₃, u₃, rfl, rfl, hrel₃⟩
      | true => exact ⟨true, _, _, rfl, rfl, h.finish (h.handle hrel₃)⟩

end Lockstep

/-! ## Exits and what is done for them -/

/-- The processor with the exit that entering the guest reports, if it gets that far. -/
def exitOfRun (e : RunEngine V G) (g : G) (v : V) : Option V :=
  match e.prepare v with
  | (false, _) => none
  | (true, v) =>
    match e.enter g v with
    | (false, _) => none
    | (true, v) => some v

def exitOfStep (e : RunEngine V G) (g : G) (v : V) : Option V :=
  match e.singleStep true v with
  | (false, _) => none
  | (true, v) => e.exitOfRun g v

/-- The processors with the exits that a step handles, one after the other: the exit it reports,
and what is left of it after single stepping was switched off. -/
def exitsOfStep (e : RunEngine V G) (g : G) (v : V) : List V :=
  match e.exitOfStep g v with
  | none => []
  | some exit =>
    match e.singleStep false (e.handle exit) with
    | (false, _) => [exit]
    | (true, again) => [exit, again]

section Handled

variable {e : RunEngine V G} {g : G} {v v₁ v₂ exit again : V}

theorem exitOfRun_of_entered (hprepare : e.prepare v = (true, v₁))
    (henter : e.enter g v₁ = (true, v₂)) : e.exitOfRun g v = some v₂ := by
  simp only [exitOfRun, hprepare, henter]

theorem run_of_exit (hexit : e.exitOfRun g v = some exit) :
    e.run g v = (true, e.handle exit) := by
  simp only [exitOfRun] at hexit
  cases hprepare : e.prepare v with
  | mk ok v₁ =>
    cases ok with
    | false => simp [hprepare] at hexit
    | true =>
      cases henter : e.enter g v₁ with
      | mk ok v₂ =>
        cases ok with
        | false => simp [hprepare, henter] at hexit
        | true =>
          simp only [hprepare, henter, Option.some.injEq] at hexit
          simp only [run, hprepare, henter, hexit]

/-- A step that reports an exit handles it, and once more when single stepping is off again. -/
theorem step_of_exit (hexit : e.exitOfStep g v = some exit)
    (hagain : e.singleStep false (e.handle exit) = (true, again)) :
    e.step g v = (true, e.finish (e.handle again)) ∧ e.exitsOfStep g v = [exit, again] := by
  refine ⟨?_, by simp only [exitsOfStep, hexit, hagain]⟩
  simp only [exitOfStep] at hexit
  cases hstart : e.singleStep true v with
  | mk ok v₁ =>
    cases ok with
    | false => simp [hstart] at hexit
    | true =>
      simp only [hstart] at hexit
      simp only [step, hstart, run_of_exit hexit, hagain, if_true]

end Handled

/-- Handling an exit adds its `effect` to the `log` of a good processor, and nothing else does. An
exit that was handled has an effect left exactly if it had one. -/
structure Records {A : Type} (e : RunEngine V G) (Good : V → Prop) (log effect : V → List A) :
    Prop where
  prepare : ∀ {v}, Good v → Good (e.prepare v).2 ∧ log (e.prepare v).2 = log v
  enter : ∀ {v} g, Good v → Good (e.enter g v).2 ∧ log (e.enter g v).2 = log v
  handle : ∀ {v}, Good v → Good (e.handle v) ∧ log (e.handle v) = log v ++ effect v
  singleStep : ∀ {v} on, Good v → Good (e.singleStep on v).2 ∧ log (e.singleStep on v).2 = log v
  finish : ∀ {v}, Good v → Good (e.finish v) ∧ log (e.finish v) = log v
  again : ∀ {v}, Good v → (effect (e.singleStep false (e.handle v)).2 = [] ↔ effect v = [])

/-- What a step does for its exit beyond handling it once. -/
def repeated {A : Type} (e : RunEngine V G) (effect : V → List A) (g : G) (v : V) : List A :=
  match e.exitOfStep g v with
  | none => []
  | some exit =>
    match e.singleStep false (e.handle exit) with
    | (false, _) => []
    | (true, v) => effect v

/-- Either a step reports no exit, or the exit has no effect, or single stepping cannot be switched
off after it. -/
def StepsOnce {A : Type} (e : RunEngine V G) (effect : V → List A) (g : G) (v : V) : Prop :=
  ∀ exit ∈ e.exitOfStep g v, effect exit = [] ∨ (e.singleStep false (e.handle exit)).1 = false

namespace Records

variable {A : Type} {e : RunEngine V G} {Good : V → Prop} {log effect : V → List A} {v : V}

theorem run_cases (h : Records e Good log effect) (hv : Good v) (g : G) :
    (e.exitOfRun g v = none ∧ (e.run g v).1 = false ∧ Good (e.run g v).2 ∧
        log (e.run g v).2 = log v) ∨
      ∃ exit, e.exitOfRun g v = some exit ∧ Good exit ∧ e.run g v = (true, e.handle exit) ∧
        log exit = log v := by
  obtain ⟨hgood₁, hlog₁⟩ := h.prepare hv
  cases hprepare : e.prepare v with
  | mk ok v₁ =>
    rw [hprepare] at hgood₁ hlog₁
    cases ok with
    | false =>
      refine .inl ?_
      simp only [exitOfRun, run, hprepare]
      exact ⟨trivial, trivial, hgood₁, hlog₁⟩
    | true =>
      obtain ⟨hgood₂, hlog₂⟩ := h.enter g hgood₁
      cases henter : e.enter g v₁ with
      | mk ok v₂ =>
        rw [henter] at hgood₂ hlog₂
        cases ok with
        | false =>
          refine .inl ?_
          simp only [exitOfRun, run, hprepare, henter]
          exact ⟨trivial, trivial, hgood₂, hlog₂.trans hlog₁⟩
        | true =>
          refine .inr ⟨v₂, ?_, hgood₂, ?_, hlog₂.trans hlog₁⟩
          · simp only [exitOfRun, hprepare, henter]
          · simp only [run, hprepare, henter]

/-- A run adds the effect of its exit. -/
theorem run_log (h : Records e Good log effect) (hv : Good v) (g : G) :
    Good (e.run g v).2 ∧ log (e.run g v).2 = log v ++ (e.exitOfRun g v).elim [] effect := by
  obtain ⟨hnone, -, hgood, hlog⟩ | ⟨exit, hsome, hexit, hrun, hlog⟩ := h.run_cases hv g
  · rw [hnone]
    exact ⟨hgood, by rw [hlog, Option.elim_none, List.append_nil]⟩
  · obtain ⟨hgood, hhandle⟩ := h.handle hexit
    rw [hsome, hrun]
    exact ⟨hgood, by rw [hhandle, hlog, Option.elim_some]⟩

/-- A step adds the effect of its exit, and then once more where it can. -/
theorem step_log (h : Records e Good log effect) (hv : Good v) (g : G) :
    Good (e.step g v).2 ∧ log (e.step g v).2 =
      log v ++ (e.exitOfStep g v).elim [] effect ++ e.repeated effect g v := by
  obtain ⟨hgood₁, hlog₁⟩ := h.singleStep true hv
  cases hstart : e.singleStep true v with
  | mk ok v₁ =>
    rw [hstart] at hgood₁ hlog₁
    cases ok with
    | false =>
      simp only [step, exitOfStep, repeated, hstart, Option.elim_none, List.append_nil]
      exact ⟨hgood₁, hlog₁⟩
    | true =>
      have hexitOf : e.exitOfStep g v = e.exitOfRun g v₁ := by simp only [exitOfStep, hstart]
      obtain ⟨hnone, hfalse, hgood, hlog⟩ | ⟨exit, hsome, hexit, hrun, hlog⟩ := h.run_cases hgood₁ g
      · obtain ⟨hgood₂, hlog₂⟩ := h.singleStep false hgood
        simp only [step, hstart, repeated, hexitOf, hnone, hfalse, Option.elim_none,
          List.append_nil]
        cases hstop : e.singleStep false (e.run g v₁).2 with
        | mk ok v₂ =>
          rw [hstop] at hgood₂ hlog₂
          cases ok with
          | false => exact ⟨hgood₂, hlog₂.trans (hlog.trans hlog₁)⟩
          | true => exact ⟨hgood₂, hlog₂.trans (hlog.trans hlog₁)⟩
      · obtain ⟨hgood₂, hlog₂⟩ := h.handle hexit
        obtain ⟨hgood₃, hlog₃⟩ := h.singleStep false hgood₂
        simp only [step, hstart, repeated, hexitOf, hsome, hrun, Option.elim_some]
        cases hstop : e.singleStep false (e.handle exit) with
        | mk ok v₃ =>
          rw [hstop] at hgood₃ hlog₃
          have hlog₃' : log v₃ = log v ++ effect exit := by rw [hlog₃, hlog₂, hlog, hlog₁]
          cases ok with
          | false => exact ⟨hgood₃, by rw [hlog₃', List.append_nil]⟩
          | true =>
            obtain ⟨hgood₄, hlog₄⟩ := h.handle hgood₃
            obtain ⟨hgood₅, hlog₅⟩ := h.finish hgood₄
            exact ⟨hgood₅, by simp only [if_true]; rw [hlog₅, hlog₄, hlog₃']⟩

theorem good_of_exitOfStep (h : Records e Good log effect) (hv : Good v) {g : G} {exit : V}
    (hexit : e.exitOfStep g v = some exit) : Good exit := by
  obtain ⟨hgood₁, -⟩ := h.singleStep true hv
  simp only [exitOfStep] at hexit
  cases hstart : e.singleStep true v with
  | mk ok v₁ =>
    rw [hstart] at hexit hgood₁
    cases ok with
    | false => cases hexit
    | true =>
      obtain ⟨hnone, -⟩ | ⟨exit', hsome, hexit', -⟩ := h.run_cases hgood₁ g
      · simp only [hnone] at hexit
        cases hexit
      · simp only [hsome, Option.some.injEq] at hexit
        exact hexit ▸ hexit'

/-- A step handles its exit once exactly when that makes no difference or it cannot do otherwise. -/
theorem repeated_eq_nil_iff (h : Records e Good log effect) (hv : Good v) (g : G) :
    e.repeated effect g v = [] ↔ e.StepsOnce effect g v := by
  cases hexit : e.exitOfStep g v with
  | none => simp [repeated, StepsOnce, hexit]
  | some exit =>
    have hagain := h.again (h.good_of_exitOfStep hv hexit)
    simp only [repeated, StepsOnce, hexit, Option.mem_some_iff, forall_eq']
    cases hstop : e.singleStep false (e.handle exit) with
    | mk ok v₃ =>
      rw [hstop] at hagain
      cases ok with
      | false => simp
      | true => simpa using hagain

end Records

end RunEngine

end Virt86
