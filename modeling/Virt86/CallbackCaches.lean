import Mathlib.Data.List.Induction
import Virt86.RunEngines
import Virt86.Simulations
import Virt86.WriteBackCaches

/-!
# Callbacks that go through a write-back cache

A processor keeps a write-back cache of its files. Handling an exit makes the copy stale first, and
the callbacks that it calls then access the copy. Nothing is lost as long as no changes are left to
hand over when an exit is handled. The second time that a step handles its exit, there may be some.
-/

namespace Virt86

namespace WriteBack

variable {ι : Type} {F : ι → Type} {c : WriteBack F} {u : ∀ i, F i}

/-- A stale copy has no changes. -/
def Exclusive (c : WriteBack F) : Prop := c.stale = true → ∀ i, c.changed i = false

/-- An access: the copy is fetched if it is stale, and then written to. -/
def access [DecidableEq ι] (c : WriteBack F) (ws : List (FileWrite F)) : WriteBack F :=
  c.refresh.applyWrites ws

section Access

variable [DecidableEq ι]

theorem Agrees.access (h : Agrees Set.univ c u) (ws : List (FileWrite F)) :
    Agrees Set.univ (c.access ws) (directWrites u ws) :=
  h.refresh.applyWrites (stale_refresh c) ws

theorem exclusive_access (c : WriteBack F) (ws : List (FileWrite F)) :
    (c.access ws).Exclusive := by
  intro hstale
  rw [WriteBack.access, stale_applyWrites, stale_refresh] at hstale
  cases hstale

theorem changed_access {ws : List (FileWrite F)} {i : ι} :
    (c.access ws).changed i = true ↔ c.changed i = true ∨ ∃ w ∈ ws, w.file = i := by
  rw [WriteBack.access, changed_applyWrites, changed_refresh]

end Access

end WriteBack

open WriteBack

/-- The registers `S` of a processor, as a cache of the files of an owner, and the accesses that its
callbacks make to them. `during` has the registers while an exit is handled, after some of the
accesses, `found` what the next read finds, and `handed` what the next flush leaves with the
owner. -/
structure Callbacks (V S A : Type) {ι : Type} (F : ι → Type) where
  registers : V → S
  accesses : V → List A
  during : V → List A → S
  writes : V → A → List (FileWrite F)
  cache : S → WriteBack F
  found : S → ∀ i, F i
  handed : S → ∀ i, F i

namespace Callbacks

variable {V S G A ι : Type} {F : ι → Type} [DecidableEq ι]

/-- No registers are stale and changed while the exits are handled, and afterwards. -/
def ExclusiveIn (k : Callbacks V S A F) (exits : List V) (last : V) : Prop :=
  (∀ exit ∈ exits, ∀ done, done <+: k.accesses exit →
    (k.cache (k.during exit done)).Exclusive) ∧ (k.cache (k.registers last)).Exclusive

/-- The next read finds the files `u`, and the next flush leaves them with the owner. -/
def Sees (k : Callbacks V S A F) (s : S) (u : ∀ i, F i) : Prop := k.found s = u ∧ k.handed s = u

/-- What all callbacks together write. -/
def allWrites (k : Callbacks V S A F) (v : V) : List (FileWrite F) :=
  (k.accesses v).flatMap (k.writes v)

/-- All that the callbacks wrote so far to the files `u` is seen, while the exits are handled one
after the other, and afterwards. -/
def SeenIn (k : Callbacks V S A F) (last : V) : (∀ i, F i) → List V → Prop
  | u, [] => k.Sees (k.registers last) u
  | u, exit :: exits =>
    (∀ done, done <+: k.accesses exit →
      k.Sees (k.during exit done) (directWrites u (done.flatMap (k.writes exit)))) ∧
        k.SeenIn last (directWrites u (k.allWrites exit)) exits

/-- The parts of an engine whose calls all succeed on `Good` processors with `Ready` registers, for
guests of `Runs`. -/
structure Lawful (k : Callbacks V S A F) (e : RunEngine V G) (Good : V → Prop) (Ready : S → Prop)
    (Runs : G → Prop) : Prop where
  prepare : ∀ {v}, Good v → ∃ v', e.prepare v = (true, v') ∧ Good v' ∧
    (k.cache (k.registers v')).changed = fun _ => false
  enter : ∀ {v g}, Good v → Runs g → ∃ v', e.enter g v = (true, v') ∧ Good v' ∧
    (k.cache (k.registers v')).changed = (k.cache (k.registers v)).changed
  handle : ∀ {v}, Good v → Good (e.handle v) ∧ k.registers (e.handle v) = k.during v (k.accesses v)
  during_nil : ∀ v, k.cache (k.during v []) = { k.cache (k.registers v) with stale := true }
  during_append : ∀ {v done a}, Good v → done ++ [a] <+: k.accesses v →
    k.cache (k.during v (done ++ [a])) = (k.cache (k.during v done)).access (k.writes v a)
  singleStep : ∀ {v} on, Good v → ∃ v', e.singleStep on v = (true, v') ∧ Good v' ∧
    k.cache (k.registers v') = k.cache (k.registers v)
  finish : ∀ {v}, Good v → Good (e.finish v) ∧ k.registers (e.finish v) = k.registers v
  ready : ∀ {v}, Good v → Ready (k.registers v)
  ready_during : ∀ {v done}, Good v → done <+: k.accesses v → Ready (k.during v done)
  found : ∀ {s}, Ready s → k.found s = (k.cache s).refresh.copy
  handed : ∀ {s}, Ready s → k.handed s = (k.cache s).flush.backing

/-- A processor with an exit, and with nothing left to hand over. -/
structure Flushed (k : Callbacks V S A F) (Good : V → Prop) (exit : V) : Prop where
  good : Good exit
  unchanged : (k.cache (k.registers exit)).changed = fun _ => false

/-- The owner's files. -/
def files (k : Callbacks V S A F) (v : V) : ∀ i, F i := (k.cache (k.registers v)).backing

/-- What the callbacks of all exits make of the owner's files. -/
def resulting (k : Callbacks V S A F) (exits : List V) : Option (∀ i, F i) :=
  exits.head?.map fun first => directWrites (k.files first) (exits.flatMap k.allWrites)

/-- Exits handled without losing a write, with the processor that this ends with. -/
structure HandledWell (k : Callbacks V S A F) (Good : V → Prop) (exits : List V) (last : V) :
    Prop where
  good : Good last
  exclusive : k.ExclusiveIn exits last
  seen : ∀ first ∈ exits.head?, k.SeenIn last (k.files first) exits
  agrees : ∀ u ∈ k.resulting exits, Agrees Set.univ (k.cache (k.registers last)) u

namespace Lawful

variable {k : Callbacks V S A F} {e : RunEngine V G} {Good : V → Prop} {Ready : S → Prop}
  {Runs : G → Prop} {v exit again : V} {g : G}

/-! ### One exit -/

theorem sees (h : k.Lawful e Good Ready Runs) {s : S} (hs : Ready s) {u : ∀ i, F i}
    (hagrees : Agrees Set.univ (k.cache s) u) : k.Sees s u := by
  refine ⟨?_, ?_⟩
  · rw [h.found hs]
    funext i
    exact hagrees.refresh.copied (stale_refresh _) i trivial
  · rw [h.handed hs]
    exact hagrees.flushed

/-- The callbacks write to the owner's files in effect. -/
theorem agrees_during (h : k.Lawful e Good Ready Runs) (hexit : k.Flushed Good exit)
    (done : List A) (hdone : done <+: k.accesses exit) :
    Agrees Set.univ (k.cache (k.during exit done))
      (directWrites (k.files exit) (done.flatMap (k.writes exit))) := by
  induction done using List.reverseRecOn with
  | nil =>
    rw [h.during_nil]
    exact Agrees.of_stale rfl (congrFun hexit.unchanged)
  | append_singleton done a ih =>
    have hagrees := (ih ((List.prefix_append done [a]).trans hdone)).access (k.writes exit a)
    rw [h.during_append hexit.good hdone, List.flatMap_append, directWrites_append,
      List.flatMap_singleton]
    exact hagrees

theorem agrees_handle (h : k.Lawful e Good Ready Runs) (hexit : k.Flushed Good exit) :
    Agrees Set.univ (k.cache (k.registers (e.handle exit)))
      (directWrites (k.files exit) (k.allWrites exit)) := by
  rw [(h.handle hexit.good).2]
  exact h.agrees_during hexit _ List.prefix_rfl

theorem sees_during (h : k.Lawful e Good Ready Runs) (hexit : k.Flushed Good exit)
    (done : List A) (hdone : done <+: k.accesses exit) :
    k.Sees (k.during exit done) (directWrites (k.files exit) (done.flatMap (k.writes exit))) :=
  h.sees (h.ready_during hexit.good hdone) (h.agrees_during hexit done hdone)

theorem changed_during (h : k.Lawful e Good Ready Runs) (hv : Good v) (done : List A)
    (hdone : done <+: k.accesses v) (i : ι) : (k.cache (k.during v done)).changed i = true ↔
      (k.cache (k.registers v)).changed i = true ∨ ∃ a ∈ done, ∃ w ∈ k.writes v a, w.file = i := by
  induction done using List.reverseRecOn with
  | nil => simp [h.during_nil]
  | append_singleton done a ih =>
    rw [h.during_append hv hdone, WriteBack.changed_access,
      ih ((List.prefix_append done [a]).trans hdone)]
    simp [or_assoc, or_and_right, exists_or]

/-- Handling an exit leaves nothing to hand over exactly when its callbacks write nothing. -/
theorem unchanged_handle_iff (h : k.Lawful e Good Ready Runs) (hexit : k.Flushed Good exit) :
    (∀ i, (k.cache (k.registers (e.handle exit))).changed i = false) ↔
      ∀ a ∈ k.accesses exit, k.writes exit a = [] := by
  have hchanged := h.changed_during hexit.good _ List.prefix_rfl
  rw [(h.handle hexit.good).2]
  constructor
  · intro hclean a ha
    cases hwrites : k.writes exit a with
    | nil => rfl
    | cons w ws =>
      have hraised := (hchanged w.file).mpr (.inr ⟨a, ha, w, by simp [hwrites], rfl⟩)
      rw [hclean] at hraised
      cases hraised
  · intro hwrites i
    rw [Bool.eq_false_iff, Ne, hchanged, hexit.unchanged]
    rintro (hfalse | ⟨a, ha, w, hw, -⟩)
    · cases hfalse
    · rw [hwrites a ha] at hw
      cases hw

/-- After callbacks that write nothing, the exit can be handled once more. -/
theorem flushed_again (h : k.Lawful e Good Ready Runs) (hexit : k.Flushed Good exit)
    (hquiet : ∀ a ∈ k.accesses exit, k.writes exit a = []) (hagain : Good again)
    (hcache : k.cache (k.registers again) = k.cache (k.registers (e.handle exit))) :
    k.Flushed Good again ∧ k.allWrites exit = [] ∧ k.files again = k.files exit := by
  have hunchanged := (h.unchanged_handle_iff hexit).mpr hquiet
  have hnone : k.allWrites exit = [] := List.flatMap_eq_nil_iff.mpr hquiet
  have hagrees := h.agrees_handle hexit
  rw [hnone, ← hcache] at hagrees
  rw [← hcache] at hunchanged
  refine ⟨⟨hagain, funext hunchanged⟩, hnone, ?_⟩
  funext i
  have hflushed := congrFun hagrees.flushed i
  rwa [← pending, pending_of_unchanged (hunchanged i)] at hflushed

/-! ### Runs and steps -/

theorem run_spec (h : k.Lawful e Good Ready Runs) (hv : Good v) (hg : Runs g) :
    ∃ exit, e.exitOfRun g v = some exit ∧ k.Flushed Good exit ∧
      e.run g v = (true, e.handle exit) := by
  obtain ⟨v₁, hprepare, hgood₁, hclean⟩ := h.prepare hv
  obtain ⟨exit, henter, hgood, hchanged⟩ := h.enter hgood₁ hg
  have hexit := RunEngine.exitOfRun_of_entered hprepare henter
  exact ⟨exit, hexit, ⟨hgood, hchanged.trans hclean⟩, RunEngine.run_of_exit hexit⟩

theorem step_spec (h : k.Lawful e Good Ready Runs) (hv : Good v) (hg : Runs g) :
    ∃ exit again, e.exitOfStep g v = some exit ∧ e.exitsOfStep g v = [exit, again] ∧
      e.step g v = (true, e.finish (e.handle again)) ∧ k.Flushed Good exit ∧ Good again ∧
      k.cache (k.registers again) = k.cache (k.registers (e.handle exit)) := by
  obtain ⟨v₁, hstart, hgood₁, -⟩ := h.singleStep true hv
  obtain ⟨exit, hexit, hflushed, -⟩ := h.run_spec hgood₁ hg
  obtain ⟨again, hstop, hagain, hcache⟩ := h.singleStep false (h.handle hflushed.good).1
  have hstep : e.exitOfStep g v = some exit := by
    simp only [RunEngine.exitOfStep, hstart]
    exact hexit
  obtain ⟨hended, hexits⟩ := RunEngine.step_of_exit hstep hstop
  exact ⟨exit, again, hstep, hexits, hended, hflushed, hagain, hcache⟩

/-- A run loses no write of its callbacks. -/
theorem run_handledWell (h : k.Lawful e Good Ready Runs) (hv : Good v) (hg : Runs g) :
    k.HandledWell Good (e.exitOfRun g v).toList (e.run g v).2 := by
  obtain ⟨exit, hexit, hflushed, hrun⟩ := h.run_spec hv hg
  have hagrees := h.agrees_handle hflushed
  have hgood := (h.handle hflushed.good).1
  rw [hexit, hrun]
  constructor
  · exact hgood
  · refine ⟨List.forall_mem_singleton.mpr fun done hdone => ?_, hagrees.clean⟩
    exact (h.agrees_during hflushed done hdone).clean
  · intro first hfirst
    obtain rfl : exit = first := Option.some.inj hfirst
    exact ⟨h.sees_during hflushed, h.sees (h.ready hgood) hagrees⟩
  · intro u hu
    obtain rfl : directWrites (k.files exit) ([exit].flatMap k.allWrites) = u := Option.some.inj hu
    rw [List.flatMap_singleton]
    exact hagrees

/-- Neither does a step when nothing is written the first time that its exit is handled. -/
theorem step_handledWell (h : k.Lawful e Good Ready Runs) (hv : Good v) (hg : Runs g)
    (hquiet : ∀ exit ∈ e.exitOfStep g v, ∀ a ∈ k.accesses exit, k.writes exit a = []) :
    k.HandledWell Good (e.exitsOfStep g v) (e.step g v).2 := by
  obtain ⟨exit, again, hexit, hexits, hstep, hflushed, hgood, hcache⟩ := h.step_spec hv hg
  obtain ⟨hagain, hnone, hfiles⟩ := h.flushed_again hflushed (hquiet exit hexit) hgood hcache
  obtain ⟨hlast, hregisters⟩ := h.finish (h.handle hgood).1
  have hagrees := h.agrees_handle hagain
  rw [hfiles, ← hregisters] at hagrees
  rw [hexits, hstep]
  constructor
  · exact hlast
  · refine ⟨?_, hagrees.clean⟩
    rw [List.forall_mem_cons, List.forall_mem_singleton]
    exact ⟨fun done hdone => (h.agrees_during hflushed done hdone).clean,
      fun done hdone => (h.agrees_during hagain done hdone).clean⟩
  · intro first hfirst
    obtain rfl : exit = first := Option.some.inj hfirst
    rw [SeenIn, SeenIn, SeenIn, hnone]
    refine ⟨h.sees_during hflushed, ?_, h.sees (h.ready hlast) hagrees⟩
    intro done hdone
    have hsees := h.sees_during hagain done hdone
    rwa [hfiles] at hsees
  · intro u hu
    obtain rfl : directWrites (k.files exit) ([exit, again].flatMap k.allWrites) = u :=
      Option.some.inj hu
    rw [List.flatMap_cons, List.flatMap_singleton, hnone]
    exact hagrees

/-- Otherwise the second handling finds registers that it makes stale with changes in them. -/
theorem step_exclusiveIn_iff (h : k.Lawful e Good Ready Runs) (hv : Good v) (hg : Runs g) :
    k.ExclusiveIn (e.exitsOfStep g v) (e.step g v).2 ↔
      ∀ exit ∈ e.exitOfStep g v, ∀ a ∈ k.accesses exit, k.writes exit a = [] := by
  refine ⟨fun hexclusive => ?_, fun hquiet => (h.step_handledWell hv hg hquiet).exclusive⟩
  obtain ⟨exit, again, hexit, hexits, -, hflushed, -, hcache⟩ := h.step_spec hv hg
  rw [hexits] at hexclusive
  have hstart := hexclusive.1 again (by simp) [] List.nil_prefix
  rw [h.during_nil, hcache] at hstart
  rw [hexit]
  rintro first ⟨⟩
  exact (h.unchanged_handle_iff hflushed).mp (hstart rfl)

end Lawful

end Callbacks

/-! ## Whole runs -/

/-- The operations of a host on a processor. -/
inductive HostOp (A G : Type) where
  | access (a : A)
  | run (g : G)
  | step (g : G)

/-- A processor with the operations `O`. -/
structure CallbackMachine (V S A G O R : Type) {ι : Type} (F : ι → Type)
    extends Callbacks V S A F where
  engine : RunEngine V G
  perform : V → O → R × V
  view : O → HostOp A G

namespace CallbackMachine

variable {V S A G O R ι : Type} {F : ι → Type} [DecidableEq ι]

/-- The processors whose exit an operation handles, one after the other. -/
def exitsOf (m : CallbackMachine V S A G O R F) (v : V) (o : O) : List V :=
  match m.view o with
  | .access _ => []
  | .run g => (m.engine.exitOfRun g v).toList
  | .step g => m.engine.exitsOfStep g v

/-- Neither the callbacks nor the host find registers that are stale and changed. -/
def OpExclusive (m : CallbackMachine V S A G O R F) (v : V) (o : O) : Prop :=
  m.ExclusiveIn (m.exitsOf v o) (m.perform v o).2

/-- The callbacks write to no file the first time that a step handles its exit. -/
def NoEarlyWrites (m : CallbackMachine V S A G O R F) (v : V) (o : O) : Prop :=
  match m.view o with
  | .step g => ∀ exit ∈ m.engine.exitOfStep g v, ∀ a ∈ m.accesses exit, m.writes exit a = []
  | _ => True

/-- The files after an operation, where each write since the last exit goes straight to the owner's
files as the guest left them. Before the first exit they are not known. -/
def expected (m : CallbackMachine V S A G O R F) (v : V) (u : Option (∀ i, F i)) (o : O) :
    Option (∀ i, F i) :=
  match m.view o with
  | .access a => u.map (directWrites · (m.writes v a))
  | _ => m.resulting (m.exitsOf v o)

/-- A processor with the files that are expected. -/
def performExpecting (m : CallbackMachine V S A G O R F) (p : V × Option (∀ i, F i)) (o : O) :
    R × (V × Option (∀ i, F i)) :=
  ((m.perform p.1 o).1, (m.perform p.1 o).2, m.expected p.1 p.2 o)

/-- What the callbacks wrote is seen while the exits of the operation are handled, and with what
the host wrote after it. -/
def OpSeen (m : CallbackMachine V S A G O R F) (p : V × Option (∀ i, F i)) (o : O) : Prop :=
  (∀ first ∈ (m.exitsOf p.1 o).head?,
    m.SeenIn (m.perform p.1 o).2 (m.files first) (m.exitsOf p.1 o)) ∧
    ∀ u ∈ m.expected p.1 p.2 o, m.Sees (m.registers (m.perform p.1 o).2) u

/-- In a run from `v`, no registers are stale and changed at once, and all that the callbacks write
is seen. -/
def WritesKept (m : CallbackMachine V S A G O R F) (v : V) (os : List O) : Prop :=
  Along m.perform m.OpExclusive v os ∧ Along m.performExpecting m.OpSeen (v, none) os

/-- The operations of `Ok` do what their view says, by calls that succeed. -/
structure Lawful (m : CallbackMachine V S A G O R F) (Good : V → Prop) (Ready : S → Prop)
    (Runs : G → Prop) (Ok : O → Prop) : Prop where
  callbacks : m.toCallbacks.Lawful m.engine Good Ready Runs
  access : ∀ {v o a}, Good v → Ok o → m.view o = .access a → Good (m.perform v o).2 ∧
    m.cache (m.registers (m.perform v o).2) = (m.cache (m.registers v)).access (m.writes v a)
  run : ∀ {v o g}, Ok o → m.view o = .run g → Runs g ∧ (m.perform v o).2 = (m.engine.run g v).2
  step : ∀ {v o g}, Ok o → m.view o = .step g → Runs g ∧ (m.perform v o).2 = (m.engine.step g v).2

/-- The processor is good, and its copy agrees with the files that are expected. -/
def Expecting (m : CallbackMachine V S A G O R F) (Good : V → Prop) (p : V × Option (∀ i, F i)) :
    Prop :=
  Good p.1 ∧ ∀ u ∈ p.2, Agrees Set.univ (m.cache (m.registers p.1)) u

namespace Lawful

variable {m : CallbackMachine V S A G O R F} {Good : V → Prop} {Ready : S → Prop} {Runs : G → Prop}
  {Ok : O → Prop} {v : V} {o : O}

theorem opExclusive_iff (h : m.Lawful Good Ready Runs Ok) (hv : Good v) (ho : Ok o) :
    m.OpExclusive v o ↔ m.NoEarlyWrites v o := by
  rw [OpExclusive, NoEarlyWrites, exitsOf]
  cases hview : m.view o with
  | access a =>
    obtain ⟨-, hcache⟩ := h.access hv ho hview
    refine iff_of_true ⟨fun exit hexit => absurd hexit List.not_mem_nil, ?_⟩ trivial
    rw [hcache]
    exact exclusive_access _ _
  | run g =>
    obtain ⟨hg, hperform⟩ := h.run (v := v) ho hview
    rw [hperform]
    exact iff_of_true (h.callbacks.run_handledWell hv hg).exclusive trivial
  | step g =>
    obtain ⟨hg, hperform⟩ := h.step (v := v) ho hview
    rw [hperform]
    exact h.callbacks.step_exclusiveIn_iff hv hg

theorem perform_expecting (h : m.Lawful Good Ready Runs Ok) {p : V × Option (∀ i, F i)}
    (hp : m.Expecting Good p) (ho : Ok o) (hearly : m.NoEarlyWrites p.1 o) :
    m.OpSeen p o ∧ m.Expecting Good (m.performExpecting p o).2 := by
  have hnext : Good (m.perform p.1 o).2 ∧
      (∀ first ∈ (m.exitsOf p.1 o).head?,
        m.SeenIn (m.perform p.1 o).2 (m.files first) (m.exitsOf p.1 o)) ∧
      ∀ u ∈ m.expected p.1 p.2 o,
        Agrees Set.univ (m.cache (m.registers (m.perform p.1 o).2)) u := by
    rw [NoEarlyWrites] at hearly
    rw [exitsOf, expected, exitsOf]
    cases hview : m.view o with
    | access a =>
      obtain ⟨hgood, hcache⟩ := h.access hp.1 ho hview
      refine ⟨hgood, (fun first hfirst => by cases hfirst), fun u hu => ?_⟩
      obtain ⟨before, hbefore, rfl⟩ := Option.map_eq_some_iff.mp hu
      rw [hcache]
      exact (hp.2 before hbefore).access _
    | run g =>
      obtain ⟨hg, hperform⟩ := h.run (v := p.1) ho hview
      have hwell := h.callbacks.run_handledWell hp.1 hg
      rw [hperform]
      exact ⟨hwell.good, hwell.seen, hwell.agrees⟩
    | step g =>
      obtain ⟨hg, hperform⟩ := h.step (v := p.1) ho hview
      rw [hview] at hearly
      have hwell := h.callbacks.step_handledWell hp.1 hg hearly
      rw [hperform]
      exact ⟨hwell.good, hwell.seen, hwell.agrees⟩
  obtain ⟨hgood, hseen, hagrees⟩ := hnext
  refine ⟨⟨hseen, fun u hu => ?_⟩, hgood, hagrees⟩
  exact h.callbacks.sees (h.callbacks.ready hgood) (hagrees u hu)

/-- The writes of the callbacks are kept exactly in the runs without early writes. -/
theorem writesKept_iff (h : m.Lawful Good Ready Runs Ok) (hv : Good v) {os : List O}
    (hos : ∀ o ∈ os, Ok o) : m.WritesKept v os ↔ Along m.perform m.NoEarlyWrites v os := by
  have hstart : ∀ {v}, Good v → m.Expecting Good (v, none) := fun hv =>
    ⟨hv, fun _ hnone => by cases hnone⟩
  have hexclusive : Along m.perform m.OpExclusive v os ↔ Along m.perform m.NoEarlyWrites v os := by
    apply along_iff_of_forall Good
    · exact fun _ _ ho hv => h.opExclusive_iff hv ho
    · exact fun _ _ ho hv hearly => (h.perform_expecting (hstart hv) ho hearly).2.1
    · exact hv
    · exact hos
  refine ⟨fun hkept => hexclusive.mp hkept.1, fun hearly => ⟨hexclusive.mpr hearly, ?_⟩⟩
  apply hearly.transfer fun v p => p.1 = v ∧ m.Expecting Good p
  · rintro v p o ho hearly ⟨rfl, hp⟩
    obtain ⟨hseen, hnext⟩ := h.perform_expecting hp ho hearly
    exact ⟨hseen, rfl, hnext⟩
  · exact ⟨rfl, hstart hv⟩
  · exact hos

end Lawful

end CallbackMachine

end Virt86
