import Virt86.PartialRuns
import Mathlib.Data.List.Perm.Basic
import Mathlib.Tactic.SplitIfs

/-!
# The machines of a platform

A platform keeps the machines that it created until they are freed or it is destroyed itself. What
it takes to create and destroy one is left to the platforms. When these keep account of what each
machine owns, so does any run of the platform, and its destruction leaves what others own.
-/

namespace Virt86

inductive PlatformInitStatus where
  | Uninitialized | OK | Unavailable | Unsupported | Failed
  deriving DecidableEq, Repr

variable {V S X C ρ : Type}

/-- What the platforms implement: creating a machine from its specification, which may not return,
its destructor, and the calls on a machine while it exists. -/
structure PlatformImpl (V S X C : Type) where
  createVMImpl : X → S → Option (Option V × S)
  call : C → V → S → V × S
  destroyVM : V → S → S

/-- `m_vms`. A number that no machine had before stands for the address of each. -/
structure Platform (V : Type) where
  m_vms : List (ℕ × V)
  next : ℕ
  deriving DecidableEq, Repr

inductive PlatformCall (X C : Type) where
  | createVM (specifications : X)
  | freeVM (vm : ℕ)
  | onVM (vm : ℕ) (call : C)
  deriving DecidableEq, Repr

inductive PlatformResult where
  | created (vm : Option ℕ)
  | freed (found : Bool)
  | called
  deriving DecidableEq, Repr

namespace Platform

variable (impl : PlatformImpl V S X C)

def initial : Platform V := ⟨[], 0⟩

def createVM (platform : Platform V) (s : S) (specifications : X) :
    Option (Option ℕ × Platform V × S) :=
  (impl.createVMImpl specifications s).map fun r =>
    match r.1 with
    | some vm =>
      (some platform.next,
        ⟨platform.m_vms ++ [(platform.next, vm)], platform.next + 1⟩, r.2)
    | none => (none, platform, r.2)

/-- The loop of `FreeVM`. -/
def eraseVM (vm : ℕ) (s : S) : List (ℕ × V) → Bool × List (ℕ × V) × S
  | [] => (false, [], s)
  | it :: vms =>
    if it.1 = vm then (true, vms, impl.destroyVM it.2 s)
    else ((eraseVM vm s vms).1, it :: (eraseVM vm s vms).2.1, (eraseVM vm s vms).2.2)

def freeVM (platform : Platform V) (s : S) (vm : ℕ) : Bool × Platform V × S :=
  let r := eraseVM impl vm s platform.m_vms
  (r.1, { platform with m_vms := r.2.1 }, r.2.2)

/-- A call on the machine at an address. -/
def updateVM (vm : ℕ) (call : C) (s : S) : List (ℕ × V) → List (ℕ × V) × S
  | [] => ([], s)
  | it :: vms =>
    if it.1 = vm then ((it.1, (impl.call call it.2 s).1) :: vms, (impl.call call it.2 s).2)
    else (it :: (updateVM vm call s vms).1, (updateVM vm call s vms).2)

def destroyVMs (platform : Platform V) (s : S) : Platform V × S :=
  ({ platform with m_vms := [] }, platform.m_vms.foldl (fun s it => impl.destroyVM it.2 s) s)

def exec (state : Platform V × S) :
    PlatformCall X C → Option (PlatformResult × Platform V × S)
  | .createVM specifications =>
    (createVM impl state.1 state.2 specifications).map fun r => (.created r.1, r.2)
  | .freeVM vm =>
    let r := freeVM impl state.1 state.2 vm
    some (.freed r.1, r.2)
  | .onVM vm call =>
    let r := updateVM impl vm call state.2 state.1.m_vms
    some (.called, { state.1 with m_vms := r.1 }, r.2)

theorem eraseVM_subset (vm : ℕ) (s : S) (vms : List (ℕ × V)) :
    (eraseVM impl vm s vms).2.1 ⊆ vms := by
  induction vms with
  | nil => exact List.Subset.refl _
  | cons it vms ih =>
    unfold eraseVM
    split_ifs
    · exact List.subset_cons_self it vms
    · exact List.cons_subset_cons it ih

theorem updateVM_forall {impl : PlatformImpl V S X C} {P : V → Prop} {call : C}
    (hcall : ∀ {v} (s : S), P v → P (impl.call call v s).1) (vm : ℕ) {vms : List (ℕ × V)} {s : S}
    (hall : ∀ it ∈ vms, P it.2) : ∀ it ∈ (updateVM impl vm call s vms).1, P it.2 := by
  induction vms with
  | nil => exact hall
  | cons it vms ih =>
    obtain ⟨hit, hvms⟩ := List.forall_mem_cons.mp hall
    unfold updateVM
    split_ifs
    · exact List.forall_mem_cons.mpr ⟨hcall s hit, hvms⟩
    · exact List.forall_mem_cons.mpr ⟨hit, ih hvms⟩

/-- Every call of a platform returns when the creation of every machine does. -/
theorem run_isSome {impl : PlatformImpl V S X C} {calls : List (PlatformCall X C)}
    (h : ∀ specifications, .createVM specifications ∈ calls → ∀ s,
      (impl.createVMImpl specifications s).isSome = true) (state : Platform V × S) :
    (runSome (exec impl) state calls).isSome = true := by
  induction calls generalizing state with
  | nil => rfl
  | cons call calls ih =>
    have hexec : (exec impl state call).isSome = true := by
      cases call with
      | createVM specifications =>
        rw [exec, Option.isSome_map, createVM, Option.isSome_map]
        exact h specifications List.mem_cons_self state.2
      | freeVM vm => rfl
      | onVM vm call => rfl
    obtain ⟨⟨r, state'⟩, hnext⟩ := Option.isSome_iff_exists.mp hexec
    rw [runSome_cons hnext, Option.isSome_map]
    exact ih (fun specifications hmem => h specifications (List.mem_cons_of_mem _ hmem)) state'

/-- What the machines of a platform own. -/
def owned (owns : V → List ρ) (vms : List (ℕ × V)) : List ρ := vms.flatMap fun it => owns it.2

end Platform

/-- The functions of a platform keep account of what each machine owns, next to what others own,
among which there is what the platform itself needs. -/
structure Accounts (impl : PlatformImpl V S X C) (holds : S → List ρ → Prop) (owns : V → List ρ)
    (others : List ρ) : Prop where
  of_perm : ∀ {s a b}, holds s a → a.Perm b → holds s b
  create : ∀ {s a specifications r s'}, holds s (a ++ others) →
    impl.createVMImpl specifications s = some (r, s') → holds s' (r.elim [] owns ++ (a ++ others))
  call : ∀ {s a vm} (call : C), holds s (owns vm ++ a) →
    holds (impl.call call vm s).2 (owns (impl.call call vm s).1 ++ a)
  destroy : ∀ {s a vm}, holds s (owns vm ++ a) → holds (impl.destroyVM vm s) a

namespace Accounts

open Platform

variable {impl : PlatformImpl V S X C} {holds : S → List ρ → Prop} {owns : V → List ρ}
  {others : List ρ}

theorem eraseVM (h : Accounts impl holds owns others) (vm : ℕ) {vms : List (ℕ × V)} {s : S}
    {a : List ρ} (hs : holds s (owned owns vms ++ a)) :
    holds (eraseVM impl vm s vms).2.2 (owned owns (eraseVM impl vm s vms).2.1 ++ a) := by
  induction vms generalizing a with
  | nil => exact hs
  | cons it vms ih =>
    simp only [owned, List.flatMap_cons, List.append_assoc] at hs
    unfold Platform.eraseVM
    split_ifs
    · exact h.destroy hs
    · have hswap := h.of_perm hs (List.perm_append_comm_assoc _ _ a)
      simp only [owned, List.flatMap_cons, List.append_assoc]
      exact h.of_perm (ih hswap) (List.perm_append_comm_assoc _ _ a)

theorem updateVM (h : Accounts impl holds owns others) (vm : ℕ) (call : C) {vms : List (ℕ × V)}
    {s : S} {a : List ρ} (hs : holds s (owned owns vms ++ a)) :
    holds (updateVM impl vm call s vms).2 (owned owns (updateVM impl vm call s vms).1 ++ a) := by
  induction vms generalizing a with
  | nil => exact hs
  | cons it vms ih =>
    simp only [owned, List.flatMap_cons, List.append_assoc] at hs
    unfold Platform.updateVM
    split_ifs
    · simp only [owned, List.flatMap_cons, List.append_assoc]
      exact h.call call hs
    · have hswap := h.of_perm hs (List.perm_append_comm_assoc _ _ a)
      simp only [owned, List.flatMap_cons, List.append_assoc]
      exact h.of_perm (ih hswap) (List.perm_append_comm_assoc _ _ a)

/-- One call of a platform. -/
theorem exec (h : Accounts impl holds owns others) {state state' : Platform V × S}
    {call : PlatformCall X C} {r : PlatformResult}
    (hs : holds state.2 (owned owns state.1.m_vms ++ others))
    (hexec : exec impl state call = some (r, state')) :
    holds state'.2 (owned owns state'.1.m_vms ++ others) := by
  cases call with
  | createVM specifications =>
    cases himpl : impl.createVMImpl specifications state.2 with
    | none => simp [Platform.exec, Platform.createVM, himpl] at hexec
    | some created =>
      have hcreated := h.create hs himpl
      cases hvm : created.1 with
      | none =>
        simp only [Platform.exec, Platform.createVM, himpl, Option.map_some, hvm,
          Option.some.injEq, Prod.mk.injEq] at hexec
        obtain ⟨-, rfl⟩ := hexec
        rw [hvm] at hcreated
        exact hcreated
      | some vm =>
        simp only [Platform.exec, Platform.createVM, himpl, Option.map_some, hvm,
          Option.some.injEq, Prod.mk.injEq] at hexec
        obtain ⟨-, rfl⟩ := hexec
        rw [hvm] at hcreated
        simp only [owned, List.flatMap_append, List.flatMap_cons, List.flatMap_nil,
          List.append_nil, List.append_assoc]
        exact h.of_perm hcreated (List.perm_append_comm_assoc _ _ _)
  | freeVM vm =>
    simp only [Platform.exec, Option.some.injEq, Prod.mk.injEq] at hexec
    obtain ⟨-, rfl⟩ := hexec
    exact h.eraseVM vm hs
  | onVM vm call =>
    simp only [Platform.exec, Option.some.injEq, Prod.mk.injEq] at hexec
    obtain ⟨-, rfl⟩ := hexec
    exact h.updateVM vm call hs

/-- A run of the platform. -/
theorem run (h : Accounts impl holds owns others) {calls : List (PlatformCall X C)}
    {state state' : Platform V × S} {results : List PlatformResult}
    (hs : holds state.2 (owned owns state.1.m_vms ++ others))
    (hrun : runSome (Platform.exec impl) state calls = some (results, state')) :
    holds state'.2 (owned owns state'.1.m_vms ++ others) :=
  runSome_preserves (fun hs hexec => h.exec hs hexec) hs hrun

/-- One call of a platform keeps what holds of each machine that is created and what the calls on it
keep. -/
theorem exec_forall {P : V → Prop}
    (hcreate : ∀ {s a specifications vm s'}, holds s (a ++ others) →
      impl.createVMImpl specifications s = some (some vm, s') → P vm)
    (hcall : ∀ {vm} (call : C) (s : S), P vm → P (impl.call call vm s).1)
    {state state' : Platform V × S} {call : PlatformCall X C} {r : PlatformResult}
    (hs : holds state.2 (owned owns state.1.m_vms ++ others))
    (hall : ∀ it ∈ state.1.m_vms, P it.2)
    (hexec : Platform.exec impl state call = some (r, state')) :
    ∀ it ∈ state'.1.m_vms, P it.2 := by
  cases call with
  | createVM specifications =>
    simp only [Platform.exec, Platform.createVM, Option.map_map, Option.map_eq_some_iff] at hexec
    obtain ⟨⟨created, s'⟩, himpl, heq⟩ := hexec
    cases created with
    | none =>
      obtain ⟨-, rfl⟩ := Prod.mk.inj heq
      exact hall
    | some vm =>
      obtain ⟨-, rfl⟩ := Prod.mk.inj heq
      intro it hit
      rw [List.mem_append, List.mem_singleton] at hit
      rcases hit with hit | rfl
      · exact hall it hit
      · exact hcreate hs himpl
  | freeVM vm =>
    simp only [Platform.exec, Option.some.injEq, Prod.mk.injEq] at hexec
    obtain ⟨-, rfl⟩ := hexec
    exact fun it hit => hall it (eraseVM_subset impl vm state.2 state.1.m_vms hit)
  | onVM vm call =>
    simp only [Platform.exec, Option.some.injEq, Prod.mk.injEq] at hexec
    obtain ⟨-, rfl⟩ := hexec
    exact updateVM_forall (fun s => hcall call s) vm hall

/-- So does a run. -/
theorem run_forall (h : Accounts impl holds owns others) {P : V → Prop}
    (hcreate : ∀ {s a specifications vm s'}, holds s (a ++ others) →
      impl.createVMImpl specifications s = some (some vm, s') → P vm)
    (hcall : ∀ {vm} (call : C) (s : S), P vm → P (impl.call call vm s).1)
    {calls : List (PlatformCall X C)} {state state' : Platform V × S}
    {results : List PlatformResult} (hs : holds state.2 (owned owns state.1.m_vms ++ others))
    (hall : ∀ it ∈ state.1.m_vms, P it.2)
    (hrun : runSome (Platform.exec impl) state calls = some (results, state')) :
    ∀ it ∈ state'.1.m_vms, P it.2 := by
  have hinv : holds state.2 (owned owns state.1.m_vms ++ others) ∧
      ∀ it ∈ state.1.m_vms, P it.2 := ⟨hs, hall⟩
  have hstep {s s' : Platform V × S} {call : PlatformCall X C} {r : PlatformResult}
      (hinv : holds s.2 (owned owns s.1.m_vms ++ others) ∧ ∀ it ∈ s.1.m_vms, P it.2)
      (hexec : Platform.exec impl s call = some (r, s')) :
      holds s'.2 (owned owns s'.1.m_vms ++ others) ∧ ∀ it ∈ s'.1.m_vms, P it.2 :=
    ⟨h.exec hinv.1 hexec, exec_forall hcreate hcall hinv.1 hinv.2 hexec⟩
  exact (runSome_preserves hstep hinv hrun).2

/-- The destruction of a platform's machines leaves what others own. -/
theorem destroyVMs (h : Accounts impl holds owns others) {platform : Platform V} {s : S}
    (hs : holds s (owned owns platform.m_vms ++ others)) :
    holds (platform.destroyVMs impl s).2 others := by
  unfold Platform.destroyVMs
  generalize platform.m_vms = vms at hs
  dsimp only
  induction vms generalizing s with
  | nil => exact hs
  | cons it vms ih =>
    simp only [owned, List.flatMap_cons, List.append_assoc] at hs
    exact ih (h.destroy hs)

end Accounts

end Virt86
