import Virt86.HaxmProcessor
import Virt86.InterruptQueue
import Virt86.KvmCacheRefinement
import Virt86.Simulations

/-!
# Interrupt windows of KVM and HAXM processors

Both platforms share a structure with the hypervisor in which they read whether the guest can take
an interrupt and ask for an exit as soon as it can. `Run` and `Step` look after the queue of pending
interrupts first. Then they enter the guest, if nothing fails before that.
-/

namespace Virt86

/-- The fields of `kvm_run` and of `hax_tunnel` that interrupts use: bytes in the first, `int`s in
the second. -/
structure InterruptTunnel (w : ℕ) where
  ready_for_interrupt_injection : BitVec w
  request_interrupt_window : BitVec w
  deriving DecidableEq, Repr

namespace InterruptTunnel

variable {w : ℕ}

/-- `InjectInterrupt`; the hypervisor tells whether it takes the vector. -/
def injectInterrupt (t : InterruptTunnel w) (takes : U8 → Bool) (vector : U8) :
    VPOperationStatus × InterruptTunnel w :=
  if takes vector then (.OK, { t with request_interrupt_window := 0 }) else (.Failed, t)

def canInjectInterrupt (t : InterruptTunnel w) : Bool := t.ready_for_interrupt_injection ≠ 0

def requestInterruptWindow (t : InterruptTunnel w) : InterruptTunnel w :=
  { t with request_interrupt_window := 1 }

end InterruptTunnel

/-- A virtual processor with its queue of pending interrupts. -/
structure QueuedProcessor (V : Type) (w : ℕ) where
  vp : V
  pendingInterrupts : List U8
  tunnel : InterruptTunnel w

/-- What the hypervisor answers in a call: whether it takes a vector, what the guest does, and
whether the guest can take an interrupt afterwards. -/
structure HypervisorAnswers (G : Type) (w : ℕ) where
  takes : U8 → Bool
  guest : G
  ready : BitVec w

/-- The operations on a processor that concern its interrupts. -/
inductive QueuedOp (G : Type) (w : ℕ) where
  | enqueueInterrupt (vector : U8)
  | run (answers : HypervisorAnswers G w)
  | step (answers : HypervisorAnswers G w)

namespace QueuedProcessor

variable {V G : Type} {w : ℕ}

def injectPendingInterrupt (p : QueuedProcessor V w) (takes : U8 → Bool) : QueuedProcessor V w :=
  match p.pendingInterrupts with
  | [] => p
  | vector :: rest =>
    { p with pendingInterrupts := rest, tunnel := (p.tunnel.injectInterrupt takes vector).2 }

def handleInterruptQueue (p : QueuedProcessor V w) (takes : U8 → Bool) : QueuedProcessor V w :=
  if p.pendingInterrupts.length > 0 then
    if p.tunnel.canInjectInterrupt then p.injectPendingInterrupt takes
    else { p with tunnel := p.tunnel.requestInterruptWindow }
  else p

/-- A run or a step gets to the hypervisor. -/
def runEnters (engine : RunEngine V G) (vp : V) : Bool := (engine.prepare vp).1

def stepEnters (engine : RunEngine V G) (vp : V) : Bool :=
  (engine.singleStep true vp).1 && runEnters engine (engine.singleStep true vp).2

/-- `RunImpl` or `StepImpl`, with the processor that the hypervisor is entered with. -/
def execute (p : QueuedProcessor V w) (enters : Bool) (vp : V) (ready : BitVec w) :
    Option (QueuedProcessor V w) × QueuedProcessor V w :=
  if enters then
    (some p, { p with vp, tunnel := { p.tunnel with ready_for_interrupt_injection := ready } })
  else (none, { p with vp })

/-- An operation, with the processor at the entry into the hypervisor if there is one. -/
def perform (engine : RunEngine V G) (guestDebugging : Bool) (p : QueuedProcessor V w) :
    QueuedOp G w → Option (QueuedProcessor V w) × QueuedProcessor V w
  | .enqueueInterrupt vector =>
    (none, { p with pendingInterrupts := p.pendingInterrupts ++ [vector] })
  | .run answers =>
    let p := p.handleInterruptQueue answers.takes
    p.execute (runEnters engine p.vp) (engine.run answers.guest p.vp).2 answers.ready
  | .step answers =>
    if guestDebugging then
      let p := p.handleInterruptQueue answers.takes
      p.execute (stepEnters engine p.vp) (engine.step answers.guest p.vp).2 answers.ready
    else (none, p)

/-- The guest exits as soon as it can take the next pending interrupt. -/
def WindowRequested (p : QueuedProcessor V w) : Prop :=
  p.pendingInterrupts ≠ [] → p.tunnel.request_interrupt_window = 1

/-- At most one vector is pending, or the guest cannot take an interrupt, or the hypervisor refuses
the next vector while the window is already requested. -/
def KeepsWindow (p : QueuedProcessor V w) (takes : U8 → Bool) : Prop :=
  p.pendingInterrupts.length ≤ 1 ∨ p.tunnel.ready_for_interrupt_injection = 0 ∨
    ((∀ vector ∈ p.pendingInterrupts.head?, takes vector = false) ∧
      p.tunnel.request_interrupt_window = 1)

/-- An operation that enters the hypervisor does so from a processor that keeps the window. -/
def EntersWithWindow (engine : RunEngine V G) (guestDebugging : Bool) (p : QueuedProcessor V w) :
    QueuedOp G w → Prop
  | .enqueueInterrupt _ => True
  | .run answers => runEnters engine p.vp = true → p.KeepsWindow answers.takes
  | .step answers =>
    guestDebugging = true → stepEnters engine p.vp = true → p.KeepsWindow answers.takes

section HandleInterruptQueue

variable {p : QueuedProcessor V w} {takes : U8 → Bool} {vector : U8} {rest : List U8}

theorem handleInterruptQueue_of_nil (hp : p.pendingInterrupts = []) :
    p.handleInterruptQueue takes = p := by
  simp [handleInterruptQueue, hp]

theorem handleInterruptQueue_of_ready (hp : p.pendingInterrupts = vector :: rest)
    (hready : p.tunnel.canInjectInterrupt = true) :
    p.handleInterruptQueue takes =
      { p with
        pendingInterrupts := rest
        tunnel := (p.tunnel.injectInterrupt takes vector).2 } := by
  simp [handleInterruptQueue, injectPendingInterrupt, hp, hready]

theorem handleInterruptQueue_of_not_ready (hp : p.pendingInterrupts = vector :: rest)
    (hready : p.tunnel.canInjectInterrupt = false) :
    p.handleInterruptQueue takes = { p with tunnel := p.tunnel.requestInterruptWindow } := by
  simp [handleInterruptQueue, hp, hready]

theorem handleInterruptQueue_vp (p : QueuedProcessor V w) (takes : U8 → Bool) :
    (p.handleInterruptQueue takes).vp = p.vp := by
  cases hp : p.pendingInterrupts with
  | nil => rw [handleInterruptQueue_of_nil hp]
  | cons vector rest =>
    cases hready : p.tunnel.canInjectInterrupt with
    | true => rw [handleInterruptQueue_of_ready hp hready]
    | false => rw [handleInterruptQueue_of_not_ready hp hready]

/-- Looking after the queue leaves the window requested exactly when the processor keeps it. -/
theorem windowRequested_handleInterruptQueue_iff (hw : 0 < w) (p : QueuedProcessor V w)
    (takes : U8 → Bool) : (p.handleInterruptQueue takes).WindowRequested ↔ p.KeepsWindow takes := by
  have hzero : (0 : BitVec w) ≠ 1 := by
    intro h
    have hnat := congrArg BitVec.toNat h
    simp only [BitVec.ofNat_eq_ofNat, BitVec.toNat_ofNat, Nat.zero_mod] at hnat
    rw [Nat.mod_eq_of_lt (Nat.one_lt_two_pow (by omega))] at hnat
    omega
  cases hp : p.pendingInterrupts with
  | nil =>
    rw [handleInterruptQueue_of_nil hp]
    exact ⟨fun _ => .inl (by simp [hp]), fun _ hne => absurd hp hne⟩
  | cons vector rest =>
    have hlength : p.pendingInterrupts.length ≤ 1 ↔ rest = [] := by simp [hp]
    have hhead : (∀ v ∈ p.pendingInterrupts.head?, takes v = false) ↔ takes vector = false := by
      simp [hp]
    rw [KeepsWindow, hlength, hhead]
    cases hready : p.tunnel.canInjectInterrupt with
    | false =>
      rw [handleInterruptQueue_of_not_ready hp hready]
      refine ⟨fun _ => .inr (.inl ?_), fun _ _ => rfl⟩
      simpa [InterruptTunnel.canInjectInterrupt] using hready
    | true =>
      have hne : p.tunnel.ready_for_interrupt_injection ≠ 0 := by
        simpa [InterruptTunnel.canInjectInterrupt] using hready
      rw [handleInterruptQueue_of_ready hp hready]
      cases htakes : takes vector with
      | true =>
        have hwindow : (p.tunnel.injectInterrupt takes vector).2.request_interrupt_window = 0 := by
          simp only [InterruptTunnel.injectInterrupt, htakes, if_true]
        constructor
        · intro h
          by_contra hc
          exact hzero (hwindow.symm.trans (h fun hrest => hc (.inl hrest)))
        · rintro (hrest | hnot | ⟨hfalse, -⟩) hpending
          · exact absurd hrest hpending
          · exact absurd hnot hne
          · cases hfalse
      | false =>
        have hwindow : (p.tunnel.injectInterrupt takes vector).2.request_interrupt_window =
            p.tunnel.request_interrupt_window := by
          simp only [InterruptTunnel.injectInterrupt, htakes, Bool.false_eq_true, if_false]
        constructor
        · intro h
          by_cases hrest : rest = []
          · exact .inl hrest
          · exact .inr (.inr ⟨rfl, hwindow.symm.trans (h hrest)⟩)
        · rintro (hrest | hnot | ⟨-, hone⟩) hpending
          · exact absurd hrest hpending
          · exact absurd hnot hne
          · exact hwindow.trans hone

/-- The steps of the owner in `HandleInterruptQueue` when no other thread interferes. -/
def queueEvents (p : QueuedProcessor V w) (takes : U8 → Bool) : List QueueEvent :=
  match p.pendingInterrupts with
  | [] => [.testPending]
  | vector :: _ =>
    if p.tunnel.canInjectInterrupt then
      [.testPending, .canInject true, .testEmpty,
        .inject (p.tunnel.injectInterrupt takes vector).1]
    else [.testPending, .canInject false, .requestWindow]

/-- Those steps leave the queue as `HandleInterruptQueue` does, and the owner about to enter. -/
theorem exec_queueEvents (p : QueuedProcessor V w) (takes : U8 → Bool) (guestDebugging : Bool)
    (injected : List (U8 × VPOperationStatus)) (counts : List ℕ) :
    ∃ injected' counts',
      InterruptQueue.exec guestDebugging ⟨p.pendingInterrupts, .testPending, injected, counts⟩
          (p.queueEvents takes) =
        some ⟨(p.handleInterruptQueue takes).pendingInterrupts, .execute, injected', counts'⟩ := by
  cases hp : p.pendingInterrupts with
  | nil =>
    refine ⟨injected, counts, ?_⟩
    simp [queueEvents, hp, handleInterruptQueue_of_nil hp, InterruptQueue.exec,
      InterruptQueue.step]
  | cons vector rest =>
    cases hready : p.tunnel.canInjectInterrupt with
    | true =>
      let q : InterruptQueue := ⟨vector :: rest, .inject, injected, counts⟩
      let status := (p.tunnel.injectInterrupt takes vector).1
      refine ⟨(q.injectFront status).injected, (q.injectFront status).callInjections, ?_⟩
      simp only [queueEvents, hp, hready, handleInterruptQueue_of_ready hp hready]
      rfl
    | false =>
      refine ⟨injected, counts, ?_⟩
      simp only [queueEvents, hp, hready, handleInterruptQueue_of_not_ready hp hready]
      rfl

end HandleInterruptQueue

/-- One operation: it enters the hypervisor with the window requested exactly when its condition
holds before it. -/
theorem windowRequested_perform_iff (hw : 0 < w) (engine : RunEngine V G) (guestDebugging : Bool)
    (p : QueuedProcessor V w) (op : QueuedOp G w) :
    (∀ entry ∈ (p.perform engine guestDebugging op).1, entry.WindowRequested) ↔
      p.EntersWithWindow engine guestDebugging op := by
  have hexecute : ∀ (q : QueuedProcessor V w) (enters : Bool) (vp : V) (ready : BitVec w),
      (∀ entry ∈ (q.execute enters vp ready).1, entry.WindowRequested) ↔
        (enters = true → q.WindowRequested) := by
    intro q enters vp ready
    cases enters <;> simp [execute]
  cases op with
  | enqueueInterrupt vector => simp [perform, EntersWithWindow]
  | run answers =>
    simp only [perform, EntersWithWindow, hexecute, handleInterruptQueue_vp,
      windowRequested_handleInterruptQueue_iff hw]
  | step answers =>
    cases guestDebugging with
    | false => simp [perform, EntersWithWindow]
    | true =>
      simp only [perform, EntersWithWindow, if_true, hexecute, handleInterruptQueue_vp,
        windowRequested_handleInterruptQueue_iff hw, forall_const]

/-- Every entry into the hypervisor in a run of operations. -/
theorem windowRequested_runAll_iff (hw : 0 < w) (engine : RunEngine V G) (guestDebugging : Bool)
    (p : QueuedProcessor V w) (ops : List (QueuedOp G w)) :
    (∀ entry, some entry ∈ (runAll (perform engine guestDebugging) p ops).1 →
        entry.WindowRequested) ↔
      Along (perform engine guestDebugging) (EntersWithWindow engine guestDebugging) p ops := by
  rw [← along_congr (windowRequested_perform_iff hw engine guestDebugging),
    ← forall_results_iff_along
      (Q := fun r : Option (QueuedProcessor V w) => ∀ entry ∈ r, entry.WindowRequested)]
  constructor
  · rintro h r hr entry rfl
    exact h entry hr
  · intro h entry hentry
    exact h _ hentry entry rfl

end QueuedProcessor

/-- In every sequence of enqueued vectors, runs and steps of a KVM or a HAXM processor, every entry
into the hypervisor with vectors pending has the window requested if and only if at each call that
enters there is at most one vector pending before it, or the guest cannot take an interrupt, or the
next vector is refused while the window is already requested. -/
theorem window_requested_at_entries_iff {D E : Type} (guestDebugging : Bool)
    (kvm : QueuedProcessor (Kvm.KvmVirtualProcessor D) 8) (kvmOps : List (QueuedOp Kvm.KvmGuest 8))
    (haxm : QueuedProcessor (Haxm.HaxmVirtualProcessor E) 32)
    (haxmOps : List (QueuedOp Haxm.HaxmGuest 32)) :
    ((∀ entry, some entry ∈ (runAll
          (QueuedProcessor.perform Kvm.KvmVirtualProcessor.engine guestDebugging) kvm kvmOps).1 →
        entry.WindowRequested) ↔
      Along (QueuedProcessor.perform Kvm.KvmVirtualProcessor.engine guestDebugging)
        (QueuedProcessor.EntersWithWindow Kvm.KvmVirtualProcessor.engine guestDebugging)
        kvm kvmOps) ∧
    ((∀ entry, some entry ∈ (runAll
          (QueuedProcessor.perform Haxm.HaxmVirtualProcessor.engine guestDebugging) haxm haxmOps).1 →
        entry.WindowRequested) ↔
      Along (QueuedProcessor.perform Haxm.HaxmVirtualProcessor.engine guestDebugging)
        (QueuedProcessor.EntersWithWindow Haxm.HaxmVirtualProcessor.engine guestDebugging)
        haxm haxmOps) :=
  ⟨QueuedProcessor.windowRequested_runAll_iff (by omega) _ guestDebugging kvm kvmOps,
    QueuedProcessor.windowRequested_runAll_iff (by omega) _ guestDebugging haxm haxmOps⟩

/-- Two vectors are enqueued while the guest can take an interrupt. The run injects the first, which
takes back the request for a window, and enters the guest with the second one pending. -/
theorem second_vector_enters_without_window :
    let answers : HypervisorAnswers Kvm.KvmGuest 8 := ⟨fun _ => true, Kvm.idleGuest, 0⟩
    let vp := Kvm.KvmVirtualProcessor.create default Kvm.idleExits Kvm.resetKernel
    ∃ entry, some entry ∈ (runAll (QueuedProcessor.perform Kvm.KvmVirtualProcessor.engine false)
          ⟨vp, [], ⟨1, 0⟩⟩ [.enqueueInterrupt 0x20, .enqueueInterrupt 0x21, .run answers]).1 ∧
      entry.pendingInterrupts = [0x21] ∧ entry.tunnel.request_interrupt_window = 0 := by
  intro answers vp
  refine ⟨⟨vp, [0x21], ⟨1, 0⟩⟩, ?_, rfl, rfl⟩
  exact List.mem_cons_of_mem _ (List.mem_cons_of_mem _ List.mem_cons_self)

end Virt86
