import Virt86.InterruptQueue

/-!
# Interrupts on WHPX

An injection writes the event that the hypervisor delivers when it next enters the guest into
`WHvRegisterPendingInterruption`. The processor may exit before the delivery, and then the event
stays in the register. `CanInjectInterrupt` does not look at it.
-/

namespace Virt86

namespace Whpx

/-- `WHV_X64_PENDING_INTERRUPTION_REGISTER`, the fields that an injection sets. -/
structure PendingInterruption where
  interruptionPending : Bool
  interruptionType : BitVec 3
  interruptionVector : U16
  deriving DecidableEq, Repr

def WHvX64PendingInterrupt : BitVec 3 := 0

/-- The vector that the register holds for the guest, when it is that of an interrupt. -/
def PendingInterruption.waiting (r : PendingInterruption) : List U8 :=
  if r.interruptionPending = true ∧ r.interruptionType = WHvX64PendingInterrupt then
    [r.interruptionVector.setWidth 8]
  else []

/-- What the hypervisor may leave in the register once it holds no interrupt. Interrupts are only
put there by `InjectInterrupt`. -/
structure OtherInterruption where
  register : PendingInterruption
  waiting : register.waiting = []

/-- What becomes of the register while the guest runs: it keeps its value across the exit, or the
guest takes what it holds. -/
inductive GuestProgress where
  | waits
  | takes (left : OtherInterruption)

def canInjectInterrupt : Bool := true

/-- `InjectInterrupt`, with the answers to the two register calls. -/
def injectInterrupt (read written : Bool) (vector : U8) (r : PendingInterruption) :
    VPOperationStatus × PendingInterruption :=
  if read then
    let val : PendingInterruption :=
      { interruptionPending := true
        interruptionType := WHvX64PendingInterrupt
        interruptionVector := vector.setWidth 16 }
    if written then (.OK, val) else (.Failed, r)
  else (.Failed, r)

/-- The steps of all threads, with the answers of WHPX and the progress of the guest. -/
inductive WhpxEvent where
  | enqueueInterrupt (vector : U8)
  | call (c : ExecutionCall)
  | testPending
  | canInject
  | testEmpty
  | inject (read written : Bool)
  | requestWindow
  | execute (progress : GuestProgress)

/-- The queue, the register and the vectors that the guest has taken, in order. -/
structure WhpxInterrupts where
  queue : InterruptQueue
  register : PendingInterruption
  taken : List U8
  deriving DecidableEq, Repr

namespace WhpxInterrupts

/-- A new processor, with nothing in its register. -/
def initial : WhpxInterrupts := ⟨.initial, ⟨false, 0, 0⟩, []⟩

/-- The injection of the front of the queue. -/
def injection (m : WhpxInterrupts) (read written : Bool) :
    VPOperationStatus × PendingInterruption :=
  match m.queue.pendingInterrupts with
  | [] => (.OK, m.register)
  | vector :: _ => injectInterrupt read written vector m.register

/-- What a step does to the queue. -/
def queueEvent (m : WhpxInterrupts) : WhpxEvent → QueueEvent
  | .enqueueInterrupt vector => .enqueueInterrupt vector
  | .call c => .call c
  | .testPending => .testPending
  | .canInject => .canInject canInjectInterrupt
  | .testEmpty => .testEmpty
  | .inject read written => .inject (m.injection read written).1
  | .requestWindow => .requestWindow
  | .execute _ => .execute

def registerAfter (m : WhpxInterrupts) : WhpxEvent → PendingInterruption
  | .inject read written => (m.injection read written).2
  | .execute (.takes left) => left.register
  | _ => m.register

def takenAfter (m : WhpxInterrupts) : WhpxEvent → List U8
  | .execute (.takes _) => m.taken ++ m.register.waiting
  | _ => m.taken

/-- One step of any thread; WHPX cannot debug its guests. -/
def step (m : WhpxInterrupts) (event : WhpxEvent) : Option WhpxInterrupts :=
  (m.queue.step false (m.queueEvent event)).map fun queue =>
    ⟨queue, m.registerAfter event, m.takenAfter event⟩

/-- An interleaving of steps, in order. -/
def exec (m : WhpxInterrupts) : List WhpxEvent → Option WhpxInterrupts
  | [] => some m
  | event :: events => (m.step event).bind fun m => m.exec events

/-- The vectors that the guest has taken, then the one in the register, then those in the queue. -/
def vectors (m : WhpxInterrupts) : List U8 :=
  m.taken ++ m.register.waiting ++ m.queue.pendingInterrupts

end WhpxInterrupts

/-- The vectors a step enqueues. -/
def WhpxEvent.enqueued : WhpxEvent → List U8
  | .enqueueInterrupt vector => [vector]
  | _ => []

namespace WhpxInterrupts

open InterruptQueue

/-- Every step of an interleaving meets a condition in the state it is made in. -/
def Meets (P : WhpxInterrupts → WhpxEvent → Prop) (m : WhpxInterrupts) : List WhpxEvent → Prop
  | [] => True
  | event :: events => P m event ∧ ∀ m' ∈ m.step event, m'.Meets P events

/-- When WHPX is said to be ready, no event is in the register, and it accepts injections. -/
def ReadyClear (m : WhpxInterrupts) : WhpxEvent → Prop
  | .canInject => m.register.interruptionPending = false
  | .inject read written => read = true ∧ written = true
  | _ => True

/-- An injection finds no interrupt in the register, and is accepted. -/
def KeepsVectors (m : WhpxInterrupts) : WhpxEvent → Prop
  | .inject read written => (read = true ∧ written = true) ∧ m.register.waiting = []
  | _ => True

variable {m m' : WhpxInterrupts} {event : WhpxEvent} {events : List WhpxEvent}

theorem waiting_of_clear {r : PendingInterruption} (h : r.interruptionPending = false) :
    r.waiting = [] := by
  simp [PendingInterruption.waiting, h]

/-- The register after an injection that was accepted. -/
theorem waiting_injectInterrupt (vector : U8) (r : PendingInterruption) :
    (injectInterrupt true true vector r).2.waiting = [vector] := by
  simp [injectInterrupt, PendingInterruption.waiting]

theorem injectInterrupt_refused {read written : Bool} (h : ¬ (read = true ∧ written = true))
    (vector : U8) (r : PendingInterruption) : (injectInterrupt read written vector r).2 = r := by
  cases read with
  | false => rfl
  | true =>
    cases written with
    | false => rfl
    | true => exact absurd ⟨rfl, rfl⟩ h

/-- The queue makes a step of its own. -/
theorem queue_step (h : m.step event = some m') :
    m.queue.step false (m.queueEvent event) = some m'.queue ∧
      m'.register = m.registerAfter event ∧ m'.taken = m.takenAfter event := by
  rw [step, Option.map_eq_some_iff] at h
  obtain ⟨queue, hqueue, rfl⟩ := h
  exact ⟨hqueue, rfl, rfl⟩

theorem consistent_step (hconsistent : m.queue.Consistent) (h : m.step event = some m') :
    m'.queue.Consistent :=
  (hconsistent.step (queue_step h).1).consistent

/-- The vector of an injection, which is the front of the queue. -/
theorem inject_cases (hconsistent : m.queue.Consistent) {read written : Bool}
    (h : m.step (.inject read written) = some m') :
    ∃ vector rest, m.queue.pendingInterrupts = vector :: rest ∧
      m'.queue.pendingInterrupts = rest ∧ m'.taken = m.taken ∧
      m'.register = (injectInterrupt read written vector m.register).2 := by
  obtain ⟨hqueue, hregister, htaken⟩ := queue_step h
  simp only [queueEvent, InterruptQueue.step, Option.ite_none_right_eq_some,
    Option.some.injEq] at hqueue
  obtain ⟨hphase, hqueue⟩ := hqueue
  obtain ⟨vector, rest, hpending⟩ :=
    List.exists_cons_of_ne_nil (hconsistent.nonempty (by rw [hphase]; rfl))
  refine ⟨vector, rest, hpending, ?_, htaken, ?_⟩
  · rw [← hqueue]
    simp only [injectFront, hpending]
  · rw [hregister]
    simp only [registerAfter, injection, hpending]

/-- Other steps of the queue only add what they enqueue. -/
theorem pendingInterrupts_step {q q' : InterruptQueue} {e : QueueEvent}
    (hother : ∀ status, e ≠ .inject status) (h : q.step false e = some q') :
    q'.pendingInterrupts = q.pendingInterrupts ++ e.enqueued := by
  cases e with
  | enqueueInterrupt vector =>
    simp only [InterruptQueue.step, Option.some.injEq] at h
    subst h
    rfl
  | inject status => exact absurd rfl (hother status)
  | call c =>
    simp only [InterruptQueue.step, Option.ite_none_right_eq_some, Option.some.injEq] at h
    obtain ⟨-, rfl⟩ := h
    cases c <;> simp [enterCall, QueueEvent.enqueued]
  | _ =>
    simp only [InterruptQueue.step, Option.ite_none_right_eq_some, Option.some.injEq] at h
    obtain ⟨-, rfl⟩ := h
    simp [QueueEvent.enqueued]

/-- Running the guest at most moves the interrupt in the register to what it has taken. -/
theorem held_step (hother : ∀ read written, event ≠ .inject read written) :
    m.takenAfter event ++ (m.registerAfter event).waiting = m.taken ++ m.register.waiting := by
  cases event with
  | inject read written => exact absurd rfl (hother read written)
  | execute progress =>
    cases progress with
    | waits => rfl
    | takes left => simp [takenAfter, registerAfter, left.waiting]
  | _ => rfl

theorem vectors_step (hother : ∀ read written, event ≠ .inject read written)
    (h : m.step event = some m') : m'.vectors = m.vectors ++ event.enqueued := by
  obtain ⟨hqueue, hregister, htaken⟩ := queue_step h
  have hpending : m'.queue.pendingInterrupts =
      m.queue.pendingInterrupts ++ (m.queueEvent event).enqueued := by
    refine pendingInterrupts_step (fun status hinject => ?_) hqueue
    cases event with
    | inject read written => exact hother read written rfl
    | _ => cases hinject
  have henqueued : (m.queueEvent event).enqueued = event.enqueued := by
    cases event <;> rfl
  rw [vectors, vectors, hregister, htaken, held_step hother, hpending, henqueued]
  simp only [List.append_assoc]

/-- A step keeps all vectors if it keeps the one in the register, and else loses one. -/
theorem step_vectors (hconsistent : m.queue.Consistent) (h : m.step event = some m') :
    (m.KeepsVectors event → m'.vectors = m.vectors ++ event.enqueued) ∧
      (¬ m.KeepsVectors event →
        m'.vectors.length < m.vectors.length + event.enqueued.length) := by
  cases event with
  | inject read written =>
    obtain ⟨vector, rest, hpending, hrest, htaken, hregister⟩ := inject_cases hconsistent h
    rw [vectors, vectors, hpending, hrest, htaken, hregister]
    constructor
    · rintro ⟨⟨rfl, rfl⟩, hwaiting⟩
      rw [waiting_injectInterrupt, hwaiting]
      simp [WhpxEvent.enqueued]
    · intro hlost
      by_cases haccepted : read = true ∧ written = true
      · obtain ⟨rfl, rfl⟩ := haccepted
        have hwaiting : 0 < m.register.waiting.length :=
          List.length_pos_iff.mpr fun hnil => hlost ⟨⟨rfl, rfl⟩, hnil⟩
        rw [waiting_injectInterrupt]
        simp only [List.length_append, List.length_cons, List.length_nil, WhpxEvent.enqueued]
        omega
      · rw [injectInterrupt_refused haccepted]
        simp [WhpxEvent.enqueued]
  | _ => exact ⟨fun _ => vectors_step (fun _ _ => by simp) h, fun hlost => absurd trivial hlost⟩

theorem meets_cons {P : WhpxInterrupts → WhpxEvent → Prop} (h : m.step event = some m') :
    m.Meets P (event :: events) ↔ P m event ∧ m'.Meets P events := by
  simp [Meets, h]

/-- An interleaving keeps all vectors if and only if each of its steps does. -/
theorem exec_vectors (hconsistent : m.queue.Consistent) (h : m.exec events = some m') :
    m'.vectors.length ≤ m.vectors.length + (events.flatMap WhpxEvent.enqueued).length ∧
      (m'.vectors = m.vectors ++ events.flatMap WhpxEvent.enqueued ↔
        m.Meets KeepsVectors events) := by
  induction events generalizing m with
  | nil =>
    rw [exec, Option.some.injEq] at h
    subst h
    simp [Meets]
  | cons event events ih =>
    obtain ⟨m₁, hstep, hrest⟩ := Option.bind_eq_some_iff.mp h
    obtain ⟨hkeeps, hloses⟩ := step_vectors hconsistent hstep
    obtain ⟨hlength, hvectors⟩ := ih (consistent_step hconsistent hstep) hrest
    rw [meets_cons hstep, List.flatMap_cons, List.length_append]
    by_cases hevent : m.KeepsVectors event
    · rw [hkeeps hevent, List.length_append] at hlength
      rw [hkeeps hevent, List.append_assoc] at hvectors
      exact ⟨by omega, by rw [hvectors, and_iff_right hevent]⟩
    · have hlost := hloses hevent
      refine ⟨by omega, iff_of_false (fun heq => ?_) (fun hmeets => hevent hmeets.1)⟩
      have hequal := congrArg List.length heq
      simp only [List.length_append] at hequal
      omega

/-- When the owner is about to inject, the register is clear. -/
structure Undisturbed (m : WhpxInterrupts) : Prop where
  consistent : m.queue.Consistent
  clear : m.queue.phase = .testEmpty ∨ m.queue.phase = .inject →
    m.register.interruptionPending = false

theorem undisturbed_initial : initial.Undisturbed :=
  ⟨consistent_initial, fun _ => rfl⟩

/-- The owner gets to the injection by the readiness check and the test of the queue alone. -/
theorem ready_of_step {q q' : InterruptQueue} {e : QueueEvent} (h : q.step false e = some q')
    (hready : q'.phase = .testEmpty ∨ q'.phase = .inject) :
    (∃ answer, e = .canInject answer) ∨ (q.phase = .testEmpty ∨ q.phase = .inject) ∧
      ((∃ vector, e = .enqueueInterrupt vector) ∨ e = .testEmpty) := by
  cases e with
  | enqueueInterrupt vector =>
    obtain rfl := Option.some.inj h
    exact .inr ⟨hready, .inl ⟨vector, rfl⟩⟩
  | canInject answer => exact .inl ⟨answer, rfl⟩
  | testEmpty =>
    simp only [InterruptQueue.step, Option.ite_none_right_eq_some] at h
    exact .inr ⟨.inl h.1, .inr rfl⟩
  | call c =>
    simp only [InterruptQueue.step, Option.ite_none_right_eq_some, Option.some.injEq] at h
    obtain ⟨hphase, rfl⟩ := h
    cases c <;> simp [enterCall, hphase] at hready
  | testPending =>
    simp only [InterruptQueue.step, Option.ite_none_right_eq_some, Option.some.injEq] at h
    obtain ⟨-, rfl⟩ := h
    split_ifs at hready <;> simp at hready
  | inject status =>
    simp only [InterruptQueue.step, Option.ite_none_right_eq_some, Option.some.injEq] at h
    obtain ⟨-, rfl⟩ := h
    rw [injectFront] at hready
    split at hready <;> simp at hready
  | _ =>
    simp only [InterruptQueue.step, Option.ite_none_right_eq_some, Option.some.injEq] at h
    obtain ⟨-, rfl⟩ := h
    simp at hready

/-- The register does not change between the readiness check and the injection. -/
theorem Undisturbed.step (h : m.Undisturbed) (hclear : m.ReadyClear event)
    (hstep : m.step event = some m') : m'.Undisturbed ∧ m.KeepsVectors event := by
  obtain ⟨hqueue, hregister, -⟩ := queue_step hstep
  refine ⟨⟨consistent_step h.consistent hstep, fun hready => ?_⟩, ?_⟩
  · rw [hregister]
    obtain ⟨answer, he⟩ | ⟨hphase, he⟩ := ready_of_step hqueue hready
    · cases event with
      | canInject => exact hclear
      | _ => cases he
    · cases event with
      | enqueueInterrupt vector => exact h.clear hphase
      | testEmpty => exact h.clear hphase
      | _ => simp [queueEvent] at he
  · cases event with
    | inject read written =>
      simp only [queueEvent, InterruptQueue.step, Option.ite_none_right_eq_some] at hqueue
      exact ⟨hclear, waiting_of_clear (h.clear (.inr hqueue.1))⟩
    | _ => trivial

theorem Undisturbed.exec (h : m.Undisturbed) (hclear : m.Meets ReadyClear events)
    (hexec : m.exec events = some m') : m'.Undisturbed ∧ m.Meets KeepsVectors events := by
  induction events generalizing m with
  | nil =>
    rw [WhpxInterrupts.exec, Option.some.injEq] at hexec
    subst hexec
    exact ⟨h, trivial⟩
  | cons event events ih =>
    obtain ⟨m₁, hstep, hrest⟩ := Option.bind_eq_some_iff.mp hexec
    rw [meets_cons hstep] at hclear ⊢
    obtain ⟨hnext, hkeeps⟩ := h.step hclear.1 hstep
    obtain ⟨hlast, hrests⟩ := ih hnext hclear.2 hrest
    exact ⟨hlast, hkeeps, hrests⟩

end WhpxInterrupts

open WhpxInterrupts

/-- In an interleaving in which the register is clear whenever WHPX is asked whether it is ready,
and each injection is accepted, the vectors enqueued are those that the guest has taken, the one in
the register and those in the queue, in order, and no injection finds an event in the register.
Whatever the interleaving, the vectors are kept if and only if no injection is refused or
overwrites an interrupt. -/
theorem whpx_interrupts_delivered (events : List WhpxEvent) (m : WhpxInterrupts)
    (he : WhpxInterrupts.initial.exec events = some m) :
    (WhpxInterrupts.initial.Meets ReadyClear events →
      m.vectors = events.flatMap WhpxEvent.enqueued ∧
        (m.queue.phase = .inject → m.register.interruptionPending = false)) ∧
    (m.vectors = events.flatMap WhpxEvent.enqueued ↔
      WhpxInterrupts.initial.Meets KeepsVectors events) := by
  have hvectors := (exec_vectors InterruptQueue.consistent_initial he).2
  refine ⟨fun hclear => ?_, hvectors⟩
  obtain ⟨hlast, hkeeps⟩ := undisturbed_initial.exec hclear he
  exact ⟨hvectors.mpr hkeeps, fun hphase => hlast.clear (.inr hphase)⟩

/-- A `Run` that finds a vector in the queue. -/
private def injectingRun (progress : GuestProgress) : List WhpxEvent :=
  [.call .Run, .testPending, .canInject, .testEmpty, .inject true true, .execute progress]

private def clearedRegister : OtherInterruption := ⟨⟨false, 0, 0⟩, rfl⟩

/-- The guest takes the first vector before the second one is injected. -/
theorem whpx_interrupts_delivered_two :
    let events := [.enqueueInterrupt 0x20, .enqueueInterrupt 0x21] ++
      injectingRun (.takes clearedRegister) ++ injectingRun .waits
    let m : WhpxInterrupts := ⟨⟨[], .idle, [(0x20, .OK), (0x21, .OK)], [1, 1]⟩, ⟨true, 0, 0x21⟩,
      [0x20]⟩
    m.vectors = events.flatMap WhpxEvent.enqueued ∧
      (m.queue.phase = .inject → m.register.interruptionPending = false) :=
  (whpx_interrupts_delivered _ _ rfl).1 (by
    simp [injectingRun, Meets, ReadyClear, WhpxInterrupts.step, WhpxInterrupts.initial,
      InterruptQueue.initial, queueEvent, registerAfter, takenAfter, InterruptQueue.step,
      InterruptQueue.enterCall, InterruptQueue.injectFront, canInjectInterrupt, injection,
      injectInterrupt, clearedRegister])

/-- The processor exits before the first vector is delivered, and the second overwrites it. -/
theorem whpx_interrupt_overwritten :
    ∃ m m' : WhpxInterrupts, WhpxInterrupts.initial.exec
        ([.enqueueInterrupt 0x20, .enqueueInterrupt 0x21] ++ injectingRun .waits ++
          [.call .Run, .testPending, .canInject, .testEmpty]) = some m ∧
      m.queue.phase = .inject ∧ m.register.interruptionPending = true ∧
      m.exec [.inject true true, .execute .waits] = some m' ∧ m'.vectors = [0x21] :=
  ⟨_, _, rfl, rfl, rfl, rfl, rfl⟩

end Whpx

end Virt86
