import Virt86.Registers

/-!
# The queue of pending interrupts

Any thread may enqueue a vector, under the mutex of the queue. The thread that owns the processor
takes at most one vector off the queue in each `Run` or `Step`, after two emptiness tests that do
not hold the mutex. Each test, the readiness check and the section under the mutex is one step of
the owner, and other threads may enqueue between any two of them.
-/

namespace Virt86

inductive ExecutionCall where
  | Run | Step
  deriving DecidableEq, Repr

/-- What the owner does next. -/
inductive OwnerPhase where
  -- nothing: it is outside Run and Step
  | idle
  -- the test in HandleInterruptQueue
  | testPending
  | canInject
  -- the test in InjectPendingInterrupt
  | testEmpty
  -- the section of InjectPendingInterrupt that holds the mutex
  | inject
  | requestWindow
  -- RunImpl or StepImpl
  | execute
  -- front() and pop() were applied to an empty queue
  | undefined
  deriving DecidableEq, Repr

/-- The steps of all threads. Those of the owner carry the answers of the platform. -/
inductive QueueEvent where
  | enqueueInterrupt (vector : U8)
  | call (c : ExecutionCall)
  | testPending
  | canInject (ready : Bool)
  | testEmpty
  | inject (status : VPOperationStatus)
  | requestWindow
  | execute
  deriving DecidableEq, Repr

/-- The queue and the owner, with the vectors passed to `InjectInterrupt` and its answers in order,
and the number of injections in each call of the owner, latest call first. -/
structure InterruptQueue where
  pendingInterrupts : List U8
  phase : OwnerPhase
  injected : List (U8 × VPOperationStatus)
  callInjections : List ℕ
  deriving DecidableEq, Repr

namespace InterruptQueue

def initial : InterruptQueue := ⟨[], .idle, [], []⟩

/-- `Run` begins with the queue, `Step` does so only on a platform that can debug its guests. -/
def enterCall (guestDebugging : Bool) (q : InterruptQueue) : ExecutionCall → InterruptQueue
  | .Run => { q with phase := .testPending, callInjections := 0 :: q.callInjections }
  | .Step =>
    if guestDebugging then
      { q with phase := .testPending, callInjections := 0 :: q.callInjections }
    else { q with callInjections := 0 :: q.callInjections }

/-- The section under the mutex: `front()`, `pop()` and `InjectInterrupt`. -/
def injectFront (q : InterruptQueue) (status : VPOperationStatus) : InterruptQueue :=
  match q.pendingInterrupts with
  | [] => { q with phase := .undefined }
  | vector :: rest =>
    { pendingInterrupts := rest
      phase := .execute
      injected := q.injected ++ [(vector, status)]
      callInjections := match q.callInjections with
        | [] => []
        | n :: ns => (n + 1) :: ns }

/-- One step of any thread; `none` for a step of the owner that is not its next. -/
def step (guestDebugging : Bool) (q : InterruptQueue) : QueueEvent → Option InterruptQueue
  | .enqueueInterrupt vector =>
    some { q with pendingInterrupts := q.pendingInterrupts ++ [vector] }
  | .call c => if q.phase = .idle then some (q.enterCall guestDebugging c) else none
  | .testPending =>
    if q.phase = .testPending then
      some { q with phase := if q.pendingInterrupts.length > 0 then .canInject else .execute }
    else none
  | .canInject ready =>
    if q.phase = .canInject then
      some { q with phase := if ready then .testEmpty else .requestWindow }
    else none
  | .testEmpty =>
    if q.phase = .testEmpty then
      some { q with phase := if q.pendingInterrupts.length = 0 then .execute else .inject }
    else none
  | .inject status => if q.phase = .inject then some (q.injectFront status) else none
  | .requestWindow =>
    if q.phase = .requestWindow then some { q with phase := .execute } else none
  | .execute => if q.phase = .execute then some { q with phase := .idle } else none

/-- An interleaving of steps, in order. -/
def exec (guestDebugging : Bool) (q : InterruptQueue) : List QueueEvent → Option InterruptQueue
  | [] => some q
  | event :: events => (q.step guestDebugging event).bind fun q => q.exec guestDebugging events

/-- The vectors handed to `InjectInterrupt`, and those the hypervisor took. -/
def passed (q : InterruptQueue) : List U8 := q.injected.map Prod.fst

def accepted (q : InterruptQueue) : List U8 :=
  (q.injected.filter fun i => i.2 = .OK).map Prod.fst

end InterruptQueue

/-- The vectors a step enqueues. -/
def QueueEvent.enqueued : QueueEvent → List U8
  | .enqueueInterrupt vector => [vector]
  | _ => []

/-- The answers of `InjectInterrupt` in a step. -/
def QueueEvent.injectStatus : QueueEvent → List VPOperationStatus
  | .inject status => [status]
  | _ => []

/-- The owner has seen a vector in the queue and has not yet taken one. -/
def OwnerPhase.sawPending : OwnerPhase → Bool
  | .canInject | .testEmpty | .inject | .requestWindow => true
  | _ => false

/-- The owner may still inject a vector in its call. -/
def OwnerPhase.mayInject : OwnerPhase → Bool
  | .testPending | .canInject | .testEmpty | .inject => true
  | _ => false

namespace InterruptQueue

/-- Only the owner removes vectors, so what it saw in the queue is still there when it takes the
mutex; and it takes the mutex once in a call. -/
structure Consistent (q : InterruptQueue) : Prop where
  defined : q.phase ≠ .undefined
  nonempty : q.phase.sawPending = true → q.pendingInterrupts ≠ []
  atMostOnce : ∀ n ∈ q.callInjections, n ≤ 1
  notYet : q.phase.mayInject = true → ∃ ns, q.callInjections = 0 :: ns

theorem consistent_initial : Consistent initial where
  defined := by simp [initial]
  nonempty h := by simp [initial, OwnerPhase.sawPending] at h
  atMostOnce := by simp [initial]
  notYet h := by simp [initial, OwnerPhase.mayInject] at h

variable {guestDebugging : Bool} {q q' : InterruptQueue}

/-- From `q` to `q'` the queue stays consistent, `vectors` were put at its end, whatever was
injected went from its front, and `statuses` are the answers to the injections. -/
structure Follows (q q' : InterruptQueue) (vectors : List U8)
    (statuses : List VPOperationStatus) : Prop where
  consistent : Consistent q'
  queue : q'.passed ++ q'.pendingInterrupts = q.passed ++ q.pendingInterrupts ++ vectors
  statuses : q'.injected.map Prod.snd = q.injected.map Prod.snd ++ statuses

/-- A step of the owner that only moves on. -/
theorem Consistent.withPhase (h : Consistent q) {phase : OwnerPhase} (hdefined : phase ≠ .undefined)
    (hsaw : phase.sawPending = true → q.pendingInterrupts ≠ [])
    (hmay : phase.mayInject = true → q.phase.mayInject = true) :
    Follows q { q with phase } [] [] where
  consistent := ⟨hdefined, hsaw, h.atMostOnce, fun hphase => h.notYet (hmay hphase)⟩
  queue := by simp [passed]
  statuses := by simp

theorem Consistent.enqueueInterrupt (h : Consistent q) (vector : U8) :
    Follows q { q with pendingInterrupts := q.pendingInterrupts ++ [vector] } [vector] [] where
  consistent := ⟨h.defined, fun _ => by simp, h.atMostOnce, h.notYet⟩
  queue := by simp [passed]
  statuses := by simp

theorem Consistent.newCall (h : Consistent q) {phase : OwnerPhase}
    (hphase : phase = .testPending ∨ phase = .idle) :
    Follows q { q with phase, callInjections := 0 :: q.callInjections } [] [] where
  consistent := by
    refine ⟨?_, ?_, ?_, fun _ => ⟨_, rfl⟩⟩
    · rcases hphase with rfl | rfl <;> simp
    · rcases hphase with rfl | rfl <;> simp [OwnerPhase.sawPending]
    · intro n hn
      rcases List.mem_cons.mp hn with rfl | hn
      · exact Nat.zero_le 1
      · exact h.atMostOnce n hn
  queue := by simp [passed]
  statuses := by simp

theorem Consistent.enterCall (h : Consistent q) (hphase : q.phase = .idle) (c : ExecutionCall) :
    Follows q (q.enterCall guestDebugging c) [] [] := by
  cases c with
  | Run => exact h.newCall (.inl rfl)
  | Step =>
    cases guestDebugging with
    | true => exact h.newCall (.inl rfl)
    | false => exact h.newCall (.inr hphase)

/-- The section under the mutex finds a vector, and makes the first injection of the call. -/
theorem Consistent.injectFront (h : Consistent q) (hphase : q.phase = .inject)
    (status : VPOperationStatus) : Follows q (q.injectFront status) [] [status] := by
  have hne := h.nonempty (by rw [hphase]; rfl)
  obtain ⟨ns, hns⟩ := h.notYet (by rw [hphase]; rfl)
  obtain ⟨vector, rest, hq⟩ := List.exists_cons_of_ne_nil hne
  have hcounts : ∀ n ∈ 1 :: ns, n ≤ 1 := by
    intro n hn
    rcases List.mem_cons.mp hn with rfl | hn
    · exact Nat.le_refl 1
    · exact h.atMostOnce n (by rw [hns]; exact List.mem_cons_of_mem _ hn)
  simp only [InterruptQueue.injectFront, hq, hns]
  refine ⟨⟨by simp, (fun hsaw => nomatch hsaw), hcounts, (fun hmay => nomatch hmay)⟩, ?_, ?_⟩
  · simp [passed, hq]
  · simp

/-- One step of any thread. -/
theorem Consistent.step (h : Consistent q) {event : QueueEvent}
    (he : q.step guestDebugging event = some q') :
    Follows q q' event.enqueued event.injectStatus := by
  cases event with
  | enqueueInterrupt vector =>
    simp only [InterruptQueue.step, Option.some.injEq] at he
    subst he
    exact h.enqueueInterrupt vector
  | call c =>
    simp only [InterruptQueue.step, Option.ite_none_right_eq_some, Option.some.injEq] at he
    obtain ⟨hphase, rfl⟩ := he
    exact h.enterCall hphase c
  | testPending =>
    simp only [InterruptQueue.step, Option.ite_none_right_eq_some, Option.some.injEq] at he
    obtain ⟨hphase, rfl⟩ := he
    apply h.withPhase
    · split_ifs <;> simp
    · split_ifs with hpending
      · exact fun _ => List.ne_nil_of_length_pos hpending
      · simp [OwnerPhase.sawPending]
    · exact fun _ => by rw [hphase]; rfl
  | canInject ready =>
    simp only [InterruptQueue.step, Option.ite_none_right_eq_some, Option.some.injEq] at he
    obtain ⟨hphase, rfl⟩ := he
    apply h.withPhase
    · cases ready <;> simp
    · exact fun _ => h.nonempty (by rw [hphase]; rfl)
    · exact fun _ => by rw [hphase]; rfl
  | testEmpty =>
    simp only [InterruptQueue.step, Option.ite_none_right_eq_some, Option.some.injEq] at he
    obtain ⟨hphase, rfl⟩ := he
    apply h.withPhase
    · split_ifs <;> simp
    · exact fun _ => h.nonempty (by rw [hphase]; rfl)
    · exact fun _ => by rw [hphase]; rfl
  | inject status =>
    simp only [InterruptQueue.step, Option.ite_none_right_eq_some, Option.some.injEq] at he
    obtain ⟨hphase, rfl⟩ := he
    exact h.injectFront hphase status
  | requestWindow =>
    simp only [InterruptQueue.step, Option.ite_none_right_eq_some, Option.some.injEq] at he
    obtain ⟨hphase, rfl⟩ := he
    exact h.withPhase (by simp) (fun hsaw => nomatch hsaw) (fun hmay => nomatch hmay)
  | execute =>
    simp only [InterruptQueue.step, Option.ite_none_right_eq_some, Option.some.injEq] at he
    obtain ⟨hphase, rfl⟩ := he
    exact h.withPhase (by simp) (fun hsaw => nomatch hsaw) (fun hmay => nomatch hmay)

theorem Follows.trans {q₁ : InterruptQueue} {vectors vectors' : List U8}
    {statuses statuses' : List VPOperationStatus} (h : Follows q q₁ vectors statuses)
    (h' : Follows q₁ q' vectors' statuses') :
    Follows q q' (vectors ++ vectors') (statuses ++ statuses') where
  consistent := h'.consistent
  queue := by rw [h'.queue, h.queue, List.append_assoc]
  statuses := by rw [h'.statuses, h.statuses, List.append_assoc]

/-- Any interleaving of steps. -/
theorem Consistent.exec (h : Consistent q) {events : List QueueEvent}
    (he : q.exec guestDebugging events = some q') :
    Follows q q' (events.flatMap QueueEvent.enqueued)
      (events.flatMap QueueEvent.injectStatus) := by
  induction events generalizing q with
  | nil =>
    simp only [InterruptQueue.exec, Option.some.injEq] at he
    subst he
    exact ⟨h, by simp, by simp⟩
  | cons event events ih =>
    obtain ⟨q₁, hstep, hrest⟩ := Option.bind_eq_some_iff.mp he
    have hfirst := h.step hstep
    exact hfirst.trans (ih hfirst.consistent hrest)

/-- The hypervisor took every vector it was handed exactly when no answer was a refusal. -/
theorem accepted_eq_passed_iff (q : InterruptQueue) :
    q.accepted = q.passed ↔ ∀ status ∈ q.injected.map Prod.snd, status = .OK := by
  constructor
  · intro heq status hstatus
    obtain ⟨i, hi, rfl⟩ := List.mem_map.mp hstatus
    have hlength := congrArg List.length heq
    simp only [accepted, passed, List.length_map] at hlength
    simpa using List.length_filter_eq_length_iff.mp hlength i hi
  · intro hall
    have hfilter : (q.injected.filter fun i => i.2 = .OK) = q.injected :=
      List.filter_eq_self.mpr fun i hi => by simpa using hall i.2 (List.mem_map_of_mem hi)
    rw [accepted, passed, hfilter]

end InterruptQueue

open InterruptQueue

/-- In every interleaving the vectors passed to `InjectInterrupt` followed by those still pending
are the vectors enqueued, each `Run` or `Step` injects at most one of them, and no vector is taken
from an empty queue. -/
theorem interruptQueue_fifo (guestDebugging : Bool) (events : List QueueEvent)
    (q : InterruptQueue) (he : InterruptQueue.initial.exec guestDebugging events = some q) :
    q.passed ++ q.pendingInterrupts = events.flatMap QueueEvent.enqueued ∧
      (∀ n ∈ q.callInjections, n ≤ 1) ∧ q.phase ≠ .undefined := by
  have h := consistent_initial.exec he
  exact ⟨h.queue, h.consistent.atMostOnce, h.consistent.defined⟩

/-- Two vectors are enqueued, one of them while the owner is between its two tests. -/
private def racingEvents : List QueueEvent :=
  [.enqueueInterrupt 0x20, .call .Run, .testPending, .canInject true, .enqueueInterrupt 0x21,
    .testEmpty, .inject .OK, .execute]

theorem interruptQueue_fifo_racing :
    let q : InterruptQueue := ⟨[0x21], .idle, [(0x20, .OK)], [1]⟩
    q.passed ++ q.pendingInterrupts = racingEvents.flatMap QueueEvent.enqueued ∧
      (∀ n ∈ q.callInjections, n ≤ 1) ∧ q.phase ≠ .undefined :=
  interruptQueue_fifo true racingEvents ⟨[0x21], .idle, [(0x20, .OK)], [1]⟩ (by decide)

/-- In every interleaving the vectors that the hypervisor took, in order, followed by those still
pending are the vectors enqueued if and only if it refused no injection. -/
theorem interrupts_conserved_iff (guestDebugging : Bool) (events : List QueueEvent)
    (q : InterruptQueue) (he : InterruptQueue.initial.exec guestDebugging events = some q) :
    q.accepted ++ q.pendingInterrupts = events.flatMap QueueEvent.enqueued ↔
      ∀ status, QueueEvent.inject status ∈ events → status = .OK := by
  have h := consistent_initial.exec he
  have hstatuses : q.injected.map Prod.snd = events.flatMap QueueEvent.injectStatus := h.statuses
  have hqueue : q.passed ++ q.pendingInterrupts = events.flatMap QueueEvent.enqueued := h.queue
  rw [← hqueue, List.append_left_inj, accepted_eq_passed_iff, hstatuses]
  constructor
  · intro hall status hmem
    exact hall status (List.mem_flatMap.mpr ⟨_, hmem, List.mem_singleton_self _⟩)
  · intro hall status hmem
    obtain ⟨event, hevent, hstatus⟩ := List.mem_flatMap.mp hmem
    cases event with
    | inject status' =>
      obtain rfl := List.mem_singleton.mp hstatus
      exact hall status hevent
    | _ => cases hstatus

theorem interrupts_conserved_racing :
    let q : InterruptQueue := ⟨[0x21], .idle, [(0x20, .OK)], [1]⟩
    q.accepted ++ q.pendingInterrupts = racingEvents.flatMap QueueEvent.enqueued ↔
      ∀ status, QueueEvent.inject status ∈ racingEvents → status = .OK :=
  interrupts_conserved_iff true racingEvents ⟨[0x21], .idle, [(0x20, .OK)], [1]⟩ (by decide)

/-- The vector `0x20` is enqueued and the processor is ready, but the hypervisor refuses the
injection: the vector is neither accepted nor pending any more. -/
theorem refused_injection_loses_vector :
    ∃ q q' : InterruptQueue, InterruptQueue.initial.exec true
        [.enqueueInterrupt 0x20, .call .Run, .testPending, .canInject true, .testEmpty] = some q ∧
      q.pendingInterrupts = [0x20] ∧ q.step true (.inject .Failed) = some q' ∧
      q'.pendingInterrupts.head? ≠ some 0x20 ∧ q'.accepted ++ q'.pendingInterrupts = [] :=
  ⟨⟨[0x20], .inject, [], [0]⟩, ⟨[], .execute, [(0x20, .Failed)], [1]⟩, by decide, rfl, by decide,
    by decide, rfl⟩

end Virt86
