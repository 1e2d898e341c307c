import Mathlib.Data.Int.Notation
import Mathlib.Data.List.Perm.Basic
import Mathlib.Data.List.Nodup
import Mathlib.Tactic.SplitIfs

/-!
# Open files

A process asks a kernel for descriptors, makes calls on them and closes them. A call on a
descriptor that is not open, and the release of one, are faults. What a process owns is a list of
descriptors, each of which stands for one open file, and there are rules for what each call makes of
the list.
-/

namespace Virt86.FileTables

/-- A call to the kernel; `R` has the requests that can be made on an open file. -/
inductive Syscall (R : Type) where
  | openPath (path : String)
  | request (fd : ℤ) (request : R)
  | close (fd : ℤ)
  deriving DecidableEq, Repr

/-- What a call returns, and what it leaves in the memory that it was given. -/
structure Answer (A : Type) where
  result : ℤ
  data : A
  deriving DecidableEq, Repr

/-- A kernel answers by all the calls made so far, and gives a new file a descriptor that is not in
use. -/
structure Kernel (R A : Type) where
  answer : List (Syscall R) → Answer A
  fresh : List ℤ → ℤ
  fresh_nonneg : ∀ table, 0 ≤ fresh table
  fresh_notMem : ∀ table, fresh table ∉ table

/-- A descriptor above all that are in use. -/
def above (table : List ℤ) : ℤ := table.foldr (fun fd bound => max (fd + 1) bound) 0

theorem above_nonneg (table : List ℤ) : 0 ≤ above table := by
  induction table with
  | nil => exact Int.le_refl 0
  | cons fd table ih => exact Int.le_trans ih (Int.le_max_right _ _)

theorem lt_above {table : List ℤ} {fd : ℤ} (h : fd ∈ table) : fd < above table := by
  induction table with
  | nil => cases h
  | cons fd' table ih =>
    rw [above, List.foldr_cons]
    rcases List.mem_cons.mp h with rfl | hmem
    · exact Int.lt_of_lt_of_le (Int.lt_succ fd) (Int.le_max_left _ _)
    · exact Int.lt_of_lt_of_le (ih hmem) (Int.le_max_right _ _)

theorem above_notMem (table : List ℤ) : above table ∉ table :=
  fun h => Int.lt_irrefl _ (lt_above h)

/-- A kernel that answers each call without regard to those before. -/
def Kernel.ofCall {R A : Type} (respond : Syscall R → Answer A) (idle : Answer A) : Kernel R A where
  answer calls := (calls.getLast?.map respond).getD idle
  fresh := above
  fresh_nonneg := above_nonneg
  fresh_notMem := above_notMem

@[simp] theorem answer_ofCall {R A : Type} (respond : Syscall R → Answer A) (idle : Answer A)
    (calls : List (Syscall R)) (call : Syscall R) :
    (Kernel.ofCall respond idle).answer (calls ++ [call]) = respond call := by
  simp only [Kernel.ofCall, List.getLast?_concat, Option.map_some, Option.getD_some]

structure Process (R : Type) where
  table : List ℤ
  fault : Bool
  calls : List (Syscall R)
  deriving DecidableEq, Repr

def Process.initial {R : Type} : Process R := ⟨[], false, []⟩

namespace Process

variable {R A : Type} (kernel : Kernel R A) (p : Process R)

def record (call : Syscall R) : Process R := { p with calls := p.calls ++ [call] }

/-- A new descriptor, unless the call fails. -/
def install (result : ℤ) : ℤ × Process R :=
  if result < 0 then (-1, p)
  else (kernel.fresh p.table, { p with table := kernel.fresh p.table :: p.table })

def openPath (path : String) : ℤ × Process R :=
  (p.record (.openPath path)).install kernel
    (kernel.answer (p.record (.openPath path)).calls).result

/-- A call on a descriptor. It fails when the descriptor is not open, which is a fault unless the
descriptor is the -1 of a failed call. -/
def request (fd : ℤ) (request : R) : Answer A × Process R :=
  let p' := p.record (.request fd request)
  let answer := kernel.answer p'.calls
  if p.table.contains fd then (answer, p')
  else (⟨-1, answer.data⟩, { p' with fault := p.fault || fd != -1 })

/-- A call on a descriptor that returns a new one. -/
def requestFile (fd : ℤ) (request : R) : ℤ × Process R :=
  (p.request kernel fd request).2.install kernel (p.request kernel fd request).1.result

def close (fd : ℤ) : Process R :=
  let p' := p.record (.close fd)
  if p.table.contains fd then { p' with table := p.table.erase fd } else { p' with fault := true }

/-- A destructor closes its descriptor unless that is -1. -/
def release (fd : ℤ) : Process R := if fd ≠ -1 then p.close fd else p

end Process

/-- The file that a member of type `int` stands for. -/
def held (fd : ℤ) : List ℤ := if fd = -1 then [] else [fd]

/-- There was no fault, and exactly the files owned are open, each under its own descriptor. -/
structure Holds {R : Type} (p : Process R) (owned : List ℤ) : Prop where
  fault : p.fault = false
  nodup : p.table.Nodup
  nonneg : ∀ fd ∈ p.table, 0 ≤ fd
  perm : p.table.Perm owned

variable {R A : Type} {kernel : Kernel R A} {p : Process R} {owned : List ℤ} {fd : ℤ}

@[simp] theorem held_neg_one : held (-1) = [] := rfl

theorem held_of_ne (h : fd ≠ -1) : held fd = [fd] := if_neg h

/-- A member of an object is -1 or among what the object owns. -/
theorem held_subset_cases {fds : List ℤ} (h : held fd ⊆ fds) (owned : List ℤ) :
    fd = -1 ∨ fd ∈ fds ++ owned := by
  by_cases hne : fd = -1
  · exact .inl hne
  · rw [held_of_ne hne] at h
    exact .inr (List.mem_append_left _ (h List.mem_cons_self))

theorem request_neg_one (kernel : Kernel R A) (h : ∀ fd ∈ p.table, 0 ≤ fd) (request : R) :
    (p.request kernel (-1) request).1.result = -1 := by
  have hclosed : p.table.contains (-1) = false := by
    rw [Bool.eq_false_iff, ne_eq, List.contains_iff_mem]
    intro hmem
    have := h _ hmem
    omega
  simp only [Process.request, hclosed]
  rfl

/-- A descriptor is not negative, unless it is the -1 of a failed call. -/
theorem install_cases (kernel : Kernel R A) (p : Process R) (result : ℤ) :
    (p.install kernel result).1 = -1 ∨ 0 ≤ (p.install kernel result).1 := by
  unfold Process.install
  split_ifs
  · exact .inl rfl
  · exact .inr (kernel.fresh_nonneg p.table)

theorem openPath_of_neg (kernel : Kernel R A) (p : Process R) (path : String)
    (h : (p.openPath kernel path).1 < 0) :
    (p.openPath kernel path).1 = -1 :=
  (install_cases kernel _ _).resolve_right (Int.not_le.mpr h)

namespace Holds

theorem of_perm (h : Holds p owned) {owned' : List ℤ} (hperm : owned.Perm owned') :
    Holds p owned' :=
  ⟨h.fault, h.nodup, h.nonneg, h.perm.trans hperm⟩

theorem neg_one_notMem (h : Holds p owned) : -1 ∉ p.table := by
  intro hmem
  have := h.nonneg _ hmem
  omega

theorem contains_iff (h : Holds p owned) : p.table.contains fd = true ↔ fd ∈ owned := by
  rw [List.contains_iff_mem, h.perm.mem_iff]

theorem record (h : Holds p owned) (call : Syscall R) : Holds (p.record call) owned :=
  ⟨h.fault, h.nodup, h.nonneg, h.perm⟩

/-- A call that may give a new descriptor gives one that is owned then, or -1. -/
theorem install (h : Holds p owned) (kernel : Kernel R A) (result : ℤ) :
    Holds (p.install kernel result).2 (held (p.install kernel result).1 ++ owned) := by
  unfold Process.install
  split_ifs
  · exact h
  · have hnonneg := kernel.fresh_nonneg p.table
    have hfresh : kernel.fresh p.table ≠ -1 := by omega
    rw [held_of_ne hfresh]
    refine ⟨h.fault, ?_, ?_, ?_⟩
    · exact List.nodup_cons.mpr ⟨kernel.fresh_notMem p.table, h.nodup⟩
    · exact List.forall_mem_cons.mpr ⟨hnonneg, h.nonneg⟩
    · exact h.perm.cons _

theorem openPath (h : Holds p owned) (kernel : Kernel R A) (path : String) :
    Holds (p.openPath kernel path).2 (held (p.openPath kernel path).1 ++ owned) :=
  (h.record _).install kernel _

/-- A call on a descriptor that is owned, or on the -1 of a failed call, is no fault. -/
theorem request (h : Holds p owned) (kernel : Kernel R A) (hfd : fd = -1 ∨ fd ∈ owned)
    (request : R) : Holds (p.request kernel fd request).2 owned := by
  unfold Process.request
  dsimp only
  split_ifs with hopen
  · exact h.record _
  · have hneg : fd = -1 := hfd.resolve_right fun hmem => hopen (h.contains_iff.mpr hmem)
    refine ⟨?_, h.nodup, h.nonneg, h.perm⟩
    simp only [h.fault, hneg, bne_self_eq_false, Bool.or_self]

theorem requestFile (h : Holds p owned) (kernel : Kernel R A) (hfd : fd = -1 ∨ fd ∈ owned)
    (request : R) :
    Holds (p.requestFile kernel fd request).2 (held (p.requestFile kernel fd request).1 ++ owned) :=
  (h.request kernel hfd request).install kernel _

theorem close (h : Holds p (fd :: owned)) : Holds (p.close fd) owned := by
  have hopen : p.table.contains fd = true := h.contains_iff.mpr List.mem_cons_self
  unfold Process.close
  dsimp only
  rw [if_pos hopen]
  refine ⟨h.fault, h.nodup.erase fd, fun fd' hmem => ?_, ?_⟩
  · exact h.nonneg fd' (List.mem_of_mem_erase hmem)
  · have hperm := h.perm.erase fd
    rw [List.erase_cons_head] at hperm
    exact hperm

theorem release (h : Holds p (held fd ++ owned)) : Holds (p.release fd) owned := by
  unfold Process.release
  split_ifs with hne
  · rw [held_of_ne hne] at h
    exact h.close
  · rw [not_not.mp hne] at h
    exact h

/-- Destructors of several members that run one after the other. -/
theorem releases {fds : List ℤ} (h : Holds p ((fds.flatMap held) ++ owned)) :
    Holds (fds.foldl Process.release p) owned := by
  induction fds generalizing p with
  | nil => exact h
  | cons fd fds ih =>
    rw [List.flatMap_cons, List.append_assoc] at h
    exact ih h.release

end Holds

end Virt86.FileTables
