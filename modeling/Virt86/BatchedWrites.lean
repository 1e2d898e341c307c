import Mathlib.Logic.Function.Basic
import Mathlib.Tactic.Common

/-!
# Writes to a bank of registers, one by one and in a batch

A write names a register of the bank and merges its value into what the register holds. In a batch
every write merges into what its register held before the batch, and the results are stored in
order. Only the last write to a register counts then, and it does not see the earlier ones.
-/

namespace Virt86.BatchedWrites

variable {N V W : Type} [DecidableEq N] (name : W → N) (merge : W → V → V)

/-- One write. -/
def write (bank : N → V) (w : W) : N → V :=
  Function.update bank (name w) (merge w (bank (name w)))

/-- The writes in order, each on the bank that the ones before it left. -/
def writeLoop (bank : N → V) (ws : List W) : N → V := ws.foldl (write name merge) bank

/-- Stores values in order. -/
def storeAll (bank : N → V) (values : List (N × V)) : N → V :=
  values.foldl (fun bank entry => Function.update bank entry.1 entry.2) bank

/-- The values of a batch: each write merged into what its register holds. -/
def mergeAll (bank : N → V) (ws : List W) : List (N × V) :=
  ws.map fun w => (name w, merge w (bank (name w)))

/-- The writes as a batch. -/
def writeBatch (bank : N → V) (ws : List W) : N → V :=
  storeAll bank (mergeAll name merge bank ws)

variable {name merge} {bank : N → V} {ws : List W}

theorem writeLoop_append (ws ws' : List W) :
    writeLoop name merge bank (ws ++ ws') =
      writeLoop name merge (writeLoop name merge bank ws) ws' :=
  List.foldl_append

/-- A register that no write names keeps its value. -/
theorem writeLoop_of_not_named {n : N} (h : ∀ w ∈ ws, name w ≠ n) :
    writeLoop name merge bank ws n = bank n := by
  induction ws generalizing bank with
  | nil => rfl
  | cons w ws ih =>
    have hw : n ≠ name w := Ne.symm (h w List.mem_cons_self)
    change writeLoop name merge (write name merge bank w) ws n = bank n
    rw [ih (fun w' hw' => h w' (List.mem_cons_of_mem _ hw'))]
    exact Function.update_of_ne hw _ _

theorem storeAll_append (values values' : List (N × V)) :
    storeAll bank (values ++ values') = storeAll (storeAll bank values) values' :=
  List.foldl_append

theorem storeAll_of_not_named {n : N} {values : List (N × V)} (h : ∀ entry ∈ values, entry.1 ≠ n) :
    storeAll bank values n = bank n := by
  induction values generalizing bank with
  | nil => rfl
  | cons entry values ih =>
    have hentry : n ≠ entry.1 := Ne.symm (h entry List.mem_cons_self)
    change storeAll (Function.update bank entry.1 entry.2) values n = bank n
    rw [ih (fun e he => h e (List.mem_cons_of_mem _ he))]
    exact Function.update_of_ne hentry _ _

section Last

variable {before after : List W} {w : W} (hlast : ∀ w' ∈ after, name w' ≠ name w)

include hlast

/-- The last write to a register decides its value, from what the writes before it left. -/
theorem writeLoop_last : writeLoop name merge bank (before ++ w :: after) (name w) =
    merge w (writeLoop name merge bank before (name w)) := by
  rw [writeLoop_append, ← List.singleton_append, writeLoop_append, writeLoop_of_not_named hlast]
  exact Function.update_self _ _ _

/-- In a batch it decides it from what was there before the batch. -/
theorem writeBatch_last : writeBatch name merge bank (before ++ w :: after) (name w) =
    merge w (bank (name w)) := by
  have hafter : ∀ entry ∈ mergeAll name merge bank after, entry.1 ≠ name w := by
    intro entry hentry
    obtain ⟨w', hw', rfl⟩ := List.mem_map.mp hentry
    exact hlast w' hw'
  rw [writeBatch, mergeAll, List.map_append, storeAll_append, List.map_cons,
    ← List.singleton_append, storeAll_append]
  exact (storeAll_of_not_named hafter).trans (Function.update_self _ _ _)

end Last

omit [DecidableEq N] in
/-- Of the writes with a property there is a last one. -/
theorem exists_last {P : W → Prop} (h : ∃ w ∈ ws, P w) :
    ∃ before w after, ws = before ++ w :: after ∧ P w ∧ ∀ w' ∈ after, ¬P w' := by
  induction ws with
  | nil =>
    obtain ⟨w, hw, -⟩ := h
    exact absurd hw List.not_mem_nil
  | cons first ws ih =>
    by_cases hws : ∃ w ∈ ws, P w
    · obtain ⟨before, w, after, rfl, hw, hlast⟩ := ih hws
      exact ⟨first :: before, w, after, rfl, hw, hlast⟩
    · obtain ⟨w, hw, hP⟩ := h
      rcases List.mem_cons.mp hw with rfl | hw
      · exact ⟨[], w, ws, rfl, hP, fun w' hw' he => hws ⟨w', hw', he⟩⟩
      · exact absurd ⟨w, hw, hP⟩ hws

/-- A batch does what the writes do one by one exactly when the last write to each register makes
the same of what the earlier ones left there as of what was there before them. -/
theorem writeBatch_eq_writeLoop_iff :
    writeBatch name merge bank ws = writeLoop name merge bank ws ↔
      ∀ before w after, ws = before ++ w :: after → (∀ w' ∈ after, name w' ≠ name w) →
        merge w (writeLoop name merge bank before (name w)) = merge w (bank (name w)) := by
  constructor
  · rintro heq before w after rfl hlast
    calc merge w (writeLoop name merge bank before (name w))
      _ = writeLoop name merge bank (before ++ w :: after) (name w) := (writeLoop_last hlast).symm
      _ = writeBatch name merge bank (before ++ w :: after) (name w) := by rw [heq]
      _ = merge w (bank (name w)) := writeBatch_last hlast
  · intro h
    funext n
    by_cases hn : ∃ w ∈ ws, name w = n
    · obtain ⟨before, w, after, rfl, rfl, hlast⟩ := exists_last hn
      rw [writeLoop_last hlast, writeBatch_last hlast, h before w after rfl hlast]
    · have hnone : ∀ w ∈ ws, name w ≠ n := fun w hw hname => hn ⟨w, hw, hname⟩
      rw [writeLoop_of_not_named hnone, writeBatch, storeAll_of_not_named]
      intro entry hentry
      obtain ⟨w', hw', rfl⟩ := List.mem_map.mp hentry
      exact hnone w' hw'

/-! ## Writes to some of the bits -/

section Masked

variable {I B : Type}

/-- A value is known by its bits, `look`; a write puts those of its `data` in the places that it
writes and keeps the others. -/
structure Masked (merge : W → V → V) (look : V → I → B) (writes : W → I → Prop)
    (data : W → I → B) : Prop where
  ext : ∀ x y, (∀ i, look x i = look y i) → x = y
  written : ∀ w x i, writes w i → look (merge w x) i = data w i
  kept : ∀ w x i, ¬writes w i → look (merge w x) i = look x i

variable {look : V → I → B} {writes : W → I → Prop} {data : W → I → B}
  (h : Masked merge look writes data)

include h

omit [DecidableEq N] in
/-- Two values become the same exactly when they have the same bits where the write keeps them. -/
theorem Masked.merge_eq_merge_iff {w : W} {x y : V} :
    merge w x = merge w y ↔ ∀ i, ¬writes w i → look x i = look y i := by
  constructor
  · intro heq i hi
    rw [← h.kept w x i hi, heq, h.kept w y i hi]
  · intro hkept
    apply h.ext
    intro i
    by_cases hi : writes w i
    · rw [h.written w x i hi, h.written w y i hi]
    · rw [h.kept w x i hi, h.kept w y i hi, hkept i hi]

/-- A bit that no write to its register writes keeps its value. -/
theorem Masked.look_writeLoop_of_kept {n : N} {i : I}
    (hkept : ∀ w ∈ ws, name w = n → ¬writes w i) :
    look (writeLoop name merge bank ws n) i = look (bank n) i := by
  induction ws generalizing bank with
  | nil => rfl
  | cons w ws ih =>
    change look (writeLoop name merge (write name merge bank w) ws n) i = look (bank n) i
    rw [ih fun w' hw' => hkept w' (List.mem_cons_of_mem _ hw')]
    by_cases hn : name w = n
    · subst hn
      rw [write, Function.update_self]
      exact h.kept w _ i (hkept w List.mem_cons_self rfl)
    · rw [write, Function.update_of_ne (Ne.symm hn)]

/-- The last write to a bit decides it. -/
theorem Masked.look_writeLoop_last {before after : List W} {w : W} {n : N} {i : I}
    (hname : name w = n) (hw : writes w i) (hkept : ∀ w' ∈ after, name w' = n → ¬writes w' i) :
    look (writeLoop name merge bank (before ++ w :: after) n) i = data w i := by
  subst hname
  rw [writeLoop_append, ← List.singleton_append, writeLoop_append, h.look_writeLoop_of_kept hkept]
  change look (write name merge _ w (name w)) i = data w i
  rw [write, Function.update_self]
  exact h.written w _ i hw

/-- A bit is the same after the writes exactly when its last write, if it has one, writes what was
there. -/
theorem Masked.look_writeLoop_eq_iff {n : N} {i : I} :
    look (writeLoop name merge bank ws n) i = look (bank n) i ↔
      ∀ before w after, ws = before ++ w :: after → name w = n → writes w i →
        (∀ w' ∈ after, name w' = n → ¬writes w' i) → data w i = look (bank n) i := by
  constructor
  · rintro heq before w after rfl hname hw hkept
    rw [← heq, h.look_writeLoop_last hname hw hkept]
  · intro hlast
    by_cases hws : ∃ w ∈ ws, name w = n ∧ writes w i
    · obtain ⟨before, w, after, rfl, ⟨hname, hw⟩, hafter⟩ := exists_last hws
      have hkept : ∀ w' ∈ after, name w' = n → ¬writes w' i :=
        fun w' hw' hname' hwrites => hafter w' hw' ⟨hname', hwrites⟩
      rw [h.look_writeLoop_last hname hw hkept]
      exact hlast before w after rfl hname hw hkept
    · exact h.look_writeLoop_of_kept fun w hw hname hwrites => hws ⟨w, hw, hname, hwrites⟩

/-- A batch does what the writes do one by one exactly when it loses no bit: where the last write
to a register keeps a bit, the last write to that bit writes what was there before. -/
theorem Masked.writeBatch_eq_writeLoop_iff :
    writeBatch name merge bank ws = writeLoop name merge bank ws ↔
      ∀ before first between last after i,
        before ++ first :: between ++ last :: after = ws → name first = name last →
        (∀ w ∈ after, name w ≠ name last) → writes first i → ¬writes last i →
        (∀ w ∈ between, name w = name last → ¬writes w i) →
        data first i = look (bank (name last)) i := by
  rw [BatchedWrites.writeBatch_eq_writeLoop_iff]
  constructor
  · rintro hloop before first between last after i rfl hname hlast hfirst hkeeps hbetween
    have hmerge := hloop (before ++ first :: between) last after rfl hlast
    exact h.look_writeLoop_eq_iff.mp (h.merge_eq_merge_iff.mp hmerge i hkeeps)
      before first between rfl hname hfirst hbetween
  · rintro hlost earlier last after rfl hlast
    refine h.merge_eq_merge_iff.mpr fun i hkeeps => h.look_writeLoop_eq_iff.mpr ?_
    rintro before first between rfl hname hfirst hbetween
    exact hlost before first between last after i rfl hname hlast hfirst hkeeps hbetween

end Masked

end Virt86.BatchedWrites
