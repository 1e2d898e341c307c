import Virt86.PagingWalks

/-!
# What a page walk depends on

A walk depends on physical memory only through the entries it reads. All of them, and the address
it ends in, lie in the first 2^52 bytes.
-/

namespace Virt86

namespace Walk

variable {α β : Type} {r r' : PhysicalReader} {E : U64 × ℕ → Prop} {P : α → Prop}

/-- The first walk, made with the reader `r`, is the second one whenever `r'` reads the same
entries. -/
def DependsOnReads (r r' : PhysicalReader) (w w' : Walk α) : Prop :=
  (∀ e ∈ w.reads, r e.1 e.2 = r' e.1 e.2) → w = w'

theorem dependsOnReads_refl (w : Walk α) : DependsOnReads r r' w w := fun _ => rfl

theorem DependsOnReads.bind {x x' : Walk α} {f f' : α → Walk β} (hx : DependsOnReads r r' x x')
    (hf : ∀ a, DependsOnReads r r' (f a) (f' a)) :
    DependsOnReads r r' (x >>= f) (x' >>= f') := by
  intro h
  cases hres : x.result with
  | none =>
    rw [bind_of_none hres] at h
    obtain rfl : x = x' := hx h
    rw [bind_of_none hres, bind_of_none hres]
  | some a =>
    rw [bind_of_some hres] at h
    obtain rfl : x = x' := hx fun e he => h e (List.mem_append_left _ he)
    have hrest : f a = f' a := hf a fun e he => h e (List.mem_append_right _ he)
    rw [bind_of_some hres, bind_of_some hres, hrest]

theorem dependsOnReads_getEntry (l t size : ℕ) (linAddr tableAddr : U64) :
    DependsOnReads r r' (getEntry r l t size linAddr tableAddr)
      (getEntry r' l t size linAddr tableAddr) := by
  intro h
  have hread := h (buildAddress l t linAddr tableAddr, size) (by simp [getEntry, readEntry_reads])
  simp only [getEntry, readEntry, hread]

theorem DependsOnReads.ite {c : Prop} [Decidable c] {x x' y y' : Walk α}
    (hx : DependsOnReads r r' x x') (hy : DependsOnReads r r' y y') :
    DependsOnReads r r' (if c then x else y) (if c then x' else y') := by
  split_ifs
  · exact hx
  · exact hy

/-- All reads of the walk are in `E`, and what it computes is in `P`. -/
def Ensures (E : U64 × ℕ → Prop) (P : α → Prop) (w : Walk α) : Prop :=
  (∀ e ∈ w.reads, E e) ∧ ∀ a, w.result = some a → P a

theorem ensures_pure {a : α} (h : P a) : (pure a : Walk α).Ensures E P := by
  refine ⟨fun e he => absurd he (by simp [pure]), fun b hb => ?_⟩
  obtain rfl : a = b := by simpa [pure] using hb
  exact h

theorem ensures_fail : (fail : Walk α).Ensures E P := by
  simp [Ensures, fail]

theorem Ensures.bind {Q : β → Prop} {x : Walk α} {f : α → Walk β} (hx : x.Ensures E P)
    (hf : ∀ a, P a → (f a).Ensures E Q) : (x >>= f).Ensures E Q := by
  cases hres : x.result with
  | none =>
    rw [bind_of_none hres]
    exact ⟨hx.1, by simp⟩
  | some a =>
    obtain ⟨hreads, hresult⟩ := hf a (hx.2 a hres)
    rw [bind_of_some hres]
    refine ⟨fun e he => ?_, hresult⟩
    rcases List.mem_append.mp he with hfirst | hlater
    · exact hx.1 e hfirst
    · exact hreads e hlater

theorem Ensures.ite {c : Prop} [Decidable c] {x y : Walk α} (hx : x.Ensures E P)
    (hy : y.Ensures E P) : (if c then x else y).Ensures E P := by
  split_ifs
  · exact hx
  · exact hy

end Walk

open Walk

/-- An entry of four or eight bytes in the first 2^52 bytes. -/
def EntryFits (e : U64 × ℕ) : Prop := e.1.toNat < 2 ^ 52 ∧ 0 < e.2 ∧ e.2 ≤ 8

theorem buildAddress_lt {l t : ℕ} (h : l + t ≤ 52) (linAddr tableAddr : U64) :
    (buildAddress l t linAddr tableAddr).toNat < 2 ^ 52 := by
  have hpow : 2 ^ (t + l) ≤ 2 ^ 52 := Nat.pow_le_pow_right (by omega) (by omega)
  rw [buildAddress_eq (by omega), BitVec.toNat_setWidth]
  refine Nat.lt_of_le_of_lt (Nat.mod_le _ _) (Nat.lt_of_lt_of_le ?_ hpow)
  exact (tableAddr.extractLsb' 0 t ++ linAddr.extractLsb' 0 l).isLt

theorem ensures_getEntry (r : PhysicalReader) {l t size : ℕ} (h : l + t ≤ 52) (hsize : 0 < size)
    (hle : size ≤ 8) (linAddr tableAddr : U64) :
    (getEntry r l t size linAddr tableAddr).Ensures EntryFits fun _ => True := by
  refine ⟨fun e he => ?_, fun _ _ => trivial⟩
  rw [getEntry, readEntry_reads, List.mem_singleton] at he
  subst he
  exact ⟨buildAddress_lt h linAddr tableAddr, hsize, hle⟩

namespace PagingContext

variable (vp : PagingContext) (r : PhysicalReader)

/-- Walks that differ in physical memory only. -/
theorem walk_dependsOnReads (laddr : U64) :
    DependsOnReads vp.memRead r (vp.walk laddr)
      (({ vp with memRead := r } : PagingContext).walk laddr) := by
  have h32 (la : U32) : DependsOnReads vp.memRead r (vp.linearToPhysical32 la)
      (({ vp with memRead := r } : PagingContext).linearToPhysical32 la) := by
    refine (dependsOnReads_refl _).bind fun cr3 => (dependsOnReads_refl _).bind fun cr4 => ?_
    refine (dependsOnReads_getEntry _ _ _ _ _).bind fun pde => .ite (dependsOnReads_refl _) ?_
    exact (dependsOnReads_getEntry _ _ _ _ _).bind fun pte => dependsOnReads_refl _
  have hPAE (la : U32) : DependsOnReads vp.memRead r (vp.linearToPhysicalPAE la)
      (({ vp with memRead := r } : PagingContext).linearToPhysicalPAE la) := by
    refine (dependsOnReads_refl _).bind fun cr3 => ?_
    refine (dependsOnReads_getEntry _ _ _ _ _).bind fun pdpte => ?_
    refine (dependsOnReads_getEntry _ _ _ _ _).bind fun pde => .ite (dependsOnReads_refl _) ?_
    exact (dependsOnReads_getEntry _ _ _ _ _).bind fun pte => dependsOnReads_refl _
  have h4Level : DependsOnReads vp.memRead r (vp.linearToPhysical4Level laddr)
      (({ vp with memRead := r } : PagingContext).linearToPhysical4Level laddr) := by
    refine (dependsOnReads_refl _).bind fun cr3 => ?_
    refine (dependsOnReads_getEntry _ _ _ _ _).bind fun pml4e => ?_
    refine (dependsOnReads_getEntry _ _ _ _ _).bind fun pdpte => .ite (dependsOnReads_refl _) ?_
    refine (dependsOnReads_getEntry _ _ _ _ _).bind fun pde => .ite (dependsOnReads_refl _) ?_
    exact (dependsOnReads_getEntry _ _ _ _ _).bind fun pte => dependsOnReads_refl _
  refine (dependsOnReads_refl _).bind fun cr0 => (dependsOnReads_refl _).bind fun cr4 => ?_
  refine (dependsOnReads_refl _).bind fun efer => .ite (dependsOnReads_refl _) ?_
  exact .ite (h32 _) (.ite (hPAE _) h4Level)

theorem ensures_readReg (reg : Reg) : (vp.readReg reg).Ensures EntryFits fun _ => True := by
  rw [readReg]
  split
  · exact ensures_pure trivial
  · exact ensures_fail

/-- The entries a walk reads and the address it ends in. -/
theorem walk_ensures (laddr : U64) :
    (vp.walk laddr).Ensures EntryFits fun paddr => paddr.toNat < 2 ^ 52 := by
  have h32 (la : U32) :
      (vp.linearToPhysical32 la).Ensures EntryFits fun paddr => paddr.toNat < 2 ^ 52 := by
    refine (vp.ensures_readReg _).bind fun cr3 _ => (vp.ensures_readReg _).bind fun cr4 _ => ?_
    refine (ensures_getEntry _ (by omega) (by omega) (by omega) _ _).bind fun pde _ => .ite ?_ ?_
    · exact ensures_pure (buildAddress_lt (by omega) _ _)
    · refine (ensures_getEntry _ (by omega) (by omega) (by omega) _ _).bind fun pte _ => ?_
      exact ensures_pure (buildAddress_lt (by omega) _ _)
  have hPAE (la : U32) :
      (vp.linearToPhysicalPAE la).Ensures EntryFits fun paddr => paddr.toNat < 2 ^ 52 := by
    refine (vp.ensures_readReg _).bind fun cr3 _ => ?_
    refine (ensures_getEntry _ (by omega) (by omega) (by omega) _ _).bind fun pdpte _ => ?_
    refine (ensures_getEntry _ (by omega) (by omega) (by omega) _ _).bind fun pde _ => .ite ?_ ?_
    · exact ensures_pure (buildAddress_lt (by omega) _ _)
    · refine (ensures_getEntry _ (by omega) (by omega) (by omega) _ _).bind fun pte _ => ?_
      exact ensures_pure (buildAddress_lt (by omega) _ _)
  have h4Level :
      (vp.linearToPhysical4Level laddr).Ensures EntryFits fun paddr => paddr.toNat < 2 ^ 52 := by
    refine (vp.ensures_readReg _).bind fun cr3 _ => ?_
    refine (ensures_getEntry _ (by omega) (by omega) (by omega) _ _).bind fun pml4e _ => ?_
    refine (ensures_getEntry _ (by omega) (by omega) (by omega) _ _).bind fun pdpte _ => .ite ?_ ?_
    · exact ensures_pure (buildAddress_lt (by omega) _ _)
    refine (ensures_getEntry _ (by omega) (by omega) (by omega) _ _).bind fun pde _ => .ite ?_ ?_
    · exact ensures_pure (buildAddress_lt (by omega) _ _)
    · refine (ensures_getEntry _ (by omega) (by omega) (by omega) _ _).bind fun pte _ => ?_
      exact ensures_pure (buildAddress_lt (by omega) _ _)
  refine (vp.ensures_readReg _).bind fun cr0 _ => (vp.ensures_readReg _).bind fun cr4 _ => ?_
  refine (vp.ensures_readReg _).bind fun efer _ => .ite (ensures_pure ?_) ?_
  · have hle : laddr.toNat &&& 0xFFFFFFFF ≤ 0xFFFFFFFF := Nat.and_le_right
    have hand : (laddr &&& 0xFFFFFFFF).toNat = laddr.toNat &&& 0xFFFFFFFF := rfl
    omega
  · exact .ite (h32 _) (.ite (hPAE _) h4Level)

end PagingContext

end Virt86
