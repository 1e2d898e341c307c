import Virt86.SegmentReads

/-!
# Selectors that differ in their privilege level

The low two bits of a selector are a requested privilege level and not part of the offset of its
descriptor. The accessors take the whole selector as the offset.
-/

namespace Virt86.Guest

open BitSlices

/-- The accessors cannot tell the selectors apart: they are the same, or neither reaches memory. -/
def SameAddress (g : Guest) (selector selector' : U16) : Prop :=
  selector = selector' ∨ ∀ gdt, g.regRead .GDTR = .ok gdt →
    gdt.tableLimit.toNat < selector.toNat + 8 ∧ gdt.tableLimit.toNat < selector'.toNat + 8

section Accesses

variable {g : Guest} {σ : Type} {access : (paddr size : U64) → σ → Bool × σ} {entry : σ → GDTEntry}
  {gdt : RegValue} {selector selector' : U16} {s : σ}

theorem gdtAccess_issued_head (hgdt : g.regRead .GDTR = .ok gdt)
    (h : selector.toNat + 8 ≤ gdt.tableLimit.toNat) :
    (g.gdtAccess access entry selector s).issued.head?.map (·.paddr) =
      some (gdt.tableBase + selector.setWidth 64) := by
  rcases hfirst : access (gdt.tableBase + selector.setWidth 64) 8 s with ⟨_ | _, s₁⟩
  · rw [gdtAccess_of_fault hgdt h hfirst]
    rfl
  · rw [gdtAccess_of_first hgdt h hfirst]
    cases g.descriptorKind (entry s₁).generic with
    | plain => rfl
    | reserved => rfl
    | extended =>
      rw [afterFirst]
      split_ifs <;> rfl

/-- The same accesses are made for two selectors only when both are turned down before memory, or
they are one. -/
theorem sameAddress_of_issued (h : (g.gdtAccess access entry selector s).issued =
    (g.gdtAccess access entry selector' s).issued) : g.SameAddress selector selector' := by
  by_cases hsame : selector = selector'
  · exact .inl hsame
  · right
    intro gdt hgdt
    have hhead := congrArg (fun calls => calls.head?.map (·.paddr)) h
    rcases Nat.lt_or_ge gdt.tableLimit.toNat (selector.toNat + 8) with hbeyond | hwithin
    · rcases Nat.lt_or_ge gdt.tableLimit.toNat (selector'.toNat + 8) with hbeyond' | hwithin'
      · exact ⟨hbeyond, hbeyond'⟩
      · rw [gdtAccess_of_beyond hgdt hbeyond, gdtAccess_issued_head hgdt hwithin'] at hhead
        exact absurd hhead (by simp)
    · rw [gdtAccess_issued_head hgdt hwithin] at hhead
      rcases Nat.lt_or_ge gdt.tableLimit.toNat (selector'.toNat + 8) with hbeyond' | hwithin'
      · rw [gdtAccess_of_beyond hgdt hbeyond'] at hhead
        exact absurd hhead (by simp)
      · rw [gdtAccess_issued_head hgdt hwithin', Option.some.injEq] at hhead
        exfalso
        apply hsame
        bv_omega

theorem gdtAccess_of_sameAddress (h : g.SameAddress selector selector') :
    g.gdtAccess access entry selector s = g.gdtAccess access entry selector' s := by
  obtain rfl | hbeyond := h
  · rfl
  · cases hgdt : g.regRead .GDTR with
    | error status => rw [gdtAccess_of_error hgdt, gdtAccess_of_error hgdt]
    | ok gdt =>
      obtain ⟨h, h'⟩ := hbeyond gdt hgdt
      rw [gdtAccess_of_beyond hgdt h, gdtAccess_of_beyond hgdt h']

end Accesses

section Segments

variable {g : Guest} {mem : HostMemory} {gdtEntry : GDTEntry} {selector selector' : U16}

/-- The values agree in all but the selector they hold. -/
def AgreeButSelector (value value' : RegValue) : Prop :=
  value.extractLsb' 16 496 = value'.extractLsb' 16 496

theorem agreeButSelector_setSegment (value : RegValue) (base : U64) (limit : U32)
    (attributes : U16) : AgreeButSelector (value.setSegment selector base limit attributes)
      (value.setSegment selector' base limit attributes) := by
  apply BitVec.eq_of_getLsbD_eq
  intro i hi
  simp only [BitVec.getLsbD_extractLsb', RegValue.setSegment, RegValue.setSegmentSelector,
    RegValue.setSegmentBase, RegValue.setSegmentLimit, RegValue.setSegmentAttributes]
  simp only [getLsbD_setSlice _ _ _ (show 16 + i < 512 by omega)]
  rw [if_neg (show ¬ (0 ≤ 16 + i ∧ 16 + i < 0 + 16) by omega),
    if_neg (show ¬ (0 ≤ 16 + i ∧ 16 + i < 0 + 16) by omega)]

/-- The selector is stored and has no other influence on the segment. -/
theorem loadSegment_agree (selector selector' : U16) (e : GDTEntry) (value : RegValue) :
    (g.loadSegment selector e value).1 = (g.loadSegment selector' e value).1 ∧
      AgreeButSelector (g.loadSegment selector e value).2 (g.loadSegment selector' e value).2 := by
  have hrefl : AgreeButSelector value value := rfl
  simp only [loadSegment]
  split_ifs with hsystem hldt htss hreserved
  · exact ⟨rfl, agreeButSelector_setSegment _ _ _ _⟩
  · exact ⟨rfl, hrefl⟩
  · exact ⟨rfl, agreeButSelector_setSegment _ _ _ _⟩
  · exact ⟨rfl, hrefl⟩
  · exact ⟨rfl, agreeButSelector_setSegment _ _ _ _⟩

theorem readSegment_issued (value : RegValue) :
    (g.readSegment mem gdtEntry selector value).issued =
      (g.getGDTEntry mem selector gdtEntry).issued := by
  simp only [readSegment]
  split_ifs <;> rfl

theorem getSegmentSize_issued (value : RegValue) (size : SegmentSize) :
    (g.getSegmentSize mem gdtEntry value selector size).issued =
      (g.getGDTEntry mem selector gdtEntry).issued := by
  rw [← readSegment_issued value]
  simp only [getSegmentSize]
  split_ifs <;> rfl

theorem computeSegmentSize_agree {value value' : RegValue} (h : AgreeButSelector value value') :
    g.computeSegmentSize value = g.computeSegmentSize value' := by
  have hattributes (v : RegValue) :
      v.segmentAttributes = (v.extractLsb' 16 496).extractLsb' 144 16 := by
    apply BitVec.eq_of_getLsbD_eq
    intro i hi
    simp only [RegValue.segmentAttributes, BitVec.getLsbD_extractLsb', ← Nat.add_assoc]
    simp [hi, show 144 + i < 496 by omega]
  rw [computeSegmentSize, computeSegmentSize, hattributes value, hattributes value', h]

end Segments

/-- The calls returned the same status after the same accesses, and left states that `P` relates. -/
structure SameOutcome {σ : Type} (P : σ → σ → Prop) (o o' : TableOutcome σ) : Prop where
  status : o.status = o'.status
  issued : o.issued = o'.issued
  state : P o.state o'.state

theorem sameOutcome_of_eq {σ : Type} {o o' : TableOutcome σ} (h : o = o') : SameOutcome Eq o o' :=
  ⟨by rw [h], by rw [h], by rw [h]⟩

section SameAddress

variable {g : Guest} {selector selector' : U16} (h : g.SameAddress selector selector')
  (mem : HostMemory) (gdtEntry : GDTEntry) (value : RegValue)

include h

theorem readSegment_of_sameAddress : SameOutcome AgreeButSelector
    (g.readSegment mem gdtEntry selector value) (g.readSegment mem gdtEntry selector' value) := by
  have hget : g.getGDTEntry mem selector gdtEntry = g.getGDTEntry mem selector' gdtEntry :=
    gdtAccess_of_sameAddress h
  have hrefl : AgreeButSelector value value := rfl
  simp only [readSegment, hget]
  split_ifs with hstatus
  · exact ⟨rfl, rfl, hrefl⟩
  · obtain ⟨hload, hagree⟩ := g.loadSegment_agree selector selector'
      (g.getGDTEntry mem selector' gdtEntry).state value
    exact ⟨hload, rfl, hagree⟩

theorem getSegmentSize_of_sameAddress (size : SegmentSize) : SameOutcome Eq
    (g.getSegmentSize mem gdtEntry value selector size)
    (g.getSegmentSize mem gdtEntry value selector' size) := by
  obtain ⟨hstatus, hissued, hagree⟩ := readSegment_of_sameAddress h mem gdtEntry value
  apply sameOutcome_of_eq
  simp only [getSegmentSize, hstatus, hissued, computeSegmentSize_agree hagree]

end SameAddress

/-- For every guest and memory and any two selectors, those that differ only in their privilege
level among them: `GetGDTEntry`, `SetGDTEntry`, `ReadSegment`, but for the selector it stores, and
`GetSegmentSize` each do the same for both exactly when GDTR cannot be read or the limit turns both
down before memory is reached, or they are one selector. -/
theorem selectors_same_iff (g : Guest) (mem : HostMemory) (selector selector' : U16)
    (entry gdtEntry : GDTEntry) (value : RegValue) (size : SegmentSize) :
    (SameOutcome Eq (g.getGDTEntry mem selector gdtEntry)
        (g.getGDTEntry mem selector' gdtEntry) ↔ g.SameAddress selector selector') ∧
    (SameOutcome Eq (g.setGDTEntry selector entry mem)
        (g.setGDTEntry selector' entry mem) ↔ g.SameAddress selector selector') ∧
    (SameOutcome AgreeButSelector (g.readSegment mem gdtEntry selector value)
        (g.readSegment mem gdtEntry selector' value) ↔ g.SameAddress selector selector') ∧
    (SameOutcome Eq (g.getSegmentSize mem gdtEntry value selector size)
        (g.getSegmentSize mem gdtEntry value selector' size) ↔
      g.SameAddress selector selector') := by
  refine ⟨⟨fun h => ?_, fun h => ?_⟩, ⟨fun h => ?_, fun h => ?_⟩, ⟨fun h => ?_, fun h => ?_⟩,
    ⟨fun h => ?_, fun h => ?_⟩⟩
  · exact sameAddress_of_issued h.issued
  · exact sameOutcome_of_eq (gdtAccess_of_sameAddress h)
  · exact sameAddress_of_issued h.issued
  · exact sameOutcome_of_eq (gdtAccess_of_sameAddress h)
  · have hissued := h.issued
    rw [readSegment_issued, readSegment_issued] at hissued
    exact sameAddress_of_issued hissued
  · exact readSegment_of_sameAddress h mem gdtEntry value
  · have hissued := h.issued
    rw [getSegmentSize_issued, getSegmentSize_issued] at hissued
    exact sameAddress_of_issued hissued
  · exact getSegmentSize_of_sameAddress h mem gdtEntry value size

/-- The selectors 8 and 11 name one descriptor, at privilege levels 0 and 3. -/
theorem selectors_differ_at_user_level :
    let g := tablePage 0x17 0 0
    (8 : U16) >>> 2 = 11 >>> 2 ∧ (8 : U16).getLsbD 2 = false ∧
      (g.readSegment tssMemory 0 8 0).status = .OK ∧
      (g.readSegment tssMemory 0 11 0).status = .InvalidSelector ∧
      (g.getGDTEntry tssMemory 8 0).issued ≠ (g.getGDTEntry tssMemory 11 0).issued ∧
      (g.setGDTEntry 8 0x9B0000000000 tssMemory).issued ≠
        (g.setGDTEntry 11 0x9B0000000000 tssMemory).issued := by
  decide +kernel

end Virt86.Guest
