import Virt86.HostInterface
import Virt86.Simulations

/-!
# Debug configurations

`kvm_guest_debug` and `hax_debug_t` are a control word and eight debug registers. Both backends
keep one of them in `m_debug`, edit it in place and hand all of it over. What they do to it is the
same but for the bits of the control word.
-/

namespace Virt86

open BitSlices

/-- The conditions of DR7. -/
inductive HardwareBreakpointTrigger where
  | Execution | DataWrite | Width8 | DataReadWrite
  deriving DecidableEq, Repr

def HardwareBreakpointTrigger.value : HardwareBreakpointTrigger → U8
  | .Execution => 0b00
  | .DataWrite => 0b01
  | .Width8 => 0b10
  | .DataReadWrite => 0b11

/-- The sizes of DR7. -/
inductive HardwareBreakpointLength where
  | Byte | Word | Qword | Dword
  deriving DecidableEq, Repr

def HardwareBreakpointLength.value : HardwareBreakpointLength → U8
  | .Byte => 0b00
  | .Word => 0b01
  | .Qword => 0b10
  | .Dword => 0b11

structure HardwareBreakpoint where
  address : U64
  localEnable : Bool
  globalEnable : Bool
  trigger : HardwareBreakpointTrigger
  length : HardwareBreakpointLength
  deriving DecidableEq, Repr

abbrev HardwareBreakpoints := Vector HardwareBreakpoint 4

/-! ## The debug registers -/

abbrev DebugRegisters := Vector U64 8

namespace DebugRegisters

def address (dr : DebugRegisters) (i : Fin 4) : U64 := dr[i.val]

def dr7 (dr : DebugRegisters) : U64 := dr[7]

/-- Nothing is in the registers between the addresses and DR7. -/
def MiddleClear (dr : DebugRegisters) : Prop := ∀ k (hk : k < 7), 4 ≤ k → dr[k] = 0

theorem middleClear_zero : MiddleClear (Vector.replicate 8 0) :=
  fun _ _ _ => Vector.getElem_replicate (by omega)

theorem dr7_zero : dr7 (Vector.replicate 8 0) = 0 := Vector.getElem_replicate (by omega)

end DebugRegisters

namespace HardwareBreakpoints

def address (breakpoints : HardwareBreakpoints) (i : Fin 4) : U64 := breakpoints[i].address

def anyEnabled (breakpoints : HardwareBreakpoints) : Bool :=
  breakpoints.any fun bp => bp.localEnable || bp.globalEnable

/-- One pass of the loop of `SetHardwareBreakpoints`. -/
def storeAt (breakpoints : HardwareBreakpoints) (dr : DebugRegisters) (i : Fin 4) :
    DebugRegisters :=
  let bp := breakpoints[i]
  let dr := dr.set i bp.address
  let dr := dr.set 7 (dr[7] ||| (if bp.localEnable then 1 else 0 : U64) <<< (0 + i.val * 2))
  let dr := dr.set 7 (dr[7] ||| (if bp.globalEnable then 1 else 0 : U64) <<< (1 + i.val * 2))
  let dr := dr.set 7 (dr[7] ||| (bp.trigger.value &&& 0x3).setWidth 64 <<< (16 + i.val * 4))
  dr.set 7 (dr[7] ||| (bp.length.value &&& 0x3).setWidth 64 <<< (18 + i.val * 4))

def store (breakpoints : HardwareBreakpoints) (dr : DebugRegisters) : DebugRegisters :=
  [0, 1, 2, 3].foldl breakpoints.storeAt dr

/-- The bits of DR7 that the loop sets for a breakpoint. -/
def dr7At (breakpoints : HardwareBreakpoints) (i : Fin 4) : U64 :=
  (if breakpoints[i].localEnable then 1 else 0 : U64) <<< (0 + i.val * 2) |||
    (if breakpoints[i].globalEnable then 1 else 0 : U64) <<< (1 + i.val * 2) |||
    (breakpoints[i].trigger.value &&& 0x3).setWidth 64 <<< (16 + i.val * 4) |||
    (breakpoints[i].length.value &&& 0x3).setWidth 64 <<< (18 + i.val * 4)

def dr7 (breakpoints : HardwareBreakpoints) : U64 :=
  breakpoints.dr7At 0 ||| breakpoints.dr7At 1 ||| breakpoints.dr7At 2 ||| breakpoints.dr7At 3

theorem storeAt_eq (breakpoints : HardwareBreakpoints) (dr : DebugRegisters) (i : Fin 4) :
    breakpoints.storeAt dr i =
      (dr.set i breakpoints[i].address).set 7 (dr[7] ||| breakpoints.dr7At i) := by
  have hi : i.val ≠ 7 := by omega
  simp only [storeAt, dr7At, Vector.getElem_set_self, Vector.set_set]
  rw [Vector.getElem_set_ne _ _ hi]
  simp only [BitVec.or_assoc]

theorem getElem_storeAt (breakpoints : HardwareBreakpoints) (dr : DebugRegisters) (i : Fin 4)
    {k : ℕ} (hk : k < 8) : (breakpoints.storeAt dr i)[k] =
      if 7 = k then dr[7] ||| breakpoints.dr7At i
      else if i.val = k then breakpoints[i].address else dr[k] := by
  rw [storeAt_eq, Vector.getElem_set, Vector.getElem_set]

theorem foldl_storeAt_address (breakpoints : HardwareBreakpoints) (is : List (Fin 4))
    (dr : DebugRegisters) (i : Fin 4) :
    (i ∉ is → (is.foldl breakpoints.storeAt dr)[i.val] = dr[i.val]) ∧
      (i ∈ is → (is.foldl breakpoints.storeAt dr)[i.val] = breakpoints[i].address) := by
  have hseven : 7 ≠ i.val := by omega
  induction is generalizing dr with
  | nil => exact ⟨fun _ => rfl, fun hi => absurd hi List.not_mem_nil⟩
  | cons j is ih =>
    simp only [List.foldl_cons]
    obtain ⟨hkept, hstored⟩ := ih (breakpoints.storeAt dr j)
    rw [getElem_storeAt, if_neg hseven] at hkept
    constructor
    · intro hi
      rw [List.mem_cons, not_or] at hi
      rw [hkept hi.2, if_neg fun h => hi.1 (Fin.ext h.symm)]
    · intro hi
      by_cases hmem : i ∈ is
      · exact hstored hmem
      · obtain rfl : i = j := (List.mem_cons.mp hi).resolve_right hmem
        rw [hkept hmem, if_pos rfl]

theorem store_address (breakpoints : HardwareBreakpoints) (dr : DebugRegisters) (i : Fin 4) :
    (breakpoints.store dr).address i = breakpoints.address i := by
  apply (foldl_storeAt_address breakpoints [0, 1, 2, 3] dr i).2
  revert i
  decide

/-- The loop adds to what is in DR7. -/
theorem store_dr7 (breakpoints : HardwareBreakpoints) (dr : DebugRegisters) :
    (breakpoints.store dr).dr7 = dr.dr7 ||| breakpoints.dr7 := by
  simp only [DebugRegisters.dr7, store, List.foldl_cons, List.foldl_nil, getElem_storeAt, if_true,
    dr7, BitVec.or_assoc]

theorem store_middle (breakpoints : HardwareBreakpoints) (dr : DebugRegisters) {k : ℕ}
    (hlow : 4 ≤ k) (hhigh : k < 7) : (breakpoints.store dr)[k] = dr[k] := by
  have hne (i : Fin 4) : i.val ≠ k := by omega
  simp only [store, List.foldl_cons, List.foldl_nil, getElem_storeAt, if_neg (hne _),
    show 7 ≠ k by omega, if_false]

theorem store_middleClear (breakpoints : HardwareBreakpoints) {dr : DebugRegisters}
    (h : dr.MiddleClear) : (breakpoints.store dr).MiddleClear :=
  fun k hk hlow => (breakpoints.store_middle dr hlow hk).trans (h k hk hlow)

/-! ## What DR7 means -/

/-- The debug registers for the breakpoints, and nothing besides. -/
structure Encodes (breakpoints : HardwareBreakpoints) (dr : DebugRegisters) : Prop where
  address : ∀ i, dr.address i = breakpoints.address i
  middle : dr.MiddleClear
  localEnable : ∀ i : Fin 4, dr.dr7.getLsbD (2 * i) = breakpoints[i].localEnable
  globalEnable : ∀ i : Fin 4, dr.dr7.getLsbD (2 * i + 1) = breakpoints[i].globalEnable
  trigger : ∀ i : Fin 4, dr.dr7.extractLsb' (16 + 4 * i) 2 =
    breakpoints[i].trigger.value.setWidth 2
  length : ∀ i : Fin 4, dr.dr7.extractLsb' (18 + 4 * i) 2 =
    breakpoints[i].length.value.setWidth 2
  reserved : ∀ k, 8 ≤ k ∧ k < 16 ∨ 32 ≤ k → dr.dr7.getLsbD k = false

theorem getLsbD_enable (enabled : Bool) (start : ℕ) {k : ℕ} (hk : k < 64) :
    ((if enabled then 1 else 0 : U64) <<< start).getLsbD k = true ↔
      k = start ∧ enabled = true := by
  have hbit (n : ℕ) : (if enabled then 1 else 0 : U64).getLsbD n = (enabled && decide (n = 0)) := by
    cases enabled with
    | true => simp
    | false => simp
  simp only [BitVec.getLsbD_shiftLeft, hbit, Bool.and_eq_true, Bool.not_eq_true',
    decide_eq_true_eq, decide_eq_false_iff_not]
  constructor
  · rintro ⟨⟨-, hlow⟩, henabled, hzero⟩
    exact ⟨by omega, henabled⟩
  · rintro ⟨rfl, henabled⟩
    exact ⟨⟨hk, Nat.lt_irrefl k⟩, henabled, Nat.sub_self k⟩

theorem getLsbD_field (value : U8) (start : ℕ) {k : ℕ} (hk : k < 64) :
    ((value &&& 0x3).setWidth 64 <<< start).getLsbD k = true ↔
      start ≤ k ∧ k < start + 2 ∧ value.getLsbD (k - start) = true := by
  rw [show value &&& 0x3 = (value.setWidth 2).setWidth 8 from and_ofNat_mask value 2]
  simp only [BitVec.getLsbD_shiftLeft, BitVec.getLsbD_setWidth, Bool.and_eq_true,
    Bool.not_eq_true', decide_eq_true_eq, decide_eq_false_iff_not]
  constructor
  · rintro ⟨⟨-, hlow⟩, -, -, htwo, hbit⟩
    exact ⟨by omega, by omega, hbit⟩
  · rintro ⟨hlow, hhigh, hbit⟩
    exact ⟨⟨hk, by omega⟩, by omega, by omega, by omega, hbit⟩

theorem getLsbD_dr7At (breakpoints : HardwareBreakpoints) (i : Fin 4) {k : ℕ} (hk : k < 64) :
    (breakpoints.dr7At i).getLsbD k = true ↔
      (k = 2 * i ∧ breakpoints[i].localEnable = true) ∨
      (k = 2 * i + 1 ∧ breakpoints[i].globalEnable = true) ∨
      (16 + 4 * i.val ≤ k ∧ k < 18 + 4 * i.val ∧
        breakpoints[i].trigger.value.getLsbD (k - (16 + 4 * i)) = true) ∨
      (18 + 4 * i.val ≤ k ∧ k < 20 + 4 * i.val ∧
        breakpoints[i].length.value.getLsbD (k - (18 + 4 * i)) = true) := by
  have henable : 0 + i.val * 2 = 2 * i.val ∧ 1 + i.val * 2 = 2 * i.val + 1 := by omega
  have hfield : 16 + i.val * 4 = 16 + 4 * i.val ∧ 18 + i.val * 4 = 18 + 4 * i.val := by omega
  have hend : 16 + 4 * i.val + 2 = 18 + 4 * i.val ∧ 18 + 4 * i.val + 2 = 20 + 4 * i.val := by omega
  rw [dr7At, henable.1, henable.2, hfield.1, hfield.2]
  simp only [BitVec.getLsbD_or, Bool.or_eq_true]
  rw [getLsbD_enable _ _ hk, getLsbD_enable _ _ hk, getLsbD_field _ _ hk, getLsbD_field _ _ hk,
    hend.1, hend.2, or_assoc, or_assoc]

theorem getLsbD_dr7 (breakpoints : HardwareBreakpoints) (k : ℕ) :
    breakpoints.dr7.getLsbD k = true ↔ ∃ i, (breakpoints.dr7At i).getLsbD k = true := by
  simp only [dr7, BitVec.getLsbD_or, Bool.or_eq_true]
  constructor
  · rintro (((h | h) | h) | h)
    · exact ⟨0, h⟩
    · exact ⟨1, h⟩
    · exact ⟨2, h⟩
    · exact ⟨3, h⟩
  · rintro ⟨i, h⟩
    match i with
    | 0 => exact .inl (.inl (.inl h))
    | 1 => exact .inl (.inl (.inr h))
    | 2 => exact .inl (.inr h)
    | 3 => exact .inr h

/-- Each bit of DR7 is for at most one breakpoint. -/
theorem field_of_getLsbD_dr7At (breakpoints : HardwareBreakpoints) {i : Fin 4} {k : ℕ}
    (hk : k < 64) (h : (breakpoints.dr7At i).getLsbD k = true) :
    k < 8 ∧ k / 2 = i ∨ 16 ≤ k ∧ (k - 16) / 4 = i := by
  rw [getLsbD_dr7At _ _ hk] at h
  rcases h with ⟨hbit, -⟩ | ⟨hbit, -⟩ | ⟨hlow, hhigh, -⟩ | ⟨hlow, hhigh, -⟩
  all_goals omega

theorem getLsbD_dr7_field (breakpoints : HardwareBreakpoints) (i : Fin 4) {k : ℕ} (hk : k < 64)
    (hfield : k < 8 ∧ k / 2 = i ∨ 16 ≤ k ∧ (k - 16) / 4 = i) :
    breakpoints.dr7.getLsbD k = (breakpoints.dr7At i).getLsbD k := by
  rw [Bool.eq_iff_iff, getLsbD_dr7]
  constructor
  · rintro ⟨j, hj⟩
    have howner := breakpoints.field_of_getLsbD_dr7At hk hj
    obtain rfl : j = i := Fin.ext (by omega)
    exact hj
  · exact fun h => ⟨i, h⟩

/-- Two bits of DR7 that are those of a value. -/
theorem extractLsb'_dr7 (breakpoints : HardwareBreakpoints) (i : Fin 4) {start : ℕ} {value : U8}
    (hstart : start = 16 + 4 * i.val ∨ start = 18 + 4 * i.val)
    (hbits : ∀ k < 2, (breakpoints.dr7At i).getLsbD (start + k) = true ↔
      value.getLsbD k = true) :
    breakpoints.dr7.extractLsb' start 2 = value.setWidth 2 := by
  apply BitVec.eq_of_getLsbD_eq
  intro k hk
  rw [BitVec.getLsbD_extractLsb', BitVec.getLsbD_setWidth, decide_eq_true hk, Bool.true_and,
    Bool.true_and, breakpoints.getLsbD_dr7_field i (by omega) (by omega), Bool.eq_iff_iff]
  exact hbits k hk

/-- The bits of the fields are bits of DR7, and the reserved bits are not. -/
theorem encodes_of_dr7 (breakpoints : HardwareBreakpoints) {dr : DebugRegisters}
    (haddress : ∀ i, dr.address i = breakpoints.address i) (hmiddle : dr.MiddleClear)
    (hdr7 : dr.dr7 = breakpoints.dr7) : breakpoints.Encodes dr where
  address := haddress
  middle := hmiddle
  localEnable i := by
    have hk : 2 * i.val < 64 := by omega
    rw [hdr7, breakpoints.getLsbD_dr7_field i hk (by omega), Bool.eq_iff_iff,
      getLsbD_dr7At _ _ hk]
    generalize breakpoints[i] = bp
    grind
  globalEnable i := by
    have hk : 2 * i.val + 1 < 64 := by omega
    rw [hdr7, breakpoints.getLsbD_dr7_field i hk (by omega), Bool.eq_iff_iff,
      getLsbD_dr7At _ _ hk]
    generalize breakpoints[i] = bp
    grind
  trigger i := by
    rw [hdr7]
    apply breakpoints.extractLsb'_dr7 i (.inl rfl)
    intro k hk
    rw [getLsbD_dr7At _ _ (by omega), Nat.add_sub_cancel_left]
    generalize breakpoints[i] = bp
    grind
  length i := by
    rw [hdr7]
    apply breakpoints.extractLsb'_dr7 i (.inr rfl)
    intro k hk
    rw [getLsbD_dr7At _ _ (by omega), Nat.add_sub_cancel_left]
    generalize breakpoints[i] = bp
    grind
  reserved k hk := by
    rcases Nat.lt_or_ge k 64 with hlt | hge
    · rw [hdr7, ← Bool.not_eq_true, getLsbD_dr7]
      rintro ⟨i, hi⟩
      have howner := breakpoints.field_of_getLsbD_dr7At hlt hi
      omega
    · exact BitVec.getLsbD_of_ge _ _ hge

/-- There is one DR7 for the breakpoints. -/
theorem Encodes.unique {breakpoints : HardwareBreakpoints} {dr dr' : DebugRegisters}
    (h : breakpoints.Encodes dr) (h' : breakpoints.Encodes dr') : dr.dr7 = dr'.dr7 := by
  apply BitVec.eq_of_getLsbD_eq
  intro k hk
  by_cases hreserved : 8 ≤ k ∧ k < 16 ∨ 32 ≤ k
  · rw [h.reserved k hreserved, h'.reserved k hreserved]
  · rcases Nat.lt_or_ge k 8 with hlow | hhigh
    · rcases Nat.mod_two_eq_zero_or_one k with heven | hodd
      · have hk2 : 2 * (k / 2) = k := by omega
        have hlocal := (h.localEnable ⟨k / 2, by omega⟩).trans
          (h'.localEnable ⟨k / 2, by omega⟩).symm
        simpa only [hk2] using hlocal
      · have hk2 : 2 * (k / 2) + 1 = k := by omega
        have hglobal := (h.globalEnable ⟨k / 2, by omega⟩).trans
          (h'.globalEnable ⟨k / 2, by omega⟩).symm
        simpa only [hk2] using hglobal
    · rcases Nat.lt_or_ge ((k - 16) % 4) 2 with htrigger | hlength
      · have hfield := (h.trigger ⟨(k - 16) / 4, by omega⟩).trans
          (h'.trigger ⟨(k - 16) / 4, by omega⟩).symm
        have hbit := congrArg (fun x => x.getLsbD ((k - 16) % 4)) hfield
        simpa [BitVec.getLsbD_extractLsb', htrigger,
          show 16 + 4 * ((k - 16) / 4) + (k - 16) % 4 = k by omega] using hbit
      · have hfield := (h.length ⟨(k - 16) / 4, by omega⟩).trans
          (h'.length ⟨(k - 16) / 4, by omega⟩).symm
        have hbit := congrArg (fun x => x.getLsbD ((k - 16) % 4 - 2)) hfield
        simpa [BitVec.getLsbD_extractLsb', show (k - 16) % 4 - 2 < 2 by omega,
          show 18 + 4 * ((k - 16) / 4) + ((k - 16) % 4 - 2) = k by omega] using hbit

theorem or_eq_right_iff {w : ℕ} (x y : BitVec w) : x ||| y = y ↔ x &&& ~~~y = 0 := by
  constructor
  · intro h
    rw [← h, BitVec.not_or, ← BitVec.and_assoc]
    simp
  · intro h
    apply BitVec.eq_of_getLsbD_eq
    intro k hk
    have hbit := congrArg (fun z => z.getLsbD k) h
    simp only [BitVec.getLsbD_and, BitVec.getLsbD_not, hk] at hbit
    cases hx : x.getLsbD k <;> cases hy : y.getLsbD k <;> simp_all

theorem encodes_store_of_dr7 (breakpoints : HardwareBreakpoints) {dr : DebugRegisters}
    (hmiddle : dr.MiddleClear) (hdr7 : (breakpoints.store dr).dr7 = breakpoints.dr7) :
    breakpoints.Encodes (breakpoints.store dr) :=
  breakpoints.encodes_of_dr7 (breakpoints.store_address dr) (breakpoints.store_middleClear hmiddle)
    hdr7

/-- The registers encode the breakpoints exactly when nothing else was left in DR7. -/
theorem encodes_store_iff (breakpoints : HardwareBreakpoints) {dr : DebugRegisters}
    (hmiddle : dr.MiddleClear) :
    breakpoints.Encodes (breakpoints.store dr) ↔ dr.dr7 &&& ~~~breakpoints.dr7 = 0 := by
  rw [← or_eq_right_iff, ← breakpoints.store_dr7 dr]
  constructor
  · intro h
    have hzero : (breakpoints.store (Vector.replicate 8 0)).dr7 = breakpoints.dr7 := by
      rw [store_dr7, DebugRegisters.dr7_zero]
      exact BitVec.zero_or
    have hencodes := breakpoints.encodes_store_of_dr7 DebugRegisters.middleClear_zero hzero
    exact (h.unique hencodes).trans hzero
  · exact breakpoints.encodes_store_of_dr7 hmiddle

/-- What the debug registers are to be for the breakpoints. -/
def Programmed (breakpoints : HardwareBreakpoints) (dr : DebugRegisters) : Prop :=
  if breakpoints.anyEnabled then breakpoints.Encodes dr else dr = Vector.replicate 8 0

end HardwareBreakpoints

/-! ## The configuration -/

structure DebugConfiguration where
  control : U32
  dr : DebugRegisters
  deriving DecidableEq, Repr

/-- The calls that change the breakpoints. -/
inductive DebugRequest where
  | enableSoftwareBreakpoints (enable : Bool)
  | setHardwareBreakpoints (breakpoints : HardwareBreakpoints)
  | clearHardwareBreakpoints

/-- The bits of a control word. -/
structure DebugFlags where
  enable : U32
  step : U32
  useSW : U32
  useHW : U32
  step_ne : step ≠ 0
  step_enable : step &&& enable = 0
  useSW_enable : useSW &&& enable = 0
  useHW_enable : useHW &&& enable = 0
  useSW_step : useSW &&& step = 0
  useHW_step : useHW &&& step = 0

namespace DebugFlags

variable (f : DebugFlags)

/-- What `SetDebug` does before the call. -/
def flush (m : DebugConfiguration) : DebugConfiguration :=
  { m with control := if m.control &&& ~~~f.enable ≠ 0 then m.control ||| f.enable
      else m.control &&& ~~~f.enable }

def singleStep (on : Bool) (m : DebugConfiguration) : DebugConfiguration :=
  { m with control := if on then m.control ||| f.step else m.control &&& ~~~f.step }

def clear (m : DebugConfiguration) : DebugConfiguration :=
  { control := m.control &&& ~~~f.useHW, dr := Vector.replicate 8 0 }

/-- What a request does before `SetDebug`. -/
def edit : DebugRequest → DebugConfiguration → DebugConfiguration
  | .enableSoftwareBreakpoints enable, m =>
    { m with control := if enable then m.control ||| f.useSW else m.control &&& ~~~f.useSW }
  | .setHardwareBreakpoints breakpoints, m =>
    if breakpoints.anyEnabled then
      { control := m.control ||| f.useHW, dr := breakpoints.store m.dr }
    else f.clear m
  | .clearHardwareBreakpoints, m => f.clear m

@[simp] theorem dr_flush (m : DebugConfiguration) : (f.flush m).dr = m.dr := rfl

@[simp] theorem dr_singleStep (on : Bool) (m : DebugConfiguration) :
    (f.singleStep on m).dr = m.dr := rfl

end DebugFlags

/-! ## Processors with a debug configuration -/

/-- A processor's own configuration, the last one that the hypervisor accepted, and the answers to
the coming calls. -/
structure DebugView where
  config : DebugConfiguration
  accepted : DebugConfiguration
  answers : List Bool

namespace DebugView

/-- Whether the next call succeeds. -/
def accepts (v : DebugView) : Bool := v.answers.headD true

/-- `m` becomes the configuration and is handed over. -/
def submit (v : DebugView) (m : DebugConfiguration) : DebugView where
  config := m
  accepted := if v.accepts then m else v.accepted
  answers := v.answers.tail

/-- Other calls were made. -/
structure Idle (v v' : DebugView) : Prop where
  config : v'.config = v.config
  accepted : v'.accepted = v.accepted
  answers : v.answers = [] → v'.answers = []

theorem Idle.refl (v : DebugView) : Idle v v := ⟨rfl, rfl, id⟩

theorem Idle.trans {v₁ v₂ v₃ : DebugView} (h : Idle v₁ v₂) (h' : Idle v₂ v₃) : Idle v₁ v₃ :=
  ⟨h'.config.trans h.config, h'.accepted.trans h.accepted, fun hnil => h'.answers (h.answers hnil)⟩

end DebugView

/-- What an operation is to the debug configuration. -/
inductive DebugAction where
  | other
  | step
  | request (r : DebugRequest)

/-- What an action can do. A step hands the configuration over before and after it runs the
guest. -/
inductive DebugAction.Does (f : DebugFlags) : DebugAction → DebugView → DebugView → Prop
  | other {v v' : DebugView} : v.Idle v' → Does f .other v v'
  | request (r : DebugRequest) (v : DebugView) :
    Does f (.request r) v (v.submit (f.flush (f.edit r v.config)))
  | refused {v : DebugView} : v.accepts = false →
    Does f .step v (v.submit (f.flush (f.singleStep true v.config)))
  | stepped {v w v' : DebugView} : v.accepts = true →
    (v.submit (f.flush (f.singleStep true v.config))).Idle w →
    (w.submit (f.flush (f.singleStep false w.config))).Idle v' → Does f .step v v'

namespace DebugAction.Does

variable {f : DebugFlags} {a : DebugAction} {v v' : DebugView}

theorem eq_submit {r : DebugRequest} (h : Does f (.request r) v v') :
    v' = v.submit (f.flush (f.edit r v.config)) := by
  cases h
  rfl

/-- The single-step bit is not in the debug registers. -/
theorem dr_eq (h : Does f a v v') (ha : ∀ r, a ≠ .request r) : v'.config.dr = v.config.dr := by
  cases h with
  | other hidle => rw [hidle.config]
  | request r => exact absurd rfl (ha r)
  | refused _ => rfl
  | @stepped v w v' _ hrun hend =>
    have hdr : w.config.dr = v.config.dr := by rw [hrun.config]; rfl
    rw [hend.config]
    exact hdr

/-- A hypervisor that accepts all calls keeps doing so. -/
theorem answers_nil (h : Does f a v v') (hnil : v.answers = []) : v'.answers = [] := by
  cases h with
  | other hidle => exact hidle.answers hnil
  | request r => simp [DebugView.submit, hnil]
  | refused _ => simp [DebugView.submit, hnil]
  | @stepped v w v' _ hrun hend =>
    have hw : w.answers = [] := hrun.answers (by simp [DebugView.submit, hnil])
    exact hend.answers (by simp [DebugView.submit, hw])

end DebugAction.Does

/-- The operations of a processor and the requests. -/
inductive BreakpointOp (O : Type) where
  | host (op : O)
  | request (r : DebugRequest)

def BreakpointOp.action {O : Type} (isStep : O → Bool) : BreakpointOp O → DebugAction
  | .host op => match isStep op with
    | true => .step
    | false => .other
  | .request r => .request r

def requestStatus (ok : Bool) : VPOperationStatus := if ok then .OK else .Failed

/-- A processor whose operations are actions on its debug configuration. -/
structure DebugMachine (S O R : Type) where
  flags : DebugFlags
  perform : S → BreakpointOp O → (R ⊕ VPOperationStatus) × S
  isStep : O → Bool
  view : S → DebugView
  does : ∀ s (o : BreakpointOp O), (o.action isStep).Does flags (view s) (view (perform s o).2)
  status : ∀ s r, (perform s (.request r)).1 = .inr (requestStatus (view s).accepts)

end Virt86
