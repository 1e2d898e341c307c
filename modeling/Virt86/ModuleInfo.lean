import Virt86.CStrings

/-!
# Parameters of kernel modules

The `.modinfo` section of a kernel module is a sequence of strings `name=value`, each with its NUL
and perhaps more NULs between them. `getModInfoParam` goes from string to string.
-/

namespace Virt86

open CStrings

/-- `'='`. -/
def equalsSign : U8 := 0x3D

/-- The condition in the loop of `getModInfoParam`: the distance of `eq` from `p` when it holds. -/
def matchParam (param : CString) (p : List U8) : Option (Option ℕ) :=
  (strchr equalsSign p).bind fun
    | none => some none
    | some eq =>
      if eq = param.chars.length then
        (strncmp param.chars.length p param.buffer).map fun same => if same then some eq else none
      else some none

/-- `getModInfoParam` from a pointer into the section on. `none` is a read past the end of the
section, and `some none` the null pointer. -/
def getModInfoParam (param : CString) (p : List U8) : Option (Option (List U8)) :=
  if p = [] then some none
  else
    (matchParam param p).bind fun
      | some eq => (text (p.drop (eq + 1))).map some
      | none => (strlen p).bind fun length => getModInfoParam param (p.drop (length + 1))
termination_by p.length
decreasing_by
  have hpos : 0 < p.length := List.length_pos_iff.mpr ‹p ≠ []›
  rw [List.length_drop]
  omega

/-! ## Encoded parameters -/

/-- A section with these strings, each with so many NULs in front of it, and NULs at the end. -/
def modinfoSection (strings : List (ℕ × CString)) (trailing : ℕ) : List U8 :=
  (strings.flatMap fun s => List.replicate s.1 0 ++ s.2.buffer) ++ List.replicate trailing 0

/-- What a string says of a parameter: the text after its first `'='`, when the part before it is
the parameter. -/
def paramValue (param string : CString) : Option (List U8) :=
  if equalsSign ∈ string.chars ∧ string.chars.takeWhile (· ≠ equalsSign) = param.chars then
    some (string.chars.dropWhile (· ≠ equalsSign)).tail
  else none

section Strings

variable {param string : CString}

theorem paramValue_of_notMem (h : equalsSign ∉ string.chars) : paramValue param string = none := by
  rw [paramValue, if_neg fun hmem => h hmem.1]

theorem paramValue_of_split {key value : List U8}
    (hsplit : string.chars = key ++ equalsSign :: value) (hkey : equalsSign ∉ key) :
    paramValue param string = if key = param.chars then some value else none := by
  have hall : ∀ b ∈ key, decide (b ≠ equalsSign) = true := fun b hb =>
    decide_eq_true fun heq => hkey (heq ▸ hb)
  have hmem : equalsSign ∈ string.chars := by simp [hsplit]
  rw [paramValue, hsplit, List.takeWhile_append_of_pos hall, List.dropWhile_append_of_pos hall,
    ← hsplit, List.takeWhile_cons_of_neg (by simp), List.dropWhile_cons_of_neg (by simp),
    List.append_nil, List.tail_cons]
  exact if_congr (and_iff_right hmem) rfl rfl

/-- The loop looks at a string for `'='` and compares what is in front of it. -/
theorem matchParam_buffer (rest : List U8) : matchParam param (string.buffer ++ rest) =
    some ((paramValue param string).map fun _ => param.chars.length) := by
  have hnul : (0 : U8) ∉ string.chars := string.no_nul
  rw [CString.buffer, List.append_assoc, List.singleton_append]
  by_cases hmem : equalsSign ∈ string.chars
  · obtain ⟨key, value, hsplit, hkey⟩ := List.eq_append_cons_of_mem hmem
    rw [paramValue_of_split hsplit hkey, matchParam]
    rw [hsplit] at hnul ⊢
    have hnul' : (0 : U8) ∉ key := fun h => hnul (List.mem_append_left _ h)
    rw [List.append_assoc, List.cons_append, strchr_found _ hnul' hkey]
    by_cases hlength : key.length = param.chars.length
    · have hcompare := strncmp_eq (equalsSign :: (value ++ 0 :: rest)) [0] hnul' hlength
      simp only [Option.bind_some, if_pos hlength, CString.buffer, hcompare, Option.map_some]
      by_cases hparam : key = param.chars
      · simp [hparam]
      · simp [hparam]
    · have hparam : key ≠ param.chars := fun h => hlength (congrArg List.length h)
      simp [hlength, hparam]
  · rw [paramValue_of_notMem hmem, matchParam, strchr_terminated _ (by decide) hnul hmem]
    rfl

/-- At a string that says nothing of the parameter the loop goes on to the next one. -/
theorem getModInfoParam_of_none (h : paramValue param string = none) (rest : List U8) :
    getModInfoParam param (string.buffer ++ rest) = getModInfoParam param rest := by
  have hne : string.buffer ++ rest ≠ [] := by simp [CString.buffer]
  have hlen : strlen (string.buffer ++ rest) = some string.chars.length := by
    rw [CString.buffer, List.append_assoc]
    exact strlen_terminated rest string.no_nul
  have hdrop : (string.buffer ++ rest).drop (string.chars.length + 1) = rest := by
    rw [CString.buffer]
    exact List.drop_left' (by simp)
  rw [getModInfoParam, if_neg hne, matchParam_buffer, h, Option.map_none, Option.bind_some, hlen,
    Option.bind_some, hdrop]

/-- The value is what is copied. -/
theorem getModInfoParam_of_some {value : List U8} (h : paramValue param string = some value)
    (rest : List U8) : getModInfoParam param (string.buffer ++ rest) = some (some value) := by
  have hne : string.buffer ++ rest ≠ [] := by simp [CString.buffer]
  have hmem : equalsSign ∈ string.chars := by
    by_contra hnone
    rw [paramValue_of_notMem hnone] at h
    cases h
  obtain ⟨key, value', hsplit, hkey⟩ := List.eq_append_cons_of_mem hmem
  have hvalue := h
  rw [paramValue_of_split hsplit hkey, Option.ite_none_right_eq_some, Option.some.injEq] at hvalue
  obtain ⟨hparam, rfl⟩ := hvalue
  have hbuffer : string.buffer ++ rest = (key ++ [equalsSign]) ++ (value' ++ 0 :: rest) := by
    simp [CString.buffer, hsplit]
  have hdrop : (string.buffer ++ rest).drop (param.chars.length + 1) = value' ++ 0 :: rest := by
    rw [hbuffer]
    exact List.drop_left' (by simp [hparam])
  have hnul : (0 : U8) ∉ value' := by
    intro hzero
    apply string.no_nul
    rw [hsplit]
    exact List.mem_append_right _ (List.mem_cons_of_mem _ hzero)
  rw [getModInfoParam, if_neg hne, matchParam_buffer, h, Option.map_some, Option.bind_some]
  change (text ((string.buffer ++ rest).drop (param.chars.length + 1))).map some = _
  rw [hdrop, text_terminated rest hnul, Option.map_some]

/-- A NUL between strings is an empty one. -/
theorem getModInfoParam_padding (count : ℕ) (rest : List U8) :
    getModInfoParam param (List.replicate count 0 ++ rest) = getModInfoParam param rest := by
  induction count with
  | zero => rfl
  | succ count ih =>
    have hnone : paramValue param ⟨[], List.not_mem_nil⟩ = none :=
      paramValue_of_notMem List.not_mem_nil
    rw [List.replicate_succ, List.cons_append]
    exact (getModInfoParam_of_none hnone _).trans ih

end Strings

/-- In a section that holds strings, `getModInfoParam` ends, reads nothing past the end and returns
what the first string says that says anything. -/
theorem getModInfoParam_modinfoSection (param : CString) (strings : List (ℕ × CString))
    (trailing : ℕ) :
    getModInfoParam param (modinfoSection strings trailing) =
      some (strings.findSome? fun s => paramValue param s.2) := by
  induction strings with
  | nil =>
    have hend : getModInfoParam param [] = some none := by rw [getModInfoParam, if_pos rfl]
    have hpadding : getModInfoParam param (List.replicate trailing 0 ++ []) =
        getModInfoParam param [] := getModInfoParam_padding trailing []
    rw [List.append_nil, hend] at hpadding
    exact hpadding
  | cons s strings ih =>
    have hsection : modinfoSection (s :: strings) trailing = List.replicate s.1 0 ++
        (s.2.buffer ++ modinfoSection strings trailing) := by
      simp [modinfoSection]
    rw [hsection, getModInfoParam_padding, List.findSome?_cons]
    cases hvalue : paramValue param s.2 with
    | some value => exact getModInfoParam_of_some hvalue _
    | none => rw [getModInfoParam_of_none hvalue, ih]

end Virt86
