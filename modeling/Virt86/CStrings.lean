import Mathlib.Data.List.Basic
import Virt86.BitSlices

/-!
# Strings that end with NUL

A pointer into a buffer is the rest of the buffer from it on. The functions of the C library read
one byte after the other, and fail where they would run off the end.
-/

namespace Virt86

namespace CStrings

/-- Bytes without NUL. -/
structure CString where
  chars : List U8
  no_nul : 0 ∉ chars

/-- What a pointer to the string points to. -/
def CString.buffer (s : CString) : List U8 := s.chars ++ [0]

def strlen : List U8 → Option ℕ
  | [] => none
  | b :: p => if b = 0 then some 0 else (strlen p).map (· + 1)

/-- The distance of the byte from the pointer, unless the string ends before it. -/
def strchr (c : U8) : List U8 → Option (Option ℕ)
  | [] => none
  | b :: p =>
    if b = c then some (some 0)
    else if b = 0 then some none
    else (strchr c p).map (Option.map (· + 1))

/-- `strcmp(p, q) == 0`. -/
def strcmp : List U8 → List U8 → Option Bool
  | b :: p, c :: q => if b ≠ c then some false else if b = 0 then some true else strcmp p q
  | _, _ => none

/-- `strncmp(p, q, n) == 0`. -/
def strncmp : ℕ → List U8 → List U8 → Option Bool
  | 0, _, _ => some true
  | n + 1, b :: p, c :: q =>
    if b ≠ c then some false else if b = 0 then some true else strncmp n p q
  | _, _, _ => none

/-- The text that `%s` stands for. -/
def text : List U8 → Option (List U8)
  | [] => none
  | b :: p => if b = 0 then some [] else (text p).map (b :: ·)

section Terminated

variable {s : List U8} (rest : List U8)

theorem strlen_terminated (h : 0 ∉ s) : strlen (s ++ 0 :: rest) = some s.length := by
  induction s with
  | nil => rfl
  | cons b s ih =>
    rw [List.mem_cons, not_or] at h
    rw [List.cons_append, strlen, if_neg (Ne.symm h.1), ih h.2]
    rfl

theorem text_terminated (h : 0 ∉ s) : text (s ++ 0 :: rest) = some s := by
  induction s with
  | nil => rfl
  | cons b s ih =>
    rw [List.mem_cons, not_or] at h
    rw [List.cons_append, text, if_neg (Ne.symm h.1), ih h.2]
    rfl

/-- The string ends before the byte. -/
theorem strchr_terminated {c : U8} (hc : c ≠ 0) (h : 0 ∉ s) (hnone : c ∉ s) :
    strchr c (s ++ 0 :: rest) = some none := by
  induction s with
  | nil => rw [List.nil_append, strchr, if_neg hc.symm, if_pos rfl]
  | cons b s ih =>
    rw [List.mem_cons, not_or] at h hnone
    rw [List.cons_append, strchr, if_neg (Ne.symm hnone.1), if_neg (Ne.symm h.1), ih h.2 hnone.2]
    rfl

/-- The byte comes first. -/
theorem strchr_found {c : U8} (h : 0 ∉ s) (hnone : c ∉ s) :
    strchr c (s ++ c :: rest) = some (some s.length) := by
  induction s with
  | nil => rw [List.nil_append, strchr, if_pos rfl, List.length_nil]
  | cons b s ih =>
    rw [List.mem_cons, not_or] at h hnone
    rw [List.cons_append, strchr, if_neg (Ne.symm hnone.1), if_neg (Ne.symm h.1), ih h.2 hnone.2]
    rfl

/-- So many bytes of two strings that both have them. -/
theorem strncmp_eq {t : List U8} (rest' : List U8) (h : 0 ∉ s) (hlength : s.length = t.length) :
    strncmp t.length (s ++ rest) (t ++ rest') = some (decide (s = t)) := by
  induction t generalizing s with
  | nil =>
    obtain rfl := List.length_eq_zero_iff.mp hlength
    rfl
  | cons c t ih =>
    cases s with
    | nil => cases hlength
    | cons b s =>
      rw [List.mem_cons, not_or] at h
      rw [List.length_cons, List.cons_append, List.cons_append, strncmp]
      by_cases hb : b = c
      · subst hb
        rw [if_neg (not_not.mpr rfl), if_neg (Ne.symm h.1), ih h.2 (Nat.succ.inj hlength)]
        simp
      · rw [if_pos hb]
        simp [hb]

/-- Two strings that both end are compared to their ends. -/
theorem strcmp_terminated {t : List U8} (rest' : List U8) (hs : 0 ∉ s) (ht : 0 ∉ t) :
    strcmp (s ++ 0 :: rest) (t ++ 0 :: rest') = some (decide (s = t)) := by
  induction s generalizing t with
  | nil =>
    cases t with
    | nil => rfl
    | cons c t =>
      rw [List.mem_cons, not_or] at ht
      rw [List.nil_append, List.cons_append, strcmp, if_pos ht.1]
      rfl
  | cons b s ih =>
    rw [List.mem_cons, not_or] at hs
    cases t with
    | nil =>
      rw [List.nil_append, List.cons_append, strcmp, if_pos (Ne.symm hs.1)]
      rfl
    | cons c t =>
      rw [List.mem_cons, not_or] at ht
      rw [List.cons_append, List.cons_append, strcmp]
      by_cases hb : b = c
      · subst hb
        rw [if_neg (not_not.mpr rfl), if_neg (Ne.symm hs.1), ih hs.2 ht.2]
        simp
      · rw [if_pos hb]
        simp [hb]

end Terminated

/-- Comparing with a string runs off the buffer if and only if the string goes on as the rest of the
buffer does. -/
theorem strcmp_eq_none_iff (s : CString) (p : List U8) :
    strcmp p s.buffer = none ↔ p <+: s.chars := by
  obtain ⟨t, ht⟩ := s
  rw [CString.buffer]
  induction t generalizing p with
  | nil =>
    cases p with
    | nil => simp [strcmp]
    | cons b p =>
      rw [List.nil_append, strcmp]
      by_cases hb : b = 0
      · rw [if_neg (not_not.mpr hb), if_pos hb]
        simp
      · rw [if_pos hb]
        simp
  | cons c t ih =>
    rw [List.mem_cons, not_or] at ht
    cases p with
    | nil => simp [strcmp]
    | cons b p =>
      rw [List.cons_append, strcmp, List.cons_prefix_cons]
      by_cases hb : b = c
      · subst hb
        rw [if_neg (not_not.mpr rfl), if_neg (Ne.symm ht.1), ih p ht.2, and_iff_right rfl]
      · rw [if_pos hb]
        simp [hb]

/-- The string is found if and only if it is there with its NUL. -/
theorem strcmp_eq_true_iff (s : CString) (p : List U8) :
    strcmp p s.buffer = some true ↔ s.buffer <+: p := by
  obtain ⟨t, ht⟩ := s
  rw [CString.buffer]
  induction t generalizing p with
  | nil =>
    cases p with
    | nil => simp [strcmp]
    | cons b p =>
      rw [List.nil_append, strcmp, List.cons_prefix_cons]
      by_cases hb : b = 0
      · rw [if_neg (not_not.mpr hb), if_pos hb]
        simp [hb]
      · rw [if_pos hb]
        simpa using Ne.symm hb
  | cons c t ih =>
    rw [List.mem_cons, not_or] at ht
    cases p with
    | nil => simp [strcmp]
    | cons b p =>
      rw [List.cons_append, strcmp, List.cons_prefix_cons]
      by_cases hb : b = c
      · subst hb
        rw [if_neg (not_not.mpr rfl), if_neg (Ne.symm ht.1), ih p ht.2, and_iff_right rfl]
      · rw [if_pos hb]
        simp [Ne.symm hb]

end CStrings

end Virt86
