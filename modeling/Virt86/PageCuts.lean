import Mathlib.Data.Nat.Notation
import Mathlib.Tactic.Common

/-!
# A range of addresses cut at page borders

The cuts of the range of `n` addresses from `a` on are its start, the borders of the pages that
begin inside it, and its end. Between two cuts that follow one another lies the part of the range
in one page.
-/

namespace Virt86.PageCuts

/-- Where the `i`-th page from `a` on begins, as an offset from `a`; the page of `a` itself is
entered at `a`. -/
def border (P a i : ℕ) : ℕ := i * P - a % P

def cut (P a n i : ℕ) : ℕ := min n (border P a i)

/-- How many pages the range has addresses in. -/
def pages (P a n : ℕ) : ℕ := if n = 0 then 0 else (a % P + n - 1) / P + 1

variable {P a n i : ℕ}

@[simp] theorem border_zero : border P a 0 = 0 := by simp [border]

@[simp] theorem cut_zero : cut P a n 0 = 0 := by simp [cut]

theorem cut_le : cut P a n i ≤ n := Nat.min_le_left _ _

theorem border_one : border P a 1 = P - a % P := by simp [border]

theorem border_succ (hP : 0 < P) (hi : 0 < i) : border P a (i + 1) = border P a i + P := by
  have hmod : a % P < P := Nat.mod_lt a hP
  have hmul : P ≤ i * P := Nat.le_mul_of_pos_left P hi
  simp only [border, Nat.succ_mul]
  omega

theorem border_lt_succ (hP : 0 < P) : border P a i < border P a (i + 1) := by
  rcases Nat.eq_zero_or_pos i with rfl | hi
  · rw [border_zero, border_one]
    exact Nat.sub_pos_of_lt (Nat.mod_lt a hP)
  · rw [border_succ hP hi]
    omega

/-- Behind the first one, borders are multiples of the page size. -/
theorem add_border_mod (hP : 0 < P) (hi : 0 < i) : (a + border P a i) % P = 0 := by
  have hmod : a % P < P := Nat.mod_lt a hP
  have hmul : P ≤ i * P := Nat.le_mul_of_pos_left P hi
  have hdiv : a % P + P * (a / P) = a := Nat.mod_add_div a P
  have hsum : a + border P a i = P * (a / P) + i * P := by
    simp only [border]
    omega
  rw [hsum, Nat.add_mul_mod_self_right, Nat.mul_mod_right]

theorem lt_pages_iff (hP : 0 < P) : i < pages P a n ↔ cut P a n i < n := by
  by_cases hn : n = 0
  · simp [pages, hn]
  · rw [pages, if_neg hn, Nat.lt_succ_iff, Nat.le_div_iff_mul_le hP]
    simp only [cut, border]
    omega

theorem cut_eq_border (hP : 0 < P) (h : i < pages P a n) : cut P a n i = border P a i := by
  rw [lt_pages_iff hP] at h
  simp only [cut] at h ⊢
  omega

theorem cut_pages (hP : 0 < P) : cut P a n (pages P a n) = n := by
  have hlt : ¬ cut P a n (pages P a n) < n := by
    rw [← lt_pages_iff hP]
    exact Nat.lt_irrefl _
  have hle : cut P a n (pages P a n) ≤ n := cut_le
  omega

theorem cut_lt_succ (hP : 0 < P) (h : i < pages P a n) : cut P a n i < cut P a n (i + 1) := by
  have hborder : border P a i < border P a (i + 1) := border_lt_succ hP
  rw [lt_pages_iff hP] at h
  simp only [cut] at h ⊢
  omega

/-- The part of the range between two cuts lies in one page. -/
theorem cut_in_page (hP : 0 < P) (h : i < pages P a n) :
    (a + cut P a n i) % P + (cut P a n (i + 1) - cut P a n i) ≤ P := by
  rcases Nat.eq_zero_or_pos i with rfl | hi
  · have hmod : a % P < P := Nat.mod_lt a hP
    simp only [cut, border_zero, border_one, Nat.min_zero, Nat.add_zero, Nat.zero_add]
    omega
  · rw [cut_eq_border hP h, add_border_mod hP hi]
    have hnext : border P a (i + 1) = border P a i + P := border_succ hP hi
    simp only [cut, hnext]
    omega

end Virt86.PageCuts
