/-
Sets of character codes as ascending ranges.

A set is given by the ranges of its codes, ends included, each behind the
one before it. To find a code only the ranges that begin at or below it are
looked at; `within_iff` says that in an ascending list none is missed by it.
-/
namespace Dossier.Text

/-- The code lies in one of the ranges, which are looked at as long as they
begin at or below it. -/
def within : List (Nat × Nat) → Nat → Bool
  | [], _ => false
  | (low, high) :: ranges, n => low ≤ n && (n ≤ high || within ranges n)

/-- Each range begins behind the one before it, the first not below the bound,
and ends not before it begins. -/
def ascending (bound : Nat) : List (Nat × Nat) → Bool
  | [] => true
  | (low, high) :: ranges => bound ≤ low && low ≤ high && ascending (high + 1) ranges

/-- No range of an ascending list begins below the bound. -/
theorem le_of_ascending {bound : Nat} {ranges : List (Nat × Nat)}
    (h : ascending bound ranges = true) {r : Nat × Nat} (hr : r ∈ ranges) : bound ≤ r.1 := by
  induction ranges generalizing bound with
  | nil => cases hr
  | cons range ranges ih =>
      obtain ⟨low, high⟩ := range
      simp only [ascending, Bool.and_eq_true, decide_eq_true_eq] at h
      rcases List.mem_cons.1 hr with rfl | hr
      · exact h.1.1
      · have := ih h.2 hr
        omega

/-- No range is missed by looking no further than those that begin at or below
the code. -/
theorem within_iff {bound : Nat} {ranges : List (Nat × Nat)}
    (h : ascending bound ranges = true) (n : Nat) :
    within ranges n = true ↔ ∃ r ∈ ranges, r.1 ≤ n ∧ n ≤ r.2 := by
  induction ranges generalizing bound with
  | nil => simp [within]
  | cons range ranges ih =>
      obtain ⟨low, high⟩ := range
      simp only [ascending, Bool.and_eq_true, decide_eq_true_eq] at h
      simp only [within, Bool.and_eq_true, Bool.or_eq_true, decide_eq_true_eq, ih h.2,
        List.mem_cons, exists_eq_or_imp]
      constructor
      · rintro ⟨hlow, hhigh | hlater⟩
        · exact Or.inl ⟨hlow, hhigh⟩
        · exact Or.inr hlater
      · rintro (⟨hlow, hhigh⟩ | ⟨r, hr, hr₁, hr₂⟩)
        · exact ⟨hlow, Or.inl hhigh⟩
        · have := le_of_ascending h.2 hr
          exact ⟨by omega, Or.inr ⟨r, hr, hr₁, hr₂⟩⟩

end Dossier.Text
