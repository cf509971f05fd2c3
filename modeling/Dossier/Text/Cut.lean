/-
Cutting a text at a separator.

The runs between the separators are kept as they are, the empty ones
included, so there is one run more than there are separators and joining
the runs with separators gives the text back.
-/
namespace Dossier.Text

variable {α : Type} [DecidableEq α]

/-- The runs between the separators. -/
def cut (separator : α) (text : List α) : List (List α) :=
  text.foldr
    (fun x runs =>
      if x = separator then [] :: runs
      else match runs with
        | [] => [[x]]
        | run :: runs => (x :: run) :: runs)
    [[]]

/-- There is always a run. -/
theorem cut_ne_nil (separator : α) (text : List α) : cut separator text ≠ [] := by
  cases text with
  | nil => simp [cut]
  | cons x text =>
      simp only [cut, List.foldr_cons]
      split
      · simp
      · split <;> simp

/-- A separator ends an empty run in front of the others. -/
theorem cut_separator (separator : α) (text : List α) :
    cut separator (separator :: text) = [] :: cut separator text := by
  simp [cut]

/-- Any other element belongs to the first run. -/
theorem cut_of_ne {separator x : α} (h : x ≠ separator) (text : List α) :
    ∃ run runs, cut separator text = run :: runs
      ∧ cut separator (x :: text) = (x :: run) :: runs := by
  cases hcut : cut separator text with
  | nil => exact absurd hcut (cut_ne_nil separator text)
  | cons run runs =>
      refine ⟨run, runs, rfl, ?_⟩
      simp only [cut] at hcut
      simp [cut, h, hcut]

end Dossier.Text
