/-
Facts about lists that several parts of the theory need.

What is taken of a list while a test holds is told by its members and by what
stands behind it (`takeWhile_eq_iff`), a list of attempts by their outcomes
(`mapM_eq_some_iff`), and the second of two related lists by what the relation
says of its members (`forall_mem_of_forall₂`).
-/
import Mathlib.Data.List.Forall2
import Mathlib.Data.List.TakeWhile

namespace Dossier

variable {α β : Type}

/-- A list is taken up to its first element that fails the test: what is taken
passes, and behind it stands nothing or an element that fails. -/
theorem takeWhile_eq_iff {p : α → Bool} {xs front : List α} :
    xs.takeWhile p = front
      ↔ ∃ behind, xs = front ++ behind ∧ (∀ x ∈ front, p x = true)
          ∧ ∀ x ∈ behind.head?, p x = false := by
  constructor
  · intro h
    subst h
    refine ⟨xs.dropWhile p, List.takeWhile_append_dropWhile.symm, ?_, ?_⟩
    · exact List.all_eq_true.1 List.all_takeWhile
    · intro x hx
      have hhead := List.head?_dropWhile_not p xs
      rw [hx] at hhead
      simpa using hhead
  · intro h
    obtain ⟨behind, rfl, hfront, hbehind⟩ := h
    rw [List.takeWhile_append_of_pos hfront]
    cases behind with
    | nil => simp
    | cons x behind => simp [hbehind x rfl]

/-- A list of attempts succeeds iff each of them does. -/
theorem mapM_eq_some_iff {f : α → Option β} {xs : List α} {ys : List β} :
    xs.mapM f = some ys ↔ xs.map f = ys.map some := by
  induction xs generalizing ys with
  | nil => cases ys <;> simp
  | cons x xs ih =>
      rw [List.mapM_cons, List.map_cons]
      cases hx : f x with
      | none => cases ys <;> simp
      | some y =>
          show ((xs.mapM f).bind fun zs => some (y :: zs)) = some ys ↔ _
          rw [Option.bind_eq_some_iff]
          constructor
          · intro h
            obtain ⟨zs, hzs, hys⟩ := h
            rw [← Option.some.inj hys, List.map_cons, ih.1 hzs]
          · intro h
            obtain ⟨y', zs, rfl, hy', hzs⟩ := List.map_eq_cons_iff.1 h.symm
            rw [Option.some.inj hy']
            exact ⟨zs, ih.2 hzs.symm, rfl⟩

/-- What a relation says of the second of its sides holds of all members of the
second list. -/
theorem forall_mem_of_forall₂ {R : α → β → Prop} {P : β → Prop} {xs : List α}
    {ys : List β} (h : List.Forall₂ R xs ys) (himp : ∀ {x y}, R x y → P y) :
    ∀ y ∈ ys, P y := by
  induction h with
  | nil => exact List.forall_mem_nil _
  | cons hxy _ ih => exact List.forall_mem_cons.2 ⟨himp hxy, ih⟩

end Dossier
