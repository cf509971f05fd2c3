/-
A lookup as a relation, and walks with idle names left out.

`Walks` says what a lookup does with each name: an empty one and `.` stay in
the directory, `..` goes to the place above, a link is followed from where
it stands, and anything else is entered. The lookup is this relation
(`walk_eq_some_iff`); the number counts the links that may still be
followed.

An idle name asks only that a directory is there, and so does every other
name. Leaving idle names out therefore takes checks away from a walk and
changes nothing else, not even the links that it follows (`Walks.thins`).
The names behind a link are put in front as they stand, so the relation of
the two lists has to be carried through them. The converse fails: `f/` is
not found where `f` is a file.
-/
import Dossier.Tree

namespace Dossier.Tree

open Dossier.Path (isIdle)

-- ================================================================ the relation

/-- The name leads to another place below the one reached. -/
structure Descends (name : Name) : Prop where
  not_idle : isIdle name = false
  ne_up : name ≠ [dot, dot]
  length_le : name.length ≤ nameLimit

/-- The names lead from `here` to `place`, with at most so many links followed. -/
inductive Walks (t : Tree) : Nat → Location → List Name → Location → Prop
  | done {links : Nat} {here : Location} : Walks t links here [] here
  | idle {links : Nat} {here place : Location} {name : Name} {rest : List Name}
      (hdirectory : t.isDirectory here = true) (hname : isIdle name = true)
      (h : Walks t links here rest place) :
      Walks t links here (name :: rest) place
  | up {links : Nat} {here place : Location} {rest : List Name}
      (hdirectory : t.isDirectory here = true)
      (h : Walks t links here.tail rest place) :
      Walks t links here ([dot, dot] :: rest) place
  | link {links : Nat} {here place : Location} {name : Name} {rest : List Name}
      {target : Bytes} (hdirectory : t.isDirectory here = true)
      (hname : Descends name) (hnode : t.node? (name :: here) = some (.link target))
      (htarget : target ≠ [])
      (h : Walks t links (start here ⟨target⟩) (Path.pieces ⟨target⟩ ++ rest)
        place) :
      Walks t (links + 1) here (name :: rest) place
  | enter {links : Nat} {here place : Location} {name : Name} {rest : List Name}
      {node : Node} (hdirectory : t.isDirectory here = true)
      (hname : Descends name) (hnode : t.node? (name :: here) = some node)
      (hlink : ∀ target, node ≠ .link target)
      (h : Walks t links (name :: here) rest place) :
      Walks t links here (name :: rest) place

-- ============================================================= steps of a walk

section Steps

variable {t : Tree} {follow : Location → List Name → Option Location}
  {links : Nat} {here : Location} {name : Name} {rest : List Name}

theorem walkTo_idle (hdirectory : t.isDirectory here = true)
    (hname : isIdle name = true) :
    t.walkTo follow here (name :: rest) = t.walkTo follow here rest := by
  simp [walkTo, hdirectory, hname]

theorem walkTo_up (hdirectory : t.isDirectory here = true) :
    t.walkTo follow here ([dot, dot] :: rest) = t.walkTo follow here.tail rest := by
  have hname : isIdle [dot, dot] = false := by decide
  simp [walkTo, hdirectory, hname]

theorem walkTo_link {target : Bytes} (hdirectory : t.isDirectory here = true)
    (hname : Descends name) (hnode : t.node? (name :: here) = some (.link target))
    (htarget : target ≠ []) :
    t.walkTo follow here (name :: rest)
      = follow (start here ⟨target⟩) (Path.pieces ⟨target⟩ ++ rest) := by
  obtain ⟨b, bytes, rfl⟩ := List.exists_cons_of_ne_nil htarget
  simp [walkTo, hdirectory, hname.not_idle, hname.ne_up,
    Nat.not_lt.2 hname.length_le, hnode]

theorem walkTo_enter {node : Node} (hdirectory : t.isDirectory here = true)
    (hname : Descends name) (hnode : t.node? (name :: here) = some node)
    (hlink : ∀ target, node ≠ .link target) :
    t.walkTo follow here (name :: rest) = t.walkTo follow (name :: here) rest := by
  cases node with
  | link target => exact absurd rfl (hlink target)
  | file data =>
      simp [walkTo, hdirectory, hname.not_idle, hname.ne_up,
        Nat.not_lt.2 hname.length_le, hnode]
  | directory =>
      simp [walkTo, hdirectory, hname.not_idle, hname.ne_up,
        Nat.not_lt.2 hname.length_le, hnode]

end Steps

/-- What the walk to the next link takes is a walk, if what follows the link is
one with a link less. -/
theorem walks_of_walkTo {t : Tree} {links : Nat}
    {follow : Location → List Name → Option Location}
    (hfollow : ∀ {here names place}, follow here names = some place →
      ∃ left, links = left + 1 ∧ Walks t left here names place)
    {here place : Location} {names : List Name}
    (h : t.walkTo follow here names = some place) : Walks t links here names place := by
  induction names generalizing here with
  | nil =>
      cases h
      exact .done
  | cons name rest ih =>
      unfold walkTo at h
      split at h
      · cases h
      next hdirectory =>
      have hdirectory : t.isDirectory here = true := by simpa using hdirectory
      split at h
      · next hidle => exact .idle hdirectory hidle (ih h)
      next hidle =>
      split at h
      · next hup =>
        rw [beq_iff_eq] at hup
        subst hup
        exact .up hdirectory (ih h)
      next hup =>
      split at h
      · cases h
      next hlength =>
      have hname : Descends name :=
        ⟨by simpa using hidle, by simpa using hup, Nat.le_of_not_lt hlength⟩
      split at h
      · cases h
      · cases h
      · next target htarget hnode =>
        obtain ⟨left, rfl, hwalks⟩ := hfollow h
        exact .link hdirectory hname hnode htarget hwalks
      · next node hempty hlink hnode =>
        exact .enter hdirectory hname hnode hlink (ih h)

/-- A lookup that may follow so many links is a walk that does. -/
theorem walk_eq_some_iff {t : Tree} {links : Nat} {here place : Location}
    {names : List Name} :
    t.walk links here names = some place ↔ Walks t links here names place := by
  constructor
  · intro h
    induction links generalizing here names place with
    | zero => exact walks_of_walkTo (fun hfollow => absurd hfollow (by simp)) h
    | succ links ih =>
        exact walks_of_walkTo (fun hfollow => ⟨links, rfl, ih hfollow⟩) h
  · intro h
    induction h with
    | @done links here => cases links <;> rfl
    | @idle links here place name rest hdirectory hname h ih =>
        cases links <;> exact (walkTo_idle hdirectory hname).trans ih
    | @up links here place rest hdirectory h ih =>
        cases links <;> exact (walkTo_up hdirectory).trans ih
    | link hdirectory hname hnode htarget h ih =>
        exact (walkTo_link hdirectory hname hnode htarget).trans ih
    | @enter links here place name rest node hdirectory hname hnode hlink h ih =>
        cases links <;>
          exact (walkTo_enter hdirectory hname hnode hlink).trans ih

-- ============================================================ idle names left out

/-- The second list has the names of the first in their order, without some of
the idle ones; where one stays it may be another idle name. -/
inductive Thins : List Name → List Name → Prop
  | nil : Thins [] []
  | keep (name : Name) {names names' : List Name} (h : Thins names names') :
      Thins (name :: names) (name :: names')
  | swap {name name' : Name} {names names' : List Name}
      (hname : isIdle name = true) (hname' : isIdle name' = true)
      (h : Thins names names') : Thins (name :: names) (name' :: names')
  | drop {name : Name} {names names' : List Name} (hname : isIdle name = true)
      (h : Thins names names') : Thins (name :: names) names'

theorem Thins.append_left (front : List Name) {names names' : List Name}
    (h : Thins names names') : Thins (front ++ names) (front ++ names') := by
  induction front with
  | nil => exact h
  | cons name front ih => exact .keep name ih

/-- All idle names may go. -/
theorem thins_filter (names : List Name) :
    Thins names (names.filter (!isIdle ·)) := by
  induction names with
  | nil => exact .nil
  | cons name names ih =>
      by_cases hname : isIdle name = true
      · rw [List.filter_cons_of_neg (by simp [hname])]
        exact .drop hname ih
      · rw [List.filter_cons_of_pos (by simpa using hname)]
        exact .keep name ih

/-- Of nothing but idle names any one may stay. -/
theorem thins_singleton {names : List Name} (hne : names ≠ [])
    (hall : ∀ name ∈ names, isIdle name = true) {name : Name}
    (hname : isIdle name = true) : Thins names [name] := by
  induction names with
  | nil => exact absurd rfl hne
  | cons first names ih =>
      rw [List.forall_mem_cons] at hall
      by_cases hnil : names = []
      · rw [hnil]
        exact .swap hall.1 hname .nil
      · exact .drop hall.1 (ih hnil hall.2)

/-- A name that is not idle stays. -/
theorem Thins.cons_cases {name : Name} {names left : List Name}
    (h : Thins (name :: names) left) (hname : isIdle name = false) :
    ∃ names', left = name :: names' ∧ Thins names names' := by
  have hnot : ¬ isIdle name = true := by
    rw [hname]
    exact Bool.false_ne_true
  cases h with
  | keep _ h => exact ⟨_, rfl, h⟩
  | swap hidle _ _ => exact absurd hidle hnot
  | drop hidle _ => exact absurd hidle hnot

/-- A walk goes on to the same place when idle names are left out. -/
theorem Walks.thins {t : Tree} {links : Nat} {here place : Location}
    {names names' : List Name} (h : Walks t links here names place)
    (hthins : Thins names names') : Walks t links here names' place := by
  induction h generalizing names' with
  | done =>
      cases hthins
      exact .done
  | idle hdirectory hname h ih =>
      cases hthins with
      | keep _ hthins => exact .idle hdirectory hname (ih hthins)
      | swap _ hname' hthins => exact .idle hdirectory hname' (ih hthins)
      | drop _ hthins => exact ih hthins
  | up hdirectory h ih =>
      obtain ⟨rest', rfl, hrest⟩ := hthins.cons_cases (by decide)
      exact .up hdirectory (ih hrest)
  | link hdirectory hname hnode htarget h ih =>
      obtain ⟨rest', rfl, hrest⟩ := hthins.cons_cases hname.not_idle
      exact .link hdirectory hname hnode htarget (ih (hrest.append_left _))
  | enter hdirectory hname hnode hlink h ih =>
      obtain ⟨rest', rfl, hrest⟩ := hthins.cons_cases hname.not_idle
      exact .enter hdirectory hname hnode hlink (ih hrest)

end Dossier.Tree
