/-
What tidying does to the octets and the pieces of a path.

A text is its pieces with separators between them, so to leave pieces out is
to leave octets out (`sublist_intercalate`): the tidied path is a sublist of
the path, no longer than it and with no octet of its own. The one path that
is not covered is the empty one, which is tidied to `.`.

The pieces of the tidied path are its segments. Two boundaries have none and
still need a piece: the root, which has an empty one on either side of its
separator, and `.` itself.
-/
import Dossier.Proofs.Path.Segments

namespace Dossier

-- ================================================================== joining

namespace Text

variable {α : Type} [DecidableEq α]

omit [DecidableEq α] in
theorem intercalate_cons (separator : α) (run : List α) {runs : List (List α)}
    (h : runs ≠ []) :
    [separator].intercalate (run :: runs)
      = run ++ separator :: [separator].intercalate runs := by
  obtain ⟨run', runs, rfl⟩ := List.exists_cons_of_ne_nil h
  rw [List.intercalate_cons_cons, List.append_assoc]
  rfl

/-- The runs of a text with separators between them are the text. -/
theorem intercalate_cut (separator : α) (text : List α) :
    [separator].intercalate (cut separator text) = text := by
  induction text with
  | nil => rfl
  | cons x text ih =>
      by_cases hx : x = separator
      · subst hx
        rw [cut_separator, intercalate_cons _ _ (cut_ne_nil _ _), ih]
        rfl
      · obtain ⟨run, runs, htext, hcons⟩ := cut_of_ne hx text
        rw [htext] at ih
        rw [hcons, ← ih]
        cases runs with
        | nil => simp
        | cons run' runs =>
            rw [intercalate_cons _ _ (List.cons_ne_nil _ _),
              intercalate_cons _ _ (List.cons_ne_nil _ _)]
            rfl

omit [DecidableEq α] in
/-- To leave out runs is to leave out elements. -/
theorem sublist_intercalate (separator : α) {runs runs' : List (List α)}
    (h : runs.Sublist runs') :
    ([separator].intercalate runs).Sublist ([separator].intercalate runs') := by
  induction h with
  | slnil => exact List.Sublist.refl _
  | @cons runs runs' run h ih =>
      by_cases hne : runs' = []
      · rw [hne, List.sublist_nil] at h
        rw [h]
        exact List.nil_sublist _
      · rw [intercalate_cons _ _ hne]
        exact (ih.cons separator).trans (List.sublist_append_right _ _)
  | @cons_cons runs runs' run h ih =>
      by_cases hne : runs = []
      · rw [hne, List.intercalate_singleton]
        by_cases hne' : runs' = []
        · simp [hne']
        · rw [intercalate_cons _ _ hne']
          exact List.sublist_append_left _ _
      · have hne' : runs' ≠ [] := by
          intro heq
          rw [heq, List.sublist_nil] at h
          exact hne h
        rw [intercalate_cons _ _ hne, intercalate_cons _ _ hne']
        exact (ih.cons_cons separator).append_left run

end Text

namespace Path

-- =================================================================== octets

/-- The path is written with the pieces of its octets. -/
theorem intercalate_pieces (p : Path) : [slash].intercalate p.pieces = p.bytes :=
  Text.intercalate_cut slash p.bytes

/-- Written without the idle ones among its pieces, a path loses octets. -/
theorem intercalate_segments_sublist (p : Path) :
    ([slash].intercalate p.segments).Sublist p.bytes := by
  have h := Text.sublist_intercalate slash
    (List.filter_sublist (p := (!isIdle ·)) (l := p.pieces))
  rw [intercalate_pieces] at h
  exact h

/-- A path that starts at the root begins with its separator. -/
theorem exists_of_isAbsolute {p : Path} (h : p.isAbsolute = true) :
    ∃ rest, p = ⟨slash :: rest⟩ := by
  obtain ⟨bytes⟩ := p
  cases bytes with
  | nil => cases h
  | cons b rest =>
      have hb : b = slash := by simpa [isAbsolute] using h
      exact ⟨rest, by rw [hb]⟩

/-- A relative path that leads nowhere, and is written at all, begins with `.`. -/
theorem head?_of_segments_nil {p : Path} (hne : p.bytes ≠ [])
    (hrelative : p.isAbsolute = false) (hnil : p.segments = []) :
    p.bytes.head? = some dot := by
  obtain ⟨bytes⟩ := p
  obtain ⟨b, rest, rfl⟩ := List.exists_cons_of_ne_nil hne
  have hb : b ≠ slash := by simpa [isAbsolute] using hrelative
  obtain ⟨run, runs, -, hcut⟩ := Text.cut_of_ne hb rest
  have hidle : ∀ piece ∈ (b :: run) :: runs, isIdle piece = true := by
    intro piece hpiece
    rw [← hcut] at hpiece
    simpa using List.filter_eq_nil_iff.1 hnil piece hpiece
  have hfirst : b = dot ∧ run = [] := by
    simpa [isIdle] using hidle (b :: run) List.mem_cons_self
  rw [hfirst.1]
  rfl

theorem tidy_of_isAbsolute {p : Path} (h : p.isAbsolute = true) :
    p.tidy = ⟨slash :: [slash].intercalate p.segments⟩ := by
  unfold tidy ofSegments
  rw [h, if_pos rfl]

theorem tidy_of_relative {p : Path} (h : p.isAbsolute = false)
    (hne : p.segments ≠ []) : p.tidy = ⟨[slash].intercalate p.segments⟩ := by
  have hempty : p.segments.isEmpty = false := by simpa using hne
  unfold tidy ofSegments
  rw [h, hempty, if_neg Bool.false_ne_true, if_neg Bool.false_ne_true]

/-- Tidying leaves octets out and puts none in. -/
theorem tidy_sublist {p : Path} (hne : p.bytes ≠ []) :
    p.tidy.bytes.Sublist p.bytes := by
  cases habsolute : p.isAbsolute with
  | true =>
      obtain ⟨rest, rfl⟩ := exists_of_isAbsolute habsolute
      rw [tidy_of_isAbsolute habsolute, segments_slash_cons]
      exact (intercalate_segments_sublist ⟨rest⟩).cons_cons slash
  | false =>
      by_cases hnil : p.segments = []
      · have hhead := head?_of_segments_nil hne habsolute hnil
        rw [(tidy_eq_dot_iff p).2 ⟨habsolute, hnil⟩, List.singleton_sublist]
        exact List.mem_of_head? hhead
      · rw [tidy_of_relative habsolute hnil]
        exact intercalate_segments_sublist p

/-- A tidied path is never empty. -/
theorem tidy_ne_nil (p : Path) : p.tidy.bytes ≠ [] := by
  cases habsolute : p.isAbsolute with
  | true =>
      rw [tidy_of_isAbsolute habsolute]
      exact List.cons_ne_nil _ _
  | false =>
      by_cases hnil : p.segments = []
      · rw [(tidy_eq_dot_iff p).2 ⟨habsolute, hnil⟩]
        exact List.cons_ne_nil _ _
      · intro heq
        have hsegments := segments_tidy p
        rw [show p.tidy = ⟨[]⟩ from congrArg mk heq] at hsegments
        exact hnil hsegments.symm

-- =================================================================== pieces

theorem pieces_intercalate {names : List Name} (hne : names ≠ [])
    (h : ∀ name ∈ names, IsSegment name) :
    (⟨[slash].intercalate names⟩ : Path).pieces = names :=
  Text.cut_intercalate hne fun name hname => (h name hname).1

/-- The pieces of a tidied path: its segments, with an empty one in front at the
root, and one idle piece where there is no segment. -/
theorem pieces_tidy (p : Path) :
    p.tidy.pieces = (if p.isAbsolute then [[]] else [])
      ++ (if p.segments = [] then [if p.isAbsolute then [] else [dot]]
          else p.segments) := by
  have hsegments : ∀ name ∈ p.segments, IsSegment name :=
    fun _ h => isSegment_of_mem h
  by_cases hnil : p.segments = []
  · rw [if_pos hnil]
    cases habsolute : p.isAbsolute with
    | true =>
        rw [tidy_of_isAbsolute habsolute, hnil]
        rfl
    | false =>
        rw [(tidy_eq_dot_iff p).2 ⟨habsolute, hnil⟩]
        rfl
  · rw [if_neg hnil]
    cases habsolute : p.isAbsolute with
    | true =>
        rw [tidy_of_isAbsolute habsolute]
        show Text.cut slash (slash :: [slash].intercalate p.segments)
          = [] :: p.segments
        rw [Text.cut_separator]
        exact congrArg _ (pieces_intercalate hnil hsegments)
    | false =>
        rw [tidy_of_relative habsolute hnil]
        exact pieces_intercalate hnil hsegments

end Path

end Dossier
