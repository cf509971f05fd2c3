/-
Segments under the operations on spellings: putting texts together at a
separator, joining, and writing the shortest spelling.

A separator is all that a text is cut at, so cutting a text with a separator
in its middle cuts both sides on their own (`cut_append_separator`), and
what is idle on either side is dropped there. From this one equation follow
the segments of a concatenation, of a join and of a run of separators.

`ofSegments` is the other direction: names that are segments come back from
the path that is written of them (`segments_ofSegments`), which is absolute
iff it was asked to be. `tidy` therefore changes the spelling and neither
the start nor the segments.
-/
import Dossier.Path

namespace Dossier

-- ================================================================= cutting

namespace Text

variable {α : Type} [DecidableEq α]

/-- A text is cut at a separator in its middle like its two sides. -/
theorem cut_append_separator (separator : α) (left right : List α) :
    cut separator (left ++ separator :: right)
      = cut separator left ++ cut separator right := by
  induction left with
  | nil => exact cut_separator separator right
  | cons x left ih =>
      rw [List.cons_append]
      by_cases hx : x = separator
      · subst hx
        rw [cut_separator, cut_separator, ih]
        rfl
      · obtain ⟨run, runs, hleft, hcons⟩ := cut_of_ne hx left
        obtain ⟨run', runs', hboth, hcons'⟩ :=
          cut_of_ne hx (left ++ separator :: right)
        rw [ih, hleft] at hboth
        obtain ⟨rfl, rfl⟩ := List.cons.inj hboth
        rw [hcons', hcons]
        rfl

/-- A text without a separator is one run. -/
theorem cut_of_notMem {separator : α} {text : List α} (h : separator ∉ text) :
    cut separator text = [text] := by
  induction text with
  | nil => rfl
  | cons x text ih =>
      rw [List.mem_cons, not_or] at h
      obtain ⟨run, runs, htext, hcons⟩ := cut_of_ne (Ne.symm h.1) text
      rw [ih h.2] at htext
      obtain ⟨rfl, rfl⟩ := List.cons.inj htext
      exact hcons

/-- No run holds the separator. -/
theorem notMem_of_mem_cut {separator : α} {text run : List α}
    (h : run ∈ cut separator text) : separator ∉ run := by
  induction text generalizing run with
  | nil =>
      rw [List.mem_singleton.1 h]
      exact List.not_mem_nil
  | cons x text ih =>
      by_cases hx : x = separator
      · subst hx
        rw [cut_separator] at h
        rcases List.mem_cons.1 h with rfl | h
        · exact List.not_mem_nil
        · exact ih h
      · obtain ⟨run', runs, htext, hcons⟩ := cut_of_ne hx text
        rw [hcons] at h
        rcases List.mem_cons.1 h with rfl | h
        · rw [List.mem_cons, not_or]
          exact ⟨Ne.symm hx, ih (htext ▸ List.mem_cons_self)⟩
        · exact ih (htext ▸ List.mem_cons_of_mem _ h)

/-- Runs without the separator come back from their join. -/
theorem cut_intercalate {separator : α} {runs : List (List α)}
    (hne : runs ≠ []) (hruns : ∀ run ∈ runs, separator ∉ run) :
    cut separator ([separator].intercalate runs) = runs := by
  induction runs with
  | nil => exact absurd rfl hne
  | cons run runs ih =>
      have hrun : separator ∉ run := hruns run List.mem_cons_self
      cases runs with
      | nil =>
          rw [List.intercalate_singleton]
          exact cut_of_notMem hrun
      | cons run' runs =>
          rw [List.intercalate_cons_cons, List.append_assoc,
            List.singleton_append, cut_append_separator, cut_of_notMem hrun,
            ih (List.cons_ne_nil _ _)
              fun r hr => hruns r (List.mem_cons_of_mem _ hr)]
          rfl

end Text

namespace Path

-- =========================================================== concatenation

/-- Two texts with a separator between them have the segments of both. -/
theorem segments_append_slash (left right : Bytes) :
    (⟨left ++ slash :: right⟩ : Path).segments
      = (⟨left⟩ : Path).segments ++ (⟨right⟩ : Path).segments := by
  unfold segments pieces
  rw [Text.cut_append_separator, List.filter_append]

/-- A separator in front adds no segment. -/
theorem segments_slash_cons (bytes : Bytes) :
    (⟨slash :: bytes⟩ : Path).segments = (⟨bytes⟩ : Path).segments :=
  segments_append_slash [] bytes

/-- A name that walks somewhere: no separator in it, not empty and not `.`. -/
def IsSegment (name : Name) : Prop := slash ∉ name ∧ isIdle name = false

theorem isSegment_of_mem {p : Path} {name : Name} (h : name ∈ p.segments) :
    IsSegment name := by
  obtain ⟨hpiece, hidle⟩ := List.mem_filter.1 h
  exact ⟨Text.notMem_of_mem_cut hpiece, by simpa using hidle⟩

theorem IsSegment.ne_nil {name : Name} (h : IsSegment name) : name ≠ [] := by
  intro heq
  subst heq
  exact absurd h.2 (by decide)

/-- A join of segments starts with no separator. -/
theorem head?_intercalate_ne {names : List Name}
    (h : ∀ name ∈ names, IsSegment name) :
    ([slash].intercalate names).head? ≠ some slash := by
  cases names with
  | nil => simp
  | cons name names =>
      have hname := h name List.mem_cons_self
      obtain ⟨b, bytes, rfl⟩ := List.exists_cons_of_ne_nil hname.ne_nil
      have hb : b ≠ slash := by
        intro heq
        subst heq
        exact hname.1 List.mem_cons_self
      cases names with
      | nil => simpa using hb
      | cons name' names => simpa using hb

/-- The segments of a join of segments. -/
theorem segments_intercalate {names : List Name}
    (h : ∀ name ∈ names, IsSegment name) :
    (⟨[slash].intercalate names⟩ : Path).segments = names := by
  by_cases hne : names = []
  · subst hne
    rfl
  · unfold segments pieces
    rw [Text.cut_intercalate hne fun name hname => (h name hname).1]
    rw [List.filter_eq_self]
    intro name hname
    rw [(h name hname).2]
    rfl

/-- The path that is written of segments has these segments. -/
theorem segments_ofSegments (absolute : Bool) {names : List Name}
    (h : ∀ name ∈ names, IsSegment name) :
    (ofSegments absolute names).segments = names := by
  unfold ofSegments
  split
  · rw [segments_slash_cons, segments_intercalate h]
  · split
    · next hempty =>
      rw [List.isEmpty_iff.1 hempty]
      rfl
    · exact segments_intercalate h

/-- The path that is written of segments starts as it was asked to. -/
theorem isAbsolute_ofSegments (absolute : Bool) {names : List Name}
    (h : ∀ name ∈ names, IsSegment name) :
    (ofSegments absolute names).isAbsolute = absolute := by
  unfold ofSegments
  cases absolute with
  | true => rfl
  | false =>
      rw [if_neg Bool.false_ne_true]
      split
      · rfl
      · exact beq_false_of_ne (head?_intercalate_ne h)

/-- The shortest spelling is `.` for a relative path without a segment alone. -/
theorem ofSegments_eq_dot_iff {absolute : Bool} {names : List Name}
    (h : ∀ name ∈ names, IsSegment name) :
    ofSegments absolute names = ⟨[dot]⟩ ↔ absolute = false ∧ names = [] := by
  constructor
  · intro heq
    constructor
    · rw [← isAbsolute_ofSegments absolute h, heq]
      rfl
    · rw [← segments_ofSegments absolute h, heq]
      rfl
  · intro hall
    obtain ⟨rfl, rfl⟩ := hall
    rfl

/-- Tidying keeps the segments. -/
theorem segments_tidy (p : Path) : p.tidy.segments = p.segments :=
  segments_ofSegments _ fun _ h => isSegment_of_mem h

/-- Tidying keeps the start. -/
theorem isAbsolute_tidy (p : Path) : p.tidy.isAbsolute = p.isAbsolute :=
  isAbsolute_ofSegments _ fun _ h => isSegment_of_mem h

/-- A path is tidied to `.` iff it is relative and leads nowhere. -/
theorem tidy_eq_dot_iff (p : Path) :
    p.tidy = ⟨[dot]⟩ ↔ p.isAbsolute = false ∧ p.segments = [] :=
  ofSegments_eq_dot_iff fun _ h => isSegment_of_mem h

/-- A path that is tidied stays so. -/
theorem tidy_tidy (p : Path) : p.tidy.tidy = p.tidy := by
  show ofSegments p.tidy.isAbsolute p.tidy.segments = p.tidy
  rw [isAbsolute_tidy, segments_tidy]
  rfl

end Path

end Dossier
