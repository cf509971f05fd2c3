/-
The spellings of a path, and the one that is kept of them.

Paths are spellings of one another (`Respells`) if they start alike and have
the same segments; tidying takes such paths together and no others. Which
paths it leaves alone can be said of the octets without tidying anything
(`IsNeat`): there is something, no piece is `.`, and no separator stands at
the end or next to another one, but for the paths `.` and `/` themselves.

Both directions go through the empty runs of a cut text. Such a run comes from
a separator at an end, from two in a row, or from a text without an octet
(`Text.nil_mem_cut_iff`). So names that are joined have neither, and a path
that has neither is the join of its segments.

A text is tidied to a text, and texts are told apart by what is shown of them.
That carries all of this over to the keys of a report.
-/
import Mathlib.Tactic.Tauto
import Dossier.Collector
import Dossier.Proofs.Home.Expansion
import Dossier.Proofs.Path.Tidy
import Dossier.Proofs.Text.Utf8

namespace Dossier

-- ============================================================== empty runs

namespace Text

variable {α : Type} [DecidableEq α] {separator : α}

/-- The first run is empty iff nothing stands in front of the first separator. -/
theorem head?_cut_eq_nil_iff {text : List α} :
    (cut separator text).head? = some []
      ↔ text = [] ∨ text.head? = some separator := by
  cases text with
  | nil => exact iff_of_true rfl (Or.inl rfl)
  | cons x text =>
      by_cases hx : x = separator
      · subst hx
        rw [cut_separator]
        exact iff_of_true rfl (Or.inr rfl)
      · obtain ⟨run, runs, -, hcons⟩ := cut_of_ne hx text
        rw [hcons]
        simp [hx]

omit [DecidableEq α] in
theorem getLast?_cons_eq_iff {x y : α} {text : List α} :
    (x :: text).getLast? = some y ↔ text = [] ∧ x = y ∨ text.getLast? = some y := by
  cases text with
  | nil => simp
  | cons z text => simp

omit [DecidableEq α] in
theorem infix_cons_of_double_iff {x : α} {text : List α} :
    [separator, separator] <:+: x :: text
      ↔ x = separator ∧ text.head? = some separator
        ∨ [separator, separator] <:+: text := by
  rw [List.infix_cons_iff, List.cons_prefix_cons]
  refine or_congr_left (and_congr eq_comm ?_)
  cases text with
  | nil => simp
  | cons y text => simp [eq_comm]

/-- A later run is empty iff the text ends with a separator, or two of them stand
in a row. -/
theorem nil_mem_tail_cut_iff {text : List α} :
    [] ∈ (cut separator text).tail
      ↔ text.getLast? = some separator ∨ [separator, separator] <:+: text := by
  induction text with
  | nil => simp [cut]
  | cons x text ih =>
      obtain ⟨run, runs, hcut⟩ := List.exists_cons_of_ne_nil (cut_ne_nil separator text)
      have hhead := @head?_cut_eq_nil_iff _ _ separator text
      rw [hcut, List.tail_cons] at ih
      rw [hcut, List.head?_cons, Option.some.injEq] at hhead
      rw [getLast?_cons_eq_iff, infix_cons_of_double_iff]
      by_cases hx : x = separator
      · rw [hx, cut_separator, hcut, List.tail_cons, List.mem_cons, eq_comm, hhead, ih]
        tauto
      · obtain ⟨run', runs', htext, hcons⟩ := cut_of_ne hx text
        rw [htext] at hcut
        obtain ⟨rfl, rfl⟩ := List.cons.inj hcut
        rw [hcons, List.tail_cons, ih]
        simp [hx]

/-- Some run is empty iff a separator stands at an end or next to another one, or
there is nothing at all. -/
theorem nil_mem_cut_iff {text : List α} :
    [] ∈ cut separator text
      ↔ text = [] ∨ text.head? = some separator ∨ text.getLast? = some separator
        ∨ [separator, separator] <:+: text := by
  obtain ⟨run, runs, hcut⟩ := List.exists_cons_of_ne_nil (cut_ne_nil separator text)
  have hhead := @head?_cut_eq_nil_iff _ _ separator text
  have htail := @nil_mem_tail_cut_iff _ _ separator text
  rw [hcut, List.head?_cons, Option.some.injEq] at hhead
  rw [hcut, List.tail_cons] at htail
  rw [hcut, List.mem_cons, eq_comm, hhead, htail, or_assoc]

end Text

namespace Path

-- ============================================================ same spelling

/-- The paths are spellings of one another: both start at the root or neither
does, and apart from empty pieces and `.` they have the same pieces. -/
def Respells (p q : Path) : Prop :=
  p.isAbsolute = q.isAbsolute ∧ p.segments = q.segments

instance (p q : Path) : Decidable (p.Respells q) :=
  inferInstanceAs (Decidable (_ ∧ _))

theorem Respells.symm {p q : Path} (h : p.Respells q) : q.Respells p :=
  ⟨h.1.symm, h.2.symm⟩

theorem respells_tidy (p : Path) : p.tidy.Respells p :=
  ⟨isAbsolute_tidy p, segments_tidy p⟩

/-- Start and segments decide the tidied path, and can be read off it. -/
theorem tidy_eq_tidy_iff {p q : Path} : p.tidy = q.tidy ↔ p.Respells q := by
  constructor
  · intro h
    constructor
    · rw [← isAbsolute_tidy p, h, isAbsolute_tidy]
    · rw [← segments_tidy p, h, segments_tidy]
  · intro h
    rw [tidy, tidy, h.1, h.2]

-- ======================================================== the neat spelling

/-- Nothing in the path can be left out. -/
structure IsNeat (p : Path) : Prop where
  ne_nil : p.bytes ≠ []
  eq_dot : [dot] ∈ p.pieces → p = ⟨[dot]⟩
  eq_slash : p.bytes.getLast? = some slash → p = ⟨[slash]⟩
  not_double : ¬ [slash, slash] <:+: p.bytes

theorem isNeat_slash : IsNeat ⟨[slash]⟩ :=
  ⟨by decide, fun h => absurd h (by decide), fun _ => rfl, by decide⟩

theorem isNeat_dot : IsNeat ⟨[dot]⟩ :=
  ⟨by decide, fun _ => rfl, fun h => absurd h (by decide), by decide⟩

section Names

variable {names : List Name} (hne : names ≠ [])
  (h : ∀ name ∈ names, IsSegment name)

include hne h

/-- Names that are joined have a separator between two of them and nowhere else. -/
theorem separators_intercalate :
    [slash].intercalate names ≠ []
      ∧ ([slash].intercalate names).head? ≠ some slash
      ∧ ([slash].intercalate names).getLast? ≠ some slash
      ∧ ¬ [slash, slash] <:+: [slash].intercalate names := by
  have hcut : Text.cut slash ([slash].intercalate names) = names :=
    pieces_intercalate hne h
  have hnil : [] ∉ Text.cut slash ([slash].intercalate names) := by
    rw [hcut]
    intro hmem
    exact (h [] hmem).ne_nil rfl
  rw [Text.nil_mem_cut_iff] at hnil
  simpa only [not_or] using hnil

omit hne in
theorem dot_notMem : [dot] ∉ names := by
  intro hmem
  exact absurd (h _ hmem).2 (by decide)

theorem isNeat_intercalate : IsNeat ⟨[slash].intercalate names⟩ := by
  obtain ⟨hbytes, -, hlast, hdouble⟩ := separators_intercalate hne h
  refine ⟨hbytes, ?_, fun hslash => absurd hslash hlast, hdouble⟩
  rw [pieces_intercalate hne h]
  intro hdot
  exact absurd hdot (dot_notMem h)

theorem isNeat_slash_intercalate :
    IsNeat ⟨slash :: [slash].intercalate names⟩ := by
  obtain ⟨hbytes, hhead, hlast, hdouble⟩ := separators_intercalate hne h
  refine ⟨List.cons_ne_nil _ _, ?_, ?_, ?_⟩
  · have hpieces : (⟨slash :: [slash].intercalate names⟩ : Path).pieces = [] :: names := by
      unfold pieces
      rw [Text.cut_separator]
      exact congrArg _ (pieces_intercalate hne h)
    rw [hpieces, List.mem_cons]
    intro hdot
    rcases hdot with hdot | hdot
    · exact absurd hdot (by decide)
    · exact absurd hdot (dot_notMem h)
  · rw [Text.getLast?_cons_eq_iff]
    intro hslash
    rcases hslash with hslash | hslash
    · exact absurd hslash.1 hbytes
    · exact absurd hslash hlast
  · rw [Text.infix_cons_of_double_iff, not_or]
    exact ⟨fun hslash => hhead hslash.2, hdouble⟩

end Names

/-- A tidied path is neat. -/
theorem isNeat_tidy (p : Path) : p.tidy.IsNeat := by
  have hsegments : ∀ name ∈ p.segments, IsSegment name :=
    fun _ h => isSegment_of_mem h
  cases habsolute : p.isAbsolute with
  | true =>
      rw [tidy_of_isAbsolute habsolute]
      by_cases hnil : p.segments = []
      · rw [hnil]
        exact isNeat_slash
      · exact isNeat_slash_intercalate hnil hsegments
  | false =>
      by_cases hnil : p.segments = []
      · rw [(tidy_eq_dot_iff p).2 ⟨habsolute, hnil⟩]
        exact isNeat_dot
      · rw [tidy_of_relative habsolute hnil]
        exact isNeat_intercalate hnil hsegments

/-- Without an idle piece the segments are all pieces. -/
theorem segments_eq_pieces {p : Path} (hempty : [] ∉ p.pieces)
    (hdot : [dot] ∉ p.pieces) : p.segments = p.pieces := by
  unfold segments
  rw [List.filter_eq_self]
  intro name hname
  have hne : name ≠ [] := fun heq => hempty (heq ▸ hname)
  have hne' : name ≠ [dot] := fun heq => hdot (heq ▸ hname)
  simp [isIdle, hne, hne']

/-- No piece is empty where no separator stands at an end or next to another. -/
theorem nil_notMem_pieces {p : Path} (hne : p.bytes ≠ [])
    (hhead : p.bytes.head? ≠ some slash) (hlast : p.bytes.getLast? ≠ some slash)
    (hdouble : ¬ [slash, slash] <:+: p.bytes) : [] ∉ p.pieces := by
  unfold pieces
  rw [Text.nil_mem_cut_iff]
  simp only [not_or]
  exact ⟨hne, hhead, hlast, hdouble⟩

/-- A neat path is tidied to itself. -/
theorem IsNeat.tidy_eq {p : Path} (h : p.IsNeat) : p.tidy = p := by
  by_cases hslash : p = ⟨[slash]⟩
  · rw [hslash]
    rfl
  by_cases hdot : p = ⟨[dot]⟩
  · rw [hdot]
    rfl
  have hpiece : [dot] ∉ p.pieces := fun hmem => hdot (h.eq_dot hmem)
  have hlast : p.bytes.getLast? ≠ some slash := fun hend => hslash (h.eq_slash hend)
  cases habsolute : p.isAbsolute with
  | true =>
      obtain ⟨rest, rfl⟩ := exists_of_isAbsolute habsolute
      have hdouble : ¬ [slash, slash] <:+: slash :: rest := h.not_double
      have hlast : (slash :: rest).getLast? ≠ some slash := hlast
      have hpieces : (⟨slash :: rest⟩ : Path).pieces = [] :: (⟨rest⟩ : Path).pieces :=
        Text.cut_separator slash rest
      -- behind the root stands a name, and no separator but between names
      have hempty : [] ∉ (⟨rest⟩ : Path).pieces := by
        rw [ne_eq, Text.getLast?_cons_eq_iff, not_or] at hlast
        rw [Text.infix_cons_of_double_iff, not_or] at hdouble
        have hrest : rest ≠ [] := fun hnil => hlast.1 ⟨hnil, rfl⟩
        have hhead : rest.head? ≠ some slash := fun hh => hdouble.1 ⟨rfl, hh⟩
        exact nil_notMem_pieces hrest hhead hlast.2 hdouble.2
      have hpiece' : [dot] ∉ (⟨rest⟩ : Path).pieces := by
        rw [hpieces, List.mem_cons, not_or] at hpiece
        exact hpiece.2
      rw [tidy_of_isAbsolute habsolute, segments_slash_cons,
        segments_eq_pieces hempty hpiece', intercalate_pieces]
  | false =>
      have hhead : p.bytes.head? ≠ some slash := by simpa [isAbsolute] using habsolute
      have hempty := nil_notMem_pieces h.ne_nil hhead hlast h.not_double
      have hsegments := segments_eq_pieces hempty hpiece
      have hne : p.segments ≠ [] := by
        rw [hsegments]
        exact Text.cut_ne_nil _ _
      rw [tidy_of_relative habsolute hne, hsegments, intercalate_pieces]

/-- What tidying leaves alone are the neat paths. -/
theorem isNeat_iff {p : Path} : p.IsNeat ↔ p.tidy = p := by
  constructor
  · exact IsNeat.tidy_eq
  · intro h
    rw [← h]
    exact isNeat_tidy p

-- ========================================================= the least spelling

/-- No spelling but the empty one is shorter than the tidied path, and none but
the tidied path itself is as short. -/
theorem tidy_least {p q : Path} (h : q.Respells p) (hne : q.bytes ≠ []) :
    p.tidy.bytes.length ≤ q.bytes.length
      ∧ (q.bytes.length = p.tidy.bytes.length → q = p.tidy) := by
  have hsublist : p.tidy.bytes.Sublist q.bytes := by
    rw [← tidy_eq_tidy_iff.2 h]
    exact tidy_sublist hne
  refine ⟨hsublist.length_le, ?_⟩
  intro hlength
  exact congrArg mk (hsublist.eq_of_length hlength.symm).symm

-- ===================================================================== text

/-- Names with separators between them are a text iff each of them is. -/
theorem isText_intercalate_iff {names : List Name} :
    Utf8.IsText ([slash].intercalate names) ↔ ∀ name ∈ names, Utf8.IsText name := by
  induction names with
  | nil => exact iff_of_true Utf8.isText_nil (by simp)
  | cons name names ih =>
      rw [List.forall_mem_cons]
      by_cases hne : names = []
      · subst hne
        simp
      · rw [Text.intercalate_cons _ _ hne, Utf8.isText_append_cons_iff (by decide), ih]

/-- A text is tidied to a text. -/
theorem isText_tidy {p : Path} (h : Utf8.IsText p.bytes) :
    Utf8.IsText p.tidy.bytes := by
  have hnames : Utf8.IsText ([slash].intercalate p.segments) := by
    rw [← intercalate_pieces, isText_intercalate_iff] at h
    rw [isText_intercalate_iff]
    intro name hname
    exact h name (List.mem_filter.1 hname).1
  cases habsolute : p.isAbsolute with
  | true =>
      rw [tidy_of_isAbsolute habsolute]
      exact (@Utf8.isText_append_cons_iff slash (by decide) [] _).2
        ⟨Utf8.isText_nil, hnames⟩
  | false =>
      by_cases hnil : p.segments = []
      · rw [(tidy_eq_dot_iff p).2 ⟨habsolute, hnil⟩]
        exact ⟨".", by decide⟩
      · rw [tidy_of_relative habsolute hnil]
        exact hnames

-- ====================================================================== keys

/-- A raw path without a leading `~` is only tidied. -/
theorem resolve_of_head? (w : World) {raw : String}
    (h : (Utf8.ofString raw).head? ≠ some tilde) :
    w.resolve raw = (⟨Utf8.ofString raw⟩ : Path).tidy := by
  unfold World.resolve Environment.expand
  rw [Environment.expansion_eq_of_head? _ h]

theorem key_eq_key_iff {w w' : World} {raw raw' : String}
    (h : (Utf8.ofString raw).head? ≠ some tilde)
    (h' : (Utf8.ofString raw').head? ≠ some tilde) :
    Collector.key w raw = Collector.key w' raw'
      ↔ Respells ⟨Utf8.ofString raw⟩ ⟨Utf8.ofString raw'⟩ := by
  have htext : ∀ s : String, Utf8.IsText (tidy ⟨Utf8.ofString s⟩).bytes :=
    fun s => isText_tidy ⟨s, rfl⟩
  unfold Collector.key
  rw [resolve_of_head? w h, resolve_of_head? w' h', ← tidy_eq_tidy_iff]
  constructor
  · intro hkeys
    exact congrArg mk (Utf8.eq_of_display_eq (htext raw) (htext raw') hkeys)
  · intro htidy
    rw [htidy]

/-- Two paths are tidied to the same path iff they are spellings of one another,
with `..` as a name like any other. The tidied path is itself such a spelling,
and a neat one: not empty, without a piece `.`, a separator at its end or two
in a row, the paths `.` and `/` apart; the neat paths are those that tidying
leaves alone. No spelling but the empty one is shorter, and no other one is as
short. So raw paths without a leading `~` come under one key, in whatever worlds
they are asked for, iff they are spellings of one another. -/
theorem tidy_decides_spelling (p q : Path) :
    (p.tidy = q.tidy ↔ p.Respells q)
      ∧ p.tidy.Respells p
      ∧ p.tidy.IsNeat
      ∧ (p.IsNeat ↔ p.tidy = p)
      ∧ p.tidy.tidy = p.tidy
      ∧ (p.bytes ≠ [] → p.tidy.bytes.length ≤ p.bytes.length)
      ∧ (q.Respells p → q.bytes ≠ [] →
          p.tidy.bytes.length ≤ q.bytes.length
            ∧ (q.bytes.length = p.tidy.bytes.length → q = p.tidy))
      ∧ ∀ (w w' : World) (raw raw' : String),
          (Utf8.ofString raw).head? ≠ some tilde →
          (Utf8.ofString raw').head? ≠ some tilde →
            (Collector.key w raw = Collector.key w' raw'
              ↔ Respells ⟨Utf8.ofString raw⟩ ⟨Utf8.ofString raw'⟩) := by
  refine ⟨tidy_eq_tidy_iff, respells_tidy p, isNeat_tidy p, isNeat_iff, tidy_tidy p,
    ?_, tidy_least, ?_⟩
  · intro hne
    exact (tidy_sublist hne).length_le
  · intro w w' raw raw' h h'
    exact key_eq_key_iff h h'

/-- Two spellings of one path, each with much to leave out. -/
theorem tidy_decides_spelling_dots :
    let w : World := ⟨⟨none, none, Accounts.empty⟩, fun _ => .missing⟩
    let p : Path := ⟨Utf8.ofString "a//./../b/"⟩
    let q : Path := ⟨Utf8.ofString "./a/..//b"⟩
    (q.Respells p ∧ q.bytes ≠ []) ∧ p.tidy = q.tidy
      ∧ p.tidy.bytes.length ≤ q.bytes.length
      ∧ Collector.key w "a//./../b/" = Collector.key w "./a/..//b" := by
  intro w p q
  have hspelling : q.Respells p := by decide +kernel
  have hne : q.bytes ≠ [] := by decide +kernel
  obtain ⟨htidy, -, -, -, -, -, hleast, hkeys⟩ := tidy_decides_spelling p q
  refine ⟨⟨hspelling, hne⟩, htidy.2 hspelling.symm, (hleast hspelling hne).1, ?_⟩
  rw [hkeys w w _ _ (by decide +kernel) (by decide +kernel)]
  exact hspelling.symm

-- `..` is a name like any other and takes none away
example : (⟨Utf8.ofString "a/../b"⟩ : Path).tidy ≠ (⟨Utf8.ofString "b"⟩ : Path).tidy := by
  decide +kernel

end Path

end Dossier
