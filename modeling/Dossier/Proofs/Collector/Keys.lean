/-
Every key of a report shows the path it stands for, piece by piece.

A path is octets and a key is text, with U+FFFD for what is no text. Written as
octets again (`mend`), the key is a path too, and can be compared with the one
it stands for. Two facts about the decoder are enough for that: an octet below
0x80 breaks off what stands before it and is never swallowed, so mending
commutes with cutting at the separator (`pieces_shown`); and U+FFFD stands
neither for nothing nor for `.`, so no piece starts or ceases to be idle
(`isIdle_mend`). Hence mending commutes with tidying (`tidy_shown`), and what is
shown of a tidied path is tidied.
-/
import Dossier.Proofs.Catalog.Agreement
import Dossier.Proofs.Collector.Session
import Dossier.Proofs.Path.Spelling
import Dossier.Proofs.Text.Parts

namespace Dossier

-- ================================================================ cut texts

namespace Text

variable {α β : Type} [DecidableEq α] [DecidableEq β] {s : α} {s' : β}
  {f : List α → List β}

section Runs

variable (happend : ∀ left right, f (left ++ s :: right) = f left ++ s' :: f right)

include happend

omit [DecidableEq α] [DecidableEq β] in
theorem apply_intercalate {runs : List (List α)} (hne : runs ≠ []) :
    f ([s].intercalate runs) = [s'].intercalate (runs.map f) := by
  induction runs with
  | nil => exact absurd rfl hne
  | cons run runs ih =>
      cases runs with
      | nil => simp
      | cons run' runs =>
          have hmap : (run' :: runs).map f ≠ [] := List.cons_ne_nil _ _
          rw [intercalate_cons _ _ (List.cons_ne_nil _ _), happend,
            ih (List.cons_ne_nil _ _)]
          exact (intercalate_cons _ _ hmap).symm

/-- What keeps the separators and makes no new ones may be applied to a text or to
each of its runs. -/
theorem cut_apply (hnotMem : ∀ run, s ∉ run → s' ∉ f run) (text : List α) :
    cut s' (f text) = (cut s text).map f := by
  have hne : (cut s text).map f ≠ [] := by
    rw [ne_eq, List.map_eq_nil_iff]
    exact cut_ne_nil s text
  have hruns : ∀ run ∈ (cut s text).map f, s' ∉ run := by
    intro run hrun
    obtain ⟨run', hrun', rfl⟩ := List.mem_map.1 hrun
    exact hnotMem run' (notMem_of_mem_cut hrun')
  calc cut s' (f text)
      = cut s' (f ([s].intercalate (cut s text))) := by rw [intercalate_cut]
    _ = cut s' ([s'].intercalate ((cut s text).map f)) := by
        rw [apply_intercalate happend (cut_ne_nil s text)]
    _ = (cut s text).map f := cut_intercalate hne hruns

end Runs

end Text

-- ============================================================= mended octets

namespace Utf8

/-- The octets with those of U+FFFD in the place of each broken part. -/
def mend (bs : Bytes) : Bytes := encode (lossy bs)

theorem ofString_display (bs : Bytes) : ofString (display bs) = mend bs := by
  rw [ofString, display, String.toList_ofList, mend]

section Octet

variable {b : UInt8} (hb : b.toNat < 0x80)

include hb

theorem lossy_append_cons (left right : Bytes) :
    lossy (left ++ b :: right) = lossy left ++ Char.ofNat b.toNat :: lossy right := by
  unfold lossy
  rw [pieces_append_cons hb, List.map_append, List.map_cons]
  rfl

/-- Nothing is shown as an octet below 0x80 but this octet. -/
theorem notMem_lossy {bs : Bytes} (h : b ∉ bs) : Char.ofNat b.toNat ∉ lossy bs := by
  intro hmem
  obtain ⟨piece, hpiece, hc⟩ := List.mem_map.1 hmem
  cases piece with
  | none =>
      have hcode := toNat_ofNat (n := b.toNat) (Or.inl (by omega))
      rw [← hc] at hcode
      have hmark : 0xFFFD = b.toNat := hcode
      omega
  | some c =>
      have hc : c = Char.ofNat b.toNat := hc
      have hsubset := (parts_pieces bs).subset hpiece
      rw [hc, encodeChar_ofNat hb] at hsubset
      exact h (hsubset List.mem_cons_self)

theorem mend_append_cons (left right : Bytes) :
    mend (left ++ b :: right) = mend left ++ b :: mend right := by
  unfold mend encode
  rw [lossy_append_cons hb, List.flatMap_append, List.flatMap_cons,
    encodeChar_ofNat hb, List.singleton_append]

theorem notMem_mend {bs : Bytes} (h : b ∉ bs) : b ∉ mend bs := by
  intro hmem
  obtain ⟨c, hc, hoctet⟩ := List.mem_flatMap.1 hmem
  rw [(eq_of_mem_encodeChar hb hoctet).1] at hc
  exact notMem_lossy hb h hc

end Octet

theorem mend_eq_self_iff {bs : Bytes} : mend bs = bs ↔ IsText bs := by
  constructor
  · intro h
    rw [← h]
    exact isText_encode _
  · rintro ⟨s, rfl⟩
    rw [mend, ofString, lossy_encode]

/-- A text without U+FFFD is mended of nothing but itself. -/
theorem mend_eq_encode_iff {bs : Bytes} {cs : List Char} (hcs : '\uFFFD' ∉ cs) :
    mend bs = encode cs ↔ bs = encode cs := by
  constructor
  · intro h
    have hlossy : lossy bs = cs := by
      rw [← lossy_encode (lossy bs), ← lossy_encode cs]
      exact congrArg lossy h
    have htext : IsText bs := by
      rw [isText_iff]
      intro hnone
      rw [← hlossy] at hcs
      exact hcs (List.mem_map.2 ⟨none, hnone, rfl⟩)
    rw [← h, mend_eq_self_iff.2 htext]
  · intro h
    rw [h]
    exact mend_eq_self_iff.2 (isText_encode cs)

theorem mend_eq_nil_iff {bs : Bytes} : mend bs = [] ↔ bs = [] :=
  mend_eq_encode_iff List.not_mem_nil

theorem mend_eq_dot_iff {bs : Bytes} : mend bs = [dot] ↔ bs = [dot] :=
  @mend_eq_encode_iff bs ['.'] (by decide)

end Utf8

namespace Path

-- ============================================================= shown as text

/-- What is shown of the path, as a path. -/
def shown (p : Path) : Path := ⟨Utf8.mend p.bytes⟩

theorem pieces_shown (p : Path) : p.shown.pieces = p.pieces.map Utf8.mend :=
  Text.cut_apply (Utf8.mend_append_cons (by decide))
    (fun _ => Utf8.notMem_mend (by decide)) p.bytes

theorem isIdle_mend (name : Name) : isIdle (Utf8.mend name) = isIdle name := by
  rw [Bool.eq_iff_iff]
  simp only [isIdle, Bool.or_eq_true, beq_iff_eq, Utf8.mend_eq_nil_iff,
    Utf8.mend_eq_dot_iff]

theorem segments_shown (p : Path) : p.shown.segments = p.segments.map Utf8.mend := by
  unfold segments
  rw [pieces_shown, List.filter_map]
  apply congrArg
  apply List.filter_congr
  intro name _
  rw [Function.comp_apply, isIdle_mend]

/-- A path starts at the root iff it is not empty and its first piece is. -/
theorem isAbsolute_iff {p : Path} :
    p.isAbsolute = true ↔ p.bytes ≠ [] ∧ p.pieces.head? = some [] := by
  have hhead : p.pieces.head? = some [] ↔ p.bytes = [] ∨ p.bytes.head? = some slash :=
    Text.head?_cut_eq_nil_iff
  rw [hhead, isAbsolute, beq_iff_eq]
  constructor
  · intro h
    refine ⟨?_, Or.inr h⟩
    intro hnil
    rw [hnil] at h
    cases h
  · rintro ⟨hne, hnil | h⟩
    · exact absurd hnil hne
    · exact h

theorem isAbsolute_shown (p : Path) : p.shown.isAbsolute = p.isAbsolute := by
  have hbytes : p.shown.bytes = [] ↔ p.bytes = [] := Utf8.mend_eq_nil_iff
  rw [Bool.eq_iff_iff, isAbsolute_iff, isAbsolute_iff, pieces_shown, ne_eq, ne_eq, hbytes,
    List.head?_map]
  cases p.pieces.head? with
  | none => rfl
  | some name =>
      rw [Option.map_some, Option.some.injEq, Option.some.injEq, Utf8.mend_eq_nil_iff]

theorem shown_ofSegments (absolute : Bool) (names : List Name) :
    (ofSegments absolute names).shown = ofSegments absolute (names.map Utf8.mend) := by
  have hslash : ∀ left right : Bytes,
      Utf8.mend (left ++ slash :: right) = Utf8.mend left ++ slash :: Utf8.mend right :=
    Utf8.mend_append_cons (by decide)
  by_cases hne : names = []
  · subst hne
    cases absolute <;> decide
  · have hjoin := Text.apply_intercalate hslash hne
    have hne' : names.map Utf8.mend ≠ [] := by simpa using hne
    cases absolute with
    | true =>
        have hroot := hslash [] ([slash].intercalate names)
        rw [hjoin] at hroot
        exact congrArg mk hroot
    | false =>
        simp only [ofSegments, Bool.false_eq_true, if_false, List.isEmpty_iff, hne, hne']
        exact congrArg mk hjoin

/-- It does not matter whether a path is tidied before or after it is shown. -/
theorem tidy_shown (p : Path) : p.shown.tidy = p.tidy.shown := by
  rw [tidy, isAbsolute_shown, segments_shown, tidy, shown_ofSegments]

/-- The text shows the path. -/
structure ShownAs (p : Path) (text : String) : Prop where
  /-- Each character of the path stands for itself and each of its broken parts is
  one U+FFFD. -/
  parts : ∃ parts, (∀ parts', Utf8.Parts p.bytes parts' ↔ parts' = parts)
    ∧ text.toList = parts.map (·.getD '\uFFFD')
  isAbsolute_eq : (⟨Utf8.ofString text⟩ : Path).isAbsolute = p.isAbsolute
  /-- Between its separators stands what is shown of the pieces, one by one. -/
  pieces_eq : Text.cut '/' text.toList = p.pieces.map Utf8.lossy
  bytes_eq_iff : Utf8.ofString text = p.bytes ↔ Utf8.IsText p.bytes
  isNeat : IsNeat ⟨Utf8.ofString text⟩
  tidy_eq : (⟨Utf8.ofString text⟩ : Path).tidy = ⟨Utf8.ofString text⟩

/-- A tidied path is shown by its text. -/
theorem shownAs_display {p : Path} (h : p.tidy = p) : p.ShownAs p.display := by
  have hchars : p.display.toList = Utf8.lossy p.bytes := String.toList_ofList
  have hbytes : Utf8.ofString p.display = Utf8.mend p.bytes := Utf8.ofString_display p.bytes
  have htidied : p.shown.tidy = p.shown := by rw [tidy_shown, h]
  refine ⟨⟨Utf8.pieces p.bytes, fun _ => Utf8.parts_iff, hchars⟩, ?_, ?_, ?_, ?_, ?_⟩
  · rw [hbytes]
    exact isAbsolute_shown p
  · rw [hchars]
    exact Text.cut_apply (@Utf8.lossy_append_cons slash (by decide))
      (fun _ => @Utf8.notMem_lossy slash (by decide) _) p.bytes
  · rw [hbytes]
    exact Utf8.mend_eq_self_iff
  · rw [hbytes]
    exact isNeat_iff.2 htidied
  · rw [hbytes]
    exact htidied

end Path

-- =================================================================== the keys

namespace Session

/-- After any run of adds, extends and changes of the world, with whatever homes the
accounts have, each key comes from paths that were asked for, and shows the path
that each of them stands for. -/
theorem keys_show_paths (w : World) (actions : List Action) (k : String)
    (h : k ∈ ((start w).run actions).collector.results.keys) :
    (∃ moment ∈ adds w actions, Collector.key moment.1 moment.2 = k)
      ∧ ∀ moment ∈ adds w actions, Collector.key moment.1 moment.2 = k →
          (moment.1.resolve moment.2).ShownAs k := by
  constructor
  · rw [(gathers_run w actions).mem_keys_iff, List.map_map] at h
    exact List.mem_map.1 h
  · rintro ⟨world, raw⟩ - rfl
    exact Path.shownAs_display (Path.tidy_tidy _)

/-- A home directory with a character that a separator breaks off, and an octet that
begins none in front of a dot: two names, neither of them idle. -/
theorem keys_show_paths_broken :
    let account : Account := ⟨some [slash, 0xE2, 0x82, slash, 0xFF, dot, slash], 0, 0⟩
    let w : World := ⟨⟨none, none, ⟨[(Utf8.ofString "a", account)]⟩⟩, fun _ => .missing⟩
    let actions : List Action := [.change w, .add "~a/./x"]
    let p : Path := ⟨[slash, 0xE2, 0x82, slash, 0xFF, dot, slash, 0x78]⟩
    let k := "/\uFFFD/\uFFFD./x"
    k ∈ ((start w).run actions).collector.results.keys
      ∧ w.resolve "~a/./x" = p ∧ p.ShownAs k := by
  intro account w actions p k
  have hmem : k ∈ ((start w).run actions).collector.results.keys := by decide +kernel
  have hpath : w.resolve "~a/./x" = p := by decide +kernel
  refine ⟨hmem, hpath, ?_⟩
  rw [← hpath]
  exact (keys_show_paths w actions k hmem).2 (w, "~a/./x") List.mem_cons_self
    (by decide +kernel)

end Session

end Dossier
