/-
A record on its own and the same text as a record of a report.

On its own a record is judged while it is read and what no field asks for is
only passed over; in a report it has been read in full before it is judged.
`enclosing` puts a text in the place of the one record of a report. The pieces
of the document are known whatever that text is, so the document is accepted
iff the text spells a value that stands for a record, with two levels of
brackets less (`parse_enclosing_iff`).
-/
import Dossier.Proofs.Json.Writing
import Dossier.Proofs.Record.Reading
import Dossier.Proofs.Report.Reading

namespace Dossier.Report

open Json

-- ============================================================ the document

/-- The document of a success with one record, given the texts of its key and of
its value. -/
def enclosing (key value : List Char) : List Char :=
  "\x7b\"status\":\"success\",\"agent\":\"a\",\"files_read\":1,\"results\":\x7b".toList
    ++ (key ++ ':' :: (value ++ ['\x7d', '\x7d']))

/-- The pieces of the document. -/
def enclosingPieces (results : List Char) : List (String × List Char) :=
  [("status", literal "success"), ("agent", literal "a"), ("files_read", ['1']),
    ("results", results)]

theorem enclosing_eq (key value : List Char) :
    enclosing key value = '\x7b' :: ([','].intercalate
      ((enclosingPieces ('\x7b' :: (key ++ ':' :: value ++ ['\x7d']))).map fun p =>
        literal p.1 ++ ':' :: p.2) ++ ['\x7d']) := by
  have hfront :
      "\x7b\"status\":\"success\",\"agent\":\"a\",\"files_read\":1,\"results\":\x7b".toList
        = '\x7b' :: (literal "status" ++ (':' :: (literal "success"
          ++ (',' :: (literal "agent" ++ (':' :: (literal "a"
          ++ (',' :: (literal "files_read" ++ (':' :: ('1'
          :: (',' :: (literal "results" ++ (':' :: ['\x7b'])))))))))))))) := by
    decide +kernel
  unfold enclosing enclosingPieces
  rw [hfront]
  simp only [List.map_cons, List.map_nil, List.intercalate_cons_cons,
    List.intercalate_singleton, List.append_assoc, List.cons_append, List.nil_append]

/-- The value of the document, if `v` is the value of the record. -/
def enclosed (name : String) (v : Value) : Value :=
  .object
    [("status", .text "success"), ("agent", .text "a"),
      ("files_read", .number (.integer 1)), ("results", .object [(name, v)])]

theorem spells_one : Spells ['1'] (.number (.integer 1)) :=
  spells_natural_iff.2
    ⟨.digits (by decide) (by decide) (by simp), by decide, by decide⟩

section Enclosing

variable {key before form behind : List Char} {name : String} {depth : Nat}
  (hkey : Literal key name) (hbefore : Blanks before) (hform : Shaped form depth)
  (hbehind : Blanks behind)

include hkey hbefore hform hbehind

/-- The one piece inside of the inner braces is the text of the record. -/
theorem items_record :
    Items (Padded (Member Piece)) (key ++ ':' :: (before ++ (form ++ behind)))
      [(name, form)] := by
  have hmember : Member Piece (key ++ ([] ++ ':' :: (before ++ form))) (name, form) :=
    .mk hkey (.mk blanks_nil (.mk hbefore ⟨rfl, depth, hform⟩))
  have hitems := Items.cons (Padded.of_form hmember) (.nil hbehind)
  simp only [List.nil_append, List.append_assoc, List.cons_append] at hitems
  exact hitems

/-- The pieces inside of the outer braces. -/
theorem items_enclosing :
    ∃ inner, enclosing key (before ++ (form ++ behind)) = '\x7b' :: (inner ++ ['\x7d'])
      ∧ Items (Padded (Member Piece)) inner (enclosingPieces
          ('\x7b' :: (key ++ ':' :: (before ++ (form ++ behind)) ++ ['\x7d']))) := by
  have hrecord := items_record hkey hbefore hform hbehind
  refine ⟨_, enclosing_eq key _, items_intercalate fun p hp => .of_form ?_⟩
  have hshaped : ∃ depth, Shaped p.2 depth := by
    simp only [enclosingPieces, List.mem_cons, List.not_mem_nil, or_false] at hp
    rcases hp with rfl | rfl | rfl | rfl
    · exact ⟨_, shaped_of_spells (.text (literal_literal "success"))⟩
    · exact ⟨_, shaped_of_spells (.text (literal_literal "a"))⟩
    · exact ⟨_, shaped_of_spells spells_one⟩
    · exact exists_shaped_of_pieces hrecord
  exact .mk (literal_literal p.1) (.mk blanks_nil (.of_form ⟨rfl, hshaped⟩))

/-- The document spells a value iff the text of the record does. -/
theorem spells_enclosing_iff {v : Value} :
    Spells (enclosing key (before ++ (form ++ behind))) v
      ↔ ∃ w, Spells form w ∧ v = enclosed name w := by
  obtain ⟨inner, hinner, hpieces⟩ := items_enclosing hkey hbefore hform hbehind
  have hrecord := items_record hkey hbefore hform hbehind
  rw [hinner, spells_object_iff_pieces hpieces]
  constructor
  · intro hall
    obtain ⟨members, rfl, hsame⟩ := hall
    obtain _ | @⟨⟨_, status⟩, _, _, _, ⟨rfl, hstatus⟩, hsame⟩ := hsame
    obtain _ | @⟨⟨_, agent⟩, _, _, _, ⟨rfl, hagent⟩, hsame⟩ := hsame
    obtain _ | @⟨⟨_, count⟩, _, _, _, ⟨rfl, hcount⟩, hsame⟩ := hsame
    obtain _ | @⟨⟨_, results⟩, _, _, _, ⟨rfl, hresults⟩, hsame⟩ := hsame
    cases hsame
    obtain ⟨records, rfl, hsame⟩ := (spells_object_iff_pieces hrecord).1 hresults
    obtain _ | @⟨⟨_, w⟩, _, _, _, ⟨rfl, hw⟩, hsame⟩ := hsame
    cases hsame
    obtain rfl : status = .text "success" :=
      hstatus.unique (.text (literal_literal "success"))
    obtain rfl : agent = .text "a" := hagent.unique (.text (literal_literal "a"))
    obtain rfl : count = .number (.integer 1) := hcount.unique spells_one
    exact ⟨w, hw, rfl⟩
  · intro hall
    obtain ⟨w, hw, rfl⟩ := hall
    refine ⟨_, rfl, .cons ⟨rfl, .text (literal_literal _)⟩
      (.cons ⟨rfl, .text (literal_literal _)⟩ (.cons ⟨rfl, spells_one⟩
        (.cons ⟨rfl, ?_⟩ .nil)))⟩
    exact (spells_object_iff_pieces hrecord).2 ⟨_, rfl, .cons ⟨rfl, hw⟩ .nil⟩

/-- The document has nothing but a value in it. -/
theorem document_enclosing_iff {v : Value} :
    Document (enclosing key (before ++ (form ++ behind))) v
      ↔ Spells (enclosing key (before ++ (form ++ behind))) v := by
  obtain ⟨inner, hinner, -⟩ := items_enclosing hkey hbefore hform hbehind
  rw [hinner]
  constructor
  · intro h
    generalize htext : '\x7b' :: (inner ++ ['\x7d']) = text at h
    obtain @⟨_, blanks, _, @⟨leading, front, _, hleading, hspells⟩, hblanks⟩ := h
    -- a blank at either end would be one of the braces
    obtain rfl : leading = [] := by
      cases leading with
      | nil => rfl
      | cons c leading =>
          obtain ⟨rfl, -⟩ := List.cons.inj htext
          exact absurd (hleading '\x7b' List.mem_cons_self) (by decide)
    obtain rfl : blanks = [] := by
      rcases List.eq_nil_or_concat blanks with hnil | ⟨init, c, rfl⟩
      · exact hnil
      · rw [← List.cons_append, List.concat_eq_append, ← List.append_assoc] at htext
        obtain ⟨-, hc⟩ := List.append_inj' htext rfl
        obtain rfl := List.singleton_inj.1 hc
        exact absurd (hblanks '\x7d' (by simp)) (by decide)
    rw [List.append_nil, List.nil_append] at htext
    rw [List.append_nil, List.nil_append]
    exact hspells
  · intro h
    rw [← List.append_nil ('\x7b' :: (inner ++ ['\x7d']))]
    exact .mk (.of_form h) blanks_nil

end Enclosing

-- ============================================================= the judgement

theorem depth_enclosed (name : String) (v : Value) :
    (enclosed name v).depth = v.depth + 2 := by
  simp [enclosed, Value.depth, depthOfMembers]

/-- The value of the document stands for a success with the one record. -/
theorem denotes_enclosed_iff {name : String} {v : Value} {r : Report} :
    Denotes (enclosed name v) r
      ↔ ∃ f, Record.Denotes v f
          ∧ r = .success "a" 1 (Catalog.empty.insert name f) := by
  have hrecords : ∀ results, Results (.object [(name, v)]) results
      ↔ ∃ f, Record.Denotes v f ∧ results = Catalog.empty.insert name f := by
    intro results
    rw [← asResults_eq_ok_iff, asResults, List.foldlM_cons]
    simp only [List.foldlM_nil, bind_pure, bind_eq_ok_iff, Record.ofValue_eq_ok_iff]
    refine exists_congr fun f => and_congr_right fun _ => ?_
    show Except.ok _ = Except.ok _ ↔ _
    rw [Except.ok.injEq, eq_comm]
  constructor
  · intro h
    unfold enclosed at h
    cases h with
    | success hstatus hagent hcount hresults h =>
        simp only [Sole, List.filter, String.reduceBEq, List.cons.injEq,
          Prod.mk.injEq, true_and, and_true] at hagent hcount hresults
        cases hagent
        cases hcount
        cases hresults
        obtain ⟨f, hf, rfl⟩ := (hrecords _).1 h
        exact ⟨f, hf, rfl⟩
    | failure hstatus hmessage => simp [Sole] at hstatus
  · intro hall
    obtain ⟨f, hf, rfl⟩ := hall
    exact .success rfl rfl rfl rfl ((hrecords _).2 ⟨f, hf, rfl⟩)

/-- The document is accepted iff the text in it spells a value that stands for a
record, with two levels of brackets less. -/
theorem parse_enclosing_iff {key before form behind : List Char} {name : String}
    {depth : Nat} (hkey : Literal key name) (hbefore : Blanks before)
    (hform : Shaped form depth) (hbehind : Blanks behind) {r : Report} :
    parse (String.ofList (enclosing key (before ++ (form ++ behind)))) = .ok r
      ↔ ∃ v f, Within 125 form v ∧ Record.Denotes v f
          ∧ r = .success "a" 1 (Catalog.empty.insert name f) := by
  constructor
  · intro h
    obtain ⟨_, hdocument, hdepth, hdenotes⟩ := document_of_parse h
    rw [String.toList_ofList, document_enclosing_iff hkey hbefore hform hbehind,
      spells_enclosing_iff hkey hbefore hform hbehind] at hdocument
    obtain ⟨v, hspells, rfl⟩ := hdocument
    rw [depth_enclosed] at hdepth
    obtain ⟨f, hf, rfl⟩ := denotes_enclosed_iff.1 hdenotes
    exact ⟨v, f, ⟨hspells, by omega⟩, hf, rfl⟩
  · intro hall
    obtain ⟨v, f, hwithin, hf, rfl⟩ := hall
    refine parse_of_document ?_ ?_ (denotes_enclosed_iff.2 ⟨f, hf, rfl⟩)
    · rw [String.toList_ofList, document_enclosing_iff hkey hbefore hform hbehind,
        spells_enclosing_iff hkey hbefore hform hbehind]
      exact ⟨v, hwithin.1, rfl⟩
    · rw [depth_enclosed]
      have hdepth := hwithin.2
      omega

-- ============================================================ both readers

/-- A text that is one value is read alike on its own and as the one record of a
report. What a report accepts is accepted on its own; and what is accepted on its
own is accepted in a report if the values that it ignores have numerals in the
range of the number reader, no surrogate alone, and at most 124 levels of
brackets, which makes 125 levels of the record. -/
theorem readers_agree {key : List Char} {name text : String}
    (hkey : Literal key name) (htext : OneValue text.toList) :
    (∀ r, parse (String.ofList (enclosing key text.toList)) = .ok r →
        ∃ f, Record.parse text = .ok f
          ∧ r = .success "a" 1 (Catalog.empty.insert name f))
      ∧ ∀ f, Record.parse text = .ok f →
          (∀ piece, Record.Ignores text.toList piece →
            Formed Numeral.InRange Paired piece 124) →
          parse (String.ofList (enclosing key text.toList))
            = .ok (.success "a" 1 (Catalog.empty.insert name f)) := by
  constructor
  · intro r h
    obtain ⟨before, form, behind, depth, heq, hbefore, hform, hbehind⟩ := htext
    rw [heq, parse_enclosing_iff hkey hbefore hform hbehind] at h
    obtain ⟨v, f, hwithin, hdenotes, rfl⟩ := h
    have hreadable := Record.readable_of_denotes hwithin.1 hdenotes
    refine ⟨f, Record.parse_eq_ok_iff_readable.2
      ⟨_, behind, ?_, .mk hbefore hreadable, hbehind⟩, rfl⟩
    rw [heq, List.append_assoc]
  · intro f h hignored
    obtain ⟨_, behind, heq, ⟨hbefore, hreadable⟩, hbehind⟩ :=
      Record.parse_eq_ok_iff_readable.1 h
    rw [List.append_assoc] at heq
    obtain ⟨v, hwithin, hdenotes⟩ :=
      Record.exists_denotes_of_readable hreadable fun piece hpiece =>
        (hignored piece (heq ▸ hpiece.pad hbefore hbehind)).within
    have hshaped := shaped_of_spells hwithin.1
    rw [heq, parse_enclosing_iff hkey hbefore hshaped hbehind]
    exact ⟨v, f, hwithin, hdenotes, rfl⟩

/-- The limits are those of the report's reader: what a report accepts keeps to
them. -/
theorem formed_of_parse_enclosing {key : List Char} {name text : String} {r : Report}
    (hkey : Literal key name) (htext : OneValue text.toList)
    (h : parse (String.ofList (enclosing key text.toList)) = .ok r) {piece : List Char}
    (hpiece : Record.Ignores text.toList piece) :
    Formed Numeral.InRange Paired piece 124 := by
  obtain ⟨before, form, behind, depth, heq, hbefore, hform, hbehind⟩ := htext
  rw [heq, parse_enclosing_iff hkey hbefore hform hbehind] at h
  obtain ⟨v, f, hwithin, -, -⟩ := h
  generalize text.toList = chars at heq hpiece
  obtain @⟨before', inner, behind', _, name', pieces, hbefore', hbehind', hitems, hmem,
    -⟩ := hpiece
  obtain ⟨depth', hform'⟩ := exists_shaped_of_pieces hitems
  obtain rfl : form = '\x7b' :: (inner ++ ['\x7d']) := by
    refine oneValue_unique hbefore hbefore' hform hform' hbehind hbehind' ?_
    rw [← heq, List.cons_append, List.append_assoc, List.singleton_append]
  obtain ⟨members, rfl, hsame⟩ := (spells_object_iff_pieces hitems).1 hwithin.1
  have hdepths := hwithin.2
  rw [Value.depth, Nat.add_le_add_iff_right, depthOfMembers_le_iff] at hdepths
  have hpieces : ∀ p ∈ pieces, ∃ v, Within 124 p.2 v :=
    forall_mem_of_forall₂ ((List.forall₂_and_left _ _).2 ⟨hdepths, hsame⟩)
      fun hmp => ⟨_, hmp.2.2, hmp.1⟩
  exact formed_iff_within.2 (hpieces _ hmem)

/-- A record with an array that is ignored. -/
def recordWithArray : String :=
  "\x7b\"x\":[null],\"exists\":true,\"size\":1,\"content\":\"c\"\x7d\n"

theorem readers_agree_ignored_array :
    Literal (literal "k") "k" ∧ OneValue recordWithArray.toList
      ∧ Record.parse recordWithArray = .ok ⟨true, 1, "c"⟩
      ∧ parse (String.ofList (enclosing (literal "k") recordWithArray.toList))
        = .ok (.success "a" 1 (Catalog.empty.insert "k" ⟨true, 1, "c"⟩)) := by
  have hkey := literal_literal "k"
  have htext : OneValue recordWithArray.toList := oneValue_iff.2 (by decide +kernel)
  have hrecord : Record.parse recordWithArray = .ok ⟨true, 1, "c"⟩ := by
    decide +kernel
  have hignored : ∀ piece, Record.Ignores recordWithArray.toList piece →
      Formed Numeral.InRange Paired piece 124 := by
    intro piece hpiece
    have hmem := Record.mem_ignored hpiece
    have hpieces : Record.ignored recordWithArray.toList = ["[null]".toList] := by
      decide +kernel
    rw [hpieces, List.mem_singleton] at hmem
    subst hmem
    have hnull : Formed Numeral.InRange Paired "null".toList 0 := .null
    exact .array (.cons (.of_form hnull) (.nil blanks_nil)) (by decide)
  exact ⟨hkey, htext, hrecord, (readers_agree hkey htext).2 _ hrecord hignored⟩

/-- A record that ignores the numeral 1.7976931348623157081e308 with its point at
the end. -/
def recordNearGreatest : String :=
  "\x7b\"exists\":true,\"size\":1,\"content\":\"c\",\"x\":17976931348623157081e289\x7d"

/-- The greatest magnitude is not enough of a limit: this side of it there are
numerals that the number reader, which rounds twice, takes beyond it. -/
theorem readers_differ_near_greatest :
    Literal (literal "k") "k" ∧ OneValue recordNearGreatest.toList
      ∧ Record.parse recordNearGreatest = .ok ⟨true, 1, "c"⟩
      ∧ (∀ piece, Record.Ignores recordNearGreatest.toList piece →
          Formed Numeral.AtMostGreatest Paired piece 124)
      ∧ parse (String.ofList (enclosing (literal "k") recordNearGreatest.toList))
        = .error .malformed := by
  refine ⟨literal_literal "k", oneValue_iff.2 (by decide +kernel), by decide +kernel,
    ?_, by decide +kernel⟩
  intro piece hpiece
  have hmem := Record.mem_ignored hpiece
  have hpieces : Record.ignored recordNearGreatest.toList
      = ["17976931348623157081e289".toList] := by decide +kernel
  rw [hpieces, List.mem_singleton] at hmem
  subst hmem
  exact formed_near_greatest

end Dossier.Report
