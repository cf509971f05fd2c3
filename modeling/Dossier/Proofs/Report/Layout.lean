/-
The layout of a report's document is decided by the number of its records.

`line` spells a successful report on one line, character by character but for
the texts and numbers in it: the fields in their order, the records in the order
of the catalog, and no blank that is not in a literal.
The document is this line with layout around its ink, by `lays_pretty`, and
the line feeds of the layout are counted on the brackets of the report's
value. Neither a path nor a content, nor the agent or the message, has a part
in the counting, so none of them can add a line or take one away.
-/
import Dossier.Proofs.Json.Layout
import Dossier.Report.Document

namespace Dossier

open Json

namespace Json

-- ================================================================= one line

/-- A key and what stands under it. -/
def keyed (key : String) (text : List Char) : List Char := literal key ++ ':' :: text

/-- Members in braces, with commas between them. -/
def braced (members : List (List Char)) : List Char :=
  '\x7b' :: [','].intercalate members ++ ['\x7d']

theorem compact_object (members : List (String × Value)) :
    (Value.object members).compact = braced (members.map fun m => keyed m.1 m.2.compact) := by
  rw [Value.compact, compactMembers_eq_intercalate]
  rfl

theorem compact_natural (n : Nat) :
    (Value.number (.integer n)).compact = Nat.toDigits 10 n := by
  rw [Value.compact, Number.text, Number.integerText, if_neg (by omega), Int.natAbs_natCast]

end Json

-- ================================================================= records

namespace Record

/-- The record on one line. -/
def line (r : Record) : List Char :=
  "\x7b\"exists\":".toList ++ booleanText r.present ++ ",\"size\":".toList
    ++ Nat.toDigits 10 r.size ++ ",\"content\":".toList ++ literal r.content ++ ['\x7d']

/-- The line is made of the members of an object. -/
theorem line_eq_braced (r : Record) :
    r.line = braced
      [keyed "exists" (booleanText r.present),
        keyed "size" (Nat.toDigits 10 r.size),
        keyed "content" (literal r.content)] := by
  have hexists : "\x7b\"exists\":".toList = '\x7b' :: literal "exists" ++ [':'] := by
    decide +kernel
  have hsize : ",\"size\":".toList = ',' :: literal "size" ++ [':'] := by
    decide +kernel
  have hcontent : ",\"content\":".toList = ',' :: literal "content" ++ [':'] := by
    decide +kernel
  unfold line keyed
  simp only [hexists, hsize, hcontent]
  -- the keys are closed terms, which need not be computed any more
  generalize literal "exists" = present, literal "size" = size,
    literal "content" = content
  simp [braced]

theorem compact_toValue (r : Record) : r.toValue.compact = r.line := by
  rw [toValue, compact_object, List.map_cons, List.map_cons, List.map_singleton,
    compact_natural, line_eq_braced]
  rfl

/-- A record takes five lines, the last of which it does not break. -/
theorem breaks_toValue (r : Record) : r.toValue.breaks = 4 := rfl

end Record

-- ================================================================= reports

namespace Report

/-- A successful report on one line. -/
def line (agent : String) (count : Nat) (results : Catalog Record) : List Char :=
  "\x7b\"status\":\"success\",\"agent\":".toList ++ literal agent
    ++ ",\"files_read\":".toList ++ Nat.toDigits 10 count ++ ",\"results\":\x7b".toList
    ++ [','].intercalate (results.entries.map fun entry =>
      literal entry.1 ++ ':' :: entry.2.line)
    ++ ['\x7d', '\x7d']

/-- The line is made of the members of an object, of which the last one is an
object itself. -/
theorem line_eq_braced (agent : String) (count : Nat) (results : Catalog Record) :
    line agent count results = braced
      [keyed "status" (literal "success"),
        keyed "agent" (literal agent),
        keyed "files_read" (Nat.toDigits 10 count),
        keyed "results"
          (braced (results.entries.map fun entry => keyed entry.1 entry.2.line))] := by
  have hagent : "\x7b\"status\":\"success\",\"agent\":".toList
      = '\x7b' :: literal "status" ++ ':' :: literal "success" ++ ','
        :: literal "agent" ++ [':'] := by
    decide +kernel
  have hcount : ",\"files_read\":".toList = ',' :: literal "files_read" ++ [':'] := by
    decide +kernel
  have hresults : ",\"results\":\x7b".toList
      = ',' :: literal "results" ++ [':', '\x7b'] := by
    decide +kernel
  unfold line keyed
  simp only [hagent, hcount, hresults]
  generalize literal "status" = status, literal "success" = success,
    literal "agent" = key, literal "files_read" = files, literal "results" = records
  simp [braced]

theorem compact_toValue (agent : String) (count : Nat) (results : Catalog Record) :
    (success agent count results).toValue.compact = line agent count results := by
  have hrecords : (Value.object
      (results.entries.map fun entry => (entry.1, entry.2.toValue))).compact
        = braced (results.entries.map fun entry => keyed entry.1 entry.2.line) := by
    rw [compact_object, List.map_map]
    congr 1
    apply List.map_congr_left
    intro entry _
    rw [Function.comp_apply, Record.compact_toValue]
  rw [toValue, compact_object, List.map_cons, List.map_cons, List.map_cons,
    List.map_singleton, compact_natural, hrecords, line_eq_braced]
  rfl

theorem breaksOfMembers_records (entries : List (String × Record)) :
    breaksOfMembers (entries.map fun entry => (entry.1, entry.2.toValue))
      = 5 * entries.length := by
  induction entries with
  | nil => rfl
  | cons entry entries ih =>
      rw [List.map_cons, breaksOfMembers, ih, Record.breaks_toValue, List.length_cons]
      omega

theorem breaks_toValue (agent : String) (count : Nat) (results : Catalog Record) :
    (success agent count results).toValue.breaks
      = if results.size = 0 then 5 else 6 + 5 * results.size := by
  have hrecords := breaksOfMembers_records results.entries
  cases hentries : results.entries with
  | nil => simp [toValue, Value.breaks, breaksOfMembers, Catalog.size, hentries]
  | cons entry entries =>
      rw [hentries, List.map_cons] at hrecords
      simp only [toValue, Value.breaks, breaksOfMembers, Catalog.size, hentries, List.map_cons,
        List.length_cons] at hrecords ⊢
      rw [hrecords, if_neg (Nat.succ_ne_zero _)]
      omega

/-- The document of a success is its line, laid out. -/
theorem lays_success (agent : String) (count : Nat) (results : Catalog Record) :
    Lays (success agent count results).document (line agent count results)
      (if results.size = 0 then 5 else 6 + 5 * results.size) := by
  rw [← compact_toValue, ← breaks_toValue]
  exact lays_pretty _ 0

/-- The document of a failure is its line. -/
theorem document_failure (message : String) :
    (failure message).document
      = braced [keyed "status" (literal "error"), keyed "message" (literal message)] :=
  compact_object _

theorem no_control_failure (message : String) :
    ∀ c ∈ (failure message).document, 0x20 ≤ c.toNat :=
  (lays_pretty (failure message).toValue 0).no_control

/-- The document of a report holds no control character but the line feeds of its
layout: none for a failure, five for a success without a record, and else six
and five for each record, whatever the texts in it hold. The ink of a success
is its compact form, which is the report on one line, without a control
character: the status, the agent, the count and the records in their order, and
of each record what is there, its size and its content. -/
theorem toJson_layout :
    (∀ (r : Report), ∀ c ∈ r.toJson.toList, c.toNat < 0x20 → c = '\n')
      ∧ (∀ message, (failure message).toJson.toList.count '\n' = 0)
      ∧ ∀ agent count results,
          let text := (success agent count results).toJson.toList
          text.count '\n' = (if results.size = 0 then 5 else 6 + 5 * results.size)
            ∧ ink .outside text = (success agent count results).toValue.compact
            ∧ (success agent count results).toValue.compact = line agent count results
            ∧ ∀ c ∈ line agent count results, 0x20 ≤ c.toNat := by
  simp only [toJson, String.toList_ofList]
  refine ⟨?_, ?_, ?_⟩
  · intro r c hc hlt
    cases r with
    | success agent count results =>
        exact (lays_success agent count results).eq_newline c hc hlt
    | failure message =>
        exact absurd (no_control_failure message c hc) (Nat.not_le.2 hlt)
  · intro message
    exact count_newline_eq_zero (no_control_failure message)
  · intro agent count results
    have hlays := lays_success agent count results
    rw [compact_toValue]
    exact ⟨hlays.count_eq, hlays.ink_eq, rfl, hlays.no_control⟩

end Report

end Dossier
