/-
A report is read back from its own document.

The value of a report stands for it: each field is a member of its own, and
the records come in the order of the catalog, each key once, so that
gathering them gives the catalog again. The document is a written form of
that value, on one line or on several. By the grammar of the reader that is
all there is to show, and since one text is read as one report, no two
reports have the same document.

Counts and sizes have 64 bits in a document; a report fits when its own do.
-/
import Dossier.Proofs.Json.Writing
import Dossier.Proofs.Report.Reading

namespace Dossier

open Json

-- ================================================================= records

namespace Record

/-- The size has no more than 64 bits. -/
def Fits (r : Record) : Prop := r.size < 2 ^ 64

theorem denotes_toValue (r : Record) : Denotes r.toValue r :=
  .object rfl rfl rfl

theorem depth_toValue (r : Record) : r.toValue.depth = 1 :=
  rfl

theorem exact_toValue {r : Record} (h : r.Fits) : r.toValue.Exact := by
  have hsize : r.size < 2 ^ 64 := h
  refine .object ?_
  intro m hm
  rcases List.mem_cons.1 hm with hm | hm
  · rw [hm]
    exact .boolean r.present
  rcases List.mem_cons.1 hm with hm | hm
  · rw [hm]
    exact .integer (by omega) (by omega)
  · rw [List.mem_singleton.1 hm]
    exact .text r.content

end Record

namespace Report

/-- The count and the sizes have no more than 64 bits. -/
def Fits : Report → Prop
  | .success _ count results =>
      count < 2 ^ 64 ∧ ∀ entry ∈ results.entries, entry.2.Fits
  | .failure _ => True

-- ================================================================== values

/-- The records of a catalog, each in its member. -/
theorem results_entries (results : Catalog Record) :
    Results (.object (results.entries.map fun (key, r) => (key, r.toValue)))
      results := by
  refine .mk ?_ results.gathers_entries
  rw [List.forall₂_map_left_iff, List.forall₂_same]
  intro entry hentry
  exact ⟨rfl, entry.2.denotes_toValue⟩

theorem denotes_toValue (r : Report) : Denotes r.toValue r := by
  cases r with
  | success agent count results =>
      exact .success rfl rfl rfl rfl (results_entries results)
  | failure message => exact .failure rfl rfl

/-- A report has brackets for itself, for its records and for each of them. -/
theorem depth_toValue (r : Report) : r.toValue.depth ≤ 3 := by
  cases r with
  | success agent count results =>
      have hrecords : depthOfMembers (results.entries.map
          fun entry => (entry.1, entry.2.toValue)) ≤ 1 := by
        rw [depthOfMembers_le_iff]
        intro m hm
        obtain ⟨entry, -, rfl⟩ := List.mem_map.1 hm
        exact Nat.le_of_eq entry.2.depth_toValue
      simp only [toValue, Value.depth, depthOfMembers]
      omega
  | failure message =>
      simp only [toValue, Value.depth, depthOfMembers]
      omega

theorem exact_toValue {r : Report} (h : r.Fits) : r.toValue.Exact := by
  cases r with
  | success agent count results =>
      obtain ⟨hcount, hrecords⟩ := h
      refine .object ?_
      intro m hm
      rcases List.mem_cons.1 hm with hm | hm
      · rw [hm]
        exact .text _
      rcases List.mem_cons.1 hm with hm | hm
      · rw [hm]
        exact .text agent
      rcases List.mem_cons.1 hm with hm | hm
      · rw [hm]
        exact .integer (by omega) (by omega)
      · rw [List.mem_singleton.1 hm]
        refine .object ?_
        intro m hm
        obtain ⟨entry, hentry, rfl⟩ := List.mem_map.1 hm
        exact Record.exact_toValue (hrecords entry hentry)
  | failure message =>
      refine .object ?_
      intro m hm
      rcases List.mem_cons.1 hm with hm | hm
      · rw [hm]
        exact .text _
      · rw [List.mem_singleton.1 hm]
        exact .text message

-- =============================================================== documents

/-- On one line or on several, the document is a form of the report's value. -/
theorem spells_document {r : Report} (h : r.Fits) :
    Spells r.document r.toValue := by
  cases r with
  | success agent count results => exact spells_pretty (exact_toValue h) 0
  | failure message => exact spells_compact (exact_toValue h)

/-- There is no blank around it. -/
theorem document_toJson {r : Report} (h : r.Fits) :
    Document r.toJson.toList r.toValue := by
  rw [toJson, String.toList_ofList, ← List.append_nil r.document]
  exact .mk (.of_form (spells_document h)) blanks_nil

theorem parse_of_fits {r : Report} (h : r.Fits) : parse r.toJson = .ok r :=
  parse_of_document (document_toJson h)
    (Nat.le_trans r.depth_toValue (by decide)) r.denotes_toValue

/-- A report that fits is read back from its document as it is, with its records
in their order; written again it gives the same document; and no other report
has this document. -/
theorem parse_toJson {r : Report} (h : r.Fits) :
    parse r.toJson = .ok r
      ∧ (parse r.toJson).map toJson = .ok r.toJson
      ∧ ∀ r' : Report, r'.Fits → r'.toJson = r.toJson → r' = r := by
  have hparse := parse_of_fits h
  refine ⟨hparse, ?_, ?_⟩
  · rw [hparse]
    rfl
  · intro r' h' heq
    have hparse' := parse_of_fits h'
    rw [heq, hparse] at hparse'
    exact (Except.ok.inj hparse').symm

/-- A quote, a backslash, a control and a character of four octets, with the last
size there is. -/
theorem parse_toJson_quoted :
    let r : Report := .success "\"agent\"" 1
      ⟨[("C:\\\n", ⟨true, 18446744073709551615, "\x07😀"⟩)], by simp⟩
    r.Fits ∧ parse r.toJson = .ok r := by
  intro r
  have hfits : r.Fits := by
    refine ⟨by decide, ?_⟩
    intro entry hentry
    rw [List.mem_singleton.1 hentry]
    show (18446744073709551615 : Nat) < 2 ^ 64
    decide
  exact ⟨hfits, (parse_toJson hfits).1⟩

end Report

end Dossier
