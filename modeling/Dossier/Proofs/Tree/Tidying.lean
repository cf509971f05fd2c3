/-
Tidying never loses a file.

What a path reaches in a tree, its tidied spelling reaches as well: the
pieces of the tidied path are those of the path without idle ones, so the
walk is the same but for checks that are not made (`Walks.thins`), and what
the lookup asks of the octets, that they be there, be few and hold no zero,
holds of fewer octets too.

A record depends on the path through the lookup and through the words for a
failed read, which name the path. So the record under the tidied path is the
one of the path as it was given, up to its spelling in these words.
-/
import Dossier.Proofs.Path.Tidy
import Dossier.Proofs.Report.Batch
import Dossier.Proofs.Tree.Walk
import Dossier.Tree.World

namespace Dossier

-- =================================================================== lookups

namespace Tree

open Dossier.Path (isIdle)

theorem find?_eq_some_iff {t : Tree} {here place : Location} {p : Path} :
    t.find? here p = some place
      ↔ p.bytes ≠ [] ∧ p.bytes.length < pathLimit ∧ 0 ∉ p.bytes
        ∧ Walks t linkLimit (start here p) p.pieces place := by
  unfold find?
  rw [← walk_eq_some_iff]
  split
  · next h =>
    simp only [Bool.or_eq_true, List.isEmpty_iff, decide_eq_true_eq,
      List.contains_iff_mem] at h
    constructor
    · intro hnone
      cases hnone
    · rintro ⟨hne, hlength, hzero, -⟩
      rcases h with (h | h) | h
      · exact absurd h hne
      · omega
      · exact absurd h hzero
  · next h =>
    simp only [Bool.or_eq_true, List.isEmpty_iff, decide_eq_true_eq,
      List.contains_iff_mem, not_or, Nat.not_le] at h
    exact ⟨fun hwalk => ⟨h.1.1, h.1.2, h.2, hwalk⟩, fun hall => hall.2.2.2⟩

/-- Tidying leaves idle pieces out. -/
theorem thins_pieces_tidy (p : Path) : Thins p.pieces p.tidy.pieces := by
  have hidle : ∀ {names : List Name}, names.filter (!isIdle ·) = [] →
      ∀ name ∈ names, isIdle name = true := by
    intro names hnil name hname
    simpa using List.filter_eq_nil_iff.1 hnil name hname
  rw [Path.pieces_tidy]
  cases habsolute : p.isAbsolute with
  | true =>
      obtain ⟨rest, rfl⟩ := Path.exists_of_isAbsolute habsolute
      rw [Path.segments_slash_cons, Path.pieces, Text.cut_separator, if_pos rfl,
        if_pos rfl, List.singleton_append]
      refine .keep [] ?_
      split
      · next hnil =>
        exact thins_singleton (Text.cut_ne_nil _ _) (hidle hnil) rfl
      · exact thins_filter _
  | false =>
      rw [if_neg Bool.false_ne_true, if_neg Bool.false_ne_true,
        List.nil_append]
      split
      · next hnil =>
        exact thins_singleton (Text.cut_ne_nil _ _) (hidle hnil) (by decide)
      · exact thins_filter _

theorem start_tidy (here : Location) (p : Path) :
    start here p.tidy = start here p := by
  unfold start
  rw [Path.isAbsolute_tidy]

/-- What a path reaches, the tidied path reaches. -/
theorem find?_tidy {t : Tree} {here place : Location} {p : Path}
    (h : t.find? here p = some place) : t.find? here p.tidy = some place := by
  obtain ⟨hne, hlength, hzero, hwalks⟩ := find?_eq_some_iff.1 h
  have hsublist := Path.tidy_sublist hne
  refine find?_eq_some_iff.2 ⟨p.tidy_ne_nil, ?_, ?_, ?_⟩
  · exact Nat.lt_of_le_of_lt hsublist.length_le hlength
  · exact fun hmem => hzero (hsublist.mem hmem)
  · rw [start_tidy]
    exact hwalks.thins (thins_pieces_tidy p)

/-- A look that meets something meets the same at the tidied path. -/
theorem look_tidy {t : Tree} {here : Location} {p : Path}
    (h : t.look here p ≠ .missing) : t.look here p.tidy = t.look here p := by
  cases hfind : t.find? here p with
  | none =>
      refine absurd ?_ h
      rw [look, hfind]
      rfl
  | some place => rw [look, look, hfind, find?_tidy hfind]

end Tree

-- =================================================================== records

namespace World

/-- Two paths at which a look meets the same have the same record, or each has
the words for one failed read with its own spelling. -/
theorem probe_of_look_eq {w : World} {p q : Path} (h : w.look q = w.look p) :
    w.probe q = w.probe p
      ∨ ∃ size cause, w.probe p = Record.unreadable size ⟨p, cause⟩
          ∧ w.probe q = Record.unreadable size ⟨q, cause⟩ := by
  unfold probe finding
  rw [h]
  cases w.look p with
  | missing => exact Or.inl rfl
  | unreadable size cause => exact Or.inr ⟨size, cause, rfl, rfl⟩
  | data bytes =>
      cases htext : Utf8.toString? bytes with
      | some content =>
          left
          simp only [Finding.ofSighting, htext, Finding.record]
      | none =>
          right
          refine ⟨bytes.length, .notText, ?_, ?_⟩
          · simp only [Finding.ofSighting, htext, Finding.record]
          · simp only [Finding.ofSighting, htext, Finding.record]

/-- Whatever a look meets is recorded as being there. -/
theorem probe_present {w : World} {p : Path} (h : w.look p ≠ .missing) :
    (w.probe p).present = true := by
  unfold probe finding
  cases hlook : w.look p with
  | missing => exact absurd hlook h
  | unreadable size cause => rfl
  | data bytes =>
      cases htext : Utf8.toString? bytes with
      | some content => simp only [Finding.ofSighting, htext, Finding.record]
      | none =>
          simp only [Finding.ofSighting, htext, Finding.record,
            Record.unreadable]

end World

-- ================================================================== every path

namespace Tree

open Collector (key)

/-- Tidying never loses a file. In every tree, from every directory of it, what the
lookup of a path reaches is what the lookup of the tidied path reaches. So a
request is recorded as what is found at the path that it was expanded to, before
tidying: with the same record, or with the same failure of which the words name
the tidied path. If anything is there, it is never recorded as not found, neither
by one more add to any collector, nor by itself, nor in a batch, where the record
stays unless a later path with the same key takes its place. -/
theorem tidy_loses_nothing (t : Tree) (here : Location) :
    (∀ (p : Path) (place : Location),
        t.find? here p = some place → t.find? here p.tidy = some place)
      ∧ ∀ (environment : Environment) (raw : String),
          let w := World.ofTree environment t here
          let p := environment.expansion (Utf8.ofString raw)
          let r := w.probe (w.resolve raw)
          w.look p ≠ .missing →
            (r = w.probe p
              ∨ ∃ size cause, w.probe p = Record.unreadable size ⟨p, cause⟩
                  ∧ r = Record.unreadable size ⟨w.resolve raw, cause⟩)
            ∧ r.present = true ∧ r ≠ Record.absent
            ∧ (∀ c : Collector, (c.add w raw).results.get? (key w raw) = some r)
            ∧ (∃ results : Catalog Record,
                Report.ofPaths w [raw] = .success Report.agentName 1 results
                  ∧ results.entries = [(key w raw, r)])
            ∧ ∀ before after : List String,
                (∀ other ∈ after, key w other = key w raw →
                  w.resolve other = w.resolve raw) →
                ∃ results : Catalog Record,
                  Report.ofPaths w (before ++ raw :: after)
                      = .success Report.agentName results.size results
                    ∧ results.get? (key w raw) = some r := by
  refine ⟨fun p place h => find?_tidy h, ?_⟩
  intro environment raw w p r hthere
  -- both are looked at in one tree, and the request stands for the tidied path
  have hlook : w.look (w.resolve raw) = w.look p := look_tidy hthere
  have hpresent : r.present = true := by
    refine World.probe_present ?_
    rw [hlook]
    exact hthere
  refine ⟨World.probe_of_look_eq hlook, hpresent, ?_, ?_, ?_, ?_⟩
  · intro heq
    rw [heq] at hpresent
    cases hpresent
  · intro c
    rw [Collector.get?_add, if_pos rfl]
  · exact ⟨Report.recordsOf w [raw],
      Report.ofPaths_of_ne_nil w (List.cons_ne_nil _ _),
      Report.entries_recordsOf_singleton w raw⟩
  · intro before after hsole
    refine ⟨Report.recordsOf w (before ++ raw :: after), ?_,
      Report.get?_recordsOf_append hsole⟩
    exact Report.ofPaths_of_ne_nil w
      (List.append_ne_nil_of_right_ne_nil before (List.cons_ne_nil _ _))

/-- A file in a directory, a link to that directory, and a roundabout path through
the link, which leads to the file as its tidied spelling does. The link by itself
is read as a directory, whichever way it is written. -/
theorem tidy_loses_nothing_link :
    let t : Tree := ⟨[([[0x64]], .directory), ([[0x66], [0x64]], .file [0x61]),
      ([[0x6C]], .link (Utf8.ofString "d//"))]⟩
    let p : Path := ⟨Utf8.ofString "./l//.././d/./f"⟩
    let w := World.ofTree ⟨none, none, Accounts.empty⟩ t []
    (t.find? [] p = some [[0x66], [0x64]]
        ∧ t.find? [] p.tidy = some [[0x66], [0x64]])
      ∧ w.look ⟨Utf8.ofString "./l/"⟩ ≠ .missing
      ∧ (Collector.empty.add w "./l/").results.get? (key w "./l/")
          = some (w.probe (w.resolve "./l/"))
      ∧ (w.probe (w.resolve "./l/")).content
          = "ERROR reading l: Is a directory (os error 21)" := by
  intro t p w
  have hfind : t.find? [] p = some [[0x66], [0x64]] := by decide +kernel
  have hthere : w.look ⟨Utf8.ofString "./l/"⟩ ≠ .missing := by decide +kernel
  obtain ⟨hlookup, hrecord⟩ := tidy_loses_nothing t []
  obtain ⟨-, -, -, hadd, -⟩ := hrecord ⟨none, none, Accounts.empty⟩ "./l/" hthere
  exact ⟨⟨hfind, hlookup p _ hfind⟩, hthere, hadd Collector.empty,
    by decide +kernel⟩

end Tree

end Dossier
