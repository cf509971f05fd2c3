/-
The document of a report tells the order of its records.

A literal says itself where it ends (`literal_append_inj`), so a list of keys
with what belongs to each behind it can be read off its text, as long as
the same key has the same behind it wherever it stands. Nothing has to be
known of what is behind, a number of any size included. Reports that agree
on every key are such texts in a frame that depends on their number alone,
so their documents are the same iff their records come in one order.
-/
import Dossier.Proofs.Catalog.Agreement
import Dossier.Proofs.Json.Writing
import Dossier.Report.Document

namespace Dossier

-- ==================================================================== keys

namespace Json

/-- A literal ends where it ends, so texts that begin with literals and are the
same have the same literal and the same rest. -/
theorem literal_append_inj {key key' : String} {rest rest' : List Char}
    (h : literal key ++ rest = literal key' ++ rest') :
    key = key' ∧ rest = rest' := by
  have hread : ∀ (key : String) (rest : List Char),
      restOfLiteral.run ((literal key ++ rest).tail) = .ok (key, rest) := by
    intro key rest
    exact restOfLiteral_run_append (literal_literal key) rest
  have hread' := hread key' rest'
  rw [← h, hread] at hread'
  cases hread'
  exact ⟨rfl, rfl⟩

/-- With a separator in front as well, each item has one before it. -/
theorem cons_intercalate_map {α β : Type} (separator : α) (write : β → List α)
    {items : List β} (h : items ≠ []) :
    separator :: [separator].intercalate (items.map write)
      = items.flatMap fun item => separator :: write item := by
  induction items with
  | nil => exact absurd rfl h
  | cons item items ih =>
      cases items with
      | nil => simp
      | cons item' items =>
          have hrest := ih (List.cons_ne_nil _ _)
          rw [List.map_cons] at hrest
          rw [List.map_cons, List.map_cons, List.intercalate_cons_cons,
            List.flatMap_cons, ← hrest, List.append_assoc]
          rfl

section Keyed

variable (lead : List Char) (behind : String → List Char)
  {keys keys' : List String}

/-- Keys that have the same behind them wherever they stand can be read off
their text when their number is known. -/
theorem keys_eq_of_flatMap (hlength : keys.length = keys'.length)
    {rest rest' : List Char}
    (h : (keys.flatMap fun k => lead ++ (literal k ++ behind k)) ++ rest
      = (keys'.flatMap fun k => lead ++ (literal k ++ behind k)) ++ rest') :
    keys = keys' := by
  induction keys generalizing keys' with
  | nil => exact (List.length_eq_zero_iff.1 hlength.symm).symm
  | cons key keys ih =>
      cases keys' with
      | nil => cases hlength
      | cons key' keys' =>
          simp only [List.flatMap_cons, List.append_assoc,
            List.append_cancel_left_eq] at h
          obtain ⟨rfl, hbehind⟩ := literal_append_inj h
          rw [ih (Nat.succ.inj hlength) (List.append_cancel_left hbehind)]

theorem keys_eq_of_intercalate (hlength : keys.length = keys'.length)
    (h : [','].intercalate (keys.map fun k => lead ++ (literal k ++ behind k))
      = [','].intercalate
          (keys'.map fun k => lead ++ (literal k ++ behind k))) :
    keys = keys' := by
  by_cases hne : keys = []
  · subst hne
    exact (List.length_eq_zero_iff.1 hlength.symm).symm
  · have hne' : keys' ≠ [] := by
      intro heq
      rw [heq] at hlength
      exact hne (List.length_eq_zero_iff.1 hlength)
    have hmarked := congrArg (List.cons ',') h
    rw [cons_intercalate_map ',' _ hne, cons_intercalate_map ',' _ hne']
      at hmarked
    refine keys_eq_of_flatMap (',' :: lead) behind hlength (?_ : _ ++ [] = _ ++ [])
    rw [List.append_nil, List.append_nil]
    exact hmarked

end Keyed

end Json

-- ================================================================= reports

namespace Report

open Json

/-- The records of a catalog as the members of an object. -/
def members (results : Catalog Record) : List (String × Value) :=
  results.entries.map fun entry => (entry.1, entry.2.toValue)

/-- Around the records stands what their number alone decides. -/
theorem exists_frame : ∃ front behind : Nat → List Char,
    ∀ results : Catalog Record, results.entries ≠ [] →
      (ofResults results).document
        = front results.size
          ++ (prettyMembers 2 (members results) ++ behind results.size) := by
  refine ⟨fun count => '\x7b' :: prettyMembers 1
      [(statusKey, .text Status.success.word),
        (Field.agent.key, .text agentName),
        (Field.count.key, .number (.integer count))]
      ++ ',' :: (newLine 1 ++ (literal Field.results.key ++ [':', ' ', '\x7b'])),
    fun _ => newLine 1 ++ ('\x7d' :: (newLine 0 ++ ['\x7d'])), ?_⟩
  intro results hne
  obtain ⟨⟨key, r⟩, entries, hentries⟩ := List.exists_cons_of_ne_nil hne
  simp only [document, ofResults, toValue, members, hentries, List.map_cons,
    Value.pretty, prettyMembers, List.append_assoc, List.cons_append,
    List.nil_append]

/-- What stands behind a key in the document of the records. -/
def behindKey (results : Catalog Record) (key : String) : List Char :=
  match results.get? key with
  | some r => ':' :: ' ' :: r.toValue.pretty 2
  | none => []

/-- The records are written key by key. -/
theorem prettyMembers_members (results : Catalog Record) :
    prettyMembers 2 (members results) = [','].intercalate
      (results.keys.map fun key =>
        newLine 2 ++ (literal key ++ behindKey results key)) := by
  rw [prettyMembers_eq_intercalate, members, Catalog.keys, List.map_map,
    List.map_map]
  congr 1
  refine List.map_congr_left fun entry hentry => ?_
  have hget : results.get? entry.1 = some entry.2 :=
    Catalog.get?_eq_some_iff.2 hentry
  show newLine 2 ++ (literal entry.1 ++ ':' :: ' ' :: entry.2.toValue.pretty 2)
    = newLine 2 ++ (literal entry.1 ++ behindKey results entry.1)
  rw [behindKey, hget]

/-- Records that are the same under every key have the same document iff they
come in the same order. -/
theorem toJson_ofResults_eq_iff {a b : Catalog Record}
    (h : ∀ key, a.get? key = b.get? key) :
    (ofResults a).toJson = (ofResults b).toJson ↔ a.keys = b.keys := by
  have hsize : a.size = b.size :=
    (Catalog.agrees_iff.1 (Catalog.agrees_iff_get?_eq.2 h)).1
  have hlength : a.keys.length = b.keys.length := by
    rw [← Catalog.size_eq_length_keys, ← Catalog.size_eq_length_keys, hsize]
  constructor
  · intro hjson
    by_cases hne : a.entries = []
    · have hkeys : a.keys = [] := by rw [Catalog.keys, hne, List.map_nil]
      rw [hkeys] at hlength ⊢
      exact (List.length_eq_zero_iff.1 hlength.symm).symm
    · have hne' : b.entries ≠ [] := by
        intro heq
        refine hne (List.length_eq_zero_iff.1 (hsize.trans ?_))
        rw [Catalog.size, heq, List.length_nil]
      obtain ⟨front, behind, hframe⟩ := exists_frame
      have hdocument := String.ofList_inj.1 hjson
      rw [hframe a hne, hframe b hne', hsize, List.append_cancel_left_eq,
        List.append_cancel_right_eq, prettyMembers_members,
        prettyMembers_members] at hdocument
      have hbehind : behindKey a = behindKey b := by
        funext key
        rw [behindKey, behindKey, h]
      rw [hbehind] at hdocument
      exact keys_eq_of_intercalate _ _ hlength hdocument
  · intro hkeys
    rw [Catalog.ext_get? hkeys h]

end Report

end Dossier
