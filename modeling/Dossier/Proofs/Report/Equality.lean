/-
Reports agree iff they differ in nothing but the order of their records, and
that order is what their documents show besides.

`Rearranges` relates two reports whose records are a permutation of one another.
`agrees` decides it (`agrees_iff_rearranges`), though it looks for the entries
of the first report in the second only, and so it is an equivalence.

A report can be read off its line. A literal says itself where it ends, digits
end at the mark behind them, and behind each part the same text goes on; so
what is read there and what is left are the same on both sides (`line_inj`).
Numbers may have any length: the reader of documents, which has 64 bits for
them, plays no part.
-/
import Dossier.Proofs.Report.Layout
import Dossier.Proofs.Report.Order

namespace Dossier

-- =================================================================== parts

namespace Json

/-- Digits end at what is no digit, so the number and the rest can be read off. -/
theorem digits_append_inj {n m : Nat} {rest rest' : List Char} (hrest : NoDigit rest)
    (hrest' : NoDigit rest')
    (h : Nat.toDigits 10 n ++ rest = Nat.toDigits 10 m ++ rest') :
    n = m ∧ rest = rest' := by
  have hdigits : ∀ n, ∀ c ∈ Nat.toDigits 10 n, c.isDigit = true :=
    fun n c hc => isDigit_of_mem_toDigits hc
  obtain ⟨hleading, hafter⟩ := leadingDigits_append (hdigits n) hrest
  obtain ⟨hleading', hafter'⟩ := leadingDigits_append (hdigits m) hrest'
  rw [h] at hleading hafter
  constructor
  · rw [← digitsValue_toDigits n, ← hleading, hleading', digitsValue_toDigits]
  · rw [← hafter, hafter']

theorem booleanText_append_inj {a b : Bool} {rest rest' : List Char}
    (h : booleanText a ++ rest = booleanText b ++ rest') : a = b ∧ rest = rest' := by
  have hword : ∀ a b, (booleanText a).head? = (booleanText b).head? → a = b := by decide
  have hne : ∀ a, booleanText a ≠ [] := by decide
  have hab : a = b := by
    apply hword a b
    rw [← List.head?_append_of_ne_nil _ (hne a), h, List.head?_append_of_ne_nil _ (hne b)]
  subst hab
  exact ⟨rfl, List.append_cancel_left h⟩

theorem keyed_append (key : String) (text rest : List Char) :
    keyed key text ++ rest = literal key ++ ':' :: (text ++ rest) := by
  rw [keyed, List.append_assoc, List.cons_append]

/-- Under one key the texts are left to compare, with what follows them. -/
theorem keyed_append_inj {key : String} {text text' rest rest' : List Char}
    (h : keyed key text ++ rest = keyed key text' ++ rest') :
    text ++ rest = text' ++ rest' := by
  rw [keyed_append, keyed_append] at h
  exact (List.cons.inj (List.append_cancel_left h)).2

/-- Behind the first of several members each has a comma before it. -/
theorem braced_cons_append (member : List Char) (members : List (List Char))
    (rest : List Char) :
    braced (member :: members) ++ rest
      = '\x7b' :: (member ++ (members.flatMap (',' :: ·) ++ '\x7d' :: rest)) := by
  have hmembers : [','].intercalate (member :: members)
      = member ++ members.flatMap (',' :: ·) := by
    induction members generalizing member with
    | nil => simp
    | cons member' members ih =>
        rw [List.intercalate_cons_cons, ih, List.flatMap_cons, List.append_assoc]
        rfl
  rw [braced, hmembers]
  simp

section Members

variable {key : String} {text text' rest rest' : List Char} {members members' : List (List Char)}

/-- First members with one key are left with their texts to compare. -/
theorem braced_keyed_inj
    (h : braced (keyed key text :: members) ++ rest
      = braced (keyed key text' :: members') ++ rest') :
    text ++ (members.flatMap (',' :: ·) ++ '\x7d' :: rest)
      = text' ++ (members'.flatMap (',' :: ·) ++ '\x7d' :: rest') := by
  rw [braced_cons_append, braced_cons_append] at h
  exact keyed_append_inj (List.cons.inj h).2

/-- So are later members. -/
theorem flatMap_keyed_inj
    (h : (keyed key text :: members).flatMap (',' :: ·) ++ rest
      = (keyed key text' :: members').flatMap (',' :: ·) ++ rest') :
    text ++ (members.flatMap (',' :: ·) ++ rest)
      = text' ++ (members'.flatMap (',' :: ·) ++ rest') := by
  rw [List.flatMap_cons, List.flatMap_cons, List.append_assoc, List.append_assoc] at h
  exact keyed_append_inj (List.cons.inj h).2

/-- Another member begins with a comma, which is no digit. -/
theorem noDigit_flatMap (member : List Char) (members : List (List Char))
    (rest : List Char) :
    NoDigit ((member :: members).flatMap (',' :: ·) ++ rest) :=
  noDigit_cons (by decide) _

end Members

section Items

variable {α : Type} {write : α → List Char}
  (hwrite : ∀ {a b : α} {rest rest' : List Char},
    write a ++ rest = write b ++ rest' → a = b ∧ rest = rest')

include hwrite

/-- Items with a comma before each can be read off one by one. -/
theorem flatMap_append_inj {items items' : List α} {rest rest' : List Char}
    (h : (items.map write).flatMap (',' :: ·) ++ '\x7d' :: rest
      = (items'.map write).flatMap (',' :: ·) ++ '\x7d' :: rest') :
    items = items' ∧ rest = rest' := by
  induction items generalizing items' with
  | nil =>
      cases items' with
      | nil => exact ⟨rfl, (List.cons.inj h).2⟩
      | cons item' items' => exact absurd (List.cons.inj h).1 (by decide)
  | cons item items ih =>
      cases items' with
      | nil => exact absurd (List.cons.inj h).1 (by decide)
      | cons item' items' =>
          simp only [List.map_cons, List.flatMap_cons, List.cons_append, List.append_assoc,
            List.cons.injEq, true_and] at h
          obtain ⟨rfl, hitems⟩ := hwrite h
          obtain ⟨rfl, hrest⟩ := ih hitems
          exact ⟨rfl, hrest⟩

/-- Items in braces can be read off if none of them begins with a brace. -/
theorem braced_append_inj (hbrace : ∀ a, ∃ c text, write a = c :: text ∧ c ≠ '\x7d')
    {items items' : List α} {rest rest' : List Char}
    (h : braced (items.map write) ++ rest = braced (items'.map write) ++ rest') :
    items = items' ∧ rest = rest' := by
  have hempty : ∀ {item : α} {items : List α} {rest rest' : List Char},
      braced [] ++ rest ≠ braced ((item :: items).map write) ++ rest' := by
    intro item items rest rest' heq
    obtain ⟨c, text, hitem, hc⟩ := hbrace item
    rw [List.map_cons, braced_cons_append, hitem] at heq
    exact hc (List.cons.inj (List.cons.inj heq).2).1.symm
  cases items with
  | nil =>
      cases items' with
      | nil => exact ⟨rfl, List.append_cancel_left h⟩
      | cons item' items' => exact absurd h hempty
  | cons item items =>
      cases items' with
      | nil => exact absurd h.symm hempty
      | cons item' items' =>
          rw [List.map_cons, List.map_cons, braced_cons_append, braced_cons_append] at h
          obtain ⟨rfl, hitems⟩ := hwrite (List.cons.inj h).2
          obtain ⟨rfl, hrest⟩ := flatMap_append_inj hwrite hitems
          exact ⟨rfl, hrest⟩

end Items

end Json

open Json

-- ================================================================= records

namespace Record

/-- A record can be read off its line, and says where it ends. -/
theorem line_append_inj {r r' : Record} {rest rest' : List Char}
    (h : r.line ++ rest = r'.line ++ rest') : r = r' ∧ rest = rest' := by
  obtain ⟨present, size, content⟩ := r
  obtain ⟨present', size', content'⟩ := r'
  rw [line_eq_braced, line_eq_braced] at h
  obtain ⟨hpresent, hsize⟩ := booleanText_append_inj (braced_keyed_inj h)
  obtain ⟨hsize, hcontent⟩ := digits_append_inj (noDigit_flatMap _ _ _)
    (noDigit_flatMap _ _ _) (flatMap_keyed_inj hsize)
  obtain ⟨hcontent, hend⟩ := literal_append_inj (flatMap_keyed_inj hcontent)
  rw [Record.mk.injEq]
  exact ⟨⟨hpresent, hsize, hcontent⟩, (List.cons.inj hend).2⟩

theorem keyed_line_append_inj {entry entry' : String × Record} {rest rest' : List Char}
    (h : keyed entry.1 entry.2.line ++ rest = keyed entry'.1 entry'.2.line ++ rest') :
    entry = entry' ∧ rest = rest' := by
  rw [keyed_append, keyed_append] at h
  obtain ⟨hkey, h⟩ := literal_append_inj h
  obtain ⟨hrecord, h⟩ := line_append_inj (List.cons.inj h).2
  exact ⟨Prod.ext hkey hrecord, h⟩

end Record

-- ================================================================= reports

namespace Report

/-- The agent, the count and the records can be read off the line of a report. -/
theorem line_inj {agent agent' : String} {count count' : Nat}
    {results results' : Catalog Record}
    (h : line agent count results = line agent' count' results') :
    agent = agent' ∧ count = count' ∧ results = results' := by
  rw [line_eq_braced, line_eq_braced] at h
  obtain ⟨-, hagent⟩ := literal_append_inj (braced_keyed_inj (congrArg (· ++ []) h))
  obtain ⟨hagent, hcount⟩ := literal_append_inj (flatMap_keyed_inj hagent)
  obtain ⟨hcount, hresults⟩ := digits_append_inj (noDigit_flatMap _ _ _)
    (noDigit_flatMap _ _ _) (flatMap_keyed_inj hcount)
  obtain ⟨hentries, -⟩ := braced_append_inj Record.keyed_line_append_inj
    (fun entry => ⟨'"', _, rfl, by decide⟩) (flatMap_keyed_inj hresults)
  refine ⟨hagent, hcount, ?_⟩
  cases results
  cases results'
  cases hentries
  rfl

theorem document_failure_inj {message message' : String}
    (h : (failure message).document = (failure message').document) :
    message = message' := by
  rw [document_failure, document_failure] at h
  obtain ⟨-, hmessage⟩ := literal_append_inj (braced_keyed_inj (congrArg (· ++ []) h))
  exact (literal_append_inj (flatMap_keyed_inj hmessage)).1

/-- A failure stands on one line and a success on several. -/
theorem document_success_ne_failure (agent : String) (count : Nat)
    (results : Catalog Record) (message : String) :
    (success agent count results).document ≠ (failure message).document := by
  intro h
  have hsuccess := (lays_success agent count results).count_eq
  have hfailure := count_newline_eq_zero (no_control_failure message)
  rw [h, hfailure] at hsuccess
  split at hsuccess <;> omega

/-- No two reports have the same document. -/
theorem toJson_inj {a b : Report} (h : a.toJson = b.toJson) : a = b := by
  have hdocument : a.document = b.document := String.ofList_inj.1 h
  cases a with
  | success agent count results =>
      cases b with
      | success agent' count' results' =>
          have hline := (lays_success agent count results).ink_eq
          rw [hdocument, (lays_success agent' count' results').ink_eq] at hline
          obtain ⟨rfl, rfl, rfl⟩ := line_inj hline
          rfl
      | failure message => exact absurd hdocument (document_success_ne_failure _ _ _ _)
  | failure message =>
      cases b with
      | success agent count results =>
          exact absurd hdocument.symm (document_success_ne_failure _ _ _ _)
      | failure message' => rw [document_failure_inj hdocument]

-- =============================================================== agreement

/-- The reports are failures with one message, or successes with the same agent, the
same count and the same records in whatever order. -/
inductive Rearranges : Report → Report → Prop
  | failure (message : String) : Rearranges (.failure message) (.failure message)
  | success (agent : String) (count : Nat) {results results' : Catalog Record}
      (h : results.entries.Perm results'.entries) :
      Rearranges (.success agent count results) (.success agent count results')

theorem agrees_iff_rearranges {a b : Report} : a.agrees b = true ↔ a.Rearranges b := by
  constructor
  · intro h
    cases a with
    | success agent count results =>
        cases b with
        | success agent' count' results' =>
            simp only [agrees, Bool.and_eq_true, beq_iff_eq] at h
            obtain ⟨⟨rfl, rfl⟩, hresults⟩ := h
            exact .success agent count (Catalog.agrees_iff_perm.1 hresults)
        | failure message => cases h
    | failure message =>
        cases b with
        | success agent count results => cases h
        | failure message' =>
            rw [agrees, beq_iff_eq] at h
            rw [h]
            exact .failure message'
  · intro h
    cases h with
    | failure message => exact beq_self_eq_true message
    | success agent count h =>
        simp only [agrees, Bool.and_eq_true, beq_self_eq_true, true_and]
        exact Catalog.agrees_iff_perm.2 h

theorem Rearranges.refl (a : Report) : a.Rearranges a := by
  cases a with
  | success agent count results => exact .success agent count (List.Perm.refl _)
  | failure message => exact .failure message

theorem Rearranges.symm {a b : Report} (h : a.Rearranges b) : b.Rearranges a := by
  cases h with
  | failure message => exact .failure message
  | success agent count h => exact .success agent count h.symm

theorem Rearranges.trans {a b c : Report} (h : a.Rearranges b)
    (h' : b.Rearranges c) : a.Rearranges c := by
  cases h with
  | failure message => exact h'
  | success agent count h =>
      cases h' with
      | success _ _ h' => exact .success agent count (h.trans h')

/-- The keys of the records in their order. -/
def keys : Report → List String
  | .success _ _ results => results.keys
  | .failure _ => []

/-- What is rearranged without moving a key is the same. -/
theorem Rearranges.eq_of_keys {a b : Report} (h : a.Rearranges b)
    (hkeys : a.keys = b.keys) : a = b := by
  cases h with
  | failure message => rfl
  | success agent count h =>
      have hget := Catalog.agrees_iff_get?_eq.1 (Catalog.agrees_iff_perm.2 h)
      rw [Catalog.ext_get? hkeys hget]

/-- Two reports agree iff both are failures with the same message, or both are
successes with the same agent, the same count and the same records, as pairs of
key and record, in whatever order; and this is an equivalence. They have the
same document iff they agree and their keys come in the same order. -/
theorem agrees_equivalence :
    (∀ a b : Report, a.agrees b = true ↔ a.Rearranges b)
      ∧ Equivalence (fun a b : Report => a.agrees b = true)
      ∧ ∀ a b : Report, a.toJson = b.toJson ↔ a.agrees b = true ∧ a.keys = b.keys := by
  have hequivalence : Equivalence Rearranges :=
    ⟨Rearranges.refl, Rearranges.symm, Rearranges.trans⟩
  refine ⟨fun a b => agrees_iff_rearranges, ?_, ?_⟩
  · simpa only [agrees_iff_rearranges] using hequivalence
  · intro a b
    rw [agrees_iff_rearranges]
    constructor
    · intro h
      rw [toJson_inj h]
      exact ⟨Rearranges.refl b, rfl⟩
    · intro h
      rw [h.1.eq_of_keys h.2]

end Report

end Dossier
