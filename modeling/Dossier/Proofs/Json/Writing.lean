/-
Both written forms of a value are forms of it in the sense of the grammar.

A literal is a spelling of every character by itself, a natural number is a
numeral without a needless zero, and what stands between brackets is a list
of items with commas between them. The two forms differ in blanks alone, so
one lemma about items (`items_intercalate`) serves the elements and the
members of both.

Numbers with a fraction or an exponent are left out: a magnitude is written
by its shortest digits, and the reader need not come back to it. A value is
exact when it holds no such number and no integer beyond 64 bits.
-/
import Dossier.Proofs.Json.Value

namespace Dossier.Json

-- ================================================================ literals

theorem hexValue?_digitChar : ∀ n < 16, hexValue? (Nat.digitChar n) = some n := by
  decide

/-- A control character is written with its code. -/
theorem spelling_control {c : Char} (h : c.toNat < 0x20) :
    Spelling ['\\', 'u', '0', '0', Nat.digitChar (c.toNat / 16),
      Nat.digitChar (c.toNat % 16)] c := by
  have hhigh : c.toNat / 16 < 16 := by omega
  have hlow : c.toNat % 16 < 16 := by omega
  have hzero : hexValue? '0' = some 0 := by decide
  have hcode : Code ['0', '0', Nat.digitChar (c.toNat / 16),
      Nat.digitChar (c.toNat % 16)] c.toNat := by
    refine .mk ?_
    have hsum : c.toNat / 16 * 16 + c.toNat % 16 = c.toNat := by omega
    simp [hexValue4?, hzero, hexValue?_digitChar _ hhigh,
      hexValue?_digitChar _ hlow, hsum]
  have hspelling : Spelling ('\\' :: 'u' :: ['0', '0',
      Nat.digitChar (c.toNat / 16), Nat.digitChar (c.toNat % 16)])
      (Char.ofNat c.toNat) := by
    refine .code hcode ?_ ?_
    · simp only [isHighSurrogate, Bool.and_eq_false_iff, decide_eq_false_iff_not]
      omega
    · simp only [isLowSurrogate, Bool.and_eq_false_iff, decide_eq_false_iff_not]
      omega
  rw [Char.ofNat_toNat] at hspelling
  exact hspelling

/-- Escaped or not, a character inside a literal is spelled. -/
theorem spelling_escape (c : Char) : Spelling (escape c) c := by
  unfold escape
  by_cases hquote : c = '"'
  · rw [if_pos hquote, hquote]
    exact .letter (by decide)
  by_cases hbackslash : c = '\\'
  · rw [if_neg hquote, if_pos hbackslash, hbackslash]
    exact .letter (by decide)
  rw [if_neg hquote, if_neg hbackslash]
  split
  · next h => exact h ▸ .letter (by decide)
  split
  · next h => exact h ▸ .letter (by decide)
  split
  · next h => exact h ▸ .letter (by decide)
  split
  · next h => exact h ▸ .letter (by decide)
  split
  · next h => exact h ▸ .letter (by decide)
  by_cases hcontrol : c.toNat < 0x20
  · rw [if_pos hcontrol]
    exact spelling_control hcontrol
  · rw [if_neg hcontrol]
    exact .plain hquote hbackslash (Nat.le_of_not_lt hcontrol)

theorem spellings_flatMap_escape (cs : List Char) :
    Spellings (cs.flatMap escape) cs := by
  induction cs with
  | nil => exact .nil
  | cons c cs ih =>
      rw [List.flatMap_cons]
      exact .cons (spelling_escape c) ih

/-- The literal of a text is read as that text. -/
theorem literal_literal (s : String) : Literal (literal s) s := by
  have h := Literal.mk (spellings_flatMap_escape s.toList)
  rw [String.ofList_toList] at h
  exact h

-- ================================================================ integers

/-- The digits of a number other than zero do not start with one. -/
theorem exists_toDigits_eq_cons {n : Nat} (h : 0 < n) :
    ∃ d digits, Nat.toDigits 10 n = d :: digits ∧ d ≠ '0' := by
  -- the last digit goes to the end, so the first one is that of `n / 10`
  induction n using Nat.strongRecOn with
  | ind n ih =>
      by_cases hn : n < 10
      · refine ⟨n.digitChar, [], Nat.toDigits_of_lt_base hn, ?_⟩
        have hdigit : ∀ m < 10, 0 < m → Nat.digitChar m ≠ '0' := by decide
        exact hdigit n hn h
      · have hdiv : 0 < n / 10 := by omega
        obtain ⟨d, digits, hdigits, hd⟩ := ih (n / 10) (by omega) hdiv
        refine ⟨d, digits ++ [Nat.digitChar (n % 10)], ?_, hd⟩
        rw [Nat.toDigits_of_base_le (by decide) (by omega), hdigits]
        rfl

theorem isDigit_of_mem_toDigits {n : Nat} {c : Char}
    (h : c ∈ Nat.toDigits 10 n) : c.isDigit = true :=
  Nat.isDigit_of_mem_toDigits (by decide) (by decide) h

theorem whole_toDigits (n : Nat) : Numeral.Whole (Nat.toDigits 10 n) := by
  by_cases hn : n = 0
  · rw [hn, Nat.toDigits_zero]
    exact .zero
  · have hpos : 0 < n := by omega
    obtain ⟨d, digits, hdigits, hd⟩ := exists_toDigits_eq_cons hpos
    have hall : ∀ c ∈ d :: digits, c.isDigit = true := by
      intro c hc
      rw [← hdigits] at hc
      exact isDigit_of_mem_toDigits hc
    rw [hdigits]
    rw [List.forall_mem_cons] at hall
    exact .digits hall.1 hd hall.2

theorem digitsValue_toDigits (n : Nat) : digitsValue (Nat.toDigits 10 n) = n := by
  rw [digitsValue_eq_ofDigitChars, Nat.ofDigitChars_ten_toDigits]

/-- An integer of 64 bits, with a sign or without, is read as itself. -/
theorem spells_integer {n : Int} (hlow : -2 ^ 63 ≤ n) (hhigh : n < 2 ^ 64) :
    Spells (Number.integerText n) (.number (.integer n)) := by
  have hvalue := digitsValue_toDigits n.natAbs
  unfold Number.integerText
  by_cases hn : n < 0
  · rw [if_pos hn]
    have hwritten : Numeral.Written ('-' :: Nat.toDigits 10 n.natAbs)
        ⟨true, Nat.toDigits 10 n.natAbs, [], none⟩ :=
      Numeral.written_plain_iff.2 ⟨whole_toDigits _, rfl⟩
    have hstands := Numeral.Stands.negative
      (n := ⟨true, Nat.toDigits 10 n.natAbs, [], none⟩) ⟨rfl, rfl⟩ rfl
      (by simp only [hvalue]; omega) (by simp only [hvalue]; omega)
    have hneg : (-(digitsValue (Nat.toDigits 10 n.natAbs) : Int)) = n := by
      rw [hvalue]
      omega
    dsimp only at hstands
    rw [hneg] at hstands
    exact .number hwritten hstands
  · have hnatural : n = n.natAbs := by omega
    have hfits : n.natAbs < wordLimit := by
      unfold wordLimit
      omega
    have hspells := spells_natural_iff.2 ⟨whole_toDigits n.natAbs, hvalue, hfits⟩
    rw [← hnatural] at hspells
    rw [if_neg hn]
    exact hspells

-- ================================================================ brackets

section Brackets

variable {α : Type} {item : List Char → α → Prop} {write : α → List Char}

/-- Behind the first of several items come the commas with the others. -/
theorem exists_more_intercalate (v : α) {values : List α}
    (h : ∀ w ∈ values, item (write w) w) :
    ∃ more, [','].intercalate ((v :: values).map write) = write v ++ more
      ∧ More item more values := by
  induction values generalizing v with
  | nil =>
      refine ⟨[], ?_, .nil blanks_nil⟩
      rw [List.map_singleton, List.intercalate_singleton, List.append_nil]
  | cons w values ih =>
      rw [List.forall_mem_cons] at h
      obtain ⟨more, hmore, hvalues⟩ := ih w h.2
      rw [List.map_cons] at hmore
      refine ⟨[] ++ ',' :: (write w ++ more), ?_, .cons blanks_nil h.1 hvalues⟩
      rw [List.map_cons, List.map_cons, List.intercalate_cons_cons, hmore,
        List.append_assoc]
      rfl

/-- Items with commas between them are what stands between brackets. -/
theorem items_intercalate {values : List α}
    (h : ∀ w ∈ values, item (write w) w) :
    Items item ([','].intercalate (values.map write)) values := by
  cases values with
  | nil => exact .nil blanks_nil
  | cons v values =>
      rw [List.forall_mem_cons] at h
      obtain ⟨more, hmore, hvalues⟩ := exists_more_intercalate v h.2
      rw [hmore]
      exact .cons h.1 hvalues

theorem More.append_blanks {text blanks : List Char} {values : List α}
    (h : More item text values) (hblanks : Blanks blanks) :
    More item (text ++ blanks) values := by
  induction h with
  | nil hblanks' => exact .nil (hblanks'.append hblanks)
  | cons hblanks' hitem hs ih =>
      rw [List.append_assoc, List.cons_append, List.append_assoc]
      exact .cons hblanks' hitem ih

/-- Blanks may stand before the bracket that closes. -/
theorem Items.append_blanks {text blanks : List Char} {values : List α}
    (h : Items item text values) (hblanks : Blanks blanks) :
    Items item (text ++ blanks) values := by
  cases h with
  | nil hblanks' => exact .nil (hblanks'.append hblanks)
  | cons hitem hs =>
      rw [List.append_assoc]
      exact .cons hitem (hs.append_blanks hblanks)

end Brackets

/-- What writes items one after the other with commas writes them so. -/
theorem eq_intercalate {α : Type} {join : List α → List Char}
    {write : α → List Char} (hnil : join [] = [])
    (hone : ∀ v, join [v] = write v)
    (hmore : ∀ v w values,
      join (v :: w :: values) = write v ++ ',' :: join (w :: values))
    (values : List α) : join values = [','].intercalate (values.map write) := by
  induction values with
  | nil => exact hnil
  | cons v values ih =>
      cases values with
      | nil => rw [hone, List.map_singleton, List.intercalate_singleton]
      | cons w values =>
          rw [List.map_cons] at ih
          rw [hmore, ih, List.map_cons, List.map_cons,
            List.intercalate_cons_cons, List.append_assoc]
          rfl

theorem compactItems_eq_intercalate (items : List Value) :
    compactItems items = [','].intercalate (items.map Value.compact) :=
  eq_intercalate rfl (fun _ => by rw [compactItems]) (fun _ _ _ => by
    rw [compactItems]
    exact List.cons_ne_nil _ _) items

theorem compactMembers_eq_intercalate (members : List (String × Value)) :
    compactMembers members = [','].intercalate
      (members.map fun m => literal m.1 ++ ':' :: m.2.compact) :=
  eq_intercalate rfl (fun _ => by rw [compactMembers]) (fun _ _ _ => by
    rw [compactMembers, List.append_assoc, List.cons_append]
    exact List.cons_ne_nil _ _) members

theorem prettyItems_eq_intercalate (depth : Nat) (items : List Value) :
    prettyItems depth items = [','].intercalate
      (items.map fun v => newLine depth ++ v.pretty depth) :=
  eq_intercalate rfl (fun _ => by rw [prettyItems]) (fun _ _ _ => by
    rw [prettyItems, List.append_assoc]
    exact List.cons_ne_nil _ _) items

theorem prettyMembers_eq_intercalate (depth : Nat)
    (members : List (String × Value)) :
    prettyMembers depth members = [','].intercalate (members.map fun m =>
      newLine depth ++ (literal m.1 ++ ':' :: ' ' :: m.2.pretty depth)) :=
  eq_intercalate rfl (fun _ => by rw [prettyMembers]) (fun _ _ _ => by
    rw [prettyMembers, List.append_assoc, List.append_assoc, List.cons_append,
      List.cons_append]
    exact List.cons_ne_nil _ _) members

-- ================================================================== values

/-- All numbers of the value are integers of 64 bits, with a sign or without. -/
inductive Value.Exact : Value → Prop
  | null : Exact .null
  | boolean (value : Bool) : Exact (.boolean value)
  | integer {n : Int} (hlow : -2 ^ 63 ≤ n) (hhigh : n < 2 ^ 64) :
      Exact (.number (.integer n))
  | text (value : String) : Exact (.text value)
  | array {items : List Value} (h : ∀ item ∈ items, Exact item) :
      Exact (.array items)
  | object {members : List (String × Value)} (h : ∀ m ∈ members, Exact m.2) :
      Exact (.object members)

/-- The form on one line. -/
theorem spells_compact {v : Value} (h : v.Exact) : Spells v.compact v := by
  induction h with
  | null => exact .null
  | boolean value => exact .boolean value
  | integer hlow hhigh => exact spells_integer hlow hhigh
  | text value => exact .text (literal_literal value)
  | array h ih =>
      rw [Value.compact, compactItems_eq_intercalate]
      exact .array (items_intercalate fun v hv => .of_form (ih v hv))
  | object h ih =>
      rw [Value.compact, compactMembers_eq_intercalate]
      refine .object (items_intercalate fun m hm => .of_form ?_)
      exact .mk (literal_literal m.1) (.mk blanks_nil (.of_form (ih m hm)))

theorem blanks_newLine (depth : Nat) : Blanks (newLine depth) := by
  intro c hc
  rcases List.mem_cons.1 hc with rfl | hc
  · decide
  · rw [List.eq_of_mem_replicate hc]
    decide

/-- The form on several lines, however deep it stands. -/
theorem spells_pretty {v : Value} (h : v.Exact) (depth : Nat) :
    Spells (v.pretty depth) v := by
  induction h generalizing depth with
  | null => exact .null
  | boolean value => exact .boolean value
  | integer hlow hhigh => exact spells_integer hlow hhigh
  | text value => exact .text (literal_literal value)
  | @array items h ih =>
      cases items with
      | nil => exact .array (.nil blanks_nil)
      | cons item items =>
          rw [Value.pretty, prettyItems_eq_intercalate, List.append_assoc,
            List.cons_append, ← List.append_assoc]
          refine .array ((items_intercalate fun v hv => ?_).append_blanks
            (blanks_newLine depth))
          exact .mk (blanks_newLine _) (ih v hv _)
  | @object members h ih =>
      cases members with
      | nil => exact .object (.nil blanks_nil)
      | cons member members =>
          rw [Value.pretty, prettyMembers_eq_intercalate, List.append_assoc,
            List.cons_append, ← List.append_assoc]
          refine .object ((items_intercalate fun m hm => ?_).append_blanks
            (blanks_newLine depth))
          have hspace : Blanks [' '] := by
            intro c hc
            rw [List.mem_singleton.1 hc]
            decide
          refine .mk (blanks_newLine _) (.mk (literal_literal m.1) ?_)
          exact .mk blanks_nil (.mk hspace (ih m hm _))

end Dossier.Json
