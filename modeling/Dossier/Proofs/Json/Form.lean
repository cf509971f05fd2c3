/-
Values by their form alone, apart from what they stand for.

A text can be a value by its form and still be refused by the reader of
values: half a surrogate pair has no character, a numeral may be beyond all
magnitudes, and the brackets may be nested too deep. `Formed` is the grammar
without these limits. What a numeral and a string may be is left to its
parameters, and the depth goes along as a bound, so each of the limits can
be asked for by itself. Strings are looked at code by code (`Codes`), as an
escape gives one code whether or not it is a character.

With all the limits put in, the forms are the written forms of values
(`formed_iff_within`).
-/
import Dossier.Proofs.Json.Value
import Dossier.Proofs.Lists

namespace Dossier.Json

variable {α β γ : Type}

-- ================================================================== codes

/-- What stands inside a literal, and the code of each character and escape. -/
inductive Codes : List Char → List Nat → Prop
  | nil : Codes [] []
  | plain {c : Char} {text : List Char} {codes : List Nat} (hquote : c ≠ '"')
      (hbackslash : c ≠ '\\') (hcontrol : 0x20 ≤ c.toNat)
      (hs : Codes text codes) : Codes (c :: text) (c.toNat :: codes)
  | letter {letter c : Char} {text : List Char} {codes : List Nat}
      (h : simpleEscape? letter = some c) (hs : Codes text codes) :
      Codes ('\\' :: letter :: text) (c.toNat :: codes)
  | code {digits text : List Char} {code : Nat} {codes : List Nat}
      (h : Code digits code) (hs : Codes text codes) :
      Codes ('\\' :: 'u' :: (digits ++ text)) (code :: codes)

/-- Each code of a surrogate has its partner next to it. -/
inductive Paired : List Nat → Prop
  | nil : Paired []
  | single {code : Nat} {codes : List Nat} (hhigh : isHighSurrogate code = false)
      (hlow : isLowSurrogate code = false) (hs : Paired codes) :
      Paired (code :: codes)
  | pair {high low : Nat} {codes : List Nat} (hhigh : isHighSurrogate high = true)
      (hlow : isLowSurrogate low = true) (hs : Paired codes) :
      Paired (high :: low :: codes)

/-- A literal by its form, and its codes. -/
inductive Quoted : List Char → List Nat → Prop
  | mk {text : List Char} {codes : List Nat} (h : Codes text codes) :
      Quoted ('"' :: (text ++ ['"'])) codes

/-- A character is no surrogate. -/
theorem isSurrogate_toNat (c : Char) :
    isHighSurrogate c.toNat = false ∧ isLowSurrogate c.toNat = false := by
  have hvalid : c.toNat < 0xD800 ∨ (0xDFFF < c.toNat ∧ c.toNat < 0x110000) := c.valid
  unfold isHighSurrogate isLowSurrogate
  simp only [Bool.and_eq_false_iff, decide_eq_false_iff_not]
  omega

/-- The spelling of a character puts one code or a pair in front. -/
theorem Spelling.codes {text rest : List Char} {c : Char} {codes : List Nat}
    (h : Spelling text c) (hrest : Codes rest codes) (hpaired : Paired codes) :
    ∃ codes', Codes (text ++ rest) codes' ∧ Paired codes' := by
  cases h with
  | plain hquote hbackslash hcontrol =>
      obtain ⟨hhigh, hlow⟩ := isSurrogate_toNat c
      exact ⟨_, .plain hquote hbackslash hcontrol hrest, .single hhigh hlow hpaired⟩
  | letter h =>
      obtain ⟨hhigh, hlow⟩ := isSurrogate_toNat c
      exact ⟨_, .letter h hrest, .single hhigh hlow hpaired⟩
  | code h hhigh hlow => exact ⟨_, .code h hrest, .single hhigh hlow hpaired⟩
  | pair h h' hhigh hlow =>
      refine ⟨_, ?_, .pair hhigh hlow hpaired⟩
      rw [List.cons_append, List.cons_append, List.append_assoc]
      exact .code h (.code h' hrest)

theorem Spellings.codes {text cs : List Char} (h : Spellings text cs) :
    ∃ codes, Codes text codes ∧ Paired codes := by
  induction h with
  | nil => exact ⟨[], .nil, .nil⟩
  | cons hspelling hs ih =>
      obtain ⟨codes, hcodes, hpaired⟩ := ih
      exact hspelling.codes hcodes hpaired

/-- A code that is no surrogate is spelled where it stands. -/
theorem Codes.spelling {text : List Char} {code : Nat} {codes : List Nat}
    (h : Codes text (code :: codes)) (hhigh : isHighSurrogate code = false)
    (hlow : isLowSurrogate code = false) :
    ∃ front rest c, text = front ++ rest ∧ Spelling front c ∧ Codes rest codes := by
  cases h with
  | @plain c rest _ hquote hbackslash hcontrol hs =>
      exact ⟨[c], rest, c, rfl, .plain hquote hbackslash hcontrol, hs⟩
  | @letter letter c rest _ h hs => exact ⟨['\\', letter], rest, c, rfl, .letter h, hs⟩
  | @code digits rest _ _ h hs =>
      exact ⟨'\\' :: 'u' :: digits, rest, _, rfl, .code h hhigh hlow, hs⟩

/-- The code of a surrogate stands there as an escape. -/
theorem Codes.escape {text : List Char} {code : Nat} {codes : List Nat}
    (h : Codes text (code :: codes))
    (hsurrogate : isHighSurrogate code = true ∨ isLowSurrogate code = true) :
    ∃ digits rest, text = '\\' :: 'u' :: (digits ++ rest) ∧ Code digits code
      ∧ Codes rest codes := by
  have hchar : ∀ c : Char, code ≠ c.toNat := by
    rintro c rfl
    obtain ⟨hhigh, hlow⟩ := isSurrogate_toNat c
    rcases hsurrogate with hs | hs
    · rw [hhigh] at hs
      cases hs
    · rw [hlow] at hs
      cases hs
  generalize hcode : code :: codes = all at h
  cases h with
  | nil => cases hcode
  | @plain c _ _ _ _ _ _ => exact absurd (List.cons.inj hcode).1 (hchar c)
  | @letter _ c _ _ _ _ => exact absurd (List.cons.inj hcode).1 (hchar c)
  | @code digits rest _ _ h hs =>
      obtain ⟨rfl, rfl⟩ := List.cons.inj hcode
      exact ⟨digits, rest, rfl, h, hs⟩

/-- Codes with no surrogate alone are spelled by characters. -/
theorem Codes.spellings {text : List Char} {codes : List Nat}
    (h : Codes text codes) (hpaired : Paired codes) : ∃ cs, Spellings text cs := by
  induction hpaired generalizing text with
  | nil =>
      cases h
      exact ⟨[], .nil⟩
  | single hhigh hlow hs ih =>
      obtain ⟨front, rest, c, rfl, hspelling, hrest⟩ := h.spelling hhigh hlow
      obtain ⟨cs, hcs⟩ := ih hrest
      exact ⟨c :: cs, .cons hspelling hcs⟩
  | pair hhigh hlow hs ih =>
      obtain ⟨digits, middle, rfl, hdigits, hmiddle⟩ := h.escape (.inl hhigh)
      obtain ⟨digits', rest, rfl, hdigits', hrest⟩ := hmiddle.escape (.inr hlow)
      obtain ⟨cs, hcs⟩ := ih hrest
      have hspellings := Spellings.cons (.pair hdigits hdigits' hhigh hlow) hcs
      simp only [List.cons_append, List.append_assoc] at hspellings
      exact ⟨_, hspellings⟩

/-- A literal holds a string iff no surrogate in it is alone. -/
theorem exists_literal_iff {text : List Char} :
    (∃ s, Literal text s) ↔ ∃ codes, Quoted text codes ∧ Paired codes := by
  constructor
  · intro hall
    obtain ⟨s, ⟨hspellings⟩⟩ := hall
    obtain ⟨codes, hcodes, hpaired⟩ := hspellings.codes
    exact ⟨codes, .mk hcodes, hpaired⟩
  · intro hall
    obtain ⟨codes, ⟨hcodes⟩, hpaired⟩ := hall
    obtain ⟨cs, hspellings⟩ := hcodes.spellings hpaired
    exact ⟨_, .mk hspellings⟩

-- ================================================================ the form

/-- A key by its form, and what follows it. -/
inductive Entry (strings : List Nat → Prop) (form : List Char → β → Prop) :
    List Char → β → Prop
  | mk {key text : List Char} {codes : List Nat} {value : β}
      (hkey : Quoted key codes) (hcodes : strings codes)
      (h : AfterKey form text value) : Entry strings form (key ++ text) value

/-- The texts that are values by their form, with numerals and strings of the
given kinds and brackets nested no deeper than the bound. -/
inductive Formed (numbers : Numeral → Prop) (strings : List Nat → Prop) :
    List Char → Nat → Prop
  | null {depth : Nat} : Formed numbers strings ['n', 'u', 'l', 'l'] depth
  | boolean {depth : Nat} (value : Bool) :
      Formed numbers strings (booleanText value) depth
  | number {depth : Nat} {text : List Char} {numeral : Numeral}
      (hwritten : numeral.Written text) (h : numbers numeral) :
      Formed numbers strings text depth
  | text {depth : Nat} {text : List Char} {codes : List Nat}
      (hquoted : Quoted text codes) (h : strings codes) :
      Formed numbers strings text depth
  | array {depth : Nat} {text : List Char} {depths : List Nat}
      (h : Items (Padded (Formed numbers strings)) text depths)
      (hdepths : ∀ d ∈ depths, d ≤ depth) :
      Formed numbers strings ('[' :: (text ++ [']'])) (depth + 1)
  | object {depth : Nat} {text : List Char} {depths : List Nat}
      (h : Items (Padded (Entry strings (Formed numbers strings))) text depths)
      (hdepths : ∀ d ∈ depths, d ≤ depth) :
      Formed numbers strings ('\x7b' :: (text ++ ['\x7d'])) (depth + 1)

/-- The numeral stands for a number. -/
def Numeral.InRange (n : Numeral) : Prop := ∃ x, n.Stands x

/-- The magnitude of the numeral is at most the greatest one of the format. The
power of ten stands on the side where it is no fraction. -/
def Numeral.AtMostGreatest (n : Numeral) : Prop :=
  let power := n.exponent.getD 0 - n.fraction.length
  digitsValue (n.whole ++ n.fraction) * 10 ^ power.toNat
    ≤ (2 ^ 53 - 1) * 2 ^ 971 * 10 ^ (-power).toNat

/-- A value by its form alone, whatever its numerals and strings are. -/
def Shaped : List Char → Nat → Prop := Formed (fun _ => True) fun _ => True

-- ========================================================== change of form

section Change

variable {F : List Char → α → Prop} {G : List Char → β → Prop} {R : α → β → Prop}

theorem Padded.exists_of {text : List Char} {a : α} (h : Padded F text a)
    (hG : ∀ t, F t a → ∃ b, G t b ∧ R a b) :
    ∃ b, Padded G text b ∧ R a b := by
  obtain ⟨hblanks, h⟩ := h
  obtain ⟨b, hb, hR⟩ := hG _ h
  exact ⟨b, .mk hblanks hb, hR⟩

theorem AfterKey.exists_of {text : List Char} {a : α} (h : AfterKey F text a)
    (hG : ∀ t, F t a → ∃ b, G t b ∧ R a b) :
    ∃ b, AfterKey G text b ∧ R a b := by
  obtain ⟨hblanks, h⟩ := h
  obtain ⟨b, hb, hR⟩ := h.exists_of hG
  exact ⟨b, .mk hblanks hb, hR⟩

theorem Member.exists_of {text : List Char} {name : String} {a : α}
    (h : Member F text (name, a))
    (hG : ∀ t, F t a → ∃ b, G t b ∧ R a b) :
    ∃ b, Member G text (name, b) ∧ R a b := by
  obtain ⟨hkey, h⟩ := h
  obtain ⟨b, hb, hR⟩ := h.exists_of hG
  exact ⟨b, .mk hkey hb, hR⟩

theorem More.exists_of {text : List Char} {values : List α} (h : More F text values)
    (hG : ∀ t, ∀ a ∈ values, F t a → ∃ b, G t b ∧ R a b) :
    ∃ values', More G text values' ∧ List.Forall₂ R values values' := by
  induction h with
  | nil hblanks => exact ⟨[], .nil hblanks, .nil⟩
  | cons hblanks h hs ih =>
      obtain ⟨b, hb, hR⟩ := hG _ _ List.mem_cons_self h
      obtain ⟨values', hvalues, hRs⟩ :=
        ih fun t a ha => hG t a (List.mem_cons_of_mem _ ha)
      exact ⟨b :: values', .cons hblanks hb hvalues, .cons hR hRs⟩

/-- Items that have another form each have other values, one for each. -/
theorem Items.exists_of {text : List Char} {values : List α} (h : Items F text values)
    (hG : ∀ t, ∀ a ∈ values, F t a → ∃ b, G t b ∧ R a b) :
    ∃ values', Items G text values' ∧ List.Forall₂ R values values' := by
  cases h with
  | nil hblanks => exact ⟨[], .nil hblanks, .nil⟩
  | cons h hs =>
      obtain ⟨b, hb, hR⟩ := hG _ _ List.mem_cons_self h
      obtain ⟨values', hvalues, hRs⟩ :=
        hs.exists_of fun t a ha => hG t a (List.mem_cons_of_mem _ ha)
      exact ⟨b :: values', .cons hb hvalues, .cons hR hRs⟩

/-- Where nothing is asked of the other value but the other form. -/
theorem AfterKey.change {text : List Char} {a : α} (h : AfterKey F text a)
    (hG : ∀ t, F t a → ∃ b, G t b) : ∃ b, AfterKey G text b := by
  obtain ⟨b, hb, -⟩ := h.exists_of (R := fun _ _ => True) fun t ht =>
    (hG t ht).imp fun b hb => ⟨hb, trivial⟩
  exact ⟨b, hb⟩

theorem Items.change {text : List Char} {values : List α}
    (h : Items (Padded F) text values)
    (hG : ∀ t, ∀ a ∈ values, F t a → ∃ b, G t b) :
    ∃ values', Items (Padded G) text values' := by
  obtain ⟨values', hvalues, -⟩ :
      ∃ values', Items (Padded G) text values'
        ∧ List.Forall₂ (fun _ _ => True) values values' := by
    refine h.exists_of fun t a ha ht => ?_
    refine ht.exists_of (R := fun _ _ => True) fun t' ht' => ?_
    exact (hG t' a ha ht').imp fun b hb => ⟨hb, trivial⟩
  exact ⟨values', hvalues⟩

theorem More.of_forall₂ {text : List Char} {values : List α} {values' : List β}
    (h : More F text values)
    (hG : List.Forall₂ (fun a b => ∀ t, F t a → G t b) values values') :
    More G text values' := by
  induction h generalizing values' with
  | nil hblanks =>
      cases hG
      exact .nil hblanks
  | cons hblanks h hs ih =>
      obtain _ | ⟨himp, hG⟩ := hG
      exact .cons hblanks (himp _ h) (ih hG)

/-- Items that are of another form for other values are that form's items. -/
theorem Items.of_forall₂ {text : List Char} {values : List α} {values' : List β}
    (h : Items F text values)
    (hG : List.Forall₂ (fun a b => ∀ t, F t a → G t b) values values') :
    Items G text values' := by
  cases h with
  | nil hblanks =>
      cases hG
      exact .nil hblanks
  | cons h hs =>
      obtain _ | ⟨himp, hG⟩ := hG
      exact .cons (himp _ h) (hs.of_forall₂ hG)

end Change

theorem Entry.mono {strings strings' : List Nat → Prop}
    {form form' : List Char → β → Prop} {text : List Char} {value : β}
    (h : Entry strings form text value)
    (hstrings : ∀ codes, strings codes → strings' codes)
    (hform : ∀ t, form t value → form' t value) :
    Entry strings' form' text value := by
  obtain ⟨hkey, hcodes, hafter⟩ := h
  exact .mk hkey (hstrings _ hcodes) (hafter.mono hform)

-- =============================================================== induction

section Formed

variable {numbers : Numeral → Prop} {strings : List Nat → Prop}

/-- The items of an array or an object are forms with one level less, so what
brackets take over from their items holds of every form. -/
@[elab_as_elim]
theorem Formed.induction {motive : List Char → Nat → Prop} {front : List Char}
    {depth : Nat} (h : Formed numbers strings front depth)
    (null : ∀ {depth}, motive ['n', 'u', 'l', 'l'] depth)
    (boolean : ∀ {depth} value, motive (booleanText value) depth)
    (number : ∀ {depth text numeral}, Numeral.Written text numeral →
      numbers numeral → motive text depth)
    (text : ∀ {depth text codes}, Quoted text codes → strings codes →
      motive text depth)
    (array : ∀ {depth text depths},
      Items (Padded fun t d => Formed numbers strings t d ∧ motive t d) text depths →
      (∀ d ∈ depths, d ≤ depth) → motive ('[' :: (text ++ [']'])) (depth + 1))
    (object : ∀ {depth text depths},
      Items (Padded (Entry strings fun t d => Formed numbers strings t d ∧ motive t d))
        text depths →
      (∀ d ∈ depths, d ≤ depth) → motive ('\x7b' :: (text ++ ['\x7d'])) (depth + 1)) :
    motive front depth := by
  induction depth using Nat.strongRecOn generalizing front with
  | ind depth ih =>
      cases h with
      | null => exact null
      | boolean value => exact boolean value
      | number hwritten h => exact number hwritten h
      | text hquoted h => exact text hquoted h
      | array h hdepths =>
          refine array (h.imp fun t d hd ht => ?_) hdepths
          have hlt := Nat.lt_succ_of_le (hdepths d hd)
          exact ht.mono fun _ hf => ⟨hf, ih d hlt hf⟩
      | object h hdepths =>
          refine object (h.imp fun t d hd ht => ?_) hdepths
          have hlt := Nat.lt_succ_of_le (hdepths d hd)
          exact ht.mono fun _ hf => hf.mono (fun _ h => h) fun _ hf => ⟨hf, ih d hlt hf⟩

/-- A form with narrower limits is one with wider limits. -/
theorem Formed.mono {numbers' : Numeral → Prop} {strings' : List Nat → Prop}
    (hnumbers : ∀ n, numbers n → numbers' n)
    (hstrings : ∀ codes, strings codes → strings' codes) {text : List Char}
    {depth : Nat} (h : Formed numbers strings text depth) :
    Formed numbers' strings' text depth := by
  refine h.induction ?null ?boolean ?number ?text ?array ?object
  case null => exact .null
  case boolean => exact .boolean
  case number =>
    intro depth text numeral hwritten h
    exact .number hwritten (hnumbers _ h)
  case text =>
    intro depth text codes hquoted h
    exact .text hquoted (hstrings _ h)
  case array =>
    intro depth text depths h hdepths
    exact .array (h.imp fun t d _ ht => ht.mono fun _ hf => hf.2) hdepths
  case object =>
    intro depth text depths h hdepths
    refine .object (h.imp fun t d _ ht => ht.mono fun _ hf => ?_) hdepths
    exact hf.mono hstrings fun _ hf => hf.2

theorem Formed.shaped {text : List Char} {depth : Nat}
    (h : Formed numbers strings text depth) : Shaped text depth :=
  h.mono (fun _ _ => trivial) fun _ _ => trivial

/-- Every form starts with a character that opens a value. -/
theorem Formed.exists_cons {text : List Char} {depth : Nat}
    (h : Formed numbers strings text depth) :
    ∃ c front o, text = c :: front ∧ Opening.of? c = some o := by
  cases h with
  | null => exact ⟨'n', _, .null, rfl, by decide⟩
  | boolean value =>
      cases value with
      | true => exact ⟨'t', _, .boolean true, rfl, by decide⟩
      | false => exact ⟨'f', _, .boolean false, rfl, by decide⟩
  | number hwritten h =>
      obtain ⟨c, front, htext, hc⟩ := hwritten.exists_cons
      exact ⟨c, front, .number, htext, Opening.of?_eq_number hc⟩
  | text hquoted h =>
      obtain ⟨hcodes⟩ := hquoted
      exact ⟨'"', _, .text, rfl, by decide⟩
  | array h hdepths => exact ⟨'[', _, .array, rfl, by decide⟩
  | object h hdepths => exact ⟨'\x7b', _, .object, rfl, by decide⟩

theorem Formed.starts {text : List Char} {depth : Nat}
    (h : Formed numbers strings text depth) : Starts text := by
  obtain ⟨c, front, o, rfl, hopening⟩ := h.exists_cons
  exact starts_of_opening hopening front

end Formed

-- ============================================================ and the value

/-- A form with all the limits is a written form of a value. -/
theorem Formed.within {text : List Char} {depth : Nat}
    (h : Formed Numeral.InRange Paired text depth) : ∃ v, Within depth text v := by
  refine h.induction ?null ?boolean ?number ?text ?array ?object
  case null => exact ⟨.null, .null, Nat.zero_le _⟩
  case boolean =>
    intro depth value
    exact ⟨.boolean value, .boolean value, Nat.zero_le _⟩
  case number =>
    intro depth text numeral hwritten h
    obtain ⟨x, hstands⟩ := h
    exact ⟨.number x, .number hwritten hstands, Nat.zero_le _⟩
  case text =>
    intro depth text codes hquoted h
    obtain ⟨s, hliteral⟩ := exists_literal_iff.2 ⟨_, hquoted, h⟩
    exact ⟨.text s, .text hliteral, Nat.zero_le _⟩
  case array =>
    intro depth text depths h hdepths
    obtain ⟨items, hitems⟩ : ∃ items, Items (Padded (Within depth)) text items := by
      refine h.change fun t d hd ht => ?_
      obtain ⟨v, hv⟩ := ht.2
      exact ⟨v, hv.mono (hdepths d hd)⟩
    exact ⟨_, Within.array hitems⟩
  case object =>
    intro depth text depths h hdepths
    obtain ⟨members, hmembers⟩ :
        ∃ members, Items (Padded (Member (Within depth))) text members := by
      refine h.change fun t d hd ht => ?_
      obtain ⟨hkey, hcodes, hafter⟩ := ht
      obtain ⟨name, hname⟩ := exists_literal_iff.2 ⟨_, hkey, hcodes⟩
      obtain ⟨v, hv⟩ : ∃ v, AfterKey (Within depth) _ v := by
        refine hafter.change fun t' ht' => ?_
        obtain ⟨v, hv⟩ := ht'.2
        exact ⟨v, hv.mono (hdepths d hd)⟩
      exact ⟨(name, v), .mk hname hv⟩
    exact ⟨_, Within.object hmembers⟩

/-- Items of any form make an array where each is a form with one level less. -/
theorem formed_array_of_items {numbers : Numeral → Prop} {strings : List Nat → Prop}
    {F : List Char → α → Prop} {inner : List Char} {items : List α} {depth : Nat}
    (h : Items (Padded F) inner items)
    (hF : ∀ item ∈ items, ∀ t, F t item → Formed numbers strings t depth) :
    Formed numbers strings ('[' :: (inner ++ [']'])) (depth + 1) := by
  obtain ⟨depths, hdepths, hle⟩ :
      ∃ depths, Items (Padded (Formed numbers strings)) inner depths
        ∧ List.Forall₂ (fun _ d => d ≤ depth) items depths := by
    refine h.exists_of fun t item hitem ht => ?_
    refine ht.exists_of (R := fun _ d => d ≤ depth) fun t' ht' => ?_
    exact ⟨depth, hF item hitem t' ht', Nat.le_refl _⟩
  exact .array hdepths (forall_mem_of_forall₂ hle id)

/-- Members with a string for their key make an object likewise. -/
theorem formed_object_of_items {numbers : Numeral → Prop} {F : List Char → α → Prop}
    {inner : List Char} {members : List (String × α)} {depth : Nat}
    (h : Items (Padded (Member F)) inner members)
    (hF : ∀ member ∈ members, ∀ t, F t member.2 → Formed numbers Paired t depth) :
    Formed numbers Paired ('\x7b' :: (inner ++ ['\x7d'])) (depth + 1) := by
  obtain ⟨depths, hdepths, hle⟩ :
      ∃ depths, Items (Padded (Entry Paired (Formed numbers Paired))) inner depths
        ∧ List.Forall₂ (fun _ d => d ≤ depth) members depths := by
    refine h.exists_of fun t member hmember ht => ?_
    refine ht.exists_of (R := fun _ d => d ≤ depth) fun t' ht' => ?_
    obtain ⟨hkey, hafter⟩ := ht'
    obtain ⟨codes, hquoted, hpaired⟩ := exists_literal_iff.1 ⟨_, hkey⟩
    obtain ⟨d, hd, hle⟩ :
        ∃ d, AfterKey (Formed numbers Paired) _ d ∧ d ≤ depth := by
      refine hafter.exists_of (R := fun _ d => d ≤ depth) fun t'' ht'' => ?_
      exact ⟨depth, hF _ hmember t'' ht'', Nat.le_refl _⟩
    exact ⟨d, .mk hquoted hpaired hd, hle⟩
  exact .object hdepths (forall_mem_of_forall₂ hle id)

/-- A written form of a value is a form with all the limits. -/
theorem Within.formed {text : List Char} {depth : Nat} {v : Value}
    (h : Within depth text v) : Formed Numeral.InRange Paired text depth := by
  -- by the depth, as the items of a value are within one level less
  induction depth using Nat.strongRecOn generalizing text v with
  | ind depth ih =>
      cases v with
      | null =>
          obtain rfl := spells_null_iff.1 h.1
          exact .null
      | boolean value =>
          obtain rfl := spells_boolean_iff.1 h.1
          exact .boolean value
      | number x =>
          obtain ⟨numeral, hwritten, hstands⟩ := spells_number_iff.1 h.1
          exact .number hwritten ⟨x, hstands⟩
      | text s =>
          have hliteral := spells_text_iff.1 h.1
          obtain ⟨codes, hquoted, hpaired⟩ := exists_literal_iff.1 ⟨s, hliteral⟩
          exact .text hquoted hpaired
      | array items =>
          obtain ⟨depth', inner, rfl, rfl, hitems⟩ := h.items
          exact formed_array_of_items hitems fun item _ t ht =>
            ih depth' (Nat.lt_succ_self _) ht
      | object members =>
          obtain ⟨depth', inner, rfl, rfl, hitems⟩ := h.members
          exact formed_object_of_items hitems fun member _ t ht =>
            ih depth' (Nat.lt_succ_self _) ht

/-- The written forms of values are the forms in which every numeral stands for a
number and no surrogate is alone. -/
theorem formed_iff_within {text : List Char} {depth : Nat} :
    Formed Numeral.InRange Paired text depth ↔ ∃ v, Within depth text v := by
  constructor
  · intro h
    exact h.within
  · intro hall
    obtain ⟨v, h⟩ := hall
    exact h.formed

/-- Every written form of a value is one by its form alone. -/
theorem shaped_of_spells {text : List Char} {v : Value} (h : Spells text v) :
    Shaped text v.depth := by
  have hwithin : Within v.depth text v := ⟨h, Nat.le_refl _⟩
  exact hwithin.formed.shaped

/-- The numeral 1.7976931348623157081e308 with its point at the end is at most the
greatest magnitude. -/
theorem formed_near_greatest {depth : Nat} :
    Formed Numeral.AtMostGreatest Paired "17976931348623157081e289".toList depth := by
  have hrun : (restOfNumeral .malformed '1').run "7976931348623157081e289".toList
      = .ok (⟨false, "17976931348623157081".toList, [], some 289⟩, []) := by
    decide +kernel
  obtain ⟨front, hwritten, htext⟩ := Numeral.written_of_restOfNumeral hrun
  rw [List.append_nil] at htext
  subst htext
  refine .number hwritten ?_
  show digitsValue _ * _ ≤ _
  decide +kernel

end Dossier.Json
