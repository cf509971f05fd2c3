/-
The value reader takes the written forms of values, as deep as it may go.

The first character of a value decides its kind (`Opening.of?_eq_some_iff`),
and behind it stands the rest of that kind's form. Arrays and objects hand
their contents to the reader of the next level, so the induction is on the
depth: one bracket is one level, and without a level no bracket is opened.

A field is read for its kind alone. A bracket that opens is taken for an
empty one, which is harmless as long as nothing with brackets is wanted.
-/
import Mathlib.Data.List.Basic
import Dossier.Proofs.Json.Numeral
import Dossier.Proofs.Json.Sequence

namespace Dossier.Json

variable {α β : Type}

-- =============================================================== openings

/-- The characters that open a value of the kind. -/
def Opening.Opens : Opening → Char → Prop
  | .null, c => c = 'n'
  | .boolean true, c => c = 't'
  | .boolean false, c => c = 'f'
  | .number, c => c = '-' ∨ c.isDigit = true
  | .text, c => c = '"'
  | .array, c => c = '['
  | .object, c => c = '\x7b'

theorem Opening.of?_eq_number {c : Char} (h : c = '-' ∨ c.isDigit = true) :
    Opening.of? c = some .number := by
  rcases h with rfl | h
  · decide
  · have hn : c ≠ 'n' := by rintro rfl; exact absurd h (by decide)
    have ht : c ≠ 't' := by rintro rfl; exact absurd h (by decide)
    have hf : c ≠ 'f' := by rintro rfl; exact absurd h (by decide)
    unfold Opening.of?
    rw [if_neg hn, if_neg ht, if_neg hf, if_pos (by simp [h])]

theorem Opening.of?_eq_some_iff {c : Char} {o : Opening} :
    Opening.of? c = some o ↔ o.Opens c := by
  constructor
  · intro h
    unfold Opening.of? at h
    split at h
    · cases h; assumption
    split at h
    · cases h; assumption
    split at h
    · cases h; assumption
    split at h
    · next hnumber =>
      cases h
      simpa [Opening.Opens] using hnumber
    split at h
    · cases h; assumption
    split at h
    · cases h; assumption
    split at h
    · cases h; assumption
    cases h
  · intro h
    cases o with
    | number => exact Opening.of?_eq_number h
    | boolean value => cases value <;> cases h <;> decide
    | null => cases h; decide
    | text => cases h; decide
    | array => cases h; decide
    | object => cases h; decide

/-- Neither a blank nor a closing bracket opens a value. -/
theorem starts_of_opening {c : Char} {o : Opening} (h : Opening.of? c = some o)
    (front : List Char) : Starts (c :: front) := by
  refine ⟨c, front, rfl, ?_, ?_⟩
  · by_contra hblank
    rw [Bool.not_eq_false] at hblank
    unfold isBlank at hblank
    simp only [Bool.or_eq_true, beq_iff_eq] at hblank
    rcases hblank with ((rfl | rfl) | rfl) | rfl <;> cases h
  · intro heq
    subst heq
    cases h

/-- A numeral starts with a minus or a digit. -/
theorem Numeral.Written.exists_cons {text : List Char} {n : Numeral}
    (h : n.Written text) :
    ∃ c front, text = c :: front ∧ (c = '-' ∨ c.isDigit = true) := by
  cases h with
  | mk negative hwhole hfraction hexponent =>
      obtain ⟨d, digits, rfl, hd⟩ := hwhole.exists_cons
      cases negative with
      | true => exact ⟨'-', _, rfl, .inl rfl⟩
      | false => exact ⟨d, _, rfl, .inr hd⟩

/-- Every form of a value starts with a character that opens one. -/
theorem Spells.exists_cons {text : List Char} {v : Value} (h : Spells text v) :
    ∃ c front o, text = c :: front ∧ Opening.of? c = some o := by
  cases h with
  | null => exact ⟨'n', _, .null, rfl, by decide⟩
  | boolean value =>
      cases value with
      | true => exact ⟨'t', _, .boolean true, rfl, by decide⟩
      | false => exact ⟨'f', _, .boolean false, rfl, by decide⟩
  | number hwritten h =>
      obtain ⟨c, front, htext, hc⟩ := hwritten.exists_cons
      exact ⟨c, front, .number, htext, Opening.of?_eq_number hc⟩
  | text h =>
      obtain ⟨front, htext⟩ := h.exists_cons
      exact ⟨'"', front, .text, htext, by decide⟩
  | array h => exact ⟨'[', _, .array, rfl, by decide⟩
  | object h => exact ⟨'\x7b', _, .object, rfl, by decide⟩

/-- Texts and numbers are written as their own forms are. -/
theorem spells_text_iff {text : List Char} {value : String} :
    Spells text (.text value) ↔ Literal text value := by
  constructor
  · intro h
    cases h
    assumption
  · exact .text

theorem spells_number_iff {text : List Char} {n : Number} :
    Spells text (.number n)
      ↔ ∃ numeral : Numeral, numeral.Written text ∧ numeral.Stands n := by
  constructor
  · intro h
    cases h with
    | number hwritten hstands => exact ⟨_, hwritten, hstands⟩
  · intro hall
    obtain ⟨numeral, hwritten, hstands⟩ := hall
    exact .number hwritten hstands

/-- A natural number is written in digits alone, with no sign, no fraction and no
exponent, and it is below 2^64. -/
theorem spells_natural_iff {text : List Char} {n : Nat} :
    Spells text (.number (.integer n))
      ↔ Numeral.Whole text ∧ digitsValue text = n ∧ n < wordLimit := by
  rw [spells_number_iff]
  constructor
  · intro h
    obtain ⟨numeral, hwritten, hstands⟩ := h
    obtain ⟨negative, whole, fraction, exponent⟩ := numeral
    generalize hx : Number.integer (n : Int) = x at hstands
    cases hstands with
    | natural hplain hsign hfits =>
        obtain ⟨rfl, rfl⟩ := hplain
        obtain ⟨hwhole, rfl⟩ := Numeral.written_plain_iff.1 hwritten
        obtain rfl : negative = false := hsign
        have hn : n = digitsValue whole := Int.ofNat_inj.1 (Number.integer.inj hx)
        exact ⟨hwhole, hn.symm, hn ▸ hfits⟩
    | negative hplain hsign hpos hfits =>
        -- only integers below zero have a sign
        have hn := Number.integer.inj hx
        omega
    | minus _ _ _ _ _ => cases hx
    | scaled _ _ _ _ => cases hx
  · intro h
    obtain ⟨hwhole, hvalue, hfits⟩ := h
    refine ⟨⟨false, text, [], none⟩,
      Numeral.written_plain_iff.2 ⟨hwhole, rfl⟩, ?_⟩
    rw [← hvalue]
    exact .natural ⟨rfl, rfl⟩ rfl (hvalue ▸ hfits)

/-- The words for null and the truth values are their only forms. -/
theorem spells_null_iff {text : List Char} :
    Spells text .null ↔ text = ['n', 'u', 'l', 'l'] := by
  constructor
  · intro h
    cases h
    rfl
  · intro heq
    subst heq
    exact .null

theorem spells_boolean_iff {text : List Char} {value : Bool} :
    Spells text (.boolean value) ↔ text = booleanText value := by
  constructor
  · intro h
    cases h
    rfl
  · intro heq
    subst heq
    exact .boolean value

theorem Spells.starts {text : List Char} {v : Value} (h : Spells text v) :
    Starts text := by
  obtain ⟨c, front, o, rfl, hopening⟩ := h.exists_cons
  exact starts_of_opening hopening front

-- ================================================================== items

section Items

variable {item item' : List Char → α → Prop}

theorem More.imp {text : List Char} {values : List α}
    (h : More item text values)
    (himp : ∀ t, ∀ v ∈ values, item t v → item' t v) :
    More item' text values := by
  induction h with
  | nil hblanks => exact .nil hblanks
  | cons hblanks h hs ih =>
      refine .cons hblanks (himp _ _ List.mem_cons_self h) (ih ?_)
      exact fun t v hv => himp t v (List.mem_cons_of_mem _ hv)

/-- A form of each item may be put for another one that it implies. -/
theorem Items.imp {text : List Char} {values : List α}
    (h : Items item text values)
    (himp : ∀ t, ∀ v ∈ values, item t v → item' t v) :
    Items item' text values := by
  cases h with
  | nil hblanks => exact .nil hblanks
  | cons h hs =>
      refine .cons (himp _ _ List.mem_cons_self h) (hs.imp ?_)
      exact fun t v hv => himp t v (List.mem_cons_of_mem _ hv)

theorem More.forall_mem {text : List Char} {values : List α}
    (h : More item text values) {P : α → Prop}
    (himp : ∀ t v, item t v → P v) : ∀ v ∈ values, P v := by
  induction h with
  | nil => exact fun v hv => absurd hv List.not_mem_nil
  | cons hblanks h hs ih => exact List.forall_mem_cons.2 ⟨himp _ _ h, ih⟩

/-- What the form of an item says of its value holds of all values. -/
theorem Items.forall_mem {text : List Char} {values : List α}
    (h : Items item text values) {P : α → Prop}
    (himp : ∀ t v, item t v → P v) : ∀ v ∈ values, P v := by
  cases h with
  | nil => exact fun v hv => absurd hv List.not_mem_nil
  | cons h hs => exact List.forall_mem_cons.2 ⟨himp _ _ h, hs.forall_mem himp⟩

end Items

/-- Brackets add a level to the values between them. -/
theorem Within.array {depth : Nat} {text : List Char} {items : List Value}
    (h : Items (Padded (Within depth)) text items) :
    Within (depth + 1) ('[' :: (text ++ [']'])) (.array items) := by
  constructor
  · exact .array (h.imp fun t v _ hv => hv.mono fun _ hw => hw.1)
  · rw [Value.depth, Nat.add_le_add_iff_right, depthOfItems_le_iff]
    refine h.forall_mem ?_
    intro t v hv
    obtain ⟨-, hwithin⟩ := hv
    exact hwithin.2

theorem Within.items {depth : Nat} {text : List Char} {items : List Value}
    (h : Within depth text (.array items)) :
    ∃ depth' inner, depth = depth' + 1 ∧ text = '[' :: (inner ++ [']'])
      ∧ Items (Padded (Within depth')) inner items := by
  obtain ⟨hspells, hdepth⟩ := h
  cases depth with
  | zero => exact absurd hdepth (Nat.not_succ_le_zero _)
  | succ depth =>
      rw [Value.depth, Nat.add_le_add_iff_right, depthOfItems_le_iff] at hdepth
      cases hspells with
      | array hitems =>
          refine ⟨depth, _, rfl, rfl, hitems.imp fun t v hmem hv => ?_⟩
          exact hv.mono fun _ hw => ⟨hw, hdepth v hmem⟩

theorem AfterKey.mono {form form' : List Char → β → Prop} {text : List Char}
    {value : β} (h : AfterKey form text value)
    (himp : ∀ t, form t value → form' t value) : AfterKey form' text value := by
  obtain ⟨hblanks, hvalue⟩ := h
  exact .mk hblanks (hvalue.mono himp)

theorem Member.mono {form form' : List Char → β → Prop} {text : List Char}
    {member : String × β} (h : Member form text member)
    (himp : ∀ t, form t member.2 → form' t member.2) :
    Member form' text member := by
  obtain ⟨hkey, hafter⟩ := h
  exact .mk hkey (hafter.mono himp)

theorem Within.object {depth : Nat} {text : List Char}
    {members : List (String × Value)}
    (h : Items (Padded (Member (Within depth))) text members) :
    Within (depth + 1) ('\x7b' :: (text ++ ['\x7d'])) (.object members) := by
  constructor
  · exact .object (h.imp fun t m _ hm => hm.mono fun _ hw => hw.mono fun _ hv => hv.1)
  · rw [Value.depth, Nat.add_le_add_iff_right, depthOfMembers_le_iff]
    refine h.forall_mem ?_
    intro t member hmember
    obtain ⟨-, hpair⟩ := hmember
    obtain ⟨-, hafter⟩ := hpair
    obtain ⟨-, hvalue⟩ := hafter
    obtain ⟨-, hwithin⟩ := hvalue
    exact hwithin.2

theorem Within.members {depth : Nat} {text : List Char}
    {members : List (String × Value)} (h : Within depth text (.object members)) :
    ∃ depth' inner, depth = depth' + 1
      ∧ text = '\x7b' :: (inner ++ ['\x7d'])
      ∧ Items (Padded (Member (Within depth'))) inner members := by
  obtain ⟨hspells, hdepth⟩ := h
  cases depth with
  | zero => exact absurd hdepth (Nat.not_succ_le_zero _)
  | succ depth =>
      rw [Value.depth, Nat.add_le_add_iff_right, depthOfMembers_le_iff] at hdepth
      cases hspells with
      | object hitems =>
          refine ⟨depth, _, rfl, rfl, hitems.imp fun t m hmem hm => ?_⟩
          exact hm.mono fun _ hw => hw.mono fun _ hv => ⟨hv, hdepth m hmem⟩

-- ============================================================ behind a key

/-- A colon and a value behind it are what follows a key. -/
theorem afterKey_of_colon {form : List Char → β → Prop} {reader : Reader β}
    (hreader : reader.Reads (Padded form)) {text middle rest : List Char}
    {u : Unit} {value : β} (hcolon : colon.run text = .ok (u, middle))
    (h : reader.run middle = .ok (value, rest)) :
    ∃ front, text = front ++ rest ∧ AfterKey form front value := by
  obtain ⟨blanks, hblanks, rfl⟩ := colon_run_eq_ok_iff.1 hcolon
  obtain ⟨front, rfl, hform⟩ := hreader.sound h
  refine ⟨blanks ++ ':' :: front, ?_, .mk hblanks hform⟩
  rw [List.append_assoc, List.cons_append]

/-- What follows a key is a colon and the value behind it. -/
theorem AfterKey.run {form : List Char → β → Prop} {reader : Reader β}
    (hreader : reader.Reads (Padded form)) {front rest : List Char} {value : β}
    (h : AfterKey form front value) (hrest : Ends rest) :
    ∃ middle, colon.run (front ++ rest) = .ok ((), middle)
      ∧ reader.run middle = .ok (value, rest) := by
  obtain @⟨blanks, text, _, hblanks, hvalue⟩ := h
  refine ⟨text ++ rest, ?_, hreader.complete hvalue hrest⟩
  rw [List.append_assoc, List.cons_append]
  exact colon_run_eq_ok_iff.2 ⟨blanks, hblanks, rfl⟩

/-- A member of a value is kept in front of those before it. -/
theorem memberStep_steps {form : List Char → Value → Prop} {reader : Reader Value}
    (hreader : reader.Reads (Padded form)) :
    Steps (memberStep reader) form fun done member => .ok (member :: done) where
  sound := by
    intro done done' key text rest h
    obtain ⟨u, middle, hcolon, h⟩ := run_bind_eq_ok_iff.1 h
    obtain ⟨v, middle', hv, h⟩ := run_bind_eq_ok_iff.1 h
    cases h
    obtain ⟨front, rfl, hafter⟩ := afterKey_of_colon hreader hcolon hv
    exact ⟨front, v, rfl, hafter, rfl⟩
  complete := by
    intro done done' key front rest v hafter hchange hrest
    cases hchange
    obtain ⟨middle, hcolon, hv⟩ := hafter.run hreader hrest
    unfold memberStep
    rw [run_bind_of_ok hcolon, run_bind_of_ok hv]
    rfl

/-- Members that are kept last first come out in their order. -/
theorem foldlM_keep (members done : List (String × β)) :
    members.foldlM (fun done member => Except.ok (member :: done)) done
      = (.ok (members.reverse ++ done) : Except Mismatch _) := by
  induction members generalizing done with
  | nil => rfl
  | cons member members ih =>
      rw [List.foldlM_cons, List.reverse_cons, List.append_assoc]
      exact ih (member :: done)

-- ================================================================= values

section Nested

variable {reader : Reader Value} {depth : Nat}
  (hreader : reader.Reads (Padded (Within depth)))

include hreader

/-- Elements up to their bracket are the rest of an array. -/
theorem elements_eq_ok_iff_within {text rest : List Char} {items : List Value} :
    (elements reader true).run text = .ok (items, rest)
      ↔ ∃ front, text = front ++ rest
          ∧ Within (depth + 1) ('[' :: front) (.array items) := by
  rw [elements_run_eq_ok_iff hreader fun hw => hw.1.starts]
  constructor
  · intro h
    obtain ⟨inner, htext, hitems⟩ := h
    refine ⟨inner ++ [']'], ?_, Within.array hitems⟩
    rw [htext, List.append_assoc, List.singleton_append]
  · intro h
    obtain ⟨front, htext, hwithin⟩ := h
    obtain ⟨depth', inner, hdepth, hfront, hitems⟩ := hwithin.items
    cases hdepth
    refine ⟨inner, ?_, hitems⟩
    rw [htext, (List.cons.inj hfront).2, List.append_assoc,
      List.singleton_append]

/-- Members up to their bracket are the rest of an object. -/
theorem members_eq_ok_iff_within {text rest : List Char}
    {kept : List (String × Value)} :
    (members (memberStep reader) []).run text = .ok (kept, rest)
      ↔ ∃ front, text = front ++ rest
          ∧ Within (depth + 1) ('\x7b' :: front) (.object kept.reverse) := by
  rw [members_run_eq_ok_iff (memberStep_steps hreader)]
  constructor
  · intro h
    obtain ⟨inner, new, htext, hitems, hfold⟩ := h
    rw [foldlM_keep, List.append_nil, Except.ok.injEq] at hfold
    rw [← hfold, List.reverse_reverse]
    refine ⟨inner ++ ['\x7d'], ?_, Within.object hitems⟩
    rw [htext, List.append_assoc, List.singleton_append]
  · intro h
    obtain ⟨front, htext, hwithin⟩ := h
    obtain ⟨depth', inner, hdepth, hfront, hitems⟩ := hwithin.members
    cases hdepth
    refine ⟨inner, kept.reverse, ?_, hitems, ?_⟩
    · rw [htext, (List.cons.inj hfront).2, List.append_assoc,
        List.singleton_append]
    · rw [foldlM_keep, List.reverse_reverse, List.append_nil]

end Nested

/-- The reader of what stands inside of brackets goes down to the depth that is
left there. -/
inductive Nests : Option (Reader Value) → Nat → Prop
  | none : Nests none 0
  | some {reader : Reader Value} {depth : Nat}
      (h : reader.Reads (Padded (Within depth))) :
      Nests (some reader) (depth + 1)

section Values

variable {nested : Option (Reader Value)} {depth : Nat}

theorem within_of_restOfValue (hn : Nests nested depth) {c : Char}
    {text rest : List Char} {v : Value}
    (h : (restOfValue nested c).run text = .ok (v, rest)) :
    ∃ front, text = front ++ rest ∧ Within depth (c :: front) v := by
  unfold restOfValue at h
  split at h
  · cases h
  · next hc =>
    obtain rfl : c = 'n' := Opening.of?_eq_some_iff.1 hc
    obtain ⟨u, middle, hword, h⟩ := run_bind_eq_ok_iff.1 h
    cases h
    exact ⟨_, word_run_eq_ok_iff.1 hword, .null, Nat.zero_le _⟩
  · next value hc =>
    obtain ⟨u, middle, hword, h⟩ := run_bind_eq_ok_iff.1 h
    cases h
    cases value with
    | true =>
        obtain rfl : c = 't' := Opening.of?_eq_some_iff.1 hc
        exact ⟨_, word_run_eq_ok_iff.1 hword, .boolean true, Nat.zero_le _⟩
    | false =>
        obtain rfl : c = 'f' := Opening.of?_eq_some_iff.1 hc
        exact ⟨_, word_run_eq_ok_iff.1 hword, .boolean false, Nat.zero_le _⟩
  · obtain ⟨n, middle, hnumber, h⟩ := run_bind_eq_ok_iff.1 h
    cases h
    obtain ⟨front, numeral, hwritten, hstands, htext⟩ :=
      written_of_restOfNumber hnumber
    exact ⟨front, htext, .number hwritten hstands, Nat.zero_le _⟩
  · next hc =>
    obtain rfl : c = '"' := Opening.of?_eq_some_iff.1 hc
    obtain ⟨value, middle, hliteral, h⟩ := run_bind_eq_ok_iff.1 h
    cases h
    obtain ⟨front, hform, htext⟩ := literal_of_restOfLiteral hliteral
    exact ⟨front, htext, .text hform, Nat.zero_le _⟩
  · next reader hc =>
    obtain rfl : c = '[' := Opening.of?_eq_some_iff.1 hc
    obtain ⟨items, middle, helements, h⟩ := run_bind_eq_ok_iff.1 h
    cases h
    cases hn with
    | some hreader => exact (elements_eq_ok_iff_within hreader).1 helements
  · next reader hc =>
    obtain rfl : c = '\x7b' := Opening.of?_eq_some_iff.1 hc
    obtain ⟨kept, middle, hmembers, h⟩ := run_bind_eq_ok_iff.1 h
    cases h
    cases hn with
    | some hreader => exact (members_eq_ok_iff_within hreader).1 hmembers
  · cases h
  · cases h

/-- Behind its first character a value is taken as it is written. -/
theorem restOfValue_run_append (hn : Nests nested depth) {c : Char}
    {front rest : List Char} {v : Value} (h : Within depth (c :: front) v)
    (hrest : Ends rest) :
    (restOfValue nested c).run (front ++ rest) = .ok (v, rest) := by
  unfold restOfValue
  cases v with
  | null =>
      obtain ⟨rfl, rfl⟩ := List.cons.inj (spells_null_iff.1 h.1)
      rw [Opening.of?_eq_some_iff (o := .null).2 rfl]
      dsimp only
      rw [restOfNull, run_bind_of_ok (word_run_eq_ok_iff (u := ()).2 rfl)]
      rfl
  | boolean value =>
      have htext := spells_boolean_iff.1 h.1
      cases value with
      | true =>
          obtain ⟨rfl, rfl⟩ := List.cons.inj htext
          rw [Opening.of?_eq_some_iff (o := .boolean true).2 rfl]
          dsimp only
          rw [restOfBoolean, run_bind_of_ok (word_run_eq_ok_iff (u := ()).2 rfl)]
          rfl
      | false =>
          obtain ⟨rfl, rfl⟩ := List.cons.inj htext
          rw [Opening.of?_eq_some_iff (o := .boolean false).2 rfl]
          dsimp only
          rw [restOfBoolean, run_bind_of_ok (word_run_eq_ok_iff (u := ()).2 rfl)]
          rfl
  | number n =>
      obtain ⟨numeral, hwritten, hstands⟩ := spells_number_iff.1 h.1
      obtain ⟨c', front', hcons, hc⟩ := hwritten.exists_cons
      obtain ⟨rfl, rfl⟩ := List.cons.inj hcons
      rw [Opening.of?_eq_number hc]
      dsimp only
      rw [run_bind_of_ok (restOfNumber_run_append hwritten hstands hrest)]
      rfl
  | text value =>
      have hliteral := spells_text_iff.1 h.1
      obtain ⟨front', hcons⟩ := hliteral.exists_cons
      obtain ⟨rfl, rfl⟩ := List.cons.inj hcons
      rw [Opening.of?_eq_some_iff (o := .text).2 rfl]
      dsimp only
      rw [run_bind_of_ok (restOfLiteral_run_append hliteral rest)]
      rfl
  | array items =>
      obtain ⟨depth', inner, rfl, htext, -⟩ := h.items
      obtain ⟨rfl, -⟩ := List.cons.inj htext
      cases hn with
      | some hreader =>
          have helements := (elements_eq_ok_iff_within hreader).2
            ⟨front, (rfl : front ++ rest = _), h⟩
          rw [Opening.of?_eq_some_iff (o := .array).2 rfl]
          dsimp only
          rw [run_bind_of_ok helements]
          rfl
  | object members =>
      obtain ⟨depth', inner, rfl, htext, -⟩ := h.members
      obtain ⟨rfl, -⟩ := List.cons.inj htext
      rw [← List.reverse_reverse members] at h
      cases hn with
      | some hreader =>
          have hmembers := (members_eq_ok_iff_within hreader).2
            ⟨front, (rfl : front ++ rest = _), h⟩
          rw [Opening.of?_eq_some_iff (o := .object).2 rfl]
          dsimp only
          rw [run_bind_of_ok hmembers, List.reverse_reverse]
          rfl

end Values

/-- What is told by its first character is read behind blanks. -/
theorem reads_of_first {next : Char → Reader α} {form : List Char → α → Prop}
    (hstarts : ∀ {text a}, form text a → Starts text)
    (hsound : ∀ {c text rest a}, (next c).run text = .ok (a, rest) →
      ∃ front, text = front ++ rest ∧ form (c :: front) a)
    (hcomplete : ∀ {c front rest a}, form (c :: front) a → Ends rest →
      (next c).run (front ++ rest) = .ok (a, rest)) :
    (do next (← first) : Reader α).Reads (Padded form) where
  sound := by
    intro text rest a h
    obtain ⟨c, middle, hfirst, ha⟩ := run_bind_eq_ok_iff.1 h
    obtain ⟨-, blanks, hblanks, rfl⟩ := first_run_eq_ok_iff.1 hfirst
    obtain ⟨front, rfl, hform⟩ := hsound ha
    refine ⟨blanks ++ c :: front, ?_, hblanks, hform⟩
    rw [List.append_assoc, List.cons_append]
  complete := by
    intro front rest a h hrest
    obtain ⟨hblanks, hform⟩ := h
    obtain ⟨c, tail, rfl, hblank, -⟩ := hstarts hform
    have hfirst := first_run_eq_ok_iff.2
      ⟨hblank, _, hblanks, (rfl : _ = _ ++ c :: (tail ++ rest))⟩
    rw [List.append_assoc, List.cons_append, run_bind_of_ok hfirst]
    exact hcomplete hform hrest

/-- The reader of values takes their written forms with blanks in front, as deep
as brackets may be nested. -/
theorem value_reads (depth : Nat) :
    (value depth).Reads (Padded (Within depth)) := by
  -- one bracket is one level: what is inside is read by the level below
  induction depth with
  | zero =>
      exact reads_of_first (fun h => h.1.starts) (within_of_restOfValue .none)
        (restOfValue_run_append .none)
  | succ depth ih =>
      exact reads_of_first (fun h => h.1.starts)
        (within_of_restOfValue (.some ih)) (restOfValue_run_append (.some ih))

-- ================================================================== fields

/-- The written forms of the values that stand for something, with brackets no
deeper than `depth`. -/
inductive Denoting (depth : Nat) (means : Value → α → Prop) :
    List Char → α → Prop
  | mk {text : List Char} {v : Value} {a : α} (h : Within depth text v)
      (hmeans : means v a) : Denoting depth means text a

/-- What a shape makes of a value. -/
def Shapes (shape : Value → Except Mismatch α) (v : Value) (a : α) : Prop :=
  shape v = .ok a

section Fields

theorem Within.mono {depth depth' : Nat} (hle : depth ≤ depth')
    {text : List Char} {v : Value} (h : Within depth text v) :
    Within depth' text v :=
  ⟨h.1, Nat.le_trans h.2 hle⟩

theorem Denoting.starts {depth : Nat} {means : Value → α → Prop}
    {text : List Char} {a : α} (h : Denoting depth means text a) : Starts text := by
  obtain ⟨hwithin, -⟩ := h
  exact hwithin.1.starts

theorem padded_denoting_iff {depth : Nat} {means : Value → α → Prop}
    {text : List Char} {a : α} :
    Padded (Denoting depth means) text a
      ↔ ∃ v, Padded (Within depth) text v ∧ means v a := by
  constructor
  · intro hall
    obtain ⟨hblanks, hwithin, hmeans⟩ := hall
    exact ⟨_, .mk hblanks hwithin, hmeans⟩
  · intro hall
    obtain ⟨v, ⟨hblanks, hwithin⟩, hmeans⟩ := hall
    exact .mk hblanks (.mk hwithin hmeans)

theorem afterKey_denoting_iff {depth : Nat} {means : Value → α → Prop}
    {text : List Char} {a : α} :
    AfterKey (Denoting depth means) text a
      ↔ ∃ v, AfterKey (Within depth) text v ∧ means v a := by
  constructor
  · intro hall
    obtain ⟨hblanks, h⟩ := hall
    obtain ⟨v, hv, hmeans⟩ := padded_denoting_iff.1 h
    exact ⟨v, .mk hblanks hv, hmeans⟩
  · intro hall
    obtain ⟨v, ⟨hblanks, hv⟩, hmeans⟩ := hall
    exact .mk hblanks (padded_denoting_iff.2 ⟨v, hv, hmeans⟩)

variable {shape : Value → Except Mismatch α}

/-- A glimpse at a value without brackets is the value. -/
theorem restOfGlimpse_eq_of_depth {c : Char} {text rest : List Char} {v : Value}
    (hdepth : v.depth = 0) :
    (restOfGlimpse c).run text = .ok (v, rest)
      ↔ (restOfValue none c).run text = .ok (v, rest) := by
  unfold restOfGlimpse
  -- a bracket is taken for an empty one, and that has a level
  split
  · next hc =>
    constructor
    · intro h
      cases h
      cases hdepth
    · intro h
      unfold restOfValue at h
      rw [hc] at h
      cases h
  · next hc =>
    constructor
    · intro h
      cases h
      cases hdepth
    · intro h
      unfold restOfValue at h
      rw [hc] at h
      cases h
  · exact Iff.rfl

/-- A field is read in the forms that its shape has something for, if that is
never an array nor an object. -/
theorem field_reads (hscalar : ∀ {v a}, shape v = .ok a → v.depth = 0) :
    (field shape).Reads (Padded (Denoting 0 (Shapes shape))) where
  sound := by
    intro text rest a h
    obtain ⟨c, middle, hfirst, h⟩ := run_bind_eq_ok_iff.1 h
    obtain ⟨v, middle', hv, h⟩ := run_bind_eq_ok_iff.1 h
    obtain ⟨hshape, rfl⟩ := run_ofShape_eq_ok_iff.1 h
    rw [restOfGlimpse_eq_of_depth (hscalar hshape)] at hv
    have hread : (value 0).run text = .ok (v, rest) :=
      run_bind_eq_ok_iff.2 ⟨c, middle, hfirst, hv⟩
    obtain ⟨front, htext, hblanks, hwithin⟩ := (value_reads 0).sound hread
    exact ⟨_, htext, hblanks, hwithin, hshape⟩
  complete := by
    intro front rest a h hrest
    obtain ⟨hblanks, hwithin, hshape⟩ := h
    have hdepth := hscalar hshape
    have hread := (value_reads 0).complete (.mk hblanks hwithin) hrest
    obtain ⟨c, middle, hfirst, hv⟩ := run_bind_eq_ok_iff.1 hread
    unfold field
    rw [run_bind_of_ok hfirst,
      run_bind_of_ok ((restOfGlimpse_eq_of_depth hdepth).2 hv)]
    exact run_ofShape_eq_ok_iff.2 ⟨hshape, rfl⟩

end Fields

-- =================================================================== texts

/-- A whole text is read iff it is of the form with blanks behind it. -/
theorem readWhole_eq_ok_iff {reader : Reader α} {form : List Char → α → Prop}
    (hreader : reader.Reads form) {text : List Char} {a : α} :
    readWhole reader text = .ok a
      ↔ ∃ front blanks, text = front ++ blanks ∧ form front a
          ∧ Blanks blanks := by
  unfold readWhole
  constructor
  · intro h
    split at h
    · cases h
    · next a' rest hrun =>
      split at h
      · next hempty =>
        cases h
        obtain ⟨front, htext, hform⟩ := hreader.sound hrun
        rw [List.isEmpty_iff, skipBlanks_eq_nil_iff] at hempty
        exact ⟨front, rest, htext, hform, hempty⟩
      · cases h
  · intro hall
    obtain ⟨front, blanks, rfl, hform, hblanks⟩ := hall
    have hends : Ends blanks := by
      rw [← List.append_nil blanks]
      exact ends_append hblanks ends_nil
    rw [hreader.complete hform hends]
    dsimp only
    rw [skipBlanks_eq_nil_iff.2 hblanks]
    rfl

end Dossier.Json
