/-
What the readers make of a text that is cut off before its end.

What stands between quotes or brackets is unfinished as long as the last of
them is missing, wherever the text ends: inside a word, an escape or a key,
or between two members. A number is the one exception, for the digits that
are left of it are a number as well. So on a front of what it reads a reader
is `Starved`: it calls the text unfinished, or it has taken all that is there.
No bracket is closed by a text that is at its end, which makes the second
case unfinished as well as soon as there is a bracket around the number.

The induction follows that of the readers, on the depth of brackets for
values and on the items for the two loops. All numbers have to be integers
of 64 bits, as a number with an exponent may lose it and be too large.
-/
import Dossier.Proofs.Json.Writing

namespace Dossier.Json

variable {α β σ : Type}

-- ================================================================= fronts

/-- The text goes on behind the front. -/
def IsFront (front text : List Char) : Prop :=
  ∃ lost, lost ≠ [] ∧ text = front ++ lost

theorem not_isFront_nil {front : List Char} : ¬ IsFront front [] := by
  rintro ⟨lost, hlost, htext⟩
  exact hlost (List.append_eq_nil_iff.1 htext.symm).2

/-- A front of a text is nothing, or it begins as the text does. -/
theorem IsFront.cons_cases {front text : List Char} {c : Char}
    (h : IsFront front (c :: text)) :
    front = [] ∨ ∃ front', front = c :: front' ∧ IsFront front' text := by
  obtain ⟨lost, hlost, htext⟩ := h
  cases front with
  | nil => exact Or.inl rfl
  | cons d front =>
      obtain ⟨rfl, hrest⟩ := List.cons.inj htext
      exact Or.inr ⟨front, rfl, lost, hlost, hrest⟩

/-- Of two texts the first one is cut, or it is whole and the second one is. -/
theorem IsFront.append_cases {front left right : List Char}
    (h : IsFront front (left ++ right)) :
    IsFront front left
      ∨ ∃ front', front = left ++ front' ∧ IsFront front' right := by
  induction left generalizing front with
  | nil => exact Or.inr ⟨front, rfl, h⟩
  | cons c left ih =>
      rcases h.cons_cases with rfl | ⟨front', rfl, hfront'⟩
      · exact Or.inl ⟨c :: left, List.cons_ne_nil _ _, rfl⟩
      · rcases ih hfront' with ⟨lost, hlost, rfl⟩ | ⟨behind, rfl, hbehind⟩
        · exact Or.inl ⟨lost, hlost, rfl⟩
        · exact Or.inr ⟨behind, rfl, hbehind⟩

theorem IsFront.eq_nil {front : List Char} {c : Char} (h : IsFront front [c]) :
    front = [] := by
  rcases h.cons_cases with rfl | ⟨front', -, hfront⟩
  · rfl
  · exact absurd hfront not_isFront_nil

/-- What holds of all characters holds of those that are left. -/
theorem IsFront.forall_mem {front text : List Char} (h : IsFront front text)
    {P : Char → Prop} (hall : ∀ c ∈ text, P c) : ∀ c ∈ front, P c := by
  obtain ⟨lost, -, rfl⟩ := h
  exact fun c hc => hall c (List.mem_append_left _ hc)

/-- What ends a numeral ends it also when it is cut. -/
theorem Ends.of_isFront {front text : List Char} (h : Ends text)
    (hfront : IsFront front text) : Ends front := by
  obtain ⟨lost, -, rfl⟩ := hfront
  cases front with
  | nil => exact ends_nil
  | cons c front => exact ends_cons (h c rfl) front

theorem IsFront.cons {front text : List Char} (h : IsFront front text) (c : Char) :
    IsFront (c :: front) (c :: text) := by
  obtain ⟨lost, hlost, rfl⟩ := h
  exact ⟨lost, hlost, rfl⟩

-- ================================================================ starving

/-- What comes of a text that ends too early: it is unfinished, or everything has
been taken and there is no more. -/
inductive Starved : Outcome α → Prop
  | unfinished : Starved (.error .unfinished)
  | taken (value : α) : Starved (.ok (value, []))

/-- Fronts of the texts that stand for the values leave the reader starved. -/
def Reader.Starves (reader : Reader α) (form : List Char → β → Prop)
    (P : β → Prop) : Prop :=
  ∀ {front text : List Char} {value : β}, form text value → P value →
    IsFront front text → Starved (reader.run front)

theorem run_bind_of_unfinished {first : Reader α} {next : α → Reader β}
    {text : List Char} (h : first.run text = .error .unfinished) :
    (first >>= next).run text = .error .unfinished := by
  rw [Reader.run_bind, h]

theorem Starved.of_unfinished {first : Reader α} {next : α → Reader β}
    {text : List Char} (h : first.run text = .error .unfinished) :
    Starved ((first >>= next).run text) := by
  rw [run_bind_of_unfinished h]
  exact Starved.unfinished

/-- Nothing that still has to come is there behind a starved reader. -/
theorem Starved.run_bind {first : Reader α} {next : α → Reader β}
    {text : List Char} (h : Starved (first.run text))
    (hnext : ∀ a, Starved ((next a).run [])) :
    Starved ((first >>= next).run text) := by
  rw [Reader.run_bind]
  generalize first.run text = outcome at h
  cases h with
  | unfinished => exact Starved.unfinished
  | taken value => exact hnext value

-- ================================================================== blanks

theorem Blanks.of_isFront {front blanks : List Char} (h : Blanks blanks)
    (hfront : IsFront front blanks) : Blanks front :=
  hfront.forall_mem h

theorem first_run_of_blanks {text : List Char} (h : Blanks text) :
    first.run text = .error .unfinished := by
  show firstOf text = _
  rw [firstOf, skipBlanks_eq_nil_iff.2 h]

theorem colon_run_of_blanks {text : List Char} (h : Blanks text) :
    colon.run text = .error .unfinished :=
  run_bind_of_unfinished (first_run_of_blanks h)

/-- What is told by its first character is unfinished if that is missing, and else
starved as what follows that character is. -/
theorem starves_of_first {next : Char → Reader α}
    {form : List Char → β → Prop} {P : β → Prop}
    (hstarts : ∀ {text b}, form text b → Starts text)
    (hnext : ∀ {c front text b}, form (c :: text) b → P b →
      IsFront front text → Starved ((next c).run front)) :
    (do next (← first) : Reader α).Starves (Padded form) P := by
  intro front text b hform hb hfront
  obtain ⟨hblanks, hform⟩ := hform
  obtain ⟨c, tail, rfl, hblank, -⟩ := hstarts hform
  rcases hfront.append_cases with hshort | ⟨behind, rfl, hbehind⟩
  · exact .of_unfinished (first_run_of_blanks (hblanks.of_isFront hshort))
  rcases hbehind.cons_cases with rfl | ⟨inner, rfl, hinner⟩
  · rw [List.append_nil]
    exact .of_unfinished (first_run_of_blanks hblanks)
  · rw [run_bind_of_ok (first_run_eq_ok_iff.2 ⟨hblank, _, hblanks, rfl⟩)]
    exact hnext hform hb hinner

-- =================================================================== words

theorem word_run_of_isFront {front w : List Char} (h : IsFront front w) :
    (word w).run front = .error .unfinished := by
  show takeWord w front = _
  induction w generalizing front with
  | nil => exact absurd h not_isFront_nil
  | cons c w ih =>
      rcases h.cons_cases with rfl | ⟨inner, rfl, hinner⟩
      · rfl
      · rw [takeWord, if_pos rfl]
        exact ih hinner

-- ================================================================= escapes

/-- A hexadecimal digit takes one octet. -/
theorem utf8Size_of_hexValue? {c : Char} {n : Nat} (h : hexValue? c = some n) :
    c.utf8Size = 1 := by
  have hcode : c.toNat ≤ 0x7F := by
    unfold hexValue? at h
    split at h
    · next hdigit =>
      simp only [Char.isDigit, Bool.and_eq_true, decide_eq_true_eq] at hdigit
      have hle : c.toNat ≤ '9'.toNat := hdigit.2
      exact Nat.le_trans hle (by decide)
    split at h
    · next hletter =>
      have hle : c.toNat ≤ 'f'.toNat := hletter.2
      exact Nat.le_trans hle (by decide)
    split at h
    · next hletter =>
      have hle : c.toNat ≤ 'F'.toNat := hletter.2
      exact Nat.le_trans hle (by decide)
    · cases h
  exact Char.utf8Size_eq_one_iff.2 (UInt32.le_iff_toNat_le.2 hcode)

/-- Fewer than four digits are an escape that is unfinished. -/
theorem takeCode_of_isFront {front digits : List Char} {code : Nat}
    (h : Code digits code) (hfront : IsFront front digits) :
    takeCode front = .error .unfinished := by
  obtain @⟨a, b, c, d, code, hcode⟩ := h
  unfold hexValue4? at hcode
  simp only [Option.bind_eq_bind, Option.bind_eq_some_iff] at hcode
  obtain ⟨na, ha, nb, hb, nc, hc, -⟩ := hcode
  have ha := utf8Size_of_hexValue? ha
  have hb := utf8Size_of_hexValue? hb
  have hc := utf8Size_of_hexValue? hc
  rcases hfront.cons_cases with rfl | ⟨front₁, rfl, hfront₁⟩
  · rfl
  rcases hfront₁.cons_cases with rfl | ⟨front₂, rfl, hfront₂⟩
  · simp [takeCode, octetCount, ha]
  rcases hfront₂.cons_cases with rfl | ⟨front₃, rfl, hfront₃⟩
  · simp [takeCode, octetCount, ha, hb]
  · rw [hfront₃.eq_nil]
    simp [takeCode, octetCount, ha, hb, hc]

/-- The second half of a surrogate pair is wanted as soon as the first is there. -/
theorem takePartner_of_isFront {front digits : List Char} {low : Nat}
    (h : Code digits low) (hfront : IsFront front ('\\' :: 'u' :: digits)) :
    takePartner front = .error .unfinished := by
  rcases hfront.cons_cases with rfl | ⟨front₁, rfl, hfront₁⟩
  · rfl
  rcases hfront₁.cons_cases with rfl | ⟨front₂, rfl, hfront₂⟩
  · rfl
  · simp only [takePartner, takeCode_of_isFront h hfront₂]

theorem takeEscape_of_isFront {front text : List Char} {c : Char}
    (h : Spelling ('\\' :: text) c) (hfront : IsFront front text) :
    takeEscape front = .error .unfinished := by
  have hu : simpleEscape? 'u' = none := by decide
  cases h with
  | plain hquote hbackslash hcontrol => exact absurd rfl hbackslash
  | letter hletter =>
      rw [hfront.eq_nil]
      rfl
  | code hdigits hhigh hlow =>
      rcases hfront.cons_cases with rfl | ⟨inner, rfl, hinner⟩
      · rfl
      · simp only [takeEscape, hu, ne_eq, not_true_eq_false, if_false,
          takeCode_of_isFront hdigits hinner]
  | pair hdigits hdigits' hhigh hlow =>
      rcases hfront.cons_cases with rfl | ⟨inner, rfl, hinner⟩
      · rfl
      rcases hinner.append_cases with hshort | ⟨behind, rfl, hbehind⟩
      · simp only [takeEscape, hu, ne_eq, not_true_eq_false, if_false,
          takeCode_of_isFront hdigits hshort]
      · simp only [takeEscape, hu, ne_eq, not_true_eq_false, if_false,
          takeCode_append hdigits, hhigh,
          isLowSurrogate_of_isHighSurrogate hhigh, Bool.false_eq_true, if_true,
          takePartner_of_isFront hdigits' hbehind]

-- ================================================================ literals

theorem takeLiteral_of_escape {text : List Char} {fault : Fault}
    (h : takeEscape text = .error fault) (done : List Char) :
    takeLiteral done ('\\' :: text) = .error fault := by
  rw [takeLiteral, if_neg (by decide), if_pos rfl]
  split
  · next h' =>
    rw [h] at h'
    cases h'
  · next h' =>
    rw [h] at h'
    cases h'
    rfl

theorem takeLiteral_nil (done : List Char) :
    takeLiteral done [] = .error .unfinished := by
  rw [takeLiteral]

/-- Inside a spelling the literal is unfinished. -/
theorem takeLiteral_of_isFront_spelling {front text : List Char} {c : Char}
    (h : Spelling text c) (hfront : IsFront front text) (done : List Char) :
    takeLiteral done front = .error .unfinished := by
  have hescape : ∀ tail, text = '\\' :: tail →
      takeLiteral done front = .error .unfinished := by
    rintro tail rfl
    rcases hfront.cons_cases with rfl | ⟨inner, rfl, hinner⟩
    · exact takeLiteral_nil done
    · exact takeLiteral_of_escape (takeEscape_of_isFront h hinner) done
  cases h with
  | plain hquote hbackslash hcontrol =>
      rw [hfront.eq_nil]
      exact takeLiteral_nil done
  | letter hletter => exact hescape _ rfl
  | code hdigits hhigh hlow => exact hescape _ rfl
  | pair hdigits hdigits' hhigh hlow => exact hescape _ rfl

/-- As long as its last quote is missing the literal is unfinished. -/
theorem takeLiteral_of_isFront {front text cs : List Char}
    (h : Spellings text cs) (hfront : IsFront front (text ++ ['"']))
    (done : List Char) : takeLiteral done front = .error .unfinished := by
  induction h generalizing front done with
  | nil =>
      rw [hfront.eq_nil]
      exact takeLiteral_nil done
  | cons hspelling hs ih =>
      rw [List.append_assoc] at hfront
      rcases hfront.append_cases with hshort | ⟨behind, rfl, hbehind⟩
      · exact takeLiteral_of_isFront_spelling hspelling hshort done
      · rw [takeLiteral_spelling hspelling]
        exact ih hbehind _

theorem restOfLiteral_run_of_isFront {front text : List Char} {value : String}
    (h : Literal ('"' :: text) value) (hfront : IsFront front text) :
    restOfLiteral.run front = .error .unfinished := by
  cases h with
  | mk hspellings =>
      unfold restOfLiteral
      dsimp only
      rw [takeLiteral_of_isFront hspellings hfront]

-- ================================================================= numbers

/-- What is left of a whole part behind its first digit is one as well. -/
theorem Numeral.Whole.of_isFront {c : Char} {front digits : List Char}
    (h : Whole (c :: digits)) (hfront : IsFront front digits) :
    Whole (c :: front) := by
  cases h with
  | zero => exact absurd hfront not_isFront_nil
  | digits hd hzero hdigits =>
      exact .digits hd hzero (hfront.forall_mem hdigits)

/-- Fewer digits make no greater value. -/
theorem digitsValue_le_of_isFront {front digits : List Char}
    (h : IsFront front digits) : digitsValue front ≤ digitsValue digits := by
  obtain ⟨lost, -, rfl⟩ := h
  rw [digitsValue_eq_ofDigitChars, digitsValue_eq_ofDigitChars,
    Nat.ofDigitChars_append]
  exact le_ofDigitChars _ lost

/-- Digits that do not start with a zero have a value. -/
theorem digitsValue_pos {d : Char} {digits : List Char} (hd : d.isDigit = true)
    (hzero : d ≠ '0') : 0 < digitsValue (d :: digits) := by
  have hle : '0'.toNat ≤ d.toNat := by
    simp only [Char.isDigit, Bool.and_eq_true, decide_eq_true_eq] at hd
    exact hd.1
  have hne : d.toNat ≠ '0'.toNat := fun heq => hzero (Char.toNat_inj.1 heq)
  have hvalue := le_ofDigitChars (10 * 0 + (d.toNat - '0'.toNat)) digits
  rw [digitsValue_eq_ofDigitChars, Nat.ofDigitChars_cons]
  omega

/-- A number without a sign is a number wherever it is cut. -/
theorem restOfNumber_run_of_whole {c : Char} {front digits : List Char}
    (hwhole : Numeral.Whole (c :: digits))
    (hfits : digitsValue (c :: digits) < wordLimit)
    (hfront : IsFront front digits) :
    Starved ((restOfNumber c).run front) := by
  have hwhole' := hwhole.of_isFront hfront
  have hle := digitsValue_le_of_isFront (hfront.cons c)
  have hwritten : Numeral.Written (c :: front) ⟨false, c :: front, [], none⟩ :=
    Numeral.written_plain_iff.2 ⟨hwhole', rfl⟩
  have hrun := restOfNumber_run_append hwritten
    (.natural ⟨rfl, rfl⟩ rfl (Nat.lt_of_le_of_lt hle hfits)) ends_nil
  rw [List.append_nil] at hrun
  rw [hrun]
  exact Starved.taken _

/-- Behind a minus a digit has to follow, and then all is a number again. -/
theorem restOfNumber_run_of_minus {front whole : List Char}
    (hwhole : Numeral.Whole whole) (hpos : 0 < digitsValue whole)
    (hfits : digitsValue whole ≤ 2 ^ 63) (hfront : IsFront front whole) :
    Starved ((restOfNumber '-').run front) := by
  cases hwhole with
  | zero => exact absurd hpos (by decide)
  | @digits d digits hd hzero hdigits =>
      rcases hfront.cons_cases with rfl | ⟨inner, rfl, hinner⟩
      · exact Starved.unfinished
      · have hwhole' : Numeral.Whole (d :: inner) :=
          .digits hd hzero (hinner.forall_mem hdigits)
        have hwritten : Numeral.Written ('-' :: (d :: inner))
            ⟨true, d :: inner, [], none⟩ :=
          Numeral.written_plain_iff.2 ⟨hwhole', rfl⟩
        have hle := digitsValue_le_of_isFront hfront
        have hrun := restOfNumber_run_append hwritten
          (.negative ⟨rfl, rfl⟩ rfl (digitsValue_pos hd hzero)
            (Nat.le_trans hle hfits)) ends_nil
        rw [List.append_nil] at hrun
        rw [hrun]
        exact Starved.taken _

/-- Of an integer there is nothing left behind a minus, or there is a number. -/
theorem restOfNumber_run_of_isFront {c : Char} {front text : List Char} {n : Int}
    (h : Spells (c :: text) (.number (.integer n)))
    (hfront : IsFront front text) : Starved ((restOfNumber c).run front) := by
  obtain ⟨numeral, hwritten, hstands⟩ := spells_number_iff.1 h
  obtain ⟨negative, whole, fraction, exponent⟩ := numeral
  generalize hx : Number.integer n = x at hstands
  cases hstands with
  | natural hplain hsign hfits =>
      obtain ⟨rfl, rfl⟩ := hplain
      obtain ⟨hwhole, htext⟩ := Numeral.written_plain_iff.1 hwritten
      obtain rfl : negative = false := hsign
      obtain rfl : c :: text = whole := htext
      exact restOfNumber_run_of_whole hwhole hfits hfront
  | negative hplain hsign hpos hfits =>
      obtain ⟨rfl, rfl⟩ := hplain
      obtain ⟨hwhole, htext⟩ := Numeral.written_plain_iff.1 hwritten
      obtain rfl : negative = true := hsign
      obtain ⟨rfl, rfl⟩ := List.cons.inj htext
      exact restOfNumber_run_of_minus hwhole hpos hfits hfront
  | minus hplain hsign hrange hfits hmagnitude => cases hx
  | scaled hlong hwhole hfraction hmagnitude => cases hx

-- =================================================================== leads

/-- What is left of a lead is blank, or a lead itself. -/
theorem Lead.of_isFront {isFirst : Bool} {front lead : List Char}
    (h : Lead isFirst lead) (hfront : IsFront front lead) :
    Blanks front ∨ Lead isFirst front := by
  cases h with
  | first hblanks => exact Or.inl (hblanks.of_isFront hfront)
  | next hblanks hblanks' =>
      rcases hfront.append_cases with hshort | ⟨behind, rfl, hbehind⟩
      · exact Or.inl (hblanks.of_isFront hshort)
      rcases hbehind.cons_cases with rfl | ⟨inner, rfl, hinner⟩
      · rw [List.append_nil]
        exact Or.inl hblanks
      · exact Or.inr (.next hblanks (hblanks'.of_isFront hinner))

theorem another_of_blanks {isFirst : Bool} {text : List Char}
    (h : Blanks text) : another isFirst text = .error .unfinished := by
  unfold another
  rw [skipBlanks_eq_nil_iff.2 h]

/-- Behind a lead there has to be an element. -/
theorem another_of_lead {isFirst : Bool} {lead : List Char}
    (h : Lead isFirst lead) : another isFirst lead = .error .unfinished := by
  cases h with
  | first hblanks => exact another_of_blanks hblanks
  | next hblanks hblanks' =>
      have hcomma : isBlank ',' = false := by decide
      unfold another
      rw [skipBlanks_append hblanks, skipBlanks_cons hcomma]
      dsimp only
      rw [if_neg (by decide), if_neg (by decide), if_pos rfl,
        skipBlanks_eq_nil_iff.2 hblanks']

theorem anotherKey_of_blanks {isFirst : Bool} {text : List Char}
    (h : Blanks text) : anotherKey isFirst text = .error .unfinished := by
  unfold anotherKey
  rw [skipBlanks_eq_nil_iff.2 h]

/-- Behind a lead there has to be a key. -/
theorem anotherKey_of_lead {isFirst : Bool} {lead : List Char}
    (h : Lead isFirst lead) : anotherKey isFirst lead = .error .unfinished := by
  cases h with
  | first hblanks => exact anotherKey_of_blanks hblanks
  | next hblanks hblanks' =>
      have hcomma : isBlank ',' = false := by decide
      unfold anotherKey
      rw [skipBlanks_append hblanks, skipBlanks_cons hcomma]
      dsimp only
      rw [if_neg (by decide), if_neg (by decide), if_pos rfl,
        skipBlanks_eq_nil_iff.2 hblanks']

/-- Where the text ends in front of an item or before it, its lead is all there
is, or less. -/
theorem IsFront.lead_cases {isFirst : Bool} {front lead text : List Char}
    (hlead : Lead isFirst lead) (h : IsFront front (lead ++ text)) :
    (Blanks front ∨ Lead isFirst front)
      ∨ ∃ c inner, front = lead ++ (c :: inner)
          ∧ IsFront (c :: inner) text := by
  rcases h.append_cases with hshort | ⟨behind, rfl, hbehind⟩
  · exact Or.inl (hlead.of_isFront hshort)
  · cases behind with
    | nil =>
        rw [List.append_nil]
        exact Or.inl (Or.inr hlead)
    | cons c inner => exact Or.inr ⟨c, inner, rfl, hbehind⟩

-- ================================================================ elements

section Elements

variable {item : Reader α} {form : List Char → α → Prop} {P : α → Prop}
  {isFirst : Bool}

theorem takeElements_of_unfinished {text : List Char}
    (h : another isFirst text = .error .unfinished) (done : List α) :
    takeElements item isFirst done text = .error .unfinished := by
  rw [takeElements]
  split
  · next h' => rw [h] at h'; cases h'; rfl
  · next h' => rw [h] at h'; cases h'
  · next h' => rw [h] at h'; cases h'

/-- An element that is all there is leaves the array open. -/
theorem takeElements_of_starved {text middle : List Char}
    (h : another isFirst text = .ok (true, middle))
    (hitem : Starved (item.run middle)) (done : List α) :
    takeElements item isFirst done text = .error .unfinished := by
  generalize hrun : item.run middle = outcome at hitem
  cases hitem with
  | taken value =>
      rw [takeElements_of_item h hrun]
      exact takeElements_of_unfinished (another_of_blanks blanks_nil) _
  | unfinished =>
      rw [takeElements]
      split
      · next h' => rw [h] at h'; cases h'
      · next h' => rw [h] at h'; cases h'
      · next h' =>
        rw [h] at h'
        cases h'
        split
        · next hrun' => rw [hrun] at hrun'; cases hrun'; rfl
        · next hrun' => rw [hrun] at hrun'; cases hrun'

/-- As long as its bracket is missing an array is unfinished. -/
theorem takeElements_of_isFront (hitem : item.Reads (Padded form))
    (hstarves : item.Starves (Padded form) P)
    (hstarts : ∀ {text value}, form text value → Starts text)
    {front text : List Char} {new : List α}
    (h : Left (Padded form) isFirst text new) (hnew : ∀ v ∈ new, P v)
    (hfront : IsFront front (text ++ [']'])) (done : List α) :
    takeElements item isFirst done front = .error .unfinished := by
  induction new generalizing isFirst front text done with
  | nil =>
      rcases h.cases_lead with ⟨hblanks, -⟩ | ⟨_, _, _, _, _, _, _, _, _, hnil⟩
      · refine takeElements_of_unfinished (another_of_blanks ?_) done
        rcases hfront.append_cases with hshort | ⟨behind, rfl, hbehind⟩
        · exact hblanks.of_isFront hshort
        · rw [hbehind.eq_nil, List.append_nil]
          exact hblanks
      · cases hnil
  | cons value values ih =>
      rcases h.cases_lead with ⟨-, hnil⟩
        | ⟨lead, text, texts, value', values', hlead, hform, hs, rfl, hcons⟩
      · cases hnil
      · cases hcons
        rw [List.forall_mem_cons] at hnew
        have hleft : Left (Padded form) false texts values := hs
        rw [List.append_assoc, List.append_assoc] at hfront
        rcases hfront.lead_cases hlead with hwait | ⟨c, inner, rfl, hinner⟩
        · refine takeElements_of_unfinished ?_ done
          rcases hwait with hblanks | hlead
          · exact another_of_blanks hblanks
          · exact another_of_lead hlead
        obtain ⟨d, tail, rfl, hblank, hclose⟩ := hstarts hform
        rcases hinner.append_cases with hshort | ⟨behind, hbehind, hrest⟩
        · -- the element is cut
          have hcd : c = d := by
            rcases hshort.cons_cases with hnil | ⟨front', heq, -⟩
            · cases hnil
            · exact (List.cons.inj heq).1
          subst hcd
          have hanother : another isFirst (lead ++ (c :: inner))
              = .ok (true, c :: inner) :=
            another_eq_true_iff.2
              ⟨⟨c, inner, rfl, hblank, hclose⟩, lead, hlead, rfl⟩
          exact takeElements_of_starved hanother
            (hstarves (.of_form hform) hnew.1 hshort) done
        · -- the element is whole, and what is cut stands behind it
          have hends := (hs.ends (ends_cons (c := ']') (by decide) [])).of_isFront
            hrest
          rw [hbehind, takeElements_cons hitem hlead hform
            ⟨d, tail, rfl, hblank, hclose⟩ hends]
          exact ih hleft hnew.2 hrest _

theorem elements_run_of_isFront (hitem : item.Reads (Padded form))
    (hstarves : item.Starves (Padded form) P)
    (hstarts : ∀ {text value}, form text value → Starts text)
    {front text : List Char} {new : List α} (h : Items (Padded form) text new)
    (hnew : ∀ v ∈ new, P v) (hfront : IsFront front (text ++ [']'])) :
    (elements item true).run front = .error .unfinished := by
  have hleft : Left (Padded form) true text new := h
  exact takeElements_of_isFront hitem hstarves hstarts hleft hnew hfront []

end Elements

-- ================================================================= members

/-- Where a member is cut behind its key, the step that takes it is starved. -/
def StepStarves (step : σ → String → Reader σ) (form : List Char → β → Prop)
    (change : σ → String × β → Except Mismatch σ) (P : β → Prop) : Prop :=
  ∀ {state state' : σ} {key : String} {front text : List Char} {value : β},
    AfterKey form text value → P value →
      change state (key, value) = .ok state' → IsFront front text →
        Starved ((step state key).run front)

section Members

variable {step : σ → String → Reader σ} {form : List Char → β → Prop}
  {change : σ → String × β → Except Mismatch σ} {P : β → Prop}
  {isFirst : Bool}

theorem takeMembers_of_unfinished {text : List Char}
    (h : anotherKey isFirst text = .error .unfinished) (state : σ) :
    takeMembers step isFirst state text = .error .unfinished := by
  rw [takeMembers]
  split
  · next h' => rw [h] at h'; cases h'; rfl
  · next h' => rw [h] at h'; cases h'
  · next h' => rw [h] at h'; cases h'

theorem takeMembers_of_unfinished_key {text middle : List Char}
    (h : anotherKey isFirst text = .ok (true, middle))
    (hkey : restOfLiteral.run middle = .error .unfinished) (state : σ) :
    takeMembers step isFirst state text = .error .unfinished := by
  rw [takeMembers]
  split
  · next h' => rw [h] at h'; cases h'
  · next h' => rw [h] at h'; cases h'
  · next h' =>
    rw [h] at h'
    cases h'
    split
    · next hkey' => rw [hkey] at hkey'; cases hkey'; rfl
    · next hkey' => rw [hkey] at hkey'; cases hkey'

/-- A member that is all there is leaves the object open. -/
theorem takeMembers_of_starved {text middle middle' : List Char} {key : String}
    {state : σ} (h : anotherKey isFirst text = .ok (true, middle))
    (hkey : restOfLiteral.run middle = .ok (key, middle'))
    (hstep : Starved ((step state key).run middle')) :
    takeMembers step isFirst state text = .error .unfinished := by
  generalize hrun : (step state key).run middle' = outcome at hstep
  cases hstep with
  | taken state' =>
      rw [takeMembers_of_member h hkey hrun]
      exact takeMembers_of_unfinished (anotherKey_of_blanks blanks_nil) _
  | unfinished =>
      rw [takeMembers]
      split
      · next h' => rw [h] at h'; cases h'
      · next h' => rw [h] at h'; cases h'
      · next h' =>
        rw [h] at h'
        cases h'
        split
        · next hkey' => rw [hkey] at hkey'; cases hkey'
        · next hkey' =>
          rw [hkey] at hkey'
          cases hkey'
          split
          · next hrun' => rw [hrun] at hrun'; cases hrun'; rfl
          · next hrun' => rw [hrun] at hrun'; cases hrun'

/-- As long as its bracket is missing an object is unfinished. -/
theorem takeMembers_of_isFront (hstep : Steps step form change)
    (hstarves : StepStarves step form change P) {front text : List Char}
    {new : List (String × β)}
    (h : Left (Padded (Member form)) isFirst text new)
    (hnew : ∀ m ∈ new, P m.2) {state state' : σ}
    (hfold : new.foldlM change state = .ok state')
    (hfront : IsFront front (text ++ ['\x7d'])) :
    takeMembers step isFirst state front = .error .unfinished := by
  induction new generalizing isFirst front text state with
  | nil =>
      rcases h.cases_lead with ⟨hblanks, -⟩ | ⟨_, _, _, _, _, _, _, _, _, hnil⟩
      · refine takeMembers_of_unfinished (anotherKey_of_blanks ?_) state
        rcases hfront.append_cases with hshort | ⟨behind, rfl, hbehind⟩
        · exact hblanks.of_isFront hshort
        · rw [hbehind.eq_nil, List.append_nil]
          exact hblanks
      · cases hnil
  | cons member members ih =>
      rcases h.cases_lead with ⟨-, hnil⟩
        | ⟨lead, text, texts, member', members', hlead, hform, hs, rfl, hcons⟩
      · cases hnil
      · cases hcons
        rw [List.forall_mem_cons] at hnew
        have hleft : Left (Padded (Member form)) false texts members := hs
        obtain ⟨hliteral, hafter⟩ := hform
        obtain ⟨name, rfl⟩ := hliteral.exists_cons
        rw [List.foldlM_cons] at hfold
        obtain ⟨state₁, hchange, hfold⟩ := bind_eq_ok_iff.1 hfold
        simp only [List.append_assoc, List.cons_append] at hfront
        rcases hfront.lead_cases hlead with hwait | ⟨c, inner, rfl, hinner⟩
        · refine takeMembers_of_unfinished ?_ state
          rcases hwait with hblanks | hlead
          · exact anotherKey_of_blanks hblanks
          · exact anotherKey_of_lead hlead
        rcases hinner.cons_cases with hnil | ⟨quoted, hcons, hquoted⟩
        · cases hnil
        obtain ⟨rfl, rfl⟩ := List.cons.inj hcons
        have hanother : anotherKey isFirst (lead ++ '"' :: inner)
            = .ok (true, inner) :=
          anotherKey_eq_true_iff.2 ⟨lead, hlead, rfl⟩
        rcases hquoted.append_cases with hshort | ⟨behind, rfl, hbehind⟩
        · -- the key is cut
          exact takeMembers_of_unfinished_key hanother
            (restOfLiteral_run_of_isFront hliteral hshort) state
        have hkey := restOfLiteral_run_append hliteral behind
        rcases hbehind.append_cases with hshort | ⟨rest, rfl, hrest⟩
        · -- the value is cut, or nothing of it is there
          exact takeMembers_of_starved hanother hkey
            (hstarves hafter hnew.1 hchange hshort)
        · -- the member is whole, and what is cut stands behind it
          have hends := (hs.ends (ends_cons (c := '\x7d') (by decide) [])).of_isFront
            hrest
          rw [takeMembers_of_member hanother hkey
            (hstep.complete hafter hchange hends)]
          exact ih hleft hnew.2 hfold hrest

theorem members_run_of_isFront (hstep : Steps step form change)
    (hstarves : StepStarves step form change P) {front text : List Char}
    {new : List (String × β)} (h : Items (Padded (Member form)) text new)
    (hnew : ∀ m ∈ new, P m.2) {start state : σ}
    (hfold : new.foldlM change start = .ok state)
    (hfront : IsFront front (text ++ ['\x7d'])) :
    (members step start).run front = .error .unfinished := by
  have hleft : Left (Padded (Member form)) true text new := h
  exact takeMembers_of_isFront hstep hstarves hleft hnew hfold hfront

/-- Behind a key there is no value without a colon, and with one the value is
what is cut. -/
theorem starved_of_colon {form : List Char → β → Prop} {reader : Reader α}
    {next : α → Reader σ} {P : β → Prop}
    (hreader : reader.Starves (Padded form) P)
    (hnext : ∀ a, Starved ((next a).run [])) {front text : List Char} {value : β}
    (h : AfterKey form text value) (hvalue : P value)
    (hfront : IsFront front text) :
    Starved ((do
      colon
      next (← reader) : Reader σ).run front) := by
  obtain @⟨blanks, text, _, hblanks, hpadded⟩ := h
  rcases hfront.append_cases with hshort | ⟨behind, rfl, hbehind⟩
  · exact .of_unfinished (colon_run_of_blanks (hblanks.of_isFront hshort))
  rcases hbehind.cons_cases with rfl | ⟨inner, rfl, hinner⟩
  · rw [List.append_nil]
    exact .of_unfinished (colon_run_of_blanks hblanks)
  · rw [run_bind_of_ok (colon_run_eq_ok_iff (u := ()).2 ⟨blanks, hblanks, rfl⟩)]
    exact (hreader hpadded hvalue hinner).run_bind hnext

theorem memberStep_starves {form : List Char → Value → Prop}
    {reader : Reader Value} {P : Value → Prop}
    (hreader : reader.Starves (Padded form) P) :
    StepStarves (memberStep reader) form
      (fun done member => .ok (member :: done)) P := by
  intro done done' key front text v hafter hv _ hfront
  exact starved_of_colon hreader (fun a => .taken _) hafter hv hfront

end Members

-- ================================================================== values

/-- The reader of what stands inside of brackets, and that it is starved where
this is cut. -/
inductive NestStarves : Option (Reader Value) → Nat → Prop
  | none : NestStarves none 0
  | some {reader : Reader Value} {depth : Nat}
      (h : reader.Reads (Padded (Within depth)))
      (hstarves : reader.Starves (Padded (Within depth)) Value.Exact) :
      NestStarves (some reader) (depth + 1)

/-- Behind its first character a value is unfinished, or it is a number. -/
theorem starved_restOfValue {nested : Option (Reader Value)} {depth : Nat}
    (hn : NestStarves nested depth) {c : Char} {front text : List Char}
    {v : Value} (h : Within depth (c :: text) v) (hexact : v.Exact)
    (hfront : IsFront front text) :
    Starved ((restOfValue nested c).run front) := by
  unfold restOfValue
  cases hexact with
  | null =>
      obtain ⟨rfl, rfl⟩ := List.cons.inj (spells_null_iff.1 h.1)
      rw [Opening.of?_eq_some_iff (o := .null).2 rfl]
      dsimp only
      rw [restOfNull]
      exact .of_unfinished (word_run_of_isFront hfront)
  | boolean value =>
      have htext := spells_boolean_iff.1 h.1
      cases value with
      | true =>
          obtain ⟨rfl, rfl⟩ := List.cons.inj htext
          rw [Opening.of?_eq_some_iff (o := .boolean true).2 rfl]
          dsimp only
          rw [restOfBoolean]
          exact .of_unfinished (word_run_of_isFront hfront)
      | false =>
          obtain ⟨rfl, rfl⟩ := List.cons.inj htext
          rw [Opening.of?_eq_some_iff (o := .boolean false).2 rfl]
          dsimp only
          rw [restOfBoolean]
          exact .of_unfinished (word_run_of_isFront hfront)
  | integer hlow hhigh =>
      obtain ⟨numeral, hwritten, -⟩ := spells_number_iff.1 h.1
      obtain ⟨c', front', hcons, hc⟩ := hwritten.exists_cons
      obtain ⟨rfl, -⟩ := List.cons.inj hcons
      rw [Opening.of?_eq_number hc]
      exact (restOfNumber_run_of_isFront h.1 hfront).run_bind fun n => .taken _
  | text value =>
      have hliteral := spells_text_iff.1 h.1
      obtain ⟨front', hcons⟩ := hliteral.exists_cons
      obtain ⟨rfl, -⟩ := List.cons.inj hcons
      rw [Opening.of?_eq_some_iff (o := .text).2 rfl]
      dsimp only
      exact .of_unfinished (restOfLiteral_run_of_isFront hliteral hfront)
  | array hitems =>
      obtain ⟨depth', inner, rfl, htext, hinner⟩ := h.items
      obtain ⟨rfl, rfl⟩ := List.cons.inj htext
      cases hn with
      | some hreads hstarves =>
          rw [Opening.of?_eq_some_iff (o := .array).2 rfl]
          dsimp only
          exact .of_unfinished (elements_run_of_isFront hreads hstarves
            (fun hw => hw.1.starts) hinner hitems hfront)
  | object hmembers =>
      obtain ⟨depth', inner, rfl, htext, hinner⟩ := h.members
      obtain ⟨rfl, rfl⟩ := List.cons.inj htext
      cases hn with
      | some hreads hstarves =>
          rw [Opening.of?_eq_some_iff (o := .object).2 rfl]
          dsimp only
          exact .of_unfinished (members_run_of_isFront (memberStep_steps hreads)
            (memberStep_starves hstarves) hinner hmembers (foldlM_keep _ []) hfront)

/-- Where it is cut, a value is unfinished or it is a number. -/
theorem value_starves (depth : Nat) :
    (value depth).Starves (Padded (Within depth)) Value.Exact := by
  -- as for reading: the level below reads what stands inside of brackets
  induction depth with
  | zero =>
      exact starves_of_first (fun h => h.1.starts) (starved_restOfValue .none)
  | succ depth ih =>
      exact starves_of_first (fun h => h.1.starts)
        (starved_restOfValue (.some (value_reads depth) ih))

end Dossier.Json
