/-
The number reader takes written numerals and gives the numbers that they
stand for.

A numeral is taken part by part, and each part goes on as far as it can: so
behind the whole part no digit may follow, behind the fraction neither a
digit nor a point, and behind the exponent no digit. `Ends` says all of this
of what stands behind a numeral, and each part starts with a character that
ends the one before.

The value is asked of the digits. `absorb` takes as many as the significand
holds (`absorb_eq_iff`), so all of them iff the number that they form fits,
and a plain numeral stands for an integer exactly within the limits of 64
bits (`number?_eq_some_iff`).
-/
import Mathlib.Data.List.TakeWhile
import Dossier.Proofs.Json.Reader

namespace Dossier.Json

-- ================================================================= digits

/-- No digit stands in front. -/
def NoDigit (rest : List Char) : Prop := ∀ c ∈ rest.head?, c.isDigit = false

theorem noDigit_cons {c : Char} (h : c.isDigit = false) (rest : List Char) :
    NoDigit (c :: rest) := by
  intro d hd
  cases hd
  exact h

theorem Ends.noDigit {rest : List Char} (h : Ends rest) : NoDigit rest :=
  fun c hc => (h c hc).1

/-- Nothing more is taken behind the digits. -/
theorem leadingDigits_append {digits rest : List Char}
    (hdigits : ∀ c ∈ digits, c.isDigit = true) (hrest : NoDigit rest) :
    leadingDigits (digits ++ rest) = digits
      ∧ afterDigits (digits ++ rest) = rest := by
  unfold leadingDigits afterDigits
  rw [List.takeWhile_append_of_pos hdigits, List.dropWhile_append_of_pos hdigits]
  cases rest with
  | nil => simp
  | cons c rest =>
      have hc : ¬ c.isDigit = true := by simp [hrest c rfl]
      rw [List.takeWhile_cons_of_neg hc, List.dropWhile_cons_of_neg hc,
        List.append_nil]
      exact ⟨rfl, rfl⟩

theorem isDigit_of_mem_leadingDigits {text : List Char} {c : Char}
    (h : c ∈ leadingDigits text) : c.isDigit = true :=
  List.all_eq_true.1 (List.all_takeWhile (p := Char.isDigit)) c h

theorem leadingDigits_append_afterDigits (text : List Char) :
    leadingDigits text ++ afterDigits text = text :=
  List.takeWhile_append_dropWhile

theorem takeDigits_append {cut : Fault} {digits rest : List Char}
    (h : Digits digits) (hrest : NoDigit rest) :
    takeDigits cut (digits ++ rest) = .ok (digits, rest) := by
  obtain ⟨hleading, hafter⟩ := leadingDigits_append h.2 hrest
  unfold takeDigits
  rw [hleading, hafter]
  obtain ⟨d, ds, rfl⟩ := List.exists_cons_of_ne_nil h.1
  rfl

theorem digits_of_takeDigits {cut : Fault} {text digits rest : List Char}
    (h : takeDigits cut text = .ok (digits, rest)) :
    Digits digits ∧ text = digits ++ rest := by
  unfold takeDigits at h
  split at h
  · cases h
  · next hne =>
    cases h
    refine ⟨⟨hne, fun c hc => isDigit_of_mem_leadingDigits hc⟩, ?_⟩
    exact (leadingDigits_append_afterDigits text).symm

-- ============================================================= whole parts

namespace Numeral

theorem takeWhole_append {c : Char} {digits rest : List Char}
    (h : Whole (c :: digits)) (hrest : NoDigit rest) :
    takeWhole c (digits ++ rest) = .ok (c :: digits, rest) := by
  unfold takeWhole
  cases h with
  | zero =>
      have hleading := (leadingDigits_append (List.forall_mem_nil _) hrest).1
      rw [List.nil_append] at hleading ⊢
      rw [if_pos rfl, hleading]
      rfl
  | digits hd hzero hdigits =>
      obtain ⟨hleading, hafter⟩ := leadingDigits_append hdigits hrest
      rw [if_neg hzero, if_pos hd, hleading, hafter]

theorem whole_of_takeWhole {c : Char} {text whole rest : List Char}
    (h : takeWhole c text = .ok (whole, rest)) :
    ∃ digits, whole = c :: digits ∧ Whole whole ∧ text = digits ++ rest := by
  unfold takeWhole at h
  split at h
  · next hc =>
    split at h
    · cases h
      subst hc
      exact ⟨[], rfl, .zero, rfl⟩
    · cases h
  · next hzero =>
    split at h
    · next hd =>
      cases h
      refine ⟨_, rfl, .digits hd hzero ?_, ?_⟩
      · exact fun d hd => isDigit_of_mem_leadingDigits hd
      · exact (leadingDigits_append_afterDigits text).symm
    · cases h

/-- A whole part starts with a digit. -/
theorem Whole.exists_cons {whole : List Char} (h : Whole whole) :
    ∃ c digits, whole = c :: digits ∧ c.isDigit = true := by
  cases h with
  | zero => exact ⟨'0', [], rfl, by decide⟩
  | @digits d digits hd hzero hdigits => exact ⟨d, digits, rfl, hd⟩

-- =============================================================== fractions

theorem takeFraction_append {cut : Fault} {text digits rest : List Char}
    (h : Fraction text digits) (hdigit : NoDigit rest)
    (hpoint : rest.head? ≠ some '.') :
    takeFraction cut (text ++ rest) = .ok (digits, rest) := by
  cases h with
  | none =>
      rw [List.nil_append]
      unfold takeFraction
      split
      · exact absurd rfl hpoint
      · rfl
  | some hdigits => exact takeDigits_append hdigits hdigit

theorem fraction_of_takeFraction {cut : Fault} {text digits rest : List Char}
    (h : takeFraction cut text = .ok (digits, rest)) :
    ∃ front, Fraction front digits ∧ text = front ++ rest := by
  unfold takeFraction at h
  split at h
  · obtain ⟨hdigits, rfl⟩ := digits_of_takeDigits h
    exact ⟨_, .some hdigits, rfl⟩
  · cases h
    exact ⟨[], .none, rfl⟩

-- =============================================================== exponents

theorem takeSign_append {sign digits : List Char} {minus : Bool}
    (h : Sign sign minus) (hdigits : Digits digits) (rest : List Char) :
    takeSign (sign ++ (digits ++ rest)) = (minus, digits ++ rest) := by
  cases h with
  | plus => rfl
  | minus => rfl
  | none =>
      obtain ⟨d, ds, rfl⟩ := List.exists_cons_of_ne_nil hdigits.1
      have hd := hdigits.2 d List.mem_cons_self
      rw [List.nil_append, List.cons_append]
      unfold takeSign
      split
      · next heq =>
        rw [(List.cons.inj heq).1] at hd
        exact absurd hd (by decide)
      · next heq =>
        rw [(List.cons.inj heq).1] at hd
        exact absurd hd (by decide)
      · rfl

theorem sign_of_takeSign (text : List Char) :
    ∃ sign, Sign sign (takeSign text).1 ∧ text = sign ++ (takeSign text).2 := by
  unfold takeSign
  split
  · exact ⟨['-'], .minus, rfl⟩
  · exact ⟨['+'], .plus, rfl⟩
  · exact ⟨[], .none, rfl⟩

theorem takeExponent_append {cut : Fault} {text rest : List Char}
    {e : Option Int} (h : Exponent text e) (hrest : Ends rest) :
    takeExponent cut (text ++ rest) = .ok (e, rest) := by
  cases h with
  | none =>
      cases rest with
      | nil => rfl
      | cons c rest =>
          obtain ⟨-, -, he, hE⟩ := hrest c rfl
          rw [List.nil_append, takeExponent, if_neg (not_or.2 ⟨he, hE⟩)]
  | some hmark hsign hdigits =>
      rw [List.cons_append, List.append_assoc, takeExponent, if_pos hmark,
        takeSign_append hsign hdigits]
      dsimp only
      rw [takeDigits_append hdigits hrest.noDigit]

theorem exponent_of_takeExponent {cut : Fault} {text rest : List Char}
    {e : Option Int} (h : takeExponent cut text = .ok (e, rest)) :
    ∃ front, Exponent front e ∧ text = front ++ rest := by
  cases text with
  | nil =>
      cases h
      exact ⟨[], .none, rfl⟩
  | cons c text =>
      rw [takeExponent] at h
      split at h
      · next hmark =>
        obtain ⟨sign, hsign, htext⟩ := sign_of_takeSign text
        split at h
        · next digits tail hdigits =>
          obtain ⟨hdigits, htail⟩ := digits_of_takeDigits hdigits
          rw [Except.ok.injEq, Prod.mk.injEq] at h
          obtain ⟨rfl, rfl⟩ := h
          refine ⟨c :: (sign ++ digits), .some hmark hsign hdigits, ?_⟩
          rw [List.cons_append, List.append_assoc, ← htail, ← htext]
        · cases h
      · cases h
        exact ⟨[], .none, rfl⟩

-- ============================================================ the numeral

/-- Without fraction and exponent there is a sign, if any, and the whole part. -/
theorem written_plain_iff {text whole : List Char} {negative : Bool} :
    Written text ⟨negative, whole, [], none⟩
      ↔ Whole whole ∧ text = (if negative then ['-'] else []) ++ whole := by
  constructor
  · intro h
    cases h with
    | mk negative hwhole hfraction hexponent =>
        cases hexponent
        cases hfraction with
        | none => exact ⟨hwhole, by rw [List.append_nil, List.append_nil]⟩
        | some hdigits => exact absurd rfl hdigits.1
  · intro h
    obtain ⟨hwhole, rfl⟩ := h
    have hwritten := Written.mk negative hwhole .none .none
    rw [List.append_nil, List.append_nil] at hwritten
    exact hwritten

/-- Behind the whole part stands a point, the mark of an exponent, or the
rest. -/
theorem Fraction.ends {text digits : List Char} (h : Fraction text digits)
    {rest : List Char} (hdigit : NoDigit rest) : NoDigit (text ++ rest) := by
  cases h with
  | none => exact hdigit
  | some hdigits => exact noDigit_cons (by decide) _

theorem Exponent.ends {text : List Char} {e : Option Int} (h : Exponent text e)
    {rest : List Char} (hrest : Ends rest) :
    NoDigit (text ++ rest) ∧ (text ++ rest).head? ≠ Option.some '.' := by
  cases h with
  | none =>
      refine ⟨hrest.noDigit, ?_⟩
      intro hpoint
      exact (hrest '.' hpoint).2.1 rfl
  | some hmark hsign hdigits =>
      rcases hmark with rfl | rfl
      · exact ⟨noDigit_cons (by decide) _, by simp⟩
      · exact ⟨noDigit_cons (by decide) _, by simp⟩

/-- The parts behind the sign are taken one after the other. -/
theorem restOfNumeral_parts (cut : Fault) {c : Char}
    {digits fraction exponent fractionDigits rest : List Char} {e : Option Int}
    (hwhole : Whole (c :: digits)) (hfraction : Fraction fraction fractionDigits)
    (hexponent : Exponent exponent e) (hrest : Ends rest) :
    takeWhole c (digits ++ (fraction ++ (exponent ++ rest)))
        = .ok (c :: digits, fraction ++ (exponent ++ rest))
      ∧ takeFraction cut (fraction ++ (exponent ++ rest))
        = .ok (fractionDigits, exponent ++ rest)
      ∧ takeExponent cut (exponent ++ rest) = .ok (e, rest) := by
  obtain ⟨hdigit, hpoint⟩ := hexponent.ends hrest
  exact ⟨takeWhole_append hwhole (hfraction.ends hdigit),
    takeFraction_append hfraction hdigit hpoint,
    takeExponent_append hexponent hrest⟩

/-- The digit at the start of a whole part is no minus. -/
theorem ne_minus_of_isDigit {c : Char} (h : c.isDigit = true) : c ≠ '-' := by
  intro heq
  subst heq
  exact absurd h (by decide)

/-- A numeral is taken when its parts are, one behind the other. -/
theorem restOfNumeral_run_eq_ok_iff {cut : Fault} {c : Char}
    {text rest : List Char} {n : Numeral} :
    (restOfNumeral cut c).run text = .ok (n, rest)
      ↔ ∃ lead text₁ text₂ text₃,
          (if c = '-' then takeLead cut text else .ok (c, text))
              = .ok (lead, text₁)
            ∧ takeWhole lead text₁ = .ok (n.whole, text₂)
            ∧ takeFraction cut text₂ = .ok (n.fraction, text₃)
            ∧ takeExponent cut text₃ = .ok (n.exponent, rest)
            ∧ n.negative = (c == '-') := by
  have hlead : ∀ lead text₁,
      (if c = '-' then (⟨takeLead cut, length_takeLead_le⟩ : Reader Char)
          else pure c).run text = .ok (lead, text₁)
        ↔ (if c = '-' then takeLead cut text else .ok (c, text))
            = .ok (lead, text₁) := by
    intro lead text₁
    split <;> exact Iff.rfl
  have hrun : (restOfNumeral cut c).run text
      = ((if c = '-' then (⟨takeLead cut, length_takeLead_le⟩ : Reader Char)
          else pure c) >>= fun lead =>
        (⟨takeWhole lead, length_takeWhole_le⟩ : Reader _) >>= fun whole =>
        (⟨takeFraction cut, length_takeFraction_le⟩ : Reader _) >>= fun fraction =>
        (⟨takeExponent cut, length_takeExponent_le⟩ : Reader _) >>= fun exponent =>
        pure (⟨c == '-', whole, fraction, exponent⟩ : Numeral)).run text := by
    unfold restOfNumeral
    split <;> rfl
  rw [hrun]
  constructor
  · intro h
    obtain ⟨lead, text₁, h₁, h⟩ := run_bind_eq_ok_iff.1 h
    obtain ⟨whole, text₂, h₂, h⟩ := run_bind_eq_ok_iff.1 h
    obtain ⟨fraction, text₃, h₃, h⟩ := run_bind_eq_ok_iff.1 h
    obtain ⟨exponent, text₄, h₄, h⟩ := run_bind_eq_ok_iff.1 h
    cases h
    exact ⟨lead, text₁, text₂, text₃, (hlead _ _).1 h₁, h₂, h₃, h₄, rfl⟩
  · intro hall
    obtain ⟨lead, text₁, text₂, text₃, h₁, h₂, h₃, h₄, h₅⟩ := hall
    rw [run_bind_of_ok ((hlead _ _).2 h₁), run_bind_of_ok h₂,
      run_bind_of_ok h₃, run_bind_of_ok h₄, ← h₅]
    rfl

/-- Behind its first character a numeral is taken as it is written. -/
theorem restOfNumeral_run_append {cut : Fault} {c : Char}
    {front rest : List Char} {n : Numeral} (h : Written (c :: front) n)
    (hrest : Ends rest) :
    (restOfNumeral cut c).run (front ++ rest) = .ok (n, rest) := by
  generalize htext : c :: front = text at h
  obtain @⟨negative, whole, fraction, fractionDigits, exponent, e, hwhole,
    hfraction, hexponent⟩ := h
  obtain ⟨d, digits, rfl, hd⟩ := hwhole.exists_cons
  obtain ⟨htakeWhole, htakeFraction, htakeExponent⟩ :=
    restOfNumeral_parts cut hwhole hfraction hexponent hrest
  rw [restOfNumeral_run_eq_ok_iff]
  cases negative with
  | true =>
      obtain ⟨rfl, rfl⟩ := List.cons.inj htext
      refine ⟨d, _, _, _, ?_, htakeWhole, htakeFraction, htakeExponent, rfl⟩
      rw [if_pos rfl]
      show takeLead cut (d :: (digits ++ (fraction ++ exponent) ++ rest)) = _
      rw [List.append_assoc, List.append_assoc]
      rfl
  | false =>
      obtain ⟨rfl, rfl⟩ := List.cons.inj htext
      have hminus := ne_minus_of_isDigit hd
      refine ⟨c, _, _, _, ?_, htakeWhole, htakeFraction, htakeExponent,
        (beq_false_of_ne hminus).symm⟩
      rw [if_neg hminus]
      show Except.ok (c, digits ++ (fraction ++ exponent) ++ rest) = _
      rw [List.append_assoc, List.append_assoc]

/-- What is taken behind a character is the rest of a written numeral. -/
theorem written_of_restOfNumeral {cut : Fault} {c : Char}
    {text rest : List Char} {n : Numeral}
    (h : (restOfNumeral cut c).run text = .ok (n, rest)) :
    ∃ front, Written (c :: front) n ∧ text = front ++ rest := by
  obtain ⟨negative, whole, fraction, exponent⟩ := n
  obtain ⟨lead, text₁, text₂, text₃, hlead, h₁, h₂, h₃, hnegative⟩ :=
    restOfNumeral_run_eq_ok_iff.1 h
  obtain ⟨digits, rfl, hwhole, rfl⟩ := whole_of_takeWhole h₁
  obtain ⟨fractionText, hfraction, rfl⟩ := fraction_of_takeFraction h₂
  obtain ⟨exponentText, hexponent, rfl⟩ := exponent_of_takeExponent h₃
  have hwritten := Written.mk negative hwhole hfraction hexponent
  -- behind a minus the whole part starts with the next character
  by_cases hminus : c = '-'
  · subst hminus
    rw [if_pos rfl] at hlead
    cases text with
    | nil => cases hlead
    | cons d text =>
        cases hlead
        obtain rfl : negative = true := hnegative
        refine ⟨lead :: (digits ++ (fractionText ++ exponentText)), hwritten, ?_⟩
        rw [List.cons_append, List.append_assoc, List.append_assoc]
  · rw [if_neg hminus] at hlead
    cases hlead
    obtain rfl : negative = false := hnegative.trans (beq_false_of_ne hminus)
    refine ⟨digits ++ (fractionText ++ exponentText), hwritten, ?_⟩
    rw [List.append_assoc, List.append_assoc]

end Numeral

-- ================================================================== value

theorem digitsValue_eq_ofDigitChars (digits : List Char) :
    digitsValue digits = Nat.ofDigitChars 10 digits 0 :=
  rfl

/-- More digits never make a value smaller. -/
theorem le_ofDigitChars (n : Nat) (digits : List Char) :
    n ≤ Nat.ofDigitChars 10 digits n := by
  induction digits generalizing n with
  | nil => rw [Nat.ofDigitChars_nil]
  | cons d digits ih =>
      have hstep := ih (10 * n + (d.toNat - '0'.toNat))
      rw [Nat.ofDigitChars_cons]
      omega

/-- Digits whose value fits are taken up to the last one. -/
theorem absorb_of_lt {n : Nat} {digits : List Char}
    (h : Nat.ofDigitChars 10 digits n < wordLimit) :
    absorb n digits = (Nat.ofDigitChars 10 digits n, []) := by
  -- a prefix of digits that fit fits as well
  induction digits generalizing n with
  | nil => rw [absorb, Nat.ofDigitChars_nil]
  | cons d digits ih =>
      rw [Nat.ofDigitChars_cons] at h ⊢
      have hle := le_ofDigitChars (10 * n + (d.toNat - '0'.toNat)) digits
      rw [absorb, if_pos (Nat.lt_of_le_of_lt hle h)]
      exact ih h

/-- Digits whose value does not fit leave some behind. -/
theorem absorb_of_le {n : Nat} {digits : List Char} (hn : n < wordLimit)
    (h : wordLimit ≤ Nat.ofDigitChars 10 digits n) :
    (absorb n digits).2 ≠ [] := by
  induction digits generalizing n with
  | nil =>
      rw [Nat.ofDigitChars_nil] at h
      exact absurd hn (Nat.not_lt.2 h)
  | cons d digits ih =>
      rw [Nat.ofDigitChars_cons] at h
      rw [absorb]
      split
      · next hlt => exact ih hlt h
      · exact List.cons_ne_nil d digits

namespace Numeral

theorem Absorbs.lt {n significand : Nat} {digits left : List Char}
    (h : Absorbs n digits significand left) : significand < wordLimit := by
  obtain ⟨hfits, -⟩ := h
  exact hfits

/-- The loop over the digits takes as many as fit. -/
theorem absorb_eq_iff {n significand : Nat} {digits left : List Char}
    (hn : n < wordLimit) :
    absorb n digits = (significand, left) ↔ Absorbs n digits significand left := by
  constructor
  · intro h
    induction digits generalizing n with
    | nil =>
        cases h
        exact @Absorbs.mk _ [] [] hn (fun d hd => by cases hd)
    | cons d digits ih =>
        rw [absorb] at h
        split at h
        · next hlt =>
          obtain @⟨front, left, hfits, hfull⟩ := ih hlt h
          exact @Absorbs.mk n (d :: front) left hfits hfull
        · next hge =>
          cases h
          refine @Absorbs.mk _ [] (d :: digits) hn ?_
          intro c hc
          cases hc
          exact Nat.le_of_not_lt hge
  · intro h
    obtain @⟨front, left, hfits, hfull⟩ := h
    induction front generalizing n with
    | nil =>
        cases left with
        | nil => rfl
        | cons d left =>
            have hge : wordLimit ≤ 10 * n + (d.toNat - '0'.toNat) := hfull d rfl
            rw [List.nil_append, absorb, if_neg (Nat.not_lt.2 hge)]
            rfl
    | cons d front ih =>
        have hle := le_ofDigitChars (10 * n + (d.toNat - '0'.toNat)) front
        rw [Nat.ofDigitChars_cons] at hfits
        have hlt := Nat.lt_of_le_of_lt hle hfits
        rw [List.cons_append, absorb, if_pos hlt]
        exact ih hlt hfits hfull

/-- A plain numeral whose digits fit goes by its sign. -/
theorem number?_of_isPlain {n : Numeral} (hplain : n.IsPlain)
    (hfits : digitsValue n.whole < wordLimit) :
    n.number? = ofWhole n.negative (digitsValue n.whole) := by
  unfold number?
  rw [hplain.1, hplain.2, absorb_of_lt hfits]
  rfl

/-- Any other one goes by its significand and the power of ten. -/
theorem number?_of_long {n : Numeral}
    (hlong : n.IsPlain → wordLimit ≤ digitsValue n.whole) :
    n.number? = ((Double.ofNat (absorb (absorb 0 n.whole).1 n.fraction).1).bind
      (·.scale ((absorb 0 n.whole).2.length
        - (n.fraction.length
          - (absorb (absorb 0 n.whole).1 n.fraction).2.length : Nat)
        + n.exponent.getD 0))).map (.float n.negative) := by
  unfold number?
  refine if_neg ?_
  intro hcond
  simp only [Bool.and_eq_true, List.isEmpty_iff, Option.isNone_iff_eq_none]
    at hcond
  obtain ⟨hplain, hskipped⟩ := hcond
  exact absorb_of_le (n := 0) (by decide) (hlong hplain) hskipped

/-- By the sign, a plain numeral is an integer or a magnitude. -/
theorem ofWhole_eq_some_iff {n : Numeral} {x : Number} (hplain : n.IsPlain)
    (hfits : digitsValue n.whole < wordLimit) :
    ofWhole n.negative (digitsValue n.whole) = some x ↔ n.Stands x := by
  have hshort : ¬ (n.IsPlain → wordLimit ≤ digitsValue n.whole) := by
    intro hlong
    have hle := hlong hplain
    omega
  unfold ofWhole
  cases hsign : n.negative with
  | false =>
      constructor
      · intro h
        cases h
        exact .natural hplain hsign hfits
      · intro h
        cases h with
        | natural _ _ _ => rfl
        | negative _ hsign' _ _ => rw [hsign] at hsign'; cases hsign'
        | minus _ hsign' _ _ _ => rw [hsign] at hsign'; cases hsign'
        | scaled hlong _ _ _ => exact absurd hlong hshort
  | true =>
      rw [if_neg (by decide)]
      constructor
      · intro h
        split at h
        · next hrange =>
          cases h
          exact .negative hplain hsign hrange.1 hrange.2
        · next hrange =>
          obtain ⟨magnitude, hmagnitude, hx⟩ := Option.map_eq_some_iff.1 h
          subst hx
          exact .minus hplain hsign (by omega) hfits hmagnitude
      · intro h
        cases h with
        | natural _ hsign' _ => rw [hsign] at hsign'; cases hsign'
        | negative _ _ hpos hle => rw [if_pos ⟨hpos, hle⟩]
        | minus _ _ hrange _ hmagnitude =>
            rw [if_neg (by omega), hmagnitude]
            rfl
        | scaled hlong _ _ _ => exact absurd hlong hshort

/-- The number of a numeral is the one that it stands for, and a numeral that
stands for none has none. -/
theorem number?_eq_some_iff {n : Numeral} {x : Number} :
    n.number? = some x ↔ n.Stands x := by
  by_cases hshort : n.IsPlain ∧ digitsValue n.whole < wordLimit
  · rw [number?_of_isPlain hshort.1 hshort.2]
    exact ofWhole_eq_some_iff hshort.1 hshort.2
  have hlong : n.IsPlain → wordLimit ≤ digitsValue n.whole := by
    intro hplain
    by_contra hlt
    exact hshort ⟨hplain, Nat.lt_of_not_le hlt⟩
  have hzero : 0 < wordLimit := by decide
  rw [number?_of_long hlong]
  constructor
  · intro h
    obtain ⟨magnitude, hmagnitude, hx⟩ := Option.map_eq_some_iff.1 h
    subst hx
    have hwhole : Absorbs 0 n.whole (absorb 0 n.whole).1 (absorb 0 n.whole).2 :=
      (absorb_eq_iff hzero).1 rfl
    have hlt := hwhole.lt
    exact .scaled hlong hwhole ((absorb_eq_iff hlt).1 rfl) hmagnitude
  · intro h
    cases h with
    | natural hplain _ hfits => exact absurd ⟨hplain, hfits⟩ hshort
    | negative hplain _ _ hle =>
        exact absurd ⟨hplain, Nat.lt_of_le_of_lt hle (by decide)⟩ hshort
    | minus hplain _ _ hfits _ => exact absurd ⟨hplain, hfits⟩ hshort
    | scaled _ hwhole hfraction hmagnitude =>
        have hlt := hwhole.lt
        rw [(absorb_eq_iff hzero).2 hwhole]
        dsimp only
        rw [(absorb_eq_iff hlt).2 hfraction]
        dsimp only
        rw [hmagnitude]
        rfl

end Numeral

-- ================================================================ numbers

/-- Behind its first character a number is taken as it is written. -/
theorem restOfNumber_run_append {c : Char} {front rest : List Char}
    {numeral : Numeral} {n : Number} (hwritten : numeral.Written (c :: front))
    (h : numeral.Stands n) (hrest : Ends rest) :
    (restOfNumber c).run (front ++ rest) = .ok (n, rest) := by
  unfold restOfNumber
  rw [run_bind_of_ok (Numeral.restOfNumeral_run_append hwritten hrest),
    Numeral.number?_eq_some_iff.2 h]
  rfl

/-- What is taken behind a character is the rest of a written number. -/
theorem written_of_restOfNumber {c : Char} {text rest : List Char}
    {n : Number} (h : (restOfNumber c).run text = .ok (n, rest)) :
    ∃ front numeral, Numeral.Written (c :: front) numeral ∧ numeral.Stands n
      ∧ text = front ++ rest := by
  unfold restOfNumber at h
  obtain ⟨numeral, middle, hnumeral, hvalue⟩ := run_bind_eq_ok_iff.1 h
  obtain ⟨front, hwritten, rfl⟩ := Numeral.written_of_restOfNumeral hnumeral
  split at hvalue
  · next n' hn =>
    cases hvalue
    exact ⟨front, numeral, hwritten, Numeral.number?_eq_some_iff.1 hn, rfl⟩
  · cases hvalue

end Dossier.Json
