/-
The literal reader takes literals, and all of them.

Every step of the reader is answered by one constructor of the grammar: a
code by its four digits, an escape by the spelling that starts with its
backslash, and the loop by the spellings of its characters. A lone half of
a surrogate pair has no spelling, and the reader has no answer for it.
-/
import Dossier.Proofs.Json.Reader

namespace Dossier.Json

-- ================================================================ escapes

theorem takeCode_append {digits : List Char} {code : Nat}
    (h : Code digits code) (rest : List Char) :
    takeCode (digits ++ rest) = .ok (code, rest) := by
  obtain ⟨hcode⟩ := h
  simp only [List.cons_append, List.nil_append, takeCode, hcode]

theorem code_of_takeCode {text rest : List Char} {code : Nat}
    (h : takeCode text = .ok (code, rest)) :
    ∃ digits, Code digits code ∧ text = digits ++ rest := by
  unfold takeCode at h
  split at h
  · next a b c d tail =>
    split at h
    · next hcode =>
      cases h
      exact ⟨[a, b, c, d], .mk hcode, rfl⟩
    · cases h
  · cases h

theorem takePartner_append {digits : List Char} {low : Nat}
    (h : Code digits low) (hlow : isLowSurrogate low = true)
    (rest : List Char) :
    takePartner ('\\' :: 'u' :: (digits ++ rest)) = .ok (low, rest) := by
  simp only [takePartner, takeCode_append h, hlow, if_true]

theorem code_of_takePartner {text rest : List Char} {low : Nat}
    (h : takePartner text = .ok (low, rest)) :
    isLowSurrogate low = true ∧ ∃ digits, Code digits low
      ∧ text = '\\' :: 'u' :: (digits ++ rest) := by
  unfold takePartner at h
  split at h
  · cases h
  · cases h
  · split at h
    · next code middle htake =>
      split at h
      · next hlow =>
        cases h
        obtain ⟨digits, hdigits, rfl⟩ := code_of_takeCode htake
        exact ⟨hlow, digits, hdigits, rfl⟩
      · cases h
    · cases h
  · cases h

/-- No code is in both halves. -/
theorem isLowSurrogate_of_isHighSurrogate {code : Nat}
    (h : isHighSurrogate code = true) : isLowSurrogate code = false := by
  unfold isHighSurrogate at h
  unfold isLowSurrogate
  simp only [Bool.and_eq_true, decide_eq_true_eq] at h
  simp only [Bool.and_eq_false_iff, decide_eq_false_iff_not]
  omega

/-- An escape is taken as the character that it spells behind its backslash. -/
theorem takeEscape_append {front : List Char} {c : Char}
    (h : Spelling ('\\' :: front) c) (rest : List Char) :
    takeEscape (front ++ rest) = .ok (c, rest) := by
  have hu : simpleEscape? 'u' = none := by decide
  cases h with
  | plain hquote hbackslash hcontrol => exact absurd rfl hbackslash
  | letter hletter =>
      simp only [List.cons_append, List.nil_append, takeEscape, hletter]
  | code hdigits hhigh hlow =>
      simp only [List.cons_append, takeEscape, hu, ne_eq, not_true_eq_false,
        if_false, takeCode_append hdigits, hhigh, hlow, Bool.false_eq_true]
  | pair hdigits hdigits' hhigh hlow =>
      simp only [List.cons_append, List.append_assoc, takeEscape, hu, ne_eq,
        not_true_eq_false, if_false, takeCode_append hdigits,
        takePartner_append hdigits' hlow, hhigh,
        isLowSurrogate_of_isHighSurrogate hhigh, Bool.false_eq_true, if_true]

theorem spelling_of_takeEscape {text rest : List Char} {c : Char}
    (h : takeEscape text = .ok (c, rest)) :
    ∃ front, Spelling ('\\' :: front) c ∧ text = front ++ rest := by
  cases text with
  | nil => cases h
  | cons l text =>
      rw [takeEscape] at h
      split at h
      · next hletter =>
        cases h
        exact ⟨[l], .letter hletter, rfl⟩
      · by_cases hu : l = 'u'
        · subst hu
          rw [if_neg (fun h => h rfl)] at h
          split at h
          · cases h
          · next code middle htake =>
            obtain ⟨digits, hdigits, rfl⟩ := code_of_takeCode htake
            split at h
            · cases h
            · next hlow =>
              rw [Bool.not_eq_true] at hlow
              split at h
              · next hhigh =>
                split at h
                · next low tail hpartner =>
                  rw [Except.ok.injEq, Prod.mk.injEq] at h
                  obtain ⟨rfl, rfl⟩ := h
                  obtain ⟨hlow', digits', hdigits', rfl⟩ :=
                    code_of_takePartner hpartner
                  refine ⟨_, .pair hdigits hdigits' hhigh hlow', ?_⟩
                  rw [List.cons_append, List.append_assoc]
                  rfl
                · cases h
              · next hhigh =>
                rw [Bool.not_eq_true] at hhigh
                cases h
                exact ⟨_, .code hdigits hhigh hlow, rfl⟩
        · rw [if_pos hu] at h
          cases h

-- =============================================================== the loop

theorem takeLiteral_quote (done rest : List Char) :
    takeLiteral done ('"' :: rest) = .ok (done.reverse, rest) := by
  rw [takeLiteral, if_pos rfl]

theorem takeLiteral_plain {c : Char} (hquote : c ≠ '"') (hbackslash : c ≠ '\\')
    (hcontrol : 0x20 ≤ c.toNat) (done rest : List Char) :
    takeLiteral done (c :: rest) = takeLiteral (c :: done) rest := by
  rw [takeLiteral, if_neg hquote, if_neg hbackslash,
    if_neg (Nat.not_lt.2 hcontrol)]

theorem takeLiteral_escape {text rest : List Char} {c : Char}
    (h : takeEscape text = .ok (c, rest)) (done : List Char) :
    takeLiteral done ('\\' :: text) = takeLiteral (c :: done) rest := by
  rw [takeLiteral, if_neg (by decide), if_pos rfl]
  split
  · next c' rest' h' =>
    rw [h] at h'
    cases h'
    rfl
  · next h' =>
    rw [h] at h'
    cases h'

/-- One spelling is taken as the character that it spells. -/
theorem takeLiteral_spelling {text : List Char} {c : Char}
    (h : Spelling text c) (done rest : List Char) :
    takeLiteral done (text ++ rest) = takeLiteral (c :: done) rest := by
  have hescape : ∀ front, text = '\\' :: front →
      takeLiteral done (text ++ rest) = takeLiteral (c :: done) rest := by
    rintro front rfl
    exact takeLiteral_escape (takeEscape_append h rest) done
  cases h with
  | plain hquote hbackslash hcontrol =>
      exact takeLiteral_plain hquote hbackslash hcontrol done rest
  | letter hletter => exact hescape _ rfl
  | code hdigits hhigh hlow => exact hescape _ rfl
  | pair hdigits hdigits' hhigh hlow => exact hescape _ rfl

/-- The loop takes the spellings up to the quote and gives their characters. -/
theorem takeLiteral_append {front cs : List Char} (h : Spellings front cs)
    (done rest : List Char) :
    takeLiteral done (front ++ '"' :: rest) = .ok (done.reverse ++ cs, rest) := by
  induction h generalizing done with
  | nil => rw [List.nil_append, takeLiteral_quote, List.append_nil]
  | cons hspelling hspellings ih =>
      rw [List.append_assoc, takeLiteral_spelling hspelling, ih,
        List.reverse_cons, List.append_assoc]
      rfl

theorem spellings_of_takeLiteral {done text value rest : List Char}
    (h : takeLiteral done text = .ok (value, rest)) :
    ∃ front cs, Spellings front cs ∧ text = front ++ '"' :: rest
      ∧ value = done.reverse ++ cs := by
  fun_induction takeLiteral done text with
  | case1 => cases h
  | case2 done tail =>
      cases h
      exact ⟨[], [], .nil, rfl, (List.append_nil _).symm⟩
  | case3 done tail c tail' hescape _ _ ih =>
      obtain ⟨front, cs, hspellings, rfl, rfl⟩ := ih h
      obtain ⟨front', hspelling, rfl⟩ := spelling_of_takeEscape hescape
      refine ⟨_, c :: cs, .cons hspelling hspellings, ?_, ?_⟩
      · rw [List.cons_append, List.cons_append, List.append_assoc]
      · rw [List.reverse_cons, List.append_assoc, List.singleton_append]
  | case4 => cases h
  | case5 => cases h
  | case6 done c tail hquote hbackslash hcontrol ih =>
      obtain ⟨front, cs, hspellings, rfl, rfl⟩ := ih h
      have hplain := Spelling.plain hquote hbackslash (Nat.not_lt.1 hcontrol)
      refine ⟨_, c :: cs, .cons hplain hspellings, rfl, ?_⟩
      rw [List.reverse_cons, List.append_assoc, List.singleton_append]

/-- Behind its quote a literal is taken with the string that it holds. -/
theorem restOfLiteral_run_append {front : List Char} {value : String}
    (h : Literal ('"' :: front) value) (rest : List Char) :
    restOfLiteral.run (front ++ rest) = .ok (value, rest) := by
  cases h with
  | mk hspellings =>
      unfold restOfLiteral
      dsimp only
      rw [List.append_assoc, List.singleton_append,
        takeLiteral_append hspellings]
      rfl

theorem literal_of_restOfLiteral {text rest : List Char} {value : String}
    (h : restOfLiteral.run text = .ok (value, rest)) :
    ∃ front, Literal ('"' :: front) value ∧ text = front ++ rest := by
  unfold restOfLiteral at h
  dsimp only at h
  split at h
  · next cs middle hliteral =>
    cases h
    obtain ⟨front, cs', hspellings, rfl, rfl⟩ :=
      spellings_of_takeLiteral hliteral
    refine ⟨front ++ ['"'], .mk hspellings, ?_⟩
    rw [List.append_assoc, List.singleton_append]
  · cases h

end Dossier.Json
