/-
What a reader takes off a text, and the readers of blanks and words.

A reader reads a form (`Reads`) when what it takes is always of the form and
stands for the value it gives, and when it takes every text of the form and
nothing behind it. The second half needs a word about what follows: a
numeral goes on as long as it can, so the rest has to end it (`Ends`). All
that can stand behind a value in a document does: blanks, commas, closing
brackets and nothing.
-/
import Dossier.Proofs.Json.Grammar

namespace Dossier.Json

variable {α β : Type}

-- ================================================================ reading

/-- The text does not go on with a numeral that stands in front of it. -/
def Ends (rest : List Char) : Prop :=
  ∀ c ∈ rest.head?, c.isDigit = false ∧ c ≠ '.' ∧ c ≠ 'e' ∧ c ≠ 'E'

theorem ends_nil : Ends [] := by
  intro c hc
  cases hc

theorem ends_cons {c : Char} (h : c.isDigit = false ∧ c ≠ '.' ∧ c ≠ 'e' ∧ c ≠ 'E')
    (rest : List Char) : Ends (c :: rest) := by
  intro d hd
  cases hd
  exact h

/-- The reader takes the texts of the form off the front of a text, each with
the value that it stands for, and takes nothing else. -/
structure Reader.Reads (reader : Reader α) (form : List Char → α → Prop) :
    Prop where
  sound : ∀ {text rest : List Char} {value : α},
    reader.run text = .ok (value, rest) →
      ∃ front, text = front ++ rest ∧ form front value
  complete : ∀ {front rest : List Char} {value : α}, form front value →
    Ends rest → reader.run (front ++ rest) = .ok (value, rest)

theorem bind_eq_ok_iff {ε : Type} {x : Except ε α} {f : α → Except ε β} {b : β} :
    (x >>= f) = .ok b ↔ ∃ a, x = .ok a ∧ f a = .ok b := by
  cases x with
  | error fault =>
      constructor
      · intro h
        cases h
      · intro hall
        obtain ⟨a, h, -⟩ := hall
        cases h
  | ok a =>
      constructor
      · intro h
        exact ⟨a, rfl, h⟩
      · intro hall
        obtain ⟨a', h, hf⟩ := hall
        cases h
        exact hf

/-- Two readers, one after the other, succeed when both do. -/
theorem run_bind_eq_ok_iff {first : Reader α} {next : α → Reader β}
    {text rest : List Char} {value : β} :
    (first >>= next).run text = .ok (value, rest)
      ↔ ∃ a middle, first.run text = .ok (a, middle)
          ∧ (next a).run middle = .ok (value, rest) := by
  rw [Reader.run_bind]
  cases first.run text with
  | error fault => simp
  | ok taken =>
      obtain ⟨a, middle⟩ := taken
      constructor
      · intro h
        exact ⟨a, middle, rfl, h⟩
      · intro hall
        obtain ⟨a', middle', heq, h⟩ := hall
        cases heq
        exact h

/-- Where the first reader succeeds the second one goes on. -/
theorem run_bind_of_ok {first : Reader α} {next : α → Reader β}
    {text middle : List Char} {a : α} (h : first.run text = .ok (a, middle)) :
    (first >>= next).run text = (next a).run middle := by
  rw [Reader.run_bind, h]

theorem run_ofShape_eq_ok_iff {shape : Except Mismatch α} {text rest : List Char}
    {value : α} :
    (Reader.ofShape shape).run text = .ok (value, rest)
      ↔ shape = .ok value ∧ rest = text := by
  cases shape with
  | error cause => simp [Reader.ofShape]
  | ok a =>
      show Except.ok (a, text) = Except.ok (value, rest) ↔ _
      rw [Except.ok.injEq, Prod.mk.injEq, Except.ok.injEq, eq_comm (a := text)]

-- ================================================================= blanks

theorem blanks_nil : Blanks [] := by
  intro c hc
  cases hc

theorem Blanks.append {left right : List Char} (hl : Blanks left)
    (hr : Blanks right) : Blanks (left ++ right) := by
  intro c hc
  rcases List.mem_append.1 hc with hc | hc
  · exact hl c hc
  · exact hr c hc

/-- Blanks in front are passed over. -/
theorem skipBlanks_append {blanks : List Char} (h : Blanks blanks)
    (text : List Char) : skipBlanks (blanks ++ text) = skipBlanks text :=
  List.dropWhile_append_of_pos h

/-- A character that is not blank is not passed over. -/
theorem skipBlanks_cons {c : Char} (h : isBlank c = false) (text : List Char) :
    skipBlanks (c :: text) = c :: text :=
  List.dropWhile_cons_of_neg (by simp [h])

/-- What is passed over is blanks. -/
theorem exists_blanks (text : List Char) :
    ∃ blanks, Blanks blanks ∧ text = blanks ++ skipBlanks text := by
  refine ⟨text.takeWhile isBlank, ?_, List.takeWhile_append_dropWhile.symm⟩
  intro c hc
  exact List.all_eq_true.1 (List.all_takeWhile (p := isBlank)) c hc

theorem skipBlanks_eq_cons_iff {text rest : List Char} {c : Char} :
    skipBlanks text = c :: rest
      ↔ isBlank c = false ∧ ∃ blanks, Blanks blanks ∧ text = blanks ++ c :: rest := by
  constructor
  · intro h
    obtain ⟨blanks, hblanks, htext⟩ := exists_blanks text
    have hc := List.head?_dropWhile_not isBlank text
    unfold skipBlanks at h
    rw [h] at hc
    refine ⟨by simpa using hc, blanks, hblanks, ?_⟩
    rw [← h]
    exact htext
  · intro hall
    obtain ⟨hc, blanks, hblanks, rfl⟩ := hall
    rw [skipBlanks_append hblanks, skipBlanks_cons hc]

/-- Nothing is left of a text iff it is blank. -/
theorem skipBlanks_eq_nil_iff {text : List Char} :
    skipBlanks text = [] ↔ Blanks text := by
  constructor
  · intro h
    obtain ⟨blanks, hblanks, htext⟩ := exists_blanks text
    rw [htext, h, List.append_nil]
    exact hblanks
  · intro h
    rw [← List.append_nil text, skipBlanks_append h]
    rfl

theorem first_run_eq_ok_iff {text rest : List Char} {c : Char} :
    first.run text = .ok (c, rest)
      ↔ isBlank c = false ∧ ∃ blanks, Blanks blanks ∧ text = blanks ++ c :: rest := by
  rw [← skipBlanks_eq_cons_iff]
  show firstOf text = _ ↔ _
  unfold firstOf
  cases skipBlanks text with
  | nil => simp
  | cons d tail => simp

/-- No blank goes on with a numeral. -/
theorem ends_of_isBlank {c : Char} (h : isBlank c = true) (rest : List Char) :
    Ends (c :: rest) := by
  refine ends_cons ?_ rest
  unfold isBlank at h
  simp only [Bool.or_eq_true, beq_iff_eq] at h
  rcases h with ((rfl | rfl) | rfl) | rfl <;> decide

/-- Blanks in front of what ends a numeral end it as well. -/
theorem ends_append {blanks rest : List Char} (h : Blanks blanks)
    (hrest : Ends rest) : Ends (blanks ++ rest) := by
  cases blanks with
  | nil => exact hrest
  | cons c blanks => exact ends_of_isBlank (h c List.mem_cons_self) _

theorem Padded.blanks {form : List Char → α → Prop} {blanks text : List Char}
    {value : α} (hblanks : Blanks blanks) (h : Padded form text value) :
    Padded form (blanks ++ text) value := by
  obtain ⟨hblanks', hform⟩ := h
  rw [← List.append_assoc]
  exact ⟨hblanks.append hblanks', hform⟩

theorem Padded.of_form {form : List Char → α → Prop} {text : List Char}
    {value : α} (h : form text value) : Padded form text value :=
  Padded.mk blanks_nil h

theorem Padded.mono {form form' : List Char → α → Prop} {text : List Char}
    {value : α} (h : Padded form text value)
    (himp : ∀ t, form t value → form' t value) : Padded form' text value := by
  obtain ⟨hblanks, hform⟩ := h
  exact ⟨hblanks, himp _ hform⟩

-- ================================================================== words

/-- The characters of a word are taken iff the text starts with them. -/
theorem takeWord_eq_ok_iff {w text rest : List Char} {u : Unit} :
    takeWord w text = .ok (u, rest) ↔ text = w ++ rest := by
  induction w generalizing text with
  | nil =>
      rw [takeWord, List.nil_append]
      exact ⟨fun h => by cases h; rfl, fun h => by rw [h]⟩
  | cons c w ih =>
      cases text with
      | nil => simp [takeWord]
      | cons d text =>
          rw [takeWord]
          by_cases hd : d = c
          · rw [if_pos hd, ih, hd, List.cons_append, List.cons.injEq]
            simp
          · simp [hd]

theorem word_run_eq_ok_iff {w text rest : List Char} {u : Unit} :
    (word w).run text = .ok (u, rest) ↔ text = w ++ rest :=
  takeWord_eq_ok_iff

theorem colon_run_eq_ok_iff {text rest : List Char} {u : Unit} :
    colon.run text = .ok (u, rest)
      ↔ ∃ blanks, Blanks blanks ∧ text = blanks ++ ':' :: rest := by
  unfold colon
  rw [run_bind_eq_ok_iff]
  constructor
  · intro hall
    obtain ⟨c, middle, hfirst, h⟩ := hall
    by_cases hc : c = ':'
    · rw [if_pos hc] at h
      cases h
      rw [hc] at hfirst
      exact (first_run_eq_ok_iff.1 hfirst).2
    · rw [if_neg hc] at h
      cases h
  · intro h
    exact ⟨':', rest, first_run_eq_ok_iff.2 ⟨by decide, h⟩, rfl⟩

end Dossier.Json
