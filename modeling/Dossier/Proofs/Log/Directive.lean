/-
How a directive is read that has a target, a limit or both, and no brackets.

There are three forms: `target=level`, `target` and `level`. A target begins
with a letter, a digit or one of a few marks, and goes up to the equals sign;
a level is a word or a number. What is a level by itself is never a target.

Parts are found in the text without the blanks at its ends and taken out of
the whole text by their places. A place can be cut at iff it is the width of
a front of the text (`part_eq_ok_iff`). As long as no blank stands in front, a
place that is found in the trimmed text is the width of a front of the whole
text too, so none of these forms is cut wrongly, and nothing but a blank in
front makes the reading end in a crash (`head?_of_crash`).
-/
import Mathlib.Data.List.DropRight
import Dossier.Log.Filter
import Dossier.Proofs.Text.Utf8

namespace Dossier

-- ================================================================== blanks

namespace Text

/-- No letter and no digit is a blank. -/
theorem isBlank_of_isAlphanumeric {c : Char} (h : isAlphanumeric c = true) :
    isBlank c = false := by
  have hnone : ∀ r ∈ blankRanges, ∀ k < r.2 - r.1 + 1,
      within alphanumericRanges (r.1 + k) = false := by
    decide +kernel
  by_contra hblank
  rw [Bool.not_eq_false] at hblank
  obtain ⟨r, hr, hlow, hhigh⟩ := (within_iff ascending_blankRanges _).1 hblank
  have hk := hnone r hr (c.toNat - r.1) (by omega)
  rw [Nat.add_sub_cancel' hlow] at hk
  exact Bool.noConfusion (h.symm.trans hk)

/-- A text that neither begins nor ends with a blank loses nothing. -/
theorem trim_eq_self {text : List Char} (hfirst : ∀ c ∈ text.head?, isBlank c = false)
    (hlast : ∀ c ∈ text.getLast?, isBlank c = false) : trim text = text := by
  have hdrop : text.dropWhile isBlank = text := by
    cases text with
    | nil => rfl
    | cons c text => exact List.dropWhile_cons_of_neg (by simp [hfirst c rfl])
  show (text.dropWhile isBlank).rdropWhile isBlank = text
  rw [hdrop, List.rdropWhile_eq_self_iff]
  intro hne
  rw [hlast _ (List.getLast?_eq_some_getLast hne)]
  exact Bool.false_ne_true

/-- A text that does not begin with a blank loses nothing in front. -/
theorem exists_trim_cons {c : Char} (h : isBlank c = false) (text : List Char) :
    ∃ kept, trim (c :: text) = c :: kept ∧ kept <+: text := by
  have hdrop : (c :: text).dropWhile isBlank = c :: text :=
    List.dropWhile_cons_of_neg (by simp [h])
  have htrim : trim (c :: text) = (c :: text).rdropWhile isBlank := by
    show ((c :: text).dropWhile isBlank).rdropWhile isBlank = _
    rw [hdrop]
  have hprefix := List.rdropWhile_prefix isBlank (c :: text)
  rw [← htrim] at hprefix
  rcases List.prefix_cons_iff.1 hprefix with hnil | hkept
  · rw [htrim, List.rdropWhile_eq_nil_iff] at hnil
    rw [hnil c List.mem_cons_self] at h
    cases h
  · exact hkept

end Text

namespace Log

-- ================================================================== levels

theorem isAlpha_of_toLower {c : Char} (h : c.toLower.isAlpha = true) :
    c.isAlpha = true := by
  unfold Char.toLower at h
  split at h
  · next hrange =>
    have hupper : c.isUpper = true := decide_eq_true hrange
    show (c.isUpper || c.isLower) = true
    rw [hupper, Bool.true_or]
  · exact h

theorem isAlphanum_of_isDigit {c : Char} (h : c.isDigit = true) :
    c.isAlphanum = true := by
  rw [Char.isAlphanum, h, Bool.or_true]

/-- A number is digits, with a plus in front or without. -/
theorem numberOf?_chars {text : List Char} {n : Nat} (h : numberOf? text = some n) :
    text ≠ [] ∧ ∀ c ∈ text, c.isAlphanum = true ∨ c = '+' := by
  unfold numberOf? at h
  dsimp only at h
  by_cases hplus : text.head? = some '+'
  · rw [if_pos hplus] at h
    obtain ⟨digits, rfl⟩ := List.head?_eq_some_iff.1 hplus
    split at h
    · next hdigits =>
      refine ⟨List.cons_ne_nil _ _, List.forall_mem_cons.2 ⟨Or.inr rfl, ?_⟩⟩
      exact fun c hc => Or.inl (isAlphanum_of_isDigit
        (List.all_eq_true.1 hdigits.2 c hc))
    · cases h
  · rw [if_neg hplus] at h
    split at h
    · next hdigits =>
      exact ⟨hdigits.1, fun c hc => Or.inl (isAlphanum_of_isDigit
        (List.all_eq_true.1 hdigits.2 c hc))⟩
    · cases h

/-- The words for limits are made of letters. -/
theorem isAlpha_of_mem_worded : ∀ entry ∈ Limit.worded,
    entry.1.toList ≠ [] ∧ entry.1.toList.all Char.isAlpha = true := by
  decide

/-- What names a limit is made of letters and digits, but for a plus. -/
theorem Limit.ofText?_chars {text : List Char} {limit : Limit}
    (h : Limit.ofText? text = some limit) :
    text ≠ [] ∧ ∀ c ∈ text, c.isAlphanum = true ∨ c = '+' := by
  unfold Limit.ofText? at h
  split at h
  · next n hnumber => exact numberOf?_chars hnumber
  · -- not a number, so a word
    obtain ⟨before, behind, hentries, -⟩ := List.lookup_eq_some_iff.1 h
    obtain ⟨hne, hword⟩ := isAlpha_of_mem_worded
      (String.ofList (text.map Char.toLower), limit) (by simp [hentries])
    dsimp only at hne hword
    rw [String.toList_ofList] at hne hword
    rw [List.all_eq_true] at hword
    refine ⟨fun hnil => hne (by rw [hnil, List.map_nil]), fun c hc => Or.inl ?_⟩
    have halpha := isAlpha_of_toLower (hword _ (List.mem_map.2 ⟨c, hc, rfl⟩))
    rw [Char.isAlphanum, halpha, Bool.true_or]

/-- A plus is as good as a letter: no blank and no mark of a directive. -/
theorem not_mark_of_isAlphanum {c : Char} (h : c.isAlphanum = true ∨ c = '+') :
    Text.isBlank c = false ∧ c ≠ '=' ∧ c ≠ '[' := by
  rcases h with h | rfl
  · refine ⟨Text.isBlank_of_isAlphanumeric (Text.isAlphanumeric_of_isAlphanum h),
      ?_, ?_⟩
    · rintro rfl
      exact absurd h (by decide)
    · rintro rfl
      exact absurd h (by decide)
  · decide +kernel

namespace Directive

-- ================================================================= cutting

theorem width_append (front behind : List Char) :
    width (front ++ behind) = width front + width behind := by
  unfold width Utf8.encode
  rw [List.flatMap_append, List.length_append]

theorem width_cons (c : Char) (text : List Char) :
    width (c :: text) = width [c] + width text :=
  width_append [c] text

/-- A character takes an octet at least. -/
theorem exists_width_singleton (c : Char) : ∃ more, width [c] = more + 1 := by
  obtain ⟨b, bytes, hchar⟩ :=
    List.exists_cons_of_ne_nil (Utf8.encodeChar_ne_nil c)
  refine ⟨bytes.length, ?_⟩
  unfold width Utf8.encode
  rw [List.flatMap_singleton, hchar, List.length_cons]

/-- A character of ASCII takes one octet. -/
theorem width_concat {c : Char} (hc : c.toNat < 0x80) (front : List Char) :
    width (front ++ [c]) = width front + 1 := by
  rw [width_append]
  congr 1
  unfold width Utf8.encode
  rw [List.flatMap_singleton, Utf8.encodeChar_one hc]
  rfl

/-- Behind the first character a text is cut like what is left of it. -/
theorem cutAt_cons_width (c : Char) (text : List Char) (place : Nat) :
    cutAt (c :: text) (width [c] + place)
      = (cutAt text place).map fun halves => (c :: halves.1, halves.2) := by
  obtain ⟨more, hwidth⟩ := exists_width_singleton c
  have hplace : width [c] + place = more + place + 1 := by omega
  rw [hplace, cutAt, if_neg (by omega)]
  congr 2
  omega

/-- The width of a front is a place to cut at. -/
theorem cutAt_width (front behind : List Char) :
    cutAt (front ++ behind) (width front) = some (front, behind) := by
  induction front with
  | nil => simp [width, Utf8.encode, cutAt]
  | cons c front ih =>
      rw [width_cons, List.cons_append, cutAt_cons_width, ih]
      rfl

/-- There is no other place to cut at. -/
theorem eq_of_cutAt {text : List Char} {place : Nat} {halves : List Char × List Char}
    (h : cutAt text place = some halves) :
    text = halves.1 ++ halves.2 ∧ place = width halves.1 := by
  induction text generalizing place halves with
  | nil =>
      cases place with
      | zero =>
          cases h
          exact ⟨rfl, rfl⟩
      | succ place => cases h
  | cons c text ih =>
      cases place with
      | zero =>
          cases h
          exact ⟨rfl, rfl⟩
      | succ place =>
          rw [cutAt] at h
          split at h
          · cases h
          · obtain ⟨halves, hcut, rfl⟩ := Option.map_eq_some_iff.1 h
            obtain ⟨htext, hplace⟩ := ih hcut
            refine ⟨congrArg (c :: ·) htext, ?_⟩
            show _ = width (c :: halves.1)
            rw [width_cons]
            omega

/-- There is a part between two places iff both are widths of fronts. -/
theorem part_eq_ok_iff {text middle : List Char} {start stop : Nat} :
    part text start stop = .ok middle
      ↔ ∃ before behind, text = before ++ middle ++ behind
          ∧ start = width before ∧ stop = width (before ++ middle) := by
  unfold part
  constructor
  · intro h
    split at h
    · next halves hcut =>
      cases h
      obtain ⟨outer, houter, hinner⟩ := Option.bind_eq_some_iff.1 hcut
      obtain ⟨htext, hstop⟩ := eq_of_cutAt houter
      obtain ⟨hfront, hstart⟩ := eq_of_cutAt hinner
      rw [hfront] at htext hstop
      exact ⟨halves.1, outer.2, htext, hstart, hstop⟩
    · cases h
  · intro h
    obtain ⟨before, behind, rfl, rfl, rfl⟩ := h
    rw [cutAt_width, Option.bind_some, cutAt_width]

/-- What is left of a text behind a front. -/
theorem part_width_width (front behind : List Char) :
    part (front ++ behind) (width front) (width (front ++ behind)) = .ok behind :=
  part_eq_ok_iff.2 ⟨front, [], (List.append_nil _).symm, rfl, rfl⟩

/-- A front of a text. -/
theorem part_zero_width (front behind : List Char) :
    part (front ++ behind) 0 (width front) = .ok front :=
  part_eq_ok_iff.2 ⟨[], behind, rfl, rfl, rfl⟩

-- =================================================================== forms

/-- The text can stand for a target. -/
structure IsTarget (target : List Char) : Prop where
  begins : ∃ c rest, target = c :: rest ∧ Directive.begins c = true
  unmarked : ∀ c ∈ target, c ≠ '=' ∧ c ≠ '['

/-- The texts of directives for the events of a target. -/
inductive Targeted : List Char → Directive → Prop
  /-- `target=level`. -/
  | level {target level : List Char} {limit : Limit} (h : IsTarget target)
      (hlevel : Limit.ofText? level = some limit) :
      Targeted (target ++ '=' :: level) (ofTarget (String.ofList target) limit)
  /-- `target` alone, for events of all levels. -/
  | alone {target : List Char} (h : IsTarget target)
      (hlevel : Limit.ofText? target = none) :
      Targeted target (ofTarget (String.ofList target) (some .trace))

/-- The texts of directives without brackets: for a target, or with a level alone
for all events. A plus in front makes a level of a number and a directive of
nothing, so a directive does not begin with one. -/
inductive Written : List Char → Directive → Prop
  | targeted {text : List Char} {d : Directive} (h : Targeted text d) :
      Written text d
  | level {level : List Char} {limit : Limit}
      (hlevel : Limit.ofText? level = some limit)
      (hplus : level.head? ≠ some '+') : Written level (ofTarget "" limit)

theorem isBlank_of_begins {c : Char} (h : begins c = true) :
    Text.isBlank c = false := by
  unfold begins at h
  simp only [Bool.or_eq_true, beq_iff_eq] at h
  rcases h with ((h | rfl) | rfl) | rfl
  · exact Text.isBlank_of_isAlphanumeric h
  all_goals decide +kernel

theorem ne_bracket_of_begins {c : Char} (h : begins c = true) : c ≠ '[' := by
  rintro rfl
  exact absurd h (by decide +kernel)

-- ================================================================= reading

/-- What has no mark is taken up to the first one. -/
theorem takeWhile_unmarked {front : List Char} (h : ∀ c ∈ front, c ≠ '=' ∧ c ≠ '[')
    {behind : List Char} (hbehind : ∀ c ∈ behind.head?, c = '=') :
    (front ++ behind).takeWhile (fun c => c ≠ '=' && c ≠ '[') = front := by
  rw [List.takeWhile_append_of_pos]
  · cases behind with
    | nil => simp
    | cons c behind => simp [hbehind c rfl]
  · intro c hc
    simp [h c hc]

/-- Behind a front stands the limit that the rest names. -/
theorem limitAt_append (front behind : List Char) :
    limitAt (front ++ behind) (width front) = limitOf behind := by
  unfold limitAt
  rw [part_width_width]
  rfl

theorem limitOf_of_ofText? {level : List Char} {limit : Limit}
    (h : Limit.ofText? level = some limit) : limitOf level = .ok limit := by
  unfold limitOf
  rw [if_neg (Limit.ofText?_chars h).1, h]

variable (host : Host)

/-- A target with a level. -/
theorem ofText_level {target level : List Char} {limit : Limit}
    (h : IsTarget target) (hlevel : Limit.ofText? level = some limit) :
    ofText host (target ++ '=' :: level)
      = .ok (ofTarget (String.ofList target) limit) := by
  obtain ⟨⟨c, rest, rfl, hbegins⟩, hunmarked⟩ := h
  obtain ⟨hne, hchars⟩ := Limit.ofText?_chars hlevel
  have htrim : Text.trim (c :: (rest ++ '=' :: level))
      = c :: (rest ++ '=' :: level) := by
    refine Text.trim_eq_self ?_ ?_
    · intro d hd
      cases hd
      exact isBlank_of_begins hbegins
    · intro d hd
      have hmem : d ∈ level := by
        rw [← List.cons_append, List.getLast?_append_of_ne_nil _ (by simp),
          List.getLast?_cons_of_ne_nil hne] at hd
        exact List.mem_of_getLast? hd
      exact (not_mark_of_isAlphanum (hchars d hmem)).1
  have hword : (c :: rest ++ '=' :: level).takeWhile
      (fun c => c ≠ '=' && c ≠ '[') = c :: rest :=
    takeWhile_unmarked hunmarked (by simp)
  have hdrop : (c :: rest ++ '=' :: level).drop (c :: rest).length = '=' :: level :=
    List.drop_left
  have htarget := part_zero_width (c :: rest) ('=' :: level)
  have hlimit := limitAt_append (c :: rest ++ ['=']) level
  rw [limitOf_of_ofText? hlevel, width_concat (by decide), List.append_assoc,
    List.singleton_append] at hlimit
  rw [List.cons_append] at hword hdrop htarget hlimit ⊢
  unfold ofText
  rw [htrim]
  split
  · next hnil => cases hnil
  · next hbracket =>
    exact absurd (List.cons.inj hbracket).1 (ne_bracket_of_begins hbegins)
  · next heq =>
    cases heq
    simp only [hword, hdrop, hbegins, Bool.not_true, Bool.false_eq_true, if_false]
    rw [htarget, hlimit]
    rfl

/-- What has no mark behind its first character is a level if it names one, and
else a target. -/
theorem ofText_of_unmarked {c : Char} {rest : List Char} (hbegins : begins c = true)
    (hunmarked : ∀ d ∈ c :: rest, d ≠ '=' ∧ d ≠ '[') :
    ofText host (c :: rest)
      = .ok (match Limit.ofText? (c :: rest) with
        | some limit => ofTarget "" limit
        | none => ofTarget (String.ofList (c :: rest)) (some .trace)) := by
  obtain ⟨kept, htrim, hkept⟩ := Text.exists_trim_cons (isBlank_of_begins hbegins) rest
  have hall : ∀ d ∈ c :: kept, d ≠ '=' ∧ d ≠ '[' := by
    intro d hd
    exact hunmarked d (((List.prefix_cons_inj c).2 hkept).subset hd)
  have hword : (c :: kept).takeWhile (fun c => c ≠ '=' && c ≠ '[') = c :: kept := by
    have h := @takeWhile_unmarked _ hall [] (by simp)
    rw [List.append_nil] at h
    exact h
  unfold ofText
  rw [htrim]
  split
  · next hnil => cases hnil
  · next hbracket =>
    exact absurd (List.cons.inj hbracket).1 (ne_bracket_of_begins hbegins)
  · next heq =>
    cases heq
    simp only [hword, List.drop_length, hbegins, Bool.not_true, Bool.false_eq_true,
      if_false]
    cases Limit.ofText? (c :: rest) <;> rfl

/-- A level that does not start with a plus starts like a target. -/
theorem exists_begins_of_level {level : List Char} {limit : Limit}
    (hlevel : Limit.ofText? level = some limit) (hplus : level.head? ≠ some '+') :
    ∃ c rest, level = c :: rest ∧ begins c = true := by
  obtain ⟨hne, hchars⟩ := Limit.ofText?_chars hlevel
  obtain ⟨c, rest, rfl⟩ := List.exists_cons_of_ne_nil hne
  have hc : c ≠ '+' := fun heq => hplus (congrArg some heq)
  have halphanum := (hchars c List.mem_cons_self).resolve_right hc
  refine ⟨c, rest, rfl, ?_⟩
  unfold begins
  rw [Text.isAlphanumeric_of_isAlphanum halphanum]
  rfl

/-- Each form is read as its directive. -/
theorem ofText_of_written {text : List Char} {d : Directive} (h : Written text d) :
    ofText host text = .ok d := by
  cases h with
  | targeted h =>
      cases h with
      | level h hlevel => exact ofText_level host h hlevel
      | alone h hlevel =>
          obtain ⟨⟨c, rest, rfl, hbegins⟩, hunmarked⟩ := h
          rw [ofText_of_unmarked host hbegins hunmarked, hlevel]
  | level hlevel hplus =>
      obtain ⟨c, rest, rfl, hbegins⟩ := exists_begins_of_level hlevel hplus
      have hunmarked : ∀ d ∈ c :: rest, d ≠ '=' ∧ d ≠ '[' := fun d hd =>
        (not_mark_of_isAlphanum ((Limit.ofText?_chars hlevel).2 d hd)).2
      rw [ofText_of_unmarked host hbegins hunmarked, hlevel]

/-- These directives are for whatever happens to a target, not inside of a span
nor with a field. -/
def IsPlain (d : Directive) : Prop := d.span = none ∧ d.condition = none

theorem Written.isPlain {text : List Char} {d : Directive} (h : Written text d) :
    d.IsPlain := by
  cases h with
  | targeted h => cases h <;> exact ⟨rfl, rfl⟩
  | level => exact ⟨rfl, rfl⟩

/-- A target is never empty, so it is not taken for all events. -/
theorem Targeted.target_ne {text : List Char} {d : Directive} (h : Targeted text d) :
    d.target ≠ "" := by
  have hne : ∀ {target : List Char}, IsTarget target →
      String.ofList target ≠ "" := by
    rintro target ⟨⟨c, rest, rfl, -⟩, -⟩ hempty
    have hnil := congrArg String.toList hempty
    rw [String.toList_ofList] at hnil
    cases hnil
  cases h with
  | level h hlevel => exact hne h
  | alone h hlevel => exact hne h

-- ================================================================= crashes

/-- What is read in two steps crashes in one of them. -/
theorem bind_ne_crash {α β : Type} {first : Except Mishap α}
    {next : α → Except Mishap β} (hfirst : first ≠ .error .crash)
    (hnext : ∀ a, next a ≠ .error .crash) :
    (first >>= next) ≠ .error .crash := by
  cases first with
  | ok a => exact hnext a
  | error mishap =>
      intro h
      apply hfirst
      cases mishap with
      | refused cause => cases h
      | crash => rfl

/-- A part between the widths of two fronts is no crash. -/
theorem part_ne_crash (before middle behind : List Char) :
    part (before ++ middle ++ behind) (width before) (width before + width middle)
      ≠ .error .crash := by
  have hpart : part (before ++ middle ++ behind) (width before)
      (width before + width middle) = .ok middle :=
    part_eq_ok_iff.2 ⟨before, behind, rfl, rfl, (width_append before middle).symm⟩
  rw [hpart]
  simp

theorem limitAt_ne_crash (front behind : List Char) :
    limitAt (front ++ behind) (width front) ≠ .error .crash := by
  rw [limitAt_append]
  unfold limitOf
  split
  · simp
  · split <;> simp

theorem limitBehind_ne_crash (front behind tail : List Char) :
    limitBehind (front ++ (behind ++ tail)) (width front) behind ≠ .error .crash := by
  unfold limitBehind
  split
  · simp
  · next behind =>
    have hlimit := limitAt_ne_crash (front ++ ['=']) (behind ++ tail)
    rw [width_concat (by decide), List.append_assoc] at hlimit
    exact hlimit
  · simp

theorem conditionOf_ne_crash (text : List Char) :
    conditionOf host text ≠ .error .crash := by
  unfold conditionOf
  split
  · split <;> simp
  · split <;> simp

/-- What is taken up to a mark is a front, and what is dropped with it leaves
the rest. -/
theorem exists_takeWhile_append (p : Char → Bool) (text : List Char) :
    ∃ rest, text = text.takeWhile p ++ rest
      ∧ text.drop (text.takeWhile p).length = rest := by
  refine ⟨text.dropWhile p, List.takeWhile_append_dropWhile.symm, ?_⟩
  have hsplit := List.takeWhile_append_dropWhile (p := p) (l := text)
  calc text.drop (text.takeWhile p).length
      = (text.takeWhile p ++ text.dropWhile p).drop (text.takeWhile p).length := by
        rw [hsplit]
    _ = text.dropWhile p := List.drop_left

/-- The parts in braces and behind them are found behind a front of the text, so
they can be taken out of it. -/
theorem asking_ne_crash (target span front inner tail : List Char) :
    asking host (front ++ (inner ++ tail)) target span (width front) inner
      ≠ .error .crash := by
  unfold asking
  dsimp only
  obtain ⟨rest, hinner, hrest⟩ := exists_takeWhile_append (· ≠ '\x7d') inner
  rw [hrest]
  generalize inner.takeWhile (· ≠ '\x7d') = asked at hinner
  subst hinner
  split
  · next behind =>
    have hasked := part_ne_crash front asked ('\x7d' :: (behind ++ tail))
    apply bind_ne_crash
    · simpa using hasked
    intro words
    apply bind_ne_crash (conditionOf_ne_crash host words)
    intro condition
    split
    · next behind =>
      have hlimit :=
        limitBehind_ne_crash (front ++ asked ++ ['\x7d'] ++ [']']) behind tail
      rw [width_concat (by decide), width_concat (by decide), width_append] at hlimit
      apply bind_ne_crash
      · simpa using hlimit
      · intro limit h
        cases h
    · simp
  · simp

/-- The parts in brackets as well. -/
theorem bracketed_ne_crash (target front inner tail : List Char) :
    bracketed host (front ++ (inner ++ tail)) target (width front) inner
      ≠ .error .crash := by
  unfold bracketed
  dsimp only
  obtain ⟨rest, hinner, hrest⟩ :=
    exists_takeWhile_append (fun c => c ≠ ']' && c ≠ '\x7b') inner
  rw [hrest]
  generalize inner.takeWhile (fun c => c ≠ ']' && c ≠ '\x7b') = name at hinner
  subst hinner
  have hspan := part_ne_crash front name (rest ++ tail)
  rw [List.append_assoc, ← List.append_assoc name] at hspan
  split
  · next behind =>
    have hlimit := limitBehind_ne_crash (front ++ name ++ [']']) behind tail
    rw [width_concat (by decide), width_append] at hlimit
    apply bind_ne_crash hspan
    intro span
    apply bind_ne_crash
    · simpa using hlimit
    · intro limit h
      cases h
  · next inner =>
    apply bind_ne_crash hspan
    intro span
    have hasking :=
      asking_ne_crash host target span (front ++ name ++ ['\x7b']) inner tail
    rw [width_concat (by decide), width_append] at hasking
    simpa using hasking
  · simp

/-- A text that does not begin with a blank is read without a crash: its places
are those of the text without the blanks at its end. -/
theorem ofText_ne_crash {c : Char} (h : Text.isBlank c = false) (text : List Char) :
    ofText host (c :: text) ≠ .error .crash := by
  obtain ⟨kept, htrim, tail, hkept⟩ := Text.exists_trim_cons h text
  subst hkept
  unfold ofText
  rw [htrim]
  split
  · simp
  · next inner hcons =>
    obtain ⟨rfl, rfl⟩ := List.cons.inj hcons
    exact bracketed_ne_crash host [] ['['] kept tail
  · next d rest _ hcons =>
    cases hcons
    dsimp only
    generalize hword : (c :: kept).takeWhile (fun c => c ≠ '=' && c ≠ '[') = word
    obtain ⟨rest, hsplit, hrest⟩ :=
      exists_takeWhile_append (fun c => c ≠ '=' && c ≠ '[') (c :: kept)
    rw [hword] at hsplit hrest
    rw [hrest, ← List.cons_append, hsplit, List.append_assoc]
    have htarget := part_ne_crash [] word (rest ++ tail)
    split
    · simp
    split
    · split <;> simp
    · next inner =>
      apply bind_ne_crash
      · simpa [width, Utf8.encode] using htarget
      intro target
      have hbracketed := bracketed_ne_crash host target (word ++ ['[']) inner tail
      rw [width_concat (by decide)] at hbracketed
      simpa using hbracketed
    · next behind =>
      apply bind_ne_crash
      · simpa [width, Utf8.encode] using htarget
      intro target
      have hlimit := limitAt_ne_crash (word ++ ['=']) (behind ++ tail)
      rw [width_concat (by decide)] at hlimit
      apply bind_ne_crash
      · simpa using hlimit
      · intro limit hok
        cases hok
    · simp

/-- Only a text with a blank in front can make the reading end in a crash. -/
theorem head?_of_crash {text : List Char} (h : ofText host text = .error .crash) :
    ∃ c ∈ text.head?, Text.isBlank c = true := by
  cases text with
  | nil => cases h
  | cons c text =>
      refine ⟨c, rfl, ?_⟩
      by_contra hblank
      exact ofText_ne_crash host (Bool.eq_false_iff.2 hblank) text h

-- the blank shifts the place of `=` into the letter in front of it
example : ofText .lenient " é=warn".toList = .error .crash := by decide +kernel

end Directive

end Log

end Dossier
