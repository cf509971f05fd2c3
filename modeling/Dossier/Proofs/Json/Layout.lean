/-
What of a document is layout, and that no text in it is taken for it.

A scan that tells literals from what is around them needs three places: outside,
inside, and inside behind a backslash. `ink` goes through a text with it and
leaves out the blanks that are met outside.

`Lays` says what a stretch that begins and ends outside of literals adds to a
document: its ink, and its line feeds, the only control characters that it
holds. Stretches are put together by `Lays.append`. A literal is all ink,
whatever its text and however it is spelled (`lays_literal`): what would end it
or break a line stands in it only as an escape. So by induction on the value
the pretty form has the compact one for its ink, and the brackets alone decide
its line feeds (`lays_pretty`).
-/
import Dossier.Proofs.Json.Writing

namespace Dossier.Json

-- ================================================================ the scan

/-- Where a scan of a document stands. -/
inductive Place where
  | outside
  | inside
  /-- Inside a literal, behind a backslash. -/
  | escaped
  deriving DecidableEq, Repr

/-- A quote opens a literal and closes it, unless it stands behind a backslash. -/
def Place.next : Place → Char → Place
  | .outside, c => if c = '"' then .inside else .outside
  | .inside, c => if c = '"' then .outside else if c = '\\' then .escaped else .inside
  | .escaped, _ => .inside

/-- The text without the blanks that stand outside of literals. -/
def ink (place : Place) : List Char → List Char
  | [] => []
  | c :: text =>
      if place = .outside ∧ isBlank c = true then ink (place.next c) text
      else c :: ink (place.next c) text

/-- A character that is no layout and opens no literal. -/
def IsInk (c : Char) : Prop := 0x20 < c.toNat ∧ c ≠ '"'

instance (c : Char) : Decidable (IsInk c) := inferInstanceAs (Decidable (_ ∧ _))

theorem IsInk.isBlank {c : Char} (h : IsInk c) : isBlank c = false := by
  have hne : ∀ d : Char, d.toNat ≤ 0x20 → (c == d) = false := by
    intro d hd
    apply beq_false_of_ne
    intro hc
    subst hc
    exact absurd h.1 (Nat.not_lt.2 hd)
  simp [Json.isBlank, hne ' ' (by decide), hne '\t' (by decide),
    hne '\n' (by decide), hne '\r' (by decide)]

theorem ink_outside_ink {c : Char} (h : IsInk c) (text : List Char) :
    ink .outside (c :: text) = c :: ink .outside text := by
  rw [ink, if_neg (by simp [h.isBlank]), Place.next, if_neg h.2]

theorem ink_outside_blank {c : Char} (h : isBlank c = true) (text : List Char) :
    ink .outside (c :: text) = ink .outside text := by
  have hquote : c ≠ '"' := by
    rintro rfl
    exact absurd h (by decide)
  rw [ink, if_pos ⟨rfl, h⟩, Place.next, if_neg hquote]

theorem ink_quote (text : List Char) :
    ink .outside ('"' :: text) = '"' :: ink .inside text := by
  rw [ink, if_neg (by decide)]
  rfl

theorem ink_inside_quote (text : List Char) :
    ink .inside ('"' :: text) = '"' :: ink .outside text := by
  rw [ink, if_neg (by decide)]
  rfl

theorem ink_inside_escape (c : Char) (text : List Char) :
    ink .inside ('\\' :: c :: text) = '\\' :: c :: ink .inside text := by
  rw [ink, if_neg (by decide), ink, if_neg (by simp [Place.next])]
  rfl

theorem ink_inside_plain {c : Char} (hquote : c ≠ '"') (hbackslash : c ≠ '\\')
    (text : List Char) : ink .inside (c :: text) = c :: ink .inside text := by
  rw [ink, if_neg (by simp), Place.next, if_neg hquote, if_neg hbackslash]

-- ================================================================ literals

/-- What is written inside a literal holds no control character and keeps the
scan inside. -/
structure Keeps (text : List Char) : Prop where
  ink_append : ∀ rest, ink .inside (text ++ rest) = text ++ ink .inside rest
  no_control : ∀ c ∈ text, 0x20 ≤ c.toNat

theorem Keeps.append {text text' : List Char} (h : Keeps text)
    (h' : Keeps text') : Keeps (text ++ text') := by
  constructor
  · intro rest
    rw [List.append_assoc, h.ink_append, h'.ink_append, List.append_assoc]
  · exact List.forall_mem_append.2 ⟨h.no_control, h'.no_control⟩

theorem keeps_nil : Keeps [] := ⟨fun _ => rfl, by simp⟩

theorem keeps_plain {c : Char} (hquote : c ≠ '"') (hbackslash : c ≠ '\\')
    (hcontrol : 0x20 ≤ c.toNat) : Keeps [c] := by
  refine ⟨ink_inside_plain hquote hbackslash, ?_⟩
  intro d hd
  rw [List.mem_singleton.1 hd]
  exact hcontrol

theorem keeps_escape {c : Char} (hcontrol : 0x20 ≤ c.toNat) : Keeps ['\\', c] := by
  refine ⟨ink_inside_escape c, ?_⟩
  rw [List.forall_mem_cons, List.forall_mem_singleton]
  exact ⟨by decide, hcontrol⟩

/-- The letter of an escape is no control character. -/
theorem le_of_simpleEscape? {letter c : Char} (h : simpleEscape? letter = some c) :
    0x20 ≤ letter.toNat := by
  apply Nat.le_of_not_lt
  intro hlt
  have hne : ∀ d : Char, 0x20 ≤ d.toNat → letter ≠ d := by
    rintro d hd rfl
    omega
  unfold simpleEscape? at h
  rw [if_neg (hne '"' (by decide)), if_neg (hne '\\' (by decide)),
    if_neg (hne '/' (by decide)), if_neg (hne 'b' (by decide)),
    if_neg (hne 'f' (by decide)), if_neg (hne 'n' (by decide)),
    if_neg (hne 'r' (by decide)), if_neg (hne 't' (by decide))] at h
  cases h

theorem keeps_hex {c : Char} {value : Nat} (h : hexValue? c = some value) :
    Keeps [c] := by
  have hcontrol : 0x30 ≤ c.toNat := by
    unfold hexValue? at h
    split at h
    · next hdigit =>
      simp only [Char.isDigit, Bool.and_eq_true, decide_eq_true_eq] at hdigit
      exact hdigit.1
    · split at h
      · next hletter => exact Nat.le_trans (by decide) (show 'a'.toNat ≤ c.toNat from hletter.1)
      · split at h
        · next hletter =>
          exact Nat.le_trans (by decide) (show 'A'.toNat ≤ c.toNat from hletter.1)
        · cases h
  refine keeps_plain ?_ ?_ (Nat.le_trans (by decide) hcontrol)
  · rintro rfl
    exact absurd hcontrol (by decide)
  · rintro rfl
    have hnone : hexValue? '\\' = none := by decide
    rw [hnone] at h
    cases h

theorem Code.keeps {digits : List Char} {code : Nat} (h : Code digits code) :
    Keeps digits := by
  obtain ⟨h⟩ := h
  simp only [hexValue4?, Option.bind_eq_bind, Option.bind_eq_some_iff] at h
  obtain ⟨_, ha, _, hb, _, hc, _, hd, -⟩ := h
  exact (keeps_hex ha).append ((keeps_hex hb).append ((keeps_hex hc).append (keeps_hex hd)))

theorem Spelling.keeps {text : List Char} {c : Char} (h : Spelling text c) :
    Keeps text := by
  have hu : Keeps ['\\', 'u'] := keeps_escape (by decide)
  cases h with
  | plain hquote hbackslash hcontrol => exact keeps_plain hquote hbackslash hcontrol
  | letter h => exact keeps_escape (le_of_simpleEscape? h)
  | code h _ _ => exact hu.append h.keeps
  | pair h h' _ _ => exact hu.append (h.keeps.append (hu.append h'.keeps))

theorem Spellings.keeps {text cs : List Char} (h : Spellings text cs) :
    Keeps text := by
  induction h with
  | nil => exact keeps_nil
  | cons hspelling _ ih => exact hspelling.keeps.append ih

-- =============================================================== stretches

/-- A stretch of a document that begins and ends outside of literals: its ink, and
its line feeds, which are the only control characters in it. -/
structure Lays (text out : List Char) (breaks : Nat) : Prop where
  ink_append : ∀ rest, ink .outside (text ++ rest) = out ++ ink .outside rest
  count_eq : text.count '\n' = breaks
  eq_newline : ∀ c ∈ text, c.toNat < 0x20 → c = '\n'
  no_control : ∀ c ∈ out, 0x20 ≤ c.toNat

section Stretches

variable {text text' out out' : List Char} {breaks breaks' : Nat}

theorem Lays.ink_eq (h : Lays text out breaks) : ink .outside text = out := by
  have hink := h.ink_append []
  rw [List.append_nil, ink, List.append_nil] at hink
  exact hink

theorem lays_nil : Lays [] [] 0 :=
  ⟨fun _ => rfl, rfl, by simp, by simp⟩

theorem Lays.append (h : Lays text out breaks) (h' : Lays text' out' breaks') :
    Lays (text ++ text') (out ++ out') (breaks + breaks') := by
  refine ⟨?_, ?_, ?_, ?_⟩
  · intro rest
    rw [List.append_assoc, h.ink_append, h'.ink_append, List.append_assoc]
  · rw [List.count_append, h.count_eq, h'.count_eq]
  · exact List.forall_mem_append.2 ⟨h.eq_newline, h'.eq_newline⟩
  · exact List.forall_mem_append.2 ⟨h.no_control, h'.no_control⟩

/-- Without a control character there is no line feed. -/
theorem count_newline_eq_zero (h : ∀ c ∈ text, 0x20 ≤ c.toNat) :
    text.count '\n' = 0 := by
  rw [List.count_eq_zero]
  intro hmem
  exact absurd (h '\n' hmem) (by decide)

/-- A stretch that is all ink. -/
theorem lays_of_ink (hink : ∀ rest, ink .outside (text ++ rest) = text ++ ink .outside rest)
    (hcontrol : ∀ c ∈ text, 0x20 ≤ c.toNat) : Lays text text 0 :=
  ⟨hink, count_newline_eq_zero hcontrol,
    fun c hc hlt => absurd (hcontrol c hc) (Nat.not_le.2 hlt), hcontrol⟩

theorem lays_of_forall (h : ∀ c ∈ text, IsInk c) : Lays text text 0 := by
  apply lays_of_ink _ fun c hc => Nat.le_of_lt (h c hc).1
  intro rest
  induction text with
  | nil => rfl
  | cons c text ih =>
      rw [List.forall_mem_cons] at h
      rw [List.cons_append, ink_outside_ink h.1, ih h.2, List.cons_append]

/-- What breaks no line adds none in front of a stretch. -/
theorem Lays.behind (h : Lays text out breaks) (hfront : Lays text' out' 0) :
    Lays (text' ++ text) (out' ++ out) breaks := by
  rw [← Nat.zero_add breaks]
  exact hfront.append h

/-- A mark in front of a stretch. -/
theorem Lays.cons {c : Char} (hc : IsInk c) (h : Lays text out breaks) :
    Lays (c :: text) (c :: out) breaks := by
  have hmark : Lays [c] [c] 0 := lays_of_forall (by simpa using hc)
  exact h.behind hmark

/-- A literal, in whatever spelling, is all ink. -/
theorem Literal.lays {value : String} (h : Literal text value) : Lays text text 0 := by
  cases h with
  | @mk text cs hspellings =>
      have hkeeps := hspellings.keeps
      apply lays_of_ink
      · intro rest
        rw [List.cons_append, List.append_assoc, List.singleton_append, ink_quote,
          hkeeps.ink_append, ink_inside_quote, List.cons_append, List.append_assoc]
        rfl
      · intro c hc
        simp only [List.mem_cons, List.mem_append, List.not_mem_nil, or_false] at hc
        rcases hc with rfl | hc | rfl
        · decide
        · exact hkeeps.no_control c hc
        · decide

theorem lays_literal (s : String) : Lays (literal s) (literal s) 0 :=
  (literal_literal s).lays

theorem lays_space : Lays [' '] [] 0 :=
  ⟨ink_outside_blank (by decide), by decide, by simp, by simp⟩

/-- The start of a line is one line feed and no ink. -/
theorem lays_newLine (depth : Nat) : Lays (newLine depth) [] 1 := by
  have hspaces : ∀ n, Lays (List.replicate n ' ') [] 0 := by
    intro n
    induction n with
    | zero => exact lays_nil
    | succ n ih => exact lays_space.append ih
  have hfeed : Lays ['\n'] [] 1 :=
    ⟨ink_outside_blank (by decide), by decide, by simp, by simp⟩
  exact hfeed.append (hspaces _)

end Stretches

-- ================================================================= numbers

theorem isInk_of_isDigit {c : Char} (h : c.isDigit = true) : IsInk c := by
  simp only [Char.isDigit, Bool.and_eq_true, decide_eq_true_eq] at h
  have hlow : 0x30 ≤ c.toNat := h.1
  refine ⟨by omega, ?_⟩
  rintro rfl
  exact absurd hlow (by decide)

theorem isInk_of_mem_toDigits {n : Nat} {c : Char} (h : c ∈ Nat.toDigits 10 n) :
    IsInk c :=
  isInk_of_isDigit (isDigit_of_mem_toDigits h)

/-- A decimal is written with digits and a few marks. -/
theorem isInk_of_mem_decimal {layout : DecimalLayout} {d : Decimal} {c : Char}
    (h : c ∈ d.text layout) : IsInk c := by
  have hparts : (∃ n, c ∈ Nat.toDigits 10 n) ∨ c ∈ ['0', '.', 'e', '-', '+'] := by
    have htake : ∀ n, c ∈ (Nat.toDigits 10 d.digits).take n →
        ∃ n, c ∈ Nat.toDigits 10 n := fun n hc => ⟨_, List.mem_of_mem_take hc⟩
    have hdrop : ∀ n, c ∈ (Nat.toDigits 10 d.digits).drop n →
        ∃ n, c ∈ Nat.toDigits 10 n := fun n hc => ⟨_, List.mem_of_mem_drop hc⟩
    unfold Decimal.text at h
    dsimp only at h
    split at h
    · split at h
      · simp only [List.mem_append, List.mem_replicate, List.mem_cons, List.not_mem_nil,
          or_false] at h
        grind
      · split at h
        · simp only [List.mem_append, List.mem_cons] at h
          grind
        · simp only [List.mem_append, List.mem_replicate, List.mem_cons] at h
          grind
    · simp only [List.mem_append, List.mem_cons] at h
      grind
  rcases hparts with ⟨n, hc⟩ | hc
  · exact isInk_of_mem_toDigits hc
  · have hmarks : ∀ mark ∈ ['0', '.', 'e', '-', '+'], IsInk mark := by
      simp [IsInk]
    exact hmarks c hc

theorem isInk_of_mem_number {n : Number} {c : Char} (h : c ∈ n.text) : IsInk c := by
  cases n with
  | integer n =>
      rw [Number.text, Number.integerText] at h
      split at h
      · rcases List.mem_cons.1 h with rfl | h
        · decide
        · exact isInk_of_mem_toDigits h
      · exact isInk_of_mem_toDigits h
  | float negative magnitude =>
      rw [Number.text] at h
      rcases List.mem_append.1 h with h | h
      · split at h
        · rw [List.mem_singleton.1 h]
          decide
        · cases h
      · exact isInk_of_mem_decimal h

-- ================================================================== values

/-- What holds of the values without content and is passed on by arrays and
objects holds of all values. -/
@[elab_as_elim]
theorem Value.induction {motive : Value → Prop} (null : motive .null)
    (boolean : ∀ value, motive (.boolean value))
    (number : ∀ value, motive (.number value)) (text : ∀ value, motive (.text value))
    (array : ∀ items, (∀ v ∈ items, motive v) → motive (.array items))
    (object : ∀ members, (∀ m ∈ members, motive m.2) → motive (.object members)) :
    ∀ v, motive v
  | .null => null
  | .boolean value => boolean value
  | .number value => number value
  | .text value => text value
  | .array items => array items fun v hv =>
      have := List.sizeOf_lt_of_mem hv
      Value.induction null boolean number text array object v
  | .object members => object members fun m hm =>
      have := List.sizeOf_lt_of_mem hm
      Value.induction null boolean number text array object m.2
termination_by v => sizeOf v
decreasing_by
  · simp only [Value.array.sizeOf_spec]
    omega
  · obtain ⟨key, v⟩ := m
    simp only [Prod.mk.sizeOf_spec] at this
    simp only [Value.object.sizeOf_spec]
    omega

mutual

/-- The line feeds that the brackets of a value ask for. -/
def Value.breaks : Value → Nat
  | .array [] => 0
  | .array (item :: items) => breaksOfItems (item :: items) + 1
  | .object [] => 0
  | .object (member :: members) => breaksOfMembers (member :: members) + 1
  | _ => 0

/-- Each element begins a line. -/
def breaksOfItems : List Value → Nat
  | [] => 0
  | item :: items => 1 + item.breaks + breaksOfItems items

/-- Each member begins a line. -/
def breaksOfMembers : List (String × Value) → Nat
  | [] => 0
  | (_, value) :: members => 1 + value.breaks + breaksOfMembers members

end

/-- Items with commas between them are laid out one by one. -/
theorem lays_intercalate {α : Type} {write line : α → List Char}
    {count : α → Nat} {total : List α → Nat} (hnil : total [] = 0)
    (hcons : ∀ item items, total (item :: items) = count item + total items)
    {items : List α} (h : ∀ item ∈ items, Lays (write item) (line item) (count item)) :
    Lays ([','].intercalate (items.map write)) ([','].intercalate (items.map line))
      (total items) := by
  induction items with
  | nil =>
      rw [hnil]
      exact lays_nil
  | cons item items ih =>
      rw [List.forall_mem_cons] at h
      have hitem := h.1
      have hitems := ih h.2
      rw [hcons]
      cases items with
      | nil =>
          rw [hnil]
          simpa using hitem
      | cons item' items =>
          rw [List.map_cons, List.map_cons, List.map_cons, List.map_cons,
            List.intercalate_cons_cons, List.intercalate_cons_cons, List.append_assoc,
            List.append_assoc]
          exact hitem.append (hitems.cons (by decide))

theorem lays_brackets {opening closing : Char} (hopening : IsInk opening)
    (hclosing : IsInk closing) {text out : List Char} {breaks : Nat} (depth : Nat)
    (h : Lays text out breaks) :
    Lays (opening :: text ++ newLine depth ++ [closing])
      (opening :: out ++ [closing]) (breaks + 1) := by
  have hend : Lays (newLine depth ++ [closing]) [closing] 1 :=
    (lays_newLine depth).append (lays_nil.cons hclosing)
  rw [List.append_assoc]
  exact (h.cons hopening).append hend

/-- The pretty form of a value, however deep it stands, has the compact form for its
ink and the line feeds that the brackets ask for. -/
theorem lays_pretty (v : Value) (depth : Nat) :
    Lays (v.pretty depth) v.compact v.breaks := by
  induction v using Value.induction generalizing depth with
  | null =>
      show Lays ['n', 'u', 'l', 'l'] ['n', 'u', 'l', 'l'] 0
      exact lays_of_forall (by simp [IsInk])
  | boolean value =>
      show Lays (booleanText value) (booleanText value) 0
      cases value <;> exact lays_of_forall (by simp [booleanText, IsInk])
  | number value => exact lays_of_forall fun c hc => isInk_of_mem_number hc
  | text value => exact lays_literal value
  | array items ih =>
      cases items with
      | nil =>
          show Lays ['[', ']'] ['[', ']'] 0
          exact lays_of_forall (by simp [IsInk])
      | cons item items =>
          rw [Value.pretty, Value.compact, Value.breaks, prettyItems_eq_intercalate,
            compactItems_eq_intercalate]
          refine lays_brackets (by decide) (by decide) depth
            (lays_intercalate rfl (fun _ _ => rfl) fun v hv => ?_)
          exact (lays_newLine _).append (ih v hv _)
  | object members ih =>
      cases members with
      | nil =>
          show Lays ['\x7b', '\x7d'] ['\x7b', '\x7d'] 0
          exact lays_of_forall (by simp [IsInk])
      | cons member members =>
          rw [Value.pretty, Value.compact, Value.breaks, prettyMembers_eq_intercalate,
            compactMembers_eq_intercalate]
          refine lays_brackets (by decide) (by decide) depth
            (lays_intercalate rfl (fun _ _ => rfl) fun m hm => ?_)
          have hvalue := ((ih m hm (depth + 1)).behind lays_space).cons
            (show IsInk ':' by decide)
          exact (lays_newLine _).append (hvalue.behind (lays_literal m.1))

-- the blanks of a text stay, and a quote in it does not end it
example : ink .outside "[ \"a \\\" b\" ]".toList = "[\"a \\\" b\"]".toList := by decide

end Dossier.Json
