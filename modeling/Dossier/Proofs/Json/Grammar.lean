/-
The grammar of documents, apart from any reader.

Each relation says which texts are a written form of what: `Spelling` of a
character inside a literal, `Written` of a numeral, `Spells` of a value.
Blanks belong to the text in front of which they stand, so an item comes
with the blanks before it (`Padded`), and those behind the last one stand
before the bracket. `Document` is one value with blanks on both sides.

The limits of a reader are kept apart as far as they are not a matter of
form. A surrogate is written only together with its partner, and a number
that is no integer of 64 bits has to have a magnitude; how deep brackets may
be nested is asked of the value itself (`Value.depth`).
-/
import Mathlib.Algebra.Group.Int.Defs
import Mathlib.Algebra.Group.Nat.Defs
import Dossier.Json.Value.Reader

namespace Dossier.Json

-- ================================================================= blanks

/-- A text of nothing but blanks. -/
def Blanks (text : List Char) : Prop := ∀ c ∈ text, isBlank c = true

/-- The form with blanks in front. -/
inductive Padded {α : Type} (form : List Char → α → Prop) :
    List Char → α → Prop
  | mk {blanks text : List Char} {value : α} (hblanks : Blanks blanks)
      (hform : form text value) : Padded form (blanks ++ text) value

-- =============================================================== literals

/-- Four hexadecimal digits and the code that they give. -/
inductive Code : List Char → Nat → Prop
  | mk {a b c d : Char} {code : Nat} (h : hexValue4? a b c d = some code) :
      Code [a, b, c, d] code

/-- The ways to write a character inside a literal. -/
inductive Spelling : List Char → Char → Prop
  /-- As it is, unless it is a quote, a backslash or a control character. -/
  | plain {c : Char} (hquote : c ≠ '"') (hbackslash : c ≠ '\\')
      (hcontrol : 0x20 ≤ c.toNat) : Spelling [c] c
  /-- With the letter of its escape. -/
  | letter {letter c : Char} (h : simpleEscape? letter = some c) :
      Spelling ['\\', letter] c
  /-- With its code, which is no surrogate. -/
  | code {digits : List Char} {code : Nat} (h : Code digits code)
      (hhigh : isHighSurrogate code = false)
      (hlow : isLowSurrogate code = false) :
      Spelling ('\\' :: 'u' :: digits) (Char.ofNat code)
  /-- With the codes of a surrogate pair. -/
  | pair {digits digits' : List Char} {high low : Nat} (h : Code digits high)
      (h' : Code digits' low) (hhigh : isHighSurrogate high = true)
      (hlow : isLowSurrogate low = true) :
      Spelling ('\\' :: 'u' :: (digits ++ '\\' :: 'u' :: digits'))
        (Char.ofNat (pairCode high low))

/-- Spellings of the characters, one after the other. -/
inductive Spellings : List Char → List Char → Prop
  | nil : Spellings [] []
  | cons {text texts cs : List Char} {c : Char} (h : Spelling text c)
      (hs : Spellings texts cs) : Spellings (text ++ texts) (c :: cs)

/-- A literal and the string that it holds. -/
inductive Literal : List Char → String → Prop
  | mk {text cs : List Char} (h : Spellings text cs) :
      Literal ('"' :: (text ++ ['"'])) (String.ofList cs)

-- =============================================================== numerals

/-- One digit or more. -/
def Digits (text : List Char) : Prop :=
  text ≠ [] ∧ ∀ c ∈ text, c.isDigit = true

namespace Numeral

/-- The digits of a whole part: a zero alone, or digits that start with
another one. -/
inductive Whole : List Char → Prop
  | zero : Whole ['0']
  | digits {d : Char} {digits : List Char} (hd : d.isDigit = true)
      (hzero : d ≠ '0') (hdigits : ∀ c ∈ digits, c.isDigit = true) :
      Whole (d :: digits)

/-- A fraction, if there is one, and its digits. -/
inductive Fraction : List Char → List Char → Prop
  | none : Fraction [] []
  | some {digits : List Char} (h : Digits digits) :
      Fraction ('.' :: digits) digits

/-- The sign of an exponent, `true` for a minus. -/
inductive Sign : List Char → Bool → Prop
  | none : Sign [] false
  | plus : Sign ['+'] false
  | minus : Sign ['-'] true

/-- An exponent, if there is one, and its value. -/
inductive Exponent : List Char → Option Int → Prop
  | none : Exponent [] none
  | some {mark : Char} {sign digits : List Char} {minus : Bool}
      (hmark : mark = 'e' ∨ mark = 'E') (hsign : Sign sign minus)
      (hdigits : Digits digits) :
      Exponent (mark :: (sign ++ digits))
        (some (if minus then -(digitsValue digits : Int)
          else (digitsValue digits : Int)))

/-- The written forms of a numeral. -/
inductive Written : List Char → Numeral → Prop
  | mk (negative : Bool) {whole fraction digits exponent : List Char}
      {e : Option Int} (hwhole : Whole whole)
      (hfraction : Fraction fraction digits)
      (hexponent : Exponent exponent e) :
      Written ((if negative then ['-'] else [])
          ++ (whole ++ (fraction ++ exponent)))
        ⟨negative, whole, digits, e⟩

/-- The numeral has neither a fraction nor an exponent. -/
def IsPlain (n : Numeral) : Prop := n.fraction = [] ∧ n.exponent = none

/-- A significand of 64 bits, started at `n`, takes as many digits as it can hold
and leaves the others. -/
inductive Absorbs (n : Nat) : List Char → Nat → List Char → Prop
  | mk {front left : List Char}
      (hfits : Nat.ofDigitChars 10 front n < wordLimit)
      (hfull : ∀ d ∈ left.head?, wordLimit ≤ Nat.ofDigitChars 10 (front ++ [d]) n) :
      Absorbs n (front ++ left) (Nat.ofDigitChars 10 front n) left

/-- The number that a numeral stands for. A plain one is an integer if 64 bits
hold it, with a sign or without; negative zero and what is below the integers
are magnitudes. All others are a significand times a power of ten, in which
whole digits that were left count as zeros. The significand is rounded, and so
is its product with the power; a numeral stands for nothing where one of the two
comes out beyond the largest magnitude. That can happen to a numeral that is
itself a little below the largest magnitude. -/
inductive Stands (n : Numeral) : Number → Prop
  | natural (hplain : n.IsPlain) (hsign : n.negative = false)
      (hfits : digitsValue n.whole < wordLimit) :
      Stands n (.integer (digitsValue n.whole))
  | negative (hplain : n.IsPlain) (hsign : n.negative = true)
      (hpos : 0 < digitsValue n.whole) (hfits : digitsValue n.whole ≤ 2 ^ 63) :
      Stands n (.integer (-(digitsValue n.whole : Int)))
  | minus {magnitude : Double} (hplain : n.IsPlain) (hsign : n.negative = true)
      (hrange : digitsValue n.whole = 0 ∨ 2 ^ 63 < digitsValue n.whole)
      (hfits : digitsValue n.whole < wordLimit)
      (h : Double.ofNat (digitsValue n.whole) = some magnitude) :
      Stands n (.float true magnitude)
  | scaled {whole significand : Nat} {skipped unread : List Char}
      {magnitude : Double}
      (hlong : n.IsPlain → wordLimit ≤ digitsValue n.whole)
      (hwhole : Absorbs 0 n.whole whole skipped)
      (hfraction : Absorbs whole n.fraction significand unread)
      (h : ((Double.ofNat significand).bind
        (·.scale (skipped.length - (n.fraction.length - unread.length : Nat)
          + n.exponent.getD 0))) = some magnitude) :
      Stands n (.float n.negative magnitude)

end Numeral

-- =============================================================== brackets

section Brackets

variable {α : Type} (item : List Char → α → Prop)

/-- What follows an item inside of brackets: others, each behind a comma, and
the blanks before the closing bracket. -/
inductive More : List Char → List α → Prop
  | nil {blanks : List Char} (h : Blanks blanks) : More blanks []
  | cons {blanks text texts : List Char} {value : α} {values : List α}
      (hblanks : Blanks blanks) (h : item text value)
      (hs : More texts values) :
      More (blanks ++ ',' :: (text ++ texts)) (value :: values)

/-- What stands between brackets. -/
inductive Items : List Char → List α → Prop
  | nil {blanks : List Char} (h : Blanks blanks) : Items blanks []
  | cons {text texts : List Char} {value : α} {values : List α}
      (h : item text value) (hs : More item texts values) :
      Items (text ++ texts) (value :: values)

end Brackets

section Members

variable {β : Type} (form : List Char → β → Prop)

/-- What follows a key: a colon and the value. -/
inductive AfterKey : List Char → β → Prop
  | mk {blanks text : List Char} {value : β} (hblanks : Blanks blanks)
      (h : Padded form text value) : AfterKey (blanks ++ ':' :: text) value

/-- A key with its value. -/
inductive Member : List Char → String × β → Prop
  | mk {key text : List Char} {name : String} {value : β}
      (hkey : Literal key name) (h : AfterKey form text value) :
      Member (key ++ text) (name, value)

end Members

-- ================================================================= values

/-- The written forms of a value. -/
inductive Spells : List Char → Value → Prop
  | null : Spells ['n', 'u', 'l', 'l'] .null
  | boolean (value : Bool) : Spells (booleanText value) (.boolean value)
  | number {text : List Char} {numeral : Numeral} {n : Number}
      (hwritten : numeral.Written text) (h : numeral.Stands n) :
      Spells text (.number n)
  | text {text : List Char} {value : String} (h : Literal text value) :
      Spells text (.text value)
  | array {text : List Char} {items : List Value}
      (h : Items (Padded Spells) text items) :
      Spells ('[' :: (text ++ [']'])) (.array items)
  | object {text : List Char} {members : List (String × Value)}
      (h : Items (Padded (Member Spells)) text members) :
      Spells ('\x7b' :: (text ++ ['\x7d'])) (.object members)

/-- One value with blanks before and behind it. -/
inductive Document : List Char → Value → Prop
  | mk {text blanks : List Char} {value : Value}
      (h : Padded Spells text value) (hblanks : Blanks blanks) :
      Document (text ++ blanks) value

-- ================================================================== depth

mutual

/-- How deep brackets are nested. -/
def Value.depth : Value → Nat
  | .array items => depthOfItems items + 1
  | .object members => depthOfMembers members + 1
  | _ => 0

/-- How deep brackets are nested inside an array. -/
def depthOfItems : List Value → Nat
  | [] => 0
  | item :: items => max item.depth (depthOfItems items)

/-- How deep brackets are nested inside an object. -/
def depthOfMembers : List (String × Value) → Nat
  | [] => 0
  | (_, value) :: members => max value.depth (depthOfMembers members)

end

theorem depthOfItems_le_iff {items : List Value} {depth : Nat} :
    depthOfItems items ≤ depth ↔ ∀ item ∈ items, item.depth ≤ depth := by
  induction items with
  | nil => simp [depthOfItems]
  | cons item items ih =>
      rw [depthOfItems, Nat.max_le, ih, List.forall_mem_cons]

theorem depthOfMembers_le_iff {members : List (String × Value)} {depth : Nat} :
    depthOfMembers members ≤ depth
      ↔ ∀ member ∈ members, member.2.depth ≤ depth := by
  induction members with
  | nil => simp [depthOfMembers]
  | cons member members ih =>
      obtain ⟨key, value⟩ := member
      rw [depthOfMembers, Nat.max_le, ih, List.forall_mem_cons]

/-- The written forms of a value with brackets no deeper than `depth`. -/
def Within (depth : Nat) (text : List Char) (v : Value) : Prop :=
  Spells text v ∧ v.depth ≤ depth

end Dossier.Json
