/-
What is left of a text when nothing may steer a terminal.

A message that goes to a file or a pipe loses all that a terminal would
carry out instead of showing it: controls other than the blanks, and
sequences that an escape character opens. A sequence says by its second
character how long it is: most end with their next letter or digit, a
control sequence with its first letter or one of the signs between them, and
the strings for the device or the system with a mark of their own. A string
for the device has a head in front of it, with parameters and then with
marks; where the head breaks this order the string has begun. A new escape
character, cancel and substitute end every one of them.
-/
import Dossier.Text.Utf8

namespace Dossier.Text

/-- What the characters so far have opened. -/
inductive EscapeSequence where
  /-- Nothing: a character stands for itself. -/
  | closed
  /-- A sequence of which only the escape character has been seen. -/
  | escape
  /-- An escape sequence that goes on. -/
  | extended
  /-- A control sequence. -/
  | control
  /-- The head of a string for the device, nothing of it seen. -/
  | head
  /-- The parameters in the head. -/
  | parameters
  /-- The marks in the head. -/
  | marks
  /-- A string for the device. -/
  | device
  /-- A string for the system. -/
  | system
  deriving DecidableEq, Repr

/-- The code lies between the bounds, ends included. -/
def between (low high : Nat) (c : Char) : Bool := low ≤ c.toNat && c.toNat ≤ high

namespace EscapeSequence

/-- What is open behind the second character of a sequence. -/
def opened (c : Char) : EscapeSequence :=
  if c = '[' then .control
  else if c = ']' then .system
  else if c = 'P' then .head
  else if c = 'X' ∨ c = '^' ∨ c = '_' then .device
  else if between 0x20 0x2F c then .extended
  else if between 0x30 0x7E c then .closed
  else .escape

/-- What is open behind a character that is not shown. A string for the device
ends with the octet 9C, also where this is a part of a character. -/
def next (s : EscapeSequence) (c : Char) : EscapeSequence :=
  if c = '\x1B' then .escape
  else if c = '\x18' ∨ c = '\x1A' then .closed
  else match s with
    | .closed => .closed
    | .escape => opened c
    | .extended => if between 0x30 0x7E c then .closed else .extended
    | .control => if between 0x40 0x7E c then .closed else .control
    | .head =>
        if between 0x20 0x2F c then .marks
        else if between 0x30 0x3F c then .parameters
        else if between 0x40 0x7E c then .device
        else .head
    | .parameters =>
        if between 0x20 0x2F c then .marks
        else if between 0x3C 0x7E c then .device
        else .parameters
    | .marks => if between 0x30 0x7E c then .device else .marks
    | .device => if 0x9C ∈ Utf8.encodeChar c then .closed else .device
    | .system => if c = '\x07' then .closed else .system

/-- A control inside the sequence is carried out at once. -/
def interruptible : EscapeSequence → Bool
  | .escape | .extended | .control => true
  | _ => false

end EscapeSequence

/-- The character moves on in the line, or to another line or page. -/
def isAdvance (c : Char) : Bool := c = '\t' || c = '\n' || c = '\x0C' || c = '\r'

/-- The character stands for itself outside of sequences. -/
def isVisible (c : Char) : Bool := isAdvance c || 0x20 ≤ c.toNat && c ≠ '\x7F'

/-- What is left of the characters behind an open sequence. A character that
moves on is kept also inside a sequence, and from it to the next control the
characters are kept as if none were open (`suspended`). -/
def plainChars (s : EscapeSequence) (suspended : Bool) : List Char → List Char
  | [] => []
  | c :: cs =>
      if (suspended || s = .closed) && isVisible c || s.interruptible && isAdvance c then
        c :: plainChars (if c.toNat < 0x80 then s else .closed) true cs
      else plainChars (s.next c) false cs

/-- What is left of the text. -/
def plain (s : String) : String := String.ofList (plainChars .closed false s.toList)

end Dossier.Text
