/-
Octets and text.

Paths, file contents and command line arguments arrive as octets and leave
as text. The decoder reads one octet at a time and cuts its input into
pieces: each character, and each longest part that no character begins or
continues. Strict reading (`decode?`) refuses the input as soon as one such
part occurs, forgiving reading (`lossy`) puts U+FFFD in its place.

Octets are compared through their numeric value, so every bound below is a
bound on natural numbers.
-/
namespace Dossier

/-- A run of octets, the form in which a system call takes or gives text. -/
abbrev Bytes := List UInt8

namespace Utf8

-- ============================================================ encoding

/-- The octets of one character: the shortest form that holds its code. -/
def encodeChar (c : Char) : Bytes :=
  let n := c.toNat
  if n < 0x80 then [n.toUInt8]
  else if n < 0x800 then [(0xC0 + n / 64).toUInt8, (0x80 + n % 64).toUInt8]
  else if n < 0x10000 then
    [(0xE0 + n / 4096).toUInt8, (0x80 + n / 64 % 64).toUInt8, (0x80 + n % 64).toUInt8]
  else
    [(0xF0 + n / 262144).toUInt8, (0x80 + n / 4096 % 64).toUInt8,
      (0x80 + n / 64 % 64).toUInt8, (0x80 + n % 64).toUInt8]

/-- The octets of a text, character by character. -/
def encode (cs : List Char) : Bytes := cs.flatMap encodeChar

/-- The octets of a string. -/
def ofString (s : String) : Bytes := encode s.toList

-- ============================================================ decoding

/-- Where the decoder stands between two octets. -/
inductive State where
  /-- Between characters. -/
  | boundary
  /-- Inside a character whose code so far is `code`: the next octet must lie
  in `low` to `high`, and `owed` further ones follow it. -/
  | inside (code low high owed : Nat)
  deriving DecidableEq, Repr

/-- Takes an octet at a boundary. The second octet of a longer form is held to
the range that excludes overlong forms, surrogates and codes above U+10FFFF. -/
def lead (n : Nat) : List (Option Char) × State :=
  if n < 0x80 then ([some (Char.ofNat n)], .boundary)
  else if n < 0xC2 then ([none], .boundary)
  else if n < 0xE0 then ([], .inside (n - 0xC0) 0x80 0xBF 0)
  else if n < 0xF0 then
    ([], .inside (n - 0xE0) (if n = 0xE0 then 0xA0 else 0x80) (if n = 0xED then 0x9F else 0xBF) 1)
  else if n < 0xF5 then
    ([], .inside (n - 0xF0) (if n = 0xF0 then 0x90 else 0x80) (if n = 0xF4 then 0x8F else 0xBF) 2)
  else ([none], .boundary)

/-- Takes one octet: the pieces that it completes, and the state after it. An
octet that cannot continue the character at hand ends a broken part and is
looked at again as a first octet, so no valid octet is swallowed. -/
def State.step : State → Nat → List (Option Char) × State
  | .boundary, n => lead n
  | .inside code low high owed, n =>
      if low ≤ n ∧ n ≤ high then
        let code := code * 64 + (n - 0x80)
        match owed with
        | 0 => ([some (Char.ofNat code)], .boundary)
        | owed + 1 => ([], .inside code 0x80 0xBF owed)
      else (none :: (lead n).1, (lead n).2)

/-- What the end of the input completes: a broken part if a character is open. -/
def State.finish : State → List (Option Char)
  | .boundary => []
  | .inside .. => [none]

/-- Cuts the octets into pieces, starting in the given state; `done` holds the
pieces found so far, last first. -/
def scan (s : State) (done : List (Option Char)) : Bytes → List (Option Char)
  | [] => (s.finish ++ done).reverse
  | b :: bs => scan (s.step b.toNat).2 ((s.step b.toNat).1.reverse ++ done) bs

/-- The pieces of an octet run: `some` character, or `none` for a longest part
that no valid text holds. -/
def pieces (bs : Bytes) : List (Option Char) := scan .boundary [] bs

/-- The text that the octets encode, if they encode one. -/
def decode? (bs : Bytes) : Option (List Char) := (pieces bs).mapM id

/-- The text of the octets with U+FFFD for every part that is not text. -/
def lossy (bs : Bytes) : List Char := (pieces bs).map (·.getD '\uFFFD')

/-- The string that the octets encode, if they encode one. -/
def toString? (bs : Bytes) : Option String := (decode? bs).map String.ofList

/-- The string of the octets with U+FFFD for every part that is not text. -/
def display (bs : Bytes) : String := String.ofList (lossy bs)

-- ======================================================= the accumulator

/-- The pieces found earlier stand in front of what the rest yields. -/
theorem scan_append (s : State) (done : List (Option Char)) (bs : Bytes) :
    scan s done bs = done.reverse ++ scan s [] bs := by
  induction bs generalizing s done with
  | nil => cases s <;> simp [scan, State.finish]
  | cons b bs ih =>
      rw [scan, ih, scan, ih (s.step b.toNat).2 ((s.step b.toNat).1.reverse ++ [])]
      simp

/-- One octet at a time: what it completes, then the rest from the next state. -/
theorem scan_cons (s : State) (b : UInt8) (bs : Bytes) :
    scan s [] (b :: bs) = (s.step b.toNat).1 ++ scan (s.step b.toNat).2 [] bs := by
  rw [scan, scan_append]
  simp

end Utf8

end Dossier
