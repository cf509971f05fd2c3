/-
Records in documents.

A record is written as an object with the fields `exists`, `size` and
`content` in this order. It is read from such an object with the fields in
any order and others among them, or from the array of the three. There are
two readers. `ofValue` judges a value that was read before, `reader` judges
while it reads: a fault of the shape counts as soon as it is met, a field
that is not asked for is only skipped, and an array is not read beyond its
third element. Both fill the same draft, field by field.
-/
import Dossier.Json.Skip
import Dossier.Json.Value.Reader
import Dossier.Record

namespace Dossier

open Json

namespace Record

-- ============================================================== fields

/-- A field of a record. -/
inductive Field where
  | present
  | size
  | content
  deriving DecidableEq, Repr

/-- The key under which a field stands in a document. -/
def Field.key : Field → String
  | .present => "exists"
  | .size => "size"
  | .content => "content"

/-- The field with the given key. -/
def Field.ofKey? (key : String) : Option Field :=
  [Field.present, .size, .content].find? (·.key == key)

/-- The fields of a record that have been read so far. -/
structure Draft where
  present : Option Bool := none
  size : Option Nat := none
  content : Option String := none
  deriving DecidableEq, Repr

namespace Draft

/-- The field has been read. -/
def holds (d : Draft) : Field → Bool
  | .present => d.present.isSome
  | .size => d.size.isSome
  | .content => d.content.isSome

/-- Enters the value of a field. -/
def enter (d : Draft) (field : Field) (v : Value) : Except Mismatch Draft :=
  match field with
  | .present => do return { d with present := some (← v.asBoolean) }
  | .size => do return { d with size := some (← v.asNatural .size) }
  | .content => do return { d with content := some (← v.asText) }

/-- The record, once all fields are read. -/
def record (d : Draft) : Except Mismatch Record :=
  match d.present, d.size, d.content with
  | some present, some size, some content => .ok ⟨present, size, content⟩
  | none, _, _ => .error (.missing Field.present.key)
  | _, none, _ => .error (.missing Field.size.key)
  | _, _, none => .error (.missing Field.content.key)

end Draft

-- ============================================================= writing

/-- The record as a value of a document. -/
def toValue (r : Record) : Value :=
  .object
    [(Field.present.key, .boolean r.present),
      (Field.size.key, .number (.integer r.size)),
      (Field.content.key, .text r.content)]

/-- The record as a document on one line. -/
def toJson (r : Record) : String := String.ofList r.toValue.compact

-- ====================================================== judging a value

/-- Enters a member of an object; one with a key that is no field's is left out. -/
def enterMember (d : Draft) (member : String × Value) : Except Mismatch Draft :=
  match Field.ofKey? member.1 with
  | none => .ok d
  | some field =>
      if d.holds field then .error (.repeated field.key) else d.enter field member.2

/-- The record in an array of its fields. -/
def ofItems : List Value → Except Mismatch Record
  | [] => .error (.tooFew 0 .record)
  | first :: rest => do
      let present ← first.asBoolean
      match rest with
      | [] => .error (.tooFew 1 .record)
      | second :: rest =>
          let size ← second.asNatural .size
          match rest with
          | [] => .error (.tooFew 2 .record)
          | third :: rest =>
              let content ← third.asText
              if rest.isEmpty then .ok ⟨present, size, content⟩
              else .error (.tooMany (3 + rest.length) .record)

/-- The record that a value stands for. -/
def ofValue : Value → Except Mismatch Record
  | .array items => ofItems items
  | .object members => do (← members.foldlM enterMember {}).record
  | v => .error (.wrongKind v.found .record)

-- ==================================================== judging on the way

/-- Takes an element of the array, which has to follow the given number of others. -/
def element {α : Type} (before : Nat) (shape : Value → Except Mismatch α) : Reader α := do
  if ← anotherElement (before == 0) then field shape
  else Reader.fail (.mismatch (.tooFew before .record))

/-- Takes the value of a member behind its key. -/
def takeMember (d : Draft) (key : String) : Reader Draft :=
  match Field.ofKey? key with
  | none => do
      colon
      skipped
      return d
  | some f =>
      if d.holds f then Reader.fail (.mismatch (.repeated f.key))
      else do
        colon
        field (d.enter f)

/-- Takes the rest of a record whose first character was `c`. -/
def restOfRecord (c : Char) : Reader Record :=
  match Opening.of? c with
  | some .array => do
      let present ← element 0 Value.asBoolean
      let size ← element 1 (Value.asNatural .size)
      let content ← element 2 Value.asText
      endOfArray
      return ⟨present, size, content⟩
  | some .object => do Reader.ofShape (← members takeMember {}).record
  | _ => do
      let v ← restOfGlimpse c
      Reader.fail (.mismatch (.wrongKind v.found .record))

/-- Takes a record, judging it while it is read. -/
def reader : Reader Record := do restOfRecord (← first)

/-- The record that a text stands for. -/
def parse (text : String) : Except Fault Record := readWhole reader text.toList

end Record

end Dossier
