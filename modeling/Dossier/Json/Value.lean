/-
The values of a document, and their two written forms.

The compact form has no blank outside of literals. The pretty form puts
every element and every member on a line of its own, two spaces further in
than the brackets around it, and a space behind each colon; an array or an
object without content stays on its line in both.

What a value is taken for is decided by its kind alone: the shapes at the
end give what it holds, or say what stands in its place.
-/
import Dossier.Json.Literal

namespace Dossier.Json

/-- A value of a document; the members of an object in the order they stand. -/
inductive Value where
  | null
  | boolean (value : Bool)
  | number (value : Number)
  | text (value : String)
  | array (items : List Value)
  | object (members : List (String × Value))
  deriving Repr

/-- The words for the truth values. -/
def booleanText : Bool → List Char
  | true => ['t', 'r', 'u', 'e']
  | false => ['f', 'a', 'l', 's', 'e']

-- ============================================================== compact

mutual

/-- The text of a value without blanks. -/
def Value.compact : Value → List Char
  | .null => ['n', 'u', 'l', 'l']
  | .boolean value => booleanText value
  | .number value => value.text
  | .text value => literal value
  | .array items => '[' :: compactItems items ++ [']']
  | .object members => '\x7b' :: compactMembers members ++ ['\x7d']

/-- The elements of an array, separated by commas. -/
def compactItems : List Value → List Char
  | [] => []
  | [item] => item.compact
  | item :: items => item.compact ++ ',' :: compactItems items

/-- The members of an object, separated by commas. -/
def compactMembers : List (String × Value) → List Char
  | [] => []
  | [(key, value)] => literal key ++ ':' :: value.compact
  | (key, value) :: members =>
      literal key ++ ':' :: (value.compact ++ ',' :: compactMembers members)

end

-- =============================================================== pretty

/-- The start of a line inside the given number of brackets. -/
def newLine (depth : Nat) : List Char := '\n' :: List.replicate (2 * depth) ' '

mutual

/-- The text of a value inside the given number of brackets, on several lines. -/
def Value.pretty (depth : Nat) : Value → List Char
  | .null => ['n', 'u', 'l', 'l']
  | .boolean value => booleanText value
  | .number value => value.text
  | .text value => literal value
  | .array [] => ['[', ']']
  | .array (item :: items) =>
      '[' :: prettyItems (depth + 1) (item :: items) ++ newLine depth ++ [']']
  | .object [] => ['\x7b', '\x7d']
  | .object (member :: members) =>
      '\x7b' :: prettyMembers (depth + 1) (member :: members) ++ newLine depth ++ ['\x7d']

/-- The elements of an array, each on its line. -/
def prettyItems (depth : Nat) : List Value → List Char
  | [] => []
  | [item] => newLine depth ++ item.pretty depth
  | item :: items => newLine depth ++ (item.pretty depth ++ ',' :: prettyItems depth items)

/-- The members of an object, each on its line. -/
def prettyMembers (depth : Nat) : List (String × Value) → List Char
  | [] => []
  | [(key, value)] => newLine depth ++ (literal key ++ ':' :: ' ' :: value.pretty depth)
  | (key, value) :: members =>
      newLine depth
        ++ (literal key ++ ':' :: ' ' :: (value.pretty depth ++ ',' :: prettyMembers depth members))

end

-- =============================================================== shapes

namespace Value

/-- The kind of a value, with what a message says of it. -/
def found : Value → Found
  | .null => .null
  | .boolean value => .boolean value
  | .number value => .number value
  | .text value => .text value
  | .array _ => .sequence
  | .object _ => .map

/-- The value as a truth value. -/
def asBoolean : Value → Except Mismatch Bool
  | .boolean value => .ok value
  | v => .error (.wrongKind v.found .boolean)

/-- The value as a natural number. An integer below zero is of the right kind
and faulty in its value. -/
def asNatural (expected : Expected) : Value → Except Mismatch Nat
  | .number (.integer (.ofNat n)) => .ok n
  | .number (.integer n) => .error (.negative n expected)
  | v => .error (.wrongKind v.found expected)

/-- The value as a text. -/
def asText : Value → Except Mismatch String
  | .text value => .ok value
  | v => .error (.wrongKind v.found .text)

end Value

end Dossier.Json
