/-
Reports as documents.

A report is an object whose member `status` says of which variant it is,
with the fields of the variant behind it. A success is written over several
lines, a failure on one. Read, the object may have its members in any order
and others among them, and it may be the array of the status and the fields.

The whole of an object or array is read before its fields are judged; only
the status, wherever it stands, is judged at once. So `tagged` reads and
`ofTagged` judges, and a text that is no JSON is refused as such even if an
earlier field is of the wrong shape.
-/
import Dossier.Record.Document
import Dossier.Report

namespace Dossier

open Json

namespace Report

-- ============================================================== fields

/-- The variants of a report, as the status names them. -/
inductive Status where
  | success
  | failure
  deriving DecidableEq, Repr

/-- The word for a status. -/
def Status.word : Status → String
  | .success => "success"
  | .failure => "error"

/-- The key of the status. -/
def statusKey : String := "status"

/-- A field of a successful report. -/
inductive Field where
  | agent
  | count
  | results
  deriving DecidableEq, Repr

/-- The key under which a field stands in a document. -/
def Field.key : Field → String
  | .agent => "agent"
  | .count => "files_read"
  | .results => "results"

/-- The field with the given key. -/
def Field.ofKey? (key : String) : Option Field :=
  [Field.agent, .count, .results].find? (·.key == key)

/-- The key of a failure's message. -/
def messageKey : String := "message"

-- ============================================================= writing

/-- The report as a value of a document. -/
def toValue : Report → Value
  | .success agent count results =>
      .object
        [(statusKey, .text Status.success.word),
          (Field.agent.key, .text agent),
          (Field.count.key, .number (.integer count)),
          (Field.results.key, .object (results.entries.map fun (key, r) => (key, r.toValue)))]
  | .failure message =>
      .object [(statusKey, .text Status.failure.word), (messageKey, .text message)]

/-- The characters of the report's document. -/
def document (r : Report) : List Char :=
  match r with
  | .success .. => r.toValue.pretty 0
  | .failure _ => r.toValue.compact

/-- The report as a document: over several lines for a success, else on one. -/
def toJson (r : Report) : String := String.ofList r.document

-- ============================================================= reading

/-- What is left of a report when the status is taken away. -/
inductive Body where
  | items (items : List Value)
  | members (members : List (String × Value))
  deriving Repr

/-- The value as a status. -/
def asStatus : Value → Except Mismatch Status
  | .text word =>
      if word = Status.success.word then .ok .success
      else if word = Status.failure.word then .ok .failure
      else .error (.unknownStatus word)
  | v => .error (.wrongKind v.found .status)

/-- How deep brackets may be nested inside those of a report: 127 levels are
allowed in all. -/
def innerDepth : Nat := 126

/-- Takes a member's value behind its key: the status, or a value to be kept. -/
def takeMember (state : Option Status × List (String × Value)) (key : String) :
    Reader (Option Status × List (String × Value)) :=
  if key = statusKey then
    if state.1.isSome then Reader.fail (.mismatch (.repeated statusKey))
    else do
      colon
      let status ← field asStatus
      return (some status, state.2)
  else do
    colon
    let v ← value innerDepth
    return (state.1, (key, v) :: state.2)

/-- Takes the rest of a report whose first character was `c`. -/
def restOfTagged (c : Char) : Reader (Status × Body) :=
  match Opening.of? c with
  | some .array => do
      if ← anotherElement true then
        let status ← field asStatus
        let items ← elements (value innerDepth) false
        return (status, .items items)
      else Reader.fail (.mismatch (.missing statusKey))
  | some .object => do
      match ← members takeMember (none, []) with
      | (some status, members) => return (status, .members members.reverse)
      | (none, _) => Reader.fail (.mismatch (.missing statusKey))
  | _ => do
      let v ← restOfGlimpse c
      Reader.fail (.mismatch (.wrongKind v.found .report))

/-- Takes a report's status and the values of its fields. -/
def tagged : Reader (Status × Body) := do restOfTagged (← first)

-- ============================================================= judging

/-- The value as the records of a report. A key that comes again puts its record
in the first one's place. -/
def asResults : Value → Except Mismatch (Catalog Record)
  | .object members =>
      members.foldlM (fun results (key, v) => do return results.insert key (← Record.ofValue v))
        Catalog.empty
  | v => .error (.wrongKind v.found .results)

/-- The fields of a successful report that have been judged so far. -/
structure Draft where
  agent : Option String := none
  count : Option Nat := none
  results : Option (Catalog Record) := none

namespace Draft

/-- The field has been judged. -/
def holds (d : Draft) : Field → Bool
  | .agent => d.agent.isSome
  | .count => d.count.isSome
  | .results => d.results.isSome

/-- Enters the value of a field. -/
def enter (d : Draft) (field : Field) (v : Value) : Except Mismatch Draft :=
  match field with
  | .agent => do return { d with agent := some (← v.asText) }
  | .count => do return { d with count := some (← v.asNatural .count) }
  | .results => do return { d with results := some (← asResults v) }

/-- Enters a member; one with a key that is no field's is left out. -/
def enterMember (d : Draft) (member : String × Value) : Except Mismatch Draft :=
  match Field.ofKey? member.1 with
  | none => .ok d
  | some field =>
      if d.holds field then .error (.repeated field.key) else d.enter field member.2

/-- The report, once all fields are judged. -/
def report (d : Draft) : Except Mismatch Report :=
  match d.agent, d.count, d.results with
  | some agent, some count, some results => .ok (.success agent count results)
  | none, _, _ => .error (.missing Field.agent.key)
  | _, none, _ => .error (.missing Field.count.key)
  | _, _, none => .error (.missing Field.results.key)

end Draft

/-- The successful report in a list of its fields. -/
def successOfItems : List Value → Except Mismatch Report
  | [] => .error (.tooFew 0 .success)
  | first :: rest => do
      let agent ← first.asText
      match rest with
      | [] => .error (.tooFew 1 .success)
      | second :: rest =>
          let count ← second.asNatural .count
          match rest with
          | [] => .error (.tooFew 2 .success)
          | third :: rest =>
              let results ← asResults third
              if rest.isEmpty then .ok (.success agent count results)
              else .error (.tooMany (3 + rest.length) .success)

/-- The failure in a list of its fields. -/
def failureOfItems : List Value → Except Mismatch Report
  | [] => .error (.tooFew 0 .failure)
  | first :: rest => do
      let message ← first.asText
      if rest.isEmpty then .ok (.failure message)
      else .error (.tooMany (1 + rest.length) .failure)

/-- Enters a member of a failure, of which only the message counts. -/
def enterMessage (message : Option String) (member : String × Value) :
    Except Mismatch (Option String) :=
  if member.1 ≠ messageKey then .ok message
  else if message.isSome then .error (.repeated messageKey)
  else some <$> member.2.asText

/-- The failure with the given members. -/
def failureOfMembers (members : List (String × Value)) : Except Mismatch Report := do
  match ← members.foldlM enterMessage none with
  | some message => .ok (.failure message)
  | none => .error (.missing messageKey)

/-- The report with the given status and fields. -/
def ofTagged : Status → Body → Except Mismatch Report
  | .success, .items items => successOfItems items
  | .success, .members members => do (← members.foldlM Draft.enterMember {}).report
  | .failure, .items items => failureOfItems items
  | .failure, .members members => failureOfMembers members

/-- Takes a report. -/
def reader : Reader Report := do
  let (status, body) ← tagged
  Reader.ofShape (ofTagged status body)

/-- The report that a text stands for. -/
def parse (text : String) : Except Fault Report := readWhole reader text.toList

end Report

end Dossier
