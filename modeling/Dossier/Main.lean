/-
The program. It gathers what the run depends on, leaves all decisions to
`Invocation.run`, and hands out what that gives.

The octets of the arguments and the number of the current user are asked of
the process file system, since the runtime passes arguments on as text.
What stands at a path is looked up before the run, once for each path. A
path that is not text cannot be opened here and counts as missing.

There is no library of patterns here, so every value of a field in the log
directives is taken for one. A directive with such a value covers no event of
the program, whether or not it is a pattern, so all that can be missing from
the log is the complaint about one that is none.
-/
import Dossier.Account.Passwd
import Dossier.CommandLine

namespace Dossier.Program

/-- The content of a file, nothing if it cannot be read. -/
def contentOf (name : String) : IO Bytes :=
  try return (← IO.FS.readBinFile name).toList catch _ => return []

/-- The octets of the arguments. -/
def argumentsOf (texts : List String) : IO (List Bytes) := do
  let words := (Text.cut 0 (← contentOf "/proc/self/cmdline")).dropLast
  return if words.length = texts.length + 1 then words.tail else texts.map Utf8.ofString

/-- The number of the current user, in digits. -/
def currentUser : IO Bytes := do
  let lines := Text.cut Passwd.lineEnd (← contentOf "/proc/self/status")
  let fields := (lines.map (Text.cut 0x09)).find? fun fields =>
    fields.head? == some (Utf8.ofString "Uid:")
  return (fields.bind (·[1]?)).getD []

/-- What the expansion of paths depends on. -/
def environment : IO Environment := do
  let home ← IO.getEnv "HOME"
  let passwd ← contentOf "/etc/passwd"
  return ⟨home.map Utf8.ofString, Passwd.ofUser? passwd (← currentUser), Passwd.accounts passwd⟩

/-- Why the system refused something. -/
def failureOf (e : IO.Error) : Failure :=
  let number? : Option UInt32 := match e with
    | .permissionDenied _ number _ | .resourceExhausted _ number _
    | .inappropriateType _ number _ | .invalidArgument _ number _ => some number
    | .hardwareFault number _ | .otherError number _ | .resourceBusy number _
    | .resourceVanished number _ | .unsupportedOperation number _ => some number
    | _ => none
  match number?.bind fun number => SystemError.ofNumber? number.toNat with
  | some error => .system error
  | none => .custom (toString e)

/-- What a read of the named file gives, of which the size is known. -/
def sightingOf (name : String) (size : Nat) : IO Sighting :=
  try return .data (← IO.FS.readBinFile name).toList
  catch e => return .unreadable size (failureOf e)

/-- What a look at the path meets. -/
def look (p : Path) : IO Sighting := do
  match Utf8.toString? p.bytes with
  | none => return .missing
  | some name =>
      if name.isEmpty || name.contains '\x00' then return .missing
      let data? ← try some <$> (← IO.FS.realPath name).metadata catch _ => pure none
      match data? with
      | none => return .missing
      | some data =>
          if data.type == .dir then
            return .unreadable data.byteSize.toNat (.system .isADirectory)
          sightingOf name data.byteSize.toNat

/-- The world as it is for the given paths. -/
def worldOf (raws : List String) : IO World := do
  let environment ← environment
  let sightings ← (raws.map environment.expand).mapM fun p => return (p, ← look p)
  return ⟨environment, fun p => (sightings.lookup p).getD .missing⟩

/-- Writes the document; gives why it could not be written, if it could not. -/
def write (document : String) : IO (Option Failure) := do
  let out ← IO.getStdout
  try
    out.putStr document
    out.flush
    return none
  catch e => return some (failureOf e)

end Dossier.Program

open Dossier in
/-- Runs the program. -/
def main (arguments : List String) : IO UInt32 := do
  let invocation : Invocation :=
    ⟨← Program.argumentsOf arguments, ← IO.getEnv "RUST_LOG"⟩
  let world ← Program.worldOf (invocation.paths.toOption.getD [])
  let run := invocation.run Log.Host.lenient world none
  let refusal ← if run.output.isEmpty then pure none else Program.write run.output
  let run := if refusal.isSome then invocation.run Log.Host.lenient world refusal else run
  (← IO.getStderr).putStr run.log
  return run.status.toUInt32
