/-
Why a file that is there cannot be read or written, and the words for it.

A failure comes from the system with an error number, from a library that
knows only its kind, or with a text of its own. `message` is what follows
the path in a report.
-/
import Dossier.Text.Utf8

namespace Dossier

/-- The errors of the system that reports name. -/
inductive SystemError where
  | operationNotPermitted
  | noSuchFile
  | inputOutput
  | badDescriptor
  | outOfMemory
  | permissionDenied
  | notADirectory
  | isADirectory
  | invalidArgument
  | tooManyOpenFiles
  | noSpaceLeft
  | nameTooLong
  | tooManyLinks
  | staleHandle
  deriving DecidableEq, Repr

namespace SystemError

/-- Every error that is named here. -/
def all : List SystemError :=
  [.operationNotPermitted, .noSuchFile, .inputOutput, .badDescriptor, .outOfMemory,
    .permissionDenied, .notADirectory, .isADirectory, .invalidArgument, .tooManyOpenFiles,
    .noSpaceLeft, .nameTooLong, .tooManyLinks, .staleHandle]

/-- The number under which the system reports the error. -/
def number : SystemError → Nat
  | .operationNotPermitted => 1
  | .noSuchFile => 2
  | .inputOutput => 5
  | .badDescriptor => 9
  | .outOfMemory => 12
  | .permissionDenied => 13
  | .notADirectory => 20
  | .isADirectory => 21
  | .invalidArgument => 22
  | .tooManyOpenFiles => 24
  | .noSpaceLeft => 28
  | .nameTooLong => 36
  | .tooManyLinks => 40
  | .staleHandle => 116

/-- The system's words for the error. -/
def words : SystemError → String
  | .operationNotPermitted => "Operation not permitted"
  | .noSuchFile => "No such file or directory"
  | .inputOutput => "Input/output error"
  | .badDescriptor => "Bad file descriptor"
  | .outOfMemory => "Cannot allocate memory"
  | .permissionDenied => "Permission denied"
  | .notADirectory => "Not a directory"
  | .isADirectory => "Is a directory"
  | .invalidArgument => "Invalid argument"
  | .tooManyOpenFiles => "Too many open files"
  | .noSpaceLeft => "No space left on device"
  | .nameTooLong => "File name too long"
  | .tooManyLinks => "Too many levels of symbolic links"
  | .staleHandle => "Stale file handle"

/-- The error with the given number. -/
def ofNumber? (n : Nat) : Option SystemError := all.find? (·.number == n)

end SystemError

/-- The kinds under which a failure without an error number is filed. -/
inductive FailureKind where
  | notFound
  | permissionDenied
  | invalidData
  | isADirectory
  | other
  deriving DecidableEq, Repr

/-- The words for a failure of which only the kind is known. -/
def FailureKind.words : FailureKind → String
  | .notFound => "entity not found"
  | .permissionDenied => "permission denied"
  | .invalidData => "invalid data"
  | .isADirectory => "is a directory"
  | .other => "other error"

/-- Why a read or a write failed. -/
inductive Failure where
  | system (error : SystemError)
  | ofKind (kind : FailureKind)
  | custom (detail : String)
  /-- The file's content is not text. -/
  | notText
  deriving DecidableEq, Repr

namespace Failure

/-- The words for a failure. An error of the system is followed by its number. -/
def message : Failure → String
  | .system error => error.words ++ " (os error " ++ toString error.number ++ ")"
  | .ofKind kind => kind.words
  | .custom detail => detail
  | .notText => "stream did not contain valid UTF-8"

/-- What the program hears of a failure to write to a standard stream. A stream
that is not open for writing is taken for one that swallows everything, so the
program never hears of that. -/
def reported? : Failure → Option Failure
  | .system .badDescriptor => none
  | failure => some failure

theorem reported?_of_ne {failure : Failure} (h : failure ≠ .system .badDescriptor) :
    failure.reported? = some failure := by
  unfold reported?
  split
  · exact absurd rfl h
  · rfl

end Failure

/-- What a look at one path meets. -/
inductive Sighting where
  /-- No lookup of the path reaches anything. -/
  | missing
  /-- Something of the given size that cannot be read. -/
  | unreadable (size : Nat) (cause : Failure)
  /-- A file with its content. -/
  | data (bytes : Bytes)
  deriving DecidableEq, Repr

end Dossier
