/-
The account database and the lookup of a user's home directory.

A lookup is given a buffer and fails when the record does not fit, so the
caller asks again with twice the room. `attempts` is the whole exchange: it
starts at 1024 octets, doubles after every refusal for want of room, and
never offers more than 1048576.
-/
import Dossier.Text.Utf8

namespace Dossier

/-- One record of the account database. -/
structure Account where
  /-- The home directory, if the record names one. -/
  home : Option Bytes
  /-- Room that the record's other fields take in the buffer. -/
  need : Nat := 0
  /-- The error that looking at this record raises, 0 for none. -/
  fault : Nat := 0
  deriving DecidableEq, Repr

/-- What one lookup with one buffer answers. -/
inductive Reply where
  | found (home : Option Bytes)
  | absent
  | failed (fault : Nat)
  deriving DecidableEq, Repr

/-- The error of a buffer that is too small. -/
def noRoom : Nat := 34

namespace Account

/-- The room that the record takes: its home directory is written with an
octet after it that ends it. -/
def room (a : Account) : Nat :=
  match a.home with
  | some home => max a.need (home.length + 1)
  | none => a.need

/-- A field as it is read out of a buffer, where the first zero octet ends it. -/
def field (bs : Bytes) : Bytes := bs.takeWhile (· ≠ 0)

/-- The answer of a lookup that finds this record. -/
def reply (a : Account) (buffer : Nat) : Reply :=
  if a.fault ≠ 0 then .failed a.fault
  else if buffer < a.room then .failed noRoom
  else .found (a.home.map field)

end Account

/-- The account database: records by the octets of the user's name. -/
structure Accounts where
  entries : List (Bytes × Account)
  deriving DecidableEq, Repr

namespace Accounts

/-- The database without a record. -/
def empty : Accounts := ⟨[]⟩

/-- One lookup by name with a buffer of the given size. -/
def reply (db : Accounts) (name : Bytes) (buffer : Nat) : Reply :=
  match db.entries.lookup name with
  | some account => account.reply buffer
  | none => .absent

/-- The first buffer that a lookup is given. -/
def firstBuffer : Nat := 1024

/-- No lookup is given a buffer above this size. -/
def lastBuffer : Nat := 1048576

/-- The lookups that are made, with the size of each buffer: twice the room
after each refusal for want of it, as long as the limit was not reached. -/
def attempts (ask : Nat → Reply) (buffer : Nat) : List (Nat × Reply) :=
  if ask buffer = .failed noRoom ∧ buffer < lastBuffer ∧ 0 < buffer then
    (buffer, ask buffer) :: attempts ask (2 * buffer)
  else [(buffer, ask buffer)]
termination_by lastBuffer - buffer
decreasing_by omega

/-- The home directory that the last lookup of the exchange finds. A name that
holds a zero octet cannot be asked for. -/
def home? (db : Accounts) (name : Bytes) : Option Bytes :=
  if name.contains 0 then none
  else match (attempts (db.reply name) firstBuffer).getLast? with
    | some (_, .found home) => home
    | _ => none

end Accounts

end Dossier
