/-
The leading `~` of a path.

`~` and `~/rest` stand for the current user's home directory, `~name` and
`~name/rest` for the home directory of that account. The first is textual:
what follows the `~` is put behind the home directory. The second joins
paths: the separators after the name are dropped, so the rest can never be
taken for an absolute path that replaces the home directory. Where no home
directory is known the path stays as given. In the end it is tidied, so
that spellings of one path share one key.
-/
import Dossier.Account
import Dossier.Path

namespace Dossier

/-- What the expansion of a path depends on. -/
structure Environment where
  /-- The variable HOME, if it is set. -/
  home : Option Bytes
  /-- The current user's own record, asked for when HOME says nothing. -/
  self : Option Account
  accounts : Accounts
  deriving DecidableEq, Repr

namespace Environment

/-- The home directory in the current user's own record. One buffer of 1024
octets is all that this lookup gets. -/
def ownRecordHome (env : Environment) : Option Bytes :=
  env.self.bind fun account => match account.reply Accounts.firstBuffer with
    | .found home => home
    | _ => none

/-- The current user's home directory: HOME, or the user's own record when
HOME is unset or empty. It counts only if it is text and not empty. -/
def ownHome (env : Environment) : Option Bytes :=
  let home := match env.home with
    | some [] | none => env.ownRecordHome
    | some home => some home
  home.filter fun home => !home.isEmpty && (Utf8.decode? home).isSome

/-- The path that `raw` stands for, in whatever spelling the parts give it. -/
def expansion (env : Environment) (raw : Bytes) : Path :=
  match raw with
  | [] => ⟨[]⟩
  | first :: rest =>
      if first ≠ tilde then ⟨first :: rest⟩
      else
        let name := rest.takeWhile (· != slash)
        let below := (rest.dropWhile (· != slash)).dropWhile (· == slash)
        if name.isEmpty then
          match env.ownHome with
          | some home => ⟨home ++ rest⟩
          | none => ⟨first :: rest⟩
        else
          match env.accounts.home? name with
          | some home => if below.isEmpty then ⟨home⟩ else Path.join ⟨home⟩ below
          | none => ⟨first :: rest⟩

/-- The path that `raw` stands for, in its shortest spelling. -/
def expand (env : Environment) (raw : String) : Path :=
  (env.expansion (Utf8.ofString raw)).tidy

end Environment

end Dossier
