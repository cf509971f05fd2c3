/-
What a call of the program comes to.

A call has one of four outcomes, and its arguments decide between them with
the state of standard output alone. Arguments that are not all text are
refused. Else the paths are the arguments without a `--` in front of them
all, and the run writes the report of these paths and ends with its status;
the files can alter the records only, never the status. Where standard
output takes nothing and the program hears of it, every call ends with the
status of a broken run. The log directives have a say in none of this
(`paths_congr`), unless one of them cannot be cut where it should be: then the
run is over before the arguments are looked at.

The words of a refusal depend on the first argument, which is looked at as an
option before it is taken for a path: if it names an option with a name
that is not text, the words are about that option. A text names no such
option (`not_startsStrangely`), because its part up to the equals sign is a
text. In front of the words stand the complaints about the log directives.
-/
import Dossier.CommandLine
import Dossier.Proofs.Log.Filter
import Dossier.Proofs.Text.Utf8

namespace Dossier

-- ================================================================== options

/-- A list up to a first element of one kind: what is taken has none of it, and
what is left is nothing or begins with it. -/
theorem takeWhile_ne_eq_iff {x : UInt8} {bs front : Bytes} :
    bs.takeWhile (· ≠ x) = front
      ↔ ∃ behind, bs = front ++ behind ∧ x ∉ front
          ∧ ∀ b ∈ behind.head?, b = x := by
  rw [takeWhile_eq_iff]
  simp only [ne_eq, decide_not, Bool.not_eq_true', decide_eq_false_iff_not,
    Bool.not_eq_false', decide_eq_true_eq]
  refine exists_congr fun behind => and_congr_right fun _ => and_congr_left' ?_
  constructor
  · intro h hmem
    exact h x hmem rfl
  · intro h b hb heq
    exact h (heq ▸ hb)

namespace Invocation

/-- The argument has the form of an option with this name: two dashes, the name
up to an equals sign, and behind that a value, or nothing. -/
def IsOption (argument name : Bytes) : Prop :=
  ∃ value : Bytes, argument = 0x2D :: 0x2D :: (name ++ value) ∧ 0x3D ∉ name
    ∧ ∀ b ∈ value.head?, b = 0x3D

/-- An option with a name that is not text stands in front of all arguments. -/
def StartsStrangely (arguments : List Bytes) (name : Bytes) : Prop :=
  ¬ Utf8.IsText name ∧ ∃ first ∈ arguments.head?, IsOption first name

theorem isOption_of_optionName? {argument name : Bytes}
    (h : optionName? argument = some name) : IsOption argument name := by
  unfold optionName? at h
  split at h
  · obtain ⟨value, hvalue, hname, hhead⟩ :=
      takeWhile_ne_eq_iff.1 (Option.some.inj h)
    exact ⟨value, by rw [hvalue], hname, hhead⟩
  · cases h

theorem IsOption.optionName? {argument name : Bytes} (h : IsOption argument name)
    (hne : name ≠ []) : Invocation.optionName? argument = some name := by
  obtain ⟨value, rfl, hname, hhead⟩ := h
  obtain ⟨b, name, rfl⟩ := List.exists_cons_of_ne_nil hne
  exact congrArg some (takeWhile_ne_eq_iff.2 ⟨value, rfl, hname, hhead⟩)

theorem strangeOption?_eq_some_iff {i : Invocation} {name : Bytes} :
    i.strangeOption? = some name ↔ StartsStrangely i.arguments name := by
  unfold strangeOption?
  rw [Option.filter_eq_some_iff, Option.bind_eq_some_iff, Option.isNone_iff_eq_none,
    Utf8.toString?_eq_none_iff]
  constructor
  · rintro ⟨⟨first, hfirst, hname⟩, hstrange⟩
    exact ⟨hstrange, first, hfirst, isOption_of_optionName? hname⟩
  · rintro ⟨hstrange, first, hfirst, hname⟩
    refine ⟨⟨first, hfirst, hname.optionName? ?_⟩, hstrange⟩
    intro hnil
    exact hstrange (hnil ▸ Utf8.isText_nil)

theorem strangeOption?_eq_none_iff {i : Invocation} :
    i.strangeOption? = none ↔ ∀ name, ¬ StartsStrangely i.arguments name := by
  rw [Option.eq_none_iff_forall_ne_some]
  exact forall_congr' fun name => not_congr strangeOption?_eq_some_iff

/-- The name of an option that is text is text. -/
theorem IsOption.isText {argument name : Bytes} (h : IsOption argument name)
    (htext : Utf8.IsText argument) : Utf8.IsText name := by
  obtain ⟨value, rfl, hname, hhead⟩ := h
  have hfront : (name ++ value).takeWhile (· ≠ 0x3D) = name :=
    takeWhile_ne_eq_iff.2 ⟨value, rfl, hname, hhead⟩
  have hbehind : Utf8.IsText (name ++ value) :=
    (htext.tail (by decide)).tail (by decide)
  rw [← hfront]
  exact hbehind.takeWhile (by decide)

/-- Arguments that are text do not begin with such an option. -/
theorem not_startsStrangely {arguments : List Bytes}
    (h : ∀ argument ∈ arguments, Utf8.IsText argument) (name : Bytes) :
    ¬ StartsStrangely arguments name := by
  rintro ⟨hstrange, first, hfirst, hname⟩
  exact hstrange (hname.isText (h first (List.mem_of_mem_head? hfirst)))

-- ==================================================================== paths

/-- Arguments that are text are the octets of strings. -/
theorem exists_strings {arguments : List Bytes}
    (h : ∀ argument ∈ arguments, Utf8.IsText argument) :
    ∃ raws : List String, arguments = raws.map Utf8.ofString := by
  induction arguments with
  | nil => exact ⟨[], rfl⟩
  | cons argument arguments ih =>
      rw [List.forall_mem_cons] at h
      obtain ⟨raw, rfl⟩ := h.1
      obtain ⟨raws, rfl⟩ := ih h.2
      exact ⟨raw :: raws, rfl⟩

theorem mapM_ofString (raws : List String) :
    (raws.map Utf8.ofString).mapM Utf8.toString? = some raws := by
  rw [mapM_eq_some_iff, List.map_map]
  exact List.map_congr_left fun raw _ => Utf8.toString?_eq_some_iff.2 rfl

theorem isText_of_mapM {arguments : List Bytes} {raws : List String}
    (h : arguments.mapM Utf8.toString? = some raws) :
    ∀ argument ∈ arguments, Utf8.IsText argument := by
  intro argument hargument
  rw [mapM_eq_some_iff] at h
  have hmem : Utf8.toString? argument ∈ raws.map some := by
    rw [← h]
    exact List.mem_map.2 ⟨argument, hargument, rfl⟩
  obtain ⟨raw, -, hraw⟩ := List.mem_map.1 hmem
  exact ⟨raw, Utf8.toString?_eq_some_iff.1 hraw.symm⟩

/-- Of texts all are paths but a `--` in front of them all. -/
theorem paths_eq_ok {i : Invocation} {raws : List String}
    (h : i.arguments = raws.map Utf8.ofString) : i.paths = .ok (dropMark raws) := by
  have htext : ∀ argument ∈ i.arguments, Utf8.IsText argument := by
    rw [h]
    exact isText_of_mapM (mapM_ofString raws)
  unfold paths
  rw [strangeOption?_eq_none_iff.2 (not_startsStrangely htext), h, mapM_ofString]

/-- An option with a name that is not text is refused, whatever the others are. -/
theorem paths_eq_unknownOption {i : Invocation} {name : Bytes}
    (h : StartsStrangely i.arguments name) :
    i.paths = .error (.unknownOption name) := by
  unfold paths
  rw [strangeOption?_eq_some_iff.2 h]

theorem paths_eq_notText {i : Invocation}
    (hstrange : ¬ ∀ argument ∈ i.arguments, Utf8.IsText argument)
    (h : ∀ name, ¬ StartsStrangely i.arguments name) :
    i.paths = .error .notText := by
  have hmapM : i.arguments.mapM Utf8.toString? = none := by
    refine Option.eq_none_iff_forall_ne_some.2 fun raws hraws => ?_
    exact hstrange (isText_of_mapM hraws)
  unfold paths
  rw [strangeOption?_eq_none_iff.2 h, hmapM]

/-- Arguments of which one is not text are refused. -/
theorem exists_paths_eq_error {i : Invocation}
    (hstrange : ¬ ∀ argument ∈ i.arguments, Utf8.IsText argument) :
    ∃ e, i.paths = .error e := by
  by_cases h : ∃ name, StartsStrangely i.arguments name
  · obtain ⟨name, hname⟩ := h
    exact ⟨_, paths_eq_unknownOption hname⟩
  · exact ⟨_, paths_eq_notText hstrange (not_exists.1 h)⟩

theorem paths_congr {i j : Invocation} (h : i.arguments = j.arguments) :
    i.paths = j.paths := by
  unfold paths strangeOption?
  rw [h]

/-- Only a `--` in front of all others is dropped. -/
theorem dropMark_cases (raws : List String) :
    raws = "--" :: dropMark raws
      ∨ raws.head? ≠ some "--" ∧ raws = dropMark raws := by
  unfold dropMark
  split
  · exact Or.inl rfl
  · next hmark =>
    refine Or.inr ⟨?_, rfl⟩
    intro hhead
    obtain ⟨rest, hrest⟩ := List.head?_eq_some_iff.1 hhead
    exact hmark rest hrest

-- ====================================================================== runs

/-- No piece of the log directives ends the run. -/
def Readable (host : Log.Host) (directives : Option String) : Prop :=
  ∀ piece ∈ Log.Filter.pieces (directives.getD ""),
    Log.Directive.ofText host piece ≠ .error .crash

section Runs

variable {host : Log.Host} {i : Invocation} {w : World} {refusal : Option Failure}

theorem run_of_readable (h : Readable host i.directives) :
    i.run host w refusal = i.runLogged host w refusal := by
  have hnone : Log.Filter.crashing? host i.directiveText = none :=
    Log.Filter.crashing?_eq_none h
  unfold run
  rw [hnone]

theorem run_of_error (h : Readable host i.directives) {e : ArgumentError}
    (hpaths : i.paths = .error e) :
    i.run host w refusal = ⟨brokenStatus, "", i.complaints host ++ e.message⟩ := by
  rw [run_of_readable h, runLogged, hpaths]

theorem run_of_ok (h : Readable host i.directives) {raws : List String}
    (hpaths : i.paths = .ok raws) :
    (i.run host w none).output = (Report.ofPaths w raws).toJson ++ "\n"
      ∧ (i.run host w none).status = (Report.ofPaths w raws).exitCode := by
  rw [run_of_readable h, runLogged, hpaths]
  exact ⟨rfl, rfl⟩

/-- A run that hears that its output is not taken is broken, also one that would
have reported a failure. -/
theorem run_of_refusal (h : Readable host i.directives) {failure : Failure}
    (hfailure : failure ≠ .system .badDescriptor) :
    (i.run host w (some failure)).status = 2
      ∧ (i.run host w (some failure)).output = "" := by
  rw [run_of_readable h, runLogged]
  cases i.paths with
  | error e => exact ⟨rfl, rfl⟩
  | ok raws =>
      dsimp only
      rw [Option.bind_some, Failure.reported?_of_ne hfailure]
      exact ⟨rfl, rfl⟩

/-- Where standard output is not open for writing, what is written is lost, and
the run is like one that could write. -/
theorem run_of_badDescriptor (h : Readable host i.directives) :
    (i.run host w (some (.system .badDescriptor))).output = ""
      ∧ (i.run host w (some (.system .badDescriptor))).status
        = (i.run host w none).status
      ∧ (i.run host w (some (.system .badDescriptor))).log
        = (i.run host w none).log := by
  rw [run_of_readable h, run_of_readable h, runLogged, runLogged]
  cases i.paths with
  | error e => exact ⟨rfl, rfl, rfl⟩
  | ok raws => exact ⟨rfl, rfl, rfl⟩

/-- Log directives that can be read alter the log alone. -/
theorem run_congr {j : Invocation} (hi : Readable host i.directives)
    (hj : Readable host j.directives) (h : i.arguments = j.arguments) :
    (i.run host w refusal).status = (j.run host w refusal).status
      ∧ (i.run host w refusal).output = (j.run host w refusal).output := by
  rw [run_of_readable hi, run_of_readable hj, runLogged, runLogged, paths_congr h]
  cases j.paths with
  | error e => exact ⟨rfl, rfl⟩
  | ok raws => exact ⟨rfl, rfl⟩

end Runs

/-- The status of a report says whether there was a path, and nothing of what
became of the paths. -/
theorem exitCode_ofPaths_eq_one_iff {w : World} {raws : List String} :
    (Report.ofPaths w raws).exitCode = 1 ↔ raws = [] := by
  cases raws with
  | nil => exact iff_of_true rfl rfl
  | cons raw raws =>
      refine iff_of_false ?_ (List.cons_ne_nil _ _)
      exact Nat.zero_ne_one

theorem exitCode_ofPaths_eq_zero_iff {w : World} {raws : List String} :
    (Report.ofPaths w raws).exitCode = 0 ↔ raws ≠ [] := by
  cases raws with
  | nil =>
      refine iff_of_false ?_ fun hne => hne rfl
      exact Nat.one_ne_zero
  | cons raw raws => exact iff_of_true rfl (List.cons_ne_nil _ _)

-- ================================================================ complaints

section Complaints

variable {host : Log.Host}

/-- The line about a piece of the log directives that is passed over, and nothing
about any other one. -/
def complaintLine (host : Log.Host) (piece : List Char) : String :=
  match Log.Directive.ofText host piece with
  | .error (.refused cause) =>
      "ignoring `" ++ String.ofList piece ++ "`: " ++ cause.message ++ "\n"
  | _ => ""

theorem ended_filterMap_complaint? (pieces : List (List Char)) :
    ended (pieces.filterMap (Log.Directive.complaint? host))
      = String.join (pieces.map (complaintLine host)) := by
  unfold ended
  induction pieces with
  | nil => rfl
  | cons piece pieces ih =>
      rw [List.map_cons, String.join_cons, ← ih, List.filterMap_cons,
        Log.Directive.complaint?, complaintLine]
      cases Log.Directive.ofText host piece with
      | ok d => exact String.empty_append.symm
      | error mishap =>
          cases mishap with
          | refused cause => exact String.join_cons
          | crash => exact String.empty_append.symm

theorem join_map_eq_empty_iff {α : Type} {line : α → String} {xs : List α} :
    String.join (xs.map line) = "" ↔ ∀ x ∈ xs, line x = "" := by
  induction xs with
  | nil => simp
  | cons x xs ih =>
      rw [List.map_cons, String.join_cons, String.append_eq_empty_iff, ih,
        List.forall_mem_cons]

/-- The complaints are the lines about the pieces, up to the first one that ends
the run. -/
theorem complaints_eq_join {i : Invocation} {earlier behind : List (List Char)}
    (hpieces : Log.Filter.pieces i.directiveText = earlier ++ behind)
    (hearlier : ∀ other ∈ earlier,
      Log.Directive.ofText host other ≠ .error .crash)
    (hbehind : ∀ piece ∈ behind.head?,
      Log.Directive.ofText host piece = .error .crash) :
    i.complaints host = String.join (earlier.map (complaintLine host)) := by
  rw [complaints, Log.Filter.complaints_eq_filterMap hpieces hearlier hbehind,
    ended_filterMap_complaint?]

theorem complaints_of_readable {i : Invocation} (h : Readable host i.directives) :
    i.complaints host
      = String.join ((Log.Filter.pieces i.directiveText).map (complaintLine host)) :=
  complaints_eq_join (List.append_nil _).symm h (by simp)

/-- There is nothing to say about a piece iff it is a directive, or ends the run. -/
theorem complaintLine_eq_empty_iff {piece : List Char}
    (h : Log.Directive.ofText host piece ≠ .error .crash) :
    complaintLine host piece = "" ↔ ∃ d, Log.Directive.ofText host piece = .ok d := by
  unfold complaintLine
  cases hread : Log.Directive.ofText host piece with
  | ok d => simp
  | error mishap =>
      cases mishap with
      | refused cause => simp
      | crash => exact absurd hread h

/-- There is nothing to complain about iff all that stands between the commas is
a directive. -/
theorem complaints_eq_empty_iff {i : Invocation} (h : Readable host i.directives) :
    i.complaints host = ""
      ↔ ∀ piece ∈ Log.Filter.pieces i.directiveText,
          ∃ d, Log.Directive.ofText host piece = .ok d := by
  rw [complaints_of_readable h, join_map_eq_empty_iff]
  exact forall₂_congr fun piece hpiece => complaintLine_eq_empty_iff (h piece hpiece)

end Complaints

-- ================================================================ every call

/-- The first piece of the log directives that is to be cut inside of a character
ends the call: nothing is written, the status is 101, and the log has the lines
about the pieces in front of it and the words about the piece. -/
theorem run_of_crash {host : Log.Host} {i : Invocation} {w : World}
    {refusal : Option Failure} {earlier later : List (List Char)}
    {piece : List Char}
    (hpieces : Log.Filter.pieces i.directiveText = earlier ++ piece :: later)
    (hearlier : ∀ other ∈ earlier,
      Log.Directive.ofText host other ≠ .error .crash)
    (hpiece : Log.Directive.ofText host piece = .error .crash) :
    i.run host w refusal
      = ⟨101, "", String.join (earlier.map (complaintLine host))
          ++ host.crashWords piece⟩ := by
  unfold run
  rw [Log.Filter.crashing?_eq_some hpieces hearlier hpiece,
    complaints_eq_join hpieces hearlier fun other hother => ?_]
  · rfl
  · cases hother
    exact hpiece

/-- What a call comes to, for all arguments, worlds, log directives and both kinds
of standard output. `refusal` is what the system says of standard output; the
standard library does not report that it is not open for writing.

If a piece of the log directives is to be cut inside of a character, which takes
a blank in front of it, the first such piece ends the call with status 101, and
nothing is written. Else the call goes on.

If all arguments are text, the paths are the arguments without a `--` in front
of them all. What is written is the document of their report with one line end,
and the status is that of the report: 1 iff there is no path, else 0, whatever
becomes of the files. If some argument is not text, the status is 2 and nothing
is written; the log has a line for each piece of the directives that is none, and
then the words for an unknown option, if one with a name that is not text stands
first, or else one fixed text. Where standard output takes nothing, the status is
always 2, but if it is not open for writing the call ends as if it were. Neither
status nor output depend on the directives. -/
theorem run_outcome (host : Log.Host) (i : Invocation) (w : World)
    (refusal : Option Failure) :
    (∀ earlier piece later,
        Log.Filter.pieces i.directiveText = earlier ++ piece :: later →
        (∀ other ∈ earlier, Log.Directive.ofText host other ≠ .error .crash) →
        Log.Directive.ofText host piece = .error .crash →
          (∃ c ∈ piece.head?, Text.isBlank c = true)
            ∧ i.run host w refusal
              = ⟨101, "", String.join (earlier.map (complaintLine host))
                  ++ host.crashWords piece⟩)
      ∧ (Readable host i.directives →
        ((∀ argument ∈ i.arguments, Utf8.IsText argument) →
            ∃ raws paths : List String,
              i.arguments = raws.map Utf8.ofString
                ∧ (raws = "--" :: paths ∨ raws.head? ≠ some "--" ∧ raws = paths)
                ∧ ((i.run host w none).output = (Report.ofPaths w paths).toJson ++ "\n"
                  ∧ (i.run host w none).status = (Report.ofPaths w paths).exitCode)
                ∧ ((i.run host w none).status = 1 ↔ paths = [])
                ∧ ((i.run host w none).status = 0 ↔ paths ≠ []))
          ∧ ((∃ argument ∈ i.arguments, ¬ Utf8.IsText argument) →
              (i.run host w refusal).status = 2 ∧ (i.run host w refusal).output = ""
                ∧ (∀ name, StartsStrangely i.arguments name →
                    (i.run host w refusal).log
                      = i.complaints host ++ (ArgumentError.unknownOption name).message)
                ∧ ((∀ name, ¬ StartsStrangely i.arguments name) →
                    (i.run host w refusal).log = i.complaints host
                      ++ ("error: invalid UTF-8 was detected in one or more arguments\n"
                        ++ "\nUsage: read_agent_docs [FILES]...\n")))
          ∧ i.complaints host = String.join
              ((Log.Filter.pieces i.directiveText).map (complaintLine host))
          ∧ (i.complaints host = ""
              ↔ ∀ piece ∈ Log.Filter.pieces i.directiveText,
                  ∃ d, Log.Directive.ofText host piece = .ok d)
          ∧ (∀ failure, failure ≠ .system .badDescriptor →
              (i.run host w (some failure)).status = 2
                ∧ (i.run host w (some failure)).output = "")
          ∧ ((i.run host w (some (.system .badDescriptor))).output = ""
              ∧ (i.run host w (some (.system .badDescriptor))).status
                = (i.run host w none).status
              ∧ (i.run host w (some (.system .badDescriptor))).log
                = (i.run host w none).log)
          ∧ ∀ directives : Option String, Readable host directives →
              (Invocation.run host ⟨i.arguments, directives⟩ w refusal).status
                  = (i.run host w refusal).status
                ∧ (Invocation.run host ⟨i.arguments, directives⟩ w refusal).output
                  = (i.run host w refusal).output) := by
  refine ⟨?_, fun hread => ⟨?_, ?_, complaints_of_readable hread,
    complaints_eq_empty_iff hread, fun _ => run_of_refusal hread,
    run_of_badDescriptor hread, fun _ hother => run_congr hother hread rfl⟩⟩
  · intro earlier piece later hpieces hearlier hpiece
    exact ⟨Log.Directive.head?_of_crash host hpiece,
      run_of_crash hpieces hearlier hpiece⟩
  · intro htext
    obtain ⟨raws, hraws⟩ := exists_strings htext
    have hrun := run_of_ok (w := w) hread (paths_eq_ok hraws)
    refine ⟨raws, dropMark raws, hraws, dropMark_cases raws, hrun, ?_, ?_⟩
    · rw [hrun.2, exitCode_ofPaths_eq_one_iff]
    · rw [hrun.2, exitCode_ofPaths_eq_zero_iff]
  · intro hall
    obtain ⟨argument, hargument, hstrange⟩ := hall
    have hnot : ¬ ∀ argument ∈ i.arguments, Utf8.IsText argument :=
      fun htext => hstrange (htext argument hargument)
    obtain ⟨e, he⟩ := exists_paths_eq_error hnot
    refine ⟨?_, ?_, ?_, ?_⟩
    · rw [run_of_error hread he]
      rfl
    · rw [run_of_error hread he]
    · intro name hname
      rw [run_of_error hread (paths_eq_unknownOption hname)]
    · intro hname
      rw [run_of_error hread (paths_eq_notText hnot hname)]
      rfl

/-- Calls that do not come to what is expected of all calls. Two have an argument
that is not text and a log that is not the fixed text alone: the argument looks
like an option, or there is a complaint in front. One has log directives that
cannot be cut. And one that cannot write ends well, as standard output is not
open for writing. -/
theorem run_outcome_exceptions :
    let host := Log.Host.lenient
    let fixed := "error: invalid UTF-8 was detected in one or more arguments\n"
      ++ "\nUsage: read_agent_docs [FILES]...\n"
    let w : World := ⟨⟨none, none, Accounts.empty⟩, fun _ => .missing⟩
    ((Invocation.run host ⟨[[0x2D, 0x2D, 0xFF]], none⟩ w none).log
          = "error: unexpected argument '--\uFFFD' found\n\n  tip: to pass "
            ++ "'--\uFFFD' as a value, use '-- --\uFFFD'\n"
            ++ "\nUsage: read_agent_docs [FILES]...\n"
        ∧ (Invocation.run host ⟨[[0x2D, 0x2D, 0xFF]], none⟩ w none).log ≠ fixed)
      ∧ ((Invocation.run host ⟨[[0xFF]], some "a=9"⟩ w none).log
            = "ignoring `a=9`: error parsing level filter: expected one of \"off\", "
              ++ "\"error\", \"warn\", \"info\", \"debug\", \"trace\", "
              ++ "or a number 0-5\n" ++ fixed
          ∧ (Invocation.run host ⟨[[0xFF]], some "a=9"⟩ w none).log ≠ fixed)
      ∧ ((Invocation.run host ⟨[[0x61]], some "a=debug, é=warn"⟩ w none).status = 101
          ∧ (Invocation.run host ⟨[[0x61]], some "a=debug, é=warn"⟩ w none).output = "")
      ∧ (Invocation.run host ⟨[[0x61]], none⟩ w (some (.system .badDescriptor))).status
          = 0 := by
  decide +kernel

end Invocation

end Dossier
