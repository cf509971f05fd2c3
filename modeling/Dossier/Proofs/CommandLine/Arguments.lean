/-
Every argument has its record, but for a mark in front of all.

The document of a call is the report of the paths that are left when a `--`
in front of all arguments is dropped, and the keys of a report are those of
its paths. So an argument can be without a record in one case only: it is
that mark, and no other argument comes under its key (`forall_key_mem_iff`).
Nothing else about an argument counts, neither the dashes that it begins with
nor its place among the others.
-/
import Dossier.Proofs.CommandLine.Outcome
import Dossier.Proofs.Path.Spelling
import Dossier.Proofs.Report.Batch
import Dossier.Proofs.Report.Framing

namespace Dossier.Invocation

open Collector (key)
open Report (recordsOf)

section Mark

variable {w : World} {raws paths : List String}

/-- As a path the mark stands for itself. -/
theorem key_mark (w : World) : key w "--" = "--" := by
  rw [key, Path.resolve_of_head? w (by decide +kernel)]
  decide +kernel

/-- All arguments have a record iff no mark is lost: none stands in front, or
another argument comes under its key. -/
theorem forall_key_mem_iff
    (h : raws = "--" :: paths ∨ raws.head? ≠ some "--" ∧ raws = paths) :
    (∀ a ∈ raws, key w a ∈ (recordsOf w paths).keys)
      ↔ raws.head? ≠ some "--" ∨ ∃ a ∈ paths, key w a = "--" := by
  have hpaths : ∀ a ∈ paths, key w a ∈ (recordsOf w paths).keys :=
    fun a ha => Report.mem_keys_recordsOf_iff.2 ⟨a, ha, rfl⟩
  rcases h with rfl | ⟨hhead, rfl⟩
  · rw [List.forall_mem_cons, key_mark, Report.mem_keys_recordsOf_iff]
    simpa using fun a ha _ => hpaths
  · exact iff_of_true hpaths (Or.inl hhead)

end Mark

/-- The line that is written is read as the report. -/
theorem parse_line {r : Report} (h : r.Fits) :
    Report.parse (r.toJson ++ "\n") = .ok r := by
  rw [Report.parse_toJson_append h]
  rfl

/-- What a call reports of its arguments, for all lists of texts and all log
directives that can be read to their end.

The paths are the arguments without a `--` in front of them all. Where there is
none, the call ends with the usage. Else it ends with status 0 and writes the
document of a success that has a record under the key of each path and under no
other one; the document is that of the report on the paths, and is read as this
report if the sizes in it fit. So each argument has its record, unless a `--`
stands in front and no other argument comes under the key `--`. -/
theorem run_reports_arguments (host : Log.Host) (raws : List String)
    {directives : Option String} (hread : Readable host directives) (w : World) :
    let call : Invocation := ⟨raws.map Utf8.ofString, directives⟩
    ∃ paths : List String,
      (raws = "--" :: paths ∨ raws.head? ≠ some "--" ∧ raws = paths)
        ∧ (paths = [] →
            (call.run host w none).status = 1
              ∧ (call.run host w none).output = Report.usage.toJson ++ "\n")
        ∧ (paths ≠ [] → ∃ results : Catalog Record,
            let report := Report.success Report.agentName results.size results
            Report.ofPaths w paths = report
              ∧ (call.run host w none).status = 0
              ∧ (call.run host w none).output = report.toJson ++ "\n"
              ∧ (report.Fits → Report.parse (call.run host w none).output = .ok report)
              ∧ (∀ k, k ∈ results.keys ↔ ∃ a ∈ paths, key w a = k)
              ∧ ((∀ a ∈ raws, key w a ∈ results.keys)
                ↔ raws.head? ≠ some "--" ∨ ∃ a ∈ paths, key w a = "--")) := by
  intro call
  obtain ⟨houtput, hstatus⟩ :=
    run_of_ok (i := call) (w := w) hread (paths_eq_ok rfl)
  refine ⟨dropMark raws, dropMark_cases raws, ?_, ?_⟩
  · intro hnil
    rw [hstatus, houtput, hnil]
    exact ⟨rfl, rfl⟩
  · intro hne
    have hreport := Report.ofPaths_of_ne_nil w hne
    rw [hreport] at hstatus houtput
    refine ⟨recordsOf w (dropMark raws), hreport, hstatus, houtput, ?_, ?_,
      forall_key_mem_iff (dropMark_cases raws)⟩
    · intro hfits
      rw [houtput]
      exact parse_line hfits
    · exact fun _ => Report.mem_keys_recordsOf_iff

/-- Words with dashes in front, with the mark in the midst of them. -/
theorem run_reports_arguments_dashes :
    let host := Log.Host.lenient
    let w : World := ⟨⟨none, none, Accounts.empty⟩, fun _ => .missing⟩
    let raws := ["-v", "--", "--help", "-"]
    ∃ results : Catalog Record,
      Readable host (some "off")
        ∧ (Invocation.run host ⟨raws.map Utf8.ofString, some "off"⟩ w none).status = 0
        ∧ (Invocation.run host ⟨raws.map Utf8.ofString, some "off"⟩ w none).output
          = (Report.success Report.agentName results.size results).toJson ++ "\n"
        ∧ ∀ a ∈ raws, key w a ∈ results.keys := by
  intro host w raws
  have hread : Readable host (some "off") := by
    unfold Readable
    decide +kernel
  obtain ⟨paths, hpaths, -, hreport⟩ := run_reports_arguments host raws hread w
  have hhead : raws.head? ≠ some "--" := by decide
  obtain rfl : raws = paths := by
    rcases hpaths with hmark | ⟨-, hsame⟩
    · rw [hmark] at hhead
      exact absurd rfl hhead
    · exact hsame
  obtain ⟨results, -, hstatus, houtput, -, -, hall⟩ :=
    hreport (List.cons_ne_nil _ _)
  exact ⟨results, hread, hstatus, houtput, hall.2 (Or.inl hhead)⟩

/-- A mark in front is no path: alone it leaves the call without a path, and in
front of others it is without a record. -/
theorem run_of_mark :
    let host := Log.Host.lenient
    let w : World := ⟨⟨none, none, Accounts.empty⟩, fun _ => .missing⟩
    ((Invocation.run host ⟨[Utf8.ofString "--"], none⟩ w none).status = 1
        ∧ (Invocation.run host ⟨[Utf8.ofString "--"], none⟩ w none).output
          ≠ (Report.ofPaths w ["--"]).toJson ++ "\n")
      ∧ (Invocation.run host ⟨["--", "a"].map Utf8.ofString, none⟩ w none).output
          = (Report.ofPaths w ["a"]).toJson ++ "\n"
        ∧ key w "--" ∉ (recordsOf w ["a"]).keys
        ∧ (Invocation.run host ⟨["--", "a"].map Utf8.ofString, none⟩ w none).output
          ≠ (Report.ofPaths w ["--", "a"]).toJson ++ "\n" := by
  decide +kernel

end Dossier.Invocation
