/-
The log of a run whose directives are for targets or for all events.

There is a line for each event of the run that the filter admits, in the
order in which the events happened, and nothing else: all pieces are
directives, so there is no complaint (`log_of_written`). What the filter
admits is told by the directives themselves (`Filter.admits_iff`).

A level alone has no effect. The default has the same empty target and comes
behind it, so what no target covers is admitted as if the level were not
there.
-/
import Dossier.Proofs.CommandLine.Outcome
import Dossier.Proofs.Log.Filter
import Dossier.Proofs.Log.Trace

namespace Dossier.Invocation

open Log
open Log.Directive (Decides Heads Targeted Written)

-- ==================================================================== lines

/-- The log is the trace of the paths, as far as the filter admits it. -/
theorem log_of_written {host : Host} {i : Invocation} {raws : List String}
    {ds : List Directive} (harguments : i.arguments = raws.map Utf8.ofString)
    (h : List.Forall₂ Written (Filter.pieces i.directiveText) ds) (w : World)
    (refusal : Option Failure) :
    (i.run host w refusal).log
      = String.join (((trace w (dropMark raws)
          (refusal.bind Failure.reported?)).filter
          (Filter.admits ⟨ds ++ [Filter.default]⟩)).map
            fun e => e.line ++ "\n") := by
  have hwritten : ∀ piece ∈ Filter.pieces i.directiveText,
      ∃ d, Directive.ofText host piece = .ok d :=
    forall_mem_of_forall₂ h.flip
      fun hwritten => ⟨_, Directive.ofText_of_written host hwritten⟩
  have hread : Readable host i.directives := by
    intro piece hpiece hcrash
    obtain ⟨d, hd⟩ := hwritten piece hpiece
    cases hd.symm.trans hcrash
  have hcomplaints : i.complaints host = "" :=
    (complaints_eq_empty_iff hread).2 hwritten
  have hfilter : i.filter host = ⟨ds ++ [Filter.default]⟩ :=
    Filter.ofText_of_written h
  have hlog : (i.run host w refusal).log
      = i.complaints host ++ i.log host
        (trace w (dropMark raws) (refusal.bind Failure.reported?)) := by
    rw [run_of_readable hread, runLogged, paths_eq_ok harguments]
  rw [hlog, hcomplaints, String.empty_append, log, hfilter, ended, List.map_map]
  rfl

-- ================================================================== targets

/-- With directives for targets, or with none, the log is the filtered trace of the
run.

The paths are the arguments without a `--` in front of them all. The run over
them has one trace, and the log has a line for each of its events that is
admitted, in their order. An event is admitted if its level is within that of
the longest target of a directive with which its own begins, where the last
directive with this target counts; or, where its target begins with none of
them, if it is a warning or an error. -/
theorem run_log_of_targets (host : Host) {raws : List String} {directives : Option String}
    {ds : List Directive}
    (h : List.Forall₂ Targeted (Filter.pieces (directives.getD "")) ds)
    (w : World) (refusal : Option Failure) :
    ∃ (paths : List String) (events : List Event) (admitted : Event → Bool),
      (raws = "--" :: paths ∨ raws.head? ≠ some "--" ∧ raws = paths)
        ∧ (∀ other, Happens w paths refusal other ↔ other = events)
        ∧ (∀ e, admitted e = true
            ↔ (∃ d, Decides e.target d ds ∧ d.limit.admits e.level = true)
              ∨ (∀ d ∈ ds, ¬ d.Heads e.target)
                ∧ Limit.admits (some .warn) e.level = true)
        ∧ (Invocation.run host ⟨raws.map Utf8.ofString, directives⟩ w refusal).log
          = String.join ((events.filter admitted).map
              fun e => e.line ++ "\n") := by
  have hwritten := h.imp fun _ _ => Written.targeted
  have hnamed : ∀ d ∈ ds, d.target ≠ "" :=
    forall_mem_of_forall₂ h fun htargeted => htargeted.target_ne
  refine ⟨dropMark raws, trace w (dropMark raws) (refusal.bind Failure.reported?),
    Filter.admits ⟨ds ++ [Filter.default]⟩, dropMark_cases raws,
    fun _ => happens_iff, ?_, ?_⟩
  · intro e
    rw [Filter.admits_iff (Filter.isPlain_of_written hwritten)]
    refine or_congr ?_ (and_congr_left' ?_)
    · constructor
      · rintro ⟨d, -, hd, hadmits⟩
        exact ⟨d, hd, hadmits⟩
      · rintro ⟨d, hd, hadmits⟩
        exact ⟨d, hnamed d hd.mem, hd, hadmits⟩
    · exact forall₂_congr fun d hd => imp_iff_right (hnamed d hd)
  · exact log_of_written (i := ⟨raws.map Utf8.ofString, directives⟩) rfl hwritten w
      refusal

/-- Two overlapping targets, of which the longer one has two directives, and a path
that comes twice behind a `--`. -/
theorem run_log_of_targets_overlapping :
    let host := Host.lenient
    let text := "agent_docs::report=off,agent_docs=trace,agent_docs::report=debug"
    let raws := ["--", "a", "./a"]
    let w : World := ⟨⟨none, none, Accounts.empty⟩, fun _ => .missing⟩
    List.Forall₂ Targeted (Filter.pieces text)
        [.ofTarget "agent_docs::report" none, .ofTarget "agent_docs" (some .trace),
          .ofTarget "agent_docs::report" (some .debug)]
      ∧ (∃ (events : List Event) (admitted : Event → Bool),
        Happens w ["a", "./a"] none events
          ∧ (Invocation.run host ⟨raws.map Utf8.ofString, some text⟩ w none).log
            = String.join ((events.filter admitted).map fun e => e.line ++ "\n"))
      ∧ (Invocation.run host ⟨raws.map Utf8.ofString, some text⟩ w none).log
        = "DEBUG agent_docs::report: not found path=a\n"
          ++ "DEBUG agent_docs::report: not found path=a\n"
          ++ "DEBUG agent_docs::report: duplicate path, replacing earlier record"
          ++ " path=a\n" := by
  intro host text raws w
  have hinner : Directive.IsTarget "agent_docs::report".toList :=
    ⟨⟨'a', _, rfl, by decide +kernel⟩, by simp⟩
  have houter : Directive.IsTarget "agent_docs".toList :=
    ⟨⟨'a', _, rfl, by decide +kernel⟩, by simp⟩
  have hpieces : Filter.pieces text
      = ["agent_docs::report".toList ++ '=' :: "off".toList,
        "agent_docs".toList ++ '=' :: "trace".toList,
        "agent_docs::report".toList ++ '=' :: "debug".toList] := by
    decide +kernel
  have h : List.Forall₂ Targeted (Filter.pieces text)
      [.ofTarget "agent_docs::report" none, .ofTarget "agent_docs" (some .trace),
        .ofTarget "agent_docs::report" (some .debug)] := by
    rw [hpieces]
    refine .cons (.level hinner ?_) (.cons (.level houter ?_)
      (.cons (.level hinner ?_) .nil))
    all_goals decide +kernel
  obtain ⟨paths, events, admitted, hpaths, hevents, -, hlog⟩ :=
    @run_log_of_targets host raws (some text) _ h w none
  obtain rfl : paths = ["a", "./a"] := by
    rcases hpaths with heq | ⟨hmark, -⟩
    · exact (List.cons.inj heq).2.symm
    · exact absurd rfl hmark
  exact ⟨h, ⟨events, admitted, (hevents events).2 rfl, hlog⟩, by decide +kernel⟩

-- =================================================================== levels

/-- What a filter admits is decided by its directives with a target. -/
theorem admits_congr {ds ds' : List Directive} (hds : ∀ d ∈ ds, d.IsPlain)
    (hds' : ∀ d ∈ ds', d.IsPlain)
    (h : ds'.filter (·.target ≠ "") = ds.filter (·.target ≠ "")) :
    Filter.admits ⟨ds' ++ [Filter.default]⟩
      = Filter.admits ⟨ds ++ [Filter.default]⟩ := by
  have hmem : ∀ d : Directive, d.target ≠ "" → (d ∈ ds' ↔ d ∈ ds) := by
    intro d hne
    have hfilter : ∀ list : List Directive,
        d ∈ list.filter (·.target ≠ "") ↔ d ∈ list := by
      intro list
      simp [List.mem_filter, hne]
    rw [← hfilter ds', h, hfilter]
  funext e
  rw [Bool.eq_iff_iff, Filter.admits_iff hds', Filter.admits_iff hds]
  refine or_congr ?_ (and_congr_left' ?_)
  · refine exists_congr fun d => and_congr_right fun hne => ?_
    rw [← Directive.decides_filter_iff hne, h, Directive.decides_filter_iff hne]
  · refine forall_congr' fun d => ?_
    constructor
    · intro hnone hd hne
      exact hnone ((hmem d hne).2 hd) hne
    · intro hnone hd hne
      exact hnone ((hmem d hne).1 hd) hne

/-- A level that is given for all events has no effect. An event that no target
covers is in the log iff it is a warning or an error, whatever levels are given
and wherever they stand; all others are admitted by the longest target, the
last of its directives. So two lists of directives with the same targets make
the same log. -/
theorem run_log_of_levels (host : Host) {raws : List String} {directives : Option String}
    {ds : List Directive}
    (h : List.Forall₂ Written (Filter.pieces (directives.getD "")) ds)
    (w : World) (refusal : Option Failure) :
    ∃ (paths : List String) (events : List Event) (admitted : Event → Bool),
      (raws = "--" :: paths ∨ raws.head? ≠ some "--" ∧ raws = paths)
        ∧ (∀ other, Happens w paths refusal other ↔ other = events)
        ∧ (∀ e, (∀ d ∈ ds, d.target ≠ "" → ¬ d.Heads e.target) →
            (admitted e = true ↔ Limit.admits (some .warn) e.level = true))
        ∧ (∀ e d, d.target ≠ "" → Decides e.target d ds →
            (admitted e = true ↔ d.limit.admits e.level = true))
        ∧ (Invocation.run host ⟨raws.map Utf8.ofString, directives⟩ w refusal).log
          = String.join ((events.filter admitted).map fun e => e.line ++ "\n")
        ∧ ∀ (others : Option String) (ds' : List Directive),
            List.Forall₂ Written (Filter.pieces (others.getD "")) ds' →
              ds'.filter (·.target ≠ "") = ds.filter (·.target ≠ "") →
                (Invocation.run host ⟨raws.map Utf8.ofString, others⟩ w refusal).log
                  = (Invocation.run host ⟨raws.map Utf8.ofString, directives⟩ w
                      refusal).log := by
  have hplain := Filter.isPlain_of_written h
  have hlog := fun others ds' h' =>
    @log_of_written host ⟨raws.map Utf8.ofString, others⟩ raws ds' rfl h' w refusal
  refine ⟨dropMark raws, trace w (dropMark raws) (refusal.bind Failure.reported?),
    Filter.admits ⟨ds ++ [Filter.default]⟩, dropMark_cases raws,
    fun _ => happens_iff, ?_, ?_, hlog directives ds h, ?_⟩
  · intro e hnone
    rw [Filter.admits_iff hplain]
    constructor
    · rintro (⟨d, hne, hd, -⟩ | ⟨-, hadmits⟩)
      · exact absurd hd.heads (hnone d hd.mem hne)
      · exact hadmits
    · exact fun hadmits => Or.inr ⟨hnone, hadmits⟩
  · intro e d hne hd
    rw [Filter.admits_iff hplain]
    constructor
    · rintro (⟨d', -, hd', hadmits⟩ | ⟨hnone, -⟩)
      · rw [Filter.decides_unique hplain hd hd']
        exact hadmits
      · exact absurd hd.heads (hnone d hd.mem hne)
    · exact fun hadmits => Or.inl ⟨d, hne, hd, hadmits⟩
  · intro others ds' h' hsame
    rw [hlog others ds' h', hlog directives ds h,
      admits_congr hplain (Filter.isPlain_of_written h') hsame]

/-- A level in front of a target and another one behind it. The end of the run,
which no target covers, is not in the log. -/
theorem run_log_of_levels_around :
    let host := Host.lenient
    let text := "debug,agent_docs=debug,trace"
    let w : World := ⟨⟨none, none, Accounts.empty⟩, fun _ => .missing⟩
    let ds : List Directive :=
      [.ofTarget "" (some .debug), .ofTarget "agent_docs" (some .debug),
        .ofTarget "" (some .trace)]
    List.Forall₂ Written (Filter.pieces text) ds
      ∧ (∃ (events : List Event) (admitted : Event → Bool),
        Happens w ["a"] none events
          ∧ (∀ e, (∀ d ∈ ds, d.target ≠ "" → ¬ d.Heads e.target) →
            (admitted e = true ↔ Limit.admits (some .warn) e.level = true))
          ∧ (Invocation.run host ⟨[Utf8.ofString "a"], some text⟩ w none).log
            = String.join ((events.filter admitted).map fun e => e.line ++ "\n"))
      ∧ (Invocation.run host ⟨[Utf8.ofString "a"], some text⟩ w none).log
        = "DEBUG agent_docs::report: not found path=a\n" := by
  intro host text w ds
  have htarget : Directive.IsTarget "agent_docs".toList :=
    ⟨⟨'a', _, rfl, by decide +kernel⟩, by simp⟩
  have hpieces : Filter.pieces text
      = ["debug".toList, "agent_docs".toList ++ '=' :: "debug".toList,
        "trace".toList] := by
    decide +kernel
  have h : List.Forall₂ Written (Filter.pieces text) ds := by
    rw [hpieces]
    refine .cons (.level ?_ ?_) (.cons (.targeted (.level htarget ?_))
      (.cons (.level ?_ ?_) .nil))
    all_goals decide +kernel
  obtain ⟨paths, events, admitted, hpaths, hevents, hdefault, -, hlog, -⟩ :=
    @run_log_of_levels host ["a"] (some text) ds h w none
  obtain rfl : paths = ["a"] := by
    rcases hpaths with heq | ⟨-, heq⟩
    · exact absurd (List.cons.inj heq).1 (by decide)
    · exact heq.symm
  exact ⟨h, ⟨events, admitted, (hevents events).2 rfl, hdefault, hlog⟩,
    by decide +kernel⟩

/-- With the level `debug` for all events, none of the two events of a run is in the
log, though both are of that level; and with the level `error` for all events,
a warning is. No target covers these events. -/
theorem run_log_of_level_alone :
    let host := Host.lenient
    let w : World := ⟨⟨none, none, Accounts.empty⟩, fun _ => .missing⟩
    let w' : World := ⟨⟨none, none, Accounts.empty⟩, fun _ => .data [0xFF]⟩
    let events : List Event :=
      [⟨.debug, "agent_docs::report", "not found", [("path", "nonexistent")]⟩,
        ⟨.debug, "read_agent_docs", "report written", [("files", "1")]⟩]
    (((Filter.pieces "debug").map (Directive.ofText host)
          = [.ok (.ofTarget "" (some .debug))]
        ∧ trace w ["nonexistent"] none = events
        ∧ (∀ e ∈ events, Limit.admits (some .debug) e.level = true)
        ∧ (Invocation.run host ⟨[Utf8.ofString "nonexistent"], some "debug"⟩ w none).log
          = ""))
      ∧ (Filter.pieces "error").map (Directive.ofText host)
          = [.ok (.ofTarget "" (some .error))]
        ∧ Limit.admits (some .error) .warn = false
        ∧ (Invocation.run host ⟨[Utf8.ofString "bad"], some "error"⟩ w' none).log
          = " WARN agent_docs::report: ERROR reading bad: "
            ++ "stream did not contain valid UTF-8\n" := by
  decide +kernel

end Dossier.Invocation
