/-
What happens in a run, event by event.

For each path there is one event that tells what was found, and right behind
it a second one if a path before it has the same key. Behind all paths comes
the event of the document: an error if the program hears that it could not be
written, else the number of paths, or nothing where there was no path. The
relations below say
so without a collector; that a key is in the collector iff a path before had
it (`contains_iff`) is what ties them to the events of a run.
-/
import Dossier.Log.Trace
import Dossier.Proofs.Report.Batch

namespace Dossier

open Collector (key)
open Log (Event)

namespace Log

-- ================================================================= findings

/-- Something stands at the path that cannot be read as text. -/
inductive Fails (w : World) (p : Path) : Failure → Prop
  | notText {bytes : Bytes} (h : w.look p = .data bytes)
      (htext : ¬ Utf8.IsText bytes) : Fails w p .notText
  | unreadable {size : Nat} {cause : Failure}
      (h : w.look p = .unreadable size cause) : Fails w p cause

/-- The event of a look at a path. -/
inductive Probes (w : World) (p : Path) : Event → Prop
  | missing (h : w.look p = .missing) :
      Probes w p
        ⟨.debug, "agent_docs::report", "not found", [("path", p.display)]⟩
  | read {content : String} (h : w.look p = .data (Utf8.ofString content)) :
      Probes w p
        ⟨.debug, "agent_docs::report", "read",
          [("path", p.display), ("size", toString (w.probe p).size)]⟩
  /-- The text is the one of the record. -/
  | failed {cause : Failure} (h : Fails w p cause)
      (hcontent : (w.probe p).content
        = "ERROR reading " ++ p.display ++ ": " ++ cause.message) :
      Probes w p ⟨.warn, "agent_docs::report", (w.probe p).content, []⟩

theorem finding_of_text {w : World} {p : Path} {content : String}
    (h : w.look p = .data (Utf8.ofString content)) :
    w.finding p = .text (Utf8.ofString content).length content := by
  have htext : Utf8.toString? (Utf8.ofString content) = some content :=
    Utf8.toString?_eq_some_iff.2 rfl
  rw [World.finding, h, Finding.ofSighting, htext]

theorem finding_of_fails {w : World} {p : Path} {cause : Failure}
    (h : Fails w p cause) : ∃ size, w.finding p = .unreadable size ⟨p, cause⟩ := by
  unfold World.finding
  cases h with
  | notText h htext =>
      rw [h, Finding.ofSighting, Utf8.toString?_eq_none_iff.2 htext]
      exact ⟨_, rfl⟩
  | unreadable h =>
      rw [h]
      exact ⟨_, rfl⟩

/-- Every look leaves the one event that is told of it. -/
theorem probes_iff {w : World} {p : Path} {e : Event} :
    Probes w p e ↔ e = (w.finding p).event p := by
  have hfailed : ∀ {cause : Failure}, Fails w p cause →
      (w.probe p).content = "ERROR reading " ++ p.display ++ ": " ++ cause.message
        ∧ (w.finding p).event p
          = ⟨.warn, "agent_docs::report", (w.probe p).content, []⟩ := by
    intro cause h
    obtain ⟨size, hfinding⟩ := finding_of_fails h
    rw [World.probe, hfinding]
    exact ⟨rfl, rfl⟩
  constructor
  · intro h
    cases h with
    | missing h =>
        rw [World.finding, h]
        rfl
    | read h =>
        rw [World.probe, finding_of_text h]
        rfl
    | failed h hcontent => exact (hfailed h).2.symm
  · rintro rfl
    cases hlook : w.look p with
    | missing =>
        rw [World.finding, hlook]
        exact .missing hlook
    | unreadable size cause =>
        have hfails : Fails w p cause := .unreadable hlook
        rw [(hfailed hfails).2]
        exact .failed hfails (hfailed hfails).1
    | data bytes =>
        by_cases htext : Utf8.IsText bytes
        · obtain ⟨content, rfl⟩ := htext
          have hread := Probes.read hlook
          rw [World.probe, finding_of_text hlook] at hread
          rw [finding_of_text hlook]
          exact hread
        · have hfails : Fails w p .notText := .notText hlook htext
          rw [(hfailed hfails).2]
          exact .failed hfails (hfailed hfails).1

-- ==================================================================== paths

/-- The events of adding paths when others have come before. -/
inductive Adds (w : World) :
    (earlier raws : List String) → List Event → Prop
  | nil (earlier : List String) : Adds w earlier [] []
  /-- The first path with its key. -/
  | fresh {earlier raws : List String} {raw : String} {e : Event}
      {events : List Event} (hprobe : Probes w (w.resolve raw) e)
      (hkey : ¬ ∃ other ∈ earlier, key w other = key w raw)
      (h : Adds w (earlier ++ [raw]) raws events) :
      Adds w earlier (raw :: raws) (e :: events)
  /-- A path that has its key from one before. -/
  | again {earlier raws : List String} {raw : String} {e : Event}
      {events : List Event} (hprobe : Probes w (w.resolve raw) e)
      (hkey : ∃ other ∈ earlier, key w other = key w raw)
      (h : Adds w (earlier ++ [raw]) raws events) :
      Adds w earlier (raw :: raws)
        (e :: ⟨.debug, "agent_docs::report",
          "duplicate path, replacing earlier record",
          [("path", (w.resolve raw).display)]⟩ :: events)

/-- A key is there iff it is that of an earlier path. -/
theorem contains_iff {w : World} {earlier : List String} {k : String} :
    (Collector.empty.extend w earlier).results.contains k = true
      ↔ ∃ other ∈ earlier, key w other = k := by
  rw [Catalog.contains, List.contains_iff_mem]
  exact Report.mem_keys_recordsOf_iff

theorem extend_append (w : World) (earlier : List String) (raw : String) :
    (Collector.empty.extend w earlier).add w raw
      = Collector.empty.extend w (earlier ++ [raw]) := by
  unfold Collector.extend
  rw [List.foldl_append]
  rfl

/-- The events of adding paths are those of the collector that holds the earlier
ones. -/
theorem adds_iff {w : World} {earlier raws : List String} {events : List Event} :
    Adds w earlier raws events
      ↔ events = (Collector.empty.extend w earlier).extendEvents w raws := by
  constructor
  · intro h
    induction h with
    | nil => rfl
    | fresh hprobe hkey _ ih =>
        have hcontains := Bool.eq_false_iff.2 (mt contains_iff.1 hkey)
        rw [Collector.extendEvents, Collector.addEvents, hcontains, extend_append,
          ← ih, probes_iff.1 hprobe]
        rfl
    | again hprobe hkey _ ih =>
        rw [Collector.extendEvents, Collector.addEvents, contains_iff.2 hkey,
          extend_append, ← ih, probes_iff.1 hprobe]
        rfl
  · rintro rfl
    induction raws generalizing earlier with
    | nil => exact .nil earlier
    | cons raw raws ih =>
        have hnext := @ih (earlier ++ [raw])
        rw [Collector.extendEvents, Collector.addEvents, extend_append]
        by_cases hkey : ∃ other ∈ earlier, key w other = key w raw
        · rw [if_pos (contains_iff.2 hkey)]
          exact .again (probes_iff.2 rfl) hkey hnext
        · rw [if_neg (mt contains_iff.1 hkey)]
          exact .fresh (probes_iff.2 rfl) hkey hnext

-- ================================================================= documents

/-- The program hears of no failure to write: there was none, or standard output
is not open for writing. -/
def Unheard (refusal : Option Failure) : Prop :=
  refusal = none ∨ refusal = some (.system .badDescriptor)

/-- The event of writing the document, and none for the words about a right call
if the program hears of no failure to write them. -/
inductive Closes (raws : List String) : Option Failure → List Event → Prop
  | refused {failure : Failure} (h : failure ≠ .system .badDescriptor) :
      Closes raws (some failure)
        [⟨.error, "read_agent_docs",
          "writing report to stdout: " ++ failure.message, []⟩]
  | written {refusal : Option Failure} (hrefusal : Unheard refusal)
      (h : raws ≠ []) :
      Closes raws refusal
        [⟨.debug, "read_agent_docs", "report written",
          [("files", toString raws.length)]⟩]
  | usage {refusal : Option Failure} (hrefusal : Unheard refusal)
      (h : raws = []) : Closes raws refusal []

theorem Unheard.bind_reported? {refusal : Option Failure} (h : Unheard refusal) :
    refusal.bind Failure.reported? = none := by
  rcases h with rfl | rfl
  · rfl
  · rfl

theorem closes_iff {w : World} {raws : List String} {refusal : Option Failure}
    {events : List Event} :
    Closes raws refusal events
      ↔ events = writeEvents raws.length (Report.ofPaths w raws)
          (refusal.bind Failure.reported?) := by
  constructor
  · intro h
    cases h with
    | refused hfailure =>
        rw [Option.bind_some, Failure.reported?_of_ne hfailure]
        rfl
    | written hrefusal hne =>
        rw [hrefusal.bind_reported?, Report.ofPaths_of_ne_nil w hne]
        rfl
    | usage hrefusal h =>
        rw [hrefusal.bind_reported?, h]
        rfl
  · intro h
    subst h
    by_cases hrefusal : Unheard refusal
    · rw [hrefusal.bind_reported?]
      by_cases h : raws = []
      · rw [h]
        exact .usage hrefusal rfl
      · rw [Report.ofPaths_of_ne_nil w h]
        exact .written hrefusal h
    · cases refusal with
      | none => exact absurd (Or.inl rfl) hrefusal
      | some failure =>
          have hfailure : failure ≠ .system .badDescriptor :=
            fun heq => hrefusal (Or.inr (congrArg some heq))
          rw [Option.bind_some, Failure.reported?_of_ne hfailure]
          exact .refused hfailure

-- ====================================================================== runs

/-- The events of a run over the paths, from the first to the last. -/
def Happens (w : World) (raws : List String) (refusal : Option Failure)
    (events : List Event) : Prop :=
  ∃ added last, Adds w [] raws added ∧ Closes raws refusal last
    ∧ events = added ++ last

/-- A run has one trace. -/
theorem happens_iff {w : World} {raws : List String} {refusal : Option Failure}
    {events : List Event} :
    Happens w raws refusal events
      ↔ events = trace w raws (refusal.bind Failure.reported?) := by
  constructor
  · rintro ⟨added, last, hadded, hlast, rfl⟩
    rw [adds_iff.1 hadded, (closes_iff (w := w)).1 hlast]
    rfl
  · rintro rfl
    exact ⟨_, _, adds_iff.2 rfl, closes_iff.2 rfl, rfl⟩

end Log

end Dossier
