/-
The life of one collector while the world around it changes.

Between two adds anything may happen to the files, to HOME and to the
accounts, so the same raw path may come to stand for another key and two
raw paths for one. `adds` writes down what a run asked for, each path with
the world of its moment, and is all that the collector remembers: after any
run its records gather the entries of that history (`gathers_run`), with
places from the first add of a key and records from the last.

The engine is one step, `reflects_step`: an add puts its entry behind the
history, `extend` is a row of adds, and a change of the world touches
nothing that was collected.
-/
import Dossier.Collector
import Dossier.Proofs.Catalog.Arrival

namespace Dossier.Collector

-- ============================================================== one record

/-- The entry that an add makes: the key and the record of its path, both in
the world of its moment. -/
def entry (moment : World × String) : String × Record :=
  (key moment.1 moment.2, moment.1.probe (moment.1.resolve moment.2))

/-- The collector's records are the entries of the history. -/
def Reflects (c : Collector) (history : List (World × String)) : Prop :=
  c.results.Gathers (history.map entry)

theorem Reflects.add {c : Collector} {history : List (World × String)}
    (h : c.Reflects history) (w : World) (raw : String) :
    (c.add w raw).Reflects (history ++ [(w, raw)]) := by
  unfold Reflects
  rw [List.map_append]
  exact Catalog.Gathers.insert h _ _

theorem Reflects.extend {c : Collector} {history : List (World × String)}
    (h : c.Reflects history) (w : World) (raws : List String) :
    (c.extend w raws).Reflects (history ++ raws.map (w, ·)) := by
  induction raws generalizing c history with
  | nil =>
      rw [List.map_nil, List.append_nil]
      exact h
  | cons raw raws ih =>
      have hrest := ih (h.add w raw)
      rw [List.append_assoc] at hrest
      exact hrest

/-- An entry is that of the last add under its key. -/
theorem Reflects.exists_last {c : Collector} {history : List (World × String)}
    (h : c.Reflects history) {k : String} {r : Record}
    (hmem : (k, r) ∈ c.results.entries) :
    ∃ before w raw after, history = before ++ (w, raw) :: after
      ∧ key w raw = k ∧ (∀ later ∈ after, key later.1 later.2 ≠ k)
      ∧ r = w.probe (w.resolve raw) := by
  have hget : c.results.get? k = some r := Catalog.lookup_of_mem c.results.nodup hmem
  rw [h.get?_eq, ← List.map_reverse, Catalog.lookup_map, Option.map_eq_some_iff] at hget
  obtain ⟨⟨w, raw⟩, hfind, hr⟩ := hget
  obtain ⟨hkey, after, before, hhistory, hlater⟩ := List.find?_eq_some_iff_append.1 hfind
  rw [List.reverse_eq_iff, List.reverse_append, List.reverse_cons, List.append_assoc,
    List.singleton_append] at hhistory
  refine ⟨before.reverse, w, raw, after.reverse, hhistory, ?_, ?_, hr.symm⟩
  · exact (beq_iff_eq.1 hkey).symm
  · intro later hmem heq
    have hne := hlater later (List.mem_reverse.1 hmem)
    simp [entry, heq] at hne

/-- Under the key of an add stands its record, under the others what stood
there. -/
theorem get?_add (c : Collector) (w : World) (raw k : String) :
    (c.add w raw).results.get? k
      = if k = key w raw then some (w.probe (w.resolve raw))
        else c.results.get? k :=
  Catalog.get?_insert c.results _ _ k

theorem keys_prefix_add (c : Collector) (w : World) (raw : String) :
    c.results.keys <+: (c.add w raw).results.keys :=
  Catalog.keys_prefix_insert c.results _ _

theorem keys_prefix_extend (c : Collector) (w : World) (raws : List String) :
    c.results.keys <+: (c.extend w raws).results.keys := by
  induction raws generalizing c with
  | nil => exact List.prefix_rfl
  | cons raw raws ih => exact (keys_prefix_add c w raw).trans (ih _)

theorem size_eq_length_keys (c : Collector) : c.size = c.results.keys.length :=
  Catalog.size_eq_length_keys c.results

theorem isEmpty_iff (c : Collector) : c.isEmpty = true ↔ c.size = 0 := by
  show c.results.entries.isEmpty = true ↔ c.results.entries.length = 0
  rw [List.isEmpty_iff, List.length_eq_zero_iff]

end Collector

-- ================================================================ sessions

/-- What may happen to a collector or around it. -/
inductive Action where
  | add (raw : String)
  | extend (raws : List String)
  /-- The files, HOME or the accounts change. -/
  | change (w : World)

/-- The same adds, one by one. -/
def Action.singles : Action → List Action
  | .extend raws => raws.map .add
  | action => [action]

/-- A collector and the world around it. -/
structure Session where
  world : World
  collector : Collector

namespace Session

/-- A new collector in a world. -/
def start (w : World) : Session := ⟨w, Collector.empty⟩

/-- Does what the action says, in the world as it is. -/
def step (s : Session) : Action → Session
  | .add raw => { s with collector := s.collector.add s.world raw }
  | .extend raws => { s with collector := s.collector.extend s.world raws }
  | .change w => { s with world := w }

/-- Does the actions one after the other. -/
def run (s : Session) (actions : List Action) : Session := actions.foldl step s

/-- The paths that a run asks for, each with the world of its moment. -/
def adds (w : World) : List Action → List (World × String)
  | [] => []
  | .add raw :: actions => (w, raw) :: adds w actions
  | .extend raws :: actions => raws.map (w, ·) ++ adds w actions
  | .change w :: actions => adds w actions

theorem run_append (s : Session) (first rest : List Action) :
    s.run (first ++ rest) = (s.run first).run rest :=
  List.foldl_append

-- ============================================================ the invariant

/-- One action carries the history on by the paths that it asks for. -/
theorem reflects_step {s : Session} {history : List (World × String)}
    (h : s.collector.Reflects history) (action : Action) :
    (s.step action).collector.Reflects (history ++ adds s.world [action]) := by
  cases action with
  | add raw => exact h.add s.world raw
  | extend raws =>
      rw [adds, adds, List.append_nil]
      exact h.extend s.world raws
  | change w =>
      rw [adds, adds, List.append_nil]
      exact h

/-- The history of a run is that of its first action and, in the world that
this leaves, that of the others. -/
theorem adds_cons (s : Session) (action : Action) (actions : List Action) :
    adds s.world (action :: actions)
      = adds s.world [action] ++ adds (s.step action).world actions := by
  cases action with
  | add raw => rfl
  | extend raws =>
      rw [adds, adds, adds, List.append_nil]
      rfl
  | change w => rfl

/-- After any run the collector reflects the history of the run. -/
theorem reflects_run {s : Session} {history : List (World × String)}
    (h : s.collector.Reflects history) (actions : List Action) :
    (s.run actions).collector.Reflects (history ++ adds s.world actions) := by
  induction actions generalizing s history with
  | nil =>
      rw [adds, List.append_nil]
      exact h
  | cons action actions ih =>
      rw [adds_cons, ← List.append_assoc]
      exact ih (reflects_step h action)

theorem gathers_run (w : World) (actions : List Action) :
    ((start w).run actions).collector.results.Gathers
      ((adds w actions).map Collector.entry) :=
  @reflects_run (start w) [] Catalog.gathers_empty actions

-- ======================================================== places and sizes

theorem keys_prefix_step (s : Session) (action : Action) :
    s.collector.results.keys <+: (s.step action).collector.results.keys := by
  cases action with
  | add raw => exact s.collector.keys_prefix_add s.world raw
  | extend raws => exact s.collector.keys_prefix_extend s.world raws
  | change w => exact List.prefix_rfl

/-- A run takes no key away and moves none. -/
theorem keys_prefix_run (s : Session) (actions : List Action) :
    s.collector.results.keys <+: (s.run actions).collector.results.keys := by
  induction actions generalizing s with
  | nil => exact List.prefix_rfl
  | cons action actions ih => exact (keys_prefix_step s action).trans (ih _)

theorem size_le_run (s : Session) (actions : List Action) :
    s.collector.size ≤ (s.run actions).collector.size := by
  rw [Collector.size_eq_length_keys, Collector.size_eq_length_keys]
  exact (keys_prefix_run s actions).length_le

/-- However the world goes on changing, what was collected stays. -/
theorem collector_run_changes (s : Session) (worlds : List World) :
    (s.run (worlds.map .change)).collector = s.collector := by
  induction worlds generalizing s with
  | nil => rfl
  | cons w worlds ih => exact ih (s.step (.change w))

-- ================================================================ grouping

theorem run_map_add (s : Session) (raws : List String) :
    s.run (raws.map .add) = s.step (.extend raws) := by
  induction raws generalizing s with
  | nil => rfl
  | cons raw raws ih => exact ih (s.step (.add raw))

theorem run_singles (s : Session) (action : Action) :
    s.run action.singles = s.step action := by
  cases action with
  | extend raws => exact run_map_add s raws
  | add raw => rfl
  | change w => rfl

/-- A run may be taken apart into single adds and changes. -/
theorem run_flatMap_singles (s : Session) (actions : List Action) :
    s.run (actions.flatMap Action.singles) = s.run actions := by
  induction actions generalizing s with
  | nil => rfl
  | cons action actions ih =>
      rw [List.flatMap_cons, run_append, run_singles]
      exact ih _

/-- The report of a list of paths is that of one add after the other. -/
theorem ofPaths_cons (w : World) (raw : String) (raws : List String) :
    Report.ofPaths w (raw :: raws)
      = ((start w).run ((raw :: raws).map .add)).collector.report := by
  rw [run_map_add]
  rfl

-- ============================================================== every run

/-- What a collector holds after any run of adds, extends and changes of the
world: the distinct keys of the history in the order of their first add, each
with the record of its last, where the key of a path is the text of what it
stands for. One more add alters the record of its own key
alone and moves no key; more actions never make the collector smaller, later
changes leave it alone, and it does not matter how paths were grouped. The
report holds these records with their number, and is what `Report.ofPaths`
makes of a list. -/
theorem collector_of_run (w : World) (actions : List Action) :
    let c := ((start w).run actions).collector
    c.results.keys
        = ((adds w actions).map fun moment =>
            (moment.1.resolve moment.2).display).eraseDups
      ∧ c.results.keys.Nodup
      ∧ (∀ k, c.results.get? k
          = ((adds w actions).reverse.find? fun moment =>
              k == (moment.1.resolve moment.2).display).map fun moment =>
                moment.1.probe (moment.1.resolve moment.2))
      ∧ (∀ worlds : List World,
          ((start w).run (actions ++ worlds.map .change)).collector = c)
      ∧ (∀ w' raw,
          c.results.keys <+: (c.add w' raw).results.keys
            ∧ ∀ k, (c.add w' raw).results.get? k
                = if k = (w'.resolve raw).display
                  then some (w'.probe (w'.resolve raw))
                  else c.results.get? k)
      ∧ (∀ more : List Action,
          c.size ≤ ((start w).run (actions ++ more)).collector.size)
      ∧ c.size = c.results.keys.length
      ∧ (c.isEmpty = true ↔ c.size = 0)
      ∧ ((start w).run (actions.flatMap Action.singles)).collector = c
      ∧ c.report = .success Report.agentName c.size c.results
      ∧ (∀ raw raws, Report.ofPaths w (raw :: raws)
          = ((start w).run ((raw :: raws).map .add)).collector.report)
      ∧ Report.ofPaths w [] = Report.usage := by
  intro c
  have hgathers : c.results.Gathers ((adds w actions).map Collector.entry) :=
    gathers_run w actions
  refine ⟨?_, c.results.nodup, ?_, ?_, ?_, ?_, c.size_eq_length_keys,
    c.isEmpty_iff, ?_, rfl, ofPaths_cons w, rfl⟩
  · rw [hgathers.keys_eq, List.map_map]
    rfl
  · intro k
    rw [hgathers.get?_eq, ← List.map_reverse]
    exact Catalog.lookup_map Collector.entry k _
  · intro worlds
    rw [run_append]
    exact collector_run_changes _ worlds
  · intro w' raw
    exact ⟨c.keys_prefix_add w' raw, c.get?_add w' raw⟩
  · intro more
    rw [run_append]
    exact size_le_run _ more
  · rw [run_flatMap_singles]

end Dossier.Session
