/-
The report of a batch of paths in one world, path by path.

As long as the world stands still, what is recorded for a path depends on
the path alone. So a batch is the union of its single paths: under the key
of each path stands its own record (`get?_recordsOf`), whatever else was
asked for and in whatever order. The one thing that may come between is the
key. It is the path as text, and two paths that are not text may be shown
alike; then they share a record and are counted once. Paths that are text
are told apart by their keys, so for them records, counts and order are
those of the resolved paths (`keys_recordsOf_eq_iff`).
-/
import Mathlib.Data.Finset.Card
import Dossier.Proofs.Collector.Session
import Dossier.Proofs.Report.Order
import Dossier.Proofs.Text.Utf8

namespace Dossier

-- ==================================================================== lists

/-- A function that is injective on a list commutes with dropping repetitions. -/
theorem eraseDups_map_of_injOn {α β : Type} [DecidableEq α] [DecidableEq β]
    {f : α → β} (xs : List α) (h : ∀ x ∈ xs, ∀ y ∈ xs, f x = f y → x = y) :
    (xs.map f).eraseDups = xs.eraseDups.map f := by
  match xs with
  | [] => rfl
  | x :: xs =>
      have hfilter : xs.filter ((fun b => !b == f x) ∘ f)
          = xs.filter fun y => !y == x := by
        refine List.filter_congr fun y hy => ?_
        by_cases hyx : y = x
        · simp [hyx]
        · have hf : f y ≠ f x := by
            intro heq
            exact hyx (h y (List.mem_cons_of_mem _ hy) x List.mem_cons_self heq)
          simp [hyx, hf]
      have hrest : ∀ y ∈ xs.filter (fun y => !y == x),
          ∀ z ∈ xs.filter (fun y => !y == x), f y = f z → y = z := by
        intro y hy z hz
        exact h y (List.mem_cons_of_mem _ (List.mem_of_mem_filter hy)) z
          (List.mem_cons_of_mem _ (List.mem_of_mem_filter hz))
      rw [List.map_cons, List.eraseDups_cons, List.eraseDups_cons, List.map_cons,
        List.filter_map, hfilter, eraseDups_map_of_injOn _ hrest]
termination_by xs.length
decreasing_by
  exact Nat.lt_succ_of_le (List.length_filter_le _ _)

/-- What is undone on two lists can be taken away from both. -/
theorem eq_of_map_eq {α β : Type} {f : α → β} (undo : β → α) {xs ys : List α}
    (hxs : ∀ x ∈ xs, undo (f x) = x) (hys : ∀ y ∈ ys, undo (f y) = y)
    (h : xs.map f = ys.map f) : xs = ys := by
  have hundo : ∀ zs : List α, (∀ z ∈ zs, undo (f z) = z) →
      (zs.map f).map undo = zs := by
    intro zs hzs
    rw [List.map_map]
    exact (List.map_congr_left hzs).trans (List.map_id _)
  rw [← hundo xs hxs, ← hundo ys hys, h]

namespace Report

open Collector (key)

-- ============================================================ one world, one path

/-- What a batch collects in one world. -/
def recordsOf (w : World) (raws : List String) : Catalog Record :=
  (Collector.empty.extend w raws).results

theorem ofPaths_of_ne_nil (w : World) {raws : List String} (h : raws ≠ []) :
    ofPaths w raws
      = .success agentName (recordsOf w raws).size (recordsOf w raws) := by
  have hempty : raws.isEmpty = false := by simpa using h
  unfold ofPaths
  rw [hempty, if_neg Bool.false_ne_true]
  rfl

theorem gathers_recordsOf (w : World) (raws : List String) :
    (recordsOf w raws).Gathers
      (raws.map fun raw => (key w raw, w.probe (w.resolve raw))) := by
  have hstart : Collector.empty.Reflects [] := Catalog.gathers_empty
  have hgathers := hstart.extend w raws
  unfold Collector.Reflects at hgathers
  rw [List.nil_append, List.map_map] at hgathers
  exact hgathers

theorem mem_keys_recordsOf_iff {w : World} {raws : List String} {k : String} :
    k ∈ (recordsOf w raws).keys ↔ ∃ raw ∈ raws, key w raw = k := by
  rw [(gathers_recordsOf w raws).mem_keys_iff, List.map_map, List.mem_map]
  rfl

/-- More paths leave a record alone, unless one of them comes under its key with
another record. -/
theorem get?_extend_of_sole {c : Collector} {w : World} {k : String} {r : Record}
    (h : c.results.get? k = some r) {raws : List String}
    (hsole : ∀ other ∈ raws, key w other = k → w.probe (w.resolve other) = r) :
    (c.extend w raws).results.get? k = some r := by
  induction raws generalizing c with
  | nil => exact h
  | cons raw raws ih =>
      rw [List.forall_mem_cons] at hsole
      refine @ih (c.add w raw) ?_ hsole.2
      rw [Collector.get?_add]
      split
      · next hk => rw [hsole.1 hk.symm]
      · exact h

/-- What is recorded for a path stays, unless a later one shares its key. -/
theorem get?_recordsOf_append {w : World} {before after : List String}
    {raw : String}
    (hsole : ∀ other ∈ after, key w other = key w raw →
      w.resolve other = w.resolve raw) :
    (recordsOf w (before ++ raw :: after)).get? (key w raw)
      = some (w.probe (w.resolve raw)) := by
  have hadd := Collector.get?_add (Collector.empty.extend w before) w raw
    (key w raw)
  rw [if_pos rfl] at hadd
  have hextend : recordsOf w (before ++ raw :: after)
      = (((Collector.empty.extend w before).add w raw).extend w after).results :=
    congrArg Collector.results List.foldl_append
  rw [hextend]
  exact get?_extend_of_sole hadd fun other hother hkey => by
    rw [hsole other hother hkey]

/-- A path that shares its key with no other one is found with its own record. -/
theorem get?_recordsOf {w : World} {raws : List String} {raw : String}
    (hmem : raw ∈ raws)
    (hsole : ∀ other ∈ raws, key w other = key w raw →
      w.resolve other = w.resolve raw) :
    (recordsOf w raws).get? (key w raw) = some (w.probe (w.resolve raw)) := by
  obtain ⟨before, after, rfl⟩ := List.append_of_mem hmem
  refine get?_recordsOf_append fun other hother => hsole other ?_
  exact List.mem_append_right _ (List.mem_cons_of_mem _ hother)

theorem get?_recordsOf_eq_none {w : World} {raws : List String} {k : String}
    (h : ¬ ∃ raw ∈ raws, key w raw = k) : (recordsOf w raws).get? k = none := by
  rw [← mem_keys_recordsOf_iff, Catalog.mem_keys_iff, not_exists] at h
  exact Option.eq_none_iff_forall_ne_some.2 h

theorem entries_recordsOf_singleton (w : World) (raw : String) :
    (recordsOf w [raw]).entries = [(key w raw, w.probe (w.resolve raw))] :=
  rfl

-- ============================================================== paths as text

/-- All paths of the batch are text. -/
def AllText (w : World) (raws : List String) : Prop :=
  ∀ raw ∈ raws, Utf8.IsText (w.resolve raw).bytes

/-- Paths that are text are told apart by their keys. -/
theorem eq_of_display_eq {p q : Path} (hp : Utf8.IsText p.bytes)
    (hq : Utf8.IsText q.bytes) (h : p.display = q.display) : p = q := by
  have hbytes : p.bytes = q.bytes := Utf8.eq_of_display_eq hp hq h
  cases p
  cases q
  exact congrArg Path.mk hbytes

theorem AllText.resolve_eq {w : World} {raws : List String} (h : AllText w raws)
    {raw : String} (hraw : raw ∈ raws) :
    ∀ other ∈ raws, key w other = key w raw →
      w.resolve other = w.resolve raw :=
  fun other hother => eq_of_display_eq (h other hother) (h raw hraw)

/-- The path of which a text is the octets, undoing `display` on text. -/
theorem mk_ofString_display {p : Path} (h : Utf8.IsText p.bytes) :
    (⟨Utf8.ofString p.display⟩ : Path) = p := by
  obtain ⟨bytes⟩ := p
  obtain ⟨s, rfl⟩ := h
  show (⟨Utf8.ofString (Utf8.display (Utf8.ofString s))⟩ : Path) = _
  rw [Utf8.display_ofString]

/-- The keys are the distinct paths, each shown where it first came. -/
theorem keys_recordsOf {w : World} {raws : List String} (h : AllText w raws) :
    (recordsOf w raws).keys
      = (raws.map w.resolve).eraseDups.map Path.display := by
  rw [(gathers_recordsOf w raws).keys_eq, List.map_map,
    ← eraseDups_map_of_injOn, List.map_map]
  · rfl
  · intro p hp q hq
    obtain ⟨raw, hraw, rfl⟩ := List.mem_map.1 hp
    obtain ⟨other, hother, rfl⟩ := List.mem_map.1 hq
    exact eq_of_display_eq (h raw hraw) (h other hother)

/-- Batches of paths that are text have the same keys in the same order iff the
paths first come in the same order. -/
theorem keys_recordsOf_eq_iff {w : World} {raws others : List String}
    (h : AllText w raws) (h' : AllText w others) :
    (recordsOf w raws).keys = (recordsOf w others).keys
      ↔ (raws.map w.resolve).eraseDups = (others.map w.resolve).eraseDups := by
  have hundo : ∀ {raws : List String}, AllText w raws →
      ∀ p ∈ (raws.map w.resolve).eraseDups,
        (⟨Utf8.ofString p.display⟩ : Path) = p := by
    intro raws h p hp
    obtain ⟨raw, hraw, rfl⟩ := List.mem_map.1 (List.mem_eraseDups.1 hp)
    exact mk_ofString_display (h raw hraw)
  rw [keys_recordsOf h, keys_recordsOf h']
  constructor
  · exact eq_of_map_eq (fun s => ⟨Utf8.ofString s⟩) (hundo h) (hundo h')
  · intro heq
    rw [heq]

-- ================================================================= counting

theorem toFinset_map_key (w : World) (raws : List String) :
    (raws.map (key w)).toFinset
      = (raws.map w.resolve).toFinset.image Path.display := by
  ext k
  simp [key]

theorem size_recordsOf (w : World) (raws : List String) :
    (recordsOf w raws).size = (raws.map (key w)).toFinset.card := by
  have hkeys : (recordsOf w raws).keys.toFinset = (raws.map (key w)).toFinset := by
    ext k
    rw [List.mem_toFinset, List.mem_toFinset, mem_keys_recordsOf_iff,
      List.mem_map]
  rw [Catalog.size_eq_length_keys, ← hkeys]
  exact (List.toFinset_card_of_nodup (recordsOf w raws).nodup).symm

/-- As many records as paths means that no two paths are shown alike. -/
theorem size_recordsOf_eq_card_iff (w : World) (raws : List String) :
    (recordsOf w raws).size = (raws.map w.resolve).toFinset.card
      ↔ ∀ raw ∈ raws, ∀ other ∈ raws, key w raw = key w other →
          w.resolve raw = w.resolve other := by
  rw [size_recordsOf, toFinset_map_key, Finset.card_image_iff]
  constructor
  · intro h raw hraw other hother
    exact h (by simpa using ⟨raw, hraw, rfl⟩) (by simpa using ⟨other, hother, rfl⟩)
  · intro h p hp q hq
    obtain ⟨raw, hraw, rfl⟩ : ∃ raw ∈ raws, w.resolve raw = p := by simpa using hp
    obtain ⟨other, hother, rfl⟩ : ∃ raw ∈ raws, w.resolve raw = q := by
      simpa using hq
    exact h raw hraw other hother

/-- A report counts the distinct keys of its paths. These are no more than the
distinct paths, and as many iff no two paths share a key; for paths that are
text they are as many. -/
theorem ofPaths_count (w : World) {raws : List String} (hne : raws ≠ []) :
    ∃ results : Catalog Record,
      ofPaths w raws = .success agentName results.size results
        ∧ results.size = results.keys.length
        ∧ results.size = (raws.map (key w)).toFinset.card
        ∧ results.size ≤ (raws.map w.resolve).toFinset.card
        ∧ (results.size = (raws.map w.resolve).toFinset.card
            ↔ ∀ raw ∈ raws, ∀ other ∈ raws, key w raw = key w other →
                w.resolve raw = w.resolve other)
        ∧ (AllText w raws →
            results.size = (raws.map w.resolve).toFinset.card) := by
  refine ⟨recordsOf w raws, ofPaths_of_ne_nil w hne,
    Catalog.size_eq_length_keys _, size_recordsOf w raws, ?_,
    size_recordsOf_eq_card_iff w raws, ?_⟩
  · rw [size_recordsOf, toFinset_map_key]
    exact Finset.card_image_le
  · intro htext
    rw [size_recordsOf_eq_card_iff]
    intro raw hraw other hother hkey
    exact htext.resolve_eq hother raw hraw hkey

/-- A batch to which the count applies: two spellings of one path, and another
path. -/
theorem ofPaths_count_spellings :
    let w : World := ⟨⟨none, none, Accounts.empty⟩, fun _ => .missing⟩
    ["a", "./a/", "b"] ≠ [] ∧ ∃ results : Catalog Record,
      ofPaths w ["a", "./a/", "b"] = .success agentName results.size results
        ∧ results.size = 2 := by
  intro w
  have hne : ["a", "./a/", "b"] ≠ [] := List.cons_ne_nil _ _
  obtain ⟨results, hreport, -, hcount, -⟩ := ofPaths_count w hne
  refine ⟨hne, results, hreport, ?_⟩
  rw [hcount]
  decide +kernel

/-- Two homes of which no octet but the first is text are two paths with one
key, so one record stands for both. -/
theorem ofPaths_homes_with_one_key :
    let w : World := ⟨⟨none, none, ⟨[(Utf8.ofString "a", ⟨some [slash, 0xFF], 0, 0⟩),
      (Utf8.ofString "b", ⟨some [slash, 0xFE], 0, 0⟩)]⟩⟩, fun _ => .missing⟩
    (["~a", "~b"].map w.resolve).toFinset.card = 2
      ∧ ∃ results : Catalog Record,
          ofPaths w ["~a", "~b"] = .success agentName 1 results
            ∧ results.keys = ["/\uFFFD"] := by
  intro w
  refine ⟨by decide +kernel, recordsOf w ["~a", "~b"], ?_, by decide +kernel⟩
  have hsize : (recordsOf w ["~a", "~b"]).size = 1 := by decide +kernel
  rw [ofPaths_of_ne_nil w (List.cons_ne_nil _ _), hsize]

-- =================================================================== the union

/-- The batches ask for the same paths, however spelled, ordered or repeated. -/
def SamePaths (w : World) (ps qs : List String) : Prop :=
  ∀ path, path ∈ ps.map w.resolve ↔ path ∈ qs.map w.resolve

theorem SamePaths.symm {w : World} {ps qs : List String} (h : SamePaths w ps qs) :
    SamePaths w qs ps :=
  fun path => (h path).symm

/-- Each path of the one batch is in the other one, in some spelling. -/
theorem SamePaths.exists_spelling {w : World} {ps qs : List String}
    (h : SamePaths w ps qs) {p : String} (hp : p ∈ ps) :
    ∃ q ∈ qs, w.resolve q = w.resolve p :=
  List.mem_map.1 ((h _).1 (List.mem_map.2 ⟨p, hp, rfl⟩))

theorem SamePaths.allText {w : World} {ps qs : List String}
    (h : SamePaths w ps qs) (htext : AllText w ps) : AllText w qs := by
  intro q hq
  obtain ⟨p, hp, heq⟩ := h.symm.exists_spelling hq
  rw [← heq]
  exact htext p hp

theorem SamePaths.ne_nil {w : World} {ps qs : List String}
    (h : SamePaths w ps qs) (hne : ps ≠ []) : qs ≠ [] := by
  obtain ⟨p, ps, rfl⟩ := List.exists_cons_of_ne_nil hne
  obtain ⟨q, hq, -⟩ := h.exists_spelling List.mem_cons_self
  exact List.ne_nil_of_mem hq

/-- The same paths have the same records under the same keys. -/
theorem get?_recordsOf_congr {w : World} {ps qs : List String}
    (h : SamePaths w ps qs) (htext : AllText w ps) (k : String) :
    (recordsOf w ps).get? k = (recordsOf w qs).get? k := by
  by_cases hk : ∃ p ∈ ps, key w p = k
  · obtain ⟨p, hp, rfl⟩ := hk
    obtain ⟨q, hq, heq⟩ := h.exists_spelling hp
    have hkey : key w p = key w q := by rw [key, key, heq]
    rw [get?_recordsOf hp (htext.resolve_eq hp), hkey,
      get?_recordsOf hq ((h.allText htext).resolve_eq hq), heq]
  · have hk' : ¬ ∃ q ∈ qs, key w q = k := by
      rintro ⟨q, hq, rfl⟩
      obtain ⟨p, hp, heq⟩ := h.symm.exists_spelling hq
      exact hk ⟨p, hp, by rw [key, key, heq]⟩
    rw [get?_recordsOf_eq_none hk, get?_recordsOf_eq_none hk']

theorem agrees_ofPaths {w : World} {ps qs : List String} (hne : ps ≠ [])
    (h : SamePaths w ps qs) (htext : AllText w ps) :
    (ofPaths w ps).agrees (ofPaths w qs) = true := by
  have hagrees : (recordsOf w ps).agrees (recordsOf w qs) = true :=
    Catalog.agrees_iff_get?_eq.2 (get?_recordsOf_congr h htext)
  have hsize := (Catalog.agrees_iff.1 hagrees).1
  rw [ofPaths_of_ne_nil w hne, ofPaths_of_ne_nil w (h.ne_nil hne), agrees,
    Bool.and_eq_true, Bool.and_eq_true, beq_iff_eq, beq_iff_eq]
  exact ⟨⟨rfl, hsize⟩, hagrees⟩

theorem toJson_ofPaths_eq_iff {w : World} {ps qs : List String} (hne : ps ≠ [])
    (h : SamePaths w ps qs) (htext : AllText w ps) :
    (ofPaths w ps).toJson = (ofPaths w qs).toJson
      ↔ (ps.map w.resolve).eraseDups = (qs.map w.resolve).eraseDups := by
  rw [ofPaths_of_ne_nil w hne, ofPaths_of_ne_nil w (h.ne_nil hne),
    ← keys_recordsOf_eq_iff htext (h.allText htext)]
  exact toJson_ofResults_eq_iff (get?_recordsOf_congr h htext)

/-- In a world that differs in the files alone, a path that is looked at alike has
the record that it had. -/
theorem get?_recordsOf_of_look_eq (w other : World) {ps : List String}
    (henv : other.environment = w.environment) (htext : AllText w ps)
    {p : String} (hp : p ∈ ps)
    (hlook : other.look (w.resolve p) = w.look (w.resolve p)) :
    (recordsOf other ps).get? (key w p) = (recordsOf w ps).get? (key w p) := by
  obtain ⟨environment, look⟩ := w
  obtain ⟨environment', look'⟩ := other
  subst henv
  -- paths and keys depend on the environment alone
  have htext' : AllText ⟨environment', look'⟩ ps := htext
  have hother := get?_recordsOf hp (htext'.resolve_eq hp)
  rw [get?_recordsOf hp (htext.resolve_eq hp), World.probe, World.finding,
    ← hlook]
  exact hother

/-- The report of paths that are text is the union of the reports of each of them
alone: under the key of each stands the one record that it has by itself, and
no other key is there. So batches of the same paths agree, and have the same
document iff the paths first come in the same order; and whatever becomes of
the other files, missing or unreadable, the record of a file stays. -/
theorem ofPaths_union (w : World) {ps : List String} (hne : ps ≠ [])
    (htext : AllText w ps) :
    ∃ results : Catalog Record,
      ofPaths w ps = .success agentName results.size results
        ∧ (∀ p ∈ ps, ∃ r : Record, results.get? (key w p) = some r
            ∧ ∃ single : Catalog Record,
                ofPaths w [p] = .success agentName 1 single
                  ∧ single.entries = [(key w p, r)])
        ∧ (∀ k ∈ results.keys, ∃ p ∈ ps, k = key w p)
        ∧ (∀ qs : List String, SamePaths w ps qs →
            (ofPaths w ps).agrees (ofPaths w qs) = true
              ∧ ((ofPaths w ps).toJson = (ofPaths w qs).toJson
                ↔ (ps.map w.resolve).eraseDups
                  = (qs.map w.resolve).eraseDups))
        ∧ (∀ look : Path → Sighting, ∃ results' : Catalog Record,
            ofPaths ⟨w.environment, look⟩ ps
                = .success agentName results'.size results'
              ∧ ∀ p ∈ ps, look (w.resolve p) = w.look (w.resolve p) →
                  results'.get? (key w p) = results.get? (key w p)) := by
  refine ⟨recordsOf w ps, ofPaths_of_ne_nil w hne, ?_, ?_, ?_, ?_⟩
  · intro p hp
    refine ⟨w.probe (w.resolve p), get?_recordsOf hp (htext.resolve_eq hp),
      recordsOf w [p], ?_, entries_recordsOf_singleton w p⟩
    exact ofPaths_of_ne_nil w (List.cons_ne_nil _ _)
  · intro k hk
    obtain ⟨p, hp, hkey⟩ := mem_keys_recordsOf_iff.1 hk
    exact ⟨p, hp, hkey.symm⟩
  · intro qs h
    exact ⟨agrees_ofPaths hne h htext, toJson_ofPaths_eq_iff hne h htext⟩
  · intro look
    refine ⟨recordsOf ⟨w.environment, look⟩ ps, ofPaths_of_ne_nil _ hne, ?_⟩
    intro p hp hlook
    exact get?_recordsOf_of_look_eq w ⟨w.environment, look⟩ rfl htext hp hlook

/-- Three spellings of two paths, and the two in the other order: one report, in
two documents. -/
theorem ofPaths_union_spellings :
    let w : World := ⟨⟨some [slash], none, Accounts.empty⟩, fun _ => .missing⟩
    let ps := ["a", "~/b", "./a/"]
    (ps ≠ [] ∧ AllText w ps) ∧ SamePaths w ps ["/b", "a"]
      ∧ (ofPaths w ps).agrees (ofPaths w ["/b", "a"]) = true
      ∧ (ofPaths w ps).toJson ≠ (ofPaths w ["/b", "a"]).toJson := by
  intro w ps
  have hpaths : ps.map w.resolve
      = [⟨Utf8.ofString "a"⟩, ⟨Utf8.ofString "/b"⟩, ⟨Utf8.ofString "a"⟩] := by
    decide +kernel
  have hpaths' : ["/b", "a"].map w.resolve
      = [⟨Utf8.ofString "/b"⟩, ⟨Utf8.ofString "a"⟩] := by
    decide +kernel
  have hne : ps ≠ [] := List.cons_ne_nil _ _
  have htext : AllText w ps := by
    intro p hp
    have hmem : w.resolve p ∈ ps.map w.resolve := List.mem_map.2 ⟨p, hp, rfl⟩
    rw [hpaths] at hmem
    simp only [List.mem_cons, List.not_mem_nil, or_false] at hmem
    rcases hmem with hmem | hmem | hmem <;> exact ⟨_, congrArg Path.bytes hmem⟩
  have hsame : SamePaths w ps ["/b", "a"] := by
    intro path
    rw [hpaths, hpaths']
    simp only [List.mem_cons, List.not_mem_nil, or_false]
    tauto
  obtain ⟨results, -, -, -, hunion, -⟩ := ofPaths_union w hne htext
  obtain ⟨hagrees, hjson⟩ := hunion _ hsame
  refine ⟨⟨hne, htext⟩, hsame, hagrees, ?_⟩
  rw [ne_eq, hjson, hpaths, hpaths']
  decide +kernel

end Report

end Dossier
