/-
What a record says is what stands at the path.

A lookup that reaches something reaches a file or a directory in every tree
whose nodes stand in directories (`Reaches.cases`), since a walk follows all
links that it meets. So a record has four forms: nothing is there, a text, a
file that is not text, a directory. The two failures are put into words with
the path as it is shown, and the key of the record is nothing else, so the
two agree even where the path is not text.

To find out whether something is there, how large it is and what it says are
three questions, each with a lookup of its own (`inspect`). In one tree they
cannot disagree (`probe_eq_inspect`).
-/
import Dossier.Proofs.Collector.Session
import Dossier.Proofs.Text.Utf8
import Dossier.Proofs.Tree.Tidying

namespace Dossier

-- =================================================================== lookups

namespace Tree

/-- The lookup of the path comes to this node. The octets are looked at first: there
have to be some, not too many, and no zero among them. Then the pieces are
walked from the directory given, or from the root. -/
structure Reaches (t : Tree) (here : Location) (p : Path) (node : Node) : Prop where
  ne_nil : p.bytes ≠ []
  length_lt : p.bytes.length < pathLimit
  zero_notMem : 0 ∉ p.bytes
  walks : ∃ place, Walks t linkLimit (start here p) p.pieces place
    ∧ t.node? place = some node

theorem reaches_iff {t : Tree} {here : Location} {p : Path} {node : Node} :
    t.Reaches here p node ↔ (t.find? here p).bind t.node? = some node := by
  rw [Option.bind_eq_some_iff]
  constructor
  · intro h
    obtain ⟨place, hwalks, hnode⟩ := h.walks
    exact ⟨place, find?_eq_some_iff.2 ⟨h.ne_nil, h.length_lt, h.zero_notMem, hwalks⟩, hnode⟩
  · intro h
    obtain ⟨place, hfind, hnode⟩ := h
    obtain ⟨hne, hlength, hzero, hwalks⟩ := find?_eq_some_iff.1 hfind
    exact ⟨hne, hlength, hzero, place, hwalks, hnode⟩

theorem not_reaches_iff {t : Tree} {here : Location} {p : Path} :
    (∀ node, ¬ t.Reaches here p node) ↔ (t.find? here p).bind t.node? = none := by
  rw [Option.eq_none_iff_forall_ne_some]
  exact forall_congr' fun node => not_congr reaches_iff

/-- Every node stands in a directory. -/
def Sound (t : Tree) : Prop :=
  ∀ (name : Name) (place : Location), t.node? (name :: place) ≠ none →
    t.isDirectory place = true

theorem sound_of_nodes {t : Tree}
    (h : ∀ entry ∈ t.nodes, t.isDirectory entry.1.tail = true) : t.Sound := by
  intro name place hnode
  obtain ⟨node, hnode⟩ := Option.ne_none_iff_exists'.1 hnode
  obtain ⟨before, after, hnodes, -⟩ := List.lookup_eq_some_iff.1 hnode
  refine h (name :: place, node) ?_
  rw [hnodes]
  exact List.mem_append_right _ List.mem_cons_self

/-- Something stands at the place that is not a link. -/
def IsEnd (t : Tree) (place : Location) : Prop :=
  ∃ node, t.node? place = some node ∧ ∀ target, node ≠ .link target

theorem isEnd_of_isDirectory {t : Tree} {place : Location}
    (h : t.isDirectory place = true) : t.IsEnd place := by
  refine ⟨.directory, by simpa [isDirectory] using h, ?_⟩
  intro target heq
  cases heq

theorem isEnd_root (t : Tree) : t.IsEnd [] := isEnd_of_isDirectory rfl

/-- In a sound tree no walk comes to a link or to nothing. -/
theorem Walks.isEnd {t : Tree} (hsound : t.Sound) {links : Nat}
    {here place : Location} {names : List Name} (h : Walks t links here names place)
    (hhere : t.IsEnd here) : t.IsEnd place := by
  induction h with
  | done => exact hhere
  | idle hdirectory hname h ih => exact ih hhere
  | @up links here place rest hdirectory h ih =>
      cases here with
      | nil => exact ih (isEnd_root t)
      | cons name here =>
          refine ih (isEnd_of_isDirectory (hsound name here ?_))
          obtain ⟨node, hnode, -⟩ := hhere
          rw [hnode]
          exact Option.some_ne_none node
  | @link links here place name rest target hdirectory hname hnode htarget h ih =>
      refine ih ?_
      unfold start
      split
      · exact isEnd_root t
      · exact hhere
  | enter hdirectory hname hnode hlink h ih => exact ih ⟨_, hnode, hlink⟩

/-- So what is reached is a file or a directory. -/
theorem Reaches.cases {t : Tree} (hsound : t.Sound) {here : Location}
    (hhere : t.isDirectory here = true) {p : Path} {node : Node}
    (h : t.Reaches here p node) : node = .directory ∨ ∃ data, node = .file data := by
  obtain ⟨place, hwalks, hnode⟩ := h.walks
  have hstart : t.IsEnd (start here p) := by
    unfold start
    split
    · exact isEnd_root t
    · exact isEnd_of_isDirectory hhere
  obtain ⟨node', hnode', hlink⟩ := hwalks.isEnd hsound hstart
  rw [hnode, Option.some.injEq] at hnode'
  subst hnode'
  cases node with
  | file data => exact Or.inr ⟨data, rfl⟩
  | directory => exact Or.inl rfl
  | link target => exact absurd rfl (hlink target)

-- ============================================================== three lookups

section Looks

variable (t : Tree) (here : Location) (p : Path)

/-- The size of what stands at the path, if anything does. -/
def size? : Option Nat :=
  match (t.find? here p).bind t.node? with
  | some (.file data) => some data.length
  | some .directory => some 0
  | some (.link _) | none => none

/-- Reads all that stands at the path as text. -/
def readText : Except Failure String :=
  match (t.find? here p).bind t.node? with
  | some (.file data) => match Utf8.toString? data with
    | some content => .ok content
    | none => .error .notText
  | some .directory => .error (.system .isADirectory)
  | some (.link _) | none => .error (.system .noSuchFile)

/-- The record of a path by three lookups: whether anything is there, how large it
is, and what it says. -/
def inspect : Record :=
  if (t.size? here p).isNone then Record.absent
  else
    let size := (t.size? here p).getD 0
    match t.readText here p with
    | .ok content => ⟨true, size, content⟩
    | .error cause => Record.unreadable size ⟨p, cause⟩

end Looks

/-- The three agree, so one look does. -/
theorem probe_eq_inspect {w : World} {t : Tree} {here : Location}
    (h : w.look = t.look here) (p : Path) : w.probe p = t.inspect here p := by
  unfold World.probe World.finding inspect size? readText
  rw [h, look]
  cases (t.find? here p).bind t.node? with
  | none => rfl
  | some node =>
      cases node with
      | link target => rfl
      | directory => rfl
      | file data =>
          cases htext : Utf8.toString? data <;> simp [Finding.ofSighting, Finding.record, htext]

-- =================================================================== records

/-- The words for a failed read show the path as it is shown everywhere. -/
theorem unreadable_eq {size : Nat} {p : Path} {cause : Failure} {words : String}
    (h : ": " ++ cause.message = words) :
    Record.unreadable size ⟨p, cause⟩
      = ⟨true, size, "ERROR reading " ++ p.display ++ words⟩ := by
  rw [← h, ← String.append_assoc]
  rfl

section Records

variable {w : World} {t : Tree} {here : Location} (hlook : w.look = t.look here)
  {p : Path}

include hlook

/-- Where nothing is reached, nothing is there. -/
theorem probe_of_nothing (h : ∀ node, ¬ t.Reaches here p node) :
    w.probe p = ⟨false, 0, "File not found"⟩ := by
  rw [not_reaches_iff] at h
  rw [World.probe, World.finding, hlook, look, h]
  rfl

theorem probe_of_text {content : String}
    (h : t.Reaches here p (.file (Utf8.ofString content))) :
    w.probe p = ⟨true, (Utf8.ofString content).length, content⟩ := by
  rw [reaches_iff] at h
  have htext : Utf8.toString? (Utf8.ofString content) = some content :=
    Utf8.toString?_eq_some_iff.2 rfl
  rw [World.probe, World.finding, hlook, look, h]
  simp only [Finding.ofSighting, htext, Finding.record]

theorem probe_of_octets {data : Bytes} (h : t.Reaches here p (.file data))
    (htext : ¬ Utf8.IsText data) :
    w.probe p = ⟨true, data.length,
      "ERROR reading " ++ p.display ++ ": stream did not contain valid UTF-8"⟩ := by
  rw [reaches_iff] at h
  rw [World.probe, World.finding, hlook, look, h]
  simp only [Finding.ofSighting, Utf8.toString?_eq_none_iff.2 htext, Finding.record]
  exact unreadable_eq (by decide +kernel)

theorem probe_of_directory (h : t.Reaches here p .directory) :
    w.probe p = ⟨true, 0,
      "ERROR reading " ++ p.display ++ ": Is a directory (os error 21)"⟩ := by
  rw [reaches_iff] at h
  rw [World.probe, World.finding, hlook, look, h]
  exact unreadable_eq (by decide +kernel)

end Records

-- ================================================================= every entry

open Collector (key)

/-- After any run each entry of the collector is that of the last add under its key,
and it is faithful to the world of that add, if paths were looked up in a tree
there. Where the lookup reaches nothing, for whatever reason, the record says
that nothing is there. Of a file it says the number of octets and their text, and
of one that is not text, or of a directory, the failure in words that name the
entry's own key, character for character. In a sound tree there are no other
cases. The record is also the one of three separate lookups in that tree. -/
theorem records_faithful (w : World) (actions : List Action) {k : String} {r : Record}
    (h : (k, r) ∈ ((Session.start w).run actions).collector.results.entries) :
    ∃ (before : List (World × String)) (last : World) (raw : String)
      (after : List (World × String)),
      Session.adds w actions = before ++ (last, raw) :: after
        ∧ key last raw = k
        ∧ (∀ later ∈ after, key later.1 later.2 ≠ k)
        ∧ ∀ (t : Tree) (here : Location), last.look = t.look here →
          let p := last.resolve raw
          ((∀ node, ¬ t.Reaches here p node) → r = ⟨false, 0, "File not found"⟩)
            ∧ (∀ data, t.Reaches here p (.file data) →
              r.present = true ∧ r.size = data.length
                ∧ (Utf8.IsText data → Utf8.ofString r.content = data)
                ∧ (¬ Utf8.IsText data → r.content
                  = "ERROR reading " ++ k ++ ": stream did not contain valid UTF-8"))
            ∧ (t.Reaches here p .directory → r.present = true
              ∧ r.content = "ERROR reading " ++ k ++ ": Is a directory (os error 21)")
            ∧ (t.Sound → t.isDirectory here = true → ∀ node, t.Reaches here p node →
              node = .directory ∨ ∃ data, node = .file data)
            ∧ r = t.inspect here p := by
  have hreflects := @Session.reflects_run (Session.start w) [] Catalog.gathers_empty actions
  obtain ⟨before, last, raw, after, hadds, hkey, hlater, hr⟩ := hreflects.exists_last h
  refine ⟨before, last, raw, after, hadds, hkey, hlater, ?_⟩
  intro t here hlook p
  -- the key is the path as it is shown, and so do the words for a failure show it
  have hname : p.display = k := hkey
  rw [hr, ← hname]
  refine ⟨probe_of_nothing hlook, ?_, ?_, ?_, probe_eq_inspect hlook p⟩
  · intro data hreaches
    by_cases htext : Utf8.IsText data
    · obtain ⟨content, rfl⟩ := htext
      rw [probe_of_text hlook hreaches]
      exact ⟨rfl, rfl, fun _ => rfl, fun hnot => absurd ⟨content, rfl⟩ hnot⟩
    · rw [probe_of_octets hlook hreaches htext]
      exact ⟨rfl, rfl, fun hyes => absurd hyes htext, fun _ => rfl⟩
  · intro hreaches
    rw [probe_of_directory hlook hreaches]
    exact ⟨rfl, rfl⟩
  · intro hsound hhere node hreaches
    exact hreaches.cases hsound hhere

/-- A home that is not text, a link in it, and a file behind the link that is text
at the first add and none at the second. Both adds come under one key. -/
theorem records_faithful_link :
    let tree : Bytes → Tree := fun data =>
      ⟨[([[0xFF]], .directory), ([[0x6C], [0xFF]], .link [0x66]),
        ([[0x66], [0xFF]], .file data)]⟩
    let world : Bytes → World := fun data =>
      .ofTree ⟨none, none, ⟨[([0x75], ⟨some [slash, 0xFF], 0, 0⟩)]⟩⟩ (tree data) []
    let actions : List Action :=
      [.add "~u/l", .change (world [0x61, 0xFF]), .extend ["~u//l/."]]
    let r : Record :=
      ⟨true, 2, "ERROR reading /\uFFFD/l: stream did not contain valid UTF-8"⟩
    ((Session.start (world [0x61])).run actions).collector.results.entries
        = [("/\uFFFD/l", r)]
      ∧ ((tree [0x61, 0xFF]).Sound
        ∧ (tree [0x61, 0xFF]).Reaches [] ⟨[slash, 0xFF, slash, 0x6C]⟩ (.file [0x61, 0xFF]))
      ∧ r.size = 2
      ∧ r.content = "ERROR reading /\uFFFD/l: stream did not contain valid UTF-8" := by
  intro tree world actions r
  have hentries : ((Session.start (world [0x61])).run actions).collector.results.entries
      = [("/\uFFFD/l", r)] := by
    decide +kernel
  have hreaches : (tree [0x61, 0xFF]).Reaches [] ⟨[slash, 0xFF, slash, 0x6C]⟩
      (.file [0x61, 0xFF]) :=
    reaches_iff.2 (by decide +kernel)
  have hsound : (tree [0x61, 0xFF]).Sound := sound_of_nodes (by decide +kernel)
  have htext : ¬ Utf8.IsText [0x61, 0xFF] := by
    rw [← Utf8.toString?_eq_none_iff]
    decide +kernel
  have hmem : ("/\uFFFD/l", r)
      ∈ ((Session.start (world [0x61])).run actions).collector.results.entries := by
    rw [hentries]
    exact List.mem_singleton_self _
  obtain ⟨before, last, raw, after, hadds, -, hlater, hrecord⟩ :=
    records_faithful (world [0x61]) actions hmem
  have hadds' : [(world [0x61], "~u/l"), (world [0x61, 0xFF], "~u//l/.")]
      = before ++ (last, raw) :: after := hadds
  cases before with
  | nil =>
      -- the second add comes under the key as well, so the first is not the last
      obtain ⟨-, rfl⟩ := List.cons.inj hadds'
      exact absurd (by decide +kernel) (hlater _ (List.mem_singleton_self _))
  | cons first before =>
      have hrest : [(world [0x61, 0xFF], "~u//l/.")]
          = before ++ (last, raw) :: after := (List.cons.inj hadds').2
      obtain rfl : before = [] := by
        have hlength := congrArg List.length hrest
        simp only [List.length_cons, List.length_nil, List.length_append] at hlength
        exact List.length_eq_zero_iff.1 (by omega)
      obtain ⟨hlast, -⟩ := List.cons.inj hrest
      obtain ⟨rfl, rfl⟩ := Prod.mk.inj hlast
      obtain ⟨-, hfile, -⟩ := hrecord (tree [0x61, 0xFF]) [] rfl
      have hresolve : (world [0x61, 0xFF]).resolve "~u//l/."
          = ⟨[slash, 0xFF, slash, 0x6C]⟩ := by
        decide +kernel
      rw [hresolve] at hfile
      obtain ⟨-, hsize, -, hcontent⟩ := hfile _ hreaches
      exact ⟨hentries, ⟨hsound, hreaches⟩, hsize, hcontent htext⟩

end Tree

end Dossier
