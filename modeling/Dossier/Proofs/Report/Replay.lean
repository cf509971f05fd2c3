/-
The keys of a report, asked for as paths, give the report again.

A key is a path as text in its shortest spelling, so it stands for itself
(`expand_display`), unless it begins with `~`: such a key stands for a home
directory when it is asked for, as `./~/x` is recorded under `~/x`. Where no
path does, the keys are the distinct paths of the batch in the order in
which they first came, and the report of a batch depends on nothing else.
-/
import Dossier.Proofs.Home.Expansion
import Dossier.Proofs.Report.Batch

namespace Dossier

namespace Environment

/-- A tidied path is expanded to itself, if it is text and does not begin with
`~`. -/
theorem expand_of_tidy (env : Environment) {p : Path} (htidy : p.tidy = p)
    (htext : Utf8.IsText p.bytes) (htilde : p.bytes.head? ≠ some tilde) :
    env.expand p.display = p := by
  have hback : (⟨Utf8.ofString p.display⟩ : Path) = p :=
    Report.mk_ofString_display htext
  have hbytes : Utf8.ofString p.display = p.bytes := congrArg Path.bytes hback
  have hexpansion : env.expansion (Utf8.ofString p.display)
      = ⟨Utf8.ofString p.display⟩ :=
    expansion_eq_of_head? env (hbytes ▸ htilde)
  rw [expand, hexpansion, hback, htidy]

/-- So what a path was expanded to is expanded no further, not even in another
environment. -/
theorem expand_display (env other : Environment) {raw : String}
    (htext : Utf8.IsText (env.expand raw).bytes)
    (htilde : (env.expand raw).bytes.head? ≠ some tilde) :
    other.expand (env.expand raw).display = env.expand raw :=
  expand_of_tidy other (Path.tidy_tidy _) htext htilde

end Environment

namespace Report

open Collector (key)

/-- No path of the batch begins with `~`. -/
def NoTilde (w : World) (raws : List String) : Prop :=
  ∀ raw ∈ raws, (w.resolve raw).bytes.head? ≠ some tilde

section Keys

variable {w : World} {ps : List String} (htext : AllText w ps)
  (htilde : NoTilde w ps)

include htext htilde

/-- The key of a path stands for that path. -/
theorem resolve_key {p : String} (hp : p ∈ ps) :
    w.resolve (key w p) = w.resolve p :=
  Environment.expand_display _ _ (htext p hp) (htilde p hp)

theorem samePaths_keys : SamePaths w ps (recordsOf w ps).keys := by
  intro path
  rw [List.mem_map, List.mem_map]
  constructor
  · rintro ⟨p, hp, rfl⟩
    exact ⟨key w p, mem_keys_recordsOf_iff.2 ⟨p, hp, rfl⟩,
      resolve_key htext htilde hp⟩
  · rintro ⟨k, hk, rfl⟩
    obtain ⟨p, hp, rfl⟩ := mem_keys_recordsOf_iff.1 hk
    exact ⟨p, hp, (resolve_key htext htilde hp).symm⟩

/-- Asked for as paths, the keys come under themselves, each once. -/
theorem keys_recordsOf_keys :
    (recordsOf w (recordsOf w ps).keys).keys = (recordsOf w ps).keys := by
  have hself : ∀ k ∈ (recordsOf w ps).keys, key w k = k := by
    intro k hk
    obtain ⟨p, hp, rfl⟩ := mem_keys_recordsOf_iff.1 hk
    exact congrArg Path.display (resolve_key htext htilde hp)
  rw [(gathers_recordsOf w _).keys_eq, List.map_map]
  show ((recordsOf w ps).keys.map (key w)).eraseDups = _
  rw [List.map_congr_left hself, List.map_id']
  exact Catalog.eraseDups_eq_self (recordsOf w ps).nodup

theorem recordsOf_keys :
    recordsOf w (recordsOf w ps).keys = recordsOf w ps := by
  refine Catalog.ext_get? (keys_recordsOf_keys htext htilde) fun k => ?_
  exact (get?_recordsOf_congr (samePaths_keys htext htilde) htext k).symm

end Keys

/-- A report of paths that are text and do not begin with `~` is replayed from its
own keys, record by record and octet by octet. For each of these paths stands
for itself: what is expanded to such a path is expanded no further. -/
theorem ofPaths_replay (w : World) {ps : List String} (hne : ps ≠ [])
    (htext : AllText w ps) (htilde : NoTilde w ps) :
    ∃ results : Catalog Record,
      ofPaths w ps = .success agentName results.size results
        ∧ ofPaths w results.keys = ofPaths w ps
        ∧ (ofPaths w results.keys).toJson = (ofPaths w ps).toJson
        ∧ ∀ (env other : Environment) (raw : String),
            Utf8.IsText (env.expand raw).bytes →
              (env.expand raw).bytes.head? ≠ some tilde →
                other.expand (env.expand raw).display = env.expand raw := by
  have hsame := samePaths_keys htext htilde
  have hreplay : ofPaths w (recordsOf w ps).keys = ofPaths w ps := by
    rw [ofPaths_of_ne_nil w (hsame.ne_nil hne), recordsOf_keys htext htilde,
      ofPaths_of_ne_nil w hne]
  refine ⟨recordsOf w ps, ofPaths_of_ne_nil w hne, hreplay, ?_, ?_⟩
  · rw [hreplay]
  · intro env other raw
    exact Environment.expand_display env other

/-- Four spellings of two paths, one of them below a home directory, and the two
keys that replay their report. -/
theorem ofPaths_replay_home :
    let w : World := ⟨⟨some (Utf8.ofString "/r"), none, Accounts.empty⟩,
      fun _ => .missing⟩
    let ps := ["~//a", "b", "/r/./a/", "./b"]
    (ps ≠ [] ∧ AllText w ps ∧ NoTilde w ps)
      ∧ (ofPaths w ["/r/a", "b"]).toJson = (ofPaths w ps).toJson := by
  intro w ps
  have hpaths : ps.map w.resolve
      = ["/r/a", "b", "/r/a", "b"].map fun s => ⟨Utf8.ofString s⟩ := by
    decide +kernel
  have hall : ∀ p ∈ ps, w.resolve p = ⟨Utf8.ofString "/r/a"⟩
      ∨ w.resolve p = ⟨Utf8.ofString "b"⟩ := by
    decide +kernel
  have hne : ps ≠ [] := List.cons_ne_nil _ _
  have htext : AllText w ps := by
    intro p hp
    rcases hall p hp with heq | heq <;> exact ⟨_, congrArg Path.bytes heq⟩
  have htilde : NoTilde w ps := by
    intro p hp
    rcases hall p hp with heq | heq <;> rw [heq] <;> decide
  obtain ⟨results, hreport, -, hjson, -⟩ := ofPaths_replay w hne htext htilde
  have hkeys : results.keys = ["/r/a", "b"] := by
    rw [ofPaths_of_ne_nil w hne] at hreport
    rw [← (Report.success.inj hreport).2.2]
    decide +kernel
  rw [hkeys] at hjson
  exact ⟨⟨hne, htext, htilde⟩, hjson⟩

-- `./~/x` is recorded under `~/x`, which stands for another path
example :
    let w : World := ⟨⟨some (Utf8.ofString "/r"), none, Accounts.empty⟩,
      fun _ => .missing⟩
    (recordsOf w ["./~/x"]).keys = ["~/x"]
      ∧ (recordsOf w ["~/x"]).keys = ["/r/x"] := by
  decide +kernel

end Report

end Dossier
