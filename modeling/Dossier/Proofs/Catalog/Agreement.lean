/-
Two catalogs agree iff every key is looked up alike in both.

`agrees` looks in one direction only: each entry of the first catalog in the
second. Keys are distinct, so as many of them on both sides leave no room
for a key that only the second has; that is the counting step, and the rest
is reading a look-up as an entry.

A catalog that gathers a list has the keys of the list.
-/
import Mathlib.Data.List.Nodup
import Mathlib.Data.List.Perm.Subperm
import Dossier.Proofs.Catalog.Arrival

namespace Dossier.Catalog

variable {α : Type}

-- ================================================================= look-ups

theorem get?_eq_some_iff {c : Catalog α} {key : String} {value : α} :
    c.get? key = some value ↔ (key, value) ∈ c.entries := by
  constructor
  · intro h
    obtain ⟨before, behind, hentries, -⟩ := List.lookup_eq_some_iff.1 h
    rw [hentries]
    exact List.mem_append_right _ List.mem_cons_self
  · exact lookup_of_mem c.nodup

theorem mem_keys_iff {c : Catalog α} {key : String} :
    key ∈ c.keys ↔ ∃ value, c.get? key = some value := by
  constructor
  · intro h
    obtain ⟨⟨k, value⟩, hentry, rfl⟩ := List.mem_map.1 h
    exact ⟨value, get?_eq_some_iff.2 hentry⟩
  · rintro ⟨value, h⟩
    exact List.mem_map.2 ⟨(key, value), get?_eq_some_iff.1 h, rfl⟩

-- ================================================================ agreement

theorem agrees_iff [DecidableEq α] {a b : Catalog α} :
    a.agrees b = true ↔ a.size = b.size
      ∧ ∀ key value, a.get? key = some value → b.get? key = some value := by
  unfold agrees
  rw [Bool.and_eq_true, beq_iff_eq, List.all_eq_true]
  refine and_congr_right fun _ => ?_
  constructor
  · intro h key value hget
    exact beq_iff_eq.1 (h (key, value) (get?_eq_some_iff.1 hget))
  · intro h entry hentry
    exact beq_iff_eq.2 (h entry.1 entry.2 (get?_eq_some_iff.2 hentry))

/-- Catalogs with as many keys, of which the second has all that the first has,
have the same keys. -/
theorem mem_keys_of_subset {a b : Catalog α} (hsize : a.size = b.size)
    (hsubset : a.keys ⊆ b.keys) {key : String} (h : key ∈ b.keys) :
    key ∈ a.keys := by
  rw [size_eq_length_keys, size_eq_length_keys] at hsize
  have hperm : a.keys.Perm b.keys :=
    (List.subperm_of_subset a.nodup hsubset).perm_of_length_le
      (Nat.le_of_eq hsize.symm)
  exact hperm.mem_iff.2 h

theorem agrees_iff_get?_eq [DecidableEq α] {a b : Catalog α} :
    a.agrees b = true ↔ ∀ key, a.get? key = b.get? key := by
  rw [agrees_iff]
  constructor
  · rintro ⟨hsize, hget⟩ key
    cases ha : a.get? key with
    | some value => exact (hget key value ha).symm
    | none =>
        cases hb : b.get? key with
        | none => rfl
        | some value =>
            have hsubset : a.keys ⊆ b.keys := by
              intro k hk
              obtain ⟨v, hv⟩ := mem_keys_iff.1 hk
              exact mem_keys_iff.2 ⟨v, hget k v hv⟩
            obtain ⟨v, hv⟩ := mem_keys_iff.1
              (mem_keys_of_subset hsize hsubset (mem_keys_iff.2 ⟨value, hb⟩))
            rw [ha] at hv
            cases hv
  · intro hget
    have hmem : ∀ key, key ∈ a.keys ↔ key ∈ b.keys := by
      intro key
      rw [mem_keys_iff, mem_keys_iff, hget]
    have hperm : a.keys.Perm b.keys :=
      (List.perm_ext_iff_of_nodup a.nodup b.nodup).2 hmem
    refine ⟨?_, fun key value h => (hget key).symm.trans h⟩
    rw [size_eq_length_keys, size_eq_length_keys]
    exact hperm.length_eq

/-- Catalogs agree iff the entries of one are those of the other, in whatever
order. -/
theorem agrees_iff_perm [DecidableEq α] {a b : Catalog α} :
    a.agrees b = true ↔ a.entries.Perm b.entries := by
  have hnodup : ∀ c : Catalog α, c.entries.Nodup :=
    fun c => List.Nodup.of_map Prod.fst c.nodup
  rw [agrees_iff_get?_eq, List.perm_ext_iff_of_nodup (hnodup a) (hnodup b)]
  constructor
  · rintro h ⟨key, value⟩
    rw [← get?_eq_some_iff, ← get?_eq_some_iff, h]
  · intro h key
    refine Option.ext fun value => ?_
    rw [get?_eq_some_iff, get?_eq_some_iff]
    exact h (key, value)

-- ========================================================= what was gathered

theorem Gathers.mem_keys_iff {c : Catalog α} {pairs : List (String × α)}
    (h : c.Gathers pairs) {key : String} :
    key ∈ c.keys ↔ key ∈ pairs.map Prod.fst := by
  rw [h.keys_eq, List.mem_eraseDups]

end Dossier.Catalog
