/-
A catalog is decided by what was put into it: the first arrival of a key
gives its place, the last one its value.

`Gathers` says so of a catalog and a list of pairs. One insertion keeps the
relation when its pair is put behind the list (`Gathers.insert`), and with
it `ofList` gathers its list. Since keys and values leave nothing open
(`ext_get?`), a list is gathered by one catalog only, so `Gathers` may
stand for `ofList` wherever a catalog is to be described without the loop
that filled it.
-/
import Dossier.Catalog

namespace Dossier.Catalog

variable {α : Type}

-- =========================================================== one insertion

/-- An insertion appends its key unless the key is there. -/
theorem keys_insert (c : Catalog α) (key : String) (value : α) :
    (c.insert key value).keys
      = if key ∈ c.keys then c.keys else c.keys ++ [key] :=
  map_fst_put key value c.entries

/-- A look-up tries the first pair and goes on to the others. -/
theorem lookup_cons_ite (k : String) (entry : String × α)
    (rest : List (String × α)) :
    (entry :: rest).lookup k
      = if k = entry.1 then some entry.2 else rest.lookup k := by
  rw [List.lookup_cons]
  by_cases hk : k = entry.1
  · simp [hk]
  · rw [beq_false_of_ne hk, if_neg hk]

/-- A look-up among pairs that were made of something finds the first thing
with the key. -/
theorem lookup_map {β : Type} (pair : β → String × α) (k : String)
    (things : List β) :
    (things.map pair).lookup k
      = (things.find? fun x => k == (pair x).1).map fun x => (pair x).2 := by
  induction things with
  | nil => rfl
  | cons x things ih =>
      rw [List.map_cons, List.lookup_cons, List.find?_cons, ih]
      by_cases hk : k = (pair x).1
      · simp [hk]
      · rw [beq_false_of_ne hk]

/-- Under the key that was put stands the new value, under the others what
stood there. -/
theorem lookup_put (key : String) (value : α) (k : String)
    (entries : List (String × α)) :
    (put key value entries).lookup k
      = if k = key then some value else entries.lookup k := by
  induction entries with
  | nil => rw [put, lookup_cons_ite]
  | cons entry rest ih =>
      obtain ⟨k', v⟩ := entry
      by_cases hput : k' = key
      · subst hput
        rw [put, if_pos rfl, lookup_cons_ite, lookup_cons_ite]
        by_cases hk : k = k' <;> simp only [hk, if_true, if_false]
      · rw [put, if_neg hput, lookup_cons_ite, lookup_cons_ite, ih]
        by_cases hk : k = k'
        · subst hk
          simp only [if_true, if_neg hput]
        · simp only [if_neg hk]

/-- Under the key that was put stands the new value, under the others what
stood there. -/
theorem get?_insert (c : Catalog α) (key : String) (value : α) (k : String) :
    (c.insert key value).get? k = if k = key then some value else c.get? k :=
  lookup_put key value k c.entries

/-- An insertion moves no key. -/
theorem keys_prefix_insert (c : Catalog α) (key : String) (value : α) :
    c.keys <+: (c.insert key value).keys := by
  rw [keys_insert]
  split
  · exact List.prefix_rfl
  · exact List.prefix_append _ _

theorem size_eq_length_keys (c : Catalog α) : c.size = c.keys.length := by
  rw [size, keys, List.length_map]

-- ===================================================== keys decide, and values

/-- Distinct keys come with their own values: an entry is what is found under
its key. -/
theorem lookup_of_mem {entries : List (String × α)}
    (hnodup : (entries.map Prod.fst).Nodup) {key : String} {value : α}
    (hmem : (key, value) ∈ entries) : entries.lookup key = some value := by
  induction entries with
  | nil => cases hmem
  | cons entry rest ih =>
      obtain ⟨k, v⟩ := entry
      rw [List.map_cons, List.nodup_cons] at hnodup
      rw [lookup_cons_ite]
      rcases List.mem_cons.1 hmem with heq | hrest
      · obtain ⟨rfl, rfl⟩ := Prod.mk.inj heq
        exact if_pos rfl
      · have hne : key ≠ k := by
          intro h
          subst h
          exact hnodup.1 (List.mem_map.2 ⟨_, hrest, rfl⟩)
        rw [if_neg hne]
        exact ih hnodup.2 hrest

/-- The entries are the keys with what stands under them. -/
theorem entries_eq_map_keys (c : Catalog α) :
    c.entries.map (fun entry => (entry.1, some entry.2))
      = c.keys.map fun key => (key, c.get? key) := by
  rw [keys, List.map_map]
  refine List.map_congr_left fun entry hentry => ?_
  have hlookup : c.get? entry.1 = some entry.2 :=
    lookup_of_mem c.nodup hentry
  show (entry.1, some entry.2) = (entry.1, c.get? entry.1)
  rw [hlookup]

/-- Two catalogs with the same keys in the same order and the same value under
each of them are the same. -/
theorem ext_get? {a b : Catalog α} (hkeys : a.keys = b.keys)
    (hget : ∀ key, a.get? key = b.get? key) : a = b := by
  have hmap : a.entries.map (fun entry => (entry.1, some entry.2))
      = b.entries.map (fun entry => (entry.1, some entry.2)) := by
    rw [entries_eq_map_keys, entries_eq_map_keys, hkeys]
    exact List.map_congr_left fun key _ => by rw [hget]
  have hentries : a.entries = b.entries := by
    refine (List.map_inj_right ?_).1 hmap
    intro x y hxy
    simpa [Prod.ext_iff] using hxy
  cases a
  cases b
  simpa using hentries

-- ======================================================= the whole arrival

/-- The catalog holds what the pairs brought: each key in the place of its
first arrival and with the value of its last. -/
structure Gathers (c : Catalog α) (pairs : List (String × α)) : Prop where
  keys_eq : c.keys = (pairs.map Prod.fst).eraseDups
  get?_eq : ∀ key, c.get? key = pairs.reverse.lookup key

theorem gathers_empty : (empty : Catalog α).Gathers [] :=
  ⟨rfl, fun _ => rfl⟩

/-- One insertion carries the relation on to the list with its pair behind. -/
theorem Gathers.insert {c : Catalog α} {pairs : List (String × α)}
    (h : c.Gathers pairs) (key : String) (value : α) :
    (c.insert key value).Gathers (pairs ++ [(key, value)]) := by
  constructor
  · have hmem : key ∈ c.keys ↔ key ∈ pairs.map Prod.fst := by
      rw [h.keys_eq, List.mem_eraseDups]
    rw [keys_insert, List.map_append, List.eraseDups_append, ← h.keys_eq]
    by_cases hkey : key ∈ c.keys
    · rw [if_pos hkey]
      simp [List.removeAll, hmem.1 hkey]
    · rw [if_neg hkey]
      have hkey' : ∀ v, (key, v) ∉ pairs := by simpa using mt hmem.2 hkey
      simp [List.removeAll, hkey', List.eraseDups_cons]
  · intro k
    rw [get?_insert, List.reverse_append, List.reverse_singleton,
      List.singleton_append, lookup_cons_ite, h.get?_eq]

theorem eraseDups_eq_self {keys : List String} (h : keys.Nodup) :
    keys.eraseDups = keys := by
  induction keys with
  | nil => rfl
  | cons key keys ih =>
      rw [List.nodup_cons] at h
      have hfilter : keys.filter (fun k => !k == key) = keys := by
        refine List.filter_eq_self.2 fun k hk => ?_
        have hne : k ≠ key := by
          intro heq
          exact h.1 (heq ▸ hk)
        simp [hne]
      rw [List.eraseDups_cons, hfilter, ih h.2]

/-- A catalog gathers its own entries. -/
theorem gathers_entries (c : Catalog α) : c.Gathers c.entries := by
  refine ⟨(eraseDups_eq_self c.nodup).symm, ?_⟩
  intro key
  have hnodup : (c.entries.reverse.map Prod.fst).Nodup := by
    rw [List.map_reverse]
    exact List.pairwise_reverse.2 (c.nodup.imp fun h => h.symm)
  by_cases hkey : ∃ value, (key, value) ∈ c.entries
  · obtain ⟨value, hmem⟩ := hkey
    have hreverse : (key, value) ∈ c.entries.reverse := List.mem_reverse.2 hmem
    rw [get?, lookup_of_mem c.nodup hmem, lookup_of_mem hnodup hreverse]
  · have hnone : ∀ entry ∈ c.entries, (key != entry.1) = true := by
      intro entry hentry
      rw [bne_iff_ne]
      intro heq
      exact hkey ⟨entry.2, heq ▸ hentry⟩
    have hreverse : ∀ entry ∈ c.entries.reverse, (key != entry.1) = true :=
      fun entry hentry => hnone entry (List.mem_reverse.1 hentry)
    rw [get?, List.lookup_eq_none_iff.2 hnone,
      List.lookup_eq_none_iff.2 hreverse]

/-- A list of pairs decides the catalog that gathers it. -/
theorem Gathers.unique {a b : Catalog α} {pairs : List (String × α)}
    (ha : a.Gathers pairs) (hb : b.Gathers pairs) : a = b :=
  ext_get? (ha.keys_eq.trans hb.keys_eq.symm)
    fun key => (ha.get?_eq key).trans (hb.get?_eq key).symm

end Dossier.Catalog
