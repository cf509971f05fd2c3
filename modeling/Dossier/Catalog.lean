/-
A catalog keeps one value per key, in the order in which the keys came in.

Putting a value under a key that is there replaces the value and leaves the
key where it stands; a new key goes to the end. That no key occurs twice is
part of the type. Two catalogs that hold the same entries in another order
are told apart by `=` and not by `agrees`.
-/
namespace Dossier

/-- Values under distinct keys, in the order of the keys' arrival. -/
structure Catalog (α : Type) where
  entries : List (String × α)
  nodup : (entries.map Prod.fst).Nodup

namespace Catalog

variable {α : Type}

instance [DecidableEq α] : DecidableEq (Catalog α) := fun a b =>
  decidable_of_iff (a.entries = b.entries) (by cases a; cases b; simp)

/-- The catalog without an entry. -/
def empty : Catalog α := ⟨[], List.nodup_nil⟩

/-- The keys in the order of their arrival. -/
def keys (c : Catalog α) : List String := c.entries.map Prod.fst

/-- The number of keys. -/
def size (c : Catalog α) : Nat := c.entries.length

/-- There is no entry. -/
def isEmpty (c : Catalog α) : Bool := c.entries.isEmpty

/-- The value under a key. -/
def get? (c : Catalog α) (key : String) : Option α := c.entries.lookup key

/-- The key has a value. -/
def contains (c : Catalog α) (key : String) : Bool := c.keys.contains key

-- =========================================================== insertion

/-- Puts a value under a key: in the key's place if it has one, else at the end. -/
def put (key : String) (value : α) : List (String × α) → List (String × α)
  | [] => [(key, value)]
  | (k, v) :: rest => if k = key then (k, value) :: rest else (k, v) :: put key value rest

/-- A value that is put under a key adds the key at the end or no key at all. -/
theorem map_fst_put (key : String) (value : α) (entries : List (String × α)) :
    (put key value entries).map Prod.fst
      = if key ∈ entries.map Prod.fst then entries.map Prod.fst
        else entries.map Prod.fst ++ [key] := by
  induction entries with
  | nil => simp [put]
  | cons entry rest ih =>
      obtain ⟨k, v⟩ := entry
      by_cases hk : k = key
      · simp [put, hk]
      · have hk' : ¬ key = k := fun h => hk h.symm
        simp only [put, hk, if_false, List.map_cons, ih, List.mem_cons, hk', false_or]
        split <;> simp

/-- Keys stay distinct. -/
theorem nodup_put (key : String) (value : α) {entries : List (String × α)}
    (h : (entries.map Prod.fst).Nodup) : ((put key value entries).map Prod.fst).Nodup := by
  rw [map_fst_put]
  split
  · exact h
  · next hkey =>
      rw [List.nodup_append]
      refine ⟨h, by simp, ?_⟩
      intro a ha b hb hab
      rw [List.mem_singleton] at hb
      exact hkey (hb ▸ hab ▸ ha)

/-- Puts a value under a key: in the key's place if it has one, else at the end. -/
def insert (c : Catalog α) (key : String) (value : α) : Catalog α :=
  ⟨put key value c.entries, nodup_put key value c.nodup⟩

/-- The catalog of the pairs, put in one after the other. -/
def ofList (pairs : List (String × α)) : Catalog α :=
  pairs.foldl (fun c pair => c.insert pair.1 pair.2) empty

-- ========================================================== agreement

/-- The catalogs hold the same entries, in whatever order: as many keys, and
under each key of the first the same value in the second. -/
def agrees [DecidableEq α] (a b : Catalog α) : Bool :=
  a.size == b.size && a.entries.all fun entry => b.get? entry.1 == some entry.2

end Catalog

end Dossier
