/-!
# Sorted maps — association lists kept in key order

A `SortedMap` is a list of key–value pairs whose keys strictly increase under the key type's
`Ord` instance.  Every map of this library that is shown in key order (functions of a program
by name, counts by token kind, context fields of a log event, files of a summary) is one.
`insert` replaces the value of an equal key in place, so iteration order is always key order,
never insertion order.
-/

namespace COutline

/-- An association list whose keys are kept in increasing `compare` order. -/
structure SortedMap (κ : Type) (α : Type) where
  /-- The entries, in increasing key order. -/
  entries : List (κ × α)
deriving Repr, Inhabited

namespace SortedMap

variable {κ α : Type} [Ord κ]

/-- The map with no entries. -/
def empty : SortedMap κ α := ⟨[]⟩

/-- Insert into an ordered entry list: an equal key has its value replaced in place. -/
def insertEntry (k : κ) (v : α) : List (κ × α) → List (κ × α)
  | [] => [(k, v)]
  | (k', v') :: rest =>
    match compare k k' with
    | .lt => (k, v) :: (k', v') :: rest
    | .eq => (k, v) :: rest
    | .gt => (k', v') :: insertEntry k v rest

/-- Add or replace the value of `k`. -/
def insert (m : SortedMap κ α) (k : κ) (v : α) : SortedMap κ α :=
  ⟨insertEntry k v m.entries⟩

/-- Look up the entry whose key compares equal to `k`. -/
def entryOf? (k : κ) : List (κ × α) → Option (κ × α)
  | [] => none
  | (k', v') :: rest => if compare k k' = .eq then some (k', v') else entryOf? k rest

/-- The value stored under `k`, if any. -/
def get? (m : SortedMap κ α) (k : κ) : Option α :=
  (entryOf? k m.entries).map Prod.snd

/-- Whether some key compares equal to `k`. -/
def contains (m : SortedMap κ α) (k : κ) : Bool :=
  (m.get? k).isSome

/-- Change the value under `k` by `f`, starting from `d` when `k` is absent. -/
def modify (m : SortedMap κ α) (k : κ) (d : α) (f : α → α) : SortedMap κ α :=
  m.insert k (f ((m.get? k).getD d))

/-- The keys, in order. -/
def keys (m : SortedMap κ α) : List κ := m.entries.map Prod.fst

/-- The values, in key order. -/
def values (m : SortedMap κ α) : List α := m.entries.map Prod.snd

/-- The number of entries. -/
def size (m : SortedMap κ α) : Nat := m.entries.length

/-- Whether the map has no entries. -/
def isEmpty (m : SortedMap κ α) : Bool := m.entries.isEmpty

/-- Build a map from pairs; a later pair replaces an earlier one with an equal key. -/
def ofList (xs : List (κ × α)) : SortedMap κ α :=
  xs.foldl (fun m p => m.insert p.1 p.2) empty

end SortedMap

end COutline
