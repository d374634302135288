/-!
# Recency caches

A cache of bounded size that forgets what was not touched for the longest time. A table holds
the values, and a queue the keys in order of their last touch, the most recent one last. What
a cache lets go is given back, so that its owner can be told.
-/

namespace GuestBridge

/-- A cache with at most `capacity` entries. -/
structure Recency (κ ν : Type) where
  capacity : Nat
  /-- The values by key. -/
  table : List (κ × ν)
  /-- The keys, the one touched last at the end. -/
  order : List κ
  deriving Repr, Inhabited

namespace Recency

variable {κ ν : Type} [DecidableEq κ]

/-- An empty cache. -/
def empty (capacity : Nat) : Recency κ ν :=
  ⟨capacity, [], []⟩

/-- The number of entries. -/
def size (r : Recency κ ν) : Nat :=
  r.table.length

/-- Whether the cache has no entries. -/
def isEmpty (r : Recency κ ν) : Bool :=
  r.table.isEmpty

/-- The value of a key, without touching it. -/
def find? (r : Recency κ ν) (key : κ) : Option ν :=
  (r.table.find? (·.1 = key)).map (·.2)

/-- Whether a key has an entry. -/
def contains (r : Recency κ ν) (key : κ) : Bool :=
  r.table.any (·.1 = key)

/-- The entries of other keys. -/
def others (r : Recency κ ν) (key : κ) : List (κ × ν) :=
  r.table.filter (·.1 ≠ key)

/-- Move a key to the end of the queue. -/
def touch (r : Recency κ ν) (key : κ) : Recency κ ν :=
  if key ∈ r.order then { r with order := r.order.erase key ++ [key] } else r

/-- The value of a key, which is touched if it has one. -/
def get (r : Recency κ ν) (key : κ) : Option ν × Recency κ ν :=
  match r.find? key with
  | some v => (some v, r.touch key)
  | none => (none, r)

/-- Forget the keys at the front of the queue as long as there are too many entries. The
answer starts with the values that the cache lets go. -/
def evict (capacity : Nat) : (table : List (κ × ν)) → (order : List κ) → List ν × Recency κ ν
  | table, [] => ([], ⟨capacity, table, []⟩)
  | table, oldest :: order =>
    if capacity < table.length then
      let (gone, r) := evict capacity (table.filter (·.1 ≠ oldest)) order
      (((table.find? (·.1 = oldest)).map (·.2)).toList ++ gone, r)
    else ([], ⟨capacity, table, oldest :: order⟩)

/-- Give a key a value and touch it. The answer starts with the values that the cache lets
go: the new value if nothing fits, the old value of the key if it had one, or the values of
the keys that were not touched for the longest time. -/
def insert (r : Recency κ ν) (key : κ) (value : ν) : List ν × Recency κ ν :=
  if r.capacity = 0 then ([value], r)
  else
    let table := r.others key ++ [(key, value)]
    match r.find? key with
    | some old => ([old], { r with table }.touch key)
    | none => evict r.capacity table (r.order ++ [key])

/-- Forget all entries. -/
def clear (r : Recency κ ν) : Recency κ ν :=
  { r with table := [], order := [] }

end Recency

end GuestBridge
