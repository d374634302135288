import GuestBridge.Definition.Synthesis

/-!
# Names of generated functions

All generated functions live in one namespace of the guest, together with their helpers. The
registry knows every name that was issued or reserved, and issues names that clash with none
of them.
-/

namespace GuestBridge

/-- The names issued so far. -/
structure Names where
  /-- The next number to try for each base. -/
  counters : List (String × Nat)
  /-- The issued and reserved names and the names of their helpers. -/
  issued : List String
  deriving Repr, Inhabited

namespace Names

/-- No names yet. -/
def empty : Names := ⟨[], []⟩

/-- What every generated name starts with. -/
def stem : String := "_jlext_"

/-- The candidate with a number for a base; the first one shows no number. -/
def candidate (base : String) (n : Nat) : String :=
  if n = 0 then stem ++ base else stem ++ base ++ "_" ++ toString n

/-- Neither a name nor the name of its helper is taken. -/
def isFree (names : Names) (name : String) : Bool :=
  !names.issued.contains name && !names.issued.contains (Definition.mapName name)

/-- Take a name and the name of its helper. -/
def take (names : Names) (name : String) : Names :=
  { names with issued := name :: Definition.mapName name :: names.issued }

/-- The next number to try for a base. -/
def counter (names : Names) (base : String) : Nat :=
  ((names.counters.find? (·.1 = base)).map (·.2)).getD 0

/-- The first number from `n` on whose candidate is free. -/
def search (names : Names) (base : String) : (fuel : Nat) → (n : Nat) → Nat
  | 0, n => n
  | fuel + 1, n =>
    if names.isFree (candidate base n) then n else names.search base fuel (n + 1)

/-- Issue a new name for a base. Each issued name blocks at most two candidates, the one it
equals and the one whose helper it is, so the search ends. -/
def unique (names : Names) (base : String) : String × Names :=
  let n := names.search base (2 * names.issued.length + 1) (names.counter base)
  let name := candidate base n
  let others := names.counters.filter (·.1 ≠ base)
  (name, { names with counters := (base, n + 1) :: others }.take name)

/-- Reserve a name that the author chose. -/
def reserve (names : Names) (name : String) : Names :=
  names.take name

end Names

end GuestBridge
