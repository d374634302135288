/-!
# Named slots

A table of named places, each of which holds at most one thing. What a slot held before is
given back when something else is put there or when the slot is emptied, so that its owner
can be told.
-/

namespace GuestBridge

/-- The occupied slots by name, each name at most once. -/
structure Slots (α : Type) where
  entries : List (String × α)
  deriving Repr, Inhabited

namespace Slots

variable {α : Type}

/-- No slot is occupied. -/
def empty : Slots α := ⟨[]⟩

/-- What a slot holds. -/
def find? (s : Slots α) (slot : String) : Option α :=
  (s.entries.find? (·.1 = slot)).map (·.2)

/-- Whether a slot is occupied. -/
def contains (s : Slots α) (slot : String) : Bool :=
  s.entries.any (·.1 = slot)

/-- The other slots. -/
def others (s : Slots α) (slot : String) : List (String × α) :=
  s.entries.filter (·.1 ≠ slot)

/-- Put something into a slot; the answer starts with what the slot held before. -/
def put (s : Slots α) (slot : String) (x : α) : Option α × Slots α :=
  (s.find? slot, ⟨s.others slot ++ [(slot, x)]⟩)

/-- Empty a slot; the answer starts with what it held. -/
def remove (s : Slots α) (slot : String) : Option α × Slots α :=
  (s.find? slot, ⟨s.others slot⟩)

/-- Everything the slots hold. -/
def toList (s : Slots α) : List α :=
  s.entries.map (·.2)

/-- What another slot holds does not depend on a slot's entries. -/
private theorem find?_others {slot other : String} (h : other ≠ slot) (s : Slots α) :
    (s.others slot).find? (·.1 = other) = s.entries.find? (·.1 = other) := by
  rw [others, List.find?_filter]
  congr 1
  funext e
  by_cases he : e.1 = other <;> simp [he, h]

/-- Nothing is found in a slot when its entries are left out. -/
private theorem find?_others_self (s : Slots α) (slot : String) :
    (s.others slot).find? (·.1 = slot) = none := by
  simp [others, List.find?_eq_none]

/-- Unoccupied slots hold nothing. -/
@[simp] theorem find?_empty (slot : String) : (empty : Slots α).find? slot = none := rfl

/-- A slot holds what was put into it, and the others what they held before. -/
theorem find?_put (s : Slots α) (slot other : String) (x : α) :
    (s.put slot x).2.find? other = if other = slot then some x else s.find? other := by
  by_cases h : other = slot
  · rw [h, find?, put, List.find?_append, find?_others_self]
    simp
  · rw [find?, put, List.find?_append, find?_others h, if_neg h, find?]
    simp [Ne.symm h]

/-- An emptied slot holds nothing, and the others hold what they held before. -/
theorem find?_remove (s : Slots α) (slot other : String) :
    (s.remove slot).2.find? other = if other = slot then none else s.find? other := by
  by_cases h : other = slot
  · rw [h, find?, remove, find?_others_self]
    simp
  · rw [find?, remove, find?_others h, if_neg h, find?]

end Slots

end GuestBridge
