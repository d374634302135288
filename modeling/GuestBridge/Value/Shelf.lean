import GuestBridge.Slots
import GuestBridge.Value.Ledger

/-!
# Shelves of handles

Named slots for handles together with the ledger that counts the copies in them. Every
command that can be given to a shelf is a constructor of `Shelf.Command`, so that a history of
a shelf is a list of commands.
-/

namespace GuestBridge

/-- Slots for handles and the ledger of their copies. -/
structure Shelf where
  slots : Slots Handle
  ledger : Ledger
  deriving Repr, Inhabited

namespace Shelf

/-- What can be done with a shelf. -/
inductive Command where
  /-- Put a new owned handle into a slot. -/
  | own (slot : String) (id : Nat) (typeName : String)
  /-- Put a handle that is never released into a slot. -/
  | permanent (slot : String) (id : Nat) (typeName : String)
  /-- Put a copy of the handle in another slot into a slot. -/
  | copy (slot source : String)
  /-- Empty a slot. -/
  | drop (slot : String)
  /-- Compare the handles in two slots. -/
  | same (a b : String)
  /-- Take the ids that wait for release. -/
  | take
  /-- Put ids back. -/
  | restore (ids : List Nat)
  deriving Repr, Inhabited

/-- What a command answers. -/
inductive Answer where
  | nothing
  | handle (h : Handle)
  | flag (b : Bool)
  | ids (ids : List Nat)
  deriving Repr, Inhabited

/-- A shelf without handles. -/
def empty : Shelf :=
  ⟨Slots.empty, Ledger.empty⟩

/-- Put a handle into a slot and drop the one that it held. -/
def put (s : Shelf) (slot : String) (h : Handle) : Shelf :=
  let (old, slots) := s.slots.put slot h
  ⟨slots, s.ledger.dropHandles old.toList⟩

/-- Whether the handles in two slots are the same. -/
def sameIn (s : Shelf) (a b : String) : Bool :=
  match s.slots.find? a, s.slots.find? b with
  | some x, some y => x.same y
  | _, _ => false

/-- Carry out a command. -/
def step (s : Shelf) : Command → Answer × Shelf
  | .own slot id typeName =>
    let (h, ledger) := s.ledger.own id typeName
    (.handle h, { s with ledger }.put slot h)
  | .permanent slot id typeName =>
    let h := Handle.permanent id typeName
    (.handle h, s.put slot h)
  | .copy slot source =>
    match s.slots.find? source with
    | some h => (.nothing, { s with ledger := s.ledger.retainHandle h }.put slot h)
    | none => (.nothing, s)
  | .drop slot =>
    let (old, slots) := s.slots.remove slot
    (.flag old.isSome, ⟨slots, s.ledger.dropHandles old.toList⟩)
  | .same a b => (.flag (s.sameIn a b), s)
  | .take =>
    let (ids, ledger) := s.ledger.take
    (.ids ids, { s with ledger })
  | .restore ids => (.nothing, { s with ledger := s.ledger.restore ids })

/-- Carry out commands one after the other. -/
def run (s : Shelf) (commands : List Command) : Shelf :=
  commands.foldl (fun s c ↦ (s.step c).2) s

end Shelf

end GuestBridge
