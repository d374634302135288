import GuestBridge.Value.Basic

/-!
# The ledger of owned handles

Every owned handle has an owner, which knows the handle's id and how many copies of it are
held. When the last copy is dropped the id joins the ids that wait for release; the next
request announces them to the guest, oldest first.
-/

namespace GuestBridge

/-- An owner: the id it stands for and the number of copies held. -/
structure Owner where
  id : Nat
  copies : Nat
  deriving DecidableEq, Repr, Inhabited

/-- The owners by number, and the ids that wait for release. -/
structure Ledger where
  owners : List Owner
  pending : List Nat
  deriving DecidableEq, Repr, Inhabited

namespace Ledger

/-- No owners and nothing to release. -/
def empty : Ledger := ⟨[], []⟩

/-- A new owner for an id, with its first handle. -/
def own (l : Ledger) (id : Nat) (typeName : String) : Handle × Ledger :=
  (⟨id, typeName, some l.owners.length⟩, { l with owners := l.owners ++ [⟨id, 1⟩] })

/-- Take note of another copy of a handle. -/
def retainHandle (l : Ledger) (h : Handle) : Ledger :=
  match h.owner with
  | none => l
  | some n => { l with owners := l.owners.modify n fun o ↦ { o with copies := o.copies + 1 } }

/-- Drop a copy of a handle; with the last one its id waits for release. -/
def dropHandle (l : Ledger) (h : Handle) : Ledger :=
  match h.owner.bind fun n ↦ (l.owners[n]?).map (n, ·) with
  | some (n, ⟨id, copies + 1⟩) =>
    { owners := l.owners.set n ⟨id, copies⟩
      pending := if copies = 0 then l.pending ++ [id] else l.pending }
  | _ => l

/-- Take note of copies of handles. -/
def retainHandles (l : Ledger) (hs : List Handle) : Ledger :=
  hs.foldl retainHandle l

/-- Drop copies of handles, in order. -/
def dropHandles (l : Ledger) (hs : List Handle) : Ledger :=
  hs.foldl dropHandle l

/-- Take note of another copy of a value. -/
def retain (l : Ledger) (v : Value) : Ledger :=
  l.retainHandles v.handles

/-- Drop a copy of a value: its handles in document order. -/
def drop (l : Ledger) (v : Value) : Ledger :=
  l.dropHandles v.handles

/-- Drop values, in order. -/
def dropAll (l : Ledger) (vs : List Value) : Ledger :=
  l.dropHandles (Value.handlesAll vs)

/-- Take all ids that wait for release, oldest first. -/
def take (l : Ledger) : List Nat × Ledger :=
  (l.pending, { l with pending := [] })

/-- Put ids back in front of those that came to wait in the meantime. -/
def restore (l : Ledger) (ids : List Nat) : Ledger :=
  { l with pending := ids ++ l.pending }

/-- The ledger's waiting ids as they are shown to developers. -/
def debugText (l : Ledger) : String :=
  s!"ReleaseQueue \x7b pending: {l.pending.length} \x7d"

/-- What was taken and is put back at once waits as before. -/
theorem restore_take (l : Ledger) : l.take.2.restore l.take.1 = l := by
  simp [take, restore]

end Ledger

end GuestBridge
