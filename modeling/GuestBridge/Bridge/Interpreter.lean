import GuestBridge.Failure
import GuestBridge.Value.Ledger
import GuestBridge.Wire.Request

/-!
# Interpreters

An interpreter runs guest code. All that a bridge knows of it is how it starts and how it
answers requests. The states that it goes through are a parameter, and beside them stands the
ledger of the handles that are held on the host's side, because every request announces
handles that were dropped and every answer may bring new ones.
-/

namespace GuestBridge

/-- The state of a guest and the ledger of the handles held by its host. -/
structure World (σ : Type) where
  guest : σ
  ledger : Ledger
  deriving Repr, Inhabited

namespace World

variable {σ : Type}

/-- Take note of another copy of a value. -/
def retain (w : World σ) (v : Value) : World σ :=
  { w with ledger := w.ledger.retain v }

/-- Drop a copy of a value. -/
def drop (w : World σ) (v : Value) : World σ :=
  { w with ledger := w.ledger.drop v }

/-- Drop values, in order. -/
def dropAll (w : World σ) (vs : List Value) : World σ :=
  { w with ledger := w.ledger.dropAll vs }

end World

/-- How an interpreter behaves. -/
structure Interpreter (σ : Type) where
  /-- Start the guest; a start that failed may be tried again. -/
  start : σ → Except Failure Unit × σ
  /-- Answer a request. Whoever asks owns one copy of the answer, or of what the failure
  holds. -/
  answer : Request → World σ → Except Failure Value × World σ

end GuestBridge
