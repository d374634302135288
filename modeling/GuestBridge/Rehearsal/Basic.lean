import GuestBridge.Bridge.Interpreter
import GuestBridge.Rehearsal.Native
import GuestBridge.Slots

/-!
# Rehearsals

A rehearsal stands in for a guest. It has a table of objects by id. Functions and modules that
it defines stay in the table; every handle that it hands out gets a fresh id with a copy of
the object, which is forgotten when the host has dropped the handle and makes another request.
Whatever a rehearsal keeps, scripted values and the values kept by scripted functions, is
counted in the ledger like everything else that holds handles.
-/

namespace GuestBridge.Rehearsal

/-- An object of a rehearsal. -/
inductive Object where
  | function (f : Native)
  | module (name : String)
  deriving Inhabited

/-- The values that an object keeps alive. -/
def Object.keeps : Object → List Value
  | .function f => f.keeps
  | .module _ => []

/-- The state of a rehearsal. -/
structure Stage where
  /-- What the next attempts to start come to: a message refuses, nothing lets pass. -/
  refusals : List (Option String)
  /-- What the bodies of functions do. -/
  bodies : Slots Native
  /-- Expressions with scripted values. -/
  expressions : Slots Value
  /-- The modules that can be brought into scope, with their members. -/
  packages : Slots (Slots Value)
  /-- The objects of modules that were looked up by name. -/
  moduleObjects : Slots Handle
  /-- The functions defined by name. -/
  globals : Slots Handle
  /-- The objects by id. -/
  objects : List (Nat × Object)
  /-- The id given out last. -/
  lastId : Nat
  /-- The number of handles handed out. -/
  exported : Nat
  /-- The number of handles dropped by the host and forgotten. -/
  released : Nat
  /-- Everything evaluated, in order. -/
  evaluated : List String
  starts : Nat
  evals : Nat
  calls : Nat
  lookups : Nat
  conversions : Nat
  deriving Inhabited

/-- A stage on which nothing has been scripted. -/
def Stage.bare (refusals : List (Option String)) : Stage where
  refusals := refusals
  bodies := Slots.empty
  expressions := Slots.empty
  packages := Slots.empty
  moduleObjects := Slots.empty
  globals := Slots.empty
  objects := []
  lastId := 0
  exported := 0
  released := 0
  evaluated := []
  starts := 0
  evals := 0
  calls := 0
  lookups := 0
  conversions := 0

/-- The object with an id. -/
def Stage.object? (s : Stage) (id : Nat) : Option Object :=
  (s.objects.find? (·.1 = id)).map (·.2)

/-- The object behind a handle. -/
def Stage.object (s : Stage) (h : Handle) : Except Failure Object :=
  match s.object? h.id with
  | some o => .ok o
  | none => raise "KeyError" s!"no object #{h.id}"

/-- The handles handed out that the host has not dropped, as far as is known. -/
def Stage.live (s : Stage) : Nat :=
  s.exported - s.released

/-- A rehearsal with its ledger. -/
abbrev Scene : Type := World Stage

namespace Scene

/-- Change the stage alone. -/
def onStage (w : Scene) (f : Stage → Stage) : Scene :=
  { w with guest := f w.guest }

/-- Add an object under a fresh id. -/
def add (w : Scene) (o : Object) : Nat × Scene :=
  let id := w.guest.lastId + 1
  (id,
    { guest := { w.guest with lastId := id, objects := w.guest.objects ++ [(id, o)] }
      ledger := w.ledger.retainHandles (Value.handlesAll o.keeps) })

/-- Keep an object for good. -/
def store (w : Scene) (o : Object) (typeName : String) : Handle × Scene :=
  let (id, w) := w.add o
  (.permanent id typeName, w)

/-- Define a function by name. -/
def bindFunction (w : Scene) (name : String) (f : Native) : Scene :=
  let (h, w) := w.store (.function f) "Function"
  w.onStage fun s ↦ { s with globals := (s.globals.put name h).2 }

/-- The object of a module, which is made when it is looked up for the first time. -/
def moduleObject (w : Scene) (name : String) : Handle × Scene :=
  match w.guest.moduleObjects.find? name with
  | some h => (h, w)
  | none =>
    let (h, w) := w.store (.module name) "Module"
    (h, w.onStage fun s ↦ { s with moduleObjects := (s.moduleObjects.put name h).2 })

/-- Forget the object with an id, if there is one. -/
def forget (w : Scene) (id : Nat) : Scene :=
  match w.guest.object? id with
  | some o =>
    { guest :=
        { w.guest with
          objects := w.guest.objects.filter (·.1 ≠ id)
          released := w.guest.released + 1 }
      ledger := w.ledger.dropAll o.keeps }
  | none => w

/-- Begin a request: forget the objects whose handles the host has dropped. -/
def begin (w : Scene) : Scene :=
  let (ids, ledger) := w.ledger.take
  ids.foldl forget { w with ledger }

/-- Hand a handle out to the host: under a fresh id if it shows an object, and as it is
otherwise. -/
def handOut (w : Scene) (h : Handle) : Handle × Scene :=
  match w.guest.object? h.id with
  | some o =>
    let (id, w) := w.add o
    let (h, ledger) := w.ledger.own id h.typeName
    (h, { guest := { w.guest with exported := w.guest.exported + 1 }, ledger })
  | none => (h, { w with ledger := w.ledger.retainHandle h })

mutual

/-- Hand a value out to the host, with its handles in document order. -/
def handOutValue : Value → Scene → Value × Scene
  | .handle h, w =>
    let (h, w) := w.handOut h
    (.handle h, w)
  | .array items, w =>
    let (items, w) := handOutAll items w
    (.array items, w)
  | .tuple items, w =>
    let (items, w) := handOutAll items w
    (.tuple items, w)
  | v, w => (v, w)

/-- Hand a list of values out to the host. -/
def handOutAll : List Value → Scene → List Value × Scene
  | [], w => ([], w)
  | v :: vs, w =>
    let (v, w) := handOutValue v w
    let (vs, w) := handOutAll vs w
    (v :: vs, w)

end

/-- Answer with a value, which is handed out, or with a failure, which holds copies of its
values. -/
def reply (result : Except Failure Value) (w : Scene) : Except Failure Value × Scene :=
  match result with
  | .ok v =>
    let (v, w) := handOutValue v w
    (.ok v, w)
  | .error e => (.error e, { w with ledger := w.ledger.retainHandles (Value.handlesAll e.values) })

end Scene

end GuestBridge.Rehearsal
