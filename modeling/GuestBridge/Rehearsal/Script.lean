import GuestBridge.Rehearsal.Basic
import GuestBridge.Rehearsal.Forms

/-!
# Scripting a rehearsal

What a rehearsal does is scripted from outside: the bodies of functions, the values of
expressions, and the members of modules.
-/

namespace GuestBridge.Rehearsal

/-- A line of a script. -/
inductive Line where
  /-- What functions with a body do. -/
  | implement (body : String) (f : Native)
  /-- The value of an expression. -/
  | expression (code : String) (value : Value)
  /-- A member of a module. -/
  | member (module name : String) (value : Value)
  /-- A function in a module. -/
  | memberFunction (module name : String) (f : Native)
  deriving Inhabited

namespace Scene

/-- A body as it is compared: without outer blanks. -/
def bodyKey (body : String) : String :=
  String.ofList (Text.trim body.toList)

/-- Say what functions with a body do. -/
def implement (w : Scene) (body : String) (f : Native) : Scene :=
  let (old, bodies) := w.guest.bodies.put (bodyKey body) f
  { guest := { w.guest with bodies }
    ledger := (w.ledger.retainHandles (Value.handlesAll f.keeps)).dropAll
      (old.toList.flatMap Native.keeps) }

/-- Give an expression a value. -/
def setExpression (w : Scene) (code : String) (value : Value) : Scene :=
  let (old, expressions) := w.guest.expressions.put code value
  { guest := { w.guest with expressions }
    ledger := (w.ledger.retain value).dropAll old.toList }

/-- Make sure that a module can be brought into scope. -/
def addPackage (w : Scene) (module : String) : Scene :=
  if w.guest.packages.contains module then w
  else w.onStage fun s ↦ { s with packages := (s.packages.put module Slots.empty).2 }

/-- Put a member into a module. -/
def setMember (w : Scene) (module name : String) (value : Value) : Scene :=
  let members := (w.guest.packages.find? module).getD Slots.empty
  let (old, members) := members.put name value
  { guest := { w.guest with packages := (w.guest.packages.put module members).2 }
    ledger := (w.ledger.retain value).dropAll old.toList }

/-- Play a line of a script. -/
def play (w : Scene) : Line → Scene
  | .implement body f => w.implement body f
  | .expression code value => w.setExpression code value
  | .member module name value => w.setMember module name value
  | .memberFunction module name f =>
    let (h, w) := w.store (.function f) "Function"
    w.setMember module name (.handle h)

end Scene

/-- The number of evaluated codes that defined a function by a name. -/
def Stage.definitionsOf (s : Stage) (name : String) : Nat :=
  s.evaluated.countP fun code ↦ definedName? code = some name

end GuestBridge.Rehearsal
