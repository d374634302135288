import GuestBridge.Rehearsal.Script
import GuestBridge.Text.Margin

/-!
# The interpreter of a rehearsal

How a rehearsal starts and answers requests. Every request first forgets the objects that the
host has dropped; every answer is handed out under fresh ids.
-/

namespace GuestBridge.Rehearsal

namespace Scene

/-- Define a function whose body has been scripted. -/
def define (w : Scene) (name body : String) : Except Failure Value × Scene :=
  match w.guest.bodies.find? (bodyKey (Text.dedent body)) with
  | some f => (.ok .nothing, w.bindFunction name f)
  | none => (raise "ErrorException" s!"no stub implementation for body of `{name}`", w)

/-- The function defined by a name. -/
def global (w : Scene) (name : String) : Except Failure Native :=
  match w.guest.globals.find? name with
  | some h =>
    match w.guest.object h with
    | .ok (.function f) => .ok f
    | .ok (.module _) => raise "MethodError" "not a function"
    | .error e => .error e
  | none => raise "UndefVarError" s!"`{name}` not defined"

/-- Define the helper of a function. -/
def defineBatch (w : Scene) (name target : String) : Except Failure Value × Scene :=
  match w.global target with
  | .ok f => (.ok .nothing, w.bindFunction name f.batch)
  | .error e => (.error e, w)

/-- What a bare name stands for: a function or a module. -/
def lookUp (w : Scene) (name : String) : Except Failure Value × Scene :=
  match w.guest.globals.find? name with
  | some h => (.ok (.handle h), w)
  | none =>
    if w.guest.packages.contains name then
      let (h, w) := w.moduleObject name
      (.ok (.handle h), w)
    else (raise "UndefVarError" s!"`{name}` not defined", w)

/-- The value of a code that is not scripted as an expression. -/
def run (w : Scene) (code : String) : Except Failure Value × Scene :=
  match Form.of code.toList with
  | .using module =>
    if w.guest.packages.contains module then (.ok .nothing, w)
    else (raise "ArgumentError" s!"Package {module} not found in current path.", w)
  | .define name body => w.define name body
  | .defineBatch name target => w.defineBatch name target
  | .identifier => w.lookUp code
  | .other => (raise "UndefVarError" s!"`{code}` not defined", w)

/-- The value of a code: the scripted one, if there is one for exactly this text. -/
def outcome (w : Scene) (code : String) : Except Failure Value × Scene :=
  match w.guest.expressions.find? code with
  | some v => (.ok v, w)
  | none => w.run (bodyKey code)

/-- Begin to evaluate guest code, up to the value that is to be handed out. -/
def eval (w : Scene) (code : String) : Except Failure Value × Scene :=
  let w := w.begin.onStage fun s ↦
    { s with evals := s.evals + 1, evaluated := s.evaluated ++ [code] }
  w.outcome code

/-- Begin to call an object, up to the value that is to be handed out. -/
def call (w : Scene) (callee : Handle) (args : List Value) : Except Failure Value × Scene :=
  let w := w.begin.onStage fun s ↦ { s with calls := s.calls + 1 }
  match w.guest.object callee with
  | .error e => (.error e, w)
  | .ok (.function f) => (f.apply args, w)
  | .ok (.module name) =>
    (raise "MethodError" s!"objects of type Module are not callable ({name})", w)

/-- Begin to look up a property of an object, up to the value that is to be handed out. -/
def getAttr (w : Scene) (target : Handle) (name : String) : Except Failure Value × Scene :=
  let w := w.begin.onStage fun s ↦ { s with lookups := s.lookups + 1 }
  match w.guest.object target with
  | .error e => (.error e, w)
  | .ok (.module module) =>
    match (w.guest.packages.find? module).bind (·.find? name) with
    | some v => (.ok v, w)
    | none => (raise "UndefVarError" s!"`{name}` not defined in `{module}`", w)
  | .ok (.function _) => (raise "ErrorException" s!"type Function has no field {name}", w)

/-- A value as a value of a type of the guest. -/
def converted (type : String) (value : Value) : Except Failure Value :=
  match value with
  | .int n => .ok (if type = "Float64" then .float (Binary64.ofInt n.toInt) else .int n)
  | .float x =>
    if type ≠ "Int64" then .ok (.float x)
    else if x.isIntegral then .ok (.int x.toInt64)
    else raise "InexactError" s!"Int64({x.text .plain})"
  | v => .ok v

/-- Begin to convert a value, up to the value that is to be handed out. -/
def convert (w : Scene) (type : String) (value : Value) : Except Failure Value × Scene :=
  let w := w.begin.onStage fun s ↦ { s with conversions := s.conversions + 1 }
  (converted type value, w)

/-- Create a module without members, unless there is one of that name; its object is to be
handed out. -/
def newModule (w : Scene) (name : String) : Except Failure Value × Scene :=
  let w := w.begin.addPackage name
  let (h, w) := w.store (.module name) "Module"
  (.ok (.handle h), w)

/-- What a request comes to before it is handed out. -/
def respond : Request → Scene → Except Failure Value × Scene
  | .eval code, w => w.eval code
  | .call callee args, w => w.call callee args
  | .getAttr target name, w => w.getAttr target name
  | .convert type value, w => w.convert type value
  | .newModule name, w => w.newModule name

/-- Answer a request: what it comes to is handed out. -/
def answer (r : Request) (w : Scene) : Except Failure Value × Scene :=
  let (result, w) := w.respond r
  w.reply result

end Scene

/-- Start a rehearsal, unless the next attempt is to be refused. -/
def Stage.start (s : Stage) : Except Failure Unit × Stage :=
  match s.refusals with
  | some message :: rest => (.error (.start (.refused message)), { s with refusals := rest })
  | none :: rest => (.ok (), { s with refusals := rest, starts := s.starts + 1 })
  | [] => (.ok (), { s with starts := s.starts + 1 })

/-- A rehearsal as an interpreter. -/
def interpreter : Interpreter Stage :=
  ⟨Stage.start, Scene.answer⟩

end GuestBridge.Rehearsal
