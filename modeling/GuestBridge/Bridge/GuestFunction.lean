import GuestBridge.Bridge.Basic
import GuestBridge.Names

/-!
# Guest functions

A guest function is made from guest code that was found in a host function. Nothing is sent
to the guest before it is called for the first time: then the definition and its helper are
evaluated and both names looked up, and from then on the two handles are used. If one of
these steps fails, the function stays as it was.
-/

namespace GuestBridge

/-- The handles of a defined function and of its helper. -/
structure Compiled where
  function : Value
  batch : Value
  deriving Repr, Inhabited

/-- A function of the guest. -/
structure GuestFunction where
  /-- The name of the host function that carries the code. -/
  hostName : String
  /-- The name in the guest. -/
  guestName : String
  params : List String
  doc : Option String
  /-- The complete definition. -/
  source : String
  /-- What was obtained from the guest, once the definition has been evaluated. -/
  compiled : Option Compiled
  deriving Repr, Inhabited

/-- What a guest function is made from. -/
structure FunctionParts where
  hostName : String
  params : List String
  /-- Guest code, statements or a complete definition. -/
  source : String
  /-- The name to define, unless one is generated. -/
  name : Option String
  doc : Option String
  deriving Repr, Inhabited

namespace GuestFunction

variable {σ : Type}

/-- The name asked for, or a generated one. -/
def requestedName (names : Names) (parts : FunctionParts) : String × Names :=
  match parts.name with
  | some name => (name, names)
  | none => names.unique parts.hostName

/-- A guest function from its parts; the name that it defines is reserved. -/
def ofParts (names : Names) (parts : FunctionParts) : GuestFunction × Names :=
  let (requested, names) := requestedName names parts
  let d := Definition.build requested parts.params parts.source
  (⟨parts.hostName, d.name, parts.params, parts.doc, d.source, none⟩, names.reserve d.name)

/-- The parts of a guest function that a host function carries. -/
def partsOfHost (host : Host.HostFunction) (name : Option String) :
    Except Host.ExtractionError FunctionParts :=
  host.source.map fun source ↦ ⟨host.name, host.params, source, name, host.doc⟩

/-- The parts of a guest function that the text of a host function carries. -/
def partsOfText (text : String) (name : Option String) :
    Except Host.ExtractionError FunctionParts :=
  (Host.HostFunction.parse text).bind fun host ↦ partsOfHost host name

/-- The helper's definition. -/
def helper (f : GuestFunction) : Definition :=
  Definition.buildMap f.guestName

/-- Evaluate the helper's definition and look it up. -/
def compileBatch (i : Interpreter σ) (f : GuestFunction) (b : Bridge σ) : Outcome σ Value :=
  (b.exec i f.helper.source).andThen fun _ b ↦ b.eval i f.helper.name

/-- Evaluate both definitions and look them up. If the helper fails, the function's handle is
dropped. -/
def compile (i : Interpreter σ) (f : GuestFunction) (b : Bridge σ) : Outcome σ Compiled :=
  (b.exec i f.source).andThen fun _ b ↦
    (b.eval i f.guestName).andThen fun function b ↦
      match f.compileBatch i b with
      | (.ok batch, b) => (.ok ⟨function, batch⟩, b)
      | (.error e, b) => (.error e, b.drop function)

/-- Run an operation with the handles of a function, which is compiled if it was not. -/
def withCompiled {α : Type} (i : Interpreter σ) (f : GuestFunction) (b : Bridge σ)
    (use : Compiled → Bridge σ → Outcome σ α) : Except Failure α × GuestFunction × Bridge σ :=
  match f.compiled with
  | some c =>
    let (result, b) := use c b
    (result, f, b)
  | none =>
    match f.compile i b with
    | (.ok c, b) =>
      let (result, b) := use c b
      (result, { f with compiled := some c }, b)
    | (.error e, b) => (.error e, f, b)

/-- Call a function. -/
def call (i : Interpreter σ) (args : List Value) (f : GuestFunction) (b : Bridge σ) :
    Except Failure Value × GuestFunction × Bridge σ :=
  f.withCompiled i b fun c b ↦ b.callValue i c.function args

/-- Apply the helper to argument lists, and take its answer apart. -/
def mapCompiled (i : Interpreter σ) (batch : List (List Value)) (c : Compiled) (b : Bridge σ) :
    Outcome σ (List Value) :=
  (b.callValue i c.batch [.array (batch.map .tuple)]).andThen fun v b ↦
    match v with
    | .array results => (.ok results, b)
    | other => (.error (.conversion "array" other.kind), b.drop other)

/-- Call a function with each of the argument lists, in one request. -/
def map (i : Interpreter σ) (batch : List (List Value)) (f : GuestFunction) (b : Bridge σ) :
    Except Failure (List Value) × GuestFunction × Bridge σ :=
  f.withCompiled i b (mapCompiled i batch)

/-- Call a function and read the result as a host type. -/
def callAs (i : Interpreter σ) (t : HostType) (args : List Value) (f : GuestFunction)
    (b : Bridge σ) : Except Failure t.Carrier × GuestFunction × Bridge σ :=
  f.withCompiled i b fun c b ↦
    (b.callValue i c.function args).andThen fun v b ↦ b.read t v

/-- Call a function with each of the argument lists and read the results as a host type. -/
def mapAs (i : Interpreter σ) (t : HostType) (batch : List (List Value)) (f : GuestFunction)
    (b : Bridge σ) : Except Failure (HostType.list t).Carrier × GuestFunction × Bridge σ :=
  f.withCompiled i b fun c b ↦
    (mapCompiled i batch c b).andThen fun vs b ↦ b.read (.list t) (.array vs)

/-- The values that a function holds, in the order in which they are dropped with it. -/
def held (f : GuestFunction) : List Value :=
  match f.compiled with
  | some c => [c.function, c.batch]
  | none => []

/-- A function as text for people. -/
def display (f : GuestFunction) : String :=
  s!"<JuliaFunction {f.guestName}>"

end GuestFunction

end GuestBridge
