import GuestBridge.Bridge.GuestFunction
import GuestBridge.Bridge.GuestModule

/-!
# Sessions

A session is a bridge in use: with named slots for values, for functions and for modules, and
with the registry of names. Everything that can be done in a session is a command, so that a
history of a session is a list of commands. A value that a command comes to is kept in a slot
or dropped, and a failure is dropped once it has been told.
-/

namespace GuestBridge

/-- A bridge in use. -/
structure Session (σ : Type) where
  bridge : Bridge σ
  names : Names
  values : Slots Value
  functions : Slots GuestFunction
  modules : Slots GuestModule
  deriving Inhabited

/-- A command that comes to a value. -/
inductive Query where
  /-- Send a request past the bridge, which need not have started the interpreter. -/
  | direct (r : Request)
  | eval (code : String)
  | evalCached (code : String)
  | resolve (name : String)
  | call (name : String) (args : List Value)
  | callValue (callee : Value) (args : List Value)
  | callHandle (callee : Handle) (args : List Value)
  | getAttr (target : Handle) (name : String)
  | convert (type : String) (value : Value)
  | newModule (name : String)
  /-- A copy of the value in a slot. -/
  | copy (slot : String)
  | callFunction (slot : String) (args : List Value)
  | callFunctionAs (slot : String) (args : List Value) (type : HostType)
  | mapFunction (slot : String) (batch : List (List Value))
  | mapFunctionAs (slot : String) (batch : List (List Value)) (type : HostType)
  | getMember (slot name : String)
  | callMember (slot name : String) (args : List Value)
  deriving Inhabited

/-- A command. -/
inductive Command where
  /-- Come to a value and keep it in a slot, or drop it. -/
  | query (q : Query) (keep : Option String)
  | exec (code : String)
  /-- Tell whether the interpreter has been started, and show the bridge. -/
  | state
  /-- Empty a slot for values. -/
  | dropValue (slot : String)
  /-- Make another bridge the global one. -/
  | installGlobal
  /-- Make a function from the text of a host function. -/
  | define (slot text : String) (name : Option String)
  /-- Make a function from its parts. -/
  | makeFunction (slot : String) (parts : FunctionParts)
  /-- Show a function. -/
  | showFunction (slot : String)
  /-- Empty a slot for functions. -/
  | dropFunction (slot : String)
  | openModule (slot name : String)
  /-- Empty a slot for modules. -/
  | dropModule (slot : String)
  deriving Inhabited

/-- What a command answers. -/
inductive Answer where
  | nothing
  | value (v : Value)
  | flag (b : Bool)
  | state (ready : Bool) (text : String)
  | function (f : GuestFunction)
  | module (m : GuestModule)
  /-- The slot that the command names is empty. -/
  | empty
  deriving Inhabited

namespace Session

variable {σ : Type}

/-- A session that begins with a bridge. -/
def ofBridge (bridge : Bridge σ) : Session σ where
  bridge := bridge
  names := Names.empty
  values := Slots.empty
  functions := Slots.empty
  modules := Slots.empty

/-- Go on with the bridge that an operation leaves. -/
def settle {α : Type} (s : Session σ) (o : Outcome σ α) : Except Failure α × Session σ :=
  (o.1, { s with bridge := o.2 })

/-- Go on with the function and the bridge that an operation leaves. -/
def withFunction {α : Type} (s : Session σ) (slot : String)
    (op : GuestFunction → Bridge σ → Except Failure α × GuestFunction × Bridge σ) :
    Option (Except Failure α × Session σ) :=
  (s.functions.find? slot).map fun f ↦
    let (result, f, bridge) := op f s.bridge
    (result, { s with bridge, functions := (s.functions.put slot f).2 })

/-- Go on with the module and the bridge that an operation leaves. -/
def withModule {α : Type} (s : Session σ) (slot : String)
    (op : GuestModule → Bridge σ → Except Failure α × GuestModule × Bridge σ) :
    Option (Except Failure α × Session σ) :=
  (s.modules.find? slot).map fun m ↦
    let (result, m, bridge) := op m s.bridge
    (result, { s with bridge, modules := (s.modules.put slot m).2 })

/-- Change the result of an operation, if there is one. -/
def mapResult {α β : Type} (f : α → β) (o : Option (Except Failure α × Session σ)) :
    Option (Except Failure β × Session σ) :=
  o.map fun (result, s) ↦ (result.map f, s)

/-- Send a request past the bridge. -/
def direct (i : Interpreter σ) (r : Request) (b : Bridge σ) : Outcome σ Value :=
  let (result, world) := i.answer r b.toWorld
  (result, { b with toWorld := world })

/-- Come to a value, unless the slot that is named is empty. Whoever asks owns the value. -/
def ask (i : Interpreter σ) (s : Session σ) : Query → Option (Except Failure Value × Session σ)
  | .direct r => some (s.settle (direct i r s.bridge))
  | .eval code => some (s.settle (s.bridge.eval i code))
  | .evalCached code => some (s.settle (s.bridge.evalCached i code))
  | .resolve name => some (s.settle (s.bridge.resolve i name))
  | .call name args => some (s.settle (s.bridge.call i name args))
  | .callValue callee args => some (s.settle (s.bridge.callValue i callee args))
  | .callHandle callee args => some (s.settle (s.bridge.callHandle i callee args))
  | .getAttr target name => some (s.settle (s.bridge.getAttr i target name))
  | .convert type value => some (s.settle (s.bridge.convert i type value))
  | .newModule name => some (s.settle (s.bridge.newModule i name))
  | .copy slot => (s.values.find? slot).map fun v ↦ (.ok v, { s with bridge := s.bridge.retain v })
  | .callFunction slot args => s.withFunction slot fun f ↦ f.call i args
  | .callFunctionAs slot args type =>
    mapResult type.toValue (s.withFunction slot fun f ↦ f.callAs i type args)
  | .mapFunction slot batch => mapResult .array (s.withFunction slot fun f ↦ f.map i batch)
  | .mapFunctionAs slot batch type =>
    mapResult (HostType.list type).toValue (s.withFunction slot fun f ↦ f.mapAs i type batch)
  | .getMember slot name => s.withModule slot fun m ↦ m.get i name
  | .callMember slot name args => s.withModule slot fun m ↦ m.call i name args

/-- Keep a value in a slot, dropping what the slot held, or drop it. -/
def keep (s : Session σ) (slot : Option String) (v : Value) : Session σ :=
  match slot with
  | some slot =>
    let (old, values) := s.values.put slot v
    { s with values, bridge := s.bridge.dropAll old.toList }
  | none => { s with bridge := s.bridge.drop v }

/-- Drop a failure with the values that it holds. -/
def discard (s : Session σ) (e : Failure) : Session σ :=
  { s with bridge := s.bridge.dropAll e.values }

/-- Put a function into a slot, dropping the one that it held. -/
def putFunction (s : Session σ) (slot : String) (f : GuestFunction) : Session σ :=
  let (old, functions) := s.functions.put slot f
  { s with functions, bridge := s.bridge.dropAll (old.toList.flatMap GuestFunction.held) }

/-- Put a module into a slot, dropping the one that it held. -/
def putModule (s : Session σ) (slot : String) (m : GuestModule) : Session σ :=
  let (old, modules) := s.modules.put slot m
  { s with modules, bridge := s.bridge.dropAll (old.toList.flatMap GuestModule.held) }

/-- Make a function and put it into a slot. -/
def make (s : Session σ) (slot : String) (parts : FunctionParts) : Answer × Session σ :=
  let (f, names) := GuestFunction.ofParts s.names parts
  (.function f, { s with names }.putFunction slot f)

/-- Carry out a command. -/
def step (i : Interpreter σ) (s : Session σ) : Command → Except Failure Answer × Session σ
  | .query q slot =>
    match s.ask i q with
    | some (.ok v, s) => (.ok (.value v), s.keep slot v)
    | some (.error e, s) => (.error e, s.discard e)
    | none => (.ok .empty, s)
  | .exec code =>
    match s.settle (s.bridge.exec i code) with
    | (.ok _, s) => (.ok .nothing, s)
    | (.error e, s) => (.error e, s.discard e)
  | .state => (.ok (.state s.bridge.ready s.bridge.debugText), s)
  | .dropValue slot =>
    let (old, values) := s.values.remove slot
    (.ok (.flag old.isSome), { s with values, bridge := s.bridge.dropAll old.toList })
  | .installGlobal => (.error .globalInstalled, s)
  | .define slot text name =>
    match GuestFunction.partsOfText text name with
    | .ok parts =>
      let (answer, s) := s.make slot parts
      (.ok answer, s)
    | .error e => (.error (.extraction e), s)
  | .makeFunction slot parts =>
    let (answer, s) := s.make slot parts
    (.ok answer, s)
  | .showFunction slot =>
    (.ok ((s.functions.find? slot).elim .empty .function), s)
  | .dropFunction slot =>
    let (old, functions) := s.functions.remove slot
    (.ok (.flag old.isSome),
      { s with functions, bridge := s.bridge.dropAll (old.toList.flatMap GuestFunction.held) })
  | .openModule slot name =>
    match s.settle (GuestModule.open? i name s.bridge) with
    | (.ok m, s) => (.ok (.module m), s.putModule slot m)
    | (.error e, s) => (.error e, s.discard e)
  | .dropModule slot =>
    let (old, modules) := s.modules.remove slot
    (.ok (.flag old.isSome),
      { s with modules, bridge := s.bridge.dropAll (old.toList.flatMap GuestModule.held) })

/-- What a query does. -/
theorem step_query (i : Interpreter σ) (s : Session σ) (q : Query) (slot : Option String) :
    s.step i (.query q slot) =
      match s.ask i q with
      | some (.ok v, s) => (.ok (.value v), s.keep slot v)
      | some (.error e, s) => (.error e, s.discard e)
      | none => (.ok .empty, s) := rfl

/-- What running code for its effects does. -/
theorem step_exec (i : Interpreter σ) (s : Session σ) (code : String) :
    s.step i (.exec code) =
      match s.settle (s.bridge.exec i code) with
      | (.ok _, s) => (.ok .nothing, s)
      | (.error e, s) => (.error e, s.discard e) := rfl

/-- What dropping a value does. -/
theorem step_dropValue (i : Interpreter σ) (s : Session σ) (slot : String) :
    s.step i (.dropValue slot) =
      (.ok (.flag (s.values.remove slot).1.isSome),
        { s with
          values := (s.values.remove slot).2
          bridge := s.bridge.dropAll (s.values.remove slot).1.toList }) := rfl

/-- What dropping a function does. -/
theorem step_dropFunction (i : Interpreter σ) (s : Session σ) (slot : String) :
    s.step i (.dropFunction slot) =
      (.ok (.flag (s.functions.remove slot).1.isSome),
        { s with
          functions := (s.functions.remove slot).2
          bridge := s.bridge.dropAll
            ((s.functions.remove slot).1.toList.flatMap GuestFunction.held) }) := rfl

/-- What dropping a module does. -/
theorem step_dropModule (i : Interpreter σ) (s : Session σ) (slot : String) :
    s.step i (.dropModule slot) =
      (.ok (.flag (s.modules.remove slot).1.isSome),
        { s with
          modules := (s.modules.remove slot).2
          bridge := s.bridge.dropAll
            ((s.modules.remove slot).1.toList.flatMap GuestModule.held) }) := rfl

/-- What a definition from a text does. -/
theorem step_define (i : Interpreter σ) (s : Session σ) (slot text : String)
    (name : Option String) :
    s.step i (.define slot text name) =
      match GuestFunction.partsOfText text name with
      | .ok parts =>
        let (answer, s) := s.make slot parts
        (.ok answer, s)
      | .error e => (.error (.extraction e), s) := (rfl)

/-- What opening a module does. -/
theorem step_openModule (i : Interpreter σ) (s : Session σ) (slot name : String) :
    s.step i (.openModule slot name) =
      match s.settle (GuestModule.open? i name s.bridge) with
      | (.ok m, s) => (.ok (.module m), s.putModule slot m)
      | (.error e, s) => (.error e, s.discard e) := rfl

/-- Carry out commands one after the other. -/
def run (i : Interpreter σ) (s : Session σ) (commands : List Command) : Session σ :=
  commands.foldl (fun s c ↦ (s.step i c).2) s

end Session

end GuestBridge
