import GuestBridge.Bridge.Interpreter
import GuestBridge.Recency

/-!
# Bridges

A bridge stands in front of an interpreter. It starts the interpreter with the first
operation that needs it, and again with the next one as long as that fails. Two recency
caches save requests: one for the values of expressions, and one for what the names of
functions stand for. Whoever is given a value owns a copy of it and has to drop it, and so does
whoever is given a failure that holds a value; the caches own the copies that they keep.
-/

namespace GuestBridge

/-- A bridge to a guest with states `σ`. -/
structure Bridge (σ : Type) extends World σ where
  /-- Whether the interpreter has been started. -/
  ready : Bool
  /-- The values of expressions. -/
  expressions : Recency String Value
  /-- What names stand for. -/
  functions : Recency String Value
  deriving Repr, Inhabited

/-- What an operation on a bridge comes to: its result or its failure, and the bridge
afterwards. -/
abbrev Outcome (σ α : Type) : Type :=
  Except Failure α × Bridge σ

/-- Go on with a result; a failure stays as it is. -/
def Outcome.andThen {σ α β : Type} (o : Outcome σ α) (next : α → Bridge σ → Outcome σ β) :
    Outcome σ β :=
  match o with
  | (.ok x, b) => next x b
  | (.error e, b) => (.error e, b)

/-- Going on with a result. -/
@[simp] theorem Outcome.andThen_ok {σ α β : Type} (x : α) (b : Bridge σ)
    (next : α → Bridge σ → Outcome σ β) : Outcome.andThen (.ok x, b) next = next x b := rfl

/-- A failure is passed on. -/
@[simp] theorem Outcome.andThen_error {σ α β : Type} (e : Failure) (b : Bridge σ)
    (next : α → Bridge σ → Outcome σ β) :
    Outcome.andThen (.error e, b) next = (.error e, b) := rfl

namespace Bridge

variable {σ : Type}

/-- A bridge that has not been used yet, with the capacities of its caches. -/
def fresh (guest : σ) (expressionCapacity functionCapacity : Nat) : Bridge σ where
  guest := guest
  ledger := Ledger.empty
  ready := false
  expressions := Recency.empty expressionCapacity
  functions := Recency.empty functionCapacity

/-- Take note of another copy of a value. -/
def retain (b : Bridge σ) (v : Value) : Bridge σ :=
  { b with toWorld := b.toWorld.retain v }

/-- Drop a copy of a value. -/
def drop (b : Bridge σ) (v : Value) : Bridge σ :=
  { b with toWorld := b.toWorld.drop v }

/-- Drop values, in order. -/
def dropAll (b : Bridge σ) (vs : List Value) : Bridge σ :=
  { b with toWorld := b.toWorld.dropAll vs }

/-- Start the interpreter unless it has been started. -/
def require (i : Interpreter σ) (b : Bridge σ) : Outcome σ Unit :=
  if b.ready then (.ok (), b)
  else
    match i.start b.guest with
    | (.ok _, guest) => (.ok (), { b with guest, ready := true })
    | (.error e, guest) => (.error e, { b with guest })

/-- Send a request to the interpreter. -/
def ask (i : Interpreter σ) (r : Request) (b : Bridge σ) : Outcome σ Value :=
  (b.require i).andThen fun _ b ↦
    let (result, world) := i.answer r b.toWorld
    (result, { b with toWorld := world })

/-- Evaluate guest code. -/
def eval (i : Interpreter σ) (code : String) (b : Bridge σ) : Outcome σ Value :=
  b.ask i (.eval code)

/-- Execute guest code for its effects. -/
def exec (i : Interpreter σ) (code : String) (b : Bridge σ) : Outcome σ Unit :=
  (b.eval i code).andThen fun v b ↦ (.ok (), b.drop v)

/-- The two caches of a bridge. -/
inductive Memo where
  | expressions
  | functions
  deriving DecidableEq, Repr

/-- One of the caches. -/
def memo (b : Bridge σ) : Memo → Recency String Value
  | .expressions => b.expressions
  | .functions => b.functions

/-- Replace one of the caches. -/
def withMemo (b : Bridge σ) (cache : Recency String Value) : Memo → Bridge σ
  | .expressions => { b with expressions := cache }
  | .functions => { b with functions := cache }

/-- Keep a copy of a value in a cache and drop what the cache lets go. -/
def remember (m : Memo) (code : String) (v : Value) (b : Bridge σ) : Bridge σ :=
  let (gone, cache) := (b.memo m).insert code v
  ((b.withMemo cache m).retain v).dropAll gone

/-- The value of guest code, from a cache if it is there. -/
def evalThrough (i : Interpreter σ) (m : Memo) (code : String) (b : Bridge σ) :
    Outcome σ Value :=
  match (b.memo m).get code with
  | (some v, cache) => (.ok v, (b.withMemo cache m).retain v)
  | (none, _) => (b.eval i code).andThen fun v b ↦ (.ok v, b.remember m code v)

/-- Evaluate an expression unless its value is remembered. -/
def evalCached (i : Interpreter σ) (code : String) (b : Bridge σ) : Outcome σ Value :=
  b.evalThrough i .expressions code

/-- What a name stands for, unless it is remembered. -/
def resolve (i : Interpreter σ) (name : String) (b : Bridge σ) : Outcome σ Value :=
  b.evalThrough i .functions name

/-- Call an object of the guest. -/
def callHandle (i : Interpreter σ) (callee : Handle) (args : List Value) (b : Bridge σ) :
    Outcome σ Value :=
  b.ask i (.call callee args)

/-- Call a value, which has to be a handle. Any other value is copied into the failure. -/
def callValue (i : Interpreter σ) (callee : Value) (args : List Value) (b : Bridge σ) :
    Outcome σ Value :=
  match callee with
  | .handle h => b.callHandle i h args
  | other => (.error (.notCallable other), b.retain other)

/-- Call a function by its name. -/
def call (i : Interpreter σ) (name : String) (args : List Value) (b : Bridge σ) :
    Outcome σ Value :=
  (b.resolve i name).andThen fun callee b ↦
    let (result, b) := b.callValue i callee args
    (result, b.drop callee)

/-- Look up a property of an object. -/
def getAttr (i : Interpreter σ) (target : Handle) (name : String) (b : Bridge σ) :
    Outcome σ Value :=
  b.ask i (.getAttr target name)

/-- Convert a value to a type of the guest. -/
def convert (i : Interpreter σ) (type : String) (value : Value) (b : Bridge σ) :
    Outcome σ Value :=
  b.ask i (.convert type value)

/-- Create a fresh module. -/
def newModule (i : Interpreter σ) (name : String) (b : Bridge σ) : Outcome σ Value :=
  b.ask i (.newModule name)

/-- Read a value that the caller owns as a host type. -/
def read (t : HostType) (v : Value) (b : Bridge σ) : Outcome σ t.Carrier :=
  match t.fromValue v with
  | .ok x => (.ok x, b)
  | .error m => (.error m.failure, { b with ledger := b.ledger.dropHandles m.dropped })

/-- A bridge as it is shown to developers. -/
def debugText (b : Bridge σ) : String :=
  s!"Runtime \x7b ready: {b.ready}, cached_expressions: {b.expressions.size}, " ++
    s!"cached_functions: {b.functions.size}, .. \x7d"

end Bridge

end GuestBridge
