import GuestBridge.Host.Extraction

/-!
# Planning the expansion of an annotated function

The annotation turns a host function item into a function that calls the guest and a module
that holds its wrapper. A plan gathers what the expansion writes: the item, the parameters
with their types, the result type, the guest code and the names. `Expansion.plan` makes the
plan or says why the item cannot be expanded.
-/

namespace GuestBridge

open Host

/-- The greatest number of parameters of an annotated function. -/
def maxArity : Nat := 12

/-- Why an annotated item is not expanded. -/
inductive ExpansionError where
  /-- The annotation or the item is no sequence of tokens. -/
  | tokens
  /-- The item is no single function. -/
  | item
  /-- The annotation's arguments are not well formed. -/
  | arguments
  /-- The annotation has an argument of another name. -/
  | otherArgument
  | generic
  | asynchronous
  | arity
  /-- A parameter is not written as a name. -/
  | pattern
  | receiver
  /-- The item cannot be used as a host function. -/
  | extraction (cause : ExtractionError)
  deriving DecidableEq, Repr

/-- The wording of an error, where the expansion has one of its own. -/
def ExpansionError.message? : ExpansionError → Option String
  | .tokens | .item | .arguments => none
  | .otherArgument =>
    some "expected attribute format: #[julia] or #[julia(name = \"function_name\")]"
  | .generic => some "#[julia] functions cannot be generic"
  | .asynchronous => some "#[julia] functions cannot be async"
  | .arity => some s!"#[julia] functions take at most {maxArity} parameters"
  | .pattern => some "parameters must be plain identifiers"
  | .receiver => some "#[julia] functions cannot take `self`"
  | .extraction cause => some cause.message

/-- What an expansion is written from. -/
structure Expansion where
  item : FnItem
  /-- The parameter names as written, with their types. -/
  params : List (String × List Token)
  /-- The result type; the unit type where none is declared. -/
  result : List Token
  /-- The guest code. -/
  source : String
  doc : Option String
  /-- The literal that names the function in the guest. -/
  guestName : Option String
  deriving Inhabited

namespace Expansion

open Reader

/-- The path that names an argument; its word if it is a single one. -/
def argumentPath : Reader (Option String) := do
  let rooted ← punct? "::"
  let first ← anyWord
  let more ← repeatWhile (Test.punct "::") do
    punct "::"
    anyWord
  return if rooted || !more.isEmpty then none else some first

/-- An argument: the literal behind `name`, or nothing if it has another name. -/
def argument : Reader (Option String) := do
  if (← argumentPath) ≠ some "name" then
    return none
  punct "="
  match ← takeIf Test.string with
  | .literal text => return some text
  | _ => failure

/-- The arguments of an annotation. The last name counts, and one of another kind ends the
reading. -/
def arguments : (fuel : Nat) → Reader (Except ExpansionError (Option String))
  | 0 => failure
  | fuel + 1 => do
    match ← argument with
    | none => return .error .otherArgument
    | some text =>
      if ← peek Test.atEnd then
        return .ok (some text)
      punct ","
      if ← peek Test.atEnd then
        return .ok (some text)
      arguments fuel

/-- The literal that an annotation gives as name, if it gives one. -/
def nameArgument (ts : List Token) : Except ExpansionError (Option String) :=
  if ts.isEmpty then .ok none
  else match arguments (ts.length + 1) ⟨ts, [], []⟩ with
    | some (result, _) => result
    | none => .error .arguments

/-- A parameter with its type, if it is written as a name. -/
def namedParam : Param → Except ExpansionError (String × List Token)
  | .receiver => .error .receiver
  | .typed (.name word _) type => .ok (word, type)
  | .typed _ _ => .error .pattern

/-- Plan the expansion of an item under an annotation. The annotation is checked before the
signature, and the signature before the body. -/
def plan (marker : List Token) (item : FnItem) : Except ExpansionError Expansion := do
  let guestName ← nameArgument marker
  if item.isGeneric then throw .generic
  if item.isAsync then throw .asynchronous
  if item.params.length > maxArity then throw .arity
  let params ← item.params.mapM namedParam
  let host ← (HostFunction.ofItem item).mapError .extraction
  let source ← host.source.mapError .extraction
  return { item, params, result := item.result.getD [.group .paren []], source
           doc := host.doc, guestName }

/-- Plan the expansion of an item under an annotation, both given as text. The item's text is
read into tokens as `HostFunction.parse` reads a text. A compiler hands over the tokens of a text
with its names in composed normal form (NFC) and its line ends as single line feeds: the text is
taken to be written so. -/
def ofText (marker item : String) : Except ExpansionError Expansion :=
  match scan marker, scan item with
  | some marker, some item =>
    match FnItem.ofTokens? item with
    | some item => plan marker item
    | none => .error .item
  | _, _ => .error .tokens

end Expansion

end GuestBridge
