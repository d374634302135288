import GuestBridge.Host.Parse
import GuestBridge.Text.Margin

/-!
# Extracting guest code from host functions

A host function carries guest code as a string literal: as its whole body, in front of one
statement that does nothing, or in the return that ends the body. In the last style other
statements may stand before it, as long as every return among them returns the same text.
`FnItem.source` finds the literal and settles its text.
-/

namespace GuestBridge.Host

/-- Why a body carries no guest code. -/
inductive BodyFault where
  | empty
  /-- An earlier return returns something else than the final one. -/
  | otherReturn
  /-- The final return returns no string literal. -/
  | finalReturn
  /-- Something follows a leading string literal. -/
  | trailing
  /-- The body is in none of the accepted styles. -/
  | noStyle
  deriving DecidableEq, Repr

/-- The wording of a fault. -/
def BodyFault.reason : BodyFault → String
  | .empty => "the body is empty"
  | .otherReturn =>
    "an earlier `return` does not return the same string literal as the final one"
  | .finalReturn => "the final `return` does not return a string literal"
  | .trailing => "a leading string literal may only be followed by `()`"
  | .noStyle => "use a string literal body or end the body with `return \"...\"`"

/-- Why a host function cannot be used. -/
inductive ExtractionError where
  /-- The text is no single function item. -/
  | parse
  /-- A parameter is no plain name. -/
  | parameter (function shown : String)
  /-- The body carries no guest code. -/
  | body (function : String) (fault : BodyFault)
  deriving DecidableEq, Repr

/-- The wording of an extraction error; a text that does not parse has none of its own. -/
def ExtractionError.message : ExtractionError → String
  | .parse => "cannot parse host function"
  | .parameter function shown =>
    s!"function `{function}` has an unsupported parameter `{shown}`"
  | .body function fault =>
    s!"cannot extract Julia code from function `{function}`: {fault.reason}"

/-- A statement that does nothing: the unit value or an empty block without label. -/
def Stmt.isNoop : Stmt → Bool
  | .expr e _ =>
    match e.bare with
    | .unit => true
    | .block false [] => true
    | _ => false
  | _ => false

/-- The text of the string literal that a statement consists of. -/
def Stmt.stringValue? : Stmt → Option String
  | .expr e _ => e.stringValue?
  | _ => none

/-- What the return that a statement consists of returns: nothing if the statement is no
return, and no text if it returns something else than a string literal. -/
def Stmt.returned? : Stmt → Option (Option String)
  | .expr e _ =>
    match e.bare with
    | .ret operand => some (operand.bind Expr.stringValue?)
    | _ => none
  | _ => none

mutual

/-- What the returns in an expression return, in order. Returns inside a return's operand
do not count, and those inside closures are not the function's own. -/
def Expr.returns : Expr → List (Option String)
  | .literal _ | .unit | .invocation _ | .verbatim => []
  | .closure _ => []
  | .ret operand => [operand.bind Expr.stringValue?]
  | .paren inner => inner.returns
  | .block _ body => Stmt.returnsAll body
  | .attributed values inner => Expr.returnsAll values ++ inner.returns
  | .node _ parts => Expr.returnsAll parts

/-- What the returns in a list of expressions return. -/
def Expr.returnsAll : List Expr → List (Option String)
  | [] => []
  | e :: es => e.returns ++ Expr.returnsAll es

/-- What the returns in a statement return. Those inside nested items are not the
function's own. -/
def Stmt.returns : Stmt → List (Option String)
  | .expr e _ => e.returns
  | .binding parts => Expr.returnsAll parts
  | .item _ => []
  | .invocation values _ _ => Expr.returnsAll values

/-- What the returns in a list of statements return. -/
def Stmt.returnsAll : List Stmt → List (Option String)
  | [] => []
  | s :: ss => s.returns ++ Stmt.returnsAll ss

end

/-- The text of the literal that carries the guest code of a body. -/
def carriedText (body : List Stmt) : Except BodyFault String :=
  match body with
  | [] => .error .empty
  | first :: rest =>
    let leading := first.stringValue?
    let alone := match rest with
      | [] => true
      | [second] => second.isNoop
      | _ => false
    match leading.filter fun _ ↦ alone with
    | some text => .ok text
    | none =>
      match (body.getLast?.bind Stmt.returned?) with
      | some (some text) =>
        if (Stmt.returnsAll body.dropLast).all (· = some text) then .ok text
        else .error .otherReturn
      | some none => .error .finalReturn
      | none => .error (if leading.isSome then .trailing else .noStyle)

namespace FnItem

/-- The name of a function without its raw mark. -/
def hostName (item : FnItem) : String :=
  unraw item.name

/-- How a parameter that is no plain name is shown. -/
def shownPattern : PatternShape → String
  | .name word _ => word
  | .wildcard => "_"
  | .tuple => "(..)"
  | .record type => type ++ " \x7b .. \x7d"
  | .tupleRecord type => type ++ "(..)"
  | .reference => "&.."
  | .openRange | .rest | .other => "pattern"

/-- The name of a parameter, or how an unsupported one is shown. -/
def paramName : Param → Except String String
  | .receiver => .error "self"
  | .typed (.name word false) _ => .ok (unraw word)
  | .typed shape _ => .error (shownPattern shape)

/-- The names of the parameters in order; the first unsupported one is an error. -/
def paramNames (item : FnItem) : Except ExtractionError (List String) :=
  item.params.mapM fun p ↦ (paramName p).mapError (.parameter item.hostName)

/-- A documentation line without the blank that separates it from its mark. -/
def docLine (line : String) : List Char :=
  match line.toList with
  | ' ' :: cs => cs
  | cs => cs

/-- The documentation of a function, if there is any besides blanks. -/
def doc? (item : FnItem) : Option String :=
  let lines := item.attributes.filterMap fun a ↦ a.doc.map docLine
  let text := Text.trim (Text.joinLines lines)
  if text.isEmpty then none else some (String.ofList text)

/-- The guest code of a function, in settled form. -/
def source (item : FnItem) : Except ExtractionError String :=
  match carriedText item.body with
  | .ok text => .ok (Text.settle text)
  | .error fault => .error (.body item.hostName fault)

end FnItem

/-- A host function that the bridge can use. -/
structure HostFunction where
  name : String
  params : List String
  doc : Option String
  item : FnItem
  deriving Inhabited

namespace HostFunction

/-- Take up a function item whose parameters are plain names. -/
def ofItem (item : FnItem) : Except ExtractionError HostFunction := do
  let params ← item.paramNames
  return { name := item.hostName, params, doc := item.doc?, item }

/-- Take up the function item that a text holds, wherever the text stands. -/
def parse (text : String) : Except ExtractionError HostFunction :=
  match FnItem.parse? (Text.dedent text) with
  | some item => ofItem item
  | none => .error .parse

/-- The guest code of a function. -/
def source (f : HostFunction) : Except ExtractionError String :=
  f.item.source

end HostFunction

end GuestBridge.Host
