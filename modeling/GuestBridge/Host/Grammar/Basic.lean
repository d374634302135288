import GuestBridge.Host.Cursor
import GuestBridge.Host.NumberLiteral

/-!
# The recursive pieces of the grammar

Types, patterns, expressions, statements and items contain each other. `Grammar` holds one
reader for each of them; every rule of the grammar is written over such a record, and the
rules are tied together when all of them are known. Here stand the rules that need only
words and punctuation: literals, simple paths, attributes and visibility.
-/

namespace GuestBridge.Host

/-- What a type looks like to the syntax around it. -/
inductive TypeShape where
  /-- One word, possibly with angle-bracketed arguments. -/
  | name
  /-- Any other unqualified path. -/
  | path
  /-- A single bound without a keyword. -/
  | bound
  | other
  deriving DecidableEq, Repr, Inhabited

/-- The kinds of bounds. -/
inductive BoundKind where
  | trait
  | lifetime
  | other
  deriving DecidableEq, Repr, Inhabited

/-- Readers for the pieces of the grammar that contain each other. -/
structure Grammar where
  /-- A type; the flag allows a sum of bounds. -/
  type : (plus : Bool) → Reader TypeShape
  /-- A bound; the flags allow capture lists and constant bounds. -/
  bound : (capturing constant : Bool) → Reader BoundKind
  /-- A pattern without alternatives. -/
  pattern : Reader PatternShape
  /-- An expression; the flag allows record literals. -/
  expr : (records : Bool) → Reader Expr
  /-- An operand with its prefix operators and what is applied to it. -/
  unary : (records : Bool) → Reader Expr
  /-- The operators behind a left operand, as far as they bind at least as strongly as
  the base. -/
  operators : (records : Bool) → (base : Nat) → (left : Expr) → Reader Expr
  /-- An expression that ends early if it ends with its block. -/
  early : Reader Expr
  /-- The statements of a block. -/
  statements : Reader (List Stmt)
  /-- An item behind its attributes. -/
  item : Reader Unit
  /-- A tree of imported names; the flag allows a path from the crate's root. -/
  useTree : (rooted : Bool) → Reader Unit

/-- Readers that accept nothing. -/
def Grammar.empty : Grammar where
  type _ := failure
  bound _ _ := failure
  pattern := failure
  expr _ := failure
  unary _ := failure
  operators _ _ _ := failure
  early := failure
  statements := failure
  item := failure
  useTree _ := failure

namespace Grammar

open Reader

/-- A literal; a sign in front of a number becomes part of it. -/
def literal : Reader Expr := do
  require Test.literal
  let negative ← peek (Test.punct "-")
  if negative then
    skip 1
  match ← takeIf (fun _ ↦ true) with
  | .literal text => return .literal (if negative then "-" ++ text else text)
  | .word text => return .literal text
  | _ => failure

/-- A simple path: words between double colons, without arguments. The answer is the word
if there is only one and no colons. -/
def simplePath : Reader (Option String) := do
  let rooted ← punct? "::"
  let first ← segment
  let more ← repeatWhile (Test.punct "::") do
    punct "::"
    segment
  return if rooted || !more.isEmpty then none else some first
where
  /-- A word of a simple path. -/
  segment : Reader String := do
    require (Test.or Test.ident (Test.oneOf ["super", "self", "Self", "crate"]))
    anyWord

/-- The content of an attribute behind its path. The answer is the documentation line that it
holds. -/
def attrValue (g : Grammar) (path : Option String) : Reader (Option String) := do
  if ← peek (Test.any [Test.paren, Test.bracket, Test.brace]) then
    let _ ← anyGroup
    return none
  if ← punct? "=" then
    match ← attempt (do let e ← literal; require Test.atEnd; return e) with
    | some e => return if path = some "doc" then e.stringValue? else none
    | none =>
      if ← peek (Test.and (Test.punct "#") (Test.second Test.bracket)) then
        failure
      let e ← g.expr true
      embed e
      return none
  return none

/-- The content of an attribute. The answer is the documentation line that it holds. -/
def attrContent (g : Grammar) : Reader (Option String) := do
  let path ← if ← word? "unsafe" then pure none else simplePath
  g.attrValue path

/-- An attribute in front of what it describes. -/
def outerAttribute (g : Grammar) : Reader Attr := do
  let (doc, tokens) ← capture do
    punct "#"
    group .bracket g.attrContent
  return { tokens, inner := false, doc }

/-- An attribute inside of what it describes. -/
def innerAttribute (g : Grammar) : Reader Attr := do
  let (doc, tokens) ← capture do
    punct "#"
    punct "!"
    group .bracket g.attrContent
  return { tokens, inner := true, doc }

/-- The attributes in front of something. -/
def outerAttributes (g : Grammar) : Reader (List Attr) :=
  repeatWhile (Test.punct "#") g.outerAttribute

/-- The attributes at the head of a body. -/
def innerAttributes (g : Grammar) : Reader (List Attr) :=
  repeatWhile (Test.and (Test.punct "#") (Test.second (Test.punct "!"))) g.innerAttribute

/-- A visibility, which may be absent. The answer is whether it is there. A group behind the
keyword belongs to it only if it names one of the usual scopes or starts a path. -/
def visibility : Reader Bool := do
  if ← word? "pub" then
    let scope := group .paren do
      require (Test.oneOf ["crate", "self", "super"])
      skip 1
    let pathAhead := group .paren do
      word "in"
      remainder
    if (← lookahead scope).isSome then
      scope
    else if (← lookahead pathAhead).isSome then
      let _ ← group .paren do
        word "in"
        simplePath
    return true
  return false

/-- The calling convention of a foreign function. -/
def abi : Reader Unit := do
  word "extern"
  if ← peek Test.string then
    let _ ← takeIf Test.string

/-- A calling convention if one comes next. -/
def abi? : Reader Unit := do
  if ← peek (Test.word "extern") then
    abi

/-- The statements between braces, with the attributes at their head. -/
def body (g : Grammar) : Reader (List Stmt) :=
  group .brace do
    let _ ← g.innerAttributes
    g.statements

/-- The statements between braces, no attributes allowed. -/
def block (g : Grammar) : Reader (List Stmt) :=
  group .brace g.statements

end Grammar

end GuestBridge.Host
