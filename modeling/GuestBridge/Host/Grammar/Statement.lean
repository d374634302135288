import GuestBridge.Host.Grammar.Operand

/-!
# Statements

A block is a sequence of items, bindings, macro invocations and expressions. An expression
needs a semicolon unless it is the last one or ends with its own block.
-/

namespace GuestBridge.Host.Grammar

open Reader

/-- Whether trees end with a group in braces. -/
def endsBraced (ts : List Token) : Bool :=
  match ts.getLast? with
  | some (.group .brace _) => true
  | _ => false

/-- The value of a binding and its other branch, which is allowed only if the value does not
end with a brace. -/
def bindingValue (g : Grammar) : Reader (List Expr) := do
  let (value, tokens) ← capture (g.expr true)
  if ← askIf (!endsBraced tokens) (word? "else") then
    return [value, .ofBody (← g.block)]
  return [value]

/-- A binding. -/
def bindingStmt (g : Grammar) : Reader (List Expr) := do
  let (parts, found) ← collect do
    word "let"
    let _ ← g.pattern
    if ← punct? ":" then
      let _ ← g.type true
    let parts ← if ← punct? "=" then g.bindingValue else pure []
    punct ";"
    return parts
  return found ++ parts

/-- What starts an item in a block. -/
def startsItem : Test :=
  Test.any
    [Test.oneOf ["pub", "extern", "use", "fn", "mod", "type", "struct", "enum", "trait",
      "impl", "macro"],
     Test.butNot (Test.word "crate") (Test.second (Test.punct "::")),
     Test.and (Test.word "static") (Test.second (Test.or (Test.word "mut") Test.ident)),
     Test.butNot (Test.word "const") (Test.any
      [Test.second (Test.or Test.brace (Test.or (Test.oneOf ["static", "move"]) (Test.punct "|"))),
       Test.butNot (Test.second (Test.word "async"))
        (Test.third (Test.oneOf ["unsafe", "extern", "fn"]))]),
     Test.butNot (Test.word "unsafe") (Test.second Test.brace),
     Test.and (Test.word "async") (Test.second (Test.oneOf ["unsafe", "extern", "fn"])),
     Test.and (Test.word "union") (Test.second Test.ident),
     Test.and (Test.word "auto") (Test.second (Test.word "trait")),
     Test.and (Test.word "default") (Test.second (Test.oneOf ["unsafe", "impl"]))]

/-- What a path at the start of a statement turns out to be. -/
inductive PathStart where
  /-- A macro that defines an item. -/
  | definition
  /-- A macro invocation with braces, which ends the statement. -/
  | braced
  /-- Anything else. -/
  | other
  deriving DecidableEq, Repr

/-- Look at the path a statement starts with. -/
def pathStart : Reader PathStart := do
  let _ ← simplePath
  require (Test.punct "!")
  if ← peek (Test.second (Test.or Test.ident (Test.word "try"))) then
    return .definition
  let applied := Test.or (Test.butNot (Test.punct ".") (Test.punct "..")) (Test.punct "?")
  if ← peek (Test.butNot (Test.second Test.brace) (Test.third applied)) then
    return .braced
  return .other

/-- The statement that an expression makes up under attributes. A macro invocation with a
semicolon or braces is a statement of its own. -/
def stmtOf (values : List Expr) (e : Expr) (semicolon : Bool) : Stmt :=
  match e.bare with
  | .invocation argument =>
    if semicolon || Test.brace [argument] then .invocation values argument semicolon
    else .expr (Expr.withAttributes values e) semicolon
  | _ => .expr (Expr.withAttributes values e) semicolon

/-- An expression statement. -/
def exprStmt (g : Grammar) (values : List Expr) : Reader Stmt := do
  let e ← g.early
  let semicolon ← punct? ";"
  return stmtOf values e semicolon

/-- A statement. -/
def stmt (g : Grammar) : Reader Stmt := do
  let (_, values) ← collect g.outerAttributes
  let start := (← lookahead pathStart).getD .other
  if start = .braced then
    let _ ← simplePath
    punct "!"
    let argument ← anyGroup
    return .invocation values argument (← punct? ";")
  if ← peek (Test.word "let") then
    return .binding (values ++ (← g.bindingStmt))
  if start = .definition || (← peek startsItem) then
    let ((_, tokens), _) ← collect (capture g.item)
    return .item tokens
  g.exprStmt values

/-- Whether a statement needs a semicolon that it lacks. -/
def lacksSemicolon : Stmt → Bool
  | .expr e semicolon => !semicolon && e.form ≠ .control
  | .invocation _ argument semicolon => !semicolon && !Test.brace [argument]
  | _ => false

/-- The statements of a block to its end. A semicolon alone is an empty statement. -/
def statementList (g : Grammar) : (fuel : Nat) → Reader (List Stmt)
  | 0 => failure
  | fuel + 1 => do
    if ← punct? ";" then
      return .expr .verbatim true :: (← g.statementList fuel)
    if ← peek Test.atEnd then
      return []
    let s ← g.stmt
    if ← peek Test.atEnd then
      return [s]
    if lacksSemicolon s then
      failure
    return s :: (← g.statementList fuel)

/-- The statements of a block. -/
def statementsRule (g : Grammar) : Reader (List Stmt) :=
  bounded g.statementList

end GuestBridge.Host.Grammar
