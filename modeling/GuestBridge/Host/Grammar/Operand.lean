import GuestBridge.Host.Grammar.Operator

/-!
# Operands

Literals, paths, calls, blocks, loops, closures and the other expressions that operators
apply to. Each becomes a node over the expressions that stand in it; those in its patterns
and types come first.
-/

namespace GuestBridge.Host.Grammar

open Reader

/-- What can start an expression. -/
def startsExpr : Test :=
  Test.any [Test.butNot Test.anyWord (Test.word "as"), Test.paren, Test.bracket, Test.brace,
    Test.literal, Test.butNot (Test.punct "!") (Test.punct "!="),
    Test.butNot (Test.punct "-") (Test.or (Test.punct "-=") (Test.punct "->")),
    Test.butNot (Test.punct "*") (Test.punct "*="),
    Test.butNot (Test.punct "|") (Test.punct "|="),
    Test.butNot (Test.punct "&") (Test.punct "&="), Test.punct "..",
    Test.butNot (Test.punct "<") (Test.or (Test.punct "<=") (Test.punct "<<=")),
    Test.punct "::", Test.lifetime, Test.punct "#"]

/-- The expressions that the attributes in front of an expression hold, and whether there
are any attributes. -/
def exprAttributes (g : Grammar) : Reader (Bool × List Expr) := do
  let (attrs, values) ← collect g.outerAttributes
  return (!attrs.isEmpty, values)

/-- The expressions of a list between commas. -/
def exprList (g : Grammar) : Reader (List Expr) :=
  commaList (g.expr true)

/-- A field's value in a record literal: a name alone stands for the variable. -/
def fieldValue (g : Grammar) : Reader (List Expr) := do
  let (_, values) ← collect g.outerAttributes
  let named ← member
  if !named || (← peek (Test.punct ":")) then
    punct ":"
    return values ++ [← g.expr true]
  return values

/-- The fields of a record literal, possibly with a record to take the others from. -/
def fieldValues (g : Grammar) : (fuel : Nat) → Reader (List Expr)
  | 0 => failure
  | fuel + 1 => do
    if ← peek Test.atEnd then
      return []
    if ← punct? ".." then
      if ← peek Test.atEnd then
        return []
      return [← g.expr true]
    let parts ← g.fieldValue
    if ← peek Test.atEnd then
      return parts
    punct ","
    return parts ++ (← g.fieldValues fuel)

/-- A path, a macro invocation or a record literal. -/
def pathExpr (g : Grammar) (records : Bool) : Reader Expr := do
  let (shape, found) ← collect (g.qualifiedPath true)
  let bang ← peek (Test.butNot (Test.punct "!") (Test.punct "!="))
  if !shape.qualified && shape.bare && bang then
    punct "!"
    return .invocation (← anyGroup)
  if records && (← peek Test.brace) then
    let parts ← group .brace (bounded g.fieldValues)
    return .node .plain (found ++ parts)
  return .node .plain found

/-- The unit value, an expression in parentheses, or a tuple. -/
def parenExpr (g : Grammar) : Reader Expr :=
  group .paren do
    if ← peek Test.atEnd then
      return .unit
    let first ← g.expr true
    if ← peek Test.atEnd then
      return .paren first
    punct ","
    return .node .plain (first :: (← g.exprList))

/-- A list of expressions, or one that is repeated. -/
def bracketExpr (g : Grammar) : Reader Expr :=
  group .bracket do
    if ← peek Test.atEnd then
      return .node .plain []
    let first ← g.expr true
    if ← punct? ";" then
      return .node .plain [first, ← g.expr true]
    if ← peek Test.atEnd then
      return .node .plain [first]
    punct ","
    return .node .plain (first :: (← g.exprList))

/-- Leave an enclosing loop or block, possibly with a value. -/
def breakExpr (g : Grammar) (records : Bool) : Reader Expr := do
  word "break"
  let label ← lifetime?
  if label && (← peek (Test.punct ":")) then
    failure
  if (← peek startsExpr) && (records || !(← peek Test.brace)) then
    return .node .plain [← g.expr true]
  return .node .plain []

/-- The operand of a keyword that may stand alone. -/
def operand? (g : Grammar) : Reader (Option Expr) := do
  if ← peek startsExpr then
    return some (← g.expr true)
  return none

/-- A condition that binds a pattern. -/
def letExpr (g : Grammar) (records : Bool) : Reader Expr := do
  let (e, found) ← collect do
    word "let"
    let _ ← g.patternAlternatives
    punct "="
    let left ← g.unary records
    g.operators records compareStrength left
  return .node .plain (found ++ [e])

/-- A condition with its branches. -/
def ifExpr (g : Grammar) : (fuel : Nat) → Reader Expr
  | 0 => failure
  | fuel + 1 => do
    word "if"
    let test ← g.expr false
    let yes ← g.block
    if ← word? "else" then
      if ← peek (Test.word "if") then
        return .node .control [test, .ofBody yes, ← g.ifExpr fuel]
      return .node .control [test, .ofBody yes, .ofBody (← g.block)]
    return .node .control [test, .ofBody yes]

/-- A loop that runs while a condition holds. -/
def whileExpr (g : Grammar) : Reader Expr := do
  let ((test, stmts), found) ← collect do
    word "while"
    let test ← g.expr false
    return (test, ← g.body)
  return .node .control (found ++ [test, .ofBody stmts])

/-- A loop over the elements of a value. -/
def forExpr (g : Grammar) : Reader Expr := do
  let ((source, stmts), found) ← collect do
    word "for"
    let _ ← g.patternAlternatives
    word "in"
    let source ← g.expr false
    return (source, ← g.body)
  return .node .control (found ++ [source, .ofBody stmts])

/-- A block behind a keyword, with attributes at its head. -/
def keywordBlock (g : Grammar) (keyword : String) : Reader Expr := do
  let (stmts, found) ← collect do
    word keyword
    g.body
  return .node .control (found ++ [.ofBody stmts])

/-- A block. -/
def blockExpr (g : Grammar) (labelled : Bool) : Reader Expr := do
  let (stmts, found) ← collect g.body
  return Expr.withAttributes found (.block labelled stmts)

/-- An arm of a match. A comma must follow unless the arm ends with its block. -/
def arm (g : Grammar) : Reader (List Expr) := do
  let (parts, found) ← collect do
    let _ ← g.outerAttributes
    let _ ← g.patternAlternatives
    let guards ← if ← word? "if" then pure [← g.expr true] else pure []
    punct "=>"
    let result ← g.early
    let closed ← peek Test.atEnd
    if result.form ≠ .control && !closed then
      punct ","
    else
      let _ ← punct? ","
    return guards ++ [result]
  return found ++ parts

/-- A match with its arms. -/
def matchExpr (g : Grammar) : Reader Expr := do
  let ((scrutinee, parts), found) ← collect do
    word "match"
    let scrutinee ← g.expr false
    let arms ← group .brace do
      let _ ← g.innerAttributes
      repeatUntil Test.atEnd g.arm
    return (scrutinee, arms.flatten)
  return .node .control (scrutinee :: found ++ parts)

/-- A block or loop behind its label. -/
def labelledExpr (g : Grammar) : Reader Expr := do
  lifetime
  punct ":"
  if ← peek (Test.word "while") then
    g.whileExpr
  else if ← peek (Test.word "for") then
    g.forExpr
  else if ← peek (Test.word "loop") then
    g.keywordBlock "loop"
  else
    g.blockExpr true

/-- A parameter of a closure. -/
def closureParam (g : Grammar) : Reader Unit := do
  let _ ← g.outerAttributes
  let _ ← g.pattern
  if ← punct? ":" then
    let _ ← g.type true

/-- A closure. -/
def closureExpr (g : Grammar) (records : Bool) : Reader Expr := do
  let (e, _) ← collect do
    let _ ← g.binder?
    let _ ← word? "const"
    let _ ← word? "static"
    let _ ← word? "async"
    let _ ← word? "move"
    punct "|"
    let _ ← commas (Test.punct "|") g.closureParam
    punct "|"
    if ← punct? "->" then
      let _ ← g.type true
      return Expr.ofBody (← g.block)
    g.expr records
  return .closure e

/-- What starts a function type's or closure's lifetimes behind `for`. -/
def startsBinder : Test :=
  Test.and (Test.word "for") (Test.and (Test.second (Test.punct "<"))
    (Test.third (Test.or Test.lifetime (Test.punct ">"))))

/-- What starts a closure. -/
def startsClosure : Test :=
  Test.any [Test.punct "|", Test.word "move", startsBinder,
    Test.butNot (Test.word "const") (Test.second Test.brace), Test.word "static",
    Test.and (Test.word "async") (Test.second (Test.or (Test.punct "|") (Test.word "move")))]

/-- What starts an asynchronous block. -/
def startsAsync : Test :=
  Test.and (Test.word "async")
    (Test.or (Test.second Test.brace)
      (Test.and (Test.second (Test.word "move")) (Test.third Test.brace)))

/-- What starts a fallible block. -/
def startsTry : Test :=
  Test.and (Test.word "try") (Test.second Test.brace)

/-- An operand before anything is applied to it. -/
def atom (g : Grammar) (records : Bool) : Reader Expr := do
  if ← peek Test.literal then
    literal
  else if ← peek startsAsync then
    word "async"
    let _ ← word? "move"
    return .node .async [.ofBody (← g.block)]
  else if ← peek startsTry then
    word "try"
    return .node .control [.ofBody (← g.block)]
  else if ← peek startsClosure then
    g.closureExpr records
  else if ← peek (Test.and (Test.word "builtin") (Test.second (Test.punct "#"))) then
    skip 2
    let _ ← ident
    let _ ← wholeGroup .paren
    return .verbatim
  else if ← peek (Test.or startsPath (Test.and (Test.word "try")
      (Test.second (Test.or (Test.punct "!") (Test.punct "::"))))) then
    g.pathExpr records
  else if ← peek Test.paren then
    g.parenExpr
  else if ← peek (Test.word "break") then
    g.breakExpr records
  else if ← word? "continue" then
    let _ ← lifetime?
    return .node .plain []
  else if ← word? "return" then
    return .ret (← g.operand?)
  else if ← word? "become" then
    let _ ← g.expr true
    return .verbatim
  else if ← peek Test.bracket then
    g.bracketExpr
  else if ← peek (Test.word "let") then
    g.letExpr records
  else if ← peek (Test.word "if") then
    bounded g.ifExpr
  else if ← peek (Test.word "while") then
    g.whileExpr
  else if ← peek (Test.word "for") then
    g.forExpr
  else if ← peek (Test.word "loop") then
    g.keywordBlock "loop"
  else if ← peek (Test.word "match") then
    g.matchExpr
  else if ← word? "yield" then
    return .node .plain (← g.operand?).toList
  else if ← peek (Test.word "unsafe") then
    g.keywordBlock "unsafe"
  else if ← peek (Test.word "const") then
    g.keywordBlock "const"
  else if ← peek Test.brace then
    g.blockExpr false
  else if ← peek (Test.punct "..") then
    return .node .range (← g.rangeEnd records)
  else if ← word? "_" then
    return .node .plain []
  else
    g.labelledExpr

/-- Positions of fields behind a point that are written together as a float, if they come next.
The answer is whether they complete the selection; a point at their end goes on with it. -/
def positions : Reader Bool := do
  if ← peek float then
    match ← takeIf float with
    | .literal text =>
      match NumberLiteral.indices? text with
      | some trailing => return !trailing
      | none => failure
    | _ => failure
  return false
where
  /-- A float comes next. -/
  float : Test
    | .literal text :: _ => NumberLiteral.isFloat text
    | _ => false

/-- A field or a method call. -/
def field (g : Grammar) (e : Expr) : Reader Expr := do
  let named ← member
  let turbofish := named && (← peek (Test.punct "::"))
  let (_, found) ← collect do
    if turbofish then
      let _ ← g.angleArguments
  if turbofish || (named && (← peek Test.paren)) then
    let args ← group .paren g.exprList
    return .node .plain (e :: found ++ args)
  return .node .plain [e]

/-- A field, a method call or a wait behind a point. -/
def selection (g : Grammar) (e : Expr) : Reader Expr := do
  punct "."
  if ← positions then
    return .node .plain [e]
  if ← word? "await" then
    return .node .plain [e]
  g.field e

/-- Apply calls, selections, indices and question marks to an operand. -/
def applications (g : Grammar) : (fuel : Nat) → Expr → Reader Expr
  | 0, _ => failure
  | fuel + 1, e => do
    let point := Test.butNot (Test.punct ".") (Test.punct "..")
    if ← peek Test.paren then
      let args ← group .paren g.exprList
      g.applications fuel (.node .plain (e :: args))
    else if e.form ≠ .range && (← peek point) then
      g.applications fuel (← g.selection e)
    else if ← peek Test.bracket then
      let index ← group .bracket (g.expr true)
      g.applications fuel (.node .plain [e, index])
    else if ← askIf (e.form ≠ .range) (punct? "?") then
      g.applications fuel (.node .plain [e])
    else
      return e

/-- All that is applied to an operand. -/
def applied (g : Grammar) (e : Expr) : Reader Expr :=
  bounded fun fuel ↦ g.applications fuel e

/-- An operand with its attributes and prefix operators and what is applied to it. -/
def unaryRule (g : Grammar) (records : Bool) : Reader Expr := do
  let (hasAttributes, values) ← g.exprAttributes
  if ← punct? "&" then
    let raw ← peek (Test.and (Test.word "raw") (Test.second (Test.oneOf ["mut", "const"])))
    if raw then
      skip 1
    let mutable ← word? "mut"
    if raw && !mutable then
      word "const"
    return Expr.withAttributes values (.node .plain [← g.unary records])
  if ← peek (Test.any [Test.punct "*", Test.punct "!", Test.punct "-"]) then
    skip 1
    return Expr.withAttributes values (.node .plain [← g.unary records])
  let e ← g.applied (← g.atom records)
  if hasAttributes && e.form = .range then
    failure
  return Expr.withAttributes values e

/-- An expression. -/
def exprRule (g : Grammar) (records : Bool) : Reader Expr := do
  let left ← g.unary records
  g.operators records 0 left

/-- An expression where one that ends with its block ends there, unless a point or a
question mark follows. -/
def earlyRule (g : Grammar) : Reader Expr := do
  let (_, values) ← g.exprAttributes
  let e ←
    if ← peek (Test.any [Test.oneOf ["if", "while", "loop", "match", "unsafe"], startsTry,
        Test.butNot (Test.word "for") startsBinder,
        Test.and (Test.word "const") (Test.second Test.brace), Test.brace, Test.lifetime]) then
      g.atom true
    else
      g.unary true
  if e.form ≠ .control then
    g.operators true 0 (Expr.withAttributes values e)
  else if ← peek (Test.or (Test.butNot (Test.punct ".") (Test.punct "..")) (Test.punct "?")) then
    let e ← g.applied e
    g.operators true 0 (Expr.withAttributes values e)
  else
    return Expr.withAttributes values e

end GuestBridge.Host.Grammar
