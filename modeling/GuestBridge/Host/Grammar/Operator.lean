import GuestBridge.Host.Grammar.Pattern

/-!
# Operators

Binary operators with their strengths, assignments, ranges and casts. An operator takes as
its right operand everything that binds more tightly; equal assignments nest to the right,
all others to the left. Comparisons do not chain, and no operator applies to a range.
-/

namespace GuestBridge.Host.Grammar

open Reader

/-- The strength of an assignment. -/
def assignStrength : Nat := 1

/-- The strength of a range's dots. -/
def rangeStrength : Nat := 2

/-- The strength of a comparison. -/
def compareStrength : Nat := 6

/-- The strength of a cast. -/
def castStrength : Nat := 13

/-- The binary operators with their strengths; an operator stands before its beginnings. -/
def binaryOperators : List (String × Nat) :=
  [("+=", 1), ("-=", 1), ("*=", 1), ("/=", 1), ("%=", 1), ("^=", 1), ("&=", 1), ("|=", 1),
   ("<<=", 1), (">>=", 1), ("&&", 4), ("||", 3), ("<<", 10), (">>", 10), ("==", 6),
   ("<=", 6), ("!=", 6), (">=", 6), ("+", 11), ("-", 11), ("*", 12), ("/", 12), ("%", 12),
   ("^", 8), ("&", 9), ("|", 7), ("<", 6), (">", 6)]

/-- The binary operator that comes next. -/
def binaryOperator? (ts : List Token) : Option (String × Nat) :=
  binaryOperators.find? fun (op, _) ↦ Test.punct op ts

/-- An equals sign that assigns. -/
def assigns : Test :=
  Test.butNot (Test.punct "=") (Test.punct "=>")

/-- The strength of what comes next, zero if it is no operator. -/
def nextStrength (ts : List Token) : Nat :=
  match binaryOperator? ts with
  | some (_, strength) => strength
  | none =>
    if assigns ts then assignStrength
    else if Test.punct ".." ts then rangeStrength
    else if Test.word "as" ts then castStrength
    else 0

/-- Extend a right operand by the operators that bind more tightly than the one in front
of it. -/
def extendRight (g : Grammar) (records : Bool) (strength : Nat) :
    (fuel : Nat) → Expr → Reader Expr
  | 0, _ => failure
  | fuel + 1, right => do
    let before ← ahead
    let next := nextStrength before
    if next > strength || (next = strength && strength = assignStrength) then
      let right ← g.operators records next right
      if (← ahead).length = before.length then
        return right
      g.extendRight records strength fuel right
    else
      return right

/-- The right operand of an operator. -/
def rightOperand (g : Grammar) (records : Bool) (strength : Nat) : Reader Expr := do
  let right ← g.unary records
  bounded fun fuel ↦ g.extendRight records strength fuel right

/-- What shows that a range has no upper bound. -/
def endsRange (records : Bool) : Test :=
  Test.any [Test.atEnd, Test.punct ",", Test.punct ";",
    Test.butNot (Test.punct ".") (Test.punct ".."), Test.punct "?", Test.punct "=>",
    (fun ts ↦ !records && Test.brace ts), Test.punct "=", Test.punct "+", Test.punct "/",
    Test.punct "%", Test.punct "^", Test.punct ">", Test.punct "<=", Test.punct "!=",
    Test.punct "-=", Test.punct "*=", Test.punct "&=", Test.punct "|=", Test.punct "<<=",
    Test.word "as"]

/-- The dots of a range and its upper bound, if it has one. -/
def rangeEnd (g : Grammar) (records : Bool) : Reader (List Expr) := do
  let closed ← punct? "..="
  if !closed then
    require (Test.butNot (Test.punct "..") (Test.punct "..."))
    punct ".."
    if ← peek (endsRange records) then
      return []
  return [← g.rightOperand records rangeStrength]

/-- What must not follow a cast directly. -/
def appliesToCast : Test :=
  Test.any [Test.butNot (Test.punct ".") (Test.punct ".."), Test.punct "?", Test.bracket,
    Test.paren]

/-- The operators behind a left operand that bind at least as strongly as the base. -/
def operatorsRule (g : Grammar) (records : Bool) (base : Nat) (left : Expr) : Reader Expr := do
  if left.form = .range then
    return left
  match binaryOperator? (← ahead) with
  | some (op, strength) =>
    if strength < base then
      return left
    if strength = compareStrength && left.form = .comparison then
      failure
    punct op
    let right ← g.rightOperand records strength
    let form := if strength = compareStrength then Form.comparison else .plain
    g.operators records base (.node form [left, right])
  | none =>
    if assignStrength ≥ base && (← peek assigns) then
      punct "="
      let right ← g.rightOperand records assignStrength
      g.operators records base (.node .plain [left, right])
    else if rangeStrength ≥ base && (← peek (Test.punct "..")) then
      let upper ← g.rangeEnd records
      g.operators records base (.node .range (left :: upper))
    else if ← word? "as" then
      let (_, found) ← collect (g.type false)
      if ← peek appliesToCast then
        failure
      g.operators records base (.node .plain (left :: found))
    else
      return left

end GuestBridge.Host.Grammar
