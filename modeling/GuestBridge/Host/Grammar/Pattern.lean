import GuestBridge.Host.Grammar.Type

/-!
# Patterns

The patterns of parameters, bindings, loops, matches and closures. A pattern tells the
syntax around it what it looks like; constant blocks inside it are noted.
-/

namespace GuestBridge.Host.Grammar

open Reader

/-- The dots of a range in a pattern; the answer is whether the range includes its end. The
old spelling with three dots includes it, too. -/
def patternDots : Reader Bool := do
  if ← punct? "..=" then
    return true
  if ← punct? "..." then
    return true
  punct ".."
  return false

/-- What ends a range in a pattern that has no upper bound. -/
def endsPatternRange : Test :=
  Test.any [Test.atEnd, Test.punct "|", Test.punct "=",
    Test.butNot (Test.punct ":") (Test.punct "::"), Test.punct ",", Test.punct ";",
    Test.word "if"]

/-- A bound of a range in a pattern: a literal, a path or a constant block. -/
def patternBound (g : Grammar) : Reader Unit := do
  if ← peek Test.literal then
    let _ ← literal
  else if ← peek startsPath then
    let _ ← g.qualifiedPath true
  else
    word "const"
    embed (.node .control [.ofBody (← g.body)])

/-- A bound of a range in a pattern, which may be absent. The answer is whether it is
there. -/
def patternBound? (g : Grammar) : Reader Bool := do
  if ← peek endsPatternRange then
    return false
  g.patternBound
  return true

/-- The rest of a range in a pattern, from its dots on. -/
def patternRange (g : Grammar) : Reader PatternShape := do
  let closed ← patternDots
  let hasEnd ← g.patternBound?
  if closed && !hasEnd then
    failure
  return if hasEnd then .other else .openRange

/-- The alternatives of a pattern. -/
def patternAlternatives (g : Grammar) : Reader PatternShape := do
  let leading ← punct? "|"
  let first ← g.pattern
  let bar := Test.butNot (Test.punct "|") (Test.or (Test.punct "||") (Test.punct "|="))
  let more ← repeatWhile bar do
    punct "|"
    g.pattern
  return if leading || !more.isEmpty then .other else first

/-- The name or the position of a field; the answer is whether it is a name. -/
def member : Reader Bool := do
  if ← peek Test.ident then
    skip 1
    return true
  let _ ← takeIf position
  return false
where
  /-- The position of a field. -/
  position : Test
    | .literal text :: _ => NumberLiteral.isIndex text
    | _ => false

/-- A field of a record pattern. -/
def fieldPattern (g : Grammar) : Reader Unit := do
  let boxed ← word? "box"
  let byRef ← word? "ref"
  let mutable ← word? "mut"
  let marked := boxed || byRef || mutable
  let named ← if marked then (do let _ ← ident; return true) else member
  if !named || (!marked && (← peek (Test.punct ":"))) then
    punct ":"
    let _ ← g.patternAlternatives

/-- The fields of a record pattern. -/
def fieldPatterns (g : Grammar) : (fuel : Nat) → Reader Unit
  | 0 => failure
  | fuel + 1 => do
    if ← peek Test.atEnd then
      return
    let _ ← g.outerAttributes
    if ← punct? ".." then
      return
    g.fieldPattern
    if ← peek Test.atEnd then
      return
    punct ","
    g.fieldPatterns fuel

/-- A pattern that starts with a path: a macro, a record, a tuple record, a range or a
constant. -/
def pathPattern (g : Grammar) : Reader PatternShape := do
  let shape ← g.qualifiedPath true
  let bang ← peek (Test.butNot (Test.punct "!") (Test.punct "!="))
  if !shape.qualified && shape.bare && bang then
    punct "!"
    let _ ← anyGroup
    return .other
  if ← peek Test.brace then
    group .brace (bounded g.fieldPatterns)
    return .record shape.last
  if ← peek Test.paren then
    let _ ← group .paren (commaList g.patternAlternatives)
    return .tupleRecord shape.last
  if ← peek (Test.punct "..") then
    return ← g.patternRange
  return .other

/-- A name, with what refines it. -/
def namePattern (g : Grammar) : Reader PatternShape := do
  let _ ← word? "ref"
  let _ ← word? "mut"
  let name ← if ← peek (Test.word "self") then anyWord else ident
  if ← punct? "@" then
    let _ ← g.pattern
    return .name name true
  return .name name false

/-- A pattern in parentheses or a tuple. The answer is its shape. -/
def parenPattern (g : Grammar) : Reader PatternShape :=
  group .paren do
    if ← peek Test.atEnd then
      return .tuple
    let first ← g.patternAlternatives
    if ← peek Test.atEnd then
      return if first = .rest then .tuple else .other
    punct ","
    let _ ← commaList g.patternAlternatives
    return .tuple

/-- A slice. Ranges that lack an end must stand in parentheses inside it. -/
def slicePattern (g : Grammar) : Reader PatternShape := do
  let shapes ← group .bracket (commaList g.patternAlternatives)
  if shapes.contains .openRange then failure else return .other

/-- A constant or a range that starts with one. A range without upper bound is open. -/
def constantPattern (g : Grammar) : Reader PatternShape := do
  g.patternBound
  if ← peek (Test.punct "..") then
    g.patternRange
  else
    return .other

/-- A range without lower bound, or the rest of a sequence. -/
def restPattern (g : Grammar) : Reader PatternShape := do
  let closed ← punct? "..="
  if !closed then
    punct ".."
  if ← g.patternBound? then
    return .openRange
  if closed then failure else return .rest

/-- A pattern without alternatives. -/
def patternRule (g : Grammar) : Reader PatternShape := do
  let beforePath := Test.any [Test.punct "::", Test.punct "!", Test.brace, Test.paren,
    Test.punct ".."]
  let path := Test.any [Test.and Test.ident (Test.second beforePath),
    Test.and (Test.word "self") (Test.second (Test.punct "::")), Test.punct "::",
    Test.punct "<", Test.oneOf ["Self", "super", "crate"]]
  if ← peek path then
    g.pathPattern
  else if ← word? "_" then
    return .wildcard
  else if ← word? "box" then
    let _ ← g.pattern
    return .other
  else if ← peek (Test.any [Test.punct "-", Test.literal, Test.word "const"]) then
    g.constantPattern
  else if ← peek (Test.or Test.ident (Test.oneOf ["ref", "mut", "self"])) then
    g.namePattern
  else if ← punct? "&" then
    let _ ← word? "mut"
    let _ ← g.pattern
    return .reference
  else if ← peek Test.paren then
    g.parenPattern
  else if ← peek Test.bracket then
    g.slicePattern
  else
    require (Test.butNot (Test.punct "..") (Test.punct "..."))
    g.restPattern

end GuestBridge.Host.Grammar
