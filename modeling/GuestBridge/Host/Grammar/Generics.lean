import GuestBridge.Host.Grammar.Path

/-!
# Bounds and generic parameters

Bounds on types, the parameters between angle brackets and the conditions behind `where`.
-/

namespace GuestBridge.Host.Grammar

open Reader

/-- A parameter that is a lifetime, with the lifetimes that bound it. -/
def lifetimeParam : Reader Unit := do
  lifetime
  if ← punct? ":" then
    let done := Test.any [Test.atEnd, Test.punct ",", Test.punct ">"]
    let _ ← plusList done lifetime

/-- A type parameter with its bounds and default. -/
def typeParam (g : Grammar) : Reader Unit := do
  let _ ← ident
  if ← punct? ":" then
    let done := Test.any [Test.atEnd, Test.punct ",", Test.punct ">", Test.punct "="]
    let _ ← plusList done (g.bound false true)
  if ← punct? "=" then
    let _ ← g.type true

/-- A constant parameter with its type and default. -/
def constParam (g : Grammar) : Reader Unit := do
  word "const"
  let _ ← ident
  punct ":"
  let _ ← g.type true
  if ← punct? "=" then
    g.constArgument

/-- A generic parameter. -/
def genericParam (g : Grammar) : Reader Unit := do
  let _ ← g.outerAttributes
  if ← peek Test.lifetime then
    lifetimeParam
  else if ← peek Test.ident then
    g.typeParam
  else
    g.constParam

/-- A generic parameter of an item, which may also be unnamed. -/
def itemGenericParam (g : Grammar) : Reader Unit := do
  let _ ← g.outerAttributes
  if ← word? "_" then
    return
  g.genericParam

/-- The generic parameters of an item. The answer is whether there are any. -/
def generics (g : Grammar) : Reader Bool := do
  if ← punct? "<" then
    let params ← commas (Test.punct ">") g.itemGenericParam
    punct ">"
    return !params.isEmpty
  return false

/-- The lifetimes that a bound or a function type introduces, if there are any. -/
def binder? (g : Grammar) : Reader Bool := do
  if ← word? "for" then
    punct "<"
    let _ ← commas (Test.punct ">") g.genericParam
    punct ">"
    return true
  return false

/-- A list of captured parameters. -/
def captures : Reader Unit := do
  word "use"
  punct "<"
  let _ ← commas (Test.punct ">") (takeIf captured)
  punct ">"
where
  /-- What can be captured. -/
  captured : Test := Test.any [Test.lifetime, Test.ident, Test.word "Self"]

/-- A bound by a trait: lifetimes, a mark for constant or optional bounds, and a path. -/
def traitBound (g : Grammar) (constant : Bool) : Reader BoundKind := do
  let early ← g.binder?
  let marked ← constMark
  if marked && !constant then
    failure
  let optional ← punct? "?"
  let late ← if optional && !early then g.binder? else pure false
  let _ ← g.parenArguments? (← g.path false)
  if optional && (early || late) then
    failure
  return if marked then .other else .trait
where
  /-- The mark of a constant bound, if it comes next. -/
  constMark : Reader Bool := do
    if ← peek Test.bracket then
      group .bracket (word "const")
      return true
    word? "const"

/-- A bound. -/
def boundRule (g : Grammar) (capturing constant : Bool) : Reader BoundKind := do
  if ← peek Test.lifetime then
    lifetime
    return .lifetime
  if ← peek (Test.word "use") then
    captures
    if capturing then return .other else failure
  if ← peek Test.paren then
    group .paren (g.traitBound constant)
  else
    g.traitBound constant

/-- What may follow a plus sign between bounds. -/
def continuesBounds (constant : Bool) : Test :=
  let marks := if constant then [Test.bracket, Test.word "const"] else []
  Test.any ([Test.anyWord, Test.punct "::", Test.punct "?", Test.lifetime, Test.paren] ++ marks)

/-- Bounds between plus signs, the last of which may be left hanging: their kinds, and
whether it is. -/
def boundSum (g : Grammar) (plus capturing constant : Bool) :
    (fuel : Nat) → Reader (List BoundKind × Bool)
  | 0 => failure
  | fuel + 1 => do
    let kind ← g.bound capturing constant
    if ← askIf plus (punct? "+") then
      if ← peek (continuesBounds constant) then
        let (kinds, hanging) ← g.boundSum plus capturing constant fuel
        return (kind :: kinds, hanging)
      return ([kind], true)
    return ([kind], false)

/-- Bounds of which at least one must be a trait. -/
def boundsWithTrait (g : Grammar) (plus capturing constant : Bool) :
    Reader (List BoundKind × Bool) := do
  let (kinds, hanging) ← bounded (g.boundSum plus capturing constant)
  if kinds.contains .trait then return (kinds, hanging) else failure

/-- Where the conditions of a `where` clause, or the bounds of one, can end. -/
def endsCondition : Test :=
  Test.any [Test.atEnd, Test.brace, Test.punct ",", Test.punct ";",
    Test.butNot (Test.punct ":") (Test.punct "::"), Test.punct "="]

/-- A condition of a `where` clause. -/
def condition (g : Grammar) : Reader Unit := do
  if ← peek (Test.and Test.lifetime (Test.second (Test.punct ":"))) then
    lifetime
    punct ":"
    let _ ← plusList (Test.or endsCondition (Test.punct ":")) lifetime
  else
    let _ ← g.binder?
    let _ ← g.type true
    punct ":"
    let _ ← plusList endsCondition (g.bound false true)

/-- The conditions behind `where`. -/
def conditions (g : Grammar) : (fuel : Nat) → Reader Unit
  | 0 => failure
  | fuel + 1 => do
    if ← peek endsCondition then
      return
    g.condition
    if ← punct? "," then
      g.conditions fuel

/-- A `where` clause if one comes next. -/
def whereClause? (g : Grammar) : Reader Bool := do
  if ← word? "where" then
    bounded g.conditions
    return true
  return false

end GuestBridge.Host.Grammar
