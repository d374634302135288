import GuestBridge.Host.Grammar.Generics

/-!
# Types

The types of host source. A sum of bounds is a type only where nothing binds more tightly
than its plus signs.
-/

namespace GuestBridge.Host.Grammar

open Reader

/-- What stands between the parentheses that start a type. -/
inductive Parenthesised where
  /-- A complete type. -/
  | whole
  /-- An optional bound, which further bounds may follow. -/
  | optional
  /-- A single type. -/
  | single (shape : TypeShape)
  deriving DecidableEq, Repr

/-- Read what stands between the parentheses that start a type. -/
def parenthesised (g : Grammar) : Reader Parenthesised := do
  if ← peek Test.atEnd then
    return .whole
  if ← peek Test.lifetime then
    let _ ← g.boundsWithTrait true false false
    return .whole
  if ← peek (Test.punct "?") then
    let _ ← g.traitBound false
    return .optional
  let shape ← g.type true
  if ← punct? "," then
    let _ ← commaList (g.type true)
    return .whole
  return .single shape

/-- Bounds behind a first one, each after a plus sign. -/
def furtherBounds (g : Grammar) : Reader (List BoundKind) :=
  repeatWhile (Test.punct "+") do
    punct "+"
    g.bound false false

/-- A type in parentheses, a tuple, or a sum that starts with a bound in parentheses. -/
def parenType (g : Grammar) (plus : Bool) : Reader TypeShape := do
  match ← group .paren g.parenthesised with
  | .whole => return .other
  | .optional =>
    let more ← g.furtherBounds
    return if more.isEmpty then .bound else .other
  | .single shape =>
    if plus && shape ≠ .other then
      let _ ← g.furtherBounds
    return .other

/-- A type that starts with a path: the path itself, a macro, or a sum of bounds. -/
def pathType (g : Grammar) (plus bound : Bool) : Reader TypeShape := do
  let shape ← g.typePath
  if shape.qualified then
    return .other
  if shape.bare && (← peek (Test.butNot (Test.punct "!") (Test.punct "!="))) then
    punct "!"
    let _ ← anyGroup
    return .other
  let sum ← peek (Test.punct "+")
  if bound || (plus && sum) then
    if plus && sum then
      punct "+"
      if ← peek (continuesBounds false) then
        let _ ← bounded (g.boundSum true false false)
      return .other
    return .bound
  return if shape.single then .name else .path

/-- An argument of a function type; the first one may be a receiver. -/
def functionTypeArgument (g : Grammar) (first : Bool) : Reader Unit := do
  let mutable := first && (← peek (Test.and (Test.word "mut") (Test.second (Test.word "self"))))
  if mutable then
    skip 1
  let receiver := first && (← peek (Test.word "self"))
  let namable ← peek (Test.or Test.ident (Test.word "_"))
  let named := (namable || receiver) && (← peek (Test.second
    (Test.butNot (Test.punct ":") (Test.punct "::"))))
  if named then
    skip 1
    punct ":"
  if mutable && !named then
    word "self"
  else
    let _ ← g.type true

/-- The dots that stand for further arguments, possibly named. -/
def functionTypeDots : Test :=
  Test.or (Test.punct "...")
    (Test.and (Test.or Test.ident (Test.word "_"))
      (Test.and (Test.second (Test.punct ":")) (Test.third (Test.punct "..."))))

/-- The arguments of a function type. -/
def functionTypeArguments (g : Grammar) : (first : Bool) → (fuel : Nat) → Reader Unit
  | _, 0 => failure
  | first, fuel + 1 => do
    if ← peek Test.atEnd then
      return
    let _ ← g.outerAttributes
    if ← peek functionTypeDots then
      if ← peek (Test.or Test.ident (Test.word "_")) then
        skip 1
        punct ":"
      punct "..."
      let _ ← punct? ","
    else
      g.functionTypeArgument first
      if ← peek Test.atEnd then
        return
      punct ","
      g.functionTypeArguments false fuel

/-- A function type, from its qualifiers on. -/
def functionType (g : Grammar) : Reader Unit := do
  let _ ← word? "unsafe"
  abi?
  word "fn"
  group .paren (bounded (g.functionTypeArguments true))
  g.resultType false

/-- What can start a path. -/
def startsPath : Test :=
  Test.any [Test.ident, Test.oneOf ["super", "self", "Self", "crate"], Test.punct "::",
    Test.punct "<"]

/-- A type. -/
def typeRule (g : Grammar) (plus : Bool) : Reader TypeShape := do
  let bound ← g.binder?
  if bound then
    require (Test.or Test.ident
      (Test.oneOf ["fn", "unsafe", "extern", "super", "self", "Self", "crate"]))
  if ← peek Test.paren then
    g.parenType plus
  else if ← peek (Test.oneOf ["fn", "unsafe", "extern"]) then
    g.functionType
    return .other
  else if ← peek startsPath then
    g.pathType plus bound
  else if ← word? "dyn" then
    let _ ← punct? "*"
    let _ ← g.boundsWithTrait plus false false
    return .other
  else if ← peek Test.bracket then
    group .bracket do
      let _ ← g.type true
      if ← punct? ";" then
        embed (← g.expr true)
    return .other
  else if ← punct? "*" then
    let _ ← takeIf (Test.oneOf ["const", "mut"])
    let _ ← g.type false
    return .other
  else if ← punct? "&" then
    let _ ← lifetime?
    let _ ← word? "mut"
    let _ ← g.type false
    return .other
  else if ← punct? "!" then
    return .other
  else if ← word? "impl" then
    let _ ← g.boundsWithTrait plus true true
    return .other
  else if ← word? "_" then
    return .other
  else
    require Test.lifetime
    let (kinds, hanging) ← g.boundsWithTrait true false false
    return if kinds.length = 1 && !hanging then .bound else .other

end GuestBridge.Host.Grammar
