import GuestBridge.Host.Grammar.Statement

/-!
# Items

Functions and the other items that can stand in a block. Only functions are kept as trees;
of the others it matters where they end.
-/

namespace GuestBridge.Host.Grammar

open Reader

/-- The receiver of a method. -/
def receiver (g : Grammar) : Reader Unit := do
  let reference ← punct? "&"
  if reference then
    let _ ← lifetime?
  let _ ← word? "mut"
  word "self"
  if ← askIf (!reference) (punct? ":") then
    let _ ← g.type true

/-- Whether the receiver of a method comes next. A path that starts with `self` and named dots
are none. -/
def receiverAhead : Reader Unit := do
  if ← peek (Test.word "self") then
    skip 1
    let path := Test.butNot (Test.punct "::") (Test.punct ":::")
    let dots := Test.and (Test.punct ":") (Test.second (Test.punct "..."))
    if ← peek (Test.or path dots) then
      failure
  else
    if ← punct? "&" then
      let _ ← lifetime?
    let _ ← word? "mut"
    word "self"

/-- The trees of a type. Expressions inside of it belong to it. -/
def typeTrees (g : Grammar) : Reader (List Token) := do
  let ((_, trees), _) ← collect (capture (g.type true))
  return trees

/-- A parameter, or nothing for the dots that stand for further arguments. -/
def param (g : Grammar) : Reader (Option Param) := do
  if (← lookahead receiverAhead).isSome then
    g.receiver
    return some .receiver
  if ← peek (Test.and Test.ident (Test.second (Test.punct "<"))) then
    return some (.typed .wildcard (← g.typeTrees))
  let shape ← g.pattern
  punct ":"
  if ← punct? "..." then
    return none
  return some (.typed shape (← g.typeTrees))

/-- The parameters of a function. A receiver can only be the first one; dots end the list. -/
def params (g : Grammar) : (first : Bool) → (fuel : Nat) → Reader (List Param)
  | _, 0 => failure
  | first, fuel + 1 => do
    if ← peek Test.atEnd then
      return []
    let _ ← g.outerAttributes
    let declared ← if ← punct? "..." then pure none else g.param
    match declared with
    | none =>
      if !(← peek Test.atEnd) then
        punct ","
      return []
    | some p =>
      match p with
      | .receiver => if !first then failure
      | .typed _ _ => pure ()
      if ← peek Test.atEnd then
        return [p]
      punct ","
      return p :: (← g.params false fuel)

/-- What stands between the visibility and the body of a function. -/
structure Signature where
  isAsync : Bool
  name : String
  isGeneric : Bool
  params : List Param
  result : Option (List Token)
  deriving Inhabited

/-- A signature from its qualifiers on; where it is foreign, `safe` may take the place of
`unsafe`. -/
def signature (g : Grammar) (foreign : Bool) : Reader Signature := do
  let _ ← word? "const"
  let isAsync ← word? "async"
  if !(← askIf foreign (word? "safe")) then
    let _ ← word? "unsafe"
  abi?
  word "fn"
  let name ← ident
  let isGeneric ← g.generics
  let params ← group .paren (bounded (g.params true))
  let result ← if ← punct? "->" then pure (some (← g.typeTrees)) else pure none
  let _ ← g.whereClause?
  return { isAsync, name, isGeneric, params, result }

/-- Whether a signature comes next. -/
def signatureAhead (foreign : Bool) : Reader Unit := do
  let _ ← word? "const"
  let _ ← word? "async"
  if !(← askIf foreign (word? "safe")) then
    let _ ← word? "unsafe"
  abi?
  require (Test.word "fn")

/-- A function with its attributes and body. -/
def fnItem (g : Grammar) : Reader FnItem := do
  let outer ← g.outerAttributes
  let (_, visibility) ← capture visibility
  let s ← g.signature false
  let (inner, body) ← group .brace do
    let inner ← g.innerAttributes
    return (inner, ← g.statements)
  return { attributes := outer ++ inner, visibility, isAsync := s.isAsync, name := s.name
           isGeneric := s.isGeneric, params := s.params, result := s.result, body }

/-- A function whose body may be left out. -/
def method (g : Grammar) (foreign : Bool) : Reader Unit := do
  let _ ← g.signature foreign
  if !(← punct? ";") then
    let _ ← g.body

/-- A name, or an underscore in its place. -/
def nameOrBlank : Reader Unit := do
  let _ ← takeIf (Test.or Test.ident (Test.word "_"))

/-- The rest of a constant behind its keyword. -/
def constantRest (g : Grammar) : Reader Unit := do
  nameOrBlank
  let _ ← g.generics
  punct ":"
  let _ ← g.type true
  if ← punct? "=" then
    let _ ← g.expr true
  let _ ← g.whereClause?
  punct ";"

/-- Bounds between plus signs up to where a test holds. -/
def boundsUntil (g : Grammar) (done : Test) (constant : Bool) : Reader Unit := do
  let _ ← bounded (separatedBy "+" done (g.bound false constant))

/-- The rest of a type definition behind its keyword; the flags say where its conditions
may stand. -/
def typeRest (g : Grammar) (early late : Bool) : Reader Unit := do
  let _ ← ident
  let _ ← g.generics
  if ← punct? ":" then
    let done := Test.or (Test.word "where") (Test.or (Test.punct "=") (Test.punct ";"))
    g.boundsUntil done true
  let conditions ← if early then g.whereClause? else pure false
  if ← punct? "=" then
    let _ ← g.type true
  if late && !conditions then
    let _ ← g.whereClause?
  punct ";"

/-- A variable with static lifetime, from its keyword on. Its type or its value may be
left out. -/
def staticRest (g : Grammar) : Reader Unit := do
  word "static"
  let _ ← word? "mut"
  let _ ← ident
  if ← punct? "=" then
    let _ ← g.expr true
    punct ";"
  else
    punct ":"
    let _ ← g.type true
    if !(← punct? ";") then
      punct "="
      let _ ← g.expr true
      punct ";"

/-- A macro invocation as an item. -/
def invocationItem (named : Bool) : Reader Unit := do
  let _ ← simplePath
  punct "!"
  if named && (← peek (Test.or Test.ident (Test.word "try"))) then
    skip 1
  let argument ← anyGroup
  if !Test.brace [argument] then
    punct ";"

/-- What starts a macro invocation as an item. -/
def startsInvocation : Test :=
  Test.any [Test.ident, Test.oneOf ["self", "super", "crate"], Test.punct "::"]

/-- A named field. A field without a name may have an anonymous record as its type. -/
def namedField (g : Grammar) : (fuel : Nat) → Reader Unit
  | 0 => failure
  | fuel + 1 => do
    let _ ← g.outerAttributes
    let _ ← visibility
    let unnamed ← peek (Test.word "_")
    nameOrBlank
    punct ":"
    let anonymous := Test.or (Test.word "struct")
      (Test.and (Test.word "union") (Test.second Test.brace))
    if unnamed && (← peek anonymous) then
      skip 1
      let _ ← group .brace (commaList (g.namedField fuel))
    else
      let _ ← g.type true

/-- The named fields of a record. -/
def namedFields (g : Grammar) : Reader Unit := do
  let _ ← bounded fun fuel ↦ group .brace (commaList (g.namedField fuel))

/-- The unnamed fields of a record. -/
def unnamedFields (g : Grammar) : Reader Unit := do
  let _ ← group .paren <| commaList do
    let _ ← g.outerAttributes
    let _ ← visibility
    let _ ← g.type true

/-- The rest of a record definition behind its generic parameters. -/
def recordRest (g : Grammar) : Reader Unit := do
  let conditions ← g.whereClause?
  if !conditions && (← peek Test.paren) then
    g.unnamedFields
    let _ ← g.whereClause?
    punct ";"
  else if ← peek Test.brace then
    g.namedFields
  else
    punct ";"

/-- A variant of an enumeration. -/
def variant (g : Grammar) : Reader Unit := do
  let _ ← g.outerAttributes
  let _ ← visibility
  let _ ← ident
  if ← peek Test.brace then
    g.namedFields
  else if ← peek Test.paren then
    g.unnamedFields
  if ← punct? "=" then
    let _ ← g.expr true

/-- Items to the end of a group, with the attributes at its head. -/
def itemGroup (g : Grammar) (one : Reader Unit) : Reader Unit :=
  group .brace do
    let _ ← g.innerAttributes
    let _ ← repeatUntil Test.atEnd one

/-- An item with its attributes. -/
def attributedItem (g : Grammar) : Reader Unit := do
  let _ ← g.outerAttributes
  g.item

/-- An item of a foreign block. -/
def foreignItem (g : Grammar) : Reader Unit := do
  let _ ← g.outerAttributes
  let isPublic ← visibility
  if (← lookahead (signatureAhead true)).isSome then
    g.method true
  else if ← peek (Test.or (Test.word "static")
      (Test.and (Test.oneOf ["unsafe", "safe"]) (Test.second (Test.word "static")))) then
    if !(← peek (Test.word "static")) then
      skip 1
    word "static"
    let _ ← word? "mut"
    let _ ← ident
    punct ":"
    let _ ← g.type true
    if ← punct? "=" then
      let _ ← g.expr true
    punct ";"
  else if ← word? "type" then
    g.typeRest true true
  else
    if isPublic then
      failure
    require startsInvocation
    invocationItem false

/-- An item of a trait. -/
def traitItem (g : Grammar) : Reader Unit := do
  let _ ← g.outerAttributes
  let isPublic ← visibility
  let isDefault ← word? "default"
  if (← lookahead (signatureAhead false)).isSome then
    g.method false
  else if ← word? "const" then
    g.constantRest
  else if ← word? "type" then
    g.typeRest false true
  else
    if isPublic || isDefault then
      failure
    require startsInvocation
    invocationItem false

/-- An item of an implementation. -/
def implItem (g : Grammar) : Reader Unit := do
  let _ ← g.outerAttributes
  let isPublic ← visibility
  let isDefault ←
    if ← peek (Test.butNot (Test.word "default") (Test.second (Test.punct "!"))) then
      word? "default"
    else pure false
  if (← lookahead (signatureAhead false)).isSome then
    g.method false
  else if ← word? "const" then
    g.constantRest
  else if ← word? "type" then
    g.typeRest false true
  else
    if isPublic || isDefault then
      failure
    require startsInvocation
    invocationItem false

/-- The rest of a trait behind its generic parameters. -/
def traitRest (g : Grammar) : Reader Unit := do
  if ← punct? ":" then
    g.boundsUntil (Test.or (Test.word "where") Test.brace) true
  let _ ← g.whereClause?
  g.itemGroup g.traitItem

/-- The rest of a trait or of an alias of bounds, behind its keyword. -/
def traitOrAliasRest (g : Grammar) : Reader Unit := do
  let _ ← ident
  let _ ← g.generics
  if ← punct? "=" then
    g.boundsUntil (Test.or (Test.word "where") (Test.punct ";")) false
    let _ ← g.whereClause?
    punct ";"
  else
    g.traitRest

/-- Angle brackets that open generic parameters and not a path. -/
def opensGenerics : Test :=
  Test.and (Test.punct "<") (Test.any
    [Test.second (Test.or (Test.punct ">") (Test.or (Test.punct "#") (Test.word "const"))),
     Test.and (Test.second (Test.or Test.lifetime Test.ident))
      (Test.third (Test.any [Test.punct ">", Test.punct ",",
        Test.butNot (Test.punct ":") (Test.punct "::"), Test.punct "="]))])

/-- An implementation, from its qualifiers on. -/
def implRest (g : Grammar) : Reader Unit := do
  let _ ← word? "default"
  let _ ← word? "unsafe"
  word "impl"
  if ← peek opensGenerics then
    let _ ← g.generics
  if ← peek (Test.or (Test.word "const")
      (Test.and (Test.punct "?") (Test.second (Test.word "const")))) then
    let _ ← punct? "?"
    word "const"
  if ← peek (Test.butNot (Test.punct "!") (Test.second Test.brace)) then
    punct "!"
  let _ ← g.type true
  if ← word? "for" then
    let _ ← g.type true
  let _ ← g.whereClause?
  g.itemGroup g.implItem

/-- The trees between the braces of an import. -/
def useGroup (g : Grammar) (rooted : Bool) : Reader Unit := do
  let _ ← group .brace <| commaList do
    let fromRoot ← if rooted then punct? "::" else pure false
    g.useTree (rooted && !fromRoot)

/-- A tree of imported names. -/
def useTreeRule (g : Grammar) (rooted : Bool) : Reader Unit := do
  if ← peek (Test.or Test.ident (Test.oneOf ["self", "super", "crate", "try"])) then
    skip 1
    if ← punct? "::" then
      g.useTree false
    else if ← word? "as" then
      nameOrBlank
  else if ← punct? "*" then
    return
  else
    g.useGroup rooted

/-- The rest of an import behind its keyword. -/
def useRest (g : Grammar) : Reader Unit := do
  let fromRoot ← punct? "::"
  g.useTree (!fromRoot)
  punct ";"

/-- A foreign block, from its qualifiers on. -/
def foreignRest (g : Grammar) : Reader Unit := do
  let _ ← word? "unsafe"
  abi
  g.itemGroup g.foreignItem

/-- An imported crate, behind its keywords. -/
def externCrateRest : Reader Unit := do
  let _ ← takeIf (Test.or Test.ident (Test.word "self"))
  if ← word? "as" then
    nameOrBlank
  punct ";"

/-- A module, from its qualifiers on. -/
def modRest (g : Grammar) : Reader Unit := do
  let _ ← word? "unsafe"
  word "mod"
  let _ ← takeIf (Test.or Test.ident (Test.word "try"))
  if !(← punct? ";") then
    g.itemGroup g.attributedItem

/-- A macro definition behind its keyword. -/
def macroRest : Reader Unit := do
  let _ ← ident
  if ← peek Test.paren then
    skip 1
  let _ ← wholeGroup .brace

/-- An item behind its attributes. -/
def itemRule (g : Grammar) : Reader Unit := do
  let isPublic ← visibility
  let unsafeBefore (t : Test) : Test := Test.and (Test.word "unsafe") (Test.second t)
  if (← lookahead (signatureAhead false)).isSome then
    g.method false
  else if ← peek (Test.and (Test.word "extern") (Test.second (Test.word "crate"))) then
    skip 2
    externCrateRest
  else if ← peek (Test.or (Test.word "extern") (unsafeBefore (Test.word "extern"))) then
    if isPublic then
      failure
    g.foreignRest
  else if ← word? "use" then
    g.useRest
  else if ← peek (Test.word "static") then
    g.staticRest
  else if ← word? "const" then
    g.constantRest
  else if ← peek (Test.or (Test.word "mod") (unsafeBefore (Test.word "mod"))) then
    g.modRest
  else if ← word? "type" then
    g.typeRest true false
  else if ← word? "struct" then
    let _ ← ident
    let _ ← g.generics
    g.recordRest
  else if ← word? "enum" then
    let _ ← ident
    let _ ← g.generics
    let _ ← g.whereClause?
    let _ ← group .brace (commaList g.variant)
  else if ← peek (Test.and (Test.word "union") (Test.second Test.ident)) then
    skip 1
    let _ ← ident
    let _ ← g.generics
    let _ ← g.whereClause?
    g.namedFields
  else if ← word? "trait" then
    g.traitOrAliasRest
  else if ← peek (Test.or (Test.and (Test.word "auto") (Test.second (Test.word "trait")))
      (unsafeBefore (Test.oneOf ["trait", "auto"]))) then
    let _ ← word? "unsafe"
    let _ ← word? "auto"
    word "trait"
    let _ ← ident
    let _ ← g.generics
    g.traitRest
  else if ← peek (Test.any [Test.word "impl", unsafeBefore (Test.word "impl"),
      Test.butNot (Test.word "default") (Test.second (Test.punct "!"))]) then
    g.implRest
  else if ← word? "macro" then
    macroRest
  else
    if isPublic then
      failure
    require startsInvocation
    invocationItem true

end GuestBridge.Host.Grammar
