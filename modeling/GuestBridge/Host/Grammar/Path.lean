import GuestBridge.Host.Grammar.Basic

/-!
# Paths and generic arguments

A path is a sequence of words between double colons. In types a word takes its arguments
directly, in expressions behind double colons. Arguments are written again with the
lifetimes in front.
-/

namespace GuestBridge.Host

/-- What a path looks like to the syntax around it. -/
structure PathShape where
  /-- The last word. -/
  last : String
  /-- Whether the path is one word without colons in front. -/
  single : Bool
  /-- Whether no word has arguments. -/
  bare : Bool
  /-- Whether the last word may take parenthesised arguments. -/
  free : Bool
  /-- Whether the path starts with a type in angle brackets. -/
  qualified : Bool
  deriving Repr, Inhabited

/-- An argument between angle brackets, as it is written again. -/
structure GenericArg where
  isLifetime : Bool
  tokens : List Token
  /-- Whether a comma follows it. -/
  comma : Bool
  deriving Repr, Inhabited

/-- The comma between arguments. -/
def GenericArg.separator : Token :=
  .punct ',' false

/-- Arguments as they are written again: the lifetimes first, each with the comma that
followed it, and commas where they are missing between the others. -/
def GenericArg.arrange (args : List GenericArg) : List Token :=
  let lifetimes := args.filter (·.isLifetime)
  let others := args.filter (!·.isLifetime)
  let separated := match lifetimes.getLast? with
    | some arg => arg.comma
    | none => true
  lifetimes.flatMap written ++ go separated others
where
  /-- An argument with the comma that followed it. -/
  written (arg : GenericArg) : List Token :=
    arg.tokens ++ if arg.comma then [separator] else []
  /-- The arguments that are no lifetimes; the flag says whether they are separated from
  what stands before them. -/
  go : (separated : Bool) → List GenericArg → List Token
    | _, [] => []
    | separated, arg :: args =>
      (if separated then [] else [separator]) ++ written arg ++ go arg.comma args

namespace Grammar

open Reader

/-- A constant argument: a literal, a word or a block. -/
def constArgument (g : Grammar) : Reader Unit := do
  if ← peek Test.literal then
    let _ ← literal
  else if ← peek Test.ident then
    let _ ← anyWord
  else
    let stmts ← g.body
    embed (.ofBody stmts)

/-- The bounds of a constrained argument. -/
def constraintBounds (g : Grammar) : Reader Unit := do
  let _ ← plusList (Test.or (Test.punct ",") (Test.punct ">")) (g.bound false true)

/-- An argument between angle brackets. The answer is whether it is a lifetime. -/
def genericArgument (g : Grammar) : Reader Bool := do
  if ← peek (Test.butNot Test.lifetime (Test.second (Test.punct "+"))) then
    lifetime
    return true
  if ← peek (Test.or Test.literal Test.brace) then
    g.constArgument
    return false
  let shape ← g.type true
  if shape = .name then
    if ← punct? "=" then
      if ← peek (Test.or Test.literal Test.brace) then
        g.constArgument
      else
        let _ ← g.type true
    else if ← punct? ":" then
      g.constraintBounds
  return false

/-- The arguments up to the closing angle bracket. -/
def genericArguments (g : Grammar) : (fuel : Nat) → Reader (List GenericArg)
  | 0 => failure
  | fuel + 1 => do
    if ← peek (Test.punct ">") then
      return []
    let (isLifetime, tokens) ← capture g.genericArgument
    if ← peek (Test.punct ">") then
      return [{ isLifetime, tokens, comma := false }]
    punct ","
    let rest ← g.genericArguments fuel
    return { isLifetime, tokens, comma := true } :: rest

/-- The opening angle bracket as it is written again, behind double colons if there are any. -/
def angleStart (colons : Bool) : List Token :=
  (if colons then [.punct ':' true, .punct ':' false] else []) ++ [.punct '<' false]

/-- Arguments between angle brackets, possibly behind double colons. The answer is whether
there are none. -/
def angleArguments (g : Grammar) : Reader Bool :=
  substituting do
    let colons ← punct? "::"
    punct "<"
    let args ← bounded g.genericArguments
    punct ">"
    return (args.isEmpty, angleStart colons ++ GenericArg.arrange args ++ [.punct '>' false])

/-- A result type, which may be absent. -/
def resultType (g : Grammar) (plus : Bool) : Reader Unit := do
  if ← punct? "->" then
    let _ ← g.type plus

/-- Parenthesised arguments with a result type. -/
def parenArguments (g : Grammar) : Reader Unit := do
  let _ ← group .paren (commaList (g.type true))
  g.resultType false

/-- A word of a path with its arguments: the word, whether it has arguments, and whether
it may take parenthesised ones. -/
def pathSegment (g : Grammar) (inExpr : Bool) : Reader (String × Bool × Bool) := do
  if ← peek (Test.oneOf ["super", "self", "crate", "try"]) then
    return (← anyWord, false, true)
  let text ← if ← peek (Test.word "Self") then anyWord else ident
  let direct := Test.any [Test.punct "<=", Test.punct "<<="]
  let angle ← peek (Test.butNot (Test.punct "<") direct)
  let turbofish ← peek (Test.and (Test.punct "::") (Test.third (Test.punct "<")))
  if (!inExpr && angle) || turbofish then
    let none ← g.angleArguments
    return (text, true, none)
  return (text, false, true)

/-- More words of a path behind its first one, each after double colons. A parenthesis
behind the colons ends the path. -/
def morePathSegments (g : Grammar) (inExpr : Bool) : Reader (List (String × Bool × Bool)) :=
  repeatWhile (Test.butNot (Test.punct "::") (Test.third Test.paren)) do
    punct "::"
    g.pathSegment inExpr

/-- The shape of a path from its words. -/
def pathShape (rooted qualified : Bool) (first : String × Bool × Bool)
    (more : List (String × Bool × Bool)) : PathShape :=
  let (last, _, free) := more.getLast?.getD first
  { last, free, qualified
    single := !rooted && !qualified && more.isEmpty
    bare := (first :: more).all fun (_, hasArguments, _) ↦ !hasArguments }

/-- An unqualified path. -/
def path (g : Grammar) (inExpr : Bool) : Reader PathShape := do
  let rooted ← punct? "::"
  let first ← g.pathSegment inExpr
  let more ← g.morePathSegments inExpr
  return pathShape rooted false first more

/-- A path that may start with a type in angle brackets. -/
def qualifiedPath (g : Grammar) (inExpr : Bool) : Reader PathShape := do
  if ← punct? "<" then
    let _ ← g.type true
    if ← word? "as" then
      let _ ← g.path false
    punct ">"
    punct "::"
    let first ← g.pathSegment inExpr
    let more ← repeatWhile (Test.punct "::") do
      punct "::"
      g.pathSegment inExpr
    return pathShape true true first more
  g.path inExpr

/-- Parenthesised arguments behind a path, if it may take them and they come next. Double
colons in front of them are not written again. -/
def parenArguments? (g : Grammar) (shape : PathShape) : Reader PathShape := do
  let colons ← peek (Test.and (Test.punct "::") (Test.third Test.paren))
  if shape.free && (colons || (← peek Test.paren)) then
    if colons then
      substituting (do punct "::"; return ((), []))
    g.parenArguments
    return { shape with bare := false, single := false, free := false }
  return shape

/-- A path in a type. -/
def typePath (g : Grammar) : Reader PathShape := do
  g.parenArguments? (← g.qualifiedPath false)

end Grammar

end GuestBridge.Host
