import GuestBridge.Expansion.Plan
import GuestBridge.Text.Uppercase

/-!
# Writing an expansion

The tokens of an expansion: the function, which calls its wrapper, and a module of the same
name with the wrapper, built on first use, and a function that maps it over a batch.
-/

namespace GuestBridge.Expansion

open Host

/-- Punctuation characters that stick together. -/
def mark (s : String) : List Token :=
  match s.toList.reverse with
  | [] => []
  | c :: cs => cs.reverse.map (Token.punct · true) ++ [.punct c false]

/-- A group in parentheses. -/
def parens (ts : List Token) : List Token := [.group .paren ts]

/-- A group in brackets. -/
def brackets (ts : List Token) : List Token := [.group .bracket ts]

/-- A group in braces. -/
def braces (ts : List Token) : List Token := [.group .brace ts]

/-- Words in sequence. -/
def wordList (ws : List String) : List Token :=
  ws.map .word

/-- Words behind double colons each, the first one too. -/
def rooted (ws : List String) : List Token :=
  ws.flatMap fun w ↦ mark "::" ++ [.word w]

/-- Tokens between angle brackets. -/
def angles (ts : List Token) : List Token :=
  mark "<" ++ ts ++ mark ">"

/-- A string literal for a text. -/
def stringLiteral (s : String) : Token :=
  .literal (Text.quoteLiteral s)

/-- An attribute that holds a documentation line, given by its literal. -/
def docAttribute (literal : Token) : List Token :=
  mark "#" ++ brackets ([.word "doc"] ++ mark "=" ++ [literal])

/-- An owned string made from a literal. -/
def ownedString (literal : Token) : List Token :=
  rooted ["std", "string", "String", "from"] ++ parens [literal]

/-- An optional owned string. -/
def optionalString : Option Token → List Token
  | some literal => rooted ["core", "option", "Option", "Some"] ++ parens (ownedString literal)
  | none => rooted ["core", "option", "Option", "None"]

/-- Pieces with commas between them. -/
def separated : List (List Token) → List Token
  | [] => []
  | [piece] => piece
  | piece :: pieces => piece ++ mark "," ++ separated pieces

/-- Pieces with a comma behind each. -/
def terminated (pieces : List (List Token)) : List Token :=
  pieces.flatMap (· ++ mark ",")

/-- A field with its value and a comma. -/
def fieldToken (name : String) (value : List Token) : List Token :=
  [.word name] ++ mark ":" ++ value ++ mark ","

/-- The type of results. -/
def resultOf (type : List Token) : List Token :=
  rooted ["jlext", "Result"] ++ angles type

/-- The type of wrappers. -/
def wrapperType : List Token :=
  rooted ["jlext", "JuliaFunction"]

/-- The function that takes the place of the item: its attributes, its visibility and its
signature over a call of the wrapper. -/
def functionTokens (x : Expansion) : List Token :=
  let name := Token.word x.item.name
  let params := x.params.map fun (param, type) ↦ [.word param] ++ mark ":" ++ type
  let arguments := terminated (x.params.map fun (param, _) ↦ [.word param])
  let call := [name] ++ rooted ["function"] ++ parens [] ++ mark "." ++ wordList ["call_as"] ++
    mark "::" ++ angles x.result ++ parens (parens arguments)
  x.item.attributes.flatMap (·.tokens) ++ x.item.visibility ++ [.word "fn", name] ++
    parens (separated params) ++ mark "->" ++ resultOf x.result ++ braces call

/-- The parts that the wrapper is made of. -/
def partsTokens (x : Expansion) : List Token :=
  let params := x.params.map fun (param, _) ↦ ownedString (stringLiteral (unraw param))
  fieldToken "host_name" (ownedString (stringLiteral x.item.hostName)) ++
    fieldToken "params" (rooted ["std", "vec"] ++ mark "!" ++ brackets (separated params)) ++
    fieldToken "source" (ownedString (stringLiteral x.source)) ++
    fieldToken "name" (optionalString (x.guestName.map .literal)) ++
    fieldToken "doc" (optionalString (x.doc.map stringLiteral))

/-- The name of the variable that keeps the wrapper. -/
def wrapperVariable (x : Expansion) : Token :=
  .word (Text.upper x.item.hostName)

/-- The function that gives the wrapper, built on first use. -/
def wrapperTokens (x : Expansion) : List Token :=
  let lazy := rooted ["jlext", "__private", "Lazy"]
  let bridge := rooted ["std", "sync", "Arc", "clone"] ++
    parens (rooted ["jlext", "Runtime", "global"] ++ parens [])
  let parts := rooted ["jlext", "FunctionParts"] ++ braces x.partsTokens
  let build := wrapperType ++ rooted ["new"] ++ parens (terminated [bridge, parts])
  let keep := [.word "static", x.wrapperVariable] ++ mark ":" ++ lazy ++ angles wrapperType ++
    mark "=" ++ lazy ++ rooted ["new"] ++ parens (mark "||" ++ braces build) ++ mark ";"
  docAttribute (.literal "r\" The wrapper behind the function, built on first use.\"") ++
    wordList ["pub", "fn", "function"] ++ parens [] ++ mark "->" ++ mark "&" ++
    [.lifetime "'static"] ++ wrapperType ++ braces (keep ++ mark "&" ++ [x.wrapperVariable])

/-- The function that maps the wrapper over a batch of argument tuples. -/
def mapTokens (x : Expansion) : List Token :=
  let tuple := parens (terminated (x.params.map (·.2)))
  let batch := [.word "batch"] ++ mark ":" ++ rooted ["std", "vec", "Vec"] ++ angles tuple
  let call := [.word "function"] ++ parens [] ++ mark "." ++ [.word "map_as"] ++ mark "::" ++
    angles (x.result ++ mark "," ++ [.word "_"]) ++ parens [.word "batch"]
  docAttribute (.literal "r\" Apply the function to every argument tuple in one round trip.\"") ++
    wordList ["pub", "fn", "map"] ++ parens (batch ++ mark ",") ++ mark "->" ++
    resultOf (rooted ["std", "vec", "Vec"] ++ angles x.result) ++ braces call

/-- The module that stands beside the function. -/
def moduleTokens (x : Expansion) : List Token :=
  let doc := s!"Julia side of [`{x.item.hostName}`](fn@{x.item.name})."
  let imports := mark "#" ++ brackets ([.word "allow"] ++ parens [.word "unused_imports"]) ++
    wordList ["use", "super"] ++ mark "::" ++ mark "*" ++ mark ";"
  docAttribute (stringLiteral doc) ++ x.item.visibility ++ [.word "mod", .word x.item.name] ++
    braces (imports ++ x.wrapperTokens ++ x.mapTokens)

/-- The tokens of an expansion. -/
def tokens (x : Expansion) : List Token :=
  x.functionTokens ++ x.moduleTokens

/-- The text of an expansion: its tokens separated by single spaces. -/
def render (x : Expansion) : String :=
  Token.render x.tokens

end GuestBridge.Expansion
